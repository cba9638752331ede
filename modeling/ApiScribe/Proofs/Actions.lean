import Mathlib.Order.Defs.Unbundled

/-!
# Actions on a state

What an action does to its state is described by a preorder. Actions that follow the preorder are
closed under sequencing, so a program follows it when each of its primitive steps does. Actions whose
value does not depend on the state, as long as some condition holds of it, are closed under
sequencing too.
-/

namespace ApiScribe

variable {σ α β : Type}

/-- Every run of the action leads from its state to a related one. -/
def Moves (along : σ → σ → Prop) (action : StateM σ α) : Prop :=
  ∀ state, along state (action.run state).2

/-- A run of an action leads to a related state. -/
theorem Moves.of_run {along : σ → σ → Prop} {action : StateM σ α} (h : Moves along action) {first last : σ}
    {value : α} (hrun : action.run first = (value, last)) : along first last := by
  have hmoves := h first
  rwa [hrun] at hmoves

/-- Changing the state moves along what the change moves along. -/
theorem moves_modify {along : σ → σ → Prop} {change : σ → σ} (h : ∀ state, along state (change state)) :
    Moves along (modify change : StateM σ Unit) := h

section Preorder

variable {along : σ → σ → Prop} [IsPreorder σ along]

/-- Giving a value back moves nothing. -/
theorem moves_pure (value : α) : Moves along (pure value : StateM σ α) :=
  fun state => refl_of along state

/-- Reading the state moves nothing. -/
theorem moves_get : Moves along (get : StateM σ σ) := fun state => refl_of along state

/-- An action followed by another moves along what both move along. -/
theorem moves_bind {action : StateM σ α} {next : α → StateM σ β} (haction : Moves along action)
    (hnext : ∀ value, Moves along (next value)) : Moves along (action >>= next) := by
  intro state
  exact trans_of along (haction state) (hnext (action.run state).1 (action.run state).2)

/-- An action for every entry of a list moves along what each of them moves along. -/
theorem moves_forM {action : α → StateM σ Unit} {values : List α}
    (h : ∀ value ∈ values, Moves along (action value)) : Moves along (values.forM action) := by
  induction values with
  | nil => exact moves_pure ()
  | cons value rest ih =>
    refine moves_bind (h value List.mem_cons_self) fun _ => ih fun other hother => ?_
    exact h other (List.mem_cons_of_mem _ hother)

/-- Filtering by a test that reads the state moves along what the test moves along. -/
theorem moves_filterM {test : α → StateM σ Bool} {values : List α}
    (h : ∀ value ∈ values, Moves along (test value)) : Moves along (values.filterM test) := by
  have haux : ∀ kept, Moves along (values.filterAuxM test kept) := by
    induction values with
    | nil => exact fun kept => moves_pure kept
    | cons value rest ih =>
      intro kept
      refine moves_bind (h value List.mem_cons_self) fun _ => ih (fun other hother => ?_) _
      exact h other (List.mem_cons_of_mem _ hother)
  exact moves_bind (haux []) fun _ => moves_pure _

end Preorder

/-- Filtering by a test that reads the state keeps nothing but what was there. -/
theorem filterM_subset (test : α → StateM σ Bool) (values : List α) (state : σ) :
    ((values.filterM test).run state).1 ⊆ values := by
  have haux : ∀ kept state, ((values.filterAuxM test kept).run state).1 ⊆ values ++ kept := by
    induction values with
    | nil => exact fun kept state _ h => h
    | cons value rest ih =>
      intro kept state other hother
      have hrest := ih (bif ((test value).run state).1 then value :: kept else kept) _ hother
      cases hvalue : ((test value).run state).1 <;> rw [hvalue] at hrest <;> grind
  intro other hother
  have hkept := haux [] state (List.mem_reverse.mp hother)
  simpa using hkept

/-- Where a condition holds, a move along the relation that keeps the condition. -/
def Keeping (holds : σ → Prop) (along : σ → σ → Prop) (first last : σ) : Prop :=
  holds first → along first last ∧ holds last

instance {holds : σ → Prop} {along : σ → σ → Prop} [IsPreorder σ along] :
    IsPreorder σ (Keeping holds along) where
  refl state h := ⟨refl_of along state, h⟩
  trans _ _ _ h h' hfirst :=
    ⟨trans_of along (h hfirst).1 (h' (h hfirst).2).1, (h' (h hfirst).2).2⟩

/-- From every state of which the condition holds, the action gives the value and keeps the condition. -/
def Gives (holds : σ → Prop) (action : StateM σ α) (value : α) : Prop :=
  ∀ state, holds state → (action.run state).1 = value ∧ holds (action.run state).2

section Condition

variable {holds : σ → Prop}

/-- An action without effect gives its value. -/
theorem gives_pure (value : α) : Gives holds (pure value) value := fun _ h => ⟨rfl, h⟩

/-- A change that keeps the property gives the unit. -/
theorem gives_modify {change : σ → σ} (h : ∀ state, holds state → holds (change state)) :
    Gives holds (modify change) () := fun state hstate => ⟨rfl, h state hstate⟩

/-- An action followed by what is done with its value. -/
theorem gives_bind {action : StateM σ α} {next : α → StateM σ β} {value : α} {result : β}
    (haction : Gives holds action value) (hnext : Gives holds (next value) result) :
    Gives holds (action >>= next) result := by
  intro state hstate
  obtain ⟨hvalue, hmiddle⟩ := haction state hstate
  have hrun : (action >>= next).run state = (next value).run (action.run state).2 := by
    rw [← hvalue]
    rfl
  rw [hrun]
  exact hnext _ hmiddle

/-- An action that starts by reading the state. -/
theorem gives_get_bind {next : σ → StateM σ α} {value : α}
    (h : ∀ state, holds state → Gives holds (next state) value) : Gives holds (get >>= next) value :=
  fun state hstate => h state hstate state hstate

/-- Filtering by a test that gives the same answer in every state. -/
theorem gives_filterM {test : α → StateM σ Bool} {answer : α → Bool}
    (h : ∀ value, Gives holds (test value) (answer value)) (values : List α) :
    Gives holds (values.filterM test) (values.filter answer) := by
  have haux : ∀ kept, Gives holds (values.filterAuxM test kept) ((values.filter answer).reverse ++ kept) := by
    induction values with
    | nil => exact fun kept => gives_pure kept
    | cons value rest ih =>
      intro kept
      refine gives_bind (h value) ?_
      cases hanswer : answer value with
      | true => simpa [List.filter_cons, hanswer] using ih (value :: kept)
      | false => simpa [List.filter_cons, hanswer] using ih kept
  refine gives_bind (haux []) ?_
  rw [List.append_nil, List.reverse_reverse]
  exact gives_pure _

/-- The condition alone decides what value the action gives. -/
def Determined (holds : σ → Prop) (action : StateM σ α) : Prop := ∃ value, Gives holds action value

/-- An action without effect is determined. -/
theorem determined_pure (value : α) : Determined holds (pure value) := ⟨value, gives_pure value⟩

/-- Determined actions are determined one after another. -/
theorem determined_bind {action : StateM σ α} {next : α → StateM σ β} (haction : Determined holds action)
    (hnext : ∀ value, Determined holds (next value)) : Determined holds (action >>= next) := by
  obtain ⟨value, hvalue⟩ := haction
  obtain ⟨result, hresult⟩ := hnext value
  exact ⟨result, gives_bind hvalue hresult⟩

end Condition

end ApiScribe
