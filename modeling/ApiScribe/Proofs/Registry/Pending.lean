import ApiScribe.Proofs.Registry.Calls

/-!
# Nothing is left pending

A declaration is settled when it has a component or was given up. A pass over what is pending settles all of
it, though it may load modules that declare more. Since every pass that has something to do settles a name
among those that can ever be declared, the passes come to an end, and then nothing is pending.
-/

namespace ApiScribe

namespace Registry

/-- A declaration has a component or was given up. -/
def isSettled (registry : Registry) (name : QualifiedName) : Bool :=
  (registry.indexOf? name).isSome || registry.failed.contains name

/-- A declaration is opted in and not settled. -/
def isPending (registry : Registry) (name : QualifiedName) : Bool :=
  registry.isOptedIn name && !registry.isSettled name

/-- A declaration is settled if it is built or given up. -/
theorem isSettled_iff {registry : Registry} {name : QualifiedName} :
    registry.isSettled name = true ↔ (∃ id, registry.indexOf? name = some id) ∨ name ∈ registry.failed := by
  simp [isSettled, Option.isSome_iff_exists]

/-- What is settled stays so. -/
theorem Grows.isSettled {first last : Registry} (h : Grows first last) {name : QualifiedName}
    (hname : first.isSettled name = true) : last.isSettled name = true := by
  rw [isSettled_iff] at hname ⊢
  rcases hname with ⟨id, hid⟩ | hfailed
  · exact .inl ⟨id, h.indexed name id hid⟩
  · exact .inr (h.failed hfailed)

/-- Two registries with the same declarations, comments and settled names. -/
structure Agrees (registry state : Registry) : Prop where
  table : state.table = registry.table
  comments : ∀ name, state.commentFor name = registry.commentFor name
  index : state.index = registry.index
  failed : state.failed = registry.failed

/-- Reading a comment agrees with what is known. -/
theorem container_agrees {registry : Registry} (name : QualifiedName) :
    Gives (Agrees registry) (container name) (registry.commentFor name) := by
  intro state h
  rw [container_run_fst, h.comments]
  refine ⟨rfl, ?_⟩
  cases hcomment : state.comment? name with
  | some comment =>
    rw [container_run_known hcomment]
    exact h
  | none =>
    obtain ⟨findings, hrun⟩ := container_run_new hcomment
    rw [hrun]
    exact ⟨h.table, fun other => (commentFor_withComment hcomment other).trans (h.comments other),
      h.index, h.failed⟩

/-- The pending declarations are found without changing any of them. -/
theorem pending_agrees (registry : Registry) :
    Gives (Agrees registry) pending (registry.table.names.filter registry.isPending) := by
  refine gives_bind (schemaDeclarations_gives_of (fun _ h => congrArg Table.declarations h.table)
    container_agrees) ?_
  refine gives_get_bind fun state h => ?_
  have hnames : (registry.table.names.filter registry.isPending) =
      (registry.table.names.filter fun name =>
        registry.table.contains name && (registry.commentFor name).schema).filter fun name =>
          (state.indexOf? name).isNone && !state.failed.contains name := by
    rw [List.filter_filter]
    refine List.filter_congr fun name _ => ?_
    rw [indexOf?_congr h.index, h.failed, isPending, isSettled, isOptedIn, Bool.and_comm, Bool.not_or,
      Option.not_isSome]
  rw [hnames]
  exact gives_pure _

/-- The pending names are read off the table, and what is known stays as it is. -/
theorem pending_run (registry : Registry) :
    (pending.run registry).1 = registry.table.names.filter registry.isPending ∧
      Agrees registry (pending.run registry).2 :=
  pending_agrees registry registry ⟨rfl, fun _ => rfl, rfl, rfl⟩

/-- Asking for a component of what is opted in settles it. -/
theorem synthesize_settles {name : QualifiedName} {registry : Registry} (h : registry.isOptedIn name = true) :
    ((synthesize name).run registry).2.isSettled name = true := by
  obtain ⟨result, last, hrun, hadvances, hanswers⟩ := synthesize_answers name registry
  rw [hrun, isSettled_iff]
  cases result with
  | some id => exact .inl ⟨id, hanswers⟩
  | none => exact .inr (hanswers (hadvances.grows.isOptedIn h))

/-- A pass asks for the components of all names. -/
def synthesizeEach (names : List QualifiedName) : StateM Registry Unit :=
  names.forM fun name => do
    let _ ← synthesize name

/-- Building one after another advances the registry. -/
theorem synthesizeEach_advances (names : List QualifiedName) : Moves Advances (synthesizeEach names) :=
  moves_forM fun name _ => moves_bind (synthesize_advances name) fun _ => moves_pure _

/-- A pass settles everything that is opted in. -/
theorem synthesizeEach_settles {names : List QualifiedName} {registry : Registry}
    (h : ∀ name ∈ names, registry.isOptedIn name = true) :
    ∀ name ∈ names, ((synthesizeEach names).run registry).2.isSettled name = true := by
  induction names generalizing registry with
  | nil => exact fun _ hname => by cases hname
  | cons first rest ih =>
    have hfirst := synthesize_advances first registry
    have hrest : ∀ name ∈ rest, ((synthesize first).run registry).2.isOptedIn name = true := fun name hname =>
      hfirst.grows.isOptedIn (h name (List.mem_cons_of_mem _ hname))
    intro name hname
    change ((synthesizeEach rest).run ((synthesize first).run registry).2).2.isSettled name = true
    rcases List.mem_cons.mp hname with rfl | hname
    · exact (synthesizeEach_advances rest _).grows.isSettled (synthesize_settles (h name List.mem_cons_self))
    · exact ih hrest name hname

/-- One pass settles every pending name. -/
theorem pass_settles (registry : Registry) :
    ∀ name ∈ (pending.run registry).1,
      ((synthesizeEach (pending.run registry).1).run (pending.run registry).2).2.isSettled name = true := by
  refine synthesizeEach_settles fun name hname => ?_
  rw [(pending_run registry).1, List.mem_filter] at hname
  exact (pending_reads registry).grows.isOptedIn (Bool.and_eq_true_iff.mp hname.2).1

/-- How many of the names are not settled. -/
def unsettled (names : List QualifiedName) (registry : Registry) : Nat :=
  names.countP fun name => !registry.isSettled name

/-- A pass that has something to do settles a name that was not. -/
theorem unsettled_pass {registry : Registry} {names : List QualifiedName} (hnames : registry.declarable ⊆ names)
    (h : (pending.run registry).1 ≠ []) :
    unsettled names ((synthesizeEach (pending.run registry).1).run (pending.run registry).2).2 <
      unsettled names registry := by
  obtain ⟨name, hname⟩ := List.exists_mem_of_ne_nil _ h
  have hpending : name ∈ registry.table.names ∧ registry.isPending name = true := by
    rw [(pending_run registry).1] at hname
    exact List.mem_filter.mp hname
  have hgrows : Grows registry ((synthesizeEach (pending.run registry).1).run (pending.run registry).2).2 :=
    (pending_reads registry).grows.trans (synthesizeEach_advances _ _).grows
  refine countP_lt_countP (fun other _ hother => ?_) (hnames (List.mem_append_left _ hpending.1))
    (Bool.and_eq_true_iff.mp hpending.2).2 ?_
  · by_contra hsettled
    rw [hgrows.isSettled (by simpa using hsettled)] at hother
    cases hother
  · rw [pass_settles registry name hname]
    rfl

/-- A pass builds what is pending and leaves the rest to the others. -/
theorem synthesizePasses_succ_run (passes : Nat) (registry : Registry) :
    (synthesizePasses (passes + 1)).run registry =
      if (pending.run registry).1.isEmpty then ((), (pending.run registry).2)
      else (synthesizePasses passes).run
        ((synthesizeEach (pending.run registry).1).run (pending.run registry).2).2 := by
  rw [synthesizePasses, StateT.run_bind]
  rcases pending.run registry with ⟨names, middle⟩
  cases names <;> rfl

variable {names : List QualifiedName} {passes : Nat} {registry : Registry}

/-- More passes than there are names to settle leave nothing pending. -/
theorem pending_synthesizePasses (hnames : registry.declarable ⊆ names)
    (h : unsettled names registry < passes) :
    (pending.run ((synthesizePasses passes).run registry).2).1 = [] := by
  induction passes generalizing registry with
  | zero => cases h
  | succ passes ih =>
    rw [synthesizePasses_succ_run]
    cases hempty : (pending.run registry).1.isEmpty with
    | true =>
      rw [if_pos rfl]
      obtain ⟨hagain, -⟩ := pending_agrees registry _ (pending_run registry).2
      rw [hagain, ← (pending_run registry).1]
      exact List.isEmpty_iff.mp hempty
    | false =>
      rw [if_neg Bool.false_ne_true]
      have hpending : (pending.run registry).1 ≠ [] := fun heq => by simp [heq] at hempty
      have hadvances := (Advances.read (pending_reads registry)).trans (synthesizeEach_advances
        (pending.run registry).1 (pending.run registry).2)
      refine ih (List.Subset.trans hadvances.grows.declarable_subset hnames) ?_
      have hlt := unsettled_pass hnames hpending
      omega

/-- All numbers of passes that exceed the number of names to settle do the same. -/
theorem synthesizePasses_run_eq (hnames : registry.declarable ⊆ names) {passes' : Nat}
    (h : unsettled names registry < passes) (h' : unsettled names registry < passes') :
    (synthesizePasses passes).run registry = (synthesizePasses passes').run registry := by
  induction passes generalizing registry passes' with
  | zero => cases h
  | succ passes ih =>
    cases passes' with
    | zero => cases h'
    | succ passes' =>
      rw [synthesizePasses_succ_run, synthesizePasses_succ_run]
      cases hempty : (pending.run registry).1.isEmpty with
      | true => rfl
      | false =>
        rw [if_neg Bool.false_ne_true, if_neg Bool.false_ne_true]
        have hpending : (pending.run registry).1 ≠ [] := fun heq => by simp [heq] at hempty
        have hadvances := (Advances.read (pending_reads registry)).trans (synthesizeEach_advances
          (pending.run registry).1 (pending.run registry).2)
        have hlt := unsettled_pass hnames hpending
        exact ih (List.Subset.trans hadvances.grows.declarable_subset hnames) (by omega) (by omega)

/-- There are no more unsettled names than names that can be declared. -/
theorem unsettled_le_nameBound (registry : Registry) :
    unsettled registry.declarable registry ≤ registry.nameBound := by
  rw [← length_declarable]
  exact List.countP_le_length

/-- When everything is built, nothing is pending. -/
theorem pending_synthesizeAll (registry : Registry) : (pending.run (synthesizeAll.run registry).2).1 = [] := by
  change (pending.run ((synthesizePasses (registry.nameBound + 1)).run registry).2).1 = []
  exact pending_synthesizePasses (List.Subset.refl _) (Nat.lt_succ_of_le registry.unsettled_le_nameBound)

end Registry

end ApiScribe
