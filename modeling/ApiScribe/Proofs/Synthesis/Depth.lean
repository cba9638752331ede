import ApiScribe.Proofs.Synthesis.Completion

/-!
# The depth of the rules does not matter

Rules of a greater depth do what rules of a smaller depth do wherever those end. Since rules end wherever
the depth exceeds the room in the registry, every such depth gives the same result, and the result obeys
the recursive rules as they stand, without any depth.
-/

namespace ApiScribe

variable {α β : Type}

/-- Wherever an action ends, a further one ends in the same way. -/
def ExtendedBy (action further : Build α) : Prop :=
  ∀ registry result, action.run registry = some result → further.run registry = some result

namespace ExtendedBy

/-- An action extends itself. -/
theorem refl (action : Build α) : ExtendedBy action action := fun _ _ h => h

/-- Extensions compose. -/
theorem trans {action middle further : Build α} (h : ExtendedBy action middle)
    (h' : ExtendedBy middle further) : ExtendedBy action further :=
  fun registry result hrun => h' registry result (h registry result hrun)

/-- Actions that extend others do so one after another. -/
theorem bind {action further : Build α} {next next' : α → Build β} (h : ExtendedBy action further)
    (hnext : ∀ value, ExtendedBy (next value) (next' value)) :
    ExtendedBy (action >>= next) (further >>= next') := by
  intro registry result hrun
  rw [StateT.run_bind] at hrun ⊢
  obtain ⟨⟨value, middle⟩, haction, hrest⟩ := Option.bind_eq_some_iff.mp hrun
  rw [h registry _ haction]
  exact hnext value middle result hrest

/-- An action that starts in the same way. -/
theorem after {action : Build α} {next next' : α → Build β}
    (hnext : ∀ value, ExtendedBy (next value) (next' value)) :
    ExtendedBy (action >>= next) (action >>= next') :=
  bind (refl action) hnext

end ExtendedBy

/-- Wherever rules end, further rules end in the same way. -/
structure Recursion.ExtendedBy (rules further : Recursion) : Prop where
  component : ∀ name, ApiScribe.ExtendedBy (rules.component name) (further.component name)
  inline : ∀ name subject, ApiScribe.ExtendedBy (rules.inline name subject) (further.inline name subject)

namespace Synthesis

open Registry

variable {rules further : Recursion}

/-- Deeper rules give the same schema for a path. -/
theorem resolvePath_extends (h : rules.ExtendedBy further) (segments : List String) (scope : ModulePath)
    (subject : String) :
    ExtendedBy (resolvePath rules segments scope subject) (resolvePath further segments scope subject) := by
  refine .after fun found => ?_
  cases found with
  | none => exact .refl _
  | some name =>
    refine (h.component name).bind fun result => ?_
    cases result with
    | some id => exact .refl _
    | none => exact (h.inline name subject).bind fun _ => .refl _

/-- Deeper rules give the same schema for a type. -/
theorem resolve_extends (h : rules.ExtendedBy further) (scope : ModulePath) (subject : String)
    (type : TypeExpr) : ExtendedBy (resolve rules scope subject type) (resolve further scope subject type) := by
  induction type with
  | primitive | any | unsupported => exact .refl _
  | pointer inner ih => exact ih
  | array inner ih => exact ih.bind fun _ => .refl _
  | map key value _ ih =>
    have hvalue : ExtendedBy (do return (← resolve rules scope subject value).map Schema.mapOf)
        (do return (← resolve further scope subject value).map Schema.mapOf) := ih.bind fun _ => .refl _
    unfold resolve
    dsimp only
    split
    · exact .after fun _ => hvalue
    · exact hvalue
  | named name =>
    refine .after fun known => ?_
    cases known with
    | some known => exact .refl _
    | none => exact resolvePath_extends h [name] scope subject
  | selector qualifier name => exact resolvePath_extends h (qualifier ++ [name]) scope subject

/-- Deeper rules give the same reference for a path in a comment. -/
theorem strictPath_extends (h : rules.ExtendedBy further) (segments : List String) (scope : ModulePath) :
    ExtendedBy (strictPath rules segments scope) (strictPath further segments scope) := by
  refine .after fun found => ?_
  cases found with
  | none => exact .refl _
  | some name =>
    refine .after fun chosen => ?_
    cases chosen with
    | false => exact .refl _
    | true =>
      refine (h.component name).bind fun result => ?_
      cases result <;> exact .refl _

/-- Deeper rules give the same reference for a type in a comment. -/
theorem strict_extends (h : rules.ExtendedBy further) (scope : ModulePath) (type : TypeExpr) :
    ExtendedBy (strict rules scope type) (strict further scope type) := by
  induction type with
  | primitive | any | unsupported => exact .refl _
  | pointer inner ih => exact ih
  | array inner ih => exact ih.bind fun _ => .refl _
  | map key value _ ih => exact ih.bind fun _ => .refl _
  | named name =>
    refine .after fun known => ?_
    cases known with
    | some known => exact .refl _
    | none => exact strictPath_extends h [name] scope
  | selector qualifier name => exact strictPath_extends h (qualifier ++ [name]) scope

/-- Deeper rules give the same reference for a written type. -/
theorem referenceFor_extends (h : rules.ExtendedBy further) (written : String) (scope : ModulePath) :
    ExtendedBy (Synthesis.referenceFor rules written scope) (Synthesis.referenceFor further written scope) := by
  unfold Synthesis.referenceFor
  split
  · exact .refl _
  · exact strict_extends h scope _

/-- Deeper rules give the same members of a composition. -/
theorem members_extends (h : rules.ExtendedBy further) (scope : ModulePath) (subject : String)
    (written : List String) :
    ExtendedBy (members rules scope subject written) (members further scope subject written) := by
  induction written with
  | nil => exact .refl _
  | cons first rest ih =>
    refine (referenceFor_extends h first scope).bind fun result => ?_
    cases result with
    | ok schema => exact ih.bind fun _ => .refl _
    | error fault => exact .after fun _ => ih

/-- Deeper rules give the same schema for a field. -/
theorem fieldSchema_extends (h : rules.ExtendedBy further) (type : TypeExpr) (remarks : Comment.Field)
    (scope : ModulePath) (subject : String) :
    ExtendedBy (fieldSchema rules type remarks scope subject) (fieldSchema further type remarks scope subject) := by
  have htype : ExtendedBy
      (do return (← resolve rules scope subject type).map fun schema => schema.withDetails remarks)
      (do return (← resolve further scope subject type).map fun schema => schema.withDetails remarks) :=
    (resolve_extends h scope subject type).bind fun _ => .refl _
  refine (members_extends h scope subject remarks.oneOf).bind fun found => ?_
  dsimp only
  split
  · split
    · exact .after fun _ => htype
    · exact htype
  · exact .refl _

/-- Deeper rules add a field in the same way. -/
theorem addField_extends (h : rules.ExtendedBy further) (declaration : Declaration) (schema : Schema)
    (field : FieldDeclaration) (position : Nat) :
    ExtendedBy (addField rules declaration schema field position)
      (addField further declaration schema field position) := by
  unfold addField
  split
  · exact .refl _
  · split
    · exact .refl _
    · refine .after fun _ => ?_
      split
      · exact .refl _
      · refine (fieldSchema_extends h _ _ _ _).bind fun result => ?_
        cases result <;> exact .refl _

/-- Deeper rules add fields in the same way. -/
theorem addFields_extends (h : rules.ExtendedBy further) (declaration : Declaration) (schema : Schema)
    (position : Nat) (fields : List FieldDeclaration) :
    ExtendedBy (addFields rules declaration schema position fields)
      (addFields further declaration schema position fields) := by
  induction fields generalizing schema position with
  | nil => exact .refl _
  | cons field rest ih => exact (addField_extends h declaration schema field position).bind fun next => ih next _

/-- Deeper rules give the same schema for a declaration. -/
theorem shapeSchema_extends (h : rules.ExtendedBy further) (declaration : Declaration) :
    ExtendedBy (shapeSchema rules declaration) (shapeSchema further declaration) := by
  unfold shapeSchema
  split
  · exact addFields_extends h declaration _ 0 _
  · exact .refl _
  · exact (resolve_extends h _ _ _).bind fun _ => .refl _
  · exact .refl _

/-- The rule for components extends one over rules that are extended. -/
theorem component_extends (h : rules.ExtendedBy further) (name : QualifiedName) :
    ExtendedBy (component rules name) (component further name) := by
  refine .after fun registry => ?_
  split
  · exact .refl _
  · refine .after fun registry' => ?_
    split
    · exact .refl _
    · refine .after fun chosen => ?_
      split
      · exact .refl _
      · refine .after fun state => ?_
        split
        · exact .refl _
        · split
          · exact .refl _
          · exact .after fun _ => (shapeSchema_extends h _).bind fun _ => .refl _

/-- The rule for other declarations extends one over rules that are extended. -/
theorem inline_extends (h : rules.ExtendedBy further) (name : QualifiedName) (subject : String) :
    ExtendedBy (inline rules name subject) (inline further name subject) := by
  refine .after fun registry => ?_
  split
  · exact .refl _
  · split
    · exact .refl _
    · exact .refl _
    · exact .refl _
    · refine .after fun registry' => ?_
      split
      · exact .refl _
      · exact .after fun _ => (resolve_extends h _ _ _).bind fun _ => .refl _

end Synthesis

namespace Recursion

/-- One more level extends the rules. -/
theorem ofDepth_extendedBy_succ (depth : Nat) : (ofDepth depth).ExtendedBy (ofDepth (depth + 1)) := by
  induction depth with
  | zero =>
    constructor
    · intro name registry result hrun
      cases hrun
    · intro name subject registry result hrun
      cases hrun
  | succ depth ih =>
    exact ⟨fun name => Synthesis.component_extends ih name,
      fun name subject => Synthesis.inline_extends ih name subject⟩

/-- Rules of a greater depth extend those of a smaller one. -/
theorem ofDepth_extendedBy {depth further : Nat} (h : depth ≤ further) :
    (ofDepth depth).ExtendedBy (ofDepth further) := by
  induction h with
  | refl => exact ⟨fun _ => .refl _, fun _ _ => .refl _⟩
  | @step further _ ih =>
    have hsucc := ofDepth_extendedBy_succ further
    exact ⟨fun name => (ih.component name).trans (hsucc.component name),
      fun name subject => (ih.inline name subject).trans (hsucc.inline name subject)⟩

end Recursion

namespace Registry

/-- An action by rules that ends wherever it ends by rules that are extended. -/
def Uniform (action : Recursion → Build α) : Prop :=
  ∀ rules further, rules.ExtendedBy further → ExtendedBy (action rules) (action further)

/-- Rules of different depths give no different results. -/
theorem Uniform.run_unique {action : Recursion → Build α} (h : Uniform action) {depth depth' : Nat}
    {registry : Registry} {result result' : α × Registry}
    (hrun : (action (Recursion.ofDepth depth)).run registry = some result)
    (hrun' : (action (Recursion.ofDepth depth')).run registry = some result') : result = result' := by
  have hmax := h _ _ (Recursion.ofDepth_extendedBy (Nat.le_max_left depth depth')) registry result hrun
  have hmax' := h _ _ (Recursion.ofDepth_extendedBy (Nat.le_max_right depth depth')) registry result' hrun'
  exact Option.some.inj (hmax.symm.trans hmax')

variable {action : Recursion → Build α} {after : α → Registry → Prop}

/-- An action by rules that ends is performed in the same way. -/
theorem Uniform.perform_eq (h : Uniform action) (fallback : α)
    (hcompletes : ∀ names depth rules, Recursion.Complete names depth rules →
      CompletesAlways names depth (action rules) after) {depth : Nat} {registry : Registry}
    {result : α × Registry} (hrun : (action (Recursion.ofDepth depth)).run registry = some result) :
    (perform fallback action).run registry = result := by
  obtain ⟨value, last, hends, -⟩ :=
    hcompletes _ _ _ registry.rules_complete registry registry.fits_declarable trivial
  rw [perform_run_of_some hends]
  exact h.run_unique hends hrun

/-- A depth that exceeds the room in the registry is enough to perform an action. -/
theorem Uniform.run_of_room_lt (h : Uniform action) (fallback : α)
    (hcompletes : ∀ names depth rules, Recursion.Complete names depth rules →
      CompletesAlways names depth (action rules) after) {depth : Nat} {registry : Registry}
    (hroom : registry.room registry.declarable < depth) :
    (action (Recursion.ofDepth depth)).run registry = some ((perform fallback action).run registry) := by
  obtain ⟨value, last, hends, -⟩ :=
    hcompletes _ _ _ (Recursion.ofDepth_complete registry.declarable depth) registry ⟨fun _ h => h, hroom⟩ trivial
  rw [hends, h.perform_eq fallback hcompletes hends]

end Registry

/-- The rules without any depth. -/
def Recursion.unbounded : Recursion where
  component name := liftM (Registry.synthesize name)
  inline name subject := liftM (Registry.perform {} fun rules => rules.inline name subject)

open Registry

/-- Giving a component treats all rules alike. -/
theorem Recursion.uniform_component (name : QualifiedName) :
    Uniform fun rules => rules.component name := fun _ _ h => h.component name

/-- Giving a shape treats all rules alike. -/
theorem Recursion.uniform_inline (name : QualifiedName) (subject : String) :
    Uniform fun rules => rules.inline name subject := fun _ _ h => h.inline name subject

/-- Wherever rules of some depth end, so do the rules without any. -/
theorem Recursion.ofDepth_extendedBy_unbounded (depth : Nat) : (ofDepth depth).ExtendedBy unbounded where
  component name _ _ hrun := congrArg some
    ((uniform_component name).perform_eq none (fun _ _ _ hrules => hrules.component name) hrun)
  inline name subject _ _ hrun := congrArg some
    ((uniform_inline name subject).perform_eq {} (fun _ _ _ hrules => hrules.inline name subject) hrun)

/-- The rules without any depth obey the rule for components. -/
theorem Synthesis.component_unbounded :
    Synthesis.component .unbounded = Recursion.unbounded.component := by
  funext name registry
  obtain ⟨value, last, hends, -⟩ :=
    registry.rules_complete.component name registry registry.fits_declarable trivial
  have hrun := (Recursion.ofDepth_extendedBy_unbounded _).component name registry _ hends
  have hrule := component_extends (Recursion.ofDepth_extendedBy_unbounded _) name registry _ hends
  exact hrule.trans hrun.symm

/-- The rules without any depth obey the rule for other declarations. -/
theorem Synthesis.inline_unbounded : Synthesis.inline .unbounded = Recursion.unbounded.inline := by
  funext name subject registry
  obtain ⟨value, last, hends, -⟩ :=
    registry.rules_complete.inline name subject registry registry.fits_declarable trivial
  have hrun := (Recursion.ofDepth_extendedBy_unbounded _).inline name subject registry _ hends
  have hrule := inline_extends (Recursion.ofDepth_extendedBy_unbounded _) name subject registry _ hends
  exact hrule.trans hrun.symm

/-- Giving the reference for a written type treats all rules alike. -/
theorem Synthesis.uniform_referenceFor (written : String) (scope : ModulePath) :
    Uniform fun rules => Synthesis.referenceFor rules written scope :=
  fun _ _ h => Synthesis.referenceFor_extends h written scope

/-- Written types are looked up by the rules without any depth. -/
theorem Synthesis.referenceFor_unbounded (written : String) (scope : ModulePath) :
    Synthesis.referenceFor .unbounded written scope = liftM (Registry.referenceFor written scope) := by
  funext registry
  obtain ⟨value, last, hends, -⟩ := Synthesis.referenceFor_completes registry.rules_complete written scope
    registry registry.fits_declarable trivial
  have hrule := uniform_referenceFor written scope _ _ (Recursion.ofDepth_extendedBy_unbounded _) registry _ hends
  have hrun : (Registry.referenceFor written scope).run registry = (value, last) := perform_run_of_some hends
  exact hrule.trans (congrArg some hrun.symm)

end ApiScribe
