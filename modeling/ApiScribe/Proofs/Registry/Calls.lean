import ApiScribe.Proofs.Synthesis.Completion

/-!
# Sequences of calls

A user of a registry asks for components, for the schemas of written types and for what comments say,
in any order. Every call is a sequence of steps, so components are interned without collisions and are
never changed again, and nothing is left under construction between two calls.
-/

namespace ApiScribe

namespace Registry

/-- What a registry can be asked for. -/
inductive Call where
  /-- The component of a declaration. -/
  | synthesize (name : QualifiedName)
  /-- All components. -/
  | synthesizeAll
  /-- The schema of a type written in a comment. -/
  | referenceFor (written : String) (scope : ModulePath)
  /-- Whether a declaration is opted in. -/
  | isSchema (name : QualifiedName)
  /-- What the comment of a declaration says. -/
  | container (name : QualifiedName)

/-- The registry after a call. -/
def Call.apply (registry : Registry) : Call → Registry
  | .synthesize name => ((Registry.synthesize name).run registry).2
  | .synthesizeAll => (Registry.synthesizeAll.run registry).2
  | .referenceFor written scope => ((Registry.referenceFor written scope).run registry).2
  | .isSchema name => ((Registry.isSchema name).run registry).2
  | .container name => ((Registry.container name).run registry).2

/-- The registry after a sequence of calls. -/
def after (registry : Registry) (calls : List Call) : Registry := calls.foldl Call.apply registry

/-- Asking for a component advances the registry to one that bears out the answer. -/
theorem synthesize_answers (name : QualifiedName) (first : Registry) :
    ∃ result last, (synthesize name).run first = (result, last) ∧ Advances first last ∧
      last.Answers name result :=
  perform_run none (fun _ _ _ hrules => hrules.component name) first

/-- Asking for a component advances the registry, and a component that is given stands in the index. -/
theorem synthesize_run (name : QualifiedName) (first : Registry) :
    ∃ result last, (synthesize name).run first = (result, last) ∧ Advances first last ∧
      ∀ id, result = some id → last.indexOf? name = some id := by
  obtain ⟨result, last, hrun, hadvances, hanswers⟩ := synthesize_answers name first
  refine ⟨result, last, hrun, hadvances, fun id hid => ?_⟩
  subst hid
  exact hanswers

/-- A component that stands in the index is given as it is. -/
theorem synthesize_run_known {first : Registry} {name : QualifiedName} {id : Nat}
    (h : first.indexOf? name = some id) : (synthesize name).run first = (some id, first) := by
  refine perform_run_of_some ?_
  change (Synthesis.component (Recursion.ofDepth (2 * first.nameBound + 1)) name).run first = _
  unfold Synthesis.component
  rw [StateT.run_bind, StateT.run_get, pure_bind, h]
  rfl

/-- Asking for a component advances the registry. -/
theorem synthesize_advances (name : QualifiedName) : Moves Advances (synthesize name) := by
  intro first
  obtain ⟨result, last, hrun, hadvances, -⟩ := synthesize_run name first
  rw [hrun]
  exact hadvances

/-- The schema of a written type is found by advancing the registry, which then covers it. -/
theorem referenceFor_run (written : String) (scope : ModulePath) (first : Registry) :
    ∃ result last, (referenceFor written scope).run first = (result, last) ∧ Advances first last ∧
      ∀ schema ∈ result.toOption, last.Covers schema :=
  perform_run _ (fun _ _ _ hrules => Synthesis.referenceFor_completes hrules written scope) first

/-- Asking for a written type advances the registry. -/
theorem referenceFor_advances (written : String) (scope : ModulePath) :
    Moves Advances (referenceFor written scope) := by
  intro first
  obtain ⟨result, last, hrun, hadvances, -⟩ := referenceFor_run written scope first
  rw [hrun]
  exact hadvances

/-- Passes over what is pending advance the registry. -/
theorem synthesizePasses_advances (passes : Nat) : Moves Advances (synthesizePasses passes) := by
  induction passes with
  | zero => exact moves_pure ()
  | succ passes ih =>
    refine moves_bind (fun registry => .read (pending_reads registry)) fun names => ?_
    split
    · exact moves_pure ()
    · refine moves_bind (moves_forM fun name _ => ?_) fun _ => ih
      exact moves_bind (synthesize_advances name) fun _ => moves_pure _

/-- Building everything advances the registry. -/
theorem synthesizeAll_advances : Moves Advances synthesizeAll :=
  moves_bind moves_get fun registry => synthesizePasses_advances (registry.nameBound + 1)

/-- A call that does not ask for a comment advances the registry. -/
theorem Call.apply_advances (registry : Registry) {call : Call} (h : ∀ name, call ≠ .container name) :
    Advances registry (call.apply registry) := by
  cases call with
  | synthesize name => exact synthesize_advances name registry
  | synthesizeAll => exact synthesizeAll_advances registry
  | referenceFor written scope => exact referenceFor_advances written scope registry
  | isSchema name => exact .read (isSchema_reads name registry)
  | container name => exact absurd rfl (h name)

/-- A call takes steps. -/
theorem Call.apply_steps (registry : Registry) (call : Call) : Steps registry (call.apply registry) := by
  cases call with
  | container name => exact container_steps name registry
  | _ => exact .advance (apply_advances registry nofun)

/-- A sequence of calls takes steps. -/
theorem after_steps (registry : Registry) (calls : List Call) : Steps registry (registry.after calls) := by
  induction calls generalizing registry with
  | nil => exact .refl registry
  | cons call rest ih => exact (call.apply_steps registry).trans (ih (call.apply registry))

/-- At the start of a run the registry is prepared. -/
theorem ofResolver_prepares (resolver : Resolver) : Prepares { resolver } (ofResolver resolver) :=
  assignNames_prepares _

/-- The registry of a run is sound between any two calls. -/
theorem sound_after (resolver : Resolver) (calls : List Call) : ((ofResolver resolver).after calls).Sound :=
  (after_steps _ calls).sound ((ofResolver_prepares resolver).sound (sound_ofEmpty resolver))

/-- The components of a sound registry are its nodes by name, each exactly once. -/
theorem Sound.components_perm {registry : Registry} (h : registry.Sound) :
    registry.components.Perm (registry.nodes.map fun node => (node.name, node.schema)) :=
  Text.foldl_insertSorted_perm (fun a b => (Text.compareText_eq_iff a b).mp) Node.name Node.schema
    registry.nodes [] h.componentNames_nodup

/-- Interning never collides: in every registry that calls lead to, canonical names and component names
are distinct, the index is exact, and every node is one entry among the components. -/
theorem interned_after (resolver : Resolver) (calls : List Call) :
    let registry := (ofResolver resolver).after calls
    (registry.nodes.map Node.canonical).Nodup ∧
    (registry.nodes.map Node.name).Nodup ∧
    (∀ name id, registry.indexOf? name = some id ↔
      ∃ node, registry.nodes[id]? = some node ∧ node.canonical = name) ∧
    registry.components.Perm (registry.nodes.map fun node => (node.name, node.schema)) ∧
    registry.components.length = registry.nodes.length := by
  intro registry
  have hsound : registry.Sound := sound_after resolver calls
  refine ⟨hsound.canonical, hsound.componentNames_nodup, fun name id => ?_, hsound.components_perm, ?_⟩
  · exact hsound.index.indexOf?_eq_some_iff
  · rw [hsound.components_perm.length_eq, List.length_map]

/-- Components are frozen: later calls keep all nodes in front as they are, a component once given is
given again under its number, and nothing is left under construction. -/
theorem frozen_after (resolver : Resolver) (earlier later : List Call) :
    let first := (ofResolver resolver).after earlier
    let last := first.after later
    first.nodes <+: last.nodes ∧
    (∀ name id, ((synthesize name).run first).1 = some id →
      ((synthesize name).run (first.after (.synthesize name :: later))).1 = some id) ∧
    last.visiting = [] ∧ last.expanding = [] := by
  intro first last
  have hgrows : Grows { resolver } last := by
    refine (ofResolver_prepares resolver).grows.trans (Steps.grows ?_)
    exact (after_steps _ earlier).trans (after_steps first later)
  refine ⟨(after_steps first later).grows.nodes, fun name id hid => ?_, hgrows.visiting, hgrows.expanding⟩
  obtain ⟨result, built, hrun, -, hindex⟩ := synthesize_run name first
  have hbuilt : built.indexOf? name = some id := hindex id (by rw [← hid, hrun])
  have hafter : first.after (.synthesize name :: later) = built.after later := by
    change (Call.apply first (.synthesize name)).after later = _
    rw [Call.apply, hrun]
  rw [hafter, synthesize_run_known ((after_steps built later).grows.indexed name id hbuilt)]

/-- The declarations of `struct Pet { parent: Box<Pet> }`, which is opted in. -/
def petResolver : Resolver where
  table.declarations :=
    [(⟨.root, "Pet"⟩,
      { name := ⟨.root, "Pet"⟩
        shape := .struct [⟨some "parent", .path false [] "Box" [.path false [] "Pet" []], [], {}⟩]
        docs := ["openapi:schema"], generics := [], options := {}, source := "src/lib.rs" })]
  table.scopes := [(.root, [])]

/-- A type that refers to itself keeps its number when everything is built and looked up again. -/
theorem frozen_after_pet :
    let pet : QualifiedName := ⟨.root, "Pet"⟩
    let later : List Call := [.synthesizeAll, .referenceFor "Vec<Pet>" .root, .isSchema pet]
    ((synthesize pet).run (ofResolver petResolver)).1 = some 0 ∧
    ((synthesize pet).run ((ofResolver petResolver).after (.synthesize pet :: later))).1 = some 0 :=
  ⟨rfl, (frozen_after petResolver [] _).2.1 _ 0 rfl⟩

end Registry

end ApiScribe
