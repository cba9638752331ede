import ApiScribe.Proofs.Registry.Pending
import ApiScribe.Proofs.Synthesis.Depth

/-!
# Building comes to an end

Types and aliases may refer to each other in any cycle, and looking them up may load modules that declare
more. Building still ends: every level of the rules takes a place in the registry or starts to expand an
alias, so no more levels are needed than the room that the registry has, and every pass over what is pending
settles all of it.
-/

namespace ApiScribe

namespace Registry

/-- Building ends from every registry: any depth that exceeds its room gives the same results, which obey the
rules without any depth; any number of passes that exceeds the number of declarable names does what building
everything does; each pass gives every pending name a component or gives it up; and at the end nothing is
pending. -/
theorem synthesis_ends (registry : Registry) :
    (∀ depth, registry.room registry.declarable < depth →
      (∀ name, ((Recursion.ofDepth depth).component name).run registry =
        some ((synthesize name).run registry)) ∧
      ∀ written scope, (Synthesis.referenceFor (.ofDepth depth) written scope).run registry =
        some ((referenceFor written scope).run registry)) ∧
    (Synthesis.component .unbounded = Recursion.unbounded.component ∧
      Synthesis.inline .unbounded = Recursion.unbounded.inline ∧
      ∀ written scope,
        Synthesis.referenceFor .unbounded written scope = liftM (referenceFor written scope)) ∧
    (∀ passes, registry.nameBound < passes →
      (synthesizePasses passes).run registry = synthesizeAll.run registry) ∧
    (let (names, first) := pending.run registry
      let (_, last) := (synthesizeEach names).run first
      ∀ name ∈ names, (∃ id, last.indexOf? name = some id) ∨ name ∈ last.failed) ∧
    (pending.run (synthesizeAll.run registry).2).1 = [] := by
  refine ⟨fun depth hroom => ⟨fun name => ?_, fun written scope => ?_⟩,
    ⟨Synthesis.component_unbounded, Synthesis.inline_unbounded, Synthesis.referenceFor_unbounded⟩,
    fun passes hpasses => ?_, ?_, registry.pending_synthesizeAll⟩
  · exact (Recursion.uniform_component name).run_of_room_lt none (fun _ _ _ hrules => hrules.component name) hroom
  · exact (Synthesis.uniform_referenceFor written scope).run_of_room_lt _
      (fun _ _ _ hrules => Synthesis.referenceFor_completes hrules written scope) hroom
  · have hbound := registry.unsettled_le_nameBound
    exact synthesizePasses_run_eq (List.Subset.refl _) (by omega) (Nat.lt_succ_of_le hbound)
  · intro name hname
    exact isSettled_iff.mp (registry.pass_settles name hname)

/-- An opted-in type that leads to itself through two aliases, which lead to each other, and to a type of a
module that is loaded on demand. -/
def nodeFile : Source.File where
  path := "src/lib.rs"
  module := .root
  content.attributes := []
  content.items :=
    [.struct ⟨"Node", [⟨some "doc", .text "openapi:schema"⟩], []⟩
      (.named [⟨some "links", .path false [] "Links" [], []⟩,
        ⟨some "leaf", .path false ["crate", "tree"] "Leaf" [], []⟩]),
     .typeAlias ⟨"Links", [], []⟩ (.path false [] "Vec" [.path false [] "Chain" []]),
     .typeAlias ⟨"Chain", [], []⟩ (.path false [] "Option" [.path false [] "Links" []])]

/-- A module with an opted-in type that leads back. -/
def leafFile : Source.File where
  path := "src/tree.rs"
  module := ⟨["tree"]⟩
  content.attributes := []
  content.items :=
    [.struct ⟨"Leaf", [⟨some "doc", .text "openapi:schema"⟩], []⟩
      (.named [⟨some "node", .path false ["crate"] "Node" [], []⟩])]

/-- Building ends although types and aliases lead to each other in cycles. -/
theorem synthesis_ends_cyclic :
    let registry := ofResolver
      { table := (Extraction.ofFiles [nodeFile]).table, loader := ⟨[(⟨["tree"]⟩, .ok leafFile)]⟩ }
    let node : QualifiedName := ⟨.root, "Node"⟩
    registry.room registry.declarable < 9 ∧ registry.nameBound < 5 ∧ node ∈ (pending.run registry).1 ∧
    ((Recursion.ofDepth 9).component node).run registry = some ((synthesize node).run registry) ∧
    (synthesizePasses 5).run registry = synthesizeAll.run registry ∧
    (pending.run (synthesizeAll.run registry).2).1 = [] := by
  intro registry node
  have hroom : registry.room registry.declarable < 9 := by decide +kernel
  have hbound : registry.nameBound < 5 := by decide +kernel
  have hpending : node ∈ (pending.run registry).1 := by decide +kernel
  obtain ⟨hdepth, -, hpasses, -, hnone⟩ := synthesis_ends registry
  exact ⟨hroom, hbound, hpending, (hdepth 9 hroom).1 node, hpasses 5 hbound, hnone⟩

end Registry

end ApiScribe
