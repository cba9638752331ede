import ApiScribe.Proofs.Operation.Assembly
import ApiScribe.Proofs.Survey.Saturation

/-!
# What an operation depends on

When all components of a table are built and nothing can be loaded, assembling an operation changes nothing
that a later one depends on: comments of owners that were read before say what they would say again, and the
types in comments are looked up without building anything. So what becomes of a candidate is decided by the
table and the candidate alone, not by those before it.
-/

namespace ApiScribe

/-- What the comment of an owner says, by module, name and comment. -/
def Table.ownerComment (table : Table) (key : ModulePath × String × List String) : Comment.Container :=
  let declared : QualifiedName := ⟨key.1, key.2.1⟩
  if Operation.isTrait table declared then table.comment declared
  else (Comment.Container.read key.2.2 declared.display).1

/-- Tables that are alike have the same traits. -/
theorem Table.Alike.isTrait {table other : Table} (h : table.Alike other) (name : QualifiedName) :
    Operation.isTrait other name = Operation.isTrait table name := by
  rw [Operation.isTrait, h.get?, Operation.isTrait]

namespace Operation

open Registry

variable {α : Type} {table : Table} {nodes : List Node}

/-- All components are built, and the comments of owners that were read say what the table says. -/
structure Settled (table : Table) (nodes : List Node) (assembler : Assembler) : Prop where
  registry : assembler.registry.Saturated table
  nodes : assembler.registry.nodes = nodes
  owners : ∀ entry ∈ assembler.owners, entry.2 = table.ownerComment entry.1

/-- Where nothing has been assembled yet, it is enough that all components are built. -/
theorem settled_start {registry : Registry} (h : registry.Saturated table) :
    Settled table registry.nodes { registry } :=
  ⟨h, rfl, fun _ hentry => absurd hentry List.not_mem_nil⟩

/-- A note gives nothing and keeps the state settled. -/
theorem note_gives (findings : List Finding) : Gives (Settled table nodes) (note findings) () :=
  gives_modify fun _ h => ⟨h.registry, h.nodes, h.owners⟩

/-- A complaint gives nothing and keeps the state settled. -/
theorem complain_gives (subject : String) (cause : Cause) :
    Gives (Settled table nodes) (complain subject cause) () := note_gives _

/-- The tag of an owner gives nothing and keeps the state settled. -/
theorem addOwnerTag_gives (container : Comment.Container) :
    Gives (Settled table nodes) (addOwnerTag container) () := by
  refine gives_modify fun assembler h => ?_
  split
  · exact h
  · split
    · exact h
    · exact ⟨h.registry, h.nodes, h.owners⟩

/-- An action on the registry runs before the next one. -/
theorem onRegistry_bind_run {β : Type} (action : StateM Registry α) (next : α → Assembling β)
    (assembler : Assembler) :
    (onRegistry action >>= next).run assembler =
      (next (action.run assembler.registry).1).run ((onRegistry action).run assembler).2 := rfl

/-- Work on the registry leaves everything settled, as there is nothing to build. -/
theorem Settled.onRegistry {assembler : Assembler} (h : Settled table nodes assembler) {action : StateM Registry α}
    {requests : List Request} (hstands : (action.run assembler.registry).2.Stands table [])
    (hgrown : GrownBy table requests assembler.registry (action.run assembler.registry).2) :
    Settled table nodes ((onRegistry action).run assembler).2 := by
  have htaken := hstands.reads (.note _ [])
  have hnodes := h.registry.nodes_eq htaken hgrown
  exact ⟨h.registry.grown htaken hgrown, hnodes.trans h.nodes, h.owners⟩

/-- A trait's comment is read by the registry. -/
theorem container_gives_of_isTrait {name : QualifiedName} (htrait : isTrait table name = true) :
    Gives (Settled table nodes) (onRegistry (Registry.container name)) (table.comment name) := by
  intro assembler h
  have hstands := h.registry.stands
  have hdeclared : assembler.registry.table.contains name = true := by
    rw [Registry.table, hstands.faithful.resolver.table.contains]
    exact contains_of_isTrait htrait
  have hreads := container_reads hdeclared
  have hgrown : GrownBy table [] assembler.registry ((Registry.container name).run assembler.registry).2 :=
    .refl hreads.unchanged.1.nodes
  exact ⟨(container_gives name _ hstands.faithful).1, h.onRegistry (hstands.reads hreads) hgrown⟩

/-- The comment of an owner says what the table says, whether or not it was read before. -/
theorem ownerComment_gives (owner : Owner) (module : ModulePath) :
    Gives (Settled table nodes) (ownerComment owner module)
      (table.ownerComment (module, owner.name, owner.docs)) := by
  unfold ownerComment
  refine gives_get_bind fun assembler h => ?_
  split
  · next entry known hfind =>
    have hentry := h.owners _ (List.mem_of_find?_eq_some hfind)
    have hkey : entry = (module, owner.name, owner.docs) := by simpa using List.find?_some hfind
    rw [← hkey, ← hentry]
    exact gives_pure known
  · have hrest {record : Comment.Container}
        (hrecord : record = table.ownerComment (module, owner.name, owner.docs)) :
        Gives (Settled table nodes) (do
          addOwnerTag record
          modify fun assembler =>
            { assembler with owners := ((module, owner.name, owner.docs), record) :: assembler.owners }
          return record) (table.ownerComment (module, owner.name, owner.docs)) := by
      refine gives_bind (addOwnerTag_gives record) (gives_bind (gives_modify fun assembler h => ?_) ?_)
      · refine ⟨h.registry, h.nodes, fun entry hentry => ?_⟩
        rcases List.mem_cons.mp hentry with rfl | hentry
        · exact hrecord
        · exact h.owners entry hentry
      · rw [← hrecord]
        exact gives_pure record
    refine gives_get_bind fun assembler h => ?_
    rw [Registry.table, h.registry.stands.faithful.resolver.table.isTrait]
    split
    · next htrait =>
      refine gives_bind (container_gives_of_isTrait htrait) (hrest ?_)
      rw [Table.ownerComment, if_pos htrait]
    · next htrait =>
      refine gives_bind (note_gives _) (hrest ?_)
      rw [Table.ownerComment, if_neg htrait]
      rfl

/-- What is done with the schema of a written type, if it has one. -/
theorem referenceFor_bind (written : String) (scope : ModulePath)
    {next : Except ReferenceFault Schema → Assembling α}
    (hok : ∀ schema, Determined (Settled table nodes) (next (.ok schema)))
    (herror : ∃ value, ∀ fault, Gives (Settled table nodes) (next (.error fault)) value) :
    Determined (Settled table nodes) (onRegistry (Registry.referenceFor written scope) >>= next) := by
  -- The table decides whether there is a schema, and which.
  have hnext : ∃ value, ∀ result : Except ReferenceFault Schema,
      result.toOption = (table.member? scope written).map Prod.fst →
        Gives (Settled table nodes) (next result) value := by
    cases table.member? scope written with
    | none =>
      obtain ⟨value, hvalue⟩ := herror
      refine ⟨value, fun result hresult => ?_⟩
      cases result with
      | ok schema => cases hresult
      | error fault => exact hvalue fault
    | some found =>
      obtain ⟨value, hvalue⟩ := hok found.1
      refine ⟨value, fun result hresult => ?_⟩
      cases result with
      | ok schema =>
        cases hresult
        exact hvalue
      | error fault => cases hresult
  obtain ⟨value, hvalue⟩ := hnext
  refine ⟨value, fun assembler h => ?_⟩
  obtain ⟨hstands, hgrown, hresult⟩ := referenceFor_asked h.registry.stands written scope
  rw [onRegistry_bind_run]
  exact hvalue _ hresult _ (h.onRegistry hstands hgrown)

/-- A complaint in front of a determined action leaves it determined. -/
theorem complain_bind (subject : String) (cause : Cause) {next : Assembling α}
    (h : Determined (Settled table nodes) next) :
    Determined (Settled table nodes) (complain subject cause >>= fun _ => next) :=
  determined_bind ⟨(), complain_gives subject cause⟩ fun _ => h

/-- The declared parameters are determined. -/
theorem declaredParameters_determined (subject : String) (params : List Comment.Param) :
    Determined (Settled table nodes) (declaredParameters subject params) := by
  induction params with
  | nil => exact determined_pure []
  | cons param rest ih =>
    unfold declaredParameters
    split
    · exact complain_bind _ _ ih
    · exact complain_bind _ _ ih
    · have hnext (parameter : Document.Parameter) : Determined (Settled table nodes)
          (do return parameter :: (← declaredParameters subject rest)) :=
        determined_bind ih fun _ => determined_pure _
      split
      · exact complain_bind _ _ (hnext _)
      · exact hnext _

/-- The request body is determined. -/
theorem requestBody_determined (record : Comment.Operation) (module : ModulePath) (subject : String) :
    Determined (Settled table nodes) (requestBody record module subject) := by
  unfold requestBody
  split
  · exact determined_pure none
  · refine referenceFor_bind _ module (fun schema => determined_pure _) ⟨none, fun fault => ?_⟩
    exact gives_bind (complain_gives _ _) (gives_pure none)

/-- The content of a response is determined. -/
theorem responseContent_determined (response : Comment.Response) (produces : List String) (module : ModulePath)
    (subject : String) : Determined (Settled table nodes) (responseContent response produces module subject) := by
  unfold responseContent
  split
  · exact determined_pure []
  · refine referenceFor_bind _ module (fun schema => determined_pure _) ⟨[], fun fault => ?_⟩
    exact gives_bind (complain_gives _ _) (gives_pure [])

/-- The declared responses are determined. -/
theorem declaredResponses_determined (produces : List String) (module : ModulePath) (subject : String)
    (declared : List Comment.Response) (sorted : List (String × Document.Response)) :
    Determined (Settled table nodes) (declaredResponses produces module subject sorted declared) := by
  induction declared generalizing sorted with
  | nil => exact determined_pure sorted
  | cons response rest ih =>
    refine determined_bind (responseContent_determined response produces module subject) fun content => ?_
    dsimp only
    split
    · exact complain_bind _ _ (ih _)
    · exact ih _

/-- What is done with the comment of the owner is determined. -/
theorem owner_bind_determined (owner : Option Owner) (module : ModulePath)
    {next : Comment.Container → Assembling α} (h : ∀ comment, Determined (Settled table nodes) (next comment)) :
    Determined (Settled table nodes)
      (match owner with
        | some owner => do next (← ownerComment owner module)
        | none => do next (← pure {})) := by
  cases owner with
  | some owner => exact determined_bind ⟨_, ownerComment_gives owner module⟩ h
  | none => exact h {}

/-- What becomes of a candidate is decided by the table and the candidate. -/
theorem assemble_determined (candidate : Candidate) :
    Determined (Settled table nodes) (assemble candidate) := by
  have hdropped (subject : String) (cause : Cause) :
      Determined (Settled table nodes) (do complain subject cause; return (none : Option Bound)) :=
    complain_bind subject cause (determined_pure none)
  unfold assemble
  refine determined_bind ⟨(), note_gives _⟩ fun _ => ?_
  dsimp only
  refine owner_bind_determined _ _ fun comment => ?_
  split
  · split
    · exact hdropped _ _
    · refine determined_bind (determined_bind (declaredParameters_determined _ _) fun _ => determined_pure _)
        fun parameters => ?_
      refine determined_bind (requestBody_determined _ _ _) fun body => ?_
      refine determined_bind (determined_bind (declaredResponses_determined _ _ _ _ _) fun _ => determined_pure _)
        fun responses => ?_
      exact determined_pure _
  · exact hdropped _ _

/-- Candidates are assembled independently of each other. -/
theorem exists_assembleAll_gives (table : Table) (nodes : List Node) :
    ∃ bound? : Candidate → Option Bound, ∀ candidates,
      Gives (Settled table nodes) (assembleAll candidates) (candidates.filterMap bound?) := by
  have hassemble : ∀ candidate, Determined (Settled table nodes) (assemble candidate) := assemble_determined
  choose bound? hbound using hassemble
  refine ⟨bound?, fun candidates => ?_⟩
  induction candidates with
  | nil => exact gives_pure []
  | cons candidate rest ih =>
    refine gives_bind (hbound candidate) (gives_bind ih ?_)
    rw [List.filterMap_cons]
    cases bound? candidate <;> exact gives_pure _

end Operation

end ApiScribe
