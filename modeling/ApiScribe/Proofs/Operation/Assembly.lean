import ApiScribe.Operation.Assembly
import ApiScribe.Proofs.Registry.Calls

/-!
# Assembled operations

Assembling operations advances the registry. Every schema that an assembled operation shows
refers to components that are in the registry when the operation is finished, and they stay there
while the remaining operations are assembled.
-/

namespace ApiScribe

/-- The schema stands somewhere in the operation: at a parameter, or under a media type of the request
body or of a response. -/
inductive Document.Operation.Shows (operation : Document.Operation) : Schema → Prop where
  | parameter {parameter : Document.Parameter} (h : parameter ∈ operation.parameters) :
      Shows operation parameter.schema
  | body {body : Document.RequestBody} {media : String} {schema : Schema}
      (h : operation.requestBody = some body) (hschema : (media, schema) ∈ body.content) :
      Shows operation schema
  | response {status media : String} {response : Document.Response} {schema : Schema}
      (h : (status, response) ∈ operation.responses) (hschema : (media, schema) ∈ response.content) :
      Shows operation schema

namespace Registry

/-- Every schema in the content refers to components of the registry. -/
def CoversContent (registry : Registry) (content : Document.Content) : Prop :=
  ∀ entry ∈ content, registry.Covers entry.2

/-- Every schema in the operation refers to components of the registry. -/
def CoversOperation (registry : Registry) (operation : Document.Operation) : Prop :=
  ∀ schema, operation.Shows schema → registry.Covers schema

/-- What holds of a registry whatever happens to it later. -/
def Lasting (fact : Registry → Prop) : Prop := ∀ first last, Advances first last → fact first → fact last

/-- A schema that is covered stays covered. -/
theorem lasting_covers (schema : Schema) : Lasting fun registry => registry.Covers schema :=
  fun _ _ hadvances h => h.grows hadvances.grows

/-- Facts that last do so together. -/
theorem Lasting.forall {ι : Sort*} {fact : ι → Registry → Prop} (h : ∀ i, Lasting (fact i)) :
    Lasting fun registry => ∀ i, fact i registry :=
  fun first last hsteps hfirst i => h i first last hsteps (hfirst i)

/-- Content that is covered stays covered. -/
theorem lasting_coversContent (content : Document.Content) :
    Lasting fun registry => registry.CoversContent content :=
  .forall fun entry => .forall fun _ => lasting_covers entry.2

/-- An operation that is covered stays covered. -/
theorem lasting_coversOperation (operation : Document.Operation) :
    Lasting fun registry => registry.CoversOperation operation :=
  .forall fun schema => .forall fun _ => lasting_covers schema

/-- Taking the findings advances a registry. -/
theorem takeFindings_advances (registry : Registry) : Advances registry registry.takeFindings.2 :=
  .read (.note registry [])

end Registry

namespace Operation

open Registry

variable {α β : Type} {before : Registry → Prop}

/-- From every assembler whose registry is as required, the action advances the registry and ends as
described. -/
def Assembles (before : Registry → Prop) (action : Assembling α) (after : α → Registry → Prop) : Prop :=
  ∀ first, before first.registry →
    Advances first.registry (action.run first).2.registry ∧
      after (action.run first).1 (action.run first).2.registry

namespace Assembles

variable {action : Assembling α} {after : α → Registry → Prop}

/-- An action that does nothing assembles what holds before. -/
theorem pure {value : α} (h : ∀ registry, before registry → after value registry) :
    Assembles before (pure value) after :=
  fun first hbefore => ⟨.refl _, h first.registry hbefore⟩

/-- Actions assemble one after another. -/
theorem bind {middle : α → Registry → Prop} {next : α → Assembling β} {after : β → Registry → Prop}
    (h : Assembles before action middle) (hnext : ∀ value, Assembles (middle value) (next value) after) :
    Assembles before (action >>= next) after := by
  intro first hbefore
  obtain ⟨hsteps, hmiddle⟩ := h first hbefore
  obtain ⟨hsteps', hafter⟩ := hnext _ _ hmiddle
  exact ⟨hsteps.trans hsteps', hafter⟩

/-- An action that starts by reading the assembler. -/
theorem get_bind {next : Assembler → Assembling α}
    (h : ∀ assembler, before assembler.registry →
      Assembles (fun registry => registry = assembler.registry) (next assembler) after) :
    Assembles before (get >>= next) after :=
  fun first hbefore => h first hbefore first rfl

/-- A change of anything but the registry keeps what holds of it. -/
theorem beside {change : Assembler → Assembler}
    (h : ∀ assembler, (change assembler).registry = assembler.registry) :
    Assembles before (modify change) fun _ => before := by
  intro first hbefore
  have hregistry : ((modify change : Assembling Unit).run first).2.registry = first.registry := h first
  rw [hregistry]
  exact ⟨.refl _, hbefore⟩

/-- What lasts still holds after an action. -/
theorem keeping {fact : Registry → Prop} (hfact : Lasting fact) (h : Assembles (fun _ => True) action after) :
    Assembles fact action fun value registry => fact registry ∧ after value registry := by
  intro first hfirst
  obtain ⟨hsteps, hafter⟩ := h first trivial
  exact ⟨hsteps, hfact _ _ hsteps hfirst, hafter⟩

/-- An action that asks for less may be used where more holds. -/
theorem ofWeaker {weaker : Registry → Prop} (h : Assembles weaker action after)
    (hweaker : ∀ registry, before registry → weaker registry) : Assembles before action after :=
  fun first hbefore => h first (hweaker first.registry hbefore)

/-- What an action assembles may be weakened. -/
theorem mono {after' : α → Registry → Prop} (h : Assembles (fun _ => True) action after)
    (hafter : ∀ value registry, after value registry → after' value registry) :
    Assembles before action after' :=
  fun first _ => ⟨(h first trivial).1, hafter _ _ (h first trivial).2⟩

end Assembles

/-- A note changes nothing in the registry. -/
theorem note_assembles (findings : List Finding) : Assembles before (note findings) fun _ => before :=
  .beside fun _ => rfl

/-- A complaint changes nothing in the registry. -/
theorem complain_assembles (subject : String) (cause : Cause) :
    Assembles before (complain subject cause) fun _ => before :=
  note_assembles _

/-- The tag of an owner changes nothing in the registry. -/
theorem addOwnerTag_assembles (container : Comment.Container) :
    Assembles before (addOwnerTag container) fun _ => before := by
  refine .beside fun assembler => ?_
  split
  · rfl
  · split <;> rfl

/-- Work on the registry keeps what lasts when its findings are taken. -/
theorem onRegistry_assembles {action : StateM Registry α} {after : α → Registry → Prop}
    (hadvances : ∀ registry, before registry → Advances registry (action.run registry).2)
    (hafter : ∀ registry, after (action.run registry).1 (action.run registry).2)
    (hlasting : ∀ value, Lasting (after value)) : Assembles before (onRegistry action) after := by
  intro first hbefore
  have htaken := takeFindings_advances (action.run first.registry).2
  exact ⟨(hadvances first.registry hbefore).trans htaken, hlasting _ _ _ htaken (hafter first.registry)⟩

/-- The schema of a written type refers to components. -/
theorem referenceFor_assembles (written : String) (scope : ModulePath) :
    Assembles before (onRegistry (Registry.referenceFor written scope)) fun result registry =>
      ∀ schema ∈ result.toOption, registry.Covers schema := by
  refine onRegistry_assembles (fun registry _ => referenceFor_advances written scope registry)
    (fun registry => ?_) fun result => ?_
  · obtain ⟨result, last, hrun, -, hcovers⟩ := referenceFor_run written scope registry
    rw [hrun]
    exact hcovers
  · exact .forall fun schema => .forall fun _ => lasting_covers schema

/-- A trait is declared. -/
theorem contains_of_isTrait {table : Table} {name : QualifiedName} (h : isTrait table name = true) :
    table.contains name = true := by
  unfold isTrait at h
  split at h
  · next declaration hget => exact Option.isSome_iff_exists.mpr ⟨declaration, hget⟩
  · cases h

/-- The comment of an owner is read by steps of the registry. -/
theorem ownerComment_assembles (owner : Owner) (module : ModulePath) :
    Assembles before (ownerComment owner module) fun _ _ => True := by
  unfold ownerComment
  refine .get_bind fun assembler _ => ?_
  split
  · exact .pure fun _ _ => trivial
  · have hrest (record : Comment.Container) : Assembles (fun _ => True) (do
        addOwnerTag record
        modify fun assembler =>
          { assembler with owners := ((module, owner.name, owner.docs), record) :: assembler.owners }
        return record) fun _ _ => True := by
      refine (addOwnerTag_assembles record).bind fun _ => ?_
      refine .bind (.beside fun _ => rfl) fun _ => .pure fun _ h => h
    refine .get_bind fun assembler _ => ?_
    split
    · next htrait =>
      refine (onRegistry_assembles (fun registry hregistry => ?_) (fun _ => trivial) fun _ _ _ _ h => h).bind hrest
      rw [hregistry]
      exact .read (container_reads (contains_of_isTrait htrait))
    · exact ((note_assembles _).mono fun _ _ h => h).bind fun _ => hrest _

/-- An action that starts from the comment of an owner, if there is one. -/
theorem owner_bind {after : α → Registry → Prop} (owner : Option Owner) (module : ModulePath)
    {next : Comment.Container → Assembling α} (h : ∀ comment, Assembles (fun _ => True) (next comment) after) :
    Assembles before
      (match owner with
        | some owner => do next (← ownerComment owner module)
        | none => do next (← pure {})) after := by
  cases owner with
  | some owner => exact (ownerComment_assembles owner module).bind h
  | none => exact (h {}).ofWeaker fun _ _ => trivial

/-- Parameters have primitive types. -/
theorem declaredParameters_assembles (subject : String) (params : List Comment.Param) :
    Assembles before (declaredParameters subject params) fun found _ =>
      ∀ parameter ∈ found, ∀ ref, ¬ parameter.schema.Refers ref := by
  induction params generalizing before with
  | nil => exact .pure fun _ _ _ h => by cases h
  | cons param rest ih =>
    unfold declaredParameters
    split
    · exact (complain_assembles _ _).bind fun _ => ih
    · exact (complain_assembles _ _).bind fun _ => ih
    · have hnext {before : Registry → Prop} (parameter : Document.Parameter)
          (hparameter : ∀ ref, ¬ parameter.schema.Refers ref) :
          Assembles before (do return parameter :: (← declaredParameters subject rest)) fun found _ =>
            ∀ parameter ∈ found, ∀ ref, ¬ parameter.schema.Refers ref := by
        refine ih.bind fun others => .pure fun _ hothers other hother => ?_
        rcases List.mem_cons.mp hother with rfl | hother
        · exact hparameter
        · exact hothers other hother
      split
      · exact (complain_assembles _ _).bind fun _ => hnext _ (Schema.not_refers_ofPrimitive _)
      · exact hnext _ (Schema.not_refers_ofPrimitive _)

/-- A parameter that only the path names refers to nothing. -/
theorem not_refers_of_mem_undeclaredParameters {declared : List Document.Parameter} {path : String}
    {parameter : Document.Parameter} (h : parameter ∈ undeclaredParameters declared path) (ref : String) :
    ¬ parameter.schema.Refers ref := by
  obtain ⟨name, -, rfl⟩ := List.mem_map.mp h
  exact Schema.not_refers_ofPrimitive .string ref

/-- The parameters of an operation refer to nothing. -/
theorem parameters_assembles (params : List Comment.Param) (path subject : String) :
    Assembles before (parameters params path subject) fun found _ =>
      ∀ parameter ∈ found, ∀ ref, ¬ parameter.schema.Refers ref := by
  refine (declaredParameters_assembles subject params).bind fun declared => ?_
  refine .pure fun _ hdeclared parameter hparameter => ?_
  rcases List.mem_append.mp hparameter with hparameter | hparameter
  · exact hdeclared parameter hparameter
  · exact not_refers_of_mem_undeclaredParameters hparameter

/-- A schema under media types is covered where the schema is. -/
theorem coversContent_mediaContent {registry : Registry} {schema : Schema} (h : registry.Covers schema)
    (mediaTypes : List String) : registry.CoversContent (mediaContent mediaTypes schema) := by
  intro entry hentry
  obtain ⟨media, -, rfl⟩ := List.mem_map.mp (Json.mem_of_mem_insertAll hentry)
  exact h

/-- The content of a request body is covered. -/
theorem requestBody_assembles (record : Comment.Operation) (module : ModulePath) (subject : String) :
    Assembles before (requestBody record module subject) fun found registry =>
      ∀ body ∈ found, registry.CoversContent body.content := by
  have hnone {before : Registry → Prop} : Assembles before (pure none) fun (found : Option Document.RequestBody)
      registry => ∀ body ∈ found, registry.CoversContent body.content :=
    .pure fun _ _ _ h => by cases h
  unfold requestBody
  split
  · exact hnone
  · refine (referenceFor_assembles _ module).bind fun result => ?_
    cases result with
    | ok schema =>
      refine .pure fun registry hschema body hbody => ?_
      cases Option.mem_some_iff.mp hbody
      exact coversContent_mediaContent (hschema schema rfl) record.consumes
    | error fault => exact (complain_assembles _ _).bind fun _ => hnone

/-- The content of a response is covered. -/
theorem responseContent_assembles (response : Comment.Response) (produces : List String)
    (module : ModulePath) (subject : String) :
    Assembles before (responseContent response produces module subject) fun content registry =>
      registry.CoversContent content := by
  have hnone {before : Registry → Prop} : Assembles before (pure []) fun content registry =>
      registry.CoversContent content :=
    .pure fun _ _ _ h => by cases h
  unfold responseContent
  split
  · exact hnone
  · refine (referenceFor_assembles _ module).bind fun result => ?_
    cases result with
    | ok schema => exact .pure fun registry hschema => coversContent_mediaContent (hschema schema rfl) produces
    | error fault => exact (complain_assembles _ _).bind fun _ => hnone

/-- Responses that are added to covered ones are covered. -/
theorem declaredResponses_assembles (produces : List String) (module : ModulePath) (subject : String)
    (declared : List Comment.Response) (sorted : List (String × Document.Response)) :
    Assembles (fun registry => ∀ entry ∈ sorted, registry.CoversContent entry.2.content)
      (declaredResponses produces module subject sorted declared) fun found registry =>
        ∀ entry ∈ found, registry.CoversContent entry.2.content := by
  induction declared generalizing sorted with
  | nil => exact .pure fun _ h => h
  | cons response rest ih =>
    have hlasting : Lasting fun registry => ∀ entry ∈ sorted, registry.CoversContent entry.2.content :=
      .forall fun entry => .forall fun _ => lasting_coversContent entry.2.content
    refine (Assembles.keeping hlasting (responseContent_assembles response produces module subject)).bind
      fun content => ?_
    have hstored (description : String) : ∀ registry : Registry,
        (∀ entry ∈ sorted, registry.CoversContent entry.2.content) ∧ registry.CoversContent content →
        ∀ entry ∈ Text.insertSorted Text.compareText response.status ⟨description, content⟩ sorted,
          registry.CoversContent entry.2.content := by
      intro registry hboth entry hentry
      rcases Text.mem_of_mem_insertSorted hentry with rfl | hentry
      · exact hboth.2
      · exact hboth.1 entry hentry
    dsimp only
    split
    · exact (complain_assembles _ _).bind fun _ => (ih _).ofWeaker (hstored _)
    · exact (ih _).ofWeaker (hstored _)

/-- The responses of an operation are covered. -/
theorem responses_assembles (record : Comment.Operation) (module : ModulePath) (subject : String) :
    Assembles before (responses record module subject) fun found registry =>
      ∀ entry ∈ found, registry.CoversContent entry.2.content := by
  refine ((declaredResponses_assembles record.produces module subject record.responses []).ofWeaker
    fun _ _ _ h => by cases h).bind fun declared => ?_
  split
  · refine .pure fun registry _ entry hentry => ?_
    cases List.mem_singleton.mp hentry
    exact fun _ h => by cases h
  · exact .pure fun _ h => h

/-- An operation is covered where its parts are. -/
theorem coversOperation_of_parts {registry : Registry} {operation : Document.Operation}
    (hparameters : ∀ parameter ∈ operation.parameters, ∀ ref, ¬ parameter.schema.Refers ref)
    (hbody : ∀ body ∈ operation.requestBody, registry.CoversContent body.content)
    (hresponses : ∀ entry ∈ operation.responses, registry.CoversContent entry.2.content) :
    registry.CoversOperation operation := by
  intro schema hshows
  cases hshows with
  | parameter h => exact Schema.resolvesIn_of_not_refers _ (hparameters _ h)
  | body h hschema => exact hbody _ h _ hschema
  | response h hschema => exact hresponses _ h _ hschema

/-- Whatever is made of its parts, the operation is covered. -/
theorem parts_assembles (record : Comment.Operation) (module : ModulePath) (path subject : String)
    {bound : List Document.Parameter → Option Document.RequestBody → List (String × Document.Response) → Bound}
    (hparameters : ∀ ps body rs, (bound ps body rs).operation.parameters = ps)
    (hbody : ∀ ps body rs, (bound ps body rs).operation.requestBody = body)
    (hresponses : ∀ ps body rs, (bound ps body rs).operation.responses = rs) :
    Assembles before (do
        let ps ← parameters record.params path subject
        let body ← requestBody record module subject
        let rs ← responses record module subject
        return some (bound ps body rs)) fun found registry =>
      ∀ bound ∈ found, registry.CoversOperation bound.operation := by
  refine (parameters_assembles record.params path subject).bind fun ps => ?_
  refine (Assembles.keeping (fun _ _ _ h => h) (requestBody_assembles record module subject)).bind
    fun body => ?_
  have hlasting : Lasting fun registry => (∀ parameter ∈ ps, ∀ ref, ¬ parameter.schema.Refers ref) ∧
      ∀ present ∈ body, registry.CoversContent present.content := fun first last hsteps hfirst =>
    ⟨hfirst.1, fun present h => lasting_coversContent present.content first last hsteps (hfirst.2 present h)⟩
  refine (Assembles.keeping hlasting (responses_assembles record module subject)).bind fun rs => ?_
  refine .pure fun registry hparts found hfound => ?_
  cases Option.mem_some_iff.mp hfound
  refine coversOperation_of_parts ?_ ?_ ?_
  · rw [hparameters]
    exact hparts.1.1
  · rw [hbody]
    exact hparts.1.2
  · rw [hresponses]
    exact hparts.2

/-- An assembled operation shows covered schemas only. -/
theorem assemble_assembles (candidate : Candidate) :
    Assembles before (assemble candidate) fun found registry =>
      ∀ bound ∈ found, registry.CoversOperation bound.operation := by
  have hdropped {before : Registry → Prop} (subject : String) (cause : Cause) :
      Assembles before (do complain subject cause; return none) fun (found : Option Bound) registry =>
        ∀ bound ∈ found, registry.CoversOperation bound.operation :=
    (complain_assembles subject cause).bind fun _ => .pure fun _ _ _ h => by cases h
  unfold assemble
  refine (note_assembles _).bind fun _ => ?_
  dsimp only
  refine owner_bind _ _ fun comment => ?_
  split
  · split
    · exact hdropped _ _
    · exact parts_assembles _ _ _ _ (fun _ _ _ => rfl) (fun _ _ _ => rfl) fun _ _ _ => rfl
  · exact hdropped _ _

/-- Assembled operations show covered schemas only. -/
theorem assembleAll_assembles (candidates : List Candidate) :
    Assembles before (assembleAll candidates) fun found registry =>
      ∀ bound ∈ found, registry.CoversOperation bound.operation := by
  induction candidates generalizing before with
  | nil => exact .pure fun _ _ _ h => by cases h
  | cons candidate rest ih =>
    refine (assemble_assembles candidate).bind fun first => ?_
    have hlasting : Lasting fun registry => ∀ bound ∈ first, registry.CoversOperation bound.operation :=
      .forall fun bound => .forall fun _ => lasting_coversOperation bound.operation
    refine (Assembles.keeping hlasting ih).bind fun others => .pure fun registry hboth bound hbound => ?_
    rcases List.mem_append.mp hbound with hbound | hbound
    · exact hboth.1 bound (Option.mem_toList.mp hbound)
    · exact hboth.2 bound hbound

end Operation

end ApiScribe
