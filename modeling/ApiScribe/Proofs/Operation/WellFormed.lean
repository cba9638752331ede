import ApiScribe.Proofs.Comment.OperationParts
import ApiScribe.Proofs.Operation.Parameters
import ApiScribe.Proofs.SortedEntries
import ApiScribe.Proofs.Text.Cutting

/-!
# Operations are well formed, and none is lost silently

A candidate becomes no operation exactly if its comment lacks a verb, a path or an id, or gives a verb that is no
method, and then one report says so. Of the operations that come out, responses stand under statuses and are never
missing, and parameters fit the path.
-/

namespace ApiScribe.Operation

section Work

variable {along : Assembler → Assembler → Prop} [FollowsParts along]

/-- Making the request body drops no operation. -/
theorem requestBody_proceeds (record : Comment.Operation) (module : ModulePath) (subject : String) :
    Proceeds along (requestBody record module subject) fun _ => True := by
  unfold requestBody
  split
  · exact .pure trivial
  · refine (onRegistry_proceeds _).bind fun answer _ => ?_
    cases answer with
    | ok schema => exact .pure trivial
    | error fault => exact (complain_proceeds rfl).bind fun _ _ => .pure trivial

/-- Making the content of a response drops no operation. -/
theorem responseContent_proceeds (response : Comment.Response) (produces : List String) (module : ModulePath)
    (subject : String) : Proceeds along (responseContent response produces module subject) fun _ => True := by
  unfold responseContent
  split
  · exact .pure trivial
  · refine (onRegistry_proceeds _).bind fun answer _ => ?_
    cases answer with
    | ok schema => exact .pure trivial
    | error fault => exact (complain_proceeds rfl).bind fun _ _ => .pure trivial

/-- Responses stand under the statuses of the list so far and of the comment. -/
theorem declaredResponses_proceeds (produces : List String) (module : ModulePath) (subject : String)
    (declared : List Comment.Response) (sorted : List (String × Document.Response)) :
    Proceeds along (declaredResponses produces module subject sorted declared) fun found => ∀ status,
      status ∈ found.map Prod.fst ↔
        status ∈ sorted.map Prod.fst ∨ status ∈ declared.map Comment.Response.status := by
  induction declared generalizing sorted with
  | nil => exact .pure fun status => by simp
  | cons response rest ih =>
    refine (responseContent_proceeds response produces module subject).bind fun content _ => ?_
    have hnext (description : String) : Proceeds along
        (declaredResponses produces module subject
          (Text.insertSorted Text.compareText response.status ⟨description, content⟩ sorted) rest) fun found =>
        ∀ status, status ∈ found.map Prod.fst ↔
          status ∈ sorted.map Prod.fst ∨ status ∈ (response :: rest).map Comment.Response.status := by
      refine (ih _).mono fun found hfound status => ?_
      rw [hfound, Text.mem_keys_insertSorted (fun a b => (Text.compareText_eq_iff a b).mp), List.map_cons,
        List.mem_cons]
      tauto
    dsimp only
    split
    · exact (complain_proceeds rfl).bind fun _ _ => hnext _
    · exact hnext _

/-- There is a response, and all stand under statuses if those of the comment do. -/
theorem responses_proceeds {record : Comment.Operation}
    (h : ∀ response ∈ record.responses, Comment.IsStatusKey response.status)
    (module : ModulePath) (subject : String) :
    Proceeds along (responses record module subject) fun found =>
      found ≠ [] ∧ ∀ entry ∈ found, Comment.IsStatusKey entry.1 := by
  refine (declaredResponses_proceeds _ module subject _ []).bind fun declared hdeclared => .pure ?_
  split
  · refine ⟨List.cons_ne_nil _ _, fun entry hentry => ?_⟩
    rw [List.mem_singleton.mp hentry]
    exact .code 200 (by decide) (by decide)
  · next hsome =>
    refine ⟨fun hnone => hsome (by rw [hnone]; rfl), fun entry hentry => ?_⟩
    rcases (hdeclared entry.1).mp (List.mem_map_of_mem hentry) with hnone | hstatus
    · cases hnone
    · obtain ⟨response, hresponse, hstatus⟩ := List.mem_map.mp hstatus
      exact hstatus ▸ h response hresponse

end Work

/-- Path parameters are required, every name of the template is one of them, and types are primitive. -/
structure Fits (parameters : List Document.Parameter) (path : String) : Prop where
  required : ∀ parameter ∈ parameters, parameter.location = .path → parameter.required = true
  template : ∀ name ∈ templateParameters path, (name, Location.path) ∈ parameters.map Document.Parameter.identity
  primitive : ∀ parameter ∈ parameters, ∃ primitive, parameter.schema = Schema.ofPrimitive primitive

/-- What an annotation declares is required in the path, and has a primitive type. -/
theorem required_and_primitive_of_parameter? {param : Comment.Param} {parameter : Document.Parameter}
    (h : param.parameter? = some parameter) :
    (parameter.location = .path → parameter.required = true) ∧
      ∃ primitive, parameter.schema = Schema.ofPrimitive primitive := by
  obtain ⟨location, -, h⟩ := Option.bind_eq_some_iff.mp h
  obtain ⟨primitive, -, rfl⟩ := Option.map_eq_some_iff.mp h
  exact ⟨fun hpath => by simp_all, primitive, rfl⟩

/-- A parameter that only the path names is required and primitive. -/
theorem required_and_primitive_of_undeclared {declared : List Document.Parameter} {path : String}
    {parameter : Document.Parameter} (h : parameter ∈ undeclaredParameters declared path) :
    (parameter.location = .path → parameter.required = true) ∧
      ∃ primitive, parameter.schema = Schema.ofPrimitive primitive := by
  obtain ⟨name, -, rfl⟩ := List.mem_map.mp h
  exact ⟨fun _ => rfl, .string, rfl⟩

/-- Declared parameters with those that only the path names fit the path. -/
theorem fits_parameters (params : List Comment.Param) (path : String) :
    Fits (params.filterMap Comment.Param.parameter? ++
      undeclaredParameters (params.filterMap Comment.Param.parameter?) path) path := by
  generalize hdeclared : params.filterMap Comment.Param.parameter? = declared
  have hboth : ∀ parameter ∈ declared ++ undeclaredParameters declared path,
      (parameter.location = .path → parameter.required = true) ∧
        ∃ primitive, parameter.schema = Schema.ofPrimitive primitive := by
    intro parameter hparameter
    rcases List.mem_append.mp hparameter with hparameter | hparameter
    · rw [← hdeclared] at hparameter
      obtain ⟨param, -, hparam⟩ := List.mem_filterMap.mp hparameter
      exact required_and_primitive_of_parameter? hparam
    · exact required_and_primitive_of_undeclared hparameter
  refine ⟨fun parameter h => (hboth parameter h).1, fun name hname => ?_, fun parameter h => (hboth parameter h).2⟩
  rw [List.map_append, identity_undeclaredParameters, List.mem_append]
  by_cases hmem : (name, Location.path) ∈ declared.map Document.Parameter.identity
  · exact .inl hmem
  · exact .inr (List.mem_filter.mpr ⟨List.mem_map_of_mem hname, by simpa using hmem⟩)

/-- An operation that can stand in a document. -/
structure Bound.WellFormed (bound : Bound) : Prop where
  responses : bound.operation.responses ≠ []
  statuses : ∀ entry ∈ bound.operation.responses, Comment.IsStatusKey entry.1
  parameters : Fits bound.operation.parameters bound.path

/-- The verb of a method is the written one in upper case. -/
theorem Method.verb_of_ofVerb? {written : String} {method : Method} (h : ofVerb? written = some method) :
    method.verb = Text.upperAscii written := by
  unfold ofVerb? at h
  split at h <;> cases h <;> exact Eq.symm ‹_›

/-- A verb is unknown exactly if it is the verb of no method, in any case. -/
theorem Method.ofVerb?_eq_none_iff (written : String) :
    ofVerb? written = none ↔ ∀ method : Method, method.verb ≠ Text.upperAscii written := by
  constructor
  · intro h method hmethod
    rw [ofVerb?, ← hmethod] at h
    cases method <;> cases h
  · intro h
    cases hwritten : ofVerb? written with
    | none => rfl
    | some method => exact absurd (verb_of_ofVerb? hwritten) (h method)

/-- From every assembler the action gives no operation exactly in the case described, and then reports once that the
operation of the subject was dropped; what it gives is as described. -/
def Accounts (subject : String) (action : Assembling (Option Bound)) (dropped : Prop)
    (after : Bound → Prop) : Prop :=
  ∀ first, ((action.run first).1 = none ↔ dropped) ∧
    (∃ added, (action.run first).2.journal = first.journal ++ added ∧
      (drops added).map Finding.subject = if (action.run first).1.isNone then [subject] else []) ∧
    ∀ bound, (action.run first).1 = some bound → after bound

namespace Accounts

variable {α : Type} {subject : String} {dropped : Prop} {after : Bound → Prop}

/-- An action that drops nothing may stand in front. -/
theorem bind {action : Assembling α} {middle : α → Prop} {next : α → Assembling (Option Bound)}
    (h : Proceeds Proceeded action middle)
    (hnext : ∀ value, middle value → Accounts subject (next value) dropped after) :
    Accounts subject (action >>= next) dropped after := by
  intro first
  obtain ⟨⟨added, hadded, hnone⟩, hvalue⟩ := h first
  obtain ⟨hdropped, ⟨more, hmore, hdrops⟩, hafter⟩ := hnext _ hvalue (action.run first).2
  refine ⟨hdropped, ⟨added ++ more, ?_, ?_⟩, hafter⟩
  · exact hmore.trans (by rw [hadded, List.append_assoc])
  · rw [drops_append, hnone]
    exact hdrops

/-- An operation that is given accounts for itself. -/
theorem done {bound : Bound} (hdropped : ¬dropped) (h : after bound) :
    Accounts subject (pure (some bound)) dropped after :=
  fun _ => ⟨⟨fun h => (by cases h), fun h => absurd h hdropped⟩, ⟨[], (List.append_nil _).symm, rfl⟩,
    fun _ h' => Option.some.inj h' ▸ h⟩

/-- An operation that is dropped is reported. -/
theorem drop {cause : Cause} (hcause : (Finding.mk subject cause).dropsOperation = true) (hdropped : dropped) :
    Accounts subject (do complain subject cause; return none) dropped after := by
  intro first
  refine ⟨⟨fun _ => hdropped, fun _ => rfl⟩, ⟨_, journal_note [⟨subject, cause⟩] first, ?_⟩, fun _ h => by cases h⟩
  rw [drops_map_operations, List.filter_cons_of_pos hcause]
  rfl

end Accounts

/-- The tag of an owner drops no operation. -/
theorem addOwnerTag_proceeded (container : Comment.Container) : Moves Proceeded (addOwnerTag container) :=
  moves_modify fun assembler => by
    split
    · exact .of_eq rfl
    · split <;> exact .of_eq rfl

/-- The comment of an owner drops no operation. -/
theorem ownerComment_proceeds (owner : Owner) (module : ModulePath) :
    Proceeds Proceeded (ownerComment owner module) fun _ => True := by
  refine .get_bind fun assembler => ?_
  split
  · exact .pure trivial
  · refine .get_bind fun assembler => ?_
    have hrest (record : Comment.Container) : Proceeds Proceeded (do
        addOwnerTag record
        modify fun assembler : Assembler =>
          { assembler with owners := ((module, owner.name, owner.docs), record) :: assembler.owners }
        return record) fun _ => True := by
      refine .bind (.ofMoves (addOwnerTag_proceeded record)) fun _ _ => ?_
      exact .bind (.ofMoves (moves_modify fun _ => .of_eq rfl)) fun _ _ => .pure trivial
    dsimp only
    split
    · exact (onRegistry_proceeds _).bind fun record _ => hrest record
    · exact (note_proceeds fun _ h => concernsPart_of_mem_container h).bind fun _ _ => hrest _

/-- A function that starts from the comment of an owner, if there is one. -/
theorem owner_bind_accounts {subject : String} {dropped : Prop} {after : Bound → Prop} (owner : Option Owner)
    (module : ModulePath) {next : Comment.Container → Assembling (Option Bound)}
    (h : ∀ comment, Accounts subject (next comment) dropped after) :
    Accounts subject
      (match owner with
        | some owner => do next (← ownerComment owner module)
        | none => do next (← pure {})) dropped after := by
  cases owner with
  | some owner => exact .bind (ownerComment_proceeds owner module) fun comment _ => h comment
  | none => exact h {}

/-- An error whose message begins so drops an operation. -/
theorem dropsOperation_of_append {subject : String} {cause : Cause} (rest : String)
    (herror : cause.severity = .error)
    (h : cause.message = "operation dropped" ++ rest) : (Finding.mk subject cause).dropsOperation = true := by
  have hstarts : Text.startsWith "operation dropped" cause.message = true := Text.startsWith_iff.mpr ⟨rest, h⟩
  rw [Finding.dropsOperation, Finding.isError, Finding.severity, herror, Finding.message, hstarts]
  rfl

/-- What keeps an operation out of the document. -/
def Unusable (record : Comment.Operation) : Prop :=
  record.method = none ∨ record.path = none ∨ record.operationId = none ∨
    ∃ written ∈ record.method, ∀ method : Method, method.verb ≠ Text.upperAscii written

/-- What a bound operation has of its comment. -/
structure Bound.Follows (bound : Bound) (record : Comment.Operation) : Prop where
  method : some bound.method.verb = record.method.map Text.upperAscii
  path : ∃ base, some bound.path = record.path.map (joinPath base)
  operationId : some bound.operation.operationId = record.operationId

/-- A record without a verb, a route or an id cannot be used. -/
theorem unusable_of_incomplete {record : Comment.Operation}
    (h : ∀ verb route operationId, record.method = some verb → record.path = some route →
      record.operationId = some operationId → False) : Unusable record := by
  rw [Unusable]
  rcases hverb : record.method with - | verb
  · exact .inl rfl
  rcases hroute : record.path with - | route
  · exact .inr (.inl rfl)
  rcases hid : record.operationId with - | operationId
  · exact .inr (.inr (.inl rfl))
  · exact (h verb route operationId hverb hroute hid).elim

/-- A candidate gives a well-formed operation that follows its comment, or is reported as dropped. -/
theorem assemble_accounts (candidate : Candidate) :
    Accounts candidate.subject (assemble candidate)
      (Unusable (Comment.Operation.read candidate.docs candidate.subject).1) fun bound =>
        bound.WellFormed ∧ bound.Follows (Comment.Operation.read candidate.docs candidate.subject).1 := by
  have hfindings : ∀ finding ∈ (Comment.Operation.read candidate.docs candidate.subject).2,
      concernsPart finding.cause = true := fun _ => concernsPart_of_mem_operation
  have hstatuses : ∀ response ∈ (Comment.Operation.read candidate.docs candidate.subject).1.responses,
      Comment.IsStatusKey response.status := fun _ => Comment.Operation.isStatusKey_of_mem_read
  -- From here on only these two facts matter of how the comment is read.
  delta assemble
  dsimp -iota only
  generalize Comment.Operation.read candidate.docs candidate.subject = reading at *
  obtain ⟨record, findings⟩ := reading
  refine .bind (note_proceeds hfindings) fun _ _ => ?_
  dsimp only
  refine owner_bind_accounts _ _ fun comment => ?_
  split
  · next written route operationId hverb hroute hid =>
    split
    · next hunknown =>
      refine .drop (dropsOperation_of_append (": unknown HTTP verb `" ++ (written ++ "`")) rfl ?_) ?_
      · rw [← String.append_assoc, ← String.append_assoc]
        rfl
      · exact .inr (.inr (.inr ⟨written, hverb, (Method.ofVerb?_eq_none_iff written).mp hunknown⟩))
    · next method hmethod =>
      have husable : ¬Unusable record := by
        rintro (hnone | hnone | hnone | ⟨other, hother, hunknown⟩)
        · cases hverb.symm.trans hnone
        · cases hroute.symm.trans hnone
        · cases hid.symm.trans hnone
        · cases hverb.symm.trans hother
          exact hunknown method (Method.verb_of_ofVerb? hmethod)
      refine .bind (parameters_proceeds _ _ _) fun parameters hparameters => ?_
      refine .bind (requestBody_proceeds _ _ _) fun body _ => ?_
      refine .bind (responses_proceeds hstatuses _ _) fun responses hresponses => ?_
      refine .done husable ⟨⟨hresponses.1, hresponses.2, ?_⟩, ⟨?_, ⟨comment.basePath, ?_⟩, hid.symm⟩⟩
      · rw [hparameters]
        exact fits_parameters _ _
      · rw [hverb, Option.map_some, ← Method.verb_of_ofVerb? hmethod]
      · rw [hroute, Option.map_some]
  · next hincomplete =>
    refine .drop (dropsOperation_of_append (": missing " ++ Text.join ", " (missingParts record)) rfl ?_) ?_
    · rw [← String.append_assoc]
      rfl
    · exact unusable_of_incomplete hincomplete

/-- A candidate becomes no operation exactly if its comment lacks verb, path or id or gives an unknown verb, and
then exactly one error says so, under its subject. Otherwise the operation has the verb, the id and, below some
base, the path that were written last, and is well formed. -/
theorem assemble_wellFormed_or_dropped (candidate : Candidate) (assembler : Assembler) :
    let directives := (Comment.lex candidate.docs candidate.subject).1.directives
    let verb := Comment.lastGiven Comment.Directive.verb? directives
    let path := Comment.lastGiven Comment.Directive.path? directives
    let id := Comment.lastGiven Comment.Directive.operationId? directives
    let outcome := (assemble candidate).run assembler
    (outcome.1 = none ↔ verb = none ∨ path = none ∨ id = none ∨
      ∃ written ∈ verb, ∀ method : Method, method.verb ≠ Text.upperAscii written) ∧
    (∃ added, outcome.2.journal = assembler.journal ++ added ∧
      (drops added).map Finding.subject = if outcome.1.isNone then [candidate.subject] else []) ∧
    ∀ bound, outcome.1 = some bound → bound.WellFormed ∧ some bound.method.verb = verb.map Text.upperAscii ∧
      some bound.operation.operationId = id ∧ ∃ base, some bound.path = path.map (joinPath base) := by
  intro directives verb path id outcome
  obtain ⟨hverb, hpath, hid⟩ := Comment.Operation.read_parts candidate.docs candidate.subject
  obtain ⟨hdropped, hreported, hbound⟩ := assemble_accounts candidate assembler
  rw [Unusable, hverb, hpath, hid] at hdropped
  refine ⟨hdropped, hreported, fun bound h => ?_⟩
  obtain ⟨hformed, hmethod, hroute, hoperationId⟩ := hbound bound h
  rw [hverb] at hmethod
  rw [hpath] at hroute
  rw [hid] at hoperationId
  exact ⟨hformed, hmethod, hoperationId, hroute⟩

end ApiScribe.Operation
