import ApiScribe.Proofs.Json.Decoding
import ApiScribe.Proofs.Json.Paths
import ApiScribe.Proofs.Registry.Calls
import ApiScribe.Proofs.Synthesis.Findings
import Mathlib.Data.List.ReduceOption

/-!
# What becomes of the fields of a struct

The fields of a struct are looked at one after another. A field is skipped, or it is left out and an error is
reported about it, or it exposes a property. These are the only outcomes, however deep the type is in which
something is missing, and the schema of the struct is made of the exposed properties alone: each key stands
where it is first exposed and holds what is exposed last.
-/

namespace ApiScribe

/-- What stands at a position of the first of two lists that are related entry by entry has its counterpart at the
same position of the second. -/
theorem getElem?_of_forall₂ {α β : Type} {related : α → β → Prop} {items : List α} {others : List β}
    (h : List.Forall₂ related items others) {position : Nat} {item : α} (hitem : items[position]? = some item) :
    ∃ other, others[position]? = some other ∧ related item other := by
  induction h generalizing position with
  | nil => cases hitem
  | cons hfirst _ ih =>
    cases position with
    | zero =>
      cases hitem
      exact ⟨_, rfl, hfirst⟩
    | succ position => exact ih hitem

/-- What stands in the first of two lists that are related entry by entry has its counterpart in the second. -/
theorem exists_of_forall₂ {α β : Type} {related : α → β → Prop} {items : List α} {others : List β}
    (h : List.Forall₂ related items others) {item : α} (hitem : item ∈ items) :
    ∃ other ∈ others, related item other := by
  obtain ⟨position, hposition⟩ := List.mem_iff_getElem?.mp hitem
  obtain ⟨other, hother, hrelated⟩ := getElem?_of_forall₂ h hposition
  exact ⟨other, List.mem_of_getElem? hother, hrelated⟩

namespace Json

variable {α : Type}

/-- The last member is stored last. -/
theorem insertAll_concat (members : List (String × α)) (member : String × α) :
    insertAll (members ++ [member]) = insert member.1 member.2 (insertAll members) := by
  simp [insertAll]

/-- Only a new key is added to the keys. -/
theorem keys_insert (key : String) (value : α) (members : List (String × α)) :
    (insert key value members).map Prod.fst =
      if key ∈ members.map Prod.fst then members.map Prod.fst else members.map Prod.fst ++ [key] := by
  split
  · next hmem =>
    obtain ⟨held, hheld⟩ := Option.isSome_iff_exists.mp (lookup_isSome_iff.mpr hmem)
    exact keys_insert_of_lookup value hheld
  · next hnew => simp [insert_of_not_mem value hnew]

/-- Keys are stored in the order of their first occurrences. -/
theorem keys_insertAll (members : List (String × α)) :
    (insertAll members).map Prod.fst = (members.map Prod.fst).eraseDups := by
  induction members using List.reverseRecOn with
  | nil => rfl
  | append_singleton members member ih =>
    rw [insertAll_concat, keys_insert, ih, List.map_append, List.eraseDups_append]
    by_cases hkey : member.1 ∈ members.map Prod.fst
    · simp [hkey, List.removeAll]
    · simp [hkey, List.removeAll, List.eraseDups_cons]

/-- What is stored last under a key is found. -/
theorem lookup_insertAll (key : String) (members : List (String × α)) :
    lookup key (insertAll members) = (members.reverse.find? fun member => member.1 = key).map Prod.snd := by
  induction members using List.reverseRecOn with
  | nil => rfl
  | append_singleton members member ih =>
    rw [insertAll_concat, List.reverse_concat, List.find?_cons]
    by_cases hkey : member.1 = key
    · simp [hkey]
    · simp [hkey, lookup_insert_of_ne (Ne.symm hkey), ih]

end Json

/-- A property that a field exposes. -/
structure Exposure where
  key : String
  required : Bool
  schema : Schema

namespace Exposure

/-- Add a property to the schema of its struct. -/
def addTo (object : Schema) (exposure : Exposure) : Schema :=
  { object with
    required := if exposure.required then object.required ++ [exposure.key] else object.required
    properties := Json.insert exposure.key exposure.schema object.properties }

/-- The keys that are listed as required. -/
def requiredKeys (exposures : List Exposure) : List String := (exposures.filter required).map key

/-- The properties under their keys, where a later one replaces an earlier one. -/
def properties (exposures : List Exposure) : List (String × Schema) :=
  Json.insertAll (exposures.map fun exposure => (exposure.key, exposure.schema))

/-- The object that is made of the properties. -/
theorem foldl_addTo (exposures : List Exposure) :
    exposures.foldl addTo (Schema.ofKind .object) =
      { Schema.ofKind .object with required := requiredKeys exposures, properties := properties exposures } := by
  induction exposures using List.reverseRecOn with
  | nil => rfl
  | append_singleton exposures exposure ih =>
    rw [List.foldl_concat, ih, addTo, properties, properties, List.map_append, List.map_singleton,
      Json.insertAll_concat]
    cases hrequired : exposure.required <;> simp [requiredKeys, hrequired]

/-- The keys of an object stand in the order in which they are first exposed. -/
theorem keys_properties (exposures : List Exposure) :
    (properties exposures).map Prod.fst = (exposures.map key).eraseDups := by
  rw [properties, Json.keys_insertAll, List.map_map]
  rfl

end Exposure

/-- Whether an error about the subject is among the findings. -/
def Reported (findings : List Finding) (subject : String) : Prop :=
  ∃ finding ∈ findings, finding.isError = true ∧ finding.subject = subject

/-- What is reported as an error is among the findings. -/
theorem reported_report {cause : Cause} (hcause : cause.severity = .error) (subject : String)
    (registry : Registry) : Reported ((Registry.report subject cause).run registry).2.findings subject := by
  refine ⟨⟨subject, cause⟩, ?_, ?_, rfl⟩
  · exact List.mem_append_right _ (List.mem_singleton.mpr rfl)
  · simp [Finding.isError, Finding.severity, hcause]

/-- Whether an error about the subject is among the findings that come after those of the first registry. -/
def ReportedSince (first last : Registry) (subject : String) : Prop :=
  ∃ new, last.findings = first.findings ++ new ∧ Reported new subject

/-- What is reported in the middle of a run is among the findings that the run adds. -/
theorem ReportedSince.between {first before after last : Registry} {subject : String} {new : List Finding}
    (h : ReportedSince before after subject) (hbefore : first.findings <+: before.findings)
    (hafter : after.findings <+: last.findings) (hnew : last.findings = first.findings ++ new) :
    Reported new subject := by
  obtain ⟨added, hadded, finding, hmem, hfinding⟩ := h
  obtain ⟨front, hfront⟩ := hbefore
  obtain ⟨back, hback⟩ := hafter
  rw [← hback, hadded, ← hfront, List.append_assoc, List.append_assoc] at hnew
  refine ⟨finding, ?_, hfinding⟩
  rw [← List.append_cancel_left hnew]
  exact List.mem_append_right _ (List.mem_append_left _ hmem)

namespace Declaration

variable (declaration : Declaration) (field : FieldDeclaration)

/-- What findings about a field of the declaration call it: by its name, or by its position if it has none. -/
def fieldSubject (position : Nat) : String :=
  declaration.name.display ++ "." ++ field.ident.getD (Text.decimal position)

/-- What the comment of a field says. -/
def fieldRemarks (ident : String) : Comment.Field :=
  (Comment.Field.read field.docs (declaration.name.display ++ "." ++ ident)).1

/-- What is wrong with the comment of a field. -/
def fieldFindings (ident : String) : List Finding :=
  (Comment.Field.read field.docs (declaration.name.display ++ "." ++ ident)).2

/-- The name under which a field of the declaration is exposed, unless the field has no name. -/
def exposedName? : Option String :=
  field.ident.map fun ident =>
    Synthesis.exposedName declaration.options field (declaration.fieldRemarks field ident) ident

variable {declaration field} in
/-- A field that has a name is called by it. -/
theorem fieldSubject_of_ident {ident : String} (hident : field.ident = some ident) (position : Nat) :
    declaration.fieldSubject field position = declaration.name.display ++ "." ++ ident := by
  rw [fieldSubject, hident]
  rfl

end Declaration

namespace Synthesis

open Registry

variable {rules : Recursion} {first last : Registry}

/-- A path that leads nowhere is reported. -/
theorem resolvePath_reports {segments : List String} {scope : ModulePath} {subject : String}
    (hrun : (resolvePath rules segments scope subject).run first = some (none, last)) :
    Reported last.findings subject := by
  unfold resolvePath at hrun
  rw [run_liftM_bind] at hrun
  rcases hlookup : (lookup segments scope).run first with ⟨target, found⟩
  rw [hlookup] at hrun
  cases target with
  | none =>
    cases hrun
    exact reported_report rfl subject found
  | some name =>
    obtain ⟨⟨result, built⟩, -, hrest⟩ := Option.bind_eq_some_iff.mp hrun
    cases result with
    | some id => cases hrest
    | none =>
      obtain ⟨⟨schema, shown⟩, -, hpure⟩ := Option.bind_eq_some_iff.mp hrest
      cases hpure

/-- A type that wraps one without a schema has none either. -/
theorem run_map_eq_none {action : Build (Option Schema)} {wrap : Schema → Schema}
    (hrun : (do return (← action).map wrap : Build _).run first = some (none, last)) :
    action.run first = some (none, last) := by
  obtain ⟨⟨result, middle⟩, hresult, hpure⟩ := Option.bind_eq_some_iff.mp hrun
  cases result with
  | some schema => cases hpure
  | none =>
    cases hpure
    exact hresult

/-- A type without a schema is reported, wherever in it something is missing. -/
theorem resolve_reports {scope : ModulePath} {subject : String} {type : TypeExpr}
    (hrun : (resolve rules scope subject type).run first = some (none, last)) :
    Reported last.findings subject := by
  induction type generalizing first with
  | primitive | any => cases hrun
  | pointer inner ih => exact ih hrun
  | array inner ih => exact ih (run_map_eq_none hrun)
  | map key value _ ih =>
    unfold resolve at hrun
    split at hrun
    · exact ih (run_map_eq_none hrun)
    · exact ih (run_map_eq_none hrun)
  | unsupported what =>
    cases hrun
    exact reported_report rfl subject first
  | named name =>
    unfold resolve at hrun
    rw [run_liftM_bind] at hrun
    rcases hknown : (undeclaredWellKnown name scope).run first with ⟨known, before⟩
    rw [hknown] at hrun
    cases known with
    | some known => cases hrun
    | none => exact resolvePath_reports hrun
  | selector qualifier name => exact resolvePath_reports hrun

/-- A field without a schema is reported. -/
theorem fieldSchema_reports {type : TypeExpr} {remarks : Comment.Field} {scope : ModulePath} {subject : String}
    (hrun : (fieldSchema rules type remarks scope subject).run first = some (none, last)) :
    Reported last.findings subject := by
  obtain ⟨⟨found, listed⟩, -, hrest⟩ := Option.bind_eq_some_iff.mp hrun
  dsimp only at hrest
  split at hrest
  · split at hrest
    · exact resolve_reports (run_map_eq_none hrest)
    · exact resolve_reports (run_map_eq_none hrest)
  · cases hrest

/-- Look for the schema of a field that has a name, once what is wrong with its comment is reported. -/
def property (rules : Recursion) (declaration : Declaration) (field : FieldDeclaration) (ident : String) :
    Build (Option Schema) := do
  modify fun registry => registry.addFindings (declaration.fieldFindings field ident)
  fieldSchema rules (TypeExpr.classify declaration.generics field.type) (declaration.fieldRemarks field ident)
    declaration.name.module (declaration.name.display ++ "." ++ ident)

/-- What becomes of a field in the registry in which it is reached: what it exposes, if anything, and the
registry that it leaves. The properties that are exposed before it are known. -/
inductive FieldStep (rules : Recursion) (declaration : Declaration) (earlier : List Exposure) :
    FieldDeclaration × Nat → Registry → Option Exposure → Registry → Prop where
  /-- A field without a name is reported. -/
  | unnamed {field : FieldDeclaration} {position : Nat} {first : Registry} (hident : field.ident = none) :
      FieldStep rules declaration earlier (field, position) first none
        (first.addFindings [⟨declaration.name.display ++ "." ++ Text.decimal position, .tupleField⟩])
  /-- Nothing is done for a field that is skipped. -/
  | skipped {field : FieldDeclaration} {position : Nat} {first : Registry} {ident : String}
      (hident : field.ident = some ident) (hskip : field.options.skip = true) :
      FieldStep rules declaration earlier (field, position) first none first
  /-- A flattened field is reported. -/
  | flattened {field : FieldDeclaration} {position : Nat} {first : Registry} {ident : String}
      (hident : field.ident = some ident) (hskip : field.options.skip = false)
      (hflatten : field.options.flatten = true) :
      FieldStep rules declaration earlier (field, position) first none
        ((first.addFindings (declaration.fieldFindings field ident)).addFindings
          [⟨declaration.name.display ++ "." ++ ident, .flattenedField⟩])
  /-- The field is given no schema at this moment. -/
  | missing {field : FieldDeclaration} {position : Nat} {first last : Registry} {ident : String}
      (hident : field.ident = some ident) (hskip : field.options.skip = false)
      (hflatten : field.options.flatten = false)
      (hrun : (property rules declaration field ident).run first = some (none, last)) :
      FieldStep rules declaration earlier (field, position) first none last
  /-- The field exposes the schema that it is given at this moment. A name that is exposed already is reported. -/
  | exposed {field : FieldDeclaration} {position : Nat} {first last : Registry} {ident key : String}
      {schema : Schema} (hident : field.ident = some ident) (hskip : field.options.skip = false)
      (hflatten : field.options.flatten = false)
      (hkey : key = exposedName declaration.options field (declaration.fieldRemarks field ident) ident)
      (hrun : (property rules declaration field ident).run first = some (some schema, last)) :
      FieldStep rules declaration earlier (field, position) first
        (some ⟨key, isRequired declaration.options field, schema⟩)
        (if key ∈ earlier.map Exposure.key then
          last.addFindings [⟨declaration.name.display ++ "." ++ ident, .repeatedProperty key⟩] else last)

/-- What becomes of fields one after another, each in the registry that the one before it leaves. -/
inductive Outcomes (rules : Recursion) (declaration : Declaration) :
    List Exposure → List (FieldDeclaration × Nat) → Registry → List (Option Exposure) → Registry → Prop where
  | nil {earlier : List Exposure} {first : Registry} : Outcomes rules declaration earlier [] first [] first
  | cons {earlier : List Exposure} {entry : FieldDeclaration × Nat} {entries : List (FieldDeclaration × Nat)}
      {first middle last : Registry} {outcome : Option Exposure} {outcomes : List (Option Exposure)}
      (hstep : FieldStep rules declaration earlier entry first outcome middle)
      (hrest : Outcomes rules declaration (earlier ++ outcome.toList) entries middle outcomes last) :
      Outcomes rules declaration earlier (entry :: entries) first (outcome :: outcomes) last

variable {declaration : Declaration} {earlier : List Exposure} {entry : FieldDeclaration × Nat}
  {outcome : Option Exposure} {object schema : Schema}

/-- What becomes of a field is determined by the registry in which it is reached. -/
theorem FieldStep.unique {other : Option Exposure} {end' : Registry}
    (h : FieldStep rules declaration earlier entry first outcome last)
    (h' : FieldStep rules declaration earlier entry first other end') : outcome = other ∧ last = end' := by
  cases h <;> cases h' <;> simp_all

/-- The run determines what becomes of all fields. -/
theorem Outcomes.unique {entries : List (FieldDeclaration × Nat)} {outcomes others : List (Option Exposure)}
    {end' : Registry} (h : Outcomes rules declaration earlier entries first outcomes last)
    (h' : Outcomes rules declaration earlier entries first others end') : outcomes = others ∧ last = end' := by
  induction h generalizing others with
  | nil =>
    cases h'
    exact ⟨rfl, rfl⟩
  | cons hstep _ ih =>
    cases h' with
    | cons hstep' hrest' =>
      obtain ⟨rfl, rfl⟩ := hstep.unique hstep'
      obtain ⟨rfl, rfl⟩ := ih hrest'
      exact ⟨rfl, rfl⟩

/-- The keys of an object that is made of properties are those that are exposed. -/
theorem lookup_foldl_addTo_isSome_iff (key : String) (exposures : List Exposure) :
    (Json.lookup key (exposures.foldl Exposure.addTo (Schema.ofKind .object)).properties).isSome = true ↔
      key ∈ exposures.map Exposure.key := by
  rw [Json.lookup_isSome_iff, Exposure.foldl_addTo, Exposure.keys_properties, List.mem_eraseDups]

/-- Adding a field to the properties exposed before it is one step, and only what it exposes is added. -/
theorem addField_step {field : FieldDeclaration} {position : Nat}
    (hobject : object = earlier.foldl Exposure.addTo (Schema.ofKind .object))
    (hrun : (addField rules declaration object field position).run first = some (schema, last)) :
    ∃ outcome, FieldStep rules declaration earlier (field, position) first outcome last ∧
      schema = outcome.toList.foldl Exposure.addTo object := by
  unfold addField at hrun
  split at hrun
  · next hident =>
    cases hrun
    exact ⟨none, .unnamed hident, rfl⟩
  · next ident hident =>
    split at hrun
    · next hskip =>
      cases hrun
      exact ⟨none, .skipped hident hskip, rfl⟩
    · next hskip =>
      have hskip := Bool.eq_false_iff.mpr hskip
      dsimp only at hrun
      rw [StateT.run_bind, StateT.run_modify, pure_bind] at hrun
      split at hrun
      · next hflatten =>
        cases hrun
        exact ⟨none, .flattened hident hskip hflatten, rfl⟩
      · next hflatten =>
        have hflatten := Bool.eq_false_iff.mpr hflatten
        obtain ⟨⟨result, shown⟩, hshown, hrest⟩ := Option.bind_eq_some_iff.mp hrun
        cases result with
        | none =>
          cases hrest
          exact ⟨none, .missing hident hskip hflatten hshown, rfl⟩
        | some property =>
          have hstep : FieldStep rules declaration earlier (field, position) first _ _ :=
            .exposed hident hskip hflatten rfl hshown
          -- The object has the key already exactly if it is exposed before.
          have hknown := lookup_foldl_addTo_isSome_iff
            (exposedName declaration.options field (declaration.fieldRemarks field ident) ident) earlier
          rw [← hobject] at hknown
          dsimp only at hrest
          split at hrest
          · next hfound =>
            cases hrest
            rw [if_pos (hknown.mp hfound)] at hstep
            exact ⟨_, hstep, rfl⟩
          · next hfound =>
            cases hrest
            rw [if_neg (mt hknown.mpr hfound)] at hstep
            exact ⟨_, hstep, rfl⟩

/-- Adding fields is one step after another, and the object is made of what they expose. -/
theorem addFields_outcomes {position : Nat} {fields : List FieldDeclaration}
    (hobject : object = earlier.foldl Exposure.addTo (Schema.ofKind .object))
    (hrun : (addFields rules declaration object position fields).run first = some (schema, last)) :
    ∃ outcomes, Outcomes rules declaration earlier (fields.zipIdx position) first outcomes last ∧
      schema = outcomes.reduceOption.foldl Exposure.addTo object := by
  induction fields generalizing object position first earlier with
  | nil =>
    cases hrun
    exact ⟨[], .nil, rfl⟩
  | cons field rest ih =>
    obtain ⟨⟨next, middle⟩, hfield, hrest⟩ := Option.bind_eq_some_iff.mp hrun
    obtain ⟨outcome, hstep, rfl⟩ := addField_step hobject hfield
    obtain ⟨outcomes, houtcomes, rfl⟩ := ih (by rw [List.foldl_append, ← hobject]) hrest
    refine ⟨outcome :: outcomes, .cons hstep houtcomes, ?_⟩
    cases outcome <;> rfl

/-- Looking for the schema of a field treats findings as a log. -/
theorem property_logs (hrules : rules.Logs) (declaration : Declaration) (field : FieldDeclaration)
    (ident : String) : Logs (property rules declaration field ident) :=
  (Logs.modify fun front registry => addFindings_logged front _ registry).bind fun _ =>
    fieldSchema_logs hrules _ _ _ _

/-- A step only adds findings. -/
theorem FieldStep.keeps_findings (hrules : rules.Logs)
    (h : FieldStep rules declaration earlier entry first outcome last) : first.findings <+: last.findings := by
  cases h with
  | unnamed => exact List.prefix_append _ _
  | skipped => exact List.prefix_refl _
  | flattened => exact (List.prefix_append _ _).trans (List.prefix_append _ _)
  | missing _ _ _ hrun => exact (property_logs hrules _ _ _).keeps_findings hrun
  | exposed _ _ _ _ hrun =>
    have hkept := (property_logs hrules _ _ _).keeps_findings hrun
    split
    · exact hkept.trans (List.prefix_append _ _)
    · exact hkept

/-- The steps of a run only add findings. -/
theorem Outcomes.keeps_findings (hrules : rules.Logs) {entries : List (FieldDeclaration × Nat)}
    {outcomes : List (Option Exposure)} (h : Outcomes rules declaration earlier entries first outcomes last) :
    first.findings <+: last.findings := by
  induction h with
  | nil => exact List.prefix_refl _
  | cons hstep _ ih => exact (hstep.keeps_findings hrules).trans ih

/-- A field that is not skipped and exposes nothing is reported by its step. -/
theorem FieldStep.reports (hrules : rules.Logs) {field : FieldDeclaration} {position : Nat}
    (h : FieldStep rules declaration earlier (field, position) first none last)
    (hskip : field.options.skip = false) :
    ReportedSince first last (declaration.fieldSubject field position) := by
  cases h with
  | unnamed hident =>
    rw [Declaration.fieldSubject, hident]
    exact ⟨_, rfl, _, List.mem_singleton.mpr rfl, rfl, rfl⟩
  | skipped _ hskipped => simp [hskip] at hskipped
  | @flattened _ _ _ ident hident =>
    rw [Declaration.fieldSubject_of_ident hident]
    refine ⟨declaration.fieldFindings field ident ++ [⟨_, .flattenedField⟩], List.append_assoc _ _ _, ?_⟩
    exact ⟨_, List.mem_append_right _ (List.mem_singleton.mpr rfl), rfl, rfl⟩
  | missing hident _ _ hrun =>
    rw [Declaration.fieldSubject_of_ident hident]
    obtain ⟨quiet, hquiet, rfl⟩ := (property_logs hrules _ _ _).run_quiet hrun
    exact ⟨_, rfl, fieldSchema_reports hquiet⟩

/-- A field is exposed under its exposed name. -/
theorem FieldStep.exposedName {field : FieldDeclaration} {position : Nat} {exposure : Exposure}
    (h : FieldStep rules declaration earlier (field, position) first (some exposure) last) :
    declaration.exposedName? field = some exposure.key := by
  cases h with
  | exposed hident _ _ hkey =>
    rw [Declaration.exposedName?, hident, hkey]
    rfl

/-- A field that is exposed is not skipped. -/
theorem FieldStep.not_skipped {field : FieldDeclaration} {position : Nat} {exposure : Exposure}
    (h : FieldStep rules declaration earlier (field, position) first (some exposure) last) :
    field.options.skip = false := by
  cases h with
  | exposed _ hskip => exact hskip

/-- Each outcome of a run is that of a step, between registries that the run passes through. -/
theorem Outcomes.steps (hrules : rules.Logs) {entries : List (FieldDeclaration × Nat)}
    {outcomes : List (Option Exposure)} (h : Outcomes rules declaration earlier entries first outcomes last) :
    List.Forall₂ (fun entry outcome => ∃ earlier before after,
      FieldStep rules declaration earlier entry before outcome after ∧
        first.findings <+: before.findings ∧ after.findings <+: last.findings) entries outcomes := by
  induction h with
  | nil => exact .nil
  | cons hstep hrest ih =>
    refine .cons ⟨_, _, _, hstep, List.prefix_refl _, hrest.keeps_findings hrules⟩ (ih.imp ?_)
    rintro entry outcome ⟨earlier, before, after, hlater, hbefore, hafter⟩
    exact ⟨earlier, before, after, hlater, (hstep.keeps_findings hrules).trans hbefore, hafter⟩

end Synthesis

/-- The rules without any depth complete. -/
theorem Recursion.unbounded_complete (names : List QualifiedName) (depth : Nat) :
    Recursion.unbounded.Complete names depth where
  component name first _ _ := by
    obtain ⟨result, last, hrun, hadvances, hanswers⟩ := Registry.synthesize_answers name first
    exact ⟨result, last, congrArg some hrun, hadvances, hanswers⟩
  inline name subject first _ _ := by
    obtain ⟨schema, last, hrun, hadvances, hcovers⟩ :=
      Registry.perform_run {} (fun _ _ _ hrules => hrules.inline name subject) first
    exact ⟨schema, last, congrArg some hrun, hadvances, hcovers⟩

namespace Registry

/-- An opted-in struct that is neither built nor given up. -/
structure Awaits (registry : Registry) (name : QualifiedName) (declaration : Declaration)
    (fields : List FieldDeclaration) : Prop where
  get : registry.table.get? name = some declaration
  shape : declaration.shape = .struct fields
  opted : registry.isOptedIn name = true
  new : registry.indexOf? name = none
  kept : name ∉ registry.failed

variable {name : QualifiedName} {declaration : Declaration} {fields : List FieldDeclaration} {first : Registry}

/-- Take a place for the component of a declaration, once its comment is read. -/
def opening (name : QualifiedName) : StateM Registry Nat := do
  let _ ← isSchema name
  Synthesis.reserve name

/-- A run that makes the component of a struct. Its fields are looked at from the registry on in which its
place is taken, and what is reported about them stays. -/
structure StructRun (first : Registry) (name : QualifiedName) (declaration : Declaration)
    (fields : List FieldDeclaration) (id : Nat) (last : Registry) (node : Node)
    (outcomes : List (Option Exposure)) : Prop where
  run : (synthesize name).run first = (some id, last)
  placed : last.nodes[id]? = some node
  canonical : node.canonical = name
  passes : ∃ opened built, (opening name).run first = (id, opened) ∧
    Synthesis.Outcomes .unbounded declaration [] fields.zipIdx opened outcomes built ∧
    built.findings <+: last.findings

/-- Taking a place treats findings as a log. -/
theorem opening_logs (name : QualifiedName) : Logs (liftM (opening name)) :=
  .lift fun _ => commutes_bind (isSchema_commutes name) fun _ => Synthesis.reserve_commutes name

/-- When a struct is asked for, it is built. -/
theorem Awaits.component_run (h : first.Awaits name declaration fields) (rules : Recursion) :
    (Synthesis.component rules name).run first =
      (do
        let id ← opening name
        let schema ← Synthesis.shapeSchema rules declaration
        Synthesis.finish name id (schema.withContainer (← container name))
        return some id : Build (Option Nat)).run first := by
  have hasked : ((isSchema name).run first).1 = true := by rw [isSchema_run_fst, h.opted]
  have hget := (isSchema_reads name first).get? h.get
  have hopening : (opening name).run first = (Synthesis.reserve name).run ((isSchema name).run first).2 := rfl
  rw [run_liftM_bind, hopening]
  rcases hrun : (isSchema name).run first with ⟨chosen, asked⟩
  rw [hrun] at hasked hget
  cases hasked
  unfold Synthesis.component
  rw [StateT.run_bind, StateT.run_get, pure_bind, h.new]
  dsimp only
  rw [StateT.run_bind, StateT.run_get, pure_bind, if_neg (by simpa using h.kept), run_liftM_bind, hrun]
  dsimp only
  rw [Bool.not_true, if_neg Bool.false_ne_true, StateT.run_bind, StateT.run_get, pure_bind, hget]
  dsimp only
  rw [h.shape]
  rfl

/-- When a struct is asked for, a place is taken, the schema of its shape is built, and the place is closed with
the schema and what the comment of the struct adds to it. -/
theorem Awaits.builds (h : first.Awaits name declaration fields) :
    ∃ id opened object built comment last node, (opening name).run first = (id, opened) ∧
      (Synthesis.shapeSchema .unbounded declaration).run opened = some (object, built) ∧
      built.findings <+: last.findings ∧ (synthesize name).run first = (some id, last) ∧
      last.nodes[id]? = some node ∧ node.canonical = name ∧ node.schema = object.withContainer comment := by
  have hcomponent := h.component_run .unbounded
  have hdeclared : ((isSchema name).run first).2.table.contains name = true :=
    Option.isSome_iff_exists.mpr ⟨_, (isSchema_reads name first).get? h.get⟩
  obtain ⟨component, prepared, hreserve, hprepares, -⟩ := Synthesis.reserve_run hdeclared
  have hopening : (opening name).run first = (prepared.nodes.length, prepared.opened name component) := hreserve
  obtain ⟨object, built, hobject, hadvances, -⟩ :=
    Synthesis.shapeSchema_completes (Recursion.unbounded_complete _ _) declaration
      (prepared.opened name component) (fits_declarable _) trivial
  rw [Synthesis.component_unbounded, run_liftM_bind, hopening, StateT.run_bind, hobject, Option.bind_eq_bind,
    Option.bind_some] at hcomponent
  have hread := container_reads (hadvances.grows.contains (hprepares.grows.contains hdeclared))
  rcases hcontainer : (container name).run built with ⟨comment, read⟩
  rw [hcontainer] at hread
  have hfindings : built.findings <+: read.findings :=
    (Logs.lift fun _ => container_commutes name).keeps_findings (congrArg some hcontainer)
  rw [run_liftM_bind, hcontainer] at hcomponent
  -- The place that was taken is still there when it is closed.
  obtain ⟨rest, hrest⟩ := hadvances.grows.nodes
  have hnodes : read.nodes = prepared.nodes ++ ⟨name, component, {}⟩ :: rest := by
    rw [hread.unchanged.1.nodes, ← hrest]
    exact List.append_assoc _ _ _
  have hplaced : (read.closed name prepared.nodes.length (object.withContainer comment)).nodes[
      prepared.nodes.length]? = some ⟨name, component, object.withContainer comment⟩ := by
    unfold closed
    rw [hnodes, modify_append_cons]
    simp
  exact ⟨prepared.nodes.length, prepared.opened name component, object, built, comment,
    read.closed name prepared.nodes.length (object.withContainer comment), _, hopening, hobject, hfindings,
    Option.some.inj hcomponent, hplaced, rfl, rfl⟩

/-- The component of a struct is made of what its fields expose. -/
theorem Awaits.outcomes (h : first.Awaits name declaration fields) :
    ∃ id last node outcomes, StructRun first name declaration fields id last node outcomes ∧
      node.schema.properties = Exposure.properties outcomes.reduceOption ∧
      node.schema.required = Exposure.requiredKeys outcomes.reduceOption := by
  obtain ⟨id, opened, object, built, comment, last, node, hopening, hobject, hfindings, hrun, hplaced, hcanonical,
    hschema⟩ := h.builds
  unfold Synthesis.shapeSchema at hobject
  rw [h.shape] at hobject
  have hstart : Schema.ofKind .object = ([] : List Exposure).foldl Exposure.addTo (Schema.ofKind .object) := rfl
  obtain ⟨outcomes, houtcomes, hmade⟩ := Synthesis.addFields_outcomes hstart hobject
  rw [Exposure.foldl_addTo] at hmade
  subst hmade
  exact ⟨id, last, node, outcomes, ⟨hrun, hplaced, hcanonical, opened, built, hopening, houtcomes, hfindings⟩,
    congrArg Schema.properties hschema, congrArg Schema.required hschema⟩

/-- What was reported before the run is reported after it. -/
theorem StructRun.findings {id : Nat} {last : Registry} {node : Node} {outcomes : List (Option Exposure)}
    (h : StructRun first name declaration fields id last node outcomes) : first.findings <+: last.findings :=
  (Recursion.unbounded_logs.component name).keeps_findings (congrArg some h.run)

/-- Each field of a struct takes a step, and those that expose nothing without being skipped are reported. -/
theorem StructRun.steps {id : Nat} {last : Registry} {node : Node} {outcomes : List (Option Exposure)}
    {new : List Finding} (h : StructRun first name declaration fields id last node outcomes)
    (hnew : last.findings = first.findings ++ new) :
    List.Forall₂ (fun entry outcome =>
      (∃ earlier before after,
        Synthesis.FieldStep .unbounded declaration earlier entry before outcome after) ∧
      (outcome = none → entry.1.options.skip = false →
        Reported new (declaration.fieldSubject entry.1 entry.2))) fields.zipIdx outcomes := by
  obtain ⟨opened, built, hopening, houtcomes, hbuilt⟩ := h.passes
  have hopened := (opening_logs name).keeps_findings (congrArg some hopening)
  refine (houtcomes.steps Recursion.unbounded_logs).imp ?_
  rintro ⟨field, position⟩ outcome ⟨earlier, before, after, hstep, hbefore, hafter⟩
  refine ⟨⟨earlier, before, after, hstep⟩, ?_⟩
  rintro rfl hskip
  exact (hstep.reports Recursion.unbounded_logs hskip).between (hopened.trans hbefore) (hafter.trans hbuilt) hnew

/-- The run determines what becomes of the fields. -/
theorem StructRun.outcomes_eq {id : Nat} {last built : Registry} {node : Node}
    {outcomes others : List (Option Exposure)}
    (h : StructRun first name declaration fields id last node outcomes)
    (hothers : Synthesis.Outcomes .unbounded declaration [] fields.zipIdx
      ((opening name).run first).2 others built) :
    outcomes = others := by
  obtain ⟨opened, _, hopening, houtcomes, -⟩ := h.passes
  rw [hopening] at hothers
  exact (houtcomes.unique hothers).1

/-- No field disappears silently. When a struct is asked for, every field that is not skipped exposes a property
under its exposed name, or it exposes none and an error about it is reported. Every key is the exposed name of a
field that is not skipped, and the keys stand in the order in which they are first exposed. -/
theorem synthesize_accounts_for_fields (h : first.Awaits name declaration fields) :
    ∃ id last node new outcomes, StructRun first name declaration fields id last node outcomes ∧
      last.findings = first.findings ++ new ∧
      (∀ field position, fields[position]? = some field → field.options.skip = false →
        (∃ exposure, outcomes[position]? = some (some exposure) ∧
          declaration.exposedName? field = some exposure.key ∧
          exposure.key ∈ node.schema.properties.map Prod.fst) ∨
        (outcomes[position]? = some none ∧ Reported new (declaration.fieldSubject field position))) ∧
      (∀ key ∈ node.schema.properties.map Prod.fst,
        ∃ field ∈ fields, field.options.skip = false ∧ declaration.exposedName? field = some key) ∧
      node.schema.properties.map Prod.fst = (outcomes.reduceOption.map Exposure.key).eraseDups := by
  obtain ⟨id, last, node, outcomes, hrun, hproperties, -⟩ := h.outcomes
  obtain ⟨new, hnew⟩ := hrun.findings
  have hsteps := hrun.steps hnew.symm
  have hkeys : node.schema.properties.map Prod.fst = (outcomes.reduceOption.map Exposure.key).eraseDups := by
    rw [hproperties, Exposure.keys_properties]
  refine ⟨id, last, node, new, outcomes, hrun, hnew.symm, ?_, ?_, hkeys⟩
  · intro field position hfield hskip
    have hentry : fields.zipIdx[position]? = some (field, position) := by simp [hfield]
    obtain ⟨outcome, houtcome, ⟨earlier, before, after, hstep⟩, hreported⟩ := getElem?_of_forall₂ hsteps hentry
    cases outcome with
    | none => exact .inr ⟨houtcome, hreported rfl hskip⟩
    | some exposure =>
      refine .inl ⟨exposure, houtcome, hstep.exposedName, ?_⟩
      rw [hkeys, List.mem_eraseDups]
      exact List.mem_map_of_mem (List.reduceOption_mem_iff.mpr (List.mem_of_getElem? houtcome))
  · intro key hkey
    rw [hkeys, List.mem_eraseDups, List.mem_map] at hkey
    obtain ⟨exposure, hexposure, rfl⟩ := hkey
    obtain ⟨⟨field, position⟩, hmem, ⟨earlier, before, after, hstep⟩, -⟩ :=
      exists_of_forall₂ hsteps.flip (List.reduceOption_mem_iff.mp hexposure)
    exact ⟨field, List.fst_mem_of_mem_zipIdx hmem, hstep.not_skipped, hstep.exposedName⟩

/-- An opted-in struct `Pet` with the given fields. -/
def petOf (fields : List FieldDeclaration) : Declaration where
  name := ⟨.root, "Pet"⟩
  shape := .struct fields
  docs := ["openapi:schema"]
  generics := []
  options := {}
  source := "src/lib.rs"

/-- The registry at the start of a run over one declaration in the root module. -/
def registryOf (declaration : Declaration) : Registry :=
  ofResolver { table.declarations := [(declaration.name, declaration)], table.scopes := [(.root, [])] }

/-- The registry at the start of a run over an opted-in struct `Pet` with the given fields. -/
def petRegistry (fields : List FieldDeclaration) : Registry := registryOf (petOf fields)

/-- At the start of the run the struct is neither built nor given up. -/
theorem awaits_petRegistry (fields : List FieldDeclaration) :
    (petRegistry fields).Awaits ⟨.root, "Pet"⟩ (petOf fields) fields :=
  ⟨rfl, rfl, rfl, rfl, List.not_mem_nil⟩

/-- The fields `old: Missing`, exposed as `tag`, `name: String` and `tag: String`. -/
def taggedFields : List FieldDeclaration :=
  [⟨some "old", .path false [] "Missing" [], [], { rename := some "tag" }⟩,
    ⟨some "name", .path false [] "String" [], [], {}⟩,
    ⟨some "tag", .path false [] "String" [], [], {}⟩]

/-- The fields `pet_id: String`, which its comment calls `identifier` and its options `id`, `pet_name: String`,
which its options call `name`, and `born_at: String`. -/
def namedFields : List FieldDeclaration :=
  [⟨some "pet_id", .path false [] "String" [], ["openapi:name identifier"], { rename := some "id" }⟩,
    ⟨some "pet_name", .path false [] "String" [], [], { rename := some "name" }⟩,
    ⟨some "born_at", .path false [] "String" [], [], {}⟩]

/-- An opted-in struct `Pet` whose fields are renamed to camel case where they are not given a name. -/
def namedPet : Declaration := { petOf namedFields with options := { renameAll := some .camel } }

/-- A field whose type is missing is accounted for although a later one is exposed under the same name, and its
name holds no place. A name in the comment of a field comes before one in its options, and that before the case
rule of the struct. -/
theorem synthesize_accounts_for_fields_tagged :
    ((petRegistry taggedFields).Awaits ⟨.root, "Pet"⟩ (petOf taggedFields) taggedFields ∧
      ∃ id last node, StructRun (petRegistry taggedFields) ⟨.root, "Pet"⟩ (petOf taggedFields) taggedFields
          id last node
          [none, some ⟨"name", true, Schema.ofKind .string⟩, some ⟨"tag", true, Schema.ofKind .string⟩] ∧
        Reported last.findings "crate::Pet.old" ∧ node.schema.properties.map Prod.fst = ["name", "tag"]) ∧
    (registryOf namedPet).Awaits ⟨.root, "Pet"⟩ namedPet namedFields ∧
      ∃ id last node outcomes, StructRun (registryOf namedPet) ⟨.root, "Pet"⟩ namedPet namedFields
          id last node outcomes ∧
        outcomes.reduceOption.map Exposure.key = ["identifier", "name", "bornAt"] ∧
        node.schema.properties.map Prod.fst = ["identifier", "name", "bornAt"] := by
  have htagged := awaits_petRegistry taggedFields
  have hnamed : (registryOf namedPet).Awaits ⟨.root, "Pet"⟩ namedPet namedFields :=
    ⟨rfl, rfl, rfl, rfl, List.not_mem_nil⟩
  refine ⟨⟨htagged, ?_⟩, hnamed, ?_⟩
  · obtain ⟨id, last, node, new, outcomes, hrun, hnew, hfields, -, hkeys⟩ := synthesize_accounts_for_fields htagged
    obtain rfl := hrun.outcomes_eq (.cons (.missing rfl rfl rfl rfl) (.cons (.exposed rfl rfl rfl rfl rfl)
      (.cons (.exposed rfl rfl rfl rfl rfl) .nil)))
    have hreported : Reported new "crate::Pet.old" := by
      rcases hfields _ 0 rfl rfl with ⟨_, hexposed, -⟩ | ⟨-, hreported⟩
      · cases hexposed
      · exact hreported
    have hfindings : last.findings = new := hnew
    exact ⟨id, last, node, hrun, hfindings ▸ hreported, hkeys⟩
  · obtain ⟨id, last, node, new, outcomes, hrun, -, -, -, hkeys⟩ := synthesize_accounts_for_fields hnamed
    obtain rfl := hrun.outcomes_eq (.cons (.exposed rfl rfl rfl rfl rfl) (.cons (.exposed rfl rfl rfl rfl rfl)
      (.cons (.exposed rfl rfl rfl rfl rfl) .nil)))
    exact ⟨id, last, node, _, hrun, rfl, hkeys⟩

/-- The name of a field that is left out does not hold a place: the keys are not always in the order in which
the names of the fields occur. -/
theorem keys_order_omits_missing :
    ((((synthesize ⟨.root, "Pet"⟩).run (petRegistry taggedFields)).2.nodeFor? ⟨.root, "Pet"⟩).map fun node =>
      node.schema.properties.map Prod.fst) = some ["name", "tag"] ∧
    (taggedFields.filterMap (petOf taggedFields).exposedName?).eraseDups = ["tag", "name"] :=
  ⟨rfl, rfl⟩

end Registry

end ApiScribe
