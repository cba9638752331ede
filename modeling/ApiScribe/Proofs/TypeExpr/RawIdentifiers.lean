import ApiScribe.Proofs.Lookup.Spelling
import ApiScribe.Proofs.Synthesis.Fields
import ApiScribe.Proofs.TypeExpr.Parts

/-!
# Raw identifiers in types

A written type keeps the marks of its raw identifiers, while the names that a run knows have lost theirs. So
marking an identifier in the type of a field either vanishes with the part of the type that is not looked at, or it
leaves the field without a schema.
-/

namespace ApiScribe

open Source (TypeSyntax)

/-- The words that are no raw identifiers with a mark. -/
def Source.unmarkable : List String := ["crate", "self", "super", "Self"]

/-- The second type is the first with one identifier of its path marked. -/
inductive Source.TypeSyntax.Marks : TypeSyntax → TypeSyntax → Prop where
  | name (qualified : Bool) (qualifier : List String) {ident : String} (arguments : List TypeSyntax)
      (hident : ident ∉ unmarkable) :
      Marks (.path qualified qualifier ident arguments) (.path qualified qualifier ("r#" ++ ident) arguments)
  | segment (qualified : Bool) (before after : List String) {ident : String} (name : String)
      (arguments : List TypeSyntax) (hident : ident ∉ unmarkable) :
      Marks (.path qualified (before ++ ident :: after) name arguments)
        (.path qualified (before ++ ("r#" ++ ident) :: after) name arguments)

namespace TypeExpr

/-- The path that is looked up for a type, if any. -/
def corePath : TypeExpr → List String
  | .pointer inner => inner.corePath
  | .array inner => inner.corePath
  | .map _ value => value.corePath
  | .named name => [name]
  | .selector qualifier name => qualifier ++ [name]
  | _ => []

/-- A marked identifier is looked up for the type. -/
def ShowsRaw (type : TypeExpr) : Prop := ∃ segment ∈ type.corePath, IsRaw segment

instance : DecidablePred ShowsRaw := fun type =>
  inferInstanceAs (Decidable (∃ segment ∈ type.corePath, IsRaw segment))

/-- A type with text for the keys of its maps. -/
def withTextKeys : TypeExpr → TypeExpr
  | .pointer inner => .pointer inner.withTextKeys
  | .array inner => .array inner.withTextKeys
  | .map _ value => .map (.primitive .string) value.withTextKeys
  | type => type

/-- The second type shows a marked identifier, or it differs from the first in keys of maps only. -/
def Respelled (type type' : TypeExpr) : Prop := type'.ShowsRaw ∨ type'.withTextKeys = type.withTextKeys

/-- A wrapper does not change the path at the core. -/
theorem corePath_wrap (type : TypeExpr) : type.wrap.corePath = type.corePath := by
  cases type <;> rfl

/-- A sequence does not change the path at the core. -/
theorem corePath_sequence (type : TypeExpr) : type.sequence.corePath = type.corePath := by
  unfold sequence
  split <;> rfl

/-- The keys of maps are made text inside of wrappers. -/
theorem withTextKeys_wrap (type : TypeExpr) : type.wrap.withTextKeys = type.withTextKeys.wrap := by
  cases type <;> rfl

/-- The keys of maps are made text inside of sequences. -/
theorem withTextKeys_sequence (type : TypeExpr) : type.sequence.withTextKeys = type.withTextKeys.sequence := by
  cases type with
  | primitive primitive => cases primitive <;> rfl
  | _ => rfl

/-- Whatever puts types together keeps them respelled. -/
theorem respelled_compatible : Compatible Respelled where
  refl _ := .inr rfl
  wrap {type type'} h := by
    refine h.imp (fun hraw => ?_) fun hkeys => ?_
    · rwa [ShowsRaw, corePath_wrap]
    · rw [withTextKeys_wrap, withTextKeys_wrap, hkeys]
  sequence {type type'} h := by
    refine h.imp (fun hraw => ?_) fun hkeys => ?_
    · rwa [ShowsRaw, corePath_sequence]
    · rw [withTextKeys_sequence, withTextKeys_sequence, hkeys]
  key _ _ := .inr rfl
  value _ h := h.imp id (congrArg (map (.primitive .string)))

/-- A path that is looked up as it is shows its marked identifiers. -/
theorem showsRaw_ofName {qualifier : List String} {name segment : String} (hsegment : segment ∈ qualifier ++ [name])
    (hraw : IsRaw segment) : (ofName qualifier name).ShowsRaw := by
  refine ⟨segment, ?_, hraw⟩
  cases qualifier with
  | nil => exact hsegment
  | cons first rest => exact hsegment

/-- No built-in type goes by a marked name. -/
theorem ofTypeName?_of_isRaw {name : String} (hraw : IsRaw name) : Primitive.ofTypeName? name = none := by
  unfold Primitive.ofTypeName?
  split <;> first | rfl | exact absurd hraw (by decide)

/-- A raw name is not among plain ones. -/
theorem not_mem_of_isRaw {name : String} (hraw : IsRaw name) {names : List String}
    (hnames : ∀ other ∈ names, ¬ IsRaw other) : names.contains name = false := by
  rw [Bool.eq_false_iff]
  exact fun hmem => hnames name (List.contains_iff_mem.mp hmem) hraw

/-- A raw name has no meaning of its own. -/
theorem ofPlainPath_of_isRaw (qualifier : List String) {name : String} (hraw : IsRaw name) :
    ofPlainPath qualifier name = ofName qualifier name := by
  unfold ofPlainPath
  rw [not_mem_of_isRaw hraw (by decide), ofTypeName?_of_isRaw hraw]
  rfl

/-- A marked name stands for nothing built in. -/
theorem ofPath_of_isRaw {generics : List String} (hgenerics : ∀ name ∈ generics, ¬ IsRaw name)
    (qualifier : List String) {name : String} (hraw : IsRaw name) (arguments : List TypeExpr) :
    ofPath generics qualifier name arguments = ofName qualifier name := by
  unfold ofPath
  rw [not_mem_of_isRaw hraw hgenerics, Bool.and_false, if_neg Bool.false_ne_true,
    ofPlainPath_of_isRaw qualifier hraw]
  split
  · rfl
  · rw [not_mem_of_isRaw hraw (by decide : ∀ other ∈ pointerNames, ¬ IsRaw other),
      not_mem_of_isRaw hraw (by decide : ∀ other ∈ sequenceNames, ¬ IsRaw other),
      not_mem_of_isRaw hraw (by decide : ∀ other ∈ mapNames, ¬ IsRaw other)]
    rfl

/-- A marked segment of a qualifier is looked up, or the name stands for something built in whatever leads to it. -/
theorem respelled_ofPlainPath (before after : List String) {ident : String} (hident : ident ∉ Source.unmarkable)
    (name : String) :
    Respelled (ofPlainPath (before ++ ident :: after) name)
      (ofPlainPath (before ++ ("r#" ++ ident) :: after) name) := by
  have hraw : (ofName (before ++ ("r#" ++ ident) :: after) name).ShowsRaw :=
    showsRaw_ofName (by simp) (isRaw_raw ident)
  have hlocal : isLocal (before ++ ("r#" ++ ident) :: after) = isLocal (before ++ ident :: after) := by
    cases before with
    | nil =>
      have hmarked : ["crate", "self", "super"].contains ("r#" ++ ident) = false :=
        not_mem_of_isRaw (isRaw_raw ident) (by decide)
      have hunmarked : ["crate", "self", "super"].contains ident = false := by
        simp_all [Source.unmarkable]
      exact hmarked.trans hunmarked.symm
    | cons first rest => rfl
  unfold ofPlainPath
  rw [hlocal]
  split
  · split
    · exact .inl hraw
    · cases wellKnown? name with
      | none => exact .inl hraw
      | some known => exact .inr rfl
  · split
    · exact .inr rfl
    · exact .inl hraw

/-- Marking a segment of the qualifier only respells a path. -/
theorem respelled_ofPath (before after : List String) {ident : String} (hident : ident ∉ Source.unmarkable)
    (generics : List String) (name : String) (arguments : List TypeExpr) :
    Respelled (ofPath generics (before ++ ident :: after) name arguments)
      (ofPath generics (before ++ ("r#" ++ ident) :: after) name arguments) := by
  have hplain := respelled_ofPlainPath before after hident name
  have hqualified (segment : String) : (before ++ segment :: after).isEmpty = false := by simp
  unfold ofPath
  rw [hqualified, hqualified, Bool.false_and, if_neg Bool.false_ne_true, if_neg Bool.false_ne_true]
  split
  · exact hplain
  · split
    · exact .inr rfl
    · split
      · exact .inr rfl
      · split
        · exact .inr rfl
        · exact hplain

/-- A marked identifier in a written type is looked up, or nothing comes of it but other keys of maps. -/
theorem classify_marked {generics : List String} (hgenerics : ∀ name ∈ generics, ¬ IsRaw name)
    {type type' : TypeSyntax} (h : TypeSyntax.Changes TypeSyntax.Marks type type') :
    Respelled (classify generics type) (classify generics type') := by
  refine respelled_compatible.classify (fun type type' hmarks => ?_) h
  cases hmarks with
  | @name qualified qualifier ident arguments _ =>
    cases qualified with
    | true => exact .inr rfl
    | false =>
      have hraw := isRaw_raw ident
      rw [classify, classify, ofPath_of_isRaw hgenerics qualifier hraw]
      exact .inl (showsRaw_ofName (List.mem_append_right _ List.mem_cons_self) hraw)
  | segment qualified before after name arguments hident =>
    cases qualified with
    | true => exact .inr rfl
    | false => exact respelled_ofPath before after hident generics name _

end TypeExpr

namespace Registry

/-- What a registry knows, the component names included, goes by names without marks. -/
structure Plain (registry : Registry) : Prop where
  resolver : registry.resolver.Plain
  names : ∀ entry ∈ registry.names.assigned, ¬ IsRaw entry.2

/-- No component has a raw name. -/
theorem Plain.holder?_of_isRaw {registry : Registry} (h : registry.Plain) {name : String} (hraw : IsRaw name) :
    registry.names.holder? name = none := by
  refine Option.map_eq_none_iff.mpr (List.find?_eq_none.mpr fun entry hentry heq => ?_)
  exact h.names entry hentry (of_decide_eq_true heq ▸ hraw)

/-- The registries of a run from a given one: between two calls, or in the middle of one, while components are
being built and aliases are being expanded. -/
inductive Arises (start : Registry) : Registry → Prop where
  | start : Arises start start
  | steps {first last : Registry} (h : Arises start first) (hsteps : Steps first last) : Arises start last
  | opened {registry : Registry} (h : Arises start registry) (name : QualifiedName) (component : String) :
      Arises start (registry.opened name component)
  | expanding {registry : Registry} (h : Arises start registry) (name : QualifiedName) :
      Arises start { registry with expanding := name :: registry.expanding }

section Resolver

variable {first last : Registry}

/-- Reading keeps the resolver plain. -/
theorem Reads.plain (h : Reads first last) (hfirst : first.resolver.Plain) : last.resolver.Plain := by
  induction h with
  | refl => exact hfirst
  | trans _ _ ih ih' => exact ih' (ih hfirst)
  | note => exact ⟨hfirst.table, hfirst.loader⟩
  | load registry module => exact hfirst.ensureModule module
  | comment => exact hfirst

/-- Preparing keeps the resolver plain. -/
theorem Prepares.plain (h : Prepares first last) (hfirst : first.resolver.Plain) : last.resolver.Plain := by
  induction h with
  | read h => exact h.plain hfirst
  | trans _ _ ih ih' => exact ih' (ih hfirst)
  | entitle => exact hfirst

/-- Advancing keeps the resolver plain. -/
theorem Advances.plain (h : Advances first last) (hfirst : first.resolver.Plain) : last.resolver.Plain := by
  induction h with
  | prepare h => exact h.plain hfirst
  | trans _ _ ih ih' => exact ih' (ih hfirst)
  | giveUp => exact hfirst
  | build _ _ _ _ _ _ _ _ _ _ ih => exact ih hfirst
  | expand _ _ ih => exact ih hfirst

/-- Steps keep the resolver plain. -/
theorem Steps.plain (h : Steps first last) (hfirst : first.resolver.Plain) : last.resolver.Plain := by
  induction h with
  | advance h => exact h.plain hfirst
  | trans _ _ ih ih' => exact ih' (ih hfirst)
  | comment => exact hfirst

/-- A run learns no marked name. -/
theorem Arises.plain {start registry : Registry} (h : Arises start registry) (hstart : start.resolver.Plain) :
    registry.resolver.Plain := by
  induction h with
  | start => exact hstart
  | steps _ hsteps ih => exact hsteps.plain ih
  | opened _ name component ih => exact ih
  | expanding _ name ih => exact ih

end Resolver

end Registry

namespace Synthesis

open Registry

variable {rules : Recursion} {scope : ModulePath} {subject : String} {first last : Registry}

/-- A path with a marked segment is not found, by whatever name. -/
theorem lookup_of_isRaw (h : first.Plain) {segments : List String} {segment : String}
    (hsegment : segment ∈ segments) (hraw : IsRaw segment) : ((lookup segments scope).run first).1 = none := by
  obtain ⟨hnone, hlast⟩ := Resolver.lookup_gives_none hsegment hraw scope first.resolver h.resolver
  have hresolving : (resolving (Resolver.lookup segments scope)).run first =
      (((Resolver.lookup segments scope).run first.resolver).1,
        { first with resolver := ((Resolver.lookup segments scope).run first.resolver).2 }) := rfl
  unfold lookup
  rw [StateT.run_bind, hresolving, hnone]
  cases segments with
  | nil => rfl
  | cons single rest =>
    cases rest with
    | cons second rest => rfl
    | nil =>
      rw [List.mem_singleton] at hsegment
      subst hsegment
      have hunique := hlast.table.findUnique?_of_isRaw hraw
      exact (congrArg₂ Option.or (h.holder?_of_isRaw hraw) hunique :)

/-- A path with a raw segment has no schema. -/
theorem resolvePath_of_isRaw (h : first.Plain) {segments : List String} {segment : String}
    (hsegment : segment ∈ segments) (hraw : IsRaw segment) :
    ∃ last, (resolvePath rules segments scope subject).run first = some (none, last) := by
  unfold resolvePath
  rw [run_liftM_bind, lookup_of_isRaw h hsegment hraw]
  exact ⟨_, rfl⟩

/-- A type that shows a marked identifier has no schema. -/
theorem resolve_of_showsRaw (rules : Recursion) (scope : ModulePath) (subject : String) {type : TypeExpr}
    (h : first.Plain) (hraw : type.ShowsRaw) :
    ∃ last, (resolve rules scope subject type).run first = some (none, last) := by
  induction type generalizing first with
  | primitive | any | unsupported =>
    obtain ⟨segment, hsegment, -⟩ := hraw
    cases hsegment
  | pointer inner ih => exact ih h hraw
  | array inner ih =>
    obtain ⟨last, hrun⟩ := ih h hraw
    exact ⟨last, run_map hrun _⟩
  | map key value _ ih =>
    unfold resolve
    split
    · -- The report in front of it leaves the registry plain.
      have hreported : (first.addFindings [⟨subject, .mapKeyNotText⟩]).Plain :=
        ⟨⟨h.resolver.table, h.resolver.loader⟩, h.names⟩
      obtain ⟨last, hrun⟩ := ih hreported hraw
      exact ⟨last, run_map hrun _⟩
    · obtain ⟨last, hrun⟩ := ih h hraw
      exact ⟨last, run_map hrun _⟩
  | named name =>
    obtain ⟨segment, hsegment, hsegmentRaw⟩ := hraw
    have hknown : TypeExpr.wellKnown? name = none := by
      rw [TypeExpr.wellKnown?, TypeExpr.not_mem_of_isRaw (List.mem_singleton.mp hsegment ▸ hsegmentRaw) (by decide)]
      rfl
    have hunknown : (undeclaredWellKnown name scope).run first = (none, first) := by
      rw [undeclaredWellKnown, hknown]
      rfl
    unfold resolve
    rw [run_liftM_bind, hunknown]
    exact resolvePath_of_isRaw h hsegment hsegmentRaw
  | selector qualifier name =>
    obtain ⟨segment, hsegment, hsegmentRaw⟩ := hraw
    exact resolvePath_of_isRaw h hsegment hsegmentRaw

/-- The keys of maps make no difference to the schema of a type. -/
theorem resolve_withTextKeys (hrules : rules.Logs) {type : TypeExpr} {value : Option Schema}
    (hrun : (resolve rules scope subject type).run first = some (value, last)) :
    ∃ findings, (resolve rules scope subject type.withTextKeys).run first =
      some (value, last.withFindings findings) := by
  induction type generalizing first last value with
  | pointer inner ih => exact ih hrun
  | array inner ih =>
    obtain ⟨⟨result, middle⟩, hresult, hpure⟩ := Option.bind_eq_some_iff.mp hrun
    cases hpure
    obtain ⟨findings, hinner⟩ := ih hresult
    exact ⟨findings, run_map hinner _⟩
  | map key inner _ ih =>
    unfold resolve at hrun
    split at hrun
    · rw [run_liftM_bind] at hrun
      obtain ⟨⟨result, middle⟩, hresult, hpure⟩ := Option.bind_eq_some_iff.mp hrun
      cases hpure
      obtain ⟨_, hinner⟩ := ih hresult
      -- Without the report in front of it, the findings are others.
      obtain ⟨findings, hinner⟩ := (resolve_logs hrules scope subject _).run_withFindings hinner first.findings
      exact ⟨findings, run_map hinner _⟩
    · obtain ⟨⟨result, middle⟩, hresult, hpure⟩ := Option.bind_eq_some_iff.mp hrun
      cases hpure
      obtain ⟨findings, hinner⟩ := ih hresult
      exact ⟨findings, run_map hinner _⟩
  | primitive | any | unsupported | named | selector => exact ⟨last.findings, hrun⟩

/-- A field shows its composition if a member was found. -/
theorem fieldSchema_run_of_found {remarks : Comment.Field} {found : List Schema} {listed : Registry}
    (hmembers : (members rules scope subject remarks.oneOf).run first = some (found, listed)) (hfound : found ≠ [])
    (type : TypeExpr) :
    (fieldSchema rules type remarks scope subject).run first =
      some (some (Schema.withRemarks { oneOf := found } remarks), listed) := by
  unfold fieldSchema
  rw [StateT.run_bind, hmembers, Option.bind_eq_bind, Option.bind_some]
  dsimp only
  rw [if_neg (by simpa using hfound)]
  rfl

/-- A field without members in a composition shows its type. -/
theorem fieldSchema_run_of_none {remarks : Comment.Field} {listed : Registry}
    (hmembers : (members rules scope subject remarks.oneOf).run first = some ([], listed)) :
    ∃ findings, ∀ type, (fieldSchema rules type remarks scope subject).run first =
      (do return (← resolve rules scope subject type).map fun schema => schema.withDetails remarks : Build _).run
        (listed.withFindings findings) := by
  cases hoffered : remarks.oneOf.isEmpty with
  | true =>
    refine ⟨listed.findings, fun type => ?_⟩
    unfold fieldSchema
    rw [StateT.run_bind, hmembers, Option.bind_eq_bind, Option.bind_some, hoffered]
    rfl
  | false =>
    refine ⟨listed.findings ++ [⟨subject, .noOneOfMember⟩], fun type => ?_⟩
    unfold fieldSchema
    rw [StateT.run_bind, hmembers, Option.bind_eq_bind, Option.bind_some, hoffered]
    rfl

/-- A field whose type shows a marked identifier has no schema, unless its comment composes one. -/
theorem fieldSchema_run_of_showsRaw {remarks : Comment.Field} {listed : Registry} {type : TypeExpr}
    (hmembers : (members rules scope subject remarks.oneOf).run first = some ([], listed)) (hlisted : listed.Plain)
    (hraw : type.ShowsRaw) :
    ∃ last, (fieldSchema rules type remarks scope subject).run first = some (none, last) := by
  obtain ⟨findings, hrun⟩ := fieldSchema_run_of_none hmembers
  have hplain : (listed.withFindings findings).Plain :=
    ⟨⟨hlisted.resolver.table, hlisted.resolver.loader⟩, hlisted.names⟩
  obtain ⟨last, hnone⟩ := resolve_of_showsRaw rules scope subject hplain hraw
  exact ⟨last, (hrun type).trans (run_map hnone _)⟩

/-- The keys of maps make no difference to the schema of a field. -/
theorem fieldSchema_run_of_keys (hrules : rules.Logs) {remarks : Comment.Field} {listed : Registry}
    {type type' : TypeExpr} {given given' : Option Schema} {last' : Registry}
    (hmembers : (members rules scope subject remarks.oneOf).run first = some ([], listed))
    (hkeys : type'.withTextKeys = type.withTextKeys)
    (hgiven : (fieldSchema rules type remarks scope subject).run first = some (given, last))
    (hgiven' : (fieldSchema rules type' remarks scope subject).run first = some (given', last')) :
    given' = given := by
  obtain ⟨findings, hrun⟩ := fieldSchema_run_of_none hmembers
  rw [hrun] at hgiven hgiven'
  obtain ⟨⟨shown, after⟩, hshown, hpure⟩ := Option.bind_eq_some_iff.mp hgiven
  obtain ⟨⟨shown', after'⟩, hshown', hpure'⟩ := Option.bind_eq_some_iff.mp hgiven'
  cases hpure
  cases hpure'
  obtain ⟨_, hsame⟩ := resolve_withTextKeys hrules hshown
  obtain ⟨_, hsame'⟩ := resolve_withTextKeys hrules hshown'
  rw [hkeys, hsame] at hsame'
  obtain ⟨rfl, -⟩ := Prod.mk.inj (Option.some.inj hsame')
  rfl

/-- What becomes of a field whose type shows another marked identifier, or has other keys in its maps. -/
theorem fieldSchema_respelled_iff {remarks : Comment.Field} {found : List Schema} {listed : Registry}
    {type type' : TypeExpr} {given given' : Option Schema} {last' : Registry}
    (hmembers : (members .unbounded scope subject remarks.oneOf).run first = some (found, listed))
    (hlisted : listed.Plain) (hrespelled : TypeExpr.Respelled type type')
    (hgiven : (fieldSchema .unbounded type remarks scope subject).run first = some (given, last))
    (hgiven' : (fieldSchema .unbounded type' remarks scope subject).run first = some (given', last')) :
    (given' = given ↔ found ≠ [] ∨ ¬ type'.ShowsRaw ∨ given = none) ∧
      (found = [] → type'.ShowsRaw → given' = none) := by
  have hnone (hfound : found = []) (hraw : type'.ShowsRaw) : given' = none := by
    obtain ⟨other, hother⟩ := fieldSchema_run_of_showsRaw (hfound ▸ hmembers) hlisted hraw
    cases hgiven'.symm.trans hother
    rfl
  refine ⟨⟨fun heq => ?_, fun hcases => ?_⟩, hnone⟩
  · by_cases hfound : found = []
    · by_cases hraw : type'.ShowsRaw
      · exact .inr (.inr (heq ▸ hnone hfound hraw))
      · exact .inr (.inl hraw)
    · exact .inl hfound
  · by_cases hfound : found = []
    · rcases hrespelled with hraw | hkeys
      · have habsent : given = none := (hcases.resolve_left (absurd hfound)).resolve_left (absurd hraw)
        rw [hnone hfound hraw, habsent]
      · exact fieldSchema_run_of_keys Recursion.unbounded_logs (hfound ▸ hmembers) hkeys hgiven hgiven'
    · -- The composition does not depend on the type.
      have hcomposed := fieldSchema_run_of_found hmembers hfound
      cases hgiven.symm.trans (hcomposed _)
      cases hgiven'.symm.trans (hcomposed _)
      rfl

/-- Raw identifiers are more than a spelling. At any moment of a run over files, a field whose type is written with
one more mark gets the schema that it gets without exactly in these cases: its comment composes the schema of
others, or the mark vanishes with the part of the type that is not looked at, or the field has no schema anyway.
What is looked up with a mark is not found. -/
theorem raw_identifiers_iff {files : List Source.File} {loader : Loader}
    (hfiles : ∀ file ∈ files, file.WellSpelled)
    (hloader : ∀ module file, loader.find? module = some (.ok file) → file.WellSpelled)
    (hfirst : Arises (ofResolver { table := (Extraction.ofFiles files).table, loader }) first)
    (declaration : Declaration) (hgenerics : ∀ name ∈ declaration.generics, ¬ IsRaw name)
    (field : FieldDeclaration) {type' : TypeSyntax}
    (hmarks : TypeSyntax.Changes TypeSyntax.Marks field.type type') (remarks : Comment.Field) (subject : String) :
    let scope := declaration.name.module
    let shape type := TypeExpr.classify declaration.generics type
    let look type := (fieldSchema .unbounded (shape type) remarks scope subject).run first
    ∃ found listed given last given' last',
      (members .unbounded scope subject remarks.oneOf).run first = some (found, listed) ∧
      look field.type = some (given, last) ∧ look type' = some (given', last') ∧
      ((∀ entry ∈ listed.names.assigned, ¬ IsRaw entry.2) →
        (given' = given ↔ found ≠ [] ∨ ¬ (shape type').ShowsRaw ∨ given = none) ∧
        (found = [] → (shape type').ShowsRaw → given' = none)) := by
  intro scope shape look
  have hresolver : first.resolver.Plain := by
    refine hfirst.plain ((ofResolver_prepares _).plain ?_)
    exact ⟨Extraction.plain_ofFiles hfiles, hloader⟩
  obtain ⟨found, listed, hmembers, hadvances, -⟩ :=
    members_completes (Recursion.unbounded_complete _ _) scope subject remarks.oneOf
      first first.fits_declarable trivial
  obtain ⟨given, last, hgiven, -⟩ :=
    fieldSchema_completes (Recursion.unbounded_complete _ _) (shape field.type) remarks
      scope subject first first.fits_declarable trivial
  obtain ⟨given', last', hgiven', -⟩ :=
    fieldSchema_completes (Recursion.unbounded_complete _ _) (shape type') remarks
      scope subject first first.fits_declarable trivial
  refine ⟨found, listed, given, last, given', last', hmembers, hgiven, hgiven', fun hnames => ?_⟩
  exact fieldSchema_respelled_iff hmembers ⟨hadvances.plain hresolver, hnames⟩
    (TypeExpr.classify_marked hgenerics hmarks) hgiven hgiven'

/-- Two modules with an opted-in type each; one of them needs the mark and has its type imported. -/
def markedFile : Source.File where
  path := "src/lib.rs"
  module := .root
  content.attributes := []
  content.items :=
    [.module "kind" [.struct ⟨"Label", [⟨some "doc", .text "openapi:schema"⟩], []⟩ .unit],
     .module "r#type" [.struct ⟨"Tag", [⟨some "doc", .text "openapi:schema"⟩], []⟩ .unit],
     .use (.path "r#type" (.name "Tag"))]

/-- A struct that says nothing of itself. -/
def petDeclaration : Declaration := ⟨⟨.root, "Pet"⟩, .struct [], [], [], {}, "src/lib.rs"⟩

set_option maxRecDepth 2000 in
/-- In `r#std::vec::Vec<kind::Label>` the mark makes no difference. -/
theorem raw_identifiers_iff_vec :
    let first := ofResolver { table := (Extraction.ofFiles [markedFile]).table }
    let list (crate : String) : TypeSyntax := .path false [crate, "vec"] "Vec" [.path false ["kind"] "Label" []]
    let look type :=
      (fieldSchema .unbounded (TypeExpr.classify [] type) {} .root "crate::Pet.labels").run first
    markedFile.WellSpelled ∧ TypeSyntax.Changes TypeSyntax.Marks (list "std") (list "r#std") ∧
    ∃ last, look (list "r#std") = some (some (Schema.arrayOf (Schema.referenceTo "Label")), last) := by
  intro first list look
  have hfile : markedFile.WellSpelled := ⟨by decide, by decide⟩
  have hmarks : TypeSyntax.Changes TypeSyntax.Marks (list "std") (list "r#std") :=
    .here (.segment false [] ["vec"] "Vec" _ (by decide))
  have hfiles : ∀ file ∈ [markedFile], file.WellSpelled := List.forall_mem_singleton.mpr hfile
  have hloader : ∀ module file, Loader.none.find? module = some (.ok file) → file.WellSpelled :=
    fun _ _ hfile => by cases hfile
  obtain ⟨found, listed, given, last, given', last', hmembers, hgiven, hgiven', hiff⟩ :=
    raw_identifiers_iff hfiles hloader .start petDeclaration (fun _ hname => absurd hname List.not_mem_nil)
      ⟨none, list "std", [], {}⟩ hmarks {} "crate::Pet.labels"
  obtain ⟨rfl, rfl⟩ := Prod.mk.inj (Option.some.inj hmembers)
  have hvalue : (look (list "std")).map Prod.fst = some (some (Schema.arrayOf (Schema.referenceTo "Label"))) := rfl
  have hnames : ∀ entry ∈ first.names.assigned, ¬ IsRaw entry.2 := by decide +kernel
  have hhidden : ¬ (TypeExpr.classify [] (list "r#std")).ShowsRaw := by decide
  have hsame : given' = given := (hiff hnames).1.mpr (.inr (.inl hhidden))
  have hshown : given = some (Schema.arrayOf (Schema.referenceTo "Label")) :=
    Option.some.inj ((congrArg (Option.map Prod.fst) hgiven).symm.trans hvalue)
  exact ⟨hfile, hmarks, last', hgiven'.trans (by rw [hsame, hshown])⟩

set_option maxRecDepth 2000 in
/-- A mark can cost a field its schema: `kind::Label` is found and `r#kind::Label` is not. What is declared in
`r#type` cannot be named in a field by its path at all, although a `use` of this path leads there. -/
theorem marked_path_not_found :
    let first := ofResolver { table := (Extraction.ofFiles [markedFile]).table }
    let look (qualifier : List String) (name : String) :=
      ((fieldSchema .unbounded (TypeExpr.classify [] (.path false qualifier name [])) {} .root "crate::Pet.tag").run
        first).map Prod.fst
    first.table.contains ⟨⟨["type"]⟩, "Tag"⟩ = true ∧
    look ["kind"] "Label" = some (some (Schema.referenceTo "Label")) ∧ look ["r#kind"] "Label" = some none ∧
    look [] "Tag" = some (some (Schema.referenceTo "Tag")) ∧ look ["r#type"] "Tag" = some none := by
  intro first look
  exact ⟨by decide +kernel, rfl, rfl, rfl, rfl⟩

end Synthesis

end ApiScribe
