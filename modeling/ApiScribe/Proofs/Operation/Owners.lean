import ApiScribe.Proofs.Declaration.Owners
import ApiScribe.Proofs.Document.Stages
import ApiScribe.Proofs.Operation.Determinacy
import ApiScribe.Proofs.Operation.WellFormed
import ApiScribe.Proofs.Registry.Informed

/-!
# Whose comment stands in for what an operation leaves out

The comment of an owner is read once for all methods of the same module, owner and comment, when it is asked for the
first time. If a trait of the owner's name is declared in the module by then, the trait's comment is taken instead.
For the methods of that trait this is the same comment; for an impl whose type has the same last segment as the
trait it need not be.
-/

namespace ApiScribe

/-- What the comment of a candidate's owner is kept under. -/
def Candidate.ownerKey? (candidate : Candidate) : Option (ModulePath × String × List String) :=
  candidate.owner.map fun owner => (candidate.module, owner.name, owner.docs)

namespace Operation

open Registry

/-- What is kept of an owner's comment. -/
def Assembler.known? (assembler : Assembler) (key : ModulePath × String × List String) : Option Comment.Container :=
  (assembler.owners.find? fun entry => entry.1 = key).map Prod.snd

/-- What an owner's comment is taken to say: what is kept, or else what the table says now. -/
def Assembler.ownerSays (assembler : Assembler) (key : ModulePath × String × List String) : Comment.Container :=
  (assembler.known? key).getD (assembler.registry.table.ownerComment key)

/-- Nothing new is kept of owners. -/
def SameOwners (first last : Assembler) : Prop := last.owners = first.owners

instance : IsPreorder Assembler SameOwners where
  refl _ := rfl
  trans _ _ _ h h' := h'.trans h

/-- A note keeps the owners. -/
theorem note_sameOwners (findings : List Finding) : Moves SameOwners (note findings) := moves_modify fun _ => rfl

instance : FollowsParts SameOwners where
  note _ := note_sameOwners _
  onRegistry _ _ := rfl

/-- The tag of an owner is added beside what is kept of its comment. -/
theorem addOwnerTag_sameOwners (container : Comment.Container) : Moves SameOwners (addOwnerTag container) := by
  refine moves_modify fun assembler => ?_
  split
  · rfl
  · split <;> rfl

/-- Keep what the comment of an owner says. -/
def keepOwner (key : ModulePath × String × List String) (record : Comment.Container) :
    Assembling Comment.Container := do
  addOwnerTag record
  modify fun assembler => { assembler with owners := (key, record) :: assembler.owners }
  return record

/-- The comment that is kept for an owner is known, and the others are as before. -/
theorem known?_keepOwner (key other : ModulePath × String × List String) (record : Comment.Container)
    (assembler : Assembler) :
    ((keepOwner key record).run assembler).2.known? other =
      if other = key then some record else assembler.known? other := by
  have howners : ((keepOwner key record).run assembler).2.owners = (key, record) :: assembler.owners :=
    congrArg ((key, record) :: ·) (addOwnerTag_sameOwners record assembler)
  rw [Assembler.known?, howners, List.find?_cons]
  by_cases h : other = key
  · simp [h]
  · simp [h, Ne.symm h, Assembler.known?]

/-- A comment that is not known is read, from the table if a trait is declared under the name. -/
theorem ownerComment_run_new {owner : Owner} {module : ModulePath} {assembler : Assembler}
    (h : assembler.registry.Informed) (hnew : assembler.known? (module, owner.name, owner.docs) = none) :
    ∃ middle, middle.owners = assembler.owners ∧ middle.tags = assembler.tags ∧
      (ownerComment owner module).run assembler =
        (keepOwner (module, owner.name, owner.docs)
          (assembler.registry.table.ownerComment (module, owner.name, owner.docs))).run middle := by
  have hfind := Option.map_eq_none_iff.mp hnew
  simp only [ownerComment, StateT.run_bind, StateT.run_get, pure_bind, hfind]
  by_cases htrait : isTrait assembler.registry.table ⟨module, owner.name⟩ = true
  · refine ⟨((onRegistry (Registry.container ⟨module, owner.name⟩)).run assembler).2, rfl, rfl, ?_⟩
    rw [if_pos htrait, Table.ownerComment, if_pos htrait]
    have hcomment : ((Registry.container ⟨module, owner.name⟩).run assembler.registry).1 =
        assembler.registry.table.comment ⟨module, owner.name⟩ := by
      rw [container_run_fst, h.commentFor_eq]
      rfl
    rw [← hcomment]
    rfl
  · refine ⟨((note (Comment.Container.read owner.docs (QualifiedName.mk module owner.name).display).2).run
      assembler).2, rfl, rfl, ?_⟩
    rw [if_neg htrait, Table.ownerComment, if_neg htrait]
    rfl

/-- The comment of a known owner is not read again. -/
theorem ownerComment_run_known {owner : Owner} {module : ModulePath} {assembler : Assembler}
    {record : Comment.Container} (h : assembler.known? (module, owner.name, owner.docs) = some record) :
    (ownerComment owner module).run assembler = (record, assembler) := by
  obtain ⟨entry, hentry, rfl⟩ := Option.map_eq_some_iff.mp h
  simp only [ownerComment, StateT.run_bind, StateT.run_get, pure_bind, hentry]
  rfl

/-- Asking for the comment of an owner gives what it is taken to say, which is known from then on. -/
theorem ownerComment_run (owner : Owner) (module : ModulePath) (assembler : Assembler)
    (h : assembler.registry.Informed) :
    let key := (module, owner.name, owner.docs)
    let outcome := (ownerComment owner module).run assembler
    outcome.1 = assembler.ownerSays key ∧ ∀ other,
      outcome.2.known? other = if other = key then some (assembler.ownerSays key) else assembler.known? other := by
  intro key outcome
  cases hknown : assembler.known? key with
  | some record =>
    have hrun : outcome = (record, assembler) := ownerComment_run_known hknown
    rw [hrun, Assembler.ownerSays, hknown, Option.getD_some]
    refine ⟨rfl, fun other => ?_⟩
    split
    · next hother => rw [hother, hknown]
    · rfl
  | none =>
    obtain ⟨middle, hmiddle, -, hrun⟩ := ownerComment_run_new h hknown
    have hrun : outcome = _ := hrun
    rw [hrun, Assembler.ownerSays, hknown, Option.getD_none]
    refine ⟨rfl, fun other => ?_⟩
    rw [known?_keepOwner, Assembler.known?, hmiddle]
    rfl

/-- Ask for what stands in for what the comment of a candidate leaves out. -/
def askOwner (candidate : Candidate) : Assembling Comment.Container := do
  note (Comment.Operation.read candidate.docs candidate.subject).2
  match candidate.owner with
  | some owner => ownerComment owner candidate.module
  | none => pure {}

/-- What an operation has of its own comment and of its owner's. -/
structure Bound.Inherits (bound : Bound) (record : Comment.Operation) (owner : Comment.Container) : Prop where
  path : some bound.path = record.path.map (joinPath owner.basePath)
  tags : bound.operation.tags = tagsOf record owner
  summary : bound.operation.summary = record.summary.or owner.summary
  security : bound.operation.security = securityOf record owner
  deprecated : bound.operation.deprecated = record.deprecated.or owner.deprecated

/-- Whatever the whole action does after the first one moves along the relation, and its value is as described. -/
def Continues (along : Assembler → Assembler → Prop) (first : Assembling Comment.Container)
    (whole : Assembling (Option Bound)) (after : Comment.Container → Option Bound → Prop) : Prop :=
  ∀ assembler, along (first.run assembler).2 (whole.run assembler).2 ∧
    after (first.run assembler).1 (whole.run assembler).1

/-- A note may stand in front of both actions. -/
theorem continues_note {along : Assembler → Assembler → Prop} {first : Assembling Comment.Container}
    {whole : Assembling (Option Bound)} {after : Comment.Container → Option Bound → Prop}
    (h : Continues along first whole after) (findings : List Finding) :
    Continues along (do note findings; first) (do note findings; whole) after :=
  fun assembler => h ((note findings).run assembler).2

/-- The whole goes on after the comment of the owner. -/
theorem continues_owner {along : Assembler → Assembler → Prop} (owner : Option Owner) (module : ModulePath)
    {next : Comment.Container → Assembling (Option Bound)} {after : Comment.Container → Option Bound → Prop}
    (h : ∀ comment, Proceeds along (next comment) (after comment)) :
    Continues along
      (match owner with
        | some owner => ownerComment owner module
        | none => pure {})
      (match owner with
        | some owner => do next (← ownerComment owner module)
        | none => do next (← pure {})) after := by
  intro assembler
  cases owner <;> exact h _ _

/-- After its owner's comment is asked for, a candidate is only worked on in parts and reported, and an operation
inherits from that comment. -/
theorem assemble_continues_along {along : Assembler → Assembler → Prop} [FollowsParts along]
    (hnote : ∀ findings, Moves along (note findings)) (candidate : Candidate) :
    Continues along (askOwner candidate) (assemble candidate) fun owner found => ∀ bound ∈ found,
      bound.Inherits (Comment.Operation.read candidate.docs candidate.subject).1 owner := by
  have hstatuses : ∀ response ∈ (Comment.Operation.read candidate.docs candidate.subject).1.responses,
      Comment.IsStatusKey response.status := fun _ => Comment.Operation.isStatusKey_of_mem_read
  delta assemble askOwner
  dsimp -iota only
  generalize Comment.Operation.read candidate.docs candidate.subject = reading at *
  obtain ⟨record, findings⟩ := reading
  have hdropped (cause : Cause) (after : Option Bound → Prop) (h : after none) :
      Proceeds along (do complain candidate.subject cause; return none) after :=
    .bind (.ofMoves (hnote _)) fun _ _ => .pure h
  refine continues_note (continues_owner candidate.owner candidate.module fun comment => ?_) findings
  split
  · next written route operationId hverb hroute hid =>
    split
    · exact hdropped _ _ fun _ h => by cases h
    · refine (parameters_proceeds _ _ _).bind fun parameters _ => ?_
      refine (requestBody_proceeds _ _ _).bind fun body _ => ?_
      refine (responses_proceeds hstatuses _ _).bind fun responses _ => .pure fun bound hbound => ?_
      cases Option.mem_some_iff.mp hbound
      exact ⟨by rw [hroute]; rfl, rfl, rfl, rfl, rfl⟩
  · exact hdropped _ _ fun _ h => by cases h

/-- After its owner's comment is asked for, nothing more is kept of owners. -/
theorem assemble_continues (candidate : Candidate) :
    Continues SameOwners (askOwner candidate) (assemble candidate) fun owner found => ∀ bound ∈ found,
      bound.Inherits (Comment.Operation.read candidate.docs candidate.subject).1 owner :=
  assemble_continues_along note_sameOwners candidate

/-- The owner of a candidate is asked for as the assembler stands before the candidate. -/
theorem askOwner_run {candidate : Candidate} {owner : Owner} (howner : candidate.owner = some owner)
    {assembler : Assembler} (h : assembler.registry.Informed) :
    let key := (candidate.module, owner.name, owner.docs)
    let asked := (askOwner candidate).run assembler
    asked.1 = assembler.ownerSays key ∧ ∀ other,
      asked.2.known? other = if other = key then some (assembler.ownerSays key) else assembler.known? other := by
  intro key asked
  have hrun : asked = (ownerComment owner candidate.module).run
      ((note (Comment.Operation.read candidate.docs candidate.subject).2).run assembler).2 := by
    unfold asked askOwner
    rw [howner]
    rfl
  rw [hrun]
  exact ownerComment_run owner candidate.module _ h

/-- Assembling a candidate makes the comment of its owner known, and no other. -/
theorem known?_assemble (candidate : Candidate) {assembler : Assembler} (h : assembler.registry.Informed)
    (key : ModulePath × String × List String) :
    ((assemble candidate).run assembler).2.known? key =
      if candidate.ownerKey? = some key then some (assembler.ownerSays key) else assembler.known? key := by
  have hsame : ((assemble candidate).run assembler).2.known? key =
      ((askOwner candidate).run assembler).2.known? key := by
    rw [Assembler.known?, (assemble_continues candidate assembler).1, Assembler.known?]
  rw [hsame, Candidate.ownerKey?]
  cases howner : candidate.owner with
  | none =>
    unfold askOwner
    rw [howner]
    rfl
  | some owner =>
    rw [(askOwner_run howner h).2, Option.map_some]
    by_cases hkey : key = (candidate.module, owner.name, owner.docs)
    · rw [if_pos hkey, if_pos (congrArg some hkey.symm), hkey]
    · rw [if_neg hkey, if_neg fun heq => hkey (Option.some.inj heq).symm]

/-- Assembling keeps the registry informed. -/
theorem informed_assemble (candidate : Candidate) {assembler : Assembler} (h : assembler.registry.Informed) :
    ((assemble candidate).run assembler).2.registry.Informed := by
  have hassembles : Assembles (fun _ => True) (assemble candidate) _ := assemble_assembles candidate
  exact (hassembles assembler trivial).1.informed h

/-- The assembler after candidates. -/
def assemblerAfter (candidates : List Candidate) (start : Assembler) : Assembler :=
  ((assembleAll candidates).run start).2

/-- Assembling advances the registry. -/
theorem advances_assemblerAfter (candidates : List Candidate) (start : Assembler) :
    Advances start.registry (assemblerAfter candidates start).registry := by
  have hall : Assembles (fun _ => True) (assembleAll candidates) _ := assembleAll_assembles candidates
  exact (hall start trivial).1

/-- Candidates are assembled one after another. -/
theorem assemblerAfter_cons (candidate : Candidate) (rest : List Candidate) (start : Assembler) :
    assemblerAfter (candidate :: rest) start = assemblerAfter rest ((assemble candidate).run start).2 := rfl

/-- The comment of an owner that is known stays what it is. -/
theorem known?_assemblerAfter {start : Assembler} (h : start.registry.Informed) {record : Comment.Container}
    {key : ModulePath × String × List String} (hknown : start.known? key = some record)
    (candidates : List Candidate) : (assemblerAfter candidates start).known? key = some record := by
  induction candidates generalizing start with
  | nil => exact hknown
  | cons candidate rest ih =>
    have hnext : ((assemble candidate).run start).2.known? key = some record := by
      rw [known?_assemble candidate h, Assembler.ownerSays, hknown, Option.getD_some, ite_self]
    exact ih (informed_assemble candidate h) hnext

/-- The comment of an owner stays unknown until it is asked for. -/
theorem known?_assemblerAfter_of_not_asked {start : Assembler} (h : start.registry.Informed)
    {key : ModulePath × String × List String} {candidates : List Candidate}
    (hkey : ∀ candidate ∈ candidates, candidate.ownerKey? ≠ some key) :
    (assemblerAfter candidates start).known? key = start.known? key := by
  induction candidates generalizing start with
  | nil => rfl
  | cons candidate rest ih =>
    rw [List.forall_mem_cons] at hkey
    rw [assemblerAfter_cons, ih (informed_assemble candidate h) hkey.2, known?_assemble candidate h, if_neg hkey.1]

/-- What an owner is taken to say is decided when it is asked for the first time. -/
theorem ownerSays_assemblerAfter {start : Assembler} (h : start.registry.Informed)
    (key : ModulePath × String × List String) (candidates : List Candidate) :
    (assemblerAfter candidates start).ownerSays key =
      (assemblerAfter (candidates.takeWhile fun other => other.ownerKey? ≠ some key) start).ownerSays key := by
  induction candidates generalizing start with
  | nil => rfl
  | cons candidate rest ih =>
    have hinformed := informed_assemble candidate h
    by_cases hkey : candidate.ownerKey? = some key
    · -- The candidate asks for the owner, and what it is told stays known.
      have hasked : ((assemble candidate).run start).2.known? key = some (start.ownerSays key) := by
        rw [known?_assemble candidate h, if_pos hkey]
      rw [assemblerAfter_cons, Assembler.ownerSays, known?_assemblerAfter hinformed hasked,
        List.takeWhile_cons_of_neg (by simp [hkey])]
      rfl
    · rw [assemblerAfter_cons, ih hinformed, List.takeWhile_cons_of_pos (by simp [hkey]), assemblerAfter_cons]

open Extraction (ofFiles visited implOwners)

section Run

variable (table : Table) (loader : Loader)

/-- The assembler with which a run starts to assemble. -/
def firstAssembler : Assembler := { registry := Generation.built table loader }

/-- The first assembler is informed. -/
theorem informed_firstAssembler : (firstAssembler table loader).registry.Informed :=
  (Generation.built_advances table loader).informed ((ofResolver_prepares _).informed (informed_ofEmpty _))

/-- While a run assembles, declarations stay, and new ones can be loaded. -/
theorem grows_assemblerAfter (candidates : List Candidate) :
    Grows { resolver := { table, loader } } (assemblerAfter candidates (firstAssembler table loader)).registry := by
  have hstart : Advances { resolver := { table, loader } } (firstAssembler table loader).registry :=
    (Advances.prepare (ofResolver_prepares _)).trans (Generation.built_advances table loader)
  exact (hstart.trans (advances_assemblerAfter candidates _)).grows

/-- What the owner of a candidate is taken to say is what the table said when it was asked for the first time. -/
theorem askOwner_assemblerAfter {candidate : Candidate} {owner : Owner} (howner : candidate.owner = some owner)
    (earlier : List Candidate) :
    ((askOwner candidate).run (assemblerAfter earlier (firstAssembler table loader))).1 =
      (assemblerAfter (earlier.takeWhile fun other => other.ownerKey? ≠ candidate.ownerKey?)
        (firstAssembler table loader)).registry.table.ownerComment (candidate.module, owner.name, owner.docs) := by
  have hkey : candidate.ownerKey? = some (candidate.module, owner.name, owner.docs) := by
    rw [Candidate.ownerKey?, howner, Option.map_some]
  have hinformed := informed_firstAssembler table loader
  have hnotAsked : ∀ other ∈ earlier.takeWhile fun other => other.ownerKey? ≠ candidate.ownerKey?,
      other.ownerKey? ≠ candidate.ownerKey? :=
    fun other hother => of_decide_eq_true (List.all_eq_true.mp List.all_takeWhile other hother)
  rw [hkey] at hnotAsked ⊢
  rw [(askOwner_run howner ((advances_assemblerAfter earlier _).informed hinformed)).1,
    ownerSays_assemblerAfter hinformed, Assembler.ownerSays, known?_assemblerAfter_of_not_asked hinformed hnotAsked]
  rfl

end Run

/-- A trait is a declared interface. -/
theorem isTrait_iff (table : Table) (name : QualifiedName) :
    isTrait table name = true ↔
      ∃ declaration, table.get? name = some declaration ∧ declaration.shape.isInterface = true := by
  rw [isTrait]
  cases table.get? name <;> simp

/-- What the table says of an owner is what its own comment says, unless a trait of the name says something else. -/
theorem ownerComment_eq_own_iff (table : Table) (module : ModulePath) (owner : Owner) (subject : String) :
    table.ownerComment (module, owner.name, owner.docs) =
        Comment.Container.ofBlock (Comment.lex owner.docs subject).1 ↔
      ∀ declaration, table.get? ⟨module, owner.name⟩ = some declaration → declaration.shape.isInterface = true →
        Comment.Container.ofBlock (Comment.lex declaration.docs subject).1 =
          Comment.Container.ofBlock (Comment.lex owner.docs subject).1 := by
  by_cases htrait : isTrait table ⟨module, owner.name⟩ = true
  · obtain ⟨declaration, hget, hshape⟩ := (isTrait_iff _ _).mp htrait
    have hcomment : table.ownerComment (module, owner.name, owner.docs) =
        Comment.Container.ofBlock (Comment.lex declaration.docs subject).1 := by
      rw [Table.ownerComment, if_pos htrait, Table.comment, hget]
      rfl
    rw [hcomment]
    refine ⟨fun h other hother _ => ?_, fun h => h declaration hget hshape⟩
    cases hget.symm.trans hother
    exact h
  · rw [Table.ownerComment, if_neg htrait]
    refine ⟨fun _ declaration hget hshape => ?_, fun _ => rfl⟩
    exact absurd ((isTrait_iff _ _).mpr ⟨declaration, hget, hshape⟩) htrait

/-- A trait in a grown table that is not the owner's belongs beside an impl, and was declared or loaded. -/
theorem impl_and_trait_of_grows {files : List Source.File} (hfiles : (ofFiles files).failure = none)
    {loader : Loader} {candidate : Candidate} (hcandidate : candidate ∈ (ofFiles files).table.candidates)
    {owner : Owner} (howner : candidate.owner = some owner) {registry : Registry}
    (hgrows : Grows { resolver := { table := (ofFiles files).table, loader } } registry) {declaration : Declaration}
    (hget : registry.table.get? ⟨candidate.module, owner.name⟩ = some declaration)
    (hshape : declaration.shape.isInterface = true) (hdocs : declaration.docs ≠ owner.docs) :
    (candidate.module, owner) ∈ implOwners files ∧
      (⟨candidate.module, owner.name⟩ ∈ loader.names ∨ ∃ declaration ∈ visited files,
        declaration.name = ⟨candidate.module, owner.name⟩ ∧ declaration.shape.isInterface = true) := by
  constructor
  · rcases Extraction.owner_of_mem_candidates hfiles hcandidate howner with himpl | ⟨known, hknown, htrait⟩
    · exact himpl
    · cases hget.symm.trans (hgrows.declarations _ _ hknown)
      exact absurd htrait.docs hdocs
  · have hname : ⟨candidate.module, owner.name⟩ ∈ registry.table.names :=
      (Table.contains_iff_mem_names _ _).mp (Option.isSome_iff_exists.mpr ⟨declaration, hget⟩)
    rcases hgrows.declared _ hname with hdeclared | hloaded
    · obtain ⟨known, hknown⟩ := Option.isSome_iff_exists.mp ((Table.contains_iff_mem_names _ _).mpr hdeclared)
      cases hget.symm.trans (hgrows.declarations _ _ hknown)
      obtain ⟨entry, hentry, rfl⟩ := Option.map_eq_some_iff.mp hknown
      have hvisited := (Extraction.declarations_perm_visited hfiles).mem_iff.mp (List.mem_of_find?_eq_some hentry)
      obtain ⟨found, hfound, rfl⟩ := List.mem_map.mp hvisited
      exact .inr ⟨found, hfound, by simpa using List.find?_some hentry, hshape⟩
    · exact .inl hloaded

/-- In a run over files, an operation inherits from what its owner is taken to say. This is what the owner's own
comment says exactly if every trait that is declared under the owner's name in the module, when the owner is asked
for the first time, has a comment that says the same. It can be something else only for the type of an inherent
impl, and only if the files declare such a trait or something of that name can be loaded. -/
theorem owner_comment_is_own_iff {files : List Source.File} (hfiles : (ofFiles files).failure = none)
    (loader : Loader) {earlier later : List Candidate} {candidate : Candidate} {owner : Owner}
    (hcandidates : (ofFiles files).table.candidates = earlier ++ candidate :: later)
    (howner : candidate.owner = some owner) :
    let start := firstAssembler (ofFiles files).table loader
    let assembler := assemblerAfter earlier start
    let used := ((askOwner candidate).run assembler).1
    let own := Comment.Container.ofBlock (Comment.lex owner.docs candidate.subject).1
    let name : QualifiedName := ⟨candidate.module, owner.name⟩
    let asked := assemblerAfter (earlier.takeWhile fun other => other.ownerKey? ≠ candidate.ownerKey?) start
    (∀ bound ∈ ((assemble candidate).run assembler).1,
      bound.Inherits (Comment.Operation.read candidate.docs candidate.subject).1 used) ∧
    (used = own ↔ ∀ declaration, asked.registry.table.get? name = some declaration →
      declaration.shape.isInterface = true →
        Comment.Container.ofBlock (Comment.lex declaration.docs candidate.subject).1 = own) ∧
    (used ≠ own → (candidate.module, owner) ∈ implOwners files ∧
      (name ∈ loader.names ∨ ∃ declaration ∈ visited files, declaration.name = name ∧
        declaration.shape.isInterface = true)) := by
  intro start assembler used own name asked
  have hused : used = asked.registry.table.ownerComment (candidate.module, owner.name, owner.docs) :=
    askOwner_assemblerAfter _ loader howner earlier
  have hiff := ownerComment_eq_own_iff asked.registry.table candidate.module owner candidate.subject
  rw [← hused] at hiff
  refine ⟨(assemble_continues candidate assembler).2, hiff, fun hother => ?_⟩
  rw [Ne, hiff] at hother
  push Not at hother
  obtain ⟨declaration, hget, hshape, hdiffers⟩ := hother
  have hcandidate : candidate ∈ (ofFiles files).table.candidates := by
    rw [hcandidates]
    exact List.mem_append_right _ List.mem_cons_self
  exact impl_and_trait_of_grows hfiles hcandidate howner (grows_assemblerAfter _ loader _) hget hshape
    fun hdocs => hdiffers (by rw [hdocs])

/-- A crate root with an impl of `Store`, a struct in an inline module, and a trait of that name. -/
def shopFile : Source.File where
  path := "src/lib.rs"
  module := .root
  content.attributes := []
  content.items :=
    [.module "shop" [.struct ⟨"Store", [⟨some "doc", .text "A store."⟩], []⟩ .unit],
      .impl false (.path false ["shop"] "Store" []) [⟨some "doc", .text "openapi:path /store"⟩]
        [⟨"items", [⟨some "doc", .text "openapi:operation GET /i i"⟩]⟩],
      .trait ⟨"Store", [⟨some "doc", .text "openapi:path /catalog"⟩], []⟩
        [⟨"all", [⟨some "doc", .text "openapi:operation GET /a a"⟩]⟩]]

/-- The method of the impl. -/
def itemsMethod : Candidate where
  subject := "Store::items"
  module := .root
  docs := ["openapi:operation GET /i i"]
  owner := some ⟨"Store", ["openapi:path /store"]⟩
  source := "src/lib.rs"

/-- The method of the trait. -/
def allMethod : Candidate where
  subject := "Store::all"
  module := .root
  docs := ["openapi:operation GET /a a"]
  owner := some ⟨"Store", ["openapi:path /catalog"]⟩
  source := "src/lib.rs"

/-- The shop has two candidates. -/
theorem candidates_shopFile : (ofFiles [shopFile]).failure = none ∧
    (ofFiles [shopFile]).table.candidates = [itemsMethod, allMethod] := by
  have hok : (ofFiles [shopFile]).failure = none :=
    (Extraction.ofFiles_failure_eq_none_iff [shopFile]).mpr (by decide +kernel)
  refine ⟨hok, ?_⟩
  rw [Extraction.ofFiles_eq_foldl hok, Extraction.candidates_foldl]
  decide +kernel

/-- The method of the trait inherits from the comment of the trait. -/
theorem owner_comment_is_own_iff_trait :
    (ofFiles [shopFile]).failure = none ∧
    (ofFiles [shopFile]).table.candidates = [itemsMethod] ++ allMethod :: [] ∧
    allMethod.owner = some ⟨"Store", ["openapi:path /catalog"]⟩ ∧
    ((askOwner allMethod).run (assemblerAfter [itemsMethod] (firstAssembler (ofFiles [shopFile]).table .none))).1 =
      Comment.Container.ofBlock (Comment.lex ["openapi:path /catalog"] "Store::all").1 := by
  obtain ⟨hok, hcandidates⟩ := candidates_shopFile
  have hcandidates : (ofFiles [shopFile]).table.candidates = [itemsMethod] ++ allMethod :: [] := hcandidates
  have howner : allMethod.owner = some ⟨"Store", ["openapi:path /catalog"]⟩ := rfl
  refine ⟨hok, hcandidates, howner, ?_⟩
  by_contra hother
  exact absurd ((owner_comment_is_own_iff hok .none hcandidates howner).2.2 hother).1 (by decide +kernel)

/-- The method of the impl inherits from the comment of the trait, and not from that of the impl. -/
theorem impl_inherits_from_trait :
    (ofFiles [shopFile]).table.candidates = [] ++ itemsMethod :: [allMethod] ∧
    itemsMethod.owner = some ⟨"Store", ["openapi:path /store"]⟩ ∧
    ((askOwner itemsMethod).run (assemblerAfter [] (firstAssembler (ofFiles [shopFile]).table .none))).1.basePath =
      some "/catalog" ∧
    (Comment.Container.ofBlock (Comment.lex ["openapi:path /store"] "Store::items").1).basePath = some "/store" :=
  ⟨candidates_shopFile.2, rfl, by decide +kernel, by decide +kernel⟩

end Operation

end ApiScribe
