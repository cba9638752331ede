import ApiScribe.Proofs.Document.Stages
import ApiScribe.Proofs.Operation.Owners

/-!
# The tags of a document

Tags are offered by directives of the metadata and by named owners of operations. The builder takes the first of
each name and lets later ones fill in details that are missing. The assembler hands only the first owner of each
name on to it, though, so a detail that neither a directive nor the first owner gives is missing, even if a later
owner of the name gives it.
-/

namespace ApiScribe

open Document (Tag)
open Operation (firstOccurrences nodup_firstOccurrences mem_firstOccurrences)

namespace Document.Tag

/-- The first tag of a name. -/
def first? (name : String) (tags : List Tag) : Option Tag := tags.find? fun tag => tag.name = name

/-- The first detail that is present among the tags of a name. -/
def firstGiven {α : Type} (detail : Tag → Option α) (name : String) (tags : List Tag) : Option α :=
  (tags.filter fun tag => tag.name = name).findSome? detail

/-- The first tag of a name is the first of the list or one behind it. -/
theorem first?_cons (name : String) (tag : Tag) (rest : List Tag) :
    first? name (tag :: rest) = if tag.name = name then some tag else first? name rest := by
  by_cases h : tag.name = name <;> simp [first?, h]

/-- The first tag of a name is in the first list or in the second. -/
theorem first?_append (name : String) (tags more : List Tag) :
    first? name (tags ++ more) = (first? name tags).or (first? name more) := List.find?_append

/-- There is no first tag exactly if no tag has the name. -/
theorem first?_eq_none_iff {name : String} {tags : List Tag} :
    first? name tags = none ↔ name ∉ tags.map Tag.name := by
  simp [first?]

/-- In a list without repeated names, a tag is the first of its name. -/
theorem first?_of_mem {tags : List Tag} (hnodup : (tags.map Tag.name).Nodup) {tag : Tag} (h : tag ∈ tags) :
    first? tag.name tags = some tag := by
  induction tags with
  | nil => cases h
  | cons other rest ih =>
    rw [List.map_cons, List.nodup_cons] at hnodup
    rw [first?_cons]
    rcases List.mem_cons.mp h with rfl | hrest
    · rw [if_pos rfl]
    · have hother : other.name ≠ tag.name := fun hname => hnodup.1 (hname ▸ List.mem_map_of_mem hrest)
      rw [if_neg hother, ih hnodup.2 hrest]

variable {α : Type} (detail : Tag → Option α) (name : String)

/-- The first detail given for a name is that of the first tag, if it gives one, or one behind it. -/
theorem firstGiven_cons (tag : Tag) (rest : List Tag) :
    firstGiven detail name (tag :: rest) =
      if tag.name = name then (detail tag).or (firstGiven detail name rest) else firstGiven detail name rest := by
  by_cases h : tag.name = name
  · rw [if_pos h, firstGiven, List.filter_cons_of_pos (by simpa using h), List.findSome?_cons]
    cases detail tag <;> rfl
  · rw [if_neg h, firstGiven, List.filter_cons_of_neg (by simpa using h)]
    rfl

/-- The first detail given for a name is in the first list or in the second. -/
theorem firstGiven_append (tags more : List Tag) :
    firstGiven detail name (tags ++ more) = (firstGiven detail name tags).or (firstGiven detail name more) := by
  rw [firstGiven, List.filter_append, List.findSome?_append]
  rfl

/-- No detail is given exactly if no tag of the name gives one. -/
theorem firstGiven_eq_none_iff {tags : List Tag} :
    firstGiven detail name tags = none ↔ ∀ tag ∈ tags, tag.name = name → detail tag = none := by
  simp [firstGiven]

/-- The first detail of a name is that of its first tag, if this tag has it. -/
theorem firstGiven_of_first? {tags : List Tag} {value : α} (h : (first? name tags).bind detail = some value) :
    firstGiven detail name tags = some value := by
  induction tags with
  | nil => cases h
  | cons tag rest ih =>
    rw [first?_cons] at h
    rw [firstGiven_cons]
    split
    · next hname =>
      rw [if_pos hname, Option.bind_some] at h
      rw [h, Option.some_or]
    · next hname =>
      rw [if_neg hname] at h
      exact ih h

/-- In a list without repeated names, it is the detail of the only tag of the name. -/
theorem firstGiven_of_nodup {tags : List Tag} (hnodup : (tags.map Tag.name).Nodup) :
    firstGiven detail name tags = (first? name tags).bind detail := by
  cases hfirst : (first? name tags).bind detail with
  | some value => exact firstGiven_of_first? detail name hfirst
  | none =>
    rw [firstGiven_eq_none_iff]
    rintro tag htag rfl
    rwa [first?_of_mem hnodup htag] at hfirst

end Document.Tag

/-- What acts on names as keeping first occurrences does. -/
theorem names_foldl {step : List Tag → Tag → List Tag}
    (hstep : ∀ tags tag, (step tags tag).map Tag.name =
      if tag.name ∈ tags.map Tag.name then tags.map Tag.name else tags.map Tag.name ++ [tag.name])
    (offers : List Tag) : (offers.foldl step []).map Tag.name = firstOccurrences (offers.map Tag.name) := by
  rw [firstOccurrences, List.foldl_map]
  exact (List.foldl_hom (List.map Tag.name) fun tags tag => (hstep tags tag).symm).symm

namespace Builder

/-- Add tags in order, starting without any. -/
def gather (offers : List Tag) : List Tag := offers.foldl (fun tags tag => addTagTo tag tags) []

/-- A tag with a known name adds no name. -/
theorem names_addTagTo (tag : Tag) (tags : List Tag) :
    (addTagTo tag tags).map Tag.name =
      if tag.name ∈ tags.map Tag.name then tags.map Tag.name else tags.map Tag.name ++ [tag.name] := by
  induction tags with
  | nil => rfl
  | cons existing rest ih =>
    rw [addTagTo]
    by_cases h : existing.name = tag.name
    · simp [h, fillTag]
    · simp only [if_neg h, List.map_cons, ih, List.mem_cons, Ne.symm h, false_or]
      split <;> rfl

/-- Gathered tags have different names. -/
theorem nodup_names_gather (offers : List Tag) : ((gather offers).map Tag.name).Nodup := by
  rw [gather, names_foldl fun tags tag => names_addTagTo tag tags]
  exact nodup_firstOccurrences _

/-- Tags are gathered under the names that are offered. -/
theorem mem_names_gather {name : String} {offers : List Tag} :
    name ∈ (gather offers).map Tag.name ↔ name ∈ offers.map Tag.name := by
  rw [gather, names_foldl fun tags tag => names_addTagTo tag tags, mem_firstOccurrences]

/-- A tag fills in the one that is known under its name, or it is added. -/
theorem first?_addTagTo (tag : Tag) (tags : List Tag) (name : String) :
    Tag.first? name (addTagTo tag tags) =
      if tag.name = name then some (((Tag.first? name tags).map fun existing => fillTag existing tag).getD tag)
      else Tag.first? name tags := by
  induction tags with
  | nil => rw [addTagTo, Tag.first?_cons]; rfl
  | cons existing rest ih =>
    rw [addTagTo]
    split
    · next hsame =>
      rw [Tag.first?_cons, Tag.first?_cons, fillTag, ← hsame]
      split <;> simp_all [fillTag]
    · next hother =>
      rw [Tag.first?_cons, Tag.first?_cons, ih]
      split
      · next hname => rw [if_neg fun h => hother (hname.trans h.symm)]
      · rfl

/-- A detail that a tag gains when it lacks it. -/
def Fills {α : Type} (detail : Tag → Option α) : Prop :=
  ∀ existing offered, detail (fillTag existing offered) = (detail existing).or (detail offered)

/-- Of each detail, the first that was offered under the name of a tag is there. -/
theorem detail_gather {α : Type} {detail : Tag → Option α} (hfills : Fills detail) {offers : List Tag} {tag : Tag}
    (h : tag ∈ gather offers) : detail tag = Tag.firstGiven detail tag.name offers := by
  have hgiven (name : String) :
      (Tag.first? name (gather offers)).bind detail = Tag.firstGiven detail name offers := by
    clear h
    induction offers using List.reverseRecOn with
    | nil => rfl
    | append_singleton offers offer ih =>
      have hstep : gather (offers ++ [offer]) = addTagTo offer (gather offers) := by
        rw [gather, List.foldl_append]
        rfl
      rw [hstep, first?_addTagTo, Tag.firstGiven_append, ← ih, Tag.firstGiven_cons]
      split
      · cases Tag.first? name (gather offers) with
        | none => simp [Tag.firstGiven]
        | some existing => simp [Tag.firstGiven, hfills existing offer]
      · simp [Tag.firstGiven]
  rw [← hgiven, Tag.first?_of_mem (nodup_names_gather offers) h]
  rfl

end Builder

/-- The tag that a named owner offers. -/
def Comment.Container.tag? (container : Comment.Container) : Option Document.Tag :=
  container.name.map fun name => ⟨name, container.description, container.externalDocs⟩

namespace Operation

/-- Add a tag, unless there is one of its name. -/
def keepFirst (tags : List Tag) (tag : Tag) : List Tag :=
  if tag.name ∈ tags.map Tag.name then tags else tags ++ [tag]

/-- The tags that the owners of candidates offer, in order: those of the comments that are taken to be theirs. -/
def ownerOffers : List Candidate → Assembler → List Tag
  | [], _ => []
  | candidate :: rest, assembler =>
    ((askOwner candidate).run assembler).1.tag?.toList ++ ownerOffers rest ((assemble candidate).run assembler).2

/-- A tag with a known name adds no name. -/
theorem names_keepFirst (tags : List Tag) (tag : Tag) :
    (keepFirst tags tag).map Tag.name =
      if tag.name ∈ tags.map Tag.name then tags.map Tag.name else tags.map Tag.name ++ [tag.name] := by
  unfold keepFirst
  split <;> simp

/-- Names stay. -/
theorem names_subset_keepFirst (tags offers : List Tag) :
    tags.map Tag.name ⊆ (offers.foldl keepFirst tags).map Tag.name := by
  induction offers generalizing tags with
  | nil => exact List.Subset.refl _
  | cons offer rest ih =>
    refine List.Subset.trans ?_ (ih _)
    rw [names_keepFirst]
    split
    · exact List.Subset.refl _
    · exact List.subset_append_left _ _

/-- The name of a tag that is offered is there afterwards. -/
theorem mem_names_keepFirst (tags : List Tag) (tag : Tag) : tag.name ∈ (keepFirst tags tag).map Tag.name := by
  rw [names_keepFirst]
  split
  · assumption
  · exact List.mem_append_right _ List.mem_cons_self

/-- The first tag of a name stays. -/
theorem first?_foldl_keepFirst (offers tags : List Tag) (name : String) :
    Tag.first? name (offers.foldl keepFirst tags) = (Tag.first? name tags).or (Tag.first? name offers) := by
  induction offers generalizing tags with
  | nil => exact (Option.or_none).symm
  | cons offer rest ih =>
    rw [List.foldl_cons, ih, keepFirst]
    split
    · next hknown =>
      rw [Tag.first?_cons]
      split
      · next hname =>
        obtain ⟨known, hfirst⟩ := Option.ne_none_iff_exists'.mp fun hnone =>
          Tag.first?_eq_none_iff.mp hnone (hname ▸ hknown)
        rw [hfirst, Option.some_or, Option.some_or]
      · rfl
    · rw [Tag.first?_append, Option.or_assoc, ← Tag.first?_append, List.singleton_append]

/-- The tag of the owner is kept if it is the first of its name. -/
theorem tags_addOwnerTag (container : Comment.Container) (assembler : Assembler) :
    ((addOwnerTag container).run assembler).2.tags = container.tag?.toList.foldl keepFirst assembler.tags := by
  unfold addOwnerTag Comment.Container.tag?
  cases container.name with
  | none => rfl
  | some name =>
    have hany : (assembler.tags.any fun tag => tag.name = name) = true ↔ name ∈ assembler.tags.map Tag.name := by
      simp
    change (if (assembler.tags.any fun tag => tag.name = name) = true then assembler
      else { assembler with
        tags := assembler.tags ++ [⟨name, container.description, container.externalDocs⟩] }).tags =
      keepFirst assembler.tags ⟨name, container.description, container.externalDocs⟩
    rw [keepFirst]
    split
    · next h => rw [if_pos (hany.mp h)]
    · next h => rw [if_neg (mt hany.mpr h)]

/-- No tag is added. -/
def SameTags (first last : Assembler) : Prop := last.tags = first.tags

instance : IsPreorder Assembler SameTags where
  refl _ := rfl
  trans _ _ _ h h' := h'.trans h

instance : FollowsParts SameTags where
  note _ := moves_modify fun _ => rfl
  onRegistry _ _ := rfl

/-- The names of all owners whose comments are known are among the tags. -/
def Assembler.Tagged (assembler : Assembler) : Prop :=
  ∀ key record, assembler.known? key = some record → ∀ tag ∈ record.tag?, tag.name ∈ assembler.tags.map Tag.name

/-- An offer with a known name changes nothing. -/
theorem foldl_keepFirst_of_mem {tags : List Tag} {offer : Option Tag}
    (h : ∀ tag ∈ offer, tag.name ∈ tags.map Tag.name) : offer.toList.foldl keepFirst tags = tags := by
  cases offer with
  | none => rfl
  | some tag => exact if_pos (h tag rfl)

/-- Asking for the owner of a candidate adds its tag, if the owner is named and the name is new. -/
theorem tags_askOwner (candidate : Candidate) {assembler : Assembler} (h : assembler.registry.Informed)
    (htagged : assembler.Tagged) :
    ((askOwner candidate).run assembler).2.tags =
      ((askOwner candidate).run assembler).1.tag?.toList.foldl keepFirst assembler.tags := by
  cases howner : candidate.owner with
  | none =>
    unfold askOwner
    rw [howner]
    rfl
  | some owner =>
    set noted := ((note (Comment.Operation.read candidate.docs candidate.subject).2).run assembler).2
    have hrun : (askOwner candidate).run assembler = (ownerComment owner candidate.module).run noted := by
      unfold askOwner
      rw [howner]
      rfl
    rw [hrun]
    cases hknown : noted.known? (candidate.module, owner.name, owner.docs) with
    | some record =>
      rw [ownerComment_run_known hknown]
      exact (foldl_keepFirst_of_mem (htagged _ record hknown)).symm
    | none =>
      have hinformed : noted.registry.Informed := h
      obtain ⟨middle, -, htags, hrun⟩ := ownerComment_run_new hinformed hknown
      have htags : middle.tags = assembler.tags := htags
      rw [hrun, ← htags]
      exact tags_addOwnerTag _ middle

/-- Assembling an operation keeps the tag of its owner if it is the first of its name, and no other tag. -/
theorem tags_assemble (candidate : Candidate) {assembler : Assembler} (h : assembler.registry.Informed)
    (htagged : assembler.Tagged) :
    ((assemble candidate).run assembler).2.tags =
      ((askOwner candidate).run assembler).1.tag?.toList.foldl keepFirst assembler.tags := by
  have hsame : SameTags _ _ := (assemble_continues_along (fun _ => moves_modify fun _ => rfl) candidate assembler).1
  rw [← tags_askOwner candidate h htagged]
  exact hsame

/-- Assembling a candidate makes its owner known and adds its tag. -/
theorem tagged_assemble (candidate : Candidate) {assembler : Assembler} (h : assembler.registry.Informed)
    (htagged : assembler.Tagged) : ((assemble candidate).run assembler).2.Tagged := by
  intro key record hknown tag htag
  rw [tags_assemble candidate h htagged]
  rw [known?_assemble candidate h] at hknown
  split at hknown
  · next hkey =>
    obtain ⟨owner, howner, rfl⟩ := Option.map_eq_some_iff.mp hkey
    have hasked := (askOwner_run howner h).1
    rw [hasked, Option.some.inj hknown, htag]
    exact mem_names_keepFirst _ tag
  · exact names_subset_keepFirst _ _ (htagged key record hknown tag htag)

/-- After candidates, the tags are the first of each name among what was there and what their owners offer. -/
theorem tags_assemblerAfter (candidates : List Candidate) {start : Assembler} (h : start.registry.Informed)
    (htagged : start.Tagged) :
    (assemblerAfter candidates start).tags = (ownerOffers candidates start).foldl keepFirst start.tags := by
  induction candidates generalizing start with
  | nil => rfl
  | cons candidate rest ih =>
    rw [assemblerAfter_cons, ih (informed_assemble candidate h) (tagged_assemble candidate h htagged),
      tags_assemble candidate h htagged, ownerOffers, List.foldl_append]

end Operation

/-- The tags that the directives of the metadata offer, in order. -/
def directiveOffers (metadata : Comment.Document) : List Tag :=
  metadata.tags.map fun tag => ⟨tag.name, tag.description, none⟩

namespace Builder

/-- A builder adds tags to its list of tags. -/
theorem tags_foldl_addTag (offers : List Tag) (builder : Builder) :
    (offers.foldl addTag builder).tags = offers.foldl (fun tags tag => addTagTo tag tags) builder.tags :=
  (List.foldl_hom Builder.tags fun _ _ => rfl).symm

/-- The tags of the metadata are gathered from the directives. -/
theorem tags_withMetadata (metadata : Comment.Document) :
    (withMetadata {} metadata).tags = gather (directiveOffers metadata) := by
  rw [gather, directiveOffers, List.foldl_map]
  exact (List.foldl_hom Builder.tags fun _ _ => rfl).symm

/-- Adding operations leaves the tags alone. -/
theorem tags_addOperations (bounds : List Operation.Bound) (builder : Builder) :
    (builder.addOperations bounds).1.tags = builder.tags := by
  induction bounds generalizing builder with
  | nil => rfl
  | cons bound rest ih => exact ih (builder.addOperation bound).1

end Builder

/-- The document gathers the tags of the directives and those that the assembler hands on. -/
theorem Generation.tags_of_generate {files : List Source.File} {loader : Loader} {source : MetadataSource}
    {generation : Generation} (h : generate files loader source = .ok generation) :
    ∃ sources, metadataFiles files source = .ok sources ∧
      generation.document.tags = Builder.gather (directiveOffers (readMetadata sources).1 ++
        (assembled (Extraction.ofFiles files).table loader).2.tags) := by
  obtain ⟨sources, early, hsources, hfinish⟩ := exists_sources_of_generate h
  refine ⟨sources, hsources, ?_⟩
  rw [hfinish, finish_document_eq, Builder.build, Builder.tags_addOperations, Builder.tags_foldl_addTag,
    Builder.tags_withMetadata, Builder.gather, Builder.gather, List.foldl_append]

/-- A detail of a tag is the first that the directives of its name give, or else that of the first owner of its
name. This is the first of all that are offered, unless only later owners give it. -/
structure Document.Tag.Gains {α : Type} (detail : Document.Tag → Option α) (directives owners : List Document.Tag)
    (tag : Document.Tag) : Prop where
  value : detail tag = (firstGiven detail tag.name directives).or ((first? tag.name owners).bind detail)
  first_iff : detail tag = firstGiven detail tag.name (directives ++ owners) ↔
    (firstGiven detail tag.name directives = none → (first? tag.name owners).bind detail = none →
      ∀ owner ∈ owners, owner.name = tag.name → detail owner = none)

/-- A tag gains a detail if the directives are asked before the owners. -/
theorem Document.Tag.Gains.of_value {α : Type} {detail : Document.Tag → Option α}
    {directives owners : List Document.Tag} {tag : Document.Tag}
    (h : detail tag = (firstGiven detail tag.name directives).or ((first? tag.name owners).bind detail)) :
    Gains detail directives owners tag := by
  refine ⟨h, ?_⟩
  rw [h, firstGiven_append, ← firstGiven_eq_none_iff]
  cases firstGiven detail tag.name directives with
  | some given => simp
  | none =>
    cases hfirst : (first? tag.name owners).bind detail with
    | some given => simp [firstGiven_of_first? detail tag.name hfirst]
    | none => simp [eq_comm]

/-- The tags of a generated document have distinct names, those of the directives and of the named owners of its
candidates. Each detail of a tag is the first that is given under its name by directives and then by owners, unless
neither a directive nor the first owner of the name gives it and a later owner does. -/
theorem tags_gain_details_iff {files : List Source.File} {loader : Loader} {source : MetadataSource}
    {generation : Generation} (h : generate files loader source = .ok generation) :
    ∃ sources, Generation.metadataFiles files source = .ok sources ∧
      let table := (Extraction.ofFiles files).table
      let directives := directiveOffers (Generation.readMetadata sources).1
      let owners := Operation.ownerOffers table.candidates (Operation.firstAssembler table loader)
      let tags := generation.document.tags
      (tags.map Tag.name).Nodup ∧
      (∀ name, name ∈ tags.map Tag.name ↔ name ∈ (directives ++ owners).map Tag.name) ∧
      ∀ tag ∈ tags, tag.Gains Tag.description directives owners ∧ tag.Gains Tag.externalDocs directives owners := by
  obtain ⟨sources, hsources, hgathered⟩ := Generation.tags_of_generate h
  refine ⟨sources, hsources, ?_⟩
  intro table directives owners tags
  have hkept : (Generation.assembled table loader).2.tags = owners.foldl Operation.keepFirst [] :=
    Operation.tags_assemblerAfter table.candidates (Operation.informed_firstAssembler table loader)
      fun _ _ hknown => by cases hknown
  have hnames : (owners.foldl Operation.keepFirst []).map Tag.name = firstOccurrences (owners.map Tag.name) :=
    names_foldl Operation.names_keepFirst owners
  have htags : tags = Builder.gather (directives ++ owners.foldl Operation.keepFirst []) := by
    rw [← hkept]
    exact hgathered
  rw [htags]
  refine ⟨Builder.nodup_names_gather _, fun name => ?_, fun tag htag => ?_⟩
  · rw [Builder.mem_names_gather, List.map_append, hnames, List.mem_append, mem_firstOccurrences, List.map_append,
      List.mem_append]
  · have hnodup : ((owners.foldl Operation.keepFirst []).map Tag.name).Nodup := hnames ▸ nodup_firstOccurrences _
    have hgains {α : Type} {detail : Tag → Option α} (hfills : Builder.Fills detail) :
        tag.Gains detail directives owners := by
      refine .of_value ?_
      rw [Builder.detail_gather hfills htag, Tag.firstGiven_append, Tag.firstGiven_of_nodup detail _ hnodup,
        Operation.first?_foldl_keepFirst]
      rfl
    exact ⟨hgains fun _ _ => rfl, hgains fun _ _ => rfl⟩

/-- A crate root that lists the tag `pets`, with a trait of that name that has a description. -/
def listedTagFile : Source.File where
  path := "src/lib.rs"
  module := .root
  content.attributes := [⟨some "doc", .text "openapi:tag pets"⟩]
  content.items :=
    [.trait ⟨"Dogs", [⟨some "doc", .text "All pets."⟩, ⟨some "doc", .text "openapi:name pets"⟩], []⟩
      [⟨"dogs", [⟨some "doc", .text "openapi:operation GET /dogs dogs"⟩]⟩]]

/-- A tag that a directive lists gains the description of the first owner of its name. -/
theorem tags_gain_details_iff_listed :
    ∃ generation, generate [listedTagFile] {} .crateRoot = .ok generation ∧
      "pets" ∈ generation.document.tags.map Tag.name ∧
      ∀ tag ∈ generation.document.tags, tag.description = some "All pets." := by
  have hok : ∃ generation, generate [listedTagFile] {} .crateRoot = .ok generation := by
    have hsucceeds : (generate [listedTagFile] {} .crateRoot).isOk = true := by decide +kernel
    cases hrun : generate [listedTagFile] {} .crateRoot with
    | ok generation => exact ⟨generation, rfl⟩
    | error failure => rw [hrun] at hsucceeds; cases hsucceeds
  have hdirectives : directiveOffers (Generation.readMetadata [listedTagFile]).1 = [⟨"pets", none, none⟩] := by
    decide +kernel
  have howners : Operation.ownerOffers (Extraction.ofFiles [listedTagFile]).table.candidates
      (Operation.firstAssembler (Extraction.ofFiles [listedTagFile]).table {}) =
        [⟨"pets", some "All pets.", none⟩] := by
    decide +kernel
  obtain ⟨generation, hgeneration⟩ := hok
  obtain ⟨sources, hsources, -, hnames, hgains⟩ := tags_gain_details_iff hgeneration
  obtain rfl : [listedTagFile] = sources := Except.ok.inj hsources
  rw [hdirectives, howners] at hnames hgains
  refine ⟨generation, hgeneration, (hnames "pets").mpr List.mem_cons_self, fun tag htag => ?_⟩
  have hname : tag.name = "pets" := by simpa using (hnames tag.name).mp (List.mem_map_of_mem htag)
  rw [(hgains tag htag).1.value, hname]
  rfl

/-- Two traits named `pets`, of which only the second has a description. -/
def twoOwnersFile : Source.File where
  path := "src/lib.rs"
  module := .root
  content.attributes := []
  content.items :=
    [.trait ⟨"Dogs", [⟨some "doc", .text "openapi:name pets"⟩], []⟩
      [⟨"dogs", [⟨some "doc", .text "openapi:operation GET /dogs dogs"⟩]⟩],
     .trait ⟨"Cats", [⟨some "doc", .text "All pets."⟩, ⟨some "doc", .text "openapi:name pets"⟩], []⟩
      [⟨"cats", [⟨some "doc", .text "openapi:operation GET /cats cats"⟩]⟩]]

/-- The description that only the second owner of a name gives is not in the document. -/
theorem description_of_later_owner_lost :
    (generate [twoOwnersFile] {} .crateRoot).toOption.map (fun generation => generation.document.tags) =
      some [⟨"pets", none, none⟩] ∧
    Tag.firstGiven Tag.description "pets" (directiveOffers (Generation.readMetadata [twoOwnersFile]).1 ++
      Operation.ownerOffers (Extraction.ofFiles [twoOwnersFile]).table.candidates
        (Operation.firstAssembler (Extraction.ofFiles [twoOwnersFile]).table {})) = some "All pets." :=
  ⟨by decide +kernel, by decide +kernel⟩

end ApiScribe
