import ApiScribe.Proofs.Declaration.Redeclaration

/-!
# The owners of methods

A method belongs to a trait or to the type of an inherent impl, and its candidate carries the comment of that owner.
A trait is declared under the name of the owner in the module of the candidate. The type of an impl need not be:
only the last segment of its path is kept, which may name something else in that module.
-/

namespace ApiScribe.Extraction

open Source

mutual

/-- The owners of the inherent impls in an item, with their modules. -/
def implOwnersBy (module : ModulePath) : Item → List (ModulePath × Owner)
  | .impl false (.path _ _ ident _) attributes _ => [(module, ⟨unraw ident, docLines attributes⟩)]
  | .module ident items => implOwnersByAll (module.child (unraw ident)) items
  | .inBlocks items => implOwnersByAll module items
  | _ => []

/-- The owners of the inherent impls in items, with their modules. -/
def implOwnersByAll (module : ModulePath) : List Item → List (ModulePath × Owner)
  | [] => []
  | item :: rest => implOwnersBy module item ++ implOwnersByAll module rest

end

/-- The owners of the inherent impls in files, with their modules. -/
def implOwners (files : List File) : List (ModulePath × Owner) :=
  files.flatMap fun file => implOwnersByAll file.module file.content.items

/-- A declaration is the trait that an owner in a module is. -/
structure IsTraitOf (module : ModulePath) (owner : Owner) (declaration : Declaration) : Prop where
  name : declaration.name = ⟨module, owner.name⟩
  docs : declaration.docs = owner.docs
  shape : declaration.shape.isInterface = true

/-- Some of the events declares the trait that the owner is. -/
def DeclaresTrait (module : ModulePath) (owner : Owner) (events : List Event) : Prop :=
  ∃ declaration, .declare declaration ∈ events ∧ IsTraitOf module owner declaration

/-- A trait that is declared is declared among more events too. -/
theorem DeclaresTrait.mono {module : ModulePath} {owner : Owner} {events more : List Event}
    (h : DeclaresTrait module owner events) (hmore : events ⊆ more) : DeclaresTrait module owner more := by
  obtain ⟨declaration, hdeclare, htrait⟩ := h
  exact ⟨declaration, hmore hdeclare, htrait⟩

/-- The events of methods are for their own owner and module. -/
theorem owner_of_mem_methodEvents {source considered : String} {module entered : ModulePath} {owner other : Owner}
    {methods : List FunctionSyntax} {subject : String} {docs : List String}
    (h : .consider considered entered subject docs (some owner) ∈ methodEvents source module other methods) :
    entered = module ∧ owner = other := by
  obtain ⟨method, -, hmethod⟩ := List.mem_map.mp h
  cases hmethod
  exact ⟨rfl, rfl⟩

mutual

/-- The owner of a method in an item is that of an impl, or a trait that the item declares. -/
theorem owner_of_mem_eventsBy {source considered : String} {module entered : ModulePath} {owner : Owner}
    {subject : String} {docs : List String} {item : Item}
    (h : .consider considered entered subject docs (some owner) ∈ eventsBy source module item) :
    (entered, owner) ∈ implOwnersBy module item ∨ DeclaresTrait entered owner (eventsBy source module item) := by
  match item with
  | .struct _ _ | .enum _ _ | .typeAlias _ _ | .function _ | .use _ | .other => simp [eventsBy] at h
  | .trait head methods =>
    rw [eventsBy, List.mem_append] at h
    rcases h with h | h
    · obtain ⟨rfl, rfl⟩ := owner_of_mem_methodEvents h
      rw [eventsBy]
      exact .inr ⟨_, List.mem_append_right _ (List.mem_singleton.mpr rfl), ⟨rfl, rfl, rfl⟩⟩
    · cases List.mem_singleton.mp h
  | .impl true _ _ _ => simp [eventsBy] at h
  | .impl false selfType attributes methods =>
    cases selfType with
    | path global segments ident arguments =>
      rw [eventsBy] at h
      obtain ⟨rfl, rfl⟩ := owner_of_mem_methodEvents h
      exact .inl (by simp [implOwnersBy])
    | _ => simp [eventsBy] at h
  | .module ident items =>
    rw [eventsBy, List.mem_cons] at h
    rw [eventsBy, implOwnersBy]
    refine (owner_of_mem_eventsByAll (h.resolve_left fun heq => by cases heq)).imp_right fun htrait => ?_
    exact htrait.mono (List.subset_cons_self _ _)
  | .inBlocks items =>
    rw [eventsBy] at h
    rw [eventsBy, implOwnersBy]
    exact owner_of_mem_eventsByAll h

/-- The owner of a method in items is that of an impl, or a trait that the items declare. -/
theorem owner_of_mem_eventsByAll {source considered : String} {module entered : ModulePath} {owner : Owner}
    {subject : String} {docs : List String} {items : List Item}
    (h : .consider considered entered subject docs (some owner) ∈ eventsByAll source module items) :
    (entered, owner) ∈ implOwnersByAll module items ∨
      DeclaresTrait entered owner (eventsByAll source module items) := by
  match items with
  | [] => simp [eventsByAll] at h
  | item :: rest =>
    rw [eventsByAll, List.mem_append] at h
    rw [eventsByAll, implOwnersByAll, List.mem_append]
    rcases h with h | h
    · rcases owner_of_mem_eventsBy h with himpl | htrait
      · exact .inl (.inl himpl)
      · exact .inr (htrait.mono (List.subset_append_left _ _))
    · rcases owner_of_mem_eventsByAll h with himpl | htrait
      · exact .inl (.inr himpl)
      · exact .inr (htrait.mono (List.subset_append_right _ _))

end

/-- Where no declaration is repeated, everything that events declare is in the table. -/
theorem get?_of_mem_events {events : List Event} {state : Extraction} {declaration : Declaration}
    (h : (events.foldl Event.apply state).failure = none) (hmem : .declare declaration ∈ events) :
    (events.foldl Event.apply state).table.get? declaration.name = some declaration := by
  obtain ⟨before, after, rfl⟩ := List.append_of_mem hmem
  rw [List.foldl_append, List.foldl_cons] at h ⊢
  refine get?_foldl ?_ after
  rcases declare_cases (before.foldl Event.apply state) declaration with ⟨-, -, -, htable⟩ | ⟨-, hfailed, -⟩
  · rw [Event.apply, htable, Table.get?_including, if_pos rfl]
  · exact absurd h (failure_foldl_ne_none hfailed after)

/-- The owner of a candidate is that of an impl, or a trait that the table has under the name of the owner. -/
theorem owner_of_mem_candidates {files : List File} (h : (ofFiles files).failure = none) {candidate : Candidate}
    (hcandidate : candidate ∈ (ofFiles files).table.candidates) {owner : Owner}
    (howner : candidate.owner = some owner) :
    (candidate.module, owner) ∈ implOwners files ∨ ∃ declaration,
      (ofFiles files).table.get? ⟨candidate.module, owner.name⟩ = some declaration ∧
        IsTraitOf candidate.module owner declaration := by
  have hfold := ofFiles_eq_foldl h
  rw [hfold, candidates_foldl] at hcandidate
  obtain ⟨event, hevent, hcandidate⟩ :=
    List.mem_filterMap.mp ((List.mem_append.mp hcandidate).resolve_left List.not_mem_nil)
  obtain ⟨file, hfile, hevent⟩ := List.mem_flatMap.mp hevent
  cases event with
  | enter module imports => cases hcandidate
  | declare declaration => cases hcandidate
  | consider source module subject docs considered =>
    rw [Event.candidate?] at hcandidate
    split at hcandidate
    · cases hcandidate
      cases howner
      have hevent := (List.mem_cons.mp hevent).resolve_left fun heq => by cases heq
      rcases owner_of_mem_eventsByAll hevent with himpl | htrait
      · exact .inl (List.mem_flatMap.mpr ⟨file, hfile, himpl⟩)
      · obtain ⟨declaration, hdeclare, htrait⟩ := htrait
        have hmem : .declare declaration ∈ eventsOf files :=
          List.mem_flatMap.mpr ⟨file, hfile, List.mem_cons_of_mem _ hdeclare⟩
        refine .inr ⟨declaration, ?_, htrait⟩
        rw [← htrait.name, hfold]
        exact get?_of_mem_events (hfold ▸ h) hmem
    · cases hcandidate

end ApiScribe.Extraction
