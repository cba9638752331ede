import ApiScribe.Proofs.Declaration.Events
import ApiScribe.Proofs.Lookup.Alike
import Mathlib.Data.List.Lattice
import Mathlib.Data.List.Nodup
import Mathlib.Data.List.Pairwise

/-!
# The order of files

Whether an extraction succeeds depends on the declared names alone: none may be repeated. If no two files
contribute to one module, then the order of files decides nothing but the order in which the table lists its
modules and candidates.
-/

namespace ApiScribe

open Source

/-- What is gathered from items does not depend on their order if at most one of any two contributes. -/
theorem flatMap_eq_of_perm {ι α : Type} {items items' : List ι} (hperm : items.Perm items') (gather : ι → List α)
    (h : ∀ a ∈ items, ∀ b ∈ items, a ≠ b → gather a = [] ∨ gather b = []) :
    items.flatMap gather = items'.flatMap gather := by
  rw [List.flatMap_eq_foldl, List.flatMap_eq_foldl]
  refine hperm.foldl_eq' (fun a ha b hb gathered => ?_) []
  by_cases hab : a = b
  · rw [hab]
  · rcases h a ha b hb hab with hempty | hempty <;> simp [hempty]

namespace Extraction

mutual

/-- The inline modules of an item. -/
def modulesBy (module : ModulePath) : Item → List ModulePath
  | .module ident items => module.child (unraw ident) :: modulesByAll (module.child (unraw ident)) items
  | .inBlocks items => modulesByAll module items
  | _ => []

/-- The inline modules of items. -/
def modulesByAll (module : ModulePath) : List Item → List ModulePath
  | [] => []
  | item :: rest => modulesBy module item ++ modulesByAll module rest

end

/-- The modules that a file contributes to: its own and the inline modules in it. -/
def modulesOf (file : File) : List ModulePath := file.module :: modulesByAll file.module file.content.items

mutual

/-- The events of an item enter its module and the inline modules in it. -/
theorem mem_modulesBy {source : String} {module : ModulePath} {item : Item} {scope : ModulePath × List Import}
    (h : scope ∈ (eventsBy source module item).filterMap Event.scope?) :
    scope.1 = module ∨ scope.1 ∈ modulesBy module item := by
  have hmethods (owner : Owner) (methods : List FunctionSyntax) :
      (methodEvents source module owner methods).filterMap Event.scope? = [] := by
    rw [methodEvents, List.filterMap_map]
    exact List.filterMap_eq_nil_iff.mpr fun _ _ => rfl
  match item with
  | .struct _ _ | .enum _ _ | .typeAlias _ _ | .function _ | .other =>
    simp [eventsBy, Event.scope?] at h
  | .use _ =>
    simp only [eventsBy, Event.scope?, List.filterMap_cons, List.filterMap_nil, List.mem_singleton] at h
    exact .inl (congrArg Prod.fst h)
  | .trait head methods => simp [eventsBy, hmethods, Event.scope?] at h
  | .impl ofTrait selfType attributes methods =>
    cases ofTrait <;> cases selfType <;> simp [eventsBy, hmethods] at h
  | .module ident items =>
    simp only [eventsBy, List.filterMap_cons, Event.scope?, List.mem_cons] at h
    rw [modulesBy, List.mem_cons]
    rcases h with rfl | h
    · exact .inr (.inl rfl)
    · exact .inr (mem_modulesByAll h)
  | .inBlocks items =>
    rw [eventsBy] at h
    rw [modulesBy]
    exact mem_modulesByAll h

/-- The events of items enter their module and the inline modules in it. -/
theorem mem_modulesByAll {source : String} {module : ModulePath} {items : List Item}
    {scope : ModulePath × List Import} (h : scope ∈ (eventsByAll source module items).filterMap Event.scope?) :
    scope.1 = module ∨ scope.1 ∈ modulesByAll module items := by
  match items with
  | [] => simp [eventsByAll] at h
  | item :: rest =>
    rw [eventsByAll, List.filterMap_append, List.mem_append] at h
    rw [modulesByAll, List.mem_append]
    rcases h with h | h
    · exact (mem_modulesBy h).imp id .inl
    · exact (mem_modulesByAll h).imp id .inr

end

/-- A file enters no modules but those that it contributes to. -/
theorem mem_modulesOf {file : File} {scope : ModulePath × List Import}
    (h : scope ∈ (events file).filterMap Event.scope?) : scope.1 ∈ modulesOf file := by
  simp only [events, List.filterMap_cons, Event.scope?, List.mem_cons] at h
  rw [modulesOf, List.mem_cons]
  rcases h with rfl | h
  · exact .inl rfl
  · exact mem_modulesByAll h

/-- A failure stays. -/
theorem failure_foldl_ne_none {state : Extraction} (h : state.failure ≠ none) (events : List Event) :
    (events.foldl Event.apply state).failure ≠ none := by
  induction events generalizing state with
  | nil => exact h
  | cons event rest ih =>
    refine ih ?_
    cases event with
    | enter module imports => exact h
    | declare declaration =>
      rcases state.declare_cases declaration with ⟨hok, -⟩ | ⟨-, hfailed, -⟩
      · exact absurd hok h
      · exact hfailed
    | consider source module subject docs owner =>
      rw [Event.apply, (consider_eq _ _ _ _ _ _).1]
      exact h

/-- Events run through without a failure exactly if no name is declared twice. -/
theorem failure_foldl_eq_none_iff {state : Extraction} (hnames : state.table.names.Nodup) (events : List Event) :
    (events.foldl Event.apply state).failure = none ↔
      state.failure = none ∧
        (state.table.names ++ (events.filterMap Event.declaration?).map Declaration.name).Nodup := by
  induction events generalizing state with
  | nil => simp [hnames]
  | cons event rest ih =>
    rw [List.foldl_cons]
    cases event with
    | enter module imports =>
      have hentered : (Event.apply state (.enter module imports)).table.names.Nodup := hnames
      exact ih hentered
    | consider source module subject docs owner =>
      obtain ⟨hfailure, htable⟩ := consider_eq state source module subject docs owner
      have hsame : (state.consider source module subject docs owner).table.names = state.table.names := by
        rw [htable]
        rfl
      rw [Event.apply, ih (hsame ▸ hnames), hfailure, hsame]
      rfl
    | declare declaration =>
      have hdeclared : ((.declare declaration :: rest : List Event).filterMap Event.declaration?).map
          Declaration.name = declaration.name :: (rest.filterMap Event.declaration?).map Declaration.name := rfl
      rw [Event.apply, hdeclared]
      rcases state.declare_cases declaration with ⟨hok, hnew, hok', htable⟩ | ⟨hbad, hfailed, -⟩
      · have hperm := Table.names_including_perm hnew
        have hnames' : (state.declare declaration).table.names.Nodup := by
          rw [htable, hperm.nodup_iff, List.nodup_cons]
          exact ⟨(Table.get?_eq_none_iff _ _).mp hnew, hnames⟩
        rw [ih hnames', hok, hok', htable, ((hperm.append_right _).trans List.perm_middle.symm).nodup_iff]
      · refine iff_of_false (failure_foldl_ne_none hfailed rest) fun ⟨hok, hnodup⟩ => ?_
        have hmem : declaration.name ∈ state.table.names := by
          by_contra hmem
          exact (hbad.resolve_left (absurd hok)) ((Table.get?_eq_none_iff _ _).mpr hmem)
        exact (List.nodup_append.mp hnodup).2.2 _ hmem _ List.mem_cons_self rfl

/-- Without a failure all declarations are stored one after another. -/
theorem declarations_foldl {state : Extraction} {events : List Event}
    (h : (events.foldl Event.apply state).failure = none) :
    (events.foldl Event.apply state).table.declarations =
      (events.filterMap Event.declaration?).foldl (fun sorted declaration =>
        Text.insertSorted QualifiedName.compare declaration.name declaration sorted) state.table.declarations := by
  induction events generalizing state with
  | nil => rfl
  | cons event rest ih =>
    rw [List.foldl_cons] at h ⊢
    rw [ih h]
    cases event with
    | enter module imports => rfl
    | consider source module subject docs owner =>
      rw [Event.apply, (consider_eq _ _ _ _ _ _).2]
      rfl
    | declare declaration =>
      rcases state.declare_cases declaration with ⟨-, -, -, htable⟩ | ⟨-, hfailed, -⟩
      · rw [Event.apply, htable]
        rfl
      · exact absurd h (failure_foldl_ne_none hfailed rest)

/-- The events of files, in the order of the files. -/
def eventsOf (files : List File) : List Event := files.flatMap events

/-- Visiting files fails exactly if their events do; otherwise it runs through all of them. -/
theorem ofFiles_cases (files : List File) :
    ((ofFiles files).failure ≠ none ∧ ((eventsOf files).foldl Event.apply {}).failure ≠ none) ∨
      ofFiles files = (eventsOf files).foldl Event.apply {} := by
  unfold ofFiles eventsOf
  generalize ({} : Extraction) = state
  induction files generalizing state with
  | nil => exact .inr rfl
  | cons file rest ih =>
    rw [List.flatMap_cons, List.foldl_append, ← addFile_eq_foldl, List.foldl_cons]
    cases hfailure : state.failure with
    | none => exact ih (state.addFile file)
    | some failure =>
      have hne : state.failure ≠ none := hfailure ▸ Option.some_ne_none failure
      rw [Option.isSome_some, if_pos rfl]
      refine .inl ⟨?_, ?_⟩
      · rcases ih state with ⟨hstopped, -⟩ | hvisited
        · exact hstopped
        · rw [hvisited]
          exact failure_foldl_ne_none hne _
      · rw [addFile_eq_foldl, ← List.foldl_append]
        exact failure_foldl_ne_none hne _

/-- An extraction that does not fail applies the events of all files. -/
theorem ofFiles_eq_foldl {files : List File} (h : (ofFiles files).failure = none) :
    ofFiles files = (eventsOf files).foldl Event.apply {} :=
  (ofFiles_cases files).resolve_left fun hfailed => hfailed.1 h

/-- The names that the events declare are those in the files. -/
theorem declaredNames_eventsOf (files : List File) :
    ((eventsOf files).filterMap Event.declaration?).map Declaration.name = files.flatMap declaredIn := by
  rw [eventsOf, List.filterMap_flatMap, List.map_flatMap]
  exact List.flatMap_congr fun file _ => (declaredIn_eq file).symm

/-- An extraction succeeds exactly if no name is declared twice. -/
theorem ofFiles_failure_eq_none_iff (files : List File) :
    (ofFiles files).failure = none ↔ (files.flatMap declaredIn).Nodup := by
  have hempty : ({} : Extraction).table.names.Nodup := List.nodup_nil
  have hevents := failure_foldl_eq_none_iff hempty (eventsOf files)
  rw [declaredNames_eventsOf] at hevents
  rcases ofFiles_cases files with ⟨hfailed, hfailed'⟩ | heq
  · exact iff_of_false hfailed fun hnodup => hfailed' (hevents.mpr ⟨rfl, hnodup⟩)
  · rw [heq, hevents]
    exact and_iff_right rfl

section Permuted

variable {files files' : List File} (hperm : files.Perm files')

include hperm

/-- Files in another order fail or succeed together. -/
theorem failure_eq_none_iff_of_perm : (ofFiles files).failure = none ↔ (ofFiles files').failure = none := by
  rw [ofFiles_failure_eq_none_iff, ofFiles_failure_eq_none_iff, (hperm.flatMap_right declaredIn).nodup_iff]

variable (h : (ofFiles files).failure = none)

include h

/-- Files in another order give the same declarations. -/
theorem declarations_eq_of_perm :
    (ofFiles files').table.declarations = (ofFiles files).table.declarations := by
  have h' := (failure_eq_none_iff_of_perm hperm).mp h
  have hnames : (((eventsOf files).filterMap Event.declaration?).map Declaration.name).Nodup := by
    rw [declaredNames_eventsOf]
    exact (ofFiles_failure_eq_none_iff files).mp h
  rw [ofFiles_eq_foldl h, declarations_foldl (ofFiles_eq_foldl h ▸ h), ofFiles_eq_foldl h',
    declarations_foldl (ofFiles_eq_foldl h' ▸ h')]
  have hdeclared := (hperm.flatMap_right events).filterMap Event.declaration?
  refine (hdeclared.foldl_eq' (fun a ha b hb sorted => ?_) _).symm
  by_cases hab : a = b
  · rw [hab]
  · have hne : b.name ≠ a.name := fun hname => hab (List.inj_on_of_nodup_map hnames ha hb hname.symm)
    exact Text.insertSorted_comm (fun _ _ => (QualifiedName.compare_eq_iff _ _).mp) hne b a sorted

/-- The order of files does not decide which candidates there are. -/
theorem candidates_perm_of_perm : (ofFiles files).table.candidates.Perm (ofFiles files').table.candidates := by
  have h' := (failure_eq_none_iff_of_perm hperm).mp h
  rw [ofFiles_eq_foldl h, candidates_foldl, ofFiles_eq_foldl h', candidates_foldl]
  exact ((hperm.flatMap_right events).filterMap Event.candidate?).append_left _

/-- The table of files in another order says the same if no two of them contribute to one module. -/
theorem alike_of_perm (hmodules : files.Pairwise fun a b => (modulesOf a).Disjoint (modulesOf b)) :
    (ofFiles files).table.Alike (ofFiles files').table := by
  have h' := (failure_eq_none_iff_of_perm hperm).mp h
  have hscopes := (hperm.flatMap_right events).filterMap Event.scope?
  have hsymm : Std.Symm fun a b : File => (modulesOf a).Disjoint (modulesOf b) := ⟨fun _ _ => List.Disjoint.symm⟩
  have himports (module : ModulePath) :
      (ofFiles files').table.imports module = (ofFiles files).table.imports module := by
    let gather (file : File) : List Import :=
      ((events file).filterMap Event.scope?).flatMap fun scope => if scope.1 = module then scope.2 else []
    -- Only a file that contributes to the module can add imports to it.
    have hgather {file : File} (hfile : module ∉ modulesOf file) : gather file = [] := by
      refine List.flatMap_eq_nil_iff.mpr fun scope hscope => if_neg ?_
      rintro rfl
      exact hfile (mem_modulesOf hscope)
    have hgathered (files : List File) : (((eventsOf files).filterMap Event.scope?).flatMap fun scope =>
        if scope.1 = module then scope.2 else []) = files.flatMap gather := by
      rw [eventsOf, List.filterMap_flatMap, List.flatMap_assoc]
    rw [ofFiles_eq_foldl h, imports_foldl, ofFiles_eq_foldl h', imports_foldl, hgathered, hgathered]
    refine congrArg _ (flatMap_eq_of_perm hperm gather fun a ha b hb hab => ?_).symm
    have hdisjoint : (modulesOf a).Disjoint (modulesOf b) := hmodules.forall ha hb hab
    by_cases hmem : module ∈ modulesOf a
    · exact .inr (hgather (hdisjoint hmem))
    · exact .inl (hgather hmem)
  have hknown (module : ModulePath) :
      (ofFiles files').table.hasModule module = (ofFiles files).table.hasModule module := by
    rw [ofFiles_eq_foldl h, hasModule_foldl, ofFiles_eq_foldl h', hasModule_foldl]
    exact congrArg _ (hscopes.any_eq).symm
  exact ⟨declarations_eq_of_perm hperm h, fun scope => ⟨himports scope, fun child => hknown _⟩⟩

end Permuted

end Extraction

end ApiScribe
