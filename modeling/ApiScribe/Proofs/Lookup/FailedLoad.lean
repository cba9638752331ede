import ApiScribe.Proofs.Declaration.Redeclaration
import ApiScribe.Proofs.Loading

/-!
# Modules that fail to load

A module that is loaded on demand is visited even if it repeats a declaration: what it declares in front of the
repeated declaration stays, and so do all of its imports and candidates. The table is left as it was only if the
file has nothing of this kind.
-/

namespace ApiScribe

open Source

/-- Two tables hold the same declarations, imports and candidates. -/
structure Table.SameContents (table other : Table) : Prop where
  declarations : table.declarations = other.declarations
  imports (module : ModulePath) : table.imports module = other.imports module
  candidates : table.candidates = other.candidates

namespace Extraction

/-- What a file imports into a module. -/
def importsIn (file : File) (module : ModulePath) : List Import :=
  ((events file).filterMap Event.scope?).flatMap fun scope => if scope.1 = module then scope.2 else []

/-- The functions and methods of a file whose comments carry directives. -/
def candidatesIn (file : File) : List Candidate := (events file).filterMap Event.candidate?

/-- An event reports nothing but missing comments. -/
theorem noComment_of_mem_apply {state : Extraction} {event : Event} {finding : Finding}
    (h : finding ∈ (Event.apply state event).findings) :
    finding ∈ state.findings ∨ ∃ sort, finding.cause = .noComment sort := by
  have hreport {subject sort : String} (h : finding ∈ (state.report subject (.noComment sort)).findings) :
      finding ∈ state.findings ∨ ∃ sort, finding.cause = .noComment sort := by
    rcases List.mem_append.mp h with h | h
    · exact .inl h
    · exact .inr ⟨sort, by rw [List.mem_singleton.mp h]⟩
  cases event with
  | enter module imports => exact .inl h
  | declare declaration =>
    rw [Event.apply, declare] at h
    split at h
    · exact .inl h
    · dsimp only at h
      by_cases hdocs : declaration.docs.isEmpty
      · rw [if_pos hdocs] at h
        split at h <;> exact hreport h
      · rw [if_neg hdocs] at h
        split at h <;> exact .inl h
  | consider source module subject docs owner =>
    rw [Event.apply, consider] at h
    split at h
    · exact .inl h
    · split at h
      · exact hreport h
      · exact .inl h

/-- Events report nothing but missing comments. -/
theorem noComment_of_mem_foldl {state : Extraction} {events : List Event} {finding : Finding}
    (h : finding ∈ (events.foldl Event.apply state).findings) :
    finding ∈ state.findings ∨ ∃ sort, finding.cause = .noComment sort := by
  induction events generalizing state with
  | nil => exact .inl h
  | cons event rest ih => exact (ih h).elim noComment_of_mem_apply .inr

end Extraction

namespace Resolver

open Extraction (declarationsIn importsIn candidatesIn)

/-- What requesting a module reports. -/
def reportsOf (resolver : Resolver) (module : ModulePath) : List Finding :=
  (resolver.ensureModule module).findings.drop resolver.findings.length

/-- A file that is supplied is reported as not extracted only if visiting it failed. -/
theorem failure_of_mem_supply {resolver : Resolver} {module : ModulePath} {file : File} {failure : Failure}
    (h : ⟨module.display, .moduleNotExtracted failure⟩ ∈
      (resolver.supply module file).findings.drop resolver.findings.length) :
    (Extraction.addFile { table := resolver.table } file).failure = some failure := by
  rw [supply, List.append_assoc, List.drop_left, List.mem_append] at h
  rcases h with h | h
  · rw [Extraction.addFile_eq_foldl] at h
    rcases Extraction.noComment_of_mem_foldl h with h | ⟨sort, hsort⟩
    · cases h
    · cases hsort
  · cases hfailure : (Extraction.addFile { table := resolver.table } file).failure with
    | none =>
      rw [hfailure] at h
      cases h
    | some found =>
      rw [hfailure, List.mem_singleton] at h
      cases h
      rfl

/-- A module is reported as not extracted only when its file was supplied and visiting it failed. -/
theorem exists_file_of_reported {resolver : Resolver} {module : ModulePath} {failure : Failure}
    (h : ⟨module.display, .moduleNotExtracted failure⟩ ∈ resolver.reportsOf module) :
    ∃ file, resolver.loader.find? module = some (.ok file) ∧
      (Extraction.addFile { table := resolver.table } file).failure = some failure ∧
      (resolver.ensureModule module).table = (Extraction.addFile { table := resolver.table } file).table := by
  unfold reportsOf at h
  unfold ensureModule at h ⊢
  split at h
  · rw [List.drop_length] at h
    cases h
  · next hrequest =>
    rw [if_neg hrequest]
    dsimp only at h ⊢
    split at h
    · next file hfile =>
      rw [hfile]
      exact ⟨file, rfl, failure_of_mem_supply h, rfl⟩
    · rw [List.drop_left, List.mem_singleton] at h
      cases h
    · rw [List.drop_length] at h
      cases h

/-- What a failed load leaves behind: the declarations in front of the repeated one, all imports and all
candidates of the file. The table is what it was exactly if the first declaration of the file is already the
repeated one and the file has neither imports nor candidates. -/
theorem failed_load_intact_iff (resolver : Resolver) (module : ModulePath) (failure : Failure)
    (h : ⟨module.display, .moduleNotExtracted failure⟩ ∈ resolver.reportsOf module) :
    ∃ file before repeated after,
      resolver.loader.find? module = some (.ok file) ∧
      declarationsIn file = before ++ repeated :: after ∧ resolver.table.Admits before ∧
      (repeated.name ∈ before.map Declaration.name ∨ resolver.table.contains repeated.name) ∧
      (resolver.ensureModule module).table.declarations =
        (before.foldl Table.including resolver.table).declarations ∧
      (∀ scope, (resolver.ensureModule module).table.imports scope =
        resolver.table.imports scope ++ importsIn file scope) ∧
      (resolver.ensureModule module).table.candidates = resolver.table.candidates ++ candidatesIn file ∧
      ((resolver.ensureModule module).table.SameContents resolver.table ↔
        before = [] ∧ (∀ scope, importsIn file scope = []) ∧ candidatesIn file = []) := by
  obtain ⟨file, hfile, hfailure, htable⟩ := exists_file_of_reported h
  rw [Extraction.addFile_eq_foldl] at hfailure htable
  have halike := Extraction.foldl_declaredAlike (.refl { table := resolver.table }) (Extraction.events file)
  obtain ⟨before, repeated, after, first, hsplit, hadmits, hfirst, -, hkept⟩ :=
    Extraction.exists_repeated rfl (halike.2.symm.trans hfailure)
  have hdeclarations : (resolver.ensureModule module).table.declarations =
      (before.foldl Table.including resolver.table).declarations := by
    rw [htable, halike.1, hkept]
  have himports (scope : ModulePath) : (resolver.ensureModule module).table.imports scope =
      resolver.table.imports scope ++ importsIn file scope := by
    rw [htable]
    exact Extraction.imports_foldl _ _ scope
  have hcandidates : (resolver.ensureModule module).table.candidates =
      resolver.table.candidates ++ candidatesIn file := by
    rw [htable]
    exact Extraction.candidates_foldl _ _
  refine ⟨file, before, repeated, after, hfile, hsplit, hadmits, ?_, hdeclarations, himports, hcandidates, ?_, ?_⟩
  · rcases hfirst with ⟨hmem, hname⟩ | hfirst
    · exact .inl (hname ▸ List.mem_map_of_mem hmem)
    · exact .inr (by rw [Table.contains, hfirst, Option.isSome_some])
  · intro hsame
    have hsize := hadmits.size_foldl
    rw [Table.size, ← hdeclarations, hsame.declarations, Table.size, Nat.left_eq_add, List.length_eq_zero_iff]
      at hsize
    refine ⟨hsize, fun scope => ?_, ?_⟩
    · exact List.self_eq_append_right.mp ((hsame.imports scope).symm.trans (himports scope))
    · exact List.self_eq_append_right.mp (hsame.candidates.symm.trans hcandidates)
  · rintro ⟨rfl, hnone, hnone'⟩
    refine ⟨hdeclarations, fun scope => ?_, ?_⟩
    · rw [himports, hnone, List.append_nil]
    · rw [hcandidates, hnone', List.append_nil]

/-- A type in the module of its own file. -/
def shelfFile : File where
  path := "src/stock/shelf.rs"
  module := ⟨["stock", "shelf"]⟩
  content.attributes := []
  content.items := [.struct ⟨"Shelf", [], []⟩ .unit]

/-- The file of the module around it, which declares the same type inline. -/
def stockFile : File where
  path := "src/stock.rs"
  module := ⟨["stock"]⟩
  content.attributes := []
  content.items := [.module "shelf" [.struct ⟨"Shelf", [], []⟩ .unit, .struct ⟨"Drawer", [], []⟩ .unit]]

/-- A resolver that knows the inner module and can load the outer one. -/
def shelfResolver : Resolver where
  table := (Extraction.ofFiles [shelfFile]).table
  loader := ⟨[(⟨["stock"]⟩, .ok stockFile)]⟩

/-- The first declaration of the file is the repeated one, and nothing of the file stays. -/
theorem failed_load_intact_iff_shelf :
    ⟨"crate::stock", .moduleNotExtracted
      (.redeclaration "crate::stock::shelf::Shelf" "src/stock/shelf.rs" "src/stock.rs")⟩ ∈
        shelfResolver.reportsOf ⟨["stock"]⟩ ∧
    (shelfResolver.ensureModule ⟨["stock"]⟩).table.SameContents shelfResolver.table := by
  have hreported : ⟨"crate::stock", .moduleNotExtracted
      (.redeclaration "crate::stock::shelf::Shelf" "src/stock/shelf.rs" "src/stock.rs")⟩ ∈
        shelfResolver.reportsOf ⟨["stock"]⟩ := by
    decide +kernel
  obtain ⟨file, before, repeated, after, hfile, hsplit, hadmits, -, -, -, -, hiff⟩ :=
    failed_load_intact_iff shelfResolver ⟨["stock"]⟩ _ hreported
  have hstock : file = stockFile := (Except.ok.inj (Option.some.inj hfile)).symm
  subst hstock
  refine ⟨hreported, hiff.mpr ⟨?_, fun scope => ?_, by decide +kernel⟩⟩
  · cases before with
    | nil => rfl
    | cons first rest =>
      have hname : (declarationsIn stockFile).head?.map Declaration.name =
          some ⟨⟨["stock", "shelf"]⟩, "Shelf"⟩ := by
        decide +kernel
      rw [hsplit, List.cons_append, List.head?_cons, Option.map_some, Option.some_inj] at hname
      have hknown : shelfResolver.table.contains first.name = true := hname ▸ by decide +kernel
      rw [Table.contains, hadmits.new first List.mem_cons_self] at hknown
      cases hknown
  · have hscopes : (Extraction.events stockFile).filterMap Extraction.Event.scope? =
        [(⟨["stock"]⟩, []), (⟨["stock", "shelf"]⟩, [])] := by
      decide +kernel
    simp [importsIn, hscopes]

/-- A file that repeats its own first declaration at its end, with an import and an operation after it. -/
def modelsFile : File where
  path := "src/models.rs"
  module := ⟨["models"]⟩
  content.attributes := []
  content.items :=
    [.struct ⟨"Pet", [], []⟩ .unit, .struct ⟨"Owner", [], []⟩ .unit, .struct ⟨"Pet", [], []⟩ .unit,
     .use (.path "crate" (.path "other" (.name "Thing"))),
     .function ⟨"list", [⟨some "doc", .text "openapi:operation GET /pets list"⟩]⟩]

/-- An empty table and the module to be loaded. -/
def modelsResolver : Resolver where
  table := {}
  loader := ⟨[(⟨["models"]⟩, .ok modelsFile)]⟩

/-- A module that is reported as not extracted leaves declarations, imports and candidates in the table. -/
theorem failed_load_leaves_traces :
    ⟨"crate::models", .moduleNotExtracted
      (.redeclaration "crate::models::Pet" "src/models.rs" "src/models.rs")⟩ ∈
        modelsResolver.reportsOf ⟨["models"]⟩ ∧
    (modelsResolver.ensureModule ⟨["models"]⟩).table.names =
      [⟨⟨["models"]⟩, "Owner"⟩, ⟨⟨["models"]⟩, "Pet"⟩] ∧
    (modelsResolver.ensureModule ⟨["models"]⟩).table.imports ⟨["models"]⟩ =
      [⟨"Thing", ["crate", "other", "Thing"], false⟩] ∧
    (modelsResolver.ensureModule ⟨["models"]⟩).table.candidates.map Candidate.subject = ["list"] ∧
    ¬ (modelsResolver.ensureModule ⟨["models"]⟩).table.SameContents modelsResolver.table := by
  have hcandidates : (modelsResolver.ensureModule ⟨["models"]⟩).table.candidates.map Candidate.subject =
      ["list"] := by
    decide +kernel
  refine ⟨by decide +kernel, by decide +kernel, by decide +kernel, hcandidates, fun hsame => ?_⟩
  rw [hsame.candidates] at hcandidates
  cases hcandidates

end Resolver

end ApiScribe
