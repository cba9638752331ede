import ApiScribe.Proofs.Registry.Growth

/-!
# Room in the registry

A name enters the index once, and an alias is expanded only while it is not being expanded already. The
room of a registry counts the names that can still enter either, among all names that can ever be
declared; building and expanding use it up.
-/

namespace ApiScribe

/-- Counting by a stricter test counts less if it fails an entry that passed. -/
theorem countP_lt_countP {α : Type} {strict lenient : α → Bool} {entries : List α} {entry : α}
    (h : ∀ other ∈ entries, strict other = true → lenient other = true) (hentry : entry ∈ entries)
    (hlenient : lenient entry = true) (hstrict : strict entry = false) :
    entries.countP strict < entries.countP lenient := by
  induction entries with
  | nil => cases hentry
  | cons first rest ih =>
    have hrest : rest.countP strict ≤ rest.countP lenient :=
      List.countP_mono_left fun other hother => h other (List.mem_cons_of_mem _ hother)
    rcases List.mem_cons.mp hentry with rfl | hmem
    · rw [List.countP_cons_of_neg (by simp [hstrict]), List.countP_cons_of_pos hlenient]
      omega
    · have hlt := ih (fun other hother => h other (List.mem_cons_of_mem _ hother)) hmem
      by_cases hfirst : strict first = true
      · rw [List.countP_cons_of_pos hfirst, List.countP_cons_of_pos (h first List.mem_cons_self hfirst)]
        omega
      · rw [List.countP_cons_of_neg hfirst, List.countP_cons]
        omega

namespace Registry

/-- The names that can ever be declared from here on. -/
def declarable (registry : Registry) : List QualifiedName :=
  registry.table.names ++ registry.resolver.loader.names

/-- There are as many declarable names as the bound says. -/
theorem length_declarable (registry : Registry) : registry.declarable.length = registry.nameBound := by
  rw [declarable, List.length_append, Loader.length_names, Table.names, List.length_map]
  rfl

/-- How many names have no component yet, and how many are not being expanded. -/
def room (names : List QualifiedName) (registry : Registry) : Nat :=
  names.countP (fun name => (registry.indexOf? name).isNone) +
    names.countP fun name => !registry.expanding.contains name

/-- All names are among those given, and a depth exceeds the room that is left. -/
structure Fits (names : List QualifiedName) (depth : Nat) (registry : Registry) : Prop where
  declarable : registry.declarable ⊆ names
  room : registry.room names < depth

variable {names : List QualifiedName} {depth : Nat}

/-- Any registry fits the depth that the number of its names allows. -/
theorem fits_declarable (registry : Registry) :
    registry.Fits registry.declarable (2 * registry.nameBound + 2) where
  declarable := fun _ h => h
  room := by
    have hindex := List.countP_le_length (p := fun name => (registry.indexOf? name).isNone)
      (l := registry.declarable)
    have hexpanding := List.countP_le_length (p := fun name => !registry.expanding.contains name)
      (l := registry.declarable)
    rw [length_declarable] at hindex hexpanding
    unfold Registry.room
    omega

/-- A declared name is among those given. -/
theorem Fits.mem_of_get? {registry : Registry} (h : registry.Fits names depth) {name : QualifiedName}
    {declaration : Declaration} (hget : registry.table.get? name = some declaration) : name ∈ names := by
  apply h.declarable
  refine List.mem_append_left _ ((Table.contains_iff_mem_names registry.table name).mp ?_)
  rw [Table.contains, hget]
  rfl

/-- Nothing becomes declarable that was not. -/
theorem Grows.declarable_subset {first last : Registry} (h : Grows first last) :
    last.declarable ⊆ first.declarable := by
  intro name hname
  rw [declarable, List.mem_append] at hname ⊢
  rcases hname with hname | hname
  · exact h.declared name hname
  · exact .inr (h.loader ▸ hname)

/-- A registry that grows still fits. -/
theorem Fits.grows {first last : Registry} (h : first.Fits names depth) (hgrows : Grows first last) :
    last.Fits names depth where
  declarable := List.Subset.trans hgrows.declarable_subset h.declarable
  room := by
    refine Nat.lt_of_le_of_lt ?_ h.room
    unfold Registry.room
    rw [hgrows.expanding]
    refine Nat.add_le_add_right (List.countP_mono_left fun name _ hnone => ?_) _
    by_contra hsome
    obtain ⟨id, hid⟩ := Option.ne_none_iff_exists'.mp fun heq => hsome (Option.isNone_iff_eq_none.mpr heq)
    rw [hgrows.indexed name id hid] at hnone
    cases hnone

/-- Taking a place for a declared name uses up room. -/
theorem Fits.opened {registry : Registry} (h : registry.Fits names (depth + 1)) {name : QualifiedName}
    (component : String) (hname : name ∈ names) (hnew : registry.indexOf? name = none) :
    (registry.opened name component).Fits names depth where
  declarable := h.declarable
  room := by
    have hlt : (names.countP fun other => ((registry.opened name component).indexOf? other).isNone) <
        names.countP fun other => (registry.indexOf? other).isNone := by
      refine countP_lt_countP (fun other _ hother => ?_) hname (by simp [hnew]) (by simp [indexOf?_opened])
      rw [indexOf?_opened] at hother
      split at hother
      · cases hother
      · exact hother
    have hroom := h.room
    unfold Registry.room at hroom
    change (names.countP fun other => ((registry.opened name component).indexOf? other).isNone) +
      (names.countP fun other => !registry.expanding.contains other) < depth
    omega

/-- Expanding a declared name that is not being expanded uses up room. -/
theorem Fits.expanded {registry : Registry} (h : registry.Fits names (depth + 1)) {name : QualifiedName}
    (hname : name ∈ names) (hnew : registry.expanding.contains name = false) :
    Fits names depth { registry with expanding := name :: registry.expanding } where
  declarable := h.declarable
  room := by
    have hlt : (names.countP fun other => !(name :: registry.expanding).contains other) <
        names.countP fun other => !registry.expanding.contains other := by
      refine countP_lt_countP (fun other _ hother => ?_) hname (by simpa using hnew) (by simp)
      simp only [List.contains_cons, Bool.not_or, Bool.and_eq_true] at hother
      exact hother.2
    have hroom := h.room
    unfold Registry.room at hroom
    change (names.countP fun other => (registry.indexOf? other).isNone) +
      (names.countP fun other => !(name :: registry.expanding).contains other) < depth
    omega

end Registry

end ApiScribe
