import ApiScribe.Text.Order
import Mathlib.Data.Char
import Mathlib.Data.List.Perm.Basic
import Mathlib.Tactic.WLOG

/-!
# Sorted entries

Storing entries one by one under distinct keys keeps all of them: the sorted list is a rearrangement
of what was stored. For this the comparison only has to tell different keys apart. Where it is also
transitive, entries under distinct keys can be stored in any order. The comparison of texts is both.
-/

namespace ApiScribe.Text

variable {κ α : Type} {cmp : κ → κ → Ordering}

/-- Lists compare as equal exactly when they are, if their items do. -/
theorem compareLists_eq_iff {cmp : α → α → Ordering} (h : ∀ a b, cmp a b = .eq ↔ a = b) (as bs : List α) :
    compareLists cmp as bs = .eq ↔ as = bs := by
  induction as generalizing bs with
  | nil => cases bs <;> simp [compareLists]
  | cons a as ih =>
    cases bs with
    | nil => simp [compareLists]
    | cons b bs =>
      rw [compareLists, List.cons.injEq, ← ih bs, ← h a b]
      cases cmp a b <;> simp

/-- Texts compare as equal exactly when they are. -/
theorem compareText_eq_iff (a b : String) : compareText a b = .eq ↔ a = b := by
  have hchars (c d : Char) : compare c.toNat d.toNat = .eq ↔ c = d := by
    rw [compare_eq_iff_eq, Char.toNat_inj]
  rw [compareText, compareLists_eq_iff hchars, String.toList_inj]

/-- The comparison of lists is the lexicographic one. -/
theorem compareLists_eq_compareLex (cmp : α → α → Ordering) (as bs : List α) :
    compareLists cmp as bs = List.compareLex cmp as bs := by
  induction as generalizing bs with
  | nil => cases bs <;> rfl
  | cons a as ih =>
    cases bs with
    | nil => rfl
    | cons b bs =>
      rw [compareLists, List.compareLex_cons_cons, ih bs]
      cases cmp a b <;> rfl

instance [Std.TransCmp cmp] : Std.TransCmp (compareLists cmp) := by
  have heq : compareLists cmp = List.compareLex cmp :=
    funext fun as => funext fun bs => compareLists_eq_compareLex cmp as bs
  rw [heq]
  infer_instance

/-- Comparing values by a key is transitive if comparing keys is. -/
theorem transCmp_comap [Std.TransCmp cmp] (key : α → κ) : Std.TransCmp fun a b => cmp (key a) (key b) where
  eq_swap := Std.OrientedCmp.eq_swap
  isLE_trans := Std.TransCmp.isLE_trans

instance : Std.TransCmp compareText := by
  have hchars : Std.TransCmp fun c d : Char => compare c.toNat d.toNat := transCmp_comap Char.toNat
  exact transCmp_comap String.toList

/-- An entry of a list after storing is the one stored or was there before. -/
theorem mem_of_mem_insertSorted {key : κ} {value : α} {entries : List (κ × α)} {entry : κ × α}
    (h : entry ∈ insertSorted cmp key value entries) : entry = (key, value) ∨ entry ∈ entries := by
  induction entries with
  | nil => exact .inl (List.mem_singleton.mp h)
  | cons first rest ih =>
    unfold insertSorted at h
    split at h
    · exact List.mem_cons.mp h
    · exact (List.mem_cons.mp h).imp id (List.mem_cons_of_mem _)
    · rcases List.mem_cons.mp h with rfl | h
      · exact .inr List.mem_cons_self
      · exact (ih h).imp id (List.mem_cons_of_mem _)

/-- Storing an entry under a new key only puts it in its place. -/
theorem insertSorted_perm (hcmp : ∀ a b, cmp a b = .eq → a = b) {key : κ} (value : α)
    {entries : List (κ × α)} (hnew : key ∉ entries.map Prod.fst) :
    (insertSorted cmp key value entries).Perm ((key, value) :: entries) := by
  induction entries with
  | nil => exact List.Perm.refl _
  | cons first rest ih =>
    rw [List.map_cons, List.mem_cons, not_or] at hnew
    unfold insertSorted
    split
    · exact List.Perm.refl _
    · next heq => exact absurd (hcmp _ _ heq) hnew.1
    · exact ((ih hnew.2).cons first).trans (List.Perm.swap _ _ _)

/-- A stored entry is found under its key. -/
theorem find?_insertSorted_self [DecidableEq κ] (hcmp : ∀ a b, cmp a b = .eq ↔ a = b) (key : κ) (value : α)
    (entries : List (κ × α)) :
    ((insertSorted cmp key value entries).find? fun entry => entry.1 = key) = some (key, value) := by
  induction entries with
  | nil => simp [insertSorted]
  | cons first rest ih =>
    unfold insertSorted
    split
    · simp
    · simp
    · next horder =>
      have hne : first.1 ≠ key := by
        intro heq
        rw [(hcmp key first.1).mpr heq.symm] at horder
        cases horder
      rw [List.find?_cons_of_neg (by simpa using hne), ih]

/-- Storing an entry leaves the entries of other keys. -/
theorem find?_insertSorted_of_ne [DecidableEq κ] (hcmp : ∀ a b, cmp a b = .eq → a = b) {key other : κ}
    (value : α) (h : key ≠ other) (entries : List (κ × α)) :
    ((insertSorted cmp key value entries).find? fun entry => entry.1 = other) =
      entries.find? fun entry => entry.1 = other := by
  induction entries with
  | nil => simp [insertSorted, h]
  | cons first rest ih =>
    unfold insertSorted
    split
    · simp [h]
    · next heq => simp [← hcmp _ _ heq, h]
    · rw [List.find?_cons, List.find?_cons, ih]

/-- Storing entries under distinct keys keeps all of them. -/
theorem foldl_insertSorted_perm {ι : Type} (hcmp : ∀ a b, cmp a b = .eq → a = b) (key : ι → κ)
    (value : ι → α) (items : List ι) (sorted : List (κ × α))
    (h : (sorted.map Prod.fst ++ items.map key).Nodup) :
    (items.foldl (fun sorted item => insertSorted cmp (key item) (value item) sorted) sorted).Perm
      (sorted ++ items.map fun item => (key item, value item)) := by
  induction items generalizing sorted with
  | nil => simp
  | cons item rest ih =>
    have hnew : key item ∉ sorted.map Prod.fst := fun hmem =>
      (List.nodup_append.mp h).2.2 _ hmem _ List.mem_cons_self rfl
    have hstored := insertSorted_perm hcmp (value item) hnew
    have hkeys : ((insertSorted cmp (key item) (value item) sorted).map Prod.fst ++ rest.map key).Nodup := by
      refine (List.Perm.nodup_iff ?_).mpr h
      exact ((hstored.map Prod.fst).append_right _).trans List.perm_middle.symm
    exact ((ih _ hkeys).trans (hstored.append_right _)).trans List.perm_middle.symm

/-- An entry whose key comes after all others is stored at the end. -/
theorem insertSorted_of_last [Std.OrientedCmp cmp] {key : κ} (value : α) {entries : List (κ × α)}
    (h : ∀ entry ∈ entries, cmp entry.1 key = .lt) :
    insertSorted cmp key value entries = entries ++ [(key, value)] := by
  induction entries with
  | nil => rfl
  | cons first rest ih =>
    rw [List.forall_mem_cons] at h
    have hgt : cmp key first.1 = .gt := Std.OrientedCmp.gt_iff_lt.mpr h.1
    rw [insertSorted, hgt, ih h.2, List.cons_append]

/-- Entries in ascending order of their keys are stored as they are. -/
theorem foldl_insertSorted_of_ascending [Std.OrientedCmp cmp] {entries : List (κ × α)}
    (h : (entries.map Prod.fst).Pairwise fun a b => cmp a b = .lt) :
    entries.foldl (fun sorted entry => insertSorted cmp entry.1 entry.2 sorted) [] = entries := by
  have hstored (sorted rest : List (κ × α))
      (h : ((sorted ++ rest).map Prod.fst).Pairwise fun a b => cmp a b = .lt) :
      rest.foldl (fun sorted entry => insertSorted cmp entry.1 entry.2 sorted) sorted = sorted ++ rest := by
    induction rest generalizing sorted with
    | nil => simp
    | cons first rest ih =>
      have hlast : ∀ entry ∈ sorted, cmp entry.1 first.1 = .lt := by
        rw [List.map_append, List.pairwise_append] at h
        exact fun entry hentry => h.2.2 _ (List.mem_map_of_mem hentry) _ List.mem_cons_self
      rw [List.foldl_cons, insertSorted_of_last first.2 hlast, ih _ (by simpa using h), List.append_assoc,
        List.singleton_append]
  exact hstored [] entries h

/-- The keys after storing are those before and the one stored. -/
theorem mem_keys_insertSorted (hcmp : ∀ a b, cmp a b = .eq → a = b) (key : κ) (value : α)
    (entries : List (κ × α)) (other : κ) :
    other ∈ (insertSorted cmp key value entries).map Prod.fst ↔ other = key ∨ other ∈ entries.map Prod.fst := by
  induction entries with
  | nil => simp [insertSorted]
  | cons first rest ih =>
    unfold insertSorted
    split
    · simp
    · next heq => simp [hcmp _ _ heq]
    · rw [List.map_cons, List.mem_cons, ih, List.map_cons, List.mem_cons]
      exact or_left_comm

/-- Storing an entry keeps the keys in ascending order. -/
theorem insertSorted_ascending [Std.TransCmp cmp] (hcmp : ∀ a b, cmp a b = .eq → a = b) (key : κ) (value : α)
    {entries : List (κ × α)} (h : (entries.map Prod.fst).Pairwise fun a b => cmp a b = .lt) :
    ((insertSorted cmp key value entries).map Prod.fst).Pairwise fun a b => cmp a b = .lt := by
  induction entries with
  | nil => simp [insertSorted]
  | cons first rest ih =>
    have hfirst := List.pairwise_cons.mp h
    unfold insertSorted
    split
    · next hlt =>
      refine List.pairwise_cons.mpr ⟨fun other hother => ?_, h⟩
      rcases List.mem_cons.mp hother with rfl | hother
      · exact hlt
      · exact Std.TransCmp.lt_trans hlt (hfirst.1 other hother)
    · next heq =>
      rw [List.map_cons, hcmp _ _ heq]
      exact h
    · next hgt =>
      refine List.pairwise_cons.mpr ⟨fun other hother => ?_, ih hfirst.2⟩
      rcases (mem_keys_insertSorted hcmp key value rest other).mp hother with rfl | hother
      · exact Std.OrientedCmp.gt_iff_lt.mp hgt
      · exact hfirst.1 other hother

/-- Of two entries stored under one key the later counts. -/
theorem insertSorted_self (hcmp : ∀ a b, cmp a b = .eq ↔ a = b) (key : κ) (old new : α)
    (entries : List (κ × α)) :
    insertSorted cmp key new (insertSorted cmp key old entries) = insertSorted cmp key new entries := by
  have hself : cmp key key = .eq := (hcmp key key).mpr rfl
  induction entries with
  | nil => simp [insertSorted, hself]
  | cons first rest ih => cases h : cmp key first.1 <;> simp [insertSorted, h, hself, ih]

/-- Two entries under distinct keys can be stored in either order. -/
theorem insertSorted_comm [Std.TransCmp cmp] (hcmp : ∀ a b, cmp a b = .eq → a = b) {key key' : κ}
    (h : key ≠ key') (value value' : α) (entries : List (κ × α)) :
    insertSorted cmp key value (insertSorted cmp key' value' entries) =
      insertSorted cmp key' value' (insertSorted cmp key value entries) := by
  wlog hlt : cmp key key' = .lt generalizing key key' value value' with hother
  · refine (hother (Ne.symm h) value' value ?_).symm
    rw [← Std.OrientedCmp.gt_iff_lt]
    cases horder : cmp key key' with
    | lt => exact absurd horder hlt
    | eq => exact absurd (hcmp _ _ horder) h
    | gt => rfl
  have hgt : cmp key' key = .gt := Std.OrientedCmp.gt_iff_lt.mpr hlt
  -- The smaller key finds its place no later than the larger one does, whatever the entries are.
  induction entries with
  | nil => simp [insertSorted, hlt, hgt]
  | cons first rest ih =>
    cases hfirst : cmp key' first.1 with
    | gt => cases hkey : cmp key first.1 <;> simp [insertSorted, hfirst, hkey, hgt, ih]
    | lt =>
      have hkey : cmp key first.1 = .lt := Std.TransCmp.lt_trans hlt hfirst
      simp [insertSorted, hfirst, hkey, hlt, hgt]
    | eq =>
      have hkey : cmp key first.1 = .lt := hcmp _ _ hfirst ▸ hlt
      simp [insertSorted, hfirst, hkey, hlt, hgt]

end ApiScribe.Text
