import ApiScribe.Text.Basic
import Mathlib.Data.List.DropRight

/-!
# Trimming text

Characters are dropped from one end or from both. What is left keeps its first and its last character, and where two
kinds of characters are dropped one after the other, the first kind matters exactly if the text ends in it. What is
left is determined by being what stands between dropped characters, and by beginning and ending with others.
-/

namespace ApiScribe.Text

variable {α : Type} {p : α → Bool}

/-- Nothing is left exactly if all is dropped. -/
theorem stripEnd_eq_nil_iff {cs : List α} : stripEnd p cs = [] ↔ ∀ c ∈ cs, p c = true :=
  List.rdropWhile_eq_nil_iff

/-- What is left stands at the front. -/
theorem stripEnd_isPrefix (p : α → Bool) (cs : List α) : stripEnd p cs <+: cs := List.rdropWhile_prefix p cs

/-- What is cut off at the end is of the kind that is dropped. -/
theorem exists_stripEnd_append (p : α → Bool) (cs : List α) :
    ∃ cut, stripEnd p cs ++ cut = cs ∧ ∀ c ∈ cut, p c = true :=
  ⟨cs.rtakeWhile p, List.rdropWhile_append_rtakeWhile, fun _ => List.mem_rtakeWhile_imp⟩

/-- Nothing is dropped from the end of a text that ends otherwise. -/
theorem stripEnd_eq_self {cs : List α} (h : ∀ c ∈ cs.getLast?, p c = false) : stripEnd p cs = cs := by
  refine List.rdropWhile_eq_self_iff.mpr fun hne => ?_
  rw [h _ (List.getLast?_eq_some_getLast hne)]
  exact Bool.false_ne_true

/-- What is left ends otherwise. -/
theorem eq_false_of_mem_getLast?_stripEnd {cs : List α} {c : α} (h : c ∈ (stripEnd p cs).getLast?) :
    p c = false := by
  obtain ⟨hne, rfl⟩ := List.mem_getLast?_eq_getLast h
  exact Bool.eq_false_iff.mpr (List.rdropWhile_last_not p cs hne)

/-- Dropping at the end keeps the first character. -/
theorem head?_stripEnd {cs : List α} (h : stripEnd p cs ≠ []) : (stripEnd p cs).head? = cs.head? := by
  obtain ⟨rest, hrest⟩ := stripEnd_isPrefix p cs
  conv_rhs => rw [← hrest, List.head?_append_of_ne_nil _ h]

/-- What is left when characters are dropped at the front begins otherwise. -/
theorem eq_false_of_mem_head?_dropWhile {cs : List α} {c : α} (h : c ∈ (cs.dropWhile p).head?) :
    p c = false := by
  have hhead := List.head?_dropWhile_not p cs
  rwa [h] at hhead

/-- Dropping at the front keeps the last character. -/
theorem getLast?_dropWhile {cs : List α} (h : cs.dropWhile p ≠ []) :
    (cs.dropWhile p).getLast? = cs.getLast? := by
  conv_rhs => rw [← List.takeWhile_append_dropWhile (p := p) (l := cs), List.getLast?_append]
  rw [List.getLast?_eq_some_getLast h, Option.some_or]

/-- What begins otherwise stays when something is dropped in front of it. -/
theorem dropWhile_append_of_head {front back : List α} (h : ∀ c ∈ back.head?, p c = false) :
    (front ++ back).dropWhile p = front.dropWhile p ++ back := by
  rw [List.dropWhile_append]
  split
  · next hfront =>
    rw [List.isEmpty_iff.mp hfront, List.nil_append]
    cases back with
    | nil => rfl
    | cons c back => rw [List.dropWhile_cons_of_neg (by simp [h c rfl])]
  · rfl

/-- What ends otherwise stays when something is dropped behind it. -/
theorem stripEnd_append_of_last {front back : List α} (h : ∀ c ∈ front.getLast?, p c = false) :
    stripEnd p (front ++ back) = front ++ stripEnd p back := by
  rw [stripEnd, List.reverse_append, dropWhile_append_of_head (by rwa [List.head?_reverse]), List.reverse_append,
    List.reverse_reverse]
  rfl

/-- What is dropped altogether makes no difference behind a text. -/
theorem stripEnd_append_of_all {front back : List α} (h : ∀ c ∈ back, p c = true) :
    stripEnd p (front ++ back) = stripEnd p front := by
  rw [stripEnd, List.reverse_append, List.dropWhile_append_of_pos (by simpa using h)]
  rfl

/-- It does not matter at which end characters are dropped first. -/
theorem strip_eq_dropWhile_stripEnd (p : α → Bool) (cs : List α) : strip p cs = (stripEnd p cs).dropWhile p := by
  have hall : ∀ c ∈ cs.takeWhile p, p c = true := fun c => List.mem_takeWhile_imp
  have hhead : ∀ c ∈ (cs.dropWhile p).head?, p c = false := fun c => eq_false_of_mem_head?_dropWhile
  conv_rhs => rw [← List.takeWhile_append_dropWhile (p := p) (l := cs)]
  rw [strip]
  generalize cs.takeWhile p = front at hall
  generalize cs.dropWhile p = back at hhead
  cases back with
  | nil => rw [List.append_nil, stripEnd_eq_nil_iff.mpr hall]; rfl
  | cons c back =>
    -- The character in the middle stays, whatever is dropped on either side of it.
    have hc : p c = false := hhead c rfl
    have hback : stripEnd p (c :: back) = [c] ++ stripEnd p back := by
      rw [← List.singleton_append, stripEnd_append_of_last (by simpa using hc)]
    have hwhole : stripEnd p (front ++ c :: back) = front ++ [c] ++ stripEnd p back := by
      rw [List.append_cons, stripEnd_append_of_last (by simpa using hc)]
    rw [hback, hwhole, List.append_assoc, List.dropWhile_append_of_pos hall, List.singleton_append,
      List.dropWhile_cons_of_neg (by simp [hc])]

/-- Dropping at both ends leaves nothing exactly if dropping at the end does. -/
theorem strip_eq_nil_iff (p : α → Bool) (cs : List α) : strip p cs = [] ↔ stripEnd p cs = [] := by
  rw [strip_eq_dropWhile_stripEnd, List.dropWhile_eq_nil_iff]
  refine ⟨fun hall => ?_, fun hnil => by simp [hnil]⟩
  by_contra hne
  exact List.rdropWhile_last_not p cs hne (hall _ (List.getLast_mem hne))

/-- To drop other characters first makes a difference exactly if the text begins with one. -/
theorem dropWhile_dropWhile_iff {q : α → Bool} (hpq : ∀ c, p c = true → q c = false) (cs : List α) :
    cs.dropWhile q = (cs.dropWhile p).dropWhile q ↔ ∀ c ∈ cs.head?, p c = false := by
  cases cs with
  | nil => simp
  | cons c cs =>
    cases hc : p c with
    | false => simp [hc]
    | true =>
      have hshorter : ((cs.dropWhile p).dropWhile q).length < (c :: cs).length :=
        Nat.lt_succ_of_le (((List.dropWhile_sublist _).trans (List.dropWhile_sublist _)).length_le)
      rw [List.dropWhile_cons_of_neg (by simp [hpq c hc]), List.dropWhile_cons_of_pos hc]
      refine ⟨fun heq => absurd (congrArg List.length heq) hshorter.ne', fun h => ?_⟩
      rw [h c rfl] at hc
      cases hc

/-- The same at the end. -/
theorem stripEnd_stripEnd_iff {q : α → Bool} (hpq : ∀ c, p c = true → q c = false) (cs : List α) :
    stripEnd q cs = stripEnd q (stripEnd p cs) ↔ ∀ c ∈ cs.getLast?, p c = false := by
  rw [← List.head?_reverse, ← dropWhile_dropWhile_iff hpq, stripEnd, stripEnd, stripEnd, List.reverse_reverse,
    List.reverse_inj]

/-- What is left of a list whose first items are dropped: the dropped ones satisfy `p`, and the rest begins
otherwise. -/
def TrimsStart (p : α → Bool) (items kept : List α) : Prop :=
  ∃ front, items = front ++ kept ∧ (∀ item ∈ front, p item = true) ∧ ∀ item ∈ kept.head?, p item = false

/-- What is left of a list whose items are dropped at both ends: the dropped ones satisfy `p`, and what is left
neither begins nor ends with such an item. -/
def Trims (p : α → Bool) (items kept : List α) : Prop :=
  ∃ front back, items = front ++ kept ++ back ∧ (∀ item ∈ front ++ back, p item = true) ∧
    (∀ item ∈ kept.head?, p item = false) ∧ ∀ item ∈ kept.getLast?, p item = false

/-- What is left at the front is determined. -/
theorem dropWhile_eq_iff {items kept : List α} : items.dropWhile p = kept ↔ TrimsStart p items kept := by
  constructor
  · rintro rfl
    exact ⟨items.takeWhile p, List.takeWhile_append_dropWhile.symm, fun _ => List.mem_takeWhile_imp,
      fun _ => eq_false_of_mem_head?_dropWhile⟩
  · rintro ⟨front, rfl, hfront, hkept⟩
    rw [dropWhile_append_of_head hkept, List.dropWhile_eq_nil_iff.mpr hfront, List.nil_append]

/-- What is left between the ends is determined. -/
theorem strip_eq_iff {items kept : List α} : strip p items = kept ↔ Trims p items kept := by
  constructor
  · rintro rfl
    obtain ⟨front, hitems, hfront, hhead⟩ := dropWhile_eq_iff.mp (rfl : items.dropWhile p = _)
    obtain ⟨back, hrest, hback⟩ := exists_stripEnd_append p (items.dropWhile p)
    refine ⟨front, back, ?_, ?_, ?_, fun _ => eq_false_of_mem_getLast?_stripEnd⟩
    · rw [strip, List.append_assoc, hrest]
      exact hitems
    · simpa [or_imp, forall_and] using ⟨hfront, hback⟩
    · intro item hitem
      have hne : stripEnd p (items.dropWhile p) ≠ [] := fun hnil => by rw [strip, hnil] at hitem; cases hitem
      rw [strip, head?_stripEnd hne] at hitem
      exact hhead item hitem
  · rintro ⟨front, back, rfl, hall, hhead, hlast⟩
    have hfront : ∀ item ∈ front, p item = true := fun item hitem => hall item (List.mem_append_left _ hitem)
    have hback : ∀ item ∈ back, p item = true := fun item hitem => hall item (List.mem_append_right _ hitem)
    rw [strip, List.append_assoc, List.dropWhile_append_of_pos hfront]
    cases kept with
    | nil =>
      rw [List.nil_append, List.dropWhile_eq_nil_iff.mpr hback]
      rfl
    | cons first kept =>
      rw [List.cons_append, List.dropWhile_cons_of_neg (by simp [hhead first rfl]), ← List.cons_append,
        stripEnd_append_of_all hback, stripEnd_eq_self hlast]

/-- A text is trimmed of characters at both ends. -/
theorem trimOf_eq_iff {q : Char → Bool} {s t : String} : trimOf q s = t ↔ Trims q s.toList t.toList := by
  rw [← strip_eq_iff, trimOf, ← String.toList_inj, String.toList_ofList]

/-- A text is trimmed of blanks at both ends. -/
theorem trim_eq_iff {s t : String} : trim s = t ↔ Trims isBlank s.toList t.toList := trimOf_eq_iff

/-- A text is trimmed of characters at its front. -/
theorem trimStartOf_eq_iff {q : Char → Bool} {s t : String} :
    trimStartOf q s = t ↔ TrimsStart q s.toList t.toList := by
  rw [← dropWhile_eq_iff, trimStartOf, ← String.toList_inj, String.toList_ofList]

end ApiScribe.Text
