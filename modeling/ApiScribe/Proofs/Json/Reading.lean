import ApiScribe.Json.Reader

/-!
# What a JSON text opens with

The first character of a JSON text tells whether it is an array, an object or a string. A string is shorter than the
text that it is read from, since it leaves out the quotes at least.
-/

namespace ApiScribe.Json

/-- Reading four hexadecimal digits uses up characters. -/
theorem length_readHex4 {cs rest : List Char} {n : Nat} (h : readHex4 cs = some (n, rest)) :
    rest.length < cs.length := by
  unfold readHex4 at h
  split at h
  · obtain ⟨_, -, heq⟩ := Option.map_eq_some_iff.mp h
    obtain ⟨-, rfl⟩ := Prod.mk.inj heq
    simp only [List.length_cons]
    omega
  · cases h

section Escapes

variable {read : Option (Option (List Char) × List Char)} {s rest : List Char}

/-- A character in front of a string that is read further on. -/
theorem length_pushChar {c : Char} {room : Nat}
    (h : (do let (tail, rest) ← read; return (pushChar c tail, rest)) = some (some s, rest))
    (hread : ∀ {tail rest}, read = some (some tail, rest) → tail.length + rest.length < room) :
    s.length + rest.length < room + 1 := by
  obtain ⟨⟨tail, after⟩, hafter, hpushed⟩ := Option.bind_eq_some_iff.mp h
  obtain ⟨hs, rfl⟩ := Prod.mk.inj (Option.some.inj hpushed)
  obtain ⟨text, rfl, rfl⟩ := Option.map_eq_some_iff.mp hs
  have hlength := hread hafter
  rw [List.length_cons]
  omega

/-- An unpaired surrogate leaves no string. -/
theorem unpaired_ne_some : (do let (_, rest) ← read; return (none, rest)) ≠ some (some s, rest) := by
  intro h
  obtain ⟨⟨_, after⟩, -, hnone⟩ := Option.bind_eq_some_iff.mp h
  cases hnone

end Escapes

/-- A string is shorter than the text it is read from. -/
theorem length_readString {fuel : Nat} {cs rest s : List Char} (h : readString fuel cs = some (some s, rest)) :
    s.length + rest.length < cs.length := by
  fun_induction readString fuel cs generalizing s rest
  case case1 | case2 | case13 | case14 => cases h
  case case3 =>
    cases h
    simp
  case case4 ih =>
    obtain ⟨⟨n, after⟩, hhex, h⟩ := Option.bind_eq_some_iff.mp h
    have hafter := length_readHex4 hhex
    simp only [List.length_cons]
    dsimp only at h
    split at h
    · split at h
      · next low =>
        obtain ⟨⟨m, beyond⟩, hlow, h⟩ := Option.bind_eq_some_iff.mp h
        have hbeyond := length_readHex4 hlow
        simp only [List.length_cons] at hafter
        dsimp only at h
        split at h
        · have hpushed := length_pushChar h (ih beyond)
          omega
        · exact absurd h unpaired_ne_some
      · exact absurd h unpaired_ne_some
    · split at h
      · exact absurd h unpaired_ne_some
      · have hpushed := length_pushChar h (ih after)
        omega
  case case5 ih | case6 ih | case7 ih | case8 ih | case9 ih | case10 ih | case11 ih | case12 ih =>
    exact Nat.lt_succ_of_lt (length_pushChar h ih)
  case case15 ih => exact length_pushChar h ih

/-- The characters that open an array, an object or a string. -/
def isOpening (c : Char) : Bool := c = '[' || c = '\x7b' || c = '"'

/-- What a tree opens with, if it is an array, an object or a string. -/
def Tree.opening : Tree → Option Char
  | .arr _ => some '['
  | .obj _ => some '\x7b'
  | .str _ => some '"'
  | _ => none

/-- What a value opens with, if it is an array, an object or a string. -/
def Value.opening : Value → Option Char
  | .arr _ => some '['
  | .obj _ => some '\x7b'
  | .str _ => some '"'
  | _ => none

/-- A tree that is read opens as its text does. -/
theorem opening_readTree {fuel : Nat} {cs rest : List Char} {tree : Tree}
    (h : readTree fuel cs = some (tree, rest)) : tree.opening = (skipSpace cs).head?.filter isOpening := by
  cases fuel with
  | zero => cases h
  | succ fuel =>
    unfold readTree at h
    split at h
    · next hcs => cases h; rw [hcs]; rfl
    · next hcs => cases h; rw [hcs]; rfl
    · next hcs => cases h; rw [hcs]; rfl
    · next hcs =>
      obtain ⟨_, -, hread⟩ := Option.map_eq_some_iff.mp h
      cases hread
      rw [hcs]
      rfl
    · next hcs =>
      rw [hcs]
      split at h
      · cases h; rfl
      · obtain ⟨_, -, hread⟩ := Option.map_eq_some_iff.mp h
        cases hread
        rfl
    · next hcs =>
      rw [hcs]
      split at h
      · cases h; rfl
      · obtain ⟨_, -, hread⟩ := Option.map_eq_some_iff.mp h
        cases hread
        rfl
    · next hcs =>
      obtain ⟨_, -, hread⟩ := Option.map_eq_some_iff.mp h
      cases hread
      rw [hcs]
      rfl
    · next hstr harr hobj _ =>
      obtain ⟨_, -, hread⟩ := Option.map_eq_some_iff.mp h
      cases hread
      cases hcs : skipSpace cs with
      | nil => rfl
      | cons c text =>
        have hc : isOpening c = false := by
          simp only [isOpening, Bool.or_eq_false_iff, decide_eq_false_iff_not]
          refine ⟨⟨?_, ?_⟩, ?_⟩
          · rintro rfl; exact harr text hcs
          · rintro rfl; exact hobj text hcs
          · rintro rfl; exact hstr text hcs
        rw [List.head?_cons, Option.filter_some_neg (by simp [hc])]
        rfl

/-- A tree and its value open alike. -/
theorem opening_toValueWithin? {depth : Nat} {tree : Tree} {value : Value}
    (h : tree.toValueWithin? depth = some value) : value.opening = tree.opening := by
  fun_cases Tree.toValueWithin? depth tree
  case case1 | case2 | case3 | case4 | case6 => cases h; rfl
  case case5 | case7 | case8 | case10 => cases h
  case case9 | case11 =>
    obtain ⟨_, -, rfl⟩ := Option.map_eq_some_iff.mp h
    rfl

/-- A value is read through a tree. -/
theorem exists_tree_of_ofText? {text : String} {value : Value} (h : Value.ofText? text = some value) :
    ∃ tree rest, readTree (2 * text.toList.length + 2) text.toList = some (tree, rest) ∧
      tree.toValueWithin? maxDepth = some value := by
  obtain ⟨tree, htree, hvalue⟩ := Option.bind_eq_some_iff.mp h
  unfold Tree.ofText? at htree
  dsimp only at htree
  split at htree
  · next hread =>
    split at htree
    · exact ⟨tree, _, Option.some.inj htree ▸ hread, hvalue⟩
    · cases htree
  · cases htree

/-- The value of a text opens as the text does. -/
theorem opening_ofText? {text : String} {value : Value} (h : Value.ofText? text = some value) :
    value.opening = (skipSpace text.toList).head?.filter isOpening := by
  obtain ⟨tree, rest, hread, hvalue⟩ := exists_tree_of_ofText? h
  rw [opening_toValueWithin? hvalue, opening_readTree hread]

/-- A string that is a whole value is shorter than the text of the value. -/
theorem length_of_readTree {fuel : Nat} {cs rest : List Char} {s : String}
    (h : readTree fuel cs = some (.str (some s), rest)) : s.length < cs.length := by
  have hhead : (skipSpace cs).head? = some '"' :=
    (Option.filter_eq_some_iff.mp (opening_readTree h).symm).1
  obtain ⟨text, hcs⟩ := List.head?_eq_some_iff.mp hhead
  have hspace : (skipSpace cs).length ≤ cs.length := (List.dropWhile_suffix isSpace).length_le
  rw [hcs, List.length_cons] at hspace
  cases fuel with
  | zero => cases h
  | succ fuel =>
    rw [readTree, hcs] at h
    obtain ⟨⟨read, after⟩, hread, heq⟩ := Option.map_eq_some_iff.mp h
    obtain ⟨hs, rfl⟩ := Prod.mk.inj heq
    obtain ⟨chars, rfl, rfl⟩ := Option.map_eq_some_iff.mp (Tree.str.inj hs)
    have hlength := length_readString hread
    rw [String.length_ofList]
    omega

/-- No text is a string that consists of the text itself. -/
theorem ofText?_ne_self (text : String) : Value.ofText? text ≠ some (.str text) := by
  intro h
  obtain ⟨tree, rest, hread, hvalue⟩ := exists_tree_of_ofText? h
  have hopening : tree.opening = some '"' := (opening_toValueWithin? hvalue).symm
  cases tree with
  | str s =>
    cases s with
    | none => cases hvalue
    | some s =>
      cases hvalue
      exact Nat.lt_irrefl _ (length_of_readTree hread)
  | _ => simp [Tree.opening] at hopening

end ApiScribe.Json
