import ApiScribe.Overlay
import Mathlib.Data.List.Basic

/-!
# JSON pointers and local references

A pointer is a sequence of tokens with a slash in front of each; in a token a tilde is written `~0` and a slash
`~1`. Reading a pointer undoes this, so it gives tokens exactly if the pointer is written from them. A local
reference is `#` and a pointer. As a fragment of a URI the pointer is written in a few ASCII characters, all others
percent-encoded as the bytes of their UTF-8 form.
-/

namespace ApiScribe.Pointer

/-- A character of a token in its written form. -/
def escapeChar (c : Char) : List Char :=
  if c = '~' then ['~', '0'] else if c = '/' then ['~', '1'] else [c]

/-- The text up to the first slash and the tokens behind it, with what is escaped restored. -/
def parts? : List Char → Option (List Char × List (List Char))
  | [] => some ([], [])
  | '~' :: '0' :: rest => (parts? rest).map fun parts => ('~' :: parts.1, parts.2)
  | '~' :: '1' :: rest => (parts? rest).map fun parts => ('/' :: parts.1, parts.2)
  | '~' :: _ => none
  | '/' :: rest => (parts? rest).map fun parts => ([], parts.1 :: parts.2)
  | c :: rest => (parts? rest).map fun parts => (c :: parts.1, parts.2)

/-- The tokens of a pointer; there is nothing before the first slash. -/
def tokens? (pointer : String) : Option (List String) :=
  match parts? pointer.toList with
  | some ([], tokens) => some (tokens.map String.ofList)
  | _ => none

/-- Tokens in their written form, with a slash in front of each. -/
def writtenTokens (tokens : List (List Char)) : List Char :=
  tokens.flatMap fun token => '/' :: token.flatMap escapeChar

/-- An escaped character is read back. -/
theorem parts?_escapeChar (c : Char) (cs : List Char) :
    parts? (escapeChar c ++ cs) = (parts? cs).map fun parts => (c :: parts.1, parts.2) := by
  by_cases htilde : c = '~'
  · subst htilde
    rfl
  by_cases hslash : c = '/'
  · subst hslash
    rfl
  · rw [escapeChar, if_neg htilde, if_neg hslash, List.singleton_append]
    rw [parts?.eq_def]
    split <;> simp_all

/-- Reading restores what was written. -/
theorem parts?_written (first : List Char) (tokens : List (List Char)) :
    parts? (first.flatMap escapeChar ++ writtenTokens tokens) = some (first, tokens) := by
  induction tokens generalizing first with
  | nil =>
    induction first with
    | nil => rfl
    | cons c first ih => rw [List.flatMap_cons, List.append_assoc, parts?_escapeChar, ih, Option.map_some]
  | cons token tokens ihtokens =>
    induction first with
    | nil =>
      have hnext := congrArg (Option.map fun parts => (([] : List Char), parts.1 :: parts.2)) (ihtokens token)
      exact hnext
    | cons c first ih => rw [List.flatMap_cons, List.append_assoc, parts?_escapeChar, ih, Option.map_some]

/-- What can be read was written so. -/
theorem written_of_parts? {cs first : List Char} {tokens : List (List Char)}
    (h : parts? cs = some (first, tokens)) : cs = first.flatMap escapeChar ++ writtenTokens tokens := by
  fun_induction parts? cs generalizing first tokens with
  | case1 =>
    cases h
    rfl
  | case2 rest ih =>
    obtain ⟨parts, hparts, heq⟩ := Option.map_eq_some_iff.mp h
    cases heq
    exact congrArg (escapeChar '~' ++ ·) (ih hparts)
  | case3 rest ih =>
    obtain ⟨parts, hparts, heq⟩ := Option.map_eq_some_iff.mp h
    cases heq
    exact congrArg (escapeChar '/' ++ ·) (ih hparts)
  | case4 => cases h
  | case5 rest ih =>
    obtain ⟨parts, hparts, heq⟩ := Option.map_eq_some_iff.mp h
    cases heq
    exact congrArg ('/' :: ·) (ih hparts)
  | case6 c rest hzero hone htilde hslash ih =>
    obtain ⟨parts, hparts, heq⟩ := Option.map_eq_some_iff.mp h
    cases heq
    have hc : escapeChar c = [c] := by
      rw [escapeChar, if_neg htilde, if_neg hslash]
    rw [List.flatMap_cons, hc, List.append_assoc, ← ih hparts]
    rfl

/-- A text has parts exactly if it is written from them. -/
theorem parts?_eq_some_iff {cs first : List Char} {tokens : List (List Char)} :
    parts? cs = some (first, tokens) ↔ cs = first.flatMap escapeChar ++ writtenTokens tokens :=
  ⟨written_of_parts?, fun h => h ▸ parts?_written first tokens⟩

/-- A token is escaped character by character. -/
theorem toList_escapeToken (key : String) : (Overlay.escapeToken key).toList = key.toList.flatMap escapeChar := by
  unfold Overlay.escapeToken Text.replaceChar
  simp only [String.toList_ofList, List.flatMap_assoc]
  refine List.flatMap_congr fun c _ => ?_
  by_cases htilde : c = '~'
  · subst htilde
    rfl
  by_cases hslash : c = '/'
  · subst hslash
    rfl
  · simp [escapeChar, htilde, hslash]

/-- The pointers of members are written from their keys. -/
theorem toList_foldl_childPointer (tokens : List String) (pointer : String) :
    (tokens.foldl Overlay.childPointer pointer).toList =
      pointer.toList ++ writtenTokens (tokens.map String.toList) := by
  induction tokens generalizing pointer with
  | nil => exact (List.append_nil _).symm
  | cons token tokens ih =>
    rw [List.foldl_cons, ih, Overlay.childPointer, String.toList_append, String.toList_append, toList_escapeToken,
      List.map_cons, writtenTokens, writtenTokens, List.flatMap_cons, List.append_assoc, List.append_assoc]
    rfl

/-- A pointer has tokens exactly if it is the pointer of a member of a member, and so on, under these keys. -/
theorem tokens?_eq_some_iff {pointer : String} {tokens : List String} :
    tokens? pointer = some tokens ↔ pointer = tokens.foldl Overlay.childPointer "" := by
  have hwritten : pointer = tokens.foldl Overlay.childPointer "" ↔
      parts? pointer.toList = some ([], tokens.map String.toList) := by
    rw [parts?_eq_some_iff, ← String.toList_inj, toList_foldl_childPointer]
    rfl
  rw [hwritten, tokens?]
  split
  · next read hread =>
    rw [hread, Option.some.injEq, Option.some.injEq, Prod.mk.injEq, and_iff_right rfl]
    constructor
    · rintro rfl
      simp [Function.comp_def]
    · rintro rfl
      simp [Function.comp_def]
  · next hread => exact ⟨fun h => (by cases h), fun h => absurd h (hread _)⟩

/-- A text is written as it is exactly if there is nothing to escape in it; otherwise it gets longer. -/
theorem length_flatMap_escapeChar (cs : List Char) :
    cs.length ≤ (cs.flatMap escapeChar).length ∧
      ((cs.flatMap escapeChar).length = cs.length → ∀ c ∈ cs, c ≠ '/' ∧ c ≠ '~') := by
  induction cs with
  | nil => simp
  | cons c cs ih =>
    obtain ⟨hle, hplain⟩ := ih
    rw [List.flatMap_cons, List.length_append, List.length_cons]
    by_cases hc : c = '~' ∨ c = '/'
    · have hlength : (escapeChar c).length = 2 := by rcases hc with rfl | rfl <;> rfl
      omega
    · rw [not_or] at hc
      rw [escapeChar, if_neg hc.1, if_neg hc.2, List.length_singleton, List.forall_mem_cons]
      refine ⟨by omega, fun hlength => ⟨hc.symm, hplain (by omega)⟩⟩

/-- Nothing is escaped in a text without slashes and tildes. -/
theorem flatMap_escapeChar_eq_self {cs : List Char} (h : ∀ c ∈ cs, c ≠ '/' ∧ c ≠ '~') :
    cs.flatMap escapeChar = cs := by
  induction cs with
  | nil => rfl
  | cons c cs ih =>
    rw [List.forall_mem_cons] at h
    rw [List.flatMap_cons, ih h.2, escapeChar, if_neg h.1.2, if_neg h.1.1]
    rfl

/-- The characters that stand for themselves in a fragment. -/
def isFragmentChar (c : Char) : Bool := c.isAlphanum || "-._~!$&'()*+,;=:@/?".toList.contains c

/-- The value of a hexadecimal digit. -/
def hexValue? (c : Char) : Option Nat :=
  if c.isDigit then some (c.toNat - '0'.toNat)
  else if 'a' ≤ c && c ≤ 'f' then some (c.toNat - 'a'.toNat + 10)
  else if 'A' ≤ c && c ≤ 'F' then some (c.toNat - 'A'.toNat + 10)
  else none

/-- The bytes of a fragment, with what is percent-encoded restored. -/
def fragmentBytes? : List Char → Option (List UInt8)
  | [] => some []
  | '%' :: high :: low :: rest =>
    match hexValue? high, hexValue? low with
    | some high, some low => (fragmentBytes? rest).map (UInt8.ofNat (16 * high + low) :: ·)
    | _, _ => none
  | c :: rest => if isFragmentChar c then (fragmentBytes? rest).map (c.val.toUInt8 :: ·) else none

/-- The text of a fragment, whose bytes are its UTF-8 form. -/
def fragmentText? (fragment : String) : Option String :=
  (fragmentBytes? fragment.toList).bind fun bytes => String.fromUTF8? bytes.toByteArray

/-- Bytes decode to the text that they encode. -/
theorem fromUTF8?_eq_some_iff {bytes : List UInt8} {text : String} :
    String.fromUTF8? bytes.toByteArray = some text ↔ bytes = text.toList.flatMap String.utf8EncodeChar := by
  have hencoded : (text.toList.flatMap String.utf8EncodeChar).toByteArray = text.toByteArray :=
    String.utf8Encode_toList
  rw [← List.toByteArray_inj, hencoded, String.fromUTF8?]
  constructor
  · intro h
    split at h
    · cases h
      rfl
    · cases h
  · intro h
    rw [dif_pos (h ▸ text.isValidUTF8), Option.some.injEq]
    exact String.toByteArray_inj.mp h

/-- A fragment is the text whose bytes it has. -/
theorem fragmentText?_eq_some_iff {fragment text : String} :
    fragmentText? fragment = some text ↔
      fragmentBytes? fragment.toList = some (text.toList.flatMap String.utf8EncodeChar) := by
  rw [fragmentText?, Option.bind_eq_some_iff]
  constructor
  · rintro ⟨bytes, hbytes, htext⟩
    rw [hbytes, fromUTF8?_eq_some_iff.mp htext]
  · intro h
    exact ⟨_, h, fromUTF8?_eq_some_iff.mpr rfl⟩

/-- Restoring what is percent-encoded shortens a fragment, unless all characters stand for themselves. -/
theorem length_fragmentBytes? {cs : List Char} {bytes : List UInt8} (h : fragmentBytes? cs = some bytes) :
    bytes.length ≤ cs.length ∧ (bytes.length = cs.length → ∀ c ∈ cs, isFragmentChar c = true) := by
  fun_induction fragmentBytes? cs generalizing bytes with
  | case1 =>
    cases h
    simp
  | case2 high low rest highValue lowValue hhigh hlow ih =>
    obtain ⟨others, hothers, rfl⟩ := Option.map_eq_some_iff.mp h
    have hle := (ih hothers).1
    simp only [List.length_cons]
    omega
  | case3 => cases h
  | case4 c rest hencoded hc ih =>
    obtain ⟨others, hothers, rfl⟩ := Option.map_eq_some_iff.mp h
    obtain ⟨hle, hplain⟩ := ih hothers
    rw [List.length_cons, List.length_cons, List.forall_mem_cons]
    exact ⟨by omega, fun hlength => ⟨hc, hplain (by omega)⟩⟩
  | case5 => cases h

/-- A character that stands for itself is an ASCII character and not the percent sign. -/
theorem utf8EncodeChar_of_isFragmentChar {c : Char} (h : isFragmentChar c = true) :
    String.utf8EncodeChar c = [c.val.toUInt8] ∧ c ≠ '%' := by
  have hascii : c.toNat ≤ 127 := by
    have hmarks : "-._~!$&'()*+,;=:@/?".toList.all (fun mark => mark.toNat ≤ 127) = true := by decide
    simp only [isFragmentChar, Bool.or_eq_true, List.contains_iff_mem] at h
    rcases h with halnum | hmark
    · delta Char.isAlphanum Char.isAlpha Char.isUpper Char.isLower Char.isDigit at halnum
      simp [UInt32.le_iff_toNat_le] at halnum
      omega
    · exact of_decide_eq_true (List.all_eq_true.mp hmarks c hmark)
  refine ⟨String.utf8EncodeChar_eq_singleton (Char.utf8Size_eq_one_iff.mpr ?_), ?_⟩
  · exact UInt32.le_iff_toNat_le.mpr hascii
  · rintro rfl
    exact absurd h (by decide)

/-- Characters that stand for themselves are the bytes of their UTF-8 form. -/
theorem fragmentBytes?_append {front : List Char} (h : ∀ c ∈ front, isFragmentChar c = true) (cs : List Char) :
    fragmentBytes? (front ++ cs) =
      (fragmentBytes? cs).map (front.flatMap String.utf8EncodeChar ++ ·) := by
  induction front with
  | nil => simp
  | cons c front ih =>
    rw [List.forall_mem_cons] at h
    obtain ⟨hencoded, hpercent⟩ := utf8EncodeChar_of_isFragmentChar h.1
    have hstep (rest : List Char) : fragmentBytes? (c :: rest) =
        (fragmentBytes? rest).map (c.val.toUInt8 :: ·) := by
      rw [fragmentBytes?.eq_def]
      split <;> simp_all
    rw [List.cons_append, hstep, ih h.2, List.flatMap_cons, hencoded, Option.map_map]
    rfl

/-- A text has no more characters than bytes. -/
theorem length_le_length_utf8 (cs : List Char) : cs.length ≤ (cs.flatMap String.utf8EncodeChar).length := by
  induction cs with
  | nil => simp
  | cons c cs ih =>
    have hsize := c.utf8Size_pos
    rw [List.flatMap_cons, List.length_append, List.length_cons, String.length_utf8EncodeChar]
    omega

/-- The pointer to what stands under a key, in front of the key. -/
def lead (tokens : List String) : String := tokens.foldl Overlay.childPointer "" ++ "/"

/-- The last token is escaped behind the lead of the others. -/
theorem foldl_childPointer_concat (tokens : List String) (last : String) :
    (tokens ++ [last]).foldl Overlay.childPointer "" = lead tokens ++ Overlay.escapeToken last := by
  rw [List.foldl_append]
  rfl

/-- A last token that is not escaped is read as it is exactly if there is nothing to escape in it. -/
theorem tokens?_lead_append_iff (tokens : List String) (last : String) :
    tokens? (lead tokens ++ last) = some (tokens ++ [last]) ↔ ∀ c ∈ last.toList, c ≠ '/' ∧ c ≠ '~' := by
  rw [tokens?_eq_some_iff, foldl_childPointer_concat, ← String.toList_inj, String.toList_append,
    String.toList_append, List.append_cancel_left_eq, toList_escapeToken]
  constructor
  · intro h
    exact (length_flatMap_escapeChar last.toList).2 (congrArg List.length h.symm)
  · intro h
    exact (flatMap_escapeChar_eq_self h).symm

/-- A last token that is neither escaped nor percent-encoded is read as it is exactly if all its characters stand
for themselves in a fragment and there is nothing to escape. -/
theorem fragment_lead_append_iff {tokens : List String}
    (hlead : ∀ c ∈ (lead tokens).toList, isFragmentChar c = true) (last : String) :
    (fragmentText? (lead tokens ++ last)).bind tokens? = some (tokens ++ [last]) ↔
      ∀ c ∈ last.toList, isFragmentChar c = true ∧ c ≠ '/' ∧ c ≠ '~' := by
  constructor
  · intro h
    obtain ⟨text, htext, htokens⟩ := Option.bind_eq_some_iff.mp h
    -- What is read was written from the tokens, so the last of them is decoded to its escaped form.
    rw [tokens?_eq_some_iff, foldl_childPointer_concat] at htokens
    rw [fragmentText?_eq_some_iff, htokens, String.toList_append, String.toList_append, fragmentBytes?_append hlead,
      List.flatMap_append, toList_escapeToken] at htext
    obtain ⟨bytes, hbytes, happend⟩ := Option.map_eq_some_iff.mp htext
    rw [List.append_cancel_left_eq] at happend
    subst happend
    -- Decoding makes it no longer, and writing it no shorter: nothing was done to it.
    obtain ⟨hdecoded, hplain⟩ := length_fragmentBytes? hbytes
    obtain ⟨hescaped, hnothing⟩ := length_flatMap_escapeChar last.toList
    have hutf8 := length_le_length_utf8 (last.toList.flatMap escapeChar)
    have hchars := hplain (by omega)
    have hkept := hnothing (by omega)
    exact fun c hc => ⟨hchars c hc, hkept c hc⟩
  · intro h
    have hboth : ∀ c ∈ (lead tokens ++ last).toList, isFragmentChar c = true := by
      intro c hc
      rw [String.toList_append, List.mem_append] at hc
      exact hc.elim (hlead c) fun hc => (h c hc).1
    have htext : fragmentText? (lead tokens ++ last) = some (lead tokens ++ last) := by
      have hbytes := fragmentBytes?_append hboth []
      rw [List.append_nil] at hbytes
      rw [fragmentText?_eq_some_iff, hbytes, fragmentBytes?, Option.map_some, List.append_nil]
    rw [htext, Option.bind_some, tokens?_lead_append_iff]
    exact fun c hc => (h c hc).2

/-- The tokens of a local reference, whose pointer is taken as it is. -/
def localTokens? (reference : String) : Option (List String) := (Text.dropLead "#" reference).bind tokens?

/-- The tokens of a local reference, whose pointer is taken as a fragment. -/
def fragmentTokens? (reference : String) : Option (List String) :=
  ((Text.dropLead "#" reference).bind fragmentText?).bind tokens?

end ApiScribe.Pointer
