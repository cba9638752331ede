import ApiScribe.Proofs.Text.Cutting
import ApiScribe.Schema.Synthesis
import Mathlib.Data.Char

/-!
# Renaming back and forth

Pascal case is made by cutting a field at its underscores. A single pass over its characters, which remembers only
whether the next letter starts a word, gives the same. Snake case takes each capital back to an underscore and a
small letter, so it undoes Pascal and camel case for identifiers whose words are small letters and digits, joined by
single underscores. The fields of a type that are spelled so stay apart under both rules.
-/

namespace ApiScribe.RenameRule

/-- What a pass over a field has written, and whether the next letter starts a word. -/
structure Pass where
  written : List Char := []
  capitalize : Bool := true

/-- An underscore is dropped and starts a word. -/
def Pass.step (pass : Pass) (c : Char) : Pass :=
  if c = '_' then { pass with capitalize := true }
  else if pass.capitalize then { written := pass.written ++ [c.toUpper], capitalize := false }
  else { pass with written := pass.written ++ [c] }

/-- The field in Pascal case, written in one pass from left to right. -/
def singlePass (field : String) : String :=
  String.ofList (field.toList.foldl Pass.step {}).written

/-- What is still to be written in the middle of a field, whose first letter may or may not start a word. -/
def remaining (capitalize : Bool) (cs : List Char) : List Char :=
  match Text.pieces (· == '_') cs with
  | [] => []
  | piece :: rest =>
    (if capitalize then mapFirst Char.toUpper piece else piece) ++ rest.flatMap (mapFirst Char.toUpper)

/-- At the start of a field, its Pascal case remains to be written. -/
theorem pascalOfSnake_eq_remaining (cs : List Char) : pascalOfSnake cs = remaining true cs := by
  unfold pascalOfSnake remaining
  cases Text.pieces (· == '_') cs with
  | nil => rfl
  | cons piece rest => exact List.flatMap_cons

/-- Behind an underscore a word starts. -/
theorem remaining_underscore (capitalize : Bool) (cs : List Char) :
    remaining capitalize ('_' :: cs) = remaining true cs := by
  rw [← pascalOfSnake_eq_remaining]
  cases capitalize <;> rfl

/-- Any other character is written, as a capital where a word starts. -/
theorem remaining_cons (capitalize : Bool) {c : Char} (h : c ≠ '_') (cs : List Char) :
    remaining capitalize (c :: cs) = (if capitalize then c.toUpper else c) :: remaining false cs := by
  have hc : (c == '_') = false := beq_false_of_ne h
  unfold remaining
  rw [Text.pieces, hc]
  cases hpieces : Text.pieces (· == '_') cs with
  | nil => exact absurd hpieces (Text.pieces_ne_nil _ cs)
  | cons piece rest => cases capitalize <;> rfl

/-- A step changes nothing about what is written together with what remains. -/
theorem written_step (pass : Pass) (c : Char) (cs : List Char) :
    (pass.step c).written ++ remaining (pass.step c).capitalize cs =
      pass.written ++ remaining pass.capitalize (c :: cs) := by
  by_cases hc : c = '_'
  · subst hc
    rw [remaining_underscore]
    rfl
  · rw [remaining_cons _ hc, Pass.step, if_neg hc]
    cases pass.capitalize <;> simp

/-- From any point on, a pass writes what remains. -/
theorem written_foldl_step (cs : List Char) (pass : Pass) :
    (cs.foldl Pass.step pass).written = pass.written ++ remaining pass.capitalize cs := by
  induction cs generalizing pass with
  | nil => cases pass.capitalize <;> exact (List.append_nil _).symm
  | cons c cs ih => rw [List.foldl_cons, ih, written_step]

/-- The small letters and digits that may follow in a word. Beyond ASCII these are all but the capitals. -/
def isInner (c : Char) : Bool := c.isLower || c.isDigit || (0x80 ≤ c.toNat && !Text.isUpperChar c)

/-- Whether a text is a word: a small ASCII letter with small letters and digits behind it. -/
def isWord (word : String) : Bool :=
  match word.toList with
  | [] => false
  | first :: rest => first.isLower && rest.all isInner

/-- An identifier of one or more words joined by single underscores. -/
def IsSnake (ident : String) : Prop :=
  ∃ words : List String, words ≠ [] ∧ (∀ word ∈ words, isWord word = true) ∧ ident = Text.join "_" words

/-- The codes of the capitals. -/
theorem isUpper_iff {c : Char} : c.isUpper = true ↔ 65 ≤ c.toNat ∧ c.toNat ≤ 90 := by
  unfold Char.isUpper
  simp [UInt32.le_iff_toNat_le, ← Char.toNat_val]

/-- The codes of the small letters. -/
theorem isLower_iff {c : Char} : c.isLower = true ↔ 97 ≤ c.toNat ∧ c.toNat ≤ 122 := by
  unfold Char.isLower
  simp [UInt32.le_iff_toNat_le, ← Char.toNat_val]

/-- The codes of the characters that may follow in a word. -/
theorem isInner_iff {c : Char} : isInner c = true ↔ (97 ≤ c.toNat ∧ c.toNat ≤ 122) ∨
    (48 ≤ c.toNat ∧ c.toNat ≤ 57) ∨ (128 ≤ c.toNat ∧ Text.isUpperChar c = false) := by
  simp [isInner, isLower_iff, Char.isDigit, UInt32.le_iff_toNat_le, ← Char.toNat_val, or_assoc]

/-- Each small letter comes 32 places after its capital. -/
theorem toNat_toLower (c : Char) : c.toLower.toNat = if c.isUpper then c.toNat + 32 else c.toNat := by
  have hcapital : c.isUpper = true ↔ c.val ≥ 'A'.val ∧ c.val ≤ 'Z'.val := by
    unfold Char.isUpper
    simp
  unfold Char.toLower
  by_cases h : c.isUpper = true
  · have hrange := isUpper_iff.mp h
    have hshift : ('a'.val - 'A'.val).toNat = 32 := by decide
    rw [if_pos h, dif_pos (hcapital.mp h), ← Char.toNat_val, UInt32.toNat_add, Char.toNat_val, hshift]
    omega
  · rw [if_neg h, dif_neg (mt hcapital.mpr h)]

/-- Each capital comes 32 places before its small letter. -/
theorem toNat_toUpper (c : Char) : c.toUpper.toNat = if c.isLower then c.toNat - 32 else c.toNat := by
  have hsmall : c.isLower = true ↔ 'a'.val ≤ c.val ∧ c.val ≤ 'z'.val := by
    unfold Char.isLower
    simp
  unfold Char.toUpper
  by_cases h : c.isLower = true
  · have hrange := isLower_iff.mp h
    have hshift : ('A'.val - 'a'.val).toNat = 2 ^ 32 - 32 := by decide
    rw [if_pos h, dif_pos (hsmall.mp h), ← Char.toNat_val, UInt32.toNat_add, Char.toNat_val, hshift]
    omega
  · rw [if_neg h, dif_neg (mt hsmall.mpr h)]

/-- A small ASCII letter turned into a capital starts a word, and lowered again it is as before. -/
theorem upper_of_isLower {c : Char} (h : c.isLower = true) :
    Text.isUpperChar c.toUpper = true ∧ c.toUpper.toLower = c := by
  have hrange := isLower_iff.mp h
  have hcode : c.toUpper.toNat = c.toNat - 32 := by rw [toNat_toUpper, if_pos h]
  have hupper : c.toUpper.isUpper = true := isUpper_iff.mpr (by omega)
  have hascii : c.toUpper.toNat < 0x80 := by omega
  refine ⟨by rw [Text.isUpperChar, if_pos hascii, hupper], Char.toNat_inj.mp ?_⟩
  rw [toNat_toLower, if_pos hupper]
  omega

/-- What is no capital is small already. -/
theorem toLower_of_not_isUpper {c : Char} (h : ¬ c.isUpper = true) : c.toLower = c := by
  rw [← Char.toNat_inj, toNat_toLower, if_neg h]

/-- A character inside of a word starts none, and it is small already. -/
theorem small_of_isInner {c : Char} (h : isInner c = true) : Text.isUpperChar c = false ∧ c.toLower = c := by
  rw [isInner_iff] at h
  have hcapital : ¬ c.isUpper = true := by
    rw [isUpper_iff]
    omega
  refine ⟨?_, toLower_of_not_isUpper hcapital⟩
  by_cases hascii : c.toNat < 0x80
  · rw [Text.isUpperChar, if_pos hascii]
    exact Bool.eq_false_iff.mpr hcapital
  · rcases h with hletter | hdigit | hbeyond
    · omega
    · omega
    · exact hbeyond.2

/-- A word and its first letter. -/
theorem isWord_iff {word : String} : isWord word = true ↔
    ∃ first rest, word.toList = first :: rest ∧ first.isLower = true ∧ ∀ c ∈ rest, isInner c = true := by
  unfold isWord
  cases word.toList with
  | nil => simp
  | cons first rest => simp

/-- A word in Pascal case is broken up into an underscore and the word. -/
theorem breakWords_of_isWord {word : String} (h : isWord word = true) :
    breakWords (mapFirst Char.toUpper word.toList) = '_' :: word.toList := by
  obtain ⟨first, rest, hword, hfirst, hrest⟩ := isWord_iff.mp h
  have hinner : breakWords rest = rest := by
    clear hword
    induction rest with
    | nil => rfl
    | cons c rest ih =>
      rw [List.forall_mem_cons] at hrest
      have hc := small_of_isInner hrest.1
      rw [breakWords] at ih ⊢
      rw [List.flatMap_cons, ih hrest.2, hc.1, hc.2]
      rfl
  obtain ⟨hcapital, hlower⟩ := upper_of_isLower hfirst
  rw [hword, mapFirst, breakWords, List.flatMap_cons, if_pos hcapital, hlower, ← breakWords, hinner]
  rfl

/-- There is no underscore in a word. -/
theorem underscore_not_mem_of_isWord {word : String} (h : isWord word = true) : '_' ∉ word.toList := by
  obtain ⟨first, rest, hword, hfirst, hrest⟩ := isWord_iff.mp h
  rw [hword, List.mem_cons]
  rintro (rfl | hmem)
  · cases hfirst
  · cases hrest '_' hmem

/-- Joined words in Pascal case are the words with capitals, one after the other. -/
theorem pascalOfSnake_join {words : List String} (hne : words ≠ []) (h : ∀ word ∈ words, isWord word = true) :
    pascalOfSnake (Text.join "_" words).toList = words.flatMap fun word => mapFirst Char.toUpper word.toList := by
  have hsplit := Text.splitOnChar_join hne fun word hword => underscore_not_mem_of_isWord (h word hword)
  have hpieces : Text.pieces (· == '_') (Text.join "_" words).toList = words.map String.toList := by
    have hchars := congrArg (List.map String.toList) hsplit
    rw [Text.splitOnChar, List.map_map] at hchars
    simpa [Function.comp_def] using hchars
  rw [pascalOfSnake, hpieces, List.flatMap_map]

/-- Words with an underscore in front of each are the joined words behind an underscore. -/
theorem flatMap_underscore_eq {words : List String} (hne : words ≠ []) :
    (words.flatMap fun word => '_' :: word.toList) = '_' :: (Text.join "_" words).toList := by
  induction words with
  | nil => exact absurd rfl hne
  | cons word rest ih =>
    cases rest with
    | nil => simp [Text.join]
    | cons second rest =>
      rw [List.flatMap_cons, ih (List.cons_ne_nil _ _)]
      simp [Text.join]

/-- Only in front of the first character is no underscore written. -/
theorem underscore_snakeOfPascal {c : Char} (h : Text.isUpperChar c = true) (cs : List Char) :
    '_' :: snakeOfPascal (c :: cs) = breakWords (c :: cs) := by
  rw [snakeOfPascal, breakWords, breakWords, List.flatMap_cons, if_pos h]
  rfl

/-- Snake case does not depend on the case of the first letter. -/
theorem snakeOfPascal_mapFirst_toLower (cs : List Char) :
    snakeOfPascal (mapFirst Char.toLower cs) = snakeOfPascal cs := by
  cases cs with
  | nil => rfl
  | cons c cs =>
    have hsmall : ¬ c.toLower.isUpper = true := by
      rw [isUpper_iff, toNat_toLower]
      split
      · next h =>
        have hrange := isUpper_iff.mp h
        omega
      · next h => rwa [← isUpper_iff]
    rw [mapFirst, snakeOfPascal, snakeOfPascal, toLower_of_not_isUpper hsmall]

/-- Snake case undoes Pascal case. -/
theorem snakeOfPascal_pascalOfSnake {ident : String} (h : IsSnake ident) :
    snakeOfPascal (pascalOfSnake ident.toList) = ident.toList := by
  obtain ⟨words, hne, hwords, rfl⟩ := h
  have hbroken : breakWords (pascalOfSnake (Text.join "_" words).toList) = '_' :: (Text.join "_" words).toList := by
    rw [pascalOfSnake_join hne hwords, breakWords, List.flatMap_assoc, ← flatMap_underscore_eq hne]
    exact List.flatMap_congr fun word hword => breakWords_of_isWord (hwords word hword)
  -- The first word begins with a capital, so its underscore is the one that snake case leaves out.
  obtain ⟨c, cs, hpascal, hcapital⟩ : ∃ c cs, pascalOfSnake (Text.join "_" words).toList = c :: cs ∧
      Text.isUpperChar c = true := by
    obtain ⟨word, rest, rfl⟩ := List.exists_cons_of_ne_nil hne
    obtain ⟨first, inner, hword, hfirst, -⟩ := isWord_iff.mp (hwords word List.mem_cons_self)
    rw [pascalOfSnake_join hne hwords, List.flatMap_cons, hword, mapFirst, List.cons_append]
    exact ⟨_, _, rfl, (upper_of_isLower hfirst).1⟩
  rw [hpascal] at hbroken ⊢
  rw [← underscore_snakeOfPascal hcapital] at hbroken
  exact (List.cons.inj hbroken).2

/-- Snake case undoes Pascal and camel case. -/
theorem applyToVariant_applyToField {ident : String} (h : IsSnake ident) {rule : RenameRule}
    (hrule : rule = .pascal ∨ rule = .camel) :
    RenameRule.snake.applyToVariant (rule.applyToField ident) = ident := by
  have hundone := snakeOfPascal_pascalOfSnake h
  rw [← String.toList_inj, applyToVariant, applyToField, String.toList_ofList, String.toList_ofList]
  rcases hrule with rfl | rfl
  · exact hundone
  · exact (snakeOfPascal_mapFirst_toLower _).trans hundone

/-- Pascal case is what a single pass writes: underscores are dropped, the first letter and those behind underscores
become capitals, all others are kept. Snake case undoes Pascal and camel case for identifiers of words joined by
single underscores. Two fields of a type with such identifiers and no names of their own are exposed under different
names. -/
theorem applyToField_reversible :
    (∀ field : String, RenameRule.pascal.applyToField field = singlePass field) ∧
    (∀ field : String, IsSnake field →
      RenameRule.snake.applyToVariant (RenameRule.pascal.applyToField field) = field ∧
      RenameRule.snake.applyToVariant (RenameRule.camel.applyToField field) = field) ∧
    (∀ options : ContainerOptions, options.renameAll = some .pascal ∨ options.renameAll = some .camel →
      ∀ (field other : FieldDeclaration) (remarks otherRemarks : Comment.Field) (ident otherIdent : String),
        remarks.name = none → field.options.rename = none → otherRemarks.name = none → other.options.rename = none →
        IsSnake ident → IsSnake otherIdent → ident ≠ otherIdent →
        Synthesis.exposedName options field remarks ident ≠
          Synthesis.exposedName options other otherRemarks otherIdent) := by
  refine ⟨fun field => ?_, fun field h => ?_, ?_⟩
  · rw [singlePass, written_foldl_step, List.nil_append, ← pascalOfSnake_eq_remaining]
    rfl
  · exact ⟨applyToVariant_applyToField h (.inl rfl), applyToVariant_applyToField h (.inr rfl)⟩
  · intro options hoptions field other remarks otherRemarks ident otherIdent hname hrename hother hotherRename
      hident hotherIdent hne heq
    obtain ⟨rule, hrule, hall⟩ : ∃ rule, (rule = .pascal ∨ rule = .camel) ∧ options.renameAll = some rule := by
      rcases hoptions with hall | hall
      · exact ⟨_, .inl rfl, hall⟩
      · exact ⟨_, .inr rfl, hall⟩
    simp only [Synthesis.exposedName, hname, hrename, hother, hotherRename, hall, Option.or_none, Option.none_or,
      Option.map_some, Option.getD_some] at heq
    have hback := congrArg RenameRule.snake.applyToVariant heq
    rw [applyToVariant_applyToField hident hrule, applyToVariant_applyToField hotherIdent hrule] at hback
    exact hne hback

/-- Two identifiers that differ in an underscore only keep apart. -/
theorem applyToField_reversible_created :
    IsSnake "created_at" ∧ IsSnake "createdat" ∧
    RenameRule.pascal.applyToField "__created__at_" = singlePass "__created__at_" ∧
    RenameRule.snake.applyToVariant (RenameRule.camel.applyToField "created_at") = "created_at" ∧
    Synthesis.exposedName { renameAll := some .camel } default {} "created_at" ≠
      Synthesis.exposedName { renameAll := some .camel } default {} "createdat" := by
  have hjoined : IsSnake "created_at" := ⟨["created", "at"], by decide, by decide, by decide⟩
  have hsingle : IsSnake "createdat" := ⟨["createdat"], by decide, by decide, by decide⟩
  obtain ⟨hpass, hundone, happart⟩ := applyToField_reversible
  exact ⟨hjoined, hsingle, hpass _, (hundone _ hjoined).2,
    happart _ (.inr rfl) default default {} {} _ _ rfl rfl rfl rfl hjoined hsingle (by decide)⟩

end ApiScribe.RenameRule
