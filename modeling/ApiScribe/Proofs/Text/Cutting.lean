import ApiScribe.Proofs.Text.Trimming

/-!
# Cutting and joining text

What the ways to cut a text leave, as an equation between the text and its parts: a leading text is removed exactly
if the text is that text with the rest behind it, and a cut at the first blank leaves a part without blanks in front
of it. Joining is the other way round. The pieces of a text and its words are determined by what they leave out.
-/

namespace ApiScribe.Text

/-- Characters are removed from the front exactly if they stand there. -/
theorem stripLead_eq_some_iff {lead cs rest : List Char} : stripLead lead cs = some rest ↔ cs = lead ++ rest := by
  induction lead generalizing cs with
  | nil => simp [stripLead]
  | cons l lead ih =>
    cases cs with
    | nil => simp [stripLead]
    | cons c cs =>
      by_cases h : l = c
      · simp [stripLead, h, ih]
      · simp [stripLead, h, Ne.symm h]

/-- A leading text is removed exactly if the text begins with it. -/
theorem dropLead_eq_some_iff {lead s rest : String} : dropLead lead s = some rest ↔ s = lead ++ rest := by
  rw [dropLead, Option.map_eq_some_iff]
  constructor
  · rintro ⟨chars, hchars, rfl⟩
    rw [← String.toList_inj, stripLead_eq_some_iff.mp hchars, String.toList_append, String.toList_ofList]
  · rintro rfl
    exact ⟨rest.toList, stripLead_eq_some_iff.mpr (String.toList_append ..), String.ofList_toList⟩

/-- A text begins with another exactly if it is that text with a rest behind it. -/
theorem startsWith_iff {lead s : String} : startsWith lead s = true ↔ ∃ rest, s = lead ++ rest := by
  rw [startsWith, ← Option.isSome_map (f := String.ofList), Option.isSome_iff_exists]
  exact exists_congr fun rest => dropLead_eq_some_iff

/-- A final text is removed exactly if the text ends in it. -/
theorem dropFinal_eq_some_iff {final s rest : String} : dropFinal final s = some rest ↔ s = rest ++ final := by
  rw [dropFinal, Option.map_eq_some_iff]
  constructor
  · rintro ⟨chars, hchars, rfl⟩
    have hreverse := congrArg List.reverse (stripLead_eq_some_iff.mp hchars)
    rw [← String.toList_inj, String.toList_append, String.toList_ofList]
    simpa using hreverse
  · rintro rfl
    exact ⟨rest.toList.reverse, stripLead_eq_some_iff.mpr (by simp), by simp⟩

/-- A text without characters of the kind is not cut. -/
theorem cutAt_eq_none {p : Char → Bool} {cs : List Char} (h : ∀ c ∈ cs, p c = false) : cutAt p cs = none := by
  induction cs with
  | nil => rfl
  | cons c cs ih =>
    rw [List.forall_mem_cons] at h
    simp [cutAt, h.1, ih h.2]

/-- The first character of its kind is where a text is cut. -/
theorem cutAt_append_cons {p : Char → Bool} {front : List Char} (hfront : ∀ c ∈ front, p c = false) {c : Char}
    (hc : p c = true) (back : List Char) : cutAt p (front ++ c :: back) = some (front, back) := by
  induction front with
  | nil => simp [cutAt, hc]
  | cons d front ih =>
    rw [List.forall_mem_cons] at hfront
    simp [cutAt, hfront.1, ih hfront.2]

/-- Every text is its part before the first blank and a rest that is empty or begins with a blank. -/
theorem exists_eq_append_of_blank (s : String) : ∃ front rest : String, s = front ++ rest ∧
    (∀ c ∈ front.toList, isBlank c = false) ∧ ∀ c, rest.toList.head? = some c → isBlank c = true := by
  refine ⟨String.ofList (s.toList.takeWhile fun c => !isBlank c),
    String.ofList (s.toList.dropWhile fun c => !isBlank c), ?_, fun c hc => ?_, fun c hc => ?_⟩
  · rw [← String.ofList_append, List.takeWhile_append_dropWhile, String.ofList_toList]
  · rw [String.toList_ofList] at hc
    simpa using List.all_eq_true.mp List.all_takeWhile c hc
  · have hhead := List.head?_dropWhile_not (fun c => !isBlank c) s.toList
    rw [String.toList_ofList] at hc
    rw [hc] at hhead
    simpa using hhead

/-- A blank in front makes no difference to a trimmed text. -/
theorem trim_cons {c : Char} (h : isBlank c = true) (cs : List Char) :
    trim (String.ofList (c :: cs)) = trim (String.ofList cs) := by
  rw [trim, trim, String.toList_ofList, String.toList_ofList, strip, strip, List.dropWhile_cons_of_pos h]

/-- The last text is joined to what the others join to. -/
theorem join_concat (separator : String) (texts : List String) (last : String) :
    join separator (texts ++ [last]) = if texts = [] then last else join separator texts ++ separator ++ last := by
  induction texts with
  | nil => rfl
  | cons first rest ih =>
    rw [if_neg (List.cons_ne_nil _ _)]
    cases rest with
    | nil => rfl
    | cons second rest =>
      rw [if_neg (List.cons_ne_nil _ _)] at ih
      simp only [List.cons_append, join] at ih ⊢
      rw [ih, String.append_assoc, String.append_assoc, String.append_assoc, String.append_assoc,
        String.append_assoc]

/-- Joining puts the separator between each two texts. -/
theorem join_eq_intercalate (separator : String) (texts : List String) :
    join separator texts = separator.intercalate texts := by
  induction texts with
  | nil => rfl
  | cons first rest ih =>
    cases rest with
    | nil => rfl
    | cons second rest =>
      have hjoin : join separator (first :: second :: rest) =
          first ++ separator ++ join separator (second :: rest) := rfl
      rw [hjoin, ih, String.intercalate_cons_cons]

/-- Texts of which none is empty join to nothing only if there are none. -/
theorem join_eq_empty_iff {separator : String} {texts : List String} (h : ∀ text ∈ texts, text ≠ "") :
    join separator texts = "" ↔ texts = [] := by
  constructor
  · intro hjoin
    cases texts with
    | nil => rfl
    | cons first rest =>
      have hfirst := h first List.mem_cons_self
      cases rest with
      | nil => exact absurd hjoin hfirst
      | cons second rest =>
        simp only [join, String.append_eq_empty_iff] at hjoin
        exact absurd hjoin.1.1 hfirst
  · rintro rfl
    rfl

/-- A text without separators is one piece. -/
theorem pieces_eq_singleton {p : Char → Bool} {cs : List Char} (h : ∀ c ∈ cs, p c = false) :
    pieces p cs = [cs] := by
  induction cs with
  | nil => rfl
  | cons c cs ih =>
    rw [List.forall_mem_cons] at h
    rw [pieces, h.1, ih h.2]

/-- The first piece of a text ends at its first separator. -/
theorem pieces_append_cons {p : Char → Bool} {front : List Char} (hfront : ∀ c ∈ front, p c = false) {c : Char}
    (hc : p c = true) (back : List Char) : pieces p (front ++ c :: back) = front :: pieces p back := by
  induction front with
  | nil => rw [List.nil_append, pieces, hc]
  | cons d front ih =>
    rw [List.forall_mem_cons] at hfront
    rw [List.cons_append, pieces, hfront.1, ih hfront.2]

/-- Texts without the separator are the pieces of what they join to. -/
theorem splitOnChar_join {separator : Char} {texts : List String} (hne : texts ≠ [])
    (h : ∀ text ∈ texts, separator ∉ text.toList) :
    splitOnChar separator (join (String.singleton separator) texts) = texts := by
  have hkeeps {text : String} (htext : separator ∉ text.toList) : ∀ c ∈ text.toList, (c == separator) = false :=
    fun c hc => beq_false_of_ne fun heq => htext (heq ▸ hc)
  induction texts with
  | nil => exact absurd rfl hne
  | cons text rest ih =>
    rw [List.forall_mem_cons] at h
    cases rest with
    | nil => rw [join, splitOnChar, pieces_eq_singleton (hkeeps h.1), List.map_singleton, String.ofList_toList]
    | cons second rest =>
      have hchars : (join (String.singleton separator) (text :: second :: rest)).toList =
          text.toList ++ separator :: (join (String.singleton separator) (second :: rest)).toList := by
        simp [join]
      have hrest := ih (List.cons_ne_nil _ _) h.2
      rw [splitOnChar] at hrest ⊢
      rw [hchars, pieces_append_cons (hkeeps h.1) (beq_self_eq_true _), List.map_cons, String.ofList_toList, hrest]

/-- The words of a text, with blanks around them and between each two. -/
inductive Words : List Char → List String → Prop where
  | blank {gap : List Char} (hgap : ∀ c ∈ gap, isBlank c = true) : Words gap []
  | word {gap rest : List Char} {first : String} {others : List String} (hgap : ∀ c ∈ gap, isBlank c = true)
      (hne : first ≠ "") (hfirst : ∀ c ∈ first.toList, isBlank c = false)
      (hrest : ∀ c ∈ rest.head?, isBlank c = true) (hothers : Words rest others) :
      Words (gap ++ (first.toList ++ rest)) (first :: others)

/-- Blanks in front of a text make no difference to its words. -/
theorem wordsOf_append_of_blank {gap : List Char} (hgap : ∀ c ∈ gap, isBlank c = true) (cs : List Char) :
    wordsOf (gap ++ cs) = wordsOf cs := by
  induction gap with
  | nil => rfl
  | cons c gap ih =>
    rw [List.forall_mem_cons] at hgap
    rw [← ih hgap.2, List.cons_append, wordsOf, pieces, hgap.1]
    rfl

/-- A word ends where a blank follows it. -/
theorem wordsOf_append {word rest : List Char} (hne : word ≠ []) (hword : ∀ c ∈ word, isBlank c = false)
    (hrest : ∀ c ∈ rest.head?, isBlank c = true) : wordsOf (word ++ rest) = word :: wordsOf rest := by
  have hkept (others : List (List Char)) : (word :: others).filter (fun piece => !piece.isEmpty) =
      word :: others.filter fun piece => !piece.isEmpty :=
    List.filter_cons_of_pos (by simpa using hne)
  cases rest with
  | nil =>
    rw [List.append_nil, wordsOf, pieces_eq_singleton hword, hkept]
    rfl
  | cons c rest =>
    have hc : isBlank c = true := hrest c rfl
    have hgap : wordsOf ([c] ++ rest) = wordsOf rest := wordsOf_append_of_blank (by simpa using hc) rest
    rw [wordsOf, pieces_append_cons hword hc, hkept]
    exact congrArg (word :: ·) hgap.symm

/-- Every text has words. -/
theorem exists_words (cs : List Char) : ∃ found, Words cs found := by
  induction hlength : cs.length using Nat.strongRecOn generalizing cs with
  | ind length ih =>
    obtain ⟨gap, hcs, hgap, hkept⟩ := dropWhile_eq_iff.mp (rfl : cs.dropWhile isBlank = _)
    obtain ⟨word, hword, hall, hrest⟩ :=
      dropWhile_eq_iff.mp (rfl : (cs.dropWhile isBlank).dropWhile (fun c => !isBlank c) = _)
    generalize cs.dropWhile isBlank = kept at hcs hkept hword hrest
    generalize kept.dropWhile (fun c => !isBlank c) = rest at hword hrest
    obtain ⟨first, rfl⟩ : ∃ first : String, word = first.toList := ⟨String.ofList word, String.toList_ofList.symm⟩
    subst hword hcs
    by_cases hne : first = ""
    · -- What is left could begin neither with a blank nor with another character.
      subst hne
      cases rest with
      | nil => exact ⟨[], .blank (by simpa using hgap)⟩
      | cons c rest => simp [hkept c rfl] at hrest
    · have hfirst : 0 < first.toList.length := List.length_pos_iff.mpr (mt String.toList_eq_nil_iff.mp hne)
      have hshorter : rest.length < length := by
        rw [← hlength, List.length_append, List.length_append]
        omega
      obtain ⟨others, hothers⟩ := ih rest.length hshorter rest rfl
      exact ⟨first :: others, .word hgap hne (by simpa using hall) (by simpa using hrest) hothers⟩

/-- The words of a text are the runs of characters between its blanks. -/
theorem words_eq_iff {s : String} {found : List String} : words s = found ↔ Words s.toList found := by
  have hwords {cs : List Char} {found : List String} (h : Words cs found) :
      (wordsOf cs).map String.ofList = found := by
    induction h with
    | @blank gap hgap =>
      rw [← List.append_nil gap, wordsOf_append_of_blank hgap]
      rfl
    | word hgap hne hfirst hrest _ ih =>
      rw [wordsOf_append_of_blank hgap, wordsOf_append (by simpa using hne) hfirst hrest, List.map_cons, ih,
        String.ofList_toList]
  constructor
  · rintro rfl
    obtain ⟨found, hfound⟩ := exists_words s.toList
    rw [words, hwords hfound]
    exact hfound
  · exact hwords

/-- No word is empty. -/
theorem ne_empty_of_mem_words {text word : String} (h : word ∈ words text) : word ≠ "" := by
  obtain ⟨chars, hchars, rfl⟩ := List.mem_map.mp h
  intro hempty
  exact ne_nil_of_mem_wordsOf hchars (String.ofList_eq_empty_iff.mp hempty)

end ApiScribe.Text
