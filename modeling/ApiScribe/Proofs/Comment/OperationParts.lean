import ApiScribe.Proofs.Comment.Records

/-!
# The parts of an operation in its comment

Verb, path and id can be written together in one directive or each in one of its own, in any order and repeatedly;
the last that is written counts. Responses stand under the status that they are written with, in one spelling.
-/

namespace ApiScribe.Comment

namespace Operation

/-- The record of a comment holds the verb, path and id that were written last. -/
theorem read_parts (docs : List String) (subject : String) :
    let directives := (lex docs subject).1.directives
    let record := (read docs subject).1
    record.method = lastGiven Directive.verb? directives ∧
      record.path = lastGiven Directive.path? directives ∧
      record.operationId = lastGiven Directive.operationId? directives := by
  intro directives record
  have hrecord : record = gathered (lex docs subject).1 := ofBlock_eq_gathered _
  rw [hrecord]
  exact ⟨rfl, rfl, rfl⟩

end Operation

/-- The keys under which responses may stand: a code from 100 to 599, a range of a hundred codes, or `default`. -/
inductive IsStatusKey : String → Prop where
  | default : IsStatusKey "default"
  | code (number : Nat) (hlow : 100 ≤ number) (hhigh : number ≤ 599) : IsStatusKey (Text.decimal number)
  | range (hundreds : Nat) (hlow : 1 ≤ hundreds) (hhigh : hundreds ≤ 5) :
      IsStatusKey (Text.decimal hundreds ++ "XX")

/-- A digit is written for a number below ten. -/
theorem exists_digitChar {c : Char} (low high : Nat) (hlow : low + 48 ≤ c.toNat) (hhigh : c.toNat ≤ high + 48)
    (hten : high < 10) : ∃ n, low ≤ n ∧ n ≤ high ∧ c = Nat.digitChar n := by
  refine ⟨c.toNat - 48, by omega, by omega, ?_⟩
  have hvalue := Nat.toNat_digitChar_of_lt_ten (n := c.toNat - 48) (by omega)
  refine Char.toNat_inj.mp ?_
  omega

/-- A number below ten is written with one digit. -/
theorem decimal_digit {n : Nat} (h : n < 10) : Text.decimal n = String.ofList [Nat.digitChar n] := by
  rw [Text.decimal, Nat.toDigits_of_lt_base h]

/-- A number from 100 to 599 is written with its three digits. -/
theorem decimal_code {a b c : Nat} (ha : 1 ≤ a) (ha' : a ≤ 5) (hb : b < 10) (hc : c < 10) :
    Text.decimal (100 * a + 10 * b + c) = String.ofList [Nat.digitChar a, Nat.digitChar b, Nat.digitChar c] := by
  have hlast : (100 * a + 10 * b + c) % 10 = c := by omega
  have hfront : (100 * a + 10 * b + c) / 10 = 10 * a + b := by omega
  have hmiddle : (10 * a + b) % 10 = b := by omega
  have hfirst : (10 * a + b) / 10 = a := by omega
  rw [Text.decimal, Nat.toDigits_of_base_le (by omega) (by omega), hlast, hfront,
    Nat.toDigits_of_base_le (by omega) (by omega), hmiddle, hfirst, Nat.toDigits_of_lt_base (by omega)]
  rfl

/-- A digit is its own upper case. -/
theorem toUpper_digitChar {n : Nat} (h : n < 10) : (Nat.digitChar n).toUpper = Nat.digitChar n := by
  have hall : ∀ n < 10, (Nat.digitChar n).toUpper = Nat.digitChar n := by decide
  exact hall n h

/-- Every digit is written for a number below ten. -/
theorem exists_digitChar_of_isDigit {c : Char} (h : c.isDigit = true) : ∃ n < 10, c = Nat.digitChar n := by
  rw [Char.isDigit, Bool.and_eq_true, decide_eq_true_iff, decide_eq_true_iff] at h
  obtain ⟨n, -, hn, rfl⟩ := exists_digitChar 0 9 (UInt32.le_iff_toNat_le.mp h.1)
    (UInt32.le_iff_toNat_le.mp h.2) (by decide)
  exact ⟨n, by omega, rfl⟩

/-- Three characters that are accepted as a status, in upper case. -/
theorem isStatusKey_of_three {n : Nat} (hlow : 1 ≤ n) (hhigh : n ≤ 5) {b c : Char}
    (h : (b.isDigit = true ∧ c.isDigit = true) ∨ (b.toUpper = 'X' ∧ c.toUpper = 'X')) :
    IsStatusKey (String.ofList [Nat.digitChar n, b.toUpper, c.toUpper]) := by
  rcases h with ⟨hb, hc⟩ | ⟨hb, hc⟩
  · obtain ⟨tens, htens, rfl⟩ := exists_digitChar_of_isDigit hb
    obtain ⟨ones, hones, rfl⟩ := exists_digitChar_of_isDigit hc
    rw [toUpper_digitChar htens, toUpper_digitChar hones, ← decimal_code hlow hhigh htens hones]
    exact .code _ (by omega) (by omega)
  · have hrange : String.ofList [Nat.digitChar n, 'X', 'X'] = Text.decimal n ++ "XX" := by
      rw [decimal_digit (by omega), ← String.toList_inj, String.toList_append, String.toList_ofList,
        String.toList_ofList]
      rfl
    rw [hb, hc, hrange]
    exact .range n hlow hhigh

/-- A status that is accepted becomes a key of the responses. -/
theorem isStatusKey_canonicalStatus {word : String} (h : isStatus word = true) :
    IsStatusKey (canonicalStatus word) := by
  rw [isStatus, Bool.or_eq_true, beq_iff_eq] at h
  rcases h with rfl | h
  · exact .default
  · split at h
    · next a b c hword =>
      simp only [Bool.and_eq_true, Bool.or_eq_true, decide_eq_true_iff, beq_iff_eq] at h
      obtain ⟨⟨hlow, hhigh⟩, htail⟩ := h
      obtain ⟨n, hn, hn', rfl⟩ := exists_digitChar 1 5 (UInt32.le_iff_toNat_le.mp hlow)
        (UInt32.le_iff_toNat_le.mp hhigh) (by decide)
      have hupper : Text.upperAscii word = String.ofList [Nat.digitChar n, b.toUpper, c.toUpper] := by
        rw [Text.upperAscii, hword, List.map_cons, toUpper_digitChar (by omega)]
        rfl
      have hother : Text.upperAscii word ≠ "DEFAULT" := by
        intro heq
        have hlist := congrArg String.toList (hupper.symm.trans heq)
        rw [String.toList_ofList] at hlist
        exact absurd (congrArg List.length hlist) (show ¬3 = 7 by decide)
      rw [canonicalStatus, if_neg hother, hupper]
      exact isStatusKey_of_three hn hn' htail
    · cases h

/-- Every response that is read stands under a status. -/
theorem isStatusKey_ofArgument (argument : String) : IsStatusKey (Response.ofArgument argument).status := by
  have hdefault : isStatus "200" = true := by decide
  unfold Response.ofArgument
  dsimp only
  refine isStatusKey_canonicalStatus ?_
  split
  · split
    · assumption
    · exact hdefault
  · split
    · assumption
    · exact hdefault

namespace Operation

/-- The responses of a comment stand under statuses. -/
theorem isStatusKey_of_mem_read {docs : List String} {subject : String} {response : Response}
    (h : response ∈ (read docs subject).1.responses) : IsStatusKey response.status := by
  change response ∈ (ofBlock (lex docs subject).1).responses at h
  rw [ofBlock_eq_gathered] at h
  obtain ⟨directive, -, hresponse⟩ := List.mem_flatMap.mp h
  rw [Directive.responses, Directive.itemsOf] at hresponse
  split at hresponse
  · rw [List.mem_singleton.mp hresponse]
    exact isStatusKey_ofArgument _
  · cases hresponse

end Operation

end ApiScribe.Comment
