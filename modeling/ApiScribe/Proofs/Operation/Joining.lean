import ApiScribe.Operation.Route
import ApiScribe.Proofs.Text.Trimming

/-!
# A route below a base path

A joined path takes one part from the base and one from the route, each without blanks at its ends and then without
the slashes at the seam, and puts one slash between them. What this leaves open is stated exactly: the path begins
as the base does, and a blank that is shielded from trimming by a slash stays in the path.
-/

namespace ApiScribe.Operation

open Text

/-- What a path takes from its base: the base without blanks at its ends, and then without its final slashes. -/
def basePart (base : String) : String := trimEndOf (· == '/') (trim base)

/-- What a path takes from its route below a base: the route without blanks at its ends, and then without its
leading slashes. -/
def routePart (route : String) : String := trimStartOf (· == '/') (trim route)

/-- The part of a route with the slash in front of it. -/
def hung (part : String) : String := if part = "" then "" else "/" ++ part

/-- The part of a base has no blanks around it and no slashes at its end. -/
theorem toList_basePart (base : String) :
    (basePart base).toList = stripEnd (· == '/') (strip isBlank base.toList) := by
  rw [basePart, trimEndOf, trim, String.toList_ofList, String.toList_ofList]

/-- The part of a route has no blanks around it and no slashes at its front. -/
theorem toList_routePart (route : String) :
    (routePart route).toList = (strip isBlank route.toList).dropWhile (· == '/') := by
  rw [routePart, trimStartOf, trim, String.toList_ofList, String.toList_ofList]

/-- A base has no part if it is blanks and slashes only. -/
theorem basePart_eq_empty_iff {base : String} :
    basePart base = "" ↔ stripEnd (· == '/') (strip isBlank base.toList) = [] := by
  rw [← toList_basePart, String.toList_eq_nil_iff]

/-- Parts stay apart when they are hung up. -/
theorem hung_injective : Function.Injective hung := by
  intro part other h
  unfold hung at h
  split at h <;> split at h
  · next hpart hother => rw [hpart, hother]
  · exact absurd h.symm (by simp)
  · exact absurd h (by simp)
  · exact String.append_right_inj _ |>.mp h

/-- Below a base, the path is the part of the base with the part of the route behind it. -/
theorem joinPath_below {base : String} (h : basePart base ≠ "") (route : String) :
    joinPath (some base) route = basePart base ++ hung (routePart route) := by
  have hbase : (stripEnd (· == '/') (strip isBlank base.toList)).isEmpty = false := by
    rwa [Ne, basePart_eq_empty_iff, ← List.isEmpty_iff, Bool.not_eq_true] at h
  rw [← String.toList_inj, String.toList_append, toList_basePart, joinPath, String.toList_ofList, joinChars, hbase,
    if_neg Bool.false_ne_true, ← toList_routePart]
  split
  · next hrest => rw [hung, if_pos (String.toList_eq_nil_iff.mp hrest), String.toList_empty, List.append_nil]
  · next hrest =>
    rw [hung, if_neg fun hempty => hrest (String.toList_eq_nil_iff.mpr hempty), String.toList_append]
    rfl

/-- Without a base, the path is the trimmed route, behind a slash if it does not begin with one. -/
theorem joinPath_rooted {base : Option String} (h : ∀ written ∈ base, basePart written = "") (route : String) :
    (joinPath base route).toList = rooted (strip isBlank route.toList) := by
  cases base with
  | none => exact String.toList_ofList
  | some written =>
    rw [joinPath, String.toList_ofList, basePart_eq_empty_iff.mp (h written rfl)]
    rfl

/-- A rooted path begins with a slash. -/
theorem head?_rooted (chars : List Char) : (rooted chars).head? = some '/' := by
  unfold rooted
  split <;> rfl

/-- A number of slashes. -/
def slashes (count : Nat) : String := String.ofList (List.replicate count '/')

/-- The text ends in a blank. -/
def EndsInBlank (text : String) : Prop := ∃ c ∈ text.toList.getLast?, isBlank c = true

/-- The text begins with a blank. -/
def BeginsWithBlank (text : String) : Prop := ∃ c ∈ text.toList.head?, isBlank c = true

/-- A slash is not blank. -/
theorem isBlank_slash : isBlank '/' = false := by decide

/-- A blank is no slash. -/
theorem ne_slash_of_isBlank (c : Char) (h : isBlank c = true) : (c == '/') = false := by
  rw [beq_eq_false_iff_ne]
  rintro rfl
  rw [isBlank_slash] at h
  cases h

/-- Slashes behind a base shield the blanks in front of them. -/
theorem toList_basePart_append_slashes (base : String) (count : Nat) :
    (basePart (base ++ slashes (count + 1))).toList = stripEnd (· == '/') (base.toList.dropWhile isBlank) := by
  have hhead : ∀ c ∈ (List.replicate (count + 1) '/').head?, isBlank c = false := by
    simp [List.replicate_succ, isBlank_slash]
  have hlast : ∀ c ∈ (base.toList.dropWhile isBlank ++ List.replicate (count + 1) '/').getLast?,
      isBlank c = false := by
    simp [List.getLast?_append, List.getLast?_replicate, isBlank_slash]
  rw [toList_basePart, slashes, String.toList_append, String.toList_ofList, strip, dropWhile_append_of_head hhead,
    stripEnd_eq_self hlast, stripEnd_append_of_all (by simp)]

/-- Slashes in front of a route shield the blanks behind them. -/
theorem toList_routePart_slashes_append (route : String) (count : Nat) :
    (routePart (slashes (count + 1) ++ route)).toList = (stripEnd isBlank route.toList).dropWhile (· == '/') := by
  have hfront : (List.replicate (count + 1) '/' ++ route.toList).dropWhile isBlank =
      List.replicate (count + 1) '/' ++ route.toList := by
    rw [List.replicate_succ, List.cons_append, List.dropWhile_cons_of_neg (by simp [isBlank_slash])]
  have hlast : ∀ c ∈ (List.replicate (count + 1) '/').getLast?, isBlank c = false := by
    simp [List.getLast?_replicate, isBlank_slash]
  rw [toList_routePart, slashes, String.toList_append, String.toList_ofList, strip, hfront,
    stripEnd_append_of_last hlast, List.dropWhile_append_of_pos (by simp)]

/-- Slashes at the end do not make a part empty. -/
theorem basePart_append_slashes_ne_empty {base : String} (h : basePart base ≠ "") (count : Nat) :
    basePart (base ++ slashes (count + 1)) ≠ "" := by
  intro hempty
  rw [← String.toList_eq_nil_iff, toList_basePart_append_slashes, stripEnd_eq_nil_iff] at hempty
  refine h (basePart_eq_empty_iff.mpr (stripEnd_eq_nil_iff.mpr fun c hc => hempty c ?_))
  exact (stripEnd_isPrefix isBlank _).subset hc

/-- Slashes behind a base change its part exactly if there is a blank in front of them. -/
theorem basePart_append_slashes_iff {base : String} (h : basePart base ≠ "") (count : Nat) :
    basePart (base ++ slashes (count + 1)) = basePart base ↔ ¬EndsInBlank base := by
  have hne : base.toList.dropWhile isBlank ≠ [] := by
    intro hnil
    rw [Ne, basePart_eq_empty_iff, strip, hnil] at h
    exact h rfl
  rw [← String.toList_inj, toList_basePart_append_slashes, toList_basePart, strip,
    stripEnd_stripEnd_iff ne_slash_of_isBlank, EndsInBlank, getLast?_dropWhile hne]
  simp

/-- Slashes in front of a route change its part exactly if there is a blank behind them, and not only blanks. -/
theorem routePart_slashes_append_iff (route : String) (count : Nat) :
    routePart (slashes (count + 1) ++ route) = routePart route ↔ trim route = "" ∨ ¬BeginsWithBlank route := by
  rw [← String.toList_inj, toList_routePart_slashes_append, toList_routePart, trim, String.ofList_eq_empty_iff,
    strip_eq_nil_iff, BeginsWithBlank, strip_eq_dropWhile_stripEnd, dropWhile_dropWhile_iff ne_slash_of_isBlank]
  by_cases hnil : stripEnd isBlank route.toList = []
  · simp [hnil]
  · rw [head?_stripEnd hnil]
    simp [hnil]

/-- A text starts with a slash if its first character is one. -/
theorem startsWith_slash_iff (text : String) : startsWith "/" text = true ↔ text.toList.head? = some '/' := by
  rw [startsWith]
  change (stripLead ['/'] text.toList).isSome = true ↔ _
  cases text.toList with
  | nil => simp [stripLead]
  | cons c chars => by_cases h : c = '/' <;> simp [stripLead, h, eq_comm]

/-- A path begins with a slash exactly if its base does, unless the base is blank. -/
theorem startsWith_joinPath_iff (base : Option String) (route : String) :
    startsWith "/" (joinPath base route) = true ↔
      ∀ written ∈ base, trim written = "" ∨ startsWith "/" (trim written) = true := by
  simp only [startsWith_slash_iff]
  by_cases hnone : ∀ written ∈ base, basePart written = ""
  · rw [joinPath_rooted hnone route]
    refine iff_of_true (head?_rooted _) fun written hwritten => ?_
    -- Such a base is made of slashes only.
    have hall := stripEnd_eq_nil_iff.mp (basePart_eq_empty_iff.mp (hnone written hwritten))
    rw [trim, String.ofList_eq_empty_iff, String.toList_ofList]
    cases hstrip : strip isBlank written.toList with
    | nil => exact .inl rfl
    | cons c rest =>
      rw [hstrip] at hall
      exact .inr (by simpa using hall c List.mem_cons_self)
  · push Not at hnone
    obtain ⟨written, rfl, hpart⟩ := hnone
    have hne : stripEnd (· == '/') (strip isBlank written.toList) ≠ [] := basePart_eq_empty_iff.not.mp hpart
    have hstrip : strip isBlank written.toList ≠ [] := fun hnil => hne (by rw [hnil]; rfl)
    have hhead : (joinPath (some written) route).toList.head? = (strip isBlank written.toList).head? := by
      rw [joinPath_below hpart, String.toList_append, toList_basePart, List.head?_append_of_ne_nil _ hne,
        head?_stripEnd hne]
    rw [hhead]
    simp [trim, hstrip]

/-- A path begins with a slash exactly if its base does, unless the base is blank. What is left of a base meets what
is left of the route in one slash. Slashes behind the base make a difference exactly if they follow a blank, and
slashes in front of the route exactly if a blank follows them, and not only blanks. -/
theorem joinPath_canonical_iff (base : Option String) (route : String) :
    (startsWith "/" (joinPath base route) = true ↔
      ∀ written ∈ base, trim written = "" ∨ startsWith "/" (trim written) = true) ∧
    ∀ written ∈ base, basePart written ≠ "" →
      (joinPath base route =
        if routePart route = "" then basePart written else basePart written ++ "/" ++ routePart route) ∧
      (basePart written).toList.getLast? ≠ some '/' ∧ (routePart route).toList.head? ≠ some '/' ∧
      ∀ count,
        (joinPath (some (written ++ slashes (count + 1))) route = joinPath base route ↔ ¬EndsInBlank written) ∧
        (joinPath base (slashes (count + 1) ++ route) = joinPath base route ↔
          trim route = "" ∨ ¬BeginsWithBlank route) := by
  refine ⟨startsWith_joinPath_iff base route, ?_⟩
  rintro written rfl hpart
  refine ⟨?_, ?_, ?_, fun count => ⟨?_, ?_⟩⟩
  · rw [joinPath_below hpart, hung]
    split
    · rw [String.append_empty]
    · rw [String.append_assoc]
  · intro hlast
    rw [toList_basePart] at hlast
    exact absurd (eq_false_of_mem_getLast?_stripEnd hlast) (by decide)
  · intro hhead
    rw [toList_routePart] at hhead
    exact absurd (eq_false_of_mem_head?_dropWhile hhead) (by decide)
  · rw [joinPath_below (basePart_append_slashes_ne_empty hpart count), joinPath_below hpart, String.append_left_inj,
      basePart_append_slashes_iff hpart]
  · rw [joinPath_below hpart, joinPath_below hpart, String.append_right_inj, hung_injective.eq_iff,
      routePart_slashes_append_iff]

/-- A route below a base with blanks and slashes around it. -/
theorem joinPath_canonical_iff_api :
    basePart " /api/" = "/api" ∧ routePart "//pets " = "pets" ∧
    startsWith "/" (joinPath (some " /api/") "//pets ") = true ∧
    joinPath (some " /api/") "//pets " = "/api" ++ "/" ++ "pets" ∧
    joinPath (some (" /api/" ++ slashes 2)) "//pets " = joinPath (some " /api/") "//pets " := by
  have hbase : basePart " /api/" = "/api" := by decide +kernel
  have hroute : routePart "//pets " = "pets" := by decide +kernel
  obtain ⟨hstarts, hbelow⟩ := joinPath_canonical_iff (some " /api/") "//pets "
  obtain ⟨hjoined, -, -, hslashes⟩ := hbelow " /api/" rfl (by rw [hbase]; decide)
  rw [hbase, hroute, if_neg (by decide)] at hjoined
  refine ⟨hbase, hroute, hstarts.mpr ?_, hjoined, (hslashes 1).1.mpr ?_⟩
  · intro written hwritten
    cases hwritten
    exact .inr (by decide +kernel)
  · rintro ⟨c, hc, hblank⟩
    cases hc
    exact absurd hblank (by decide)

/-- Below a base without a leading slash the path has none, and a slash behind a blank makes another path. -/
theorem joinPath_not_canonical :
    joinPath (some "api") "/pets" = "api/pets" ∧ startsWith "/" (joinPath (some "api") "/pets") = false ∧
    joinPath (some "/api ") "/pets" = "/api/pets" ∧
    joinPath (some ("/api " ++ slashes 1)) "/pets" = "/api /pets" := by
  decide +kernel

end ApiScribe.Operation
