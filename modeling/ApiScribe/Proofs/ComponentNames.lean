import ApiScribe.Schema.Names
import Mathlib.Data.List.Nodup
import Mathlib.Data.List.Range
import Mathlib.Data.List.Perm.Subperm

/-!
# Component names are distinct

A declaration keeps the name it was given, and no two declarations share one. A numbered name is
always found: there are more candidates than names given so far.
-/

namespace ApiScribe

/-- The decimal digits of a number determine it. -/
theorem Text.decimal_injective : Function.Injective Text.decimal := by
  intro a b h
  have hdigits : Nat.toDigits 10 a = Nat.toDigits 10 b := String.ofList_injective h
  rw [← Nat.ofDigitChars_toDigits (n := a) (by decide : 1 < 10) (by decide), hdigits,
    Nat.ofDigitChars_toDigits (by decide) (by decide)]

namespace ComponentNames

/-- A stem with a number behind determines the number. -/
theorem numbered_injective (stem : String) :
    Function.Injective fun number => stem ++ Text.decimal number := by
  intro a b h
  exact Text.decimal_injective (String.append_right_inj stem |>.mp h)

/-- A name is taken exactly if it is assigned. -/
theorem isTaken_iff (names : ComponentNames) (name : String) :
    names.isTaken name = true ↔ name ∈ names.assigned.map Prod.snd := by
  simp [isTaken, holder?]

/-- If the numbered name that is found is taken, so were all candidates before it. -/
theorem isTaken_of_firstNumbered (names : ComponentNames) (stem : String) (fuel number : Nat)
    (h : names.isTaken (names.firstNumbered stem fuel number) = true) (step : Nat) (hstep : step ≤ fuel) :
    names.isTaken (stem ++ Text.decimal (number + step)) = true := by
  induction fuel generalizing number step with
  | zero =>
    obtain rfl : step = 0 := by omega
    exact h
  | succ fuel ih =>
    unfold firstNumbered at h
    by_cases hfirst : names.isTaken (stem ++ Text.decimal number) = true
    · cases step with
      | zero => exact hfirst
      | succ step =>
        rw [if_pos hfirst] at h
        rw [show number + (step + 1) = number + 1 + step by omega]
        exact ih (number + 1) h step (by omega)
    · rw [if_neg hfirst] at h
      exact absurd h hfirst

/-- The numbered name that is found is free, since more names are tried than are taken. -/
theorem firstNumbered_free (names : ComponentNames) (stem : String) (number : Nat) :
    names.isTaken (names.firstNumbered stem names.assigned.length number) = false := by
  by_contra h
  have htaken := isTaken_of_firstNumbered names stem _ number (by simpa using h)
  let candidates := (List.range (names.assigned.length + 1)).map fun step =>
    stem ++ Text.decimal (number + step)
  have hnodup : candidates.Nodup := by
    refine List.Nodup.map (fun a b hab => ?_) List.nodup_range
    exact Nat.add_left_cancel (numbered_injective stem hab)
  have hsubset : candidates ⊆ names.assigned.map Prod.snd := by
    intro name hname
    obtain ⟨step, hstep, rfl⟩ := List.mem_map.mp hname
    exact (isTaken_iff names _).mp (htaken step (by simpa [Nat.lt_succ_iff] using hstep))
  have hlength := (List.subperm_of_subset hnodup hsubset).length_le
  simp only [candidates, List.length_map, List.length_range] at hlength
  omega

/-- The first free name is free. -/
theorem firstFree_free (names : ComponentNames) (stem : String) :
    names.isTaken (names.firstFree stem) = false := by
  unfold firstFree
  split
  · exact firstNumbered_free names stem 2
  · next h => simpa using h

/-- No declaration has two names and no two declarations share one. -/
structure Distinct (names : ComponentNames) : Prop where
  holders : (names.assigned.map Prod.fst).Nodup
  given : (names.assigned.map Prod.snd).Nodup

/-- A name that is found is assigned. -/
theorem mem_of_get? {names : ComponentNames} {canonical : QualifiedName} {name : String}
    (h : names.get? canonical = some name) : (canonical, name) ∈ names.assigned := by
  obtain ⟨entry, hentry, rfl⟩ := Option.map_eq_some_iff.mp h
  have hholder : entry.1 = canonical := by simpa using List.find?_some hentry
  rw [← hholder]
  exact List.mem_of_find?_eq_some hentry

/-- No name is found exactly if none is assigned. -/
theorem get?_eq_none_iff (names : ComponentNames) (canonical : QualifiedName) :
    names.get? canonical = none ↔ canonical ∉ names.assigned.map Prod.fst := by
  simp only [get?, Option.map_eq_none_iff, List.find?_eq_none, decide_eq_true_eq, List.mem_map,
    not_exists, not_and]

/-- Only one declaration has a name. -/
theorem Distinct.holder_unique {names : ComponentNames} (h : names.Distinct) {a b : QualifiedName}
    {name : String} (ha : names.get? a = some name) (hb : names.get? b = some name) : a = b := by
  have hpair := List.inj_on_of_nodup_map h.given (mem_of_get? ha) (mem_of_get? hb) rfl
  exact congrArg Prod.fst hpair

/-- A new name for a declaration that has none keeps names distinct. -/
theorem Distinct.give {names : ComponentNames} (h : names.Distinct) {canonical : QualifiedName}
    {name : String} (hnew : names.get? canonical = none) (hfree : names.isTaken name = false) :
    (names.give canonical name).Distinct := by
  have hholder := (get?_eq_none_iff names canonical).mp hnew
  have hname : name ∉ names.assigned.map Prod.snd := by
    rw [← isTaken_iff, hfree]
    exact Bool.false_ne_true
  constructor
  · simpa [ComponentNames.give] using h.holders.concat hholder
  · simpa [ComponentNames.give] using h.given.concat hname

/-- A name that is given is found. -/
theorem get?_give_self {names : ComponentNames} {canonical : QualifiedName} (name : String)
    (hnew : names.get? canonical = none) : (names.give canonical name).get? canonical = some name := by
  have hfind := Option.map_eq_none_iff.mp hnew
  simp [ComponentNames.give, get?, List.find?_append, hfind]

/-- A name that is found stays. -/
theorem get?_give_of_some {names : ComponentNames} {canonical other : QualifiedName} {name given : String}
    (h : names.get? other = some given) : (names.give canonical name).get? other = some given := by
  obtain ⟨entry, hentry, rfl⟩ := Option.map_eq_some_iff.mp h
  simp [ComponentNames.give, get?, List.find?_append, hentry]

/-- Naming a declaration that has no name gives it a free one. -/
theorem assign_eq_give {names : ComponentNames} {canonical : QualifiedName} (preferred : String)
    (hnew : names.get? canonical = none) :
    ∃ name, (names.assign canonical preferred).1 = name ∧
      (names.assign canonical preferred).2.1 = names.give canonical name ∧ names.isTaken name = false := by
  unfold assign
  rw [hnew]
  dsimp only
  split
  · next hholder => exact ⟨preferred, rfl, rfl, by rw [isTaken, hholder]; rfl⟩
  · exact ⟨_, rfl, rfl, firstFree_free names _⟩

/-- Whoever asks for a name has one afterwards. -/
theorem exists_get?_assign (names : ComponentNames) (canonical : QualifiedName) (preferred : String) :
    ∃ name, (names.assign canonical preferred).2.1.get? canonical = some name := by
  cases h : names.get? canonical with
  | some name => exact ⟨name, by simp only [assign, h]⟩
  | none =>
    obtain ⟨name, -, hgive, -⟩ := assign_eq_give preferred h
    exact ⟨name, hgive ▸ get?_give_self name h⟩

/-- Naming a declaration takes no name away. -/
theorem get?_assign_of_some {names : ComponentNames} {other : QualifiedName} {given : String}
    (h : names.get? other = some given) (canonical : QualifiedName) (preferred : String) :
    (names.assign canonical preferred).2.1.get? other = some given := by
  cases hknown : names.get? canonical with
  | some name => simpa only [assign, hknown] using h
  | none =>
    obtain ⟨name, -, hgive, -⟩ := assign_eq_give preferred hknown
    exact hgive ▸ get?_give_of_some h

end ComponentNames

end ApiScribe
