import ApiScribe.Proofs.Overlay.Places
import Mathlib.Data.List.ReduceOption

/-!
# Laying the same documents again

Laying a list of documents over the result of having laid them changes nothing. This cannot be shown one document at
a time: an empty value gives way to any other empty value, so that the second round passes through other values
before it comes back.

A place is followed through the whole list instead, together with the places inside of it. Either it is empty at the
end, then nothing but empty values was ever offered and the last of them counts in both rounds. Or it holds
something other than an object, which stays. Or it holds an object, whose members went through the same history one
level down, and then a second round changes none of them.
-/

namespace ApiScribe.Overlay

open Json (Value)

/-- Something that is not empty is held. -/
def Full : Option Value → Prop
  | some value => isEmpty value = false
  | none => False

/-- What is held under a key of what is held. -/
def inside (key : String) (held : Option Value) : Option Value :=
  held.bind fun value => Json.lookup key value.members

/-- No object in what is held has a key twice. -/
def Distinct (held : Option Value) : Prop := ∀ value, held = some value → value.KeysDistinct

/-- What is held nests less deep than the bound. -/
def Within (depth : Nat) (held : Option Value) : Prop := ∀ value, held = some value → value.nesting < depth

/-- The keys of a value with distinct keys are distinct. -/
theorem Distinct.nodup_keys {held : Option Value} (h : Distinct held) : (keysOf held).Nodup := by
  cases held with
  | none => exact List.nodup_nil
  | some value => exact (h value rfl).keys_nodup

/-- What is inside of a value with distinct keys has distinct keys. -/
theorem Distinct.inside {held : Option Value} (h : Distinct held) (key : String) : Distinct (inside key held) := by
  intro inner hinner
  obtain ⟨value, hvalue, hlookup⟩ := Option.bind_eq_some_iff.mp hinner
  exact (h value hvalue).of_lookup hlookup

/-- Nothing full fits in depth zero. -/
theorem Within.not_full {held : Option Value} (h : Within 0 held) : ¬ Full held := by
  cases held with
  | none => exact id
  | some value => exact absurd (h value rfl) (Nat.not_lt_zero _)

/-- What is inside of a value fits in a smaller depth. -/
theorem Within.inside {depth : Nat} {held : Option Value} (h : Within (depth + 1) held) (key : String) :
    Within depth (inside key held) := by
  intro inner hinner
  obtain ⟨value, hvalue, hlookup⟩ := Option.bind_eq_some_iff.mp hinner
  have hless := Value.nesting_lt_of_mem_members (Json.mem_of_lookup hlookup)
  exact Nat.lt_of_lt_of_le hless (Nat.le_of_lt_succ (h value hvalue))

/-- Values with the same members are the same, if there are any. -/
theorem eq_of_members {value other : Value} (hmembers : value.members ≠ []) (h : value.members = other.members) :
    value = other := by
  obtain ⟨member, members, rfl⟩ := exists_of_members hmembers
  obtain ⟨member', members', rfl⟩ := exists_of_members (h ▸ hmembers)
  exact congrArg Value.obj h

/-- Where nothing is offered nothing changes. -/
theorem fill_none (held : Option Value) : fill held none = held := by
  cases held <;> rfl

/-- Filling keeps the keys in front. -/
theorem isPrefix_keys_fill (held : Option Value) {offered : Option Value} (h : Distinct offered) :
    keysOf held <+: keysOf (fill held offered) := by
  match held, offered with
  | none, offered => exact List.nil_prefix
  | some kept, none => exact List.prefix_refl _
  | some kept, some offered =>
    by_cases hkept : kept.members = []
    · rw [keysOf, hkept]
      exact List.nil_prefix
    · rw [fill, keysOf, keysOf, keys_laid (h offered rfl) hkept]
      exact List.prefix_append _ _

/-- Filling keeps the keys distinct. -/
theorem nodup_keys_fill {held offered : Option Value} (hheld : (keysOf held).Nodup) (h : Distinct offered) :
    (keysOf (fill held offered)).Nodup := by
  match held, offered with
  | none, none => exact List.nodup_nil
  | none, some offered => exact (h offered rfl).keys_nodup
  | some kept, none => exact hheld
  | some kept, some offered =>
    have hoffered := (h offered rfl).keys_nodup
    rw [fill, keysOf]
    cases hempty : isEmpty kept with
    | true => rwa [laid_of_isEmpty hempty]
    | false =>
      by_cases hkept : kept.members = []
      · rwa [laid_of_leaf hempty hkept]
      · rw [keys_laid (h offered rfl) hkept, List.nodup_append']
        refine ⟨hheld, hoffered.filter _, fun key hkey hnew => ?_⟩
        simp only [List.mem_filter, decide_eq_true_eq] at hnew
        exact hnew.2 hkey

section Offers

variable {offers : List (Option Value)} (h : ∀ offered ∈ offers, Distinct offered)

include h

/-- Keys that are held stay in front, whatever is offered. -/
theorem isPrefix_keys_foldl_fill (held : Option Value) : keysOf held <+: keysOf (offers.foldl fill held) := by
  induction offers generalizing held with
  | nil => exact List.prefix_refl _
  | cons offered rest ih =>
    rw [List.forall_mem_cons] at h
    exact (isPrefix_keys_fill held h.1).trans (ih h.2 (fill held offered))

/-- Filling again and again keeps the keys distinct. -/
theorem nodup_keys_foldl_fill {held : Option Value} (hheld : (keysOf held).Nodup) :
    (keysOf (offers.foldl fill held)).Nodup := by
  induction offers generalizing held with
  | nil => exact hheld
  | cons offered rest ih =>
    rw [List.forall_mem_cons] at h
    exact ih h.2 (nodup_keys_fill hheld h.1)

end Offers

/-- What is filled is full if it was before or if something full is offered. -/
theorem full_fill_iff {held offered : Option Value} (h : Distinct offered) :
    Full (fill held offered) ↔ Full held ∨ Full offered := by
  match held, offered with
  | none, offered => exact (or_iff_right id).symm
  | some kept, none => exact (or_iff_left id).symm
  | some kept, some offered =>
    simp only [fill, Full]
    cases hempty : isEmpty kept with
    | true => simp [laid_of_isEmpty hempty]
    | false =>
      refine iff_of_true ?_ (.inl rfl)
      by_cases hmembers : kept.members = []
      · rw [laid_of_leaf hempty hmembers, hempty]
      · refine isEmpty_eq_false_of_members fun hnil => hmembers ?_
        have hprefix := isPrefix_keys_fill (some kept) h
        rw [fill, keysOf, keysOf, hnil] at hprefix
        exact List.map_eq_nil_iff.mp (List.prefix_nil.mp hprefix)

/-- A place is full at the end exactly if it was full or something full was offered. -/
theorem full_foldl_fill_iff {offers : List (Option Value)}
    (h : ∀ offered ∈ offers, Distinct offered) (held : Option Value) :
    Full (offers.foldl fill held) ↔ Full held ∨ ∃ offered ∈ offers, Full offered := by
  induction offers generalizing held with
  | nil => simp
  | cons offered rest ih =>
    rw [List.forall_mem_cons] at h
    rw [List.foldl_cons, ih h.2, full_fill_iff h.1, or_assoc, List.exists_mem_cons_iff]

/-- An empty place takes whatever is offered. -/
theorem fill_of_not_full {held : Option Value} (h : ¬ Full held) (offered : Option Value) :
    fill held offered = offered.or held := by
  match held, offered with
  | none, offered => exact (Option.or_none).symm
  | some kept, none => rfl
  | some kept, some offered =>
    simp only [Full, Bool.not_eq_false] at h
    rw [fill, laid_of_isEmpty h, Option.some_or]

/-- Of empty values the last one counts. -/
theorem foldl_fill_of_not_full {offers : List (Option Value)} (h : ∀ offered ∈ offers, ¬ Full offered)
    {held : Option Value} (hheld : ¬ Full held) :
    offers.foldl fill held = offers.reduceOption.getLast?.or held := by
  induction offers generalizing held with
  | nil => rfl
  | cons offered rest ih =>
    rw [List.forall_mem_cons] at h
    have hnext : ¬ Full (offered.or held) := by cases offered <;> [exact hheld; exact h.1]
    rw [List.foldl_cons, fill_of_not_full hheld, ih h.2 hnext]
    cases offered with
    | none => rfl
    | some value =>
      rw [List.reduceOption_cons_of_some, List.getLast?_cons]
      cases rest.reduceOption.getLast? <;> rfl

/-- Something other than an object stays, whatever is offered. -/
theorem fill_of_leaf {value : Value} (hempty : isEmpty value = false) (h : value.members = [])
    (offered : Option Value) : fill (some value) offered = some value := by
  cases offered with
  | none => rfl
  | some offered => rw [fill, laid_of_leaf hempty h]

/-- A value without members that is not empty stays whatever is offered. -/
theorem foldl_fill_of_leaf {value : Value} (hempty : isEmpty value = false) (h : value.members = [])
    (offers : List (Option Value)) : offers.foldl fill (some value) = some value := by
  induction offers with
  | nil => rfl
  | cons offered rest ih => rw [List.foldl_cons, fill_of_leaf hempty h, ih]

/-- Filling a place fills the places inside of it, unless it holds something other than an object. -/
theorem inside_fill {held offered : Option Value} (h : Distinct offered)
    (hheld : ∀ value, held = some value → isEmpty value = false → value.members ≠ []) (key : String) :
    inside key (fill held offered) = fill (inside key held) (inside key offered) := by
  match held, offered with
  | none, offered => rfl
  | some kept, none => exact (fill_none _).symm
  | some kept, some offered =>
    cases hempty : isEmpty kept with
    | false => exact lookup_laid (h offered rfl) (hheld kept rfl hempty) key
    | true =>
      have hnone : inside key (some kept) = none := by
        rw [inside, Option.bind_some, members_of_isEmpty hempty]
        rfl
      rw [fill, laid_of_isEmpty hempty, hnone]
      rfl

/-- Where an object is held at the end, its members went through the same offers one level down. -/
theorem lookup_foldl_fill {offers : List (Option Value)} (h : ∀ offered ∈ offers, Distinct offered)
    {held : Option Value} {result : Value} (hresult : offers.foldl fill held = some result)
    (hmembers : result.members ≠ []) (key : String) :
    Json.lookup key result.members = (offers.map (inside key)).foldl fill (inside key held) := by
  induction offers generalizing held with
  | nil =>
    cases hresult
    rfl
  | cons offered rest ih =>
    rw [List.forall_mem_cons] at h
    rw [List.foldl_cons] at hresult
    rw [ih h.2 hresult, List.map_cons, List.foldl_cons, inside_fill h.1]
    -- Something other than an object would have stayed to the end.
    rintro kept rfl hempty hkept
    rw [fill_of_leaf hempty hkept, foldl_fill_of_leaf hempty hkept] at hresult
    exact hmembers (Option.some.inj hresult ▸ hkept)

section Again

variable {held : Option Value} {offers : List (Option Value)} (hdistinct : ∀ offered ∈ offers, Distinct offered)

include hdistinct

/-- In a place that is empty at the end the last offer counts, in the second round as in the first. -/
theorem foldl_fill_again_of_not_full (h : ¬ Full (offers.foldl fill held)) :
    offers.foldl fill (offers.foldl fill held) = offers.foldl fill held := by
  obtain ⟨hheld, hoffers⟩ := not_or.mp (mt (full_foldl_fill_iff hdistinct held).mpr h)
  have hempty : ∀ offered ∈ offers, ¬ Full offered :=
    fun offered hoffered hfull => hoffers ⟨offered, hoffered, hfull⟩
  rw [foldl_fill_of_not_full hempty h, foldl_fill_of_not_full hempty hheld, ← Option.or_assoc, Option.or_self]

/-- An object at the end stays if, one level down, a second round changes nothing under any key. -/
theorem foldl_fill_again_of_members (hheld : Distinct held) {result : Value}
    (hresult : offers.foldl fill held = some result) (hmembers : result.members ≠ [])
    (hinside : ∀ key,
      (offers.map (inside key)).foldl fill ((offers.map (inside key)).foldl fill (inside key held)) =
      (offers.map (inside key)).foldl fill (inside key held)) :
    offers.foldl fill (some result) = some result := by
  have hkeys : keysOf (some result) <+: keysOf (offers.foldl fill (some result)) :=
    isPrefix_keys_foldl_fill hdistinct (some result)
  have hnodup : (keysOf (offers.foldl fill (some result))).Nodup :=
    nodup_keys_foldl_fill hdistinct (hresult ▸ nodup_keys_foldl_fill hdistinct hheld.nodup_keys)
  have hne : keysOf (some result) ≠ [] := fun hnil => hmembers (List.map_eq_nil_iff.mp hnil)
  cases hagain : offers.foldl fill (some result) with
  | none =>
    rw [hagain] at hkeys
    exact absurd (List.prefix_nil.mp hkeys) hne
  | some again =>
    rw [hagain] at hkeys hnodup
    have hagainMembers : again.members ≠ [] := by
      intro hnil
      rw [keysOf, keysOf, hnil] at hkeys
      exact hne (List.prefix_nil.mp hkeys)
    have hlookup (key : String) : Json.lookup key again.members = Json.lookup key result.members := by
      have hstart : inside key (some result) = Json.lookup key result.members := rfl
      rw [lookup_foldl_fill hdistinct hagain hagainMembers, hstart, lookup_foldl_fill hdistinct hresult hmembers,
        hinside]
    rw [eq_of_members hmembers (Json.eq_of_isPrefix_keys hnodup hkeys fun key => (hlookup key).symm)]

end Again

/-- What a whole list of offers left is left by the same offers again. -/
theorem foldl_fill_again {depth : Nat} {held : Option Value} {offers : List (Option Value)}
    (hheld : Distinct held) (hoffers : ∀ offered ∈ offers, Distinct offered) (hdepth : Within depth held)
    (h : ∀ offered ∈ offers, Within depth offered) :
    offers.foldl fill (offers.foldl fill held) = offers.foldl fill held := by
  induction depth generalizing held offers with
  | zero =>
    refine foldl_fill_again_of_not_full hoffers fun hfull => ?_
    rcases (full_foldl_fill_iff hoffers held).mp hfull with hfull | ⟨offered, hoffered, hfull⟩
    · exact hdepth.not_full hfull
    · exact (h offered hoffered).not_full hfull
  | succ depth ih =>
    by_cases hfull : Full (offers.foldl fill held)
    · cases hresult : offers.foldl fill held with
      | none => exact absurd hfull (hresult ▸ id)
      | some result =>
        by_cases hmembers : result.members = []
        · rw [hresult] at hfull
          exact foldl_fill_of_leaf hfull hmembers offers
        · refine foldl_fill_again_of_members hoffers hheld hresult hmembers fun key => ?_
          exact ih (hheld.inside key)
            (List.forall_mem_map.mpr fun offered hoffered => (hoffers offered hoffered).inside key)
            (hdepth.inside key)
            (List.forall_mem_map.mpr fun offered hoffered => (h offered hoffered).inside key)
    · exact foldl_fill_again_of_not_full hoffers hfull

/-- Documents laid over a value are offers to the place of the whole value. -/
theorem foldl_fill_map_some (base : Value) (overlays : List Value) :
    (overlays.map some).foldl fill (some base) = some (mergeAll base overlays).1 := by
  rw [List.foldl_map, mergeAll]
  symm
  apply Eq.symm (List.foldl_hom (fun state : Value × List Finding => some state.1) _)
  intro state overlay
  rfl

/-- Laying a list of documents over what they left changes nothing. -/
theorem mergeAll_idempotent (base : Value) (overlays : List Value) (hbase : base.KeysDistinct)
    (h : ∀ overlay ∈ overlays, overlay.KeysDistinct) :
    (mergeAll (mergeAll base overlays).1 overlays).1 = (mergeAll base overlays).1 := by
  have hdistinct {value : Value} (hvalue : value.KeysDistinct) : Distinct (some value) :=
    fun _ heq => Option.some.inj heq ▸ hvalue
  have hwithin {value : Value} (hvalue : value ∈ base :: overlays) :
      Within (Json.itemsNesting (base :: overlays) + 1) (some value) :=
    fun _ heq => Option.some.inj heq ▸ Nat.lt_succ_of_le (Json.nesting_le_of_mem_items hvalue)
  have hagain := foldl_fill_again (hdistinct hbase)
    (List.forall_mem_map.mpr fun overlay hoverlay => hdistinct (h overlay hoverlay)) (hwithin List.mem_cons_self)
    (List.forall_mem_map.mpr fun overlay hoverlay => hwithin (List.mem_cons_of_mem base hoverlay))
  rw [foldl_fill_map_some, foldl_fill_map_some] at hagain
  exact Option.some.inj hagain

/-- A document without a title, whose contact is empty. -/
def untitled : Value := .obj [("info", .obj [("contact", .null)])]

/-- Two documents with a title and an empty contact each. -/
def titles : List Value :=
  [.obj [("info", .obj [("contact", .str ""), ("title", .str "Pets")])],
    .obj [("info", .obj [("contact", .obj []), ("title", .int 7)])]]

/-- Both documents together leave the empty object as the contact again, although the first one alone would replace
it by the empty text. -/
theorem mergeAll_idempotent_contact :
    (mergeAll untitled titles).1 = .obj [("info", .obj [("contact", .obj []), ("title", .str "Pets")])] ∧
    (mergeAll (mergeAll untitled titles).1 (titles.take 1)).1 =
      .obj [("info", .obj [("contact", .str ""), ("title", .str "Pets")])] ∧
    (mergeAll (mergeAll untitled titles).1 titles).1 = (mergeAll untitled titles).1 := by
  refine ⟨rfl, rfl, mergeAll_idempotent untitled titles ?_ ?_⟩
  · simp [untitled, Value.KeysDistinct, Json.membersKeysDistinct]
  · simp [titles, Value.KeysDistinct, Json.membersKeysDistinct]

end ApiScribe.Overlay
