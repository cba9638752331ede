import ApiScribe.Proofs.Json.Decoding
import ApiScribe.Proofs.Schema.References
import Mathlib.Data.List.Perm.Subperm

/-!
# Paths of keys

A value seen from outside: what it holds at a path of keys, which lead through objects only. Where no object has a
key twice, the paths at which a value holds something can be listed without repetition.
-/

namespace ApiScribe.Json

/-- The members of an object; any other value has none. -/
def Value.members : Value → List (String × Value)
  | .obj members => members
  | _ => []

/-- The value at a path of keys. -/
def Value.at? (value : Value) : List String → Option Value
  | [] => some value
  | key :: path => (lookup key value.members).bind fun inner => inner.at? path

mutual

/-- The paths at which a value holds something, each before those that extend it. -/
def Value.paths : Value → List (List String)
  | .obj members => [] :: memberPaths members
  | _ => [[]]

/-- The paths that begin with one of the members. -/
def memberPaths : List (String × Value) → List (List String)
  | [] => []
  | (key, value) :: rest => value.paths.map (key :: ·) ++ memberPaths rest

end

section Keys

variable {α : Type} {key : String}

/-- What is found is in the first members or else in the second. -/
theorem lookup_append (key : String) (members more : List (String × α)) :
    lookup key (members ++ more) = (lookup key members).or (lookup key more) := by
  induction members with
  | nil => rfl
  | cons first rest ih => by_cases h : first.1 = key <;> simp [lookup, h, ih]

/-- Something is found exactly if the key is there. -/
theorem lookup_isSome_iff {members : List (String × α)} :
    (lookup key members).isSome ↔ key ∈ members.map Prod.fst := by
  induction members with
  | nil => simp [lookup]
  | cons first rest ih =>
    by_cases h : first.1 = key
    · simp [lookup, h]
    · simp [lookup, h, ih, Ne.symm h]

/-- A value stored under a known key leaves the keys as they are. -/
theorem keys_insert_of_lookup {held : α} (value : α) {members : List (String × α)}
    (h : lookup key members = some held) : (insert key value members).map Prod.fst = members.map Prod.fst := by
  induction members with
  | nil => cases h
  | cons first rest ih =>
    by_cases hkey : first.1 = key
    · simp [insert, hkey]
    · rw [lookup, if_neg hkey] at h
      rw [insert, if_neg hkey, List.map_cons, List.map_cons, ih h]

/-- Under distinct keys the members are known by their keys and by what is found under each key. -/
theorem members_ext {members others : List (String × α)} (hdistinct : (members.map Prod.fst).Nodup)
    (hkeys : members.map Prod.fst = others.map Prod.fst) (h : ∀ key, lookup key members = lookup key others) :
    members = others := by
  induction members generalizing others with
  | nil => exact (List.map_eq_nil_iff.mp hkeys.symm).symm
  | cons first rest ih =>
    cases others with
    | nil => cases hkeys
    | cons other others =>
      rw [List.map_cons, List.nodup_cons] at hdistinct
      obtain ⟨hkey, hrest⟩ := List.cons.inj hkeys
      have hfirst := h first.1
      rw [lookup, lookup, if_pos rfl, if_pos hkey.symm] at hfirst
      have hothers : ∀ key, lookup key rest = lookup key others := by
        intro key
        by_cases hsame : first.1 = key
        · subst hsame
          rw [lookup_of_not_mem hdistinct.1, lookup_of_not_mem (hrest ▸ hdistinct.1)]
        · have hboth := h key
          rwa [lookup, lookup, if_neg hsame, if_neg (hkey ▸ hsame)] at hboth
      rw [Prod.ext hkey (Option.some.inj hfirst), ih hdistinct.2 hrest hothers]

/-- Members whose keys begin the keys of others are those others if both hold the same under every key. -/
theorem eq_of_isPrefix_keys {members others : List (String × α)} (hdistinct : (others.map Prod.fst).Nodup)
    (hkeys : members.map Prod.fst <+: others.map Prod.fst) (h : ∀ key, lookup key members = lookup key others) :
    members = others := by
  have hsubset : others.map Prod.fst ⊆ members.map Prod.fst := by
    intro key hkey
    rwa [← lookup_isSome_iff, h, lookup_isSome_iff]
  have hsame := hkeys.eq_of_length_le (List.subperm_of_subset hdistinct hsubset).length_le
  exact members_ext (hsame ▸ hdistinct) hsame h

end Keys

/-- A member is nested less deep. -/
theorem Value.nesting_lt_of_mem_members {value : Value} {entry : String × Value} (h : entry ∈ value.members) :
    entry.2.nesting < value.nesting := by
  cases value with
  | obj members => exact Nat.lt_succ_of_le (nesting_le_of_mem_members h)
  | _ => cases h

/-- What holds of a value whenever it holds of its members holds of all values. -/
theorem Value.members_induction {motive : Value → Prop}
    (step : ∀ value : Value, (∀ entry ∈ value.members, motive entry.2) → motive value) (value : Value) :
    motive value := by
  induction hdepth : value.nesting using Nat.strong_induction_on generalizing value with
  | _ depth ih =>
    exact step value fun entry hentry => ih entry.2.nesting (hdepth ▸ nesting_lt_of_mem_members hentry) entry.2 rfl

/-- Keys are distinct within all members exactly if they are within each. -/
theorem membersKeysDistinct_iff {members : List (String × Value)} :
    membersKeysDistinct members ↔ ∀ entry ∈ members, entry.2.KeysDistinct := by
  induction members with
  | nil => simp [membersKeysDistinct]
  | cons entry rest ih => rw [membersKeysDistinct, ih, List.forall_mem_cons]

namespace Value.KeysDistinct

variable {value : Value} (h : value.KeysDistinct)

include h

/-- The keys of an object are distinct. -/
theorem keys_nodup : (value.members.map Prod.fst).Nodup := by
  cases value with
  | obj members => exact h.1
  | _ => exact List.nodup_nil

/-- The members of a value with distinct keys have distinct keys. -/
theorem of_mem {entry : String × Value} (hentry : entry ∈ value.members) : entry.2.KeysDistinct := by
  cases value with
  | obj members => exact membersKeysDistinct_iff.mp h.2 entry hentry
  | _ => cases hentry

/-- What is found in a value with distinct keys has distinct keys. -/
theorem of_lookup {key : String} {inner : Value} (hinner : lookup key value.members = some inner) :
    inner.KeysDistinct :=
  h.of_mem (mem_of_lookup hinner)

end Value.KeysDistinct

/-- The paths of a value are the empty one and those through its members. -/
theorem Value.paths_eq (value : Value) :
    value.paths = [] :: value.members.flatMap fun entry => entry.2.paths.map (entry.1 :: ·) := by
  have hmembers (members : List (String × Value)) :
      memberPaths members = members.flatMap fun entry => entry.2.paths.map (entry.1 :: ·) := by
    induction members with
    | nil => rfl
    | cons entry rest ih => rw [memberPaths, ih, List.flatMap_cons]
  cases value with
  | obj members => rw [Value.paths, hmembers, Value.members]
  | _ => simp [Value.paths, Value.members]

/-- The paths of a value are those at which it holds something. -/
theorem Value.mem_paths_iff {value : Value} (h : value.KeysDistinct) (path : List String) :
    path ∈ value.paths ↔ (value.at? path).isSome := by
  induction path generalizing value with
  | nil =>
    rw [Value.paths_eq]
    exact iff_of_true List.mem_cons_self rfl
  | cons key path ih =>
    rw [Value.paths_eq, List.mem_cons, List.mem_flatMap, Value.at?]
    constructor
    · rintro (hnil | ⟨⟨name, inner⟩, hentry, hpath⟩)
      · cases hnil
      · obtain ⟨_, hinner, heq⟩ := List.mem_map.mp hpath
        cases heq
        rw [lookup_of_mem h.keys_nodup hentry, Option.bind_some]
        exact (ih (h.of_mem hentry)).mp hinner
    · intro hsome
      cases hinner : lookup key value.members with
      | none =>
        rw [hinner] at hsome
        cases hsome
      | some inner =>
        rw [hinner, Option.bind_some] at hsome
        exact .inr ⟨(key, inner), mem_of_lookup hinner,
          List.mem_map_of_mem ((ih (h.of_lookup hinner)).mpr hsome)⟩

/-- No path of a value is listed twice. -/
theorem Value.nodup_paths {value : Value} (h : value.KeysDistinct) : value.paths.Nodup := by
  induction value using Value.members_induction with
  | step value ih =>
    rw [Value.paths_eq, List.nodup_cons, List.nodup_flatMap]
    refine ⟨fun hmem => ?_, fun entry hentry => ?_, ?_⟩
    · obtain ⟨entry, -, hpath⟩ := List.mem_flatMap.mp hmem
      obtain ⟨_, -, heq⟩ := List.mem_map.mp hpath
      cases heq
    · exact (ih entry hentry (h.of_mem hentry)).map (List.cons_injective)
    · refine (List.pairwise_map.mp h.keys_nodup).imp fun hne path hpath hother => ?_
      obtain ⟨_, -, rfl⟩ := List.mem_map.mp hpath
      obtain ⟨_, -, heq⟩ := List.mem_map.mp hother
      exact hne (List.cons.inj heq).1.symm

end ApiScribe.Json
