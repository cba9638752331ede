import ApiScribe.Decimal.Binary64

/-!
# JSON values

Objects are lists of members in insertion order. Integers are exact and stay apart from
binary floating-point numbers, since the two are written differently.
-/

namespace ApiScribe.Json

/-- A JSON value. -/
inductive Value where
  | null
  | bool (b : Bool)
  | int (n : Int)
  | float (x : Binary64)
  | str (s : String)
  | arr (items : List Value)
  | obj (members : List (String × Value))
deriving Repr, Inhabited

/-- The value stored under a key. -/
def lookup {α : Type} (key : String) : List (String × α) → Option α
  | [] => none
  | (k, v) :: rest => if k = key then some v else lookup key rest

/-- Store a value: a known key keeps its place and takes the new value, a new key goes last. -/
def insert {α : Type} (key : String) (value : α) : List (String × α) → List (String × α)
  | [] => [(key, value)]
  | (k, v) :: rest => if k = key then (k, value) :: rest else (k, v) :: insert key value rest

/-- Store every member in turn, so that each key appears once. -/
def insertAll {α : Type} (members : List (String × α)) : List (String × α) :=
  members.foldl (fun stored member => insert member.1 member.2 stored) []

/-- What is stored under a key is found. -/
@[simp] theorem lookup_insert_self {α : Type} (key : String) (value : α) (members : List (String × α)) :
    lookup key (insert key value members) = some value := by
  induction members with
  | nil => simp [insert, lookup]
  | cons member rest ih =>
    by_cases h : member.1 = key <;> simp [insert, lookup, h, ih]

/-- What is stored under another key makes no difference. -/
theorem lookup_insert_of_ne {α : Type} {key other : String} (h : other ≠ key) (value : α)
    (members : List (String × α)) : lookup other (insert key value members) = lookup other members := by
  induction members with
  | nil => simp [insert, lookup, h.symm]
  | cons member rest ih =>
    by_cases hk : member.1 = key
    · have : key ≠ other := h.symm
      simp [insert, lookup, hk, this]
    · by_cases ho : member.1 = other <;> simp [insert, lookup, hk, ih]

end ApiScribe.Json
