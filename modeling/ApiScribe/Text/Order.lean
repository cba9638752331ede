/-!
# The order of text

Texts are compared by code point, which is also the order of their UTF-8 bytes. A sorted list
of entries with distinct keys is the ordered map of this library.
-/

namespace ApiScribe.Text

/-- Compare two lists item by item; a list comes before its extensions. -/
def compareLists {α : Type} (cmp : α → α → Ordering) : List α → List α → Ordering
  | [], [] => .eq
  | [], _ :: _ => .lt
  | _ :: _, [] => .gt
  | a :: as, b :: bs =>
    match cmp a b with
    | .eq => compareLists cmp as bs
    | order => order

/-- Compare two texts by code point. -/
def compareText (a b : String) : Ordering :=
  compareLists (fun c d : Char => compare c.toNat d.toNat) a.toList b.toList

/-- Store an entry in a list sorted by key, replacing the entry of an equal key. -/
def insertSorted {κ α : Type} (cmp : κ → κ → Ordering) (key : κ) (value : α) :
    List (κ × α) → List (κ × α)
  | [] => [(key, value)]
  | (k, v) :: rest =>
    match cmp key k with
    | .lt => (key, value) :: (k, v) :: rest
    | .eq => (key, value) :: rest
    | .gt => (k, v) :: insertSorted cmp key value rest

end ApiScribe.Text
