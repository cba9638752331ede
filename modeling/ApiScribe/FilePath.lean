import ApiScribe.Text.Basic
import ApiScribe.Text.Order

/-!
# File paths

A path is compared part by part. Empty parts do not count, nor does a `.` other than at the front.
-/

namespace ApiScribe.FilePath

/-- A part of a path. -/
inductive Part where
  | root
  | here
  | up
  | name (text : String)
deriving DecidableEq, Repr

/-- The rank of a part among the kinds of parts. -/
def Part.rank : Part → Nat
  | .root => 0
  | .here => 1
  | .up => 2
  | .name _ => 3

/-- The order of parts: by kind, names by their text. -/
def Part.compare : Part → Part → Ordering
  | .name a, .name b => Text.compareText a b
  | a, b => Ord.compare a.rank b.rank

/-- The parts of a path after its front. -/
def partsOf (pieces : List String) : List Part :=
  (pieces.filter fun piece => piece != "" && piece != ".").map fun piece =>
    if piece = ".." then .up else .name piece

/-- The parts of a path. -/
def parts (path : String) : List Part :=
  match Text.splitOnChar '/' path with
  | "" :: rest => if rest.isEmpty then [] else .root :: partsOf rest
  | "." :: rest => .here :: partsOf rest
  | pieces => partsOf pieces

/-- The order of paths, part by part. -/
def compare (a b : String) : Ordering := Text.compareLists Part.compare (parts a) (parts b)

/-- Whether two paths have the same parts. -/
def same (a b : String) : Bool := parts a = parts b

/-- The ending of a file's name: what follows its last point, unless nothing stands before it. -/
def nameExtension? (name : String) : Option String :=
  match Text.cutAt (· == '.') name.toList.reverse with
  | some (ending, stem) => if stem.isEmpty then none else some (String.ofList ending.reverse)
  | none => none

/-- The ending of the last name of a path. -/
def extension? (path : String) : Option String :=
  match (parts path).getLast? with
  | some (.name name) => nameExtension? name
  | _ => none

/-- Whether a piece of a path between slashes leads nowhere. -/
def isIdle (piece : String) : Bool := piece == "" || piece == "."

/-- Pieces of a path without those at its end that lead nowhere. The first piece stays, since it is the
top or the place that the path starts from. -/
def trimPieces : List String → List String
  | [] => []
  | first :: rest => first :: (rest.reverse.dropWhile isIdle).reverse

/-- The path of the directory that a path lies in; the top lies in none. -/
def parent? (path : String) : Option String :=
  match trimPieces (Text.splitOnChar '/' path) with
  | [""] => none
  | pieces =>
    match trimPieces pieces.dropLast with
    | [""] => some "/"
    | trimmed => some (Text.join "/" trimmed)

/-- Insert an item into a list sorted by path, behind items of an equal path. -/
def insertSorted {α : Type} (path : α → String) (item : α) : List α → List α
  | [] => [item]
  | other :: rest =>
    match compare (path item) (path other) with
    | .lt => item :: other :: rest
    | _ => other :: insertSorted path item rest

/-- Sort items by path, keeping the order of items of an equal path. -/
def sort {α : Type} (path : α → String) (items : List α) : List α :=
  items.foldl (fun sorted item => insertSorted path item sorted) []

end ApiScribe.FilePath
