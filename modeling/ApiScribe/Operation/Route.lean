import ApiScribe.Text.Basic

/-!
# Routes

A route below a base path, and the names of the `{name}` groups in a path template.
-/

namespace ApiScribe.Operation

/-- The route on its own, starting with a slash. -/
def rooted (route : List Char) : List Char :=
  match route with
  | '/' :: _ => route
  | _ => '/' :: route

/-- Put a trimmed route below a trimmed base that has lost its final slashes. -/
def joinChars (base route : List Char) : List Char :=
  if base.isEmpty then rooted route
  else
    match route.dropWhile (· == '/') with
    | [] => base
    | rest => base ++ '/' :: rest

/-- Put a route below an optional base path. -/
def joinPath (base : Option String) (route : String) : String :=
  let route := Text.strip Text.isBlank route.toList
  let base :=
    match base with
    | some base => Text.stripEnd (· == '/') (Text.strip Text.isBlank base.toList)
    | none => []
  String.ofList (joinChars base route)

/-- The trimmed texts of the `{...}` groups, in order; an unclosed group ends the search.

The second argument holds the characters of the group being read, last first. -/
def groups : List Char → Option (List Char) → List (List Char)
  | [], _ => []
  | c :: cs, none => if c = '\x7b' then groups cs (some []) else groups cs none
  | c :: cs, some inside =>
    if c = '\x7d' then Text.strip Text.isBlank inside.reverse :: groups cs none
    else groups cs (some (c :: inside))

/-- Keep the first occurrence of each item. -/
def firstOccurrences {α : Type} [DecidableEq α] (items : List α) : List α :=
  items.foldl (fun kept item => if item ∈ kept then kept else kept ++ [item]) []

/-- The names of the groups of a path template, each once, blank ones left out. -/
def templateParameters (path : String) : List String :=
  (firstOccurrences ((groups path.toList none).filter fun name => !name.isEmpty)).map String.ofList

end ApiScribe.Operation
