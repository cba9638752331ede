/-!
# Token trees

A source text is a list of token trees: identifiers, lifetimes, literals, single punctuation
characters, and groups between matching delimiters. A punctuation character remembers whether
another one follows it directly, so that `::` and `: :` stay apart.
-/

namespace ApiScribe.Source

/-- The delimiters of a group. -/
inductive Delimiter where
  | paren | bracket | brace
deriving DecidableEq, Repr

/-- A literal, with what the grammar asks of it. -/
inductive Literal where
  | text (value : String)
  /-- A whole number, and whether a suffix such as `u8` follows its digits. -/
  | integer (value : Nat) (suffixed : Bool)
  /-- A number with a point or an exponent, as it is written. -/
  | float (written : String)
  /-- Characters, bytes and their strings. -/
  | other
deriving DecidableEq, Repr

/-- Whether a literal is a number. -/
def Literal.isNumber : Literal → Bool
  | .integer _ _ => true
  | .float _ => true
  | _ => false

/-- A token or a group of tokens. Raw identifiers keep their `r#`. -/
inductive Tree where
  | ident (name : String)
  | lifetime (name : String)
  | punct (char : Char) (joint : Bool)
  | literal (value : Literal)
  | group (delimiter : Delimiter) (content : List Tree)
deriving Repr, Inhabited

mutual

/-- The number of tokens in a tree, a group counting its two delimiters. -/
def Tree.weight : Tree → Nat
  | .group _ content => 2 + weightAll content
  | _ => 1

/-- The number of tokens in a list of trees. -/
def weightAll : List Tree → Nat
  | [] => 0
  | tree :: rest => tree.weight + weightAll rest

end

/-- A token before groups are formed. -/
inductive FlatToken where
  | opening (delimiter : Delimiter)
  | closing (delimiter : Delimiter)
  | leaf (tree : Tree)
deriving Repr, Inhabited

/-- The groups that are open while trees are formed, innermost first; trees are kept last first. -/
structure Nesting where
  current : List Tree := []
  outer : List (Delimiter × List Tree) := []

/-- Add one token; `none` when a closing delimiter does not match. -/
def Nesting.step (nesting : Nesting) : FlatToken → Option Nesting
  | .leaf tree => some { nesting with current := tree :: nesting.current }
  | .opening delimiter => some ⟨[], (delimiter, nesting.current) :: nesting.outer⟩
  | .closing delimiter =>
    match nesting.outer with
    | (opened, before) :: outer =>
      if opened = delimiter then some ⟨.group delimiter nesting.current.reverse :: before, outer⟩
      else none
    | [] => none

/-- Form the trees of a flat list; `none` when delimiters do not match. -/
def Tree.ofFlat? (tokens : List FlatToken) : Option (List Tree) := do
  let nesting ← tokens.foldlM Nesting.step {}
  if nesting.outer.isEmpty then some nesting.current.reverse else none

end ApiScribe.Source
