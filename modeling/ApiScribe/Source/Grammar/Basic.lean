import ApiScribe.Source.Syntax

/-!
# Reading from token trees

A rule takes trees from the front and may fail. Rules that refer to each other do so through a
`Grammar`, which holds the rules one level of nesting down; each rule on its own is then an
ordinary definition, and the grammar of every depth is built by recursion on the depth.

Besides its result a rule gathers the items declared in the blocks that it reads. They are gathered
in the order in which they are visited, which is not always that of the text.
-/

namespace ApiScribe.Source

/-- What a rule reads from, and what reading has come across. -/
structure Stream where
  /-- The trees in front. -/
  trees : List Tree
  /-- The items declared in the blocks that were read. -/
  found : List Item := []
  /-- Whether a group was left before its end. -/
  leftover : Bool := false

/-- A rule that takes token trees from the front. -/
abbrev Rule (α : Type) := StateT Stream Option α

/-- How strongly an operator binds. -/
inductive Precedence where
  /-- Weaker than every operator. -/
  | any
  | assign | range | or | and | compare | bitOr | bitXor | bitAnd | shift | sum | product
  | cast
deriving DecidableEq, Repr

/-- The place of a precedence in their order, the weakest first. -/
def Precedence.rank : Precedence → Nat
  | .any => 0
  | .assign => 1
  | .range => 2
  | .or => 3
  | .and => 4
  | .compare => 5
  | .bitOr => 6
  | .bitXor => 7
  | .bitAnd => 8
  | .shift => 9
  | .sum => 10
  | .product => 11
  | .cast => 12

/-- The form of an expression, as far as its surroundings depend on it. -/
inductive ExprForm where
  | range
  | comparison
  /-- Ending in a block of its own, so that no terminator is needed. -/
  | block
  /-- A macro call in braces. -/
  | bracedCall
  /-- Kept as it is written: nothing in it is visited. -/
  | verbatim
  | other
deriving DecidableEq, Repr

/-- What is known of an expression that was taken. -/
structure ExprShape where
  form : ExprForm
  /-- Whether the operand that it starts with is kept as it is written. -/
  bare : Bool := false
deriving DecidableEq, Repr

/-- The form of a pattern, as far as its surroundings depend on it. -/
inductive PatternForm where
  /-- A range without one of its ends. -/
  | openRange
  /-- Kept as it is written: nothing in it is visited. -/
  | verbatim
  | other
deriving DecidableEq, Repr

/-- The rules that may occur inside others. -/
structure Grammar where
  /-- A type; the flag allows bounds joined by `+`. -/
  type : Bool → Rule TypeSyntax
  /-- A bound, and whether it is a trait; the flags allow `use<...>` and `const`. -/
  bound : Bool → Bool → Rule Bool
  /-- A pattern; the flag allows alternatives. -/
  pattern : Bool → Rule PatternForm
  /-- An expression; the flag allows struct literals. -/
  expr : Bool → Rule Unit
  /-- An operand with the operators in front of it and the trailers after it. -/
  operand : Bool → Rule ExprShape
  /-- The operators of at least a precedence after an expression, with their right sides. -/
  climb : ExprShape → Precedence → Bool → Rule ExprShape
  /-- The statements of a block, to its end. -/
  statements : Rule Unit
  /-- The arms of a match, to their end. -/
  arms : Rule Unit
  /-- The tree of a `use` declaration; `none` when a member starts at the crate root. -/
  useTree : Bool → Rule (Option UseTree)
  /-- An item; those in its blocks belong to it. -/
  item : Rule Item

/-- Words that are not identifiers unless they are raw. -/
def reservedWords : List String :=
  ["_", "abstract", "as", "async", "await", "become", "box", "break", "const", "continue", "crate",
   "do", "dyn", "else", "enum", "extern", "false", "final", "fn", "for", "if", "impl", "in", "let",
   "loop", "macro", "match", "mod", "move", "mut", "override", "priv", "pub", "ref", "return", "Self",
   "self", "static", "struct", "super", "trait", "true", "try", "type", "typeof", "unsafe", "unsized",
   "use", "virtual", "where", "while", "yield"]

/-- Whether the given word is in front. -/
def wordAhead (word : String) : List Tree → Bool
  | .ident name :: _ => name == word
  | _ => false

/-- Whether one of the given words is in front. -/
def oneWordAhead (words : List String) (trees : List Tree) : Bool :=
  words.any fun word => wordAhead word trees

/-- Whether an identifier is in front. -/
def nameAhead : List Tree → Bool
  | .ident name :: _ => !reservedWords.contains name
  | _ => false

/-- Whether an identifier or a reserved word is in front. -/
def anyWordAhead : List Tree → Bool
  | .ident _ :: _ => true
  | _ => false

/-- What follows the given punctuation, whose characters must be joined. -/
def afterMark? : List Char → List Tree → Option (List Tree)
  | [], trees => some trees
  | [c], .punct d _ :: rest => if c = d then some rest else none
  | c :: cs, .punct d joint :: rest => if c = d && joint then afterMark? cs rest else none
  | _, _ => none

/-- Whether the given punctuation is in front. -/
def markAhead (mark : String) (trees : List Tree) : Bool :=
  (afterMark? mark.toList trees).isSome

/-- Whether a group with this delimiter is in front. -/
def groupAhead (delimiter : Delimiter) : List Tree → Bool
  | .group d _ :: _ => d = delimiter
  | _ => false

/-- Whether a lifetime is in front. -/
def lifetimeAhead : List Tree → Bool
  | .lifetime _ :: _ => true
  | _ => false

/-- Whether a literal is in front, negative numbers and truth values included. -/
def literalAhead : List Tree → Bool
  | .literal _ :: _ => true
  | .punct '-' _ :: .literal value :: _ => value.isNumber
  | trees => oneWordAhead ["true", "false"] trees

/-- Whether a path may start here. -/
def pathAhead (trees : List Tree) : Bool :=
  nameAhead trees || markAhead "::" trees || markAhead "<" trees ||
    oneWordAhead ["self", "Self", "super", "crate"] trees

/-- Whether generic parameters, and not a path in angle brackets, are in front. -/
def genericsAhead (trees : List Tree) : Bool :=
  let next := trees.drop 1
  let after := trees.drop 2
  markAhead "<" trees &&
    (markAhead ">" next || markAhead "#" next || wordAhead "const" next ||
      ((lifetimeAhead next || nameAhead next) &&
        (markAhead ">" after || markAhead "," after || (markAhead ":" after && !markAhead "::" after) ||
          markAhead "=" after)))

/-- Whether a lone point is in front, and not the points of a range. -/
def pointAhead (trees : List Tree) : Bool :=
  markAhead "." trees && !markAhead ".." trees

/-- Whether the bang of a macro call is in front, and not an inequality. -/
def bangAhead (trees : List Tree) : Bool :=
  markAhead "!" trees && !markAhead "!=" trees

/-- The trees in front. -/
def front : Rule (List Tree) := do return (← get).trees

/-- Go on with the given trees. -/
def goOn (trees : List Tree) : Rule Unit := modify fun stream => { stream with trees }

/-- Ask something of the trees in front. -/
def ahead (question : List Tree → Bool) : Rule Bool := do return question (← front)

/-- Take a word. -/
def word (expected : String) : Rule Unit := do
  match ← front with
  | .ident name :: rest => if name = expected then goOn rest else failure
  | _ => failure

/-- Take a word if it is in front. -/
def word? (expected : String) : Rule Bool := do
  if ← ahead (wordAhead expected) then
    word expected
    return true
  else return false

/-- Take an identifier. -/
def name : Rule String := do
  match ← front with
  | .ident found :: rest => if reservedWords.contains found then failure else goOn rest; return found
  | _ => failure

/-- Take an identifier or a reserved word. -/
def anyWord : Rule String := do
  match ← front with
  | .ident found :: rest => goOn rest; return found
  | _ => failure

/-- Take an identifier or one of the given reserved words. -/
def nameOr (words : List String) : Rule String := do
  if ← ahead (oneWordAhead words) then anyWord else name

/-- Take punctuation. -/
def mark (expected : String) : Rule Unit := do
  match afterMark? expected.toList (← front) with
  | some rest => goOn rest
  | none => failure

/-- Take punctuation if it is in front. -/
def mark? (expected : String) : Rule Bool := do
  match afterMark? expected.toList (← front) with
  | some rest => goOn rest; return true
  | none => return false

/-- Take a lifetime. -/
def lifetime : Rule Unit := do
  match ← front with
  | .lifetime _ :: rest => goOn rest
  | _ => failure

/-- Take a lifetime if it is in front. -/
def lifetime? : Rule Bool := do
  if ← ahead lifetimeAhead then
    lifetime
    return true
  else return false

/-- Take a literal, the sign of a negative number included. -/
def literal : Rule Unit := do
  match ← front with
  | .literal _ :: rest => goOn rest
  | .punct '-' _ :: .literal value :: rest => if value.isNumber then goOn rest else failure
  | .ident found :: rest => if found = "true" || found = "false" then goOn rest else failure
  | _ => failure

/-- Take a group. What the inner rule leaves of its content is noted as left over. -/
def within {α : Type} (delimiter : Delimiter) (inner : Rule α) : Rule α := do
  match ← front with
  | .group d content :: rest =>
    if d = delimiter then
      goOn content
      let result ← inner
      modify fun stream =>
        { stream with trees := rest, leftover := stream.leftover || !stream.trees.isEmpty }
      return result
    else failure
  | _ => failure

/-- Take a group of any delimiter whole, and say which it was. -/
def anyGroup : Rule Delimiter := do
  match ← front with
  | .group d _ :: rest => goOn rest; return d
  | _ => failure

/-- Repeat a rule while the trees in front ask for it, at most `fuel` times. -/
def repeatAtMost {α : Type} (more : List Tree → Bool) (rule : Rule α) : Nat → Rule (List α)
  | 0 => return []
  | fuel + 1 => do
    if ← ahead more then
      let first ← rule
      let rest ← repeatAtMost more rule fuel
      return first :: rest
    else return []

/-- Repeat a rule while the trees in front ask for it. -/
def repeatWhile {α : Type} (more : List Tree → Bool) (rule : Rule α) : Rule (List α) := do
  repeatAtMost more rule ((← front).length + 1)

/-- Repeat a rule to the end. -/
def members {α : Type} (rule : Rule α) : Rule (List α) :=
  repeatWhile (fun trees => !trees.isEmpty) rule

/-- Take items separated by a mark until `stop` holds, a trailing mark allowed. -/
def listAtMost {α : Type} (separator : String) (stop : List Tree → Bool) (rule : Rule α) :
    Nat → Rule (List α)
  | 0 => failure
  | fuel + 1 => do
    if ← ahead stop then return []
    else
      let first ← rule
      if ← ahead stop then return [first]
      else
        mark separator
        let rest ← listAtMost separator stop rule fuel
        return first :: rest

/-- Take items separated by a mark until `stop` holds, a trailing mark allowed. -/
def listUntil {α : Type} (separator : String) (stop : List Tree → Bool) (rule : Rule α) :
    Rule (List α) := do
  listAtMost separator stop rule ((← front).length + 1)

/-- Take comma-separated items to the end. -/
def commaList {α : Type} (rule : Rule α) : Rule (List α) :=
  listUntil "," List.isEmpty rule

/-- Take bounds joined by `+`, ending where `stop` holds or no `+` follows. -/
def plusAtMost {α : Type} (stop : List Tree → Bool) (rule : Rule α) : Nat → Rule (List α)
  | 0 => failure
  | fuel + 1 => do
    if ← ahead stop then return []
    else
      let first ← rule
      if ← mark? "+" then
        let rest ← plusAtMost stop rule fuel
        return first :: rest
      else return [first]

/-- Take bounds joined by `+`, ending where `stop` holds or no `+` follows. -/
def plusUntil {α : Type} (stop : List Tree → Bool) (rule : Rule α) : Rule (List α) := do
  plusAtMost stop rule ((← front).length + 1)

/-- Apply a rule if it succeeds, else take nothing. -/
def attempt {α : Type} (rule : Rule α) : Rule (Option α) := fun stream =>
  match rule.run stream with
  | some (result, rest) => some (some result, rest)
  | none => some (none, stream)

/-- The trees after what a rule takes; `none` when it fails. -/
def after? {α : Type} (rule : Rule α) (trees : List Tree) : Option (List Tree) :=
  (rule.run ⟨trees, [], false⟩).map fun (_, stream) => stream.trees

/-- Gather items. -/
def gather (items : List Item) : Rule Unit :=
  modify fun stream => { stream with found := stream.found ++ items }

/-- Apply a rule and hand over the items that it came across instead of gathering them. -/
def apart {α : Type} (rule : Rule α) : Rule (α × List Item) := do
  let before := (← get).found
  modify fun stream => { stream with found := [] }
  let result ← rule
  let items := (← get).found
  modify fun stream => { stream with found := before }
  return (result, items)

/-- Apply a rule and gather nothing of what it came across. -/
def unseen {α : Type} (rule : Rule α) : Rule α := do return (← apart rule).1

end ApiScribe.Source
