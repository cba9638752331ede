import ApiScribe.Source.Grammar.Expressions

/-!
# Statements and arms

In the place of a statement or the body of an arm, an expression that ends in a block of its own is
taken alone, unless a point or a question mark follows.
-/

namespace ApiScribe.Source

variable (g : Grammar)

/-- Take an expression in the place of a statement or the body of an arm. -/
def standaloneExpr : Rule ExprShape := do
  let (_, inAttributes) ← apart (outerAttributes g)
  if ← ahead blockAhead then
    gather inAttributes
    let shape ← blockExpr g
    if ← ahead fun trees => pointAhead trees || markAhead "?" trees then
      let shape ← trailers g shape
      climbRule g shape .any true
    else return shape
  else
    let (shape, inOperand) ← apart (operandRule g true)
    gather ((if shape.form = .verbatim then [] else inAttributes) ++ inOperand)
    climbRule g shape .any true

/-- Take one arm of a match. -/
def arm : Rule Unit := do
  let _ ← outerAttributes g
  let _ ← g.pattern true
  if ← word? "if" then g.expr true
  mark "=>"
  let shape ← standaloneExpr g
  if shape.form ≠ .block && (← ahead fun trees => !trees.isEmpty) then mark ","
  else
    let _ ← mark? ","

/-- Take the arms of a match to their end. -/
def armsRule : Rule Unit := do
  let _ ← members (arm g)

/-- Whether an item starts here, rather than an expression. -/
def itemAhead (trees : List Tree) : Bool :=
  let next := trees.drop 1
  let after := trees.drop 2
  oneWordAhead ["pub", "extern", "use", "fn", "mod", "type", "struct", "enum", "trait", "impl", "macro"] trees ||
    (wordAhead "crate" trees && !markAhead "::" next) ||
    (wordAhead "static" trees && (wordAhead "mut" next || nameAhead next)) ||
    (wordAhead "const" trees && !(groupAhead .brace next || oneWordAhead ["static", "move"] next ||
      markAhead "|" next || (wordAhead "async" next && !oneWordAhead ["unsafe", "extern", "fn"] after))) ||
    (wordAhead "unsafe" trees && !groupAhead .brace next) ||
    (wordAhead "async" trees && oneWordAhead ["unsafe", "extern", "fn"] next) ||
    (wordAhead "union" trees && nameAhead next) ||
    (wordAhead "auto" trees && wordAhead "trait" next) ||
    (wordAhead "default" trees && oneWordAhead ["unsafe", "impl"] next)

/-- Whether a macro call in the place of an item is in front, such as a `macro_rules!`. -/
def itemMacroAhead (trees : List Tree) : Bool :=
  match after? plainPath trees with
  | some rest => markAhead "!" rest && (nameAhead (rest.drop 1) || wordAhead "try" (rest.drop 1))
  | none => false

/-- Whether a macro call in braces that is a statement of its own is in front. -/
def blockMacroAhead (trees : List Tree) : Bool :=
  match after? plainPath trees with
  | some rest =>
    markAhead "!" rest && groupAhead .brace (rest.drop 1) &&
      !(pointAhead (rest.drop 2) || markAhead "?" (rest.drop 2))
  | none => false

/-- Whether the trees taken between two places end in braces. -/
def endsInBraces (before after : List Tree) : Bool :=
  match (before.take (before.length - after.length)).getLast? with
  | some (.group .brace _) => true
  | _ => false

/-- Take a `let` statement. A value that ends in braces has no `else`. -/
def localBinding : Rule Unit := do
  word "let"
  let _ ← g.pattern false
  if ← mark? ":" then
    let _ ← g.type true
  if ← mark? "=" then
    let before ← front
    g.expr true
    let after ← front
    if !endsInBraces before after then
      if ← word? "else" then plainBlock g
  mark ";"

/-- Take a macro call in braces. -/
def blockMacro : Rule Unit := do
  let _ ← plainPath
  mark "!"
  let _ ← anyGroup
  let _ ← mark? ";"

/-- Take one statement; say whether another may follow. -/
def statement : Rule Bool := do
  let start ← get
  let (_, inAttributes) ← apart (outerAttributes g)
  let trees ← front
  if itemMacroAhead trees || (!wordAhead "let" trees && !blockMacroAhead trees && itemAhead trees) then
    set start
    gather [← g.item]
    return true
  else if blockMacroAhead trees then
    gather inAttributes
    blockMacro
    return true
  else if wordAhead "let" trees then
    gather inAttributes
    localBinding g
    return true
  else
    let (shape, inExpr) ← apart (standaloneExpr g)
    gather ((if shape.bare then [] else inAttributes) ++ inExpr)
    let ended ← mark? ";"
    return ended || shape.form = .block || shape.form = .bracedCall

/-- Take the statements of a block to its end, at most `fuel` of them. -/
def statementsAtMost : Nat → Rule Unit
  | 0 => failure
  | fuel + 1 => do
    let _ ← repeatWhile (markAhead ";") (mark ";")
    if ← ahead List.isEmpty then return ()
    else
      let ended ← statement g
      if ← ahead List.isEmpty then return ()
      else if ended then statementsAtMost fuel
      else failure

/-- Take the statements of a block to its end. -/
def statementsRule : Rule Unit := do
  statementsAtMost g ((← front).length + 1)

end ApiScribe.Source
