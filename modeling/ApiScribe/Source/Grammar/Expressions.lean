import ApiScribe.Source.Grammar.Patterns

/-!
# Expressions

An expression is an operand followed by operators, each of which takes what binds more strongly than
itself as its right side. A range cannot be the left side of an operator, and comparisons do not
chain.
-/

namespace ApiScribe.Source

variable (g : Grammar)

/-- The operators between two operands, each before those that it starts with. -/
def binaryOperators : List (String × Precedence) :=
  [("+=", .assign), ("-=", .assign), ("*=", .assign), ("/=", .assign), ("%=", .assign),
   ("^=", .assign), ("&=", .assign), ("|=", .assign), ("<<=", .assign), (">>=", .assign),
   ("&&", .and), ("||", .or), ("<<", .shift), (">>", .shift), ("==", .compare), ("<=", .compare),
   ("!=", .compare), (">=", .compare), ("+", .sum), ("-", .sum), ("*", .product), ("/", .product),
   ("%", .product), ("^", .bitXor), ("&", .bitAnd), ("|", .bitOr), ("<", .compare), (">", .compare)]

/-- The operator in front and its precedence. -/
def operatorAhead? (trees : List Tree) : Option (String × Precedence) :=
  binaryOperators.find? fun (operator, _) => markAhead operator trees

/-- Whether an assignment is in front, and not the arrow of an arm. -/
def assignAhead (trees : List Tree) : Bool :=
  markAhead "=" trees && !markAhead "=>" trees

/-- The precedence of what is in front. -/
def precedenceAhead (trees : List Tree) : Precedence :=
  match operatorAhead? trees with
  | some (_, precedence) => precedence
  | none =>
    if assignAhead trees then .assign
    else if markAhead ".." trees then .range
    else if wordAhead "as" trees then .cast
    else .any

/-- Extend a right side while what follows binds more strongly than its operator. Assignments join
from the right. -/
def extendRight (precedence : Precedence) (allowStruct : Bool) : Nat → ExprShape → Rule Unit
  | 0, _ => return ()
  | fuel + 1, shape => do
    let trees ← front
    let next := precedenceAhead trees
    if precedence.rank < next.rank || (next = precedence && precedence = .assign) then
      let shape ← g.climb shape next allowStruct
      if (← front).length < trees.length then extendRight precedence allowStruct fuel shape

/-- Take the right side of an operator. -/
def rightSide (precedence : Precedence) (allowStruct : Bool) : Rule Unit := do
  let first ← g.operand allowStruct
  extendRight g precedence allowStruct ((← front).length + 1) first

/-- Whether the end of a range is missing. -/
def rangeEndMissing (allowStruct : Bool) (trees : List Tree) : Bool :=
  trees.isEmpty || pointAhead trees || (!allowStruct && groupAhead .brace trees) ||
    wordAhead "as" trees ||
    [",", ";", "?", "=>", "=", "+", "/", "%", "^", ">", "<=", "!=", "-=", "*=", "&=", "|=", "<<="].any
      fun sign => markAhead sign trees

/-- Take the points of a range and its end, which only a range that excludes it may lack. -/
def rangeTail (allowStruct : Bool) : Rule Unit := do
  if ← ahead (markAhead "...") then failure
  else if ← mark? "..=" then rightSide g .range allowStruct
  else
    mark ".."
    if ← ahead (rangeEndMissing allowStruct) then return () else rightSide g .range allowStruct

/-- Take the type of a cast, after which no trailer may follow. -/
def castType : Rule Unit := do
  let _ ← g.type false
  if ← ahead fun trees => pointAhead trees || markAhead "?" trees || groupAhead .bracket trees ||
      groupAhead .paren trees then failure

/-- Take the operators of at least the precedence `base`, at most `fuel` of them. -/
def climbAtMost (base : Precedence) (allowStruct : Bool) : Nat → ExprShape → Rule ExprShape
  | 0, shape => return shape
  | fuel + 1, shape => do
    let trees ← front
    if shape.form = .range then return shape
    else
      match operatorAhead? trees with
      | some (operator, precedence) =>
        if precedence.rank < base.rank then return shape
        else if precedence = .compare && shape.form = .comparison then failure
        else
          mark operator
          rightSide g precedence allowStruct
          let form := if precedence = .compare then .comparison else .other
          climbAtMost base allowStruct fuel { shape with form }
      | none =>
        if base.rank ≤ Precedence.assign.rank && assignAhead trees then
          mark "="
          rightSide g .assign allowStruct
          climbAtMost base allowStruct fuel { shape with form := .other }
        else if base.rank ≤ Precedence.range.rank && markAhead ".." trees then
          rangeTail g allowStruct
          return ⟨.range, false⟩
        else if ← word? "as" then
          castType g
          climbAtMost base allowStruct fuel { shape with form := .other }
        else return shape

/-- Take the operators of at least the precedence `base` after an expression. -/
def climbRule (shape : ExprShape) (base : Precedence) (allowStruct : Bool) : Rule ExprShape := do
  climbAtMost g base allowStruct ((← front).length + 1) shape

/-- Take a head and what follows it in braces. The attributes at the top of the braces are visited
before the head. -/
def headAndBody (head body : Rule Unit) : Rule Unit := do
  let (_, inHead) ← apart head
  within .brace (do
    let _ ← innerAttributes g
    gather inHead
    body)

/-- Take an `if` and its `else` branches, at most `fuel` of them. -/
def conditional : Nat → Rule Unit
  | 0 => failure
  | fuel + 1 => do
    word "if"
    g.expr false
    plainBlock g
    if ← word? "else" then
      if ← ahead (wordAhead "if") then conditional fuel else plainBlock g

/-- Take a loop, if one is in front. -/
def loopExpr? : Rule Bool := do
  if ← word? "while" then
    headAndBody g (g.expr false) g.statements
    return true
  else if ← word? "for" then
    headAndBody g (do let _ ← g.pattern true; word "in"; g.expr false) g.statements
    return true
  else if ← word? "loop" then
    block g
    return true
  else return false

/-- Whether an expression that ends in a block of its own is in front. -/
def blockAhead (trees : List Tree) : Bool :=
  let next := trees.drop 1
  oneWordAhead ["if", "while", "loop", "match", "unsafe"] trees || groupAhead .brace trees ||
    lifetimeAhead trees || (oneWordAhead ["try", "const"] trees && groupAhead .brace next) ||
    (wordAhead "for" trees && !genericsAhead next)

/-- Take an expression that ends in a block of its own: a loop, a branch, a match or a block. Only
loops and blocks have labels. -/
def blockExpr : Rule ExprShape := do
  let labelled ← lifetime?
  if labelled then mark ":"
  if ← loopExpr? g then return ⟨.block, false⟩
  else if labelled then block g
  else if ← ahead (wordAhead "if") then conditional g ((← front).length + 1)
  else if ← word? "match" then headAndBody g (g.expr false) g.arms
  else if ← word? "try" then plainBlock g
  else
    if !(← word? "unsafe") then
      let _ ← word? "const"
    block g
  return ⟨.block, false⟩

/-- Take one field of a struct literal. -/
def fieldValue : Rule Unit := do
  let _ ← outerAttributes g
  let named ← fieldLabel
  if !named || (← ahead (markAhead ":")) then
    mark ":"
    g.expr true

/-- Take the fields of a struct literal; a base that fills the others ends them. -/
def fieldValues : Nat → Rule Unit
  | 0 => failure
  | fuel + 1 => do
    if ← ahead List.isEmpty then return ()
    else if ← mark? ".." then
      if ← ahead List.isEmpty then return () else g.expr true
    else
      fieldValue g
      if ← ahead fun trees => !trees.isEmpty then
        mark ","
        fieldValues fuel

/-- Take a path, a macro call or a struct literal. -/
def pathExpr (allowStruct : Bool) : Rule ExprShape := do
  let path ← fullPath g true
  if path.isPlain && (← ahead bangAhead) then
    mark "!"
    return ⟨if (← anyGroup) = .brace then .bracedCall else .other, false⟩
  else
    if allowStruct && (← ahead (groupAhead .brace)) then
      within .brace (do fieldValues g ((← front).length + 1))
    return ⟨.other, false⟩

/-- Take a parameter of a closure. -/
def closureParameter : Rule Unit := do
  let (_, inAttributes) ← apart (outerAttributes g)
  let (form, inPattern) ← apart (g.pattern false)
  let typed ← mark? ":"
  gather ((if typed || form ≠ .verbatim then inAttributes else []) ++ inPattern)
  if typed then
    let _ ← g.type true

/-- Take a closure. -/
def closure (allowStruct : Bool) : Rule Unit := do
  let _ ← binder g
  let _ ← word? "const"
  let _ ← word? "static"
  let _ ← word? "async"
  let _ ← word? "move"
  mark "|"
  let _ ← listUntil "," (markAhead "|") (closureParameter g)
  mark "|"
  if ← mark? "->" then
    let _ ← g.type true
    plainBlock g
  else g.expr allowStruct

/-- Whether a closure is in front. -/
def closureAhead (trees : List Tree) : Bool :=
  let next := trees.drop 1
  markAhead "|" trees || oneWordAhead ["move", "static"] trees ||
    (wordAhead "for" trees && genericsAhead next) ||
    (wordAhead "const" trees && !groupAhead .brace next) ||
    (wordAhead "async" trees && (markAhead "|" next || wordAhead "move" next))

/-- Whether an asynchronous block is in front. -/
def asyncAhead (trees : List Tree) : Bool :=
  let next := trees.drop 1
  wordAhead "async" trees &&
    (groupAhead .brace next || (wordAhead "move" next && groupAhead .brace (trees.drop 2)))

/-- Whether an expression may start here. -/
def exprAhead (trees : List Tree) : Bool :=
  let butNot (sign : String) (others : List String) : Bool :=
    markAhead sign trees && others.all fun other => !markAhead other trees
  (anyWordAhead trees && !wordAhead "as" trees) || groupAhead .paren trees ||
    groupAhead .bracket trees || groupAhead .brace trees || literalAhead trees ||
    butNot "!" ["!="] || butNot "-" ["-=", "->"] || butNot "*" ["*="] || butNot "|" ["|="] ||
    butNot "&" ["&="] || markAhead ".." trees || butNot "<" ["<=", "<<="] || markAhead "::" trees ||
    lifetimeAhead trees || markAhead "#" trees

/-- Take the operand of `return` or `yield`, if there is one. -/
def optionalOperand : Rule Unit := do
  if ← ahead exprAhead then g.expr true

/-- Take what follows `break`: a label and a value. A labelled value needs parentheses. -/
def breakTail (allowStruct : Bool) : Rule Unit := do
  if ← lifetime? then
    if ← ahead (markAhead ":") then failure
  if ← ahead fun trees => exprAhead trees && (allowStruct || !groupAhead .brace trees) then g.expr true

/-- Take the elements of an array, or its element and length. -/
def arrayElements : Rule Unit := do
  if ← ahead List.isEmpty then return ()
  else
    g.expr true
    if ← mark? ";" then g.expr true
    else if ← ahead fun trees => !trees.isEmpty then
      mark ","
      let _ ← commaList (g.expr true)

/-- Take a condition that binds names; its value binds as strongly as a comparison. -/
def bindingCondition (allowStruct : Bool) : Rule Unit := do
  word "let"
  let _ ← g.pattern true
  mark "="
  let value ← g.operand allowStruct
  let _ ← g.climb value .compare allowStruct

/-- Take an operand that is neither literal, path, closure nor block. -/
def otherAtom (allowStruct : Bool) : Rule ExprShape := do
  let trees ← front
  if groupAhead .paren trees then
    let _ ← within .paren (commaList (g.expr true))
    return ⟨.other, false⟩
  else if ← word? "break" then
    breakTail g allowStruct
    return ⟨.other, false⟩
  else if ← word? "continue" then
    let _ ← lifetime?
    return ⟨.other, false⟩
  else if oneWordAhead ["return", "yield"] trees then
    let _ ← anyWord
    optionalOperand g
    return ⟨.other, false⟩
  else if ← word? "become" then
    unseen (g.expr true)
    return ⟨.verbatim, true⟩
  else if groupAhead .bracket trees then
    within .bracket (arrayElements g)
    return ⟨.other, false⟩
  else if wordAhead "let" trees then
    bindingCondition g allowStruct
    return ⟨.other, false⟩
  else if markAhead ".." trees then
    rangeTail g allowStruct
    return ⟨.range, false⟩
  else
    word "_"
    return ⟨.other, false⟩

/-- Take an operand without the operators in front of it and the trailers after it. -/
def atom (allowStruct : Bool) : Rule ExprShape := do
  let trees ← front
  let next := trees.drop 1
  if literalAhead trees then
    literal
    return ⟨.other, false⟩
  else if asyncAhead trees then
    word "async"
    let _ ← word? "move"
    plainBlock g
    return ⟨.other, false⟩
  else if wordAhead "try" trees && groupAhead .brace next then blockExpr g
  else if closureAhead trees then
    closure g allowStruct
    return ⟨.other, false⟩
  else if builtinAhead trees then
    builtin
    return ⟨.verbatim, true⟩
  else if pathAhead trees || (wordAhead "try" trees && (markAhead "!" next || markAhead "::" next)) then
    pathExpr g allowStruct
  else if blockAhead trees then blockExpr g
  else otherAtom g allowStruct

/-- Whether a trailer follows an operand of the given form. -/
def trailerAhead (form : ExprForm) (trees : List Tree) : Bool :=
  groupAhead .paren trees || groupAhead .bracket trees ||
    (form ≠ .range && (pointAhead trees || markAhead "?" trees))

/-- Whether a piece of a number with points is the number of a tuple field. -/
def isTupleField (piece : String) : Bool :=
  let digits := piece.toList.filter (· != '_')
  match piece.toList with
  | first :: _ =>
    first.isDigit && (Text.natOfDigits? 10 digits).any (· ≤ maxTupleField)
  | [] => false

/-- Take a name or number after a point, and the arguments of a call. -/
def namedMember : Rule Unit := do
  if ← fieldLabel then
    let angled ← ahead (markAhead "::")
    if angled then
      let _ ← angleArguments g
    if ← ahead fun trees => angled || groupAhead .paren trees then
      let _ ← within .paren (commaList (g.expr true))

/-- Take a member after its point. Numbers of tuple fields may be written together, as in `x.0.1`. -/
def member : Rule Unit := do
  let awaited : Rule Unit := do
    if !(← word? "await") then namedMember g
  match ← front with
  | .literal (.float written) :: rest =>
    goOn rest
    let whole := Text.dropFinal "." written
    if (Text.splitOnChar '.' (whole.getD written)).all isTupleField then
      if whole.isSome then awaited
    else failure
  | _ => awaited

/-- Take the trailers of an operand, at most `fuel` of them. -/
def trailersAtMost : Nat → ExprShape → Rule ExprShape
  | 0, shape => return shape
  | fuel + 1, shape => do
    let trees ← front
    if !trailerAhead shape.form trees then return shape
    else
      if groupAhead .paren trees then
        let _ ← within .paren (commaList (g.expr true))
      else if groupAhead .bracket trees then within .bracket (g.expr true)
      else if !(← mark? "?") then
        mark "."
        member g
      trailersAtMost fuel ⟨.other, false⟩

/-- Take the trailers of an operand. -/
def trailers (shape : ExprShape) : Rule ExprShape := do
  trailersAtMost g ((← front).length + 1) shape

/-- Take an operand with the operators in front of it and the trailers after it. A range has no
attributes, and those of an operand that is kept as it is written are not visited. -/
def operandRule (allowStruct : Bool) : Rule ExprShape := do
  let (attributes, inAttributes) ← apart (outerAttributes g)
  if ← mark? "&" then
    gather inAttributes
    if ← ahead fun rest => wordAhead "raw" rest && oneWordAhead ["mut", "const"] (rest.drop 1) then
      word "raw"
      let _ ← anyWord
    else
      let _ ← word? "mut"
    let _ ← g.operand allowStruct
    return ⟨.other, false⟩
  else if ← ahead fun trees => markAhead "*" trees || markAhead "!" trees || markAhead "-" trees then
    gather inAttributes
    if !(← mark? "*") then
      if !(← mark? "!") then mark "-"
    let _ ← g.operand allowStruct
    return ⟨.other, false⟩
  else
    let (shape, inOperand) ← apart (do trailers g (← atom g allowStruct))
    match shape.form with
    | .verbatim => return shape
    | .range =>
      if attributes.isEmpty then
        gather inOperand
        return shape
      else failure
    | _ =>
      gather (inAttributes ++ inOperand)
      return shape

/-- Take an expression. -/
def exprRule (allowStruct : Bool) : Rule Unit := do
  let first ← operandRule g allowStruct
  let _ ← climbRule g first .any allowStruct

end ApiScribe.Source
