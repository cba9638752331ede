import ApiScribe.Source.Grammar.Paths

/-!
# Bounds, generic parameters and conditions
-/

namespace ApiScribe.Source

variable (g : Grammar)

/-- Take one generic parameter; give the name of a type parameter. -/
def genericParameter (nameless : Bool) : Rule (Option String) := do
  let _ ← outerAttributes g
  let stop (trees : List Tree) : Bool := markAhead "," trees || markAhead ">" trees
  if ← lifetime? then
    if ← mark? ":" then
      let _ ← plusUntil stop lifetime
    return none
  else if ← word? "const" then
    let _ ← name
    mark ":"
    let _ ← g.type true
    if ← mark? "=" then constantArgument g
    return none
  else if nameless && (← ahead (wordAhead "_")) then return some (← anyWord)
  else
    let ident ← name
    if ← mark? ":" then
      let _ ← plusUntil (fun trees => stop trees || markAhead "=" trees) (g.bound false true)
    if ← mark? "=" then
      let _ ← g.type true
    return some ident

/-- Take generic parameters between angle brackets; give the names of the type parameters. -/
def angleParameters (nameless : Bool) : Rule (List String) := do
  mark "<"
  let parameters ← listUntil "," (markAhead ">") (genericParameter g nameless)
  mark ">"
  return parameters.filterMap id

/-- Take the generic parameters of a declaration, if it has any. -/
def generics : Rule (List String) := do
  if ← ahead (markAhead "<") then angleParameters g true else return []

/-- Take the parameters of a `for<...>`; say whether there was one. -/
def binder : Rule Bool := do
  if ← word? "for" then
    let _ ← angleParameters g false
    return true
  else return false

/-- Take `(A, B) -> C` after the name of a function trait. -/
def parenthesizedArguments : Rule Unit := do
  let _ ← within .paren (commaList (g.type true))
  returnType g false

/-- Take `const` or `[const]`, if it is in front. -/
def constMark : Rule Bool := do
  if ← ahead (groupAhead .bracket) then
    within .bracket (word "const")
    return true
  else word? "const"

/-- Take a trait bound; say whether it is one on constants. -/
def traitBoundParts (allowConst : Bool) : Rule Bool := do
  let quantified ← binder g
  let conditional ← constMark
  if conditional && !allowConst then failure
  else
    let relaxed ← mark? "?"
    let late ← if relaxed && !quantified then binder g else pure false
    let segments ← pathSegments g false
    let plain := (segments.getLast?.map fun segment => !segment.angled).getD false
    if plain then
      if ← ahead fun trees =>
          groupAhead .paren trees || (markAhead "::" trees && groupAhead .paren (trees.drop 2)) then
        let _ ← mark? "::"
        parenthesizedArguments g
    if relaxed && (quantified || late) then failure else return conditional

/-- Take a trait bound. Nothing in one on constants is visited. -/
def traitBound (allowConst : Bool) : Rule Unit := do
  let (conditional, items) ← apart (traitBoundParts g allowConst)
  if !conditional then gather items

/-- Take what follows the word of a `use<...>`. -/
def capturedParameters : Rule Unit := do
  mark "<"
  let _ ← listUntil "," (markAhead ">") (do
    if !(← lifetime?) then
      let _ ← nameOr ["Self"])
  mark ">"

/-- Take one bound; say whether it is a trait. -/
def boundRule (allowCapture allowConst : Bool) : Rule Bool := do
  if ← lifetime? then return false
  else if ← word? "use" then
    capturedParameters
    if allowCapture then return false else failure
  else if ← ahead (groupAhead .paren) then
    within .paren (traitBound g allowConst)
    return true
  else
    traitBound g allowConst
    return true

/-- Whether bounds go on after a `+`. -/
def boundAhead (allowConst : Bool) (trees : List Tree) : Bool :=
  anyWordAhead trees || markAhead "::" trees || markAhead "?" trees || lifetimeAhead trees ||
    groupAhead .paren trees || (allowConst && groupAhead .bracket trees)

/-- Take bounds joined by `+`, at most `fuel` of them; say whether one is a trait. -/
def boundsAtMost (allowPlus allowCapture allowConst : Bool) : Nat → Rule Bool
  | 0 => failure
  | fuel + 1 => do
    let first ← g.bound allowCapture allowConst
    if !allowPlus then return first
    else if ← mark? "+" then
      if ← ahead (boundAhead allowConst) then
        let rest ← boundsAtMost allowPlus allowCapture allowConst fuel
        return first || rest
      else return first
    else return first

/-- Take bounds joined by `+`, of which one at least must be a trait. -/
def traitBounds (allowPlus allowCapture allowConst : Bool) : Rule Unit := do
  if ← boundsAtMost g allowPlus allowCapture allowConst ((← front).length + 1) then return ()
  else failure

/-- Where the predicates of a `where` clause end. -/
def whereStop (trees : List Tree) : Bool :=
  trees.isEmpty || groupAhead .brace trees || markAhead "," trees || markAhead ";" trees ||
    (markAhead ":" trees && !markAhead "::" trees) || markAhead "=" trees

/-- Take one predicate of a `where` clause. -/
def wherePredicate : Rule Unit := do
  if ← ahead fun trees => lifetimeAhead trees && markAhead ":" (trees.drop 1) then
    lifetime
    mark ":"
    let _ ← plusUntil whereStop lifetime
  else
    let _ ← binder g
    let _ ← g.type true
    mark ":"
    let _ ← plusUntil whereStop (g.bound false true)

/-- Take the predicates of a `where` clause, separated by commas. -/
def wherePredicates : Nat → Rule Unit
  | 0 => failure
  | fuel + 1 => do
    if ← ahead whereStop then return ()
    else
      wherePredicate g
      if ← mark? "," then wherePredicates fuel

/-- Take a `where` clause, if it is in front; say whether it was. -/
def whereClause : Rule Bool := do
  if ← word? "where" then
    if ← ahead genericsAhead then failure
    else
      wherePredicates g ((← front).length + 1)
      return true
  else return false

end ApiScribe.Source
