import ApiScribe.Source.Grammar.Types

/-!
# Patterns
-/

namespace ApiScribe.Source

variable (g : Grammar)

/-- Whether the end of a range in a pattern is missing. -/
def patternEndMissing (trees : List Tree) : Bool :=
  trees.isEmpty || markAhead "|" trees || markAhead "=" trees ||
    (markAhead ":" trees && !markAhead "::" trees) || markAhead "," trees || markAhead ";" trees ||
    wordAhead "if" trees

/-- Take one end of a range in a pattern. -/
def patternEnd : Rule Unit := do
  if ← ahead literalAhead then literal
  else if ← ahead pathAhead then
    let _ ← fullPath g true
  else
    word "const"
    block g

/-- Take the points and the end of a range in a pattern; say whether the end was there. Only a range
that excludes its end may lack it. -/
def patternRange (allowThree : Bool) : Rule Bool := do
  let closed ←
    if ← mark? "..=" then pure true
    else if ← ahead (markAhead "...") then
      if allowThree then mark? "..." else failure
    else do
      mark ".."
      pure false
  if ← ahead patternEndMissing then
    if closed then failure else return false
  else
    patternEnd g
    return true

/-- Take the range that may follow its first end. -/
def rangeAfterStart : Rule PatternForm := do
  if ← ahead (markAhead "..") then
    return if ← patternRange g true then .other else .openRange
  else return .other

/-- The greatest number of a tuple field. -/
def maxTupleField : Nat := 4294967295

/-- Take the name or number of a field; say whether it was a name. -/
def fieldLabel : Rule Bool := do
  match ← front with
  | .literal (.integer value false) :: rest =>
    if value ≤ maxTupleField then goOn rest; return false else failure
  | _ =>
    let _ ← name
    return true

/-- Take one field of a struct pattern after its attributes. -/
def fieldPattern : Rule Unit := do
  let boxed ← word? "box"
  let byRef ← word? "ref"
  let mutable ← word? "mut"
  if boxed || byRef || mutable then
    let _ ← name
  else
    let named ← fieldLabel
    if !named || (← ahead (markAhead ":")) then
      mark ":"
      let _ ← g.pattern true

/-- Take the fields of a struct pattern; two points end them. -/
def fieldPatterns : Nat → Rule Unit
  | 0 => failure
  | fuel + 1 => do
    if ← ahead List.isEmpty then return ()
    else
      let _ ← outerAttributes g
      if ← mark? ".." then return ()
      else
        fieldPattern g
        if ← ahead fun trees => !trees.isEmpty then
          mark ","
          fieldPatterns fuel

/-- Take an element of a slice pattern, which is no range without one of its ends. -/
def elementPattern : Rule Unit := do
  if (← g.pattern true) = .openRange then failure

/-- Take a pattern that starts with a path. -/
def pathPattern : Rule PatternForm := do
  let path ← fullPath g true
  if path.isPlain && (← ahead bangAhead) then
    mark "!"
    let _ ← anyGroup
    return .other
  else if ← ahead (groupAhead .brace) then
    within .brace (do fieldPatterns g ((← front).length + 1))
    return .other
  else if ← ahead (groupAhead .paren) then
    let _ ← within .paren (commaList (g.pattern true))
    return .other
  else rangeAfterStart g

/-- Whether a pattern that starts with a path, and is more than a name, is in front. -/
def pathPatternAhead (trees : List Tree) : Bool :=
  let next := trees.drop 1
  (nameAhead trees && (markAhead "::" next || markAhead "!" next || groupAhead .brace next ||
      groupAhead .paren next || markAhead ".." next)) ||
    (wordAhead "self" trees && markAhead "::" next) || markAhead "::" trees || markAhead "<" trees ||
    oneWordAhead ["Self", "super", "crate"] trees

/-- Take a pattern without alternatives. -/
def singlePattern : Rule PatternForm := do
  let trees ← front
  if pathPatternAhead trees then pathPattern g
  else if ← word? "_" then return .other
  else if ← word? "box" then
    let _ ← unseen (g.pattern false)
    return .verbatim
  else if markAhead "-" trees || literalAhead trees || wordAhead "const" trees then
    patternEnd g
    rangeAfterStart g
  else if nameAhead trees || oneWordAhead ["ref", "mut", "self"] trees then
    let _ ← word? "ref"
    let _ ← word? "mut"
    let _ ← nameOr ["self"]
    if ← mark? "@" then
      let _ ← g.pattern false
    return .other
  else if ← mark? "&" then
    let _ ← word? "mut"
    let _ ← g.pattern false
    return .other
  else if groupAhead .paren trees then
    let _ ← within .paren (commaList (g.pattern true))
    return .other
  else if groupAhead .bracket trees then
    let _ ← within .bracket (commaList (elementPattern g))
    return .other
  else if markAhead ".." trees then
    return if ← patternRange g false then .openRange else .other
  else failure

/-- Whether a bar that separates alternatives is in front. -/
def alternativeAhead (trees : List Tree) : Bool :=
  markAhead "|" trees && !markAhead "||" trees && !markAhead "|=" trees

/-- Take a pattern; alternatives separated by bars only when allowed. -/
def patternRule (alternatives : Bool) : Rule PatternForm := do
  if alternatives then
    let led ← mark? "|"
    let first ← singlePattern g
    let rest ← repeatWhile alternativeAhead (do mark "|"; singlePattern g)
    return if led || !rest.isEmpty then .other else first
  else singlePattern g

end ApiScribe.Source
