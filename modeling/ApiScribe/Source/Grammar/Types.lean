import ApiScribe.Source.Grammar.Bounds

/-!
# Types
-/

namespace ApiScribe.Source

variable (g : Grammar)

/-- Whether bounds may be joined to a type in parentheses. -/
def TypeSyntax.isLoneBound : TypeSyntax → Bool
  | .path qualified _ _ _ => !qualified
  | .traitObject lone => lone
  | _ => false

/-- The written type of a path. -/
def FullPath.type? (path : FullPath) : Option TypeSyntax :=
  path.segments.getLast?.map fun last =>
    .path path.qualified (path.segments.dropLast.map Segment.ident) last.ident last.arguments

/-- Take `extern` and the name of a calling convention, if they are in front. -/
def callingConvention : Rule Unit := do
  if ← word? "extern" then
    match ← front with
    | .literal (.text _) :: rest => goOn rest
    | _ => return ()

/-- Take the type of an argument of a function pointer after its attributes. The first one may be a
receiver. -/
def pointerArgumentType (first : Bool) : Rule Unit := do
  let mutableSelf : List Tree → Bool := fun trees =>
    first && wordAhead "mut" trees && wordAhead "self" (trees.drop 1)
  let mutableReceiver ← ahead mutableSelf
  if mutableReceiver then word "mut"
  let trees ← front
  let isSelf := first && wordAhead "self" trees
  let colon := markAhead ":" (trees.drop 1) && !markAhead "::" (trees.drop 1)
  let named := (nameAhead trees || wordAhead "_" trees || isSelf) && colon
  if named then
    let _ ← anyWord
    mark ":"
  if !(named && isSelf) && mutableSelf (← front) then
    word "mut"
    word "self"
  else if mutableReceiver && !named then word "self"
  else if mutableReceiver then
    let _ ← unseen (g.type true)
  else
    let _ ← g.type true

/-- Whether the variable arguments of a function pointer are in front. -/
def variadicAhead (trees : List Tree) : Bool :=
  markAhead "..." trees ||
    ((nameAhead trees || wordAhead "_" trees) && markAhead ":" (trees.drop 1) &&
      markAhead "..." (trees.drop 2))

/-- Take the arguments of a function pointer; variable arguments are the last. -/
def pointerArguments (first : Bool) : Nat → Rule Unit
  | 0 => failure
  | fuel + 1 => do
    if ← ahead List.isEmpty then return ()
    else
      let _ ← outerAttributes g
      if ← ahead variadicAhead then
        if !(← mark? "...") then
          let _ ← anyWord
          mark ":"
          mark "..."
        let _ ← mark? ","
      else
        pointerArgumentType g first
        if ← ahead fun trees => !trees.isEmpty then
          mark ","
          pointerArguments false fuel

/-- Take a function pointer type after its `for<...>`. -/
def functionPointer : Rule TypeSyntax := do
  let _ ← word? "unsafe"
  callingConvention
  word "fn"
  within .paren (do pointerArguments g true ((← front).length + 1))
  returnType g false
  return .function

/-- Take a type in parentheses, a tuple or an object whose first bound is in parentheses. -/
def parenthesizedType (allowPlus : Bool) : Rule TypeSyntax := do
  let (type, joins) ← within .paren (do
    let trees ← front
    if trees.isEmpty then return (.tuple [], false)
    else if lifetimeAhead trees then
      traitBounds g true false false
      return (.paren (.traitObject false), false)
    else if markAhead "?" trees then
      traitBound g false
      return (.traitObject true, true)
    else
      let first ← g.type true
      if ← mark? "," then return (.tuple (first :: (← commaList (g.type true))), false)
      else return (.paren first, allowPlus && first.isLoneBound))
  let more ← if joins then repeatWhile (markAhead "+") (do mark "+"; g.bound false false) else pure []
  return if more.isEmpty then type else .traitObject false

/-- Take bounds that follow a first one, each after a `+`; a last `+` may stand alone. -/
def furtherBounds : Nat → Rule Unit
  | 0 => failure
  | fuel + 1 => do
    if ← mark? "+" then
      if ← ahead (boundAhead false) then
        let _ ← g.bound false false
        furtherBounds fuel

/-- Take a type that starts with a path. The items of a `for<...>` in front of it are given. -/
def pathType (quantified : Option (List Item)) (allowPlus : Bool) : Rule TypeSyntax := do
  let (path, items) ← apart (fullPath g false)
  if path.isPlain && (← ahead bangAhead) then
    mark "!"
    let _ ← anyGroup
    return .other
  else
    gather (quantified.getD [] ++ items)
    let joined ← ahead fun trees => allowPlus && markAhead "+" trees
    if !path.qualified && (quantified.isSome || joined) then
      if joined then furtherBounds g ((← front).length + 1)
      return .traitObject (!joined)
    else path.type?

/-- Take a slice or an array. -/
def sequenceType : Rule TypeSyntax :=
  within .bracket (do
    let inner ← g.type true
    if ← mark? ";" then
      g.expr true
      return .array inner
    else return .slice inner)

/-- Whether something that only a compiler gives meaning to is in front. -/
def builtinAhead (trees : List Tree) : Bool :=
  wordAhead "builtin" trees && markAhead "#" (trees.drop 1)

/-- Take something that only a compiler gives meaning to. -/
def builtin : Rule Unit := do
  word "builtin"
  mark "#"
  let _ ← name
  if (← anyGroup) = .paren then return () else failure

/-- Take a type after a `for<...>`, of which the items are given if it was there. -/
def typeAfterBinder (quantified : Option (List Item)) (allowPlus : Bool) : Rule TypeSyntax := do
  let trees ← front
  let onPath := nameAhead trees || oneWordAhead ["super", "self", "Self", "crate"] trees
  let onFunction := oneWordAhead ["fn", "unsafe", "extern"] trees
  if quantified.isSome && !onPath && !onFunction then failure
  else if groupAhead .paren trees then parenthesizedType g allowPlus
  else if onFunction then
    gather (quantified.getD [])
    functionPointer g
  else if builtinAhead trees then
    builtin
    return .other
  else if onPath || markAhead "::" trees || markAhead "<" trees then pathType g quantified allowPlus
  else if ← word? "dyn" then
    if ← mark? "*" then
      unseen (traitBounds g allowPlus false false)
      return .other
    else
      traitBounds g allowPlus false false
      return .traitObject false
  else if groupAhead .bracket trees then sequenceType g
  else if ← mark? "*" then
    if !(← word? "const") then word "mut"
    let _ ← g.type false
    return .rawPointer
  else if ← mark? "&" then
    let _ ← lifetime?
    let _ ← word? "mut"
    return .reference (← g.type false)
  else if ← mark? "!" then return .other
  else if ← word? "impl" then
    traitBounds g allowPlus true true
    return .implTrait
  else if ← word? "_" then return .other
  else if lifetimeAhead trees then
    traitBounds g true false false
    return .traitObject false
  else failure

/-- Take a type. -/
def typeRule (allowPlus : Bool) : Rule TypeSyntax := do
  let (quantified, items) ← apart (binder g)
  typeAfterBinder g (if quantified then some items else none) allowPlus

end ApiScribe.Source
