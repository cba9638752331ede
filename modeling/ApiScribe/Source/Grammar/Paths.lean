import ApiScribe.Source.Grammar.Basic

/-!
# Attributes and paths
-/

namespace ApiScribe.Source

variable (g : Grammar)

/-- Take a path of plain segments; give its segments. -/
def plainPath : Rule (List String) := do
  let _ ← mark? "::"
  let segment := nameOr ["super", "self", "Self", "crate"]
  let first ← segment
  let rest ← repeatWhile (markAhead "::") (do mark "::"; segment)
  return first :: rest

/-- Take the inside of an attribute's brackets. -/
def attributeBody : Rule Attribute := do
  let rooted ← ahead (markAhead "::")
  let path ← if ← ahead (wordAhead "unsafe") then (do return [← anyWord]) else plainPath
  let name :=
    match path with
    | [single] => if rooted then none else some single
    | _ => none
  match ← front with
  | .group _ content :: rest => goOn rest; return ⟨name, .list content⟩
  | _ =>
    if ← mark? "=" then
      match ← front with
      | [.literal (.text value)] => goOn []; return ⟨name, .text value⟩
      | .punct '#' _ :: .group .bracket _ :: _ => failure
      | _ =>
        g.expr true
        return ⟨name, .value⟩
    else return ⟨name, .word⟩

/-- Take the attributes in front of an item. -/
def outerAttributes : Rule (List Attribute) :=
  repeatWhile (markAhead "#") (do mark "#"; within .bracket (attributeBody g))

/-- Whether an inner attribute is in front. -/
def innerAhead (trees : List Tree) : Bool :=
  markAhead "#" trees && markAhead "!" (trees.drop 1)

/-- Take the inner attributes at the top of a file or a body. -/
def innerAttributes : Rule (List Attribute) :=
  repeatWhile innerAhead (do mark "#"; mark "!"; within .bracket (attributeBody g))

/-- Take a block that may not start with inner attributes. -/
def plainBlock : Rule Unit := within .brace g.statements

/-- Take a block. -/
def block : Rule Unit :=
  within .brace (do let _ ← innerAttributes g; g.statements)

/-- A segment of a path with the types among its generic arguments. -/
structure Segment where
  ident : String
  arguments : List TypeSyntax
  /-- Whether generic arguments were written. -/
  angled : Bool

/-- Take `-> T`, if it is in front. -/
def returnType (allowPlus : Bool) : Rule Unit := do
  if ← mark? "->" then
    let _ ← g.type allowPlus

/-- Whether a generic argument that can only be a constant is in front. -/
def constantAhead (trees : List Tree) : Bool :=
  literalAhead trees || groupAhead .brace trees

/-- Take the value of a constant argument. -/
def constantArgument : Rule Unit := do
  if ← ahead literalAhead then literal
  else if ← ahead nameAhead then
    let _ ← name
  else block g

/-- Take the bounds of an associated type, up to the end of the argument. -/
def constraintBounds : Rule Unit := do
  let _ ← plusUntil (fun trees => markAhead "," trees || markAhead ">" trees) (g.bound false true)

/-- Take one generic argument; a type is given back, anything else is not. -/
def genericArgument : Rule (Option TypeSyntax) := do
  if ← ahead fun trees => lifetimeAhead trees && !markAhead "+" (trees.drop 1) then
    lifetime
    return none
  else if ← ahead constantAhead then
    constantArgument g
    return none
  else
    let rooted ← ahead (markAhead "::")
    let type ← g.type true
    let simple :=
      match type with
      | .path false [] _ _ => !rooted
      | _ => false
    if !simple then return some type
    else if ← mark? "=" then
      if ← ahead constantAhead then constantArgument g
      else
        let _ ← g.type true
      return none
    else if ← mark? ":" then
      constraintBounds g
      return none
    else return some type

/-- Take generic arguments between angle brackets; give the types among them. -/
def angleArguments : Rule (List TypeSyntax) := do
  let _ ← mark? "::"
  mark "<"
  let arguments ← listUntil "," (markAhead ">") (genericArgument g)
  mark ">"
  return arguments.filterMap id

/-- Take one segment of a path. In an expression generic arguments need a `::` in front. -/
def pathSegment (inExpr : Bool) : Rule Segment := do
  if ← ahead (oneWordAhead ["super", "self", "crate", "try"]) then
    return ⟨← anyWord, [], false⟩
  else
    let ident ← nameOr ["Self"]
    let angled ← ahead fun trees =>
      (!inExpr && markAhead "<" trees && !markAhead "<=" trees && !markAhead "<<=" trees) ||
        (markAhead "::" trees && markAhead "<" (trees.drop 2))
    if angled then return ⟨ident, ← angleArguments g, true⟩ else return ⟨ident, [], false⟩

/-- Take a path. -/
def pathSegments (inExpr : Bool) : Rule (List Segment) := do
  let _ ← mark? "::"
  let first ← pathSegment g inExpr
  let rest ← repeatWhile (fun trees => markAhead "::" trees && !groupAhead .paren (trees.drop 2))
    (do mark "::"; pathSegment g inExpr)
  return first :: rest

/-- A path with the type in angle brackets that it may start with. -/
structure FullPath where
  /-- Whether it starts with `<T>::` or `<T as Trait>::`. -/
  qualified : Bool
  segments : List Segment

/-- Whether a path names a macro: no segment has generic arguments. -/
def FullPath.isPlain (path : FullPath) : Bool :=
  !path.qualified && path.segments.all fun segment => !segment.angled

/-- Take a path or `<T as Trait>::` and the segments after it. -/
def fullPath (inExpr : Bool) : Rule FullPath := do
  if ← mark? "<" then
    let _ ← g.type true
    let path ← if ← word? "as" then pathSegments g false else pure []
    mark ">"
    mark "::"
    let first ← pathSegment g inExpr
    let rest ← repeatWhile (markAhead "::") (do mark "::"; pathSegment g inExpr)
    return ⟨true, path ++ first :: rest⟩
  else return ⟨false, ← pathSegments g inExpr⟩

end ApiScribe.Source
