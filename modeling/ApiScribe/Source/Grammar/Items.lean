import ApiScribe.Source.Grammar.Functions

/-!
# Items

Declarations keep what `Item` records. A struct, an enum, a type alias, a trait, an implementation,
a function and an import are not looked into for other items; whatever else is, and what is found in
its blocks belongs to it. Forms that have no meaning yet are accepted and declare nothing.
-/

namespace ApiScribe.Source

variable (g : Grammar)

/-- Take the fields of a struct and what ends it. -/
def structBody : Rule FieldsSyntax := do
  if ← whereClause g then
    if ← mark? ";" then return .unit else return .named (← namedFields g)
  else if ← ahead (groupAhead .paren) then
    let fields ← unnamedFields g
    let _ ← whereClause g
    mark ";"
    return .unnamed fields
  else if ← mark? ";" then return .unit
  else return .named (← namedFields g)

/-- Take a variant of an enum. -/
def variant : Rule VariantSyntax := do
  let attributes ← outerAttributes g
  let _ ← visibility
  let ident ← name
  let isUnit ←
    if ← ahead (groupAhead .brace) then do
      let _ ← namedFields g
      pure false
    else if ← ahead (groupAhead .paren) then do
      let _ ← unnamedFields g
      pure false
    else pure true
  if ← mark? "=" then g.expr true
  return ⟨ident, attributes, isUnit⟩

/-- Where the conditions of a type declaration may stand. -/
inductive WherePlace where
  | beforeType | afterType | either
deriving DecidableEq, Repr

/-- A type declaration: its name, its type parameters, whether it has bounds, and its type. -/
structure TypeDefinition where
  ident : String
  generics : List String
  bounded : Bool
  target : Option TypeSyntax

/-- Take a type declaration after its visibility. -/
def typeDefinition (place : WherePlace) : Rule TypeDefinition := do
  word "type"
  let ident ← name
  let parameters ← generics g
  let bounded ← mark? ":"
  if bounded then
    let _ ← plusUntil
      (fun trees => wordAhead "where" trees || markAhead "=" trees || markAhead ";" trees)
      (g.bound false true)
  let conditional ← if place = .afterType then pure false else whereClause g
  let target ← if ← mark? "=" then (do return some (← g.type true)) else pure none
  if place ≠ .beforeType && !conditional then
    let _ ← whereClause g
  mark ";"
  return ⟨ident, parameters, bounded, target⟩

/-- Take a constant after its visibility; say whether it is visited. Constants with parameters or
conditions, and those without a value, are not. -/
def constant : Rule Bool := do
  word "const"
  let _ ← nameOr ["_"]
  let generic ← ahead (markAhead "<")
  let _ ← generics g
  mark ":"
  let _ ← g.type true
  let valued ← mark? "="
  if valued then g.expr true
  let conditional ← whereClause g
  mark ";"
  return valued && !generic && !conditional

/-- Take a static after its visibility; say whether it is visited. One without a type or a value is
not. -/
def static : Rule Bool := do
  word "static"
  let _ ← word? "mut"
  let _ ← name
  let typed ← mark? ":"
  if typed then
    let _ ← g.type true
  let valued ← if typed then mark? "=" else (do mark "="; return true)
  if valued then g.expr true
  mark ";"
  return typed && valued

/-- Take a macro call in the place of an item; a name may follow the bang where that is allowed. -/
def macroItem (allowName : Bool) : Rule Unit := do
  let _ ← plainPath
  mark "!"
  if allowName then
    if ← ahead fun trees => nameAhead trees || wordAhead "try" trees then
      let _ ← anyWord
  let delimiter ← anyGroup
  if delimiter ≠ .brace then mark ";"

/-- Whether a macro call may start here. -/
def macroAhead (trees : List Tree) : Bool :=
  nameAhead trees || oneWordAhead ["self", "super", "crate"] trees || markAhead "::" trees

/-- Take an item of a trait; a method is given back unless it has modifiers that are not allowed. -/
def traitItem : Rule (Option FunctionSyntax) := do
  let attributes ← outerAttributes g
  let visible ← visibility
  let specialised ← word? "default"
  let trees ← front
  if signatureAhead false trees then
    let head ← signature g false
    let inner ← if ← mark? ";" then pure [] else body g
    return if visible || specialised then none else some ⟨head.ident, attributes ++ inner⟩
  else if wordAhead "const" trees then
    let _ ← constant g
    return none
  else if wordAhead "type" trees then
    let _ ← typeDefinition g .afterType
    return none
  else if !visible && !specialised && macroAhead trees then
    macroItem false
    return none
  else failure

/-- Take an item of an implementation; a method is given back if it has a body. -/
def implItem : Rule (Option FunctionSyntax) := do
  let attributes ← outerAttributes g
  let visible ← visibility
  let specialised ←
    if ← ahead fun trees => wordAhead "default" trees && !markAhead "!" (trees.drop 1) then word? "default"
    else pure false
  let trees ← front
  if signatureAhead false trees then
    let head ← signature g false
    if ← mark? ";" then return none
    else
      let inner ← body g
      return some ⟨head.ident, attributes ++ inner⟩
  else if wordAhead "const" trees then
    let _ ← constant g
    return none
  else if wordAhead "type" trees then
    let _ ← typeDefinition g .afterType
    return none
  else if !visible && !specialised && macroAhead trees then
    macroItem false
    return none
  else failure

/-- Take the rest of a trait after its generic parameters. -/
def traitBody (ident : String) (parameters : List String) (attributes : List Attribute) : Rule Item := do
  if ← mark? ":" then
    let _ ← plusUntil (fun trees => wordAhead "where" trees || groupAhead .brace trees) (g.bound false true)
  let _ ← whereClause g
  within .brace (do
    let inner ← innerAttributes g
    let methods ← members (traitItem g)
    return .trait ⟨ident, attributes ++ inner, parameters⟩ (methods.filterMap id))

/-- Take the rest of a trait alias after its generic parameters. Its conditions are visited before its
bounds. -/
def traitAliasBody : Rule Unit := do
  mark "="
  let (_, inBounds) ← apart
    (plusUntil (fun trees => wordAhead "where" trees || markAhead ";" trees) (g.bound false false))
  let _ ← whereClause g
  mark ";"
  gather inBounds

/-- Take a trait after its visibility, or a trait alias, which declares nothing. -/
def traitDeclaration (attributes : List Attribute) (noted : List Item) : Rule Item := do
  let isUnsafe ← word? "unsafe"
  let isAuto ← word? "auto"
  word "trait"
  let ident ← name
  let (parameters, inGenerics) ← apart (generics g)
  if !isUnsafe && !isAuto && (← ahead (markAhead "=")) then
    let (_, items) ← apart (traitAliasBody g)
    return .inBlocks (noted ++ inGenerics ++ items)
  else unseen (traitBody g ident parameters attributes)

/-- Take an implementation after its visibility. -/
def implementation (attributes : List Attribute) (visible : Bool) : Rule Item := do
  let _ ← word? "default"
  let _ ← word? "unsafe"
  word "impl"
  if ← ahead genericsAhead then
    let _ ← generics g
  let isConst ← ahead fun trees =>
    wordAhead "const" trees || (markAhead "?" trees && wordAhead "const" (trees.drop 1))
  if isConst then
    let _ ← mark? "?"
    word "const"
  let negative ←
    if ← ahead fun trees => markAhead "!" trees && !groupAhead .brace (trees.drop 1) then mark? "!"
    else pure false
  let first ← g.type true
  let ofTrait ← word? "for"
  let isPath :=
    match first with
    | .path false _ _ _ => true
    | _ => false
  let selfType ←
    if ofTrait then g.type true
    else if negative then failure
    else pure first
  let _ ← whereClause g
  let (inner, methods) ← within .brace (do
    let inner ← innerAttributes g
    let methods ← members (implItem g)
    return (inner, methods.filterMap id))
  if visible || isConst || (ofTrait && !isPath) then return .other
  else return .impl ofTrait selfType (attributes ++ inner) methods

/-- Take the tree of a `use` declaration, where a member of a group may start at the crate root if
`rooted` allows it; such a group is not given back. -/
def useTreeRule (rooted : Bool) : Rule (Option UseTree) := do
  let trees ← front
  if nameAhead trees || oneWordAhead ["self", "super", "crate", "try"] trees then
    let ident ← anyWord
    if ← mark? "::" then return (← g.useTree false).map (.path ident)
    else if ← word? "as" then return some (.rename ident (← nameOr ["_"]))
    else return some (.name ident)
  else if ← mark? "*" then return some .glob
  else
    let member : Rule (Option UseTree) := do
      let atRoot ← if rooted then mark? "::" else pure false
      let tree ← g.useTree (rooted && !atRoot)
      return if atRoot then none else tree
    let trees ← within .brace (commaList member)
    return if trees.all Option.isSome then some (.group (trees.filterMap id)) else none

/-- Take an import after its visibility. -/
def useDeclaration : Rule Item := do
  word "use"
  let atRoot ← mark? "::"
  let tree ← g.useTree (!atRoot)
  mark ";"
  return match tree with
    | some tree => .use tree
    | none => .other

/-- Take a foreign item after its attributes; say whether it is visited. Items with a body, a value, a
definition or a word on their safety are not. -/
def foreignItemBody : Rule Bool := do
  let visible ← visibility
  let trees ← front
  if signatureAhead true trees then
    let head ← signature g true
    if ← ahead (groupAhead .brace) then
      let _ ← body g
      return false
    else
      mark ";"
      return !head.safe
  else if wordAhead "static" trees ||
      (oneWordAhead ["unsafe", "safe"] trees && wordAhead "static" (trees.drop 1)) then
    let plain := wordAhead "static" trees
    if !plain then
      let _ ← anyWord
    word "static"
    let _ ← word? "mut"
    let _ ← name
    mark ":"
    let _ ← g.type true
    let valued ← mark? "="
    if valued then g.expr true
    mark ";"
    return plain && !valued
  else if wordAhead "type" trees then
    let definition ← typeDefinition g .either
    return !definition.bounded && definition.target.isNone
  else if !visible && macroAhead trees then
    macroItem false
    return true
  else failure

/-- Take a foreign item. -/
def foreignItem : Rule Unit := do
  let (visited, items) ← apart (do
    let _ ← outerAttributes g
    foreignItemBody g)
  if visited then gather items

/-- Take a block of foreign items. -/
def foreignBlock : Rule Unit := do
  let _ ← word? "unsafe"
  callingConvention
  within .brace (do
    let _ ← innerAttributes g
    let _ ← members (foreignItem g))

/-- Take a module after its visibility; one without a body declares nothing here. The items in the
blocks of its attributes come first in it. -/
def moduleDeclaration (noted : List Item) : Rule Item := do
  let _ ← word? "unsafe"
  word "mod"
  let ident ← nameOr ["try"]
  if ← mark? ";" then return .other
  else
    within .brace (do
      let (_, inAttributes) ← apart (innerAttributes g)
      let items ← members g.item
      return .module ident (noted ++ inAttributes ++ items))

/-- Take an external crate after its visibility. -/
def externalCrate : Rule Unit := do
  word "extern"
  word "crate"
  let _ ← nameOr ["self"]
  if ← word? "as" then
    let _ ← nameOr ["_"]
  mark ";"

/-- Take the definition of a macro by its arms in braces, or by one arm. -/
def macroDefinition : Rule Unit := do
  word "macro"
  let _ ← name
  if ← ahead (groupAhead .paren) then
    let _ ← anyGroup
  if (← anyGroup) = .brace then return () else failure

/-- Take a function with a body, or one without, which declares nothing. -/
def functionItem (attributes : List Attribute) : Rule Item := do
  let head ← signature g false
  if ← mark? ";" then return .other
  else return .function ⟨head.ident, attributes ++ (← body g)⟩

/-- Take a struct. -/
def structItem (attributes : List Attribute) : Rule Item := do
  word "struct"
  let ident ← name
  let parameters ← generics g
  return .struct ⟨ident, attributes, parameters⟩ (← structBody g)

/-- Take an enum. -/
def enumItem (attributes : List Attribute) : Rule Item := do
  word "enum"
  let ident ← name
  let parameters ← generics g
  let _ ← whereClause g
  return .enum ⟨ident, attributes, parameters⟩ (← within .brace (commaList (variant g)))

/-- Take a type alias; one with bounds declares nothing. -/
def typeAliasItem (attributes : List Attribute) : Rule Item := do
  let definition ← typeDefinition g .beforeType
  return match definition.bounded, definition.target with
    | false, some target => .typeAlias ⟨definition.ident, attributes, definition.generics⟩ target
    | _, _ => .other

/-- Take a union. -/
def unionItem : Rule Unit := do
  word "union"
  let _ ← name
  let _ ← generics g
  let _ ← whereClause g
  let _ ← namedFields g

/-- Take an item that declares nothing itself, with the items noted in its attributes; the rule says
whether it is visited. -/
def blocksOf (noted : List Item) (rule : Rule Bool) : Rule Item := do
  let (visited, items) ← apart rule
  return if visited then .inBlocks (noted ++ items) else .other

/-- Whether a block of foreign items is in front. -/
def foreignBlockAhead (trees : List Tree) : Bool :=
  wordAhead "extern" trees &&
    match trees.drop 1 with
    | .literal (.text _) :: rest => groupAhead .brace rest
    | rest => groupAhead .brace rest

/-- Take an item after its attributes, in whose blocks the noted items were found, and its
visibility. -/
def itemBody (attributes : List Attribute) (noted : List Item) (visible : Bool) : Rule Item := do
  let trees ← front
  let next := trees.drop 1
  let visited (rule : Rule Unit) : Rule Item := blocksOf noted (do rule; return true)
  if signatureAhead false trees then unseen (functionItem g attributes)
  else if wordAhead "extern" trees && wordAhead "crate" next then visited externalCrate
  else if foreignBlockAhead trees then
    if visible then failure else visited (foreignBlock g)
  else if wordAhead "use" trees then useDeclaration g
  else if wordAhead "static" trees then blocksOf noted (static g)
  else if wordAhead "const" trees then blocksOf noted (constant g)
  else if wordAhead "unsafe" trees then
    if wordAhead "trait" next || (wordAhead "auto" next && wordAhead "trait" (trees.drop 2)) then
      traitDeclaration g attributes noted
    else if wordAhead "impl" next then unseen (implementation g attributes visible)
    else if wordAhead "extern" next then
      if visible then failure else visited (foreignBlock g)
    else moduleDeclaration g noted
  else if wordAhead "mod" trees then moduleDeclaration g noted
  else if wordAhead "type" trees then unseen (typeAliasItem g attributes)
  else if wordAhead "struct" trees then unseen (structItem g attributes)
  else if wordAhead "enum" trees then unseen (enumItem g attributes)
  else if wordAhead "union" trees && nameAhead next then visited (unionItem g)
  else if wordAhead "trait" trees || (wordAhead "auto" trees && wordAhead "trait" next) then
    traitDeclaration g attributes noted
  else if wordAhead "impl" trees || (wordAhead "default" trees && !markAhead "!" next) then
    unseen (implementation g attributes visible)
  else if wordAhead "macro" trees then
    macroDefinition
    return .other
  else if !visible && macroAhead trees then visited (macroItem true)
  else failure

/-- Take an item. -/
def itemRule : Rule Item := do
  let (attributes, noted) ← apart (outerAttributes g)
  let visible ← visibility
  itemBody g attributes noted visible

end ApiScribe.Source
