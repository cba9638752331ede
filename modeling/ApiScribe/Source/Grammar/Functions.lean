import ApiScribe.Source.Grammar.Statements

/-!
# Visibility, functions and fields
-/

namespace ApiScribe.Source

variable (g : Grammar)

/-- Take a visibility; say whether there was one. A parenthesis that is none is left alone. -/
def visibility : Rule Bool := do
  if ← word? "pub" then
    match ← front with
    | .group .paren [.ident scope] :: rest =>
      if ["crate", "self", "super"].contains scope then goOn rest
    | .group .paren (.ident "in" :: _) :: _ =>
      within .paren (do
        word "in"
        let _ ← plainPath)
    | _ => pure ()
    return true
  else return false

/-- Take the words in front of `fn`; say whether `safe`, where it is allowed, is one of them. -/
def functionQualifiers (allowSafe : Bool) : Rule Bool := do
  let _ ← word? "const"
  let _ ← word? "async"
  let safe ← if allowSafe then word? "safe" else pure false
  if !safe then
    let _ ← word? "unsafe"
  callingConvention
  return safe

/-- Whether a function's signature is in front. -/
def signatureAhead (allowSafe : Bool) (trees : List Tree) : Bool :=
  (after? (do let _ ← functionQualifiers allowSafe; word "fn") trees).isSome

/-- Take the receiver of a method. -/
def receiver : Rule Unit := do
  let byReference ← mark? "&"
  if byReference then
    let _ ← lifetime?
  let _ ← word? "mut"
  word "self"
  if !byReference then
    if ← mark? ":" then
      let _ ← g.type true

/-- Take the end of the parameters after variable ones; anything beyond a comma is left over. -/
def endOfParameters : Rule Unit := do
  if ← ahead fun trees => !trees.isEmpty then mark ","

/-- Take the parameters of a function. A receiver is allowed only in the first place. -/
def parameters (first : Bool) : Nat → Rule Unit
  | 0 => failure
  | fuel + 1 => do
    let more : Rule Unit := do
      if ← ahead fun trees => !trees.isEmpty then
        mark ","
        parameters false fuel
    if ← ahead List.isEmpty then return ()
    else
      let _ ← outerAttributes g
      if ← mark? "..." then endOfParameters
      else if (← attempt (receiver g)).isSome then
        if first then more else failure
      else if ← ahead fun trees => nameAhead trees && markAhead "<" (trees.drop 1) then
        let _ ← g.type true
        more
      else
        let _ ← g.pattern false
        mark ":"
        if ← mark? "..." then endOfParameters
        else
          let _ ← g.type true
          more

/-- A signature: the name of the function and whether it is marked as safe. -/
structure Signature where
  ident : String
  safe : Bool

/-- Take a signature. Its conditions are visited with its generic parameters. -/
def signature (allowSafe : Bool) : Rule Signature := do
  let safe ← functionQualifiers allowSafe
  word "fn"
  let ident ← name
  let _ ← generics g
  let (_, inSignature) ← apart (do
    within .paren (do parameters g true ((← front).length + 1))
    returnType g true)
  let _ ← whereClause g
  gather inSignature
  return ⟨ident, safe⟩

/-- Take a body; give the inner attributes at its top. -/
def body : Rule (List Attribute) :=
  within .brace (do
    let attributes ← innerAttributes g
    g.statements
    return attributes)

mutual

/-- Take a named field. One without a name may have fields of its own in place of a type. -/
def namedFieldWithin : Nat → Rule FieldSyntax
  | 0 => failure
  | depth + 1 => do
    let attributes ← outerAttributes g
    let _ ← visibility
    let ident ← nameOr ["_"]
    mark ":"
    let trees ← front
    if ident = "_" &&
        (wordAhead "struct" trees || (wordAhead "union" trees && groupAhead .brace (trees.drop 1))) then
      let _ ← anyWord
      let _ ← unseen (namedFieldsWithin depth)
      return ⟨some ident, .other, attributes⟩
    else return ⟨some ident, ← g.type true, attributes⟩

/-- Take named fields in braces. -/
def namedFieldsWithin : Nat → Rule (List FieldSyntax)
  | 0 => failure
  | depth + 1 => within .brace (commaList (namedFieldWithin depth))

end

/-- Take named fields in braces. -/
def namedFields : Rule (List FieldSyntax) := do
  namedFieldsWithin g (weightAll (← front) + 2)

/-- Take a tuple field. -/
def unnamedField : Rule FieldSyntax := do
  let attributes ← outerAttributes g
  let _ ← visibility
  let type ← g.type true
  return ⟨none, type, attributes⟩

/-- Take tuple fields in parentheses. -/
def unnamedFields : Rule (List FieldSyntax) :=
  within .paren (commaList (unnamedField g))

end ApiScribe.Source
