import ApiScribe.Source.Lexer
import ApiScribe.Source.Grammar.Items

/-!
# Reading source texts

The grammar of a depth refers to the grammar of the depth below. Every nested use of a rule takes
at least one token or enters a group first, so a depth above a small multiple of the number of
tokens is never exhausted.
-/

namespace ApiScribe.Source

/-- The grammar that allows the given depth of nesting. -/
def Grammar.ofDepth : Nat → Grammar
  | 0 =>
    { type := fun _ => failure
      bound := fun _ _ => failure
      pattern := fun _ => failure
      expr := fun _ => failure
      operand := fun _ => failure
      climb := fun _ _ _ => failure
      statements := failure
      arms := failure
      useTree := fun _ => failure
      item := failure }
  | depth + 1 =>
    { type := fun allowPlus => fun stream => typeRule (ofDepth depth) allowPlus stream
      bound := fun allowCapture allowConst => fun stream =>
        boundRule (ofDepth depth) allowCapture allowConst stream
      pattern := fun alternatives => fun stream => patternRule (ofDepth depth) alternatives stream
      expr := fun allowStruct => fun stream => exprRule (ofDepth depth) allowStruct stream
      operand := fun allowStruct => fun stream => operandRule (ofDepth depth) allowStruct stream
      climb := fun shape base allowStruct => fun stream =>
        climbRule (ofDepth depth) shape base allowStruct stream
      statements := fun stream => statementsRule (ofDepth depth) stream
      arms := fun stream => armsRule (ofDepth depth) stream
      useTree := fun rooted => fun stream => useTreeRule (ofDepth depth) rooted stream
      item := fun stream => itemRule (ofDepth depth) stream }

/-- The grammar for a list of trees: its depth is never exhausted on them. -/
def Grammar.for (trees : List Tree) : Grammar := ofDepth (4 * weightAll trees + 16)

/-- Apply a rule of the grammar to all of the trees; neither they nor a group in them may be left
before the end. -/
def applyRule {α : Type} (rule : Grammar → Rule α) (trees : List Tree) : Option α :=
  match (rule (Grammar.for trees)).run ⟨trees, [], false⟩ with
  | some (result, ⟨[], _, false⟩) => some result
  | _ => none

/-- Read a written type. -/
def TypeSyntax.ofText? (text : String) : Option TypeSyntax := do
  applyRule (fun g => g.type true) (← Tree.ofText? text.toList)

/-- Take the attributes and items of a file. -/
def contentRule (g : Grammar) : Rule Content := do
  let (attributes, noted) ← apart (innerAttributes g)
  let items ← members g.item
  return ⟨attributes, noted ++ items⟩

/-- Read the text of a source file; `none` when it is not well formed. A leading byte order mark and
interpreter line are skipped. -/
def Content.ofText? (text : String) : Option Content := do
  applyRule contentRule (← Tree.ofText? (dropInterpreter text.toList))

/-- Read the text of a source file that defines a module. -/
def File.ofText? (path : String) (module : ModulePath) (text : String) : Option File :=
  (Content.ofText? text).map (File.mk path module)

/-- Read a text of attributes that stand before a unit struct. -/
def attributesOfText? (text : String) : Option (List Attribute) := do
  match ← applyRule (fun g => g.item) (← Tree.ofText? (text ++ "\nstruct S;").toList) with
  | .struct head _ => some head.attributes
  | _ => none

end ApiScribe.Source
