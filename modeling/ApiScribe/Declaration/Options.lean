import ApiScribe.RenameRule
import ApiScribe.Source.Read

/-!
# Serialization options

The options that `#[serde(...)]` attributes give a type, a field or a variant: exposed names,
skipped fields and whether a field may be absent. An attribute that turns out malformed keeps the
options read before the fault, and later attributes are still read.
-/

namespace ApiScribe

open Source

/-- Options of a type. -/
structure ContainerOptions where
  renameAll : Option RenameRule := none
  /-- Every field may be absent. -/
  default : Bool := false
deriving DecidableEq, Repr, Inhabited

/-- Options of a field or variant. -/
structure FieldOptions where
  rename : Option String := none
  skip : Bool := false
  /-- The field may be left out when written. -/
  skipIf : Bool := false
  default : Bool := false
  flatten : Bool := false
deriving DecidableEq, Repr, Inhabited

namespace Options

/-- Take the path of an option; give its name when it is a single word. -/
def optionPath : Rule (Option String) := do
  let rooted ← mark? "::"
  let first ← anyWord
  let rest ← repeatWhile (markAhead "::") (do mark "::"; anyWord)
  return if rooted || !rest.isEmpty then none else some first

/-- Take options separated by commas, of which there must be one at least. -/
def optionList {α : Type} (value : Option String → Rule α) : Rule (List α) := do
  let entry : Rule α := do value (← optionPath)
  if ← ahead List.isEmpty then failure else commaList entry

/-- Take the value of an option that is not interpreted, nested at most `depth` deep. -/
def ignoredValueWithin (g : Grammar) : Nat → Rule Unit
  | 0 => failure
  | depth + 1 => do
    if ← mark? "=" then g.expr true
    else if ← ahead (groupAhead .paren) then
      let _ ← within .paren (optionList fun _ => ignoredValueWithin g depth)

/-- Take the value of an option that is not interpreted. -/
def ignoredValue (g : Grammar) : Rule Unit := do
  ignoredValueWithin g (weightAll (← front) + 1)

/-- Take a text. -/
def textLiteral : Rule String := do
  match ← front with
  | .literal (.text value) :: rest => goOn rest; return value
  | _ => failure

/-- Take `= "x"`, or the last `serialize = "x"` of a list in parentheses. -/
def writtenName (g : Grammar) : Rule (Option String) := do
  if ← mark? "=" then return some (← textLiteral)
  else if ← ahead (groupAhead .paren) then
    let names ← within .paren (optionList fun path => do
      if path = some "serialize" then
        mark "="
        return some (← textLiteral)
      else
        ignoredValue g
        return none)
    return (names.filterMap id).getLast?
  else return none

/-- Apply a rule to trees; give its result and the trees after it. What is left of groups does not
matter. -/
def runOn {α : Type} (rule : Rule α) (trees : List Tree) : Option (α × List Tree) :=
  (rule.run ⟨trees, [], false⟩).map fun (result, stream) => (result, stream.trees)

/-- One option of a list: the options after it, and the trees after it unless it is malformed. -/
abbrev Step (σ : Type) := σ → Option String → List Tree → σ × Option (List Tree)

/-- Read a list of options, at most `fuel` of them, up to the first fault. -/
def readList {σ : Type} (step : Step σ) : Nat → σ → List Tree → σ
  | 0, options, _ => options
  | fuel + 1, options, trees =>
    match runOn optionPath trees with
    | none => options
    | some (path, rest) =>
      match step options path rest with
      | (options, none) => options
      | (options, some rest) =>
        match afterMark? [','] rest with
        | none => options
        | some rest => readList step fuel options rest

/-- Read the options of all attributes in order. -/
def readAll {σ : Type} (step : Grammar → Step σ) (initial : σ) (attributes : List Attribute) : σ :=
  attributes.foldl (fun options attr =>
    match attr.name, attr.body with
    | some "serde", .list trees => readList (step (Grammar.for trees)) (trees.length + 1) options trees
    | _, _ => options) initial

/-- Take an option's value and forget it. -/
def skipValue (g : Grammar) (trees : List Tree) : Option (List Tree) :=
  (runOn (ignoredValue g) trees).map Prod.snd

end Options

/-- One option of a type. -/
def ContainerOptions.step (g : Grammar) : Options.Step ContainerOptions := fun options path trees =>
  match path with
  | some "rename_all" =>
    match Options.runOn (Options.writtenName g) trees with
    | none => (options, none)
    | some (some rule, rest) => ({ options with renameAll := RenameRule.ofName? rule }, some rest)
    | some (none, rest) => (options, some rest)
  | some "default" => ({ options with default := true }, Options.skipValue g trees)
  | _ => (options, Options.skipValue g trees)

/-- The options that attributes give a type. -/
def ContainerOptions.read (attributes : List Attribute) : ContainerOptions :=
  Options.readAll step {} attributes

/-- One option of a field or variant. -/
def FieldOptions.step (g : Grammar) : Options.Step FieldOptions := fun options path trees =>
  match path with
  | some "rename" =>
    match Options.runOn (Options.writtenName g) trees with
    | none => (options, none)
    | some (some name, rest) => ({ options with rename := some name }, some rest)
    | some (none, rest) => (options, some rest)
  | some "skip" => ({ options with skip := true }, some trees)
  | some "skip_serializing" => ({ options with skip := true }, some trees)
  | some "skip_serializing_if" => ({ options with skipIf := true }, Options.skipValue g trees)
  | some "default" => ({ options with default := true }, Options.skipValue g trees)
  | some "flatten" => ({ options with flatten := true }, some trees)
  | _ => (options, Options.skipValue g trees)

/-- The options that attributes give a field or variant. -/
def FieldOptions.read (attributes : List Attribute) : FieldOptions :=
  Options.readAll step {} attributes

end ApiScribe
