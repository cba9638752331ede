import ApiScribe.Text.Basic

/-!
# Command-line arguments

Directories, and options in a short and a long form. An option's value follows it as the next argument,
or directly: `-f json`, `-fjson`, `-f=json`, `--format json`, `--format=json`. Short options without a
value can be joined. After `--` all arguments are directories.

Values are checked when the next option or directory is complete, so an unknown option is reported before
a bad value that stands right before it.
-/

namespace ApiScribe.CommandLine

/-- The format of the printed document. -/
inductive Format where
  | yaml | json
deriving DecidableEq, Repr

/-- How much is logged. -/
inductive Level where
  | error | warn | info | debug | trace
deriving DecidableEq, Repr

/-- Formats by their name in arguments. -/
def Format.ofText? : String → Option Format
  | "yaml" => some .yaml
  | "json" => some .json
  | _ => none

/-- The name of a format in messages. -/
def Format.name : Format → String
  | .yaml => "Yaml"
  | .json => "Json"

/-- Levels by their name in arguments. -/
def Level.ofText? : String → Option Level
  | "error" => some .error
  | "warn" => some .warn
  | "info" => some .info
  | "debug" => some .debug
  | "trace" => some .trace
  | _ => none

/-- The rank of a level; a higher one logs more. -/
def Level.rank : Level → Nat
  | .error => 1
  | .warn => 2
  | .info => 3
  | .debug => 4
  | .trace => 5

/-- The name of a level in logs. -/
def Level.label : Level → String
  | .error => "ERROR"
  | .warn => "WARN"
  | .info => "INFO"
  | .debug => "DEBUG"
  | .trace => "TRACE"

/-- The arguments of a run. -/
structure Arguments where
  directories : List String
  format : Format := .yaml
  output : Option String := none
  metadata : Option String := none
  overrides : List String := []
  level : Level := .info
  verbose : Bool := false
deriving DecidableEq, Repr

/-- The level that is logged: a verbose run logs at least what is for debugging. -/
def Arguments.logLevel (arguments : Arguments) : Level :=
  if arguments.verbose && arguments.level.rank < Level.debug.rank then .debug else arguments.level

/-- Why arguments do not start a run. -/
inductive ArgumentFault where
  | missingDirectory
  /-- A value is missing, empty or none of those allowed. -/
  | invalidValue
  | unknownOption
  /-- An option is repeated that may stand once only. -/
  | repeatedOption
  /-- A value is attached to an option that takes none. -/
  | unexpectedValue
  | helpWanted
  | versionWanted
deriving DecidableEq, Repr

/-- What values belong to. -/
inductive Slot where
  | directories | format | output | metadata | overrides | level
deriving DecidableEq, Repr

/-- An option. -/
inductive Switch where
  | takes (slot : Slot)
  | verbose
  | help
  | version
deriving DecidableEq, Repr

/-- Options by their long name. -/
def Switch.ofLong? : String → Option Switch
  | "format" => some (.takes .format)
  | "output" => some (.takes .output)
  | "meta" => some (.takes .metadata)
  | "values" => some (.takes .overrides)
  | "level" => some (.takes .level)
  | "verbose" => some .verbose
  | "help" => some .help
  | "version" => some .version
  | _ => none

/-- Options by their letter. -/
def Switch.ofLetter? : Char → Option Switch
  | 'f' => some (.takes .format)
  | 'o' => some (.takes .output)
  | 'm' => some (.takes .metadata)
  | 'l' => some (.takes .level)
  | 'v' => some .verbose
  | 'h' => some .help
  | 'V' => some .version
  | _ => none

/-- The arguments read so far. -/
structure Draft where
  directories : List String := []
  format : Option Format := none
  output : Option String := none
  metadata : Option String := none
  overrides : List String := []
  level : Option Level := none
  verbose : Bool := false
  /-- Values that are not checked yet, with what they belong to. -/
  pending : Option (Slot × List String) := none
deriving DecidableEq, Repr

namespace Draft

/-- A reading step, which may find a fault. -/
abbrev Step := Except ArgumentFault Draft

/-- The only value of an option that may stand once. -/
def single {α : Type} (stored : Option α) (read : String → Option α) : List String → Except ArgumentFault α
  | [] => .error .invalidValue
  | value :: _ =>
    if stored.isSome then .error .repeatedOption
    else
      match read value with
      | some found => .ok found
      | none => .error .invalidValue

/-- A path is any text that is not empty. -/
def path? (text : String) : Option String := if text = "" then none else some text

/-- Several paths, at least one. -/
def paths : List String → Except ArgumentFault (List String)
  | [] => .error .invalidValue
  | values => if values.contains "" then .error .invalidValue else .ok values

/-- Check values and keep them. A comma separates the paths of override documents. -/
def store (draft : Draft) (slot : Slot) (values : List String) : Step := do
  match slot with
  | .directories => return { draft with directories := draft.directories ++ (← paths values) }
  | .overrides =>
    return { draft with overrides := draft.overrides ++ (← paths (values.flatMap (Text.splitOnChar ','))) }
  | .format => return { draft with format := some (← single draft.format Format.ofText? values) }
  | .output => return { draft with output := some (← single draft.output path? values) }
  | .metadata => return { draft with metadata := some (← single draft.metadata path? values) }
  | .level => return { draft with level := some (← single draft.level Level.ofText? values) }

/-- Check and keep the values that are not checked yet. -/
def settle (draft : Draft) : Step :=
  match draft.pending with
  | none => .ok draft
  | some (slot, values) => { draft with pending := none }.store slot values

/-- The option that waits for its value. -/
def awaiting? (draft : Draft) : Option Slot :=
  match draft.pending with
  | some (slot, []) => some slot
  | _ => none

/-- Take an option that has no value. -/
def flag (draft : Draft) : Switch → Step
  | .takes slot => do return { ← draft.settle with pending := some (slot, []) }
  | .verbose => do
    let draft ← draft.settle
    if draft.verbose then .error .repeatedOption else return { draft with verbose := true }
  | .help => do
    let _ ← draft.settle
    .error .helpWanted
  | .version => do
    let _ ← draft.settle
    .error .versionWanted

/-- Take an option with an attached value. -/
def attached (draft : Draft) (slot : Slot) (value : String) : Step := do
  (← draft.settle).store slot [value]

/-- Take a directory. Directories in a row are checked together. -/
def directory (draft : Draft) (text : String) : Step := do
  match draft.pending with
  | some (.directories, values) => return { draft with pending := some (.directories, values ++ [text]) }
  | _ => return { ← draft.settle with pending := some (.directories, [text]) }

/-- Take an option in its long form, without the dashes. -/
def long (draft : Draft) (text : String) : Step :=
  let (name, value) :=
    match Text.cutAt (· == '=') text.toList with
    | some (name, value) => (String.ofList name, some (String.ofList value))
    | none => (text, none)
  match Switch.ofLong? name, value with
  | none, _ => .error .unknownOption
  | some (.takes slot), some value => draft.attached slot value
  | some _, some _ => .error .unexpectedValue
  | some switch, none => draft.flag switch

/-- Take joined options in their short form, without the dash. -/
def letters (draft : Draft) : List Char → Step
  | [] => .ok draft
  | c :: rest =>
    match Switch.ofLetter? c, rest with
    | none, _ => .error .unknownOption
    | some (.takes slot), '=' :: value => draft.attached slot (String.ofList value)
    | some (.takes slot), d :: value => draft.attached slot (String.ofList (d :: value))
    | some switch, rest => do (← draft.flag switch).letters rest

/-- Take an argument that is neither an option nor the end of options. -/
def plain (draft : Draft) (text : String) : Step :=
  match draft.awaiting? with
  | some slot => .ok { draft with pending := some (slot, [text]) }
  | none => draft.directory text

/-- Take all arguments. -/
def readAll (draft : Draft) : List String → Step
  | [] => draft.settle
  | "--" :: rest => do (← rest.foldlM directory draft).settle
  | argument :: rest => do
    let next ←
      match argument.toList with
      | '-' :: '-' :: name => draft.long (String.ofList name)
      | '-' :: c :: name => draft.letters (c :: name)
      | _ => draft.plain argument
    next.readAll rest

/-- The arguments of a draft. -/
def complete (draft : Draft) : Except ArgumentFault Arguments :=
  if draft.directories.isEmpty then .error .missingDirectory
  else
    .ok
      { directories := draft.directories
        format := draft.format.getD .yaml
        output := draft.output
        metadata := draft.metadata
        overrides := draft.overrides
        level := draft.level.getD .info
        verbose := draft.verbose }

end Draft

/-- Read the arguments of a run. -/
def Arguments.ofList (texts : List String) : Except ArgumentFault Arguments := do
  (← Draft.readAll {} texts).complete

end ApiScribe.CommandLine
