import ApiScribe.Finding
import ApiScribe.Text.Case

/-!
# Directives in comments

A comment line, once its markers are stripped, is a directive `openapi:<name> <argument>` or
plain text. A directive whose argument ends in the word `start` opens a block: the lines up to
the next directive are its body, and that directive is consumed when it has the same name and
ends in the word `end`. A block that no directive follows is dropped with a warning.

Reading is one pass over the lines with a small state, so that each line is accounted for by a
single step.
-/

namespace ApiScribe.Comment

/-- What every directive starts with. -/
def directiveMark : String := "openapi:"

/-- The form of a directive's name used for matching: lower case without `-` and `_`. -/
def normalName (name : String) : String :=
  String.ofList ((name.toList.filter fun c => c != '-' && c != '_').flatMap Text.lowerChar)

/-- One directive with its whole argument. -/
structure Directive where
  name : String
  argument : String
deriving DecidableEq, Repr

/-- The name of a directive as it is matched. -/
def Directive.key (directive : Directive) : String := normalName directive.name

/-- The directives and the plain text of one comment. -/
structure CommentBlock where
  directives : List Directive
  /-- The first run of consecutive lines of plain text. -/
  plainText : Option String
deriving DecidableEq, Repr

/-- Strip blanks, slashes, exclamation marks and stars from the front of a comment line. -/
def stripMarkers (line : String) : String :=
  Text.trim (Text.trimStartOf (· == '*') (Text.trimStartOf (· == '!') (Text.trimStartOf (· == '/')
    (Text.trim line))))

/-- Read a stripped line as a directive. -/
def Directive.ofLine? (line : String) : Option Directive :=
  let line := (Text.dropLead "@" line).getD line
  match Text.dropLead directiveMark line with
  | none => none
  | some rest =>
    let directive : Directive :=
      match Text.splitAtBlank rest with
      | some (name, argument) => ⟨name, Text.trim argument⟩
      | none => ⟨rest, ""⟩
    if directive.name = "" then none else some directive

/-- A comment line after its markers are stripped. -/
inductive CommentLine where
  | blank
  | text (content : String)
  | directive (content : Directive)
deriving DecidableEq, Repr

/-- The stripped text of a line that is not a directive. -/
def CommentLine.content : CommentLine → String
  | .text content => content
  | _ => ""

/-- Classify one line of a comment. -/
def CommentLine.ofRaw (raw : String) : CommentLine :=
  let line := stripMarkers raw
  match Directive.ofLine? line with
  | some found => .directive found
  | none => if line = "" then .blank else .text line

/-- The words before a final `start`, joined again, for a directive that opens a block. -/
def Directive.blockLead? (directive : Directive) : Option String :=
  match (Text.words directive.argument).reverse with
  | "start" :: lead => some (Text.join " " lead.reverse)
  | _ => none

/-- Whether a directive closes a block opened by the other one. -/
def Directive.closes (closing opening : Directive) : Bool :=
  closing.key == opening.key && (Text.words closing.argument).getLast? == some "end"

/-- The lines without empty ones at either end. -/
def trimEmptyEdges (lines : List String) : List String := Text.strip (· == "") lines

/-- A block whose closing line has not been met yet; its body is kept in reading order. -/
structure OpenBlock where
  opening : Directive
  lead : String
  body : List String
deriving DecidableEq, Repr

/-- The directive that a block stands for. -/
def OpenBlock.close (block : OpenBlock) : Directive :=
  let payload := Text.join "\n" (trimEmptyEdges block.body)
  ⟨block.opening.name, if block.lead = "" then payload else block.lead ++ " " ++ payload⟩

/-- What has been read of a comment. -/
structure LexState where
  directives : List Directive := []
  plain : List String := []
  plainClosed : Bool := false
  pending : Option OpenBlock := none
deriving DecidableEq, Repr

/-- Take a directive outside every block: it opens one or stands alone. -/
def LexState.takeDirective (state : LexState) (directive : Directive) : LexState :=
  let state := { state with plainClosed := state.plainClosed || !state.plain.isEmpty }
  match directive.blockLead? with
  | some lead => { state with pending := some ⟨directive, lead, []⟩ }
  | none => { state with directives := state.directives ++ [directive] }

/-- Take one line. -/
def LexState.step (state : LexState) (line : CommentLine) : LexState :=
  match state.pending, line with
  | none, .blank => { state with plainClosed := state.plainClosed || !state.plain.isEmpty }
  | none, .text content =>
    if state.plainClosed then state else { state with plain := state.plain ++ [content] }
  | none, .directive directive => state.takeDirective directive
  | some block, .directive directive =>
    let closed := { state with directives := state.directives ++ [block.close], pending := none }
    if directive.closes block.opening then closed else closed.takeDirective directive
  | some block, line =>
    { state with pending := some { block with body := block.body ++ [line.content] } }

/-- Take all lines of a comment. -/
def LexState.run (lines : List CommentLine) : LexState :=
  lines.foldl LexState.step {}

/-- What was read, with a warning for a block that was left open. -/
def LexState.finish (state : LexState) (subject : String) : CommentBlock × List Finding :=
  let plainText := if state.plain.isEmpty then none else some (Text.join "\n" state.plain)
  let findings :=
    match state.pending with
    | some block => [⟨subject, .unterminatedBlock block.opening.name block.opening.argument⟩]
    | none => []
  (⟨state.directives, plainText⟩, findings)

/-- Read the lines of a comment on the given subject. -/
def lex (lines : List String) (subject : String) : CommentBlock × List Finding :=
  (LexState.run (lines.map CommentLine.ofRaw)).finish subject

/-- Whether any line is a directive. -/
def hasDirective (lines : List String) : Bool :=
  lines.any fun line => (Directive.ofLine? (stripMarkers line)).isSome

end ApiScribe.Comment
