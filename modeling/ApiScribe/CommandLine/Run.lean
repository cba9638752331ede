import ApiScribe.CommandLine.Arguments
import ApiScribe.Document.Encode
import ApiScribe.FileTree.Sources
import ApiScribe.Generate
import ApiScribe.Json.Printer
import ApiScribe.Overlay
import ApiScribe.OverrideDocument
import ApiScribe.Yaml.Printer

/-!
# A run

Scan the directories, read the files, generate the document, lay override documents over it, and print it
or write it to a file. A run works on a file tree; it gives back the tree that it leaves, what it logged
and what it printed, and the fault that ended it, if one did.
-/

namespace ApiScribe.CommandLine

open Json (Value)

/-- A line of the log. -/
structure LogLine where
  level : Level
  text : String
deriving DecidableEq, Repr

/-- What ends a run. -/
inductive RunFault where
  | missingDirectory (path : String)
  | notDirectory (path : String)
  | missingMetadata (path : String)
  | inaccessible (path : String) (fault : PathFault)
  | noSources
  /-- A source file cannot be used. -/
  | unusableSource (reason : String)
  | failed (failure : Failure)
  | noOutputDirectory (path : String) (fault : PathFault)
  | unwritable (path : String) (fault : PathFault)
deriving DecidableEq, Repr

/-- The text of a fault. -/
def RunFault.message : RunFault → String
  | .missingDirectory path => "Source directory does not exist: " ++ path
  | .notDirectory path => "Source path is not a directory: " ++ path
  | .missingMetadata path => "Metadata file does not exist: " ++ path
  | .inaccessible path fault => "Failed to access directory: " ++ path ++ ": " ++ fault.reason
  | .noSources => "No Rust files found in the source directories"
  | .unusableSource reason => "Source files could not be parsed: " ++ reason
  | .failed failure => failure.message
  | .noOutputDirectory path fault => "Failed to create directory: " ++ path ++ ": " ++ fault.reason
  | .unwritable path fault => "Failed to write to file: " ++ path ++ ": " ++ fault.reason

/-- What a run works on and what it has done so far. -/
structure Session where
  tree : FileTree
  log : List LogLine := []
  printed : String := ""

/-- A part of a run. -/
abbrev Run (α : Type) := ExceptT RunFault (StateM Session) α

namespace Run

/-- Log a line. -/
def log (level : Level) (text : String) : Run Unit :=
  modify fun session => { session with log := session.log ++ [⟨level, text⟩] }

/-- Log what is going on. -/
def info (text : String) : Run Unit := log .info text

/-- The level at which a finding is logged. -/
def levelOf : Severity → Level
  | .warning => .warn
  | .error => .error

/-- Log findings. -/
def report (findings : List Finding) : Run Unit :=
  findings.forM fun finding => log (levelOf finding.severity) finding.display

/-- The file tree. -/
def tree : Run FileTree := do
  let session ← get
  return session.tree

/-- Check that the directories and the file of the metadata are there, and tell what is asked for. -/
def check (arguments : Arguments) : Run Unit := do
  let tree ← tree
  for path in arguments.directories do
    match tree.locate path with
    | .error _ => throw (.missingDirectory path)
    | .ok location => unless tree.isDirectory location do throw (.notDirectory path)
  match arguments.metadata with
  | none => pure ()
  | some path =>
    match tree.locate path with
    | .error _ => throw (.missingMetadata path)
    | .ok location => unless tree.isFile location do throw (.missingMetadata path)
  for path in arguments.directories do
    info ("Source directory: " ++ path)
  info ("Output format: " ++ arguments.format.name)
  match arguments.output with
  | some path => info ("Output file: " ++ path)
  | none => info "Output: stdout"
  match arguments.metadata with
  | some path => info ("Metadata source: " ++ path)
  | none => pure ()

/-- Scan a directory. -/
def scan (path : String) : Run SourceScan := do
  let tree ← tree
  info ("Scanning " ++ path ++ "...")
  match tree.locate path with
  | .error fault => throw (.inaccessible path fault)
  | .ok location =>
    let found := SourceScan.ofDirectory tree location
    info ("Found " ++ Text.decimal found.files.length ++ " Rust files")
    return found

/-- The files of several scans, each once. -/
def distinctFiles (scans : List SourceScan) : List FoundSource :=
  (scans.flatMap SourceScan.files).foldl (fun kept file =>
    if kept.any (fun other => other.location = file.location) then kept else kept ++ [file]) []

/-- The source roots of several scans, each once. -/
def distinctRoots (scans : List SourceScan) : List TreePath := (scans.map SourceScan.sourceRoot).eraseDups

/-- Read the files that were found. Every file that cannot be used is logged; the first ends the run. -/
def readSources (found : List FoundSource) : Run (List Source.File) := do
  let tree ← tree
  let mut files := #[]
  let mut faults := #[]
  for file in found do
    let path := tree.pathOf file.location
    match tree.source file.location path file.module with
    | .ok source => files := files.push source
    | .error reason =>
      log .warn ("Failed to parse " ++ path ++ ": " ++ reason)
      faults := faults.push reason
  match faults.toList with
  | [] => return files.toList
  | reason :: _ => throw (.unusableSource reason)

/-- Where the metadata comes from: a file that was read already, or another one. -/
def metadataSource (tree : FileTree) (files : List Source.File) : Option String → MetadataSource
  | none => .crateRoot
  | some path =>
    match tree.locate path with
    | .error fault => .unusable (.parse path (unreadableSource path fault.reason))
    | .ok location =>
      MetadataSource.ofPath files (tree.pathOf location)
        ((tree.source location path .root).mapError (.parse path))

/-- Generate the document. -/
def generated (arguments : Arguments) (files : List Source.File) (roots : List TreePath) :
    Run Generation := do
  let tree ← tree
  match generate files (Loader.ofTree tree roots) (metadataSource tree files arguments.metadata) with
  | .error (failure, findings) =>
    report findings
    throw (.failed failure)
  | .ok generation =>
    report generation.log
    return generation

/-- Lay override documents over a document, one after the other. -/
def overlaid (document : Value) (paths : List String) : Run (Value × List Finding) := do
  let tree ← tree
  let mut merged := document
  let mut findings := []
  for path in paths do
    match OverrideDocument.load tree path with
    | .error failure => throw (.failed failure)
    | .ok overlay =>
      let (next, found) := Overlay.merge "" merged overlay
      report found
      info ("Merged override document " ++ path)
      merged := next
      findings := findings ++ found
  return (merged, findings)

/-- A document in a format. -/
def rendered (document : Value) : Format → String
  | .yaml => Yaml.render document
  | .json => document.pretty

/-- Write a file, creating the directories that it lies in. -/
def write (path text : String) : Run Unit := do
  let mut tree ← tree
  match FilePath.parent? path with
  | none => pure ()
  | some parent =>
    match tree.createDirectories parent with
    | .error fault => throw (.noOutputDirectory parent fault)
    | .ok next => tree := next
  match tree.write path text with
  | .error fault => throw (.unwritable path fault)
  | .ok next => modify fun session => { session with tree := next }

/-- Print the document, or write it to a file. -/
def deliver (text : String) : Option String → Run Unit
  | none => modify fun session => { session with printed := session.printed ++ text ++ "\n" }
  | some path => do
    info ("Writing output to: " ++ path)
    write path text
    info ("Successfully wrote OpenAPI document to " ++ path)

/-- Tell what was done. -/
def summarize (files : Nat) (document : Document) (findings : List Finding) : Run Unit := do
  info "Generation complete!"
  info "Summary:"
  info ("  - Files scanned: " ++ Text.decimal files)
  info ("  - Files parsed: " ++ Text.decimal files)
  info ("  - Operations: " ++ Text.decimal document.operationCount)
  info ("  - Schemas: " ++ Text.decimal document.schemaCount)
  info ("  - Diagnostics: " ++ Text.decimal (findings.countP Finding.isWarning) ++ " warnings, " ++
    Text.decimal (findings.countP Finding.isError) ++ " errors")

/-- Everything after the arguments are read. -/
def whole (arguments : Arguments) : Run Unit := do
  check arguments
  info "Starting OpenAPI document generation..."
  let scans ← arguments.directories.mapM scan
  let found := distinctFiles scans
  if found.isEmpty then throw .noSources
  info "Parsing Rust files..."
  let files ← readSources found
  info ("Successfully parsed " ++ Text.decimal files.length ++ " files")
  info "Generating OpenAPI document..."
  let generation ← generated arguments files (distinctRoots scans)
  info ("Serializing to " ++ arguments.format.name ++ " format...")
  let (document, findings) ← overlaid generation.document.toJson arguments.overrides
  deliver (rendered document arguments.format) arguments.output
  summarize found.length generation.document (generation.findings ++ findings)

end Run

/-- The result of a run. -/
structure Outcome where
  /-- The fault that ended the run. -/
  fault : Option RunFault
  /-- The files that the run leaves. -/
  tree : FileTree
  /-- The lines of the log that the level lets through. -/
  log : List LogLine
  printed : String

/-- Run with arguments on a file tree. -/
def run (arguments : Arguments) (tree : FileTree) : Outcome :=
  let (result, session) := (Run.whole arguments).run.run { tree }
  { fault := match result with
      | .ok _ => none
      | .error fault => some fault
    tree := session.tree
    log := session.log.filter fun line => line.level.rank ≤ arguments.logLevel.rank
    printed := session.printed }

end ApiScribe.CommandLine
