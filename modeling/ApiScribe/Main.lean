import ApiScribe.CommandLine.Run

/-!
# The program

Read from the disk what a run can look at, run, and put what it logged, printed and wrote where it
belongs. What a run does is decided by `CommandLine.run`.
-/

namespace ApiScribe.CommandLine

/-- What to say when arguments do not start a run. -/
def ArgumentFault.message : ArgumentFault → String
  | .missingDirectory => "error: a source directory is required"
  | .invalidValue => "error: a value is missing or not one of those allowed"
  | .unknownOption => "error: unknown option"
  | .repeatedOption => "error: an option is given more than once"
  | .unexpectedValue => "error: a value is given to an option that takes none"
  | .helpWanted => "Generate an OpenAPI document from `openapi:` annotations in Rust doc comments\n\n" ++
      "Usage: api-scribe [-f yaml|json] [-o FILE] [-m FILE] [--values FILE,...] [-l LEVEL] [-v] DIR..."
  | .versionWanted => "api-scribe 0.1.0"

/-- Whether a request for information, and not a mistake, keeps a run from starting. -/
def ArgumentFault.isRequest : ArgumentFault → Bool
  | .helpWanted => true
  | .versionWanted => true
  | _ => false

/-- The place that a path names, by its text alone. -/
def placeNamed (here : TreePath) (path : String) : TreePath :=
  (FilePath.parts path).foldl (fun place part =>
    match part with
    | .root => []
    | .here => place
    | .up => place.dropLast
    | .name name => place ++ [name]) here

/-- The content of a file of the disk, if there is one. -/
def contentOnDisk (path : String) : IO (Option FileContent) := do
  try
    let bytes ← IO.FS.readBinFile path
    match String.fromUTF8? bytes with
    | some text => return some (.text text)
    | none => return some .undecodable
  catch _ => return none

/-- The names in a directory of the disk, if there is one. -/
def namesOnDisk (path : String) : IO (Option (List String)) := do
  try
    let entries ← ((← IO.currentDir) / path).readDir
    return some (entries.toList.map fun entry => entry.fileName)
  catch _ => return none

/-- Add what is at a place of the disk, and below it as far as a scan may reach. -/
partial def gather (location : TreePath) (tree : FileTree) : IO FileTree := do
  let path := tree.pathOf location
  match ← namesOnDisk path with
  | some names =>
    let mut tree := tree.addDirectory location
    for name in names do
      unless SourceScan.isSkipped name do
        tree ← gather (location ++ [name]) tree
    return tree
  | none =>
    match ← contentOnDisk path with
    | some content => return tree.addFile location content
    | none => return tree

/-- Add the manifests and source directories of the crates that enclose a place. -/
def gatherCrates (location : TreePath) (tree : FileTree) : IO FileTree := do
  let mut tree := tree
  for directory in SourceScan.ancestors location do
    let manifest := directory ++ [SourceScan.manifestName]
    match ← contentOnDisk (tree.pathOf manifest) with
    | none => pure ()
    | some content =>
      tree ← gather (directory ++ [SourceScan.sourceDirectoryName]) (tree.addFile manifest content)
  return tree

/-- The part of the disk that a run with the given arguments looks at. -/
def treeOnDisk (arguments : Arguments) : IO FileTree := do
  let here := placeNamed [] (toString (← IO.currentDir))
  let mut tree : FileTree := { top := "", here, directories := [here] }
  for path in arguments.directories do
    let place := placeNamed here path
    tree ← gatherCrates place (← gather place tree)
  for path in arguments.metadata.toList ++ arguments.overrides ++ arguments.output.toList do
    let place := placeNamed here path
    match ← contentOnDisk (tree.pathOf place) with
    | some content => tree := tree.addFile place content
    | none =>
      if (← namesOnDisk (tree.pathOf place)).isSome then tree := tree.addDirectory place
  return tree

end ApiScribe.CommandLine

open ApiScribe ApiScribe.CommandLine in
/-- Run the program with its arguments. -/
def main (texts : List String) : IO UInt32 := do
  match Arguments.ofList texts with
  | .error fault =>
    if fault.isRequest then
      IO.println fault.message
      return 0
    else
      IO.eprintln fault.message
      return 2
  | .ok arguments =>
    let outcome := run arguments (← treeOnDisk arguments)
    for line in outcome.log do
      IO.eprintln ("[" ++ line.level.label ++ "] " ++ line.text)
    IO.print outcome.printed
    match outcome.fault with
    | some fault =>
      IO.eprintln ("Error: " ++ fault.message)
      return 1
    | none =>
      match arguments.output with
      | none => return 0
      | some path =>
        match outcome.tree.read path with
        | .error _ => return 1
        | .ok text =>
          match FilePath.parent? path with
          | some parent => unless parent = "" do IO.FS.createDirAll parent
          | none => pure ()
          IO.FS.writeFile path text
          return 0
