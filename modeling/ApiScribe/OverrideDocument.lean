import ApiScribe.Failure
import ApiScribe.FileTree.Basic
import ApiScribe.Json.Reader
import ApiScribe.Yaml.Reader

/-!
# Override documents

A document to be laid over the generated one is JSON if its file's name says so, else YAML.
-/

namespace ApiScribe.OverrideDocument

open Json (Value)

/-- Whether the name of a file says that it holds JSON. -/
def isJson (path : String) : Bool :=
  ((FilePath.extension? path).map Text.lowerAscii) = some "json"

/-- Read the text of an override document. -/
def ofText? (path text : String) : Option Value :=
  if isJson path then Value.ofText? text else Yaml.read? text

/-- The fault of a file that cannot be read: it is told whether the file is missing or a directory. -/
def faultOf : PathFault → OverrideFault
  | .missing => .unreadable PathFault.missing.reason
  | .isDirectory => .unreadable PathFault.isDirectory.reason
  | _ => .malformed

/-- Make a document of the text of a file, or of the fault in reading it. -/
def ofReading (path : String) : Except PathFault String → Except Failure Value
  | .error fault => .error (.override path (faultOf fault))
  | .ok text =>
    match ofText? path text with
    | some value => .ok value
    | none => .error (.override path .malformed)

/-- Load an override document of a tree. -/
def load (tree : FileTree) (path : String) : Except Failure Value := ofReading path (tree.read path)

end ApiScribe.OverrideDocument
