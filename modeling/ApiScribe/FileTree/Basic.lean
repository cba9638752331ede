import ApiScribe.FilePath

/-!
# File trees

A file tree is the list of its files and of directories that hold none. A place in it is the list of the
names on the way down from the top. There are no links, so a place has one path only.
-/

namespace ApiScribe

/-- The names on the way down from the top of a tree. -/
abbrev TreePath := List String

/-- What a file holds. -/
inductive FileContent where
  | text (text : String)
  /-- Bytes that are not UTF-8. -/
  | undecodable
deriving DecidableEq, Repr

/-- A file tree. -/
structure FileTree where
  /-- The path of the top; empty if the top is the top of all files. -/
  top : String
  files : List (TreePath × FileContent) := []
  directories : List TreePath := []
  /-- The directory that relative paths start from. -/
  here : TreePath := []
deriving Repr

/-- Why a path cannot be used. -/
inductive PathFault where
  | missing
  | notDirectory
  | isDirectory
  | occupied
  | undecodable
deriving DecidableEq, Repr

/-- The wording of a fault. -/
def PathFault.reason : PathFault → String
  | .missing => "No such file or directory (os error 2)"
  | .notDirectory => "Not a directory (os error 20)"
  | .isDirectory => "Is a directory (os error 21)"
  | .occupied => "File exists (os error 17)"
  | .undecodable => "stream did not contain valid UTF-8"

namespace FileTree

/-- The content of the file at a place. -/
def content? (tree : FileTree) (location : TreePath) : Option FileContent :=
  (tree.files.find? fun file => file.1 = location).map Prod.snd

/-- Whether a file is at a place. -/
def isFile (tree : FileTree) (location : TreePath) : Bool := (tree.content? location).isSome

/-- Whether a directory is at a place: the top, a listed directory, or one that is on the way to a listed
directory or a file. -/
def isDirectory (tree : FileTree) (location : TreePath) : Bool :=
  location.isEmpty || tree.directories.any location.isPrefixOf ||
    tree.files.any fun file => location.isPrefixOf file.1 && location.length < file.1.length

/-- Whether anything is at a place. -/
def holds (tree : FileTree) (location : TreePath) : Bool :=
  tree.isFile location || tree.isDirectory location

/-- Put a file at a place, instead of one that is there. -/
def addFile (tree : FileTree) (location : TreePath) (content : FileContent) : FileTree :=
  { tree with files := tree.files.filter (fun file => file.1 != location) ++ [(location, content)] }

/-- Put a directory at a place. -/
def addDirectory (tree : FileTree) (location : TreePath) : FileTree :=
  { tree with directories := tree.directories ++ [location] }

/-- The path of a place. -/
def pathOf (tree : FileTree) (location : TreePath) : String :=
  if location.isEmpty && tree.top = "" then "/" else Text.join "/" (tree.top :: location)

/-- The directory above a place, if it is in the tree. Above the top of all files is the top. -/
def above? (tree : FileTree) (location : TreePath) : Option TreePath :=
  if !location.isEmpty then some location.dropLast else if tree.top = "" then some [] else none

/-- Go down from a place along the pieces of a path. -/
def walk (tree : FileTree) : TreePath → List String → Except PathFault TreePath
  | place, [] => .ok place
  | place, piece :: rest =>
    if tree.isFile place then .error .notDirectory
    else if FilePath.isIdle piece then tree.walk place rest
    else if piece = ".." then
      match tree.above? place with
      | some above => tree.walk above rest
      | none => .error .missing
    else if tree.holds (place ++ [piece]) then tree.walk (place ++ [piece]) rest
    else .error .missing

/-- Where the pieces of a path start from. -/
def start? (tree : FileTree) (path : String) : Option TreePath :=
  if Text.startsWith "/" path then (if tree.top = "" then some [] else none) else some tree.here

/-- The place that a path leads to. -/
def locate (tree : FileTree) (path : String) : Except PathFault TreePath :=
  match tree.start? path with
  | none => .error .missing
  | some place => if path = "" then .error .missing else tree.walk place (Text.splitOnChar '/' path)

/-- The text of the file at a place. -/
def readAt (tree : FileTree) (location : TreePath) : Except PathFault String :=
  match tree.content? location with
  | some (.text text) => .ok text
  | some .undecodable => .error .undecodable
  | none => if tree.isDirectory location then .error .isDirectory else .error .missing

/-- The text of the file that a path leads to. -/
def read (tree : FileTree) (path : String) : Except PathFault String := do
  tree.readAt (← tree.locate path)

/-- Create the directories along the pieces of a path where there are none. -/
def createAlong (tree : FileTree) : TreePath → List String → Except PathFault FileTree
  | place, [] => .ok (tree.addDirectory place)
  | place, piece :: rest =>
    if FilePath.isIdle piece then tree.createAlong place rest
    else if piece = ".." then
      match tree.above? place with
      | some above => tree.createAlong above rest
      | none => .error .missing
    else if tree.isFile (place ++ [piece]) then
      .error (if rest.isEmpty then .occupied else .notDirectory)
    else tree.createAlong (place ++ [piece]) rest

/-- Create a directory and those above it; a directory that is there already stays. -/
def createDirectories (tree : FileTree) (path : String) : Except PathFault FileTree :=
  match tree.start? path with
  | none => .error .missing
  | some place =>
    if path = "" then .ok tree else tree.createAlong place (Text.splitOnChar '/' path)

/-- Write a file. Its directory must be there, and a path that ends like one of a directory is none. -/
def write (tree : FileTree) (path text : String) : Except PathFault FileTree :=
  match tree.start? path with
  | none => .error .missing
  | some start => do
    let pieces := Text.splitOnChar '/' path
    let named := (pieces.reverse.dropWhile (· == "")).reverse
    let place ← tree.walk start named.dropLast
    let name := named.getLast?.getD ""
    if tree.isFile place then .error .notDirectory
    else if FilePath.isIdle name || name = ".." || named.length < pieces.length ||
        tree.isDirectory (place ++ [name]) then .error .isDirectory
    else .ok (tree.addFile (place ++ [name]) (.text text))

end FileTree

end ApiScribe
