import ApiScribe.Yaml.Token

/-!
# Nodes

The tree of a document: scalars, sequences and mappings, with their tags, and aliases of nodes that carry
an anchor. The number of an anchor is how many names were in use before it, so an anchor that takes a name
again has the number of the next new name. An alias has the number that its name last got, and stands for
the last node of the document with that number.
-/

namespace ApiScribe.Yaml

/-- A node of a document. -/
inductive Node where
  | scalar (anchor : Option Nat) (tag : Option String) (text : String) (plain : Bool)
  | reference (target : Nat)
  | sequence (anchor : Option Nat) (tag : Option String) (items : List Node)
  | mapping (anchor : Option Nat) (tag : Option String) (entries : List (Node × Node))
deriving Repr

namespace Node

/-- The node that stands where one is left out. -/
def empty : Node := .scalar none none "" true

/-- The number of a node's anchor. -/
def anchor? : Node → Option Nat
  | .scalar anchor .. => anchor
  | .reference _ => none
  | .sequence anchor .. => anchor
  | .mapping anchor .. => anchor

mutual

/-- The last node with an anchor of the given number among a node and what is in it; a collection comes
before what is in it. -/
def find? (target : Nat) : Node → Option Node
  | .scalar anchor tag text plain =>
    if anchor = some target then some (.scalar anchor tag text plain) else none
  | .reference _ => none
  | .sequence anchor tag items =>
    (findInItems? target items).or
      (if anchor = some target then some (.sequence anchor tag items) else none)
  | .mapping anchor tag entries =>
    (findInEntries? target entries).or
      (if anchor = some target then some (.mapping anchor tag entries) else none)

/-- The last node with an anchor of the given number in a sequence. -/
def findInItems? (target : Nat) : List Node → Option Node
  | [] => none
  | item :: rest => (findInItems? target rest).or (item.find? target)

/-- The last node with an anchor of the given number in a mapping. -/
def findInEntries? (target : Nat) : List (Node × Node) → Option Node
  | [] => none
  | (key, value) :: rest => (findInEntries? target rest).or ((value.find? target).or (key.find? target))

end

mutual

/-- How many marks it takes to list a node: one for a scalar or an alias, two around a collection. -/
def extent : Node → Nat
  | .scalar .. => 1
  | .reference _ => 1
  | .sequence _ _ items => itemsExtent items + 2
  | .mapping _ _ entries => entriesExtent entries + 2

/-- The same for the items of a sequence. -/
def itemsExtent : List Node → Nat
  | [] => 0
  | item :: rest => item.extent + itemsExtent rest

/-- The same for the entries of a mapping. -/
def entriesExtent : List (Node × Node) → Nat
  | [] => 0
  | (key, value) :: rest => key.extent + value.extent + entriesExtent rest

end

end Node

/-- The tokens still to be read and the names that are known. -/
structure Feed where
  tokens : List Token
  /-- The names of anchors in use, with the number that each last got. -/
  anchors : List (String × Nat) := []
  /-- What the tag handles stand for. -/
  handles : List (String × String) := []

/-- A rule reads some tokens. -/
abbrev NodeRule (α : Type) := StateT Feed Option α

namespace NodeRule

/-- The next token. -/
def peek : NodeRule (Option Token) := do
  let feed ← get
  return feed.tokens.head?

/-- Pass over the next token. -/
def advance : NodeRule Unit := modify fun feed => { feed with tokens := feed.tokens.drop 1 }

/-- Whether the next token is one of some. -/
def peekIn (tokens : List Token) : NodeRule Bool := do
  match ← peek with
  | some token => return tokens.contains token
  | none => return false

/-- Number a new anchor. -/
def declare (name : String) : NodeRule Nat := do
  let feed ← get
  let number := feed.anchors.length
  set { feed with anchors := (name, number) :: feed.anchors.filter (·.1 != name) }
  return number

/-- The number of the anchor that an alias names. -/
def targetOf (name : String) : NodeRule Nat := do
  let feed ← get
  match feed.anchors.find? (·.1 == name) with
  | some (_, number) => return number
  | none => failure

/-- The tag that a handle and a suffix stand for. -/
def tagOf (handle suffix : String) : NodeRule String := do
  let feed ← get
  if handle = "" then return suffix
  else
    match feed.handles.find? (·.1 == handle) with
    | some (_, lead) => return lead ++ suffix
    | none => failure

/-- An anchor, if one is next. -/
def anchor? : NodeRule (Option Nat) := do
  match ← peek with
  | some (.anchor name) =>
    advance
    return some (← declare name)
  | _ => return none

/-- A tag, if one is next. -/
def tag? : NodeRule (Option String) := do
  match ← peek with
  | some (.tag handle suffix) =>
    advance
    return some (← tagOf handle suffix)
  | _ => return none

/-- The anchor and the tag of a node, in any order. -/
def properties : NodeRule (Option Nat × Option String) := do
  match ← anchor? with
  | some anchor => return (some anchor, ← tag?)
  | none =>
    let tag ← tag?
    return (← anchor?, tag)

/-- The tokens after which the item of a block sequence is left out. -/
def itemEnds : List Token := [.blockEntry, .blockEnd]

/-- The tokens after which the item of a sequence that shares the indentation of its key is left out. -/
def looseItemEnds : List Token := [.blockEntry, .key, .value, .blockEnd]

/-- The tokens after which a key or a value of a block mapping is left out. -/
def entryEnds : List Token := [.key, .value, .blockEnd]

mutual

/-- A node. In a block it may be a block collection, and after a key also a sequence that is not indented.
The tag `!` says nothing of a scalar. -/
def node (block loose : Bool) : Nat → NodeRule Node
  | 0 => failure
  | fuel + 1 => do
    match ← peek with
    | some (.reference name) =>
      advance
      return .reference (← targetOf name)
    | _ =>
      let (anchor, tag) ← properties
      let next ← peek
      if loose && next = some .blockEntry then return .sequence anchor tag (← looseItems fuel)
      else
        match next with
        | some (.scalar text plain) =>
          advance
          return .scalar anchor (tag.filter (· ≠ "!")) text plain
        | some .flowSequenceStart =>
          advance
          return .sequence anchor tag (← flowItems true fuel)
        | some .flowMappingStart =>
          advance
          return .mapping anchor tag (← flowEntries true fuel)
        | some .blockSequenceStart =>
          if block then
            advance
            return .sequence anchor tag (← blockItems fuel)
          else absent anchor tag
        | some .blockMappingStart =>
          if block then
            advance
            return .mapping anchor tag (← blockEntries fuel)
          else absent anchor tag
        | _ => absent anchor tag
where
  /-- A node that is left out must have an anchor or a tag. -/
  absent (anchor : Option Nat) (tag : Option String) : NodeRule Node :=
    if anchor.isSome || tag.isSome then return .scalar anchor tag "" true else failure

/-- A node unless one of some tokens comes first. -/
def nodeUnless (ends : List Token) (block loose : Bool) : Nat → NodeRule Node
  | 0 => failure
  | fuel + 1 => do
    if ← peekIn ends then return .empty else node block loose fuel

/-- The items of a block sequence. -/
def blockItems : Nat → NodeRule (List Node)
  | 0 => failure
  | fuel + 1 => do
    match ← peek with
    | some .blockEntry =>
      advance
      let item ← nodeUnless itemEnds true false fuel
      return item :: (← blockItems fuel)
    | some .blockEnd =>
      advance
      return []
    | _ => failure

/-- The items of a sequence that shares the indentation of its key. -/
def looseItems : Nat → NodeRule (List Node)
  | 0 => failure
  | fuel + 1 => do
    match ← peek with
    | some .blockEntry =>
      advance
      let item ← nodeUnless looseItemEnds true false fuel
      return item :: (← looseItems fuel)
    | _ => return []

/-- The entries of a block mapping. -/
def blockEntries : Nat → NodeRule (List (Node × Node))
  | 0 => failure
  | fuel + 1 => do
    match ← peek with
    | some .key =>
      advance
      let key ← nodeUnless entryEnds true true fuel
      if ← peekIn [.value] then
        advance
        let value ← nodeUnless entryEnds true true fuel
        return (key, value) :: (← blockEntries fuel)
      else return (key, .empty) :: (← blockEntries fuel)
    | some .blockEnd =>
      advance
      return []
    | _ => failure

/-- The value of an entry of a flow collection with the given end. -/
def flowValue (close : Token) : Nat → NodeRule Node
  | 0 => failure
  | fuel + 1 => do
    if ← peekIn [.value] then
      advance
      nodeUnless [.flowEntry, close] false false fuel
    else return .empty

/-- The items of a flow sequence. A key among them starts a mapping of one entry. -/
def flowItems (first : Bool) : Nat → NodeRule (List Node)
  | 0 => failure
  | fuel + 1 => do
    if ← peekIn [.flowSequenceEnd] then
      advance
      return []
    else
      if !first then
        if ← peekIn [.flowEntry] then advance else failure
      match ← peek with
      | some .key =>
        advance
        if ← peekIn [.value, .flowEntry, .flowSequenceEnd] then
          advance
          let value ← flowValue .flowSequenceEnd fuel
          return .mapping none none [(.empty, value)] :: (← flowItems false fuel)
        else
          let key ← node false false fuel
          let value ← flowValue .flowSequenceEnd fuel
          return .mapping none none [(key, value)] :: (← flowItems false fuel)
      | some .flowSequenceEnd =>
        advance
        return []
      | _ =>
        let item ← node false false fuel
        return item :: (← flowItems false fuel)

/-- The entries of a flow mapping. What is not marked as a key has no value. -/
def flowEntries (first : Bool) : Nat → NodeRule (List (Node × Node))
  | 0 => failure
  | fuel + 1 => do
    if ← peekIn [.flowMappingEnd] then
      advance
      return []
    else
      if !first then
        if ← peekIn [.flowEntry] then advance else failure
      match ← peek with
      | some .key =>
        advance
        let key ← nodeUnless [.value, .flowEntry, .flowMappingEnd] false false fuel
        let value ← flowValue .flowMappingEnd fuel
        return (key, value) :: (← flowEntries false fuel)
      | some .flowMappingEnd =>
        advance
        return []
      | _ =>
        let key ← node false false fuel
        return (key, .empty) :: (← flowEntries false fuel)

end

/-- Read the directives before a document: at most one version, and tag handles. -/
def directives (versioned : Bool) : Nat → NodeRule Unit
  | 0 => failure
  | fuel + 1 => do
    match ← peek with
    | some (.version major minor) =>
      if versioned || major != 1 || !(minor == 1 || minor == 2) then failure
      else
        advance
        directives true fuel
    | some (.tagDirective handle lead) =>
      let feed ← get
      if feed.handles.any (·.1 == handle) then failure
      else
        set { feed with tokens := feed.tokens.drop 1, handles := feed.handles ++ [(handle, lead)] }
        directives versioned fuel
    | _ => return ()

/-- The tag handles that every document knows. -/
def knownHandles : List (String × String) := [("!", "!"), ("!!", "tag:yaml.org,2002:")]

/-- Add the tag handles that every document knows. -/
def addKnownHandles : NodeRule Unit :=
  modify fun feed => { feed with handles := feed.handles ++ knownHandles }

/-- Whether a document without a start marker begins here. -/
def isBare : Token → Bool
  | .version .. => false
  | .tagDirective .. => false
  | .documentStart => false
  | _ => true

/-- Whether a document with a start marker has content here. -/
def isContent : Token → Bool
  | .version .. => false
  | .tagDirective .. => false
  | .documentStart => false
  | .documentEnd => false
  | _ => true

/-- The only document of a text; an empty text has none. -/
def document (fuel : Nat) : NodeRule (Option Node) := do
  match ← peek with
  | none => return none
  | some token =>
    if isBare token then
      addKnownHandles
      return some (← node true false fuel)
    else
      directives false fuel
      addKnownHandles
      if ← peekIn [.documentStart] then
        advance
        let next ← peek
        if (next.map isContent).getD false then return some (← node true false fuel)
        else return some .empty
      else failure

/-- The only document of a text, to the end of the text. -/
def wholeText (fuel : Nat) : NodeRule (Option Node) := do
  let found ← document fuel
  let feed ← get
  if feed.tokens.all (· == .documentEnd) then return found else failure

end NodeRule

/-- The only document of a text; an empty text has none. -/
def Node.ofText? (text : String) : Option (Option Node) := do
  let tokens ← Token.ofText? text
  let (found, _) ← (NodeRule.wholeText (3 * tokens.length + 8)).run { tokens }
  return found

end ApiScribe.Yaml
