import CommentIndex.KeyedList
import CommentIndex.Yaml.Kind
import CommentIndex.Yaml.Token

/-!
# Nodes of a YAML document

`Node.ofTokens?` reads the tokens of a text as one document: a tree of scalars, sequences, and
mappings, in which tags are resolved to kinds and aliases are replaced by what they stand for. The
entries that a mapping merges come in front of its own.
-/

namespace CommentIndex.Yaml

/-- A part of a document. -/
inductive Node where
  | scalar (kind : Kind) (text : List Char)
  | sequence (kind : Kind) (items : List Node)
  | mapping (kind : Kind) (entries : List (Node × Node))

instance : Inhabited Node := ⟨.scalar .null []⟩

namespace Node

/-- Whether a node is the mark of a merge. -/
def isMerge : Node → Bool
  | .scalar .merge _ => true
  | _ => false

/-- The entries that a node gives if it is merged into a mapping: of several mappings a later one
comes first. -/
def mergedEntries : Node → Except YamlError (List (Node × Node))
  | .mapping _ entries => .ok entries
  | .sequence _ items =>
    items.foldlM (fun entries item =>
      match item with
      | .mapping _ more => .ok (more ++ entries)
      | _ => .error .malformed) []
  | .scalar _ _ => .error .malformed

/-- The mapping with the given entries, of which those to be merged come first. -/
def ofEntries (kind : Kind) (entries : List (Node × Node)) : Except YamlError Node := do
  let merged ← (entries.filter fun entry => entry.1.isMerge).mapM fun entry =>
    mergedEntries entry.2
  return .mapping kind (merged.flatten ++ entries.filter fun entry => !entry.1.isMerge)

/-- A scalar that is not written. -/
def missing : Node := .scalar .null []

end Node

/-- A document that is read in part. -/
structure Reading where
  tokens : List Token
  /-- What the handles of tags stand for. -/
  handles : KeyedList (List Char) (List Char)
  /-- The nodes with anchors; one that is not complete is missing. -/
  anchors : KeyedList (List Char) (Option Node) := .empty

namespace Reading

/-- A step of reading. -/
abbrev Step := StateT Reading (Except YamlError)

/-- The next token, which is left. -/
def peek : Step (Option Token) :=
  return (← get).tokens.head?

/-- Takes the next token. -/
def skip : Step Unit :=
  modify fun reading => { reading with tokens := reading.tokens.tail }

/-- Whether the next token is one of the given ones. -/
def isNext (tokens : List Token) : Step Bool :=
  return (← peek).any tokens.contains

/-- Takes the next token if it is the given one. -/
def accept (token : Token) : Step Bool := do
  if ← isNext [token] then
    skip
    return true
  else return false

/-- Refuses the text. -/
def refuse {α : Type} : Step α :=
  throw .malformed

/-- What stands in front of a node. -/
structure Properties where
  anchor : Option (List Char) := none
  /-- The handle of a tag and what is behind it. -/
  tag : Option (Option (List Char) × List Char) := none

/-- The anchor and the tag in front of a node, in any order. -/
def properties : Nat → Properties → Step Properties
  | 0, found => return found
  | fuel + 1, found => do
    match ← peek with
    | some (.anchor name) =>
      if found.anchor.isSome then return found
      skip
      properties fuel { found with anchor := some name }
    | some (.tag handle suffix) =>
      if found.tag.isSome then return found
      skip
      properties fuel { found with tag := some (handle, suffix) }
    | _ => return found

/-- A tag in full. -/
def fullTag (tag : Option (List Char) × List Char) : Step (List Char) := do
  match tag.1 with
  | none => return tag.2
  | some handle =>
    match (← get).handles.find? handle with
    | some meaning => return meaning ++ tag.2
    | none => refuse

/-- The kind of a node that has a kind of its own unless a tag says otherwise. -/
def kindOf (tag : Option (List Char)) (own : Kind) : Kind :=
  match tag with
  | none => own
  | some tag => if tag = ['!'] then own else .ofTag tag

/-- The kind of a scalar. -/
def scalarKind (tag : Option (List Char)) (text : List Char) (isPlain : Bool) : Kind :=
  kindOf tag (if isPlain || tag.isSome then .ofPlain text else .text)

/-- Keeps a node under its anchor. -/
def remember (anchor : Option (List Char)) (node : Option Node) : Step Unit := do
  if let some name := anchor then
    modify fun reading => { reading with anchors := reading.anchors.insert name node }

/-- Announces the anchor of a node that is about to be read. -/
def announce (anchor : Option (List Char)) : Step Unit := do
  if let some name := anchor then
    if (← get).anchors.contains name then refuse
  remember anchor none

/-- The node that an alias stands for. -/
def aliased (name : List Char) : Step Node := do
  match (← get).anchors.find? name with
  | some (some node) => return node
  | _ => refuse

/-- Where a node stands, which says how it may be written. -/
inductive Place where
  /-- Inside brackets. -/
  | flow
  /-- In a block. -/
  | block
  /-- Behind the key or the colon of a block, where a sequence needs no indent. -/
  | behindKey
deriving DecidableEq

mutual

/-- A node. -/
def node : Nat → Place → Step Node
  | 0, _ => refuse
  | fuel + 1, place => do
    match ← peek with
    | some (.alias name) =>
      skip
      aliased name
    | _ =>
      let found ← properties 2 {}
      let tag ← found.tag.mapM fullTag
      announce found.anchor
      let read ← content fuel place found.anchor.isSome tag
      remember found.anchor (some read)
      return read

/-- A node behind its anchor and its tag. -/
def content : Nat → Place → Bool → Option (List Char) → Step Node
  | 0, _, _, _ => refuse
  | fuel + 1, place, isAnchored, tag => do
    match ← peek with
    | some (.scalar text isPlain) =>
      skip
      return .scalar (scalarKind tag text isPlain) text
    | some .flowSequence =>
      skip
      return .sequence (kindOf tag .sequence) (← flowItems fuel true)
    | some .flowMapping =>
      skip
      Node.ofEntries (kindOf tag .mapping) (← flowEntries fuel true)
    | some .entry =>
      if place ≠ .behindKey then unwritten isAnchored tag
      else return .sequence (kindOf tag .sequence) (← looseItems fuel)
    | some .blockSequence =>
      if place = .flow then unwritten isAnchored tag
      else
        skip
        return .sequence (kindOf tag .sequence) (← blockItems fuel)
    | some .blockMapping =>
      if place = .flow then unwritten isAnchored tag
      else
        skip
        Node.ofEntries (kindOf tag .mapping) (← blockEntries fuel)
    | _ => unwritten isAnchored tag

/-- A node that is not written, which it must have an anchor or a tag for. -/
def unwritten (isAnchored : Bool) (tag : Option (List Char)) : Step Node :=
  if isAnchored || tag.isSome then return .scalar (scalarKind tag [] true) [] else refuse

/-- A node, or a missing one if one of the given tokens is next. -/
def nodeUnless : Nat → Place → List Token → Step Node
  | 0, _, _ => refuse
  | fuel + 1, place, tokens => do
    if ← isNext tokens then return Node.missing else node fuel place

/-- The entries of a sequence that is a block of its own. -/
def blockItems : Nat → Step (List Node)
  | 0 => refuse
  | fuel + 1 => do
    if ← accept .entry then
      let item ← nodeUnless fuel .block [.entry, .blockEnd]
      return item :: (← blockItems fuel)
    else if ← accept .blockEnd then return []
    else refuse

/-- The entries of a sequence that has no indent. -/
def looseItems : Nat → Step (List Node)
  | 0 => refuse
  | fuel + 1 => do
    if ← accept .entry then
      let item ← nodeUnless fuel .block [.entry, .key, .value, .blockEnd]
      return item :: (← looseItems fuel)
    else return []

/-- The entries of a mapping that is a block. -/
def blockEntries : Nat → Step (List (Node × Node))
  | 0 => refuse
  | fuel + 1 => do
    if ← accept .key then
      let key ← nodeUnless fuel .behindKey [.key, .value, .blockEnd]
      let value ←
        if ← accept .value then nodeUnless fuel .behindKey [.key, .value, .blockEnd]
        else pure Node.missing
      return (key, value) :: (← blockEntries fuel)
    else if ← accept .blockEnd then return []
    else refuse

/-- A key and a value inside brackets, behind the token of the key. -/
def flowPair : Nat → Token → Step (Node × Node)
  | 0, _ => refuse
  | fuel + 1, last => do
    let key ← nodeUnless fuel .flow [.value, .flowEntry, last]
    let value ←
      if ← accept .value then nodeUnless fuel .flow [.flowEntry, last] else pure Node.missing
    return (key, value)

/-- The items of a sequence in brackets; between two there is a comma. -/
def flowItems : Nat → Bool → Step (List Node)
  | 0, _ => refuse
  | fuel + 1, isFirst => do
    if ← accept .flowSequenceEnd then return []
    if !isFirst then
      if !(← accept .flowEntry) then refuse
      if ← accept .flowSequenceEnd then return []
    let item ←
      if ← accept .key then
        Node.ofEntries .mapping [← flowPair fuel .flowSequenceEnd]
      else node fuel .flow
    return item :: (← flowItems fuel false)

/-- The entries of a mapping in brackets; between two there is a comma. -/
def flowEntries : Nat → Bool → Step (List (Node × Node))
  | 0, _ => refuse
  | fuel + 1, isFirst => do
    if ← accept .flowMappingEnd then return []
    if !isFirst then
      if !(← accept .flowEntry) then refuse
      if ← accept .flowMappingEnd then return []
    let entry ←
      if ← accept .key then flowPair fuel .flowMappingEnd
      else pure (← node fuel .flow, Node.missing)
    return entry :: (← flowEntries fuel false)

end

/-- The handles that every document knows. -/
def standardHandles : List (List Char × List Char) :=
  [(['!'], ['!']), (['!', '!'], Kind.tagStart.toList)]

/-- Reads the directives of a document; a handle or a version may be given once. -/
def directives : Nat → Bool → KeyedList (List Char) (List Char) →
    Step (KeyedList (List Char) (List Char))
  | 0, _, handles => return handles
  | fuel + 1, hasVersion, handles => do
    match ← peek with
    | some (.version major) =>
      if hasVersion || major ≠ 1 then refuse
      skip
      directives fuel true handles
    | some (.handle name meaning) =>
      if handles.contains name then refuse
      skip
      directives fuel hasVersion (handles.insert name meaning)
    | some .directive =>
      skip
      directives fuel hasVersion handles
    | _ => return handles

/-- Whether a document begins with directives or the mark of its start. -/
def isMarked : Option Token → Bool
  | some (.version _) | some (.handle _ _) | some .directive | some .documentStart => true
  | _ => false

/-- Passes over marks of the end of a document. -/
def skipEnds : Step Unit :=
  modify fun reading =>
    { reading with tokens := reading.tokens.dropWhile (· == .documentEnd) }

/-- The root of the only document of a text; there is none in an empty text. -/
def document (fuel : Nat) : Step (Option Node) := do
  let first ← peek
  if first.isNone then return none
  if isMarked first then
    let handles ← directives fuel false .empty
    let missing := standardHandles.filter fun handle => !handles.contains handle.1
    modify fun reading =>
      { reading with
        handles := missing.foldl (fun kept handle => kept.insert handle.1 handle.2) handles }
    if !(← accept .documentStart) then refuse
  let root ←
    if isMarked first && (isMarked (← peek) || (← isNext [.documentEnd]) || (← peek).isNone) then
      pure Node.missing
    else node fuel .block
  skipEnds
  if (← peek).isSome then refuse
  return some root

end Reading

/-- The root of the document that the tokens of a text make up. -/
def Node.ofTokens? (tokens : List Token) : Except YamlError (Option Node) :=
  ((Reading.document (4 * tokens.length + 8)).run
    { tokens := tokens, handles := .ofList Reading.standardHandles }).map (·.1)

end CommentIndex.Yaml
