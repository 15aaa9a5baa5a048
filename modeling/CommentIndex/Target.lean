import CommentIndex.Link
import CommentIndex.Workspace.Refresh

/-!
# Targets of jumps

Where a jump leads: to a line of a document, to an anchor with an id, or to what the text of a link
names. A target that is not there is broken, with a reason; it is no error.
-/

namespace CommentIndex

/-- A line of a document. -/
structure Location where
  path : Path
  line : Int
  /-- Why there is no such line. -/
  broken : Option String := none
deriving DecidableEq, Repr

/-- What a link names. -/
structure LinkTarget where
  path : Path
  line : Option Int := none
  id : Option String := none
  /-- Why there is no such target. -/
  broken : Option String := none
deriving DecidableEq, Repr

/-- The written form of a location. -/
def Location.text (location : Location) : String :=
  location.path.text ++ ":" ++ toString location.line

/-- The line that a link leads to: the first one unless another is named. -/
def LinkTarget.location (target : LinkTarget) : Location :=
  let line := target.line.getD 1
  ⟨target.path, if line = 0 then 1 else line, target.broken⟩

namespace Workspace

/-- The reason for a target in a file that is missing. -/
def fileNotFound : String := "File not found"

/-- The number of lines of a text, of which each line feed ends one. -/
def lineCount (text : List Char) : Nat :=
  text.count '\n' + 1

/-- The location of a line, which is broken if the document has no such line. -/
def locateLine (path : Path) (line : Int) : Activity Location := do
  match ← readText path with
  | .error _ => return ⟨path, line, some fileNotFound⟩
  | .ok text =>
    if 1 ≤ line ∧ line ≤ lineCount text then return ⟨path, line, none⟩
    else return ⟨path, line, some ("Line " ++ toString line ++ " out of range")⟩

/-- The cached documents in order, the preferred one first. -/
def searchOrder (workspace : Workspace) (preferred : Option Path) : List (Path × Outline) :=
  let sorted := workspace.outlines.mergeSort fun first second => first.1.le second.1
  sorted.filter (fun entry => preferred = some entry.1) ++
    sorted.filter fun entry => preferred ≠ some entry.1

/-- The first anchor with an id, and its document. -/
def findId? (workspace : Workspace) (id : String) (preferred : Option Path) :
    Option (Path × Anchor) :=
  (workspace.searchOrder preferred).findSome? fun (path, outline) =>
    (outline.findId? id).map fun anchor => (path, anchor)

/-- The location of the anchor with an id; the active document is searched first. -/
def locateId (workspace : Workspace) (id : String) : Option Location :=
  (workspace.findId? id workspace.active).map fun (path, anchor) => ⟨path, anchor.facts.line, none⟩

/-- The outline of a document, which is read if it is not cached. -/
def outlineOf (path : Path) : Activity (Option Outline) := do
  match ← Activity.ask (·.lookup? path) with
  | some outline => return some outline
  | none =>
    let _ ← replace path
    Activity.ask (·.lookup? path)

/-- The target of an id in a document. -/
def idTarget (path : Path) (id : String) : Activity LinkTarget := do
  match (← outlineOf path).bind (·.findId? id) with
  | some anchor => return { path := path, line := some anchor.facts.line, id := some id }
  | none =>
    return { path := path, id := some id, broken := some ("Anchor " ++ id ++ " not found") }

/-- Whether there is a document at a path: a file, or one that is open. -/
def hasDocument (workspace : Workspace) (path : Path) : Except WorkspaceError Bool :=
  match workspace.disk.tree.isFile path.names with
  | .ok isFile => .ok (isFile || workspace.isOpen path)
  | .error _ => .error .nameTooLong

/-- The target of a parameter in a document. -/
def parameterTarget (path : Path) (parameter : List Char) : Activity LinkTarget :=
  match parameter with
  | ':' :: digits =>
    match Text.readInt? digits with
    | some line => return { path := path, line := some line }
    | none => Activity.fail .numberTooLong
  | '#' :: id => idTarget path (String.ofList id)
  | _ => return { path := path, line := some 1 }

/-- The folder that the path of a link starts from: that of its own document if dots and a slash are
in front, and else that of the workspace. -/
def linkFolder (workspace : Workspace) (source : Path) (link : LinkText) : Path :=
  match link.relative with
  | some dots => source.parent.join (.ofText (String.ofList dots))
  | none => workspace.root

/-- What the text of a link in a document names. -/
def linkTarget (text : List Char) (source : Path) : Activity LinkTarget := do
  match LinkText.split? text with
  | none => return { path := source, broken := some "Empty link" }
  | some link =>
    let workspace ← Activity.workspace
    let folder := workspace.linkFolder source link
    let path := Path.normalized folder (.ofText (String.ofList link.path))
    if ← Activity.ask (·.hasDocument path) then parameterTarget path link.parameter
    else return { path := path, broken := some fileNotFound }

/-- The targets of the links among anchors of a document. -/
def linkTargetsOf (source : Path) : List Anchor → Activity (List (Anchor × LinkTarget))
  | [] => return []
  | anchor :: rest => do
    let registry := (← Activity.workspace).registry
    if (registry.find? anchor.facts.tag).any (·.isLink) then
      let target ← linkTarget anchor.facts.text.toList source
      return (anchor, target) :: (← linkTargetsOf source rest)
    else linkTargetsOf source rest

/-- The targets of all links of a document; there are none if it is not cached. -/
def linkTargets (source : Path) : Activity (List (Anchor × LinkTarget)) := do
  match ← Activity.ask (·.lookup? source) with
  | some outline => linkTargetsOf source outline.flatten
  | none => return []

end Workspace

end CommentIndex
