import CommentIndex.Cache
import CommentIndex.Debouncer
import CommentIndex.Disk
import CommentIndex.Matcher
import CommentIndex.Outline
import CommentIndex.Settings

/-!
# Workspaces

A `Workspace` is everything that is known of a folder of documents: its settings and what follows
from them, the documents that are open with their texts, the document that has the focus, and the
cache of outlines.
-/

namespace CommentIndex

/-- Why something cannot be done in a workspace. -/
inductive WorkspaceError where
  /-- A path holds a character that no file system allows. -/
  | unusablePath
  /-- A path has a name that no folder can hold. -/
  | nameTooLong
  /-- A line number has too many digits. -/
  | numberTooLong
  /-- The delay of the settings is beyond every double. -/
  | delayTooLarge
  /-- The files of the workspace cannot be listed. -/
  | disk (error : DiskError)
deriving DecidableEq, Repr

/-- A folder of documents. -/
structure Workspace where
  root : Path
  settings : Settings
  /-- What is outside the program. -/
  disk : Disk
  registry : Registry := .empty
  /-- What documents are searched for; there is none before the first settings that give one. -/
  matcher : Option Matcher := none
  cache : Cache := .empty
  /-- The texts of the open documents. -/
  buffers : KeyedList Path String := .empty
  /-- The document that has the focus. -/
  active : Option Path := none
  /-- Whether the outlines of the workspace are there to be shown. -/
  isLoaded : Bool := false
  /-- Whether the workspace has been scanned with its present settings. -/
  isScanned : Bool := false
  /-- Whether a scan is going on. -/
  isScanning : Bool := false
  /-- The time in milliseconds. -/
  now : Nat := 0
  /-- Reads the active document again once it has not been edited for a while. -/
  debouncer : Debouncer Nat

namespace Workspace

/-- The delay in milliseconds that settings ask for. -/
def delayOf (settings : Settings) : Except WorkspaceError Nat :=
  if settings.delaySeconds?.isSome then .ok settings.delay else .error .delayTooLarge

/-- A workspace that has read nothing yet. -/
def start (root : Path) (settings : Settings) (disk : Disk) : Except WorkspaceError Workspace :=
  (delayOf settings).map fun delay =>
    { root := root, settings := settings, disk := disk, debouncer := .idle delay }

/-- The file that a path names, by its path without links. -/
def fileAt (workspace : Workspace) (path : Path) : Except WorkspaceError Path :=
  if path.isUnusable then .error .unusablePath else .ok (workspace.disk.real path)

/-- The outline of the document at a path. -/
def lookup? (workspace : Workspace) (path : Path) : Except WorkspaceError (Option Outline) :=
  (workspace.fileAt path).map workspace.cache.lookup?

/-- The outline of the active document; it is empty if there is none. -/
def current (workspace : Workspace) : Except WorkspaceError Outline :=
  match workspace.active with
  | some path => (workspace.lookup? path).map (·.getD .empty)
  | none => .ok .empty

/-- Whether the outline of the document at a path is cached. -/
def isCached (workspace : Workspace) (path : Path) : Except WorkspaceError Bool :=
  (workspace.lookup? path).map Option.isSome

/-- Whether the document at a path is open. -/
def isOpen (workspace : Workspace) (path : Path) : Bool :=
  workspace.buffers.contains path

/-- Whether the outline of a closed document is kept for the views of the workspace. -/
def retains (workspace : Workspace) (path : Path) : Bool :=
  workspace.settings.workspace.enabled && workspace.isScanned && workspace.root.isBelow path

/-- Whether two paths name the same file: they are equal, they lead to the same item, or they are
equal without links. -/
def isSameFile (workspace : Workspace) (first second : Path) : Except WorkspaceError Bool :=
  if first = second then .ok true
  else do
    let file ← workspace.fileAt first
    let other ← workspace.fileAt second
    return workspace.disk.tree.isSameItem first.names second.names || file = other

/-- The cached documents and their outlines. -/
def outlines (workspace : Workspace) : List (Path × Outline) :=
  workspace.cache.outlines.entries

end Workspace

end CommentIndex
