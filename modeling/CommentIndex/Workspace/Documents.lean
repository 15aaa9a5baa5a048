import CommentIndex.Workspace.Refresh

/-!
# Open documents

What happens to a workspace when documents are opened, edited, and closed, and when the focus moves
from one to another. A document that gets the focus is read at once if nothing is cached for it; one
that is edited is read once it has been quiet for a while.
-/

namespace CommentIndex.Workspace

/-- Gives the focus to a document, or to none. -/
def setActive (path : Option Path) : Activity Unit := do
  Activity.change fun workspace => { workspace with active := path }
  if (← Activity.workspace).isLoaded then
    if let some path := path then
      if !(← Activity.ask (·.isCached path)) then
        let _ ← replace path
    Activity.notify

/-- The workspace with a text in the buffer of a document. -/
def withBuffer (workspace : Workspace) (path : Path) (text : String) : Workspace :=
  { workspace with buffers := workspace.buffers.insert path text }

/-- Opens a document with a text, and gives it the focus if `takesFocus`. -/
def openDocument (path : Path) (text : String) (takesFocus : Bool) : Activity Unit := do
  Activity.change (·.withBuffer path text)
  if takesFocus then setActive (some path)

/-- Takes the new text of a document that was edited. The active document is read again once all
has been quiet. -/
def edit (path : Path) (text : String) : Activity Unit :=
  Activity.change fun workspace =>
    let workspace := workspace.withBuffer path text
    { workspace with debouncer := workspace.debouncer.schedule workspace.now }

/-- Reads the active document again. -/
def refreshActive : Activity Unit := do
  if let some path := (← Activity.workspace).active then
    let _ ← refresh path

/-- Closes a document. It loses the focus, and its outline is dropped unless it is kept for the
views of the workspace. -/
def closeDocument (path : Path) : Activity Unit := do
  Activity.change fun workspace => { workspace with buffers := workspace.buffers.erase path }
  if let some active := (← Activity.workspace).active then
    if ← Activity.ask (·.isSameFile active path) then
      Activity.change fun workspace => { workspace with active := none }
  if !(← Activity.workspace).retains path then remove path
  Activity.notify

/-- Drops the outline of a file that was deleted. -/
def fileDeleted (path : Path) : Activity Unit := do
  remove path
  Activity.notify

end CommentIndex.Workspace
