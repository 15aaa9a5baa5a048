import CommentIndex.Disk.Listing
import CommentIndex.Workspace.Refresh

/-!
# Scans

A scan reads the outlines of all files of a workspace, with a short rest before every ten of them.
It ends early once it has found as many files with anchors as the settings allow. A file that
cannot be read does not end it.
-/

namespace CommentIndex.Workspace

/-- How many files are read between two rests. -/
def batchSize : Nat := 10

/-- How long a rest is, in milliseconds. -/
def restLength : Nat := 5

/-- Reads files with `read` until `most` of them had anchors, and counts those. Of `total` files
`index` are behind and `found` of them had anchors. -/
def readFilesFrom (read : Path → Activity Bool) (most : Int) (total : Nat) :
    Nat → Nat → List Path → Activity Nat
  | _, found, [] => return found
  | index, found, path :: rest => do
    if most ≤ found then return found
    if index % batchSize = 0 then Activity.wait (.rest restLength)
    match ← (read path).attempt with
    | .ok true =>
      Activity.tell (.progress (found + 1) total) (.done ())
      readFilesFrom read most total (index + 1) (found + 1) rest
    | _ => readFilesFrom read most total (index + 1) found rest

/-- Reads files until `most` of them had anchors, and counts those. -/
def readFiles (paths : List Path) (most : Int) : Activity Nat :=
  readFilesFrom replace most paths.length 0 0 paths

/-- The files that fit one pattern and not the other. -/
def findFiles (wanted excluded : String) : Activity (List Path) := do
  let workspace ← Activity.workspace
  let found := workspace.disk.findFiles workspace.root wanted excluded
  Activity.wait .listing
  match found with
  | .ok files => return files
  | .error error => Activity.fail (.disk error)

/-- Reads the files that the settings choose into an empty cache. -/
def scanFiles (settings : WorkspaceSettings) : Activity Nat := do
  let files ← findFiles settings.matchFiles settings.excludeFiles
  clear
  readFiles files settings.maxFiles

/-- What the report about a failed scan begins with. -/
def scanFailed : String := "Anchors failed to load: "

/-- The details of a workspace error, for a report. -/
def errorDetail : WorkspaceError → String
  | .unusablePath => "embedded null byte"
  | .nameTooLong => "File name too long"
  | .numberTooLong => "too many digits"
  | .delayTooLarge => "delay too large"
  | .disk .unlistable => "files cannot be listed"
  | .disk .linkLoop => "Symlink loop"

/-- Reads the active document, if there is one. -/
def replaceActive : Activity Unit := do
  if let some path := (← Activity.workspace).active then
    let _ ← replace path

/-- Scans the workspace, and counts the files with anchors. The active document is read at last, so
that it is there whether or not it is among the files. -/
def scan : Activity Nat := do
  let settings := (← Activity.workspace).settings.workspace
  Activity.change fun workspace =>
    { workspace with isScanned := true, isLoaded := false, isScanning := true }
  Activity.notify
  let count ←
    match ← (scanFiles settings).attempt with
    | .ok count => pure count
    | .error error =>
      Activity.report .error (scanFailed ++ errorDetail error)
      pure 0
  Activity.change fun workspace => { workspace with isScanning := false }
  replaceActive
  Activity.change fun workspace => { workspace with isLoaded := true }
  Activity.notify
  return count

/-- Builds everything from the settings, which may be given anew, and reads the workspace again: all
of it, or only the active document if scans wait to be asked for. Tells whether there is a
matcher for the settings. -/
def rebuild (settings : Option Settings) : Activity Bool := do
  Activity.change fun workspace =>
    { workspace with settings := settings.getD workspace.settings, isScanned := false }
  if !(← build) then
    Activity.notify
    return false
  let chosen := (← Activity.workspace).settings.workspace
  if chosen.enabled && !chosen.lazyLoad then
    let _ ← scan
    return true
  else
    Activity.change fun workspace => { workspace with isLoaded := true }
    replaceActive
    Activity.notify
    return true

end CommentIndex.Workspace
