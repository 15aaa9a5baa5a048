import CommentIndex.Activity
import CommentIndex.Outline.Document

/-!
# Reading outlines

How the outline of a document gets into the cache. `replace` drops what is cached for the file and
reads it afresh; `refresh` reads it in place. Both take a ticket before they pause, so that of two
readings of one path the later one counts, whichever ends first.
-/

namespace CommentIndex.Workspace

/-- Builds the registry and the matcher from the settings, and tells whether there is one. If not,
the error is reported and the previous ones stay. -/
def build : Activity Bool := do
  let workspace ← Activity.workspace
  let tags := workspace.settings.tags
  let registry := Registry.ofSettings tags.listed tags.keyed
  match Matcher.compile registry tags.separators tags.marks tags.endTag tags.matchCase with
  | .error error =>
    Activity.report .error error.message
    return false
  | .ok matcher =>
    Activity.change fun workspace =>
      { workspace with registry := registry, matcher := some matcher }
    let delay ← Activity.ofExcept (delayOf workspace.settings)
    Activity.change fun workspace =>
      { workspace with debouncer := { workspace.debouncer with delay := delay } }
    return true

/-- The text of a document: that of its buffer if it is open, and else that of its file as it is
when the reading begins. -/
def readText (path : Path) : Activity (Except FileError (List Char)) := do
  let workspace ← Activity.workspace
  match workspace.buffers.find? path with
  | some text =>
    Activity.wait .buffer
    return .ok text.toList
  | none =>
    if path.isUnusable then Activity.fail .unusablePath
    else do
      Activity.wait .file
      return workspace.disk.readText path

/-- Ends a reading that failed. -/
def giveUp (path : Path) (ticket : Nat) (before : Option Outline) : Activity Bool := do
  Activity.change fun workspace =>
    { workspace with cache := workspace.cache.giveUp path ticket before }
  return false

/-- Ends a reading that found an outline: unless it is outdated, the outline is kept, and a change
is told outside scans. -/
def land (path : Path) (ticket : Nat) (outline : Outline) : Activity Unit := do
  let workspace ← Activity.workspace
  if workspace.cache.isCurrent path ticket then
    let file ← Activity.ask (·.fileAt path)
    Activity.change fun workspace =>
      { workspace with cache := workspace.cache.land path file ticket outline }
    if !workspace.isScanning then Activity.notify

/-- The report about a file that cannot be read. -/
def unreadable (path : Path) (error : FileError) : String :=
  "Could not read " ++ path.text ++ ": " ++ error.message

/-- Ends a reading once the text is there or cannot be had, and tells whether there are anchors in
it. -/
def endReading (matcher : Matcher) (registry : Registry) (path : Path) (ticket : Nat)
    (before : Option Outline) (text : Except FileError (List Char)) : Activity Bool := do
  match text with
  | .error error =>
    Activity.report .warning (unreadable path error)
    giveUp path ticket before
  | .ok text =>
    let settings := (← Activity.workspace).settings
    match Outline.ofText matcher registry settings.tags.showTag text with
    | .error _ => giveUp path ticket before
    | .ok (outline, found) =>
      land path ticket outline
      return found

/-- Reads the outline of a document with a matcher and its registry, and tells whether there are
anchors in it. If it cannot be read, `before` is what stays. -/
def readOutline (matcher : Matcher) (registry : Registry) (path : Path)
    (before : Option Outline) : Activity Bool := do
  let ticket := (← Activity.workspace).cache.nextTicket
  Activity.change fun workspace => { workspace with cache := workspace.cache.issue path }
  let text ← readText path
  endReading matcher registry path ticket before text

/-- Reads the outline of a document if there is a matcher. -/
def readUnder (path : Path) (before : Option Outline) : Activity Bool := do
  let workspace ← Activity.workspace
  match workspace.matcher with
  | some matcher => readOutline matcher workspace.registry path before
  | none => return false

/-- Puts an empty outline in place of what is cached for a file, and reads its outline under the
given path. -/
def replace (path : Path) : Activity Bool := do
  let file ← Activity.ask (·.fileAt path)
  let before := (← Activity.workspace).cache.lookup? file
  Activity.change fun workspace => { workspace with cache := workspace.cache.displace path file }
  readUnder path before

/-- Reads the outline of a file under the path by which it is cached; what is cached stays until
there is a result. -/
def refresh (path : Path) : Activity Bool := do
  let file ← Activity.ask (·.fileAt path)
  let cache := (← Activity.workspace).cache
  let holder := cache.holderOr path file
  readUnder holder (cache.outlines.find? holder)

/-- Drops what is cached for a path and the file it names. -/
def remove (path : Path) : Activity Unit := do
  let file ← Activity.ask (·.fileAt path)
  Activity.change fun workspace => { workspace with cache := workspace.cache.remove path file }

/-- Drops everything that is cached. -/
def clear : Activity Unit :=
  Activity.change fun workspace => { workspace with cache := workspace.cache.clear }

end CommentIndex.Workspace
