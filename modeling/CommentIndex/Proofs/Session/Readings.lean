import CommentIndex.Proofs.Cache.Traffic
import CommentIndex.Proofs.Session.Stretch

/-!
# Readings in a session

A session that holds its readings takes the steps of a traffic: when a reading begins in it, is
released from its gate, or when a path is removed or the cache is cleared, its cache becomes that of
the traffic after the step, and the tasks that wait are the readings under way.
-/

namespace CommentIndex

open Activity

variable {file : Path → Path}

namespace Workspace

variable {holds : Pause → Bool} {workspace : Workspace} {path : Path}

/-- Which file a usable path of a workspace names. -/
def Names (file : Path → Path) (workspace : Workspace) : Prop :=
  ∀ path, path.isUnusable = false → workspace.disk.real path = file path

/-- The file of a usable path is told. -/
theorem Names.fileAt (h : workspace.Names file) (husable : path.isUnusable = false) :
    workspace.fileAt path = .ok (file path) := by
  rw [Workspace.fileAt, husable, ← h path husable]
  rfl

/-- Asking for the file of a usable path gives it. -/
theorem Names.stretch {α : Type} (h : workspace.Names file) (husable : path.isUnusable = false)
    (next : Path → Activity α) :
    ((ask (·.fileAt path)).bind next).stretch holds workspace =
      (next (file path)).stretch holds workspace :=
  stretch_ask holds workspace (h.fileAt husable) next

/-- Asking for the file of an unusable path is an error. -/
theorem stretch_fileAt_of_unusable {α : Type} (husable : path.isUnusable)
    (next : Path → Activity α) :
    ((ask (·.fileAt path)).bind next).stretch holds workspace =
      (.finished (.error .unusablePath), workspace) :=
  stretch_ask_error holds workspace (if_pos husable) next

/-! ## What readings do at one stretch -/

/-- A reading pauses with its text. -/
theorem stretch_readText {α : Type} (workspace : Workspace) (hbuffer : holds .buffer = true)
    (hfile : holds .file = true) (husable : path.isUnusable = false)
    (next : Except FileError (List Char) → Activity α) :
    ∃ text, ((readText path).bind next).stretch holds workspace =
      (.held (next text), workspace) := by
  unfold readText
  -- The text is taken before the pause, from the buffer or else from the file.
  cases hbuffered : workspace.buffers.find? path with
  | none =>
      refine ⟨workspace.disk.readText path, ?_⟩
      simp [Activity.bind_assoc, hbuffered, husable, hfile, Activity.bind]
  | some text =>
      refine ⟨.ok text.toList, ?_⟩
      simp [Activity.bind_assoc, hbuffered, hbuffer, Activity.bind]

/-- A reading gives out a ticket and pauses with its text. -/
theorem stretch_readUnder (workspace : Workspace) (hbuffer : holds .buffer = true)
    (hfile : holds .file = true) (husable : path.isUnusable = false) {matcher : Matcher}
    (hmatcher : workspace.matcher = some matcher) (before : Option Outline) :
    ∃ text, (readUnder path before).stretch holds workspace =
      (.held (endReading matcher workspace.registry path workspace.cache.nextTicket before text),
        { workspace with cache := workspace.cache.issue path }) := by
  obtain ⟨text, htext⟩ :=
    stretch_readText { workspace with cache := workspace.cache.issue path } hbuffer hfile husable
      (endReading matcher workspace.registry path workspace.cache.nextTicket before)
  refine ⟨text, ?_⟩
  simp only [readUnder, readOutline, bind_eq, stretch_workspace]
  split
  · next found hfound =>
      obtain rfl : matcher = found := Option.some.inj (hmatcher.symm.trans hfound)
      exact htext
  · next hnone =>
      rw [hmatcher] at hnone
      contradiction

/-- A reading that fails gives up its ticket. -/
theorem stretch_giveUp (path : Path) (ticket : Nat) (before : Option Outline) :
    (giveUp path ticket before).stretch holds workspace =
      (.finished (.ok false),
        { workspace with cache := workspace.cache.giveUp path ticket before }) := rfl

/-- A reading that has found an outline lands, or nothing happens if it is outdated. -/
theorem stretch_land (hnames : workspace.Names file) (husable : path.isUnusable = false)
    (ticket : Nat) (outline : Outline) :
    (land path ticket outline).stretch holds workspace =
      (.finished (.ok ()),
        { workspace with cache := workspace.cache.land path (file path) ticket outline }) := by
  unfold land
  by_cases hcurrent : workspace.cache.isCurrent path ticket
  · by_cases hscan : workspace.isScanning <;>
      simp [hcurrent, hnames.stretch husable, hscan]
  · have hcache : workspace.cache.land path (file path) ticket outline = workspace.cache :=
      Cache.land_of_not_current (by simpa [Cache.isCurrent] using hcurrent) _ _
    simp [hcurrent, hcache]

/-- A reading ends with its text: it lands or it fails. -/
theorem stretch_endReading (holds : Pause → Bool) (hnames : workspace.Names file)
    {attempt : Attempt} (husable : attempt.path.isUnusable = false) (matcher : Matcher)
    (registry : Registry) (text : Except FileError (List Char)) :
    ∃ found result,
      (endReading matcher registry attempt.path attempt.ticket attempt.before text).stretch holds
        workspace = (.finished (.ok found),
          { workspace with cache := Traffic.ended file workspace.cache attempt result }) := by
  unfold endReading
  cases text with
  | error error => exact ⟨false, none, rfl⟩
  | ok text =>
      cases houtline : Outline.ofText matcher registry workspace.settings.tags.showTag text with
      | error error =>
          refine ⟨false, none, ?_⟩
          simp [houtline, stretch_giveUp, Traffic.ended]
      | ok read =>
          refine ⟨read.2, some read.1, ?_⟩
          simp only [bind_eq, pure_eq, stretch_workspace, houtline]
          rw [stretch_bind, stretch_land hnames husable]
          rfl

/-- Replacing the outline of a file begins a reading if there is something to search for. -/
theorem stretch_replace (hnames : workspace.Names file) (hbuffer : holds .buffer = true)
    (hfile : holds .file = true) (husable : path.isUnusable = false) {matcher : Matcher}
    (hmatcher : workspace.matcher = some matcher) :
    ∃ text, (replace path).stretch holds workspace =
      (.held (endReading matcher workspace.registry path workspace.cache.nextTicket
          (workspace.cache.lookup? (file path)) text),
        { workspace with cache := (workspace.cache.displace path (file path)).issue path }) := by
  obtain ⟨text, htext⟩ :=
    stretch_readUnder { workspace with cache := workspace.cache.displace path (file path) } hbuffer
      hfile husable hmatcher (workspace.cache.lookup? (file path))
  refine ⟨text, ?_⟩
  simp only [replace, bind_eq, hnames.stretch husable, stretch_workspace, stretch_change]
  exact htext

/-- Replacing the outline of a file only drops it if there is nothing to search for. -/
theorem stretch_replace_of_none (holds : Pause → Bool) (hnames : workspace.Names file)
    (husable : path.isUnusable = false) (hmatcher : workspace.matcher = none) :
    (replace path).stretch holds workspace =
      (.finished (.ok false),
        { workspace with cache := workspace.cache.displace path (file path) }) := by
  simp [replace, readUnder, hnames.stretch husable, hmatcher]

/-- Refreshing the outline of a file begins a reading under the path by which it is kept. -/
theorem stretch_refresh (hnames : workspace.Names file) (hbuffer : holds .buffer = true)
    (hfile : holds .file = true) (husable : path.isUnusable = false)
    (hholder : (workspace.cache.holderOr path (file path)).isUnusable = false) {matcher : Matcher}
    (hmatcher : workspace.matcher = some matcher) :
    let holder := workspace.cache.holderOr path (file path)
    ∃ text, (refresh path).stretch holds workspace =
      (.held (endReading matcher workspace.registry holder workspace.cache.nextTicket
          (workspace.cache.outlines.find? holder) text),
        { workspace with cache := workspace.cache.issue holder }) := by
  intro holder
  obtain ⟨text, htext⟩ := stretch_readUnder workspace hbuffer hfile hholder hmatcher
    (workspace.cache.outlines.find? holder)
  refine ⟨text, ?_⟩
  simp only [refresh, bind_eq, hnames.stretch husable, stretch_workspace]
  exact htext

/-- Refreshing the outline of a file does nothing if there is nothing to search for. -/
theorem stretch_refresh_of_none (holds : Pause → Bool) (hnames : workspace.Names file)
    (husable : path.isUnusable = false) (hmatcher : workspace.matcher = none) :
    (refresh path).stretch holds workspace = (.finished (.ok false), workspace) := by
  simp [refresh, readUnder, hnames.stretch husable, hmatcher]

end Workspace

end CommentIndex
