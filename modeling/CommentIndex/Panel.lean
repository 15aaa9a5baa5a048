import CommentIndex.Subscriptions
import CommentIndex.View

/-!
# Panels

A `Panel` shows one view of a workspace as a tree of rows, draws it afresh when the workspace
changes, and sends a message when a row is chosen.
-/

namespace CommentIndex

/-- A row of a panel, with those below it. -/
inductive Row where
  | mk (label : String) (isExpanded isExpandable : Bool) (rows : List Row)
deriving Inhabited, Repr

/-- What a panel tells when a row is chosen. -/
inductive PanelMessage where
  /-- A file was chosen, or an anchor on a line of it. -/
  | fileSelected (path : Path) (line : Option Nat)
  | scanRequested
deriving DecidableEq, Repr

/-- A panel, with those callbacks of it that draw it afresh. -/
structure Panel (κ : Type) where
  view : View
  /-- The line of the cursor. -/
  marker : Option Int := none
  /-- What was drawn last. -/
  entries : List Entry := []
  watcher : Watcher κ := {}
  /-- How often the panel was drawn. -/
  redraws : Nat := 0
  /-- The messages sent, in order. -/
  sent : List PanelMessage := []
deriving Inhabited

namespace Row

/-- The label of an entry, as far as it is on the first line. -/
def labelOf (entry : Entry) : String :=
  String.ofList (entry.render.text.toList.takeWhile (· ≠ '\n'))

/-- The row of an entry with the given rows below it; one without rows below does not expand. -/
def parent (entry : Entry) (rows : List Row) : Row :=
  if rows.isEmpty then .mk (labelOf entry) false false []
  else .mk (labelOf entry) entry.isExpanded true rows

mutual

/-- The row of an entry. -/
def ofEntry : Entry → Row
  | .anchor shown path showLine below =>
    parent (.anchor shown path showLine below) (ofEntries below)
  | .region shown path showLine isExpanded below =>
    parent (.region shown path showLine isExpanded below) (ofEntries below)
  | .file path label visible hidden below =>
    parent (.file path label visible hidden below) (ofEntries below)
  | .epic name below => parent (.epic name below) (ofEntries below)
  | entry => parent entry []
termination_by structural entry => entry

/-- The rows of entries. -/
def ofEntries : List Entry → List Row
  | [] => []
  | entry :: rest => ofEntry entry :: ofEntries rest
termination_by structural entries => entries

end

end Row

/-- The entry at a place, which is told by the position of each entry on the way to it. -/
def Entry.at? : List Nat → List Entry → Option Entry
  | [], _ => none
  | [position], entries => entries[position]?
  | position :: rest, entries => entries[position]?.bind fun entry => at? rest entry.children

/-- What is told when an entry is chosen. -/
def Entry.message? : Entry → Option PanelMessage
  | .scanPrompt => some .scanRequested
  | .file path _ _ _ _ => some (.fileSelected path none)
  | .anchor shown path _ _ => some (.fileSelected path (some shown.facts.line))
  | .region shown path _ _ _ => some (.fileSelected path (some shown.facts.line))
  | _ => none

namespace Panel

variable {κ : Type}

/-- The rows of a panel. -/
def rows (panel : Panel κ) : List Row :=
  Row.ofEntries panel.entries

/-- Draws a panel afresh. What cannot be told of the workspace is left out. -/
def redraw (panel : Panel κ) (workspace : Workspace) : Panel κ :=
  let entries :=
    match panel.view.entries workspace panel.marker with
    | .ok entries => entries
    | .error _ => []
  { panel with entries := entries, redraws := panel.redraws + 1 }

/-- Shows the next view. -/
def cycle (panel : Panel κ) (workspace : Workspace) : Panel κ :=
  { panel with view := panel.view.next }.redraw workspace

/-- Chooses the row at a place. -/
def choose (panel : Panel κ) (place : List Nat) : Panel κ :=
  { panel with sent := panel.sent ++ ((Entry.at? place panel.entries).bind Entry.message?).toList }

end Panel

end CommentIndex
