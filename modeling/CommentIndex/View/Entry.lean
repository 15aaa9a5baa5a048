import CommentIndex.Anchor
import CommentIndex.Path

/-!
# Entries of views

A view is a forest of entries. Each entry has a label on one line, and `Entry.render` puts its icon
in front and says how the parts are styled.
-/

namespace CommentIndex

/-- A line of a view, with those below it. -/
inductive Entry where
  | anchor (anchor : Anchor) (path : Path) (showLine : Bool) (children : List Entry)
  /-- An anchor that opens a region. -/
  | region (anchor : Anchor) (path : Path) (showLine isExpanded : Bool) (children : List Entry)
  /-- A file, with how many of its outermost anchors show and how many do not. -/
  | file (path : Path) (label : String) (visible hidden : Nat) (children : List Entry)
  | epic (name : String) (children : List Entry)
  | error (message : String)
  | loading
  /-- An offer to scan the workspace. -/
  | scanPrompt
  /-- The place of the cursor among the anchors. -/
  | cursor (line : Int)
deriving Inhabited

/-- A part of a rendered line that has a style. -/
structure Span where
  start : Nat
  stop : Nat
  style : String
deriving DecidableEq, Repr

/-- A line as it is shown. -/
structure Rendered where
  text : String
  /-- The style of the whole line. -/
  style : String := ""
  spans : List Span := []
deriving DecidableEq, Repr

namespace Rendered

/-- Whether `c` is shown; a bell, a backspace, and what moves to another line are not. -/
def isShown (c : Char) : Bool :=
  let n := c.toNat
  !(n == 7 || n == 8 || n == 11 || n == 12 || n == 13)

/-- The characters of a text that are shown. -/
def shown (text : String) : String :=
  String.ofList (text.toList.filter isShown)

/-- A line in one style. -/
def plain (text style : String) : Rendered :=
  { text := shown text, style := style }

/-- The line with one more part; a part without a style makes no span, nor does an empty one. -/
def append (line : Rendered) (part : String × String) : Rendered :=
  if part.1 = "" then line
  else
    let text := line.text ++ shown part.1
    { line with
      text := text
      spans :=
        if part.2 = "" then line.spans
        else line.spans ++ [⟨line.text.length, text.length, part.2⟩] }

/-- A line made of parts with their styles. -/
def ofParts (parts : List (String × String)) : Rendered :=
  parts.foldl append { text := "" }

end Rendered

namespace Entry

/-- The entries below an entry. -/
def children : Entry → List Entry
  | .anchor _ _ _ children => children
  | .region _ _ _ _ children => children
  | .file _ _ _ _ children => children
  | .epic _ children => children
  | _ => []

/-- Whether the entries below an entry are shown at first. -/
def isExpanded : Entry → Bool
  | .region _ _ _ isExpanded _ => isExpanded
  | _ => true

/-- The line of an anchor, and its text. -/
def anchorLabel (anchor : Anchor) (showLine : Bool) : String :=
  if showLine then
    "[" ++ Nat.repr anchor.facts.line ++ "] " ++ anchor.facts.display
  else anchor.facts.display

/-- The last line of a region; it is not known while the region is not closed. -/
def lastLine (anchor : Anchor) : String :=
  (anchor.closing.map fun closing => Nat.repr closing.line).getD "?"

/-- The lines of a region, and its text. -/
def regionLabel (anchor : Anchor) (showLine : Bool) : String :=
  if showLine then
    "[" ++ Nat.repr anchor.facts.line ++ " - " ++ lastLine anchor ++ "] " ++
      anchor.facts.display
  else anchor.facts.display

/-- What an entry is called. -/
def label : Entry → String
  | .anchor shown _ showLine _ => anchorLabel shown showLine
  | .region shown _ showLine _ _ => regionLabel shown showLine
  | .file _ label _ _ _ => label
  | .epic name _ => name
  | .error message => message
  | .loading => "Loading anchors..."
  | .scanPrompt => "Click to start workspace scan"
  | .cursor line => "Cursor position (line " ++ toString line ++ ")"

/-- An entry as it is shown. -/
def render (entry : Entry) : Rendered :=
  let label := entry.label
  match entry with
  | .anchor _ _ _ _ => .ofParts [("⚓ ", "cyan"), (label, "")]
  | .region shown _ _ _ _ =>
    .ofParts [("▤ ", "magenta"), (label, if shown.isClosed then "bold" else "bold yellow")]
  | .file _ _ _ _ _ => .ofParts [("📄 ", ""), (label, "bold")]
  | .epic _ _ => .ofParts [("◆ ", "green"), (label, "bold")]
  | .error _ => .ofParts [("✖ ", "red"), (label, "dim")]
  | .loading => .plain ("… " ++ label) "dim italic"
  | .scanPrompt => .ofParts [("▶ ", "green"), (label, "underline")]
  | .cursor _ => .plain ("➤ " ++ label) "reverse"

mutual

/-- The entry of an anchor, with those of the anchors inside it. -/
def ofAnchor (path : Path) (showLine isExpanded : Bool) : Anchor → Entry
  | .mk facts closing children =>
    let below := ofAnchors path showLine isExpanded children
    if facts.isRegion then .region (.mk facts closing children) path showLine isExpanded below
    else .anchor (.mk facts closing children) path showLine below
termination_by structural tree => tree

/-- The entries of the anchors of a forest. -/
def ofAnchors (path : Path) (showLine isExpanded : Bool) : List Anchor → List Entry
  | [] => []
  | first :: rest =>
    ofAnchor path showLine isExpanded first :: ofAnchors path showLine isExpanded rest
termination_by structural forest => forest

end

/-- The line of the anchor that an entry shows. -/
def line? : Entry → Option Nat
  | .anchor shown _ _ _ => some shown.facts.line
  | .region shown _ _ _ _ => some shown.facts.line
  | _ => none

/-- The entries with a mark for the cursor in front of the first anchor below its line. -/
def withCursor (line : Int) : List Entry → List Entry
  | [] => []
  | entry :: rest =>
    if entry.line?.any fun n => line < Int.ofNat n then .cursor line :: entry :: rest
    else entry :: withCursor line rest

end Entry

end CommentIndex
