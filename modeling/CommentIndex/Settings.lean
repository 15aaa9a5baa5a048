import CommentIndex.Path.Label
import CommentIndex.Value

/-!
# Settings

What a workspace can choose: its tags and how they are written, which files belong to it, and how
its views look. Each field has the value it takes when nothing is chosen.
-/

namespace CommentIndex

/-- The order of anchors in a view. -/
inductive SortMethod where
  /-- By their places in the document. -/
  | line
  /-- By their tags, and then by their places. -/
  | type
deriving DecidableEq, Repr, Inhabited

namespace SortMethod

/-- The name of a method in settings. -/
def name : SortMethod → String
  | .line => "line"
  | .type => "type"

/-- The method of a name, if there is one. -/
def ofName? (name : String) : Option SortMethod :=
  [SortMethod.line, .type].find? (·.name == name)

end SortMethod

/-- How tags are written and shown. -/
structure TagSettings where
  /-- The list layer of tag entries. -/
  listed : List Value := []
  /-- The keyed layer of tag entries. -/
  keyed : List (Value × Value) := []
  separators : List String := [" ", ": ", " - "]
  marks : List String := ["<!--", "//", "/*", "/**", "*", "#", "--", ";", "'", "\""]
  endTag : String := "!"
  matchCase : Bool := false
  /-- Whether display texts begin with the tag. -/
  showTag : Bool := true
  /-- Whether the file view gives line numbers. -/
  showLine : Bool := true
  /-- Whether the views of the workspace nest anchors in their regions. -/
  nested : Bool := true
  sortMethod : SortMethod := .line
  /-- Whether regions are shown open. -/
  expandRegions : Bool := true
deriving Inhabited

/-- Which files belong to a workspace and how they are shown. -/
structure WorkspaceSettings where
  enabled : Bool := true
  /-- Whether the files are read only when that is asked for. -/
  lazyLoad : Bool := false
  matchFiles : String := "**/*"
  excludeFiles : String :=
    "\x7b**/node_modules/**,**/.git/**,**/dist/**,**/out/**,**/build/**\x7d"
  /-- The most files with anchors that a scan keeps. -/
  maxFiles : Int := 250
  pathFormat : PathFormat := .full
deriving Inhabited

/-- Everything that can be chosen. -/
structure Settings where
  tags : TagSettings := {}
  workspace : WorkspaceSettings := {}
  /-- What a new anchor of an epic adds to its highest `seq`. -/
  seqStep : Int := 1
  /-- The milliseconds of quiet before an edited document is read again. -/
  parseDelay : Int := 500
  /-- Whether the file view marks the line of the cursor. -/
  showCursor : Bool := true
deriving Inhabited

namespace Settings

/-- The delay in milliseconds; one below zero is none. -/
def delay (settings : Settings) : Nat :=
  settings.parseDelay.toNat

/-- The delay in seconds, unless it is beyond every double. -/
def delaySeconds? (settings : Settings) : Option Float :=
  Decimal.ofThousandths? settings.delay

end Settings

end CommentIndex
