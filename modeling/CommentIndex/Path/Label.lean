import CommentIndex.Anchor
import CommentIndex.Path

/-!
# Labels of files

A file of the workspace is named by its path as seen from the workspace, in full, with its inner
folders cut to their first letters, or by its last name alone; `FileStats` adds how many of its
outermost anchors show.
-/

namespace CommentIndex

/-- How much of a path is shown. -/
inductive PathFormat where
  | full
  | abbreviated
  | hidden
deriving DecidableEq, Repr, Inhabited

namespace PathFormat

/-- The name of a format in settings. -/
def name : PathFormat → String
  | .full => "full"
  | .abbreviated => "abbreviated"
  | .hidden => "hidden"

/-- The format of a name; a name that is not known shows everything. -/
def ofName (name : String) : PathFormat :=
  ([PathFormat.full, .abbreviated, .hidden].find? (·.name == name)).getD .full

end PathFormat

/-- The segments with those between the first and the last cut to one character. -/
def abbreviateSegments : List String → List String
  | [] => []
  | first :: rest =>
    first :: (rest.dropLast.map fun segment => String.ofList (segment.toList.take 1)) ++
      rest.getLast?.toList

/-- A path as it is shown for a workspace. -/
def Path.label (path workspace : Path) (format : PathFormat) : String :=
  let shown := (workspace.seenFrom path).text
  let segments := Text.splitString '/' shown
  match format with
  | .full => shown
  | .abbreviated => Text.joinStrings "/" (abbreviateSegments segments)
  | .hidden => segments.getLast?.getD ""

/-- The label of a file and the counts of its outermost anchors. -/
structure FileStats where
  label : String
  /-- How many are shown in the workspace. -/
  visible : Nat
  /-- How many are not. -/
  hidden : Nat
deriving DecidableEq, Repr

/-- The stats of a file with the given outermost anchors. -/
def FileStats.of (anchors : List Anchor) (path workspace : Path) (format : PathFormat) :
    FileStats :=
  let visible := anchors.countP Anchor.isInWorkspace
  let hidden := anchors.length - visible
  let name := path.label workspace format
  let counts := Nat.repr visible ++ " Anchors" ++
    (if hidden = 0 then "" else ", " ++ Nat.repr hidden ++ " Hidden")
  { label := if format = .hidden then name else name ++ " (" ++ counts ++ ")"
    visible := visible
    hidden := hidden }

end CommentIndex
