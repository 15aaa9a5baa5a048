import CommentIndex.Outline
import CommentIndex.Settings
import CommentIndex.Text.Quoted

/-!
# Order of anchors

Anchors in the order of a view, and the nearest anchor above or below a line.
-/

namespace CommentIndex

/-- Whether the first anchor comes no later than the second in the given order. -/
def SortMethod.le (method : SortMethod) (first second : Anchor) : Bool :=
  let placed := first.facts.start ≤ second.facts.start
  match method with
  | .line => placed
  | .type =>
    first.facts.tag < second.facts.tag || (first.facts.tag = second.facts.tag && placed)

/-- The anchors in the given order. -/
def SortMethod.sort (method : SortMethod) (anchors : List Anchor) : List Anchor :=
  anchors.mergeSort method.le

/-- Where to look for the next anchor. -/
inductive Direction where
  | up
  | down
deriving DecidableEq, Repr

/-- A direction that is not known. -/
structure DirectionError where
  name : String
deriving DecidableEq, Repr

/-- The wording of a direction error. -/
def DirectionError.message (error : DirectionError) : String :=
  "invalid direction " ++ Text.quotedString error.name

/-- The direction of a name. -/
def Direction.ofName (name : String) : Except DirectionError Direction :=
  if name = "up" then .ok .up else if name = "down" then .ok .down else .error ⟨name⟩

/-- The nearest anchor above or below a line; one on the line itself does not count. -/
def Outline.nearest? (outline : Outline) (line : Int) (direction : Direction) : Option Anchor :=
  let anchors := SortMethod.line.sort outline.flatten
  match direction with
  | .up => (anchors.filter fun anchor => anchor.facts.line < line).getLast?
  | .down => anchors.find? fun anchor => line < anchor.facts.line

end CommentIndex
