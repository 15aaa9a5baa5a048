/-!
# Lines of a text

A line ends with a line feed, a carriage return, or the two together. `lineStarts` lists the
offsets at which lines begin, and `lineOf` is the number of the line that an offset lies on, which
is the number of lines that begin at or before it.
-/

namespace CommentIndex.Text

/-- The offsets just behind each line end of a text that begins at `offset`. -/
def breakEnds (offset : Nat) : List Char → List Nat
  | [] => []
  | '\r' :: '\n' :: rest => (offset + 2) :: breakEnds (offset + 2) rest
  | c :: rest =>
    if c = '\r' ∨ c = '\n' then (offset + 1) :: breakEnds (offset + 1) rest
    else breakEnds (offset + 1) rest

/-- The offsets at which the lines of a text begin. -/
def lineStarts (text : List Char) : List Nat :=
  0 :: breakEnds 0 text

/-- The number, counted from one, of the line on which `offset` lies. -/
def lineOf (starts : List Nat) (offset : Nat) : Nat :=
  starts.countP (· ≤ offset)

/-- `lineOf` for an offset that may lie before the text, where no line has begun. -/
def lineOfInt (starts : List Nat) (offset : Int) : Nat :=
  match offset with
  | .ofNat offset => lineOf starts offset
  | .negSucc _ => 0

/-- A later offset does not lie on an earlier line. -/
theorem lineOf_mono (starts : List Nat) {first second : Nat} (h : first ≤ second) :
    lineOf starts first ≤ lineOf starts second := by
  refine List.countP_mono_left fun start _ hstart => ?_
  simp only [decide_eq_true_eq] at hstart ⊢
  exact Nat.le_trans hstart h

end CommentIndex.Text
