/-!
# Columns

Texts that are filled up with spaces to the width of a column. One that is wider stays as it is.
-/

namespace CommentIndex.Text

/-- The text with spaces behind it, up to a width. -/
def padEnd (width : Nat) (text : String) : String :=
  String.ofList (text.toList.rightpad width ' ')

/-- The text with spaces in front of it, up to a width. -/
def padStart (width : Nat) (text : String) : String :=
  String.ofList (text.toList.leftpad width ' ')

/-- A text fills its column. -/
theorem length_padEnd (width : Nat) (text : String) :
    (padEnd width text).length = max width text.length := by
  simp [padEnd, List.rightpad, ← String.length_toList]
  omega

/-- A text fills its column. -/
theorem length_padStart (width : Nat) (text : String) :
    (padStart width text).length = max width text.length := by
  simp [padStart, List.leftpad, ← String.length_toList]
  omega

end CommentIndex.Text
