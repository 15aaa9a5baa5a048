import CommentIndex.Text.Case
import CommentIndex.Text.Digit
import CommentIndex.Text.Split

/-!
# Attributes

The block in brackets behind a tag holds fields `key=value` between commas. Three keys count:
`seq` orders anchors, `epic` groups them, and `id` names one. `Attributes.read` takes each from
the last field of its key.
-/

namespace CommentIndex

/-- The attributes of an anchor. -/
structure Attributes where
  seq : Int
  epic : Option String := none
  id : Option String := none
deriving DecidableEq, Repr, Inhabited

namespace Attributes

/-- The key of a field in small letters and its value, both without blanks around them; a text
without `=` is no field. -/
def field? (text : List Char) : Option (List Char × List Char) :=
  match Text.cutAtFirst '=' text with
  | (key, some value) => some (Text.lower (Text.strip key), Text.strip value)
  | (_, none) => none

/-- The fields of a block. -/
def fields (block : List Char) : List (List Char × List Char) :=
  (Text.splitAtEach ',' block).filterMap field?

/-- The value of the last field of a key, unless it is empty. -/
def value? (fields : List (List Char × List Char)) (key : String) : Option (List Char) :=
  ((fields.reverse.find? (·.1 = key.toList)).map (·.2)).filter (· ≠ [])

/-- The attributes in a block of an anchor on the given line, which is the `seq` of an anchor that
gives no integer for it. -/
def read (block : Option (List Char)) (line : Int) : Attributes :=
  let fields := fields (block.getD [])
  { seq := ((value? fields "seq").bind Text.readInt?).getD line
    epic := (value? fields "epic").map String.ofList
    id := (value? fields "id").map String.ofList }

end Attributes

end CommentIndex
