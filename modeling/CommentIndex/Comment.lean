import CommentIndex.Text.Blank
import CommentIndex.Text.Split

/-!
# The end of a comment

A comment may end in the mark that closes it in its document, and before that in a block of
attributes. `splitCloser` and `splitTrailingBlock` take these two off.
-/

namespace CommentIndex.Comment

/-- The marks that close a comment. -/
def closers : List (List Char) :=
  ["-->".toList, "*/".toList]

/-- The comment without the mark that closes it, and that mark. -/
def splitCloser (comment : List Char) : List Char × Option (List Char) :=
  match closers.findSome? fun closer =>
    (Text.beforeEnd? closer comment).map fun body => (Text.stripEnd body, some closer) with
  | some split => split
  | none => (comment, none)

/-- Whether the inside of brackets is a block of attributes: it is blank or has a field. -/
def isBlock (inner : List Char) : Bool :=
  (Text.strip inner).isEmpty || inner.contains '='

/-- Whether `c` may stand inside the brackets of a trailing block. -/
def isBlockChar (c : Char) : Bool :=
  c != '[' && c != ']' && !Text.isLineEnd c

/-- The text before brackets that end it, and their inside, both last character first. -/
def trailingBrackets? (reversed : List Char) : Option (List Char × List Char) :=
  match reversed.dropWhile Text.isBlank with
  | ']' :: back =>
    let inner := back.takeWhile isBlockChar
    match back.drop inner.length with
    | '[' :: before => some (before, inner)
    | _ => none
  | _ => none

/-- The comment without the block of attributes at its end, and the inside of that block. -/
def splitTrailingBlock (comment : List Char) : List Char × Option (List Char) :=
  match trailingBrackets? comment.reverse with
  | some (before, inner) =>
    if isBlock inner.reverse then (Text.stripEnd before.reverse, some inner.reverse)
    else (comment, none)
  | none => (comment, none)

end CommentIndex.Comment
