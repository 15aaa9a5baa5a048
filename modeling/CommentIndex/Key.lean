import CommentIndex.Text.Case

/-!
# Spellings of a setting

A setting may be spelled in capitals that join its words, with hyphens, or with underscores.
`Key.normalize` brings each spelling to the one with underscores.
-/

namespace CommentIndex.Key

/-- Whether `c` is a small letter or a digit of ASCII. -/
def endsWord (c : Char) : Bool :=
  c.isLower || c.isDigit

/-- The text with an underscore before each capital that follows a small letter or a digit;
`before` says whether the character in front is one. -/
def breakWords (before : Bool) : List Char → List Char
  | [] => []
  | c :: rest =>
    if before && c.isUpper then '_' :: c :: breakWords (endsWord c) rest
    else c :: breakWords (endsWord c) rest

/-- A spelling in small letters with underscores between its words. -/
def normalizeChars (key : List Char) : List Char :=
  Text.lower ((breakWords false key).map fun c => if c = '-' then '_' else c)

/-- `normalizeChars` on strings. -/
def normalize (key : String) : String :=
  String.ofList (normalizeChars key.toList)

end CommentIndex.Key
