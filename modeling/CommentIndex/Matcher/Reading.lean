import CommentIndex.Matcher
import CommentIndex.Text.Quoted
import CommentIndex.Text.Split

/-!
# Reading a token

`Matcher.read` says which tag a token belongs to and whether it closes a region of that tag. The
name of a tag is read as a start even if it could be an end tag too.
-/

namespace CommentIndex

/-- A tag that a token names, and whether the token closes a region of it. -/
structure Reading where
  tag : Tag
  closes : Bool

/-- Why a document has no outline: a token that names no tag of the registry. -/
inductive ParseError where
  | unresolvable (token : List Char)
deriving DecidableEq, Repr

/-- The wording of a parse error. -/
def ParseError.message : ParseError → String
  | .unresolvable token => "unresolvable tag token " ++ String.ofList (Text.quoted token)

namespace Matcher

/-- Whether two texts are spelled alike. -/
def sameSpelling (matcher : Matcher) (first second : List Char) : Bool :=
  if matcher.matchCase then first = second else Text.upper first = Text.upper second

/-- Whether a token starts as an end tag does. -/
def startsAsEndTag (matcher : Matcher) (token : List Char) : Bool :=
  let endTag := matcher.endTag.toList
  if matcher.matchCase then endTag.isPrefixOf token
  else (Text.upper endTag).isPrefixOf (Text.upper token)

/-- The tag that a token starts an anchor of. -/
def startTag? (matcher : Matcher) (registry : Registry) (token : List Char) : Option Tag :=
  (registry.find? (String.ofList token)).filter fun tag =>
    matcher.sameSpelling tag.name.toList token

/-- The region that a token closes. -/
def endTag? (matcher : Matcher) (registry : Registry) (token : List Char) : Option Tag :=
  if matcher.startsAsEndTag token then
    (registry.find? (String.ofList (token.drop matcher.endTag.length))).filter (·.isRegion)
  else none

/-- What a token means. -/
def read (matcher : Matcher) (registry : Registry) (token : List Char) :
    Except ParseError Reading :=
  match matcher.startTag? registry token with
  | some tag => .ok ⟨tag, false⟩
  | none =>
    match matcher.endTag? registry token with
    | some tag => .ok ⟨tag, true⟩
    | none => .error (.unresolvable token)

end Matcher

end CommentIndex
