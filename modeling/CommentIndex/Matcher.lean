import CommentIndex.Registry

/-!
# Matchers

A `Matcher` is what is searched for in a document: comment marks, the tokens that may follow a
mark, and the separators that lead to a comment. `Matcher.compile` makes one from a registry and
the settings, or says what is missing. Of the alternatives of each kind a longer one is tried
before a shorter one, so that a short alternative never hides a longer one that fits.
-/

namespace CommentIndex

/-- Why a matcher cannot be made. -/
inductive MatcherError where
  | noTag
  | noSeparator
  | noMark
deriving DecidableEq, Repr

/-- The wording of a matcher error. -/
def MatcherError.message : MatcherError → String
  | .noTag => "At least one tag must be defined"
  | .noSeparator => "At least one separator must be defined"
  | .noMark => "At least one prefix must be defined"

/-- What is searched for in a document. The three lists are in the order in which their members
are tried. -/
structure Matcher where
  /-- Texts that begin a comment. -/
  marks : List (List Char)
  /-- Tags and end tags. -/
  tokens : List (List Char)
  /-- Texts between a token and its comment. -/
  separators : List (List Char)
  /-- What makes an end tag of the name of a region. -/
  endTag : String
  /-- Whether capitals and small letters differ. -/
  matchCase : Bool
deriving DecidableEq, Repr, Inhabited

namespace Matcher

/-- Whether the first text is tried before the second: longer texts are, and of two equally long
ones the one that sorts first. -/
def triedBefore (first second : String) : Bool :=
  second.length < first.length || (first.length == second.length && first ≤ second)

/-- The distinct texts in the order in which they are tried. -/
def longestFirst (texts : List String) : List (List Char) :=
  (texts.eraseDups.mergeSort triedBefore).map String.toList

/-- The tokens that a registry gives: each name, and the end tag of each region. -/
def tokensOf (registry : Registry) (endTag : String) : List String :=
  registry.names.filter (· ≠ "") ++ registry.endTokens endTag

/-- The matcher for the tags of a registry. -/
def compile (registry : Registry) (separators marks : List String) (endTag : String)
    (matchCase : Bool) : Except MatcherError Matcher :=
  let tokens := tokensOf registry endTag
  let separators := separators.filter (· ≠ "")
  let marks := marks.filter (· ≠ "")
  if tokens.isEmpty then .error .noTag
  else if separators.isEmpty then .error .noSeparator
  else if marks.isEmpty then .error .noMark
  else .ok
    { marks := longestFirst marks
      tokens := longestFirst tokens
      separators := longestFirst separators
      endTag := endTag
      matchCase := matchCase }

end Matcher

end CommentIndex
