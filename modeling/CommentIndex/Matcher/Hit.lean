import CommentIndex.Matcher
import CommentIndex.Text.Blank

/-!
# Hits of a matcher

A hit is a stretch of one line: a comment mark, spaces and tabs, a token, perhaps a block in
brackets, and perhaps a separator with a comment behind it, up to the end of the line. `hits` finds
them from left to right without overlap. Every way of reading a place is tried in one order: the
marks as the matcher lists them, the most spaces and tabs first, the tokens, a block before none,
and the separators before the bare end of the line.
-/

namespace CommentIndex

/-- A place where a matcher fits, as the pieces of text that it consists of. -/
structure Hit where
  start : Nat
  mark : List Char
  gap : List Char
  token : List Char
  block : Option (List Char)
  separator : List Char
  comment : Option (List Char)
deriving DecidableEq, Repr

namespace Hit

/-- The text of the hit behind its token. -/
def tail (hit : Hit) : List Char :=
  (match hit.block with
    | some inner => '[' :: inner ++ [']']
    | none => []) ++ hit.separator ++ hit.comment.getD []

/-- The offset of the token. -/
def tokenStart (hit : Hit) : Nat :=
  hit.start + hit.mark.length + hit.gap.length

/-- The offset behind the token. -/
def tokenEnd (hit : Hit) : Nat :=
  hit.tokenStart + hit.token.length

/-- The offset behind the hit. -/
def stop (hit : Hit) : Nat :=
  hit.tokenEnd + hit.tail.length

/-- The whole text of the hit. -/
def text (hit : Hit) : List Char :=
  hit.mark ++ hit.gap ++ hit.token ++ hit.tail

end Hit

namespace Matcher

/-- The start of the text that a literal stands for, and the rest. -/
def literal? (matchCase : Bool) : List Char → List Char → Option (List Char × List Char)
  | [], text => some ([], text)
  | _ :: _, [] => none
  | wanted :: literal, c :: text =>
    if Text.matchesLetter matchCase wanted c then
      (literal? matchCase literal text).map fun (taken, rest) => (c :: taken, rest)
    else none

/-- The start of the text that a separator stands for, and the rest. The last of the spaces that
follow one another in a separator takes all the spaces that are left. -/
def separator? (matchCase : Bool) : List Char → List Char → Option (List Char × List Char)
  | [], text => some ([], text)
  | _ :: _, [] => none
  | wanted :: separator, c :: text =>
    if wanted = ' ' then
      if c = ' ' then
        let run := if separator.head? = some ' ' then [] else text.takeWhile (· = ' ')
        (separator? matchCase separator (text.drop run.length)).map fun (taken, rest) =>
          (c :: run ++ taken, rest)
      else none
    else if Text.matchesLetter matchCase wanted c then
      (separator? matchCase separator text).map fun (taken, rest) => (c :: taken, rest)
    else none

/-- Whether a text is at the end of a line. -/
def atLineEnd : List Char → Bool
  | [] => true
  | c :: _ => Text.isLineEnd c

/-- The inside of a block in brackets at the start of the text, and the rest. -/
def block? : List Char → Option (List Char × List Char)
  | '[' :: text =>
    let inner := text.takeWhile fun c => c ≠ ']' && !Text.isLineEnd c
    match text.drop inner.length with
    | ']' :: rest => some (inner, rest)
    | _ => none
  | _ => none

/-- A separator with the comment behind it, or the bare end of a line. -/
def ending? (matcher : Matcher) (text : List Char) :
    Option (List Char × Option (List Char)) :=
  match matcher.separators.findSome? fun literal => separator? matcher.matchCase literal text with
  | some (separator, rest) =>
    some (separator, some (rest.takeWhile fun c => !Text.isLineEnd c))
  | none => if atLineEnd text then some ([], none) else none

/-- What follows a token: perhaps a block, and an ending. -/
def tail? (matcher : Matcher) (text : List Char) :
    Option (Option (List Char) × List Char × Option (List Char)) :=
  let bare := (matcher.ending? text).map fun ending => (none, ending)
  match block? text with
  | some (inner, rest) => ((matcher.ending? rest).map fun ending => (some inner, ending)).or bare
  | none => bare

/-- The hit at the start of a text that lies at the given offset. -/
def hitAt? (matcher : Matcher) (offset : Nat) (text : List Char) : Option Hit :=
  matcher.marks.findSome? fun literal =>
    (literal? matcher.matchCase literal text).bind fun (mark, afterMark) =>
      let gap := afterMark.takeWhile Text.isSpaceOrTab
      (List.range (gap.length + 1)).reverse.findSome? fun count =>
        matcher.tokens.findSome? fun literal =>
          (literal? matcher.matchCase literal (afterMark.drop count)).bind fun (token, rest) =>
            (matcher.tail? rest).map fun (block, separator, comment) =>
              { start := offset
                mark := mark
                gap := gap.take count
                token := token
                block := block
                separator := separator
                comment := comment }

/-- The hits in a text that lies at `offset`, of which the first `skip` characters belong to an
earlier hit. -/
def hitsFrom (matcher : Matcher) (skip offset : Nat) : List Char → List Hit
  | [] => []
  | c :: rest =>
    match skip with
    | skip + 1 => matcher.hitsFrom skip (offset + 1) rest
    | 0 =>
      match matcher.hitAt? offset (c :: rest) with
      | some hit => hit :: matcher.hitsFrom (hit.text.length - 1) (offset + 1) rest
      | none => matcher.hitsFrom 0 (offset + 1) rest

/-- The hits in a text, from left to right. -/
def hits (matcher : Matcher) (text : List Char) : List Hit :=
  matcher.hitsFrom 0 0 text

end Matcher

end CommentIndex
