import CommentIndex.Comment
import CommentIndex.Matcher.Hit
import CommentIndex.Matcher.Reading
import CommentIndex.Outline
import CommentIndex.Text.Lines

/-!
# Outlines of documents

`Outline.ofText` reads the outline of a document: every hit of the matcher becomes an anchor or an
end tag, and `Outline.ofEvents` puts these together. A token that names no tag makes the whole
document unreadable.
-/

namespace CommentIndex.Outline

/-- What the text behind a start tag consists of. -/
structure Remark where
  text : List Char
  closer : Option (List Char)
  /-- The block of attributes at the end of the comment. -/
  block : Option (List Char)
deriving DecidableEq, Repr

/-- The parts of the comment of a hit. -/
def remarkOf (hit : Hit) : Remark :=
  let (body, closer) := Comment.splitCloser (Text.strip (hit.comment.getD []))
  let (text, block) := Comment.splitTrailingBlock body
  ⟨text, closer, block⟩

/-- The text behind a token as far as it is highlighted with the comment: without the blanks at
its end, and without the closing mark and the blanks in front of that. -/
def highlightedTail (tail : List Char) (closer : Option (List Char)) : List Char :=
  let shown := Text.stripEndBy Text.isSpaceOrTab tail
  match closer.bind fun closer => Text.beforeEnd? closer shown with
  | some body => Text.stripEndBy Text.isSpaceOrTab body
  | none => shown

/-- The offsets between which a hit is highlighted. -/
def span (mode : StyleMode) (hit : Hit) (closer : Option (List Char)) : Nat × Nat :=
  match mode with
  | .full => (hit.start, hit.stop)
  | .tag => (hit.tokenStart, hit.tokenEnd)
  | _ => (hit.tokenStart, hit.tokenEnd + (highlightedTail hit.tail closer).length)

/-- The block that gives an anchor its attributes: the one behind the tag unless that is blank,
and else the one at the end of the comment. -/
def blockOf (hit : Hit) (remark : Remark) : Option (List Char) :=
  if (Text.strip (hit.block.getD [])).isEmpty && remark.block.isSome then remark.block
  else hit.block

/-- The display text of an anchor. -/
def displayOf (showTag : Bool) (tag : Tag) (text : List Char) : String :=
  if text.isEmpty then tag.name
  else if showTag then tag.name ++ ": " ++ String.ofList text
  else String.ofList text

/-- What a hit that starts an anchor says. -/
def factsOf (starts : List Nat) (showTag : Bool) (tag : Tag) (hit : Hit) : Facts :=
  let remark := remarkOf hit
  let (start, stop) := span tag.styleMode hit remark.closer
  let line := Text.lineOf starts start
  { tag := tag.name
    text := String.ofList remark.text
    display := displayOf showTag tag remark.text
    start := start
    stop := stop
    line := line
    attributes := Attributes.read (blockOf hit remark) line
    scope := tag.scope
    isRegion := tag.isRegion }

/-- What a hit that closes a region says. -/
def closingOf (starts : List Nat) (hit : Hit) : Closing :=
  let line := Text.lineOf starts hit.tokenStart
  { start := hit.tokenStart
    stop := hit.tokenEnd
    line := line
    attributes := Attributes.read hit.block line }

/-- What is met at a hit. -/
def eventOf (matcher : Matcher) (registry : Registry) (starts : List Nat) (showTag : Bool)
    (hit : Hit) : Except ParseError Event :=
  (matcher.read registry hit.token).map fun reading =>
    if reading.closes then .close reading.tag.key (closingOf starts hit)
    else .anchor reading.tag.key (factsOf starts showTag reading.tag hit)

/-- What is met in a text, in order. -/
def eventsOf (matcher : Matcher) (registry : Registry) (showTag : Bool) (text : List Char) :
    Except ParseError (List Event) :=
  (matcher.hits text).mapM (eventOf matcher registry (Text.lineStarts text) showTag)

/-- The outline of a text, and whether anything was met in it. -/
def ofText (matcher : Matcher) (registry : Registry) (showTag : Bool) (text : List Char) :
    Except ParseError (Outline × Bool) :=
  (eventsOf matcher registry showTag text).map fun events => (ofEvents events, !events.isEmpty)

end CommentIndex.Outline
