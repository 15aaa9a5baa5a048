/-!
# A place in a YAML text

A `Cursor` is what is left of a text together with the line and the column reached. The text ends
in a character that no document may hold, so that looking at the end of the text needs no case of
its own.
-/

namespace CommentIndex.Yaml

/-- Why a text cannot be read as a document. -/
inductive YamlError where
  /-- The text breaks a rule of the format, or uses a type that is not known. -/
  | malformed
  /-- A scalar has the type of a number or a date and is none. -/
  | badScalar
  /-- A scalar has the type of a truth value and is none. -/
  | badTruth
deriving DecidableEq, Repr

/-- The end of every text. -/
def ending : Char := Char.ofNat 0

/-- Whether `c` ends a line. -/
def isBreak (c : Char) : Bool :=
  c == '\n' || c.toNat == 0x85 || c.toNat == 0x2028 || c.toNat == 0x2029

/-- Whether `c` ends a line or the text. -/
def isBreakOrEnd (c : Char) : Bool :=
  c == ending || isBreak c

/-- Whether `c` is a space, or ends a line or the text. -/
def isSpaceOrEnd (c : Char) : Bool :=
  c == ' ' || isBreakOrEnd c

/-- Whether `c` is a space or a tab, or ends a line or the text. -/
def isGapOrEnd (c : Char) : Bool :=
  c == '\t' || isSpaceOrEnd c

/-- Whether `c` may occur in a document. -/
def isAllowed (c : Char) : Bool :=
  let n := c.toNat
  n == 9 || n == 10 || n == 13 || (0x20 ≤ n && n ≤ 0x7E) || n == 0x85 ||
    (0xA0 ≤ n && n ≤ 0xFFFD) || 0x10000 ≤ n

/-- Whether `c` may occur in the name of an anchor, a directive, or a tag handle. -/
def isNameChar (c : Char) : Bool :=
  c.isAlphanum || c == '-' || c == '_'

/-- The mark that may stand in front of a text and takes no column. -/
def byteOrderMark : Char := Char.ofNat 0xFEFF

/-- A place in a text. -/
structure Cursor where
  rest : List Char
  index : Nat := 0
  line : Nat := 0
  column : Nat := 0
deriving Repr

namespace Cursor

/-- The character at a distance from the place. -/
def peek (cursor : Cursor) (distance : Nat) : Char :=
  cursor.rest.getD distance ending

/-- The place behind the next character. -/
def next (cursor : Cursor) : Cursor :=
  match cursor.rest with
  | [] => cursor
  | c :: rest =>
    if isBreak c then ⟨rest, cursor.index + 1, cursor.line + 1, 0⟩
    else if c == byteOrderMark then { cursor with rest := rest, index := cursor.index + 1 }
    else ⟨rest, cursor.index + 1, cursor.line, cursor.column + 1⟩

/-- The place behind the next `count` characters. -/
def skip : Nat → Cursor → Cursor
  | 0, cursor => cursor
  | count + 1, cursor => skip count cursor.next

/-- The longest run of characters for which `want` holds, and the place behind it. -/
def takeRun (want : Char → Bool) (cursor : Cursor) : List Char × Cursor :=
  let run := cursor.rest.takeWhile want
  (run, cursor.skip run.length)

/-- The place behind a run of spaces. -/
def skipSpaces (cursor : Cursor) : Cursor :=
  (cursor.takeRun (· == ' ')).2

/-- The place behind a comment, if there is one. -/
def skipComment (cursor : Cursor) : Cursor :=
  if cursor.peek 0 == '#' then (cursor.takeRun fun c => !isBreakOrEnd c).2 else cursor

/-- What a line end counts as, and the place behind it. -/
def lineBreak? (cursor : Cursor) : Option (Char × Cursor) :=
  let c := cursor.peek 0
  if isBreak c then some (if c.toNat == 0x85 then '\n' else c, cursor.next) else none

/-- Whether one of the two marks between documents is here, given that a line begins here. -/
def atDocumentMark (cursor : Cursor) : Bool :=
  (cursor.rest.take 3 == ['-', '-', '-'] || cursor.rest.take 3 == ['.', '.', '.']) &&
    isGapOrEnd (cursor.peek 3)

end Cursor

end CommentIndex.Yaml
