import CommentIndex.Text.Digit
import CommentIndex.Text.Encoding
import CommentIndex.Yaml.Scalar

/-!
# Tokens of a YAML text

`Token.ofText` cuts a text into tokens. Indentation becomes tokens that open and close blocks. A
key need not be marked in front: where one may begin is remembered, and when its colon is met the
key, and perhaps the block it opens, is put in at that place.
-/

namespace CommentIndex.Yaml

/-- A token. -/
inductive Token where
  /-- The version that a text is written in, up to its first point. -/
  | version (major : Nat)
  /-- A handle and what it stands for at the start of a tag. -/
  | handle (name : List Char) (meaning : List Char)
  /-- A directive that is not known. -/
  | directive
  | documentStart
  | documentEnd
  | blockSequence
  | blockMapping
  | blockEnd
  | flowSequence
  | flowSequenceEnd
  | flowMapping
  | flowMappingEnd
  | entry
  | flowEntry
  | key
  | value
  | alias (name : List Char)
  | anchor (name : List Char)
  /-- A tag: its handle, if it has one, and what is behind that. -/
  | tag (handle : Option (List Char)) (suffix : List Char)
  | scalar (text : List Char) (isPlain : Bool)
deriving DecidableEq, Repr

/-- A place at which a key may have begun. -/
structure KeyPlace where
  /-- How many brackets are open there. -/
  level : Nat
  /-- How many tokens are in front of it. -/
  number : Nat
  /-- Whether what begins there must be a key. -/
  isRequired : Bool
  place : Cursor

/-- A text that is cut in part. -/
structure Lexing where
  cursor : Cursor
  /-- How many brackets are open. -/
  level : Nat := 0
  /-- The columns of the open blocks, innermost first. -/
  blocks : List Nat := []
  /-- Whether a key may begin here. -/
  keyAllowed : Bool := true
  /-- Where the keys of the open brackets may have begun. -/
  keyPlaces : List KeyPlace := []
  /-- The tokens so far, last one first. -/
  tokens : List Token := []

namespace Lexing

/-- The column of the innermost block. -/
def indent (lexing : Lexing) : Int :=
  match lexing.blocks with
  | [] => -1
  | column :: _ => column

/-- Whether brackets are open. -/
def inFlow (lexing : Lexing) : Bool :=
  0 < lexing.level

/-- The text with one more token. -/
def push (lexing : Lexing) (token : Token) : Lexing :=
  { lexing with tokens := token :: lexing.tokens }

/-- Whether a key that began at a place can still end here: a key has one line and is not long. -/
def isFresh (lexing : Lexing) (key : KeyPlace) : Bool :=
  key.place.line == lexing.cursor.line && lexing.cursor.index - key.place.index ≤ 1024

/-- Gives up the keys that can end no more. -/
def dropStale (lexing : Lexing) : Except YamlError Lexing :=
  if lexing.keyPlaces.any fun key => key.isRequired && !lexing.isFresh key then .error .malformed
  else .ok { lexing with keyPlaces := lexing.keyPlaces.filter lexing.isFresh }

/-- Gives up the key of the innermost bracket. -/
def dropKey (lexing : Lexing) : Except YamlError Lexing :=
  if lexing.keyPlaces.any fun key => key.level == lexing.level && key.isRequired then
    .error .malformed
  else .ok { lexing with keyPlaces := lexing.keyPlaces.filter (·.level ≠ lexing.level) }

/-- Remembers that a key may begin here. -/
def markKey (lexing : Lexing) : Except YamlError Lexing := do
  if lexing.keyAllowed then
    let isRequired := !lexing.inFlow && lexing.indent == lexing.cursor.column
    let cleared ← lexing.dropKey
    let key : KeyPlace :=
      ⟨lexing.level, lexing.tokens.length, isRequired, lexing.cursor⟩
    return { cleared with keyPlaces := key :: cleared.keyPlaces }
  else return lexing

/-- Closes the blocks for which `closes` holds, which are the innermost ones. -/
def closeBlocks (closes : Nat → Bool) (lexing : Lexing) : Lexing :=
  let closed := lexing.blocks.takeWhile closes
  { lexing with
    blocks := lexing.blocks.drop closed.length
    tokens := List.replicate closed.length .blockEnd ++ lexing.tokens }

/-- Closes the blocks that are indented by more than `column`. -/
def unwind (lexing : Lexing) (column : Nat) : Lexing :=
  if lexing.inFlow then lexing else lexing.closeBlocks (column < ·)

/-- Closes all blocks. -/
def unwindAll (lexing : Lexing) : Lexing :=
  if lexing.inFlow then lexing else lexing.closeBlocks fun _ => true

/-- Opens a block at a column unless one is open there; its token goes behind the first `number`
tokens. -/
def openBlock (lexing : Lexing) (column number : Nat) (token : Token) : Lexing :=
  if lexing.indent < column then
    let behind := lexing.tokens.length - number
    { lexing with
      blocks := column :: lexing.blocks
      tokens := lexing.tokens.take behind ++ token :: lexing.tokens.drop behind }
  else lexing

/-- Opens a block here, where a key or an entry must be allowed. -/
def openBlockHere (lexing : Lexing) (token : Token) : Except YamlError Lexing :=
  if lexing.inFlow then .ok lexing
  else if !lexing.keyAllowed then .error .malformed
  else .ok (lexing.openBlock lexing.cursor.column lexing.tokens.length token)

/-- The text behind the next `count` characters, which are a token. -/
def take (lexing : Lexing) (count : Nat) (token : Token) : Lexing :=
  { lexing with cursor := lexing.cursor.skip count }.push token

/-! ## Names, tags, and directives -/

/-- A name at a place that is not empty. -/
def name (cursor : Cursor) : Except YamlError Scalar.Taken :=
  let (name, behind) := cursor.takeRun isNameChar
  if name.isEmpty then .error .malformed else .ok (name, behind)

/-- The octets that a run of escapes writes, and the place behind them. -/
def escapedOctets : Nat → List UInt8 → Cursor → Except YamlError (List UInt8 × Cursor)
  | 0, octets, cursor => .ok (octets, cursor)
  | fuel + 1, octets, cursor =>
    if cursor.peek 0 == '%' then
      match Scalar.hexNumber? [cursor.peek 1, cursor.peek 2] with
      | some n => escapedOctets fuel (octets ++ [n.toUInt8]) (cursor.skip 3)
      | none => .error .malformed
    else .ok (octets, cursor)

/-- Whether `c` may occur in a tag. -/
def isTagChar (c : Char) : Bool :=
  isNameChar c || ";/?:@&=+$,.!~*()[]%".toList.contains c || c.toNat == 39

/-- The characters of a tag, whose escapes are read. -/
def tagChars : Nat → List Char → Cursor → Except YamlError Scalar.Taken
  | 0, chars, cursor => .ok (chars, cursor)
  | fuel + 1, chars, cursor => do
    let c := cursor.peek 0
    if c == '%' then
      let (octets, behind) ← escapedOctets (cursor.rest.length + 1) [] cursor
      match Text.decode? octets with
      | some text => tagChars fuel (chars ++ text) behind
      | none => throw .malformed
    else if isTagChar c then tagChars fuel (chars ++ [c]) cursor.next
    else if chars.isEmpty then throw .malformed
    else return (chars, cursor)

/-- A tag without its handle. -/
def tagSuffix (cursor : Cursor) : Except YamlError Scalar.Taken :=
  tagChars (cursor.rest.length + 1) [] cursor

/-- The handle of a tag: an exclamation mark, or a name between two of them. -/
def tagHandle (cursor : Cursor) : Except YamlError Scalar.Taken :=
  if cursor.peek 0 ≠ '!' then .error .malformed
  else if cursor.peek 1 == ' ' then .ok (['!'], cursor.next)
  else
    let (name, behind) := cursor.next.takeRun isNameChar
    if behind.peek 0 == '!' then .ok ('!' :: name ++ ['!'], behind.next) else .error .malformed

/-- Whether another exclamation mark follows before the tag ends. -/
def hasNamedHandle (cursor : Cursor) : Bool :=
  (cursor.next.rest.takeWhile fun c => !isSpaceOrEnd c).contains '!'

/-- A tag and the place behind it. -/
def tag (cursor : Cursor) : Except YamlError (Token × Cursor) := do
  let c := cursor.peek 1
  let (token, behind) ←
    if c == '<' then
      let (suffix, behind) ← tagSuffix (cursor.skip 2)
      if behind.peek 0 ≠ '>' then throw .malformed
      pure (Token.tag none suffix, behind.next)
    else if isGapOrEnd c then pure (Token.tag none ['!'], cursor.next)
    else if hasNamedHandle cursor then
      let (handle, behind) ← tagHandle cursor
      let (suffix, behind) ← tagSuffix behind
      pure (Token.tag (some handle) suffix, behind)
    else
      let (suffix, behind) ← tagSuffix cursor.next
      pure (Token.tag (some ['!']) suffix, behind)
  if !isSpaceOrEnd (behind.peek 0) then throw .malformed
  return (token, behind)

/-- A number of a version. -/
def versionNumber (cursor : Cursor) : Except YamlError (Nat × Cursor) :=
  let (digits, behind) := cursor.takeRun Char.isDigit
  if digits.isEmpty then .error .malformed
  else
    match Text.readNat? digits with
    | some n => .ok (n, behind)
    | none => .error .badScalar

/-- The directive behind its mark, and the place behind it. -/
def directive (cursor : Cursor) : Except YamlError (Token × Cursor) := do
  let (word, behind) ← name cursor
  if !isSpaceOrEnd (behind.peek 0) then throw .malformed
  let (token, behind) ←
    if word == "YAML".toList then
      let (major, behind) ← versionNumber behind.skipSpaces
      if behind.peek 0 ≠ '.' then throw .malformed
      let (_, behind) ← versionNumber behind.next
      if !isSpaceOrEnd (behind.peek 0) then throw .malformed
      pure (Token.version major, behind)
    else if word == "TAG".toList then
      let (handle, behind) ← tagHandle behind.skipSpaces
      if behind.peek 0 ≠ ' ' then throw .malformed
      let (meaning, behind) ← tagSuffix behind.skipSpaces
      if !isSpaceOrEnd (behind.peek 0) then throw .malformed
      pure (Token.handle handle meaning, behind)
    else pure (Token.directive, (behind.takeRun fun c => !isBreakOrEnd c).2)
  let behind := behind.skipSpaces.skipComment
  match behind.lineBreak? with
  | some (_, behind) => return (token, behind)
  | none =>
    if behind.peek 0 ≠ ending then throw .malformed
    return (token, behind)

/-! ## The next token -/

/-- The place of the next token: spaces, comments, and line ends are passed over. Behind a line end
a key may begin, unless brackets are open. -/
def skipToToken : Nat → Lexing → Lexing
  | 0, lexing => lexing
  | fuel + 1, lexing =>
    let cursor := lexing.cursor.skipSpaces.skipComment
    match cursor.lineBreak? with
    | some (_, cursor) =>
      skipToToken fuel
        { lexing with cursor := cursor, keyAllowed := !lexing.inFlow || lexing.keyAllowed }
    | none => { lexing with cursor := cursor }

/-- A mark at the start of a line that ends all blocks. -/
def outermost (lexing : Lexing) : Except YamlError Lexing := do
  let lexing ← lexing.unwindAll.dropKey
  return { lexing with keyAllowed := false }

/-- An opening bracket. -/
def openFlow (lexing : Lexing) (token : Token) : Except YamlError Lexing := do
  let lexing ← lexing.markKey
  return { lexing with level := lexing.level + 1, keyAllowed := true }.take 1 token

/-- A closing bracket. -/
def closeFlow (lexing : Lexing) (token : Token) : Except YamlError Lexing := do
  if lexing.level = 0 then throw .malformed
  let lexing ← lexing.dropKey
  return { lexing with level := lexing.level - 1, keyAllowed := false }.take 1 token

/-- A comma between brackets. -/
def flowEntry (lexing : Lexing) : Except YamlError Lexing := do
  let lexing ← lexing.dropKey
  return { lexing with keyAllowed := true }.take 1 .flowEntry

/-- The dash of a sequence entry. -/
def blockEntry (lexing : Lexing) : Except YamlError Lexing := do
  let lexing ← (← lexing.openBlockHere .blockSequence).dropKey
  return { lexing with keyAllowed := true }.take 1 .entry

/-- The mark in front of a key. -/
def markedKey (lexing : Lexing) : Except YamlError Lexing := do
  let lexing ← (← lexing.openBlockHere .blockMapping).dropKey
  return { lexing with keyAllowed := !lexing.inFlow }.take 1 .key

/-- The colon behind a key. -/
def value (lexing : Lexing) : Except YamlError Lexing := do
  match lexing.keyPlaces.find? (·.level == lexing.level) with
  | some key =>
    let behind := lexing.tokens.length - key.number
    let lexing :=
      { lexing with
        keyPlaces := lexing.keyPlaces.filter (·.level ≠ lexing.level)
        keyAllowed := false
        tokens := lexing.tokens.take behind ++ Token.key :: lexing.tokens.drop behind }
    let lexing :=
      if lexing.inFlow then lexing
      else lexing.openBlock key.place.column key.number .blockMapping
    return lexing.take 1 .value
  | none =>
    let lexing ← (← lexing.openBlockHere .blockMapping).dropKey
    return { lexing with keyAllowed := !lexing.inFlow }.take 1 .value

/-- A token that may be a key or stand in front of one. -/
def keyLike (lexing : Lexing) (read : Cursor → Except YamlError (Token × Cursor)) :
    Except YamlError Lexing := do
  let lexing ← lexing.markKey
  let (token, cursor) ← read lexing.cursor
  return { lexing with keyAllowed := false, cursor := cursor }.push token

/-- The name behind an anchor mark or an alias mark. -/
def reference (make : List Char → Token) (cursor : Cursor) :
    Except YamlError (Token × Cursor) := do
  let (name, behind) ← name cursor.next
  let c := behind.peek 0
  if !(isGapOrEnd c || "?:,]\x7d%@".toList.contains c || c.toNat == 96) then throw .malformed
  return (make name, behind)

/-- A scalar in quotes. -/
def quotedScalar (cursor : Cursor) : Except YamlError (Token × Cursor) :=
  (Scalar.quoted cursor).map fun (text, behind) => (.scalar text false, behind)

/-- A scalar in lines of its own. -/
def blockScalar (lexing : Lexing) : Except YamlError Lexing := do
  let lexing ← lexing.dropKey
  let (text, cursor) ← Scalar.block lexing.indent lexing.cursor
  return { lexing with keyAllowed := true, cursor := cursor }.push (.scalar text false)

/-- A scalar without quotes. -/
def plainScalar (lexing : Lexing) : Except YamlError Lexing := do
  let lexing ← lexing.markKey
  let (text, gap) := Scalar.plain lexing.inFlow (lexing.indent + 1).toNat lexing.cursor
  return { lexing with keyAllowed := gap.crosses, cursor := gap.cursor }.push (.scalar text true)

/-- Whether a plain scalar begins with `c`, which `next` follows. -/
def beginsPlain (lexing : Lexing) (c next : Char) : Bool :=
  let isMark := "-?:,[]\x7b\x7d#&*!|>%@".toList.contains c || c.toNat == 34 || c.toNat == 39 ||
    c.toNat == 96
  (!isGapOrEnd c && !isMark) ||
    (!isGapOrEnd next && (c == '-' || (!lexing.inFlow && (c == '?' || c == ':'))))

/-- The text behind its next token, which `c` begins. -/
def token (lexing : Lexing) (c : Char) : Except YamlError Lexing := do
  let next := lexing.cursor.peek 1
  let atLineStart := lexing.cursor.column == 0
  if c == '%' && atLineStart then
    let lexing ← lexing.outermost
    let (token, cursor) ← directive lexing.cursor.next
    return { lexing with cursor := cursor }.push token
  else if atLineStart && lexing.cursor.atDocumentMark then
    let token := if c == '-' then Token.documentStart else Token.documentEnd
    return (← lexing.outermost).take 3 token
  else if c == '[' then lexing.openFlow .flowSequence
  else if c == '\x7b' then lexing.openFlow .flowMapping
  else if c == ']' then lexing.closeFlow .flowSequenceEnd
  else if c == '\x7d' then lexing.closeFlow .flowMappingEnd
  else if c == ',' then lexing.flowEntry
  else if c == '-' && isGapOrEnd next then lexing.blockEntry
  else if c == '?' && (lexing.inFlow || isGapOrEnd next) then lexing.markedKey
  else if c == ':' && (lexing.inFlow || isGapOrEnd next) then lexing.value
  else if c == '*' then lexing.keyLike (reference .alias)
  else if c == '&' then lexing.keyLike (reference .anchor)
  else if c == '!' then lexing.keyLike tag
  else if (c == '|' || c == '>') && !lexing.inFlow then lexing.blockScalar
  else if c.toNat == 34 || c.toNat == 39 then lexing.keyLike quotedScalar
  else if lexing.beginsPlain c next then lexing.plainScalar
  else throw .malformed

/-- All tokens of the text, the last one first. -/
def finish : Nat → Lexing → Except YamlError (List Token)
  | 0, lexing => .ok lexing.tokens
  | fuel + 1, lexing => do
    let lexing ← (skipToToken (lexing.cursor.rest.length + 1) lexing).dropStale
    let lexing := lexing.unwind lexing.cursor.column
    let c := lexing.cursor.peek 0
    if c == ending then return (← lexing.unwindAll.dropKey).tokens
    else finish fuel (← lexing.token c)

end Lexing

/-- The tokens of a text. -/
def Token.ofText (text : List Char) : Except YamlError (List Token) :=
  if text.all isAllowed then
    let start : Cursor := ⟨text, 0, 0, 0⟩
    let cursor := if start.peek 0 == byteOrderMark then start.next else start
    (Lexing.finish (text.length + 1) { cursor := cursor }).map List.reverse
  else .error .malformed

end CommentIndex.Yaml
