import CommentIndex.Yaml.Cursor

/-!
# Scalars as they are written

A scalar is written plainly, in quotes, or as a block of lines. Each reader here starts at the
first character of the scalar and returns its text and the place behind it. Line ends inside a
scalar are folded: one alone becomes a space, and of several the first is dropped.
-/

namespace CommentIndex.Yaml.Scalar

/-- A piece of text and the place behind it. -/
abbrev Taken := List Char × Cursor

/-- What a line end and the empty lines behind it are folded to. -/
def folded (first : Char) (further : List Char) : List Char :=
  if first ≠ '\n' then first :: further
  else if further.isEmpty then [' '] else further

/-! ## Plain scalars -/

/-- Whether a plain scalar ends in front of `c`, which `next` follows. -/
def endsPlain (inFlow : Bool) (c next : Char) : Bool :=
  isGapOrEnd c || (c == ':' && (isGapOrEnd next || (inFlow && ",[]\x7b\x7d".toList.contains next)))
    || (inFlow && ",?[]\x7b\x7d".toList.contains c)

/-- The characters up to the next blank or the end of the scalar. -/
def plainRun (inFlow : Bool) : List Char → List Char
  | [] => []
  | c :: rest =>
    if endsPlain inFlow c (rest.headD ending) then [] else c :: plainRun inFlow rest

/-- The line ends and indents in front of the next line that is not empty; `none` if a mark
between documents comes first. -/
def plainBreaks : Nat → List Char → Cursor → Option Taken
  | 0, breaks, cursor => some (breaks, cursor)
  | fuel + 1, breaks, cursor =>
    if cursor.peek 0 == ' ' then plainBreaks fuel breaks cursor.next
    else
      match cursor.lineBreak? with
      | none => some (breaks, cursor)
      | some (c, cursor) =>
        if cursor.atDocumentMark then none else plainBreaks fuel (breaks ++ [c]) cursor

/-- What is between two parts of a plain scalar. -/
structure PlainGap where
  /-- What the gap stands for if another part follows. -/
  text : List Char
  /-- Whether the gap goes over a line end. -/
  crosses : Bool
  cursor : Cursor

/-- The gap behind a part of a plain scalar. -/
def plainGap (cursor : Cursor) : PlainGap :=
  let (spaces, behind) := cursor.takeRun (· == ' ')
  match behind.lineBreak? with
  | none => ⟨spaces, false, behind⟩
  | some (first, behind) =>
    if behind.atDocumentMark then ⟨[], true, behind⟩
    else
      match plainBreaks (behind.rest.length + 1) [] behind with
      | some (further, after) => ⟨folded first further, true, after⟩
      | none => ⟨[], true, (behind.takeRun fun c => c == ' ' || isBreak c).2⟩

/-- The parts of a plain scalar from a place on, behind a gap. The scalar must be indented by
`indent` columns at least, unless it is inside brackets. The flag tells whether a line end was
crossed last. -/
def plainParts (inFlow : Bool) (indent : Nat) : Nat → List Char → PlainGap → List Char × PlainGap
  | 0, text, gap => (text, gap)
  | fuel + 1, text, gap =>
    let run := plainRun inFlow gap.cursor.rest
    if gap.cursor.peek 0 == '#' || run.isEmpty then (text, gap)
    else
      let text := text ++ gap.text ++ run
      let gap := plainGap (gap.cursor.skip run.length)
      if gap.text.isEmpty || gap.cursor.peek 0 == '#' ||
          (!inFlow && gap.cursor.column < indent) then (text, gap)
      else plainParts inFlow indent fuel text gap

/-- A plain scalar, and the gap behind it. -/
def plain (inFlow : Bool) (indent : Nat) (cursor : Cursor) : List Char × PlainGap :=
  plainParts inFlow indent (cursor.rest.length + 1) [] ⟨[], false, cursor⟩

/-! ## Quoted scalars -/

/-- The value of a hexadecimal digit. -/
def hexValue? (c : Char) : Option Nat :=
  if c.isDigit then some (c.toNat - '0'.toNat)
  else if 'a' ≤ c ∧ c ≤ 'f' then some (c.toNat - 'a'.toNat + 10)
  else if 'A' ≤ c ∧ c ≤ 'F' then some (c.toNat - 'A'.toNat + 10)
  else none

/-- The number that hexadecimal digits write. -/
def hexNumber? (digits : List Char) : Option Nat :=
  digits.foldlM (fun value c => (hexValue? c).map (16 * value + ·)) 0

/-- What a backslash and a single character stand for. -/
def escape? (c : Char) : Option Char :=
  match c with
  | '0' => some (Char.ofNat 0)
  | 'a' => some (Char.ofNat 7)
  | 'b' => some (Char.ofNat 8)
  | 't' | '\t' => some '\t'
  | 'n' => some '\n'
  | 'v' => some (Char.ofNat 11)
  | 'f' => some (Char.ofNat 12)
  | 'r' => some '\r'
  | 'e' => some (Char.ofNat 27)
  | ' ' => some ' '
  | '\\' => some '\\'
  | '/' => some '/'
  | 'N' => some (Char.ofNat 0x85)
  | '_' => some (Char.ofNat 0xA0)
  | 'L' => some (Char.ofNat 0x2028)
  | 'P' => some (Char.ofNat 0x2029)
  | _ => if c.toNat = 34 then some c else none

/-- How many digits follow a backslash and `c`. -/
def escapeWidth? (c : Char) : Option Nat :=
  if c == 'x' then some 2 else if c == 'u' then some 4 else if c == 'U' then some 8 else none

/-- The empty lines inside a quoted scalar and the blanks in front of the next text. -/
def quotedBreaks : Nat → List Char → Cursor → Except YamlError Taken
  | 0, breaks, cursor => .ok (breaks, cursor)
  | fuel + 1, breaks, cursor =>
    if cursor.atDocumentMark then .error .malformed
    else
      let cursor := (cursor.takeRun fun c => c == ' ' || c == '\t').2
      match cursor.lineBreak? with
      | some (c, cursor) => quotedBreaks fuel (breaks ++ [c]) cursor
      | none => .ok (breaks, cursor)

/-- What an escape stands for; the place is behind the backslash. -/
def escaped (cursor : Cursor) : Except YamlError Taken :=
  let c := cursor.peek 0
  match escape? c with
  | some meant => .ok ([meant], cursor.next)
  | none =>
    match escapeWidth? c with
    | some width =>
      let digits := cursor.next.rest.take width
      match hexNumber? digits with
      | some code =>
        if digits.length < width then .error .malformed
        else if 0x110000 ≤ code then .error .badScalar
        else .ok ([Char.ofNat code], cursor.next.skip width)
      | none => .error .malformed
    | none =>
      match cursor.lineBreak? with
      | some (_, cursor) => quotedBreaks (cursor.rest.length + 1) [] cursor
      | none => .error .malformed

/-- What blanks inside a quoted scalar stand for. -/
def quotedGap (cursor : Cursor) : Except YamlError Taken := do
  let (blanks, behind) := cursor.takeRun fun c => c == ' ' || c == '\t'
  match behind.lineBreak? with
  | none => return (blanks, behind)
  | some (first, behind) =>
    let (further, behind) ← quotedBreaks (behind.rest.length + 1) [] behind
    return (folded first further, behind)

/-- Whether `c` stands for itself inside quotes of the given kind and ends no run. -/
def isQuotedPlain (c : Char) : Bool :=
  !isGapOrEnd c && c.toNat ≠ 34 && c.toNat ≠ 39 && c ≠ '\\'

/-- The rest of a quoted scalar behind `text`, and the place behind its second quote. -/
def quotedRest (quote : Char) : Nat → List Char → Cursor → Except YamlError Taken
  | 0, _, _ => .error .malformed
  | fuel + 1, text, cursor =>
    let double := quote.toNat = 34
    let c := cursor.peek 0
    if isQuotedPlain c then
      let (run, behind) := cursor.takeRun isQuotedPlain
      quotedRest quote fuel (text ++ run) behind
    else if c == ending then .error .malformed
    else if c == quote then
      if !double && cursor.peek 1 == quote then
        quotedRest quote fuel (text ++ [quote]) (cursor.skip 2)
      else .ok (text, cursor.next)
    else if double && c == '\\' then
      match escaped cursor.next with
      | .ok (meant, behind) => quotedRest quote fuel (text ++ meant) behind
      | .error error => .error error
    else if isGapOrEnd c then
      match quotedGap cursor with
      | .ok (gap, behind) => quotedRest quote fuel (text ++ gap) behind
      | .error error => .error error
    else quotedRest quote fuel (text ++ [c]) cursor.next

/-- A quoted scalar. -/
def quoted (cursor : Cursor) : Except YamlError Taken :=
  quotedRest (cursor.peek 0) (cursor.rest.length + 1) [] cursor.next

/-! ## Block scalars -/

/-- What is done with the line ends at the end of a block. -/
inductive Chomping where
  /-- All are dropped. -/
  | strip
  /-- One is kept. -/
  | clip
  /-- All are kept. -/
  | keep
deriving DecidableEq, Repr

/-- The chomping that `c` asks for. -/
def chomping? (c : Char) : Option Chomping :=
  if c == '+' then some .keep else if c == '-' then some .strip else none

/-- The further indent that `c` asks for; zero is refused. -/
def increment? (c : Char) : Except YamlError (Option Nat) :=
  if c == '0' then .error .malformed
  else if c.isDigit then .ok (some (c.toNat - '0'.toNat)) else .ok none

/-- The head of a block scalar behind its mark: the chomping, the further indent, and the place at
the start of the next line. -/
def blockHead (cursor : Cursor) : Except YamlError (Chomping × Option Nat × Cursor) := do
  let (chomping, increment, cursor) ←
    match chomping? (cursor.peek 0) with
    | some chomping =>
      match ← increment? (cursor.peek 1) with
      | some n => pure (chomping, some n, cursor.skip 2)
      | none => pure (chomping, none, cursor.next)
    | none =>
      match ← increment? (cursor.peek 0) with
      | some n =>
        match chomping? (cursor.peek 1) with
        | some chomping => pure (chomping, some n, cursor.skip 2)
        | none => pure (Chomping.clip, some n, cursor.next)
      | none => pure (Chomping.clip, none, cursor)
  if !isSpaceOrEnd (cursor.peek 0) then throw .malformed
  let cursor := cursor.skipSpaces.skipComment
  match cursor.lineBreak? with
  | some (_, cursor) => return (chomping, increment, cursor)
  | none =>
    if cursor.peek 0 ≠ ending then throw .malformed
    return (chomping, increment, cursor)

/-- The empty lines at the start of a block whose indent is not given, and the widest indent among
them and the next line. -/
def blockIndent : Nat → List Char → Nat → Cursor → List Char × Nat × Cursor
  | 0, breaks, widest, cursor => (breaks, widest, cursor)
  | fuel + 1, breaks, widest, cursor =>
    if cursor.peek 0 == ' ' then blockIndent fuel breaks (max widest cursor.next.column) cursor.next
    else
      match cursor.lineBreak? with
      | some (c, cursor) => blockIndent fuel (breaks ++ [c]) widest cursor
      | none => (breaks, widest, cursor)

/-- The spaces in front of a line, no more than up to column `indent`. -/
def skipIndent (indent : Nat) (cursor : Cursor) : Cursor :=
  let spaces := cursor.rest.takeWhile (· == ' ')
  cursor.skip (min spaces.length (indent - cursor.column))

/-- The empty lines inside a block and the indent of the next line. -/
def blockBreaks (indent : Nat) : Nat → List Char → Cursor → Taken
  | 0, breaks, cursor => (breaks, cursor)
  | fuel + 1, breaks, cursor =>
    let cursor := skipIndent indent cursor
    match cursor.lineBreak? with
    | some (c, cursor) => blockBreaks indent fuel (breaks ++ [c]) cursor
    | none => (breaks, cursor)

/-- Whether a line of a block is here. -/
def atBlockLine (indent : Nat) (cursor : Cursor) : Bool :=
  cursor.column == indent && cursor.peek 0 ≠ ending

/-- Whether `c` begins a line that is not folded. -/
def beginsIndented (c : Char) : Bool :=
  c == ' ' || c == '\t'

/-- The lines of a block behind `text` and empty lines, up to one that is less indented. -/
def blockLines (fold : Bool) (chomping : Chomping) (indent : Nat) :
    Nat → List Char → Taken → Taken
  | 0, text, (_, cursor) => (text, cursor)
  | fuel + 1, text, (breaks, cursor) =>
    let (line, atBreak) := cursor.takeRun fun c => !isBreakOrEnd c
    let (lineEnd, behind) :=
      match atBreak.lineBreak? with
      | some (c, behind) => ([c], behind)
      | none => ([], atBreak)
    let text := text ++ breaks ++ line
    let (breaks, next) := blockBreaks indent (behind.rest.length + 1) [] behind
    if atBlockLine indent next then
      let joins := fold && lineEnd == ['\n'] && !beginsIndented (cursor.peek 0) &&
        !beginsIndented (next.peek 0)
      let between := if !joins then lineEnd else if breaks.isEmpty then [' '] else []
      blockLines fold chomping indent fuel (text ++ between) (breaks, next)
    else
      match chomping with
      | .strip => (text, next)
      | .clip => (text ++ lineEnd, next)
      | .keep => (text ++ lineEnd ++ breaks, next)

/-- A block scalar inside a block that is indented by `outer` columns; its mark tells whether the
lines are folded. -/
def block (outer : Int) (cursor : Cursor) : Except YamlError Taken := do
  let fold := cursor.peek 0 == '>'
  let (chomping, increment, cursor) ← blockHead cursor.next
  let least := max (outer + 1) 1
  let (breaks, indent, cursor) :=
    match increment with
    | some n =>
      let indent := (least + n - 1).toNat
      let (breaks, cursor) := blockBreaks indent (cursor.rest.length + 1) [] cursor
      (breaks, indent, cursor)
    | none =>
      let (breaks, widest, cursor) := blockIndent (cursor.rest.length + 1) [] 0 cursor
      (breaks, max least.toNat widest, cursor)
  if atBlockLine indent cursor then
    return blockLines fold chomping indent (cursor.rest.length + 1) [] (breaks, cursor)
  else return (if chomping = .keep then breaks else [], cursor)

end CommentIndex.Yaml.Scalar
