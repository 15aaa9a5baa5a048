import CommentIndex.Decimal.Reading
import CommentIndex.Json

/-!
# Reading JSON

`Json.read?` reads a document that makes up a whole text. Strings are read as UTF-16 units first, so
that a character beyond the first 65536 may be written as a pair of escapes. A control character may
not stand in a string but as an escape.
-/

namespace CommentIndex.Json

/-- Whether `c` may stand between the parts of a document. -/
def isBlank (c : Char) : Bool :=
  c == ' ' || c == '\n' || c == '\r' || c == '\t'

/-- The text behind its blanks. -/
def skipBlanks (text : List Char) : List Char :=
  text.dropWhile isBlank

/-- The value of a hexadecimal digit. -/
def hexDigit? (c : Char) : Option Nat :=
  if c.isDigit then some (c.toNat - '0'.toNat)
  else if 'a' ≤ c ∧ c ≤ 'f' then some (c.toNat - 'a'.toNat + 10)
  else if 'A' ≤ c ∧ c ≤ 'F' then some (c.toNat - 'A'.toNat + 10)
  else none

/-- The unit that four digits write. -/
def hexUnit? (a b c d : Char) : Option Nat :=
  [a, b, c, d].foldlM (fun value c => (hexDigit? c).map (16 * value + ·)) 0

/-- What a backslash and a character stand for. -/
def escape? (c : Char) : Option Nat :=
  match c with
  | 'n' => some 10
  | 'r' => some 13
  | 't' => some 9
  | 'b' => some 8
  | 'f' => some 12
  | '\\' => some c.toNat
  | '/' => some c.toNat
  | _ => if c == Text.doubleQuote then some c.toNat else none

/-- The codes of a string up to its closing quote, and the rest. -/
def readCodes : List Char → Option (List Nat × List Char)
  | [] => none
  | '\\' :: 'u' :: a :: b :: c :: d :: rest =>
    (hexUnit? a b c d).bind fun code =>
      (readCodes rest).map fun (codes, rest) => (code :: codes, rest)
  | '\\' :: c :: rest =>
    (escape? c).bind fun code =>
      (readCodes rest).map fun (codes, rest) => (code :: codes, rest)
  | c :: rest =>
    if c == Text.doubleQuote then some ([], rest)
    else if c == '\\' || c.toNat < 32 then none
    else (readCodes rest).map fun (codes, rest) => (c.toNat :: codes, rest)

/-- Whether a code is the first one of a pair. -/
def isHigh (code : Nat) : Bool :=
  0xD800 ≤ code && code < 0xDC00

/-- Whether a code is the second one of a pair. -/
def isLow (code : Nat) : Bool :=
  0xDC00 ≤ code && code < 0xE000

/-- The character of a pair of codes. -/
def ofPair (high low : Nat) : Char :=
  Char.ofNat (0x10000 + (high - 0xD800) * 0x400 + (low - 0xDC00))

/-- The characters that codes stand for. -/
def ofCodes : List Nat → List Char
  | [] => []
  | [code] => [Char.ofNat code]
  | high :: low :: rest =>
    if isHigh high && isLow low then ofPair high low :: ofCodes rest
    else Char.ofNat high :: ofCodes (low :: rest)

/-- A string behind its opening quote, and the rest. -/
def readString (text : List Char) : Option (String × List Char) :=
  (readCodes text).map fun (codes, rest) => (String.ofList (ofCodes codes), rest)

/-- Whether `c` may occur in a number. -/
def isNumberChar (c : Char) : Bool :=
  c.isDigit || c == '-' || c == '+' || c == '.' || c == 'e' || c == 'E'

/-- The number that digits write; the first of several is no zero. -/
def readNatural? : List Char → Option Nat
  | [] => none
  | '0' :: _ :: _ => none
  | digits => if digits.all Char.isDigit then some (Nat.ofDigitChars 10 digits 0) else none

/-- The integer that digits write, behind a minus if it is negative. -/
def readInteger? : List Char → Option Int
  | '-' :: digits => (readNatural? digits).map fun value : Nat => -(value : Int)
  | digits => (readNatural? digits).map Int.ofNat

/-- A number: one with a point or an exponent is a double. -/
def readNumber (text : List Char) : Option (Json × List Char) :=
  let digits := text.takeWhile isNumberChar
  let number :=
    if digits.any fun c => c == '.' || c == 'e' || c == 'E' then
      (Decimal.read? digits).map Json.float
    else (readInteger? digits).map Json.int
  number.map fun number => (number, text.drop digits.length)

/-- The text behind a character, of which blanks may be in front. -/
def expect? (wanted : Char) (text : List Char) : Option (List Char) :=
  match skipBlanks text with
  | c :: rest => if c == wanted then some rest else none
  | [] => none

mutual

/-- A document at the start of a text, and the rest. -/
def readValue : Nat → List Char → Option (Json × List Char)
  | 0, _ => none
  | fuel + 1, source =>
    match skipBlanks source with
    | 't' :: 'r' :: 'u' :: 'e' :: rest => some (.bool true, rest)
    | 'f' :: 'a' :: 'l' :: 's' :: 'e' :: rest => some (.bool false, rest)
    | 'n' :: 'u' :: 'l' :: 'l' :: rest => some (.null, rest)
    | '[' :: rest =>
      match expect? ']' rest with
      | some rest => some (.list [], rest)
      | none => (readItems fuel rest).map fun (items, rest) => (.list items, rest)
    | '\x7b' :: rest =>
      match expect? '\x7d' rest with
      | some rest => some (.object [], rest)
      | none => (readMembers fuel rest).map fun (members, rest) => (.object members, rest)
    | c :: rest =>
      if c == Text.doubleQuote then
        (readString rest).map fun (content, rest) => (.text content, rest)
      else readNumber (c :: rest)
    | [] => none

/-- The items of a list up to its closing bracket, and the rest. -/
def readItems : Nat → List Char → Option (List Json × List Char)
  | 0, _ => none
  | fuel + 1, source =>
    (readValue fuel source).bind fun (item, rest) =>
      match skipBlanks rest with
      | ',' :: rest => (readItems fuel rest).map fun (items, rest) => (item :: items, rest)
      | ']' :: rest => some ([item], rest)
      | _ => none

/-- The members of an object up to its closing brace, and the rest. -/
def readMembers : Nat → List Char → Option (List (String × Json) × List Char)
  | 0, _ => none
  | fuel + 1, source =>
    ((expect? Text.doubleQuote source).bind readString).bind fun (name, rest) =>
      ((expect? ':' rest).bind (readValue fuel)).bind fun (item, rest) =>
        match skipBlanks rest with
        | ',' :: rest =>
          (readMembers fuel rest).map fun (members, rest) => ((name, item) :: members, rest)
        | '\x7d' :: rest => some ([(name, item)], rest)
        | _ => none

end

/-- The document that a whole text writes. -/
def read? (text : String) : Option Json :=
  let chars := text.toList
  match readValue (chars.length + 1) chars with
  | some (document, rest) => if (skipBlanks rest).isEmpty then some document else none
  | none => none

/-- The member of an object with a name, if it is one and has one. -/
def member? (name : String) : Json → Option Json
  | .object members => members.lookup name
  | _ => none

end CommentIndex.Json
