import CommentIndex.Text.Split
import CommentIndex.Yaml.Date

/-!
# Kinds of scalars

Which type a tag names, and which type a plain scalar has by the way it is written. `Kind.ofPlain`
tries truth values, floats, integers, merges, nothing, dates, and defaults; all else is text.
-/

namespace CommentIndex.Yaml

/-- A type of the format. -/
inductive Kind where
  | text
  | int
  | float
  | bool
  | null
  | date
  /-- A key whose value is merged into its mapping. -/
  | merge
  /-- A key whose value stands for its mapping. -/
  | default
  | sequence
  | mapping
  /-- A type that is not known. -/
  | unknown
deriving DecidableEq, Repr

namespace Kind

/-- What the tags of the format begin with. -/
def tagStart : String := "tag:yaml.org,2002:"

/-- The names of the types, behind `tagStart`. -/
def names : List (String × Kind) :=
  [("str", .text), ("int", .int), ("float", .float), ("bool", .bool), ("null", .null),
   ("timestamp", .date), ("merge", .merge), ("value", .default), ("seq", .sequence),
   ("map", .mapping)]

/-- The type that a tag names. -/
def ofTag (tag : List Char) : Kind :=
  match Text.afterStart? tagStart.toList tag with
  | some name => (names.lookup (String.ofList name)).getD .unknown
  | none => .unknown

/-- The spellings of yes. -/
def yes : List String :=
  ["yes", "Yes", "YES", "true", "True", "TRUE", "on", "On", "ON"]

/-- The spellings of no. -/
def no : List String :=
  ["no", "No", "NO", "false", "False", "FALSE", "off", "Off", "OFF"]

/-- The spellings of nothing. -/
def nothing : List String :=
  ["", "~", "null", "Null", "NULL"]

/-- The text without a sign in front. -/
def unsigned : List Char → List Char
  | [] => []
  | c :: rest => if c == '-' || c == '+' then rest else c :: rest

/-- Whether a text is a run of digits, of which `digit` tells, and underscores. -/
def isDigitRun (digit : Char → Bool) (text : List Char) : Bool :=
  !text.isEmpty && text.all fun c => digit c || c == '_'

/-- Whether `c` is a hexadecimal digit. -/
def isHexDigit (c : Char) : Bool :=
  c.isDigit || ('a' ≤ c && c ≤ 'f') || ('A' ≤ c && c ≤ 'F')

/-- Whether `c` is an octal digit. -/
def isOctalDigit (c : Char) : Bool :=
  '0' ≤ c && c ≤ '7'

/-- Whether a text is a decimal number with underscores that begins with a digit of which `first`
holds. -/
def isDecimal (first : Char → Bool) : List Char → Bool
  | [] => false
  | c :: rest => c.isDigit && first c && rest.all fun c => c.isDigit || c == '_'

/-- Whether a text is a number below sixty. -/
def isSixtieth : List Char → Bool
  | [c] => c.isDigit
  | [c, d] => '0' ≤ c && c ≤ '5' && d.isDigit
  | _ => false

/-- Whether a text is a number in base sixty, of two places at least. -/
def isSexagesimal (first : Char → Bool) (text : List Char) : Bool :=
  match Text.splitAtEach ':' text with
  | [] | [_] => false
  | lead :: places => isDecimal first lead && places.all isSixtieth

/-- Whether a text is written as an integer. -/
def isInt (text : List Char) : Bool :=
  let text := unsigned text
  let nonzero (c : Char) : Bool := c ≠ '0'
  (match text with
    | '0' :: 'b' :: rest => isDigitRun (fun c => c == '0' || c == '1') rest
    | '0' :: 'x' :: rest => isDigitRun isHexDigit rest
    | '0' :: rest => rest.isEmpty || isDigitRun isOctalDigit rest
    | _ => isDecimal nonzero text) || isSexagesimal nonzero text

/-- Whether a text is an exponent: a letter, a sign, and digits. -/
def isExponent : List Char → Bool
  | e :: sign :: digits =>
    (e == 'e' || e == 'E') && (sign == '-' || sign == '+') && !digits.isEmpty &&
      digits.all Char.isDigit
  | _ => false

/-- Whether a text is the fraction of a number, perhaps with an exponent. -/
def isFraction (text : List Char) : Bool :=
  let rest := text.dropWhile fun c => c.isDigit || c == '_'
  rest.isEmpty || isExponent rest

/-- Whether a text is written as a float: with a point, and a sign before an exponent. -/
def isFloat (text : List Char) : Bool :=
  let whole := (unsigned text).takeWhile (· ≠ '.')
  match (unsigned text).drop whole.length with
  | '.' :: fraction =>
    if whole.isEmpty then
      [".inf", ".Inf", ".INF"].contains (String.ofList (unsigned text)) ||
        [".nan", ".NaN", ".NAN"].contains (String.ofList text) ||
        (text.head? == some '.' && (fraction.head?.any Char.isDigit) && isFraction fraction)
    else
      (isDecimal (fun _ => true) whole && isFraction fraction) ||
        (isSexagesimal (fun _ => true) whole &&
          fraction.all fun c => c.isDigit || c == '_')
  | _ => false

/-- The type of a plain scalar. -/
def ofPlain (text : List Char) : Kind :=
  let word := String.ofList text
  if yes.contains word || no.contains word then .bool
  else if isFloat text then .float
  else if isInt text then .int
  else if word == "<<" then .merge
  else if nothing.contains word then .null
  else if Date.isPlain text then .date
  else if word == "=" then .default
  else if ["!", "&", "*"].contains word then .unknown
  else .text

end Kind

end CommentIndex.Yaml
