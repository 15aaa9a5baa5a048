import CommentIndex.Text.Blank

/-!
# Decimal digits

The digits of every script: each block of ten starts at its zero. `digitValue?` reads one digit,
and `readInt?` an integer as settings and attributes write it.
-/

namespace CommentIndex.Text

/-- The zeros of the scripts beyond ASCII. -/
def digitZeros : List Nat :=
  [1632, 1776, 1984, 2406, 2534, 2662, 2790, 2918, 3046, 3174, 3302, 3430, 3558, 3664, 3792, 3872,
   4160, 4240, 6112, 6160, 6470, 6608, 6784, 6800, 6992, 7088, 7232, 7248, 42528, 43216, 43264,
   43472, 43504, 43600, 44016, 65296, 66720, 68912, 69734, 69872, 69942, 70096, 70384, 70736,
   70864, 71248, 71360, 71472, 71904, 72016, 72784, 73040, 73120, 92768, 92864, 93008, 120782,
   120792, 120802, 120812, 120822, 123200, 123632, 125264, 130032]

/-- The value of a decimal digit of any script. -/
def digitValue? (c : Char) : Option Nat :=
  if c.isDigit then some (c.toNat - '0'.toNat)
  else (digitZeros.find? fun low => low ≤ c.toNat && c.toNat < low + 10).map (c.toNat - ·)

/-- Whether `c` is a decimal digit of some script. -/
def isDecimalDigit (c : Char) : Bool :=
  (digitValue? c).isSome

/-- The most digits that an integer may be written with. -/
def maxIntDigits : Nat := 4300

/-- Blanks that may surround a written integer: the four separators below the space do not
count. -/
def isIntBlank (c : Char) : Bool :=
  isBlank c && !(28 ≤ c.toNat && c.toNat ≤ 31)

/-- The digits of a run in which single underscores may stand between two digits. -/
def digitRun? : List Char → Option (List Nat)
  | [] => none
  | [c] => (digitValue? c).map ([·])
  | c :: '_' :: rest => (digitValue? c).bind fun digit => (digitRun? rest).map (digit :: ·)
  | c :: rest => (digitValue? c).bind fun digit => (digitRun? rest).map (digit :: ·)

/-- The number that a list of digits writes, the most significant first. -/
def ofDigits (digits : List Nat) : Nat :=
  digits.foldl (fun value digit => 10 * value + digit) 0

/-- The number written by a run of digits, unless the run is too long. -/
def readNat? (text : List Char) : Option Nat :=
  (digitRun? text).bind fun digits =>
    if digits.length ≤ maxIntDigits then some (ofDigits digits) else none

/-- The integer that a text writes: digits of any script with an optional sign in front, and
blanks around them. -/
def readInt? (text : List Char) : Option Int :=
  match stripEndBy isIntBlank (text.dropWhile isIntBlank) with
  | '+' :: digits => (readNat? digits).map Int.ofNat
  | '-' :: digits => (readNat? digits).map fun value => -Int.ofNat value
  | digits => (readNat? digits).map Int.ofNat

end CommentIndex.Text
