import CommentIndex.Decimal.Shortest
import CommentIndex.Text.Blank
import CommentIndex.Text.Digit

/-!
# Reading doubles

The double nearest to a number in decimal digits, and the doubles that are written as texts: digits
with a point and an exponent, or the names of infinity and of what is no number.
-/

namespace CommentIndex.Decimal

/-- The double beyond all others. -/
def infinity : Float := Float.ofBits 0x7FF0000000000000

/-- The double that is no number. -/
def notANumber : Float := Float.ofBits 0x7FF8000000000000

/-- The double nearest to `digits * 10 ^ exponent`. Far beyond the range of doubles no power is
computed. -/
def nearest (digits : Nat) (exponent : Int) : Float :=
  let lead := exponent + digitCount digits
  if digits = 0 ∨ lead < -400 then 0
  else if 400 < lead then infinity
  else if exponent < 0 then Float.ofScientific digits true exponent.natAbs
  else Float.ofScientific digits false exponent.natAbs

/-- The exponent at the end of a number; none is zero. -/
def exponent? : List Char → Option Int
  | [] => some 0
  | e :: rest =>
    if e == 'e' || e == 'E' then
      if rest.all fun c => c.isDigit || c == '+' || c == '-' then Text.readInt? rest else none
    else none

/-- The magnitude that a text without blanks and a sign writes. -/
def magnitude? (text : List Char) : Option Float :=
  let whole := text.takeWhile Char.isDigit
  let (fraction, rest) :=
    match text.drop whole.length with
    | '.' :: rest =>
      let fraction := rest.takeWhile Char.isDigit
      (fraction, rest.drop fraction.length)
    | rest => ([], rest)
  let digits := (whole ++ fraction).map fun c => c.toNat - '0'.toNat
  if digits.isEmpty then none
  else
    (exponent? rest).map fun exponent =>
      nearest (Text.ofDigits digits) (exponent - fraction.length)

/-- The double that a text writes, with an optional sign and blanks around it. -/
def read? (text : List Char) : Option Float :=
  let signed (text : List Char) : Option Float :=
    let word := String.ofList (text.map Char.toLower)
    if word == "inf" || word == "infinity" then some infinity
    else if word == "nan" then some notANumber
    else magnitude? text
  match Text.strip text with
  | '-' :: rest => (signed rest).map (- ·)
  | '+' :: rest => signed rest
  | rest => signed rest

end CommentIndex.Decimal
