import CommentIndex.Decimal.Shortest

/-!
# Decimal text of doubles

How doubles are written: `Style` holds the choices, `floatText` writes a double with the fewest
digits that read back, and `fixedText` with a fixed number of places.
-/

namespace CommentIndex.Decimal

/-- The choices in writing a double with its fewest digits. -/
structure Style where
  /-- The least exponent of a first digit that is written positionally. -/
  leastPositional : Int
  /-- The first exponent of a first digit that is not written positionally any more. -/
  exponential : Int
  /-- What follows a whole number written positionally. -/
  wholeEnding : String
  /-- The least number of digits of an exponent. -/
  exponentWidth : Nat

/-- Numbers from 0.0001 up to below 10^16 are positional, whole ones end in `.0`, and exponents
have a sign and at least two digits. -/
def valueStyle : Style := ⟨-4, 16, ".0", 2⟩

/-- The text of a number with `digits` in front, and `width` zeros at most put before it. -/
def padded (width n : Nat) : String :=
  let digits := Nat.repr n
  String.ofList (List.replicate (width - digits.length) '0') ++ digits

/-- The digits `digits * 10 ^ exponent` in a style. -/
def Digits.text (style : Style) (x : Digits) : String :=
  let shown := Nat.toDigits 10 x.digits
  let lead : Int := x.exponent + shown.length - 1
  if lead < style.leastPositional ∨ style.exponential ≤ lead then
    let fraction := if shown.length ≤ 1 then [] else '.' :: shown.drop 1
    String.ofList (shown.take 1 ++ fraction) ++ "e" ++ (if lead < 0 then "-" else "+") ++
      padded style.exponentWidth lead.natAbs
  else if 0 ≤ x.exponent then
    String.ofList (shown ++ List.replicate x.exponent.toNat '0') ++ style.wholeEnding
  else if 0 ≤ lead then
    String.ofList (shown.take (lead.toNat + 1) ++ '.' :: shown.drop (lead.toNat + 1))
  else
    "0." ++ String.ofList (List.replicate (lead.natAbs - 1) '0' ++ shown)

/-- A double with the fewest digits that read back. -/
def floatText (x : Float) : String :=
  if x.isNaN then "nan"
  else if x.isInf then (if x < 0 then "-inf" else "inf")
  else
    let bits := x.toBits
    let sign := if bits.toNat / Nat.pow 2 63 = 1 then "-" else ""
    let magnitude := Dyadic.ofBits bits
    if magnitude.mantissa = 0 then sign ++ "0" ++ valueStyle.wholeEnding
    else sign ++ (shortestDigits magnitude).text valueStyle

/-- A double that is not negative, with a fixed number of places behind the point. -/
def fixedText (places : Nat) (x : Float) : String :=
  let units := roundedDigits places (Dyadic.ofBits x.toBits)
  Nat.repr (units / Nat.pow 10 places) ++ "." ++ padded places (units % Nat.pow 10 places)

/-- The whole number towards zero of a double; `none` if it is infinite or no number. -/
def truncated? (x : Float) : Option Int :=
  if x.isNaN || x.isInf then none
  else
    let bits := x.toBits
    let (numerator, denominator) :=
      let magnitude := Dyadic.ofBits bits
      ratio magnitude.mantissa magnitude.exponent
    let whole := numerator / denominator
    some (if bits.toNat / Nat.pow 2 63 = 1 then -Int.ofNat whole else Int.ofNat whole)

/-- So many thousandths are as near to `2 ^ 1024` as to the greatest double. They, and all more, are
beyond every double. -/
def boundOfThousandths : Nat :=
  1000 * (Nat.pow 2 1024 - Nat.pow 2 970)

/-- The double nearest to a number of thousandths, unless that is beyond every double. -/
def ofThousandths? (n : Nat) : Option Float :=
  if n < boundOfThousandths then some (Float.ofScientific n true 3) else none

end CommentIndex.Decimal
