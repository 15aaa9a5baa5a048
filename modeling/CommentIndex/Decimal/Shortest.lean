/-!
# Binary fractions in decimal

A finite double is a whole number times a power of two. `shortestDigits` finds the fewest decimal
digits that read back as the same double, and of those the ones nearest to it; `roundedDigits`
rounds it to a fixed number of places. Both use exact arithmetic on natural numbers.
-/

namespace CommentIndex.Decimal

/-- The magnitude `mantissa * 2 ^ exponent` of a finite double. -/
structure Dyadic where
  mantissa : Nat
  exponent : Int
deriving DecidableEq, Repr

/-- A magnitude `digits * 10 ^ exponent`. -/
structure Digits where
  digits : Nat
  exponent : Int
deriving DecidableEq, Repr

/-- The magnitude of a finite double, from its bits. -/
def Dyadic.ofBits (bits : UInt64) : Dyadic :=
  let fraction := bits.toNat % Nat.pow 2 52
  let biased := bits.toNat / Nat.pow 2 52 % Nat.pow 2 11
  if biased = 0 then ⟨fraction, -1074⟩ else ⟨Nat.pow 2 52 + fraction, Int.ofNat biased - 1075⟩

/-- The fraction `numerator / denominator` equal to `count * 2 ^ exponent`. -/
def ratio (count : Nat) (exponent : Int) : Nat × Nat :=
  match exponent with
  | .ofNat up => (count * Nat.pow 2 up, 1)
  | .negSucc down => (count, Nat.pow 2 (down + 1))

/-- The number of decimal digits of `n`. -/
def digitCount (n : Nat) : Nat :=
  (Nat.toDigits 10 n).length

/-- The exponent of the first decimal digit of a positive fraction. -/
def leadingExponent (numerator denominator : Nat) : Int :=
  let guess := Int.ofNat (digitCount numerator) - Int.ofNat (digitCount denominator)
  let reached : Bool :=
    match guess with
    | .ofNat up => denominator * Nat.pow 10 up ≤ numerator
    | .negSucc down => denominator ≤ numerator * Nat.pow 10 (down + 1)
  if reached then guess else guess - 1

/-- The fraction divided by `10 ^ exponent`. -/
def scaled (numerator denominator : Nat) (exponent : Int) : Nat × Nat :=
  match exponent with
  | .ofNat up => (numerator, denominator * Nat.pow 10 up)
  | .negSucc down => (numerator * Nat.pow 10 (down + 1), denominator)

/-- The whole number nearest to a fraction; of two, the even one. -/
def roundEven (numerator denominator : Nat) : Nat :=
  let whole := numerator / denominator
  let twice := 2 * (numerator % denominator)
  if twice < denominator then whole
  else if denominator < twice then whole + 1
  else if whole % 2 = 0 then whole else whole + 1

/-- The whole number that is nearest to `value / unit` among the two beside it that lie between
`low / unit` and `high / unit`; the ends count if `closed`. -/
def nearestBetween? (low value high unit : Nat) (closed : Bool) : Option Nat :=
  let inside (n : Nat) : Bool :=
    if closed then low ≤ n * unit && n * unit ≤ high else low < n * unit && n * unit < high
  let best := roundEven value unit
  let floor := value / unit
  if inside best then some best
  else if inside floor then some floor
  else if inside (floor + 1) then some (floor + 1)
  else none

/-- The number without the zeros at its end, and how many there were; at most `fuel` are taken. -/
def dropZeros (fuel : Nat) (n : Nat) : Nat × Nat :=
  match fuel with
  | 0 => (n, 0)
  | fuel + 1 =>
    if n % 10 = 0 then
      let (rest, count) := dropZeros fuel (n / 10)
      (rest, count + 1)
    else (n, 0)

/-- The fewest digits, starting with `count` of them, on whose grid a number reads back. -/
def shortestFrom (low value high denominator : Nat) (closed : Bool) (lead : Int) (count : Nat) :
    Nat → Digits
  | 0 =>
    let (numerator, unit) := scaled value denominator (lead - 16)
    ⟨roundEven numerator unit, lead - 16⟩
  | fuel + 1 =>
    let exponent := lead - count + 1
    let (_, unit) := scaled value denominator exponent
    let grow (n : Nat) : Nat := (scaled n denominator exponent).1
    match nearestBetween? (grow low) (grow value) (grow high) unit closed with
    | some digits =>
      let (digits, zeros) := dropZeros 20 digits
      ⟨digits, exponent + zeros⟩
    | none => shortestFrom low value high denominator closed lead (count + 1) fuel

/-- The fewest decimal digits that read back as the given double, which is not zero. -/
def shortestDigits (x : Dyadic) : Digits :=
  let boundary := x.mantissa = Nat.pow 2 52 ∧ -1074 < x.exponent
  let (value, denominator) := ratio (4 * x.mantissa) (x.exponent - 2)
  let (up, _) := ratio 2 (x.exponent - 2)
  let (down, _) := ratio (if boundary then 1 else 2) (x.exponent - 2)
  let lead := leadingExponent value denominator
  shortestFrom (value - down) value (value + up) denominator (x.mantissa % 2 = 0) lead 1 17

/-- The double rounded to `places` decimal places, in units of the last place; a half goes to the
even neighbour. -/
def roundedDigits (places : Nat) (x : Dyadic) : Nat :=
  let (numerator, denominator) := ratio x.mantissa x.exponent
  roundEven (numerator * Nat.pow 10 places) denominator

end CommentIndex.Decimal
