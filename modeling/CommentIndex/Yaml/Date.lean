import CommentIndex.Decimal.Text
import CommentIndex.Text.Digit

/-!
# Dates

A date, perhaps with a time of day and the distance from Greenwich. `Date.read?` reads its
spellings, `Date.isPossible` says whether there is such a day and time, and `Date.text` writes it
in one way.
-/

namespace CommentIndex.Yaml

/-- A time of day. -/
structure Clock where
  hour : Nat
  minute : Nat
  second : Nat
  microsecond : Nat
  /-- Minutes ahead of Greenwich. -/
  offset : Option Int
deriving DecidableEq, Repr

/-- Whether there is such a time: less than a day from Greenwich, too. -/
def Clock.isPossible (clock : Clock) : Bool :=
  clock.hour < 24 && clock.minute < 60 && clock.second < 60 &&
    (clock.offset.all fun minutes => minutes.natAbs < 1440)

/-- A date, perhaps with a time. -/
structure Date where
  year : Nat
  month : Nat
  day : Nat
  clock : Option Clock
deriving DecidableEq, Repr

namespace Date

/-- A number of at least `least` and at most `most` digits, and the rest. -/
def number? (least most : Nat) (text : List Char) : Option (Nat × List Char) :=
  let digits := (text.take most).takeWhile Char.isDigit
  if digits.length < least then none
  else some (Text.ofDigits (digits.map fun c => c.toNat - '0'.toNat), text.drop digits.length)

/-- The text behind a character, if it begins so. -/
def after? (c : Char) : List Char → Option (List Char)
  | [] => none
  | d :: rest => if c = d then some rest else none

/-- The text behind what divides a date from a time. -/
def afterGap? : List Char → Option (List Char)
  | [] => none
  | c :: rest =>
    if c == 'T' || c == 't' then some rest
    else if c == ' ' || c == '\t' then some (rest.dropWhile fun c => c == ' ' || c == '\t')
    else none

/-- The microseconds behind a point, as far as digits give them, and the rest. -/
def microseconds (text : List Char) : Nat × List Char :=
  match text with
  | '.' :: rest =>
    let digits := rest.takeWhile Char.isDigit
    let shown := digits.take 6
    let padded := shown ++ List.replicate (6 - shown.length) '0'
    (Text.ofDigits (padded.map fun c => c.toNat - '0'.toNat), rest.drop digits.length)
  | _ => (0, text)

/-- The distance from Greenwich that makes up a whole text; an empty text gives none. -/
def offset? (text : List Char) : Option (Option Int) :=
  if text.isEmpty then some none
  else
    match text.dropWhile fun c => c == ' ' || c == '\t' with
    | ['Z'] => some (some 0)
    | sign :: rest =>
      if sign == '+' || sign == '-' then do
        let (hours, rest) ← number? 1 2 rest
        let minutes ←
          if rest.isEmpty then some 0
          else do
            let (minutes, rest) ← number? 2 2 (← after? ':' rest)
            if rest.isEmpty then some minutes else none
        let distance := Int.ofNat (60 * hours + minutes)
        return some (if sign == '-' then -distance else distance)
      else none
    | [] => none

/-- The time that makes up a whole text. -/
def clock? (text : List Char) : Option Clock := do
  let (hour, rest) ← number? 1 2 text
  let (minute, rest) ← number? 2 2 (← after? ':' rest)
  let (second, rest) ← number? 2 2 (← after? ':' rest)
  let (microsecond, rest) := microseconds rest
  return ⟨hour, minute, second, microsecond, ← offset? rest⟩

/-- The date that makes up a whole text. Months and days may have one digit. -/
def read? (text : List Char) : Option Date := do
  let (year, rest) ← number? 4 4 text
  let (month, rest) ← number? 1 2 (← after? '-' rest)
  let (day, rest) ← number? 1 2 (← after? '-' rest)
  if rest.isEmpty then return ⟨year, month, day, none⟩
  else return ⟨year, month, day, some (← clock? (← afterGap? rest))⟩

/-- Whether a plain scalar is written as a date; without a time, months and days have two
digits. -/
def isPlain (text : List Char) : Bool :=
  match read? text with
  | some date => date.clock.isSome || text.length == 10
  | none => false

/-- The days of a month. -/
def daysIn (year month : Nat) : Nat :=
  if month = 2 then
    if year % 4 = 0 ∧ (year % 100 ≠ 0 ∨ year % 400 = 0) then 29 else 28
  else if month = 4 ∨ month = 6 ∨ month = 9 ∨ month = 11 then 30 else 31

/-- Whether there is such a day and time. -/
def isPossible (date : Date) : Bool :=
  1 ≤ date.year && 1 ≤ date.month && date.month ≤ 12 && 1 ≤ date.day &&
    date.day ≤ daysIn date.year date.month && date.clock.all Clock.isPossible

/-- The written form of a distance from Greenwich. -/
def offsetText (minutes : Int) : String :=
  (if minutes < 0 then "-" else "+") ++ Decimal.padded 2 (minutes.natAbs / 60) ++ ":" ++
    Decimal.padded 2 (minutes.natAbs % 60)

/-- The written form of a time. -/
def clockText (clock : Clock) : String :=
  Decimal.padded 2 clock.hour ++ ":" ++ Decimal.padded 2 clock.minute ++ ":" ++
    Decimal.padded 2 clock.second ++
    (if clock.microsecond = 0 then "" else "." ++ Decimal.padded 6 clock.microsecond) ++
    (clock.offset.map offsetText).getD ""

/-- The written form of a date. -/
def text (date : Date) : String :=
  Decimal.padded 4 date.year ++ "-" ++ Decimal.padded 2 date.month ++ "-" ++
    Decimal.padded 2 date.day ++
    (date.clock.map fun clock => " " ++ clockText clock).getD ""

end Date

end CommentIndex.Yaml
