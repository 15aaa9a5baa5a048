import CommentIndex.Proofs.Text.Stripping
import CommentIndex.Text.Digit
import Mathlib.Data.Nat.Digits.Defs

/-!
# Texts that write an integer

What an integer may be written as, said without its reader: a run of decimal digits of any script,
in which single underscores may stand between two digits, behind a sign or none.
`readInt?_eq_some_iff` says that of all texts without blanks around them just these are read, and as
what they write.
-/

namespace CommentIndex.Text

/-- Digits with these values, the most significant first. Between two of them there may be an
underscore. -/
inductive IsDigitRun : List Char → List Nat → Prop
  | single {c : Char} {digit : Nat} (h : digitValue? c = some digit) : IsDigitRun [c] [digit]
  | cons {c : Char} {digit : Nat} {rest : List Char} {digits : List Nat}
    (h : digitValue? c = some digit) (hrest : IsDigitRun rest digits) :
    IsDigitRun (c :: rest) (digit :: digits)
  | underscore {c : Char} {digit : Nat} {rest : List Char} {digits : List Nat}
    (h : digitValue? c = some digit) (hrest : IsDigitRun rest digits) :
    IsDigitRun (c :: '_' :: rest) (digit :: digits)

/-- A natural number in decimal digits, of which there are not too many. -/
def WritesNat (text : List Char) (n : Nat) : Prop :=
  ∃ digits, IsDigitRun text digits ∧ digits.length ≤ maxIntDigits ∧
    n = Nat.ofDigits 10 digits.reverse

/-- An integer: a natural number with a sign or without one. -/
inductive WritesInt : List Char → Int → Prop
  | unsigned {text : List Char} {n : Nat} (h : WritesNat text n) : WritesInt text n
  | plus {text : List Char} {n : Nat} (h : WritesNat text n) : WritesInt ('+' :: text) n
  | minus {text : List Char} {n : Nat} (h : WritesNat text n) : WritesInt ('-' :: text) (-n)

variable {text : List Char} {digits : List Nat} {n : Nat}

/-- There is nothing without a digit. -/
theorem IsDigitRun.exists_digit (h : IsDigitRun text digits) :
    ∃ c digit rest, text = c :: rest ∧ digitValue? c = some digit := by
  cases h with
  | single h | cons h | underscore h => exact ⟨_, _, _, rfl, h⟩

/-- The digits that are read are those of the run. -/
theorem digitRun?_eq_some_iff : digitRun? text = some digits ↔ IsDigitRun text digits := by
  constructor
  · intro h
    fun_induction digitRun? text generalizing digits with
    | case1 => contradiction
    | case2 c =>
        obtain ⟨digit, hdigit, rfl⟩ := Option.map_eq_some_iff.mp h
        exact .single hdigit
    | case3 c rest ih =>
        obtain ⟨digit, hdigit, h⟩ := Option.bind_eq_some_iff.mp h
        obtain ⟨others, hothers, rfl⟩ := Option.map_eq_some_iff.mp h
        exact .underscore hdigit (ih hothers)
    | case4 c rest _ _ ih =>
        obtain ⟨digit, hdigit, h⟩ := Option.bind_eq_some_iff.mp h
        obtain ⟨others, hothers, rfl⟩ := Option.map_eq_some_iff.mp h
        exact .cons hdigit (ih hothers)
  · intro h
    induction h with
    | single h => rw [digitRun?, h, Option.map_some]
    | cons h hrest ih =>
        -- The rest begins with a digit, and so with no underscore.
        obtain ⟨d, digit, rest, rfl, hd⟩ := hrest.exists_digit
        have hmark : digitValue? '_' = none := by decide
        have hne : d ≠ '_' := by
          rintro rfl
          rw [hmark] at hd
          contradiction
        rw [digitRun?, h, ih]
        · rfl
        · exact List.cons_ne_nil _ _
        · exact fun _ heq => hne (List.cons.inj heq).1
    | underscore h _ ih =>
        rw [digitRun?, h, ih]
        rfl

/-- Digits are worth what they are in base ten. -/
theorem ofDigits_eq (digits : List Nat) : ofDigits digits = Nat.ofDigits 10 digits.reverse := by
  rw [ofDigits, Nat.ofDigits_eq_foldr, List.foldr_reverse]
  simp only [Nat.cast_id, Nat.add_comm]

/-- A natural number is read from what writes it. -/
theorem readNat?_eq_some_iff : readNat? text = some n ↔ WritesNat text n := by
  unfold readNat? WritesNat
  rw [Option.bind_eq_some_iff]
  refine exists_congr fun digits => and_congr digitRun?_eq_some_iff ?_
  rw [Option.ite_none_right_eq_some, Option.some.injEq, ofDigits_eq, eq_comm]

/-- A number is not written with a sign in front. -/
theorem WritesNat.ne_sign {sign : Char} (hsign : digitValue? sign = none) :
    ¬ WritesNat (sign :: text) n := by
  rintro ⟨digits, hrun, -⟩
  obtain ⟨c, digit, rest, heq, hdigit⟩ := hrun.exists_digit
  rw [← (List.cons.inj heq).1, hsign] at hdigit
  contradiction

/-- An integer is not written as nothing. -/
theorem WritesInt.ne_nil {n : Int} (h : WritesInt text n) : text ≠ [] := by
  cases h with
  | plus | minus => exact List.cons_ne_nil _ _
  | unsigned h =>
      obtain ⟨digits, hrun, -⟩ := h
      obtain ⟨c, digit, rest, rfl, -⟩ := hrun.exists_digit
      exact List.cons_ne_nil _ _

/-- The blanks that may surround an integer are blanks. -/
theorem isBlank_of_isIntBlank {c : Char} (h : isIntBlank c = true) : isBlank c = true := by
  rw [isIntBlank, Bool.and_eq_true] at h
  exact h.1

/-- There are none of them around a text that has been stripped. -/
theorem stripEndBy_isIntBlank (h : strip text = text) :
    stripEndBy isIntBlank (text.dropWhile isIntBlank) = text := by
  have hstart : text.dropWhile isBlank = text := by
    have hstrip := stripStart_strip text
    rwa [h] at hstrip
  have hend : text.rdropWhile isBlank = text := by
    rwa [strip, stripStart, hstart] at h
  rw [List.dropWhile_eq_self_iff] at hstart
  rw [List.rdropWhile_eq_self_iff] at hend
  rw [List.dropWhile_eq_self_iff.mpr fun hne => mt isBlank_of_isIntBlank (hstart hne)]
  exact List.rdropWhile_eq_self_iff.mpr fun hne => mt isBlank_of_isIntBlank (hend hne)

/-- An integer is read from what writes it, if there are no blanks around it. -/
theorem readInt?_eq_some_iff (hstrip : strip text = text) {n : Int} :
    readInt? text = some n ↔ WritesInt text n := by
  have hnat {text : List Char} (f : Nat → Int) :
      (readNat? text).map f = some n ↔ ∃ value, WritesNat text value ∧ f value = n := by
    rw [Option.map_eq_some_iff]
    exact exists_congr fun value => and_congr_left' readNat?_eq_some_iff
  rw [readInt?, stripEndBy_isIntBlank hstrip]
  constructor
  · intro h
    split at h <;> obtain ⟨value, hvalue, rfl⟩ := (hnat _).mp h
    · exact .plus hvalue
    · exact .minus hvalue
    · exact .unsigned hvalue
  · intro h
    cases h with
    | plus h => exact (hnat _).mpr ⟨_, h, rfl⟩
    | minus h => exact (hnat _).mpr ⟨_, h, rfl⟩
    | unsigned h =>
        split
        · exact absurd h (WritesNat.ne_sign (by decide))
        · exact absurd h (WritesNat.ne_sign (by decide))
        · exact (hnat _).mpr ⟨_, h, rfl⟩

end CommentIndex.Text
