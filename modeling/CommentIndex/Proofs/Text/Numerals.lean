import CommentIndex.Proofs.Text.Stripping
import CommentIndex.Text.Digit

/-!
# Integers written and read

An integer that is written in decimal digits is read as itself, if it has no more digits than may be
read: `readInt?_toString`. Nothing in the written integer is a blank or a mark between fields.
-/

namespace CommentIndex.Text

variable {c : Char} {n : Nat} {text : List Char}

/-- A decimal digit has a code between those of zero and nine. -/
theorem isDigit_iff : c.isDigit = true ↔ 48 ≤ c.toNat ∧ c.toNat ≤ 57 := by
  simp only [Char.isDigit, Bool.and_eq_true, decide_eq_true_eq, ge_iff_le,
    UInt32.le_iff_toNat_le]
  rfl

/-- A digit is no blank. -/
theorem isBlank_of_isDigit (h : c.isDigit = true) : isBlank c = false := by
  obtain ⟨hlow, hhigh⟩ := isDigit_iff.mp h
  simp only [isBlank, Bool.or_eq_false_iff, Bool.and_eq_false_imp, decide_eq_true_eq,
    decide_eq_false_iff_not, beq_eq_false_iff_ne]
  omega

/-- A digit has the value that its code says. -/
theorem digitValue?_of_isDigit (h : c.isDigit = true) :
    digitValue? c = some (c.toNat - '0'.toNat) := by
  rw [digitValue?, if_pos h]

/-- Digits are a run of their values. -/
theorem digitRun?_of_isDigit (hne : text ≠ []) (h : ∀ c ∈ text, c.isDigit = true) :
    digitRun? text = some (text.map fun c => c.toNat - '0'.toNat) := by
  induction text with
  | nil => contradiction
  | cons c rest ih =>
      obtain ⟨hc, hrest⟩ := List.forall_mem_cons.mp h
      cases rest with
      | nil => rw [digitRun?, digitValue?_of_isDigit hc]; rfl
      | cons d rest =>
          have hd : d ≠ '_' := by
            rintro rfl
            exact absurd (hrest '_' List.mem_cons_self) (by decide)
          have hrun := ih (List.cons_ne_nil _ _) hrest
          rw [digitRun?, digitValue?_of_isDigit hc, hrun]
          · rfl
          · exact List.cons_ne_nil _ _
          · exact fun _ heq => hd (List.cons.inj heq).1

/-- Digits write the number that they stand for. -/
theorem ofDigits_map (text : List Char) :
    ofDigits (text.map fun c => c.toNat - '0'.toNat) = Nat.ofDigitChars 10 text 0 := by
  rw [ofDigits, List.foldl_map, Nat.ofDigitChars_eq_foldl]

/-- A number below a power of ten has no more digits than that has zeros. -/
theorem length_toDigits_le {count : Nat} (hcount : 0 < count) (h : n < Nat.pow 10 count) :
    (Nat.toDigits 10 n).length ≤ count :=
  (Nat.length_toDigits_le_iff (by decide) hcount).mpr h

/-- A number is read as it is written. -/
theorem readNat?_toDigits (h : n < Nat.pow 10 maxIntDigits) :
    readNat? (Nat.toDigits 10 n) = some n := by
  have hlength := length_toDigits_le (by decide) h
  rw [readNat?, digitRun?_of_isDigit Nat.toDigits_ne_nil
    fun c => Nat.isDigit_of_mem_toDigits (by decide) (by decide), Option.bind_some,
    List.length_map, if_pos hlength, ofDigits_map, Nat.ofDigitChars_ten_toDigits]

/-- The characters that write an integer. -/
def IsNumeral (c : Char) : Prop :=
  c = '-' ∨ c.isDigit = true

/-- An integer is written as its digits, with a minus in front if it is negative. -/
theorem toList_toString (n : Int) :
    (toString n).toList = if n < 0 then '-' :: Nat.toDigits 10 n.natAbs
      else Nat.toDigits 10 n.natAbs := by
  rw [Int.toString_eq_repr]
  cases n with
  | ofNat n => exact Nat.toList_repr
  | negSucc n => simp [Int.repr, Int.negSucc_lt_zero]

/-- An integer is written in such characters. -/
theorem isNumeral_of_mem_toString {n : Int} (h : c ∈ (toString n).toList) : IsNumeral c := by
  have hdigit (h : c ∈ Nat.toDigits 10 n.natAbs) : IsNumeral c :=
    .inr (Nat.isDigit_of_mem_toDigits (by decide) (by decide) h)
  rw [toList_toString] at h
  split at h
  · exact (List.mem_cons.mp h).elim .inl hdigit
  · exact hdigit h

/-- An integer is not written as nothing. -/
theorem toString_ne_nil (n : Int) : (toString n).toList ≠ [] := by
  rw [toList_toString]
  split
  · exact List.cons_ne_nil _ _
  · exact Nat.toDigits_ne_nil

/-- No character of a written integer is a blank. -/
theorem IsNumeral.isBlank (h : IsNumeral c) : isBlank c = false := by
  rcases h with rfl | h
  · decide
  · exact isBlank_of_isDigit h

/-- Nor is it one that separates fields or encloses them. -/
theorem IsNumeral.ne (h : IsNumeral c) {mark : Char} (hmark : mark ≠ '-' ∧ mark.isDigit = false) :
    c ≠ mark := by
  rintro rfl
  rcases h with rfl | h
  · exact hmark.1 rfl
  · rw [hmark.2] at h
    contradiction

/-- An integer is read as it is written. -/
theorem readInt?_toString {n : Int} (h : n.natAbs < Nat.pow 10 maxIntDigits) :
    readInt? (toString n).toList = some n := by
  have hblank : ∀ c ∈ (toString n).toList, isIntBlank c = false := fun c hc => by
    rw [isIntBlank, (isNumeral_of_mem_toString hc).isBlank, Bool.false_and]
  have hread := readNat?_toDigits h
  rw [readInt?, dropWhile_eq_self hblank, stripEndBy_eq_self hblank, toList_toString]
  by_cases hneg : n < 0
  · rw [if_pos hneg]
    show (readNat? _).map _ = _
    rw [hread, Option.map_some, Option.some.injEq, Int.ofNat_eq_natCast]
    omega
  · have hunsigned {sign : Char} (hsign : sign.isDigit = false) :
        sign ∉ Nat.toDigits 10 n.natAbs := fun hmem => by
      rw [Nat.isDigit_of_mem_toDigits (by decide) (by decide) hmem] at hsign
      cases hsign
    rw [if_neg hneg]
    split
    · next heq => exact absurd (heq ▸ List.mem_cons_self) (hunsigned rfl)
    · next heq => exact absurd (heq ▸ List.mem_cons_self) (hunsigned rfl)
    · rw [hread, Option.map_some, Option.some.injEq, Int.ofNat_eq_natCast]
      omega

end CommentIndex.Text
