import CommentIndex.Json.Reading

/-!
# JSON strings read back

A character is written as itself or as an escape, and a character beyond the first 65536 as two
escapes. `readCodes_escapeChar` says which codes a reader finds in what is written for a character,
and `ofCodes_units` that the codes of a string are put together to this string again. From them,
`readString_string`: a written string is read as the string that it was written for, whatever
characters that has.
-/

namespace CommentIndex

namespace Text

/-- A number below sixteen is one digit. -/
theorem hexDigits_one {n : Nat} (h : n < 16) : hexDigits 1 n = [Nat.digitChar n] := by
  rw [hexDigits, Nat.toDigits_of_lt_base h]
  rfl

/-- The last digit is the remainder, and the others write the quotient. -/
theorem hexDigits_succ {width : Nat} (hwidth : 0 < width) (n : Nat) :
    hexDigits (width + 1) n = hexDigits width (n / 16) ++ [Nat.digitChar (n % 16)] := by
  unfold hexDigits
  by_cases hn : n < 16
  · obtain ⟨width, rfl⟩ := Nat.exists_eq_succ_of_ne_zero (Nat.ne_of_gt hwidth)
    rw [Nat.toDigits_of_lt_base hn, Nat.div_eq_of_lt hn, Nat.mod_eq_of_lt hn]
    simp [List.replicate_succ']
  · rw [Nat.toDigits_of_base_le (by decide) (Nat.not_lt.mp hn)]
    simp

/-- Four digits write a number that is no greater than they can write. -/
theorem hexDigits_four {n : Nat} (h : n < 0x10000) :
    hexDigits 4 n =
      [Nat.digitChar (n / 16 / 16 / 16), Nat.digitChar (n / 16 / 16 % 16),
        Nat.digitChar (n / 16 % 16), Nat.digitChar (n % 16)] := by
  rw [hexDigits_succ (by decide), hexDigits_succ (by decide), hexDigits_succ (by decide),
    hexDigits_one (by omega)]
  rfl

end Text

namespace Json

/-! ## Escapes -/

/-- A hexadecimal digit is read as its value. -/
theorem hexDigit?_digitChar : ∀ digit < 16, hexDigit? (Nat.digitChar digit) = some digit := by
  decide

/-- Four digits are read as the number that they write. -/
theorem hexUnit?_digitChar {a b c d : Nat} (ha : a < 16) (hb : b < 16) (hc : c < 16) (hd : d < 16) :
    hexUnit? (Nat.digitChar a) (Nat.digitChar b) (Nat.digitChar c) (Nat.digitChar d) =
      some (16 * (16 * (16 * a + b) + c) + d) := by
  simp [hexUnit?, hexDigit?_digitChar _ ha, hexDigit?_digitChar _ hb, hexDigit?_digitChar _ hc,
    hexDigit?_digitChar _ hd]

/-- The escape of a unit is read as the unit. -/
theorem readCodes_unitEscape {code : Nat} (h : code < 0x10000) (rest : List Char) :
    readCodes (unitEscape code ++ rest) =
      (readCodes rest).map fun (codes, rest) => (code :: codes, rest) := by
  have hdigits : 16 * (16 * (16 * (code / 16 / 16 / 16) + code / 16 / 16 % 16) + code / 16 % 16) +
      code % 16 = code := by
    omega
  have hunit := hexUnit?_digitChar (show code / 16 / 16 / 16 < 16 by omega)
    (Nat.mod_lt (code / 16 / 16) (by decide)) (Nat.mod_lt (code / 16) (by decide))
    (Nat.mod_lt code (by decide))
  rw [hdigits] at hunit
  rw [unitEscape, Text.hexDigits_four h]
  simp only [List.cons_append, List.nil_append]
  rw [readCodes, hunit, Option.bind_some]

/-! ## Characters -/

/-- The codes of a character: two of them if it is beyond the first 65536. -/
def units (c : Char) : List Nat :=
  if c.toNat < 0x10000 then [c.toNat]
  else [0xD800 + (c.toNat - 0x10000) / 0x400, 0xDC00 + (c.toNat - 0x10000) % 0x400]

/-- A character has a code below 1114112, and none of those that make pairs. -/
theorem toNat_valid (c : Char) :
    c.toNat < 0xD800 ∨ 0xDFFF < c.toNat ∧ c.toNat < 0x110000 :=
  c.valid

/-- A character that is written as itself is read as its code. -/
theorem readCodes_plain {c : Char} (hquote : c ≠ Text.doubleQuote) (hslash : c ≠ '\\')
    (hcode : 32 ≤ c.toNat) (rest : List Char) :
    readCodes (c :: rest) = (readCodes rest).map fun (codes, rest) => (c.toNat :: codes, rest) := by
  have hcontrol : ¬ c.toNat < 32 := Nat.not_lt.mpr hcode
  rw [readCodes]
  · simp [hquote, hslash, hcontrol]
  · rintro _ _ _ _ _ rfl
    contradiction
  · rintro _ _ rfl
    contradiction

/-- A backslash and a letter are read as what they stand for. -/
theorem readCodes_escape {c : Char} {code : Nat} (hletter : c ≠ 'u') (h : escape? c = some code)
    (rest : List Char) :
    readCodes ('\\' :: c :: rest) =
      (readCodes rest).map fun (codes, rest) => (code :: codes, rest) := by
  rw [readCodes, h, Option.bind_some]
  rintro _ _ _ _ _ rfl
  contradiction

/-- What is written for a character is read as its codes. -/
theorem readCodes_escapeChar (c : Char) (rest : List Char) :
    readCodes (escapeChar c ++ rest) =
      (readCodes rest).map fun (codes, rest) => (units c ++ codes, rest) := by
  have hvalid := toNat_valid c
  have hone (h : c.toNat < 0x10000) {code : Nat} (hcode : c.toNat = code) :
      units c = [code] := by
    rw [units, if_pos h, hcode]
  unfold escapeChar
  dsimp only
  split
  · next hescaped =>
      rw [Bool.or_eq_true, beq_iff_eq, beq_iff_eq] at hescaped
      rcases hescaped with rfl | rfl
      · exact readCodes_escape (by decide) (by decide) rest
      · exact readCodes_escape (by decide) (by decide) rest
  split
  · next hline =>
      obtain rfl := beq_iff_eq.mp hline
      exact readCodes_escape (by decide) (by decide) rest
  split
  · next hreturn =>
      obtain rfl := beq_iff_eq.mp hreturn
      exact readCodes_escape (by decide) (by decide) rest
  split
  · next htab =>
      obtain rfl := beq_iff_eq.mp htab
      exact readCodes_escape (by decide) (by decide) rest
  split
  · next hbackspace =>
      have hcode := beq_iff_eq.mp hbackspace
      rw [hone (by omega) hcode]
      exact readCodes_escape (by decide) (by decide) rest
  split
  · next hfeed =>
      have hcode := beq_iff_eq.mp hfeed
      rw [hone (by omega) hcode]
      exact readCodes_escape (by decide) (by decide) rest
  split
  · next hescaped _ _ _ _ _ hplain =>
      rw [Bool.or_eq_true, beq_iff_eq, beq_iff_eq, not_or] at hescaped
      rw [Bool.and_eq_true, decide_eq_true_eq, decide_eq_true_eq] at hplain
      rw [hone (by omega) rfl]
      exact readCodes_plain hescaped.1 hescaped.2 hplain.1 rest
  split
  · next hsmall =>
      rw [hone hsmall rfl]
      exact readCodes_unitEscape hsmall rest
  · next hlarge =>
      rw [units, if_neg hlarge, List.append_assoc, readCodes_unitEscape (by omega),
        readCodes_unitEscape (by omega), Option.map_map]
      rfl

/-! ## Strings -/

/-- What is written for characters is read, up to the quote behind them, as their codes. -/
theorem readCodes_flatMap (content rest : List Char) :
    readCodes (content.flatMap escapeChar ++ Text.doubleQuote :: rest) =
      some (content.flatMap units, rest) := by
  induction content with
  | nil => rfl
  | cons c content ih =>
      rw [List.flatMap_cons, List.append_assoc, readCodes_escapeChar, ih]
      rfl

/-- A code that is not the first one of a pair is a character. -/
theorem ofCodes_cons {code : Nat} (h : isHigh code = false) (codes : List Nat) :
    ofCodes (code :: codes) = Char.ofNat code :: ofCodes codes := by
  cases codes with
  | nil => rfl
  | cons next codes => rw [ofCodes, h, Bool.false_and, if_neg Bool.false_ne_true]

/-- The codes of characters are put together to these characters. -/
theorem ofCodes_units (content : List Char) : ofCodes (content.flatMap units) = content := by
  induction content with
  | nil => rfl
  | cons c content ih =>
      have hvalid := toNat_valid c
      rw [List.flatMap_cons, units]
      split
      · next hsmall =>
          have hcode : isHigh c.toNat = false := by
            rw [isHigh, Bool.and_eq_false_imp]
            simp only [decide_eq_true_eq, decide_eq_false_iff_not]
            omega
          rw [List.singleton_append, ofCodes_cons hcode, ih, Char.ofNat_toNat]
      · next hlarge =>
          have hpair : (isHigh (0xD800 + (c.toNat - 0x10000) / 0x400) &&
              isLow (0xDC00 + (c.toNat - 0x10000) % 0x400)) = true := by
            simp only [isHigh, isLow, Bool.and_eq_true, decide_eq_true_eq]
            omega
          have hcode : 0x10000 + (0xD800 + (c.toNat - 0x10000) / 0x400 - 0xD800) * 0x400 +
              (0xDC00 + (c.toNat - 0x10000) % 0x400 - 0xDC00) = c.toNat := by
            omega
          rw [List.cons_append, List.singleton_append, ofCodes, if_pos hpair, ih, ofPair, hcode,
            Char.ofNat_toNat]

/-- A written string begins with a quote. -/
theorem toList_string (content : String) : (string content).toList =
    Text.doubleQuote :: (content.toList.flatMap escapeChar ++ [Text.doubleQuote]) :=
  String.toList_ofList

/-- A string is read, behind its opening quote, as it is written. -/
theorem readString_string (content : String) (rest : List Char) :
    readString (content.toList.flatMap escapeChar ++ Text.doubleQuote :: rest) =
      some (content, rest) := by
  rw [readString, readCodes_flatMap, Option.map_some]
  dsimp only
  rw [ofCodes_units, String.ofList_toList]

/-- A quote, a line feed, and a character that makes a pair. -/
example : readString (string "\"\n😀").toList.tail = some ("\"\n😀", []) := by
  decide +kernel

end Json

end CommentIndex
