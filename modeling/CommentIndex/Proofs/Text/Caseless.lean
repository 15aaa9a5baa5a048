import CommentIndex.Text.Blank
import CommentIndex.Text.Case

/-!
# Characters that stand for themselves

A space or a control character is met in a text only where it is wanted, also when case is ignored:
no other character has it as a form. This is `eq_of_matchesLetter`; it rests on where the runs of
the case tables lead.
-/

namespace CommentIndex.Text

/-- A run that goes no lower than `floor` maps no character below it. -/
theorem CaseRun.le_of_find? {floor code image : Nat} {runs : List CaseRun}
    (hruns : runs.all (fun run => (floor : Int) ≤ run.first + run.shift) = true)
    (h : CaseRun.find? code runs = some image) : floor ≤ image := by
  induction runs with
  | nil => simp [CaseRun.find?] at h
  | cons run runs ih =>
      rw [List.all_cons, Bool.and_eq_true, decide_eq_true_eq] at hruns
      unfold CaseRun.find? at h
      split at h
      · contradiction
      · split at h
        · obtain rfl := Option.some.inj h
          omega
        · exact ih hruns.2 h

/-- What is looked up stands in the table. -/
theorem mem_of_lookup {α : Type} {table : List (Nat × α)} {code : Nat} {entry : α}
    (h : table.lookup code = some entry) : (code, entry) ∈ table := by
  obtain ⟨before, after, rfl, -⟩ := List.lookup_eq_some_iff.mp h
  simp

/-- The character of a valid code point has that code point. -/
theorem toNat_ofNat {code : Nat} (hvalid : code.isValidChar) : (Char.ofNat code).toNat = code := by
  rw [Char.ofNat, dif_pos hvalid]
  rfl

/-- A code point that is not zero is that of its character. -/
theorem toNat_of_ofNat {code : Nat} {c : Char} (hpos : 0 < c.toNat) (h : Char.ofNat code = c) :
    code = c.toNat := by
  subst h
  by_cases hvalid : code.isValidChar
  · exact (toNat_ofNat hvalid).symm
  · rw [Char.ofNat, dif_neg hvalid] at hpos
    contradiction

/-- No capital of ASCII has a space or a control character as its small letter. -/
theorem eq_of_toLower {wanted c : Char} (hlow : c.toNat ≤ 32) (h : wanted.toLower = c) :
    wanted = c := by
  unfold Char.toLower at h
  split at h
  · next hupper =>
      exfalso
      rw [← h] at hlow
      have hfirst : 65 ≤ wanted.val.toNat := UInt32.le_iff_toNat_le.mp hupper.1
      have hlast : wanted.val.toNat ≤ 90 := UInt32.le_iff_toNat_le.mp hupper.2
      have hsmall : (wanted.val + ('a'.val - 'A'.val)).toNat = wanted.val.toNat + 32 := by
        have hshift : ('a'.val - 'A'.val).toNat = 32 := by decide
        rw [UInt32.toNat_add]
        omega
      have hle : (wanted.val + ('a'.val - 'A'.val)).toNat ≤ 32 := hlow
      omega
  · exact h

/-- No character has a space or a control character as its small letter, but that itself. -/
theorem eq_of_smallLetter {wanted c : Char} (hpos : 0 < c.toNat) (hlow : c.toNat ≤ 32)
    (h : smallLetter wanted = c) : wanted = c := by
  unfold smallLetter lowerChar at h
  split at h
  · exact eq_of_toLower hlow h
  · split at h
    · next codes hcodes =>
        -- The one small form of several characters begins with a letter.
        have hi : codes = [105, 775] := by
          have hform : ∀ entry ∈ lowerExpansions, entry.2 = [105, 775] := by decide
          exact hform _ (mem_of_lookup hcodes)
        rw [hi] at h
        have hcode : 105 = c.toNat := toNat_of_ofNat hpos h
        omega
    · cases hrun : CaseRun.find? wanted.toNat lowerRuns with
      | none =>
          rw [hrun] at h
          exact h
      | some image =>
          rw [hrun] at h
          have himage : image = c.toNat := toNat_of_ofNat hpos h
          have hfloor : 33 ≤ image := CaseRun.le_of_find? (by decide) hrun
          omega

/-- A space or a control character stands for no other letter, whether or not case is ignored. -/
theorem eq_of_matchesLetter {matchCase : Bool} {wanted c : Char} (hpos : 0 < c.toNat)
    (hlow : c.toNat ≤ 32) (h : matchesLetter matchCase wanted c = true) : wanted = c := by
  unfold matchesLetter sameLetter at h
  have hsmall : smallLetter c = c := by
    have hascii : c.toNat < 128 := by omega
    have hlower : c.toLower = c := by
      unfold Char.toLower
      rw [dif_neg]
      rintro ⟨hfirst, -⟩
      have : 65 ≤ c.toNat := UInt32.le_iff_toNat_le.mp hfirst
      omega
    unfold smallLetter lowerChar
    rw [if_pos hascii, hlower]
    rfl
  split at h
  · exact (beq_iff_eq.mp h).symm
  · split at h
    · simp only [hsmall, Bool.or_eq_true, beq_iff_eq] at h
      rcases h with hsame | hequivalent
      · exact eq_of_smallLetter hpos hlow hsame.symm
      · -- The letters that stand for one another are no control characters.
        exfalso
        cases hlookup : caseEquivalents.lookup (smallLetter wanted).toNat with
        | none => simp [hlookup] at hequivalent
        | some codes =>
            have hcodes : ∀ entry ∈ caseEquivalents, ∀ code ∈ entry.2, 33 ≤ code := by decide
            have hcode : c.toNat ∈ codes := by simpa [hlookup] using hequivalent
            have := hcodes _ (mem_of_lookup hlookup) _ hcode
            omega
    · exact (beq_iff_eq.mp h).symm

/-- Only a space stands for a space. -/
theorem eq_space_of_matchesLetter {matchCase : Bool} {wanted : Char}
    (h : matchesLetter matchCase wanted ' ' = true) : wanted = ' ' :=
  eq_of_matchesLetter (by decide) (by decide) h

/-- A line end is met only where it is wanted. -/
theorem isLineEnd_of_matchesLetter {matchCase : Bool} {wanted c : Char}
    (h : matchesLetter matchCase wanted c = true) (hc : isLineEnd c = true) :
    isLineEnd wanted = true := by
  have hcases : c = '\r' ∨ c = '\n' := by simpa [isLineEnd] using hc
  rcases hcases with rfl | rfl
  · rw [eq_of_matchesLetter (by decide) (by decide) h]
    exact hc
  · rw [eq_of_matchesLetter (by decide) (by decide) h]
    exact hc

end CommentIndex.Text
