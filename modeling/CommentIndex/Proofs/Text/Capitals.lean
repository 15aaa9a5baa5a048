import CommentIndex.Proofs.Text.CaseRuns

/-!
# Letters and their capitals

Letters that are the same with case ignored have the same capitals, but for six stray capitals whose
small letter has another capital, such as the Kelvin sign, which is its own capital although its
small letter is `k`. This is `upperChar_eq_of_sameLetter`. It rests on `upperChar_smallLetter_iff`,
which is checked on the tables run by run: the letters to which a run leads are all moved back by
one shift, except in a few runs, where they are looked at one by one.
-/

namespace CommentIndex.Text

/-! ## Runs -/

namespace CaseRun

/-- A run beyond ASCII is plain if it covers only characters whose capital is one character. -/
def isPlain (run : CaseRun) : Bool :=
  128 ≤ run.first && (run.last < 0xD800 || 0xDFFF < run.first && run.last < 0x110000) &&
    upperExpansions.all fun entry => Nat.blt entry.1 run.first || Nat.blt run.last entry.1

/-- The code points of a run have the same capitals as those to which it leads. -/
def keepsCapitals (run : CaseRun) : Bool :=
  run.isPlain && run.moved.isPlain &&
    match run.shiftIn? upperRuns, run.moved.shiftIn? upperRuns with
    | some shift, some back => decide (run.shift + back = shift)
    | _, _ => false

variable {run : CaseRun} {code : Nat} {shift : Int}

/-- A plain run begins beyond ASCII. -/
theorem ascii_lt_of_isPlain (hplain : run.isPlain = true) : 128 ≤ run.first := by
  simp only [isPlain, Bool.and_eq_true, decide_eq_true_eq] at hplain
  exact hplain.1.1

/-- A plain run covers code points of characters beyond ASCII, and none whose capital takes several
characters. -/
theorem Covers.of_isPlain (h : run.Covers code) (hplain : run.isPlain = true) :
    128 ≤ code ∧ code.isValidChar ∧ upperExpansions.lookup code = none := by
  obtain ⟨hlow, hhigh, -⟩ := h
  simp only [isPlain, Bool.and_eq_true, Bool.or_eq_true, decide_eq_true_eq, List.all_eq_true,
    Nat.blt_eq] at hplain
  obtain ⟨⟨hascii, hvalid⟩, hexpansions⟩ := hplain
  refine ⟨by omega, by unfold Nat.isValidChar; omega, ?_⟩
  refine List.lookup_eq_none_iff.mpr fun entry hentry => ?_
  have := hexpansions entry hentry
  rw [bne_iff_ne]
  omega

set_option maxRecDepth 4000 in
/-- No run of capitals is empty. -/
theorem first_le_last_of_mem_upperRuns : ∀ run ∈ upperRuns, run.first ≤ run.last := by
  decide

/-- The capital of a code point that a plain run covers is one shift away. -/
theorem Covers.upperChar_eq (h : run.Covers code) (hplain : run.isPlain = true)
    (hshift : run.shiftIn? upperRuns = some shift) :
    upperChar (Char.ofNat code) = [Char.ofNat (code + shift).toNat] := by
  obtain ⟨hascii, hvalid, hlookup⟩ := h.of_isPlain hplain
  rw [upperChar, toNat_ofNat hvalid, if_neg (Nat.not_lt.mpr hascii), hlookup,
    ← find?_of_shiftIn? first_le_last_of_mem_upperRuns hshift h]
  cases find? code upperRuns <;> rfl

/-- What a run covers has the same capitals where it leads, if the tables say so. -/
theorem Covers.upperChar_moved (h : run.Covers code) (hkeeps : run.keepsCapitals = true) :
    upperChar (Char.ofNat (code + run.shift).toNat) = upperChar (Char.ofNat code) := by
  unfold keepsCapitals at hkeeps
  rw [Bool.and_eq_true, Bool.and_eq_true] at hkeeps
  obtain ⟨⟨hplain, hmovedPlain⟩, hback⟩ := hkeeps
  split at hback
  · next shift back hshift hmoved =>
      have hfirst : 128 ≤ (run.first + run.shift).toNat := ascii_lt_of_isPlain hmovedPlain
      have hcovers : run.moved.Covers (code + run.shift).toNat := h.moved (by omega)
      have hmovedCode := (hcovers.of_isPlain hmovedPlain).1
      have hsum := of_decide_eq_true hback
      rw [hcovers.upperChar_eq hmovedPlain hmoved, h.upperChar_eq hplain hshift]
      congr 2
      omega
  · contradiction

end CaseRun

/-! ## Capitals of small letters -/

/-- The capitals that are no capital of their own small letter. -/
def strayCapitals : List Char :=
  ['\u0130', '\u03F4', '\u1E9E', '\u2126', '\u212A', '\u212B']

/-- A character is a stray capital, or it has the same capitals as its small letter. -/
def keepsCapitals (c : Char) : Bool :=
  strayCapitals.contains c || upperChar (smallLetter c) == upperChar c

/-- A character of ASCII has the same capitals as its small letter. -/
theorem keepsCapitals_of_ascii {c : Char} (hc : c.toNat < 128) : keepsCapitals c = true := by
  exact forall_ascii (p := fun c => keepsCapitals c = true) (by decide +kernel) hc

/-- The runs of small forms lead to characters of the same capitals as a whole, or else character by
character. -/
theorem keepsCapitals_lowerRuns :
    (lowerRuns.all fun run => run.keepsCapitals ||
      (List.range (run.last + 1 - run.first)).all fun i =>
        keepsCapitals (Char.ofNat (run.first + i))) = true := by
  decide +kernel

/-- A character that a run of small forms leads from keeps its capitals there. -/
theorem keepsCapitals_of_find? {c : Char} {image : Nat}
    (hfound : CaseRun.find? c.toNat lowerRuns = some image)
    (hsmall : smallLetter c = Char.ofNat image) : keepsCapitals c = true := by
  obtain ⟨run, hrun, hcovers, rfl⟩ := CaseRun.exists_of_find? hfound
  have hkeeps := List.all_eq_true.mp keepsCapitals_lowerRuns run hrun
  rcases (Bool.or_eq_true _ _).mp hkeeps with hwhole | hsingle
  · have hsame := hcovers.upperChar_moved hwhole
    rw [← hsmall, Char.ofNat_toNat] at hsame
    simp [keepsCapitals, hsame]
  · obtain ⟨hlow, hhigh, -⟩ := hcovers
    have hplace : c.toNat - run.first < run.last + 1 - run.first := by omega
    have := List.all_eq_true.mp hsingle _ (List.mem_range.mpr hplace)
    rwa [Nat.add_sub_of_le hlow, Char.ofNat_toNat] at this

/-- Every character is a stray capital, or it has the same capitals as its small letter. -/
theorem keepsCapitals_all (c : Char) : keepsCapitals c = true := by
  by_cases hascii : c.toNat < 128
  · exact keepsCapitals_of_ascii hascii
  · cases hexpansion : lowerExpansions.lookup c.toNat with
    | some codes =>
        -- The one small form of several characters is that of a stray capital.
        have hstray : ∀ entry ∈ lowerExpansions, keepsCapitals (Char.ofNat entry.1) = true := by
          decide
        have := hstray _ (mem_of_lookup hexpansion)
        rwa [Char.ofNat_toNat] at this
    | none =>
        have hsmall : smallLetter c =
            ((CaseRun.find? c.toNat lowerRuns).map Char.ofNat).getD c := by
          rw [smallLetter, lowerChar, if_neg hascii, hexpansion]
          rfl
        cases hfound : CaseRun.find? c.toNat lowerRuns with
        | none =>
            rw [hfound] at hsmall
            simp [keepsCapitals, hsmall]
        | some image =>
            rw [hfound] at hsmall
            exact keepsCapitals_of_find? hfound hsmall

/-- The characters that have the same capitals as their small letters are those that are no stray
capitals. -/
theorem upperChar_smallLetter_iff {c : Char} :
    upperChar (smallLetter c) = upperChar c ↔ c ∉ strayCapitals := by
  constructor
  · intro hsame hstray
    have hdiffer :
        (strayCapitals.all fun c => upperChar (smallLetter c) != upperChar c) = true := by
      set_option maxRecDepth 4000 in decide
    exact bne_iff_ne.mp (List.all_eq_true.mp hdiffer c hstray) hsame
  · intro hc
    simpa [keepsCapitals, hc] using keepsCapitals_all c

/-! ## Letters that are the same -/

/-- Small letters that stand for one another have the same capitals. -/
theorem upperChar_of_mem_caseEquivalents : ∀ entry ∈ caseEquivalents, ∀ code ∈ entry.2,
    upperChar (Char.ofNat code) = upperChar (Char.ofNat entry.1) := by
  decide +kernel

/-- Letters that are the same with case ignored have the same capitals, unless one of them is a
stray capital. -/
theorem upperChar_eq_of_sameLetter {wanted c : Char} (h : sameLetter wanted c = true)
    (hwanted : wanted ∉ strayCapitals) (hc : c ∉ strayCapitals) :
    upperChar wanted = upperChar c := by
  unfold sameLetter at h
  split at h
  · rw [← upperChar_smallLetter_iff.mpr hwanted, ← upperChar_smallLetter_iff.mpr hc]
    rcases (Bool.or_eq_true _ _).mp h with hsame | hother
    · rw [beq_iff_eq.mp hsame]
    · cases hlookup : caseEquivalents.lookup (smallLetter wanted).toNat with
      | none => simp [hlookup] at hother
      | some codes =>
          have hmem : (smallLetter c).toNat ∈ codes := by simpa [hlookup] using hother
          have hsame := upperChar_of_mem_caseEquivalents _ (mem_of_lookup hlookup) _ hmem
          rw [← Char.ofNat_toNat (smallLetter c), hsame, Char.ofNat_toNat]
  · rw [beq_iff_eq.mp h]

end CommentIndex.Text
