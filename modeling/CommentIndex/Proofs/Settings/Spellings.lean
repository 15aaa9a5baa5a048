import CommentIndex.Key
import CommentIndex.Proofs.Text.CaseRuns

/-!
# Spellings

A spelling that has been brought to small letters and underscores stays as it is when that is done
once more: `Key.normalize_normalize`. The characters of a small form are their own small forms,
which is checked on the case tables, run by run where a run leads to characters that no run covers.
-/

namespace CommentIndex

namespace Text

/-! ## Small forms -/

/-- Whether a character is its own small form wherever it stands, and no capital of ASCII. -/
def isSettled (c : Char) : Bool :=
  lowerChar c == [c] && c.toNat != 0x3A3 && !c.isUpper

/-- Whether the small form of a character is settled, and has no hyphen unless the character is
one. -/
def settles (c : Char) : Bool :=
  (lowerChar c).all fun d => isSettled d && (d != '-' || c == '-')

/-- A character beyond ASCII is settled if the tables do not move it. -/
theorem isSettled_of_unmoved {c : Char} (hascii : 128 ≤ c.toNat)
    (hlookup : lowerExpansions.lookup c.toNat = none)
    (hfind : (CaseRun.find? c.toNat lowerRuns).getD c.toNat = c.toNat) : isSettled c = true := by
  have hsmall : lowerChar c = [c] := by
    rw [lowerChar, if_neg (Nat.not_lt.mpr hascii), hlookup]
    cases hfound : CaseRun.find? c.toNat lowerRuns with
    | none => rfl
    | some image =>
        rw [hfound, Option.getD_some] at hfind
        rw [hfind]
        simp
  have hsigma : c.toNat ≠ 0x3A3 := by
    intro heq
    rw [heq] at hfind
    exact absurd hfind (by decide)
  have hupper : c.isUpper = false := by
    refine decide_eq_false fun hcapital => ?_
    have hlast : c.toNat ≤ 90 := UInt32.le_iff_toNat_le.mp hcapital.2
    omega
  simp [isSettled, hsmall, hsigma, hupper]

/-- A run beyond ASCII leads to characters that are not moved any further. -/
def CaseRun.leadsToSmall (run : CaseRun) : Bool :=
  305 ≤ run.moved.first && (run.moved.last < 0xD800 || 0xDFFF < run.moved.first &&
    run.moved.last < 0x110000) && run.moved.shiftIn? lowerRuns == some 0

/-- The runs of small forms lead to settled characters as a whole, or else character by
character. -/
theorem settles_lowerRuns :
    (lowerRuns.all fun run => run.leadsToSmall ||
      (List.range (run.last + 1 - run.first)).all fun i =>
        settles (Char.ofNat (run.first + i))) = true := by
  decide +kernel

set_option maxRecDepth 4000 in
/-- No run of small forms is empty. -/
theorem first_le_last_of_mem_lowerRuns : ∀ run ∈ lowerRuns, run.first ≤ run.last := by
  decide

/-- No small form of several characters belongs to a character behind the first. -/
theorem lookup_lowerExpansions_of_lt {code : Nat} (h : 305 ≤ code) :
    lowerExpansions.lookup code = none := by
  refine List.lookup_eq_none_iff.mpr fun entry hentry => ?_
  have hfirst : ∀ entry ∈ lowerExpansions, entry.1 < 305 := by decide
  rw [bne_iff_ne]
  have := hfirst entry hentry
  omega

/-- What a run leads to is settled, if none of it is moved any further. -/
theorem CaseRun.Covers.isSettled {run : CaseRun} {code : Nat} (h : run.Covers code)
    (hsmall : run.leadsToSmall = true) :
    isSettled (Char.ofNat (code + run.shift).toNat) = true ∧
      128 ≤ (Char.ofNat (code + run.shift).toNat).toNat := by
  simp only [CaseRun.leadsToSmall, Bool.and_eq_true, Bool.or_eq_true, decide_eq_true_eq,
    beq_iff_eq] at hsmall
  obtain ⟨⟨hfirst, hvalid⟩, hshift⟩ := hsmall
  have ⟨hlow, hhigh, _⟩ := h
  simp only [CaseRun.moved] at hfirst hvalid hshift
  have hmoved : run.moved.Covers (code + run.shift).toNat := h.moved (by omega)
  have hcode : (Char.ofNat (code + run.shift).toNat).toNat = (code + run.shift).toNat :=
    toNat_ofNat (by unfold Nat.isValidChar; omega)
  have hplace : 305 ≤ (code + run.shift).toNat := by omega
  have hfind := CaseRun.find?_of_shiftIn? first_le_last_of_mem_lowerRuns hshift hmoved
  rw [Int.add_zero, Int.toNat_natCast] at hfind
  rw [hcode]
  refine ⟨isSettled_of_unmoved ?_ ?_ ?_, by omega⟩ <;> rw [hcode]
  · omega
  · exact lookup_lowerExpansions_of_lt hplace
  · exact hfind

/-- Every small form is settled. -/
theorem settles_all (c : Char) : settles c = true := by
  by_cases hascii : c.toNat < 128
  · exact forall_ascii (p := fun c => settles c = true) (by decide +kernel) hascii
  · cases hexpansion : lowerExpansions.lookup c.toNat with
    | some codes =>
        have hall : ∀ entry ∈ lowerExpansions, settles (Char.ofNat entry.1) = true := by decide
        have := hall _ (mem_of_lookup hexpansion)
        rwa [Char.ofNat_toNat] at this
    | none =>
        have hsmall :
            lowerChar c = [((CaseRun.find? c.toNat lowerRuns).map Char.ofNat).getD c] := by
          rw [lowerChar, if_neg hascii, hexpansion]
        have hbeyond {d : Char} (hd : 128 ≤ d.toNat) : (d != '-') = true := by
          rw [bne_iff_ne]
          rintro rfl
          exact absurd hd (by decide)
        cases hfound : CaseRun.find? c.toNat lowerRuns with
        | none =>
            have hself : isSettled c = true :=
              isSettled_of_unmoved (Nat.not_lt.mp hascii) hexpansion (by rw [hfound]; rfl)
            rw [hfound] at hsmall
            simp [settles, hsmall, hself, hbeyond (Nat.not_lt.mp hascii)]
        | some image =>
            obtain ⟨run, hrun, hcovers, rfl⟩ := CaseRun.exists_of_find? hfound
            rcases (Bool.or_eq_true _ _).mp
              (List.all_eq_true.mp settles_lowerRuns run hrun) with hwhole | hsingle
            · obtain ⟨hsettled, hd⟩ := hcovers.isSettled hwhole
              rw [hfound] at hsmall
              simp [settles, hsmall, hsettled, hbeyond hd]
            · obtain ⟨hlow, hhigh, -⟩ := hcovers
              have hplace : c.toNat - run.first < run.last + 1 - run.first := by omega
              have := List.all_eq_true.mp hsingle _ (List.mem_range.mpr hplace)
              rwa [Nat.add_sub_of_le hlow, Char.ofNat_toNat] at this

variable {text : List Char}

/-- The small form of a text is settled. -/
theorem isSettled_of_mem_lowerAfter {before : List Char} {d : Char}
    (h : d ∈ lowerAfter before text) : isSettled d = true ∧ (d = '-' → '-' ∈ text) := by
  induction text generalizing before with
  | nil => contradiction
  | cons c rest ih =>
      rw [lowerAfter, List.mem_append] at h
      rcases h with h | h
      · split at h
        · -- A sigma has one of two small forms.
          obtain rfl := List.mem_singleton.mp h
          refine ⟨?_, fun hd => absurd hd ?_⟩ <;> split <;> decide
        · have hsettles := List.all_eq_true.mp (settles_all c) d h
          simp only [Bool.and_eq_true, Bool.or_eq_true, bne_iff_ne, beq_iff_eq] at hsettles
          refine ⟨hsettles.1, fun hd => List.mem_cons.mpr (.inl ?_)⟩
          exact (hsettles.2.resolve_left fun hne => hne hd).symm
      · exact ⟨(ih h).1, fun hd => List.mem_cons_of_mem _ ((ih h).2 hd)⟩

/-- A settled text is its own small form. -/
theorem lowerAfter_of_settled {before : List Char} (h : ∀ c ∈ text, isSettled c = true) :
    lowerAfter before text = text := by
  induction text generalizing before with
  | nil => rfl
  | cons c rest ih =>
      obtain ⟨hc, hrest⟩ := List.forall_mem_cons.mp h
      simp only [isSettled, Bool.and_eq_true, beq_iff_eq, bne_iff_ne] at hc
      rw [lowerAfter, ih hrest, if_neg (by simpa using hc.1.2), hc.1.1, List.singleton_append]

end Text

namespace Key

/-- A text without capitals is one word. -/
theorem breakWords_of_noCapital {text : List Char} (h : ∀ c ∈ text, c.isUpper = false)
    (before : Bool) : breakWords before text = text := by
  induction text generalizing before with
  | nil => rfl
  | cons c rest ih =>
      obtain ⟨hc, hrest⟩ := List.forall_mem_cons.mp h
      rw [breakWords, hc, Bool.and_false, if_neg Bool.false_ne_true, ih hrest]

/-- A normalized spelling stays as it is. -/
theorem normalizeChars_normalizeChars (key : List Char) :
    normalizeChars (normalizeChars key) = normalizeChars key := by
  have hsettled : ∀ c ∈ normalizeChars key, Text.isSettled c = true ∧ c ≠ '-' := fun c hc => by
    obtain ⟨hc, hhyphen⟩ := Text.isSettled_of_mem_lowerAfter hc
    refine ⟨hc, fun heq => ?_⟩
    obtain ⟨d, -, hd⟩ := List.mem_map.mp (hhyphen heq)
    split at hd
    · contradiction
    · next hne => exact hne hd
  have hwords : breakWords false (normalizeChars key) = normalizeChars key := by
    refine breakWords_of_noCapital (fun c hc => ?_) false
    have hc := (hsettled c hc).1
    simp only [Text.isSettled, Bool.and_eq_true, Bool.not_eq_true'] at hc
    exact hc.2
  have hhyphens : (normalizeChars key).map (fun c => if c = '-' then '_' else c) =
      normalizeChars key := by
    refine (List.map_congr_left fun c hc => ?_).trans (List.map_id _)
    exact if_neg (hsettled c hc).2
  show Text.lower ((breakWords false (normalizeChars key)).map _) = normalizeChars key
  rw [hwords, hhyphens]
  exact Text.lowerAfter_of_settled fun c hc => (hsettled c hc).1

/-- A normalized spelling stays as it is. -/
theorem normalize_normalize (key : String) : normalize (normalize key) = normalize key := by
  rw [normalize, normalize, String.toList_ofList, normalizeChars_normalizeChars]

end Key

end CommentIndex
