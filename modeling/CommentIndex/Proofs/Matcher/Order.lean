import CommentIndex.Matcher.Hit

/-!
# Hits in order

The hits of a text do not overlap: `pairwise_hits` says that each one ends before the next one
begins. It follows from what `hitsFrom` skips behind a hit.
-/

namespace CommentIndex

namespace Hit

/-- A hit ends as many characters behind its start as its text has. -/
theorem stop_eq (hit : Hit) : hit.stop = hit.start + hit.text.length := by
  simp only [stop, tokenEnd, tokenStart, text, List.length_append]
  omega

/-- The token of a hit lies inside it. -/
theorem token_mem_hit (hit : Hit) :
    hit.start ≤ hit.tokenStart ∧ hit.tokenStart ≤ hit.tokenEnd ∧ hit.tokenEnd ≤ hit.stop := by
  simp only [stop, tokenEnd, tokenStart]
  omega

end Hit

namespace Matcher

variable {matcher : Matcher} {text : List Char} {hit : Hit}

/-- A hit starts where it is looked for. -/
theorem start_of_hitAt? {offset : Nat} (h : matcher.hitAt? offset text = some hit) :
    hit.start = offset := by
  simp only [hitAt?, List.findSome?_eq_some_iff, Option.bind_eq_some_iff,
    Option.map_eq_some_iff] at h
  obtain ⟨-, -, -, -, ⟨-, -, -, -, -, -, ⟨-, -, -, -, ⟨-, -, -, -, rfl⟩, -⟩, -⟩, -⟩ := h
  rfl

/-- A hit is found at one of the places behind what is skipped. -/
theorem exists_hitAt?_of_mem_hitsFrom {skip offset : Nat}
    (h : hit ∈ matcher.hitsFrom skip offset text) :
    ∃ before rest, text = before ++ rest ∧ skip ≤ before.length ∧ rest ≠ [] ∧
      matcher.hitAt? (offset + before.length) rest = some hit := by
  induction text generalizing skip offset with
  | nil => simp [hitsFrom] at h
  | cons c rest ih =>
      have hbehind {skip' : Nat} (hskip : skip ≤ skip' + 1)
          (h : hit ∈ matcher.hitsFrom skip' (offset + 1) rest) :
          ∃ before behind, c :: rest = before ++ behind ∧ skip ≤ before.length ∧ behind ≠ [] ∧
            matcher.hitAt? (offset + before.length) behind = some hit := by
        obtain ⟨before, behind, rfl, hlength, hne, hfound⟩ := ih h
        refine ⟨c :: before, behind, rfl, by rw [List.length_cons]; omega, hne, ?_⟩
        rwa [List.length_cons, Nat.add_comm before.length 1, ← Nat.add_assoc]
      unfold hitsFrom at h
      cases skip with
      | succ skip => exact hbehind (Nat.le_refl _) h
      | zero =>
          cases hfound : matcher.hitAt? offset (c :: rest) with
          | none =>
              rw [hfound] at h
              exact hbehind (Nat.zero_le _) h
          | some found =>
              rw [hfound] at h
              rcases List.mem_cons.mp h with rfl | h
              · exact ⟨[], c :: rest, rfl, Nat.le_refl _, List.cons_ne_nil _ _, hfound⟩
              · exact hbehind (Nat.zero_le _) h

/-- No hit starts in what is skipped. -/
theorem le_start_of_mem_hitsFrom {skip offset : Nat} (h : hit ∈ matcher.hitsFrom skip offset text) :
    offset + skip ≤ hit.start := by
  obtain ⟨before, rest, -, hskip, -, hfound⟩ := exists_hitAt?_of_mem_hitsFrom h
  rw [start_of_hitAt? hfound]
  exact Nat.add_le_add_left hskip offset

/-- Of the hits in a text each one ends before the next one begins. -/
theorem pairwise_hitsFrom (matcher : Matcher) (skip offset : Nat) (text : List Char) :
    (matcher.hitsFrom skip offset text).Pairwise fun first second =>
      first.stop ≤ second.start := by
  induction text generalizing skip offset with
  | nil => exact List.Pairwise.nil
  | cons c rest ih =>
      unfold hitsFrom
      cases skip with
      | succ skip => exact ih ..
      | zero =>
          cases hfound : matcher.hitAt? offset (c :: rest) with
          | none => exact ih ..
          | some found =>
              refine List.pairwise_cons.mpr ⟨fun next hnext => ?_, ih ..⟩
              -- What is left of the text of the hit is skipped.
              have hstart := start_of_hitAt? hfound
              have hskip := le_start_of_mem_hitsFrom hnext
              rw [Hit.stop_eq]
              omega

/-- Of the hits in a text each one ends before the next one begins. -/
theorem pairwise_hits (matcher : Matcher) (text : List Char) :
    (matcher.hits text).Pairwise fun first second => first.stop ≤ second.start :=
  pairwise_hitsFrom matcher 0 0 text

end Matcher

end CommentIndex
