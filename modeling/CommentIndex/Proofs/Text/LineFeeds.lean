import CommentIndex.Proofs.Text.Lines
import CommentIndex.Text.Encoding

/-!
# Lines counted by line feeds

How the number of a line compares with the number of line feeds before it: `lineOf_eq` says that
the two differ by the carriage returns that end a line by themselves. A text as it is read from a
file has none, since all its line ends are written as line feeds (`return_notMem_withLineFeeds`).
-/

namespace CommentIndex.Text

/-- How many carriage returns before an offset end a line by themselves. -/
def loneReturnsBefore (text : List Char) (offset : Nat) : Nat :=
  (List.range offset).countP fun place =>
    text[place]? = some '\r' ∧ text[place + 1]? ≠ some '\n'

variable {text : List Char} {c : Char} {offset : Nat}

/-- The lone carriage returns behind the first character, and that character if it is one. -/
theorem loneReturnsBefore_cons (c : Char) (text : List Char) (offset : Nat) :
    loneReturnsBefore (c :: text) (offset + 1) =
      (if c = '\r' ∧ text.head? ≠ some '\n' then 1 else 0) + loneReturnsBefore text offset := by
  unfold loneReturnsBefore
  rw [List.range_succ_eq_map, List.countP_cons, List.countP_map, Nat.add_comm]
  congr 1
  simp [List.head?_eq_getElem?]

/-- No line end ends before its text or at the start of it. -/
theorem countP_breakEnds_before (text : List Char) {start place : Nat} (h : place ≤ start) :
    (breakEnds start text).countP (· ≤ place) = 0 := by
  rw [List.countP_eq_zero]
  intro last hlast
  have := (mem_breakEnds hlast).1
  simp
  omega

/-- The line ends up to an offset are the line feeds before it and the lone carriage returns. -/
theorem countP_breakEnds (text : List Char) (start offset : Nat) :
    (breakEnds start text).countP (· ≤ start + offset) =
      (text.take offset).count '\n' + loneReturnsBefore text offset := by
  have hzero (start : Nat) (text : List Char) :
      (breakEnds start text).countP (· ≤ start + 0) =
        (text.take 0).count '\n' + loneReturnsBefore text 0 :=
    countP_breakEnds_before text (Nat.le_refl start)
  induction start, text using breakEnds.induct generalizing offset with
  | case1 start => simp [breakEnds, loneReturnsBefore]
  | case2 start rest ih =>
      cases offset with
      | zero => exact hzero _ _
      | succ offset =>
          rw [loneReturnsBefore_cons, if_neg (by simp), breakEnds]
          cases offset with
          | zero =>
              -- The offset is that of the line feed, with which the line does not yet end.
              rw [List.countP_cons_of_neg (by simp), countP_breakEnds_before rest (by omega)]
              rfl
          | succ offset =>
              have hoffset : start + (offset + 1 + 1) = start + 2 + offset := by omega
              rw [loneReturnsBefore_cons, if_neg (by simp), hoffset,
                List.countP_cons_of_pos (by simp), ih]
              simp
              omega
  | case3 start c rest hsingle hend ih =>
      cases offset with
      | zero => exact hzero _ _
      | succ offset =>
          have hoffset : start + (offset + 1) = start + 1 + offset := by omega
          rw [breakEnds.eq_3 _ _ _ hsingle, if_pos hend, loneReturnsBefore_cons, hoffset,
            List.countP_cons_of_pos (by simp), ih, List.take_succ_cons, List.count_cons]
          rcases hend with rfl | rfl
          · have hnext : rest.head? ≠ some '\n' := by
              intro hhead
              obtain ⟨behind, rfl⟩ := List.head?_eq_some_iff.mp hhead
              exact hsingle behind rfl rfl
            simp [hnext]
            omega
          · simp
            omega
  | case4 start c rest hsingle hend ih =>
      cases offset with
      | zero => exact hzero _ _
      | succ offset =>
          have hne : c ≠ '\n' := fun hc => hend (.inr hc)
          have hoffset : start + (offset + 1) = start + 1 + offset := by omega
          rw [breakEnds.eq_3 _ _ _ hsingle, if_neg hend, loneReturnsBefore_cons, hoffset, ih,
            List.take_succ_cons, List.count_cons_of_ne hne, if_neg (fun h => hend (.inl h.1)),
            Nat.zero_add]

/-- The number of a line is one more than that of the line feeds and lone carriage returns before
it. -/
theorem lineOf_eq (text : List Char) (offset : Nat) :
    lineOf (lineStarts text) offset =
      (text.take offset).count '\n' + loneReturnsBefore text offset + 1 := by
  have := countP_breakEnds text 0 offset
  rw [Nat.zero_add] at this
  rw [lineOf, lineStarts, List.countP_cons_of_pos (by simp), this]

/-- A line is among those that the line feeds of its text make if and only if no more lone carriage
returns stand before an offset on it than line feeds behind that. -/
theorem lineOf_le_iff (text : List Char) (offset : Nat) :
    lineOf (lineStarts text) offset ≤ text.count '\n' + 1 ↔
      loneReturnsBefore text offset ≤ (text.drop offset).count '\n' := by
  have hsplit : (text.take offset).count '\n' + (text.drop offset).count '\n' =
      text.count '\n' := by
    rw [← List.count_append, List.take_append_drop]
  rw [lineOf_eq, ← hsplit]
  omega

/-! ## Texts of files -/

/-- A text whose line ends are written as line feeds has no carriage return. -/
theorem return_notMem_withLineFeeds (text : List Char) : '\r' ∉ withLineFeeds text := by
  induction text using withLineFeeds.induct with
  | case1 => simp [withLineFeeds]
  | case2 rest ih => simp [withLineFeeds, ih]
  | case3 c rest hsingle ih =>
      rw [withLineFeeds.eq_3 _ _ hsingle, List.mem_cons]
      rintro (hhead | hbehind)
      · split at hhead
        · contradiction
        · next hne => exact hne hhead.symm
      · exact ih hbehind

/-- A text without carriage returns has no lone one. -/
theorem loneReturnsBefore_eq_zero (h : '\r' ∉ text) (offset : Nat) :
    loneReturnsBefore text offset = 0 := by
  refine List.countP_eq_zero.mpr fun place _ => ?_
  intro hplace
  exact h (List.mem_of_getElem? (of_decide_eq_true hplace).1)

end CommentIndex.Text
