import CommentIndex.Text.Blank
import CommentIndex.Text.Lines

/-!
# Lines of one text behind another

Where the lines of a text begin that consists of two: `breakEnds_append` takes its line ends from
the two, unless a carriage return and a line feed come together between them. An offset in the first
text lies on the line that it lies on there (`lineOf_append_left`), and one in the second as many
lines further as the first text has line ends (`lineOf_append_right`). If the first text ends in a
line end, then a line begins between the two (`length_mem_lineStarts`).
-/

namespace CommentIndex.Text

/-- How many line ends a text has. -/
def lineEnds (text : List Char) : Nat :=
  (breakEnds 0 text).length

/-- No line end begins in the first of two texts and ends in the second. -/
def Parted (first second : List Char) : Prop :=
  first.getLast? = some '\r' → second.head? ≠ some '\n'

variable {first second text : List Char} {c : Char} {offset start : Nat}

/-- The end of a text is that of what stands behind its first character. -/
theorem Parted.of_cons (h : Parted (c :: first) second) : Parted first second := by
  intro hlast
  refine h ?_
  rw [List.getLast?_cons, hlast]
  rfl

/-- A line feed is the end of a line end. -/
theorem parted_lineFeed (first second : List Char) : Parted (first ++ ['\n']) second := by
  intro hlast
  rw [List.getLast?_concat] at hlast
  exact absurd (Option.some.inj hlast) (by decide)

/-- A character that is not the carriage return of a line end with a line feed ends a line by
itself or not at all. -/
theorem breakEnds_cons (hparted : Parted [c] text) (offset : Nat) :
    breakEnds offset (c :: text) =
      if c = '\r' ∨ c = '\n' then (offset + 1) :: breakEnds (offset + 1) text
      else breakEnds (offset + 1) text := by
  rw [breakEnds]
  rintro rest rfl rfl
  exact hparted rfl rfl

/-- The line ends of one text behind another. -/
theorem breakEnds_append (hparted : Parted first second) (offset : Nat) :
    breakEnds offset (first ++ second) =
      breakEnds offset first ++ breakEnds (offset + first.length) second := by
  have hhead {c : Char} {rest : List Char} (hparted : Parted (c :: rest) second)
      (h : ∀ behind, c = '\r' → rest = '\n' :: behind → False) :
      Parted [c] rest ∧ Parted [c] (rest ++ second) := by
    cases rest with
    | nil => exact ⟨fun _ hnext => by contradiction, hparted⟩
    | cons d rest =>
        have hne (hlast : [c].getLast? = some '\r') : some d ≠ some '\n' := by
          intro hd
          obtain rfl := Option.some.inj hd
          exact h rest (Option.some.inj hlast) rfl
        exact ⟨hne, hne⟩
  induction offset, first using breakEnds.induct with
  | case1 offset => rfl
  | case2 offset rest ih =>
      have hlength : offset + ('\r' :: '\n' :: rest).length = offset + 2 + rest.length := by
        simp only [List.length_cons]
        omega
      simp only [List.cons_append, breakEnds, ih hparted.of_cons.of_cons, hlength]
  | case3 offset c rest hsingle hend ih =>
      obtain ⟨halone, hbefore⟩ := hhead hparted hsingle
      have hlength : offset + (c :: rest).length = offset + 1 + rest.length := by
        rw [List.length_cons]
        omega
      rw [List.cons_append, breakEnds_cons halone, breakEnds_cons hbefore, if_pos hend, if_pos hend,
        ih hparted.of_cons, hlength, List.cons_append]
  | case4 offset c rest hsingle hend ih =>
      obtain ⟨halone, hbefore⟩ := hhead hparted hsingle
      have hlength : offset + (c :: rest).length = offset + 1 + rest.length := by
        rw [List.length_cons]
        omega
      rw [List.cons_append, breakEnds_cons halone, breakEnds_cons hbefore, if_neg hend, if_neg hend,
        ih hparted.of_cons, hlength]

/-- Line ends lie in their text. -/
theorem mem_breakEnds (h : offset ∈ breakEnds start text) :
    start < offset ∧ offset ≤ start + text.length := by
  induction start, text using breakEnds.induct with
  | case1 start => simp [breakEnds] at h
  | case2 start rest ih =>
      rw [breakEnds, List.mem_cons] at h
      rw [List.length_cons, List.length_cons]
      rcases h with rfl | h
      · omega
      · have := ih h
        omega
  | case3 start c rest hsingle hend ih =>
      rw [breakEnds.eq_3 _ _ _ hsingle, if_pos hend, List.mem_cons] at h
      rw [List.length_cons]
      rcases h with rfl | h
      · omega
      · have := ih h
        omega
  | case4 start c rest hsingle hend ih =>
      rw [breakEnds.eq_3 _ _ _ hsingle, if_neg hend] at h
      have := ih h
      rw [List.length_cons]
      omega

/-- In front of the start of a line stands the end of another one. -/
theorem exists_lineEnd_of_mem_breakEnds (h : offset ∈ breakEnds start text) :
    ∃ front c behind, text = front ++ c :: behind ∧ offset = start + front.length + 1 ∧
      (c = '\r' ∨ c = '\n') := by
  induction start, text using breakEnds.induct with
  | case1 start => simp [breakEnds] at h
  | case2 start rest ih =>
      rw [breakEnds, List.mem_cons] at h
      rcases h with rfl | h
      · exact ⟨['\r'], '\n', rest, rfl, rfl, .inr rfl⟩
      · obtain ⟨front, c, behind, rfl, rfl, hc⟩ := ih h
        exact ⟨'\r' :: '\n' :: front, c, behind, rfl, by simp only [List.length_cons]; omega, hc⟩
  | case3 start c rest hsingle hend ih =>
      rw [breakEnds.eq_3 _ _ _ hsingle, if_pos hend, List.mem_cons] at h
      rcases h with rfl | h
      · exact ⟨[], c, rest, rfl, rfl, hend⟩
      · obtain ⟨front, d, behind, rfl, rfl, hd⟩ := ih h
        exact ⟨c :: front, d, behind, rfl, by simp only [List.length_cons]; omega, hd⟩
  | case4 start c rest hsingle hend ih =>
      rw [breakEnds.eq_3 _ _ _ hsingle, if_neg hend] at h
      obtain ⟨front, d, behind, rfl, rfl, hd⟩ := ih h
      exact ⟨c :: front, d, behind, rfl, by simp only [List.length_cons]; omega, hd⟩

/-- A text that stands further behind has its line ends further behind. -/
theorem breakEnds_add (text : List Char) (start count : Nat) :
    breakEnds (start + count) text = (breakEnds start text).map (· + count) := by
  induction start, text using breakEnds.induct with
  | case1 start => rfl
  | case2 start rest ih =>
      simp only [breakEnds, List.map_cons, ← ih, Nat.add_right_comm]
  | case3 start c rest hsingle hend ih =>
      simp only [breakEnds.eq_3 _ _ _ hsingle, if_pos hend, List.map_cons, ← ih,
        Nat.add_right_comm]
  | case4 start c rest hsingle hend ih =>
      simp only [breakEnds.eq_3 _ _ _ hsingle, if_neg hend, ← ih, Nat.add_right_comm]

/-- Where the lines begin of one text behind another. -/
theorem lineStarts_append (hparted : Parted first second) :
    lineStarts (first ++ second) =
      lineStarts first ++ (breakEnds 0 second).map (· + first.length) := by
  rw [lineStarts, breakEnds_append hparted, breakEnds_add]
  rfl

/-- What stands behind a text makes no difference to the lines in it. -/
theorem lineOf_append_left (hparted : Parted first second) (h : offset ≤ first.length) :
    lineOf (lineStarts (first ++ second)) offset = lineOf (lineStarts first) offset := by
  have hbehind : ((breakEnds 0 second).map (· + first.length)).countP (· ≤ offset) = 0 := by
    rw [List.countP_eq_zero]
    intro last hlast
    obtain ⟨place, hplace, rfl⟩ := List.mem_map.mp hlast
    have := (mem_breakEnds hplace).1
    simp
    omega
  rw [lineOf, lineStarts_append hparted, List.countP_append, hbehind]
  rfl

/-- The lines of a text that stands behind another come behind all lines of that. -/
theorem lineOf_append_right (hparted : Parted first second) (offset : Nat) :
    lineOf (lineStarts (first ++ second)) (offset + first.length) =
      lineOf (lineStarts second) offset + lineEnds first := by
  have hbefore : (breakEnds 0 first).countP (· ≤ offset + first.length) = lineEnds first := by
    refine List.countP_eq_length.mpr fun last hlast => ?_
    have := (mem_breakEnds hlast).2
    simp
    omega
  have hbehind : ((breakEnds 0 second).map (· + first.length)).countP
      (· ≤ offset + first.length) = (breakEnds 0 second).countP (· ≤ offset) := by
    rw [List.countP_map]
    congr 1
    funext place
    simp
  rw [lineOf, lineStarts_append hparted, List.countP_append, hbehind, lineOf, lineStarts,
    lineStarts, List.countP_cons_of_pos (by simp), List.countP_cons_of_pos (by simp), hbefore]
  omega

/-- A line end behind a text makes no difference to the lines in it, whether or not it is taken
together with what the text ends in. -/
theorem lineOf_append_lineFeed {rest : List Char}
    (h : offset ≤ text.length) (hlast : text.getLast? = some '\r' → offset < text.length) :
    lineOf (lineStarts (text ++ '\n' :: rest)) offset = lineOf (lineStarts text) offset := by
  by_cases hreturn : text.getLast? = some '\r'
  · obtain ⟨front, rfl⟩ := List.getLast?_eq_some_iff.mp hreturn
    have hfront : offset ≤ front.length := by
      have := hlast hreturn
      rw [List.length_append] at this
      exact Nat.le_of_lt_succ this
    have hparted (ending : List Char) : Parted front ('\r' :: ending) := fun _ => by simp
    rw [List.append_assoc, List.cons_append, lineOf_append_left (hparted _) hfront,
      lineOf_append_left (hparted _) hfront]
  · exact lineOf_append_left (fun hends => absurd hends hreturn) h

/-- A line end that a text ends in ends with the text. -/
theorem length_mem_breakEnds (start : Nat) (hlast : text.getLast? = some c)
    (hc : c = '\r' ∨ c = '\n') : start + text.length ∈ breakEnds start text := by
  -- The last line end is met when no more is left behind it.
  have hrest {d : Char} {rest : List Char} (hlast : (d :: rest).getLast? = some c) :
      (rest = [] ∧ d = c) ∨ rest.getLast? = some c := by
    cases rest with
    | nil => exact .inl ⟨rfl, Option.some.inj hlast⟩
    | cons e rest => exact .inr hlast
  induction start, text using breakEnds.induct with
  | case1 start => contradiction
  | case2 start rest ih =>
      rw [breakEnds, List.length_cons, List.length_cons]
      rcases hrest hlast with ⟨hnil, -⟩ | hlast
      · contradiction
      · rcases hrest hlast with ⟨rfl, -⟩ | hlast
        · exact List.mem_cons_self
        · refine List.mem_cons_of_mem _ ?_
          have := ih hlast
          rwa [Nat.add_right_comm] at this
  | case3 start d rest hsingle hend ih =>
      rw [breakEnds.eq_3 _ _ _ hsingle, if_pos hend, List.length_cons]
      rcases hrest hlast with ⟨rfl, -⟩ | hlast
      · exact List.mem_cons_self
      · refine List.mem_cons_of_mem _ ?_
        have := ih hlast
        rwa [Nat.add_right_comm] at this
  | case4 start d rest hsingle hend ih =>
      rw [breakEnds.eq_3 _ _ _ hsingle, if_neg hend, List.length_cons]
      rcases hrest hlast with ⟨-, rfl⟩ | hlast
      · exact absurd hc hend
      · have := ih hlast
        rwa [Nat.add_right_comm] at this

/-- A line begins behind each line end, if that is not the first half of one. -/
theorem length_mem_lineStarts (hparted : Parted first second)
    (hlast : ∀ c ∈ first.getLast?, isLineEnd c = true) :
    first.length ∈ lineStarts (first ++ second) := by
  rw [lineStarts_append hparted]
  refine List.mem_append_left _ ?_
  cases hc : first.getLast? with
  | none =>
      obtain rfl := List.getLast?_eq_none_iff.mp hc
      exact List.mem_cons_self
  | some c =>
      have hend : c = '\r' ∨ c = '\n' := by simpa [isLineEnd] using hlast c hc
      have := length_mem_breakEnds 0 hc hend
      rw [Nat.zero_add] at this
      exact List.mem_cons_of_mem _ this

/-- Every offset lies on a line. -/
theorem lineOf_pos (text : List Char) (offset : Nat) : 0 < lineOf (lineStarts text) offset := by
  rw [lineOf, lineStarts, List.countP_cons_of_pos (by simp)]
  exact Nat.succ_pos _

/-- An offset before the start of a line lies on an earlier line than one behind it. -/
theorem lineOf_lt {starts : List Nat} {earlier later : Nat} (h : start ∈ starts)
    (hearlier : earlier < start) (hlater : start ≤ later) :
    lineOf starts earlier < lineOf starts later := by
  obtain ⟨before, after, rfl⟩ := List.append_of_mem h
  have hle : earlier ≤ later := Nat.le_trans (Nat.le_of_lt hearlier) hlater
  have hbefore := lineOf_mono before hle
  have hafter := lineOf_mono after hle
  have hnot : ¬ start ≤ earlier := Nat.not_le.mpr hearlier
  simp only [lineOf, List.countP_append, List.countP_cons, hlater, hnot, decide_true, decide_false,
    if_true, Bool.false_eq_true, if_false] at hbefore hafter ⊢
  omega

/-- Two offsets with no end of a line between them lie on one line. -/
theorem lineOf_eq_of_noLineEnd {before middle after : List Char}
    (hmiddle : ∀ c ∈ middle, c ≠ '\r' ∧ c ≠ '\n') :
    lineOf (lineStarts (before ++ (middle ++ after))) (before.length + middle.length) =
      lineOf (lineStarts (before ++ (middle ++ after))) before.length := by
  refine List.countP_congr fun start hstart => ?_
  simp only [decide_eq_true_eq]
  refine ⟨fun hle => ?_, fun hle => Nat.le_trans hle (Nat.le_add_right ..)⟩
  rcases List.mem_cons.mp hstart with rfl | hstart
  · exact Nat.zero_le _
  · -- The line end in front of a line that starts later would stand in the middle.
    obtain ⟨front, c, behind, htext, rfl, hc⟩ := exists_lineEnd_of_mem_breakEnds hstart
    refine Nat.le_of_not_lt fun hlate => ?_
    have hfound : (before ++ (middle ++ after))[front.length]? = some c := by
      rw [htext, List.getElem?_append_right (Nat.le_refl _), Nat.sub_self]
      rfl
    rw [List.getElem?_append_right (by omega), List.getElem?_append_left (by omega)] at hfound
    obtain ⟨hreturn, hfeed⟩ := hmiddle c (List.mem_of_getElem? hfound)
    exact hc.elim hreturn hfeed

end CommentIndex.Text
