import CommentIndex.Proofs.Text.Lines
import Mathlib.Data.Set.Card

/-!
# Numbers of lines

A line ends in a carriage return with a line feed behind it, or in one of the two by itself, as
`EndsLine` says of a text and two offsets of it. The table of line starts has one entry behind each
of these places, in ascending order, so the entries up to an offset may be found by halving the
table (`bisect_eq_countP`). The main statement, `lineOf_eq_ncard`, says that the number of a line is
one more than that of the line ends in front of it, and how it compares with the number that the
text up to the offset gives by itself.
-/

namespace CommentIndex.Text

/-- A line of a text ends in what stands between two offsets. -/
inductive EndsLine (text : List Char) : Nat → Nat → Prop where
  | both {start : Nat} (hreturn : text[start]? = some '\r') (hfeed : text[start + 1]? = some '\n') :
      EndsLine text start (start + 2)
  | loneReturn {start : Nat} (hreturn : text[start]? = some '\r')
      (hbehind : text[start + 1]? ≠ some '\n') : EndsLine text start (start + 1)
  | loneFeed {start : Nat} (hfeed : text[start]? = some '\n')
      (hbefore : ∀ before, start = before + 1 → text[before]? ≠ some '\r') :
      EndsLine text start (start + 1)

/-- The places at which the lines of a text end. -/
def lineBreaks (text : List Char) : Set (Nat × Nat) :=
  {place | EndsLine text place.1 place.2}

/-- How many entries of a table in ascending order lie at or before an offset, if the first `low` do
and none does from `high` on: an entry between the two tells on which side of it to go on. -/
def bisect (table : List Nat) (offset low high : Nat) : Nat :=
  if low < high then
    let middle := (low + high) / 2
    if table[middle]?.any (offset < ·) then bisect table offset low middle
    else bisect table offset (middle + 1) high
  else low
termination_by high - low

variable {text : List Char} {table : List Nat} {offset start stop low high : Nat}

/-! ## The table of line starts -/

/-- Behind a character stands an entry of the table if that is a line feed, or a carriage return
without one behind it. -/
theorem mem_breakEnds_iff (text : List Char) (offset last : Nat) :
    offset + (last + 1) ∈ breakEnds offset text ↔
      text[last]? = some '\n' ∨ text[last]? = some '\r' ∧ text[last + 1]? ≠ some '\n' := by
  have hfront {place start : Nat} (rest : List Char) (h : place ≤ start) :
      place ∉ breakEnds start rest :=
    fun hmem => Nat.not_lt.mpr h (mem_breakEnds hmem).1
  induction offset, text using breakEnds.induct generalizing last with
  | case1 offset => simp [breakEnds]
  | case2 offset rest ih =>
      rw [breakEnds, List.mem_cons]
      obtain _ | _ | last := last
      · simp [hfront rest (Nat.le_succ (offset + 1))]
      · simp
      · have hnext : offset + (last + 1 + 1 + 1) = offset + 2 + (last + 1) := by omega
        rw [hnext]
        simpa using ih last
  | case3 offset c rest hsingle hend ih =>
      rw [breakEnds.eq_3 _ _ _ hsingle, if_pos hend, List.mem_cons]
      cases last with
      | zero =>
          refine iff_of_true (.inl rfl) ?_
          rcases hend with rfl | rfl
          · refine .inr ⟨rfl, fun hfeed => ?_⟩
            obtain ⟨behind, rfl⟩ := List.head?_eq_some_iff.mp (List.head?_eq_getElem?.trans hfeed)
            exact hsingle behind rfl rfl
          · exact .inl rfl
      | succ last =>
          have hnext : offset + (last + 1 + 1) = offset + 1 + (last + 1) := by omega
          rw [hnext]
          simpa using ih last
  | case4 offset c rest hsingle hend ih =>
      rw [breakEnds.eq_3 _ _ _ hsingle, if_neg hend]
      cases last with
      | zero =>
          refine iff_of_false (hfront rest (Nat.le_refl _)) ?_
          rintro (hfeed | ⟨hreturn, -⟩)
          · exact hend (.inr (Option.some.inj hfeed))
          · exact hend (.inl (Option.some.inj hreturn))
      | succ last =>
          have hnext : offset + (last + 1 + 1) = offset + 1 + (last + 1) := by omega
          rw [hnext]
          simpa using ih last

/-- A line ends in front of an offset if that is behind a line feed, or behind a carriage return
without one behind it. -/
theorem exists_endsLine_iff :
    (∃ start, EndsLine text start stop) ↔ ∃ last, stop = last + 1 ∧
      (text[last]? = some '\n' ∨ text[last]? = some '\r' ∧ text[last + 1]? ≠ some '\n') := by
  constructor
  · rintro ⟨start, hends⟩
    cases hends with
    | both _ hfeed => exact ⟨start + 1, rfl, .inl hfeed⟩
    | loneReturn hreturn hbehind => exact ⟨start, rfl, .inr ⟨hreturn, hbehind⟩⟩
    | loneFeed hfeed _ => exact ⟨start, rfl, .inl hfeed⟩
  · rintro ⟨last, rfl, hfeed | ⟨hreturn, hbehind⟩⟩
    · by_cases hboth : ∃ before, last = before + 1 ∧ text[before]? = some '\r'
      · obtain ⟨before, rfl, hreturn⟩ := hboth
        exact ⟨before, .both hreturn hfeed⟩
      · exact ⟨last, .loneFeed hfeed fun before heq hreturn => hboth ⟨before, heq, hreturn⟩⟩
    · exact ⟨last, .loneReturn hreturn hbehind⟩

/-- The table has an entry wherever a line ends, and no other ones. -/
theorem mem_breakEnds_iff_exists : stop ∈ breakEnds 0 text ↔ ∃ start, EndsLine text start stop := by
  rw [exists_endsLine_iff]
  constructor
  · intro h
    obtain ⟨last, rfl⟩ := Nat.exists_eq_add_of_lt (mem_breakEnds h).1
    refine ⟨0 + last, rfl, ?_⟩
    rw [Nat.zero_add]
    exact (mem_breakEnds_iff text 0 last).mp h
  · rintro ⟨last, rfl, hlast⟩
    rw [← Nat.zero_add (last + 1)]
    exact (mem_breakEnds_iff text 0 last).mpr hlast

/-- Two ends of lines that stop at one place are the same. -/
theorem EndsLine.start_unique {other : Nat} (h : EndsLine text start stop)
    (hother : EndsLine text other stop) : start = other := by
  generalize hstop : stop = stop' at hother
  cases h with
  | both hreturn hfeed =>
      cases hother with
      | both => omega
      | loneReturn hreturn' =>
          obtain rfl : start + 1 = other := by omega
          rw [hfeed] at hreturn'
          exact absurd (Option.some.inj hreturn') (by decide)
      | loneFeed _ hbefore => exact absurd hreturn (hbefore start (by omega))
  | loneReturn hreturn hbehind =>
      cases hother with
      | both _ hfeed' =>
          obtain rfl : start = other + 1 := by omega
          rw [hreturn] at hfeed'
          exact absurd (Option.some.inj hfeed') (by decide)
      | loneReturn => omega
      | loneFeed => omega
  | loneFeed hfeed hbefore =>
      cases hother with
      | both hreturn' => exact absurd hreturn' (hbefore other (by omega))
      | loneReturn => omega
      | loneFeed => omega

/-- The table is in ascending order. -/
theorem pairwise_breakEnds (offset : Nat) (text : List Char) :
    (breakEnds offset text).Pairwise (· < ·) := by
  induction offset, text using breakEnds.induct with
  | case1 offset => exact .nil
  | case2 offset rest ih =>
      rw [breakEnds]
      exact .cons (fun stop hstop => (mem_breakEnds hstop).1) ih
  | case3 offset c rest hsingle hend ih =>
      rw [breakEnds.eq_3 _ _ _ hsingle, if_pos hend]
      exact .cons (fun stop hstop => (mem_breakEnds hstop).1) ih
  | case4 offset c rest hsingle hend ih =>
      rw [breakEnds.eq_3 _ _ _ hsingle, if_neg hend]
      exact ih

/-- The line starts of a text are in ascending order. -/
theorem pairwise_lineStarts (text : List Char) : (lineStarts text).Pairwise (· < ·) :=
  .cons (fun _ hstop => (mem_breakEnds hstop).1) (pairwise_breakEnds 0 text)

/-! ## Halving the table -/

/-- In a table, all that comes before a place lies at or before an offset, and nothing does from
another place on. -/
structure Encloses (table : List Nat) (offset low high : Nat) : Prop where
  ordered : low ≤ high
  inside : high ≤ table.length
  before : ∀ entry ∈ table.take low, entry ≤ offset
  behind : ∀ entry ∈ table.drop high, offset < entry

/-- Where the two places meet, as many entries lie at or before the offset as stand before them. -/
theorem Encloses.countP_eq (h : Encloses table offset low low) :
    table.countP (· ≤ offset) = low := by
  have hbefore : (table.take low).countP (· ≤ offset) = (table.take low).length :=
    List.countP_eq_length.mpr fun entry hentry => decide_eq_true (h.before entry hentry)
  have hbehind : (table.drop low).countP (· ≤ offset) = 0 :=
    List.countP_eq_zero.mpr fun entry hentry => by simpa using h.behind entry hentry
  conv_lhs => rw [← List.take_append_drop low table]
  rw [List.countP_append, hbefore, hbehind, List.length_take, Nat.min_eq_left h.inside,
    Nat.add_zero]

/-- In ascending order, the entries before a place are less than the one there, and those behind it
greater. -/
theorem pairwise_middle (hsorted : table.Pairwise (· < ·)) {middle : Nat}
    (hmiddle : middle < table.length) :
    (∀ entry ∈ table.take middle, entry < table[middle]) ∧
      ∀ entry ∈ table.drop (middle + 1), table[middle] < entry := by
  rw [← List.take_append_drop middle table, List.drop_eq_getElem_cons hmiddle,
    List.pairwise_append, List.pairwise_cons] at hsorted
  exact ⟨fun entry hentry => hsorted.2.2 entry hentry _ List.mem_cons_self, hsorted.2.1.1⟩

/-- Halving a table in ascending order finds how many of its entries lie at or before an offset. -/
theorem bisect_eq_countP (hsorted : table.Pairwise (· < ·)) (h : Encloses table offset low high) :
    bisect table offset low high = table.countP (· ≤ offset) := by
  -- What is left between the two places shrinks, and they enclose the answer all the time.
  fun_induction bisect table offset low high with
  | case1 low high hlow middle hany ih =>
      have hmiddle : middle < table.length := by
        have := h.inside
        omega
      obtain ⟨-, hgreater⟩ := pairwise_middle hsorted hmiddle
      rw [List.getElem?_eq_getElem hmiddle, Option.any_some, decide_eq_true_eq] at hany
      refine ih ⟨by omega, Nat.le_of_lt hmiddle, h.before, fun entry hentry => ?_⟩
      rw [List.drop_eq_getElem_cons hmiddle] at hentry
      rcases List.mem_cons.mp hentry with rfl | hentry
      · exact hany
      · exact Nat.lt_trans hany (hgreater entry hentry)
  | case2 low high hlow middle hany ih =>
      have hmiddle : middle < table.length := by
        have := h.inside
        omega
      obtain ⟨hless, -⟩ := pairwise_middle hsorted hmiddle
      rw [List.getElem?_eq_getElem hmiddle, Option.any_some, decide_eq_true_eq,
        Nat.not_lt] at hany
      refine ih ⟨by omega, h.inside, fun entry hentry => ?_, h.behind⟩
      rw [List.take_succ_eq_append_getElem hmiddle] at hentry
      rcases List.mem_append.mp hentry with hentry | hentry
      · exact Nat.le_trans (Nat.le_of_lt (hless entry hentry)) hany
      · obtain rfl := List.mem_singleton.mp hentry
        exact hany
  | case3 low high hlow =>
      obtain rfl : low = high := Nat.le_antisymm h.ordered (Nat.not_lt.mp hlow)
      exact h.countP_eq.symm

/-- A whole table encloses the answer. -/
theorem encloses_all (table : List Nat) (offset : Nat) :
    Encloses table offset 0 table.length where
  ordered := Nat.zero_le _
  inside := Nat.le_refl _
  before := by simp
  behind := by simp

/-! ## Line ends in front of an offset -/

/-- The line ends of a text stop at different places. -/
theorem injOn_lineBreaks (text : List Char) : Set.InjOn Prod.snd (lineBreaks text) := by
  rintro ⟨start, stop⟩ h ⟨other, stop'⟩ hother hstop
  obtain rfl : stop = stop' := hstop
  exact congrArg (·, stop) (EndsLine.start_unique h hother)

/-- The places where line ends stop are the entries of the table. -/
theorem image_lineBreaks (text : List Char) (keep : Nat → Bool) :
    Prod.snd '' {place ∈ lineBreaks text | keep place.2} =
      ((breakEnds 0 text).filter keep).toFinset := by
  ext stop
  rw [List.coe_toFinset]
  show _ ↔ stop ∈ (breakEnds 0 text).filter keep
  rw [List.mem_filter, mem_breakEnds_iff_exists]
  constructor
  · rintro ⟨⟨start, stop⟩, ⟨hends, hkeep⟩, rfl⟩
    exact ⟨⟨start, hends⟩, hkeep⟩
  · rintro ⟨⟨start, hends⟩, hkeep⟩
    exact ⟨(start, stop), ⟨hends, hkeep⟩, rfl⟩

/-- A text has finitely many line ends. -/
theorem finite_lineBreaks (text : List Char) : (lineBreaks text).Finite := by
  refine Set.Finite.of_finite_image ?_ (injOn_lineBreaks text)
  have himage := image_lineBreaks text fun _ => true
  simp only [and_true, Set.ofPred_mem_eq] at himage
  rw [himage]
  exact Finset.finite_toSet _

/-- Counting line ends by where they stop is counting entries of the table. -/
theorem ncard_lineBreaks_of (text : List Char) (keep : Nat → Bool) :
    {place ∈ lineBreaks text | keep place.2}.ncard = (breakEnds 0 text).countP keep := by
  have hnodup : (breakEnds 0 text).Nodup :=
    (pairwise_breakEnds 0 text).imp fun hlt => Nat.ne_of_lt hlt
  calc {place ∈ lineBreaks text | keep place.2}.ncard
      = (Prod.snd '' {place ∈ lineBreaks text | keep place.2}).ncard :=
        (Set.InjOn.ncard_image ((injOn_lineBreaks text).mono (Set.sep_subset _ _))).symm
    _ = ((breakEnds 0 text).filter keep).toFinset.card := by
        rw [image_lineBreaks, Set.ncard_coe_finset]
    _ = ((breakEnds 0 text).filter keep).length :=
        List.toFinset_card_of_nodup (hnodup.filter keep)
    _ = (breakEnds 0 text).countP keep := List.countP_eq_length_filter.symm

/-- A text has as many line ends as its table has entries. -/
theorem ncard_lineBreaks (text : List Char) : (lineBreaks text).ncard = lineEnds text := by
  have hall := ncard_lineBreaks_of text fun _ => true
  simpa only [and_true, Set.ofPred_mem_eq, List.countP_true, lineEnds] using hall

/-- The first line begins with the text, and each other one where a line ends. -/
theorem lineOf_eq_countP (text : List Char) (offset : Nat) :
    lineOf (lineStarts text) offset = 1 + (breakEnds 0 text).countP (· ≤ offset) := by
  rw [lineOf, lineStarts, List.countP_cons_of_pos (by simp), Nat.add_comm]

/-- Behind a text all its lines have begun. -/
theorem lineOf_of_length_le (h : text.length ≤ offset) :
    lineOf (lineStarts text) offset = 1 + lineEnds text := by
  rw [lineOf_eq_countP, lineEnds, List.countP_eq_length.mpr]
  intro stop hstop
  have := (mem_breakEnds hstop).2
  exact decide_eq_true (by omega)

/-- The text up to an offset has the line ends in front of it, unless one is cut in two there. -/
theorem lineOf_of_parted (h : Parted (text.take offset) (text.drop offset)) :
    lineOf (lineStarts text) offset = 1 + lineEnds (text.take offset) := by
  rcases Nat.le_total text.length offset with hlength | hlength
  · rw [List.take_of_length_le hlength, lineOf_of_length_le hlength]
  · have htake : (text.take offset).length = offset := by
      rw [List.length_take, Nat.min_eq_left hlength]
    conv_lhs => rw [← List.take_append_drop offset text]
    rw [lineOf_append_left h (Nat.le_of_eq htake.symm), lineOf_of_length_le (Nat.le_of_eq htake)]

/-- Between the two characters of a line end, the text up to there has one more. -/
theorem lineOf_of_not_parted (h : ¬ Parted (text.take offset) (text.drop offset)) :
    lineOf (lineStarts text) offset = lineEnds (text.take offset) := by
  unfold Parted at h
  push Not at h
  obtain ⟨hreturn, hfeed⟩ := h
  obtain ⟨front, hfront⟩ := List.getLast?_eq_some_iff.mp hreturn
  obtain ⟨rest, hrest⟩ := List.head?_eq_some_iff.mp hfeed
  have htext : text = front ++ '\r' :: '\n' :: rest := by
    rw [← List.take_append_drop offset text, hfront, hrest, List.append_assoc]
    rfl
  have hoffset : offset = front.length + 1 := by
    have htake := congrArg List.length hfront
    have hdrop := congrArg List.length hrest
    simp only [List.length_take, List.length_drop, List.length_append, List.length_cons,
      List.length_nil] at htake hdrop
    omega
  -- All line ends of the front have stopped, and the one that is cut in two has not.
  have hbefore : (breakEnds 0 front).countP (· ≤ offset) = lineEnds front := by
    refine List.countP_eq_length.mpr fun stop hstop => ?_
    have := (mem_breakEnds hstop).2
    exact decide_eq_true (by omega)
  have hbehind : (breakEnds (0 + front.length) ('\r' :: '\n' :: rest)).countP (· ≤ offset) = 0 := by
    refine List.countP_eq_zero.mpr fun stop hstop => ?_
    rw [breakEnds, List.mem_cons] at hstop
    have hlate : offset < stop := by
      rcases hstop with rfl | hstop
      · omega
      · have := (mem_breakEnds hstop).1
        omega
    simpa using hlate
  have hcut : lineEnds (front ++ ['\r']) = lineEnds front + 1 := by
    have hparted : Parted front ['\r'] := fun _ => by simp
    rw [lineEnds, breakEnds_append hparted, List.length_append, lineEnds]
    rfl
  have hparted : Parted front ('\r' :: '\n' :: rest) := fun _ => by simp
  rw [lineOf_eq_countP, hfront, hcut, htext, breakEnds_append hparted, List.countP_append, hbefore,
    hbehind]
  omega

/-- The number of the line on which an offset lies is one more than that of the line ends that stop
at it or in front of it, and halving the table of line starts finds it. It does not fall from one
offset to a later one, and goes from one to one more than the number of all line ends. The text up
to the offset gives the same number by itself, unless the offset is between a carriage return and
its line feed, where that text has one more line. -/
theorem lineOf_eq_ncard (text : List Char) (offset : Nat) :
    let line := lineOf (lineStarts text)
    let early := text.take offset
    (lineBreaks text).Finite ∧
      line offset = 1 + {place ∈ lineBreaks text | place.2 ≤ offset}.ncard ∧
      line offset = bisect (lineStarts text) offset 0 (lineStarts text).length ∧
      (∀ later, offset ≤ later → line offset ≤ line later) ∧
      (1 ≤ line offset ∧ line offset ≤ 1 + (lineBreaks text).ncard) ∧
      (Parted early (text.drop offset) → line offset = 1 + (lineBreaks early).ncard) ∧
      (¬ Parted early (text.drop offset) → line offset + 1 = 1 + (lineBreaks early).ncard) := by
  intro line early
  have hcount : line offset = 1 + {place ∈ lineBreaks text | place.2 ≤ offset}.ncard := by
    have hstops := ncard_lineBreaks_of text (· ≤ offset)
    simp only [decide_eq_true_eq] at hstops
    rw [hstops]
    exact lineOf_eq_countP text offset
  refine ⟨finite_lineBreaks text, hcount, ?_, ?_, ⟨?_, ?_⟩, fun h => ?_, fun h => ?_⟩
  · exact (bisect_eq_countP (pairwise_lineStarts text) (encloses_all _ offset)).symm
  · exact fun later => lineOf_mono (lineStarts text)
  · exact lineOf_pos text offset
  · rw [hcount]
    exact Nat.add_le_add_left
      (Set.ncard_le_ncard (Set.sep_subset _ _) (finite_lineBreaks text)) 1
  · rw [ncard_lineBreaks]
    exact lineOf_of_parted h
  · rw [ncard_lineBreaks, Nat.add_comm]
    exact congrArg (1 + ·) (lineOf_of_not_parted h)

/-- In front of the line feed of a line end that is cut in two, the first line goes on. -/
example : (List.range 8).map (lineOf (lineStarts "a\nb\r\nc\rd".toList)) =
    [1, 1, 2, 2, 2, 3, 3, 4] := by decide

end CommentIndex.Text
