import CommentIndex.Proofs.Matcher.LineByLine
import CommentIndex.Proofs.Text.Lines

/-!
# Hits of one text behind another

The hits of a text that follows another behind a line end are the hits of the two, those of the
second text moved behind the first: `hits_append_lineEnd`. What a text begins or ends with makes no
difference, for no hit goes over a line end. And no two hits lie at one place (`eq_of_mem_hits`).
-/

namespace CommentIndex

namespace Hit

/-- The same hit, so many characters further behind. -/
def move (count : Nat) (hit : Hit) : Hit :=
  { hit with start := hit.start + count }

variable (count : Nat) (hit : Hit)

@[simp] theorem start_move : (hit.move count).start = hit.start + count := rfl

@[simp] theorem tail_move : (hit.move count).tail = hit.tail := rfl

@[simp] theorem text_move : (hit.move count).text = hit.text := rfl

@[simp] theorem tokenStart_move : (hit.move count).tokenStart = hit.tokenStart + count := by
  simp only [tokenStart, move]
  omega

@[simp] theorem tokenEnd_move : (hit.move count).tokenEnd = hit.tokenEnd + count := by
  simp only [tokenEnd, tokenStart, move]
  omega

@[simp] theorem stop_move : (hit.move count).stop = hit.stop + count := by
  rw [stop_eq, stop_eq, start_move, text_move]
  omega

end Hit

namespace Matcher

variable {matcher : Matcher} {grammar : Grammar} {text : List Char}

/-! ## A text that stands further behind -/

/-- What follows the blanks makes the same hit further behind. -/
theorem hitWith?_add (matcher : Matcher) (offset count : Nat) (mark gap text : List Char) :
    hitWith? matcher (offset + count) mark gap text =
      (hitWith? matcher offset mark gap text).map (Hit.move count) := by
  rw [hitWith?, hitWith?, List.map_findSome?]
  refine findSome?_congr fun literal _ => ?_
  rw [Function.comp_apply, Option.map_bind]
  refine Option.bind_congr fun found _ => ?_
  rw [Function.comp_apply, Option.map_map]
  rfl

/-- What follows a mark makes the same hit further behind. -/
theorem hitBehind?_add (matcher : Matcher) (offset count : Nat) (mark text : List Char) :
    hitBehind? matcher (offset + count) mark text =
      (hitBehind? matcher offset mark text).map (Hit.move count) := by
  rw [hitBehind?, hitBehind?, List.map_findSome?]
  exact findSome?_congr fun width _ => hitWith?_add ..

/-- A text makes the same hit further behind. -/
theorem hitAt?_add (matcher : Matcher) (offset count : Nat) (text : List Char) :
    matcher.hitAt? (offset + count) text = (matcher.hitAt? offset text).map (Hit.move count) := by
  rw [hitAt?_eq, hitAt?_eq, List.map_findSome?]
  refine findSome?_congr fun literal _ => ?_
  rw [Function.comp_apply, Option.map_bind]
  exact Option.bind_congr fun found _ => hitBehind?_add ..

/-- A text that stands further behind has its hits further behind. -/
theorem hitsFrom_add (matcher : Matcher) (skip offset count : Nat) (text : List Char) :
    matcher.hitsFrom skip (offset + count) text =
      (matcher.hitsFrom skip offset text).map (Hit.move count) := by
  induction text generalizing skip offset with
  | nil => rfl
  | cons c rest ih =>
      have hnext (skip : Nat) : matcher.hitsFrom skip (offset + count + 1) rest =
          (matcher.hitsFrom skip (offset + 1) rest).map (Hit.move count) := by
        rw [Nat.add_right_comm]
        exact ih skip (offset + 1)
      cases skip with
      | succ skip => exact hnext skip
      | zero =>
          rw [hitsFrom_cons, hitsFrom_cons, hitAt?_add]
          cases matcher.hitAt? offset (c :: rest) with
          | none => exact hnext 0
          | some hit => simp only [Option.map_some, List.map_cons, Hit.text_move, hnext]

/-! ## One text behind another -/

/-- The hits of a text before the hits of what follows it behind a line end. -/
theorem hits_append_lineEnd (htries : matcher.Tries grammar) (hmatcher : matcher.InLine)
    {c : Char} (hc : Text.isLineEnd c = true) (first second : List Char) :
    matcher.hits (first ++ c :: second) =
      matcher.hits first ++ (matcher.hits second).map (Hit.move (first.length + 1)) := by
  -- The first text consists of whole lines and a last one without its end.
  obtain ⟨before, line, after, hline, -, hplace⟩ := exists_isLine (Nat.le_refl first.length)
  obtain rfl : after = [] := by
    rw [hline.eq, List.length_append, List.length_append] at hplace
    exact List.length_eq_zero_iff.mp (by omega)
  have hbefore (rest : List Char) := hits_append_rest htries hmatcher hline.starts rest
  have hlast : matcher.hitsFrom 0 before.length (line ++ c :: second) =
      matcher.hitsFrom 0 before.length line ++
        matcher.hitsFrom 0 (before.length + line.length + 1) second := by
    have hend : atLineEnd (c :: second) = true := hc
    rw [hitsFrom_append htries hmatcher hline.inside hend before.length (Nat.zero_le _),
      hitsFrom_lineEnd hmatcher hc]
  have hsecond : matcher.hitsFrom 0 (before.length + line.length + 1) second =
      (matcher.hits second).map (Hit.move (before.length + line.length + 1)) := by
    rw [hits, ← hitsFrom_add, Nat.zero_add]
  rw [hline.eq, List.append_nil, List.append_assoc, hbefore, hbefore, hlast, hsecond,
    List.append_assoc, List.length_append]

/-! ## Where hits lie -/

/-- A hit is that of a layout of the line in which it lies, and the only one in it. -/
theorem exists_layout_of_mem_hits (htries : matcher.Tries grammar) (hmatcher : matcher.InLine)
    {hit : Hit} (h : hit ∈ matcher.hits text) :
    ∃ before after, ∃ layout : Layout, IsLine text before layout.text after ∧
      grammar.Fits layout.reading ∧ layout.hit before.length = hit ∧
      matcher.hitsFrom 0 before.length layout.text = [hit] := by
  have hlt := start_lt_of_mem_hitsFrom h
  rw [Nat.zero_add] at hlt
  obtain ⟨before, line, after, hline, hfirst, hlast⟩ := exists_isLine (Nat.le_of_lt hlt)
  have hin : hit ∈ matcher.hitsFrom 0 before.length line := by
    rw [← hitsBetween_isLine htries hmatcher hline]
    exact List.mem_filter.mpr ⟨h, decide_eq_true ⟨hfirst, hlast⟩⟩
  obtain ⟨found, hfound, hbest⟩ := best_hitsFrom htries hline.inside before.length
  obtain rfl : found = some hit := Option.mem_toList.mp (hfound ▸ hin)
  obtain ⟨layout, ⟨hfits, rfl⟩, hlayout, -⟩ := hbest
  exact ⟨before, after, layout, hline, hfits, hlayout, hfound⟩

/-- A hit lies in a line of the text and goes to the end of that. There is no other hit in it. -/
theorem exists_isLine_of_mem_hits (htries : matcher.Tries grammar) (hmatcher : matcher.InLine)
    {hit : Hit} (h : hit ∈ matcher.hits text) :
    ∃ before line after, IsLine text before line after ∧ before.length ≤ hit.start ∧
      hit.start < hit.stop ∧ hit.stop = before.length + line.length ∧
      ∀ other ∈ matcher.hits text, before.length ≤ other.start → other.start ≤ hit.stop →
        other = hit := by
  obtain ⟨before, after, layout, hline, -, hlayout, honly⟩ :=
    exists_layout_of_mem_hits htries hmatcher h
  have hin : hit ∈ matcher.hitsFrom 0 before.length layout.text :=
    honly ▸ List.mem_singleton_self hit
  have hstop : hit.stop = before.length + layout.text.length := hlayout ▸ layout.stop_hit _
  refine ⟨before, layout.text, after, hline, le_start_of_mem_hitsFrom hin, ?_, hstop,
    fun other hother hstarts hends => ?_⟩
  · rw [hstop]
    exact start_lt_of_mem_hitsFrom hin
  · have hthere : other ∈ matcher.hitsBetween text before.length
        (before.length + layout.text.length) :=
      List.mem_filter.mpr ⟨hother, decide_eq_true ⟨hstarts, hstop ▸ hends⟩⟩
    rw [hitsBetween_isLine htries hmatcher hline, honly] at hthere
    exact List.mem_singleton.mp hthere

/-- A hit ends in its text. -/
theorem stop_le_of_mem_hits (htries : matcher.Tries grammar) (hmatcher : matcher.InLine)
    {hit : Hit} (h : hit ∈ matcher.hits text) : hit.stop ≤ text.length := by
  obtain ⟨before, line, after, hline, -, -, hstop, -⟩ :=
    exists_isLine_of_mem_hits htries hmatcher h
  rw [hstop, hline.eq, List.length_append, List.length_append]
  omega

/-- A hit ends before the line end that its text ends in. -/
theorem stop_lt_of_mem_hits (htries : matcher.Tries grammar) (hmatcher : matcher.InLine)
    {hit : Hit} (h : hit ∈ matcher.hits text) {c : Char} (hc : Text.isLineEnd c = true)
    (hlast : text.getLast? = some c) : hit.stop < text.length := by
  obtain ⟨front, rfl⟩ := List.getLast?_eq_some_iff.mp hlast
  have hfront : matcher.hits (front ++ [c]) = matcher.hits front := by
    rw [hits_append_lineEnd htries hmatcher hc]
    exact List.append_nil _
  rw [hfront] at h
  rw [List.length_append]
  exact Nat.lt_succ_of_le (stop_le_of_mem_hits htries hmatcher h)

/-- No two hits lie at one place. -/
theorem eq_of_mem_hits (htries : matcher.Tries grammar) (hmatcher : matcher.InLine)
    {first second : Hit} (hfirst : first ∈ matcher.hits text) (hsecond : second ∈ matcher.hits text)
    {place : Nat} (hin : first.start ≤ place ∧ place ≤ first.stop)
    (hin' : second.start ≤ place ∧ place ≤ second.stop) : first = second := by
  rcases Nat.le_total first.start second.start with hle | hle
  · obtain ⟨_, _, _, -, hstart, -, -, honly⟩ := exists_isLine_of_mem_hits htries hmatcher hfirst
    exact (honly second hsecond (hstart.trans hle) (hin'.1.trans hin.2)).symm
  · obtain ⟨_, _, _, -, hstart, -, -, honly⟩ := exists_isLine_of_mem_hits htries hmatcher hsecond
    exact honly first hfirst (hstart.trans hle) (hin.1.trans hin'.2)

/-- A line begins between two hits of a text. -/
theorem exists_lineStart_between (htries : matcher.Tries grammar) (hmatcher : matcher.InLine)
    {first second : Hit} (hfirst : first ∈ matcher.hits text) (hsecond : second ∈ matcher.hits text)
    (horder : first.stop ≤ second.start) :
    ∃ start ∈ Text.lineStarts text, first.stop < start ∧ start ≤ second.start := by
  obtain ⟨before, line, after, hline, hstart, hlt, hstop, honly⟩ :=
    exists_isLine_of_mem_hits htries hmatcher hsecond
  have hordered := first.stop_eq
  -- The first hit ends before the line end in front of the line of the second one.
  have hbetween : first.stop < before.length := by
    have hmem := hfirst
    rw [hline.eq, hits_append_rest htries hmatcher hline.starts, List.mem_append] at hmem
    rcases hmem with hmem | hmem
    · obtain ⟨c, hc⟩ : ∃ c, before.getLast? = some c := by
        cases hlast : before.getLast? with
        | some c => exact ⟨c, rfl⟩
        | none =>
            obtain rfl := List.getLast?_eq_none_iff.mp hlast
            contradiction
      exact stop_lt_of_mem_hits htries hmatcher hmem (hline.starts c hc) hc
    · have hle := le_start_of_mem_hitsFrom hmem
      obtain rfl := honly first hfirst (by omega) (by omega)
      omega
  refine ⟨before.length, ?_, hbetween, hstart⟩
  rw [hline.eq]
  refine Text.length_mem_lineStarts (fun _ hnext => ?_) hline.starts
  -- The line is not empty, for the second hit starts in it.
  cases line with
  | nil =>
      rw [List.length_nil] at hstop
      omega
  | cons c line =>
      obtain rfl := Option.some.inj hnext
      exact absurd (hline.inside _ List.mem_cons_self) (by decide)

end Matcher

end CommentIndex
