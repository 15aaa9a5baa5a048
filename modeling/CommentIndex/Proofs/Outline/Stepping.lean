import CommentIndex.Outline.Order
import CommentIndex.Proofs.Outline.Blocks
import CommentIndex.Proofs.Outline.Reading
import CommentIndex.Proofs.Outline.Spans

/-!
# From anchor to anchor

`Outline.Visits` lists the anchors that are met by going on from a line to the nearest anchor, from
its line to the nearest one again, and so on. No two anchors of a document lie on one line. So going
down from the top meets all of them in order, and going up from below them meets them in reverse:
`ofText_visits`.
-/

namespace CommentIndex.Outline

open Matcher (Grammar)

/-- Going on in one direction from a line, each time to the nearest anchor, meets these anchors, and
behind the last of them there is none. -/
inductive Visits (outline : Outline) (direction : Direction) : Int → List Anchor → Prop
  | stay {line : Int} (h : outline.nearest? line direction = none) :
      Visits outline direction line []
  | step {line : Int} {anchor : Anchor} {rest : List Anchor}
    (h : outline.nearest? line direction = some anchor)
    (hrest : Visits outline direction anchor.facts.line rest) :
    Visits outline direction line (anchor :: rest)

/-- The anchors of an outline lie one behind the other, no two of them on one line. -/
structure LineByLine (outline : Outline) : Prop where
  starts : outline.flatten.Pairwise fun first second => first.facts.start ≤ second.facts.start
  lines : outline.flatten.Pairwise fun first second => first.facts.line < second.facts.line

variable {outline : Outline} {before after : List Anchor} {anchor next : Anchor} {line : Int}

namespace LineByLine

/-- The anchors are in the order of their lines already. -/
theorem sort_flatten (h : outline.LineByLine) :
    SortMethod.line.sort outline.flatten = outline.flatten := by
  refine List.mergeSort_of_pairwise (h.starts.imp fun hle => ?_)
  exact decide_eq_true hle

/-- The nearest anchor below a line is the first of those behind it. -/
theorem nearest?_down (h : outline.LineByLine) (hflatten : outline.flatten = before ++ after)
    (hbefore : ∀ anchor ∈ before, (anchor.facts.line : Int) ≤ line)
    (hafter : ∀ anchor ∈ after, line < anchor.facts.line) :
    outline.nearest? line .down = after.head? := by
  have hnone : before.find? (fun anchor => decide (line < anchor.facts.line)) = none := by
    refine List.find?_eq_none.mpr fun anchor hmem => ?_
    have := hbefore anchor hmem
    simp only [decide_eq_true_eq]
    omega
  unfold nearest?
  rw [h.sort_flatten, hflatten]
  dsimp only
  rw [List.find?_append, hnone, Option.none_or]
  cases after with
  | nil => rfl
  | cons anchor rest =>
      have hfirst := hafter anchor List.mem_cons_self
      simp [hfirst]

/-- The nearest anchor above a line is the last of those before it. -/
theorem nearest?_up (h : outline.LineByLine) (hflatten : outline.flatten = before ++ after)
    (hbefore : ∀ anchor ∈ before, (anchor.facts.line : Int) < line)
    (hafter : ∀ anchor ∈ after, line ≤ anchor.facts.line) :
    outline.nearest? line .up = before.getLast? := by
  have hall : before.filter (fun anchor => decide ((anchor.facts.line : Int) < line)) = before :=
    List.filter_eq_self.mpr fun anchor hmem => decide_eq_true (hbefore anchor hmem)
  have hnone : after.filter (fun anchor => decide ((anchor.facts.line : Int) < line)) = [] := by
    refine List.filter_eq_nil_iff.mpr fun anchor hmem => ?_
    have := hafter anchor hmem
    simp only [decide_eq_true_eq]
    omega
  unfold nearest?
  rw [h.sort_flatten, hflatten]
  dsimp only
  rw [List.filter_append, hall, hnone, List.append_nil]

/-- The anchors before one lie above its line, and those behind it below. -/
theorem lines_around (h : outline.LineByLine)
    (hflatten : outline.flatten = before ++ anchor :: after) :
    (∀ other ∈ before, other.facts.line < anchor.facts.line) ∧
      ∀ other ∈ after, anchor.facts.line < other.facts.line := by
  have hlines := h.lines
  rw [hflatten] at hlines
  obtain ⟨-, hrest, hcross⟩ := List.pairwise_append.mp hlines
  exact ⟨fun other hother => hcross other hother anchor List.mem_cons_self,
    (List.pairwise_cons.mp hrest).1⟩

/-- Going down from a line meets the anchors behind it in order. -/
theorem visits_down (h : outline.LineByLine) (hflatten : outline.flatten = before ++ after)
    (hbefore : ∀ anchor ∈ before, (anchor.facts.line : Int) ≤ line)
    (hafter : ∀ anchor ∈ after, line < anchor.facts.line) :
    outline.Visits .down line after := by
  induction after generalizing before line with
  | nil => exact .stay (h.nearest?_down hflatten hbefore hafter)
  | cons anchor rest ih =>
      obtain ⟨habove, hbelow⟩ := h.lines_around hflatten
      refine .step (h.nearest?_down hflatten hbefore hafter) ?_
      have hsplit : outline.flatten = (before ++ [anchor]) ++ rest := by simp [hflatten]
      refine ih hsplit (fun other hother => ?_)
        fun other hother => Int.ofNat_lt.mpr (hbelow other hother)
      rcases List.mem_append.mp hother with hother | hother
      · exact Int.ofNat_le.mpr (Nat.le_of_lt (habove other hother))
      · rw [List.mem_singleton.mp hother]

/-- Going up from a line meets the anchors before it in reverse. -/
theorem visits_up (h : outline.LineByLine) (hflatten : outline.flatten = before ++ after)
    (hbefore : ∀ anchor ∈ before, (anchor.facts.line : Int) < line)
    (hafter : ∀ anchor ∈ after, line ≤ anchor.facts.line) :
    outline.Visits .up line before.reverse := by
  -- The way goes back through the anchors before the line, from the last one.
  induction before using List.reverseRecOn generalizing after line with
  | nil => exact .stay (h.nearest?_up hflatten hbefore hafter)
  | append_singleton front anchor ih =>
      have hsplit : outline.flatten = front ++ anchor :: after := by simp [hflatten]
      obtain ⟨habove, hbelow⟩ := h.lines_around hsplit
      have hnearest := h.nearest?_up hflatten hbefore hafter
      rw [List.getLast?_concat] at hnearest
      rw [List.reverse_concat]
      refine .step hnearest (ih hsplit
        (fun other hother => Int.ofNat_lt.mpr (habove other hother)) fun other hother => ?_)
      rcases List.mem_cons.mp hother with rfl | hother
      · exact Int.le_refl _
      · exact Int.ofNat_le.mpr (Nat.le_of_lt (hbelow other hother))

/-- The anchor above the one below an anchor is that anchor again. -/
theorem nearest?_up_of_down (h : outline.LineByLine) (hanchor : anchor ∈ outline.flatten)
    (hnext : outline.nearest? anchor.facts.line .down = some next) :
    outline.nearest? next.facts.line .up = some anchor := by
  obtain ⟨before, after, hflatten⟩ := List.append_of_mem hanchor
  obtain ⟨habove, hbelow⟩ := h.lines_around hflatten
  have hconcat : outline.flatten = (before ++ [anchor]) ++ after := by simp [hflatten]
  have hfront : ∀ other ∈ before ++ [anchor],
      (other.facts.line : Int) ≤ anchor.facts.line := by
    intro other hother
    rcases List.mem_append.mp hother with hother | hother
    · exact Int.ofNat_le.mpr (Nat.le_of_lt (habove other hother))
    · rw [List.mem_singleton.mp hother]
  rw [h.nearest?_down hconcat hfront fun other hother => Int.ofNat_lt.mpr (hbelow other hother)]
    at hnext
  obtain ⟨rest, rfl⟩ := List.head?_eq_some_iff.mp hnext
  obtain ⟨habove, hbelow⟩ := h.lines_around hconcat
  rw [h.nearest?_up hconcat (fun other hother => Int.ofNat_lt.mpr (habove other hother)),
    List.getLast?_concat]
  intro other hother
  rcases List.mem_cons.mp hother with rfl | hother
  · exact Int.le_refl _
  · exact Int.ofNat_le.mpr (Nat.le_of_lt (hbelow other hother))

end LineByLine

/-! ## Documents -/

variable {matcher : Matcher} {registry : Registry} {showTag found : Bool} {text : List Char}
  {grammar : Grammar} {events : List Event}

/-- No two events of a document lie on one line. -/
theorem pairwise_lines_eventsOf (htries : matcher.Tries grammar) (hmatcher : matcher.InLine)
    (h : eventsOf matcher registry showTag text = .ok events) :
    events.Pairwise fun first second => first.piece.line < second.piece.line := by
  refine pairwise_of_forall₂ (forall₂_of_mapM h)
    (List.Pairwise.and_mem.mp (matcher.pairwise_hits text)) ?_
  rintro first second event later hfirst hsecond ⟨hmem, hmem', horder⟩
  obtain ⟨start, hstart, hstop, hnext⟩ :=
    Matcher.exists_lineStart_between htries hmatcher hmem hmem' horder
  have hevent := piece_eventOf hfirst
  have hlater := piece_eventOf hsecond
  have hearlier : event.piece.start < start := by
    calc event.piece.start ≤ event.piece.stop := hevent.ordered
      _ ≤ first.stop := hevent.stop
      _ < start := hstop
  rw [hevent.line, hlater.line]
  exact Text.lineOf_lt hstart hearlier (hnext.trans hlater.start)

/-- An anchor says where its event lies. -/
theorem Event.piece_of_facts? {event : Event} {facts : Facts} (h : event.facts? = some facts) :
    event.piece = .ofFacts facts := by
  cases event with
  | anchor key facts' =>
      obtain rfl : facts' = facts := Option.some.inj h
      rfl
  | close key closing => contradiction

/-- The anchors of a document lie one behind the other, no two of them on one line. -/
theorem lineByLine_ofEvents (htries : matcher.Tries grammar) (hmatcher : matcher.InLine)
    (h : eventsOf matcher registry showTag text = .ok events) :
    (ofEvents events).LineByLine := by
  have hpieces := List.Pairwise.and_mem.mp
    ((pairwise_eventsOf h).and (pairwise_lines_eventsOf htries hmatcher h))
  have hread : (events.filterMap Event.facts?).Pairwise fun first second =>
      first.start ≤ second.start ∧ first.line < second.line := by
    refine hpieces.filterMap _ ?_
    rintro event later ⟨hmem, -, hbefore, hline⟩ first hfirst second hsecond
    have hordered := ordered_eventsOf h event hmem
    rw [Event.piece_of_facts? hfirst] at hbefore hline hordered
    rw [Event.piece_of_facts? hsecond] at hbefore hline
    exact ⟨Nat.le_trans hordered hbefore.offset, hline⟩
  rw [← (reads_ofEvents events).facts, List.pairwise_map] at hread
  exact ⟨hread.imp And.left, hread.imp And.right⟩

/-- The line of an anchor is that on which it starts. -/
theorem line_ofEvents (h : eventsOf matcher registry showTag text = .ok events)
    (hanchor : anchor ∈ (ofEvents events).flatten) :
    anchor.facts.line = Text.lineOf (Text.lineStarts text) anchor.facts.start :=
  line_of_mem_tell h hanchor anchor.ofFacts_mem_pieces

/-- If no literal of a compiled matcher goes over the end of a line, then the anchors of a document
lie on lines that come one behind the other, whatever ends these lines. Going down from line zero
meets the anchors in order and then none, and going up from below the last of them meets them in
reverse. Going up from the anchor below an anchor leads back to it. -/
theorem ofText_visits (h : grammar.compile = .ok matcher) (hgrammar : grammar.IsOneLine)
    (hread : ofText matcher registry showTag text = .ok (outline, found)) :
    (∀ anchor ∈ outline.flatten,
        anchor.facts.line = Text.lineOf (Text.lineStarts text) anchor.facts.start) ∧
      (outline.flatten.Pairwise fun first second => first.facts.line < second.facts.line) ∧
      outline.Visits .down 0 outline.flatten ∧
      (∀ line : Int, (∀ anchor ∈ outline.flatten, anchor.facts.line < line) →
        outline.Visits .up line outline.flatten.reverse) ∧
      ∀ anchor ∈ outline.flatten, ∀ next,
        outline.nearest? anchor.facts.line .down = some next →
          outline.nearest? next.facts.line .up = some anchor := by
  have htries := Matcher.tries_of_compile h
  obtain ⟨events, hevents, rfl, -⟩ := ofText_eq_ok_iff.mp hread
  have hlines := lineByLine_ofEvents htries (hgrammar.inLine htries) hevents
  have hpositive : ∀ anchor ∈ (ofEvents events).flatten, (0 : Int) < anchor.facts.line := by
    intro anchor hanchor
    rw [line_ofEvents hevents hanchor]
    exact Int.natCast_pos.mpr (Text.lineOf_pos ..)
  refine ⟨fun anchor => line_ofEvents hevents, hlines.lines, ?_, fun line hbelow => ?_,
    fun anchor hanchor next => hlines.nearest?_up_of_down hanchor⟩
  · have hsplit : (ofEvents events).flatten = [] ++ (ofEvents events).flatten := rfl
    exact hlines.visits_down hsplit (by simp) hpositive
  · have hsplit : (ofEvents events).flatten = (ofEvents events).flatten ++ [] :=
      (List.append_nil _).symm
    exact hlines.visits_up hsplit hbelow (by simp)

/-- Lines that end in three ways, one of them empty, and an anchor inside a region. -/
theorem ofText_visits_line_ends :
    let grammar : Grammar :=
      { registry := Registry.ofTags [{ name := "T" }, { name := "Re", behavior := .region }]
        separators := [": "]
        marks := ["#"]
        endTag := "!"
        matchCase := false }
    let matcher : Matcher :=
      { marks := [['#']], tokens := ["!Re", "Re", "T"].map String.toList
        separators := [": ".toList], endTag := "!", matchCase := false }
    let text := "# Re: a\r# T: b\n# T\r\n\r\n# !Re\r# T".toList
    ∃ outline, ofText matcher grammar.registry true text = .ok (outline, true) ∧
      outline.flatten.map (·.facts.line) = [1, 2, 3, 6] ∧
      outline.Visits .down 0 outline.flatten ∧
      outline.Visits .up 7 outline.flatten.reverse := by
  intro grammar matcher text
  have hcompile : grammar.compile = .ok matcher := by cbv
  have hgrammar : grammar.IsOneLine :=
    ⟨by decide, by decide, by decide +kernel, by decide⟩
  let outline : Outline := ((ofText matcher grammar.registry true text).toOption.getD default).1
  have hread : ofText matcher grammar.registry true text = .ok (outline, true) := by
    decide +kernel
  have hbelow : ∀ anchor ∈ outline.flatten, (anchor.facts.line : Int) < 7 := by decide +kernel
  obtain ⟨-, -, hdown, hup, -⟩ := ofText_visits hcompile hgrammar hread
  exact ⟨outline, hread, by decide +kernel, hdown, hup 7 hbelow⟩

end CommentIndex.Outline
