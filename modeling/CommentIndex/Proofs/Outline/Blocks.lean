import CommentIndex.Proofs.Matcher.Blocks
import CommentIndex.Proofs.Outline.Moves
import CommentIndex.Proofs.Text.Lines

/-!
# Outlines of one text behind another

A document may be read in blocks of lines. If every region of a first text is closed, the outline of
what follows it behind a line feed stands behind its own, moved by the characters and the lines of
the first text: `ofText_append`.
-/

namespace CommentIndex

/-- The integer that a block gives for `seq`. -/
def Attributes.seq? (block : Option (List Char)) : Option Int :=
  (value? (fields (block.getD [])) "seq").bind Text.readInt?

namespace Outline

open Matcher (Grammar)

/-- The block that gives an anchor or an end tag its attributes. -/
def attributeBlock (matcher : Matcher) (registry : Registry) (hit : Hit) : Option (List Char) :=
  match matcher.read registry hit.token with
  | .ok ⟨_, true⟩ => hit.block
  | _ => blockOf hit (remarkOf hit)

/-- Whether the hit at an offset of a text gives an integer for its `seq`. -/
def isNumbered (matcher : Matcher) (registry : Registry) (text : List Char) (offset : Nat) : Bool :=
  (matcher.hits text).any fun hit =>
    hit.start ≤ offset && offset ≤ hit.stop &&
      (Attributes.seq? (attributeBlock matcher registry hit)).isSome

/-- How far what is met in a text is moved if another text stands in front, with a line feed
between the two. -/
def moveBehind (matcher : Matcher) (registry : Registry) (first second : List Char) : Move where
  chars := first.length + 1
  lines := Text.lineEnds (first ++ ['\n'])
  isNumbered := isNumbered matcher registry second

variable {matcher : Matcher} {grammar : Grammar} {registry : Registry} {showTag : Bool}
  {first second text : List Char} {hit : Hit}

/-! ## Hits read one by one -/

/-- Whether the place of a hit is numbered is told by its block. -/
theorem isNumbered_eq (htries : matcher.Tries grammar) (hmatcher : matcher.InLine)
    (h : hit ∈ matcher.hits text) {offset : Nat} (hfirst : hit.start ≤ offset)
    (hlast : offset ≤ hit.stop) :
    isNumbered matcher registry text offset =
      (Attributes.seq? (attributeBlock matcher registry hit)).isSome := by
  rw [Bool.eq_iff_iff, isNumbered, List.any_eq_true]
  constructor
  · rintro ⟨other, hother, hnumbered⟩
    simp only [Bool.and_eq_true, decide_eq_true_eq] at hnumbered
    obtain rfl := Matcher.eq_of_mem_hits htries hmatcher hother h hnumbered.1 ⟨hfirst, hlast⟩
    exact hnumbered.2
  · intro hnumbered
    exact ⟨hit, h, by simp [hfirst, hlast, hnumbered]⟩

/-- The attributes in a block on a later line. -/
theorem read_add (move : Move) {block : Option (List Char)} {start : Nat}
    (h : move.isNumbered start = (Attributes.seq? block).isSome) (line : Nat) :
    Attributes.read block ((line + move.lines : Nat) : Int) =
      move.attributes start (Attributes.read block line) := by
  rw [Move.attributes, h]
  unfold Attributes.seq? Attributes.read
  dsimp only
  cases (Attributes.value? (Attributes.fields (block.getD [])) "seq").bind Text.readInt? with
  | none => simp
  | some seq => simp

/-- A hit is highlighted as far behind as it stands. -/
theorem span_move (mode : StyleMode) (count : Nat) (hit : Hit) (closer : Option (List Char)) :
    span mode (hit.move count) closer =
      ((span mode hit closer).1 + count, (span mode hit closer).2 + count) := by
  cases mode <;> simp [span, Nat.add_right_comm]

/-- A move takes a hit from the lines of one document to those of another, and it is known whether
the block of the hit numbers it. -/
structure Takes (move : Move) (starts later : List Nat) (hit : Hit)
    (block : Option (List Char)) : Prop where
  line : ∀ offset, hit.start ≤ offset → offset ≤ hit.stop →
    Text.lineOf later (offset + move.chars) = Text.lineOf starts offset + move.lines
  numbered : ∀ offset, hit.start ≤ offset → offset ≤ hit.stop →
    move.isNumbered offset = (Attributes.seq? block).isSome

variable {move : Move} {starts later : List Nat}

/-- What a hit says once it is moved. -/
theorem Takes.facts (h : Takes move starts later hit (blockOf hit (remarkOf hit))) (showTag : Bool)
    (tag : Tag) :
    factsOf later showTag tag (hit.move move.chars) =
      move.facts (factsOf starts showTag tag hit) := by
  have hremark : remarkOf (hit.move move.chars) = remarkOf hit := rfl
  have hblock : blockOf (hit.move move.chars) (remarkOf hit) = blockOf hit (remarkOf hit) := rfl
  obtain ⟨hstart, hordered, hstop⟩ := span_mem_hit tag.styleMode hit (remarkOf hit).closer
  have hend := hordered.trans hstop
  simp only [factsOf, hremark, hblock, span_move, h.line _ hstart hend,
    read_add move (h.numbered _ hstart hend), Move.facts]

/-- What a hit says that closes a region, once it is moved. -/
theorem Takes.closing (h : Takes move starts later hit hit.block) :
    closingOf later (hit.move move.chars) = move.closing (closingOf starts hit) := by
  have hblock : (hit.move move.chars).block = hit.block := rfl
  obtain ⟨hstart, hordered, hstop⟩ := hit.token_mem_hit
  have hend := hordered.trans hstop
  simp only [closingOf, hblock, Hit.tokenStart_move, Hit.tokenEnd_move, h.line _ hstart hend,
    read_add move (h.numbered _ hstart hend), Move.closing]

/-- What is met at a hit once it is moved. -/
theorem Takes.event (h : Takes move starts later hit (attributeBlock matcher registry hit)) :
    eventOf matcher registry later showTag (hit.move move.chars) =
      (eventOf matcher registry starts showTag hit).map move.event := by
  have htoken : (hit.move move.chars).token = hit.token := rfl
  unfold eventOf
  rw [htoken]
  unfold attributeBlock at h
  cases hread : matcher.read registry hit.token with
  | error error => rfl
  | ok reading =>
      obtain ⟨tag, closes⟩ := reading
      rw [hread] at h
      cases closes with
      | true => simp only [Except.map, if_true, h.closing, Move.event]
      | false => simp only [Except.map, Bool.false_eq_true, if_false, h.facts, Move.event]

/-- Which line a hit stands on is all that it takes from the lines of the document. -/
theorem eventOf_congr
    (hlines : ∀ offset, hit.start ≤ offset → offset ≤ hit.stop →
      Text.lineOf later offset = Text.lineOf starts offset) :
    eventOf matcher registry later showTag hit = eventOf matcher registry starts showTag hit := by
  unfold eventOf
  cases matcher.read registry hit.token with
  | error error => rfl
  | ok reading =>
      have hspan := span_mem_hit reading.tag.styleMode hit (remarkOf hit).closer
      have htoken := hit.token_mem_hit
      have hanchor := hlines _ hspan.1 (hspan.2.1.trans hspan.2.2)
      have hclosing := hlines _ htoken.1 (htoken.2.1.trans htoken.2.2)
      simp only [Except.map, factsOf, closingOf, hanchor, hclosing]

/-! ## Blocks of lines -/

/-- Items that are read alike one by one are read alike. -/
theorem mapM_congr {α β ε : Type} {read other : α → Except ε β} {items : List α}
    (h : ∀ item ∈ items, read item = other item) : items.mapM read = items.mapM other := by
  induction items with
  | nil => rfl
  | cons item rest ih =>
      rw [List.mapM_cons, List.mapM_cons, h item List.mem_cons_self,
        ih fun next hnext => h next (List.mem_cons_of_mem _ hnext)]

/-- What is read may be changed item by item or when all has been read. -/
theorem mapM_map_result {α β γ ε : Type} (read : α → Except ε β) (change : β → γ)
    (items : List α) :
    items.mapM (fun item => (read item).map change) = (items.mapM read).map (List.map change) := by
  induction items with
  | nil => rfl
  | cons item rest ih =>
      rw [List.mapM_cons, List.mapM_cons, ih]
      cases read item with
      | error error => rfl
      | ok result => cases rest.mapM read <;> rfl

/-- What is met in a text and in what follows it behind a line feed. -/
theorem eventsOf_append (htries : matcher.Tries grammar) (hmatcher : matcher.InLine)
    (registry : Registry) (showTag : Bool) (first second : List Char) :
    eventsOf matcher registry showTag (first ++ '\n' :: second) = do
      let events ← eventsOf matcher registry showTag first
      let later ← eventsOf matcher registry showTag second
      return events ++ later.map (moveBehind matcher registry first second).event := by
  let move := moveBehind matcher registry first second
  let starts := Text.lineStarts (first ++ '\n' :: second)
  have hfirst : ∀ hit ∈ matcher.hits first, eventOf matcher registry starts showTag hit =
      eventOf matcher registry (Text.lineStarts first) showTag hit := by
    intro hit hhit
    have hstop := Matcher.stop_le_of_mem_hits htries hmatcher hhit
    refine eventOf_congr fun offset _ hlast => ?_
    refine Text.lineOf_append_lineFeed (hlast.trans hstop) fun hreturn => ?_
    exact hlast.trans_lt (Matcher.stop_lt_of_mem_hits htries hmatcher hhit rfl hreturn)
  have hsecond : ∀ hit ∈ matcher.hits second,
      eventOf matcher registry starts showTag (hit.move move.chars) =
        (eventOf matcher registry (Text.lineStarts second) showTag hit).map move.event := by
    intro hit hhit
    refine Takes.event ⟨fun offset _ _ => ?_, fun offset hfirst hlast => ?_⟩
    · have hlines := Text.lineOf_append_right (Text.parted_lineFeed first second) offset
      rw [List.length_append, List.append_assoc] at hlines
      exact hlines
    · exact isNumbered_eq htries hmatcher hhit hfirst hlast
  have hlater : (matcher.hits second).mapM
      (eventOf matcher registry starts showTag ∘ Hit.move (first.length + 1)) =
        ((matcher.hits second).mapM
          (eventOf matcher registry (Text.lineStarts second) showTag)).map (List.map move.event) :=
    (mapM_congr hsecond).trans (mapM_map_result ..)
  unfold eventsOf
  rw [Matcher.hits_append_lineEnd htries hmatcher rfl, List.mapM_append, List.mapM_map,
    mapM_congr hfirst, hlater]
  cases (matcher.hits first).mapM (eventOf matcher registry (Text.lineStarts first) showTag) with
  | error error => rfl
  | ok events =>
      cases (matcher.hits second).mapM
        (eventOf matcher registry (Text.lineStarts second) showTag) <;> rfl

/-- If no literal of a compiled matcher goes over the end of a line, and every region in the outline
of a text is closed, then what follows the text behind a line feed has its own outline behind that
of the text: its offsets are moved by the characters in front of it, and its lines, with its folds
and the numbers that are taken from lines, by the line ends there. -/
theorem ofText_append (h : grammar.compile = .ok matcher) (hgrammar : grammar.IsOneLine)
    {outline behind : Outline} {found foundBehind : Bool}
    (hfirst : ofText matcher registry showTag first = .ok (outline, found))
    (hclosed : ∀ anchor ∈ outline.flatten, ¬ anchor.IsUnclosed)
    (hsecond : ofText matcher registry showTag second = .ok (behind, foundBehind)) :
    let moved := (moveBehind matcher registry first second).outline behind
    ofText matcher registry showTag (first ++ '\n' :: second) =
      .ok (⟨outline.anchors ++ moved.anchors, outline.folds ++ moved.folds⟩,
        found || foundBehind) := by
  have htries := Matcher.tries_of_compile h
  obtain ⟨events, hevents, rfl, rfl⟩ := ofText_eq_ok_iff.mp hfirst
  obtain ⟨later, hlater, rfl, rfl⟩ := ofText_eq_ok_iff.mp hsecond
  refine ofText_eq_ok_iff.mpr
    ⟨events ++ later.map (moveBehind matcher registry first second).event, ?_, ?_, ?_⟩
  · rw [eventsOf_append htries (hgrammar.inLine htries), hevents, hlater]
    rfl
  · rw [ofEvents_append hclosed, Move.ofEvents_move]
  · cases events <;> simp

/-- A carriage return at the end of a text and the line feed behind it are one line end. Behind
them, a region takes its number from its line, and the anchor before it has one of its own. -/
theorem ofText_append_carriageReturn :
    let grammar : Grammar :=
      { registry := Registry.ofTags [{ name := "T" }, { name := "Re", behavior := .region }]
        separators := [": "]
        marks := ["#"]
        endTag := "!"
        matchCase := false }
    let matcher : Matcher :=
      { marks := [['#']], tokens := ["!Re", "Re", "T"].map String.toList
        separators := [": ".toList], endTag := "!", matchCase := false }
    let first := "# Re: a\n# !Re\r".toList
    let second := "# T[seq=7]: b\n# Re\r\n# !Re".toList
    ∃ outline behind, ofText matcher grammar.registry true first = .ok (outline, true) ∧
      (∀ anchor ∈ outline.flatten, ¬ anchor.IsUnclosed) ∧
      ofText matcher grammar.registry true second = .ok (behind, true) ∧
      let moved := (moveBehind matcher grammar.registry first second).outline behind
      ofText matcher grammar.registry true (first ++ '\n' :: second) =
          .ok (⟨outline.anchors ++ moved.anchors, outline.folds ++ moved.folds⟩, true) ∧
        moved.anchors.map (fun anchor => (anchor.facts.line, anchor.facts.attributes.seq)) =
          [(3, 7), (4, 4)] ∧
        moved.folds = [⟨3, 4⟩] := by
  intro grammar matcher first second
  have hcompile : grammar.compile = .ok matcher := by cbv
  have hgrammar : grammar.IsOneLine :=
    ⟨by decide, by decide, by decide +kernel, by decide⟩
  let outline : Outline := ((ofText matcher grammar.registry true first).toOption.getD default).1
  let behind : Outline := ((ofText matcher grammar.registry true second).toOption.getD default).1
  have hfirst : ofText matcher grammar.registry true first = .ok (outline, true) := by
    decide +kernel
  have hsecond : ofText matcher grammar.registry true second = .ok (behind, true) := by
    decide +kernel
  have hclosed : ∀ anchor ∈ outline.flatten, ¬ anchor.IsUnclosed := by
    unfold Anchor.IsUnclosed
    decide +kernel
  exact ⟨outline, behind, hfirst, hclosed, hsecond,
    ofText_append hcompile hgrammar hfirst hclosed hsecond, by decide +kernel, by decide +kernel⟩

end Outline

end CommentIndex
