import CommentIndex.Outline.Document
import CommentIndex.Proofs.Matcher.Order
import Mathlib.Data.List.Forall2

/-!
# Where events lie

Every event of a document lies inside the hit that it is read from, on the line on which it starts.
So the events of a document lie one behind the other (`pairwise_eventsOf`), whichever part of them
is highlighted.
-/

namespace CommentIndex.Outline

/-- A piece of a document that an anchor or an end tag stands for: its offsets and its line. -/
structure Piece where
  start : Nat
  stop : Nat
  line : Nat
deriving DecidableEq, Repr

/-- Where an anchor stands. -/
def Piece.ofFacts (facts : Facts) : Piece :=
  ⟨facts.start, facts.stop, facts.line⟩

/-- Where an end tag stands. -/
def Piece.ofClosing (closing : Closing) : Piece :=
  ⟨closing.start, closing.stop, closing.line⟩

/-- Where an event lies. -/
def Event.piece : Event → Piece
  | .anchor _ facts => .ofFacts facts
  | .close _ closing => .ofClosing closing

/-- One piece lies behind another in a document, and not on an earlier line. -/
structure Piece.Before (first second : Piece) : Prop where
  offset : first.stop ≤ second.start
  line : first.line ≤ second.line

/-- A piece lies inside a hit, and its line is that of its start. -/
structure Piece.In (starts : List Nat) (hit : Hit) (piece : Piece) : Prop where
  start : hit.start ≤ piece.start
  ordered : piece.start ≤ piece.stop
  stop : piece.stop ≤ hit.stop
  line : piece.line = Text.lineOf starts piece.start

variable {matcher : Matcher} {registry : Registry} {starts : List Nat} {showTag : Bool}

/-- What is highlighted of the text behind a token is a start of it. -/
theorem highlightedTail_isStart (tail : List Char) (closer : Option (List Char)) :
    highlightedTail tail closer <+: tail := by
  have hshown := Text.stripEndBy_isStart Text.isSpaceOrTab tail
  unfold highlightedTail
  dsimp only
  split
  · next body hbody =>
      obtain ⟨ending, -, hending⟩ := Option.bind_eq_some_iff.mp hbody
      have hstarts : body <+: Text.stripEndBy Text.isSpaceOrTab tail :=
        ⟨ending, ((Text.beforeEnd?_eq_some_iff ..).mp hending).symm⟩
      exact (Text.stripEndBy_isStart _ body).trans (hstarts.trans hshown)
  · exact hshown

/-- Whatever the style, a hit is highlighted inside its text. -/
theorem span_mem_hit (mode : StyleMode) (hit : Hit) (closer : Option (List Char)) :
    hit.start ≤ (span mode hit closer).1 ∧
      (span mode hit closer).1 ≤ (span mode hit closer).2 ∧
      (span mode hit closer).2 ≤ hit.stop := by
  obtain ⟨hstart, htoken, hstop⟩ := hit.token_mem_hit
  have htail := (highlightedTail_isStart hit.tail closer).length_le
  have hend : hit.stop = hit.tokenEnd + hit.tail.length := rfl
  cases mode <;> simp only [span] <;> omega

/-- An event lies inside its hit. -/
theorem piece_eventOf {hit : Hit} {event : Event}
    (h : eventOf matcher registry starts showTag hit = .ok event) :
    event.piece.In starts hit := by
  unfold eventOf at h
  cases hread : matcher.read registry hit.token with
  | error error => simp [hread, Except.map] at h
  | ok reading =>
      simp only [hread, Except.map, Except.ok.injEq] at h
      subst h
      by_cases hcloses : reading.closes
      · obtain ⟨hstart, htoken, hstop⟩ := hit.token_mem_hit
        simp only [hcloses, if_true]
        exact ⟨hstart, htoken, hstop, rfl⟩
      · obtain ⟨hstart, hordered, hstop⟩ :=
          span_mem_hit reading.tag.styleMode hit (remarkOf hit).closer
        simp only [hcloses, Bool.false_eq_true, if_false]
        exact ⟨hstart, hordered, hstop, rfl⟩

/-- A text has an outline if its events can be read. -/
theorem ofText_eq_ok_iff {text : List Char} {outline : Outline} {found : Bool} :
    ofText matcher registry showTag text = .ok (outline, found) ↔
      ∃ events, eventsOf matcher registry showTag text = .ok events ∧
        ofEvents events = outline ∧ (!events.isEmpty) = found := by
  unfold ofText
  cases eventsOf matcher registry showTag text with
  | error error => simp [Except.map]
  | ok events => simp [Except.map]

/-- A list that has been read to the end has been read item by item. -/
theorem forall₂_of_mapM {α β ε : Type} {read : α → Except ε β} {items : List α} {results : List β}
    (h : items.mapM read = .ok results) :
    List.Forall₂ (fun item result => read item = .ok result) items results := by
  induction items generalizing results with
  | nil =>
      obtain rfl : [] = results := Except.ok.inj h
      exact .nil
  | cons item rest ih =>
      rw [List.mapM_cons] at h
      cases hitem : read item with
      | error error => simp [hitem, bind, Except.bind] at h
      | ok result =>
          cases hrest : rest.mapM read with
          | error error => simp [hitem, hrest, bind, Except.bind] at h
          | ok others =>
              have hresults : result :: others = results := by
                simpa [hitem, hrest, bind, Except.bind, pure, Except.pure] using h
              rw [← hresults]
              exact .cons hitem (ih hrest)

/-- What is the result of a list has been read from one of its items. -/
theorem exists_of_forall₂ {α β : Type} {related : α → β → Prop} {items : List α}
    {results : List β} (h : List.Forall₂ related items results) {result : β}
    (hresult : result ∈ results) : ∃ item ∈ items, related item result := by
  induction h with
  | nil => simp at hresult
  | @cons item other rest others hitem hrest ih =>
      rcases List.mem_cons.mp hresult with rfl | hresult
      · exact ⟨item, List.mem_cons_self, hitem⟩
      · obtain ⟨found, hfound, hrelated⟩ := ih hresult
        exact ⟨found, List.mem_cons_of_mem _ hfound, hrelated⟩

/-- Each event of a document starts before it ends. -/
theorem ordered_eventsOf {text : List Char} {events : List Event}
    (h : eventsOf matcher registry showTag text = .ok events) :
    ∀ event ∈ events, event.piece.start ≤ event.piece.stop := by
  intro event hevent
  obtain ⟨hit, -, hhit⟩ := exists_of_forall₂ (forall₂_of_mapM h) hevent
  exact (piece_eventOf hhit).ordered

/-- What holds of any two items in order holds of what is read from them. -/
theorem pairwise_of_forall₂ {α β : Type} {related : α → β → Prop} {inOrder : α → α → Prop}
    {inOrder' : β → β → Prop} {items : List α} {results : List β}
    (h : List.Forall₂ related items results) (hitems : items.Pairwise inOrder)
    (hread : ∀ first second result other, related first result → related second other →
      inOrder first second → inOrder' result other) : results.Pairwise inOrder' := by
  induction h with
  | nil => exact .nil
  | cons hitem hrest ih =>
      obtain ⟨hnext, hlater⟩ := List.pairwise_cons.mp hitems
      refine List.pairwise_cons.mpr ⟨fun later hmem => ?_, ih hlater⟩
      obtain ⟨item, hmem, hrelated⟩ := exists_of_forall₂ hrest hmem
      exact hread _ item _ later hitem hrelated (hnext item hmem)

/-- The events of a document lie one behind the other. -/
theorem pairwise_eventsOf {text : List Char} {events : List Event}
    (h : eventsOf matcher registry showTag text = .ok events) :
    events.Pairwise fun first second => first.piece.Before second.piece := by
  refine pairwise_of_forall₂ (forall₂_of_mapM h) (matcher.pairwise_hits text) ?_
  intro first second event later hfirst hsecond horder
  have hevent := piece_eventOf hfirst
  have hlater := piece_eventOf hsecond
  have hoffset : event.piece.stop ≤ later.piece.start := by
    calc event.piece.stop ≤ first.stop := hevent.stop
      _ ≤ second.start := horder
      _ ≤ later.piece.start := hlater.start
  refine ⟨hoffset, ?_⟩
  rw [hevent.line, hlater.line]
  exact Text.lineOf_mono _ (Nat.le_trans hevent.ordered hoffset)

end CommentIndex.Outline
