import CommentIndex.Proofs.Outline.Spans
import CommentIndex.Proofs.Outline.Telling

/-!
# Nested anchors

`WellNested` says how the anchors of an outline lie inside and behind each other: nothing of a
closed region reaches behind the start of its end tag, siblings do not overlap, only a region on
the rightmost path can be without an end tag, and the folds are those of the closed regions in
post-order. By `ofText_wellNested` every outline of a text is well nested.

The offsets follow from the order of the events, for the pieces of an outline are those of the
events without the end tags that close nothing (`pieces_ofEvents_sublist`). Which regions are closed
follows from the shape of the forest (`OpenEnded`).
-/

namespace CommentIndex

namespace Anchor

/-- An anchor and its end tag lie before an offset. -/
def EndsBy (anchor : Anchor) (offset : Nat) : Prop :=
  anchor.facts.stop ≤ offset ∧ ∀ closing ∈ anchor.closing, closing.stop ≤ offset

/-- The anchor is a region that never found its end tag. -/
def IsUnclosed (anchor : Anchor) : Prop :=
  anchor.facts.isRegion = true ∧ anchor.closing = none

/-- The fold of a closed region: the lines of its two tags, counted from zero. -/
def fold? (anchor : Anchor) : Option Fold :=
  anchor.closing.map fun closing => ⟨anchor.facts.line - 1, closing.line - 1⟩

mutual

/-- The anchor behind all those inside it, which come in post-order too. -/
def postorder : Anchor → List Anchor
  | .mk facts closing children => postorderAll children ++ [.mk facts closing children]
termination_by structural anchor => anchor

/-- All anchors of a forest in post-order. -/
def postorderAll : List Anchor → List Anchor
  | [] => []
  | anchor :: rest => anchor.postorder ++ postorderAll rest
termination_by structural anchors => anchors

end

end Anchor

namespace Outline

open Anchor (walkAll)

/-- The anchors that are roots together, or directly inside one anchor. -/
def Siblings (outline : Outline) (anchors : List Anchor) : Prop :=
  anchors = outline.anchors ∨ ∃ parent ∈ outline.flatten, anchors = parent.children

/-- How the anchors of an outline lie inside and behind each other. The offsets, the line, and the
attributes of an end tag are there together or not at all, since a region has one `closing`. -/
structure WellNested (outline : Outline) : Prop where
  /-- What is no region has nothing inside it and no end tag. -/
  plain : ∀ anchor ∈ outline.flatten, anchor.facts.isRegion = false →
    anchor.children = [] ∧ anchor.closing = none
  /-- Nothing ends before it starts. -/
  ordered : ∀ anchor ∈ outline.flatten, anchor.facts.start ≤ anchor.facts.stop ∧
    ∀ closing ∈ anchor.closing, closing.start ≤ closing.stop
  /-- The first anchor inside another begins behind the start tag of that. -/
  firstChild : ∀ parent ∈ outline.flatten, ∀ child ∈ parent.children.head?,
    parent.facts.stop ≤ child.facts.start
  /-- A closed region and all that is inside it, end tags included, lie before its end tag. -/
  inside : ∀ region ∈ outline.flatten, ∀ closing ∈ region.closing,
    region.facts.stop ≤ closing.start ∧
      ∀ inner ∈ walkAll region.children, inner.EndsBy closing.start
  /-- A later sibling begins behind all that belongs to an earlier one. -/
  siblings : ∀ anchors, outline.Siblings anchors → anchors.Pairwise fun earlier later =>
    ∀ inner ∈ earlier.walk, inner.EndsBy later.facts.start
  /-- A region does not end on an earlier line than it begins. -/
  lines : ∀ region ∈ outline.flatten, ∀ closing ∈ region.closing,
    region.facts.line ≤ closing.line
  /-- Every region inside a closed one is closed. -/
  closedInside : ∀ region ∈ outline.flatten, region.isClosed →
    ∀ inner ∈ walkAll region.children, inner.facts.isRegion → inner.isClosed
  /-- An unclosed region is the last of its siblings. -/
  unclosedLast : ∀ anchors, outline.Siblings anchors →
    ∀ anchor ∈ anchors.dropLast, ¬ anchor.IsUnclosed
  /-- What an unclosed region is inside of is an unclosed region. -/
  unclosedParent : ∀ parent ∈ outline.flatten, ∀ child ∈ parent.children,
    child.IsUnclosed → parent.IsUnclosed
  /-- The folds are those of the closed regions in post-order. -/
  folds : outline.folds = (Anchor.postorderAll outline.anchors).filterMap Anchor.fold?

end Outline

namespace Anchor

open Outline (Piece)

/-! ## Pieces and folds as tellings -/

/-- Tells where the start tags and the end tags stand. -/
def pieces : Telling Piece where
  opening facts := [.ofFacts facts]
  ending _ closing := [.ofClosing closing]

/-- Tells the fold of each region that is closed, where it is. -/
def foldings : Telling Fold where
  opening _ := []
  ending facts closing := [⟨facts.line - 1, closing.line - 1⟩]

mutual

/-- The folds of an anchor are told in post-order. -/
theorem tell_foldings (anchor : Anchor) :
    anchor.tell foldings = anchor.postorder.filterMap fold? := by
  cases anchor with
  | mk facts closing children =>
      rw [tell, postorder, List.filterMap_append, tellAll_foldings children]
      cases closing <;> rfl

/-- The folds of a forest are told in post-order. -/
theorem tellAll_foldings (anchors : List Anchor) :
    tellAll foldings anchors = (postorderAll anchors).filterMap fold? := by
  cases anchors with
  | nil => rfl
  | cons anchor rest =>
      rw [tellAll, postorderAll, List.filterMap_append, tell_foldings anchor,
        tellAll_foldings rest]

end

/-- The pieces of an anchor are its start tag, what is inside it, and its end tag. -/
theorem tell_pieces (anchor : Anchor) :
    anchor.tell pieces =
      .ofFacts anchor.facts :: tellAll pieces anchor.children ++
        (anchor.closing.map Piece.ofClosing).toList := by
  cases anchor with
  | mk facts closing children => cases closing <;> rfl

/-- The start tag is a piece of an anchor. -/
theorem ofFacts_mem_pieces (anchor : Anchor) :
    Piece.ofFacts anchor.facts ∈ anchor.tell pieces := by
  simp [tell_pieces]

/-- The end tag is a piece of an anchor. -/
theorem ofClosing_mem_pieces {anchor : Anchor} {closing : Closing}
    (h : closing ∈ anchor.closing) : Piece.ofClosing closing ∈ anchor.tell pieces := by
  have hclosing : anchor.closing = some closing := h
  simp [tell_pieces, hclosing]

/-- An anchor lies before an offset if its pieces do. -/
theorem endsBy_of_pieces {anchor : Anchor} {offset : Nat}
    (h : ∀ piece ∈ anchor.tell pieces, piece.stop ≤ offset) : anchor.EndsBy offset :=
  ⟨h _ anchor.ofFacts_mem_pieces, fun _ hclosing => h _ (ofClosing_mem_pieces hclosing)⟩

/-! ## What the order of the pieces says -/

/-- Trees of a forest whose pieces lie one behind the other lie one behind the other. -/
theorem pairwise_endsBy {anchors : List Anchor}
    (h : (tellAll pieces anchors).Pairwise Piece.Before) :
    anchors.Pairwise fun earlier later =>
      ∀ inner ∈ earlier.walk, inner.EndsBy later.facts.start := by
  induction anchors with
  | nil => exact .nil
  | cons anchor rest ih =>
      rw [tellAll, List.pairwise_append] at h
      obtain ⟨-, hrest, hacross⟩ := h
      refine List.pairwise_cons.mpr ⟨fun later hlater inner hinner => ?_, ih hrest⟩
      refine endsBy_of_pieces fun piece hpiece => ?_
      have hfirst := (tell_sublist_of_mem_walk pieces anchor hinner).subset hpiece
      have hsecond := (tell_sublist_tellAll hlater pieces).subset later.ofFacts_mem_pieces
      exact (hacross piece hfirst _ hsecond).offset

/-- Where the pieces of an anchor lie one behind the other, so do its start tag, what is inside it,
and its end tag. -/
theorem order_of_pieces {anchor : Anchor} (h : (anchor.tell pieces).Pairwise Piece.Before) :
    (∀ child ∈ anchor.children.head?, anchor.facts.stop ≤ child.facts.start) ∧
      ∀ closing ∈ anchor.closing, anchor.facts.stop ≤ closing.start ∧
        anchor.facts.line ≤ closing.line ∧
          ∀ inner ∈ walkAll anchor.children, inner.EndsBy closing.start := by
  rw [tell_pieces, List.cons_append, List.pairwise_cons, List.pairwise_append] at h
  obtain ⟨hstart, -, -, hend⟩ := h
  constructor
  · intro child hchild
    have hmem := (tell_sublist_tellAll (List.mem_of_mem_head? hchild) pieces).subset
      child.ofFacts_mem_pieces
    exact (hstart _ (List.mem_append_left _ hmem)).offset
  · intro closing hclosing
    have htag : Piece.ofClosing closing ∈ (anchor.closing.map Piece.ofClosing).toList := by
      have hsome : anchor.closing = some closing := hclosing
      simp [hsome]
    have hbefore := hstart _ (List.mem_append_right _ htag)
    refine ⟨hbefore.offset, hbefore.line, fun inner hinner => ?_⟩
    refine endsBy_of_pieces fun piece hpiece => ?_
    have hmem := (tell_sublist_of_mem_walkAll pieces anchor.children hinner).subset hpiece
    exact (hend piece hmem _ htag).offset

/-! ## What is closed -/

/-- A region that is closed, or an anchor without anything inside. -/
def IsSettled (anchor : Anchor) : Prop :=
  if anchor.facts.isRegion then anchor.isClosed else anchor.children = [] ∧ anchor.closing = none

/-- Every region of a forest is closed, and nothing else has anything inside. -/
def Settled (anchors : List Anchor) : Prop :=
  ∀ anchor ∈ walkAll anchors, anchor.IsSettled

/-- A forest in which only the regions on the rightmost path may be unclosed. -/
inductive OpenEnded : List Anchor → Prop where
  | settled {anchors : List Anchor} (h : Settled anchors) : OpenEnded anchors
  | unclosed {before : List Anchor} {facts : Facts} {children : List Anchor}
      (hbefore : Settled before) (hregion : facts.isRegion = true)
      (hchildren : OpenEnded children) : OpenEnded (before ++ [.mk facts none children])

/-- The order of the trees makes no difference to what is closed. -/
theorem Settled.of_subset {first second : List Anchor} (h : Settled second)
    (hsubset : first ⊆ second) : Settled first := by
  intro anchor hanchor
  obtain ⟨root, hroot, hwalk⟩ := mem_walkAll.mp hanchor
  exact h anchor (mem_walkAll.mpr ⟨root, hsubset hroot, hwalk⟩)

/-- A settled forest with one more settled tree. -/
theorem Settled.cons {anchor : Anchor} {anchors : List Anchor} (h : Settled anchors)
    (hanchor : anchor.IsSettled) (hchildren : Settled anchor.children) :
    Settled (anchor :: anchors) := by
  cases anchor with
  | mk facts closing children =>
      intro inner hinner
      rw [walkAll, walk, List.cons_append, List.mem_cons, List.mem_append] at hinner
      rcases hinner with rfl | hinner | hinner
      · exact hanchor
      · exact hchildren inner hinner
      · exact h inner hinner

/-- A settled anchor is no unclosed region. -/
theorem IsSettled.not_unclosed {anchor : Anchor} (h : anchor.IsSettled) : ¬ anchor.IsUnclosed := by
  rintro ⟨hregion, hclosing⟩
  simp [IsSettled, hregion, isClosed, hclosing] at h

/-- What an anchor of an open-ended forest is: it is settled with all that is inside it, or it is an
unclosed region with an open-ended forest inside. -/
theorem OpenEnded.cases_of_mem {anchor : Anchor} {anchors : List Anchor} (h : OpenEnded anchors)
    (hanchor : anchor ∈ walkAll anchors) :
    (anchor.IsSettled ∧ Settled anchor.children) ∨
      (anchor.IsUnclosed ∧ OpenEnded anchor.children) := by
  induction h with
  | settled h =>
      exact .inl ⟨h anchor hanchor,
        fun inner hinner => h inner (mem_walkAll_trans _ hanchor hinner)⟩
  | @unclosed before facts children hbefore hregion hchildren ih =>
      obtain ⟨root, hroot, hwalk⟩ := mem_walkAll.mp hanchor
      rcases List.mem_append.mp hroot with hroot | hroot
      · have hmem : anchor ∈ walkAll before := mem_walkAll.mpr ⟨root, hroot, hwalk⟩
        exact .inl ⟨hbefore anchor hmem,
          fun inner hinner => hbefore inner (mem_walkAll_trans _ hmem hinner)⟩
      · obtain rfl := List.mem_singleton.mp hroot
        rw [walk, List.mem_cons] at hwalk
        rcases hwalk with rfl | hwalk
        · exact .inr ⟨⟨hregion, rfl⟩, hchildren⟩
        · exact ih hwalk

/-- In an open-ended forest only the last tree may be an unclosed region. -/
theorem OpenEnded.dropLast {anchors : List Anchor} (h : OpenEnded anchors) :
    ∀ anchor ∈ anchors.dropLast, ¬ anchor.IsUnclosed := by
  intro anchor hanchor
  cases h with
  | settled h =>
      exact (h anchor (mem_walkAll_of_mem (List.dropLast_subset _ hanchor))).not_unclosed
  | unclosed hbefore hregion hchildren =>
      rw [List.dropLast_concat] at hanchor
      exact (hbefore anchor (mem_walkAll_of_mem hanchor)).not_unclosed

end Anchor

namespace Outline

open Anchor (Settled OpenEnded walkAll pieces foldings)

variable {events : List Event}

/-! ## The outline in the making -/

namespace Draft

/-- What is finished in a draft is settled, and what is open are regions. -/
structure IsSettled (draft : Draft) : Prop where
  roots : Settled draft.roots
  regions : ∀ region ∈ draft.regions, region.facts.isRegion = true ∧ Settled region.inside

/-- A settled anchor may be put into a draft. -/
theorem IsSettled.place {draft : Draft} (h : draft.IsSettled) {anchor : Anchor}
    (hanchor : anchor.IsSettled) (hchildren : Settled anchor.children) :
    (draft.place anchor).IsSettled := by
  obtain ⟨regions, roots, folds⟩ := draft
  cases regions with
  | nil => exact ⟨h.roots.cons hanchor hchildren, h.regions⟩
  | cons region outer =>
      obtain ⟨hregion, houter⟩ := List.forall_mem_cons.mp h.regions
      exact ⟨h.roots, List.forall_mem_cons.mpr
        ⟨⟨hregion.1, hregion.2.cons hanchor hchildren⟩, houter⟩⟩

/-- What an event finishes is settled. -/
theorem IsSettled.meet {draft : Draft} (h : draft.IsSettled) (event : Event) :
    (draft.meet event).IsSettled := by
  have hnone : Settled [] := by simp [Settled, walkAll]
  cases event with
  | anchor key facts =>
      unfold Draft.meet
      dsimp only
      by_cases hregion : facts.isRegion
      · rw [if_pos hregion]
        exact ⟨h.roots, List.forall_mem_cons.mpr ⟨⟨hregion, hnone⟩, h.regions⟩⟩
      · rw [if_neg hregion]
        refine h.place ?_ hnone
        simp [Anchor.IsSettled, Anchor.facts, hregion, Anchor.children, Anchor.closing]
  | close key closing =>
      rcases draft.meet_close_cases key closing with ⟨region, outer, hregions, rfl⟩ | hidle
      · rw [meet_close hregions]
        obtain ⟨hregion, houter⟩ := List.forall_mem_cons.mp (hregions ▸ h.regions)
        have hrest : (Draft.mk outer draft.roots
            (⟨region.facts.line - 1, closing.line - 1⟩ :: draft.folds)).IsSettled :=
          ⟨h.roots, houter⟩
        refine hrest.place ?_ (hregion.2.of_subset (by simp [Anchor.children]))
        simp [Anchor.IsSettled, Anchor.facts, hregion.1, Anchor.isClosed, Anchor.closing]
      · rw [hidle]
        exact h

/-- Finishing a draft leaves a forest that is open-ended: each region that is open becomes the last
anchor of the one around it. -/
theorem openEnded_finish {roots : List Anchor} {region : OpenRegion} {outer : List OpenRegion}
    (hroots : Settled roots) (hregion : region.facts.isRegion = true)
    (hinside : OpenEnded region.inside.reverse)
    (houter : ∀ region ∈ outer, region.facts.isRegion = true ∧ Settled region.inside) :
    OpenEnded (finish roots (region :: outer)) := by
  induction outer generalizing region with
  | nil =>
      rw [finish, finish, List.reverse_cons]
      exact .unclosed (hroots.of_subset (by simp)) hregion hinside
  | cons next further ih =>
      obtain ⟨hnext, hfurther⟩ := List.forall_mem_cons.mp houter
      rw [finish]
      refine ih hnext.1 ?_ hfurther
      rw [List.reverse_cons]
      exact .unclosed (hnext.2.of_subset (by simp)) hregion hinside

/-- The forest of a settled draft is open-ended. -/
theorem IsSettled.finish {draft : Draft} (h : draft.IsSettled) :
    OpenEnded (Draft.finish draft.roots draft.regions) := by
  cases hregions : draft.regions with
  | nil =>
      rw [Draft.finish]
      exact .settled (h.roots.of_subset (by simp))
  | cons region outer =>
      obtain ⟨hregion, houter⟩ := List.forall_mem_cons.mp (hregions ▸ h.regions)
      exact openEnded_finish h.roots hregion.1 (.settled (hregion.2.of_subset (by simp))) houter

/-- What is told of a draft grows by the piece of an event, unless the event has no effect. -/
theorem tell_pieces_meet (draft : Draft) (event : Event) :
    (draft.meet event).tell pieces = draft.tell pieces ++ [event.piece] ∨
      draft.meet event = draft := by
  cases event with
  | anchor key facts => exact .inl (tell_meet_anchor pieces draft key facts)
  | close key closing =>
      rcases draft.meet_close_cases key closing with ⟨region, outer, hregions, rfl⟩ | hidle
      · exact .inl (tell_meet_close pieces hregions)
      · exact .inr hidle

/-- The folds of a draft go on to be those of its closed regions. -/
theorem tell_foldings_meet {draft : Draft} (h : draft.tell foldings = draft.folds.reverse)
    (event : Event) : (draft.meet event).tell foldings = (draft.meet event).folds.reverse := by
  cases event with
  | anchor key facts =>
      have hfolds : (draft.meet (.anchor key facts)).folds = draft.folds := by
        unfold Draft.meet Draft.place
        by_cases hregion : facts.isRegion <;> cases draft.regions <;> simp [hregion]
      rw [tell_meet_anchor, h, hfolds]
      exact List.append_nil _
  | close key closing =>
      rcases draft.meet_close_cases key closing with ⟨region, outer, hregions, rfl⟩ | hidle
      · have hfolds : (draft.meet (.close region.key closing)).folds =
            ⟨region.facts.line - 1, closing.line - 1⟩ :: draft.folds := by
          rw [meet_close hregions]
          unfold Draft.place
          cases outer <;> rfl
        rw [tell_meet_close foldings hregions, h, hfolds, List.reverse_cons]
        rfl
      · rw [hidle]
        exact h

end Draft

/-- What every event keeps of a draft holds of the draft after all of them. -/
theorem foldl_meet_induction (holds : Draft → Prop) (hstart : holds .start)
    (hmeet : ∀ draft event, holds draft → holds (draft.meet event)) (events : List Event) :
    holds (events.foldl Draft.meet .start) := by
  generalize Draft.start = draft at hstart
  induction events generalizing draft with
  | nil => exact hstart
  | cons event rest ih => exact ih _ (hmeet draft event hstart)

/-! ## The outline of some events -/

/-- The forest of some events is open-ended. -/
theorem openEnded_ofEvents (events : List Event) : OpenEnded (ofEvents events).anchors := by
  refine (foldl_meet_induction Draft.IsSettled ⟨?_, ?_⟩ (fun _ event h => h.meet event)
    events).finish
  · simp [Settled, Draft.start, walkAll]
  · simp [Draft.start]

/-- The folds of some events are those of the closed regions in post-order. -/
theorem folds_ofEvents (events : List Event) :
    (ofEvents events).folds =
      (Anchor.postorderAll (ofEvents events).anchors).filterMap Anchor.fold? := by
  have hfolds : (events.foldl Draft.meet .start).tell foldings =
      (events.foldl Draft.meet .start).folds.reverse :=
    foldl_meet_induction (fun draft => draft.tell foldings = draft.folds.reverse) rfl
      (fun _ event h => Draft.tell_foldings_meet h event) events
  rw [← Anchor.tellAll_foldings]
  exact hfolds.symm.trans (Draft.tellAll_finish foldings _ _).symm

/-- The pieces of an outline are those of its events, without some end tags. -/
theorem pieces_ofEvents_sublist (events : List Event) :
    (Anchor.tellAll pieces (ofEvents events).anchors).Sublist (events.map Event.piece) := by
  have hpieces : ∀ draft : Draft, ((events.foldl Draft.meet draft).tell pieces).Sublist
      (draft.tell pieces ++ events.map Event.piece) := by
    induction events with
    | nil => simp
    | cons event rest ih =>
        intro draft
        refine (ih (draft.meet event)).trans ?_
        rcases draft.tell_pieces_meet event with hpiece | hidle
        · simp [hpiece]
        · rw [hidle]
          exact (List.sublist_cons_self _ _).append_left _
  have hstart : Draft.start.tell pieces = [] := rfl
  have htell := hpieces .start
  rw [hstart, List.nil_append] at htell
  exact (Draft.tellAll_finish pieces _ _) ▸ htell

/-- Each piece of an anchor in an outline is that of an event. -/
theorem exists_event_of_mem_tell {anchor : Anchor} {piece : Piece}
    (hanchor : anchor ∈ (ofEvents events).flatten) (hpiece : piece ∈ anchor.tell pieces) :
    ∃ event ∈ events, event.piece = piece := by
  have htold := (Anchor.tell_sublist_of_mem_walkAll pieces _ hanchor).subset hpiece
  exact List.mem_map.mp ((pieces_ofEvents_sublist events).subset htold)

/-- The line of each piece of an anchor is that on which it starts. -/
theorem line_of_mem_tell {matcher : Matcher} {registry : Registry} {showTag : Bool}
    {text : List Char} {anchor : Anchor} {piece : Piece}
    (h : eventsOf matcher registry showTag text = .ok events)
    (hanchor : anchor ∈ (ofEvents events).flatten) (hpiece : piece ∈ anchor.tell pieces) :
    piece.line = Text.lineOf (Text.lineStarts text) piece.start := by
  obtain ⟨event, hevent, rfl⟩ := exists_event_of_mem_tell hanchor hpiece
  obtain ⟨hit, -, hhit⟩ := exists_of_forall₂ (forall₂_of_mapM h) hevent
  exact (piece_eventOf hhit).line

/-- If the events lie one behind the other, the outline is well nested. -/
theorem wellNested_ofEvents
    (hordered : ∀ event ∈ events, event.piece.start ≤ event.piece.stop)
    (hbefore : events.Pairwise fun first second => first.piece.Before second.piece) :
    (ofEvents events).WellNested := by
  have hsublist := pieces_ofEvents_sublist events
  have hpieces : (Anchor.tellAll pieces (ofEvents events).anchors).Pairwise Piece.Before :=
    (List.pairwise_map.mpr hbefore).sublist hsublist
  have hanchor : ∀ anchor ∈ (ofEvents events).flatten, (anchor.tell pieces).Sublist
      (Anchor.tellAll pieces (ofEvents events).anchors) :=
    fun anchor h => Anchor.tell_sublist_of_mem_walkAll pieces _ h
  have horder := fun anchor h => Anchor.order_of_pieces (hpieces.sublist (hanchor anchor h))
  have hopen := openEnded_ofEvents events
  have hpiece : ∀ anchor ∈ (ofEvents events).flatten, ∀ piece ∈ anchor.tell pieces,
      piece.start ≤ piece.stop := by
    intro anchor h piece hmem
    obtain ⟨event, hevent, rfl⟩ := exists_event_of_mem_tell h hmem
    exact hordered event hevent
  exact {
    plain := fun anchor h hplain => by
      rcases hopen.cases_of_mem h with ⟨hsettled, -⟩ | ⟨hunclosed, -⟩
      · simpa [Anchor.IsSettled, hplain] using hsettled
      · simp [hunclosed.1] at hplain
    ordered := fun anchor h =>
      ⟨hpiece anchor h _ anchor.ofFacts_mem_pieces,
        fun closing hclosing => hpiece anchor h _ (Anchor.ofClosing_mem_pieces hclosing)⟩
    firstChild := fun parent h => (horder parent h).1
    inside := fun region h closing hclosing =>
      ⟨((horder region h).2 closing hclosing).1, ((horder region h).2 closing hclosing).2.2⟩
    siblings := fun anchors h => by
      rcases h with rfl | ⟨parent, hparent, rfl⟩
      · exact Anchor.pairwise_endsBy hpieces
      · exact Anchor.pairwise_endsBy (hpieces.sublist
          ((Anchor.tellAll_children_sublist pieces parent).trans (hanchor parent hparent)))
    lines := fun region h closing hclosing => ((horder region h).2 closing hclosing).2.1
    closedInside := fun region h hclosed inner hinner hregion => by
      rcases hopen.cases_of_mem h with ⟨-, hsettled⟩ | ⟨hunclosed, -⟩
      · simpa [Anchor.IsSettled, hregion] using hsettled inner hinner
      · simp [Anchor.isClosed, hunclosed.2] at hclosed
    unclosedLast := fun anchors h => by
      rcases h with rfl | ⟨parent, hparent, rfl⟩
      · exact hopen.dropLast
      · rcases hopen.cases_of_mem hparent with ⟨-, hsettled⟩ | ⟨-, hinside⟩
        · exact (OpenEnded.settled hsettled).dropLast
        · exact hinside.dropLast
    unclosedParent := fun parent h child hchild hunclosed => by
      rcases hopen.cases_of_mem h with ⟨-, hsettled⟩ | ⟨hparent, -⟩
      · exact absurd hunclosed (hsettled child (Anchor.mem_walkAll_of_mem hchild)).not_unclosed
      · exact hparent
    folds := folds_ofEvents events }

/-- Every outline of a text is well nested. -/
theorem ofText_wellNested {matcher : Matcher} {registry : Registry} {showTag : Bool}
    {text : List Char} {outline : Outline} {found : Bool}
    (h : ofText matcher registry showTag text = .ok (outline, found)) : outline.WellNested := by
  unfold ofText at h
  cases hevents : eventsOf matcher registry showTag text with
  | error error => simp [hevents, Except.map] at h
  | ok events =>
      simp only [hevents, Except.map, Except.ok.injEq, Prod.mk.injEq] at h
      rw [← h.1]
      exact wellNested_ofEvents (ordered_eventsOf hevents) (pairwise_eventsOf hevents)

/-- A text in which one region is closed, an end tag comes too early, and three regions are never
closed, one inside the other. -/
theorem ofText_wellNested_unclosed :
    let registry := Registry.ofTags
      [{ name := "A", behavior := .region, styleMode := .full },
       { name := "B", behavior := .region, styleMode := .comment }, { name := "T" }]
    let matcher : Matcher :=
      { marks := ["#".toList], tokens := ["!A", "!B", "A", "B", "T"].map String.toList
        separators := [": ".toList], endTag := "!", matchCase := false }
    let text := "# A: x\n# B: y -->\n# T: t\n# !A\n# !B\n# A\n# B\n# T\n".toList
    ∃ outline found, ofText matcher registry true text = .ok (outline, found) ∧
      outline.flatten.map Anchor.isClosed = [false, true, false, false, false, false] ∧
      outline.folds = [⟨1, 4⟩] ∧ outline.WellNested := by
  intro registry matcher text
  have hshape : (ofText matcher registry true text).toOption.map
      (fun read => (read.1.flatten.map Anchor.isClosed, read.1.folds)) =
        some ([false, true, false, false, false, false], [⟨1, 4⟩]) := by
    decide +kernel
  cases hread : ofText matcher registry true text with
  | error error => simp [hread, Except.toOption] at hshape
  | ok read =>
      simp only [hread, Except.toOption, Option.map_some, Option.some.injEq, Prod.mk.injEq]
        at hshape
      exact ⟨read.1, read.2, rfl, hshape.1, hshape.2, ofText_wellNested hread⟩

end Outline

end CommentIndex
