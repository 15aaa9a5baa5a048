import CommentIndex.Proofs.Outline.Nesting

/-!
# Outlines of one row of events behind another

A `Move` takes what is met in a document to where it is met if more stands in front: offsets and
lines grow, and with the lines those numbers that anchors take from their lines. Events that are
moved have the outline that is moved (`ofEvents_move`). And if no region is left open by some
events, those that follow have their own outline behind the one of the first (`ofEvents_append`).
-/

namespace CommentIndex

open Outline (Event OpenRegion Draft ofEvents)

/-- How far anchors and end tags are moved. -/
structure Move where
  chars : Nat
  lines : Nat
  /-- Whether the anchor or end tag at an offset has a number of its own as its `seq`. The others
  are numbered by their lines. -/
  isNumbered : Nat → Bool

namespace Move

variable (move : Move)

/-- The attributes of what stands at an offset, once it is moved. -/
def attributes (start : Nat) (attributes : Attributes) : Attributes :=
  if move.isNumbered start then attributes
  else { attributes with seq := attributes.seq + move.lines }

/-- What an anchor says once it is moved. -/
def facts (facts : Facts) : Facts :=
  { facts with
    start := facts.start + move.chars
    stop := facts.stop + move.chars
    line := facts.line + move.lines
    attributes := move.attributes facts.start facts.attributes }

/-- An end tag once it is moved. -/
def closing (closing : Closing) : Closing :=
  { start := closing.start + move.chars
    stop := closing.stop + move.chars
    line := closing.line + move.lines
    attributes := move.attributes closing.start closing.attributes }

mutual

/-- An anchor once it is moved with those inside it. -/
def anchor : Anchor → Anchor
  | .mk facts closing children =>
    .mk (move.facts facts) (closing.map move.closing) (anchors children)
termination_by structural tree => tree

/-- A forest once it is moved. -/
def anchors : List Anchor → List Anchor
  | [] => []
  | tree :: rest => anchor tree :: anchors rest
termination_by structural trees => trees

end

/-- The lines of a region once they are moved. -/
def fold (fold : Fold) : Fold :=
  ⟨fold.first + move.lines, fold.last + move.lines⟩

/-- An outline once it is moved. -/
def outline (outline : Outline) : Outline :=
  ⟨move.anchors outline.anchors, outline.folds.map move.fold⟩

/-- A forest is moved tree by tree. -/
theorem anchors_eq_map (trees : List Anchor) : move.anchors trees = trees.map move.anchor := by
  induction trees with
  | nil => rfl
  | cons tree rest ih => rw [anchors, ih, List.map_cons]

/-! ## Events that are moved -/

/-- An event once it is moved. -/
def event : Event → Event
  | .anchor key facts => .anchor key (move.facts facts)
  | .close key closing => .close key (move.closing closing)

/-- A region that is open, once it is moved with what is inside. -/
def region (region : OpenRegion) : OpenRegion :=
  ⟨region.key, move.facts region.facts, move.anchors region.inside⟩

/-- An outline in the making once it is moved. -/
def draft (draft : Draft) : Draft :=
  ⟨draft.regions.map move.region, move.anchors draft.roots, draft.folds.map move.fold⟩

/-- An anchor is put into a draft before or after they are moved. -/
theorem draft_place (draft : Draft) (tree : Anchor) :
    move.draft (draft.place tree) = (move.draft draft).place (move.anchor tree) := by
  obtain ⟨regions, roots, folds⟩ := draft
  cases regions <;> rfl

/-- The anchor that an open region becomes is made before or after it is moved. -/
theorem anchor_region (region : OpenRegion) (closing : Option Closing) :
    move.anchor (.mk region.facts closing region.inside.reverse) =
      .mk (move.region region).facts (closing.map move.closing)
        (move.region region).inside.reverse := by
  simp only [anchor, Move.region, anchors_eq_map, List.map_reverse]

/-- The lines of a region are counted before or after it is moved. -/
theorem fold_lines (facts : Facts) (closing : Closing) :
    move.fold ⟨facts.line - 1, closing.line - 1⟩ =
      ⟨(move.facts facts).line - 1, (move.closing closing).line - 1⟩ := by
  simp only [fold, Move.facts, Move.closing, Fold.mk.injEq]
  omega

/-- An event is met before or after it is moved with the draft. -/
theorem draft_meet (draft : Draft) (event : Event) :
    move.draft (draft.meet event) = (move.draft draft).meet (move.event event) := by
  cases event with
  | anchor key facts =>
      have hregion : (move.facts facts).isRegion = facts.isRegion := rfl
      unfold Draft.meet Move.event
      dsimp only
      rw [hregion]
      split
      · rfl
      · exact move.draft_place draft _
  | close key closing =>
      cases hregions : draft.regions with
      | nil => simp [Draft.meet, Move.event, Move.draft, hregions]
      | cons region outer =>
          have hmoved : (move.draft draft).regions =
              move.region region :: outer.map move.region := by
            rw [Move.draft, hregions, List.map_cons]
          by_cases hkey : region.key = key
          · subst hkey
            have hclose : (move.draft draft).meet
                (.close (move.region region).key (move.closing closing)) = _ :=
              Draft.meet_close hmoved
            rw [Draft.meet_close hregions, draft_place, anchor_region]
            refine Eq.trans ?_ hclose.symm
            rw [Move.draft, List.map_cons, fold_lines]
            rfl
          · rw [Draft.meet_close_of_ne (by simp [hregions, hkey])]
            exact (Draft.meet_close_of_ne (by simp [hmoved, Move.region, hkey])).symm

/-- A draft is finished before or after it is moved. -/
theorem anchors_finish (roots : List Anchor) (regions : List OpenRegion) :
    move.anchors (Draft.finish roots regions) =
      Draft.finish (move.anchors roots) (regions.map move.region) := by
  -- By induction on the number of regions: finishing one changes the region around it.
  induction hn : regions.length generalizing roots regions with
  | zero =>
      obtain rfl := List.length_eq_zero_iff.mp hn
      rw [Draft.finish, List.map_nil, Draft.finish, anchors_eq_map, anchors_eq_map,
        List.map_reverse]
  | succ n ih =>
      obtain ⟨region, outer, rfl⟩ := List.exists_cons_of_length_eq_add_one hn
      have hlength : outer.length = n := by simpa using hn
      have hplace := move.draft_place ⟨outer, roots, []⟩
        (.mk region.facts none region.inside.reverse)
      rw [anchor_region] at hplace
      rw [Draft.finish_cons roots [] region outer, ih, List.map_cons, Draft.finish_cons _ []]
      · exact congrArg (fun draft => Draft.finish draft.roots draft.regions) hplace
      · cases outer <;> simpa [Draft.place] using hlength

/-- Events that are moved have the outline of the events, moved as they are. -/
theorem ofEvents_move (events : List Event) :
    ofEvents (events.map move.event) = move.outline (ofEvents events) := by
  have hfold (draft : Draft) : (events.map move.event).foldl Draft.meet (move.draft draft) =
      move.draft (events.foldl Draft.meet draft) := by
    induction events generalizing draft with
    | nil => rfl
    | cons event rest ih =>
        rw [List.map_cons, List.foldl_cons, List.foldl_cons, ← draft_meet]
        exact ih (draft.meet event)
  have hstart : move.draft .start = .start := rfl
  have hevents := hfold .start
  rw [hstart] at hevents
  simp only [ofEvents, hevents, outline, anchors_finish, List.map_reverse]
  rfl

end Move

/-! ## One row of events behind another -/

namespace Outline

open Anchor (Settled)

namespace Draft

variable {roots : List Anchor} {folds : List Fold}

/-- A draft behind roots and folds that are finished, last ones first. -/
def behind (draft : Draft) (roots : List Anchor) (folds : List Fold) : Draft :=
  ⟨draft.regions, draft.roots ++ roots, draft.folds ++ folds⟩

/-- An anchor is put into a draft wherever that begins. -/
theorem place_behind (draft : Draft) (tree : Anchor) :
    (draft.behind roots folds).place tree = (draft.place tree).behind roots folds := by
  obtain ⟨regions, inside, lines⟩ := draft
  cases regions <;> rfl

/-- An event is met wherever a draft begins. -/
theorem meet_behind (draft : Draft) (event : Event) :
    (draft.behind roots folds).meet event = (draft.meet event).behind roots folds := by
  cases event with
  | anchor key facts =>
      unfold meet
      dsimp only
      split
      · rfl
      · exact place_behind draft _
  | close key closing =>
      cases hregions : draft.regions with
      | nil => simp [meet, behind, hregions]
      | cons region outer =>
          have hbehind : (draft.behind roots folds).regions = region :: outer := hregions
          by_cases hkey : region.key = key
          · subst hkey
            rw [meet_close hregions, meet_close hbehind, ← place_behind]
            rfl
          · rw [meet_close_of_ne (by simp [hbehind, hkey]),
              meet_close_of_ne (by simp [hregions, hkey])]

/-- A draft is finished wherever it begins. -/
theorem finish_append (roots before : List Anchor) (regions : List OpenRegion) :
    finish (roots ++ before) regions = before.reverse ++ finish roots regions := by
  -- By induction on the number of regions: finishing one changes the region around it.
  induction hn : regions.length generalizing roots regions with
  | zero =>
      obtain rfl := List.length_eq_zero_iff.mp hn
      rw [finish, finish, List.reverse_append]
  | succ n ih =>
      obtain ⟨region, outer, rfl⟩ := List.exists_cons_of_length_eq_add_one hn
      have hlength : outer.length = n := by simpa using hn
      have hplace : (Draft.mk outer (roots ++ before) []).place
            (.mk region.facts none region.inside.reverse) =
          ((Draft.mk outer roots []).place
            (.mk region.facts none region.inside.reverse)).behind before [] :=
        place_behind ⟨outer, roots, []⟩ _
      rw [finish_cons _ [], finish_cons _ [], ← ih]
      · exact congrArg (fun draft => finish draft.roots draft.regions) hplace
      · cases outer <;> simpa [place] using hlength

/-- If a region is open in a draft, the outermost one becomes a root without an end tag. -/
theorem exists_unclosed_of_regions {roots : List Anchor} {regions : List OpenRegion}
    (hregions : ∀ region ∈ regions, region.facts.isRegion = true) (hopen : regions ≠ []) :
    ∃ root ∈ finish roots regions, root.IsUnclosed := by
  -- By induction on the number of regions: finishing one changes the region around it.
  induction hn : regions.length generalizing regions with
  | zero => exact absurd (List.length_eq_zero_iff.mp hn) hopen
  | succ n ih =>
      obtain ⟨region, outer, rfl⟩ := List.exists_cons_of_length_eq_add_one hn
      obtain ⟨hregion, houter⟩ := List.forall_mem_cons.mp hregions
      cases outer with
      | nil =>
          rw [finish, finish]
          exact ⟨.mk region.facts none region.inside.reverse, by simp, hregion, rfl⟩
      | cons next further =>
          rw [finish]
          exact ih (List.forall_mem_cons.mpr (List.forall_mem_cons.mp houter)) (by simp)
            (by simpa using hn)

end Draft

/-- No region is left open by events whose outline has none without an end tag. -/
theorem regions_eq_nil {events : List Event}
    (hclosed : ∀ anchor ∈ (ofEvents events).flatten, ¬ anchor.IsUnclosed) :
    (events.foldl Draft.meet .start).regions = [] := by
  have hsettled : (events.foldl Draft.meet .start).IsSettled := by
    refine foldl_meet_induction Draft.IsSettled ⟨?_, ?_⟩ (fun _ event h => h.meet event) events
    · simp [Settled, Draft.start, Anchor.walkAll]
    · simp [Draft.start]
  by_contra hopen
  obtain ⟨root, hroot, hunclosed⟩ := Draft.exists_unclosed_of_regions
    (fun region hmem => (hsettled.regions region hmem).1) hopen
  exact hclosed root (Anchor.mem_walkAll_of_mem hroot) hunclosed

/-- If some events leave no region open, those that follow have their own outline behind that of
the first. -/
theorem ofEvents_append {first second : List Event}
    (hclosed : ∀ anchor ∈ (ofEvents first).flatten, ¬ anchor.IsUnclosed) :
    ofEvents (first ++ second) =
      ⟨(ofEvents first).anchors ++ (ofEvents second).anchors,
        (ofEvents first).folds ++ (ofEvents second).folds⟩ := by
  have hregions := regions_eq_nil hclosed
  have hbehind (roots : List Anchor) (folds : List Fold) (draft : Draft) :
      second.foldl Draft.meet (draft.behind roots folds) =
        (second.foldl Draft.meet draft).behind roots folds := by
    induction second generalizing draft with
    | nil => rfl
    | cons event rest ih =>
        rw [List.foldl_cons, List.foldl_cons, Draft.meet_behind]
        exact ih (draft.meet event)
  generalize hdraft : first.foldl Draft.meet .start = draft at hregions
  obtain ⟨regions, roots, folds⟩ := draft
  obtain rfl : regions = [] := hregions
  have hboth : (first ++ second).foldl Draft.meet .start =
      (second.foldl Draft.meet .start).behind roots folds := by
    rw [List.foldl_append, hdraft]
    exact hbehind roots folds .start
  simp only [ofEvents, hboth, hdraft, Draft.behind, Draft.finish_append, List.reverse_append,
    Draft.finish]

end Outline

end CommentIndex
