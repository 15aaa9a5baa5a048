import CommentIndex.Outline
import Mathlib.Data.List.Basic

/-!
# Outlines as tables

A forest of anchors written as a table with one row for each anchor, in the order of the document:
what the anchor says, its end tag, and the row of the anchor that it is in. `Draft.rows` is the
table of an outline in the making. The main statements say how one event changes it: an anchor adds
a row at the end (`Draft.rows_meet_anchor`), an end tag fills in one row
(`Draft.rows_meet_close`), and `Draft.rowsAll_finish` says that finishing the draft leaves the
table as it is.
-/

namespace CommentIndex

namespace Anchor

/-- What an anchor says, its end tag, and the place of the anchor that it is directly in. -/
structure Row where
  facts : Facts
  closing : Option Closing
  parent : Option Nat
deriving DecidableEq, Repr

/-- The row of a region once its end tag has been met. -/
def Row.close (closing : Closing) (row : Row) : Row :=
  { row with closing := some closing }

/-- Filling in one end tag leaves what does not depend on end tags as it is. -/
theorem Row.map_modify_close {α : Type} (closing : Closing) (read : Row → α)
    (hread : ∀ row : Row, read (row.close closing) = read row) (rows : List Row) (place : Nat) :
    (rows.modify place (Row.close closing)).map read = rows.map read := by
  apply List.ext_getElem?
  intro k
  rw [List.getElem?_map, List.getElem?_modify, List.getElem?_map]
  by_cases hk : place = k
  · simp [hk, Function.comp_def, hread]
  · simp [hk]

mutual

/-- The rows of an anchor and of those inside it; its own row is at `place`. -/
def rows (parent : Option Nat) (place : Nat) : Anchor → List Row
  | .mk facts closing children =>
    ⟨facts, closing, parent⟩ :: rowsAll (some place) (place + 1) children
termination_by structural anchor => anchor

/-- The rows of a forest, of which the first is at `place`. -/
def rowsAll (parent : Option Nat) (place : Nat) : List Anchor → List Row
  | [] => []
  | anchor :: rest => anchor.rows parent place ++ rowsAll parent (place + anchor.walk.length) rest
termination_by structural anchors => anchors

end

mutual

/-- The rows list the anchors of a walk. -/
theorem map_rows (parent : Option Nat) (place : Nat) (anchor : Anchor) :
    (anchor.rows parent place).map (fun row => (row.facts, row.closing)) =
      anchor.walk.map fun anchor => (anchor.facts, anchor.closing) := by
  cases anchor with
  | mk facts closing children =>
      simp [rows, walk, Anchor.facts, Anchor.closing, map_rowsAll (some place) (place + 1) children]

/-- The rows of a forest list its anchors in the order of the document. -/
theorem map_rowsAll (parent : Option Nat) (place : Nat) (anchors : List Anchor) :
    (rowsAll parent place anchors).map (fun row => (row.facts, row.closing)) =
      (walkAll anchors).map fun anchor => (anchor.facts, anchor.closing) := by
  cases anchors with
  | nil => simp [rowsAll, walkAll]
  | cons anchor rest => simp [rowsAll, walkAll, map_rows parent place anchor, map_rowsAll]

end

/-- An anchor has as many rows as its walk has anchors. -/
theorem length_rows (parent : Option Nat) (place : Nat) (anchor : Anchor) :
    (anchor.rows parent place).length = anchor.walk.length := by
  simpa using congrArg List.length (map_rows parent place anchor)

/-- The rows of one forest behind another. -/
theorem rowsAll_append (parent : Option Nat) (place : Nat) (first second : List Anchor) :
    rowsAll parent place (first ++ second) =
      rowsAll parent place first ++
        rowsAll parent (place + (rowsAll parent place first).length) second := by
  induction first generalizing place with
  | nil => simp [rowsAll]
  | cons anchor rest ih =>
      simp [rowsAll, ih, length_rows, Nat.add_assoc]

/-- The rows of a forest with one more anchor at its end. -/
theorem rowsAll_concat (parent : Option Nat) (place : Nat) (anchors : List Anchor)
    (anchor : Anchor) :
    rowsAll parent place (anchors ++ [anchor]) =
      rowsAll parent place anchors ++
        anchor.rows parent (place + (rowsAll parent place anchors).length) := by
  simp [rowsAll_append, rowsAll]

end Anchor

namespace Outline

/-- The table of an outline. -/
def rows (outline : Outline) : List Anchor.Row :=
  Anchor.rowsAll none 0 outline.anchors

namespace Draft

mutual

/-- The rows of the finished roots and of the open regions, from the outermost one to the
innermost. -/
def rowsOf (roots : List Anchor) : List OpenRegion → List Anchor.Row
  | [] => Anchor.rowsAll none 0 roots.reverse
  | region :: outer =>
    let before := rowsOf roots outer
    before ++ ⟨region.facts, none, (placesOf roots outer).head?⟩ ::
      Anchor.rowsAll (some before.length) (before.length + 1) region.inside.reverse
termination_by structural regions => regions

/-- The places of the rows of the open regions, innermost first. -/
def placesOf (roots : List Anchor) : List OpenRegion → List Nat
  | [] => []
  | _ :: outer => (rowsOf roots outer).length :: placesOf roots outer
termination_by structural regions => regions

end

/-- The table of an outline in the making. -/
def rows (draft : Draft) : List Anchor.Row :=
  rowsOf draft.roots draft.regions

/-- The places of the rows of the open regions of a draft, innermost first. -/
def places (draft : Draft) : List Nat :=
  placesOf draft.roots draft.regions

/-- Putting an anchor into a draft moves no open region. -/
@[simp] theorem places_place (draft : Draft) (anchor : Anchor) :
    (draft.place anchor).places = draft.places := by
  obtain ⟨regions, roots, folds⟩ := draft
  cases regions with
  | nil => simp [place, places, placesOf]
  | cons region outer => simp [place, places, placesOf]

/-- An anchor that is put into a draft has its rows at the end. -/
theorem rows_place (draft : Draft) (anchor : Anchor) :
    (draft.place anchor).rows =
      draft.rows ++ anchor.rows draft.places.head? draft.rows.length := by
  obtain ⟨regions, roots, folds⟩ := draft
  cases regions with
  | nil => simp [place, rows, rowsOf, places, placesOf, Anchor.rowsAll_concat]
  | cons region outer =>
      simp only [place, rows, rowsOf, places, placesOf, List.reverse_cons, Anchor.rowsAll_concat,
        List.head?_cons, List.length_append, List.length_cons, List.append_assoc,
        List.cons_append]
      rw [Nat.add_right_comm, Nat.add_assoc]

/-- Taking the innermost region as an anchor that is never closed leaves the rows as they are. -/
theorem rowsOf_cons (roots : List Anchor) (folds : List Fold) (region : OpenRegion)
    (outer : List OpenRegion) :
    ((Draft.mk outer roots folds).place (.mk region.facts none region.inside.reverse)).rows =
      rowsOf roots (region :: outer) := by
  rw [rows_place]
  rfl

/-- Finishing a draft means taking its open regions, innermost first, as anchors that are never
closed. -/
theorem finish_cons (roots : List Anchor) (folds : List Fold) (region : OpenRegion)
    (outer : List OpenRegion) :
    finish roots (region :: outer) =
      let draft := (Draft.mk outer roots folds).place (.mk region.facts none region.inside.reverse)
      finish draft.roots draft.regions := by
  cases outer with
  | nil => rw [finish]; rfl
  | cons next further => rw [finish]; rfl

/-- Finishing a draft leaves its table as it is. -/
theorem rowsAll_finish (roots : List Anchor) (regions : List OpenRegion) :
    Anchor.rowsAll none 0 (finish roots regions) = rowsOf roots regions := by
  -- By induction on the number of regions: finishing one changes the region around it.
  induction hn : regions.length generalizing roots regions with
  | zero =>
      obtain rfl := List.length_eq_zero_iff.mp hn
      rw [finish, rowsOf]
  | succ n ih =>
      obtain ⟨region, outer, rfl⟩ := List.exists_cons_of_length_eq_add_one hn
      rw [finish_cons roots [] region outer, ih]
      · exact rowsOf_cons roots [] region outer
      · have hlength : outer.length = n := by simpa using hn
        cases outer <;> simpa [place] using hlength

/-! ## What one event changes -/

/-- An anchor adds its row at the end, in the innermost open region. -/
theorem rows_meet_anchor (draft : Draft) (key : String) (facts : Facts) :
    (draft.meet (.anchor key facts)).rows =
      draft.rows ++ [⟨facts, none, draft.places.head?⟩] := by
  unfold meet
  by_cases hregion : facts.isRegion
  · simp [hregion, rows, places, rowsOf, Anchor.rowsAll]
  · simp [hregion, rows_place, Anchor.rows, Anchor.rowsAll]

/-- The open regions once an anchor has been met: one that opens a region is the innermost. -/
theorem places_meet_anchor (draft : Draft) (key : String) (facts : Facts) :
    (draft.meet (.anchor key facts)).places =
      if facts.isRegion then draft.rows.length :: draft.places else draft.places := by
  unfold meet
  by_cases hregion : facts.isRegion
  · simp [hregion, rows, places, placesOf]
  · simp [hregion]

variable {draft : Draft} {region : OpenRegion} {outer : List OpenRegion} {closing : Closing}

/-- An end tag with the key of the innermost region makes that region a finished anchor. -/
theorem meet_close (h : draft.regions = region :: outer) :
    draft.meet (.close region.key closing) =
      (Draft.mk outer draft.roots
        (⟨region.facts.line - 1, closing.line - 1⟩ :: draft.folds)).place
          (.mk region.facts (some closing) region.inside.reverse) := by
  simp [meet, h]

/-- An end tag with the key of the innermost region fills in the row of that region. -/
theorem rows_meet_close (h : draft.regions = region :: outer) :
    (draft.meet (.close region.key closing)).rows =
      draft.rows.modify (rowsOf draft.roots outer).length (Anchor.Row.close closing) := by
  rw [meet_close h, rows_place]
  simp only [rows, places, h, rowsOf, Anchor.rows]
  rw [List.modify_eq_take_cons_drop (by simp)]
  simp [Anchor.Row.close]

/-- An end tag with the key of the innermost region takes that region from the open ones. -/
theorem places_meet_close (h : draft.regions = region :: outer) :
    (draft.meet (.close region.key closing)).places = placesOf draft.roots outer := by
  rw [meet_close h, places_place]
  rfl

/-- An end tag of another key than that of the innermost region changes nothing. -/
theorem meet_close_of_ne {key : String} (h : ∀ region ∈ draft.regions.head?, region.key ≠ key) :
    draft.meet (.close key closing) = draft := by
  unfold meet
  cases hregions : draft.regions with
  | nil => rfl
  | cons region outer => simp [h region (by simp [hregions])]

end Draft

end Outline

end CommentIndex
