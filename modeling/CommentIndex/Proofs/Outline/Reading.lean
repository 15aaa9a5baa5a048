import CommentIndex.Outline.Document
import CommentIndex.Proofs.Outline.Matching
import CommentIndex.Proofs.Outline.Rows
import Mathlib.Data.List.Forall2

/-!
# Outlines against their events

What the outline of a document says of each event, told without a stack: `Reads` lists the anchors
in the order in which they are met, each inside the innermost region that is open there, and closes
every region at the end tag that `Closes` gives. `Mirrors` is the invariant between the events met
so far and the outline in the making, with one lemma for each kind of event. The main theorem is
`ofText_reads`, for the hits of a matcher in a text.
-/

namespace CommentIndex.Outline

/-- What an event says if it is an anchor. -/
def Event.facts? : Event → Option Facts
  | .anchor _ facts => some facts
  | .close _ _ => none

/-- The place in the flattened outline of the anchor that is the event `i`: the number of anchors
before it. -/
def placeOf (events : List Event) (i : Nat) : Nat :=
  ((events.take i).filterMap Event.facts?).length

/-- The fold of the region that is opened at `i` and closed at `j`. -/
def FoldOf (events : List Event) (i j : Nat) (fold : Fold) : Prop :=
  ∃ key facts endKey closing, events[i]? = some (.anchor key facts) ∧
    events[j]? = some (.close endKey closing) ∧
    fold = ⟨facts.line - 1, closing.line - 1⟩

/-- The folds of the regions that are closed before `n`, in the order of their end tags. -/
def ReadsFolds (events : List Event) (n : Nat) (folds : List Fold) : Prop :=
  ∃ pairs : List (Nat × Nat), pairs.Pairwise (·.2 < ·.2) ∧
    (∀ i j, (i, j) ∈ pairs ↔ Closes events i j ∧ j < n) ∧
    List.Forall₂ (fun pair fold => FoldOf events pair.1 pair.2 fold) pairs folds

/-- What an outline says of the events that it was made of. -/
structure Reads (events : List Event) (outline : Outline) : Prop where
  /-- The flattened outline lists the anchors, each once and in the order in which they are met. -/
  facts : outline.flatten.map Anchor.facts = events.filterMap Event.facts?
  /-- An anchor is directly inside the innermost region that is open where it is met. -/
  inside : ∀ n key facts i, events[n]? = some (.anchor key facts) → Encloses events i n →
    (outline.rows[placeOf events n]?).map Anchor.Row.parent = some (some (placeOf events i))
  /-- An anchor is a root if no region is open where it is met. -/
  root : ∀ n key facts, events[n]? = some (.anchor key facts) → (∀ i, ¬ OpenAt events i n) →
    (outline.rows[placeOf events n]?).map Anchor.Row.parent = some none
  /-- An anchor has the end tag that closes its region, if there is one. -/
  closing : ∀ i key facts, events[i]? = some (.anchor key facts) → ∀ closing,
    (outline.flatten[placeOf events i]?).bind Anchor.closing = some closing ↔
      ∃ j endKey, Closes events i j ∧ events[j]? = some (.close endKey closing)
  /-- The folds are those of the closed regions, in the order of their end tags. -/
  folds : ReadsFolds events events.length outline.folds

variable {events : List Event} {i j n : Nat} {key : String} {facts : Facts} {closing : Closing}

/-! ## Places of anchors -/

/-- An anchor moves the places behind it by one. -/
theorem placeOf_succ_of_anchor (h : events[n]? = some (.anchor key facts)) :
    placeOf events (n + 1) = placeOf events n + 1 := by
  simp [placeOf, List.take_add_one, h, Event.facts?]

/-- Later events have no lower places. -/
theorem placeOf_le (events : List Event) (h : i ≤ j) : placeOf events i ≤ placeOf events j := by
  obtain ⟨k, rfl⟩ := Nat.exists_eq_add_of_le h
  simp [placeOf, List.take_add]

/-- An anchor has a lower place than every later event. -/
theorem placeOf_lt (hi : events[i]? = some (.anchor key facts)) (h : i < j) :
    placeOf events i < placeOf events j := by
  have := placeOf_le events (Nat.succ_le_of_lt h)
  rw [placeOf_succ_of_anchor hi] at this
  omega

/-- Two anchors have different places. -/
theorem placeOf_ne {otherKey : String} {other : Facts} (hi : events[i]? = some (.anchor key facts))
    (hj : events[j]? = some (.anchor otherKey other)) (h : i ≠ j) :
    placeOf events i ≠ placeOf events j := by
  rcases Nat.lt_or_gt_of_ne h with hlt | hgt
  · have := placeOf_lt hi hlt
    omega
  · have := placeOf_lt hj hgt
    omega

/-! ## The invariant -/

/-- The events that opened the open regions of a draft, innermost first. -/
def Draft.opened (draft : Draft) : List Event :=
  draft.regions.map fun region => .anchor region.key region.facts

/-- Putting an anchor into a draft opens and closes no region. -/
@[simp] theorem Draft.opened_place (draft : Draft) (anchor : Anchor) :
    (draft.place anchor).opened = draft.opened := by
  unfold Draft.place Draft.opened
  cases draft.regions <;> rfl

/-- Putting an anchor into a draft adds no fold. -/
@[simp] theorem Draft.folds_place (draft : Draft) (anchor : Anchor) :
    (draft.place anchor).folds = draft.folds := by
  unfold Draft.place
  cases draft.regions <;> rfl

/-- What a draft says of the first `n` events, of which `stack` are the open regions, innermost
first. -/
structure Mirrors (events : List Event) (n : Nat) (stack : List Nat) (draft : Draft) : Prop where
  isStack : IsStack events n stack
  opened : stack.map (events[·]?) = draft.opened.map some
  places : draft.places = stack.map (placeOf events)
  facts : draft.rows.map Anchor.Row.facts = (events.take n).filterMap Event.facts?
  parent : ∀ i < n, ∀ key facts, events[i]? = some (.anchor key facts) →
    ∃ region : Option Nat, (∀ r, Encloses events r i ↔ region = some r) ∧
      (draft.rows[placeOf events i]?).map Anchor.Row.parent = some (region.map (placeOf events))
  closing : ∀ i < n, ∀ key facts, events[i]? = some (.anchor key facts) → ∀ closing,
    (draft.rows[placeOf events i]?).bind Anchor.Row.closing = some closing ↔
      ∃ j < n, ∃ endKey, Closes events i j ∧ events[j]? = some (.close endKey closing)
  folds : ReadsFolds events n draft.folds.reverse

namespace Mirrors

variable {stack : List Nat} {draft : Draft}

/-- Before any event the draft is empty. -/
theorem start : Mirrors events 0 [] .start where
  isStack := .start
  opened := rfl
  places := rfl
  facts := rfl
  parent i hi := absurd hi (Nat.not_lt_zero i)
  closing i hi := absurd hi (Nat.not_lt_zero i)
  folds := ⟨[], by simp, by simp, .nil⟩

/-- A draft has a row for each anchor met so far. -/
theorem length_rows (h : Mirrors events n stack draft) : draft.rows.length = placeOf events n := by
  simpa [placeOf] using congrArg List.length h.facts

/-- Nothing is closed at an anchor. -/
theorem not_closes_anchor (hn : events[n]? = some (.anchor key facts)) :
    ¬ Closes events i n := fun hcloses => by
  obtain ⟨-, endKey, -, hends⟩ := closes_iff_encloses.mp hcloses
  simp [endsAt, hn, Event.ends?] at hends

/-- At an event that closes nothing the folds stay. -/
theorem folds_succ (h : Mirrors events n stack draft) (hnone : ∀ i, ¬ Closes events i n) :
    ReadsFolds events (n + 1) draft.folds.reverse := by
  obtain ⟨pairs, hsorted, hmem, hfolds⟩ := h.folds
  refine ⟨pairs, hsorted, fun i j => ?_, hfolds⟩
  rw [hmem]
  refine and_congr_right fun hcloses => ⟨fun hj => by omega, fun hj => ?_⟩
  rcases Nat.lt_succ_iff_lt_or_eq.mp hj with hlt | rfl
  · exact hlt
  · exact absurd hcloses (hnone i)

/-- At an event that does not close the region of `i`, the end tag of `i` stays what it is. -/
theorem exists_closes_succ (hnone : ¬ Closes events i n) :
    (∃ j < n + 1, ∃ endKey, Closes events i j ∧ events[j]? = some (.close endKey closing)) ↔
      ∃ j < n, ∃ endKey, Closes events i j ∧ events[j]? = some (.close endKey closing) := by
  constructor
  · rintro ⟨j, hj, endKey, hcloses, hevent⟩
    rcases Nat.lt_succ_iff_lt_or_eq.mp hj with hlt | rfl
    · exact ⟨j, hlt, endKey, hcloses, hevent⟩
    · exact absurd hcloses hnone
  · rintro ⟨j, hj, hrest⟩
    exact ⟨j, by omega, hrest⟩

/-- The invariant once an anchor has been met. -/
theorem meet_anchor (h : Mirrors events n stack draft)
    (hn : events[n]? = some (.anchor key facts)) :
    Mirrors events (n + 1) (if facts.isRegion then n :: stack else stack)
      (draft.meet (.anchor key facts)) where
  isStack := by
    have hopens : opensAt events n = if facts.isRegion then some key else none := by
      simp [opensAt, hn, Event.opens?]
    by_cases hregion : facts.isRegion
    · simp only [hregion, if_true] at hopens ⊢
      exact h.isStack.opened (by simp [hopens])
    · simp only [hregion, Bool.false_eq_true, if_false] at hopens ⊢
      exact h.isStack.idle hopens fun i => not_closes_anchor hn
  opened := by
    by_cases hregion : facts.isRegion
    · have := h.opened
      simp_all [Draft.meet, Draft.opened]
    · simp [Draft.meet, hregion, h.opened]
  places := by
    rw [Draft.places_meet_anchor, h.length_rows, h.places]
    by_cases hregion : facts.isRegion <;> simp [hregion]
  facts := by
    rw [Draft.rows_meet_anchor, List.map_append, h.facts, List.take_add_one, hn]
    simp [Event.facts?]
  parent i hi key' facts' hevent := by
    rw [Draft.rows_meet_anchor]
    -- The rows of earlier anchors stay in front, and the new one is inside the top of the stack.
    rcases Nat.lt_succ_iff_lt_or_eq.mp hi with hlt | rfl
    · rw [List.getElem?_append_left (by rw [h.length_rows]; exact placeOf_lt hevent hlt)]
      exact h.parent i hlt key' facts' hevent
    · refine ⟨stack.head?, fun r => h.isStack.encloses_iff, ?_⟩
      simp [← h.length_rows, h.places]
  closing i hi key' facts' hevent closing := by
    rw [Draft.rows_meet_anchor, exists_closes_succ (not_closes_anchor hn)]
    rcases Nat.lt_succ_iff_lt_or_eq.mp hi with hlt | rfl
    · rw [List.getElem?_append_left (by rw [h.length_rows]; exact placeOf_lt hevent hlt)]
      exact h.closing i hlt key' facts' hevent closing
    · simp only [← h.length_rows, List.getElem?_concat_length, Option.bind_some, reduceCtorEq,
        false_iff, not_exists, not_and]
      -- What closes a region comes behind it, so nothing met so far closes the new one.
      intro j hj endKey hcloses
      have := (fits_iff.mp hcloses.fits).1
      omega
  folds := by
    have hfolds : (draft.meet (.anchor key facts)).folds = draft.folds := by
      by_cases hregion : facts.isRegion <;> simp [Draft.meet, hregion]
    rw [hfolds]
    exact h.folds_succ fun i => not_closes_anchor hn

/-- The innermost open region of a draft has the key of its end tag, and the draft knows its
place. -/
theorem regions_of_closes (h : Mirrors events n (i :: stack) draft)
    (hn : events[n]? = some (.close key closing)) (hcloses : Closes events i n) :
    ∃ facts inside outer, draft.regions = ⟨key, facts, inside⟩ :: outer ∧
      events[i]? = some (.anchor key facts) ∧
      stack.map (events[·]?) = (Draft.mk outer [] []).opened.map some ∧
      (Draft.rowsOf draft.roots outer).length = placeOf events i ∧
      Draft.placesOf draft.roots outer = stack.map (placeOf events) := by
  have hopened := h.opened
  have hplaces := h.places
  unfold Draft.opened at hopened
  unfold Draft.places at hplaces
  cases hregions : draft.regions with
  | nil => simp [hregions] at hopened
  | cons region outer =>
      obtain ⟨regionKey, facts, inside⟩ := region
      rw [hregions] at hopened hplaces
      simp only [List.map_cons, List.cons.injEq] at hopened
      rw [Draft.placesOf, List.map_cons, List.cons.injEq] at hplaces
      obtain ⟨-, endKey, hkey, hends⟩ := closes_iff_encloses.mp hcloses
      simp only [opensAt, hopened.1, Option.bind_some, Event.opens?, endsAt, hn, Event.ends?,
        Option.ite_none_right_eq_some, Option.some.injEq] at hkey hends
      -- The key of the region is that of the event that opened it, and so that of the end tag.
      obtain rfl : regionKey = key := hkey.2.trans hends.symm
      exact ⟨facts, inside, outer, rfl, hopened.1, hopened.2, hplaces⟩

/-- The end tag that a region has once the innermost region has been closed. -/
theorem closing_succ (h : Mirrors events n (i :: stack) draft)
    (hn : events[n]? = some (.close key closing)) (hcloses : Closes events i n)
    (hi : events[i]? = some (.anchor key facts)) {r : Nat} {regionKey : String}
    {regionFacts : Facts} (hr : events[r]? = some (.anchor regionKey regionFacts)) (hrn : r < n)
    (found : Closing) :
    ((draft.rows.modify (placeOf events i) (.close closing))[placeOf events r]?).bind
        Anchor.Row.closing = some found ↔
      ∃ j < n + 1, ∃ endKey, Closes events r j ∧ events[j]? = some (.close endKey found) := by
  by_cases hri : r = i
  · subst hri
    have hlt : placeOf events r < draft.rows.length := by
      rw [h.length_rows]
      exact placeOf_lt hr hrn
    simp only [List.getElem?_modify_eq, List.getElem?_eq_getElem hlt, Option.map_eq_map,
      Option.map_some, Option.bind_some, Anchor.Row.close, Option.some.injEq]
    constructor
    · rintro rfl
      exact ⟨n, by omega, key, hcloses, hn⟩
    · rintro ⟨j, -, endKey, hj, hend⟩
      obtain rfl := hcloses.unique hj
      rw [hn] at hend
      simp only [Option.some.injEq, Event.close.injEq] at hend
      exact hend.2
  · have hnone : ¬ Closes events r n := fun hother => hri (hother.region_unique hcloses)
    rw [List.getElem?_modify_ne _ _ (placeOf_ne hr hi hri).symm, exists_closes_succ hnone]
    exact h.closing r hrn regionKey regionFacts hr found

/-- The folds once the innermost region has been closed. -/
theorem folds_succ_of_closes (h : Mirrors events n (i :: stack) draft)
    (hn : events[n]? = some (.close key closing)) (hcloses : Closes events i n)
    (hi : events[i]? = some (.anchor key facts)) :
    ReadsFolds events (n + 1)
      (Fold.mk (facts.line - 1) (closing.line - 1) :: draft.folds).reverse := by
  obtain ⟨pairs, hsorted, hmem, hfolds⟩ := h.folds
  refine ⟨pairs ++ [(i, n)], ?_, fun r j => ?_, ?_⟩
  · refine List.pairwise_append.mpr ⟨hsorted, by simp, fun first hfirst second hsecond => ?_⟩
    obtain rfl := List.mem_singleton.mp hsecond
    exact ((hmem first.1 first.2).mp hfirst).2
  · rw [List.mem_append, hmem, List.mem_singleton, Prod.mk.injEq]
    constructor
    · rintro (⟨hr, hj⟩ | ⟨rfl, rfl⟩)
      · exact ⟨hr, by omega⟩
      · exact ⟨hcloses, by omega⟩
    · rintro ⟨hr, hj⟩
      rcases Nat.lt_succ_iff_lt_or_eq.mp hj with hlt | rfl
      · exact .inl ⟨hr, hlt⟩
      · exact .inr ⟨hr.region_unique hcloses, rfl⟩
  · rw [List.reverse_cons]
    refine List.rel_append hfolds (.cons ?_ .nil)
    exact ⟨key, facts, key, closing, hi, hn, rfl⟩

/-- The invariant once an end tag has closed the innermost region. -/
theorem meet_close (h : Mirrors events n (i :: stack) draft)
    (hn : events[n]? = some (.close key closing)) (hcloses : Closes events i n) :
    Mirrors events (n + 1) stack (draft.meet (.close key closing)) := by
  obtain ⟨facts, inside, outer, hregions, hi, hopened, hplace, hplaces⟩ :=
    h.regions_of_closes hn hcloses
  have hrows : (draft.meet (.close key closing)).rows = _ := Draft.rows_meet_close hregions
  rw [hplace] at hrows
  have hearlier : ∀ r < n + 1, ∀ key facts, events[r]? = some (.anchor key facts) → r < n :=
    fun r hr key facts hevent => by
      rcases Nat.lt_succ_iff_lt_or_eq.mp hr with hlt | rfl
      · exact hlt
      · simp [hn] at hevent
  exact {
    isStack := h.isStack.closed hcloses
    opened := by
      rw [Draft.meet_close hregions, Draft.opened_place]
      exact hopened
    places := by
      rw [Draft.places_meet_close hregions]
      exact hplaces
    facts := by
      rw [hrows, Anchor.Row.map_modify_close closing _ fun _ => rfl, h.facts, List.take_add_one, hn]
      simp [Event.facts?]
    parent := fun r hr key facts hevent => by
      obtain ⟨around, haround, hparent⟩ := h.parent r (hearlier r hr _ _ hevent) key facts hevent
      refine ⟨around, haround, ?_⟩
      rw [hrows, ← List.getElem?_map, Anchor.Row.map_modify_close closing _ fun _ => rfl,
        List.getElem?_map, hparent]
    closing := fun r hr key facts hevent found => by
      rw [hrows]
      exact h.closing_succ hn hcloses hi hevent (hearlier r hr _ _ hevent) found
    folds := by
      rw [Draft.meet_close hregions, Draft.folds_place]
      exact h.folds_succ_of_closes hn hcloses hi }

/-- An end tag that closes nothing leaves the draft as it is. -/
theorem meet_idle (h : Mirrors events n stack draft) (hn : events[n]? = some (.close key closing))
    (hidle : ∀ i, ¬ Closes events i n) : draft.meet (.close key closing) = draft := by
  apply Draft.meet_close_of_ne
  intro region hregion hkey
  have hopened := h.opened
  unfold Draft.opened at hopened
  obtain ⟨outer, hregions⟩ := List.head?_eq_some_iff.mp hregion
  rw [hregions] at hopened
  cases stack with
  | nil => simp at hopened
  | cons i rest =>
      simp only [List.map_cons, List.cons.injEq] at hopened
      have hopen : OpenAt events i n := (h.isStack.mem_iff i).mp (by simp)
      -- If the keys were equal, the end tag would close the top of the stack.
      have hisRegion : opensAt events i = some key := by
        have := hopen.2.1
        simp only [opensAt, hopened.1, Option.bind_some, Event.opens?] at this ⊢
        split at this
        · next hr => simp [hr, hkey]
        · simp at this
      exact hidle i (closes_iff_encloses.mpr ⟨h.isStack.encloses_iff.mpr rfl, key, hisRegion,
        by simp [endsAt, hn, Event.ends?]⟩)

/-- The invariant once an end tag has been met that closes nothing. -/
theorem succ_of_idle (h : Mirrors events n stack draft)
    (hn : events[n]? = some (.close key closing)) (hidle : ∀ i, ¬ Closes events i n) :
    Mirrors events (n + 1) stack draft where
  isStack := h.isStack.idle (by simp [opensAt, hn, Event.opens?]) hidle
  opened := h.opened
  places := h.places
  facts := by
    rw [h.facts, List.take_add_one, hn]
    simp [Event.facts?]
  parent i hi key' facts' hevent := by
    rcases Nat.lt_succ_iff_lt_or_eq.mp hi with hlt | rfl
    · exact h.parent i hlt key' facts' hevent
    · simp [hn] at hevent
  closing i hi key' facts' hevent closing' := by
    rw [exists_closes_succ (hidle i)]
    rcases Nat.lt_succ_iff_lt_or_eq.mp hi with hlt | rfl
    · exact h.closing i hlt key' facts' hevent closing'
    · simp [hn] at hevent
  folds := h.folds_succ hidle

/-- The draft after the first events mirrors them. -/
theorem take (events : List Event) (n : Nat) (hn : n ≤ events.length) :
    ∃ stack, Mirrors events n stack ((events.take n).foldl Draft.meet .start) := by
  induction n with
  | zero => exact ⟨[], .start⟩
  | succ n ih =>
      obtain ⟨stack, h⟩ := ih (by omega)
      have hevent : events[n]? = some events[n] := List.getElem?_eq_getElem (by omega)
      rw [List.take_add_one, hevent, Option.toList_some, List.foldl_append]
      cases he : events[n] with
      | anchor key facts =>
          rw [he] at hevent
          exact ⟨_, h.meet_anchor hevent⟩
      | close key closing =>
          rw [he] at hevent
          -- An end tag closes the top of the stack or nothing.
          by_cases hmatch : ∃ i, Closes events i n
          · obtain ⟨i, hcloses⟩ := hmatch
            have htop := h.isStack.encloses_iff.mp (closes_iff_encloses.mp hcloses).1
            obtain ⟨outer, rfl⟩ := List.head?_eq_some_iff.mp htop
            exact ⟨outer, h.meet_close hevent hcloses⟩
          · push Not at hmatch
            refine ⟨stack, ?_⟩
            rw [List.foldl_cons, List.foldl_nil, h.meet_idle hevent hmatch]
            exact h.succ_of_idle hevent hmatch

end Mirrors

/-! ## The main statements -/

/-- The table of the outline of some events is that of the draft after the last of them. -/
theorem rows_ofEvents (events : List Event) :
    (ofEvents events).rows = (events.foldl Draft.meet .start).rows :=
  Draft.rowsAll_finish _ _

/-- The table of an outline lists its anchors with their end tags. -/
theorem map_rows_eq (outline : Outline) :
    outline.rows.map Anchor.Row.facts = outline.flatten.map Anchor.facts ∧
      outline.rows.map Anchor.Row.closing = outline.flatten.map Anchor.closing := by
  have hmap := Anchor.map_rowsAll none 0 outline.anchors
  constructor
  · simpa [rows, flatten, Function.comp_def] using congrArg (List.map Prod.fst) hmap
  · simpa [rows, flatten, Function.comp_def] using congrArg (List.map Prod.snd) hmap

/-- The outline of some events says of them what they are. -/
theorem reads_ofEvents (events : List Event) : Reads events (ofEvents events) := by
  obtain ⟨stack, h⟩ := Mirrors.take events events.length le_rfl
  rw [List.take_length] at h
  have hrows := rows_ofEvents events
  obtain ⟨hfacts, hclosing⟩ := map_rows_eq (ofEvents events)
  have hlt : ∀ {n : Nat} {event : Event}, events[n]? = some event → n < events.length :=
    fun hn => (List.getElem?_eq_some_iff.mp hn).1
  exact {
    facts := by rw [← hfacts, hrows, h.facts, List.take_length]
    inside := fun n key facts i hn hi => by
      obtain ⟨region, hregion, hparent⟩ := h.parent n (hlt hn) key facts hn
      rw [hrows, hparent, (hregion i).mp hi, Option.map_some]
    root := fun n key facts hn hnone => by
      obtain ⟨region, hregion, hparent⟩ := h.parent n (hlt hn) key facts hn
      cases region with
      | none => rw [hrows, hparent, Option.map_none]
      | some r => exact absurd ((hregion r).mpr rfl).1 (hnone r)
    closing := fun i key facts hi closing => by
      have hbind : (ofEvents events).flatten[placeOf events i]?.bind Anchor.closing =
          (ofEvents events).rows[placeOf events i]?.bind Anchor.Row.closing := by
        have hget := congrArg (fun closings => closings[placeOf events i]?.bind id) hclosing
        simpa [Option.bind_map, Function.comp_def] using hget.symm
      rw [hbind, hrows, h.closing i (hlt hi) key facts hi closing]
      constructor
      · rintro ⟨j, -, endKey, hcloses, hend⟩
        exact ⟨j, endKey, hcloses, hend⟩
      · rintro ⟨j, endKey, hcloses, hend⟩
        exact ⟨j, hlt hend, endKey, hcloses, hend⟩
    folds := h.folds }

/-- What closes nothing is an end tag. -/
theorem Idle.exists_close {hn : n < events.length} (h : Idle events n) :
    ∃ key closing, events[n] = .close key closing := by
  have hends := h.1
  simp only [endsAt, List.getElem?_eq_getElem hn, Option.bind_some] at hends
  cases he : events[n] with
  | anchor key facts => simp [he, Event.ends?] at hends
  | close key closing => exact ⟨key, closing, rfl⟩

open Classical in
/-- The first events without the end tags that close nothing. -/
theorem withoutIdle_take_succ (events : List Event) (hn : n < events.length) :
    ((events.take (n + 1)).zipIdx.filter fun event => ¬ Idle events event.2).map Prod.fst =
      ((events.take n).zipIdx.filter fun event => ¬ Idle events event.2).map Prod.fst ++
        if Idle events n then [] else [events[n]] := by
  have hmin : min n events.length = n := Nat.min_eq_left (Nat.le_of_lt hn)
  rw [List.take_add_one, List.getElem?_eq_getElem hn, List.zipIdx_append]
  by_cases hidle : Idle events n <;> simp [hidle, hmin]

/-- The end tags that close nothing are met without effect. -/
theorem foldl_withoutIdle (events : List Event) :
    (withoutIdle events).foldl Draft.meet .start = events.foldl Draft.meet .start := by
  classical
  have htake : ∀ n ≤ events.length,
      (((events.take n).zipIdx.filter fun event => ¬ Idle events event.2).map Prod.fst).foldl
        Draft.meet .start = (events.take n).foldl Draft.meet .start := by
    intro n hn
    induction n with
    | zero => simp
    | succ n ih =>
        obtain ⟨stack, h⟩ := Mirrors.take events n (by omega)
        rw [withoutIdle_take_succ events hn, List.foldl_append, ih (by omega), List.take_add_one,
          List.getElem?_eq_getElem hn, Option.toList_some, List.foldl_append]
        by_cases hidle : Idle events n
        · rw [if_pos hidle, List.foldl_nil, List.foldl_cons, List.foldl_nil]
          obtain ⟨key, closing, hevent⟩ := hidle.exists_close
          rw [hevent, h.meet_idle (List.getElem?_eq_some_iff.mpr ⟨hn, hevent⟩) hidle.2]
        · rw [if_neg hidle]
  simpa [withoutIdle] using htake events.length le_rfl

/-- The end tags that close nothing make no difference to the outline. -/
theorem ofEvents_withoutIdle (events : List Event) :
    ofEvents (withoutIdle events) = ofEvents events := by
  unfold ofEvents
  rw [foldl_withoutIdle]

/-- What the outline of a text says of the hits in it. -/
structure ReadsHits (matcher : Matcher) (registry : Registry) (showTag : Bool) (text : List Char)
    (events : List Event) (outline : Outline) (found : Bool) : Prop where
  /-- The events are the hits in order, each of them read by itself. -/
  hits : List.Forall₂ (fun hit event =>
    eventOf matcher registry (Text.lineStarts text) showTag hit = .ok event)
    (matcher.hits text) events
  anchors : Reads events outline
  /-- The hits that close nothing may as well not be there. -/
  idle : ofEvents (withoutIdle events) = outline
  found : found = true ↔ 0 < (matcher.hits text).length

/-- If every hit can be read, then so can all of them in order. -/
theorem mapM_eventOf (matcher : Matcher) (registry : Registry) (starts : List Nat)
    (showTag : Bool) (hits : List Hit)
    (hread : ∀ hit ∈ hits, (matcher.read registry hit.token).isOk) :
    ∃ events, hits.mapM (eventOf matcher registry starts showTag) = .ok events ∧
      List.Forall₂ (fun hit event => eventOf matcher registry starts showTag hit = .ok event)
        hits events := by
  induction hits with
  | nil => exact ⟨[], rfl, .nil⟩
  | cons hit rest ih =>
      obtain ⟨events, hevents, hall⟩ := ih fun hit hhit => hread hit (by simp [hhit])
      have hhit := hread hit (by simp)
      cases hr : matcher.read registry hit.token with
      | error error => simp [hr, Except.isOk, Except.toBool] at hhit
      | ok reading =>
          obtain ⟨event, hevent⟩ : ∃ event,
              eventOf matcher registry starts showTag hit = .ok event := by
            rw [eventOf, hr]
            exact ⟨_, rfl⟩
          refine ⟨event :: events, ?_, .cons hevent hall⟩
          rw [List.mapM_cons, hevent, hevents]
          rfl

/-- The outline of a text in which every hit names a tag lists the anchors in order, puts each
inside the innermost open region, and closes each region at the first end tag that fits it. -/
theorem ofText_reads (matcher : Matcher) (registry : Registry) (showTag : Bool) (text : List Char)
    (hread : ∀ hit ∈ matcher.hits text, (matcher.read registry hit.token).isOk) :
    ∃ events outline found, ofText matcher registry showTag text = .ok (outline, found) ∧
      ReadsHits matcher registry showTag text events outline found := by
  obtain ⟨events, hevents, hall⟩ :=
    mapM_eventOf matcher registry (Text.lineStarts text) showTag (matcher.hits text) hread
  refine ⟨events, ofEvents events, !events.isEmpty, ?_, ?_⟩
  · rw [ofText, eventsOf, hevents]
    rfl
  · refine ⟨hall, reads_ofEvents events, ofEvents_withoutIdle events, ?_⟩
    rw [hall.length_eq]
    cases events <;> simp

/-- Two regions that cross: the end tag of the outer one comes too early and closes nothing. -/
theorem ofText_reads_crossing :
    let registry := Registry.ofTags
      [{ name := "A", behavior := .region }, { name := "B", behavior := .region }, { name := "T" }]
    let matcher : Matcher :=
      { marks := ["#".toList], tokens := ["!A", "!B", "A", "B", "T"].map String.toList
        separators := [": ".toList], endTag := "!", matchCase := false }
    let text := "# A: x\n# b: y\n# !A\n# T\n# !B\n".toList
    (matcher.hits text).length = 5 ∧
      (∀ hit ∈ matcher.hits text, (matcher.read registry hit.token).isOk) ∧
      ∃ events outline found, ofText matcher registry true text = .ok (outline, found) ∧
        ReadsHits matcher registry true text events outline found := by
  intro registry matcher text
  have hread : ∀ hit ∈ matcher.hits text, (matcher.read registry hit.token).isOk := by
    decide +kernel
  exact ⟨by decide +kernel, hread, ofText_reads matcher registry true text hread⟩

end CommentIndex.Outline
