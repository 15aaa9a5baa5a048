import CommentIndex.Proofs.Outline.Sorting
import CommentIndex.Proofs.Outline.Telling
import Mathlib.Data.List.TakeDrop

/-!
# Lineages

The lineage of an anchor is what the anchors around it say, from the outermost one, and what it
says itself. The lineages of a forest in the order of the document tell the forest
(`Anchor.lineagesAll_injective`). Leaving out the anchors that fail a test, with everything inside
them, keeps the lineages in which all pass (`Anchor.lineagesAll_filterAll`), and it does not matter
whether the roots are sorted before or behind it (`SortMethod.filterAll_sort`).
-/

namespace CommentIndex

namespace Anchor

mutual

/-- The lineages of the anchor and of those inside it, in the order of the document. -/
def lineages : Anchor → List (List (Facts × Option Closing))
  | .mk facts closing children =>
    [(facts, closing)] :: (lineagesAll children).map ((facts, closing) :: ·)
termination_by structural anchor => anchor

/-- The lineages of all anchors of a forest, in the order of the document. -/
def lineagesAll : List Anchor → List (List (Facts × Option Closing))
  | [] => []
  | anchor :: rest => anchor.lineages ++ lineagesAll rest
termination_by structural anchors => anchors

end

/-- There is no lineage without the anchor itself. -/
theorem ne_nil_of_mem_lineagesAll {lineage : List (Facts × Option Closing)}
    {anchors : List Anchor} (h : lineage ∈ lineagesAll anchors) : lineage ≠ [] := by
  induction anchors with
  | nil => simp [lineagesAll] at h
  | cons anchor rest ih =>
      cases anchor with
      | mk facts closing children =>
          rw [lineagesAll, lineages, List.mem_append, List.mem_cons] at h
          rcases h with (rfl | h) | h
          · exact List.cons_ne_nil _ _
          · obtain ⟨inner, -, rfl⟩ := List.mem_map.mp h
            exact List.cons_ne_nil _ _
          · exact ih h

/-- Only the empty forest has no lineages. -/
theorem lineagesAll_eq_nil_iff {anchors : List Anchor} :
    lineagesAll anchors = [] ↔ anchors = [] := by
  cases anchors with
  | nil => simp [lineagesAll]
  | cons anchor rest => cases anchor; simp [lineagesAll, lineages]

/-- The lineages of a forest begin with one of a root, which has nothing around it. -/
theorem length_of_head?_lineagesAll (anchors : List Anchor) :
    ∀ lineage ∈ (lineagesAll anchors).head?, lineage.length = 1 := by
  intro lineage h
  cases anchors with
  | nil => simp [lineagesAll] at h
  | cons anchor rest =>
      cases anchor with
      | mk facts closing children =>
          obtain rfl : [(facts, closing)] = lineage := by simpa [lineagesAll, lineages] using h
          rfl

/-- Behind the lineage of an anchor come the longer ones of what is inside it, up to that of the
next root. -/
theorem span_inside (own : Facts × Option Closing) (children rest : List Anchor) :
    ((lineagesAll children).map (own :: ·) ++ lineagesAll rest).span (1 < ·.length) =
      ((lineagesAll children).map (own :: ·), lineagesAll rest) := by
  have hinside : ∀ lineage ∈ (lineagesAll children).map (own :: ·),
      decide (1 < lineage.length) = true := by
    intro lineage hmem
    obtain ⟨inner, hinner, rfl⟩ := List.mem_map.mp hmem
    have := List.length_pos_of_ne_nil (ne_nil_of_mem_lineagesAll hinner)
    exact decide_eq_true (by rw [List.length_cons]; omega)
  have hnext : ∀ lineage ∈ (lineagesAll rest).head?, ¬ decide (1 < lineage.length) = true := by
    intro lineage hmem
    simp [length_of_head?_lineagesAll rest lineage hmem]
  rw [List.span_eq_takeWhile_dropWhile, List.takeWhile_append_of_pos hinside,
    List.dropWhile_append_of_pos hinside]
  cases hrest : lineagesAll rest with
  | nil => simp
  | cons lineage others =>
      rw [hrest] at hnext
      have hroot := hnext lineage rfl
      rw [List.takeWhile_cons, List.dropWhile_cons, if_neg hroot, if_neg hroot, List.append_nil]

/-- The lineages tell the forest. -/
theorem lineagesAll_injective : (first second : List Anchor) →
    lineagesAll first = lineagesAll second → first = second
  | [], [], _ => rfl
  | [], .mk _ _ _ :: _, h => by simp [lineagesAll, lineages] at h
  | .mk _ _ _ :: _, [], h => by simp [lineagesAll, lineages] at h
  | .mk facts closing children :: rest, .mk facts' closing' children' :: rest', h => by
      rw [lineagesAll, lineagesAll, lineages, lineages, List.cons_append, List.cons_append,
        List.cons.injEq] at h
      obtain ⟨hown, hbehind⟩ := h
      obtain ⟨rfl, rfl⟩ := Prod.mk.inj (List.cons.inj hown).1
      have hspan := congrArg (List.span (1 < ·.length)) hbehind
      rw [span_inside, span_inside] at hspan
      obtain ⟨hinside, hrest⟩ := Prod.mk.inj hspan
      have hchildren := List.map_injective_iff.mpr (List.cons_injective) hinside
      rw [lineagesAll_injective children children' hchildren,
        lineagesAll_injective rest rest' hrest]

variable {keep : Facts → Bool}

mutual

/-- An anchor that is kept, with what is kept inside it, keeps the lineages in which all are. -/
theorem lineages_filter? (anchor : Anchor) :
    ((anchor.filter? (keep ·.facts)).elim [] lineages) =
      anchor.lineages.filter (·.all (keep ·.1)) := by
  cases anchor with
  | mk facts closing children =>
      have hinside : (List.map ((facts, closing) :: ·) (lineagesAll children)).filter
          (·.all (keep ·.1)) =
          if keep facts then ((lineagesAll children).filter (·.all (keep ·.1))).map
            ((facts, closing) :: ·) else [] := by
        rw [List.filter_map]
        cases hkeep : keep facts <;> simp [Function.comp_def, hkeep]
      rw [lineages, filter?_mk, List.filter_cons, hinside, ← lineagesAll_filterAll children]
      cases hkeep : keep facts <;> simp [Anchor.facts, lineages, hkeep]

/-- A forest of which some anchors are kept has the lineages in which all are. -/
theorem lineagesAll_filterAll (anchors : List Anchor) :
    lineagesAll (filterAll (keep ·.facts) anchors) =
      (lineagesAll anchors).filter (·.all (keep ·.1)) := by
  cases anchors with
  | nil => rfl
  | cons anchor rest =>
      rw [lineagesAll, List.filter_append, ← lineages_filter? anchor,
        ← lineagesAll_filterAll rest, filterAll]
      cases anchor.filter? (keep ·.facts) <;> rfl

end

/-- An anchor that is kept says what it did. -/
theorem facts_of_mem_filter? {anchor kept : Anchor}
    (h : kept ∈ anchor.filter? (keep ·.facts)) : kept.facts = anchor.facts := by
  cases anchor with
  | mk facts closing children =>
      rw [filter?_mk, Option.mem_def, Option.ite_none_right_eq_some] at h
      obtain rfl := Option.some.inj h.2
      rfl

mutual

/-- Inside an anchor that is kept, all are. -/
theorem keep_of_mem_filter? {inner : Anchor} (anchor : Anchor) :
    ∀ kept ∈ anchor.filter? (keep ·.facts), inner ∈ kept.walk → keep inner.facts := by
  cases anchor with
  | mk facts closing children =>
      intro kept h hinner
      rw [filter?_mk, Option.mem_def, Option.ite_none_right_eq_some] at h
      obtain ⟨hkeep, h⟩ := h
      obtain rfl := Option.some.inj h
      rw [walk, List.mem_cons] at hinner
      rcases hinner with rfl | hinner
      · exact hkeep
      · exact keep_of_mem_filterAll children hinner

/-- Where some anchors are kept, there are no others. -/
theorem keep_of_mem_filterAll {inner : Anchor} (anchors : List Anchor)
    (h : inner ∈ walkAll (filterAll (keep ·.facts) anchors)) : keep inner.facts := by
  cases anchors with
  | nil => simp [filterAll, walkAll] at h
  | cons anchor rest =>
      rw [filterAll] at h
      cases hkept : anchor.filter? (keep ·.facts) with
      | none =>
          rw [hkept] at h
          exact keep_of_mem_filterAll rest h
      | some kept =>
          rw [hkept, walkAll, List.mem_append] at h
          rcases h with h | h
          · exact keep_of_mem_filter? anchor kept hkept h
          · exact keep_of_mem_filterAll rest h

end

end Anchor

/-- The roots that are kept are sorted as all roots are. -/
theorem SortMethod.filterAll_sort (method : SortMethod) (keep : Facts → Bool)
    (anchors : List Anchor) :
    Anchor.filterAll (keep ·.facts) (method.sort anchors) =
      method.sort (Anchor.filterAll (keep ·.facts) anchors) := by
  rw [Anchor.filterAll_eq_filterMap, Anchor.filterAll_eq_filterMap]
  exact method.filterMap_sort (fun _ _ => Anchor.facts_of_mem_filter?) anchors

end CommentIndex
