import CommentIndex.Outline.Order
import Mathlib.Data.String.Basic

/-!
# Sorting anchors

A sort is stable: items that compare as equal stay as they were (`pairwise_mergeSort_stable`). The
orders of anchors are total, and leaving out anchors, or changing what is inside them, gives the
same before a sort by them and behind it (`SortMethod.filterMap_sort`).
-/

namespace CommentIndex

/-- The first item goes behind the others that are less than it and before the rest. -/
theorem mergeSort_cons_eq {α : Type} {le : α → α → Bool}
    (htrans : ∀ a b c, le a b = true → le b c = true → le a c = true)
    (htotal : ∀ a b, (le a b || le b a) = true) (first : α) (rest : List α) :
    (first :: rest).mergeSort le = (rest.mergeSort le).filter (fun other => !le first other) ++
      first :: (rest.mergeSort le).filter (le first) := by
  obtain ⟨before, behind, hsort, hrest, hbefore⟩ := List.mergeSort_cons htrans htotal first rest
  have hsorted := List.pairwise_mergeSort htrans htotal (first :: rest)
  rw [hsort] at hsorted
  have hbehind : ∀ other ∈ behind, le first other = true :=
    (List.pairwise_cons.mp (List.pairwise_append.mp hsorted).2.1).1
  have hnotLess : behind.filter (fun other => !le first other) = [] :=
    List.filter_eq_nil_iff.mpr fun other hmem => by simp [hbehind other hmem]
  have hless : before.filter (le first) = [] :=
    List.filter_eq_nil_iff.mpr fun other hmem => by simpa using hbefore other hmem
  rw [hsort, hrest, List.filter_append, List.filter_append, List.filter_eq_self.mpr hbefore,
    List.filter_eq_self.mpr hbehind, hnotLess, hless, List.append_nil, List.nil_append]

/-- Items that compare as equal stay behind one another as they were. -/
theorem pairwise_mergeSort_stable {α : Type} {le : α → α → Bool}
    (htrans : ∀ a b c, le a b = true → le b c = true → le a c = true)
    (htotal : ∀ a b, (le a b || le b a) = true) {before : α → α → Prop} {items : List α}
    (h : items.Pairwise before) :
    (items.mergeSort le).Pairwise fun first second =>
      le first second = true ∧ (le second first = true → before first second) := by
  induction items with
  | nil => simp
  | cons first rest ih =>
      obtain ⟨hfirst, hrest⟩ := List.pairwise_cons.mp h
      have hsorted := ih hrest
      rw [mergeSort_cons_eq htrans htotal, List.pairwise_append, List.pairwise_cons]
      refine ⟨hsorted.filter _, ⟨fun other hother => ?_, hsorted.filter _⟩,
        fun less hless other hother => ?_⟩
      · obtain ⟨hmem, hle⟩ := List.mem_filter.mp hother
        exact ⟨hle, fun _ => hfirst other (List.mem_mergeSort.mp hmem)⟩
      · obtain ⟨-, hnot⟩ := List.mem_filter.mp hless
        have hlt : le first less = false := by simpa using hnot
        have hle : le less first = true := by simpa [hlt] using htotal first less
        rcases List.mem_cons.mp hother with rfl | hother
        · exact ⟨hle, fun hback => absurd hback (by simp [hlt])⟩
        · obtain ⟨-, hbehind⟩ := List.mem_filter.mp hother
          refine ⟨htrans _ _ _ hle hbehind, fun hback => ?_⟩
          exact absurd (htrans _ _ _ hbehind hback) (by simp [hlt])

/-- Items with distinct names stand in strict order once they are sorted by their names. -/
theorem pairwise_mergeSort_names {α : Type} {name : α → String} {items : List α}
    (h : (items.map name).Nodup) :
    ((items.mergeSort fun first second => name first ≤ name second).map name).Pairwise
      (· < ·) := by
  let le (first second : α) : Bool := name first ≤ name second
  have htrans (first second third : α) (h : le first second = true) (h' : le second third = true) :
      le first third = true :=
    decide_eq_true ((of_decide_eq_true h).trans (of_decide_eq_true h'))
  have htotal (first second : α) : (le first second || le second first) = true := by
    simpa [le] using le_total (name first) (name second)
  have hsorted := List.pairwise_mergeSort htrans htotal items
  have hnodup := ((List.mergeSort_perm items le).map name).nodup_iff.mpr h
  rw [List.pairwise_map]
  refine (hsorted.and (List.pairwise_map.mp hnodup)).imp fun {first second} ⟨hle, hne⟩ => ?_
  exact lt_of_le_of_ne (of_decide_eq_true hle) hne

/-- It is the same to sort the items and then to change them or leave them out, as to do it the
other way round, if what is left compares as before. -/
theorem filterMap_mergeSort {α : Type} {le : α → α → Bool}
    (htrans : ∀ a b c, le a b = true → le b c = true → le a c = true)
    (htotal : ∀ a b, (le a b || le b a) = true) {change : α → Option α}
    (hchange : ∀ first first' second second', first' ∈ change first → second' ∈ change second →
      le first' second' = le first second) (items : List α) :
    (items.mergeSort le).filterMap change = (items.filterMap change).mergeSort le := by
  induction items with
  | nil => simp
  | cons first rest ih =>
      cases hfirst : change first with
      | none =>
          obtain ⟨before, behind, hsort, hrest, -⟩ := List.mergeSort_cons htrans htotal first rest
          rw [List.filterMap_cons_none hfirst, ← ih, hsort, hrest, List.filterMap_append,
            List.filterMap_append, List.filterMap_cons_none hfirst]
      | some first' =>
          have hside : ∀ (side : Bool → Bool) (others : List α),
              (others.filter fun other => side (le first other)).filterMap change =
                (others.filterMap change).filter fun other => side (le first' other) := by
            intro side others
            rw [List.filterMap_filter, List.filter_filterMap]
            refine List.filterMap_congr fun other _ => ?_
            cases hother : change other with
            | none => simp
            | some other' =>
                rw [Option.filter_some, hchange first first' other other' hfirst hother]
          rw [List.filterMap_cons_some hfirst, mergeSort_cons_eq htrans htotal,
            mergeSort_cons_eq htrans htotal, List.filterMap_append,
            List.filterMap_cons_some hfirst, ← ih, hside Bool.not]
          exact congrArg (_ ++ first' :: ·) (hside id _)

/-- The orders of anchors are transitive. -/
theorem SortMethod.le_trans (method : SortMethod) (first second third : Anchor)
    (h : method.le first second = true) (h' : method.le second third = true) :
    method.le first third = true := by
  cases method with
  | line => simp only [SortMethod.le, decide_eq_true_eq] at *; omega
  | type =>
      simp only [SortMethod.le, Bool.or_eq_true, Bool.and_eq_true, decide_eq_true_eq] at *
      rcases h with h | ⟨htag, hstart⟩
      · rcases h' with h' | ⟨htag', -⟩
        · exact .inl (lt_trans h h')
        · exact .inl (htag' ▸ h)
      · rcases h' with h' | ⟨htag', hstart'⟩
        · exact .inl (htag ▸ h')
        · exact .inr ⟨htag.trans htag', hstart.trans hstart'⟩

/-- Of two anchors one comes no later than the other. -/
theorem SortMethod.le_total (method : SortMethod) (first second : Anchor) :
    (method.le first second || method.le second first) = true := by
  cases method with
  | line => simp only [SortMethod.le, Bool.or_eq_true, decide_eq_true_eq]; omega
  | type =>
      simp only [SortMethod.le, Bool.or_eq_true, Bool.and_eq_true, decide_eq_true_eq]
      rcases lt_trichotomy first.facts.tag second.facts.tag with h | h | h
      · exact .inl (.inl h)
      · rcases Nat.le_total first.facts.start second.facts.start with hstart | hstart
        · exact .inl (.inr ⟨h, hstart⟩)
        · exact .inr (.inr ⟨h.symm, hstart⟩)
      · exact .inr (.inl h)

/-- The order of anchors depends on what they say. -/
theorem SortMethod.le_congr (method : SortMethod) {first first' second second' : Anchor}
    (hfirst : first'.facts = first.facts) (hsecond : second'.facts = second.facts) :
    method.le first' second' = method.le first second := by
  unfold SortMethod.le
  rw [hfirst, hsecond]

/-- It is the same to leave out anchors or to change what is inside them before they are sorted and
behind it. -/
theorem SortMethod.filterMap_sort (method : SortMethod) {change : Anchor → Option Anchor}
    (hchange : ∀ anchor, ∀ changed ∈ change anchor, changed.facts = anchor.facts)
    (anchors : List Anchor) :
    (method.sort anchors).filterMap change = method.sort (anchors.filterMap change) :=
  filterMap_mergeSort method.le_trans method.le_total
    (fun first first' second second' hfirst hsecond =>
      method.le_congr (hchange first first' hfirst) (hchange second second' hsecond)) anchors

end CommentIndex
