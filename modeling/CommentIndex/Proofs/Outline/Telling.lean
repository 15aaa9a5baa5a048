import CommentIndex.Proofs.Outline.Rows

/-!
# Forests told in the order of the document

A forest is told by saying something where an anchor begins and something where its end tag stands.
What is told of an outline in the making only grows: an anchor adds what is said where it begins
(`Draft.tell_meet_anchor`), an end tag that closes a region adds what is said there
(`Draft.tell_meet_close`), and `Draft.tellAll_finish` says that finishing the draft adds nothing.
The pieces of a document and the folds are two ways to tell its forest.
-/

namespace CommentIndex

namespace Anchor

/-- What is said where an anchor begins, and where the end tag of a region stands. -/
structure Telling (α : Type) where
  opening : Facts → List α
  ending : Facts → Closing → List α

variable {α : Type}

mutual

/-- What is told of an anchor and of those inside it. -/
def tell (telling : Telling α) : Anchor → List α
  | .mk facts closing children =>
    telling.opening facts ++ tellAll telling children ++ closing.elim [] (telling.ending facts)
termination_by structural anchor => anchor

/-- What is told of a forest. -/
def tellAll (telling : Telling α) : List Anchor → List α
  | [] => []
  | anchor :: rest => anchor.tell telling ++ tellAll telling rest
termination_by structural anchors => anchors

end

/-- One forest is told behind another. -/
theorem tellAll_append (telling : Telling α) (first second : List Anchor) :
    tellAll telling (first ++ second) = tellAll telling first ++ tellAll telling second := by
  induction first with
  | nil => rfl
  | cons anchor rest ih => simp [tellAll, ih]

/-- One more anchor is told at the end. -/
theorem tellAll_concat (telling : Telling α) (anchors : List Anchor) (anchor : Anchor) :
    tellAll telling (anchors ++ [anchor]) = tellAll telling anchors ++ anchor.tell telling := by
  simp [tellAll_append, tellAll]

/-- The anchors of a forest are those of its trees. -/
theorem mem_walkAll {anchor : Anchor} {anchors : List Anchor} :
    anchor ∈ walkAll anchors ↔ ∃ root ∈ anchors, anchor ∈ root.walk := by
  induction anchors with
  | nil => simp [walkAll]
  | cons root rest ih => simp [walkAll, ih]

/-- An anchor directly inside another is inside it. -/
theorem mem_walkAll_of_mem {anchor : Anchor} {anchors : List Anchor} (h : anchor ∈ anchors) :
    anchor ∈ walkAll anchors := by
  refine mem_walkAll.mpr ⟨anchor, h, ?_⟩
  cases anchor
  exact List.mem_cons_self

mutual

/-- What is inside something inside an anchor is inside that. -/
theorem mem_walk_trans {inner middle : Anchor} (anchor : Anchor) (hmiddle : middle ∈ anchor.walk)
    (hinner : inner ∈ walkAll middle.children) : inner ∈ anchor.walk := by
  cases anchor with
  | mk facts closing children =>
      rw [walk, List.mem_cons] at hmiddle
      rw [walk, List.mem_cons]
      rcases hmiddle with rfl | hmiddle
      · exact .inr hinner
      · exact .inr (mem_walkAll_trans children hmiddle hinner)

/-- What is inside something inside a forest is in that. -/
theorem mem_walkAll_trans {inner middle : Anchor} (anchors : List Anchor)
    (hmiddle : middle ∈ walkAll anchors) (hinner : inner ∈ walkAll middle.children) :
    inner ∈ walkAll anchors := by
  cases anchors with
  | nil => simp [walkAll] at hmiddle
  | cons anchor rest =>
      rw [walkAll, List.mem_append] at hmiddle ⊢
      rcases hmiddle with hmiddle | hmiddle
      · exact .inl (mem_walk_trans anchor hmiddle hinner)
      · exact .inr (mem_walkAll_trans rest hmiddle hinner)

end

/-- An anchor is told as a part of each of its trees. -/
theorem tell_sublist_tellAll {anchor : Anchor} {anchors : List Anchor} (h : anchor ∈ anchors)
    (telling : Telling α) : (anchor.tell telling).Sublist (tellAll telling anchors) := by
  obtain ⟨before, after, rfl⟩ := List.append_of_mem h
  rw [tellAll_append, tellAll]
  exact (List.sublist_append_left _ _).trans (List.sublist_append_right _ _)

/-- What is inside an anchor is told as a part of it. -/
theorem tellAll_children_sublist (telling : Telling α) (anchor : Anchor) :
    (tellAll telling anchor.children).Sublist (anchor.tell telling) := by
  cases anchor with
  | mk facts closing children =>
      exact (List.sublist_append_right _ _).trans (List.sublist_append_left _ _)

mutual

/-- An anchor that is somewhere inside another is told as a part of that. -/
theorem tell_sublist_of_mem_walk (telling : Telling α) {inner : Anchor} (anchor : Anchor)
    (h : inner ∈ anchor.walk) : (inner.tell telling).Sublist (anchor.tell telling) := by
  cases anchor with
  | mk facts closing children =>
      rw [walk, List.mem_cons] at h
      rcases h with rfl | h
      · exact List.Sublist.refl _
      · exact (tell_sublist_of_mem_walkAll telling children h).trans
          (tellAll_children_sublist telling (.mk facts closing children))

/-- An anchor of a forest is told as a part of that. -/
theorem tell_sublist_of_mem_walkAll (telling : Telling α) {inner : Anchor}
    (anchors : List Anchor) (h : inner ∈ walkAll anchors) :
    (inner.tell telling).Sublist (tellAll telling anchors) := by
  cases anchors with
  | nil => simp [walkAll] at h
  | cons anchor rest =>
      rw [walkAll, List.mem_append] at h
      rw [tellAll]
      rcases h with h | h
      · exact (tell_sublist_of_mem_walk telling anchor h).trans (List.sublist_append_left _ _)
      · exact (tell_sublist_of_mem_walkAll telling rest h).trans (List.sublist_append_right _ _)

end

end Anchor

namespace Outline.Draft

open Anchor (Telling)

variable {α : Type}

/-- What has been told of the finished roots and of the open regions, from the outermost one to the
innermost. -/
def tellOf (telling : Telling α) (roots : List Anchor) : List OpenRegion → List α
  | [] => Anchor.tellAll telling roots.reverse
  | region :: outer =>
    tellOf telling roots outer ++
      (telling.opening region.facts ++ Anchor.tellAll telling region.inside.reverse)

/-- What has been told of an outline in the making. -/
def tell (telling : Telling α) (draft : Draft) : List α :=
  tellOf telling draft.roots draft.regions

/-- An anchor that is put into a draft is told at the end. -/
theorem tell_place (telling : Telling α) (draft : Draft) (anchor : Anchor) :
    (draft.place anchor).tell telling = draft.tell telling ++ anchor.tell telling := by
  obtain ⟨regions, roots, folds⟩ := draft
  cases regions with
  | nil => simp [place, tell, tellOf, Anchor.tellAll_concat]
  | cons region outer => simp [place, tell, tellOf, Anchor.tellAll_concat]

/-- Finishing a draft tells nothing more. -/
theorem tellAll_finish (telling : Telling α) (roots : List Anchor) (regions : List OpenRegion) :
    Anchor.tellAll telling (finish roots regions) = tellOf telling roots regions := by
  -- By induction on the number of regions: finishing one changes the region around it.
  induction hn : regions.length generalizing roots regions with
  | zero =>
      obtain rfl := List.length_eq_zero_iff.mp hn
      rw [finish, tellOf]
  | succ n ih =>
      obtain ⟨region, outer, rfl⟩ := List.exists_cons_of_length_eq_add_one hn
      have hlength : outer.length = n := by simpa using hn
      rw [finish_cons roots [] region outer, ih]
      · have hplace := tell_place telling (Draft.mk outer roots [])
          (.mk region.facts none region.inside.reverse)
        simpa [tell, tellOf, Anchor.tell] using hplace
      · cases outer <;> simpa [place] using hlength

/-- An anchor that is met adds what is said where it begins. -/
theorem tell_meet_anchor (telling : Telling α) (draft : Draft) (key : String) (facts : Facts) :
    (draft.meet (.anchor key facts)).tell telling =
      draft.tell telling ++ telling.opening facts := by
  unfold meet
  by_cases hregion : facts.isRegion
  · simp [hregion, tell, tellOf, Anchor.tellAll]
  · simp [hregion, tell_place, Anchor.tell, Anchor.tellAll]

/-- An end tag with the key of the innermost region adds what is said there. -/
theorem tell_meet_close (telling : Telling α) {draft : Draft} {region : OpenRegion}
    {outer : List OpenRegion} {closing : Closing} (h : draft.regions = region :: outer) :
    (draft.meet (.close region.key closing)).tell telling =
      draft.tell telling ++ telling.ending region.facts closing := by
  rw [meet_close h, tell_place]
  simp [tell, h, tellOf, Anchor.tell]

/-- An end tag closes the innermost region of a draft, or it is met without effect. -/
theorem meet_close_cases (draft : Draft) (key : String) (closing : Closing) :
    (∃ region outer, draft.regions = region :: outer ∧ region.key = key) ∨
      draft.meet (.close key closing) = draft := by
  cases hregions : draft.regions with
  | nil => exact .inr (meet_close_of_ne (by simp [hregions]))
  | cons region outer =>
      by_cases hkey : region.key = key
      · exact .inl ⟨region, outer, rfl, hkey⟩
      · exact .inr (meet_close_of_ne (by simp [hregions, hkey]))

end Outline.Draft

end CommentIndex
