import CommentIndex.Anchor
import Mathlib.Data.List.Basic
import Mathlib.Data.List.Chain

/-!
# Filtering forests

A position in a forest is an anchor with the anchors around it. The anchors that a filter keeps are,
in the order of the document, those at the positions where the anchor and all around it satisfy the
test (`Anchor.alone_walkAll_filterAll`). If the test does not look inside anchors, what a filter
drops inside an anchor does not change what a later one says of it, so two filters in a row are one
with both tests (`Anchor.filterAll_filterAll`). A filter that drops nothing is one whose test every
anchor satisfies (`Anchor.filter?_eq_some_self_iff`). `Anchor.filterAll_laws` puts these together.
-/

namespace CommentIndex

namespace Anchor

/-! ## Positions -/

/-- An anchor of a forest with those around it, from the outermost one. -/
structure Position where
  around : List Anchor
  anchor : Anchor

/-- The same position with one more anchor around everything. -/
def Position.inside (outer : Anchor) (position : Position) : Position :=
  ⟨outer :: position.around, position.anchor⟩

/-- Whether the anchor at a position and all around it satisfy `keep`. -/
def Position.passes (keep : Anchor → Bool) (position : Position) : Bool :=
  position.around.all keep && keep position.anchor

mutual

/-- The positions of the anchor and of those inside it, in the order of the document. -/
def positions : Anchor → List Position
  | .mk facts closing children =>
    ⟨[], .mk facts closing children⟩ ::
      (positionsAll children).map (.inside (.mk facts closing children))
termination_by structural anchor => anchor

/-- The positions of all anchors of a forest, in the order of the document. -/
def positionsAll : List Anchor → List Position
  | [] => []
  | anchor :: rest => anchor.positions ++ positionsAll rest
termination_by structural anchors => anchors

end

variable {keep also : Anchor → Bool}

/-- A root passes if it satisfies `keep`. -/
theorem Position.passes_root (anchor : Anchor) :
    Position.passes keep ⟨[], anchor⟩ = keep anchor := by
  rw [passes, List.all_nil, Bool.true_and]

/-- With one more anchor around it, a position passes if that anchor does too. -/
theorem Position.passes_inside (outer : Anchor) (position : Position) :
    (position.inside outer).passes keep = (keep outer && position.passes keep) := by
  simp only [passes, inside, List.all_cons, Bool.and_assoc]

mutual

/-- Every anchor of a tree has its position. -/
theorem positions_map_anchor (anchor : Anchor) :
    anchor.positions.map (·.anchor) = anchor.walk := by
  cases anchor with
  | mk facts closing children =>
      rw [positions, walk, List.map_cons, List.map_map, ← positionsAll_map_anchor children]
      rfl

/-- Every anchor of a forest has its position. -/
theorem positionsAll_map_anchor (forest : List Anchor) :
    (positionsAll forest).map (·.anchor) = walkAll forest := by
  cases forest with
  | nil => rfl
  | cons anchor rest =>
      rw [positionsAll, walkAll, List.map_append, positions_map_anchor anchor,
        positionsAll_map_anchor rest]

end

/-- The anchors from the outermost one around a position to the one that is there. -/
def Position.path (position : Position) : List Anchor :=
  position.around ++ [position.anchor]

/-- A path into a forest begins with a root, and each anchor on it is directly inside the one
before. -/
structure IsPathInto (forest path : List Anchor) : Prop where
  root : ∃ root ∈ forest, path.head? = some root
  step : path.IsChain fun outer inner => inner ∈ outer.children

mutual

/-- The anchors around a position of a tree lead from the root to it. -/
theorem isPathInto_of_mem_positions (anchor : Anchor) {position : Position}
    (h : position ∈ anchor.positions) : IsPathInto [anchor] position.path := by
  cases anchor with
  | mk facts closing children =>
      rw [positions, List.mem_cons] at h
      rcases h with rfl | h
      · exact ⟨⟨_, List.mem_singleton_self _, rfl⟩, List.isChain_singleton _⟩
      · obtain ⟨inner, hinner, rfl⟩ := List.mem_map.mp h
        obtain ⟨⟨root, hroot, hhead⟩, hstep⟩ := isPathInto_of_mem_positionsAll children hinner
        refine ⟨⟨_, List.mem_singleton_self _, rfl⟩, ?_⟩
        refine List.isChain_cons.mpr ⟨fun next hnext => ?_, hstep⟩
        obtain rfl := Option.some.inj (hhead.symm.trans hnext)
        exact hroot

/-- The anchors around a position of a forest lead from a root to it. -/
theorem isPathInto_of_mem_positionsAll (forest : List Anchor) {position : Position}
    (h : position ∈ positionsAll forest) : IsPathInto forest position.path := by
  cases forest with
  | nil => simp [positionsAll] at h
  | cons anchor rest =>
      rw [positionsAll, List.mem_append] at h
      rcases h with h | h
      · obtain ⟨⟨root, hroot, hhead⟩, hstep⟩ := isPathInto_of_mem_positions anchor h
        exact ⟨⟨root, List.mem_cons.mpr (.inl (List.mem_singleton.mp hroot)), hhead⟩, hstep⟩
      · obtain ⟨⟨root, hroot, hhead⟩, hstep⟩ := isPathInto_of_mem_positionsAll rest h
        exact ⟨⟨root, List.mem_cons_of_mem _ hroot, hhead⟩, hstep⟩

end

/-! ## What is kept -/

mutual

/-- Of a tree the anchors are kept that pass with all around them. -/
theorem alone_walk_filter? (anchor : Anchor) :
    ((anchor.filter? keep).elim [] walk).map alone =
      (anchor.positions.filter (·.passes keep)).map (·.anchor.alone) := by
  cases anchor with
  | mk facts closing children =>
      rw [filter?_mk, positions, List.filter_cons, Position.passes_root, List.filter_map]
      simp only [Function.comp_def, Position.passes_inside]
      cases keep (.mk facts closing children) with
      | false => simp
      | true =>
          simp only [if_true, Option.elim_some, walk, List.map_cons, Bool.true_and, List.map_map,
            alone_walkAll_filterAll children]
          rfl

/-- Of a forest the anchors are kept, in order, that pass with all around them. -/
theorem alone_walkAll_filterAll (forest : List Anchor) :
    (walkAll (filterAll keep forest)).map alone =
      ((positionsAll forest).filter (·.passes keep)).map (·.anchor.alone) := by
  cases forest with
  | nil => rfl
  | cons anchor rest =>
      rw [positionsAll, List.filter_append, List.map_append, ← alone_walk_filter? anchor,
        ← alone_walkAll_filterAll rest, filterAll]
      cases anchor.filter? keep <;> simp [walkAll]

end

/-! ## Two filters in a row -/

/-- What a test says of an anchor does not depend on the anchors inside it. -/
def IgnoresChildren (keep : Anchor → Bool) : Prop :=
  ∀ anchor children, keep (anchor.withChildren children) = keep anchor

mutual

/-- Two filters of a tree are one with both tests. -/
theorem filter?_filter? (hkeep : IgnoresChildren keep) (anchor : Anchor) :
    (anchor.filter? also).bind (filter? keep) =
      anchor.filter? fun inner => keep inner && also inner := by
  cases anchor with
  | mk facts closing children =>
      have hsame : keep (.mk facts closing (filterAll also children)) =
          keep (.mk facts closing children) :=
        hkeep (.mk facts closing children) (filterAll also children)
      rw [filter?_mk, filter?_mk]
      cases halso : also (.mk facts closing children) with
      | false => simp
      | true =>
          simp only [if_true, Option.bind_some, filter?_mk, hsame, Bool.and_true,
            filterAll_filterAll hkeep children]

/-- Two filters of a forest are one with both tests. -/
theorem filterAll_filterAll (hkeep : IgnoresChildren keep) (forest : List Anchor) :
    filterAll keep (filterAll also forest) =
      filterAll (fun inner => keep inner && also inner) forest := by
  cases forest with
  | nil => rfl
  | cons anchor rest =>
      rw [filterAll, filterAll, ← filter?_filter? hkeep anchor, ← filterAll_filterAll hkeep rest]
      cases anchor.filter? also with
      | none => rfl
      | some kept => rw [filterAll, Option.bind_some]

end

/-! ## When nothing is dropped -/

/-- A filter adds no roots. -/
theorem length_filterAll_le (forest : List Anchor) :
    (filterAll keep forest).length ≤ forest.length := by
  rw [filterAll_eq_filterMap]
  exact List.length_filterMap_le _ _

mutual

/-- A tree stays as it is if and only if every anchor in it passes. -/
theorem filter?_eq_some_self_iff (anchor : Anchor) :
    anchor.filter? keep = some anchor ↔ ∀ inner ∈ anchor.walk, keep inner := by
  cases anchor with
  | mk facts closing children =>
      rw [filter?_mk, Option.ite_none_right_eq_some, Option.some.injEq, mk.injEq, walk,
        List.forall_mem_cons, filterAll_eq_self_iff children]
      simp

/-- A forest stays as it is if and only if every anchor in it passes. -/
theorem filterAll_eq_self_iff (forest : List Anchor) :
    filterAll keep forest = forest ↔ ∀ inner ∈ walkAll forest, keep inner := by
  cases forest with
  | nil => simp [filterAll, walkAll]
  | cons anchor rest =>
      rw [walkAll, List.forall_mem_append, ← filter?_eq_some_self_iff anchor,
        ← filterAll_eq_self_iff rest, filterAll]
      cases anchor.filter? keep with
      | none =>
          refine iff_of_false (fun h : filterAll keep rest = anchor :: rest => ?_)
            fun h => Option.some_ne_none anchor h.1.symm
          have hshort : (filterAll keep rest).length ≤ rest.length := length_filterAll_le rest
          rw [h, List.length_cons] at hshort
          omega
      | some kept => simp

end

/-- What filters do to forests and trees, if their tests do not look inside anchors. -/
theorem filterAll_laws (hkeep : IgnoresChildren keep) (halso : IgnoresChildren also) :
    (∀ forest,
      (positionsAll forest).map (·.anchor) = walkAll forest ∧
      (∀ position ∈ positionsAll forest, IsPathInto forest position.path) ∧
      (walkAll (filterAll keep forest)).map alone =
        ((positionsAll forest).filter (·.passes keep)).map (·.anchor.alone) ∧
      filterAll keep (filterAll also forest) =
        filterAll (fun inner => keep inner && also inner) forest ∧
      filterAll keep (filterAll keep forest) = filterAll keep forest ∧
      filterAll keep (filterAll also forest) = filterAll also (filterAll keep forest)) ∧
    ∀ anchor : Anchor, anchor.filter? keep = some anchor ↔ ∀ inner ∈ anchor.walk, keep inner := by
  refine ⟨fun forest => ⟨positionsAll_map_anchor forest,
    fun _ => isPathInto_of_mem_positionsAll forest, alone_walkAll_filterAll forest,
    filterAll_filterAll hkeep forest, ?_, ?_⟩, filter?_eq_some_self_iff⟩
  · rw [filterAll_filterAll hkeep]
    simp only [Bool.and_self]
  · rw [filterAll_filterAll hkeep, filterAll_filterAll halso]
    simp only [Bool.and_comm]

/-- An anchor with a tag and a scope, and others inside. -/
def ofTag (tag : String) (scope : Scope) (children : List Anchor) : Anchor :=
  .mk { (default : Facts) with tag := tag, scope := scope } none children

/-- Of two trees one goes, with an anchor inside it that would be kept by itself, and the other one
loses an anchor. -/
theorem filterAll_laws_of_scopes :
    let shown := ofTag "NOTE" .workspace [ofTag "TODO" .workspace [], ofTag "HACK" .file []]
    let forest := [ofTag "PART" .file [ofTag "TODO" .workspace []], shown]
    (walkAll (filterAll isInWorkspace forest)).map alone =
        [ofTag "NOTE" .workspace [], ofTag "TODO" .workspace []] ∧
      filterAll isInWorkspace (filterAll (fun anchor => !anchor.isHidden) forest) =
        filterAll (fun anchor => !anchor.isHidden) (filterAll isInWorkspace forest) ∧
      shown.filter? isInWorkspace ≠ some shown := by
  intro shown forest
  have hshown : IgnoresChildren isInWorkspace := fun _ _ => rfl
  have hseen : IgnoresChildren fun anchor => !anchor.isHidden := fun _ _ => rfl
  obtain ⟨hforest, hself⟩ := filterAll_laws hshown hseen
  obtain ⟨-, -, hkept, -, -, horder⟩ := hforest forest
  refine ⟨hkept.trans (by rfl), horder, fun h => ?_⟩
  exact absurd ((hself shown).mp h (ofTag "HACK" .file []) (by decide)) (by decide)

end Anchor

end CommentIndex
