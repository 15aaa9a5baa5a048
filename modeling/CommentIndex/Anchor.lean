import CommentIndex.Attributes
import CommentIndex.Tag

/-!
# Anchors

An anchor is one occurrence of a tag in a document. An anchor that opens a region holds the
anchors inside it, and once the region is closed also the place of its end tag.
-/

namespace CommentIndex

/-- What one occurrence of a tag says. Offsets count characters and lines count from one. -/
structure Facts where
  tag : String
  text : String
  display : String
  start : Nat
  stop : Nat
  line : Nat
  attributes : Attributes
  scope : Scope
  isRegion : Bool
deriving DecidableEq, Repr, Inhabited

/-- The end tag of a region. -/
structure Closing where
  start : Nat
  stop : Nat
  line : Nat
  attributes : Attributes
deriving DecidableEq, Repr, Inhabited

/-- An anchor with those inside it. -/
inductive Anchor where
  | mk (facts : Facts) (closing : Option Closing) (children : List Anchor)
deriving Repr, Inhabited

namespace Anchor

mutual

/-- Decides whether two anchors agree in everything. -/
def decEq : (first second : Anchor) → Decidable (first = second)
  | .mk facts closing children, .mk facts' closing' children' =>
    match decEqAll children children' with
    | .isFalse h => .isFalse fun e => by injection e; contradiction
    | .isTrue hchildren =>
      if h : facts = facts' ∧ closing = closing' then
        .isTrue (by rw [h.1, h.2, hchildren])
      else .isFalse fun e => by injection e with hf hc; exact h ⟨hf, hc⟩
termination_by structural first => first

/-- Decides whether two forests agree in everything. -/
def decEqAll : (first second : List Anchor) → Decidable (first = second)
  | [], [] => .isTrue rfl
  | [], _ :: _ => .isFalse (by simp)
  | _ :: _, [] => .isFalse (by simp)
  | anchor :: rest, anchor' :: rest' =>
    match decEq anchor anchor', decEqAll rest rest' with
    | .isTrue h, .isTrue hrest => .isTrue (by rw [h, hrest])
    | .isFalse h, _ => .isFalse fun e => h (by injection e)
    | _, .isFalse h => .isFalse fun e => h (by injection e)
termination_by structural first => first

end

instance : DecidableEq Anchor := decEq

/-- What the occurrence says. -/
def facts : Anchor → Facts
  | .mk facts _ _ => facts

/-- The end tag of the region, if it has been met. -/
def closing : Anchor → Option Closing
  | .mk _ closing _ => closing

/-- The anchors directly inside. -/
def children : Anchor → List Anchor
  | .mk _ _ children => children

/-- Whether the end tag of the region has been met. -/
def isClosed (anchor : Anchor) : Bool :=
  anchor.closing.isSome

/-- Whether the anchor is shown nowhere. -/
def isHidden (anchor : Anchor) : Bool :=
  anchor.facts.scope = .hidden

/-- Whether the anchor is shown in the views of the workspace. -/
def isInWorkspace (anchor : Anchor) : Bool :=
  anchor.facts.scope = .workspace

/-- The same anchor with other children. -/
def withChildren (anchor : Anchor) (children : List Anchor) : Anchor :=
  .mk anchor.facts anchor.closing children

/-- The anchor without those inside it. -/
def alone (anchor : Anchor) : Anchor :=
  anchor.withChildren []

mutual

/-- The anchor and those inside it, in the order of the document. -/
def walk : Anchor → List Anchor
  | .mk facts closing children => .mk facts closing children :: walkAll children
termination_by structural anchor => anchor

/-- All anchors of a forest, in the order of the document. -/
def walkAll : List Anchor → List Anchor
  | [] => []
  | anchor :: rest => anchor.walk ++ walkAll rest
termination_by structural anchors => anchors

end

mutual

/-- The anchor with only those below it that satisfy `keep`, unless it fails itself. What fails is
dropped with everything inside it. If nothing is dropped, the anchor comes back as it is. -/
def filter? (keep : Anchor → Bool) : Anchor → Option Anchor
  | .mk facts closing children =>
    if keep (.mk facts closing children) then
      let kept := filterAll keep children
      if kept = children then some (.mk facts closing children)
      else some (.mk facts closing kept)
    else none
termination_by structural anchor => anchor

/-- The forest of the anchors that satisfy `keep`, as do all those they are inside of. -/
def filterAll (keep : Anchor → Bool) : List Anchor → List Anchor
  | [] => []
  | anchor :: rest =>
    match filter? keep anchor with
    | some kept => kept :: filterAll keep rest
    | none => filterAll keep rest
termination_by structural anchors => anchors

end

/-- An anchor that satisfies `keep` is kept with the forest of those kept inside it, whether any of
these are dropped or not. -/
theorem filter?_mk (keep : Anchor → Bool) (facts : Facts) (closing : Option Closing)
    (children : List Anchor) :
    filter? keep (.mk facts closing children) =
      if keep (.mk facts closing children) then some (.mk facts closing (filterAll keep children))
      else none := by
  rw [filter?]
  by_cases h : filterAll keep children = children
  · simp only [h, if_true]
  · simp only [h, if_false]

/-- Filtering a forest is filtering it tree by tree. -/
theorem filterAll_eq_filterMap (keep : Anchor → Bool) (anchors : List Anchor) :
    filterAll keep anchors = anchors.filterMap (filter? keep) := by
  induction anchors with
  | nil => rfl
  | cons anchor rest ih =>
      rw [filterAll, ih, List.filterMap_cons]
      cases filter? keep anchor <;> rfl

end Anchor

end CommentIndex
