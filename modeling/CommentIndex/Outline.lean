import CommentIndex.Anchor
import CommentIndex.KeyedList

/-!
# Outlines

The outline of a document is the forest of its anchors and the line ranges of its closed regions.
`Outline.ofEvents` builds it from what is met in the document in order: each anchor goes inside
the innermost region that is open, and an end tag closes the innermost region if that has its tag.
-/

namespace CommentIndex

/-- The lines of a closed region, counted from zero. -/
structure Fold where
  first : Int
  last : Int
deriving DecidableEq, Repr

/-- The anchors and folds of one document. -/
structure Outline where
  anchors : List Anchor
  folds : List Fold
deriving DecidableEq, Repr, Inhabited

namespace Outline

/-- The outline of a document without anchors. -/
def empty : Outline := ⟨[], []⟩

/-- All anchors in the order of the document. -/
def flatten (outline : Outline) : List Anchor :=
  Anchor.walkAll outline.anchors

/-- The last anchor of each display text, in the order in which the texts first occur. -/
def byDisplay (outline : Outline) : KeyedList String Anchor :=
  .ofList (outline.flatten.map fun anchor => (anchor.facts.display, anchor))

/-- The first anchor with an id. -/
def findId? (outline : Outline) (id : String) : Option Anchor :=
  outline.flatten.find? (·.facts.attributes.id = some id)

/-- What is met in a document. -/
inductive Event where
  /-- An anchor of the tag with the given key. -/
  | anchor (key : String) (facts : Facts)
  /-- An end tag for regions of the tag with the given key. -/
  | close (key : String) (closing : Closing)
deriving DecidableEq, Repr

/-- A region that is still open, with the anchors inside it so far, last one first. -/
structure OpenRegion where
  key : String
  facts : Facts
  inside : List Anchor
deriving DecidableEq, Repr

/-- An outline in the making: the open regions, innermost first, and the finished roots and folds,
last ones first. -/
structure Draft where
  regions : List OpenRegion
  roots : List Anchor
  folds : List Fold
deriving DecidableEq, Repr

namespace Draft

/-- Nothing met so far. -/
def start : Draft := ⟨[], [], []⟩

/-- The draft with a finished anchor put into the innermost open region. -/
def place (draft : Draft) (anchor : Anchor) : Draft :=
  match draft.regions with
  | [] => { draft with roots := anchor :: draft.roots }
  | region :: outer =>
    { draft with regions := { region with inside := anchor :: region.inside } :: outer }

/-- The draft after one event. -/
def meet (draft : Draft) : Event → Draft
  | .anchor key facts =>
    if facts.isRegion then { draft with regions := ⟨key, facts, []⟩ :: draft.regions }
    else draft.place (.mk facts none [])
  | .close key closing =>
    match draft.regions with
    | [] => draft
    | region :: outer =>
      if region.key = key then
        { draft with
          regions := outer
          folds := ⟨region.facts.line - 1, closing.line - 1⟩ :: draft.folds }.place
            (.mk region.facts (some closing) region.inside.reverse)
      else draft

/-- The forest of a draft in which nothing more is met: regions that are open stay so. -/
def finish (roots : List Anchor) : List OpenRegion → List Anchor
  | [] => roots.reverse
  | region :: outer =>
    let anchor := Anchor.mk region.facts none region.inside.reverse
    match outer with
    | [] => finish (anchor :: roots) []
    | next :: further => finish roots ({ next with inside := anchor :: next.inside } :: further)
termination_by regions => regions.length

end Draft

/-- The outline of what is met in a document. -/
def ofEvents (events : List Event) : Outline :=
  let draft := events.foldl Draft.meet Draft.start
  ⟨Draft.finish draft.roots draft.regions, draft.folds.reverse⟩

end Outline

end CommentIndex
