import CommentIndex.Proofs.Cache.Aliases
import CommentIndex.Proofs.Path.Order
import CommentIndex.Target

/-!
# Searching for an id

An id is searched for in the outline under one path first, and then in all outlines in the order of
their paths. `Search` says what such a search finds. `findId?` searches the outline under the
preferred path itself, which is not always the one that a look-up of this path gives: its file may
be kept under another path. By `findId?_search` the search goes wrong in no other case, and only if
the outlines under the two paths make a difference.
-/

namespace CommentIndex

/-- The first anchor with an id, in the order of the document. -/
def Outline.IsFirstOf (outline : Outline) (id : String) (anchor : Anchor) : Prop :=
  ∃ before after, outline.flatten = before ++ anchor :: after ∧
    anchor.facts.attributes.id = some id ∧
    ∀ other ∈ before, other.facts.attributes.id ≠ some id

/-- What is found in an outline is the first anchor with the id. -/
theorem Outline.findId?_eq_some_iff {outline : Outline} {id : String} {anchor : Anchor} :
    outline.findId? id = some anchor ↔ outline.IsFirstOf id anchor := by
  rw [findId?, List.find?_eq_some_iff_append, IsFirstOf, decide_eq_true_eq]
  constructor
  · rintro ⟨hid, before, after, hflatten, hbefore⟩
    exact ⟨before, after, hflatten, hid, by simpa using hbefore⟩
  · rintro ⟨before, after, hflatten, hid, hbefore⟩
    exact ⟨hid, before, after, hflatten, by simpa using hbefore⟩

/-- Nothing is found in an outline if no anchor has the id. -/
theorem Outline.findId?_eq_none_iff {outline : Outline} {id : String} :
    outline.findId? id = none ↔
      ∀ anchor ∈ outline.flatten, anchor.facts.attributes.id ≠ some id := by
  simp [findId?]

namespace Workspace

variable {workspace : Workspace} {id : String} {path : Path} {first second : Option Path}

/-- The path under which the outline is kept that a look-up gives. -/
def holder? (workspace : Workspace) (path : Path) : Option Path :=
  if path.isUnusable then none else workspace.cache.holders.find? (workspace.disk.real path)

/-- The outline under a path has an anchor with the id. -/
def HasId (workspace : Workspace) (id : String) (path : Path) : Prop :=
  ∃ outline, (path, outline) ∈ workspace.outlines ∧ ∃ anchor, outline.IsFirstOf id anchor

/-- No outline under an earlier path has an anchor with the id. -/
def IsEarliest (workspace : Workspace) (id : String) (path : Path) : Prop :=
  ∀ other, workspace.HasId id other → path.le other = true

/-- What a search finds that begins with the outline under the path `first`, if there is one, and
goes on with all outlines in the order of their paths. -/
inductive Search (workspace : Workspace) (id : String) (first : Option Path) :
    Option (Path × Anchor) → Prop
  /-- The first anchor with the id in the outline that is searched first. -/
  | preferred {path : Path} {outline : Outline} {anchor : Anchor} (hfirst : first = some path)
    (hkept : (path, outline) ∈ workspace.outlines) (hanchor : outline.IsFirstOf id anchor) :
    Search workspace id first (some (path, anchor))
  /-- That outline has none, and this is the first one in the first outline that has any. -/
  | inOrder {path : Path} {outline : Outline} {anchor : Anchor}
    (hfirst : ∀ path ∈ first, ¬ workspace.HasId id path)
    (hkept : (path, outline) ∈ workspace.outlines) (hanchor : outline.IsFirstOf id anchor)
    (hearliest : workspace.IsEarliest id path) : Search workspace id first (some (path, anchor))
  /-- No outline has any. -/
  | nowhere (hnone : ∀ path, ¬ workspace.HasId id path) : Search workspace id first none

/-- It makes no difference which of two outlines is searched first: they are the same, or only one
has the id and would be found anyway. -/
structure SearchAgrees (workspace : Workspace) (id : String) (first second : Option Path) :
    Prop where
  same : ∀ path ∈ first, ∀ other ∈ second, workspace.HasId id path → workspace.HasId id other →
    path = other
  left : ∀ path ∈ first, workspace.HasId id path → (∀ other ∈ second, ¬ workspace.HasId id other) →
    workspace.IsEarliest id path
  right : ∀ other ∈ second, workspace.HasId id other →
    (∀ path ∈ first, ¬ workspace.HasId id path) → workspace.IsEarliest id other

/-- A look-up gives the outline under the holder. -/
theorem lookup?_eq_holder? (workspace : Workspace) (path : Path) :
    (workspace.lookup? path).toOption.join =
      (workspace.holder? path).bind workspace.cache.outlines.find? := by
  unfold lookup? fileAt holder?
  split <;> rfl

/-- The outlines are those that are found under their paths. -/
theorem mem_outlines_iff (hkeys : workspace.cache.outlines.keys.Nodup) {outline : Outline} :
    (path, outline) ∈ workspace.outlines ↔
      workspace.cache.outlines.find? path = some outline :=
  (KeyedList.find?_eq_some_iff hkeys).symm

/-- Among two outlines with the id, neither of which is under a later path, the paths are the
same. -/
theorem IsEarliest.eq {other : Path} (h : workspace.IsEarliest id path)
    (h' : workspace.IsEarliest id other) (hpath : workspace.HasId id path)
    (hother : workspace.HasId id other) : path = other :=
  Path.le_antisymm (h other hother) (h' path hpath)

/-- A search finds only one thing. -/
theorem Search.unique (hkeys : workspace.cache.outlines.keys.Nodup)
    {result other : Option (Path × Anchor)} (h : workspace.Search id first result)
    (h' : workspace.Search id first other) : result = other := by
  have hsame {path : Path} {outline outline' : Outline} {anchor anchor' : Anchor}
      (hkept : (path, outline) ∈ workspace.outlines) (hanchor : outline.IsFirstOf id anchor)
      (hkept' : (path, outline') ∈ workspace.outlines) (hanchor' : outline'.IsFirstOf id anchor') :
      some (path, anchor) = some (path, anchor') := by
    rw [mem_outlines_iff hkeys] at hkept hkept'
    obtain rfl := Option.some.inj (hkept.symm.trans hkept')
    rw [← Outline.findId?_eq_some_iff] at hanchor hanchor'
    rw [Option.some.inj (hanchor.symm.trans hanchor')]
  cases h with
  | preferred hfirst hkept hanchor =>
      cases h' with
      | preferred hfirst' hkept' hanchor' =>
          obtain rfl := Option.some.inj (hfirst.symm.trans hfirst')
          exact hsame hkept hanchor hkept' hanchor'
      | inOrder hnone => exact absurd ⟨_, hkept, _, hanchor⟩ (hnone _ hfirst)
      | nowhere hnone => exact absurd ⟨_, hkept, _, hanchor⟩ (hnone _)
  | inOrder hnone hkept hanchor hearliest =>
      cases h' with
      | preferred hfirst hkept' hanchor' =>
          exact absurd ⟨_, hkept', _, hanchor'⟩ (hnone _ hfirst)
      | inOrder hnone' hkept' hanchor' hearliest' =>
          obtain rfl := hearliest.eq hearliest' ⟨_, hkept, _, hanchor⟩ ⟨_, hkept', _, hanchor'⟩
          exact hsame hkept hanchor hkept' hanchor'
      | nowhere hnone => exact absurd ⟨_, hkept, _, hanchor⟩ (hnone _)
  | nowhere hnone =>
      cases h' with
      | preferred hfirst hkept hanchor => exact absurd ⟨_, hkept, _, hanchor⟩ (hnone _)
      | inOrder hnone' hkept hanchor => exact absurd ⟨_, hkept, _, hanchor⟩ (hnone _)
      | nowhere => rfl

/-- If a search finds the same whether it begins under one path or another, it makes no difference
which of them is first. -/
theorem Search.agrees {result : Option (Path × Anchor)} (h : workspace.Search id first result)
    (h' : workspace.Search id second result) : workspace.SearchAgrees id first second := by
  cases h with
  | preferred hfirst hkept hanchor =>
      have hpath : workspace.HasId id _ := ⟨_, hkept, _, hanchor⟩
      subst hfirst
      cases h' with
      | preferred hsecond =>
          subst hsecond
          constructor
          case same => rintro _ ⟨⟩ _ ⟨⟩ - -; rfl
          case left => rintro _ ⟨⟩ - hnone; exact absurd hpath (hnone _ rfl)
          case right => rintro _ ⟨⟩ - hnone; exact absurd hpath (hnone _ rfl)
      | inOrder hnone _ _ hearliest =>
          constructor
          case same => exact fun _ _ other hother _ hhas => absurd hhas (hnone other hother)
          case left => rintro _ ⟨⟩ - -; exact hearliest
          case right => exact fun other hother hhas => absurd hhas (hnone other hother)
  | inOrder hnone hkept hanchor hearliest =>
      constructor
      case same => exact fun path hpath _ _ hhas => absurd hhas (hnone path hpath)
      case left => exact fun path hpath hhas => absurd hhas (hnone path hpath)
      case right =>
        intro other hother hhas _
        cases h' with
        | preferred hsecond =>
            obtain rfl := Option.some.inj (hsecond.symm.trans hother)
            exact hearliest
        | inOrder hnone' => exact absurd hhas (hnone' other hother)
  | nowhere hnone =>
      constructor
      case same => exact fun path _ _ _ hhas => absurd hhas (hnone path)
      case left => exact fun path _ hhas => absurd hhas (hnone path)
      case right => exact fun other _ hhas => absurd hhas (hnone other)

/-- Where it makes no difference which of two paths is first, what a search finds that begins under
one is what one finds that begins under the other. -/
theorem SearchAgrees.search {result : Option (Path × Anchor)}
    (hagrees : workspace.SearchAgrees id first second) (h : workspace.Search id first result) :
    workspace.Search id second result := by
  -- Either the outline that is searched first has the id, or none is preferred to the others.
  by_cases hsecond : ∃ other ∈ second, workspace.HasId id other
  · obtain ⟨other, hother, hhas⟩ := hsecond
    cases h with
    | preferred hfirst hkept hanchor =>
        obtain rfl := hagrees.same _ hfirst other hother ⟨_, hkept, _, hanchor⟩ hhas
        exact .preferred hother hkept hanchor
    | inOrder hnone hkept hanchor hearliest =>
        have hleast := hagrees.right other hother hhas hnone
        obtain rfl := hearliest.eq hleast ⟨_, hkept, _, hanchor⟩ hhas
        exact .preferred hother hkept hanchor
    | nowhere hnone => exact absurd hhas (hnone other)
  · have hnone : ∀ other ∈ second, ¬ workspace.HasId id other :=
      fun other hother hhas => hsecond ⟨other, hother, hhas⟩
    cases h with
    | preferred hfirst hkept hanchor =>
        exact .inOrder hnone hkept hanchor (hagrees.left _ hfirst ⟨_, hkept, _, hanchor⟩ hnone)
    | inOrder _ hkept hanchor hearliest => exact .inOrder hnone hkept hanchor hearliest
    | nowhere hnowhere => exact .nowhere hnowhere

/-- What a search finds that begins under one path is what one finds that begins under another, if
and only if it makes no difference which of them is first. -/
theorem Search.other_iff {result : Option (Path × Anchor)} (h : workspace.Search id first result) :
    workspace.Search id second result ↔ workspace.SearchAgrees id first second :=
  ⟨h.agrees, fun hagrees => hagrees.search h⟩

/-! ## What is found -/

/-- The outlines in the order of their paths. -/
def inOrder (workspace : Workspace) : List (Path × Outline) :=
  workspace.outlines.mergeSort fun first second => first.1.le second.1

/-- They are in order. -/
theorem pairwise_inOrder (workspace : Workspace) :
    workspace.inOrder.Pairwise fun first second => first.1.le second.1 = true :=
  Path.pairwise_mergeSort _

/-- What a search looks for in the outline under a path. -/
def entryWithId? (id : String) (entry : Path × Outline) : Option (Path × Anchor) :=
  (entry.2.findId? id).map fun anchor => (entry.1, anchor)

/-- What is found in an outline under a path is its first anchor with the id. -/
theorem entryWithId?_eq_some_iff {entry : Path × Outline} {anchor : Anchor} :
    entryWithId? id entry = some (path, anchor) ↔ entry.1 = path ∧ entry.2.IsFirstOf id anchor := by
  rw [entryWithId?, Option.map_eq_some_iff]
  simp only [Outline.findId?_eq_some_iff, Prod.mk.injEq]
  exact ⟨fun ⟨_, hanchor, hpath, heq⟩ => ⟨hpath, heq ▸ hanchor⟩,
    fun ⟨hpath, hanchor⟩ => ⟨anchor, hanchor, hpath, rfl⟩⟩

/-- Where something is to be found, something is found. -/
theorem entryWithId?_ne_none {outline : Outline} {anchor : Anchor}
    (hanchor : outline.IsFirstOf id anchor) : entryWithId? id (path, outline) ≠ none := by
  rw [entryWithId?_eq_some_iff.mpr ⟨rfl, hanchor⟩]
  exact Option.some_ne_none _

/-- Where nothing is found among entries, none of them has the id. -/
theorem not_isFirstOf_of_findSome?_eq_none {entries : List (Path × Outline)}
    (hnone : entries.findSome? (entryWithId? id) = none) {outline : Outline}
    (hmem : (path, outline) ∈ entries) (anchor : Anchor) : ¬ outline.IsFirstOf id anchor :=
  fun hanchor => entryWithId?_ne_none hanchor (List.findSome?_eq_none_iff.mp hnone _ hmem)

/-- What is found among entries in the order of their paths is in the first of those with the id. -/
theorem exists_of_findSome?_eq_some {entries : List (Path × Outline)}
    (hsorted : entries.Pairwise fun first second => first.1.le second.1 = true) {anchor : Anchor}
    (hfound : entries.findSome? (entryWithId? id) = some (path, anchor)) :
    ∃ outline, (path, outline) ∈ entries ∧ outline.IsFirstOf id anchor ∧
      ∀ other outline' anchor', (other, outline') ∈ entries → outline'.IsFirstOf id anchor' →
        path.le other = true := by
  obtain ⟨before, ⟨key, outline⟩, after, rfl, hentry, hbefore⟩ :=
    List.findSome?_eq_some_iff.mp hfound
  obtain ⟨rfl, hanchor⟩ := entryWithId?_eq_some_iff.mp hentry
  refine ⟨outline, List.mem_append_right _ List.mem_cons_self, hanchor, ?_⟩
  intro other outline' anchor' hmem hanchor'
  rw [List.mem_append, List.mem_cons] at hmem
  rcases hmem with hmem | heq | hmem
  · exact absurd (hbefore _ hmem) (entryWithId?_ne_none hanchor')
  · obtain rfl := (Prod.mk.inj heq).1
    simpa using Path.le_total other other
  · have hafter := (List.pairwise_append.mp hsorted).2.1
    exact (List.pairwise_cons.mp hafter).1 _ hmem

/-- What is found is what a search finds that begins under the preferred path. -/
theorem search_findId? (workspace : Workspace) (id : String) (preferred : Option Path) :
    workspace.Search id preferred (workspace.findId? id preferred) := by
  have hfind : workspace.findId? id preferred =
      ((workspace.inOrder.filter fun entry => preferred = some entry.1).findSome?
        (entryWithId? id)).or
      ((workspace.inOrder.filter fun entry => preferred ≠ some entry.1).findSome?
        (entryWithId? id)) := List.findSome?_append
  rw [hfind]
  cases hpreferred : (workspace.inOrder.filter fun entry => preferred = some entry.1).findSome?
    (entryWithId? id) with
  | some found =>
      obtain ⟨path, anchor⟩ := found
      obtain ⟨outline, hmem, hanchor, -⟩ :=
        exists_of_findSome?_eq_some (workspace.pairwise_inOrder.filter _) hpreferred
      obtain ⟨hkept, hkey⟩ := List.mem_filter.mp hmem
      exact .preferred (of_decide_eq_true hkey) (List.mem_mergeSort.mp hkept) hanchor
  | none =>
      have hnone : ∀ path ∈ preferred, ¬ workspace.HasId id path := by
        rintro path hpath ⟨outline, hkept, anchor, hanchor⟩
        have hmem : (path, outline) ∈
            workspace.inOrder.filter fun entry => preferred = some entry.1 :=
          List.mem_filter.mpr ⟨List.mem_mergeSort.mpr hkept, decide_eq_true hpath⟩
        exact not_isFirstOf_of_findSome?_eq_none hpreferred hmem anchor hanchor
      have hothers {path : Path} {outline : Outline} {anchor : Anchor}
          (hkept : (path, outline) ∈ workspace.outlines) (hanchor : outline.IsFirstOf id anchor) :
          (path, outline) ∈ workspace.inOrder.filter fun entry => preferred ≠ some entry.1 := by
        refine List.mem_filter.mpr ⟨List.mem_mergeSort.mpr hkept, decide_eq_true fun hpath => ?_⟩
        exact hnone path hpath ⟨outline, hkept, anchor, hanchor⟩
      rw [Option.none_or]
      cases hother : (workspace.inOrder.filter fun entry => preferred ≠ some entry.1).findSome?
        (entryWithId? id) with
      | none =>
          refine .nowhere fun path ⟨outline, hkept, anchor, hanchor⟩ => ?_
          exact not_isFirstOf_of_findSome?_eq_none hother (hothers hkept hanchor) anchor hanchor
      | some found =>
          obtain ⟨path, anchor⟩ := found
          obtain ⟨outline, hmem, hanchor, hfirst⟩ :=
            exists_of_findSome?_eq_some (workspace.pairwise_inOrder.filter _) hother
          have hkept := List.mem_mergeSort.mp (List.mem_of_mem_filter hmem)
          refine .inOrder hnone hkept hanchor ?_
          rintro other ⟨outline', hkept', anchor', hanchor'⟩
          exact hfirst other outline' anchor' (hothers hkept' hanchor') hanchor'

/-- Nothing is found if and only if no anchor of any outline has the id. -/
theorem findId?_eq_none_iff {preferred : Option Path} :
    workspace.findId? id preferred = none ↔
      ∀ entry ∈ workspace.outlines, ∀ anchor ∈ entry.2.flatten,
        anchor.facts.attributes.id ≠ some id := by
  have hsearch := workspace.search_findId? id preferred
  generalize workspace.findId? id preferred = result at hsearch ⊢
  constructor
  · rintro rfl entry hentry
    cases hsearch with
    | nowhere hnone =>
        rw [← Outline.findId?_eq_none_iff, Option.eq_none_iff_forall_ne_some]
        intro anchor hanchor
        exact hnone entry.1 ⟨entry.2, hentry, anchor, Outline.findId?_eq_some_iff.mp hanchor⟩
  · intro hnone
    have hnowhere (path : Path) : ¬ workspace.HasId id path := by
      rintro ⟨outline, hkept, anchor, hanchor⟩
      have hfound := Outline.findId?_eq_some_iff.mpr hanchor
      rw [Outline.findId?_eq_none_iff.mpr (hnone _ hkept)] at hfound
      contradiction
    cases hsearch with
    | preferred _ hkept hanchor => exact absurd ⟨_, hkept, _, hanchor⟩ (hnowhere _)
    | inOrder _ hkept hanchor => exact absurd ⟨_, hkept, _, hanchor⟩ (hnowhere _)
    | nowhere => rfl

/-- Where each file has one outline, it makes no difference whether the path itself or the holder of
its file is searched first, if they are the same or the outline under the holder is not the first
one with the id because of that. -/
theorem searchAgrees_holder?_iff (h : Traffic.Coherent workspace.disk.real workspace.cache)
    (husable : path.isUnusable = false) :
    workspace.SearchAgrees id (some path) (workspace.holder? path) ↔
      ∀ holder ∈ workspace.holder? path, workspace.HasId id holder →
        holder = path ∨ workspace.IsEarliest id holder := by
  have hown (hhas : workspace.HasId id path) : workspace.holder? path = some path := by
    obtain ⟨outline, hkept, -⟩ := hhas
    rw [holder?, husable, if_neg Bool.false_ne_true]
    exact h.held path (List.mem_map_of_mem (f := Prod.fst) hkept)
  constructor
  · intro hagrees holder hholder hhas
    by_cases hpath : workspace.HasId id path
    · exact .inl (hagrees.same path rfl holder hholder hpath hhas).symm
    · exact .inr (hagrees.right holder hholder hhas fun _ hmem => Option.some.inj hmem ▸ hpath)
  · intro hholders
    constructor
    case same =>
      rintro _ ⟨⟩ other hother hpath -
      exact Option.some.inj ((hown hpath).symm.trans hother)
    case left =>
      rintro _ ⟨⟩ hpath hnone
      exact absurd hpath (hnone path (hown hpath))
    case right =>
      intro other hother hhas hnone
      refine (hholders other hother hhas).resolve_left ?_
      rintro rfl
      exact hnone _ rfl hhas

/-- An id is searched for under the preferred path first, and that decides what is found. It is what
a search finds that begins with the outline that a look-up of this path gives, if and only if it
makes no difference which of the two is first. Where each file has one outline that is so if the
file of the preferred path is kept under this path, or its outline has no such anchor, or it is the
first outline in order that has any. Nothing is found if and only if no outline has the id. -/
theorem findId?_search (workspace : Workspace) (hkeys : workspace.cache.outlines.keys.Nodup)
    (id : String) (preferred : Option Path) :
    (∀ result, workspace.Search id preferred result ↔ result = workspace.findId? id preferred) ∧
      (workspace.findId? id preferred = none ↔
        ∀ entry ∈ workspace.outlines, ∀ anchor ∈ entry.2.flatten,
          anchor.facts.attributes.id ≠ some id) ∧
      (workspace.Search id (preferred.bind workspace.holder?) (workspace.findId? id preferred) ↔
        workspace.SearchAgrees id preferred (preferred.bind workspace.holder?)) ∧
      (Traffic.Coherent workspace.disk.real workspace.cache → ∀ path, preferred = some path →
        path.isUnusable = false →
        (workspace.Search id (workspace.holder? path) (workspace.findId? id preferred) ↔
          ∀ holder ∈ workspace.holder? path, workspace.HasId id holder →
            holder = path ∨ workspace.IsEarliest id holder)) ∧
      ∀ path, (workspace.lookup? path).toOption.join =
        (workspace.holder? path).bind workspace.cache.outlines.find? := by
  have hsearch := workspace.search_findId? id preferred
  refine ⟨fun result => ⟨fun h => h.unique hkeys hsearch, fun h => h ▸ hsearch⟩,
    findId?_eq_none_iff, hsearch.other_iff, ?_, workspace.lookup?_eq_holder?⟩
  rintro hcoherent path rfl husable
  exact hsearch.other_iff.trans (searchAgrees_holder?_iff hcoherent husable)

/-! ### An id in two documents -/

/-- The path of a document. -/
def twinPath (name : String) : Path :=
  .absolute ["ws", name]

/-- An anchor with an id that another one has as well. -/
def twinAnchor (line : Nat) : Anchor :=
  .mk { tag := "TODO", text := "t", display := "TODO: t", start := 2, stop := 6, line := line,
        attributes := { seq := 1, id := some "x" }, scope := .workspace, isRegion := false } none []

/-- A workspace with an id in two documents. A link leads to the second one. -/
def twins : Workspace where
  root := .absolute ["ws"]
  settings := {}
  disk :=
    { tree := ((FileTree.empty.put ["ws", "a.py"] (.file [])).put ["ws", "b.py"] (.file [])).put
        ["ws", "c.py"] (.link "b.py") }
  cache := (Cache.empty.keep (twinPath "a.py") (twinPath "a.py") ⟨[twinAnchor 1], []⟩).keep
    (twinPath "b.py") (twinPath "b.py") ⟨[twinAnchor 2], []⟩
  debouncer := .idle 0

/-- Each of the documents has one outline, under its own path. -/
theorem coherent_twins : Traffic.Coherent twins.disk.real twins.cache where
  once := by decide +kernel
  held := by decide +kernel
  kept := by
    intro item path hholder
    have hmem := (KeyedList.find?_eq_some_iff (by decide +kernel)).mp hholder
    have hall : ∀ entry ∈ twins.cache.holders.entries,
        entry.2 ∈ twins.cache.outlines.keys ∧ twins.disk.real entry.2 = entry.1 := by
      decide +kernel
    exact hall _ hmem

/-- The first of the two documents in order is not the one that is preferred. -/
theorem findId?_search_twins :
    twins.findId? "x" (some (twinPath "b.py")) = some (twinPath "b.py", twinAnchor 2) ∧
      twins.Search "x" (twins.holder? (twinPath "b.py"))
        (twins.findId? "x" (some (twinPath "b.py"))) := by
  have hkept : (twinPath "b.py", Outline.mk [twinAnchor 2] []) ∈ twins.outlines := by
    decide +kernel
  have hanchor : (Outline.mk [twinAnchor 2] []).IsFirstOf "x" (twinAnchor 2) :=
    Outline.findId?_eq_some_iff.mp (by decide +kernel)
  have hholder : twins.holder? (twinPath "b.py") = some (twinPath "b.py") := by decide +kernel
  obtain ⟨hfound, -, -, hcoherent, -⟩ := findId?_search twins (by decide +kernel) "x"
    (some (twinPath "b.py"))
  refine ⟨((hfound _).mp (.preferred rfl hkept hanchor)).symm, ?_⟩
  refine (hcoherent coherent_twins _ rfl (by decide +kernel)).mpr fun holder hmem _ => .inl ?_
  exact (Option.some.inj (hholder.symm.trans hmem)).symm

/-- A look-up of the link gives the outline of the second document, in which there is an anchor with
the id; but a search that prefers the link finds the one in the first document. -/
theorem findId?_not_through_link :
    twins.lookup? (twinPath "c.py") = .ok (some ⟨[twinAnchor 2], []⟩) ∧
      (Outline.mk [twinAnchor 2] []).findId? "x" = some (twinAnchor 2) ∧
      twins.findId? "x" (some (twinPath "c.py")) = some (twinPath "a.py", twinAnchor 1) := by
  refine ⟨by decide +kernel, by decide +kernel, ?_⟩
  have hsorted : twins.outlines.mergeSort (fun first second => first.1.le second.1) =
      twins.outlines :=
    List.mergeSort_of_pairwise (by decide +kernel)
  rw [findId?, searchOrder, hsorted]
  decide +kernel

end Workspace

end CommentIndex
