import CommentIndex.Proofs.View.Scopes

/-!
# Counts of files

The view of the workspace states for each file how many of its outermost anchors are shown and how
many are not. Where anchors are nested in those around them, the entries right below the file are
those of the outermost anchors that are shown. Where each is on its own, the entries of the anchors
further inside stand there too, and they are not counted (`View.statesListed_iff`).
-/

namespace CommentIndex

namespace Anchor

/-- The anchors that are inside a root of a forest. -/
def inner (forest : List Anchor) : List Anchor :=
  forest.flatMap fun root => walkAll root.children

variable {keep : Anchor → Bool}

/-- A tree is its root and the anchors inside it. -/
theorem walk_eq_cons (anchor : Anchor) : anchor.walk = anchor :: walkAll anchor.children := by
  cases anchor with
  | mk facts closing below => rw [walk, children]

/-- The anchors of a forest are its roots and those inside a root. -/
theorem countP_walkAll (forest : List Anchor) :
    (walkAll forest).countP keep = forest.countP keep + (inner forest).countP keep := by
  induction forest with
  | nil => rfl
  | cons root rest ih =>
      have hinner : inner (root :: rest) = walkAll root.children ++ inner rest := rfl
      rw [walkAll, walk_eq_cons, hinner, List.cons_append, List.countP_cons, List.countP_append,
        List.countP_append, List.countP_cons, ih]
      omega

/-- A tree is kept, with what of it is kept, if its root passes. -/
theorem isSome_filter? (anchor : Anchor) : (anchor.filter? keep).isSome = keep anchor := by
  cases anchor with
  | mk facts closing children =>
      rw [filter?_mk]
      cases keep (.mk facts closing children) <;> rfl

/-- A filtered forest has as many roots as pass. -/
theorem length_filterAll (forest : List Anchor) :
    (filterAll keep forest).length = forest.countP keep := by
  rw [filterAll_eq_filterMap, List.length_filterMap_eq_countP]
  exact congrArg (List.countP · forest) (funext isSome_filter?)

end Anchor

namespace Entry

/-- There is one entry for each anchor of a forest. -/
theorem length_ofAnchors (path : Path) (showLine isExpanded : Bool) (anchors : List Anchor) :
    (ofAnchors path showLine isExpanded anchors).length = anchors.length := by
  induction anchors with
  | nil => rfl
  | cons anchor rest ih => rw [ofAnchors, List.length_cons, List.length_cons, ih]

end Entry

namespace View

variable {workspace : Workspace}

/-- The anchors of an outline that are listed besides the outermost ones: all that are shown, unless
they are nested in those around them. -/
def uncounted (nested : Bool) (outline : Outline) : List Anchor :=
  if nested then [] else (Anchor.inner outline.anchors).filter Anchor.isInWorkspace

/-- The anchors listed for an outline are the outermost ones that are shown and those that are not
counted. -/
theorem length_shownAnchors (nested : Bool) (outline : Outline) :
    (shownAnchors nested outline).length =
      outline.anchors.countP Anchor.isInWorkspace + (uncounted nested outline).length := by
  cases nested with
  | true => exact Anchor.length_filterAll outline.anchors
  | false =>
      show ((outline.flatten.filter Anchor.isInWorkspace).map Anchor.alone).length = _
      rw [List.length_map, ← List.countP_eq_length_filter]
      show _ = _ + ((Anchor.inner outline.anchors).filter Anchor.isInWorkspace).length
      rw [← List.countP_eq_length_filter]
      exact Anchor.countP_walkAll outline.anchors

/-- The label of a file with the counts in it, unless the path format leaves them out. -/
def countedLabel (workspace : Workspace) (path : Path) (visible hidden : Nat) : String :=
  let format := workspace.settings.workspace.pathFormat
  let name := path.label workspace.root format
  if format = .hidden then name
  else name ++ " (" ++ (Nat.repr visible ++ " Anchors" ++
    (if hidden = 0 then "" else ", " ++ Nat.repr hidden ++ " Hidden")) ++ ")"

/-- The entry of a document states how many of its outermost anchors are shown and how many are not,
also in its label, and lists those that are shown and the uncounted ones. -/
structure CountsRoots (workspace : Workspace) (document : Path × Outline) (entry : Entry)
    (visible hidden : Nat) : Prop where
  isFile : entry = .file document.1 (countedLabel workspace document.1 visible hidden) visible
    hidden entry.children
  shown : document.2.anchors.countP Anchor.isInWorkspace = visible
  total : document.2.anchors.length = visible + hidden
  listed : entry.children.length =
    visible + (uncounted workspace.settings.tags.nested document.2).length

/-- What the entry of a document states and lists. -/
theorem countsRoots_of_mem_shownFile? {document : Path × Outline} {entry : Entry}
    (h : entry ∈ shownFile? workspace document.1 document.2) :
    ∃ visible hidden, CountsRoots workspace document entry visible hidden := by
  simp only [shownFile?, Option.mem_def, Option.ite_none_left_eq_some, Option.some.injEq] at h
  obtain ⟨-, rfl⟩ := h
  refine ⟨_, _, rfl, rfl, (Nat.add_sub_cancel' List.countP_le_length).symm, ?_⟩
  show (Entry.ofAnchors ..).length = _
  rw [Entry.length_ofAnchors, SortMethod.sort, List.length_mergeSort]
  exact length_shownAnchors _ _

/-- A document has no entry if none of its anchors is shown, at the root or uncounted. -/
theorem shownFile?_eq_none_iff_length (document : Path × Outline) :
    shownFile? workspace document.1 document.2 = none ↔
      document.2.anchors.countP Anchor.isInWorkspace +
        (uncounted workspace.settings.tags.nested document.2).length = 0 := by
  rw [← length_shownAnchors, List.length_eq_zero_iff, ← List.isEmpty_iff]
  simp only [shownFile?]
  split <;> simp_all

/-- The view of the workspace has one entry of a file for each document with anchors to show, unless
there is an entry that says why there is none. -/
theorem mem_ofWorkspace_file_iff {path : Path} {label : String} {visible hidden : Nat}
    {below : List Entry} :
    .file path label visible hidden below ∈ ofWorkspace workspace ↔
      placeholder? workspace = none ∧ ∃ document ∈ workspace.outlines,
        shownFile? workspace document.1 document.2 =
          some (.file path label visible hidden below) := by
  unfold ofWorkspace
  split
  · next entry hentry =>
      refine iff_of_false (fun h => ?_) fun h => by simp [hentry] at h
      obtain rfl := List.mem_singleton.mp h
      simp only [placeholder?] at hentry
      repeat' split at hentry
      all_goals cases hentry
  · next hnone =>
      simp only [hnone, true_and, ← List.mem_filterMap]
      split
      · next hempty =>
          rw [List.isEmpty_iff.mp hempty]
          simp
      · rw [List.mem_mergeSort]

/-- Whether every count of shown anchors that the view of a workspace states for a file is the
number of entries that it lists right below the file. -/
def StatesListed (workspace : Workspace) : Prop :=
  ∀ path label visible hidden below,
    .file path label visible hidden below ∈ ofWorkspace workspace → visible = below.length

/-- What the entry of a file in the view of the workspace states and lists. -/
theorem countsRoots_of_mem_ofWorkspace {path : Path} {label : String} {visible hidden : Nat}
    {below : List Entry} (h : .file path label visible hidden below ∈ ofWorkspace workspace) :
    ∃ outline, (path, outline) ∈ workspace.outlines ∧ CountsRoots workspace (path, outline)
      (.file path label visible hidden below) visible hidden := by
  obtain ⟨-, document, hcached, hentry⟩ := mem_ofWorkspace_file_iff.mp h
  obtain ⟨shown, others, hcounts⟩ := countsRoots_of_mem_shownFile? hentry
  obtain ⟨rfl, -, rfl, rfl, -⟩ := Entry.file.inj hcounts.isFile
  exact ⟨document.2, hcached, hcounts⟩

/-- Every count is the number of entries listed if and only if no document has uncounted anchors. -/
theorem statesListed_iff_uncounted (hnone : placeholder? workspace = none) :
    StatesListed workspace ↔
      ∀ document ∈ workspace.outlines,
        uncounted workspace.settings.tags.nested document.2 = [] := by
  constructor
  · intro h document hcached
    rw [← List.length_eq_zero_iff]
    cases hentry : shownFile? workspace document.1 document.2 with
    | none =>
        have hzero := (shownFile?_eq_none_iff_length document).mp hentry
        omega
    | some entry =>
        obtain ⟨visible, hidden, hcounts⟩ := countsRoots_of_mem_shownFile? hentry
        rw [hcounts.isFile] at hentry
        have hsame := h _ _ _ _ _ (mem_ofWorkspace_file_iff.mpr ⟨hnone, document, hcached, hentry⟩)
        have hlisted := hcounts.listed
        omega
  · intro h path label visible hidden below hentry
    obtain ⟨outline, hcached, hcounts⟩ := countsRoots_of_mem_ofWorkspace hentry
    have hlisted := hcounts.listed
    rw [h _ hcached, List.length_nil] at hlisted
    exact hlisted.symm

/-- An outline has no uncounted anchors if and only if anchors are nested or none inside another one
is shown. -/
theorem uncounted_eq_nil_iff {nested : Bool} {outline : Outline} :
    uncounted nested outline = [] ↔
      nested ∨ ∀ anchor ∈ Anchor.inner outline.anchors, !anchor.isInWorkspace := by
  cases nested <;> simp [uncounted]

/-- What the view of a workspace states for a file is what it lists below it if and only if nothing
is listed, or anchors are nested, or no anchor inside another one is shown. In any case the count is
that of the outermost anchors that are shown, in the label as well. -/
theorem statesListed_iff (workspace : Workspace) :
    (∀ path label visible hidden below,
      .file path label visible hidden below ∈ ofWorkspace workspace →
      ∃ outline, (path, outline) ∈ workspace.outlines ∧ CountsRoots workspace (path, outline)
        (.file path label visible hidden below) visible hidden) ∧
    (StatesListed workspace ↔
      (placeholder? workspace).isSome ∨ workspace.settings.tags.nested ∨
        ∀ document ∈ workspace.outlines, ∀ anchor ∈ Anchor.inner document.2.anchors,
          !anchor.isInWorkspace) := by
  refine ⟨fun _ _ _ _ _ => countsRoots_of_mem_ofWorkspace, ?_⟩
  cases hplaceholder : placeholder? workspace with
  | some entry =>
      refine iff_of_true (fun path label visible hidden below hentry => ?_) (.inl rfl)
      rw [mem_ofWorkspace_file_iff, hplaceholder] at hentry
      cases hentry.1
  | none =>
      rw [statesListed_iff_uncounted hplaceholder]
      simp only [uncounted_eq_nil_iff, Option.isSome_none, Bool.false_eq_true, false_or]
      cases workspace.settings.tags.nested <;> simp

/-- A workspace that shows each anchor on its own, with a section and an anchor inside it. -/
def flat : Workspace where
  root := .absolute ["ws"]
  settings := { tags := { nested := false } }
  disk := { tree := .empty }
  cache := Cache.empty.keep (.absolute ["ws", "a.py"]) (.absolute ["ws", "a.py"])
    { anchors := [sectionOf "s" .workspace 2 [sectionOf "t" .workspace 15 []]], folds := [] }
  active := none
  isLoaded := true
  debouncer := .idle 0

/-- The file of that section states one anchor and lists two. -/
theorem stated_one_listed_two :
    (∃ below, View.workspace.entries flat none =
        .ok [.file (.absolute ["ws", "a.py"]) "a.py (1 Anchors)" 1 0 below] ∧
        below.map Entry.label = ["s", "t"]) ∧
      ¬ StatesListed flat := by
  let sections := [sectionOf "s" .workspace 2 [], sectionOf "t" .workspace 15 []]
  let below := Entry.ofAnchors (.absolute ["ws", "a.py"]) false true sections
  have hsorted : SortMethod.line.sort sections = sections :=
    List.mergeSort_of_pairwise (by decide +kernel)
  have hlabel : countedLabel flat (.absolute ["ws", "a.py"]) 1 0 = "a.py (1 Anchors)" := by
    decide +kernel
  have hentries : ofWorkspace flat =
      [.file (.absolute ["ws", "a.py"]) "a.py (1 Anchors)" 1 0 below] := by
    rw [← hlabel]
    show List.mergeSort [_] _ = _
    rw [List.mergeSort_singleton]
    exact congrArg (fun anchors => [Entry.file _ _ 1 0 (Entry.ofAnchors _ false true anchors)])
      hsorted
  refine ⟨⟨below, congrArg Except.ok hentries, rfl⟩, fun h => ?_⟩
  have hlisted : 1 = below.length := h _ _ _ _ _ (hentries ▸ List.mem_singleton_self _)
  rw [Entry.length_ofAnchors] at hlisted
  exact absurd hlisted (by decide)

end View

end CommentIndex
