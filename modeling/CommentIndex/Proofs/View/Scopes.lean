import CommentIndex.Proofs.Outline.Lineage
import CommentIndex.View
import Mathlib.Data.List.Perm.Basic

/-!
# What the views show

`Entry.Shows` says that nothing that fails a test is anywhere in a forest of entries, and that what
each entry shows is what it makes up with the entries below it. The views show no anchor whose scope
does not reach them, and the lineages below each file are all those of its outline in which every
scope does: `entries_scopes` says so of the three views of a workspace.
-/

namespace CommentIndex

open Anchor (lineagesAll)

namespace Entry

mutual

/-- The entry and those below it, in the order in which they are shown. -/
def walk : Entry → List Entry
  | .anchor shown path showLine below => .anchor shown path showLine below :: walkAll below
  | .region shown path showLine isExpanded below =>
    .region shown path showLine isExpanded below :: walkAll below
  | .file path label visible hidden below =>
    .file path label visible hidden below :: walkAll below
  | .epic name below => .epic name below :: walkAll below
  | entry => [entry]
termination_by structural entry => entry

/-- All entries of a forest, in the order in which they are shown. -/
def walkAll : List Entry → List Entry
  | [] => []
  | entry :: rest => entry.walk ++ walkAll rest
termination_by structural entries => entries

end

/-- The anchor that an entry shows. -/
def shown? : Entry → Option Anchor
  | .anchor shown _ _ _ => some shown
  | .region shown _ _ _ _ => some shown
  | _ => none

mutual

/-- The anchor that an entry makes up with the entries below it. -/
def tree? : Entry → Option Anchor
  | .anchor shown _ _ below => some (shown.withChildren (trees below))
  | .region shown _ _ _ below => some (shown.withChildren (trees below))
  | _ => none
termination_by structural entry => entry

/-- The forest that the entries make up. -/
def trees : List Entry → List Anchor
  | [] => []
  | entry :: rest => entry.tree?.toList ++ trees rest
termination_by structural entries => entries

end

/-- The document of a file entry. -/
def document? : Entry → Option Path
  | .file path _ _ _ _ => some path
  | _ => none

/-- Every entry shows the anchor that it makes up with the entries below it, and all that is inside
that anchor passes the test. -/
def Shows (keep : Facts → Bool) (entries : List Entry) : Prop :=
  ∀ entry ∈ walkAll entries, entry.shown? = entry.tree? ∧
    ∀ shown ∈ entry.shown?, ∀ anchor ∈ shown.walk, keep anchor.facts

variable {keep : Facts → Bool} {entries : List Entry}

/-- The entries of a forest are those of its trees. -/
theorem mem_walkAll {entry : Entry} :
    entry ∈ walkAll entries ↔ ∃ root ∈ entries, entry ∈ root.walk := by
  induction entries with
  | nil => simp [walkAll]
  | cons root rest ih => simp [walkAll, ih]

/-- Entries show what each of them does. -/
theorem shows_iff : Shows keep entries ↔ ∀ entry ∈ entries, Shows keep [entry] := by
  constructor
  · intro h root hroot entry hentry
    rw [walkAll, walkAll, List.append_nil] at hentry
    exact h entry (mem_walkAll.mpr ⟨root, hroot, hentry⟩)
  · intro h entry hentry
    obtain ⟨root, hroot, hwalk⟩ := mem_walkAll.mp hentry
    exact h root hroot entry (mem_walkAll.mpr ⟨root, List.mem_singleton_self root, hwalk⟩)

/-- Some of the entries that show nothing else, in whatever order, do not either. -/
theorem Shows.of_subset {others : List Entry} (h : Shows keep entries)
    (hsubset : others ⊆ entries) : Shows keep others :=
  shows_iff.mpr fun entry hentry => shows_iff.mp h entry (hsubset hentry)

/-- A single entry that shows no anchor itself shows what is below it. -/
theorem Shows.above {entry : Entry} {below : List Entry} (h : Shows keep below)
    (hwalk : entry.walk = entry :: walkAll below) (hshown : entry.shown? = none)
    (htree : entry.tree? = none) : Shows keep [entry] := by
  intro inner hinner
  rw [walkAll, walkAll, List.append_nil, hwalk, List.mem_cons] at hinner
  rcases hinner with rfl | hinner
  · exact ⟨hshown.trans htree.symm, fun _ hmem => by rw [hshown] at hmem; contradiction⟩
  · exact h inner hinner

theorem shows_nil : Shows keep [] :=
  fun _ hentry => absurd hentry List.not_mem_nil

/-! ### The entries of anchors -/

section

variable (path : Path) (showLine isExpanded : Bool)

mutual

/-- The entry of an anchor makes up that anchor. -/
theorem tree?_ofAnchor (anchor : Anchor) :
    (ofAnchor path showLine isExpanded anchor).tree? = some anchor := by
  cases anchor with
  | mk facts closing children =>
      rw [ofAnchor]
      split <;> rw [tree?, trees_ofAnchors children] <;> rfl

/-- The entries of a forest make up that forest. -/
theorem trees_ofAnchors (anchors : List Anchor) :
    trees (ofAnchors path showLine isExpanded anchors) = anchors := by
  cases anchors with
  | nil => rfl
  | cons anchor rest =>
      rw [ofAnchors, trees, tree?_ofAnchor anchor, trees_ofAnchors rest]
      rfl

end

/-- The entry of an anchor shows that anchor. -/
theorem shown?_ofAnchor (anchor : Anchor) :
    (ofAnchor path showLine isExpanded anchor).shown? = some anchor := by
  cases anchor with
  | mk facts closing children =>
      rw [ofAnchor]
      split <;> rfl

/-- Below the entry of an anchor are those of the anchors inside it. -/
theorem walk_ofAnchor (anchor : Anchor) :
    (ofAnchor path showLine isExpanded anchor).walk =
      ofAnchor path showLine isExpanded anchor ::
        walkAll (ofAnchors path showLine isExpanded anchor.children) := by
  cases anchor with
  | mk facts closing children =>
      rw [ofAnchor]
      split <;> rfl

mutual

/-- The entry of an anchor shows what is inside it. -/
theorem shows_ofAnchor (anchor : Anchor) (h : ∀ inner ∈ anchor.walk, keep inner.facts) :
    Shows keep [ofAnchor path showLine isExpanded anchor] := by
  intro entry hentry
  rw [walkAll, walkAll, List.append_nil, walk_ofAnchor, List.mem_cons] at hentry
  rcases hentry with rfl | hentry
  · rw [shown?_ofAnchor, tree?_ofAnchor]
    refine ⟨rfl, fun shown hshown => ?_⟩
    obtain rfl := Option.some.inj hshown
    exact h
  · cases anchor with
    | mk facts closing children =>
        refine shows_ofAnchors children (fun inner hinner => h inner ?_) entry hentry
        rw [Anchor.walk]
        exact List.mem_cons_of_mem _ hinner

/-- The entries of a forest show what is in it. -/
theorem shows_ofAnchors (anchors : List Anchor)
    (h : ∀ inner ∈ Anchor.walkAll anchors, keep inner.facts) :
    Shows keep (ofAnchors path showLine isExpanded anchors) := by
  cases anchors with
  | nil => exact shows_nil
  | cons anchor rest =>
      rw [ofAnchors]
      refine shows_iff.mpr fun entry hentry => ?_
      rw [Anchor.walkAll] at h
      rcases List.mem_cons.mp hentry with rfl | hentry
      · exact shows_ofAnchor anchor fun inner hinner => h inner (List.mem_append_left _ hinner)
      · have hrest := shows_ofAnchors rest fun inner hinner =>
          h inner (List.mem_append_right _ hinner)
        exact shows_iff.mp hrest entry hentry

end

end

/-! ### The mark of the cursor -/

/-- The mark of the cursor is no anchor. -/
theorem trees_withCursor (line : Int) (entries : List Entry) :
    trees (withCursor line entries) = trees entries := by
  induction entries with
  | nil => rfl
  | cons entry rest ih =>
      unfold withCursor
      split
      · rfl
      · rw [trees, trees, ih]

/-- Besides the mark of the cursor there are the entries that were there. -/
theorem mem_withCursor {entry : Entry} {line : Int} (h : entry ∈ withCursor line entries) :
    entry = .cursor line ∨ entry ∈ entries := by
  induction entries with
  | nil => exact absurd h List.not_mem_nil
  | cons first rest ih =>
      unfold withCursor at h
      split at h
      · exact List.mem_cons.mp h
      · rcases List.mem_cons.mp h with rfl | h
        · exact .inr List.mem_cons_self
        · exact (ih h).imp_right (List.mem_cons_of_mem _)

/-- The mark of the cursor shows nothing. -/
theorem Shows.withCursor (h : Shows keep entries) (line : Int) :
    Shows keep (Entry.withCursor line entries) := by
  refine shows_iff.mpr fun entry hentry => ?_
  rcases mem_withCursor hentry with rfl | hentry
  · exact shows_nil.above rfl rfl rfl
  · exact shows_iff.mp h entry hentry

end Entry

namespace View

/-- Whether what an occurrence says is shown in the view of its own document. -/
def showsInFile (facts : Facts) : Bool :=
  facts.scope ≠ .hidden

/-- Whether what an occurrence says is shown in the views of the workspace. -/
def showsInWorkspace (facts : Facts) : Bool :=
  facts.scope = .workspace

/-- The lineages of an outline that are shown in the workspace: all in which every scope reaches it,
or that of each anchor of which the scope does, without those around it. -/
def shownLineages (tags : TagSettings) (outline : Outline) :
    List (List (Facts × Option Closing)) :=
  if tags.nested then
    (lineagesAll (tags.sortMethod.sort outline.anchors)).filter (·.all (showsInWorkspace ·.1))
  else
    ((tags.sortMethod.sort outline.flatten).filter (showsInWorkspace ·.facts)).map
      fun anchor => [(anchor.facts, anchor.closing)]

variable {workspace : Workspace}

/-- Anchors on their own have no lineage but what they say themselves. -/
theorem lineagesAll_alone (anchors : List Anchor) :
    lineagesAll (anchors.map Anchor.alone) =
      anchors.map fun anchor => [(anchor.facts, anchor.closing)] := by
  induction anchors with
  | nil => rfl
  | cons anchor rest ih =>
      rw [List.map_cons, lineagesAll, ih]
      rfl

/-- The anchors shown in the workspace have the lineages shown there. -/
theorem lineagesAll_shownAnchors (tags : TagSettings) (outline : Outline) :
    lineagesAll (tags.sortMethod.sort (shownAnchors tags.nested outline)) =
      shownLineages tags outline := by
  unfold shownAnchors shownLineages
  split
  · exact (congrArg lineagesAll
      (tags.sortMethod.filterAll_sort showsInWorkspace outline.anchors).symm).trans
        (Anchor.lineagesAll_filterAll _)
  · have halone : ∀ anchors : List Anchor,
        (anchors.filter Anchor.isInWorkspace).map Anchor.alone = anchors.filterMap fun anchor =>
          if anchor.isInWorkspace then some anchor.alone else none := by
      intro anchors
      rw [← List.filterMap_filter, List.filterMap_eq_map']
    rw [halone, ← tags.sortMethod.filterMap_sort, ← halone, lineagesAll_alone]
    · rfl
    · intro anchor changed hchanged
      rw [Option.mem_def, Option.ite_none_right_eq_some] at hchanged
      obtain rfl := Option.some.inj hchanged.2
      rfl

/-- All anchors shown in the workspace have a scope that reaches it. -/
theorem showsInWorkspace_of_mem_shownAnchors {nested : Bool} {outline : Outline} {anchor : Anchor}
    (h : anchor ∈ Anchor.walkAll (shownAnchors nested outline)) :
    showsInWorkspace anchor.facts := by
  unfold shownAnchors at h
  split at h
  · exact Anchor.keep_of_mem_filterAll outline.anchors h
  · obtain ⟨root, hroot, hwalk⟩ := Anchor.mem_walkAll.mp h
    obtain ⟨alone, halone, rfl⟩ := List.mem_map.mp hroot
    obtain rfl : anchor = alone.alone := by
      simpa [Anchor.alone, Anchor.withChildren, Anchor.walk, Anchor.walkAll] using hwalk
    exact (List.mem_filter.mp halone).2

/-- Sorted anchors are the same anchors. -/
theorem mem_walkAll_sort {method : SortMethod} {anchors : List Anchor} {anchor : Anchor}
    (h : anchor ∈ Anchor.walkAll (method.sort anchors)) : anchor ∈ Anchor.walkAll anchors := by
  obtain ⟨root, hroot, hwalk⟩ := Anchor.mem_walkAll.mp h
  exact Anchor.mem_walkAll.mpr ⟨root, List.mem_mergeSort.mp hroot, hwalk⟩

/-! ### The view of a document -/

/-- A view that shows one entry instead of anchors shows none. -/
theorem shows_error {keep : Facts → Bool} (message : String) :
    Entry.Shows keep [.error message] :=
  Entry.shows_nil.above rfl rfl rfl

/-- The view of the active document shows no hidden anchor, and every anchor that neither is hidden
nor is inside a hidden one. -/
theorem ofFile_shows {path : Path} {outline : Outline} (hloaded : workspace.isLoaded = true)
    (hactive : workspace.active = some path) (hcurrent : workspace.current = .ok outline)
    (cursor : Option Int) :
    ∃ entries, ofFile workspace cursor = .ok entries ∧ Entry.Shows showsInFile entries ∧
      lineagesAll (Entry.trees entries) =
        (lineagesAll (workspace.settings.tags.sortMethod.sort outline.anchors)).filter
          (·.all (showsInFile ·.1)) := by
  have htest : (fun anchor : Anchor => !anchor.isHidden) = (showsInFile ·.facts) :=
    funext fun anchor => (decide_not ..).symm
  unfold ofFile
  simp only [hloaded, hactive, hcurrent, htest, bind, Except.bind, pure, Except.pure,
    Bool.not_true, Bool.false_eq_true, if_false]
  generalize hmethod : workspace.settings.tags.sortMethod = method
  generalize hkept : Anchor.filterAll (showsInFile ·.facts) outline.anchors = kept
  have hlineages : lineagesAll (method.sort kept) =
      (lineagesAll (method.sort outline.anchors)).filter (·.all (showsInFile ·.1)) := by
    rw [← hkept, ← method.filterAll_sort, Anchor.lineagesAll_filterAll]
  rw [← hlineages]
  split
  · next hnone =>
      obtain rfl := List.isEmpty_iff.mp hnone
      refine ⟨_, rfl, shows_error _, ?_⟩
      simp [Entry.trees, Entry.tree?, SortMethod.sort]
  · generalize hentries : Entry.ofAnchors path workspace.settings.tags.showLine
      workspace.settings.tags.expandRegions (method.sort kept) = entries
    have htrees : Entry.trees entries = method.sort kept := hentries ▸ Entry.trees_ofAnchors ..
    have hshows : Entry.Shows showsInFile entries := by
      rw [← hentries]
      refine Entry.shows_ofAnchors _ _ _ _ fun inner hinner => ?_
      exact Anchor.keep_of_mem_filterAll outline.anchors (hkept ▸ mem_walkAll_sort hinner)
    cases cursor with
    | none => exact ⟨entries, rfl, hshows, by rw [htrees]⟩
    | some line =>
        refine ⟨_, rfl, ?_⟩
        split
        · exact ⟨hshows.withCursor line, by rw [Entry.trees_withCursor, htrees]⟩
        · exact ⟨hshows, by rw [htrees]⟩

/-! ### The view of all files -/

/-- The entry of a document with all lineages of its outline that are shown in the workspace. -/
structure ShowsDocument (tags : TagSettings) (entry : Entry) (document : Path × Outline) :
    Prop where
  path : entry.document? = some document.1
  shows : Entry.Shows showsInWorkspace [entry]
  lineages : lineagesAll (Entry.trees entry.children) = shownLineages tags document.2

/-- A document has no entry if none of its lineages is shown. -/
theorem shownFile?_eq_none_iff (document : Path × Outline) :
    shownFile? workspace document.1 document.2 = none ↔
      shownLineages workspace.settings.tags document.2 = [] := by
  rw [← lineagesAll_shownAnchors, Anchor.lineagesAll_eq_nil_iff, ← List.length_eq_zero_iff,
    SortMethod.sort, List.length_mergeSort, List.length_eq_zero_iff, ← List.isEmpty_iff]
  simp only [shownFile?]
  split <;> simp_all

/-- The entry of a document has all lineages of it that are shown. -/
theorem showsDocument_of_mem_shownFile? {document : Path × Outline} {entry : Entry}
    (h : entry ∈ shownFile? workspace document.1 document.2) :
    ShowsDocument workspace.settings.tags entry document := by
  unfold shownFile? at h
  simp only [Option.mem_def, Option.ite_none_left_eq_some] at h
  obtain rfl := Option.some.inj h.2
  refine ⟨rfl, Entry.Shows.above (Entry.shows_ofAnchors _ _ _ _ fun inner hinner => ?_) rfl rfl rfl,
    ?_⟩
  · exact showsInWorkspace_of_mem_shownAnchors (mem_walkAll_sort hinner)
  · exact (congrArg lineagesAll (Entry.trees_ofAnchors ..)).trans (lineagesAll_shownAnchors _ _)

/-- What some items become, against the items of which anything becomes. -/
theorem forall₂_filterMap {α β : Type} {related : β → α → Prop} {change : α → Option β}
    {changes : α → Bool} (hnone : ∀ item, change item = none ↔ changes item = false)
    (hsome : ∀ item, ∀ result ∈ change item, related result item) (items : List α) :
    List.Forall₂ related (items.filterMap change) (items.filter changes) := by
  induction items with
  | nil => exact .nil
  | cons item rest ih =>
      cases hitem : change item with
      | none =>
          rw [List.filterMap_cons_none hitem,
            List.filter_cons_of_neg (by simp [(hnone item).mp hitem])]
          exact ih
      | some result =>
          have hchanges : changes item = true := by
            cases hchanges : changes item with
            | true => rfl
            | false => rw [(hnone item).mpr hchanges] at hitem; contradiction
          rw [List.filterMap_cons_some hitem, List.filter_cons_of_pos hchanges]
          exact .cons (hsome item result hitem) ih

/-- The view of the workspace has an entry for each document of which any lineage is shown, with all
that are, or else it says that there is none. -/
theorem ofWorkspace_shows (h : placeholder? workspace = none) :
    Entry.Shows showsInWorkspace (ofWorkspace workspace) ∧
      ∃ files documents, ofWorkspace workspace =
          (if files.isEmpty then [.error "No comment anchors in workspace"] else files) ∧
        documents.Perm (workspace.outlines.filter fun document =>
          shownLineages workspace.settings.tags document.2 ≠ []) ∧
        List.Forall₂ (ShowsDocument workspace.settings.tags) files documents := by
  have hall : List.Forall₂ (ShowsDocument workspace.settings.tags)
      (workspace.outlines.filterMap fun document => shownFile? workspace document.1 document.2)
      (workspace.outlines.filter fun document =>
        shownLineages workspace.settings.tags document.2 ≠ []) :=
    forall₂_filterMap (fun document => by rw [shownFile?_eq_none_iff]; simp)
      (fun document entry => showsDocument_of_mem_shownFile?) _
  have hentries : ofWorkspace workspace =
      (let files := workspace.outlines.filterMap fun document =>
        shownFile? workspace document.1 document.2
      if files.isEmpty then [.error "No comment anchors in workspace"]
      else files.mergeSort fun first second => first.label ≤ second.label) := by
    unfold ofWorkspace
    rw [h]
  generalize hfiles : (workspace.outlines.filterMap fun document =>
    shownFile? workspace document.1 document.2) = files at hall hentries
  have hsorted := List.mergeSort_perm files fun first second => first.label ≤ second.label
  obtain ⟨documents, hdocuments, hperm⟩ := List.perm_comp_forall₂ hsorted hall
  have hempty := List.Perm.isEmpty_eq hsorted
  rw [hentries]
  refine ⟨?_, _, documents, by rw [hempty], hperm, hdocuments⟩
  dsimp only
  split
  · exact shows_error _
  · refine Entry.shows_iff.mpr fun entry hentry => ?_
    rw [List.mem_mergeSort, ← hfiles] at hentry
    obtain ⟨document, -, hdocument⟩ := List.mem_filterMap.mp hentry
    exact (showsDocument_of_mem_shownFile? hdocument).shows

/-! ### The view of all epics -/

/-- The members of epics have a scope that reaches the workspace. -/
theorem showsInWorkspace_of_mem_epicMembers {member : EpicMember}
    (h : member ∈ epicMembers workspace) : showsInWorkspace member.anchor.facts := by
  obtain ⟨document, -, hmember⟩ := List.mem_flatMap.mp h
  obtain ⟨anchor, -, hanchor⟩ := List.mem_filterMap.mp hmember
  unfold epicMember? at hanchor
  rw [Option.ite_none_right_eq_some] at hanchor
  obtain ⟨epic, -, rfl⟩ := Option.map_eq_some_iff.mp hanchor.2
  exact hanchor.1

/-- The entry of a member shows nothing whose scope does not reach the workspace. -/
theorem shows_of_mem_shownMember? {nested : Bool} {member : EpicMember} {entry : Entry}
    (hmember : showsInWorkspace member.anchor.facts) (h : entry ∈ shownMember? nested member) :
    Entry.Shows showsInWorkspace [entry] := by
  obtain ⟨anchor, hanchor, rfl⟩ := Option.map_eq_some_iff.mp h
  refine Entry.shows_ofAnchor _ _ _ _ fun inner hinner => ?_
  split at hanchor
  · exact Anchor.keep_of_mem_filter? member.anchor anchor hanchor hinner
  · obtain rfl := Option.some.inj hanchor
    obtain rfl : inner = member.anchor.alone := by
      simpa [Anchor.alone, Anchor.withChildren, Anchor.walk, Anchor.walkAll] using hinner
    exact hmember

/-- The view of the epics shows nothing whose scope does not reach the workspace. -/
theorem ofEpics_shows (h : placeholder? workspace = none) :
    Entry.Shows showsInWorkspace (ofEpics workspace) := by
  unfold ofEpics
  rw [h]
  dsimp only
  split
  · exact shows_error _
  · refine Entry.shows_iff.mpr fun entry hentry => ?_
    obtain ⟨epic, -, rfl⟩ := List.mem_map.mp hentry
    refine Entry.Shows.above (Entry.shows_iff.mpr fun below hbelow => ?_) rfl rfl rfl
    obtain ⟨member, hmember, hshown⟩ := List.mem_filterMap.mp hbelow
    exact shows_of_mem_shownMember? (showsInWorkspace_of_mem_epicMembers
      (List.mem_filter.mp (List.mem_mergeSort.mp hmember)).1) hshown

/-- What the views of a workspace show, where none of them shows something else instead of anchors.
Nothing whose scope does not reach a view is shown in it, and each entry shows what it makes up with
the entries below it. The view of the active document has every lineage of it without a hidden
anchor; the view of the workspace has an entry for each document with a lineage to show there, and
all such lineages below it. -/
theorem entries_scopes (workspace : Workspace) (cursor : Option Int) :
    (∀ path, workspace.isLoaded = true → workspace.active = some path → path.isUnusable = false →
      ∃ outline entries, workspace.current = .ok outline ∧
        View.file.entries workspace cursor = .ok entries ∧ Entry.Shows showsInFile entries ∧
        lineagesAll (Entry.trees entries) =
          (lineagesAll (workspace.settings.tags.sortMethod.sort outline.anchors)).filter
            (·.all (showsInFile ·.1))) ∧
    (placeholder? workspace = none →
      (∃ entries files documents, View.workspace.entries workspace cursor = .ok entries ∧
        Entry.Shows showsInWorkspace entries ∧
        entries = (if files.isEmpty then [.error "No comment anchors in workspace"] else files) ∧
        documents.Perm (workspace.outlines.filter fun document =>
          shownLineages workspace.settings.tags document.2 ≠ []) ∧
        List.Forall₂ (ShowsDocument workspace.settings.tags) files documents) ∧
      ∃ entries, View.epic.entries workspace cursor = .ok entries ∧
        Entry.Shows showsInWorkspace entries) := by
  refine ⟨fun path hloaded hactive husable => ?_, fun h => ⟨?_, _, rfl, ofEpics_shows h⟩⟩
  · have hcurrent : workspace.current =
        .ok ((workspace.cache.lookup? (workspace.disk.real path)).getD .empty) := by
      simp [Workspace.current, Workspace.lookup?, Workspace.fileAt, hactive, husable, Except.map]
    obtain ⟨entries, hentries⟩ := ofFile_shows hloaded hactive hcurrent cursor
    exact ⟨_, entries, hcurrent, hentries⟩
  · obtain ⟨hshows, files, documents, hentries⟩ := ofWorkspace_shows h
    exact ⟨_, files, documents, rfl, hshows, hentries⟩

/-! ### Scopes inside scopes -/

/-- An anchor with the given text and scope. -/
def sectionOf (text : String) (scope : Scope) (start : Nat) (children : List Anchor) : Anchor :=
  .mk { tag := "SECTION", text := text, display := text, start := start, stop := start + 7,
        line := start, attributes := { seq := 0 }, scope := scope, isRegion := true } none children

/-- Anchors whose scopes are narrower or wider than those around them. -/
def layers : Outline where
  anchors :=
    [sectionOf "outer" .workspace 1
       [sectionOf "veiled" .hidden 2 [sectionOf "secret" .workspace 3 []],
       sectionOf "deep" .workspace 4 [], sectionOf "noted" .file 5 []],
     sectionOf "aside" .file 6 [sectionOf "inner" .workspace 7 []]]
  folds := []

/-- A workspace whose active document has these anchors. -/
def layered : Workspace where
  root := .absolute ["ws"]
  settings := {}
  disk := { tree := .empty }
  cache := Cache.empty.keep (.absolute ["ws", "a.py"]) (.absolute ["ws", "a.py"]) layers
  active := some (.absolute ["ws", "a.py"])
  isLoaded := true
  debouncer := .idle 0

/-- What is hidden is hidden with all that is inside it, in the view of the document; in the view of
the workspace an anchor is shown only if all those around it are. -/
theorem entries_scopes_layered :
    (∃ entries, View.file.entries layered (some 4) = .ok entries ∧
      (lineagesAll (Entry.trees entries)).map (·.map (·.1.text)) =
        [["outer"], ["outer", "deep"], ["outer", "noted"], ["aside"], ["aside", "inner"]]) ∧
    ∃ entry, View.workspace.entries layered (some 4) = .ok [entry] ∧
      (lineagesAll (Entry.trees entry.children)).map (·.map (·.1.text)) =
        [["outer"], ["outer", "deep"]] := by
  have hsorted : SortMethod.line.sort layers.anchors = layers.anchors :=
    List.mergeSort_of_pairwise (by decide +kernel)
  obtain ⟨hfile, hworkspace⟩ := entries_scopes layered (some 4)
  constructor
  · obtain ⟨outline, entries, hcurrent, hentries, -, hlineages⟩ :=
      hfile (.absolute ["ws", "a.py"]) rfl rfl (by decide +kernel)
    have hlayers : layered.current = .ok layers := by decide +kernel
    obtain rfl : layers = outline := Except.ok.inj (hlayers.symm.trans hcurrent)
    refine ⟨entries, hentries, ?_⟩
    rw [hlineages, show layered.settings.tags.sortMethod.sort layers.anchors = layers.anchors from
      hsorted]
    decide +kernel
  · obtain ⟨⟨entries, files, documents, hentries, -, hfiles, hperm, hrelated⟩, -⟩ := hworkspace rfl
    have hshown : shownLineages layered.settings.tags layers =
        (lineagesAll layers.anchors).filter (·.all (showsInWorkspace ·.1)) := by
      rw [← hsorted]
      rfl
    have hlisted : (layered.outlines.filter fun document =>
        shownLineages layered.settings.tags document.2 ≠ []) =
        [(.absolute ["ws", "a.py"], layers)] :=
      List.filter_cons_of_pos (by rw [hshown]; decide +kernel)
    rw [hlisted] at hperm
    obtain rfl := hperm.eq_singleton
    cases hrelated with
    | cons hentry hnone =>
        cases hnone
        refine ⟨_, by rw [hentries, hfiles]; rfl, ?_⟩
        rw [hentry.lineages, hshown]
        decide +kernel

end View

end CommentIndex
