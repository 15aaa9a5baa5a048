import CommentIndex.Proofs.Outline.Sorting
import CommentIndex.Proofs.View.Counts
import Mathlib.Data.List.Nodup

/-!
# Groups of epics

The view of the epics takes the anchors out of all cached documents, however deep they are inside
others, and groups them by their epics. An anchor is told apart from others that say the same by its
place among all that are cached. `entries_epic` says that each place with an epic is shown once and
in the group of that epic, that the groups are in order, and in each of them the places.
-/

namespace CommentIndex

namespace View

variable {workspace : Workspace} {epic : String} {path : Path} {anchor : Anchor} {place : Nat}
  {member : EpicMember} {nested : Bool} {entry : Entry}

/-! ## Places of anchors -/

/-- All cached anchors with the paths of their documents, in the order of the cache and of the
documents. The place of an anchor is its index here. -/
def cachedAnchors (workspace : Workspace) : List (Path × Anchor) :=
  workspace.outlines.flatMap fun (path, outline) => outline.flatten.map (path, ·)

/-- The anchor at a place is shown in the workspace, and has an epic. -/
def BelongsTo (workspace : Workspace) (place : Nat) (epic : String) : Prop :=
  ∃ path anchor, (cachedAnchors workspace)[place]? = some (path, anchor) ∧
    anchor.isInWorkspace = true ∧ anchor.facts.attributes.epic = some epic ∧ epic ≠ ""

/-- The anchor at one place has a lower `seq` than the one at another, or the same and comes first
in the cache. -/
def Precedes (workspace : Workspace) (first second : Nat) : Prop :=
  ∃ one other, (cachedAnchors workspace)[first]? = some one ∧
    (cachedAnchors workspace)[second]? = some other ∧
    (one.2.facts.attributes.seq < other.2.facts.attributes.seq ∨
      one.2.facts.attributes.seq = other.2.facts.attributes.seq ∧ first < second)

/-- An entry shows the anchor at a place: with those inside it that are shown, or on its own. -/
def ShowsPlace (workspace : Workspace) (place : Nat) (entry : Entry) : Prop :=
  ∃ path anchor shown, (cachedAnchors workspace)[place]? = some (path, anchor) ∧
    (if workspace.settings.tags.nested then anchor.filter? Anchor.isInWorkspace
      else some anchor.alone) = some shown ∧
    entry = Entry.ofAnchor path false true shown

/-- An entry shows an epic with the anchors at its places, in their order. -/
structure ListsEpic (workspace : Workspace) (group : String × List Nat) (entry : Entry) : Prop where
  mem : ∀ place, place ∈ group.2 ↔ BelongsTo workspace place group.1
  ordered : group.2.Pairwise (Precedes workspace)
  isEpic : entry = .epic group.1 entry.children
  shown : List.Forall₂ (ShowsPlace workspace) group.2 entry.children

/-! ## Members at places -/

/-- An anchor is a member of its epic if it is shown in the workspace and has one. -/
theorem epicMember?_eq_some_iff :
    epicMember? path anchor = some member ↔ member.path = path ∧ member.anchor = anchor ∧
      anchor.isInWorkspace = true ∧ anchor.facts.attributes.epic = some member.epic ∧
      member.epic ≠ "" := by
  unfold epicMember?
  rw [Option.ite_none_right_eq_some, Option.map_eq_some_iff]
  constructor
  · rintro ⟨hscope, epic, hepic, rfl⟩
    obtain ⟨hepic, hne⟩ := Option.filter_eq_some_iff.mp hepic
    exact ⟨rfl, rfl, hscope, hepic, of_decide_eq_true hne⟩
  · rintro ⟨rfl, rfl, hscope, hepic, hne⟩
    exact ⟨hscope, member.epic, Option.filter_eq_some_iff.mpr ⟨hepic, decide_eq_true hne⟩, rfl⟩

/-- The members of all epics are taken from the cached anchors. -/
theorem epicMembers_eq :
    epicMembers workspace = (cachedAnchors workspace).filterMap fun (path, anchor) =>
      epicMember? path anchor := by
  rw [cachedAnchors, List.filterMap_flatMap]
  refine List.flatMap_congr fun document _ => ?_
  rw [List.filterMap_map]
  rfl

/-- The members of all epics with their places. -/
def placedMembers (workspace : Workspace) : List (EpicMember × Nat) :=
  (cachedAnchors workspace).zipIdx.filterMap fun (cached, place) =>
    (epicMember? cached.1 cached.2).map (·, place)

/-- The members of all epics are at places. -/
theorem map_fst_placedMembers : (placedMembers workspace).map Prod.fst = epicMembers workspace := by
  rw [epicMembers_eq, placedMembers, List.map_filterMap]
  conv_rhs => rw [← List.zipIdx_map_fst 0 (cachedAnchors workspace), List.filterMap_map]
  refine List.filterMap_congr fun placed _ => ?_
  rw [Option.map_map]
  exact Option.map_id'

/-- A member is at the place of its anchor. -/
theorem mem_placedMembers_iff : (member, place) ∈ placedMembers workspace ↔
    ∃ path anchor, (cachedAnchors workspace)[place]? = some (path, anchor) ∧
      epicMember? path anchor = some member := by
  unfold placedMembers
  rw [List.mem_filterMap]
  constructor
  · rintro ⟨⟨⟨path, anchor⟩, index⟩, hcached, hplaced⟩
    obtain ⟨found, hfound, hsame⟩ := Option.map_eq_some_iff.mp hplaced
    obtain ⟨rfl, rfl⟩ := Prod.mk.inj hsame
    exact ⟨path, anchor, List.mem_zipIdx_iff_getElem?.mp hcached, hfound⟩
  · rintro ⟨path, anchor, hcached, hmember⟩
    exact ⟨((path, anchor), place), List.mem_zipIdx_iff_getElem?.mpr hcached,
      Option.map_eq_some_iff.mpr ⟨member, hmember, rfl⟩⟩

/-- The members are in the order of their places. -/
theorem pairwise_placedMembers :
    (placedMembers workspace).Pairwise fun first second => first.2 < second.2 := by
  have hplaces : (cachedAnchors workspace).zipIdx.Pairwise fun first second =>
      first.2 < second.2 := by
    rw [← List.pairwise_map, List.zipIdx_map_snd]
    exact List.pairwise_lt_range'
  refine hplaces.filterMap _ fun first second hlt one hone other hother => ?_
  obtain ⟨_, -, rfl⟩ := Option.map_eq_some_iff.mp hone
  obtain ⟨_, -, rfl⟩ := Option.map_eq_some_iff.mp hother
  exact hlt

/-- A place has an epic if there is a member of that at the place. -/
theorem belongsTo_iff : BelongsTo workspace place epic ↔
    ∃ member, (member, place) ∈ placedMembers workspace ∧ member.epic = epic := by
  constructor
  · rintro ⟨path, anchor, hcached, hscope, hepic, hne⟩
    exact ⟨⟨epic, anchor, path⟩, mem_placedMembers_iff.mpr ⟨path, anchor, hcached,
      epicMember?_eq_some_iff.mpr ⟨rfl, rfl, hscope, hepic, hne⟩⟩, rfl⟩
  · rintro ⟨member, hplaced, rfl⟩
    obtain ⟨path, anchor, hcached, hmember⟩ := mem_placedMembers_iff.mp hplaced
    obtain ⟨-, -, hscope, hepic, hne⟩ := epicMember?_eq_some_iff.mp hmember
    exact ⟨path, anchor, hcached, hscope, hepic, hne⟩

/-- The epic of a place is told by its anchor. -/
theorem BelongsTo.unique {other : String} (h : BelongsTo workspace place epic)
    (h' : BelongsTo workspace place other) : epic = other := by
  obtain ⟨path, anchor, hcached, -, hepic, -⟩ := h
  obtain ⟨path', anchor', hcached', -, hother, -⟩ := h'
  obtain ⟨rfl, rfl⟩ := Prod.mk.inj (Option.some.inj (hcached.symm.trans hcached'))
  exact Option.some.inj (hepic.symm.trans hother)

/-! ## Groups -/

/-- The order of the members of an epic. -/
def seqLe (first second : EpicMember) : Bool :=
  first.anchor.facts.attributes.seq ≤ second.anchor.facts.attributes.seq

theorem seqLe_trans (first second third : EpicMember) (h : seqLe first second = true)
    (h' : seqLe second third = true) : seqLe first third = true := by
  simp only [seqLe, decide_eq_true_eq] at *
  omega

theorem seqLe_total (first second : EpicMember) :
    (seqLe first second || seqLe second first) = true := by
  simp only [seqLe, Bool.or_eq_true, decide_eq_true_eq]
  omega

/-- The members of an epic with their places, in order. -/
def groupOf (workspace : Workspace) (epic : String) : List (EpicMember × Nat) :=
  ((placedMembers workspace).filter (·.1.epic = epic)).mergeSort fun first second =>
    seqLe first.1 second.1

/-- The places of the members of an epic, in order. -/
def placesOf (workspace : Workspace) (epic : String) : List Nat :=
  (groupOf workspace epic).map Prod.snd

/-- The members of a group, in order, are those of the entry of the epic. -/
theorem map_fst_groupOf (epic : String) :
    (groupOf workspace epic).map Prod.fst =
      ((epicMembers workspace).filter (·.epic = epic)).mergeSort seqLe := by
  rw [← map_fst_placedMembers, List.filter_map]
  exact List.map_mergeSort fun _ _ _ _ => rfl

/-- The members of a group are in the order of `seq`, and then of their places. -/
theorem pairwise_groupOf (epic : String) :
    (groupOf workspace epic).Pairwise fun first second =>
      seqLe first.1 second.1 = true ∧ (seqLe second.1 first.1 = true → first.2 < second.2) :=
  pairwise_mergeSort_stable (fun first second third => seqLe_trans first.1 second.1 third.1)
    (fun first second => seqLe_total first.1 second.1) (pairwise_placedMembers.filter _)

/-- The members of a group are those of its epic. -/
theorem mem_groupOf_iff : (member, place) ∈ groupOf workspace epic ↔
    (member, place) ∈ placedMembers workspace ∧ member.epic = epic := by
  rw [groupOf, List.mem_mergeSort, List.mem_filter, decide_eq_true_eq]

/-- The places of a group are those with its epic. -/
theorem mem_placesOf_iff : place ∈ placesOf workspace epic ↔ BelongsTo workspace place epic := by
  rw [placesOf, List.mem_map, belongsTo_iff]
  constructor
  · rintro ⟨⟨member, place⟩, hmember, rfl⟩
    exact ⟨member, mem_groupOf_iff.mp hmember⟩
  · rintro ⟨member, hmember⟩
    exact ⟨(member, place), mem_groupOf_iff.mpr hmember, rfl⟩

/-- The places of a group are in order. -/
theorem pairwise_placesOf (epic : String) :
    (placesOf workspace epic).Pairwise (Precedes workspace) := by
  rw [placesOf, List.pairwise_map]
  refine (pairwise_groupOf epic).imp_of_mem ?_
  rintro ⟨first, place⟩ ⟨second, later⟩ hfirst hsecond ⟨hle, hplaces⟩
  obtain ⟨path, anchor, hcached, hone⟩ := mem_placedMembers_iff.mp (mem_groupOf_iff.mp hfirst).1
  obtain ⟨path', anchor', hcached', hother⟩ :=
    mem_placedMembers_iff.mp (mem_groupOf_iff.mp hsecond).1
  obtain ⟨-, rfl, -⟩ := epicMember?_eq_some_iff.mp hone
  obtain ⟨-, rfl, -⟩ := epicMember?_eq_some_iff.mp hother
  refine ⟨_, _, hcached, hcached', ?_⟩
  simp only [seqLe, decide_eq_true_eq] at hle hplaces
  rcases lt_or_eq_of_le hle with hlt | heq
  · exact .inl hlt
  · exact .inr ⟨heq, hplaces heq.ge⟩

/-- A group has no place twice. -/
theorem nodup_placesOf (epic : String) : (placesOf workspace epic).Nodup := by
  refine (pairwise_placesOf epic).imp ?_
  rintro first second ⟨one, other, hone, hother, hbefore⟩ rfl
  obtain rfl := Option.some.inj (hone.symm.trans hother)
  omega

/-- Every member has an entry: its anchor is not left out when those inside it are. -/
theorem isSome_shownMember? (nested : Bool) (h : member ∈ epicMembers workspace) :
    (shownMember? nested member).isSome = true := by
  have hscope : member.anchor.isInWorkspace = true :=
    showsInWorkspace_of_mem_epicMembers h
  unfold shownMember?
  rw [Option.isSome_map]
  split
  · rw [Anchor.isSome_filter?, hscope]
  · rfl

/-- The entry of a member shows its place. -/
theorem showsPlace_of_mem (h : (member, place) ∈ placedMembers workspace)
    (hentry : shownMember? workspace.settings.tags.nested member = some entry) :
    ShowsPlace workspace place entry := by
  obtain ⟨path, anchor, hcached, hmember⟩ := mem_placedMembers_iff.mp h
  obtain ⟨rfl, rfl, -⟩ := epicMember?_eq_some_iff.mp hmember
  obtain ⟨shown, hshown, rfl⟩ := Option.map_eq_some_iff.mp hentry
  exact ⟨_, _, shown, hcached, hshown, rfl⟩

/-- If each item gives a result for what it stands with, there is one result for each. -/
theorem forall₂_filterMap_fst {α β γ : Type} {related : β → γ → Prop} {change : α → Option γ}
    {items : List (α × β)}
    (h : ∀ item ∈ items, ∃ result, change item.1 = some result ∧ related item.2 result) :
    List.Forall₂ related (items.map Prod.snd) ((items.map Prod.fst).filterMap change) := by
  induction items with
  | nil => exact .nil
  | cons item rest ih =>
      obtain ⟨result, hresult, hrelated⟩ := h item List.mem_cons_self
      rw [List.map_cons, List.map_cons, List.filterMap_cons_some hresult]
      exact .cons hrelated (ih fun other hother => h other (List.mem_cons_of_mem _ hother))

/-- The entry of an epic lists its places. -/
theorem listsEpic (epic : String) :
    ListsEpic workspace (epic, placesOf workspace epic)
      (epicEntry workspace.settings.tags.nested (epicMembers workspace) epic) := by
  refine ⟨fun place => mem_placesOf_iff, pairwise_placesOf epic, rfl, ?_⟩
  show List.Forall₂ _ ((groupOf workspace epic).map Prod.snd) (List.filterMap _
    (((epicMembers workspace).filter (·.epic = epic)).mergeSort seqLe))
  rw [← map_fst_groupOf]
  refine forall₂_filterMap_fst fun ⟨member, place⟩ hmember => ?_
  have hplaced := (mem_groupOf_iff.mp hmember).1
  have hmem : member ∈ epicMembers workspace := by
    rw [← map_fst_placedMembers]
    exact List.mem_map_of_mem hplaced
  obtain ⟨entry, hentry⟩ := Option.isSome_iff_exists.mp
    (isSome_shownMember? workspace.settings.tags.nested hmem)
  exact ⟨entry, hentry, showsPlace_of_mem hplaced hentry⟩

/-! ## All groups -/

/-- A list without its later repetitions repeats nothing. -/
theorem nodup_eraseDups {α : Type} [BEq α] [LawfulBEq α] (items : List α) :
    items.eraseDups.Nodup := by
  cases items with
  | nil => exact List.nodup_nil
  | cons first rest =>
      rw [List.eraseDups_cons, List.nodup_cons]
      exact ⟨by simp, nodup_eraseDups (rest.filter fun other => !other == first)⟩
termination_by items.length
decreasing_by
  exact Nat.lt_succ_of_le (List.length_filter_le ..)

/-- The epics of a workspace, in order. -/
def epicsOf (workspace : Workspace) : List String :=
  ((epicMembers workspace).map (·.epic)).eraseDups.mergeSort fun first second => first ≤ second

/-- The epics are those of the places. -/
theorem mem_epicsOf_iff : epic ∈ epicsOf workspace ↔ ∃ place, BelongsTo workspace place epic := by
  simp only [epicsOf, List.mem_mergeSort, List.mem_eraseDups, ← map_fst_placedMembers,
    List.mem_map, belongsTo_iff]
  constructor
  · rintro ⟨_, ⟨⟨member, place⟩, hmember, rfl⟩, rfl⟩
    exact ⟨place, member, hmember, rfl⟩
  · rintro ⟨place, member, hmember, rfl⟩
    exact ⟨member, ⟨(member, place), hmember, rfl⟩, rfl⟩

/-- The epics are in order, and none is repeated. -/
theorem pairwise_epicsOf (workspace : Workspace) : (epicsOf workspace).Pairwise (· < ·) := by
  have hnodup : ((((epicMembers workspace).map (·.epic)).eraseDups).map id).Nodup := by
    rw [List.map_id]
    exact nodup_eraseDups _
  simpa [epicsOf] using pairwise_mergeSort_names hnodup

/-- The groups of a workspace: its epics with their places. -/
def groups (workspace : Workspace) : List (String × List Nat) :=
  (epicsOf workspace).map fun epic => (epic, placesOf workspace epic)

/-- The epics of the groups. -/
theorem map_fst_groups : (groups workspace).map Prod.fst = epicsOf workspace := by
  rw [groups, List.map_map]
  exact List.map_id' _

/-- No place is in two groups, or twice in one. -/
theorem nodup_groups : ((groups workspace).flatMap Prod.snd).Nodup := by
  rw [groups, List.flatMap_map, List.nodup_flatMap]
  refine ⟨fun epic _ => nodup_placesOf epic, (pairwise_epicsOf workspace).imp ?_⟩
  intro first second hlt place hfirst hsecond
  exact hlt.ne ((mem_placesOf_iff.mp hfirst).unique (mem_placesOf_iff.mp hsecond))

/-- The places in groups are those with an epic. -/
theorem mem_groups_iff : place ∈ (groups workspace).flatMap Prod.snd ↔
    ∃ epic, BelongsTo workspace place epic := by
  rw [groups, List.flatMap_map, List.mem_flatMap]
  constructor
  · rintro ⟨epic, -, hplace⟩
    exact ⟨epic, mem_placesOf_iff.mp hplace⟩
  · rintro ⟨epic, hplace⟩
    exact ⟨epic, mem_epicsOf_iff.mpr ⟨place, hplace⟩, mem_placesOf_iff.mpr hplace⟩

/-- The view of the epics, where nothing else is shown in its place. There is an entry for each
epic, in order; the entries below them show the places with epics, each of them once; those below
one entry are in the order of `seq`, and then of the cache and the documents. Whether anchors are
nested or not, each has an entry. -/
theorem entries_epic (workspace : Workspace) (cursor : Option Int)
    (h : placeholder? workspace = none) :
    ∃ groups entries, View.epic.entries workspace cursor =
        .ok (if entries.isEmpty then [.error "No epics found"] else entries) ∧
      List.Forall₂ (ListsEpic workspace) groups entries ∧
      (groups.map Prod.fst).Pairwise (· < ·) ∧
      (∀ epic, epic ∈ groups.map Prod.fst ↔ ∃ place, BelongsTo workspace place epic) ∧
      (groups.flatMap Prod.snd).Nodup ∧
      (∀ place, place ∈ groups.flatMap Prod.snd ↔ ∃ epic, BelongsTo workspace place epic) ∧
      List.Forall₂ (ShowsPlace workspace) (groups.flatMap Prod.snd)
        (entries.flatMap Entry.children) ∧
      ∀ nested, ∀ member ∈ epicMembers workspace, (shownMember? nested member).isSome = true := by
  let entries := (epicsOf workspace).map
    (epicEntry workspace.settings.tags.nested (epicMembers workspace))
  have hentries : ofEpics workspace =
      if entries.isEmpty then [.error "No epics found"] else entries := by
    unfold ofEpics
    rw [h, List.isEmpty_map]
    rfl
  have hlists : List.Forall₂ (ListsEpic workspace) (groups workspace) entries := by
    rw [groups, List.forall₂_map_left_iff, List.forall₂_map_right_iff, List.forall₂_same]
    exact fun epic _ => listsEpic epic
  refine ⟨groups workspace, entries, congrArg Except.ok hentries, hlists, ?_, ?_, nodup_groups,
    fun place => mem_groups_iff, ?_, fun nested member => isSome_shownMember? nested⟩
  · rw [map_fst_groups]
    exact pairwise_epicsOf workspace
  · intro epic
    rw [map_fst_groups]
    exact mem_epicsOf_iff
  · exact List.rel_flatMap hlists fun _ _ hgroup => hgroup.shown

/-- A section of an epic. -/
def sectionIn (epic : String) (seq : Int) (scope : Scope) (start : Nat)
    (children : List Anchor) : Anchor :=
  .mk { tag := "SECTION", text := "", display := "SECTION", start := start, stop := start + 7,
        line := start, attributes := { seq := seq, epic := some epic }, scope := scope
        isRegion := true } none children

/-- A workspace with two documents. In the first one a section of one epic has a hidden section
inside, and that one a section of another epic; in the second one there is one more of the first. -/
def planned : Workspace where
  root := .absolute ["ws"]
  settings := {}
  disk := { tree := .empty }
  cache := (Cache.empty.keep (.absolute ["ws", "a.py"]) (.absolute ["ws", "a.py"])
    { anchors := [sectionIn "b" 2 .workspace 1
        [sectionIn "b" 1 .hidden 2 [sectionIn "a" 3 .workspace 3 []]]], folds := [] }).keep
    (.absolute ["ws", "b.py"]) (.absolute ["ws", "b.py"])
    { anchors := [sectionIn "b" 2 .workspace 1 []], folds := [] }
  active := none
  isLoaded := true
  debouncer := .idle 0

/-- The section inside the hidden one is shown for its epic; the hidden one is not. -/
theorem entries_epic_planned :
    ∃ groups entries, View.epic.entries planned none =
        .ok (if entries.isEmpty then [.error "No epics found"] else entries) ∧
      List.Forall₂ (ListsEpic planned) groups entries ∧
      "a" ∈ groups.map Prod.fst ∧ "b" ∈ groups.map Prod.fst ∧
      0 ∈ groups.flatMap Prod.snd ∧ 1 ∉ groups.flatMap Prod.snd ∧
      2 ∈ groups.flatMap Prod.snd ∧ 3 ∈ groups.flatMap Prod.snd := by
  obtain ⟨groups, entries, hentries, hlists, -, hepics, -, hplaces, -⟩ :=
    entries_epic planned none rfl
  have hfirst : BelongsTo planned 0 "b" := ⟨_, _, rfl, by decide, rfl, by decide⟩
  have hinside : BelongsTo planned 2 "a" := ⟨_, _, rfl, by decide, rfl, by decide⟩
  have hsecond : BelongsTo planned 3 "b" := ⟨_, _, rfl, by decide, rfl, by decide⟩
  have hhidden : ¬ ∃ epic, BelongsTo planned 1 epic := by
    rintro ⟨epic, path, anchor, hcached, hscope, -⟩
    obtain ⟨-, rfl⟩ := Prod.mk.inj (Option.some.inj hcached)
    contradiction
  exact ⟨groups, entries, hentries, hlists, (hepics "a").mpr ⟨2, hinside⟩,
    (hepics "b").mpr ⟨0, hfirst⟩, (hplaces 0).mpr ⟨_, hfirst⟩, mt (hplaces 1).mp hhidden,
    (hplaces 2).mpr ⟨_, hinside⟩, (hplaces 3).mpr ⟨_, hsecond⟩⟩

end View

end CommentIndex
