import CommentIndex.Export
import CommentIndex.Proofs.Json.Documents
import CommentIndex.Proofs.Path.Order
import CommentIndex.Proofs.Path.Texts

/-!
# Groups read back

The group of a file holds the rows of this file, in order, and the groups come in the order in which
their files first occur: `entries_groups`. Of the rows of outlines these are the blocks that the
rows were put together from, because each outline has a path of its own that no other path is
written like: `entries_groups_blocks`. A reader of JSON finds the groups in an export, with the path
of a group in each of its rows: `read?_toJson`.
-/

namespace CommentIndex

namespace KeyedList

variable {κ α : Type} [DecidableEq κ]

/-- The entries of a list with distinct keys are its keys with what is found under them. -/
theorem entries_eq_map_keys {list : KeyedList κ α} (h : list.keys.Nodup) {value : κ → α}
    (hvalue : ∀ key ∈ list.keys, list.find? key = some (value key)) :
    list.entries = list.keys.map fun key => (key, value key) := by
  have hentry : ∀ entry ∈ list.entries, (entry.1, value entry.1) = entry := fun entry hentry => by
    have hfind := hvalue entry.1 (List.mem_map_of_mem (f := Prod.fst) hentry)
    rw [(find?_eq_some_iff h).mpr hentry] at hfind
    rw [← Option.some.inj hfind]
  rw [keys, List.map_map]
  exact ((List.map_congr_left hentry).trans (List.map_id _)).symm

end KeyedList

namespace Export

variable {row : ExportRow} {rows : List ExportRow} {file : String}

/-! ## Grouping -/

/-- A value at the end counts if it is new. -/
theorem eraseDups_concat (values : List String) (value : String) :
    (values ++ [value]).eraseDups =
      if value ∈ values then values.eraseDups else values.eraseDups ++ [value] := by
  rw [List.eraseDups_append]
  by_cases h : value ∈ values <;> simp [List.removeAll, h, List.eraseDups_cons]

/-- One more row goes to the end of the group of its file. -/
theorem groups_concat (rows : List ExportRow) (row : ExportRow) :
    groups (rows ++ [row]) =
      (groups rows).insert row.file (((groups rows).find? row.file).getD [] ++ [row]) := by
  rw [groups, List.foldl_append]
  rfl

/-- The groups come in the order in which their files first occur. -/
theorem keys_groups (rows : List ExportRow) :
    (groups rows).keys = (rows.map (·.file)).eraseDups := by
  induction rows using List.reverseRecOn with
  | nil => rfl
  | append_singleton rows row ih =>
      rw [groups_concat, KeyedList.keys_insert, ih, List.map_append, List.map_singleton,
        eraseDups_concat]
      simp only [List.mem_eraseDups]

/-- No two groups are of one file. -/
theorem nodup_keys_groups (rows : List ExportRow) : (groups rows).keys.Nodup := by
  induction rows using List.reverseRecOn with
  | nil => exact List.nodup_nil
  | append_singleton rows row ih =>
      rw [groups_concat]
      exact KeyedList.nodup_keys_insert ih _ _

/-- The group of a file holds the rows of this file, in order. -/
theorem find?_groups (rows : List ExportRow) (file : String) :
    (groups rows).find? file =
      if file ∈ rows.map (·.file) then some (rows.filter (·.file = file)) else none := by
  induction rows using List.reverseRecOn with
  | nil => rfl
  | append_singleton rows row ih =>
      rw [groups_concat, KeyedList.find?_insert, List.map_append, List.filter_append]
      by_cases h : file = row.file
      · have hrows : ((groups rows).find? row.file).getD [] =
            rows.filter (·.file = row.file) := by
          rw [← h, ih]
          split
          · rfl
          · next habsent =>
              refine (List.filter_eq_nil_iff.mpr fun other hother heq => habsent ?_).symm
              exact List.mem_map.mpr ⟨other, hother, of_decide_eq_true heq⟩
        rw [if_pos h, hrows, h]
        simp
      · rw [if_neg h, ih]
        simp [h, Ne.symm h]

/-- The groups of rows: each file in the order in which the files first occur, with its rows. -/
theorem entries_groups (rows : List ExportRow) :
    (groups rows).entries =
      (rows.map (·.file)).eraseDups.map fun file => (file, rows.filter (·.file = file)) := by
  rw [← keys_groups]
  refine KeyedList.entries_eq_map_keys (nodup_keys_groups rows) fun file hfile => ?_
  rw [keys_groups, List.mem_eraseDups] at hfile
  rw [find?_groups, if_pos hfile]

/-! ## Reading -/

/-- A text or nothing. -/
def optionOf? : Json → Option (Option String)
  | .null => some none
  | .text value => some (some value)
  | _ => none

/-- The text that a document is. -/
def textOf? : Json → Option String
  | .text value => some value
  | _ => none

/-- The integer that a document is. -/
def intOf? : Json → Option Int
  | .int value => some value
  | _ => none

/-- The row that an item stands for in the group of a file. -/
def rowOf? (file : String) (item : Json) : Option ExportRow := do
  let line ← (item.member? "line").bind intOf?
  let tag ← (item.member? "tag").bind textOf?
  let text ← (item.member? "text").bind textOf?
  let id ← (item.member? "id").bind optionOf?
  let epic ← (item.member? "epic").bind optionOf?
  return ⟨file, line, tag, text, id, epic⟩

/-- A file and the rows that a member stands for. -/
def groupOf? : String × Json → Option (String × List ExportRow)
  | (file, .list items) => (items.mapM (rowOf? file)).map (file, ·)
  | _ => none

/-- The files of an export with their rows. -/
def groupsOf? : Json → Option (List (String × List ExportRow))
  | .object members => members.mapM groupOf?
  | _ => none

/-- What is missing is read as missing, and an empty text as a text. -/
theorem optionOf?_ofText? (value : Option String) : optionOf? (.ofText? value) = some value := by
  cases value <;> rfl

/-- A row is read in the group of its file. -/
theorem rowOf?_jsonItem (row : ExportRow) : rowOf? row.file (jsonItem row) = some row := by
  have hid : ((jsonItem row).member? "id").bind optionOf? = some row.id :=
    optionOf?_ofText? row.id
  have hepic : ((jsonItem row).member? "epic").bind optionOf? = some row.epic :=
    optionOf?_ofText? row.epic
  rw [rowOf?, hid, hepic]
  rfl

/-- A group is read with the rows that it was written for. -/
theorem groupOf?_list (h : ∀ row ∈ rows, row.file = file) :
    groupOf? (file, .list (rows.map jsonItem)) = some (file, rows) := by
  have hrows : (rows.map jsonItem).mapM (rowOf? file) = some rows := by
    induction rows with
    | nil => rfl
    | cons row rows ih =>
        obtain ⟨rfl, hrows⟩ := List.forall_mem_cons.mp h
        rw [List.map_cons, List.mapM_cons, rowOf?_jsonItem, ih hrows]
        rfl
  rw [groupOf?, hrows, Option.map_some]

/-- There is no double in the item of a row. -/
theorem hasNoDouble_jsonItem (row : ExportRow) : (jsonItem row).hasNoDouble = true := by
  obtain ⟨file, line, tag, text, id, epic⟩ := row
  cases id <;> cases epic <;> rfl

/-- Nor is there one in items of rows. -/
theorem haveNoDouble_map (rows : List ExportRow) :
    Json.haveNoDouble (rows.map jsonItem) = true := by
  induction rows with
  | nil => rfl
  | cons row rows ih =>
      rw [List.map_cons, Json.haveNoDouble, hasNoDouble_jsonItem, ih]
      rfl

/-- Nor is there one in groups of items. -/
theorem membersHaveNoDouble_map (groups : List (String × List ExportRow)) :
    Json.membersHaveNoDouble
      (groups.map fun (file, rows) => (file, .list (rows.map jsonItem))) = true := by
  induction groups with
  | nil => rfl
  | cons group groups ih =>
      rw [List.map_cons, Json.membersHaveNoDouble, Json.hasNoDouble, haveNoDouble_map, ih]
      rfl

/-- The document of an export is read as it is written. -/
theorem read?_toJson_groups (rows : List ExportRow) :
    Json.read? (toJson rows) =
      some (.object ((groups rows).entries.map fun (file, rows) =>
        (file, .list (rows.map jsonItem)))) :=
  Json.read?_pretty (membersHaveNoDouble_map _)

/-- Groups are read with the rows that they were written for. -/
theorem groupsOf?_object {groups : List (String × List ExportRow)}
    (h : ∀ group ∈ groups, ∀ row ∈ group.2, row.file = group.1) :
    groupsOf? (.object (groups.map fun (file, rows) => (file, .list (rows.map jsonItem)))) =
      some groups := by
  rw [groupsOf?]
  induction groups with
  | nil => rfl
  | cons group groups ih =>
      obtain ⟨hgroup, hgroups⟩ := List.forall_mem_cons.mp h
      rw [List.map_cons, List.mapM_cons, groupOf?_list hgroup, ih hgroups]
      rfl

/-- The groups of an export are read from it. -/
theorem groupsOf?_toJson (rows : List ExportRow) :
    (Json.read? (toJson rows)).bind groupsOf? = some (groups rows).entries := by
  rw [read?_toJson_groups, Option.bind_some, groupsOf?_object]
  intro group hgroup row hrow
  rw [entries_groups] at hgroup
  obtain ⟨file, -, rfl⟩ := List.mem_map.mp hgroup
  exact of_decide_eq_true (List.mem_filter.mp hrow).2

/-! ## Blocks -/

/-- Each block of rows is of a file of its own. -/
structure AreBlocks (blocks : List (String × List ExportRow)) : Prop where
  nodup : (blocks.map (·.1)).Nodup
  nonempty : ∀ block ∈ blocks, block.2 ≠ []
  file : ∀ block ∈ blocks, ∀ row ∈ block.2, row.file = block.1

section Blocks

variable {block : String × List ExportRow} {blocks : List (String × List ExportRow)}

/-- The blocks behind the first one are blocks. -/
theorem AreBlocks.tail (h : AreBlocks (block :: blocks)) : AreBlocks blocks where
  nodup := (List.nodup_cons.mp h.nodup).2
  nonempty := (List.forall_mem_cons.mp h.nonempty).2
  file := (List.forall_mem_cons.mp h.file).2

/-- No row behind the first block is of its file. -/
theorem AreBlocks.file_ne (h : AreBlocks (block :: blocks)) {row : ExportRow}
    (hrow : row ∈ blocks.flatMap (·.2)) : row.file ≠ block.1 := by
  obtain ⟨other, hother, hrow⟩ := List.mem_flatMap.mp hrow
  rw [h.tail.file other hother row hrow]
  exact fun heq => (List.nodup_cons.mp h.nodup).1 (List.mem_map.mpr ⟨other, hother, heq⟩)

/-- The files of the blocks come in the order of these. -/
theorem AreBlocks.eraseDups_files (h : AreBlocks blocks) :
    ((blocks.flatMap (·.2)).map (·.file)).eraseDups = blocks.map (·.1) := by
  induction blocks with
  | nil => rfl
  | cons block blocks ih =>
      have hblock := h.file block List.mem_cons_self
      obtain ⟨row, rows, hrows⟩ :=
        List.exists_cons_of_ne_nil (h.nonempty block List.mem_cons_self)
      rw [hrows] at hblock
      obtain ⟨hrow, hrows'⟩ := List.forall_mem_cons.mp hblock
      have hsame : (rows.map (·.file)).filter (fun file => !file == block.1) = [] := by
        simpa using hrows'
      have hothers : ((blocks.flatMap (·.2)).map (·.file)).filter (fun file => !file == block.1) =
          (blocks.flatMap (·.2)).map (·.file) :=
        List.filter_eq_self.mpr fun file hfile => by
          obtain ⟨other, hother, rfl⟩ := List.mem_map.mp hfile
          simpa using h.file_ne hother
      rw [List.flatMap_cons, hrows, List.cons_append, List.map_cons, List.eraseDups_cons, hrow,
        List.map_append, List.filter_append, hsame, hothers, List.nil_append, ih h.tail,
        List.map_cons]

/-- The rows of the file of a block are those of the block. -/
theorem AreBlocks.filter_flatMap (h : AreBlocks blocks) (hblock : block ∈ blocks) :
    (blocks.flatMap (·.2)).filter (·.file = block.1) = block.2 := by
  induction blocks with
  | nil => cases hblock
  | cons first blocks ih =>
      rw [List.flatMap_cons, List.filter_append]
      rcases List.mem_cons.mp hblock with rfl | hmem
      · have hself : block.2.filter (·.file = block.1) = block.2 :=
          List.filter_eq_self.mpr fun row hrow =>
            decide_eq_true (h.file block List.mem_cons_self row hrow)
        have hothers : (blocks.flatMap (·.2)).filter (·.file = block.1) = [] :=
          List.filter_eq_nil_iff.mpr fun row hrow heq => h.file_ne hrow (of_decide_eq_true heq)
        rw [hself, hothers, List.append_nil]
      · have hne : block.1 ≠ first.1 := fun heq =>
          (List.nodup_cons.mp h.nodup).1 (List.mem_map.mpr ⟨block, hmem, heq⟩)
        have hfirst : first.2.filter (·.file = block.1) = [] :=
          List.filter_eq_nil_iff.mpr fun row hrow heq =>
            hne ((of_decide_eq_true heq).symm.trans (h.file first List.mem_cons_self row hrow))
        rw [hfirst, List.nil_append, ih h.tail hmem]

/-- Blocks are the groups of their rows. -/
theorem AreBlocks.entries_groups (h : AreBlocks blocks) :
    (groups (blocks.flatMap (·.2))).entries = blocks := by
  rw [Export.entries_groups, h.eraseDups_files, List.map_map]
  refine (List.map_congr_left fun block hblock => ?_).trans (List.map_id _)
  exact congrArg (block.1, ·) (h.filter_flatMap hblock)

end Blocks

/-! ## Outlines -/

/-- The outlines that have anchors, in the order of their paths. -/
def listed (outlines : List (Path × Outline)) : List (Path × Outline) :=
  (outlines.mergeSort fun first second => first.1.le second.1).filter fun entry =>
    !entry.2.flatten.isEmpty

/-- The rows of an outline, behind its path as it is written. -/
def blockOf (entry : Path × Outline) : String × List ExportRow :=
  (entry.1.text, entry.2.flatten.map (rowOf entry.1))

variable {outlines : List (Path × Outline)}

/-- The rows of outlines are the rows of their blocks. -/
theorem rows_eq_flatMap (outlines : List (Path × Outline)) :
    Export.rows outlines = ((listed outlines).map blockOf).flatMap (·.2) := by
  rw [Export.rows, listed, List.flatMap_map]
  generalize outlines.mergeSort (fun first second => first.1.le second.1) = sorted
  induction sorted with
  | nil => rfl
  | cons entry sorted ih =>
      rw [List.flatMap_cons, List.filter_cons, ih]
      by_cases hempty : entry.2.flatten = []
      · simp [hempty]
      · simp [hempty, blockOf]

/-- An outline is listed if it is kept and has anchors. -/
theorem mem_listed_iff {entry : Path × Outline} :
    entry ∈ listed outlines ↔ entry ∈ outlines ∧ entry.2.flatten ≠ [] := by
  rw [listed, List.mem_filter, List.mem_mergeSort, Bool.not_eq_true', List.isEmpty_eq_false_iff]

/-- Different outlines are listed under different paths, and these are in order. -/
theorem pairwise_listed (hkeys : (outlines.map (·.1)).Nodup) :
    ((listed outlines).map (·.1)).Pairwise fun first second =>
      first.le second = true ∧ first ≠ second := by
  have hsorted := Path.pairwise_mergeSort outlines
  have hperm := (List.mergeSort_perm outlines fun first second => first.1.le second.1).map (·.1)
  have hne := List.pairwise_map.mp (hperm.nodup_iff.mpr hkeys)
  exact List.pairwise_map.mpr ((hsorted.and hne).filter _)

/-- The rows of outlines are in blocks. -/
theorem areBlocks_listed (hkeys : (outlines.map (·.1)).Nodup)
    (hproper : ∀ entry ∈ outlines, entry.1.IsProper) :
    AreBlocks ((listed outlines).map blockOf) where
  nodup := by
    rw [List.map_map]
    refine List.pairwise_map.mpr ?_
    have hpairwise := List.pairwise_map.mp (pairwise_listed hkeys)
    refine hpairwise.imp_of_mem fun hfirst hsecond h heq => h.2 ?_
    exact (hproper _ (mem_listed_iff.mp hfirst).1).eq_of_text_eq
      (hproper _ (mem_listed_iff.mp hsecond).1) heq
  nonempty block hblock := by
    obtain ⟨entry, hentry, rfl⟩ := List.mem_map.mp hblock
    simpa [blockOf] using (mem_listed_iff.mp hentry).2
  file block hblock row hrow := by
    obtain ⟨entry, -, rfl⟩ := List.mem_map.mp hblock
    obtain ⟨anchor, -, rfl⟩ := List.mem_map.mp hrow
    rfl

/-- The paths of the outlines that have anchors, in order. -/
structure ListsPaths (outlines : List (Path × Outline)) (paths : List Path) : Prop where
  inOrder : paths.Pairwise fun first second => first.le second = true ∧ first ≠ second
  mem_iff : ∀ path, path ∈ paths ↔
    ∃ outline, (path, outline) ∈ outlines ∧ outline.flatten ≠ []

/-- The outlines that are listed have these paths. -/
theorem listsPaths_listed (hkeys : (outlines.map (·.1)).Nodup) :
    ListsPaths outlines ((listed outlines).map (·.1)) where
  inOrder := pairwise_listed hkeys
  mem_iff path := by
    rw [List.mem_map]
    constructor
    · rintro ⟨⟨_, outline⟩, hentry, rfl⟩
      exact ⟨outline, mem_listed_iff.mp hentry⟩
    · rintro ⟨outline, hentry⟩
      exact ⟨(path, outline), mem_listed_iff.mpr hentry, rfl⟩

/-- An export of rows is read as an object with a member for each file, in the order in which the
files first occur, which has an item for each row of this file, in order; the rows themselves are
read from these items and the names of their members. An export of outlines under distinct paths is
read as an object with a member for each path under which there are anchors, in the order of the
paths; one behind the other, the rows in its members are all that were exported. -/
theorem read?_toJson :
    (∀ rows : List ExportRow,
      Json.read? (toJson rows) =
        some (.object ((rows.map (·.file)).eraseDups.map fun file =>
          (file, .list ((rows.filter (·.file = file)).map jsonItem)))) ∧
      (Json.read? (toJson rows)).bind groupsOf? =
        some ((rows.map (·.file)).eraseDups.map fun file =>
          (file, rows.filter (·.file = file)))) ∧
    ∀ outlines : List (Path × Outline), (outlines.map (·.1)).Nodup →
      (∀ entry ∈ outlines, entry.1.IsProper) →
      ∃ (paths : List Path) (groups : List (String × List ExportRow)),
        (Json.read? (toJson (Export.rows outlines))).bind groupsOf? = some groups ∧
        ListsPaths outlines paths ∧
        groups.map (·.1) = paths.map Path.text ∧ (groups.map (·.1)).Nodup ∧
        groups.flatMap (·.2) = Export.rows outlines := by
  refine ⟨fun rows => ⟨?_, ?_⟩, fun outlines hkeys hproper => ?_⟩
  · rw [read?_toJson_groups, entries_groups, List.map_map]
    rfl
  · rw [groupsOf?_toJson, entries_groups]
  · have hblocks := areBlocks_listed hkeys hproper
    refine ⟨(listed outlines).map (·.1), (listed outlines).map blockOf, ?_,
      listsPaths_listed hkeys, ?_, hblocks.nodup, (rows_eq_flatMap outlines).symm⟩
    · rw [groupsOf?_toJson, rows_eq_flatMap, hblocks.entries_groups]
    · rw [List.map_map, List.map_map]
      rfl

/-- An anchor with an id or without one. -/
def anchorOf (id : Option String) : Anchor :=
  .mk { (default : Facts) with
    tag := "TODO", attributes := { (default : Attributes) with id := id } } none []

/-- An anchor without an id, one with an empty id, and a document without anchors. -/
def threeOutlines : List (Path × Outline) :=
  [(.ofText "/ws/\"a\".py", ⟨[anchorOf none], []⟩),
   (.ofText "/ws/b.py", ⟨[anchorOf (some "")], []⟩), (.ofText "/ws/c.py", ⟨[], []⟩)]

/-- The two rows are read from the export, the one without an id and the one with an empty id. -/
theorem read?_toJson_ids :
    (threeOutlines.map (·.1)).Nodup ∧ (∀ entry ∈ threeOutlines, entry.1.IsProper) ∧
      (Export.rows threeOutlines).map (·.id) = [none, some ""] ∧
      ∃ (paths : List Path) (groups : List (String × List ExportRow)),
        (Json.read? (toJson (Export.rows threeOutlines))).bind groupsOf? = some groups ∧
        ListsPaths threeOutlines paths ∧
        groups.map (·.1) = paths.map Path.text ∧ (groups.map (·.1)).Nodup ∧
        groups.flatMap (·.2) = Export.rows threeOutlines := by
  have hkeys : (threeOutlines.map (·.1)).Nodup := by decide +kernel
  have hproper : ∀ entry ∈ threeOutlines, entry.1.IsProper := by
    rintro entry hentry
    simp only [threeOutlines, List.mem_cons, List.not_mem_nil, or_false] at hentry
    rcases hentry with rfl | rfl | rfl <;> exact Path.isProper_ofText _
  have hsorted : threeOutlines.mergeSort (fun first second => first.1.le second.1) =
      threeOutlines :=
    List.mergeSort_of_pairwise (by decide +kernel)
  refine ⟨hkeys, hproper, ?_, read?_toJson.2 threeOutlines hkeys hproper⟩
  rw [Export.rows, hsorted]
  decide +kernel

end Export

end CommentIndex
