import CommentIndex.Completion
import CommentIndex.Proofs.Attributes.Fields
import CommentIndex.Proofs.Outline.Values
import CommentIndex.Proofs.Text.Numerals
import CommentIndex.Proofs.View.Epics

/-!
# The next anchor of an epic

What is offered for the epics in use: one item for each of them, in order, with a `seq` above all
those that the epic has. `ofEpics_reads_back` says so of every cache of outlines that were read from
texts, and that the block which is inserted is read as the epic and the `seq` that it was made of.
-/

namespace CommentIndex

/-! ## Reading a block with an epic -/

namespace Attributes

variable {epic : List Char} {seq : Int}

/-- The block that names an epic and a `seq`. -/
def epicBlock (epic : List Char) (seq : Int) : List Char :=
  "epic".toList ++ '=' :: (epic ++ ',' :: ("seq".toList ++ '=' :: (toString seq).toList))

/-- The fields before and behind a comma are fields of the whole block. -/
theorem fields_append {piece : List Char} (h : ',' ∉ piece) (rest : List Char) :
    fields (piece ++ ',' :: rest) = (field? piece).toList ++ fields rest := by
  rw [fields, Text.splitAtEach_append h, List.filterMap_cons]
  cases field? piece <;> rfl

/-- A block without commas has at most one field. -/
theorem fields_of_notMem {piece : List Char} (h : ',' ∉ piece) :
    fields piece = (field? piece).toList := by
  rw [fields, Text.splitAtEach_of_notMem h, List.filterMap_cons]
  cases field? piece <;> rfl

/-- The integer behind `seq=` has no comma and no blanks. -/
theorem strip_toString (seq : Int) : Text.strip (toString seq).toList = (toString seq).toList :=
  Text.strip_eq_self fun _ hc => (Text.isNumeral_of_mem_toString hc).isBlank

/-- The fields of such a block are the epic and the `seq`. -/
theorem fields_epicBlock (h : IsValue epic) (seq : Int) :
    fields (epicBlock epic seq) =
      [("epic".toList, epic), ("seq".toList, (toString seq).toList)] := by
  have hepic : ',' ∉ "epic".toList ++ '=' :: epic := by
    simpa using h.noComma
  have hseq : ',' ∉ "seq".toList ++ '=' :: (toString seq).toList := by
    have hnumeral : ',' ∉ (toString seq).toList := fun hmem =>
      (Text.isNumeral_of_mem_toString hmem).ne (by decide) rfl
    simpa using hnumeral
  have hkeys : Text.lower (Text.strip "epic".toList) = "epic".toList ∧
      Text.lower (Text.strip "seq".toList) = "seq".toList := by
    decide +kernel
  have hblock : epicBlock epic seq =
      ("epic".toList ++ '=' :: epic) ++ ',' :: ("seq".toList ++ '=' :: (toString seq).toList) := by
    rw [epicBlock, List.append_assoc, List.cons_append]
  rw [hblock, fields_append hepic, fields_of_notMem hseq, field?_append (by decide),
    field?_append (by decide), h.strip_eq, strip_toString, hkeys.1, hkeys.2]
  rfl

/-- Such a block is read as the epic and the `seq` that it is made of, on every line. -/
theorem read_epicBlock (h : IsValue epic) (hseq : seq.natAbs < Nat.pow 10 Text.maxIntDigits)
    (line : Int) :
    read (some (epicBlock epic seq)) line =
      { seq := seq, epic := some (String.ofList epic), id := none } := by
  have hvalues {number : List Char} (hne : number ≠ []) :
      let fields := [("epic".toList, epic), ("seq".toList, number)]
      value? fields "epic" = some epic ∧ value? fields "seq" = some number ∧
        value? fields "id" = none := by
    simp [value?, h.ne_nil, hne]
  obtain ⟨hepic, hnumber, hid⟩ := hvalues (Text.toString_ne_nil seq)
  simp only [read, Option.getD_some, fields_epicBlock h, hepic, hnumber, hid, Option.bind_some,
    Text.readInt?_toString hseq, Option.map_some, Option.map_none]

/-- Such a block may stand at the end of a comment, if the epic is in one line and has no
brackets. -/
theorem isTrailingBlock_epicBlock (hline : Matcher.OneLine epic)
    (hbrackets : ∀ c ∈ epic, c ≠ '[' ∧ c ≠ ']') (seq : Int) :
    Comment.IsTrailingBlock (epicBlock epic seq) := by
  constructor
  · intro c hc
    simp only [epicBlock, List.mem_append, List.mem_cons] at hc
    rcases hc with hc | rfl | hc | rfl | hc | rfl | hc
    · exact List.all_eq_true.mp (by decide) c hc
    · decide
    · simp [Comment.isBlockChar, hbrackets c hc, hline c hc]
    · decide
    · exact List.all_eq_true.mp (by decide) c hc
    · decide
    · have hne (mark : Char) (hmark : mark ≠ '-' ∧ mark.isDigit = false) : c ≠ mark :=
        (Text.isNumeral_of_mem_toString hc).ne hmark
      simp [Comment.isBlockChar, Text.isLineEnd, hne '[' (by decide), hne ']' (by decide),
        hne '\r' (by decide), hne '\n' (by decide)]
  · simp [Comment.isBlock, epicBlock]

end Attributes

/-! ## The highest of each epic -/

namespace Completion

variable {workspace : Workspace} {all : List Attributes} {epic : String} {seq : Int}

/-- The attributes of all cached anchors. -/
def cachedAttributes (workspace : Workspace) : List Attributes :=
  (View.cachedAnchors workspace).map (·.2.facts.attributes)

/-- What an epic has for `seq`, in order. -/
def seqsOf (all : List Attributes) (epic : String) : List Int :=
  (all.filter (·.epic = some epic)).map Attributes.seq

/-- The greatest of a list with one more item. -/
theorem max?_concat (items : List Int) (last : Int) :
    (items ++ [last]).max? = some (max (items.max?.getD last) last) := by
  cases items with
  | nil => simp
  | cons first rest =>
      rw [List.cons_append, List.max?_cons', List.max?_cons', List.foldl_append]
      rfl

/-- Attributes raise what is kept for their own epic. -/
theorem find?_raise (highest : KeyedList String Int) (attributes : Attributes) (epic : String) :
    (raise highest attributes).find? epic =
      if attributes.epic = some epic then
        some (max ((highest.find? epic).getD attributes.seq) attributes.seq)
      else highest.find? epic := by
  cases hepic : attributes.epic with
  | none => simp [raise, hepic]
  | some other =>
      simp only [raise, hepic, KeyedList.find?_insert, Option.some.injEq, eq_comm (a := epic)]
      split
      · next heq => rw [heq]
      · rfl

/-- What is kept for an epic is the greatest that it has. -/
theorem find?_foldl_raise (all : List Attributes) (epic : String) :
    (all.foldl raise .empty).find? epic = (seqsOf all epic).max? := by
  induction all using List.reverseRecOn with
  | nil => rfl
  | append_singleton all attributes ih =>
      rw [List.foldl_append, List.foldl_cons, List.foldl_nil, find?_raise, ih, seqsOf, seqsOf,
        List.filter_append, List.map_append]
      split
      · next hepic => simp [hepic, max?_concat]
      · next hepic => simp [hepic]

/-- Each epic is kept once. -/
theorem nodup_keys_foldl_raise (all : List Attributes) {start : KeyedList String Int}
    (h : start.keys.Nodup) : (all.foldl raise start).keys.Nodup := by
  induction all generalizing start with
  | nil => exact h
  | cons attributes rest ih =>
      refine ih ?_
      unfold raise
      split
      · exact KeyedList.nodup_keys_insert h _ _
      · exact h

/-- The highest of each epic are found among all cached anchors. -/
theorem highest_eq : highest workspace = (cachedAttributes workspace).foldl raise .empty := by
  rw [cachedAttributes, View.cachedAnchors, List.map_flatMap]
  simp only [List.map_map]
  rfl

/-- Each epic in use is kept once. -/
theorem nodup_keys_highest (workspace : Workspace) : (highest workspace).keys.Nodup := by
  rw [highest_eq]
  exact nodup_keys_foldl_raise _ List.nodup_nil

/-- The highest of each epic, with the step added, in the order of the epics. -/
def offersOf (workspace : Workspace) : List (String × Int) :=
  ((highest workspace).entries.mergeSort fun first second => first.1 ≤ second.1).map
    fun (epic, seq) => (epic, seq + workspace.settings.seqStep)

/-- An epic is offered with the greatest `seq` that it has, and the step added. -/
theorem mem_offersOf_iff : (epic, seq) ∈ offersOf workspace ↔
    ∃ last, (seqsOf (cachedAttributes workspace) epic).max? = some last ∧
      seq = last + workspace.settings.seqStep := by
  have hentry {last : Int} : (epic, last) ∈ (highest workspace).entries ↔
      (seqsOf (cachedAttributes workspace) epic).max? = some last := by
    rw [← KeyedList.find?_eq_some_iff (nodup_keys_highest workspace), highest_eq, find?_foldl_raise]
  rw [offersOf, List.mem_map]
  constructor
  · rintro ⟨⟨name, last⟩, hmem, hsame⟩
    obtain ⟨rfl, rfl⟩ := Prod.mk.inj hsame
    exact ⟨last, hentry.mp (List.mem_mergeSort.mp hmem), rfl⟩
  · rintro ⟨last, hlast, rfl⟩
    exact ⟨(epic, last), List.mem_mergeSort.mpr (hentry.mpr hlast), rfl⟩

/-- The epics that are offered are in order, and none is repeated. -/
theorem pairwise_offersOf (workspace : Workspace) :
    ((offersOf workspace).map Prod.fst).Pairwise (· < ·) := by
  rw [offersOf, List.map_map]
  exact pairwise_mergeSort_names (nodup_keys_highest workspace)

/-! ## What is offered -/

/-- Some cached anchor has an epic and a `seq`. -/
def Uses (workspace : Workspace) (epic : String) (seq : Int) : Prop :=
  ∃ attributes ∈ cachedAttributes workspace, attributes.epic = some epic ∧ attributes.seq = seq

/-- An inserted text is a block in brackets. By itself it is read as an epic and a `seq`, on every
line, if the `seq` is not too long; at the end of any comment it is taken off again, if the epic has
no brackets itself. -/
structure ReadsBack (inserted inner : List Char) (epic : String) (seq : Int) : Prop where
  eq : inserted = '[' :: inner ++ [']']
  read : seq.natAbs < Nat.pow 10 Text.maxIntDigits → ∀ line,
    Attributes.read (some inner) line = { seq := seq, epic := some epic, id := none }
  split : '[' ∉ epic.toList → ']' ∉ epic.toList → ∀ comment,
    Comment.splitTrailingBlock (comment ++ inserted) = (Text.stripEnd comment, some inner)

/-- The values of `seq` of an epic are those with which it is used. -/
theorem mem_seqsOf_iff : seq ∈ seqsOf (cachedAttributes workspace) epic ↔
    Uses workspace epic seq := by
  simp only [seqsOf, List.mem_map, List.mem_filter, decide_eq_true_eq, Uses, and_assoc]

/-- The epics that are offered are those in use. -/
theorem mem_map_offersOf_iff :
    epic ∈ (offersOf workspace).map Prod.fst ↔ ∃ seq, Uses workspace epic seq := by
  simp only [← mem_seqsOf_iff]
  rw [List.mem_map]
  constructor
  · rintro ⟨⟨name, next⟩, hmem, rfl⟩
    obtain ⟨last, hlast, -⟩ := mem_offersOf_iff.mp hmem
    exact ⟨last, (List.max?_eq_some_iff.mp hlast).1⟩
  · rintro ⟨seq, hseq⟩
    cases hmax : (seqsOf (cachedAttributes workspace) epic).max? with
    | none =>
        rw [List.max?_eq_none_iff.mp hmax] at hseq
        contradiction
    | some last => exact ⟨(epic, _), mem_offersOf_iff.mpr ⟨last, hmax, rfl⟩, rfl⟩

/-- An epic that is in use was read from a text. -/
theorem Uses.isValue (hread : ∀ document ∈ workspace.outlines, document.2.IsRead)
    (h : Uses workspace epic seq) :
    Attributes.IsValue epic.toList ∧ Matcher.OneLine epic.toList := by
  obtain ⟨attributes, hmem, hepic, -⟩ := h
  obtain ⟨⟨path, anchor⟩, hcached, rfl⟩ := List.mem_map.mp hmem
  obtain ⟨document, hdocument, hanchor⟩ := List.mem_flatMap.mp hcached
  obtain ⟨found, hfound, hsame⟩ := List.mem_map.mp hanchor
  obtain ⟨-, rfl⟩ := Prod.mk.inj hsame
  exact (hread document hdocument).isValue_epic hfound hepic

/-- What is inserted for an epic in one line is read as that epic, with its `seq`. -/
theorem readsBack_ofEpic (hvalue : Attributes.IsValue epic.toList)
    (hline : Matcher.OneLine epic.toList) (seq : Int) :
    ReadsBack (ofEpic epic seq).inserted.toList (Attributes.epicBlock epic.toList seq) epic
      seq := by
  have heq : (ofEpic epic seq).inserted.toList =
      '[' :: Attributes.epicBlock epic.toList seq ++ [']'] := by
    simp [ofEpic, Attributes.epicBlock]
  refine ⟨heq, fun hseq line => ?_, fun hopen hclose comment => ?_⟩
  · rw [Attributes.read_epicBlock hvalue hseq, String.ofList_toList]
  · have hblock := Attributes.isTrailingBlock_epicBlock hline
      (fun c hc => ⟨fun heq => hopen (heq ▸ hc), fun heq => hclose (heq ▸ hc)⟩) seq
    rw [heq]
    exact Comment.splitTrailingBlock_append comment hblock (List.forall_mem_nil _)

/-- Whatever outlines are cached that were read from texts, one item is offered for each epic in
use, in the order of the epics, and with a `seq` above all those that any cached anchor of the epic
has. The text that it inserts is read as just that epic and that `seq`. -/
theorem ofEpics_reads_back (workspace : Workspace)
    (hread : ∀ document ∈ workspace.outlines, document.2.IsRead)
    (hstep : 1 ≤ workspace.settings.seqStep) :
    ofEpics workspace = (offersOf workspace).map (fun offer => ofEpic offer.1 offer.2) ∧
      ((offersOf workspace).map Prod.fst).Pairwise (· < ·) ∧
      (∀ epic, epic ∈ (offersOf workspace).map Prod.fst ↔ ∃ seq, Uses workspace epic seq) ∧
      ∀ epic next, (epic, next) ∈ offersOf workspace →
        (∀ seq, Uses workspace epic seq → seq < next) ∧
          ∃ inner, ReadsBack (ofEpic epic next).inserted.toList inner epic next := by
  refine ⟨?_, pairwise_offersOf workspace, fun _ => mem_map_offersOf_iff, ?_⟩
  · rw [offersOf, List.map_map]
    rfl
  · intro epic next hoffer
    obtain ⟨last, hlast, rfl⟩ := mem_offersOf_iff.mp hoffer
    obtain ⟨hused, hmax⟩ := List.max?_eq_some_iff.mp hlast
    obtain ⟨hvalue, hline⟩ := (mem_seqsOf_iff.mp hused).isValue hread
    refine ⟨fun seq hseq => ?_, _, readsBack_ofEpic hvalue hline _⟩
    have hle := hmax seq (mem_seqsOf_iff.mpr hseq)
    omega

/-- Two documents with an epic that has an equals sign and a bracket inside. -/
theorem ofEpics_reads_back_two_documents :
    let matcher : Matcher :=
      { marks := ["#".toList], tokens := ["T".toList], separators := [": ".toList]
        endTag := "!", matchCase := false }
    let registry := Registry.ofTags [{ name := "T" }]
    let outlineOf (text : String) : Outline :=
      ((Outline.ofText matcher registry true text.toList).toOption.getD default).1
    let one := "# T[seq=-3, epic = a=[b ]: x\n"
    let other := "\n# T: y [epic=c]\n# T[epic=a=[b,seq=-7]: z"
    let first := Path.absolute ["ws", "a.py"]
    let second := Path.absolute ["ws", "b.py"]
    let workspace : Workspace :=
      { root := .absolute ["ws"], settings := {}, disk := { tree := .empty }
        debouncer := .idle 0
        cache := (Cache.empty.keep first first (outlineOf one)).keep second second
          (outlineOf other) }
    (∀ document ∈ workspace.outlines, document.2.IsRead) ∧ 1 ≤ workspace.settings.seqStep ∧
      offersOf workspace = [("a=[b", -2), ("c", 3)] ∧
      ∃ inner, ReadsBack (ofEpic "a=[b" (-2)).inserted.toList inner "a=[b" (-2) := by
  intro matcher registry outlineOf one other first second workspace
  have hone : Outline.ofText matcher registry true one.toList = .ok (outlineOf one, true) := by
    decide +kernel
  have hother : Outline.ofText matcher registry true other.toList =
      .ok (outlineOf other, true) := by
    decide +kernel
  have houtlines : workspace.outlines = [(first, outlineOf one), (second, outlineOf other)] := rfl
  have hread : ∀ document ∈ workspace.outlines, document.2.IsRead := by
    rw [houtlines, List.forall_mem_cons, List.forall_mem_cons]
    exact ⟨⟨_, _, _, _, _, hone⟩, ⟨_, _, _, _, _, hother⟩, List.forall_mem_nil _⟩
  have hhighest : (highest workspace).entries = [("a=[b", -3), ("c", 2)] := by decide +kernel
  have hoffers : offersOf workspace = [("a=[b", -2), ("c", 3)] := by
    rw [offersOf, hhighest, List.mergeSort_of_pairwise (by decide)]
    rfl
  obtain ⟨-, -, -, hall⟩ := ofEpics_reads_back workspace hread (by decide)
  exact ⟨hread, by decide, hoffers, (hall "a=[b" (-2) (by rw [hoffers]; decide)).2⟩

end Completion

end CommentIndex
