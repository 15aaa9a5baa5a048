import CommentIndex.Proofs.Settings.Assignments

/-!
# Kinds of fields

Each field of the settings takes values of one kind, and `Kind.convert` turns a value into one of a
kind or says why not. A `Sheet` is what all fields hold, as values under their parts and names.
`takes_of_mem_fields` says that an assignment to a field is a conversion to its kind, and that the
sheet then has the new value in the place of the old one and is otherwise the same.
-/

namespace CommentIndex.Settings

/-- What a field takes. -/
inductive Kind where
  | flag
  | integer
  | text
  | list
  | texts
  | mapping
deriving DecidableEq

namespace Kind

/-- The values of a kind. -/
inductive Holds : Kind → Value → Prop where
  | flag (b : Bool) : Holds .flag (.bool b)
  | integer (n : Int) : Holds .integer (.int n)
  | text (s : String) : Holds .text (.text s)
  | list (items : List Value) : Holds .list (.list items)
  | texts (items : List String) : Holds .texts (.list (items.map .text))
  | mapping (entries : List (Value × Value)) : Holds .mapping (.map entries)

/-- The value of a kind that a value is turned into, for the field of a name. -/
def convert (kind : Kind) (name : String) (value : Value) : Except Refusal Value :=
  match kind with
  | .flag => .ok (.bool value.isTrue)
  | .integer => (integerOf name value).map .int
  | .text => (textOf value).map .text
  | .list => (listOf name value).map .list
  | .texts => (listOf name value).bind fun items =>
    (items.mapM textOf).map fun texts => .list (texts.map .text)
  | .mapping => (entriesOf name value).map .map

end Kind

/-- The fields of all parts, with their kinds. -/
def kinds : List ((Part × String) × Kind) :=
  [((.tags, "legacy"), .list),
   ((.tags, "anchors"), .mapping),
   ((.tags, "separators"), .texts),
   ((.tags, "prefixes"), .texts),
   ((.tags, "end_tag"), .text),
   ((.tags, "match_case"), .flag),
   ((.tags, "display_tag_name"), .flag),
   ((.tags, "display_line_number"), .flag),
   ((.tags, "display_hierarchy_in_workspace"), .flag),
   ((.tags, "sort_method"), .text),
   ((.tags, "expand_sections"), .flag),
   ((.workspace, "enabled"), .flag),
   ((.workspace, "lazy_load"), .flag),
   ((.workspace, "match_files"), .text),
   ((.workspace, "exclude_files"), .text),
   ((.workspace, "max_files"), .integer),
   ((.workspace, "path_format"), .text),
   ((.epic, "seq_step"), .integer),
   ((.outer, "parse_delay"), .integer),
   ((.outer, "show_cursor"), .flag)]

/-- The kind of a field. -/
def kindOf? (part : Part) (name : String) : Option Kind :=
  KeyedList.findIn? (part, name) kinds

/-- What the fields hold, each under its part and its name. -/
abbrev Sheet := KeyedList (Part × String) Value

/-- What the fields of a draft hold. -/
def Draft.sheet (draft : Draft) : Sheet :=
  ⟨[((.tags, "legacy"), .list draft.settings.tags.listed),
    ((.tags, "anchors"), .map draft.settings.tags.keyed),
    ((.tags, "separators"), .list (draft.settings.tags.separators.map .text)),
    ((.tags, "prefixes"), .list (draft.settings.tags.marks.map .text)),
    ((.tags, "end_tag"), .text draft.settings.tags.endTag),
    ((.tags, "match_case"), .bool draft.settings.tags.matchCase),
    ((.tags, "display_tag_name"), .bool draft.settings.tags.showTag),
    ((.tags, "display_line_number"), .bool draft.settings.tags.showLine),
    ((.tags, "display_hierarchy_in_workspace"), .bool draft.settings.tags.nested),
    ((.tags, "sort_method"), .text draft.sortName),
    ((.tags, "expand_sections"), .bool draft.settings.tags.expandRegions),
    ((.workspace, "enabled"), .bool draft.settings.workspace.enabled),
    ((.workspace, "lazy_load"), .bool draft.settings.workspace.lazyLoad),
    ((.workspace, "match_files"), .text draft.settings.workspace.matchFiles),
    ((.workspace, "exclude_files"), .text draft.settings.workspace.excludeFiles),
    ((.workspace, "max_files"), .int draft.settings.workspace.maxFiles),
    ((.workspace, "path_format"), .text draft.formatName),
    ((.epic, "seq_step"), .int draft.settings.seqStep),
    ((.outer, "parse_delay"), .int draft.settings.parseDelay),
    ((.outer, "show_cursor"), .bool draft.settings.showCursor)]⟩

/-- A field of a part takes values of a kind: to assign a value is to convert it, and to put the new
value in the place of the old one on the sheet. -/
structure Takes (part : Part) (field : Field) (kind : Kind) : Prop where
  kind_eq : kindOf? part field.name = some kind
  fault_eq : ∀ draft, field.fault? draft = none
  assign_eq : ∀ value draft, (field.assign value draft).map Draft.sheet =
    (kind.convert field.name value).map (draft.sheet.insert (part, field.name))

variable {part : Part} {name : String}

/-- What becomes of an assignment to a field, and of its sheet. -/
theorem Takes.assign_cases {field : Field} {kind : Kind} (h : Takes part field kind) (value : Value)
    (draft : Draft) :
    (∃ refusal, kind.convert field.name value = .error refusal ∧
        field.assign value draft = .error refusal) ∨
      ∃ new next, kind.convert field.name value = .ok new ∧ field.assign value draft = .ok next ∧
        next.sheet = draft.sheet.insert (part, field.name) new := by
  have hassign := h.assign_eq value draft
  cases hnext : field.assign value draft with
  | error refusal =>
      cases hnew : kind.convert field.name value with
      | error refusal' =>
          rw [hnext, hnew] at hassign
          obtain rfl := Except.error.inj hassign
          exact .inl ⟨refusal, rfl, rfl⟩
      | ok new =>
          rw [hnext, hnew] at hassign
          cases hassign
  | ok next =>
      cases hnew : kind.convert field.name value with
      | error refusal =>
          rw [hnext, hnew] at hassign
          cases hassign
      | ok new =>
          rw [hnext, hnew] at hassign
          exact .inr ⟨new, next, rfl, rfl, Except.ok.inj hassign⟩

/-- A field takes a kind if it sets what its values are converted to. -/
theorem takes_of_convert {α : Type} {field : Field} {kind : Kind}
    (read : Value → Except Refusal α) (write : α → Value) {set : α → Draft → Draft}
    (hkind : kindOf? part field.name = some kind)
    (hfault : ∀ draft, field.fault? draft = none)
    (hassign : ∀ value draft, field.assign value draft = (read value).map (set · draft))
    (hconvert : ∀ value, kind.convert field.name value = (read value).map write)
    (hset : ∀ content draft,
      (set content draft).sheet = draft.sheet.insert (part, field.name) (write content)) :
    Takes part field kind := by
  refine ⟨hkind, hfault, fun value draft => ?_⟩
  rw [hassign, hconvert]
  cases read value with
  | error refusal => rfl
  | ok content => exact congrArg Except.ok (hset content draft)

theorem takes_flag {set : Bool → Draft → Draft} (hkind : kindOf? part name = some .flag)
    (hset : ∀ b draft, (set b draft).sheet = draft.sheet.insert (part, name) (.bool b)) :
    Takes part (.flag name set) .flag :=
  takes_of_convert (.ok ·.isTrue) .bool hkind (fun _ => rfl) (fun _ _ => rfl) (fun _ => rfl) hset

theorem takes_integer {set : Int → Draft → Draft} (hkind : kindOf? part name = some .integer)
    (hset : ∀ n draft, (set n draft).sheet = draft.sheet.insert (part, name) (.int n)) :
    Takes part (.integer name set) .integer :=
  takes_of_convert (integerOf name) .int hkind (fun _ => rfl) (fun _ _ => rfl) (fun _ => rfl) hset

theorem takes_text {set : String → Draft → Draft} (hkind : kindOf? part name = some .text)
    (hset : ∀ text draft, (set text draft).sheet = draft.sheet.insert (part, name) (.text text)) :
    Takes part (.text name set) .text :=
  takes_of_convert textOf .text hkind (fun _ => rfl) (fun _ _ => rfl) (fun _ => rfl) hset

theorem takes_list {set : List Value → Draft → Draft} (hkind : kindOf? part name = some .list)
    (hset : ∀ items draft,
      (set items draft).sheet = draft.sheet.insert (part, name) (.list items)) :
    Takes part (.list name set) .list :=
  takes_of_convert (listOf name) .list hkind (fun _ => rfl) (fun _ _ => rfl) (fun _ => rfl) hset

theorem takes_mapping {set : List (Value × Value) → Draft → Draft}
    (hkind : kindOf? part name = some .mapping)
    (hset : ∀ entries draft,
      (set entries draft).sheet = draft.sheet.insert (part, name) (.map entries)) :
    Takes part (.mapping name set) .mapping :=
  takes_of_convert (entriesOf name) .map hkind (fun _ => rfl) (fun _ _ => rfl) (fun _ => rfl) hset

theorem takes_texts {set : List String → Draft → Draft} (hkind : kindOf? part name = some .texts)
    (hset : ∀ texts draft,
      (set texts draft).sheet = draft.sheet.insert (part, name) (.list (texts.map .text))) :
    Takes part (.texts name set) .texts := by
  let read (value : Value) := (listOf name value).bind fun items => items.mapM textOf
  have hread {α : Type} (change : List String → α) (value : Value) :
      ((listOf name value).bind fun items => (items.mapM textOf).map change) =
        (read value).map change := by
    show _ = ((listOf name value).bind _).map change
    cases listOf name value <;> rfl
  exact takes_of_convert read (fun texts => .list (texts.map .text)) hkind (fun _ => rfl)
    (fun value draft => hread (set · draft) value) (fun value => hread _ value) hset

/-- Each field of a part takes values of a kind, but for the one that follows from another one. -/
theorem takes_of_mem_fields {field : Field} (h : field ∈ part.fields) :
    part = .outer ∧ field = readOnlyField ∨ ∃ kind, Takes part field kind := by
  revert field
  cases part with
  | tags =>
      simp only [Part.fields, tagFields, List.forall_mem_cons]
      exact ⟨.inr ⟨_, takes_list rfl fun _ _ => rfl⟩, .inr ⟨_, takes_mapping rfl fun _ _ => rfl⟩,
        .inr ⟨_, takes_texts rfl fun _ _ => rfl⟩, .inr ⟨_, takes_texts rfl fun _ _ => rfl⟩,
        .inr ⟨_, takes_text rfl fun _ _ => rfl⟩, .inr ⟨_, takes_flag rfl fun _ _ => rfl⟩,
        .inr ⟨_, takes_flag rfl fun _ _ => rfl⟩, .inr ⟨_, takes_flag rfl fun _ _ => rfl⟩,
        .inr ⟨_, takes_flag rfl fun _ _ => rfl⟩, .inr ⟨_, takes_text rfl fun _ _ => rfl⟩,
        .inr ⟨_, takes_flag rfl fun _ _ => rfl⟩, List.forall_mem_nil _⟩
  | workspace =>
      simp only [Part.fields, workspaceFields, List.forall_mem_cons]
      exact ⟨.inr ⟨_, takes_flag rfl fun _ _ => rfl⟩, .inr ⟨_, takes_flag rfl fun _ _ => rfl⟩,
        .inr ⟨_, takes_text rfl fun _ _ => rfl⟩, .inr ⟨_, takes_text rfl fun _ _ => rfl⟩,
        .inr ⟨_, takes_integer rfl fun _ _ => rfl⟩, .inr ⟨_, takes_text rfl fun _ _ => rfl⟩,
        List.forall_mem_nil _⟩
  | epic =>
      simp only [Part.fields, epicFields, List.forall_mem_cons]
      exact ⟨.inr ⟨_, takes_integer rfl fun _ _ => rfl⟩, List.forall_mem_nil _⟩
  | outer =>
      rw [Part.fields, outerFields, List.forall_mem_cons, List.forall_mem_cons,
        List.forall_mem_cons]
      exact ⟨.inr ⟨_, takes_integer rfl fun _ _ => rfl⟩, .inr ⟨_, takes_flag rfl fun _ _ => rfl⟩,
        .inl ⟨rfl, rfl⟩, List.forall_mem_nil _⟩

/-- The fields with kinds are fields of their parts. -/
theorem mem_names_of_mem_kinds :
    ∀ entry ∈ kinds, entry.1.2 ∈ entry.1.1.fields.map Field.name := by
  decide

/-- What there is under a name: the field that follows from another one, a field of a kind, or
none. -/
inductive Finds (part : Part) (name : String) : Option Field → Prop where
  | readOnly (hpart : part = .outer) (hname : name = readOnlyField.name)
    (hkind : kindOf? part name = none) : Finds part name (some readOnlyField)
  | field {field : Field} {kind : Kind} (hname : field.name = name) (h : Takes part field kind) :
    Finds part name (some field)
  | none (hkind : kindOf? part name = none) (hname : (part, name) ≠ (.outer, readOnlyField.name)) :
    Finds part name none

/-- What is found among the fields of a part. -/
theorem finds (part : Part) (name : String) :
    Finds part name (part.fields.find? (·.name = name)) := by
  cases hfind : part.fields.find? (·.name = name) with
  | none =>
      have hnone : ∀ field ∈ part.fields, field.name ≠ name := by
        simpa using List.find?_eq_none.mp hfind
      refine .none (KeyedList.findIn?_eq_none_iff.mpr fun entry hentry heq => ?_) fun heq => ?_
      · obtain ⟨field, hfield, hname⟩ := List.mem_map.mp (mem_names_of_mem_kinds entry hentry)
        rw [heq] at hfield hname
        exact hnone field hfield hname
      · obtain ⟨rfl, rfl⟩ := Prod.mk.inj heq
        exact hnone readOnlyField (by simp [Part.fields, outerFields]) rfl
  | some field =>
      have hname : field.name = name := by simpa using List.find?_some hfind
      rcases takes_of_mem_fields (List.mem_of_find?_eq_some hfind) with ⟨hpart, rfl⟩ | ⟨kind, h⟩
      · subst hpart hname
        exact .readOnly rfl rfl rfl
      · exact .field hname h

end CommentIndex.Settings
