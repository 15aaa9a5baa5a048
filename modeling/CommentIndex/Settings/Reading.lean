import CommentIndex.Key
import CommentIndex.KeyedList
import CommentIndex.Settings
import CommentIndex.Text.Digit

/-!
# Reading settings

`Settings.ofEntries` turns a mapping of values into settings. Keys may be spelled in every way
that `Key.normalize` knows and some have a second name; each value is converted to the type of its
field, and one that cannot be is left out with a warning.
-/

namespace CommentIndex

/-- Something about a settings file or its values that was left out. -/
inductive SettingsWarning where
  | notInteger (key : String) (value : Value)
  | notList (key : String) (value : Value)
  | notMapping (key : String) (value : Value)
  | unknownSortMethod (name : String)
  | unreadableFile
  | malformedFile
  | fileNotMapping

/-- The wording of a warning, with places for what it is about. -/
def SettingsWarning.template : SettingsWarning → String
  | .notInteger _ _ => "ignoring non-integer setting %s=%r"
  | .notList _ _ => "ignoring non-list setting %s=%r"
  | .notMapping _ _ => "ignoring non-mapping setting %s=%r"
  | .unknownSortMethod _ => "invalid sort method %r, using line"
  | .unreadableFile => "cannot read %s: %s"
  | .malformedFile => "invalid settings in %s: %s"
  | .fileNotMapping => "settings in %s are not a mapping"

/-- Why settings cannot be had at all. -/
inductive SettingsError where
  /-- An infinite number was given for an integer. -/
  | infinite
  /-- The delay in seconds was given, which follows from the one in milliseconds. -/
  | readOnly
  /-- The delay is beyond every double. -/
  | delayTooLarge
  /-- The settings file is not UTF-8. -/
  | notUtf8
  /-- A scalar of the settings file has the type of a number or a date and is none, or a number has
  too many digits to be written. -/
  | badScalar
  /-- A scalar of the settings file has the type of a truth value and is none. -/
  | badTruth
  /-- The path of the settings file holds a character that no file system allows. -/
  | unusablePath
deriving DecidableEq, Repr

namespace Settings

/-- Settings in the making. The names of the sort method and the path format are checked once all
entries are read. -/
structure Draft where
  settings : Settings := {}
  sortName : String := "line"
  formatName : String := "full"

/-- Why a value is not assigned to a field. -/
inductive Refusal where
  | warn (warning : SettingsWarning)
  | fail (error : SettingsError)

/-- A field: what keeps it from being looked at, and the assignment of a value to it. -/
structure Field where
  name : String
  fault? : Draft → Option SettingsError := fun _ => none
  assign : Value → Draft → Except Refusal Draft

/-- A field that takes whether a value counts as yes. -/
def Field.flag (name : String) (set : Bool → Draft → Draft) : Field where
  name := name
  assign value draft := .ok (set value.isTrue draft)

/-- The text of a value. -/
def textOf (value : Value) : Except Refusal String :=
  if value.isWritable then .ok value.asText else .error (.fail .badScalar)

/-- A field that takes the text of a value. -/
def Field.text (name : String) (set : String → Draft → Draft) : Field where
  name := name
  assign value draft := (textOf value).map (set · draft)

/-- The integer that a value gives: a number without its fraction, or a text that writes one. -/
def integerOf (name : String) (value : Value) : Except Refusal Int :=
  let refused := Except.error (Refusal.warn (.notInteger name value))
  match value with
  | .bool b => .ok (if b then 1 else 0)
  | .int n => .ok n
  | .float x =>
    match Decimal.truncated? x with
    | some n => .ok n
    | none => if x.isNaN then refused else .error (.fail .infinite)
  | .text s =>
    match Text.readInt? s.toList with
    | some n => .ok n
    | none => refused
  | _ => refused

/-- A field that takes an integer. -/
def Field.integer (name : String) (set : Int → Draft → Draft) : Field where
  name := name
  assign value draft := (integerOf name value).map (set · draft)

/-- The items of a list, or a single text in place of one. -/
def listOf (name : String) : Value → Except Refusal (List Value)
  | .text s => .ok [.text s]
  | .list items => .ok items
  | value => .error (.warn (.notList name value))

/-- A field that takes a list. -/
def Field.list (name : String) (set : List Value → Draft → Draft) : Field where
  name := name
  assign value draft := (listOf name value).map (set · draft)

/-- A field that takes the texts of a list. -/
def Field.texts (name : String) (set : List String → Draft → Draft) : Field where
  name := name
  assign value draft :=
    (listOf name value).bind fun items => (items.mapM textOf).map (set · draft)

/-- The entries of a mapping. -/
def entriesOf (name : String) : Value → Except Refusal (List (Value × Value))
  | .map entries => .ok entries
  | value => .error (.warn (.notMapping name value))

/-- A field that takes a mapping. -/
def Field.mapping (name : String) (set : List (Value × Value) → Draft → Draft) : Field where
  name := name
  assign value draft := (entriesOf name value).map (set · draft)

/-- The fields of the section on tags. -/
def tagFields : List Field :=
  [.list "legacy" fun items draft => { draft with settings.tags.listed := items },
   .mapping "anchors" fun entries draft => { draft with settings.tags.keyed := entries },
   .texts "separators" fun texts draft => { draft with settings.tags.separators := texts },
   .texts "prefixes" fun texts draft => { draft with settings.tags.marks := texts },
   .text "end_tag" fun text draft => { draft with settings.tags.endTag := text },
   .flag "match_case" fun b draft => { draft with settings.tags.matchCase := b },
   .flag "display_tag_name" fun b draft => { draft with settings.tags.showTag := b },
   .flag "display_line_number" fun b draft => { draft with settings.tags.showLine := b },
   .flag "display_hierarchy_in_workspace" fun b draft =>
     { draft with settings.tags.nested := b },
   .text "sort_method" fun text draft => { draft with sortName := text },
   .flag "expand_sections" fun b draft => { draft with settings.tags.expandRegions := b }]

/-- The fields of the section on the workspace. -/
def workspaceFields : List Field :=
  [.flag "enabled" fun b draft => { draft with settings.workspace.enabled := b },
   .flag "lazy_load" fun b draft => { draft with settings.workspace.lazyLoad := b },
   .text "match_files" fun text draft => { draft with settings.workspace.matchFiles := text },
   .text "exclude_files" fun text draft =>
     { draft with settings.workspace.excludeFiles := text },
   .integer "max_files" fun n draft => { draft with settings.workspace.maxFiles := n },
   .text "path_format" fun text draft => { draft with formatName := text }]

/-- The fields of the section on epics. -/
def epicFields : List Field :=
  [.integer "seq_step" fun n draft => { draft with settings.seqStep := n }]

/-- The field that follows from another one and cannot be assigned. To look at it is to work it
out. -/
def readOnlyField : Field where
  name := "parse_delay_seconds"
  fault? draft := if draft.settings.delaySeconds?.isSome then none else some .delayTooLarge
  assign _ _ := .error (.fail .readOnly)

/-- The fields outside the sections. -/
def outerFields : List Field :=
  [.integer "parse_delay" fun n draft => { draft with settings.parseDelay := n },
   .flag "show_cursor" fun b draft => { draft with settings.showCursor := b },
   readOnlyField]

/-- The sections, by their keys. -/
def sections : List (String × List Field) :=
  [("tags", tagFields), ("workspace", workspaceFields), ("epic", epicFields)]

/-- The key of a field that has a second name. -/
def canonicalKey (key : String) : String :=
  match key with
  | "list" => "legacy"
  | "match_prefix" => "prefixes"
  | "display_in_sidebar" => "display_tag_name"
  | key => key

/-- A draft with the warnings so far, the latest first. -/
abbrev Noted := Draft × List SettingsWarning

/-- The name that a key spells. -/
def nameOf (key : Value) : Except SettingsError String :=
  if key.isWritable then .ok (Key.normalize key.asText) else .error .badScalar

/-- Assigns a value to a field, if it is something. -/
def assignTo (field : Field) (noted : Noted) (value : Value) : Except SettingsError Noted :=
  match field.fault? noted.1 with
  | some error => .error error
  | none =>
    if value.isNull then .ok noted
    else
      match field.assign value noted.1 with
      | .ok draft => .ok (draft, noted.2)
      | .error (.warn warning) => .ok (noted.1, warning :: noted.2)
      | .error (.fail error) => .error error

/-- Assigns one entry to its field, if it has one. -/
def assignEntry (fields : List Field) (noted : Noted) (entry : Value × Value) :
    Except SettingsError Noted :=
  (nameOf entry.1).bind fun name =>
    match fields.find? (·.name = canonicalKey name) with
    | some field => assignTo field noted entry.2
    | none => .ok noted

/-- Assigns all entries to their fields, one after the other. -/
def assignAll (fields : List Field) (noted : Noted) (entries : List (Value × Value)) :
    Except SettingsError Noted :=
  entries.foldlM (assignEntry fields) noted

/-- Reads one entry outside the sections or one whole section; the former are collected, the last
value of a name in the place of the first. -/
def readEntry (state : Noted × KeyedList String Value) (entry : Value × Value) :
    Except SettingsError (Noted × KeyedList String Value) :=
  (nameOf entry.1).bind fun name =>
    match sections.lookup name with
    | none => .ok (state.1, state.2.insert name entry.2)
    | some fields =>
      match entry.2 with
      | .map entries => (assignAll fields state.1 entries).map fun noted => (noted, state.2)
      | _ => .ok state

/-- The settings of a draft: a sort method or a path format that is not known is not taken. -/
def finish (noted : Noted) : Settings × List SettingsWarning :=
  let draft := noted.1
  let method := SortMethod.ofName? draft.sortName
  let warnings :=
    if method.isSome then noted.2 else .unknownSortMethod draft.sortName :: noted.2
  ({ draft.settings with
      tags.sortMethod := method.getD .line
      workspace.pathFormat := PathFormat.ofName draft.formatName },
    warnings.reverse)

/-- The entries that have been collected outside the sections. -/
def outerEntries (outer : KeyedList String Value) : List (Value × Value) :=
  outer.entries.map fun (name, value) => (.text name, value)

/-- The settings that a mapping gives, and the warnings in order. -/
def ofEntries (entries : List (Value × Value)) :
    Except SettingsError (Settings × List SettingsWarning) := do
  let (noted, outer) ← entries.foldlM readEntry (({}, []), KeyedList.empty)
  let noted ← assignAll outerFields noted (outerEntries outer)
  return finish noted

end Settings

end CommentIndex
