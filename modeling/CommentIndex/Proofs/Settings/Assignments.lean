import CommentIndex.Proofs.Settings.Spellings
import CommentIndex.Settings.Reading

/-!
# Assignments

What a mapping of settings makes to happen, as one list of steps: each key is spelled out, and each
entry is an assignment to a field of its part. The sections are assigned in the order in which they
are met, and after them what is outside of the sections, the last value of each name.
`ofEntries_eq` says that to read settings is to take these steps.
-/

namespace CommentIndex.Settings

/-- The parts of settings: the sections, and what is outside of them. -/
inductive Part where
  | tags
  | workspace
  | epic
  | outer
deriving DecidableEq

/-- The fields of a part. -/
def Part.fields : Part → List Field
  | .tags => tagFields
  | .workspace => workspaceFields
  | .epic => epicFields
  | .outer => outerFields

/-- The section of a name. -/
def Part.named? (name : String) : Option Part :=
  [("tags", Part.tags), ("workspace", .workspace), ("epic", .epic)].lookup name

/-- A value for the field of a name. -/
structure Assignment where
  part : Part
  name : String
  value : Value

/-- The assignment that an entry of a part makes, whatever its key spells. -/
def Assignment.ofEntry (part : Part) (entry : Value × Value) : Assignment :=
  ⟨part, canonicalKey (Key.normalize entry.1.asText), entry.2⟩

/-- One step of reading. -/
inductive Step where
  | spell (key : Value)
  | assign (assignment : Assignment)

/-- Takes one step. -/
def perform (noted : Noted) : Step → Except SettingsError Noted
  | .spell key => (nameOf key).map fun _ => noted
  | .assign assignment =>
    match assignment.part.fields.find? (·.name = assignment.name) with
    | some field => assignTo field noted assignment.value
    | none => .ok noted

/-- Takes some steps. -/
def performAll (noted : Noted) (steps : List Step) : Except SettingsError Noted :=
  steps.foldlM perform noted

/-- The steps of the entries of a section. -/
def sectionSteps (part : Part) (entries : List (Value × Value)) : List Step :=
  entries.flatMap fun entry => [.spell entry.1, .assign (.ofEntry part entry)]

/-- The steps of one entry, before what is outside of the sections is assigned. -/
def entrySteps (entry : Value × Value) : List Step :=
  .spell entry.1 ::
    match Part.named? (Key.normalize entry.1.asText), entry.2 with
    | some part, .map entries => sectionSteps part entries
    | _, _ => []

/-- What an entry outside of the sections gives for the name that it spells. -/
def outerPair? (entry : Value × Value) : Option (String × Value) :=
  let name := Key.normalize entry.1.asText
  if (Part.named? name).isNone then some (name, entry.2) else none

/-- The entries outside of the sections, the last value of a name in the place of the first. -/
def collected (entries : List (Value × Value)) : List (String × Value) :=
  (KeyedList.ofList (entries.filterMap outerPair?)).entries

/-- The steps for what is outside of the sections. -/
def outerSteps (entries : List (Value × Value)) : List Step :=
  (collected entries).map fun (name, value) => .assign ⟨.outer, canonicalKey name, value⟩

/-- All steps of reading a mapping. -/
def steps (entries : List (Value × Value)) : List Step :=
  entries.flatMap entrySteps ++ outerSteps entries

/-! ## Reading as steps -/

variable {noted : Noted} {part : Part} {entries : List (Value × Value)}

theorem performAll_cons (noted : Noted) (step : Step) (rest : List Step) :
    performAll noted (step :: rest) = (perform noted step).bind (performAll · rest) := rfl

theorem performAll_append (noted : Noted) (first second : List Step) :
    performAll noted (first ++ second) = (performAll noted first).bind (performAll · second) :=
  List.foldlM_append

/-- A section has the fields of its part. -/
theorem lookup_sections (name : String) :
    sections.lookup name = (Part.named? name).map Part.fields := by
  simp only [sections, Part.named?, List.lookup_cons, List.lookup_nil]
  repeat' split
  all_goals rfl

/-- A key that can be written spells its name. -/
theorem nameOf_eq_ok_iff {key : Value} {name : String} :
    nameOf key = .ok name ↔ key.isWritable = true ∧ Key.normalize key.asText = name := by
  unfold nameOf
  cases key.isWritable <;> simp

/-- A key that can be written is spelled out. -/
theorem performAll_spell {key : Value} (h : key.isWritable = true) (noted : Noted)
    (rest : List Step) : performAll noted (.spell key :: rest) = performAll noted rest := by
  rw [performAll_cons, perform, nameOf, if_pos h]
  rfl

/-- One that cannot be written ends the reading. -/
theorem performAll_spell_error {key : Value} (h : key.isWritable = false) (noted : Noted)
    (rest : List Step) : performAll noted (.spell key :: rest) = .error .badScalar := by
  rw [performAll_cons, perform, nameOf, h]
  rfl

/-- To take one step is to perform it. -/
theorem performAll_singleton (noted : Noted) (step : Step) :
    performAll noted [step] = perform noted step := by
  rw [performAll_cons]
  cases perform noted step <;> rfl

/-- To assign an entry is to spell its key out and to assign its value. -/
theorem assignEntry_eq (noted : Noted) (entry : Value × Value) :
    assignEntry part.fields noted entry =
      performAll noted [.spell entry.1, .assign (.ofEntry part entry)] := by
  cases h : entry.1.isWritable with
  | false =>
      rw [performAll_spell_error h, assignEntry, nameOf, h]
      rfl
  | true =>
      rw [performAll_spell h, performAll_singleton, assignEntry, nameOf, h]
      rfl

/-- To assign the entries of a section is to take its steps. -/
theorem assignAll_eq (noted : Noted) (entries : List (Value × Value)) :
    assignAll part.fields noted entries = performAll noted (sectionSteps part entries) := by
  induction entries generalizing noted with
  | nil => rfl
  | cons entry rest ih =>
      rw [sectionSteps, List.flatMap_cons, performAll_append, ← assignEntry_eq]
      exact congrArg _ (funext ih)

/-- To read an entry is to take its steps, and to collect it if it is outside of the sections. -/
theorem readEntry_eq (noted : Noted) (outer : KeyedList String Value) (entry : Value × Value) :
    readEntry (noted, outer) entry = (performAll noted (entrySteps entry)).map fun noted =>
      (noted, (outerPair? entry).elim outer fun pair => outer.insert pair.1 pair.2) := by
  cases h : entry.1.isWritable with
  | false =>
      rw [entrySteps, performAll_spell_error h, readEntry, nameOf, h]
      rfl
  | true =>
      rw [entrySteps, performAll_spell h, readEntry, nameOf_eq_ok_iff.mpr ⟨h, rfl⟩, outerPair?]
      dsimp only [Except.bind]
      rw [lookup_sections]
      cases Part.named? (Key.normalize entry.1.asText) with
      | none => rfl
      | some part =>
          cases entry.2 with
          | map entries =>
              show (assignAll part.fields noted entries).map _ = _
              rw [assignAll_eq]
              rfl
          | _ => rfl

/-- To read entries is to take their steps, and to collect what is outside of the sections. -/
theorem foldlM_readEntry (noted : Noted) (outer : KeyedList String Value)
    (entries : List (Value × Value)) :
    entries.foldlM readEntry (noted, outer) =
      (performAll noted (entries.flatMap entrySteps)).map fun noted =>
        (noted, (entries.filterMap outerPair?).foldl
          (fun outer pair => outer.insert pair.1 pair.2) outer) := by
  induction entries generalizing noted outer with
  | nil => rfl
  | cons entry rest ih =>
      rw [List.foldlM_cons, readEntry_eq, List.flatMap_cons, performAll_append]
      cases performAll noted (entrySteps entry) with
      | error error => rfl
      | ok noted =>
          show rest.foldlM readEntry (noted, _) = (performAll noted _).map _
          rw [ih, List.filterMap_cons]
          cases outerPair? entry <;> rfl

/-- What was collected is one of the entries outside of the sections. -/
theorem exists_of_mem_collected {pair : String × Value} (h : pair ∈ collected entries) :
    ∃ entry ∈ entries, Part.named? pair.1 = none ∧ Key.normalize entry.1.asText = pair.1 ∧
      entry.2 = pair.2 := by
  obtain ⟨entry, hentry, hpair⟩ :=
    List.mem_filterMap.mp ((KeyedList.mem_foldl_insert h).resolve_right List.not_mem_nil)
  unfold outerPair? at hpair
  rw [Option.ite_none_right_eq_some] at hpair
  obtain ⟨hnone, rfl⟩ := hpair.imp_right Option.some.inj
  exact ⟨entry, hentry, Option.isNone_iff_eq_none.mp hnone, rfl, rfl⟩

/-- An entry under a name is assigned to that name, if it is spelled as it is normalized. -/
theorem assignEntry_text {name : String} (h : Key.normalize name = name) (noted : Noted)
    (value : Value) : assignEntry part.fields noted (.text name, value) =
      perform noted (.assign ⟨part, canonicalKey name, value⟩) := by
  have hname : nameOf (.text name) = .ok name := nameOf_eq_ok_iff.mpr ⟨rfl, h⟩
  rw [assignEntry, hname]
  rfl

/-- To assign what was collected is to take its steps. -/
theorem assignAll_outerEntries {pairs : List (String × Value)}
    (h : ∀ pair ∈ pairs, Key.normalize pair.1 = pair.1) (noted : Noted) :
    assignAll outerFields noted (outerEntries ⟨pairs⟩) =
      performAll noted (pairs.map fun (name, value) =>
        .assign ⟨.outer, canonicalKey name, value⟩) := by
  induction pairs generalizing noted with
  | nil => rfl
  | cons pair rest ih =>
      obtain ⟨hpair, hrest⟩ := List.forall_mem_cons.mp h
      show (assignEntry Part.outer.fields noted (.text pair.1, pair.2)).bind _ =
        (perform noted _).bind _
      rw [assignEntry_text hpair]
      exact congrArg _ (funext (ih hrest))

/-- To read settings is to take all steps. -/
theorem ofEntries_eq (entries : List (Value × Value)) :
    ofEntries entries = (performAll ({}, []) (steps entries)).map finish := by
  have hnames : ∀ pair ∈ collected entries, Key.normalize pair.1 = pair.1 := fun pair hpair => by
    obtain ⟨entry, -, -, hname, -⟩ := exists_of_mem_collected hpair
    rw [← hname, Key.normalize_normalize]
  rw [steps, performAll_append]
  show (entries.foldlM readEntry (({}, []), .empty)).bind _ = _
  rw [foldlM_readEntry]
  cases performAll ({}, []) (entries.flatMap entrySteps) with
  | error error => rfl
  | ok noted =>
      show (assignAll outerFields noted (outerEntries ⟨collected entries⟩)).bind _ =
        (performAll noted (outerSteps entries)).map finish
      rw [assignAll_outerEntries hnames]
      rfl

end CommentIndex.Settings
