import CommentIndex.Proofs.Settings.Kinds

/-!
# Reading settings onto a sheet

Settings can be read without any types: a sheet has a value of any kind under each name, and a new
value is converted to the kind of the old one. `Sheet.ofEntries` does so, and the sheet that it
gives is that of the settings that are read (`Sheet.ofEntries_eq`). So its values are of the kinds
of their fields, and a field that is not named by anything keeps its value: `ofEntries_wellTyped`.
-/

namespace CommentIndex.Settings

/-- What fields hold when settings are read. -/
def sheet (settings : Settings) : Sheet :=
  Draft.sheet ⟨settings, settings.tags.sortMethod.name, settings.workspace.pathFormat.name⟩

/-! ## Reading without types -/

/-- A sheet with the warnings so far, the latest first. -/
abbrev Marked := Sheet × List SettingsWarning

namespace Sheet

/-- A value converted to the kind of the value that the field of a name holds now. Of the lists, two
hold texts. -/
def convertLike (name : String) (current value : Value) : Except Refusal Value :=
  match current with
  | .bool _ => Kind.flag.convert name value
  | .int _ => Kind.integer.convert name value
  | .list _ =>
    if name = "separators" ∨ name = "prefixes" then Kind.texts.convert name value
    else Kind.list.convert name value
  | .map _ => Kind.mapping.convert name value
  | .text _ => Kind.text.convert name value
  | _ => .ok value

/-- Whether the delay on a sheet can be told in seconds. -/
def tellsSeconds (sheet : Sheet) : Bool :=
  match sheet.find? (.outer, "parse_delay") with
  | some (.int n) => (Decimal.ofThousandths? n.toNat).isSome
  | _ => true

/-- Puts a value under the name of a field, if there is one and the value is something. -/
def put (part : Part) (name : String) (value : Value) (marked : Marked) :
    Except SettingsError Marked :=
  match marked.1.find? (part, name) with
  | none => .ok marked
  | some current =>
    if value.isNull then .ok marked
    else match convertLike name current value with
      | .ok new => .ok (marked.1.insert (part, name) new, marked.2)
      | .error (.warn warning) => .ok (marked.1, warning :: marked.2)
      | .error (.fail error) => .error error

/-- Takes one step. -/
def perform (marked : Marked) : Step → Except SettingsError Marked
  | .spell key => (nameOf key).map fun _ => marked
  | .assign ⟨part, name, value⟩ =>
    if part = .outer ∧ name = readOnlyField.name then
      if !tellsSeconds marked.1 then .error .delayTooLarge
      else if value.isNull then .ok marked
      else .error .readOnly
    else put part name value marked

/-- The text of a field, if it is none of the names that are known there. -/
def unknown? (place : Part × String) (names : List String) (sheet : Sheet) : Option String :=
  match sheet.find? place with
  | some (.text name) => if name ∈ names then none else some name
  | _ => none

/-- A sheet on which the text of a field is replaced if it is not known. -/
def withKnown (place : Part × String) (names : List String) (standard : String) (sheet : Sheet) :
    Sheet :=
  match unknown? place names sheet with
  | some _ => sheet.insert place (.text standard)
  | none => sheet

/-- The sheet with known names for the sort method and the path format, and the warnings in
order. -/
def finish (marked : Marked) : Marked :=
  let sortMethod := (Part.tags, "sort_method")
  let warning := (unknown? sortMethod ["line", "type"] marked.1).map .unknownSortMethod
  ((marked.1.withKnown sortMethod ["line", "type"] "line").withKnown (.workspace, "path_format")
      ["full", "abbreviated", "hidden"] "full",
    (warning.toList ++ marked.2).reverse)

/-- The sheet that a mapping gives, from that of the settings when nothing is chosen. -/
def ofEntries (entries : List (Value × Value)) : Except SettingsError Marked :=
  ((steps entries).foldlM perform (Settings.sheet {}, [])).map finish

end Sheet

/-! ## The sheet of a draft -/

/-- The sheet of a draft, with the warnings. -/
def mark (noted : Noted) : Marked :=
  (noted.1.sheet, noted.2)

variable {part : Part} {name : String} {kind : Kind} {entries : List (Value × Value)}

/-- A draft holds values of the kinds of its fields. -/
theorem Draft.holds_sheet (draft : Draft) :
    ∀ entry ∈ kinds, ∃ value, draft.sheet.find? entry.1 = some value ∧ entry.2.Holds value := by
  simp only [kinds, List.forall_mem_cons]
  exact ⟨⟨_, rfl, .list _⟩, ⟨_, rfl, .mapping _⟩, ⟨_, rfl, .texts _⟩, ⟨_, rfl, .texts _⟩,
    ⟨_, rfl, .text _⟩, ⟨_, rfl, .flag _⟩, ⟨_, rfl, .flag _⟩, ⟨_, rfl, .flag _⟩, ⟨_, rfl, .flag _⟩,
    ⟨_, rfl, .text _⟩, ⟨_, rfl, .flag _⟩, ⟨_, rfl, .flag _⟩, ⟨_, rfl, .flag _⟩, ⟨_, rfl, .text _⟩,
    ⟨_, rfl, .text _⟩, ⟨_, rfl, .integer _⟩, ⟨_, rfl, .text _⟩, ⟨_, rfl, .integer _⟩,
    ⟨_, rfl, .integer _⟩, ⟨_, rfl, .flag _⟩, List.forall_mem_nil _⟩

/-- The names on the sheet of a draft are those of fields with kinds. -/
theorem Draft.keys_sheet (draft : Draft) : draft.sheet.keys = kinds.map Prod.fst := rfl

/-- A field has a kind if the pair of them is listed. -/
theorem mem_kinds_of_kindOf? (h : kindOf? part name = some kind) :
    ((part, name), kind) ∈ kinds := by
  have hnodup : (KeyedList.mk kinds).keys.Nodup := by decide
  exact (KeyedList.find?_eq_some_iff hnodup).mp h

/-- Two of the lists hold texts. -/
theorem texts_iff_of_mem_kinds : ∀ entry ∈ kinds,
    (entry.2 = .texts → entry.1.2 = "separators" ∨ entry.1.2 = "prefixes") ∧
      (entry.2 = .list → ¬ (entry.1.2 = "separators" ∨ entry.1.2 = "prefixes")) := by
  decide

/-- A value is converted to the kind of a field by the value that the field holds. -/
theorem Sheet.convertLike_eq (hkind : kindOf? part name = some kind) {current : Value}
    (hholds : kind.Holds current) (value : Value) :
    convertLike name current value = kind.convert name value := by
  obtain ⟨htexts, hlist⟩ := texts_iff_of_mem_kinds _ (mem_kinds_of_kindOf? hkind)
  cases hholds with
  | list items => exact if_neg (hlist rfl)
  | texts items => exact if_pos (htexts rfl)
  | _ => rfl

/-- Whether the delay can be told in seconds is the same on a sheet and in its settings. -/
theorem Draft.tellsSeconds_sheet (draft : Draft) :
    draft.sheet.tellsSeconds = draft.settings.delaySeconds?.isSome := rfl

/-- There is nothing on the sheet of a draft under a name that has no kind. -/
theorem Draft.find?_sheet_eq_none (hkind : kindOf? part name = none) (draft : Draft) :
    draft.sheet.find? (part, name) = none := by
  rw [← Option.isNone_iff_eq_none, ← Option.not_isSome, Bool.not_eq_true', ← Bool.not_eq_true,
    ← KeyedList.mem_keys_iff, draft.keys_sheet, List.mem_map]
  rintro ⟨entry, hentry, hname⟩
  exact KeyedList.findIn?_eq_none_iff.mp hkind entry hentry hname

/-- The name of a field with a kind is not that of the one that follows from another one. -/
theorem ne_readOnly_of_kindOf? (hkind : kindOf? part name = some kind) :
    ¬ (part = .outer ∧ name = readOnlyField.name) := by
  rintro ⟨rfl, rfl⟩
  cases hkind

/-- To put a value on a sheet is to assign it to its field. -/
theorem Sheet.put_mark {field : Field} (h : Takes part field kind) (noted : Noted)
    (value : Value) :
    put part field.name value (mark noted) = (assignTo field noted value).map mark := by
  obtain ⟨current, hcurrent, hholds⟩ := noted.1.holds_sheet _ (mem_kinds_of_kindOf? h.kind_eq)
  rw [put, assignTo, h.fault_eq]
  show (match noted.1.sheet.find? (part, field.name) with | none => _ | some current => _) = _
  rw [hcurrent]
  dsimp only
  cases value.isNull with
  | true => rfl
  | false =>
      rw [convertLike_eq h.kind_eq hholds]
      rcases h.assign_cases value noted.1 with
        ⟨refusal, hconvert, hassign⟩ | ⟨new, next, hconvert, hassign, hsheet⟩
      · rw [hconvert, hassign]
        cases refusal <;> rfl
      · rw [hconvert, hassign]
        show Except.ok (noted.1.sheet.insert _ new, noted.2) = .ok (next.sheet, noted.2)
        rw [hsheet]

/-- A step on a sheet is a step of reading. -/
theorem Sheet.perform_mark (noted : Noted) (step : Step) :
    perform (mark noted) step = (Settings.perform noted step).map mark := by
  cases step with
  | spell key =>
      show _ = ((nameOf key).map _).map mark
      rw [perform]
      cases nameOf key <;> rfl
  | assign assignment =>
      obtain ⟨part, name, value⟩ := assignment
      have hfound := finds part name
      rw [Settings.perform]
      dsimp only
      generalize part.fields.find? (·.name = name) = found at hfound
      cases hfound with
      | readOnly hpart hname hkind =>
          show (if part = .outer ∧ name = readOnlyField.name then _ else _) = _
          rw [if_pos ⟨hpart, hname⟩]
          show (if (!tellsSeconds noted.1.sheet) = true then _ else _) =
            (assignTo readOnlyField noted value).map mark
          rw [Draft.tellsSeconds_sheet, assignTo]
          cases hseconds : noted.1.settings.delaySeconds?.isSome with
          | false => simp [readOnlyField, hseconds, Except.map]
          | true => cases value.isNull <;> simp [readOnlyField, hseconds, Except.map]
      | field hname h =>
          subst hname
          rw [perform, if_neg (ne_readOnly_of_kindOf? h.kind_eq)]
          exact put_mark h noted value
      | none hkind hname =>
          rw [perform, if_neg fun heq => hname (Prod.ext heq.1 heq.2), put]
          show (match noted.1.sheet.find? (part, name) with | none => _ | some current => _) = _
          rw [noted.1.find?_sheet_eq_none hkind]
          rfl

/-- Any number of steps on a sheet are steps of reading. -/
theorem Sheet.foldlM_perform_mark (noted : Noted) (steps : List Step) :
    steps.foldlM perform (mark noted) = (performAll noted steps).map mark := by
  induction steps generalizing noted with
  | nil => rfl
  | cons step rest ih =>
      rw [List.foldlM_cons, perform_mark, performAll_cons]
      cases Settings.perform noted step with
      | error error => rfl
      | ok next => exact ih next

/-- There is a sort method of a name if it is one of two. -/
theorem sortMethod_cases (name : String) :
    (name ∈ ["line", "type"] ∧
        ∃ method, SortMethod.ofName? name = some method ∧ method.name = name) ∨
      name ∉ ["line", "type"] ∧ SortMethod.ofName? name = none := by
  by_cases hline : name = "line"
  · subst hline
    exact .inl ⟨by decide, .line, rfl, rfl⟩
  · by_cases htype : name = "type"
    · subst htype
      exact .inl ⟨by decide, .type, rfl, rfl⟩
    · refine .inr ⟨by simp [hline, htype], ?_⟩
      simp [SortMethod.ofName?, SortMethod.name, Ne.symm hline, Ne.symm htype]

/-- The path format of a name has that name if it is one of three, and else shows everything. -/
theorem name_ofName_pathFormat (name : String) :
    (PathFormat.ofName name).name =
      if name ∈ ["full", "abbreviated", "hidden"] then name else "full" := by
  by_cases hfull : name = "full"
  · subst hfull
    rfl
  · by_cases hshort : name = "abbreviated"
    · subst hshort
      rfl
    · by_cases hhidden : name = "hidden"
      · subst hhidden
        rfl
      · simp [PathFormat.ofName, PathFormat.name, hfull, hshort, hhidden, Ne.symm hfull,
          Ne.symm hshort, Ne.symm hhidden]

/-- The text of a field is kept if it is known. -/
theorem Sheet.withKnown_eq (sheetOf : String → Sheet) (place : Part × String)
    (names : List String) (standard text : String)
    (hfind : ∀ text, (sheetOf text).find? place = some (.text text))
    (hinsert : ∀ text, (sheetOf text).insert place (.text standard) = sheetOf standard) :
    unknown? place names (sheetOf text) = (if text ∈ names then none else some text) ∧
      withKnown place names standard (sheetOf text) =
        sheetOf (if text ∈ names then text else standard) := by
  have hunknown : unknown? place names (sheetOf text) =
      if text ∈ names then none else some text := by
    rw [unknown?, hfind]
  refine ⟨hunknown, ?_⟩
  rw [withKnown, hunknown]
  by_cases hmem : text ∈ names
  · rw [if_pos hmem, if_pos hmem]
  · rw [if_neg hmem, if_neg hmem, hinsert]

/-- The last check of a sheet is that of the settings. -/
theorem Sheet.finish_mark (noted : Noted) :
    finish (mark noted) = ((Settings.finish noted).1.sheet, (Settings.finish noted).2) := by
  obtain ⟨⟨settings, sortName, formatName⟩, warnings⟩ := noted
  obtain ⟨hunknown, hsort⟩ := withKnown_eq
    (fun text => Draft.sheet ⟨settings, text, formatName⟩) (.tags, "sort_method") ["line", "type"]
    "line" sortName (fun _ => rfl) (fun _ => rfl)
  obtain ⟨-, hformat⟩ := withKnown_eq
    (fun text => Draft.sheet ⟨settings, if sortName ∈ ["line", "type"] then sortName else "line",
      text⟩) (.workspace, "path_format") ["full", "abbreviated", "hidden"] "full" formatName
    (fun _ => rfl) (fun _ => rfl)
  rw [← name_ofName_pathFormat] at hformat
  have hsheet : withKnown (.workspace, "path_format") ["full", "abbreviated", "hidden"] "full"
      (withKnown (.tags, "sort_method") ["line", "type"] "line"
        (Draft.sheet ⟨settings, sortName, formatName⟩)) =
      Draft.sheet ⟨settings, if sortName ∈ ["line", "type"] then sortName else "line",
        (PathFormat.ofName formatName).name⟩ := by
    rw [hsort, hformat]
  rw [finish, mark]
  dsimp only
  rw [hsheet, hunknown]
  rcases sortMethod_cases sortName with ⟨hmem, method, hmethod, rfl⟩ | ⟨hmem, hmethod⟩
  · rw [if_pos hmem, if_pos hmem, Settings.finish]
    simp only [hmethod]
    rfl
  · rw [if_neg hmem, if_neg hmem, Settings.finish]
    simp only [hmethod]
    rfl

/-- The sheet that a mapping gives is that of the settings that it gives, with the same warnings. -/
theorem Sheet.ofEntries_eq (entries : List (Value × Value)) :
    ofEntries entries = (Settings.ofEntries entries).map fun (settings, warnings) =>
      (settings.sheet, warnings) := by
  rw [ofEntries, Settings.ofEntries_eq]
  show (steps entries |>.foldlM perform (mark ({}, []))).map finish = _
  rw [foldlM_perform_mark]
  cases performAll ({}, []) (steps entries) with
  | error error => rfl
  | ok noted => exact congrArg Except.ok (finish_mark noted)

/-! ## Fields that are not named -/

/-- The entries of a part: those of the mappings under its name, or those that have no section's
name. -/
def partEntries (entries : List (Value × Value)) (part : Part) : List (Value × Value) :=
  entries.flatMap fun entry =>
    match Part.named? (Key.normalize entry.1.asText), entry.2 with
    | some named, .map inner => if named = part then inner else []
    | some _, _ => []
    | none, _ => if part = .outer then [entry] else []

/-- Some entry of a part spells a name, or another name of that, and has something for it. -/
def Names (entries : List (Value × Value)) (part : Part) (name : String) : Prop :=
  ∃ entry ∈ partEntries entries part,
    canonicalKey (Key.normalize entry.1.asText) = name ∧ entry.2.isNull = false

instance (entries : List (Value × Value)) (part : Part) (name : String) :
    Decidable (Names entries part name) :=
  inferInstanceAs (Decidable (∃ entry ∈ _, _))

/-- What is assigned comes from an entry of its part. -/
theorem exists_entry_of_mem_steps {assignment : Assignment}
    (h : .assign assignment ∈ steps entries) :
    ∃ entry ∈ partEntries entries assignment.part,
      canonicalKey (Key.normalize entry.1.asText) = assignment.name ∧
        entry.2 = assignment.value := by
  rcases List.mem_append.mp h with h | h
  · obtain ⟨entry, hentry, hstep⟩ := List.mem_flatMap.mp h
    obtain hstep := (List.mem_cons.mp hstep).resolve_left Step.noConfusion
    split at hstep
    · next named inner hnamed hinner =>
        obtain ⟨pair, hpair, hassign⟩ := List.mem_flatMap.mp hstep
        have heq : assignment = .ofEntry named pair := by simpa using hassign
        subst heq
        refine ⟨pair, List.mem_flatMap.mpr ⟨entry, hentry, ?_⟩, rfl, rfl⟩
        rw [hnamed, hinner]
        show pair ∈ if named = named then inner else []
        rwa [if_pos rfl]
    · contradiction
  · obtain ⟨⟨outerName, value⟩, hcollected, hassign⟩ := List.mem_map.mp h
    obtain ⟨entry, hentry, hnone, hname, hvalue⟩ := exists_of_mem_collected hcollected
    obtain rfl := Step.assign.inj hassign
    refine ⟨entry, List.mem_flatMap.mpr ⟨entry, hentry, ?_⟩, ?_, hvalue⟩
    · dsimp only at hname hnone
      rw [hname, hnone]
      exact List.mem_singleton_self _
    · dsimp only at hname ⊢
      rw [hname]

/-- To put a value under one name keeps what the fields of other names hold. -/
theorem Sheet.find?_of_put {marked next : Marked} {place : Part × String} {value : Value}
    (h : put part name value marked = .ok next)
    (hvalue : place = (part, name) → value.isNull = true) :
    next.1.find? place = marked.1.find? place := by
  unfold put at h
  split at h
  · obtain rfl := Except.ok.inj h
    rfl
  · split at h
    · obtain rfl := Except.ok.inj h
      rfl
    · next hsome =>
        split at h
        · obtain rfl := Except.ok.inj h
          exact KeyedList.find?_insert_ne _ (fun heq => hsome (hvalue heq)) _
        · obtain rfl := Except.ok.inj h
          rfl
        · cases h

/-- A step keeps what a field holds, unless it assigns something to it. -/
theorem Sheet.find?_of_perform {marked next : Marked} {step : Step}
    (h : perform marked step = .ok next)
    (hstep : ∀ value, step = .assign ⟨part, name, value⟩ → value.isNull = true) :
    next.1.find? (part, name) = marked.1.find? (part, name) := by
  cases step with
  | spell key =>
      rw [perform] at h
      cases hname : nameOf key with
      | error error =>
          rw [hname] at h
          cases h
      | ok name =>
          rw [hname] at h
          obtain rfl := Except.ok.inj h
          rfl
  | assign assignment =>
      obtain ⟨part', name', value⟩ := assignment
      rw [perform] at h
      split at h
      · split at h
        · cases h
        · split at h
          · obtain rfl := Except.ok.inj h
            rfl
          · cases h
      · refine find?_of_put h fun heq => hstep value ?_
        obtain ⟨rfl, rfl⟩ := Prod.mk.inj heq
        rfl

/-- So do any number of steps. -/
theorem Sheet.find?_of_foldlM {marked next : Marked} {steps : List Step}
    (h : steps.foldlM perform marked = .ok next)
    (hsteps : ∀ value, .assign ⟨part, name, value⟩ ∈ steps → value.isNull = true) :
    next.1.find? (part, name) = marked.1.find? (part, name) := by
  induction steps generalizing marked with
  | nil =>
      obtain rfl := Except.ok.inj h
      rfl
  | cons step rest ih =>
      rw [List.foldlM_cons] at h
      cases hstep : perform marked step with
      | error error =>
          rw [hstep] at h
          cases h
      | ok middle =>
          rw [hstep] at h
          rw [ih h fun value hmem => hsteps value (List.mem_cons_of_mem _ hmem)]
          exact find?_of_perform hstep fun value heq => hsteps value (heq ▸ List.mem_cons_self)

/-- The last check of a sheet keeps what a field holds, unless that is a name that is not known. -/
theorem Sheet.find?_withKnown {sheet : Sheet} {place other : Part × String} {names : List String}
    {standard : String} (h : other = place → unknown? place names sheet = none) :
    (withKnown place names standard sheet).find? other = sheet.find? other := by
  unfold withKnown
  split
  · next hunknown =>
      refine KeyedList.find?_insert_ne _ (fun heq => ?_) _
      rw [h heq] at hunknown
      cases hunknown
  · rfl

/-- A known name is not unknown. -/
theorem Sheet.unknown?_eq_none {sheet : Sheet} {place : Part × String} {names : List String}
    {text : String} (h : sheet.find? place = some (.text text)) (hmem : text ∈ names) :
    unknown? place names sheet = none := by
  rw [unknown?, h]
  exact if_pos hmem

/-- The last check of a sheet keeps a field that holds what it holds when nothing is chosen. -/
theorem Sheet.find?_finish {marked : Marked} {place : Part × String}
    (h : marked.1.find? place = (Settings.sheet {}).find? place) :
    (finish marked).1.find? place = marked.1.find? place := by
  have hsort : (withKnown (.tags, "sort_method") ["line", "type"] "line" marked.1).find? place =
      marked.1.find? place := by
    refine find?_withKnown fun heq => ?_
    subst heq
    exact unknown?_eq_none (h.trans rfl) (List.mem_cons_self : "line" ∈ _)
  refine (find?_withKnown fun heq => ?_).trans hsort
  subst heq
  exact unknown?_eq_none ((hsort.trans h).trans rfl) (List.mem_cons_self : "full" ∈ _)

/-! ## What is read -/

/-- The values of all fields are of their kinds, and the names of the sort method and the path
format are known. -/
structure WellTyped (sheet : Sheet) : Prop where
  holds : ∀ entry ∈ kinds, ∃ value, sheet.find? entry.1 = some value ∧ entry.2.Holds value
  sortMethod : ∃ name ∈ ["line", "type"], sheet.find? (.tags, "sort_method") = some (.text name)
  pathFormat : ∃ name ∈ ["full", "abbreviated", "hidden"],
    sheet.find? (.workspace, "path_format") = some (.text name)

/-- The sheet of settings is well typed. -/
theorem wellTyped_sheet (settings : Settings) : WellTyped settings.sheet := by
  refine ⟨Draft.holds_sheet _, ⟨settings.tags.sortMethod.name, ?_, rfl⟩,
    ⟨settings.workspace.pathFormat.name, ?_, rfl⟩⟩
  · cases settings.tags.sortMethod <;> decide
  · cases settings.workspace.pathFormat <;> decide

/-- A field that no entry names keeps what it holds when nothing is chosen. -/
theorem find?_sheet_of_not_names {settings : Settings} {warnings : List SettingsWarning}
    (h : ofEntries entries = .ok (settings, warnings)) (hnames : ¬ Names entries part name) :
    settings.sheet.find? (part, name) = (Settings.sheet {}).find? (part, name) := by
  have hsheet := Sheet.ofEntries_eq entries
  rw [h, Sheet.ofEntries] at hsheet
  cases hrun : (steps entries).foldlM Sheet.perform (Settings.sheet {}, []) with
  | error error =>
      rw [hrun] at hsheet
      cases hsheet
  | ok marked =>
      have hsteps : ∀ value, .assign ⟨part, name, value⟩ ∈ steps entries →
          value.isNull = true := fun value hmem => by
        obtain ⟨entry, hentry, hname, rfl⟩ := exists_entry_of_mem_steps hmem
        by_cases hnull : entry.2.isNull = true
        · exact hnull
        · exact absurd ⟨entry, hentry, hname, by simpa using hnull⟩ hnames
      have hkept := Sheet.find?_of_foldlM hrun hsteps
      rw [hrun] at hsheet
      have hfinish : Sheet.finish marked = (settings.sheet, warnings) := Except.ok.inj hsheet
      rw [← hkept, ← Sheet.find?_finish hkept, hfinish]

/-- Whatever settings a mapping gives, the same reading without types gives their sheet. All its
values are of the kinds of their fields, however the values of the mapping were meant, and a field
that no entry of its part names in any spelling, with something for it, holds what it holds when
nothing is chosen. -/
theorem ofEntries_wellTyped (entries : List (Value × Value)) {settings : Settings}
    {warnings : List SettingsWarning} (h : ofEntries entries = .ok (settings, warnings)) :
    Sheet.ofEntries entries = .ok (settings.sheet, warnings) ∧ WellTyped settings.sheet ∧
      ∀ part name, ¬ Names entries part name →
        settings.sheet.find? (part, name) = (Settings.sheet {}).find? (part, name) := by
  refine ⟨?_, wellTyped_sheet settings, fun part name => find?_sheet_of_not_names h⟩
  rw [Sheet.ofEntries_eq, h]
  rfl

/-- Values of the wrong kinds, and another name for a field. -/
theorem ofEntries_wellTyped_mixed :
    let entries : List (Value × Value) :=
      [(.text "Tags", .map [(.text "matchPrefix", .text "//"), (.text "sort-method", .text "size"),
        (.text "legacy", .bool true), (.text "matchCase", .list [.null])]),
        (.text "parseDelay", .bool true), (.text "workspace", .map [(.text "maxFiles", .null)])]
    ∃ settings warnings, ofEntries entries = .ok (settings, warnings) ∧
      WellTyped settings.sheet ∧ ¬ Names entries .workspace "max_files" ∧
      settings.sheet.find? (.workspace, "max_files") = some (.int 250) := by
  intro entries
  have hreturns : (ofEntries entries).isOk = true := by decide +kernel
  cases hread : ofEntries entries with
  | error error =>
      rw [hread] at hreturns
      cases hreturns
  | ok result =>
      obtain ⟨settings, warnings⟩ := result
      have hnames : ¬ Names entries .workspace "max_files" := by decide +kernel
      obtain ⟨-, htyped, hkept⟩ := ofEntries_wellTyped entries hread
      exact ⟨settings, warnings, rfl, htyped, hnames, hkept _ _ hnames⟩

end CommentIndex.Settings
