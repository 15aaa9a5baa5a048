import CommentIndex.Proofs.Settings.Kinds

/-!
# Settings that end the reading

A key or a text that cannot be written ends the reading of settings, and so does an infinite number
for an integer, and the name of the delay in seconds, which is found among the fields but cannot be
assigned. Every other value is taken, or left out with at most a warning, as `outcome` tells case by
case. `isOk_ofEntries_iff` says so of the whole reading.
-/

namespace CommentIndex.Settings

/-! ## Values that end the reading -/

/-- The values that a kind neither takes nor leaves out. -/
def Kind.Breaks : Kind → Value → Prop
  | .integer, .float x => x.isNaN = false ∧ x.isInf = true
  | .text, value => value.isWritable = false
  | .texts, .list items => ∃ item ∈ items, item.isWritable = false
  | _, _ => False

/-- Items are turned into their texts if all of them can be written. -/
theorem mapM_textOf (items : List Value) :
    items.mapM textOf = if items.all (·.isWritable) then .ok (items.map (·.asText))
      else .error (.fail .badScalar) := by
  induction items with
  | nil => rfl
  | cons item rest ih =>
      rw [List.mapM_cons, ih, textOf, List.all_cons]
      cases item.isWritable with
      | false => rfl
      | true => cases rest.all (·.isWritable) <;> rfl

/-- A number neither gives an integer nor is left out if it is infinite. -/
theorem integerOf_float_eq_fail_iff (name : String) (x : Float) :
    (∃ error, integerOf name (.float x) = .error (.fail error)) ↔
      x.isNaN = false ∧ x.isInf = true := by
  rw [integerOf]
  unfold Decimal.truncated?
  cases x.isNaN <;> cases x.isInf <;> simp

/-- The values that a kind neither takes nor leaves out are those that fail to be converted. -/
theorem Kind.convert_eq_fail_iff (kind : Kind) (name : String) (value : Value) :
    (∃ error, kind.convert name value = .error (.fail error)) ↔ kind.Breaks value := by
  cases kind with
  | flag => simp [convert, Breaks]
  | integer =>
      have hmap (error : SettingsError) : Kind.integer.convert name value = .error (.fail error) ↔
          integerOf name value = .error (.fail error) := by
        rw [convert]
        cases integerOf name value <;> simp [Except.map]
      simp only [hmap]
      cases value with
      | float x => exact integerOf_float_eq_fail_iff name x
      | text s =>
          rw [integerOf]
          cases Text.readInt? s.toList <;> simp [Breaks]
      | _ => simp [integerOf, Breaks]
  | text =>
      rw [convert, textOf, Breaks]
      cases value.isWritable <;> simp [Except.map]
  | list => cases value <;> simp [convert, listOf, Breaks, Except.map]
  | texts =>
      cases value with
      | list items =>
          rw [convert, listOf, Breaks]
          simp only [Except.bind, mapM_textOf]
          split <;> simp_all [Except.map]
      | text s =>
          have hone : Kind.texts.convert name (.text s) = .ok (.list [.text s]) := rfl
          simp [hone, Breaks]
      | _ => simp [convert, listOf, Breaks, Except.bind]
  | mapping => cases value <;> simp [convert, entriesOf, Breaks, Except.map]

/-! ## Steps that end the reading -/

/-- Nothing is taken: there is no value, or no field of a kind that the value can be converted
to. -/
def Assignment.Untaken (assignment : Assignment) : Prop :=
  assignment.value.isNull = true ∨ ∀ kind, kindOf? assignment.part assignment.name = some kind →
    ∀ new, kind.convert assignment.name assignment.value ≠ .ok new

/-- The assignment is to the field that follows from the delay. -/
def Assignment.ToReadOnly (assignment : Assignment) : Prop :=
  assignment.part = .outer ∧ assignment.name = readOnlyField.name

/-- A step ends the reading, with the delay that has been read so far: a key cannot be written, or a
value breaks the kind of its field, or the delay in seconds is given, or only looked at where it is
beyond every double. -/
def Step.Fatal (delay : Int) : Step → Prop
  | .spell key => key.isWritable = false
  | .assign assignment =>
    (assignment.value.isNull = false ∧
      ∃ kind, kindOf? assignment.part assignment.name = some kind ∧
        kind.Breaks assignment.value) ∨
    (assignment.ToReadOnly ∧
      (assignment.value.isNull = false ∨ Decimal.boundOfThousandths ≤ delay.toNat))

/-- The delay after a step. -/
def Step.delay (delay : Int) : Step → Int
  | .spell _ => delay
  | .assign assignment =>
    if assignment.part = .outer ∧ assignment.name = "parse_delay" then
      match integerOf assignment.name assignment.value with
      | .ok n => n
      | .error _ => delay
    else delay

/-- What becomes of an assignment: it ends the reading, or nothing is taken, or the sheet has a new
value. -/
inductive Outcome (noted : Noted) (assignment : Assignment) :
    Except SettingsError Noted → Prop where
  | fails (error : SettingsError)
    (h : (Step.assign assignment).Fatal noted.1.settings.parseDelay) :
    Outcome noted assignment (.error error)
  | stays (warning? : Option SettingsWarning)
    (h : ¬ (Step.assign assignment).Fatal noted.1.settings.parseDelay)
    (huntaken : assignment.Untaken) :
    Outcome noted assignment (.ok (noted.1, warning?.toList ++ noted.2))
  | takes {kind : Kind} {new : Value} {next : Draft}
    (h : ¬ (Step.assign assignment).Fatal noted.1.settings.parseDelay)
    (hvalue : assignment.value.isNull = false)
    (hkind : kindOf? assignment.part assignment.name = some kind)
    (hconvert : kind.convert assignment.name assignment.value = .ok new)
    (hsheet : next.sheet = noted.1.sheet.insert (assignment.part, assignment.name) new) :
    Outcome noted assignment (.ok (next, noted.2))

variable {noted next : Noted} {assignment : Assignment}

/-- The delay in seconds can be looked at unless the milliseconds are beyond every double. -/
theorem fault?_readOnlyField (draft : Draft) :
    readOnlyField.fault? draft =
      if Decimal.boundOfThousandths ≤ draft.settings.parseDelay.toNat then some .delayTooLarge
      else none := by
  have hseconds : draft.settings.delaySeconds?.isSome =
      !decide (Decimal.boundOfThousandths ≤ draft.settings.parseDelay.toNat) := by
    rw [delaySeconds?, delay, Decimal.ofThousandths?, ← decide_not]
    simp only [Nat.not_le]
    split <;> simp [*]
  simp only [readOnlyField, hseconds]
  by_cases h : Decimal.boundOfThousandths ≤ draft.settings.parseDelay.toNat <;> simp [h]

/-- An assignment to the delay in seconds ends the reading, unless there is no value and the delay
is not beyond every double. -/
theorem outcome_readOnly (hto : assignment.ToReadOnly) (noted : Noted) :
    Outcome noted assignment (assignTo readOnlyField noted assignment.value) := by
  rw [assignTo, fault?_readOnlyField]
  by_cases hdelay : Decimal.boundOfThousandths ≤ noted.1.settings.parseDelay.toNat
  · rw [if_pos hdelay]
    exact .fails _ (.inr ⟨hto, .inr hdelay⟩)
  · rw [if_neg hdelay]
    cases hvalue : assignment.value.isNull with
    | true =>
        refine .stays none ?_ (.inl hvalue)
        rintro (⟨h, -⟩ | ⟨-, h | h⟩)
        · simp [hvalue] at h
        · simp [hvalue] at h
        · exact hdelay h
    | false => exact .fails _ (.inr ⟨hto, .inl hvalue⟩)

/-- What becomes of an assignment to a field of a kind. -/
theorem outcome_field {field : Field} {kind : Kind} (hname : field.name = assignment.name)
    (h : Takes assignment.part field kind) (noted : Noted) :
    Outcome noted assignment (assignTo field noted assignment.value) := by
  have hkind : kindOf? assignment.part assignment.name = some kind := hname ▸ h.kind_eq
  have hother : ¬ assignment.ToReadOnly := fun hto => by
    rw [hto.1, hto.2] at hkind
    cases hkind
  have hfatal : (Step.assign assignment).Fatal noted.1.settings.parseDelay ↔
      assignment.value.isNull = false ∧ kind.Breaks assignment.value := by
    refine ⟨fun hfatal => ?_, fun hbreaks => .inl ⟨hbreaks.1, kind, hkind, hbreaks.2⟩⟩
    obtain ⟨hvalue, kind', hkind', hbreaks⟩ := hfatal.resolve_right fun h => hother h.1
    rw [hkind] at hkind'
    cases hkind'
    exact ⟨hvalue, hbreaks⟩
  rw [assignTo, h.fault_eq]
  dsimp only
  -- Nothing is converted where there is no value, so this comes first.
  cases hvalue : assignment.value.isNull with
  | true => exact .stays none (by simp [hfatal, hvalue]) (.inl hvalue)
  | false =>
      rcases h.assign_cases assignment.value noted.1 with
        ⟨refusal, hconvert, hassign⟩ | ⟨new, next, hconvert, hassign, hsheet⟩
      · rw [hname] at hconvert
        rw [hassign]
        cases refusal with
        | fail error =>
            have hbreaks := (kind.convert_eq_fail_iff _ _).mp ⟨error, hconvert⟩
            exact .fails error (hfatal.mpr ⟨hvalue, hbreaks⟩)
        | warn warning =>
            refine .stays (some warning) (fun h => ?_) (.inr fun kind' hkind' new hnew => ?_)
            · obtain ⟨error, hfail⟩ := (kind.convert_eq_fail_iff _ _).mpr (hfatal.mp h).2
              rw [hconvert] at hfail
              cases hfail
            · rw [hkind] at hkind'
              cases hkind'
              rw [hconvert] at hnew
              cases hnew
      · rw [hname] at hconvert hsheet
        rw [hassign]
        refine .takes (fun h => ?_) hvalue hkind hconvert hsheet
        obtain ⟨error, hfail⟩ := (kind.convert_eq_fail_iff _ _).mpr (hfatal.mp h).2
        rw [hconvert] at hfail
        cases hfail

/-- What becomes of an assignment. -/
theorem outcome (noted : Noted) (assignment : Assignment) :
    Outcome noted assignment (perform noted (.assign assignment)) := by
  have hfound := finds assignment.part assignment.name
  rw [perform]
  generalize assignment.part.fields.find? (·.name = assignment.name) = found at hfound
  cases hfound with
  | readOnly hpart hname => exact outcome_readOnly ⟨hpart, hname⟩ noted
  | field hname h => exact outcome_field hname h noted
  | none hkind hname =>
      refine .stays none ?_ (.inr fun kind h => ?_)
      · rintro (⟨-, kind, h, -⟩ | ⟨h, -⟩)
        · rw [hkind] at h
          cases h
        · exact hname (Prod.ext h.1 h.2)
      · rw [hkind] at h
        cases h

end CommentIndex.Settings
