import CommentIndex.Proofs.Settings.Failures
import CommentIndex.Proofs.Settings.Sheets

/-!
# Settings that make no difference

An entry of which nothing is taken can be left out of a mapping of settings: what is read without it
is the same, but for a warning. Outside of the sections this is so together with the entries before
it whose keys spell the same name, for of these only the last one is looked at.
`ofEntries_sheds` says when settings are read at all, and what they then do not depend on.
-/

namespace CommentIndex.Settings

/-! ## Warnings -/

/-- Some warnings without at most one of them. -/
structure LessOne (fewer warnings : List SettingsWarning) : Prop where
  sublist : fewer.Sublist warnings
  length_le : warnings.length ≤ fewer.length + 1

variable {fewer warnings : List SettingsWarning} {noted result : Noted} {key : Value}
  {assignment : Assignment} {entries : List (Value × Value)}

theorem LessOne.refl (warnings : List SettingsWarning) : LessOne warnings warnings :=
  ⟨List.Sublist.refl _, Nat.le_succ _⟩

theorem LessOne.append (h : LessOne fewer warnings) (front : List SettingsWarning) :
    LessOne (front ++ fewer) (front ++ warnings) := by
  refine ⟨h.sublist.append_left front, ?_⟩
  have := h.length_le
  simp only [List.length_append]
  omega

theorem LessOne.reverse (h : LessOne fewer warnings) : LessOne fewer.reverse warnings.reverse :=
  ⟨h.sublist.reverse, by simpa using h.length_le⟩

/-- At most one warning in front of others. -/
theorem lessOne_toList_append (warning? : Option SettingsWarning)
    (warnings : List SettingsWarning) : LessOne warnings (warning?.toList ++ warnings) := by
  refine ⟨List.sublist_append_right _ _, ?_⟩
  cases warning? <;> simp

/-- A step does not look at the warnings so far. -/
theorem perform_append (draft : Draft) (new old : List SettingsWarning) (step : Step) :
    perform (draft, new ++ old) step =
      (perform (draft, new) step).map fun next => (next.1, next.2 ++ old) := by
  cases step with
  | spell key =>
      rw [perform, perform]
      cases nameOf key <;> rfl
  | assign assignment =>
      rw [perform, perform]
      split
      · next field hfield =>
          rw [assignTo, assignTo]
          dsimp only
          cases field.fault? draft with
          | some error => rfl
          | none =>
              cases assignment.value.isNull with
              | true => rfl
              | false =>
                  dsimp only [Bool.false_eq_true, if_false]
                  cases field.assign assignment.value draft with
                  | ok next => rfl
                  | error refusal => cases refusal <;> rfl
      · rfl

/-- Nor do any number of steps. -/
theorem performAll_append_warnings (draft : Draft) (new old : List SettingsWarning)
    (steps : List Step) :
    performAll (draft, new ++ old) steps =
      (performAll (draft, new) steps).map fun next => (next.1, next.2 ++ old) := by
  induction steps generalizing draft new with
  | nil => rfl
  | cons step rest ih =>
      rw [performAll_cons, performAll_cons, perform_append]
      cases perform (draft, new) step with
      | error error => rfl
      | ok next => exact ih next.1 next.2

/-- The last check looks at the warnings only to add to them. -/
theorem LessOne.finish (h : LessOne fewer warnings) (draft : Draft) :
    (Settings.finish (draft, fewer)).1 = (Settings.finish (draft, warnings)).1 ∧
      LessOne (Settings.finish (draft, fewer)).2 (Settings.finish (draft, warnings)).2 := by
  refine ⟨rfl, ?_⟩
  rw [Settings.finish, Settings.finish]
  dsimp only
  split
  · exact h.reverse
  · exact (h.append [_]).reverse

/-! ## Steps that make no difference -/

/-- Steps are taken to the end one part after the other. -/
theorem performAll_append_eq_ok_iff {first second : List Step} :
    performAll noted (first ++ second) = .ok result ↔
      ∃ middle, performAll noted first = .ok middle ∧ performAll middle second = .ok result := by
  rw [performAll_append]
  cases performAll noted first <;> simp [Except.bind]

/-- A key that is spelled out makes no difference to steps that are taken to the end. -/
theorem performAll_of_spell {rest : List Step}
    (h : performAll noted (.spell key :: rest) = .ok result) :
    performAll noted rest = .ok result := by
  cases hkey : key.isWritable with
  | true => rwa [performAll_spell hkey] at h
  | false =>
      rw [performAll_spell_error hkey] at h
      cases h

/-- An assignment of which nothing is taken makes no difference to them but for a warning. -/
theorem performAll_of_untaken {rest : List Step} (huntaken : assignment.Untaken)
    (h : performAll noted (.assign assignment :: rest) = .ok result) :
    ∃ fewer, performAll noted rest = .ok (result.1, fewer) ∧ LessOne fewer result.2 := by
  rw [performAll_cons] at h
  have houtcome := outcome noted assignment
  generalize perform noted (.assign assignment) = next at h houtcome
  cases houtcome with
  | fails error hfatal => cases h
  | stays warning? hfatal =>
      have hrest : performAll (noted.1, warning?.toList ++ noted.2) rest = .ok result := h
      -- The rest of the steps adds the same warnings to those before them, with this one or not.
      have hquiet := performAll_append_warnings noted.1 [] noted.2 rest
      have hwarned := performAll_append_warnings noted.1 [] (warning?.toList ++ noted.2) rest
      rw [List.nil_append] at hquiet hwarned
      rw [hwarned] at hrest
      cases halone : performAll (noted.1, []) rest with
      | error error =>
          rw [halone] at hrest
          cases hrest
      | ok next =>
          rw [halone] at hrest hquiet
          obtain rfl := Except.ok.inj hrest
          exact ⟨_, hquiet, (lessOne_toList_append warning? noted.2).append next.2⟩
  | takes hfatal hvalue hkind hconvert =>
      rcases huntaken with hnull | huntaken
      · rw [hvalue] at hnull
        cases hnull
      · exact absurd hconvert (huntaken _ hkind _)

/-- Steps before and after one that makes no difference. -/
theorem performAll_append_of_untaken {first second : List Step} (huntaken : assignment.Untaken)
    (h : performAll noted (first ++ .assign assignment :: second) = .ok result) :
    ∃ fewer, performAll noted (first ++ second) = .ok (result.1, fewer) ∧
      LessOne fewer result.2 := by
  obtain ⟨middle, hfirst, hsecond⟩ := performAll_append_eq_ok_iff.mp h
  obtain ⟨fewer, hrest, hfewer⟩ := performAll_of_untaken huntaken hsecond
  exact ⟨fewer, performAll_append_eq_ok_iff.mpr ⟨middle, hfirst, hrest⟩, hfewer⟩

/-- So with a key. -/
theorem performAll_append_of_spell {first second : List Step}
    (h : performAll noted (first ++ .spell key :: second) = .ok result) :
    performAll noted (first ++ second) = .ok result := by
  obtain ⟨middle, hfirst, hsecond⟩ := performAll_append_eq_ok_iff.mp h
  exact performAll_append_eq_ok_iff.mpr ⟨middle, hfirst, performAll_of_spell hsecond⟩

/-! ## Entries outside of the sections -/

variable {entry : Value × Value} {before after : List (Value × Value)}

/-- The name that the key of an entry spells. -/
abbrev spelled (entry : Value × Value) : String :=
  Key.normalize entry.1.asText

/-- The key of an entry outside of the sections is only spelled out at first. -/
theorem entrySteps_of_outer (h : Part.named? (spelled entry) = none) :
    entrySteps entry = [.spell entry.1] := by
  rw [entrySteps, h]

/-- It is collected under its name. -/
theorem outerPair?_of_outer (h : Part.named? (spelled entry) = none) :
    outerPair? entry = some (spelled entry, entry.2) := by
  rw [outerPair?, if_pos (by rw [h]; rfl)]

/-- The entry of a section is not collected. -/
theorem outerPair?_of_section {part : Part} (h : Part.named? (spelled entry) = some part) :
    outerPair? entry = none := by
  rw [outerPair?, if_neg (by rw [h]; exact Bool.false_ne_true)]

/-- What is collected is under the name that is spelled. -/
theorem fst_eq_of_outerPair? {pair : String × Value} (h : outerPair? entry = some pair) :
    pair.1 = spelled entry := by
  unfold outerPair? at h
  rw [Option.ite_none_right_eq_some] at h
  rw [← Option.some.inj h.2]

/-- What is collected without the entries of a name is what is collected, but for that name. -/
theorem collected_filter (entries : List (Value × Value)) (name : String) :
    collected (entries.filter (spelled · ≠ name)) =
      ((KeyedList.ofList (entries.filterMap outerPair?)).erase name).entries := by
  rw [collected, KeyedList.erase_ofList, List.filterMap_filter, List.filter_filterMap]
  refine congrArg (fun read => (KeyedList.ofList (entries.filterMap read)).entries)
    (funext fun entry => ?_)
  cases hpair : outerPair? entry with
  | none => simp
  | some pair => simp [Option.filter, fst_eq_of_outerPair? hpair]

/-- What is collected for the name of an entry outside of the sections, where the name is not
spelled again, is its value. -/
theorem find?_of_last (before : List (Value × Value))
    (hentry : Part.named? (spelled entry) = none)
    (hlast : ∀ other ∈ after, spelled other ≠ spelled entry) :
    (KeyedList.ofList ((before ++ entry :: after).filterMap outerPair?)).find? (spelled entry) =
      some entry.2 := by
  have hnone : KeyedList.findIn? (spelled entry) (after.filterMap outerPair?).reverse = none := by
    refine KeyedList.findIn?_eq_none_iff.mpr fun pair hpair => ?_
    obtain ⟨other, hother, hpair⟩ := List.mem_filterMap.mp (List.mem_reverse.mp hpair)
    rw [fst_eq_of_outerPair? hpair]
    exact hlast other hother
  rw [KeyedList.find?_ofList, List.filterMap_append, List.filterMap_cons,
    outerPair?_of_outer hentry, List.reverse_append, List.reverse_cons, KeyedList.findIn?_append,
    KeyedList.findIn?_append, hnone]
  simp [KeyedList.findIn?]

/-- The keys outside of the sections make no difference to steps that are taken to the end. -/
theorem performAll_filter {p : Value × Value → Bool}
    (hp : ∀ entry, p entry = false → Part.named? (spelled entry) = none)
    (h : performAll noted (entries.flatMap entrySteps) = .ok result) :
    performAll noted ((entries.filter p).flatMap entrySteps) = .ok result := by
  induction entries generalizing noted with
  | nil => exact h
  | cons entry rest ih =>
      rw [List.flatMap_cons] at h
      rw [List.filter_cons]
      cases hentry : p entry with
      | true =>
          rw [if_pos rfl, List.flatMap_cons]
          obtain ⟨middle, hfirst, hrest⟩ := performAll_append_eq_ok_iff.mp h
          exact performAll_append_eq_ok_iff.mpr ⟨middle, hfirst, ih hrest⟩
      | false =>
          rw [if_neg Bool.false_ne_true]
          rw [entrySteps_of_outer (hp entry hentry)] at h
          exact ih (performAll_of_spell h)

/-- An entry outside of the sections of which nothing is taken makes no difference but for a
warning, together with the entries before it that spell its name. -/
theorem performAll_of_last (hentry : Part.named? (spelled entry) = none)
    (huntaken : (Assignment.ofEntry .outer entry).Untaken)
    (hlast : ∀ other ∈ after, spelled other ≠ spelled entry)
    (h : performAll noted (steps (before ++ entry :: after)) = .ok result) :
    ∃ fewer, performAll noted (steps (before.filter (spelled · ≠ spelled entry) ++ after)) =
      .ok (result.1, fewer) ∧ LessOne fewer result.2 := by
  have hrest : before.filter (spelled · ≠ spelled entry) ++ after =
      (before ++ entry :: after).filter (spelled · ≠ spelled entry) := by
    have hafter : after.filter (spelled · ≠ spelled entry) = after :=
      List.filter_eq_self.mpr fun other hother => decide_eq_true (hlast other hother)
    rw [List.filter_append, List.filter_cons_of_neg (by simp), hafter]
  obtain ⟨front, back, hcollected, herased⟩ := KeyedList.exists_split_of_find?
    (KeyedList.nodup_keys_ofList _) (find?_of_last before hentry hlast)
  obtain ⟨middle, hinner, houter⟩ := performAll_append_eq_ok_iff.mp h
  rw [outerSteps, collected, hcollected, List.map_append, List.map_cons] at houter
  obtain ⟨fewer, houter, hfewer⟩ := performAll_append_of_untaken huntaken houter
  refine ⟨fewer, performAll_append_eq_ok_iff.mpr ⟨middle, ?_, ?_⟩, hfewer⟩
  · rw [hrest]
    refine performAll_filter (fun other hother => ?_) hinner
    rw [of_decide_eq_false hother |> Classical.not_not.mp]
    exact hentry
  · rw [outerSteps, hrest, collected_filter, herased, List.map_append]
    exact houter

/-! ## Names that are spelled again -/

/-- The assignment of what is collected under a name. -/
def outerAssign (pair : String × Value) : Step :=
  .assign ⟨.outer, canonicalKey pair.1, pair.2⟩

/-- Outside of the sections, only names that are not other names for fields are those of fields. -/
theorem eq_of_canonicalKey_eq {key name : String} (h : canonicalKey key = name)
    (hname : name ∉ ["legacy", "prefixes", "display_tag_name"]) : key = name := by
  unfold canonicalKey at h
  split at h <;> simp_all

/-- What is collected is assigned to the delay, or to the cursor, or to the delay in seconds, or to
nothing. -/
theorem perform_outerAssign_cases (pair : String × Value) :
    pair.1 = "parse_delay" ∨ pair.1 = "show_cursor" ∨ pair.1 = readOnlyField.name ∨
      ∀ noted, perform noted (outerAssign pair) = .ok noted := by
  by_cases hfields : ∃ field ∈ outerFields, canonicalKey pair.1 = field.name
  · obtain ⟨field, hfield, hname⟩ := hfields
    simp only [outerFields, List.mem_cons, List.not_mem_nil, or_false] at hfield
    rcases hfield with rfl | rfl | rfl
    · exact .inl (eq_of_canonicalKey_eq hname (by decide))
    · exact .inr (.inl (eq_of_canonicalKey_eq hname (by decide)))
    · exact .inr (.inr (.inl (eq_of_canonicalKey_eq hname (by decide))))
  · have hnone : Part.outer.fields.find? (·.name = canonicalKey pair.1) = none :=
      List.find?_eq_none.mpr fun field hfield heq =>
        hfields ⟨field, hfield, (of_decide_eq_true heq).symm⟩
    refine .inr (.inr (.inr fun noted => ?_))
    rw [outerAssign, perform, hnone]

/-- Two steps are taken one after the other. -/
theorem performAll_pair (noted : Noted) (first second : Step) :
    performAll noted [first, second] = (perform noted first).bind (perform · second) := by
  rw [performAll_cons]
  exact congrArg _ (funext fun next => performAll_singleton next second)

/-- The delay and the cursor are assigned in any order. -/
theorem performAll_delay_cursor (delay cursor : Value) (noted : Noted) :
    performAll noted [outerAssign ("parse_delay", delay), outerAssign ("show_cursor", cursor)] =
      performAll noted
        [outerAssign ("show_cursor", cursor), outerAssign ("parse_delay", delay)] := by
  have hdelay (noted : Noted) : perform noted (outerAssign ("parse_delay", delay)) =
      if delay.isNull then .ok noted
      else match integerOf "parse_delay" delay with
        | .ok n => .ok ({ noted.1 with settings.parseDelay := n }, noted.2)
        | .error (.warn warning) => .ok (noted.1, warning :: noted.2)
        | .error (.fail error) => .error error := by
    show assignTo (.integer "parse_delay" _) noted delay = _
    rw [assignTo, Field.integer]
    dsimp only
    cases integerOf "parse_delay" delay with
    | ok n => rfl
    | error refusal => cases refusal <;> rfl
  have hcursor (noted : Noted) : perform noted (outerAssign ("show_cursor", cursor)) =
      if cursor.isNull then .ok noted
      else .ok ({ noted.1 with settings.showCursor := cursor.isTrue }, noted.2) := rfl
  simp only [performAll_pair, hdelay, hcursor]
  cases delay.isNull with
  | true => cases cursor.isNull <;> rfl
  | false =>
      cases integerOf "parse_delay" delay with
      | ok n => cases cursor.isNull <;> rfl
      | error refusal => cases refusal <;> cases cursor.isNull <;> rfl

/-- What is collected under two names is assigned in any order, if neither is that of the delay in
seconds. -/
theorem performAll_swap {first second : String × Value} (hne : first.1 ≠ second.1)
    (hfirst : first.1 ≠ readOnlyField.name) (hsecond : second.1 ≠ readOnlyField.name)
    (noted : Noted) :
    performAll noted [outerAssign first, outerAssign second] =
      performAll noted [outerAssign second, outerAssign first] := by
  have hidle {first second : String × Value}
      (h : ∀ noted, perform noted (outerAssign first) = .ok noted) :
      performAll noted [outerAssign first, outerAssign second] =
        performAll noted [outerAssign second, outerAssign first] := by
    simp only [performAll_pair, h]
    show perform noted (outerAssign second) = (perform noted (outerAssign second)).bind .ok
    cases perform noted (outerAssign second) <;> rfl
  obtain ⟨name, value⟩ := first
  obtain ⟨name', value'⟩ := second
  rcases perform_outerAssign_cases (name, value) with rfl | rfl | h | h
  · rcases perform_outerAssign_cases (name', value') with rfl | rfl | h | h
    · exact absurd rfl hne
    · exact performAll_delay_cursor value value' noted
    · exact absurd h hsecond
    · exact (hidle h).symm
  · rcases perform_outerAssign_cases (name', value') with rfl | rfl | h | h
    · exact (performAll_delay_cursor value' value noted).symm
    · exact absurd rfl hne
    · exact absurd h hsecond
    · exact (hidle h).symm
  · exact absurd h hfirst
  · exact hidle h

/-- What is collected is assigned in any order, if the name of the delay in seconds is not among
it. -/
theorem performAll_perm {first second : List (String × Value)} (hperm : first.Perm second)
    (hnodup : (first.map Prod.fst).Nodup) (hnames : ∀ pair ∈ first, pair.1 ≠ readOnlyField.name)
    (noted : Noted) :
    performAll noted (first.map outerAssign) = performAll noted (second.map outerAssign) := by
  -- Each exchange of two neighbours is one of distinct names, by `performAll_swap`.
  induction hperm generalizing noted with
  | nil => rfl
  | cons pair hperm ih =>
      obtain ⟨-, hrest⟩ := List.forall_mem_cons.mp hnames
      rw [List.map_cons, List.map_cons, performAll_cons, performAll_cons]
      exact congrArg _ (funext (ih (List.nodup_cons.mp hnodup).2 hrest))
  | swap pair pair' rest =>
      obtain ⟨hpair, hrest⟩ := List.forall_mem_cons.mp hnames
      obtain ⟨hpair', -⟩ := List.forall_mem_cons.mp hrest
      have hne : pair'.1 ≠ pair.1 := fun heq =>
        (List.nodup_cons.mp hnodup).1 (heq ▸ List.mem_cons_self)
      have hswap := performAll_swap hne hpair hpair' noted
      show performAll noted ([outerAssign pair', outerAssign pair] ++ rest.map outerAssign) =
        performAll noted ([outerAssign pair, outerAssign pair'] ++ rest.map outerAssign)
      rw [performAll_append, performAll_append, hswap]
  | trans hfirst hsecond ihfirst ihsecond =>
      rw [ihfirst hnodup hnames,
        ihsecond ((hfirst.map _).nodup_iff.mp hnodup) fun pair hpair =>
          hnames pair (hfirst.mem_iff.mpr hpair)]

/-- An entry outside of the sections whose name is spelled again makes no difference to what is
collected but for the order. -/
theorem perm_collected (hentry : Part.named? (spelled entry) = none)
    (hagain : ∃ other ∈ after, spelled other = spelled entry) :
    (collected (before ++ entry :: after)).Perm (collected (before ++ after)) := by
  refine KeyedList.perm_of_find?_eq (KeyedList.nodup_keys_ofList _) (KeyedList.nodup_keys_ofList _)
    fun name => ?_
  simp only [KeyedList.find?_ofList, List.filterMap_append, List.filterMap_cons,
    outerPair?_of_outer hentry, List.reverse_append, List.reverse_cons, KeyedList.findIn?_append]
  by_cases hname : spelled entry = name
  · -- The entry that spells the name again comes first from the end, and hides this one.
    obtain ⟨other, hother, hspelled⟩ := hagain
    have hpair : (name, other.2) ∈ (after.filterMap outerPair?).reverse := by
      refine List.mem_reverse.mpr (List.mem_filterMap.mpr ⟨other, hother, ?_⟩)
      rw [outerPair?_of_outer (hspelled ▸ hentry), hspelled, hname]
    cases hfind : KeyedList.findIn? name (after.filterMap outerPair?).reverse with
    | none => exact absurd rfl (KeyedList.findIn?_eq_none_iff.mp hfind _ hpair)
    | some value => rfl
  · simp [KeyedList.findIn?, hname]

/-- An entry outside of the sections whose name is spelled again makes no difference, if nothing
spells the name of the delay in seconds. -/
theorem performAll_of_respelled (hentry : Part.named? (spelled entry) = none)
    (hagain : ∃ other ∈ after, spelled other = spelled entry)
    (hnames : ∀ other ∈ before ++ after, spelled other ≠ readOnlyField.name)
    (h : performAll noted (steps (before ++ entry :: after)) = .ok result) :
    performAll noted (steps (before ++ after)) = .ok result := by
  obtain ⟨middle, hinner, houter⟩ := performAll_append_eq_ok_iff.mp h
  rw [List.flatMap_append, List.flatMap_cons, entrySteps_of_outer hentry] at hinner
  refine performAll_append_eq_ok_iff.mpr ⟨middle, ?_, ?_⟩
  · rw [List.flatMap_append]
    exact performAll_append_of_spell hinner
  · have hcollected : ∀ pair ∈ collected (before ++ after), pair.1 ≠ readOnlyField.name :=
      fun pair hpair => by
        obtain ⟨other, hother, -, hname, -⟩ := exists_of_mem_collected hpair
        rw [← hname]
        exact hnames other hother
    rw [← houter]
    exact performAll_perm (perm_collected hentry hagain).symm (KeyedList.nodup_keys_ofList _)
      hcollected middle

/-! ## Entries that make no difference -/

/-- Among all steps, those of a section stand in one place. -/
theorem exists_steps_eq {part : Part} (hpart : Part.named? (Key.normalize key.asText) = some part)
    (before after : List (Value × Value)) :
    ∃ front back, ∀ inner, steps (before ++ (key, .map inner) :: after) =
      front ++ (sectionSteps part inner ++ back) := by
  refine ⟨before.flatMap entrySteps ++ [.spell key],
    after.flatMap entrySteps ++ outerSteps (before ++ after), fun inner => ?_⟩
  have hpair : outerPair? (key, .map inner) = none := outerPair?_of_section hpart
  have hcollected :
      collected (before ++ (key, .map inner) :: after) = collected (before ++ after) := by
    rw [collected, collected, List.filterMap_append, List.filterMap_cons, hpair,
      List.filterMap_append]
  have hentry : entrySteps (key, .map inner) = .spell key :: sectionSteps part inner := by
    rw [entrySteps, hpart]
  rw [steps, outerSteps, hcollected, ← outerSteps, List.flatMap_append, List.flatMap_cons, hentry]
  simp

/-- An entry of a section of which nothing is taken makes no difference but for a warning. -/
theorem performAll_of_inside {part : Part} {first second : List (Value × Value)}
    (hpart : Part.named? (Key.normalize key.asText) = some part)
    (huntaken : (Assignment.ofEntry part entry).Untaken)
    (h : performAll noted (steps (before ++ (key, .map (first ++ entry :: second)) :: after)) =
      .ok result) :
    ∃ fewer, performAll noted (steps (before ++ (key, .map (first ++ second)) :: after)) =
      .ok (result.1, fewer) ∧ LessOne fewer result.2 := by
  obtain ⟨front, back, hsteps⟩ := exists_steps_eq hpart before after
  have hwith : front ++ (sectionSteps part (first ++ entry :: second) ++ back) =
      (front ++ sectionSteps part first) ++ .spell entry.1 :: .assign (.ofEntry part entry) ::
        (sectionSteps part second ++ back) := by
    simp [sectionSteps]
  have hwithout : front ++ (sectionSteps part (first ++ second) ++ back) =
      (front ++ sectionSteps part first) ++ (sectionSteps part second ++ back) := by
    simp [sectionSteps]
  rw [hsteps, hwith] at h
  rw [hsteps, hwithout]
  exact performAll_append_of_untaken huntaken (performAll_append_of_spell h)

/-- The name of a section without a mapping makes no difference. -/
theorem performAll_of_section (hpart : (Part.named? (spelled entry)).isSome = true)
    (hvalue : ∀ inner, entry.2 ≠ .map inner)
    (h : performAll noted (steps (before ++ entry :: after)) = .ok result) :
    performAll noted (steps (before ++ after)) = .ok result := by
  obtain ⟨part, hpart⟩ := Option.isSome_iff_exists.mp hpart
  have hentry : entrySteps entry = [.spell entry.1] := by
    rw [entrySteps]
    split
    · next named inner hnamed hinner => exact absurd hinner (hvalue inner)
    · rfl
  rw [steps, outerSteps, collected, List.filterMap_append, List.filterMap_cons,
    outerPair?_of_section hpart, ← List.filterMap_append, List.flatMap_append, List.flatMap_cons,
    hentry, List.append_assoc] at h
  rw [steps, List.flatMap_append, List.append_assoc]
  exact performAll_append_of_spell h

/-- A mapping, and what is left of it without an entry that makes no difference: one of a section
of which nothing is taken, the name of a section without a mapping, or one outside of the sections.
There, it is an entry whose name is spelled again later, or one of which nothing is taken, together
with those before it that spell its name. -/
inductive Sheds : List (Value × Value) → List (Value × Value) → Prop where
  | inside {part : Part} {key : Value} {before first : List (Value × Value)}
    {entry : Value × Value} {second after : List (Value × Value)}
    (hpart : Part.named? (Key.normalize key.asText) = some part)
    (huntaken : (Assignment.ofEntry part entry).Untaken) :
    Sheds (before ++ (key, .map (first ++ entry :: second)) :: after)
      (before ++ (key, .map (first ++ second)) :: after)
  | emptySection {before : List (Value × Value)} {entry : Value × Value}
    {after : List (Value × Value)} (hpart : (Part.named? (spelled entry)).isSome = true)
    (hvalue : ∀ inner, entry.2 ≠ .map inner) :
    Sheds (before ++ entry :: after) (before ++ after)
  | respelled {before : List (Value × Value)} {entry : Value × Value}
    {after : List (Value × Value)} (hentry : Part.named? (spelled entry) = none)
    (hagain : ∃ other ∈ after, spelled other = spelled entry)
    (hnames : ∀ other ∈ before ++ after, spelled other ≠ readOnlyField.name) :
    Sheds (before ++ entry :: after) (before ++ after)
  | outside {before : List (Value × Value)} {entry : Value × Value}
    {after : List (Value × Value)} (hentry : Part.named? (spelled entry) = none)
    (huntaken : (Assignment.ofEntry .outer entry).Untaken)
    (hlast : ∀ other ∈ after, spelled other ≠ spelled entry) :
    Sheds (before ++ entry :: after) (before.filter (spelled · ≠ spelled entry) ++ after)

/-- The steps of what is left lead to the same draft. -/
theorem Sheds.performAll {rest : List (Value × Value)} (hsheds : Sheds entries rest)
    (h : Settings.performAll noted (steps entries) = .ok result) :
    ∃ fewer, Settings.performAll noted (steps rest) = .ok (result.1, fewer) ∧
      LessOne fewer result.2 := by
  cases hsheds with
  | inside hpart huntaken => exact performAll_of_inside hpart huntaken h
  | emptySection hpart hvalue =>
      exact ⟨_, performAll_of_section hpart hvalue h, .refl result.2⟩
  | respelled hentry hagain hnames =>
      exact ⟨_, performAll_of_respelled hentry hagain hnames h, .refl result.2⟩
  | outside hentry huntaken hlast => exact performAll_of_last hentry huntaken hlast h

/-- What is left gives the same settings. -/
theorem Sheds.ofEntries {rest : List (Value × Value)} {settings : Settings}
    (hsheds : Sheds entries rest) (h : Settings.ofEntries entries = .ok (settings, warnings)) :
    ∃ fewer, Settings.ofEntries rest = .ok (settings, fewer) ∧ LessOne fewer warnings := by
  rw [ofEntries_eq] at h
  cases hrun : Settings.performAll ({}, []) (steps entries) with
  | error error =>
      rw [hrun] at h
      cases h
  | ok result =>
      rw [hrun] at h
      obtain ⟨fewer, hrest, hfewer⟩ := hsheds.performAll hrun
      obtain ⟨hsettings, hwarnings⟩ := hfewer.finish result.1
      have hfinish : finish result = (settings, warnings) := Except.ok.inj h
      refine ⟨(finish (result.1, fewer)).2, ?_, ?_⟩
      · rw [ofEntries_eq, hrest]
        show Except.ok (finish (result.1, fewer)) = _
        rw [← Prod.eta (finish (result.1, fewer)), hsettings, hfinish]
      · rw [hfinish] at hwarnings
        exact hwarnings

end CommentIndex.Settings
