import CommentIndex.Proofs.Registry.Merging

/-!
# Names that are not known

The behaviour, the scope and the style mode of a tag are chosen by name. Of the keys of an entry
that spell one of these fields the last one counts, and any of them counts more than the older truth
values. A name that is not known chooses nothing, and hides what it counts more than all the same.
`apply_unknown_iff` says when an entry does the same without a key with such a name.
-/

namespace CommentIndex

namespace Tag

/-- The names under which an entry sets a field. -/
def Field.names : Field → List String
  | .behavior => ["behavior", "is_region"]
  | .scope => ["scope"]
  | .styleMode => ["style_mode", "style_comment"]
  | .highlightColor => ["highlight_color"]
  | .backgroundColor => ["background_color"]
  | .iconColor => ["icon_color"]
  | .borderStyle => ["border_style"]
  | .borderRadius => ["border_radius"]
  | .bold => ["bold", "is_bold"]
  | .italic => ["italic", "is_italic"]

/-- The fields of a tag that are chosen by name. -/
inductive Choice where
  | behavior
  | scope
  | styleMode

namespace Choice

/-- The field among all those of a tag. -/
def field : Choice → Field
  | .behavior => .behavior
  | .scope => .scope
  | .styleMode => .styleMode

/-- The key of the field in settings. -/
def key : Choice → String
  | .behavior => "behavior"
  | .scope => "scope"
  | .styleMode => "style_mode"

/-- What a value chooses, if it is the name of something known. -/
def ofValue? : (choice : Choice) → Value → Option choice.field.Content
  | .behavior => TagChange.choice? Behavior.ofName?
  | .scope => TagChange.choice? Scope.ofName?
  | .styleMode => TagChange.choice? StyleMode.ofName?

/-- What is chosen by an older truth value. -/
def older : (choice : Choice) → KeyedList String Value → Option choice.field.Content
  | .behavior => TagChange.olderBehavior
  | .scope => fun _ => none
  | .styleMode => TagChange.olderStyleMode

/-- A value is something, and not the name of anything known. -/
structure Unknown (choice : Choice) (value : Value) : Prop where
  isSome : value.isNull = false
  isUnknown : choice.ofValue? value = none

/-- A key spells the field. -/
def SpelledBy (choice : Choice) (key : Value) : Prop :=
  Key.normalize key.asText = choice.key

instance (choice : Choice) (key : Value) : Decidable (choice.SpelledBy key) :=
  inferInstanceAs (Decidable (_ = _))

/-- No other field is set under the key of a choice. -/
theorem key_notMem_names (choice : Choice) {other : Field} (h : other ≠ choice.field) :
    choice.key ∉ other.names := by
  cases choice <;> cases other <;> first | exact absurd rfl h | decide

end Choice

/-- A tag is its name and the content of its fields. -/
theorem ext_content {first second : Tag} (hname : first.name = second.name)
    (h : ∀ field, first.content field = second.content field) : first = second := by
  cases first
  cases second
  rw [Tag.mk.injEq]
  exact ⟨hname, h .behavior, h .scope, h .styleMode, h .highlightColor, h .backgroundColor,
    h .iconColor, h .borderStyle, h .borderRadius, h .bold, h .italic⟩

end Tag

variable {choice : Tag.Choice} {before after : List (Value × Value)} {key value : Value}

namespace TagChange

/-- What an entry chooses: what the value of the field names, or else what the older truth values
choose. -/
theorem content?_choice (entry : List (Value × Value)) (choice : Tag.Choice) :
    (ofEntry entry).content? choice.field =
      match given? (fields entry) choice.key with
      | some value => choice.ofValue? value
      | none => choice.older (fields entry) := by
  cases choice <;> rfl

/-- The value of a field once an entry has a further key. -/
theorem find?_fields_append_cons (name : String) :
    (fields (before ++ (key, value) :: after)).find? name =
      ((fields after).find? name).or
        (if Key.normalize key.asText = name then some value else (fields before).find? name) := by
  simp only [fields, KeyedList.find?_ofList, List.map_append, List.map_cons, List.reverse_append,
    List.reverse_cons, List.append_assoc, KeyedList.findIn?_append, List.singleton_append,
    KeyedList.findIn?]

/-- The value of a field in two pieces of an entry. -/
theorem find?_fields_append (name : String) :
    (fields (before ++ after)).find? name =
      ((fields after).find? name).or ((fields before).find? name) := by
  simp only [fields, KeyedList.find?_ofList, List.map_append, List.reverse_append,
    KeyedList.findIn?_append]

/-- A key makes no difference to fields that it does not spell. -/
theorem find?_fields_of_ne {name : String} (h : Key.normalize key.asText ≠ name) :
    (fields (before ++ (key, value) :: after)).find? name =
      (fields (before ++ after)).find? name := by
  rw [find?_fields_append_cons, find?_fields_append, if_neg h]

/-- Nothing is found for a field that no key spells. -/
theorem find?_fields_eq_none_iff {name : String} {entry : List (Value × Value)} :
    (fields entry).find? name = none ↔ ∀ pair ∈ entry, Key.normalize pair.1.asText ≠ name := by
  rw [fields, KeyedList.find?_ofList, KeyedList.findIn?_eq_none_iff]
  simp only [List.mem_reverse, List.forall_mem_map]

/-- What an entry makes of a field is told by what it has under the names of the field. -/
theorem content?_congr {entry other : List (Value × Value)} {field : Tag.Field}
    (h : ∀ name ∈ field.names, (fields entry).find? name = (fields other).find? name) :
    (ofEntry entry).content? field = (ofEntry other).content? field := by
  cases field with
  | behavior | styleMode | bold | italic =>
      obtain ⟨hname, holder, -⟩ := by simpa only [Tag.Field.names, List.forall_mem_cons] using h
      simp only [content?, ofEntry, choiceOr, flagOr, given?, olderBehavior, olderStyleMode, hname,
        holder]
      rfl
  | _ =>
      obtain ⟨hname, -⟩ := by simpa only [Tag.Field.names, List.forall_mem_cons] using h
      simp only [content?, ofEntry, choiceOr, given?, hname]
      rfl

/-- A key that spells a choice makes no difference to the other fields of a tag. -/
theorem content?_of_ne (hkey : choice.SpelledBy key) {field : Tag.Field}
    (hfield : field ≠ choice.field) :
    (ofEntry (before ++ (key, value) :: after)).content? field =
      (ofEntry (before ++ after)).content? field :=
  content?_congr fun _ hname =>
    find?_fields_of_ne fun heq => choice.key_notMem_names hfield (hkey.symm.trans heq ▸ hname)

/-- A name that is not known chooses nothing, nor does what it hides, unless a later key spells the
field. -/
theorem content?_choice_unknown (hkey : choice.SpelledBy key) (hvalue : choice.Unknown value)
    (hlast : ∀ later ∈ after, ¬ choice.SpelledBy later.1) :
    (ofEntry (before ++ (key, value) :: after)).content? choice.field = none := by
  have hfound : given? (fields (before ++ (key, value) :: after)) choice.key = some value := by
    have hspelled : Key.normalize key.asText = choice.key := hkey
    rw [given?, find?_fields_append_cons, find?_fields_eq_none_iff.mpr hlast, if_pos hspelled,
      Option.none_or, Option.filter_some, hvalue.isSome]
    rfl
  rw [content?_choice, hfound]
  exact hvalue.isUnknown

/-- A key before another one that spells the same field makes no difference. -/
theorem content?_of_later (hkey : choice.SpelledBy key)
    (hlater : ∃ later ∈ after, choice.SpelledBy later.1) (field : Tag.Field) :
    (ofEntry (before ++ (key, value) :: after)).content? field =
      (ofEntry (before ++ after)).content? field := by
  have hsome : (fields after).find? choice.key ≠ none := by
    rw [ne_eq, find?_fields_eq_none_iff]
    intro hnone
    obtain ⟨later, hmem, hspelled⟩ := hlater
    exact hnone later hmem hspelled
  refine content?_congr fun name _ => ?_
  by_cases hname : Key.normalize key.asText = name
  · obtain ⟨found, hfound⟩ := Option.ne_none_iff_exists'.mp hsome
    rw [← hname, hkey, find?_fields_append_cons, find?_fields_append, hfound, Option.some_or,
      Option.some_or]
  · exact find?_fields_of_ne hname

end TagChange

namespace Registry

variable {registry : Registry} {name : String}

/-- The tag of a name, or one of which nothing but the name is given. -/
def current (registry : Registry) (name : String) : Tag :=
  (registry.find? name).getD { name := name }

/-- A key that spells a choice does not turn the tag off. -/
theorem turnsOff_append_cons (hkey : choice.SpelledBy key) :
    turnsOff (before ++ (key, value) :: after) = turnsOff (before ++ after) := by
  have hother : key.sameKey (.text "enabled") = false := by
    cases key with
    | text spelling =>
        refine decide_eq_false fun heq => ?_
        have henabled : choice.key = Key.normalize "enabled" := heq ▸ hkey.symm
        cases choice <;> exact absurd henabled (by decide)
    | _ => simp [Value.sameKey, Value.wholeNumber?]
  have hsame : Value.valueOf? "enabled" (before ++ (key, value) :: after) =
      Value.valueOf? "enabled" (before ++ after) := by
    induction before with
    | nil => rw [List.nil_append, Value.valueOf?, hother]; rfl
    | cons pair rest ih =>
        rw [List.cons_append, List.cons_append, Value.valueOf?, Value.valueOf?, ih]
  rw [turnsOff, turnsOff, hsame]

/-- An entry that does not turn the tag off registers it with its change. -/
theorem apply_of_on {entry : List (Value × Value)} (hon : turnsOff entry = false) :
    registry.apply name entry =
      registry.register ((TagChange.ofEntry entry).apply name (registry.current name)) := by
  rw [apply, hon]
  rfl

/-- The content of a tag to which an entry has been applied. -/
theorem content_of_mem_apply {entry : List (Value × Value)} {tag : Tag}
    (h : tag ∈ (registry.apply name entry).find? name) (field : Tag.Field) :
    tag.content field =
      ((TagChange.ofEntry entry).content? field).getD ((registry.current name).content field) := by
  have hfound := find?_apply registry (name, entry) name
  rw [if_pos rfl, change] at hfound
  rw [Option.mem_def, hfound, Option.ite_none_left_eq_some] at h
  obtain ⟨-, rfl⟩ := h.imp_right Option.some.inj
  exact TagChange.content_apply ..

/-- Two entries that do not turn a tag off do the same if and only if they leave the same content in
each field. -/
theorem apply_eq_apply_iff {entry other : List (Value × Value)} (hon : turnsOff entry = false)
    (hother : turnsOff other = false) :
    registry.apply name entry = registry.apply name other ↔
      ∀ field, ((TagChange.ofEntry entry).content? field).getD
          ((registry.current name).content field) =
        ((TagChange.ofEntry other).content? field).getD
          ((registry.current name).content field) := by
  simp only [apply_of_on hon, apply_of_on hother, ← TagChange.content_apply _ name]
  constructor
  · intro hsame field
    have hfound := congrArg (·.find? name) hsame
    simp only [find?_register, TagChange.key_apply, if_true, Option.some.injEq] at hfound
    rw [hfound]
  · exact fun hsame => congrArg registry.register (Tag.ext_content rfl hsame)

/-- A key with a name that is not known makes no difference if and only if the entry turns the tag
off, or a later key spells the same field, or what the entry chooses without it, by earlier keys or
older truth values, is nothing or what the tag has anyway. If it makes a difference, then to that
field alone, which stays what it was. -/
theorem apply_unknown_iff (registry : Registry) (name : String) (choice : Tag.Choice)
    (before after : List (Value × Value)) {key value : Value} (hkey : choice.SpelledBy key)
    (hvalue : choice.Unknown value) :
    (registry.apply name (before ++ (key, value) :: after) =
        registry.apply name (before ++ after) ↔
      turnsOff (before ++ after) = true ∨ (∃ later ∈ after, choice.SpelledBy later.1) ∨
        ∀ content ∈ (TagChange.ofEntry (before ++ after)).content? choice.field,
          content = (registry.current name).content choice.field) ∧
    (∀ tag ∈ (registry.apply name (before ++ (key, value) :: after)).find? name,
      ∀ other ∈ (registry.apply name (before ++ after)).find? name,
        ∀ field, tag.content field = other.content field ∨
          field = choice.field ∧ tag.content field = (registry.current name).content field) := by
  have hoff : turnsOff (before ++ (key, value) :: after) = turnsOff (before ++ after) :=
    turnsOff_append_cons hkey
  constructor
  · cases hon : turnsOff (before ++ after) with
    | true => simp [apply, hoff, hon]
    | false =>
        rw [apply_eq_apply_iff (hoff.trans hon) hon, or_iff_right Bool.false_ne_true]
        by_cases hlater : ∃ later ∈ after, choice.SpelledBy later.1
        · refine iff_of_true (fun field => ?_) (.inl hlater)
          rw [TagChange.content?_of_later hkey hlater]
        · have hnone : (TagChange.ofEntry (before ++ (key, value) :: after)).content? choice.field =
              none :=
            TagChange.content?_choice_unknown hkey hvalue (by simpa using hlater)
          rw [or_iff_right hlater]
          constructor
          · intro hsame content hcontent
            have hchoice := hsame choice.field
            rwa [hnone, Option.mem_def.mp hcontent, eq_comm] at hchoice
          · intro hcurrent field
            by_cases hfield : field = choice.field
            · subst hfield
              rw [hnone]
              cases hchosen : (TagChange.ofEntry (before ++ after)).content? choice.field with
              | none => rfl
              | some content => exact (hcurrent content hchosen).symm
            · rw [TagChange.content?_of_ne hkey hfield]
  · intro tag htag other hother field
    rw [content_of_mem_apply htag, content_of_mem_apply hother]
    by_cases hfield : field = choice.field
    · subst hfield
      by_cases hlater : ∃ later ∈ after, choice.SpelledBy later.1
      · exact .inl (by rw [TagChange.content?_of_later hkey hlater])
      · refine .inr ⟨rfl, ?_⟩
        rw [TagChange.content?_choice_unknown hkey hvalue (by simpa using hlater)]
        rfl
    · exact .inl (by rw [TagChange.content?_of_ne hkey hfield])

/-- A name that is not known makes no difference before a later spelling of its field. -/
theorem apply_unknown_before_link :
    Tag.Choice.behavior.SpelledBy (.text "behavior") ∧
      Tag.Choice.behavior.Unknown (.text "teleport") ∧
      empty.apply "A" [(.text "behavior", .text "teleport"), (.text "Behavior", .text "link")] =
        empty.apply "A" [(.text "Behavior", .text "link")] := by
  have hkey : Tag.Choice.behavior.SpelledBy (.text "behavior") := by decide +kernel
  have hvalue : Tag.Choice.behavior.Unknown (.text "teleport") := ⟨rfl, rfl⟩
  have hlater : Tag.Choice.behavior.SpelledBy (.text "Behavior") := by decide +kernel
  exact ⟨hkey, hvalue, (apply_unknown_iff empty "A" .behavior [] [_] hkey hvalue).1.mpr
    (.inr (.inl ⟨_, List.mem_singleton_self _, hlater⟩))⟩

/-- A name that is not known hides the older truth value of the same entry. -/
theorem teleport_hides_region :
    ((empty.apply "A" [(.text "is_region", .bool true), (.text "behavior", .text "teleport")]).find?
        "A").map Tag.behavior = some .plain ∧
      ((empty.apply "A" [(.text "is_region", .bool true)]).find? "A").map Tag.behavior =
        some .region ∧
      empty.apply "A" [(.text "is_region", .bool true), (.text "behavior", .text "teleport")] ≠
        empty.apply "A" [(.text "is_region", .bool true)] := by
  have hplain : ((empty.apply "A" [(.text "is_region", .bool true),
      (.text "behavior", .text "teleport")]).find? "A").map Tag.behavior = some .plain := by
    decide +kernel
  have hregion : ((empty.apply "A" [(.text "is_region", .bool true)]).find? "A").map
      Tag.behavior = some .region := by
    decide +kernel
  refine ⟨hplain, hregion, fun heq => ?_⟩
  rw [heq, hregion] at hplain
  cases hplain

end Registry

end CommentIndex
