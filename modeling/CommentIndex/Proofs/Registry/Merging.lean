import CommentIndex.Proofs.Registry.Order
import Mathlib.Data.List.DropRight

/-!
# What the settings make of the tags

The entries of the settings are applied one after the other, each to the tag of its name in
whatever case that is written. `Merges` tells what becomes of one tag by the entries of its name:
an entry that turns the tag off forgets all that was set before it, and of the entries behind that
one, the last to set a field decides it, each field for itself. `ofSettings_merges` says so of the
registry of any settings, and how its tags are ordered.
-/

namespace CommentIndex

/-- The fields of a tag besides its name. -/
inductive Tag.Field where
  | behavior
  | scope
  | styleMode
  | highlightColor
  | backgroundColor
  | iconColor
  | borderStyle
  | borderRadius
  | bold
  | italic

/-- What a field holds. -/
def Tag.Field.Content : Tag.Field → Type
  | .behavior => Behavior
  | .scope => Scope
  | .styleMode => StyleMode
  | _ => Value

/-- The content of a field. -/
def Tag.content (tag : Tag) : (field : Tag.Field) → field.Content
  | .behavior => tag.behavior
  | .scope => tag.scope
  | .styleMode => tag.styleMode
  | .highlightColor => tag.highlightColor
  | .backgroundColor => tag.backgroundColor
  | .iconColor => tag.iconColor
  | .borderStyle => tag.borderStyle
  | .borderRadius => tag.borderRadius
  | .bold => tag.bold
  | .italic => tag.italic

/-- The content that a change gives a field, if it sets that field. -/
def TagChange.content? (change : TagChange) : (field : Tag.Field) → Option field.Content
  | .behavior => change.behavior
  | .scope => change.scope
  | .styleMode => change.styleMode
  | .highlightColor => change.highlightColor
  | .backgroundColor => change.backgroundColor
  | .iconColor => change.iconColor
  | .borderStyle => change.borderStyle
  | .borderRadius => change.borderRadius
  | .bold => change.bold
  | .italic => change.italic

/-- A change decides the fields that it sets and no others. -/
theorem TagChange.content_apply (change : TagChange) (name : String) (tag : Tag)
    (field : Tag.Field) :
    (change.apply name tag).content field = (change.content? field).getD (tag.content field) := by
  cases field <;> rfl

/-- A change names the tag. -/
theorem TagChange.key_apply (change : TagChange) (name : String) (tag : Tag) :
    (change.apply name tag).key = Text.upperString name :=
  rfl

/-- A tag of which nothing but the name is given has the same content under every name. -/
theorem Tag.content_unset (first second : String) (field : Tag.Field) :
    ({ name := first } : Tag).content field = ({ name := second } : Tag).content field := by
  cases field <;> rfl

namespace Registry

/-- A name and the fields that are set under it. -/
abbrev Setting := String × List (Value × Value)

/-- What becomes of a tag, if it is there, by an entry of its name. -/
def change (found : Option Tag) (setting : Setting) : Option Tag :=
  if turnsOff setting.2 then none
  else some ((TagChange.ofEntry setting.2).apply setting.1 (found.getD { name := setting.1 }))

/-- The entries of a name, in whatever case it is written. -/
def settingsFor (name : String) (settings : List Setting) : List Setting :=
  settings.filter fun setting => Text.upperString setting.1 = Text.upperString name

/-- The entries behind the last one that turns the tag off. -/
def sinceOff (settings : List Setting) : List Setting :=
  settings.rtakeWhile fun setting => !turnsOff setting.2

/-- The content that the last of the entries to set a field gives it. -/
def lastSet? (field : Tag.Field) (settings : List Setting) : Option field.Content :=
  settings.reverse.findSome? fun setting => (TagChange.ofEntry setting.2).content? field

/-- What the entries of one name make of the tag `before` that is there, or not there, without
them. -/
structure Merges (before : Option Tag) (settings : List Setting) (found : Option Tag) : Prop where
  absent : found = none ↔
    (∃ last ∈ settings.getLast?, turnsOff last.2) ∨ settings = [] ∧ before = none
  name : ∀ tag ∈ found, some tag.name = (settings.getLast?.map Prod.fst).or (before.map Tag.name)
  content : ∀ tag ∈ found, ∀ field, tag.content field =
    (lastSet? field (sinceOff settings)).getD
      (((if settings.any (turnsOff ·.2) then none else before).getD
        { name := tag.name }).content field)

variable {registry : Registry} {log : Log}

/-! ### The entries of one name -/

theorem sinceOff_concat (settings : List Setting) (next : Setting) :
    sinceOff (settings ++ [next]) =
      if turnsOff next.2 then [] else sinceOff settings ++ [next] := by
  unfold sinceOff
  rw [List.rtakeWhile_concat]
  cases turnsOff next.2 <;> rfl

theorem lastSet?_concat (field : Tag.Field) (settings : List Setting) (next : Setting) :
    lastSet? field (settings ++ [next]) =
      ((TagChange.ofEntry next.2).content? field).or (lastSet? field settings) := by
  unfold lastSet?
  rw [List.reverse_append, List.reverse_singleton, List.singleton_append, List.findSome?_cons]
  cases (TagChange.ofEntry next.2).content? field <;> rfl

/-- A tag that is not there starts from nothing: no entry has set anything since it was turned off,
or there have been none. -/
theorem Merges.content_getD {before found : Option Tag} {settings : List Setting}
    (h : Merges before settings found) (name other : String) (field : Tag.Field) :
    (found.getD { name := name }).content field =
      (lastSet? field (sinceOff settings)).getD
        (((if settings.any (turnsOff ·.2) then none else before).getD
          { name := other }).content field) := by
  cases found with
  | some tag =>
      rw [Option.getD_some, h.content tag rfl field]
      congr 1
      cases (if settings.any (turnsOff ·.2) then none else before) with
      | none => exact Tag.content_unset tag.name other field
      | some tag => rfl
  | none =>
      rcases h.absent.mp rfl with ⟨last, hlast, hoff⟩ | ⟨rfl, rfl⟩
      · obtain ⟨earlier, rfl⟩ := List.getLast?_eq_some_iff.mp hlast
        have hany : (earlier ++ [last]).any (turnsOff ·.2) = true := by simp [hoff]
        rw [sinceOff_concat, if_pos hoff, if_pos hany]
        exact Tag.content_unset name other field
      · exact Tag.content_unset name other field

/-- One entry more: it turns the tag off, or it gives the tag its name and decides the fields it
sets. -/
theorem Merges.concat {before found : Option Tag} {settings : List Setting}
    (h : Merges before settings found) (next : Setting) :
    Merges before (settings ++ [next]) (change found next) := by
  unfold change
  split
  · next hoff =>
      exact
        { absent := iff_of_true rfl (.inl ⟨next, List.getLast?_concat, hoff⟩)
          name := fun _ hfound => by contradiction
          content := fun _ hfound => by contradiction }
  · next hon =>
      refine
        { absent := iff_of_false (by simp) ?_
          name := fun tag hfound => ?_
          content := fun tag hfound field => ?_ }
      · rintro (⟨last, hlast, hoff⟩ | ⟨hnil, -⟩)
        · rw [List.getLast?_concat] at hlast
          exact hon (Option.some.inj hlast ▸ hoff)
        · simp at hnil
      · obtain rfl := Option.some.inj hfound
        rw [List.getLast?_concat]
        rfl
      · obtain rfl := Option.some.inj hfound
        rw [TagChange.content_apply, sinceOff_concat, if_neg hon, lastSet?_concat,
          h.content_getD next.1 next.1 field, List.any_append, List.any_cons, List.any_nil,
          Bool.or_false, Bool.eq_false_iff.mpr hon, Bool.or_false]
        cases (TagChange.ofEntry next.2).content? field <;> rfl

/-- Entry by entry, the entries of one name merge into the tag that is there without them. -/
theorem merges_foldl_change (before : Option Tag) (settings : List Setting) :
    Merges before settings (settings.foldl change before) := by
  induction settings using List.reverseRecOn with
  | nil =>
      exact
        { absent := by simp
          name := fun tag (hfound : before = some tag) => by rw [hfound]; rfl
          content := fun tag (hfound : before = some tag) field => by rw [hfound]; rfl }
  | append_singleton settings next ih =>
      rw [List.foldl_append]
      exact ih.concat next

/-! ### One name among the others -/

theorem find?_empty (name : String) : empty.find? name = none :=
  rfl

/-- What is found once a tag has been registered. -/
theorem find?_register (registry : Registry) (tag : Tag) (name : String) :
    (registry.register tag).find? name =
      if Text.upperString name = tag.key then some tag else registry.find? name :=
  KeyedList.find?_insert ..

/-- An entry changes the tag of its name and no other. -/
theorem find?_apply (registry : Registry) (setting : Setting) (name : String) :
    (registry.apply setting.1 setting.2).find? name =
      if Text.upperString setting.1 = Text.upperString name then
        change (registry.find? name) setting
      else registry.find? name := by
  have hown : (registry.apply setting.1 setting.2).find? name =
      if Text.upperString name = Text.upperString setting.1 then
        change (registry.find? setting.1) setting
      else registry.find? name := by
    unfold apply change
    split
    · exact KeyedList.find?_erase ..
    · rw [find?_register, TagChange.key_apply]
  rw [hown]
  by_cases hname : Text.upperString setting.1 = Text.upperString name
  · have hsame : registry.find? setting.1 = registry.find? name :=
      congrArg registry.tags.find? hname
    rw [if_pos hname.symm, if_pos hname, hsame]
  · rw [if_neg (Ne.symm hname), if_neg hname]

/-- The entries of a name decide what is found under it. -/
theorem find?_applyAll (registry : Registry) (settings : List Setting) (name : String) :
    (registry.applyAll settings).find? name =
      (settingsFor name settings).foldl change (registry.find? name) := by
  unfold applyAll settingsFor
  rw [List.foldl_filter]
  refine (List.foldl_hom (fun registry : Registry => registry.find? name) ?_).symm
  intro registry setting
  rw [find?_apply]
  simp only [decide_eq_true_eq]

/-- Of tags with different names each is found under its own. -/
theorem find?_foldl_register {tags : List Tag} (hkeys : (tags.map Tag.key).Nodup)
    (registry : Registry) (name : String) :
    (tags.foldl register registry).find? name =
      (tags.find? (·.key = Text.upperString name)).or (registry.find? name) := by
  induction tags generalizing registry with
  | nil => rfl
  | cons tag rest ih =>
      obtain ⟨hkey, hrest⟩ := List.nodup_cons.mp hkeys
      rw [List.foldl_cons, ih hrest, find?_register]
      by_cases hname : tag.key = Text.upperString name
      · have hnone : rest.find? (·.key = Text.upperString name) = none :=
          List.find?_eq_none.mpr fun other hmem heq =>
            hkey (List.mem_map.mpr ⟨other, hmem, (of_decide_eq_true heq).trans hname.symm⟩)
        rw [hnone, if_pos hname.symm, List.find?_cons_of_pos (by simpa using hname)]
        rfl
      · rw [if_neg (Ne.symm hname), List.find?_cons_of_neg (by simpa using hname)]

/-- No two of the standard tags have one name. -/
theorem nodup_standard : (Tag.standard.map Tag.key).Nodup := by
  decide +kernel

/-! ### The order of the tags -/

/-- The tags that are registered one after the other come in in that order. -/
theorem InOrder.foldl_register (h : InOrder log registry) (tags : List Tag) :
    InOrder (log ++ tags.map fun tag => (tag.key, true))
      (tags.foldl Registry.register registry) := by
  induction tags generalizing log registry with
  | nil => simpa using h
  | cons tag rest ih => simpa using ih (h.register tag)

/-- An entry takes its tag out, or it has it come in. -/
theorem InOrder.apply (h : InOrder log registry) (setting : Setting) :
    InOrder (log ++ [(Text.upperString setting.1, !turnsOff setting.2)])
      (registry.apply setting.1 setting.2) := by
  unfold Registry.apply
  split
  · next hoff =>
      rw [hoff]
      exact h.unregister setting.1
  · next hon =>
      rw [Bool.eq_false_iff.mpr hon]
      have hin := h.register ((TagChange.ofEntry setting.2).apply setting.1
        ((registry.find? setting.1).getD { name := setting.1 }))
      rw [TagChange.key_apply] at hin
      exact hin

/-- The entries take out and have come in, one after the other. -/
theorem InOrder.applyAll (h : InOrder log registry) (settings : List Setting) :
    InOrder (log ++ settings.map fun setting => (Text.upperString setting.1, !turnsOff setting.2))
      (registry.applyAll settings) := by
  induction settings generalizing log registry with
  | nil =>
      rw [List.map_nil, List.append_nil]
      exact h
  | cons setting rest ih =>
      have hrest := ih (h.apply setting)
      rw [List.append_assoc] at hrest
      exact hrest

/-- Under a name stands the tag that has the same name in capitals. -/
theorem InOrder.find?_eq_some_iff (h : InOrder log registry) {name : String} {tag : Tag} :
    registry.find? name = some tag ↔
      tag ∈ registry.toList ∧ tag.key = Text.upperString name := by
  unfold Registry.find?
  rw [KeyedList.find?_eq_some_iff h.nodup]
  unfold toList KeyedList.values
  constructor
  · intro hmem
    have hkey := h.keyed (Text.upperString name, tag) hmem
    exact ⟨List.mem_map_of_mem hmem, hkey⟩
  · rintro ⟨hmem, hkey⟩
    obtain ⟨entry, hentry, rfl⟩ := List.mem_map.mp hmem
    rw [← hkey, h.keyed entry hentry]
    exact hentry

/-- The tags are those that are found under their own names. -/
theorem InOrder.mem_toList_iff (h : InOrder log registry) (tag : Tag) :
    tag ∈ registry.toList ↔ registry.find? tag.name = some tag := by
  rw [h.find?_eq_some_iff]
  exact (and_iff_left rfl).symm

/-- Each name stands by itself in the registry of any settings: its tag is what the entries of the
name make, in turn, of the standard tag of that name. The tags are those that are found under their
own names, no two have one name, and they stand in the order in which, of the standard tags and then
the entries, they first came in since they were last turned off. -/
theorem ofSettings_merges (listedLayer : List Value) (keyedLayer : List (Value × Value)) :
    let settings := listedLayer.filterMap listed? ++ keyedLayer.map keyed
    let registry := ofSettings listedLayer keyedLayer
    let log : Log := Tag.standard.map (fun tag => (tag.key, true)) ++
      settings.map fun setting => (Text.upperString setting.1, !turnsOff setting.2)
    (∀ name, Merges (Tag.standard.find? (·.key = Text.upperString name))
      (settingsFor name settings) (registry.find? name)) ∧
    (∀ tag, tag ∈ registry.toList ↔ registry.find? tag.name = some tag) ∧
    (registry.toList.map Tag.key).Nodup ∧
    ∃ places : List (String × Nat), places.map Prod.fst = registry.toList.map Tag.key ∧
      (places.map Prod.snd).Pairwise (· < ·) ∧ ∀ place ∈ places, log.Enters place.1 place.2 := by
  intro settings registry log
  have horder : InOrder log registry :=
    (inOrder_empty.foldl_register Tag.standard).applyAll settings
  refine ⟨fun name => ?_, horder.mem_toList_iff, horder.keys ▸ horder.nodup,
    horder.keys ▸ horder.places⟩
  have hfind : registry.find? name = (settingsFor name settings).foldl change
      (Tag.standard.find? (·.key = Text.upperString name)) := by
    refine (find?_applyAll (ofTags Tag.standard) settings name).trans ?_
    rw [ofTags, find?_foldl_register nodup_standard, find?_empty, Option.or_none]
  rw [hfind]
  exact merges_foldl_change _ _

end Registry

end CommentIndex
