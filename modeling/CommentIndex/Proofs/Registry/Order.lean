import CommentIndex.Registry

/-!
# The order of a registry

The tags of a registry stand in the order in which they have come in since they were last taken
out. `Log` tells what comes in and what is taken out, by the names in capitals; `Log.Enters` says
where in it a tag has come in to stay, and `Registry.InOrder` is what registering a tag
(`InOrder.register`) and taking one out (`InOrder.unregister`) keep.
-/

namespace CommentIndex

/-- The names in capitals of the tags that come in or, with `false`, are taken out. -/
abbrev Log := List (String × Bool)

namespace Log

/-- The tag of a name comes in for the first time since it was last taken out. -/
structure Enters (log : Log) (key : String) (place : Nat) : Prop where
  comesIn : log[place]? = some (key, true)
  stays : ∀ later : Nat, place < later → log[later]? ≠ some (key, false)
  first : ∀ earlier : Nat, earlier < place → log[earlier]? = some (key, true) →
    ∃ later : Nat, earlier < later ∧ log[later]? = some (key, false)

/-- The tag of a name has never come in, or it has been taken out since. -/
def Lacks (log : Log) (key : String) : Prop :=
  ∀ place : Nat, log[place]? = some (key, true) →
    ∃ later : Nat, place < later ∧ log[later]? = some (key, false)

variable {log : Log} {key other : String} {place : Nat} {comesIn : Bool}

/-- What is told next is told behind all else. -/
theorem getElem?_concat_eq_some {entry next : String × Bool} :
    (log ++ [next])[place]? = some entry ↔
      log[place]? = some entry ∨ place = log.length ∧ next = entry := by
  rcases Nat.lt_trichotomy place log.length with hlt | heq | hgt
  · rw [List.getElem?_append_left hlt]
    exact ⟨.inl, fun h => h.resolve_right fun hplace => Nat.ne_of_lt hlt hplace.1⟩
  · subst heq
    rw [List.getElem?_concat_length, List.getElem?_eq_none (Nat.le_refl _)]
    simp
  · rw [List.getElem?_eq_none (by rw [List.length_append]; exact hgt),
      List.getElem?_eq_none (Nat.le_of_lt hgt)]
    simp [Nat.ne_of_gt hgt]

/-- A tag that is not taken out next stays where it came in. -/
theorem Enters.concat (h : log.Enters key place) {next : String × Bool}
    (hnext : next ≠ (key, false)) : Enters (log ++ [next]) key place where
  comesIn := getElem?_concat_eq_some.mpr (.inl h.comesIn)
  stays := fun later hlater hout => by
    rcases getElem?_concat_eq_some.mp hout with hout | ⟨-, hout⟩
    · exact h.stays later hlater hout
    · exact hnext hout
  first := fun earlier hearlier hin => by
    rcases getElem?_concat_eq_some.mp hin with hin | ⟨rfl, -⟩
    · obtain ⟨later, hlater, hout⟩ := h.first earlier hearlier hin
      exact ⟨later, hlater, getElem?_concat_eq_some.mpr (.inl hout)⟩
    · have := (List.getElem?_eq_some_iff.mp h.comesIn).1
      omega

/-- A tag that is not there comes in next. -/
theorem Lacks.enters (h : log.Lacks key) : Enters (log ++ [(key, true)]) key log.length where
  comesIn := List.getElem?_concat_length
  stays := fun later hlater hout => by
    rw [List.getElem?_eq_none (by rw [List.length_append]; exact hlater)] at hout
    contradiction
  first := fun earlier hearlier hin => by
    rw [List.getElem?_append_left hearlier] at hin
    obtain ⟨later, hlater, hout⟩ := h earlier hin
    exact ⟨later, hlater, getElem?_concat_eq_some.mpr (.inl hout)⟩

/-- A tag that does not come in next is not there after it either. -/
theorem Lacks.concat (h : log.Lacks key) {next : String × Bool} (hnext : next ≠ (key, true)) :
    Lacks (log ++ [next]) key := by
  intro place hin
  rcases getElem?_concat_eq_some.mp hin with hin | ⟨-, hin⟩
  · obtain ⟨later, hlater, hout⟩ := h place hin
    exact ⟨later, hlater, getElem?_concat_eq_some.mpr (.inl hout)⟩
  · exact absurd hin hnext

/-- A tag that is taken out is not there. -/
theorem lacks_concat_out (log : Log) (key : String) : Lacks (log ++ [(key, false)]) key := by
  intro place hin
  refine ⟨log.length, ?_, List.getElem?_concat_length⟩
  rcases getElem?_concat_eq_some.mp hin with hin | ⟨-, hin⟩
  · exact (List.getElem?_eq_some_iff.mp hin).1
  · simp at hin

end Log

namespace Registry

/-- A registry in which each tag stands under its name in capitals, those of them that a log has let
in and not taken out, in the order in which it has let them in. -/
structure InOrder (log : Log) (registry : Registry) : Prop where
  keyed : ∀ entry ∈ registry.tags.entries, entry.2.key = entry.1
  nodup : registry.tags.keys.Nodup
  places : ∃ places : List (String × Nat), places.map Prod.fst = registry.tags.keys ∧
    (places.map Prod.snd).Pairwise (· < ·) ∧ ∀ place ∈ places, log.Enters place.1 place.2
  lacks : ∀ key, key ∉ registry.tags.keys → log.Lacks key

variable {log : Log} {registry : Registry}

/-- The names in capitals of the tags are those under which they stand. -/
theorem InOrder.keys (h : InOrder log registry) :
    registry.toList.map Tag.key = registry.tags.keys := by
  unfold toList KeyedList.values KeyedList.keys
  rw [List.map_map]
  exact List.map_congr_left h.keyed

theorem inOrder_empty : InOrder [] empty where
  keyed := fun _ hmem => absurd hmem List.not_mem_nil
  nodup := .nil
  places := ⟨[], rfl, .nil, fun _ hmem => absurd hmem List.not_mem_nil⟩
  lacks := fun _ _ _ hin => by contradiction

/-- A tag is registered: it stays where it is, or it comes in behind all others. -/
theorem InOrder.register (h : InOrder log registry) (tag : Tag) :
    InOrder (log ++ [(tag.key, true)]) (registry.register tag) where
  keyed := fun entry hmem => by
    rcases KeyedList.mem_insertIn hmem with rfl | hmem
    · rfl
    · exact h.keyed entry hmem
  nodup := KeyedList.nodup_keys_insert h.nodup _ _
  places := by
    obtain ⟨places, hkeys, hsorted, henters⟩ := h.places
    have hstay : ∀ place ∈ places, Log.Enters (log ++ [(tag.key, true)]) place.1 place.2 :=
      fun place hmem => (henters place hmem).concat (by simp)
    unfold Registry.register
    rw [KeyedList.keys_insert]
    split
    · exact ⟨places, hkeys, hsorted, hstay⟩
    · next hnew =>
        refine ⟨places ++ [(tag.key, log.length)], by simp [hkeys], ?_, ?_⟩
        · rw [List.map_append]
          refine List.pairwise_append.mpr
            ⟨hsorted, by simp, fun earlier hearlier later hlater => ?_⟩
          obtain ⟨place, hmem, rfl⟩ := List.mem_map.mp hearlier
          obtain rfl : later = log.length := by simpa using hlater
          exact (List.getElem?_eq_some_iff.mp (henters place hmem).comesIn).1
        · intro place hmem
          rcases List.mem_append.mp hmem with hmem | hmem
          · exact hstay place hmem
          · rw [List.mem_singleton.mp hmem]
            exact (h.lacks tag.key hnew).enters
  lacks := fun key hkey => by
    unfold Registry.register at hkey
    rw [KeyedList.keys_insert] at hkey
    have hne : key ≠ tag.key := by
      rintro rfl
      split at hkey
      · next hmem => exact hkey hmem
      · exact hkey (by simp)
    refine (h.lacks key fun hmem => hkey ?_).concat (by simp [Ne.symm hne])
    split
    · exact hmem
    · exact List.mem_append_left _ hmem

/-- A tag is taken out: the others stay where they are. -/
theorem InOrder.unregister (h : InOrder log registry) (name : String) :
    InOrder (log ++ [(Text.upperString name, false)]) (registry.unregister name) where
  keyed := fun entry hmem => h.keyed entry (List.mem_filter.mp hmem).1
  nodup := KeyedList.nodup_keys_erase h.nodup _
  places := by
    obtain ⟨places, hkeys, hsorted, henters⟩ := h.places
    refine ⟨places.filter (·.1 ≠ Text.upperString name), ?_, ?_, fun place hmem => ?_⟩
    · unfold Registry.unregister
      rw [KeyedList.keys_erase, ← hkeys, List.filter_map]
      rfl
    · exact hsorted.sublist (List.filter_sublist.map Prod.snd)
    · obtain ⟨hmem, hne⟩ := List.mem_filter.mp hmem
      exact (henters place hmem).concat fun heq => of_decide_eq_true hne (Prod.mk.inj heq).1.symm
  lacks := fun key hkey => by
    by_cases hname : key = Text.upperString name
    · subst hname
      exact Log.lacks_concat_out log _
    · refine (h.lacks key fun hmem => hkey ?_).concat (by simp)
      unfold Registry.unregister
      rw [KeyedList.keys_erase]
      exact List.mem_filter.mpr ⟨hmem, decide_eq_true hname⟩

end Registry

end CommentIndex
