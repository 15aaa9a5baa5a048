import CommentIndex.Proofs.Cache.Traffic

/-!
# The holders of files

A cache notes for each file the path under which it is kept. However readings overlap, this path
names the file, and there is an outline under it: the cache is `Sound` (`sound_run`). That there is
no other outline of the file does not always hold.
-/

namespace CommentIndex.Traffic

variable {file : Path → Path} {traffic : Traffic} {cache : Cache}

/-- What holds of every cache: a file is held by a path that names it and has an outline. -/
structure Sound (file : Path → Path) (cache : Cache) : Prop where
  distinct : cache.outlines.keys.Nodup
  names : ∀ item path, cache.holders.find? item = some path → file path = item
  kept : ∀ item path, cache.holders.find? item = some path →
    (cache.outlines.find? path).isSome

/-- A sound cache stays sound when a file is displaced. -/
theorem Sound.displace (h : Sound file cache) (path : Path) :
    Sound file (cache.displace path (file path)) where
  distinct := by
    unfold Cache.displace Cache.keep
    cases cache.holders.find? (file path) with
    | none => exact KeyedList.nodup_keys_insert h.distinct ..
    | some holder =>
        exact KeyedList.nodup_keys_insert (KeyedList.nodup_keys_erase h.distinct _) ..
  names := by
    intro item other hholder
    rw [Cache.holder_displace] at hholder
    split at hholder
    · next hitem => rw [hitem, Option.some.inj hholder]
    · exact h.names item other hholder
  kept := by
    intro item other hholder
    rw [Cache.holder_displace] at hholder
    rw [Cache.outline_displace]
    split at hholder
    · rw [if_pos (Option.some.inj hholder).symm]
      rfl
    · next hitem =>
        split
        · rfl
        · split
          · next hholds =>
              -- The path that is dropped held the displaced file, and no path names two files.
              exact absurd ((h.names _ _ hholder).symm.trans (h.names _ _ hholds)) hitem
          · exact h.kept item other hholder

/-- A sound cache stays sound when a path is removed. -/
theorem Sound.remove (h : Sound file cache) (path : Path) :
    Sound file (cache.remove path (file path)) where
  distinct := KeyedList.nodup_keys_erase (KeyedList.nodup_keys_erase h.distinct _) _
  names := by
    intro item other hholder
    rw [Cache.holder_remove] at hholder
    split at hholder
    · contradiction
    · exact h.names item other hholder
  kept := by
    intro item other hholder
    rw [Cache.holder_remove] at hholder
    rw [Cache.outline_remove]
    split at hholder
    · contradiction
    · next hitem =>
        have hnames := h.names item other hholder
        split
        · next hgone =>
            rcases hgone with rfl | hholds
            · exact absurd hnames.symm hitem
            · exact absurd (hnames.symm.trans (h.names _ _ hholds)) hitem
        · exact h.kept item other hholder

/-- A sound cache stays sound when a reading fails. -/
theorem Sound.giveUp (h : Sound file cache) (path : Path) (ticket : Nat)
    (before : Option Outline) : Sound file (cache.giveUp path ticket before) where
  distinct := by
    rcases cache.outlines_giveUp path ticket before with heq | ⟨outline, heq⟩
    · rw [heq]
      exact h.distinct
    · rw [heq]
      exact KeyedList.nodup_keys_insert h.distinct ..
  names := by
    intro item other hholder
    rw [Cache.holders_giveUp] at hholder
    exact h.names item other hholder
  kept := by
    intro item other hholder
    rw [Cache.holders_giveUp] at hholder
    rw [Cache.isSome_outline_giveUp]
    exact h.kept item other hholder

/-- A sound cache stays sound when a reading lands. -/
theorem Sound.land (h : Sound file cache) {path : Path} {ticket : Nat}
    (hcurrent : cache.inFlight.find? path = some ticket) (outline : Outline) :
    Sound file (cache.land path (file path) ticket outline) where
  distinct := by
    rw [Cache.land_of_current hcurrent]
    exact KeyedList.nodup_keys_insert h.distinct ..
  names := by
    intro item other hholder
    rw [Cache.holder_land_of_current hcurrent] at hholder
    split at hholder
    · next hitem => rw [hitem, Option.some.inj hholder]
    · exact h.names item other hholder
  kept := by
    intro item other hholder
    rw [Cache.holder_land_of_current hcurrent] at hholder
    rw [Cache.outline_land_of_current hcurrent]
    split at hholder
    · rw [if_pos (Option.some.inj hholder).symm]
      rfl
    · split
      · rfl
      · exact h.kept item other hholder

/-- A sound cache stays sound when a reading ends. -/
theorem Sound.ended (h : Sound file cache) (attempt : Attempt) (result : Option Outline) :
    Sound file (ended file cache attempt result) := by
  by_cases hcurrent : cache.inFlight.find? attempt.path = some attempt.ticket
  · cases result with
    | none => exact h.giveUp ..
    | some outline => exact h.land hcurrent outline
  · rw [ended_of_not_current hcurrent]
    exact h

/-- Nothing kept is sound. -/
theorem sound_empty (file : Path → Path) (issued : Nat) :
    Sound file { Cache.empty with issued := issued } where
  distinct := List.nodup_nil
  names := by simp [Cache.empty]
  kept := by simp [Cache.empty]

/-- Every step keeps a cache sound. -/
theorem Sound.step (h : Sound file traffic.cache) (next : Step) :
    Sound file (traffic.step file next).cache := by
  cases next with
  | replace path =>
      have hdisplaced := h.displace path
      exact ⟨hdisplaced.distinct, hdisplaced.names, hdisplaced.kept⟩
  | displace path => exact h.displace path
  | refresh path => exact ⟨h.distinct, h.names, h.kept⟩
  | remove path => exact h.remove path
  | clear => exact sound_empty file _
  | finish ticket result =>
      rcases step_finish_cases file traffic ticket result with
        ⟨attempt, -, -, hstep⟩ | ⟨-, hstep⟩
      · rw [hstep]
        exact h.ended attempt result
      · rw [hstep]
        exact h

/-- However the steps come, a file is held by a path that names it and has an outline. -/
theorem sound_run (file : Path → Path) (steps : List Step) :
    Sound file (run file {} steps).cache :=
  run_induction (fun traffic => Sound file traffic.cache) (fun _ next h => h.step next)
    (sound_empty file 0) steps

/-- The path under which a file is read names the file. -/
theorem Sound.file_holderOr (h : Sound file cache) (path : Path) :
    file (cache.holderOr path (file path)) = file path := by
  unfold Cache.holderOr
  cases hholder : cache.holders.find? (file path) with
  | none => rfl
  | some holder => exact h.names _ _ hholder

/-- A path of another file does not hold this one. -/
theorem Sound.holder_ne (h : Sound file cache) {path other : Path}
    (hfile : file other ≠ file path) : cache.holders.find? (file path) ≠ some other :=
  fun hholder => hfile (h.names _ _ hholder)

end CommentIndex.Traffic
