import CommentIndex.Proofs.Cache.Holders

/-!
# Files that are being read

A replacement puts an empty outline in place before it begins to read. So long as readings begin in
no other way, every file that is being read has an outline, and a reading that ends leaves each file
with an outline or without one, as it was. `Tidy` says so of the readings since a ticket: what began
before may have begun in any way (`tidy_run`).
-/

namespace CommentIndex.Traffic

variable {file : Path → Path} {base : Nat} {cache : Cache} {path : Path}

/-- A sound cache in which every file has an outline that has been read since the ticket `base`. -/
structure Tidy (file : Path → Path) (base : Nat) (cache : Cache) : Prop where
  sound : Sound file cache
  since : base ≤ cache.issued
  reading : ∀ path ticket, cache.inFlight.find? path = some ticket → base < ticket →
    (cache.holders.find? (file path)).isSome

/-- In a sound cache the files with an outline are those with a holder. -/
theorem Sound.isSome_lookup (h : Sound file cache) (item : Path) :
    (cache.lookup? item).isSome = (cache.holders.find? item).isSome := by
  unfold Cache.lookup?
  cases hholder : cache.holders.find? item with
  | none => rfl
  | some holder => exact h.kept item holder hholder

/-- A file that is displaced has an outline. -/
theorem lookup_displace (cache : Cache) (path item : Path) :
    (cache.displace path item).lookup? item = some .empty := by
  unfold Cache.lookup?
  rw [Cache.holder_displace, if_pos rfl, Option.bind_some, Cache.outline_displace, if_pos rfl]

/-- A replacement begins with an outline. -/
theorem Tidy.replace (h : Tidy file base cache) (path : Path) :
    Tidy file base ((cache.displace path (file path)).issue path) where
  sound :=
    have hdisplaced := h.sound.displace path
    ⟨hdisplaced.distinct, hdisplaced.names, hdisplaced.kept⟩
  since := Nat.le_succ_of_le h.since
  reading := by
    intro other ticket hflight hsince
    show ((cache.displace path (file path)).holders.find? (file other)).isSome
    rw [Cache.inFlight_issue] at hflight
    rw [Cache.holder_displace]
    split at hflight
    · next hsame => rw [hsame, if_pos rfl]; rfl
    · split
      · rfl
      · exact h.reading other ticket hflight hsince

/-- When a reading ends, every file has a holder that had one, and no other. -/
theorem Tidy.isSome_holder_ended (h : Tidy file base cache) {attempt : Attempt}
    (hsince : base < attempt.ticket) (result : Option Outline) (item : Path) :
    ((ended file cache attempt result).holders.find? item).isSome =
      (cache.holders.find? item).isSome := by
  by_cases hcurrent : cache.inFlight.find? attempt.path = some attempt.ticket
  · cases result with
    | none => rw [ended, Cache.holders_giveUp]
    | some outline =>
        rw [ended, Cache.holder_land_of_current hcurrent]
        split
        -- The file that gets a holder had one: it is being read.
        · next hitem => rw [hitem, h.reading _ _ hcurrent hsince]; rfl
        · rfl
  · rw [ended_of_not_current hcurrent]

/-- When a reading ends, nothing is being read that was not. -/
theorem inFlight_of_ended {attempt : Attempt} {result : Option Outline} {ticket : Nat}
    (h : (ended file cache attempt result).inFlight.find? path = some ticket) :
    cache.inFlight.find? path = some ticket := by
  by_cases hcurrent : cache.inFlight.find? attempt.path = some attempt.ticket
  · rw [inFlight_ended_of_current hcurrent, KeyedList.find?_erase] at h
    split at h
    · contradiction
    · exact h
  · rw [ended_of_not_current hcurrent] at h
    exact h

/-- A cache stays tidy when a reading ends. -/
theorem Tidy.ended (h : Tidy file base cache) {attempt : Attempt} (hsince : base < attempt.ticket)
    (result : Option Outline) : Tidy file base (ended file cache attempt result) where
  sound := h.sound.ended attempt result
  since := by
    rw [issued_ended]
    exact h.since
  reading := by
    intro other ticket hflight hlater
    rw [h.isSome_holder_ended hsince]
    exact h.reading other ticket (inFlight_of_ended hflight) hlater

/-- When a reading ends, every file has an outline that had one, and no other. -/
theorem Tidy.isSome_lookup_ended (h : Tidy file base cache) {attempt : Attempt}
    (hsince : base < attempt.ticket) (result : Option Outline) (item : Path) :
    ((Traffic.ended file cache attempt result).lookup? item).isSome =
      (cache.lookup? item).isSome := by
  rw [(h.ended hsince result).sound.isSome_lookup, h.isSome_holder_ended hsince,
    h.sound.isSome_lookup]

/-- Nothing is being read in a cache that was cleared. -/
theorem Tidy.clear (h : Tidy file base cache) : Tidy file base cache.clear where
  sound := sound_empty file cache.issued
  since := h.since
  reading := fun _ _ hflight => by contradiction

/-! ## Readings since now -/

/-- No ticket is in flight that has not been given out. -/
def Given (cache : Cache) : Prop :=
  ∀ path ticket, cache.inFlight.find? path = some ticket → ticket ≤ cache.issued

/-- A ticket that is given out is in flight. -/
theorem Given.issue (h : Given cache) (path : Path) : Given (cache.issue path) := by
  intro other ticket hflight
  show ticket ≤ cache.nextTicket
  rw [Cache.inFlight_issue] at hflight
  split at hflight
  · exact Nat.le_of_eq (Option.some.inj hflight).symm
  · exact Nat.le_succ_of_le (h other ticket hflight)

/-- Every step gives out the tickets that it puts in flight. -/
theorem Given.step {traffic : Traffic} (h : Given traffic.cache) (next : Step) :
    Given (traffic.step file next).cache := by
  cases next with
  | replace path =>
      have hdisplaced : Given (traffic.cache.displace path (file path)) := h
      exact hdisplaced.issue path
  | displace path => exact h
  | refresh path => exact h.issue _
  | remove path =>
      intro other ticket hflight
      change (traffic.cache.remove path (file path)).inFlight.find? other = some ticket at hflight
      rw [Cache.inFlight_remove] at hflight
      split at hflight
      · contradiction
      · exact h other ticket hflight
  | clear => exact fun _ _ hflight => by contradiction
  | finish ticket result =>
      rcases step_finish_cases file traffic ticket result with
        ⟨attempt, -, -, hstep⟩ | ⟨-, hstep⟩
      · rw [hstep]
        intro other later hflight
        exact (issued_ended ..).symm ▸ h other later (inFlight_of_ended hflight)
      · rw [hstep]
        exact h

/-- However the steps come, the cache is tidy as to what begins from then on. -/
theorem tidy_run (file : Path → Path) (steps : List Step) :
    Tidy file (run file {} steps).cache.issued (run file {} steps).cache where
  sound := sound_run file steps
  since := Nat.le_refl _
  reading := by
    have hgiven : Given (run file {} steps).cache :=
      run_induction (fun traffic => Given traffic.cache) (fun _ next h => h.step next)
        (fun _ _ hflight => by contradiction) steps
    intro path ticket hflight hsince
    exact absurd (hgiven path ticket hflight) (Nat.not_le.mpr hsince)

end CommentIndex.Traffic
