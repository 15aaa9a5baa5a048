import CommentIndex.Proofs.Cache.Lookup

/-!
# A cache while a file stays as it is

While a file stays as it is, all readings of it that succeed find the same outline, under whatever
path. Then what a cache keeps for the file is that outline or still the empty one, and it stays so:
`Steady` holds again after each operation.
-/

namespace CommentIndex.Cache

/-- A cache in which nothing is kept for a file but the given outline and the empty one. -/
structure Steady (file : Path → Path) (target : Path) (outline : Outline) (cache : Cache) :
    Prop where
  holder : ∀ holder, cache.holders.find? target = some holder → file holder = target
  kept : ∀ path found, file path = target → cache.outlines.find? path = some found →
    found = .empty ∨ found = outline

variable {file : Path → Path} {target path other : Path} {outline found : Outline} {cache : Cache}
  {ticket : Nat}

/-- What is cached for the file is the outline or the empty one. -/
theorem Steady.lookup (h : Steady file target outline cache)
    (hlookup : cache.lookup? target = some found) : found = .empty ∨ found = outline := by
  obtain ⟨holder, hholder, hfound⟩ := Option.bind_eq_some_iff.mp hlookup
  exact h.kept holder found (h.holder holder hholder) hfound

/-- Nothing is kept in a cache that is cleared. -/
theorem steady_clear (file : Path → Path) (target : Path) (outline : Outline) (cache : Cache) :
    Steady file target outline cache.clear :=
  ⟨fun _ hholder => by contradiction, fun _ _ _ hfound => by contradiction⟩

/-- A ticket is given out. -/
theorem Steady.issue (h : Steady file target outline cache) (path : Path) :
    Steady file target outline (cache.issue path) :=
  ⟨h.holder, h.kept⟩

/-- Displacing a file puts the empty outline in place. -/
theorem Steady.displace (h : Steady file target outline cache) (path : Path) :
    Steady file target outline (cache.displace path (file path)) where
  holder := fun holder hholder => by
    rw [holder_displace] at hholder
    split at hholder
    · next hfile => exact Option.some.inj hholder ▸ hfile.symm
    · exact h.holder holder hholder
  kept := fun other found hother hfound => by
    rw [outline_displace] at hfound
    split at hfound
    · exact .inl (Option.some.inj hfound).symm
    · split at hfound
      · contradiction
      · exact h.kept other found hother hfound

/-- Removing only takes away. -/
theorem Steady.remove (h : Steady file target outline cache) (path : Path) :
    Steady file target outline (cache.remove path (file path)) where
  holder := fun holder hholder => by
    rw [holder_remove] at hholder
    split at hholder
    · contradiction
    · exact h.holder holder hholder
  kept := fun other found hother hfound => by
    rw [outline_remove] at hfound
    split at hfound
    · contradiction
    · exact h.kept other found hother hfound

/-- A reading may land that has found the outline, if it is one of the file. -/
theorem Steady.land (h : Steady file target outline cache)
    (hread : file path = target → found = outline) (ticket : Nat) :
    Steady file target outline (cache.land path (file path) ticket found) := by
  by_cases hcurrent : cache.inFlight.find? path = some ticket
  · refine ⟨fun holder hholder => ?_, fun other kept hother hkept => ?_⟩
    · rw [holder_land_of_current hcurrent] at hholder
      split at hholder
      · next hfile => exact Option.some.inj hholder ▸ hfile.symm
      · exact h.holder holder hholder
    · rw [outline_land_of_current hcurrent] at hkept
      split at hkept
      · next hpath =>
          exact .inr ((Option.some.inj hkept).symm.trans (hread (hpath ▸ hother)))
      · exact h.kept other kept hother hkept
  · rwa [land_of_not_current hcurrent]

/-- So may a reading fail, if nothing else was kept for the file when it began. -/
theorem Steady.giveUp (h : Steady file target outline cache) {before : Option Outline}
    (hbefore : file path = target → ∀ found ∈ before, found = .empty ∨ found = outline)
    (ticket : Nat) : Steady file target outline (cache.giveUp path ticket before) := by
  by_cases hcurrent : cache.inFlight.find? path = some ticket
  · refine ⟨fun holder hholder => h.holder holder (by rwa [holders_giveUp] at hholder),
      fun other kept hother hkept => ?_⟩
    rw [outline_giveUp_of_current hcurrent] at hkept
    split at hkept
    · next hpath =>
        subst hpath
        obtain ⟨now, hnow, rfl⟩ := Option.map_eq_some_iff.mp hkept
        cases before with
        | none => exact h.kept other now hother hnow
        | some found => exact hbefore hother found rfl
    · exact h.kept other kept hother hkept
  · rwa [giveUp_of_not_current hcurrent]

/-- What is found for the file once a reading of it has ended that has found the outline. -/
theorem lookup?_land (cache : Cache) (path : Path) (ticket : Nat) (outline : Outline) :
    (cache.land path (file path) ticket outline).lookup? (file path) =
      if cache.isCurrent path ticket then some outline else cache.lookup? (file path) := by
  by_cases hcurrent : cache.inFlight.find? path = some ticket
  · have hlatest : cache.isCurrent path ticket = true := decide_eq_true hcurrent
    rw [if_pos hlatest, lookup?, holder_land_of_current hcurrent, if_pos rfl,
      Option.bind_some, outline_land_of_current hcurrent, if_pos rfl]
  · have hlater : ¬ cache.isCurrent path ticket = true := by simpa [isCurrent] using hcurrent
    rw [if_neg hlater, land_of_not_current hcurrent]

end CommentIndex.Cache
