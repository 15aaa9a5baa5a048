import CommentIndex.Proofs.Cache.Lookup

/-!
# A cache since it was cleared

Once a cache has been cleared, no reading that began before is the latest of its path, and it stays
so. If also the readings that begin from then on find outlines of some kind only, then all outlines
of the cache are of that kind: `Renewed` says both, and it holds again after each operation.
-/

namespace CommentIndex.Cache

/-- A cache that was cleared when `base` tickets had been given out, and all of whose outlines are
`Allowed`. -/
structure Renewed (Allowed : Outline → Prop) (base : Nat) (cache : Cache) : Prop where
  since : base ≤ cache.issued
  later : ∀ path ticket, cache.inFlight.find? path = some ticket → base < ticket
  allowed : ∀ path outline, cache.outlines.find? path = some outline → Allowed outline

variable {Allowed : Outline → Prop} {base ticket : Nat} {cache : Cache} {path file : Path}
  {outline : Outline}

/-- Nothing is left in a cache that is cleared. -/
theorem renewed_clear (Allowed : Outline → Prop) (cache : Cache) :
    Renewed Allowed cache.issued cache.clear :=
  ⟨Nat.le_refl _, fun _ _ hflight => by contradiction, fun _ _ houtline => by contradiction⟩

/-- A later ticket is not one of those before. -/
theorem Renewed.not_current (h : Renewed Allowed base cache) (hticket : ticket ≤ base)
    (path : Path) : cache.inFlight.find? path ≠ some ticket :=
  fun hflight => Nat.not_le.mpr (h.later path ticket hflight) hticket

/-- The outline of a file is allowed. -/
theorem Renewed.allowed_of_lookup (h : Renewed Allowed base cache)
    (hlookup : cache.lookup? file = some outline) : Allowed outline := by
  obtain ⟨holder, -, houtline⟩ := Option.bind_eq_some_iff.mp hlookup
  exact h.allowed holder outline houtline

/-- A cache that is cleared once more is renewed as before. -/
theorem Renewed.clear (h : Renewed Allowed base cache) : Renewed Allowed base cache.clear :=
  ⟨h.since, fun _ _ hflight => by contradiction, fun _ _ houtline => by contradiction⟩

/-- Displacing a file puts an empty outline in place, and it is allowed. -/
theorem Renewed.displace (h : Renewed Allowed base cache) (hempty : Allowed .empty)
    (path file : Path) : Renewed Allowed base (cache.displace path file) where
  since := h.since
  later := h.later
  allowed := fun other outline houtline => by
    rw [outline_displace] at houtline
    split at houtline
    · exact Option.some.inj houtline ▸ hempty
    · split at houtline
      · contradiction
      · exact h.allowed other outline houtline

/-- A ticket that is given out is a later one. -/
theorem Renewed.issue (h : Renewed Allowed base cache) (path : Path) :
    Renewed Allowed base (cache.issue path) where
  since := Nat.le_succ_of_le h.since
  later := fun other ticket hflight => by
    rw [inFlight_issue] at hflight
    split at hflight
    · exact Option.some.inj hflight ▸ Nat.lt_succ_of_le h.since
    · exact h.later other ticket hflight
  allowed := h.allowed

/-- Removing only takes outlines and readings away. -/
theorem Renewed.remove (h : Renewed Allowed base cache) (path file : Path) :
    Renewed Allowed base (cache.remove path file) where
  since := h.since
  later := fun other ticket hflight => by
    rw [inFlight_remove] at hflight
    split at hflight
    · contradiction
    · exact h.later other ticket hflight
  allowed := fun other outline houtline => by
    rw [outline_remove] at houtline
    split at houtline
    · contradiction
    · exact h.allowed other outline houtline

/-- A reading ends: nothing is in flight that was not. -/
theorem Renewed.settle (h : Renewed Allowed base cache) (path : Path) :
    Renewed Allowed base (cache.settle path) where
  since := h.since
  later := fun other ticket hflight => by
    rw [Cache.settle, KeyedList.find?_erase] at hflight
    split at hflight
    · contradiction
    · exact h.later other ticket hflight
  allowed := h.allowed

/-- A reading may land that began before the cache was cleared, since it does not, or one that has
found an outline that is allowed. -/
theorem Renewed.land (h : Renewed Allowed base cache)
    (hread : ticket ≤ base ∨ Allowed outline) (path file : Path) :
    Renewed Allowed base (cache.land path file ticket outline) := by
  by_cases hcurrent : cache.inFlight.find? path = some ticket
  · have hallowed : Allowed outline :=
      hread.resolve_left fun hold => h.not_current hold path hcurrent
    have hsettled := h.settle path
    rw [land_of_current hcurrent]
    refine ⟨hsettled.since, hsettled.later, fun other found hfound => ?_⟩
    rw [keep, KeyedList.find?_insert] at hfound
    split at hfound
    · exact Option.some.inj hfound ▸ hallowed
    · exact h.allowed other found hfound
  · rwa [land_of_not_current hcurrent]

/-- So may a reading fail. -/
theorem Renewed.giveUp (h : Renewed Allowed base cache) {before : Option Outline}
    (hbefore : ticket ≤ base ∨ ∀ outline, before = some outline → Allowed outline) (path : Path) :
    Renewed Allowed base (cache.giveUp path ticket before) := by
  by_cases hcurrent : cache.inFlight.find? path = some ticket
  · have hallowed := hbefore.resolve_left fun hold => h.not_current hold path hcurrent
    refine ⟨by rw [issued_giveUp]; exact h.since, fun other later hflight => ?_,
      fun other found hfound => ?_⟩
    · rw [inFlight_giveUp_of_current hcurrent] at hflight
      exact (h.settle path).later other later hflight
    · rw [outline_giveUp_of_current hcurrent] at hfound
      split at hfound
      · obtain ⟨kept, hkept, rfl⟩ := Option.map_eq_some_iff.mp hfound
        cases before with
        | none => exact h.allowed path kept hkept
        | some outline => exact hallowed outline rfl
      · exact h.allowed other found hfound
  · rwa [giveUp_of_not_current hcurrent]

end CommentIndex.Cache
