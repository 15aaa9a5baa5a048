import CommentIndex.Cache

/-!
# What a cache holds after each operation

For every operation of a cache, what is found afterwards among the outlines, the holders, and the
readings in flight, in terms of what was found there before. The last part of a name is the
operation, the first one is where it is looked.
-/

namespace CommentIndex.Cache

variable (cache : Cache) (path file other : Path) (ticket : Nat)

/-! ## Keeping and displacing -/

/-- A displaced file has an empty outline under the new path, and none under the old one. -/
theorem outline_displace :
    (cache.displace path file).outlines.find? other =
      if other = path then some .empty
      else if cache.holders.find? file = some other then none
      else cache.outlines.find? other := by
  unfold displace keep
  rw [KeyedList.find?_insert]
  cases hholder : cache.holders.find? file with
  | none => simp
  | some holder =>
      simp only [KeyedList.find?_erase, Option.some.injEq]
      split
      · rfl
      · by_cases h : other = holder
        · simp [h]
        · simp [h, Ne.symm h]

/-- A displaced file is held by the new path. -/
theorem holder_displace :
    (cache.displace path file).holders.find? other =
      if other = file then some path else cache.holders.find? other := by
  unfold displace keep
  rw [KeyedList.find?_insert, KeyedList.find?_erase]
  split <;> rfl

/-- Displacing a file begins and ends no reading. -/
@[simp] theorem inFlight_displace : (cache.displace path file).inFlight = cache.inFlight := rfl

/-- Displacing a file gives out no ticket. -/
@[simp] theorem issued_displace : (cache.displace path file).issued = cache.issued := rfl

/-! ## Removing -/

/-- Removing a path drops the outlines under it and under the holder of its file. -/
theorem outline_remove :
    (cache.remove path file).outlines.find? other =
      if other = path ∨ cache.holders.find? file = some other then none
      else cache.outlines.find? other := by
  unfold remove holderOr
  rw [KeyedList.find?_erase, KeyedList.find?_erase]
  cases cache.holders.find? file with
  | none => by_cases h : other = path <;> simp [h]
  | some holder => by_cases h : other = path <;> by_cases hh : other = holder <;> simp_all [eq_comm]

/-- Removing a path leaves its file without a holder. -/
theorem holder_remove :
    (cache.remove path file).holders.find? other =
      if other = file then none else cache.holders.find? other := by
  unfold remove
  rw [KeyedList.find?_erase]

/-- Removing a path ends the readings under it and under the holder of its file. -/
theorem inFlight_remove :
    (cache.remove path file).inFlight.find? other =
      if other = path ∨ cache.holders.find? file = some other then none
      else cache.inFlight.find? other := by
  unfold remove holderOr
  rw [KeyedList.find?_erase, KeyedList.find?_erase]
  cases cache.holders.find? file with
  | none => by_cases h : other = path <;> simp [h]
  | some holder => by_cases h : other = path <;> by_cases hh : other = holder <;> simp_all [eq_comm]

/-! ## Readings -/

/-- A ticket that is given out is the one in flight for its path. -/
theorem inFlight_issue :
    (cache.issue path).inFlight.find? other =
      if other = path then some cache.nextTicket else cache.inFlight.find? other :=
  KeyedList.find?_insert ..

/-- A reading lands if its ticket is the latest. -/
theorem land_of_current {cache : Cache} {path : Path} {ticket : Nat}
    (h : cache.inFlight.find? path = some ticket) (file : Path) (outline : Outline) :
    cache.land path file ticket outline = (cache.settle path).keep path file outline := by
  simp [land, isCurrent, h]

/-- A reading that lands writes its outline under its path. -/
theorem outline_land_of_current {cache : Cache} {path : Path} {ticket : Nat}
    (h : cache.inFlight.find? path = some ticket) (file : Path) (outline : Outline) (other : Path) :
    (cache.land path file ticket outline).outlines.find? other =
      if other = path then some outline else cache.outlines.find? other := by
  rw [land_of_current h]
  exact KeyedList.find?_insert ..

/-- A reading that lands makes its path the holder of its file. -/
theorem holder_land_of_current {cache : Cache} {path : Path} {ticket : Nat}
    (h : cache.inFlight.find? path = some ticket) (file : Path) (outline : Outline) (other : Path) :
    (cache.land path file ticket outline).holders.find? other =
      if other = file then some path else cache.holders.find? other := by
  rw [land_of_current h]
  exact KeyedList.find?_insert ..

/-- A reading that is not the latest does not land. -/
theorem land_of_not_current {cache : Cache} {path : Path} {ticket : Nat}
    (h : cache.inFlight.find? path ≠ some ticket) (file : Path) (outline : Outline) :
    cache.land path file ticket outline = cache := by
  simp [land, isCurrent, h]

/-- A failed reading that is not the latest changes nothing. -/
theorem giveUp_of_not_current {cache : Cache} {path : Path} {ticket : Nat}
    (h : cache.inFlight.find? path ≠ some ticket) (before : Option Outline) :
    cache.giveUp path ticket before = cache := by
  simp [giveUp, isCurrent, h]

/-- A reading that fails puts what was kept before in the place of what is kept now. -/
theorem outline_giveUp_of_current {cache : Cache} {path : Path} {ticket : Nat}
    (h : cache.inFlight.find? path = some ticket) (before : Option Outline) (other : Path) :
    (cache.giveUp path ticket before).outlines.find? other =
      if other = path then (cache.outlines.find? path).map before.getD
      else cache.outlines.find? other := by
  unfold giveUp isCurrent settle
  cases before with
  | none =>
      by_cases heq : other = path <;> cases houtline : cache.outlines.find? path <;>
        simp [h, heq, houtline]
  | some outline =>
      cases houtline : cache.outlines.find? path with
      | none => by_cases heq : other = path <;> simp [h, heq, houtline, KeyedList.contains]
      | some now => simp [h, houtline, KeyedList.contains, KeyedList.find?_insert]

/-- A reading that fails leaves the same paths with an outline. -/
@[simp] theorem isSome_outline_giveUp (before : Option Outline) :
    ((cache.giveUp path ticket before).outlines.find? other).isSome =
      (cache.outlines.find? other).isSome := by
  by_cases h : cache.inFlight.find? path = some ticket
  · rw [outline_giveUp_of_current h]
    split
    · next heq => rw [heq, Option.isSome_map]
    · rfl
  · rw [giveUp_of_not_current h]

/-- A reading that fails leaves the outlines as they are, or writes under its path. -/
theorem outlines_giveUp (before : Option Outline) :
    (cache.giveUp path ticket before).outlines = cache.outlines ∨
      ∃ outline,
        (cache.giveUp path ticket before).outlines = cache.outlines.insert path outline := by
  unfold giveUp settle
  split
  · cases before with
    | none => exact Or.inl rfl
    | some outline =>
        dsimp only
        split
        · exact Or.inr ⟨outline, rfl⟩
        · exact Or.inl rfl
  · exact Or.inl rfl

/-- A reading that fails is over. -/
theorem inFlight_giveUp_of_current {cache : Cache} {path : Path} {ticket : Nat}
    (h : cache.inFlight.find? path = some ticket) (before : Option Outline) :
    (cache.giveUp path ticket before).inFlight = cache.inFlight.erase path := by
  unfold giveUp isCurrent settle
  cases before with
  | none => simp [h]
  | some outline =>
      simp only [h, decide_true, if_true]
      split <;> rfl

/-- A reading that fails leaves every file with its holder. -/
@[simp] theorem holders_giveUp (before : Option Outline) :
    (cache.giveUp path ticket before).holders = cache.holders := by
  unfold giveUp settle
  cases before with
  | none => split <;> rfl
  | some outline =>
      dsimp only
      split
      · split <;> rfl
      · rfl

/-- A reading that fails gives out no ticket. -/
@[simp] theorem issued_giveUp (before : Option Outline) :
    (cache.giveUp path ticket before).issued = cache.issued := by
  unfold giveUp settle
  cases before with
  | none => split <;> rfl
  | some outline =>
      dsimp only
      split
      · split <;> rfl
      · rfl

/-- A reading that lands gives out no ticket. -/
@[simp] theorem issued_land (outline : Outline) :
    (cache.land path file ticket outline).issued = cache.issued := by
  unfold land
  split <;> rfl

end CommentIndex.Cache
