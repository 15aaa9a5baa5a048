import CommentIndex.Proofs.Cache.Holders

/-!
# Steps about other files

A step that does not concern a file leaves everything as it is that is known of it: its holder, the
outlines and tickets of its paths, and its readings under way. The main statement is
`sameFor_step`. It rests on the soundness of the cache, by which a step cannot reach the paths of
one file through another.
-/

namespace CommentIndex.Traffic

variable {file : Path → Path} {item : Path} {traffic : Traffic}

/-- A step is about a file. -/
def Concerns (file : Path → Path) (item : Path) (traffic : Traffic) : Step → Prop
  | .replace path | .displace path | .refresh path | .remove path => file path = item
  | .clear => True
  | .finish ticket _ =>
    ∃ attempt ∈ traffic.underWay, attempt.ticket = ticket ∧ file attempt.path = item

/-- `Concerns` is decided by comparing files. -/
instance Concerns.decidable (file : Path → Path) (item : Path) (traffic : Traffic) :
    ∀ next, Decidable (Concerns file item traffic next)
  | .replace _ | .displace _ | .refresh _ | .remove _ => inferInstanceAs (Decidable (_ = _))
  | .clear => isTrue trivial
  | .finish ticket _ =>
    inferInstanceAs (Decidable (∃ attempt ∈ traffic.underWay,
      attempt.ticket = ticket ∧ file attempt.path = item))

/-- What is known of a file is the same in two states. -/
structure SameFor (file : Path → Path) (item : Path) (traffic after : Traffic) : Prop where
  holder : after.cache.holders.find? item = traffic.cache.holders.find? item
  outline : ∀ path, file path = item →
    after.cache.outlines.find? path = traffic.cache.outlines.find? path
  inFlight : ∀ path, file path = item →
    after.cache.inFlight.find? path = traffic.cache.inFlight.find? path
  underWay : ∀ attempt, file attempt.path = item →
    (attempt ∈ after.underWay ↔ attempt ∈ traffic.underWay)

/-- The beginning of a reading changes nothing for other files. -/
theorem sameFor_start {path : Path} (hfile : file path ≠ item) (before : Option Outline)
    (replaces : Bool) : SameFor file item traffic (traffic.start path before replaces) where
  holder := rfl
  outline := fun _ _ => rfl
  inFlight := by
    intro other hother
    have hne : other ≠ path := fun heq => hfile (heq ▸ hother)
    exact (Cache.inFlight_issue ..).trans (if_neg hne)
  underWay := by
    intro attempt hattempt
    refine mem_underWay_start.trans (or_iff_left ?_)
    rintro rfl
    exact hfile hattempt

/-- A displaced file changes nothing for other files. -/
theorem sameFor_displace (hsound : Sound file traffic.cache) {path : Path}
    (hfile : file path ≠ item) :
    SameFor file item traffic
      { traffic with cache := traffic.cache.displace path (file path) } where
  holder := by rw [Cache.holder_displace, if_neg (Ne.symm hfile)]
  outline := by
    rintro other rfl
    have hne : other ≠ path := fun heq => hfile (heq ▸ rfl)
    rw [Cache.outline_displace, if_neg hne, if_neg (hsound.holder_ne (Ne.symm hfile))]
  inFlight := fun _ _ => rfl
  underWay := fun _ _ => Iff.rfl

/-- A removed path changes nothing for other files. -/
theorem sameFor_remove (hsound : Sound file traffic.cache) {path : Path}
    (hfile : file path ≠ item) :
    SameFor file item traffic { traffic with cache := traffic.cache.remove path (file path) } where
  holder := by rw [Cache.holder_remove, if_neg (Ne.symm hfile)]
  outline := by
    rintro other rfl
    have hne : other ≠ path := fun heq => hfile (heq ▸ rfl)
    rw [Cache.outline_remove, if_neg (not_or.mpr ⟨hne, hsound.holder_ne (Ne.symm hfile)⟩)]
  inFlight := by
    rintro other rfl
    have hne : other ≠ path := fun heq => hfile (heq ▸ rfl)
    rw [Cache.inFlight_remove, if_neg (not_or.mpr ⟨hne, hsound.holder_ne (Ne.symm hfile)⟩)]
  underWay := fun _ _ => Iff.rfl

/-- The end of a reading changes nothing for other files. -/
theorem sameFor_finish (horderly : traffic.Orderly) {attempt : Attempt}
    (hmem : attempt ∈ traffic.underWay) (hfile : file attempt.path ≠ item)
    (result : Option Outline) :
    SameFor file item traffic (traffic.finish file attempt result) := by
  have hunderWay : ∀ other : Attempt, file other.path = item →
      (other ∈ (traffic.finish file attempt result).underWay ↔ other ∈ traffic.underWay) := by
    intro other hother
    refine mem_underWay_finish.trans (and_iff_left_of_imp fun h hticket => hfile ?_)
    -- A reading of this file with the ticket of the one that ends would be that one.
    rwa [← List.inj_on_of_nodup_map horderly.distinct h hmem hticket]
  have hpath : ∀ path, file path = item → path ≠ attempt.path :=
    fun path hpath heq => hfile (heq ▸ hpath)
  by_cases hcurrent : traffic.cache.inFlight.find? attempt.path = some attempt.ticket
  · have hinFlight : ∀ path, file path = item →
        (traffic.finish file attempt result).cache.inFlight.find? path =
          traffic.cache.inFlight.find? path := by
      intro path hitem
      unfold finish
      rw [inFlight_ended_of_current hcurrent, KeyedList.find?_erase_ne _ (hpath path hitem)]
    cases result with
    | none =>
        refine ⟨?_, fun path hitem => ?_, hinFlight, hunderWay⟩
        · simp [finish, ended]
        · exact (Cache.outline_giveUp_of_current hcurrent ..).trans (if_neg (hpath path hitem))
    | some outline =>
        refine ⟨?_, fun path hitem => ?_, hinFlight, hunderWay⟩
        · exact (Cache.holder_land_of_current hcurrent ..).trans (if_neg (Ne.symm hfile))
        · exact (Cache.outline_land_of_current hcurrent ..).trans (if_neg (hpath path hitem))
  · have hcache : (traffic.finish file attempt result).cache = traffic.cache :=
      cache_finish_of_not_current hcurrent result
    exact ⟨by rw [hcache], fun _ _ => by rw [hcache], fun _ _ => by rw [hcache], hunderWay⟩

/-- What is the same in a second state and a third one is the same in the first one. -/
theorem SameFor.trans {middle after : Traffic} (h : SameFor file item traffic middle)
    (hafter : SameFor file item middle after) : SameFor file item traffic after where
  holder := hafter.holder.trans h.holder
  outline := fun path hpath => (hafter.outline path hpath).trans (h.outline path hpath)
  inFlight := fun path hpath => (hafter.inFlight path hpath).trans (h.inFlight path hpath)
  underWay := fun attempt hattempt =>
    (hafter.underWay attempt hattempt).trans (h.underWay attempt hattempt)

/-- A step that does not concern a file leaves everything that is known of it. -/
theorem sameFor_step (horderly : traffic.Orderly) (hsound : Sound file traffic.cache) {next : Step}
    (h : ¬ Concerns file item traffic next) :
    SameFor file item traffic (traffic.step file next) := by
  cases next with
  | replace path => exact (sameFor_displace hsound h).trans (sameFor_start h ..)
  | displace path => exact sameFor_displace hsound h
  | refresh path =>
      exact sameFor_start (fun heq => h ((hsound.file_holderOr path).symm.trans heq)) ..
  | remove path => exact sameFor_remove hsound h
  | clear => exact absurd trivial h
  | finish ticket result =>
      rcases step_finish_cases file traffic ticket result with
        ⟨attempt, hmem, rfl, hstep⟩ | ⟨-, hstep⟩
      · rw [hstep]
        exact sameFor_finish horderly hmem (fun heq => h ⟨attempt, hmem, rfl, heq⟩) result
      · rw [hstep]
        exact ⟨rfl, fun _ _ => rfl, fun _ _ => rfl, fun _ _ => Iff.rfl⟩

end CommentIndex.Traffic
