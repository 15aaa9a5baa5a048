import CommentIndex.Debouncer
import Mathlib.Data.List.Nodup

/-!
# The timer of the latest request

Every request starts a timer with a number of its own (`Numbered`), so at most one timer is that of
the latest request. `latest?` is the time at which it expires: what is going to run if nothing comes
between.
-/

namespace CommentIndex

namespace Debouncer

variable {τ : Type}

/-- The time at which the timer of the latest request expires, unless it has expired. -/
def latest? (debouncer : Debouncer τ) : Option τ :=
  (debouncer.timers.find? debouncer.isCurrent).map Timer.due

/-- Every timer is of a request of its own. -/
structure Numbered (debouncer : Debouncer τ) : Prop where
  distinct : (debouncer.timers.map Timer.generation).Nodup
  given : ∀ timer ∈ debouncer.timers, timer.generation ≤ debouncer.generation

variable {debouncer after : Debouncer τ} {timer : Timer τ}

/-- The latest request is that of a timer with its number. -/
theorem Numbered.latest?_eq_some_iff (h : debouncer.Numbered) {due : τ} :
    debouncer.latest? = some due ↔
      ∃ timer ∈ debouncer.timers, debouncer.isCurrent timer ∧ timer.due = due := by
  unfold latest?
  rw [Option.map_eq_some_iff]
  constructor
  · rintro ⟨timer, hfind, rfl⟩
    exact ⟨timer, List.mem_of_find?_eq_some hfind, List.find?_some hfind, rfl⟩
  · rintro ⟨timer, hmem, hcurrent, rfl⟩
    refine ⟨timer, ?_, rfl⟩
    cases hfind : debouncer.timers.find? debouncer.isCurrent with
    | none => exact absurd hcurrent (List.find?_eq_none.mp hfind timer hmem)
    | some found =>
        -- Both have the number of the latest request.
        have hfound := List.find?_some hfind
        have hsame : found.generation = timer.generation := by
          simp only [isCurrent, decide_eq_true_eq] at hfound hcurrent
          exact hfound.trans hcurrent.symm
        rw [List.inj_on_of_nodup_map h.distinct (List.mem_of_find?_eq_some hfind) hmem hsame]

/-- Without a timer of the latest request, nothing is going to run. -/
theorem latest?_eq_none_iff :
    debouncer.latest? = none ↔ ∀ timer ∈ debouncer.timers, ¬ debouncer.isCurrent timer := by
  rw [latest?, Option.map_eq_none_iff, List.find?_eq_none]

/-- Once a timer is taken out, the others are numbered. -/
theorem Numbered.of_perm (h : debouncer.Numbered)
    (hperm : debouncer.timers.Perm (timer :: after.timers))
    (hgeneration : after.generation = debouncer.generation) : after.Numbered where
  distinct := by
    have hdistinct := (hperm.map Timer.generation).nodup_iff.mp h.distinct
    exact (List.nodup_cons.mp hdistinct).2
  given := fun other hother =>
    hgeneration ▸ h.given other (hperm.mem_iff.mpr (List.mem_cons_of_mem _ hother))

/-- The timer that is taken out is that of the latest request, or it is not the one that counts. -/
theorem Numbered.latest?_of_perm (h : debouncer.Numbered)
    (hperm : debouncer.timers.Perm (timer :: after.timers))
    (hgeneration : after.generation = debouncer.generation) :
    if after.isCurrent timer then debouncer.latest? = some timer.due ∧ after.latest? = none
    else debouncer.latest? = after.latest? := by
  have hcurrent (other : Timer τ) : debouncer.isCurrent other = after.isCurrent other := by
    simp only [isCurrent, hgeneration]
  have hafter := h.of_perm hperm hgeneration
  split
  · next htimer =>
      constructor
      · refine h.latest?_eq_some_iff.mpr ⟨timer, hperm.mem_iff.mpr List.mem_cons_self, ?_, rfl⟩
        rw [hcurrent, htimer]
      · refine latest?_eq_none_iff.mpr fun other hother hlatest => ?_
        have hdistinct := (hperm.map Timer.generation).nodup_iff.mp h.distinct
        refine (List.nodup_cons.mp hdistinct).1 (List.mem_map.mpr ⟨other, hother, ?_⟩)
        simp only [isCurrent, decide_eq_true_eq] at htimer hlatest
        exact hlatest.trans htimer.symm
  · next htimer =>
      refine Option.ext fun due => ?_
      rw [h.latest?_eq_some_iff, hafter.latest?_eq_some_iff]
      simp only [hperm.mem_iff, List.mem_cons, hcurrent]
      constructor
      · rintro ⟨other, rfl | hother, hlatest, rfl⟩
        · contradiction
        · exact ⟨other, hother, hlatest, rfl⟩
      · rintro ⟨other, hother, hlatest, rfl⟩
        exact ⟨other, .inr hother, hlatest, rfl⟩

/-- A cancellation leaves the timers numbered. -/
theorem Numbered.cancel (h : debouncer.Numbered) : debouncer.cancel.Numbered where
  distinct := h.distinct
  given := fun timer hmem => Nat.le_succ_of_le (h.given timer hmem)

/-- A request gets a number of its own. -/
theorem Numbered.schedule [OfNat τ 0] [Add τ] [LE τ] [DecidableLE τ] (h : debouncer.Numbered)
    (now : τ) : (debouncer.schedule now).Numbered where
  distinct := by
    simp only [Debouncer.schedule, List.map_append, List.map_cons, List.map_nil]
    refine List.nodup_append.mpr ⟨h.distinct, List.nodup_singleton _, ?_⟩
    rintro _ hmem _ hnew rfl
    obtain ⟨timer, htimer, rfl⟩ := List.mem_map.mp hmem
    have hgiven := h.given timer htimer
    have hsame := List.mem_singleton.mp hnew
    omega
  given := fun timer hmem => by
    rcases List.mem_append.mp hmem with hmem | hmem
    · exact Nat.le_succ_of_le (h.given timer hmem)
    · exact (List.mem_singleton.mp hmem) ▸ Nat.le_refl _

/-- After a cancellation nothing is going to run. -/
theorem Numbered.latest?_cancel (h : debouncer.Numbered) : debouncer.cancel.latest? = none := by
  refine latest?_eq_none_iff.mpr fun timer hmem hcurrent => ?_
  have hgiven := h.given timer hmem
  have hnew : timer.generation = debouncer.generation + 1 := of_decide_eq_true hcurrent
  omega

/-- After a request it is the latest. -/
theorem Numbered.latest?_schedule [OfNat τ 0] [Add τ] [LE τ] [DecidableLE τ]
    (h : debouncer.Numbered) (now : τ) :
    (debouncer.schedule now).latest? = some (dueAt debouncer.delay now) := by
  refine (h.schedule now).latest?_eq_some_iff.mpr
    ⟨⟨dueAt debouncer.delay now, debouncer.generation + 1⟩, ?_, ?_, rfl⟩
  · exact List.mem_append_right _ (List.mem_singleton_self _)
  · simp [isCurrent, Debouncer.schedule]

end Debouncer

end CommentIndex
