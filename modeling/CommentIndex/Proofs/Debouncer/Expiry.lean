import CommentIndex.Debouncer
import Mathlib.Data.List.Basic

/-!
# Timers that expire

What it means that a timer is taken out of a debouncer: it is one of its timers and none is due
before it (`expire?_perm`), and if none is taken out, none is due (`not_due_of_expire?`). So by a
time the callback runs if the timer of the latest request is due by then: `isDue`.
-/

namespace CommentIndex.Debouncer

section

variable {τ : Type} [LE τ] [DecidableLE τ] {timers others : List (Timer τ)} {timer : Timer τ}
  {debouncer after : Debouncer τ} {limit : τ}

/-- A timer is found unless there is none. -/
theorem first?_eq_none (h : first? timers = none) : timers = [] := by
  cases timers with
  | nil => rfl
  | cons timer rest =>
      unfold first? at h
      split at h
      · contradiction
      · split at h <;> contradiction

variable [Std.IsLinearPreorder τ]

/-- The timer that expires first is one of the timers, and none is due before it. -/
theorem first?_perm (h : first? timers = some (timer, others)) :
    timers.Perm (timer :: others) ∧ ∀ other ∈ timers, timer.due ≤ other.due := by
  induction timers generalizing timer others with
  | nil => contradiction
  | cons head rest ih =>
      unfold first? at h
      split at h
      · next hnone =>
          obtain ⟨rfl, rfl⟩ := Prod.mk.inj (Option.some.inj h)
          obtain rfl := first?_eq_none hnone
          simp
      · next next left hnext =>
          obtain ⟨hperm, hfirst⟩ := ih hnext
          split at h
          · next hle =>
              obtain ⟨rfl, rfl⟩ := Prod.mk.inj (Option.some.inj h)
              refine ⟨List.Perm.refl _, fun other hother => ?_⟩
              rcases List.mem_cons.mp hother with rfl | hother
              · exact Std.le_refl _
              · exact Std.le_trans hle (hfirst other hother)
          · next hlt =>
              obtain ⟨rfl, rfl⟩ := Prod.mk.inj (Option.some.inj h)
              refine ⟨(hperm.cons head).trans (List.Perm.swap ..), fun other hother => ?_⟩
              rcases List.mem_cons.mp hother with rfl | hother
              · exact Std.le_of_not_ge hlt
              · exact hfirst other hother

/-- The timer that is taken out is due, and the others are left. -/
theorem expire?_perm (h : debouncer.expire? limit = some (timer, after)) :
    debouncer.timers.Perm (timer :: after.timers) ∧ timer.due ≤ limit ∧
      after.generation = debouncer.generation := by
  unfold expire? at h
  split at h
  · next found others hfound =>
      split at h
      · next hdue =>
          obtain ⟨rfl, rfl⟩ := Prod.mk.inj (Option.some.inj h)
          exact ⟨(first?_perm hfound).1, hdue, rfl⟩
      · contradiction
  · contradiction

omit [Std.IsLinearPreorder τ] in
/-- The delay stays when a timer is taken out. -/
theorem delay_of_expire? (h : debouncer.expire? limit = some (timer, after)) :
    after.delay = debouncer.delay := by
  unfold expire? at h
  split at h
  · split at h
    · obtain ⟨rfl, rfl⟩ := Prod.mk.inj (Option.some.inj h)
      rfl
    · contradiction
  · contradiction

/-- If no timer is taken out, none is due. -/
theorem not_due_of_expire? (h : debouncer.expire? limit = none) :
    ∀ timer ∈ debouncer.timers, ¬timer.due ≤ limit := by
  intro timer htimer hdue
  unfold expire? at h
  split at h
  · next found others hfound =>
      split at h
      · contradiction
      · next hlate => exact hlate (Std.le_trans ((first?_perm hfound).2 timer htimer) hdue)
  · next hnone =>
      rw [first?_eq_none hnone] at htimer
      contradiction

/-- Whether the timer of the latest request expires by a time. -/
def isDue (debouncer : Debouncer τ) (limit : τ) : Bool :=
  debouncer.timers.any fun timer => debouncer.isCurrent timer && timer.due ≤ limit

/-- Once a timer is taken out, the latest request is due by a time if it was its timer or if it is
still due by then. -/
theorem isDue_of_expire? (h : debouncer.expire? limit = some (timer, after)) :
    debouncer.isDue limit = (after.isCurrent timer || after.isDue limit) := by
  obtain ⟨hperm, hdue, hgeneration⟩ := expire?_perm h
  have hcurrent : ∀ other, debouncer.isCurrent other = after.isCurrent other := fun other => by
    simp only [isCurrent, hgeneration]
  rw [isDue, hperm.any_eq, List.any_cons, isDue]
  simp [hcurrent, hdue]

/-- If no timer is taken out, the latest request is not due. -/
theorem isDue_of_expire?_none (h : debouncer.expire? limit = none) :
    debouncer.isDue limit = false := by
  refine List.any_eq_false.mpr fun timer htimer => ?_
  have hlate := not_due_of_expire? h timer htimer
  simp [hlate]

omit [Std.IsLinearPreorder τ] in
/-- By a time at which every timer has expired, the latest request is due if it has a timer. -/
theorem isDue_of_forall_le (h : ∀ timer ∈ debouncer.timers, timer.due ≤ limit) :
    debouncer.isDue limit = debouncer.timers.any debouncer.isCurrent := by
  unfold isDue
  rw [Bool.eq_iff_iff, List.any_eq_true, List.any_eq_true]
  refine exists_congr fun timer => and_congr_right fun htimer => ?_
  simp [h timer htimer]

end

/-- The largest of some numbers is none less than any of them. -/
theorem le_foldl_max (numbers : List Nat) (least : Nat) :
    least ≤ numbers.foldl max least ∧ ∀ number ∈ numbers, number ≤ numbers.foldl max least := by
  induction numbers generalizing least with
  | nil => simp
  | cons first rest ih =>
      obtain ⟨hleast, hrest⟩ := ih (max least first)
      refine ⟨Nat.le_trans (Nat.le_max_left ..) hleast, fun number hnumber => ?_⟩
      rcases List.mem_cons.mp hnumber with rfl | hnumber
      · exact Nat.le_trans (Nat.le_max_right ..) hleast
      · exact hrest number hnumber

end CommentIndex.Debouncer
