import CommentIndex.Proofs.Debouncer.Expiry
import CommentIndex.Proofs.Debouncer.Numbering
import Mathlib.Algebra.Order.Monoid.Unbundled.Basic

/-!
# One step of a debouncer

A step asks for something (`asked`), and then every timer expires that is due by the new time.
`ExpiredBy` says what is left of the timers and which of them has run the callback, and
`step_expiredBy` that this is what a step does. Of addition it is only used that it does not go back
in time when the length is not negative.
-/

namespace CommentIndex

/-- Whether a step does not go back in time. -/
def DebounceStep.IsForward {τ : Type} [OfNat τ 0] [LE τ] : DebounceStep τ → Prop
  | .advance length => 0 ≤ length
  | _ => True

namespace Debouncing

/-- The state once a timer has expired. -/
theorem fire_eq {τ : Type} (raises : Nat → Bool) (state : Debouncing τ) (timer : Timer τ)
    (others : Debouncer τ) :
    (state.fire raises timer others).debouncer = others ∧
      (state.fire raises timer others).runs =
        state.runs ++ if others.isCurrent timer then [timer.due] else [] := by
  unfold fire
  split <;> simp_all

variable {τ : Type} [LinearOrder τ] [AddZeroClass τ] {raises : Nat → Bool}
  {state after : Debouncing τ} {limit due : τ}

/-! ## Expiry -/

/-- What is left once every timer due by a time has expired. -/
structure ExpiredBy (limit : τ) (state after : Debouncing τ) : Prop where
  timers : ∀ timer, timer ∈ after.debouncer.timers ↔
    timer ∈ state.debouncer.timers ∧ limit < timer.due
  numbered : after.debouncer.Numbered
  latest : after.debouncer.latest? = state.debouncer.latest?.filter (limit < ·)
  runs : after.runs = state.runs ++ (state.debouncer.latest?.filter (· ≤ limit)).toList
  delay : after.debouncer.delay = state.debouncer.delay

omit [AddZeroClass τ] in
/-- If every timer is due later, nothing has happened. -/
theorem expiredBy_self (h : state.debouncer.Numbered)
    (hlate : ∀ timer ∈ state.debouncer.timers, ¬ timer.due ≤ limit) :
    ExpiredBy limit state state := by
  have hlatest (due : τ) (hdue : state.debouncer.latest? = some due) : limit < due := by
    obtain ⟨timer, hmem, -, rfl⟩ := h.latest?_eq_some_iff.mp hdue
    exact not_le.mp (hlate timer hmem)
  refine ⟨fun timer => ?_, h, ?_, ?_, rfl⟩
  · exact (and_iff_left_of_imp fun hmem => not_le.mp (hlate timer hmem)).symm
  · cases hdue : state.debouncer.latest? with
    | none => rfl
    | some due => simp [Option.filter, hlatest due hdue]
  · cases hdue : state.debouncer.latest? with
    | none => simp
    | some due => simp [Option.filter, hlatest due hdue]

omit [AddZeroClass τ] in
/-- A timer that is due expires before the rest of them. -/
theorem ExpiredBy.of_fire (h : state.debouncer.Numbered) {timer : Timer τ} {others : Debouncer τ}
    (hexpire : state.debouncer.expire? limit = some (timer, others))
    (hrest : ExpiredBy limit (state.fire raises timer others) after) :
    ExpiredBy limit state after := by
  obtain ⟨hperm, hdue, hgeneration⟩ := Debouncer.expire?_perm hexpire
  obtain ⟨hothers, hruns⟩ := fire_eq raises state timer others
  obtain ⟨htimers, hnumbered, hlatest, hran, hdelay⟩ := hrest
  rw [hothers] at htimers hlatest hran hdelay
  have hsplit := h.latest?_of_perm hperm hgeneration
  refine ⟨fun other => ?_, hnumbered, ?_, ?_, hdelay.trans (Debouncer.delay_of_expire? hexpire)⟩
  · rw [htimers, hperm.mem_iff, List.mem_cons]
    constructor
    · rintro ⟨hmem, hlater⟩
      exact ⟨.inr hmem, hlater⟩
    · rintro ⟨rfl | hmem, hlater⟩
      · exact absurd hdue (not_le.mpr hlater)
      · exact ⟨hmem, hlater⟩
  · split at hsplit
    · simp [hlatest, hsplit, Option.filter, not_lt.mpr hdue]
    · rw [hlatest, hsplit]
  · rw [hran, hruns]
    split at hsplit
    · next hcurrent => simp [hsplit, hcurrent, Option.filter, hdue]
    · next hstale => simp [hsplit, hstale]

omit [AddZeroClass τ] in
/-- Every timer due by a time expires, and that of the latest request runs the callback. -/
theorem runTo_expiredBy (h : state.debouncer.Numbered) (raises : Nat → Bool) (limit : τ)
    {count : Nat} (hcount : state.debouncer.timers.length ≤ count) :
    ExpiredBy limit state (runTo raises limit count state) := by
  induction count generalizing state with
  | zero =>
      refine expiredBy_self h fun timer hmem => ?_
      rw [List.length_eq_zero_iff.mp (Nat.le_zero.mp hcount)] at hmem
      contradiction
  | succ count ih =>
      unfold runTo
      split
      · next timer others hexpire =>
          obtain ⟨hperm, -, hgeneration⟩ := Debouncer.expire?_perm hexpire
          have hothers := (fire_eq raises state timer others).1
          have hlength := hperm.length_eq
          rw [List.length_cons] at hlength
          refine .of_fire h hexpire (ih ?_ ?_)
          · rw [hothers]
            exact h.of_perm hperm hgeneration
          · rw [hothers]
            omega
      · next hexpire => exact expiredBy_self h (Debouncer.not_due_of_expire? hexpire)

/-- Time is at or before the times at which the timers expire. -/
structure Orderly (state : Debouncing τ) : Prop where
  numbered : state.debouncer.Numbered
  ahead : ∀ timer ∈ state.debouncer.timers, state.now < timer.due

omit [AddZeroClass τ] in
/-- At a later time every timer due by then has expired. -/
theorem advanceTo_expiredBy (state : Debouncing τ) (h : state.debouncer.Numbered)
    (raises : Nat → Bool) (limit : τ) :
    ExpiredBy limit state (state.advanceTo raises limit) :=
  let ⟨timers, numbered, latest, runs, delay⟩ := runTo_expiredBy h raises limit (Nat.le_refl _)
  ⟨timers, numbered, latest, runs, delay⟩

/-! ## Steps -/

/-- The debouncer once a step has been asked for, before time passes. -/
def asked (state : Debouncing τ) : DebounceStep τ → Debouncer τ
  | .schedule => state.debouncer.schedule state.now
  | .cancel => state.debouncer.cancel
  | .delay length => { state.debouncer with delay := length }
  | .advance _ | .flush => state.debouncer

/-- The time at which the latest request runs the callback if nothing comes between, once a step
has been asked for. -/
def asked? (state : Debouncing τ) : DebounceStep τ → Option τ
  | .schedule => some (Debouncer.dueAt state.debouncer.delay state.now)
  | .cancel => none
  | .delay _ | .advance _ | .flush => state.debouncer.latest?

omit [AddZeroClass τ] in
/-- By the time at which the last timer is due the others are due too. -/
theorem lastDue_spec (state : Debouncing τ) :
    state.now ≤ state.lastDue ∧ (∀ timer ∈ state.debouncer.timers, timer.due ≤ state.lastDue) ∧
      (state.lastDue = state.now ∨
        ∃ timer ∈ state.debouncer.timers, timer.due = state.lastDue) := by
  unfold lastDue
  generalize state.now = now
  induction state.debouncer.timers generalizing now with
  | nil => simp
  | cons timer rest ih =>
      obtain ⟨hnow, hdue, hreached⟩ := ih (if now ≤ timer.due then timer.due else now)
      have hleast : now ≤ (if now ≤ timer.due then timer.due else now) ∧
          timer.due ≤ if now ≤ timer.due then timer.due else now := by
        split
        · next hle => exact ⟨hle, le_rfl⟩
        · next hlt => exact ⟨le_rfl, le_of_not_ge hlt⟩
      refine ⟨hleast.1.trans hnow, List.forall_mem_cons.mpr ⟨hleast.2.trans hnow, hdue⟩, ?_⟩
      rcases hreached with hreached | ⟨other, hmem, hreached⟩
      · rw [List.foldl_cons, hreached]
        split
        · exact .inr ⟨timer, List.mem_cons_self, rfl⟩
        · exact .inl rfl
      · exact .inr ⟨other, List.mem_cons_of_mem _ hmem, hreached⟩

variable [AddLeftMono τ]

/-- A step asks for something, and what is due by the new time expires. -/
theorem step_expiredBy (h : state.Orderly) {next : DebounceStep τ} (hforward : next.IsForward)
    (raises : Nat → Bool) :
    ExpiredBy (state.step raises next).now { state with debouncer := state.asked next }
      (state.step raises next) ∧ state.now ≤ (state.step raises next).now := by
  have hstill {debouncer : Debouncer τ} (hnumbered : debouncer.Numbered)
      (htimers : debouncer.timers = state.debouncer.timers) :
      ExpiredBy state.now { state with debouncer := debouncer }
        { state with debouncer := debouncer } :=
    expiredBy_self hnumbered fun timer hmem => not_le.mpr (h.ahead timer (htimers ▸ hmem))
  cases next with
  | schedule =>
      have hnumbered := h.numbered.schedule state.now
      exact ⟨advanceTo_expiredBy { state with debouncer := _ } hnumbered raises state.now, le_rfl⟩
  | cancel => exact ⟨hstill h.numbered.cancel rfl, le_rfl⟩
  | delay length => exact ⟨hstill ⟨h.numbered.distinct, h.numbered.given⟩ rfl, le_rfl⟩
  | advance length =>
      exact ⟨advanceTo_expiredBy state h.numbered raises (state.now + length),
        le_add_of_nonneg_right hforward⟩
  | flush =>
      exact ⟨advanceTo_expiredBy state h.numbered raises state.lastDue, (lastDue_spec state).1⟩

omit [AddLeftMono τ] in
/-- What is asked for decides what runs next. -/
theorem latest?_asked (h : state.debouncer.Numbered) (next : DebounceStep τ) :
    (state.asked next).latest? = state.asked? next := by
  cases next with
  | schedule => exact h.latest?_schedule state.now
  | cancel => exact h.latest?_cancel
  | delay length => rfl
  | advance length => rfl
  | flush => rfl

/-- After a step time is still before the times at which timers expire. -/
theorem Orderly.step (h : state.Orderly) {next : DebounceStep τ} (hforward : next.IsForward)
    (raises : Nat → Bool) : (state.step raises next).Orderly where
  numbered := (step_expiredBy h hforward raises).1.numbered
  ahead := fun timer hmem => ((step_expiredBy h hforward raises).1.timers timer |>.mp hmem).2

omit [AddLeftMono τ] in
/-- Nothing is requested at the start. -/
theorem orderly_start (delay : τ) : (start delay).Orderly :=
  ⟨⟨List.nodup_nil, fun _ hmem => (List.not_mem_nil hmem).elim⟩,
    fun _ hmem => (List.not_mem_nil hmem).elim⟩

/-! ## Callbacks that raise -/

/-- Two states differ in the errors of the callback at most. -/
structure Alike (state after : Debouncing τ) : Prop where
  now : state.now = after.now
  debouncer : state.debouncer = after.debouncer
  runs : state.runs = after.runs

omit [LinearOrder τ] [AddZeroClass τ] [AddLeftMono τ] in
/-- An error of the callback ends nothing but the timer that ran it. -/
theorem Alike.fire (h : state.Alike after) (raises others : Nat → Bool) (timer : Timer τ)
    (left : Debouncer τ) : (state.fire raises timer left).Alike (after.fire others timer left) := by
  unfold Debouncing.fire
  split
  · exact ⟨rfl, rfl, congrArg (· ++ [timer.due]) h.runs⟩
  · exact ⟨rfl, rfl, h.runs⟩

omit [AddZeroClass τ] [AddLeftMono τ] in
/-- The same timers expire whether the callback raises or not. -/
theorem Alike.runTo (h : state.Alike after) (raises others : Nat → Bool) (limit : τ)
    (count : Nat) : (runTo raises limit count state).Alike (runTo others limit count after) := by
  induction count generalizing state after with
  | zero => exact h
  | succ count ih =>
      unfold Debouncing.runTo
      rw [h.debouncer]
      split
      · exact ih (h.fire raises others _ _)
      · exact h

omit [AddZeroClass τ] [AddLeftMono τ] in
/-- The same has happened by a later time whether the callback raises or not. -/
theorem Alike.advanceTo (h : state.Alike after) (raises others : Nat → Bool) (limit : τ) :
    (state.advanceTo raises limit).Alike (after.advanceTo others limit) := by
  unfold Debouncing.advanceTo
  rw [h.debouncer]
  have hrun := h.runTo raises others limit after.debouncer.timers.length
  exact ⟨rfl, hrun.debouncer, hrun.runs⟩

omit [AddLeftMono τ] in
/-- A step does the same whether the callback raises or not. -/
theorem Alike.step (h : state.Alike after) (raises others : Nat → Bool) (next : DebounceStep τ) :
    (state.step raises next).Alike (after.step others next) := by
  have hlast : state.lastDue = after.lastDue := by rw [lastDue, lastDue, h.now, h.debouncer]
  cases next with
  | schedule =>
      rw [Debouncing.step, Debouncing.step, h.now, h.debouncer]
      have hasked : Alike { state with now := after.now, debouncer := _ }
          { after with debouncer := after.debouncer.schedule after.now } := ⟨rfl, rfl, h.runs⟩
      exact hasked.advanceTo raises others after.now
  | cancel => exact ⟨h.now, congrArg Debouncer.cancel h.debouncer, h.runs⟩
  | delay length => exact ⟨h.now, by rw [Debouncing.step, Debouncing.step, h.debouncer], h.runs⟩
  | advance length =>
      rw [Debouncing.step, Debouncing.step, h.now]
      exact h.advanceTo raises others _
  | flush =>
      rw [Debouncing.step, Debouncing.step, hlast]
      exact h.advanceTo raises others _

end Debouncing

end CommentIndex
