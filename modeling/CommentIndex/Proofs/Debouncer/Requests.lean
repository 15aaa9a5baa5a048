import CommentIndex.Proofs.Debouncer.Steps
import Mathlib.Algebra.Order.Group.Int
import Mathlib.Order.Bounds.Basic

/-!
# Which requests run the callback

A request runs the callback, at the time at which its timer expires, if that time comes before the
next request or cancellation; `QuietUntil` says when it does. `runAt?` tells it of each request of a
run, and by `debounces_trace` the callback runs for these requests, in their order, and at no other
time.
-/

namespace CommentIndex

/-- Whether a step makes the requests before it stale. -/
def DebounceStep.supersedes {τ : Type} : DebounceStep τ → Bool
  | .schedule | .cancel => true
  | .delay _ | .advance _ | .flush => false

namespace Debouncing

section

variable {τ : Type} [OfNat τ 0] [Add τ] [LE τ] [DecidableLE τ]

/-- The state once steps have been taken. -/
def run (raises : Nat → Bool) (state : Debouncing τ) (steps : List (DebounceStep τ)) :
    Debouncing τ :=
  steps.foldl (step raises) state

/-- The time at which the timer expires that a step of a run starts. Only requests start one. -/
def due? (raises : Nat → Bool) (state : Debouncing τ) (steps : List (DebounceStep τ))
    (index : Nat) : Option τ :=
  match steps[index]? with
  | some .schedule =>
    let made := state.run raises (steps.take index)
    some (Debouncer.dueAt made.debouncer.delay made.now)
  | _ => none

/-- The clock reaches a time before the next request or cancellation. -/
def QuietUntil (raises : Nat → Bool) (due : τ) (state : Debouncing τ)
    (steps : List (DebounceStep τ)) : Prop :=
  ∃ count ≤ steps.length, (∀ next ∈ steps.take count, next.supersedes = false) ∧
    due ≤ (state.run raises (steps.take count)).now

/-- `QuietUntil` is decided by trying every number of steps. -/
instance QuietUntil.decidable (raises : Nat → Bool) (due : τ) (state : Debouncing τ)
    (steps : List (DebounceStep τ)) : Decidable (QuietUntil raises due state steps) :=
  inferInstanceAs (Decidable (∃ count ≤ steps.length, _ ∧ _))

/-- The time at which the request that is made by a step runs the callback, if it does. -/
def runAt? (raises : Nat → Bool) (state : Debouncing τ) (steps : List (DebounceStep τ))
    (index : Nat) : Option τ :=
  (due? raises state steps index).filter fun due =>
    QuietUntil raises due (state.run raises (steps.take (index + 1))) (steps.drop (index + 1))

/-- Some timer that was started in a run expires at a time that is still to come. -/
def Outstanding [LT τ] (raises : Nat → Bool) (state : Debouncing τ)
    (steps : List (DebounceStep τ)) (due : τ) : Prop :=
  (∃ index, due? raises state steps index = some due) ∧ (state.run raises steps).now < due

/-- A run goes on from where its first part has led to. -/
theorem run_append (raises : Nat → Bool) (state : Debouncing τ)
    (before after : List (DebounceStep τ)) :
    state.run raises (before ++ after) = (state.run raises before).run raises after :=
  List.foldl_append

/-- A run lists the states of its parts. -/
theorem eq_run_of_trace {raises : Nat → Bool} {state after : Debouncing τ}
    {steps : List (DebounceStep τ)} {index : Nat}
    (h : (state.trace steps raises)[index]? = some after) :
    after = state.run raises (steps.take (index + 1)) := by
  induction steps generalizing state index with
  | nil => simp [trace] at h
  | cons next rest ih =>
      cases index with
      | zero => simpa [trace, run, eq_comm] using h
      | succ index => exact ih h

end

variable {τ : Type} [LinearOrder τ] [AddZeroClass τ] {raises : Nat → Bool}
  {state after : Debouncing τ} {steps : List (DebounceStep τ)} {due : τ}

/-! ## Quiet times -/

/-- Before the first step it is only asked for the time that has come. -/
theorem quietUntil_nil : QuietUntil raises due state [] ↔ due ≤ state.now := by
  simp [QuietUntil, Debouncing.run]

/-- A time has come, or the next step lets it come. -/
theorem quietUntil_cons {next : DebounceStep τ} :
    QuietUntil raises due state (next :: steps) ↔
      due ≤ state.now ∨
        next.supersedes = false ∧ QuietUntil raises due (state.step raises next) steps := by
  constructor
  · rintro ⟨_ | count, hcount, hquiet, hdue⟩
    · exact .inl hdue
    · rw [List.take_succ_cons, List.forall_mem_cons] at hquiet
      exact .inr ⟨hquiet.1, count, Nat.le_of_succ_le_succ hcount, hquiet.2, hdue⟩
  · rintro (hdue | ⟨hnext, count, hcount, hquiet, hdue⟩)
    · exact ⟨0, Nat.zero_le _, by simp, hdue⟩
    · refine ⟨count + 1, Nat.succ_le_succ hcount, ?_, hdue⟩
      rw [List.take_succ_cons, List.forall_mem_cons]
      exact ⟨hnext, hquiet⟩

/-- Any run of steps leaves a time that has come. -/
theorem quietUntil_of_le (hdue : due ≤ state.now) : QuietUntil raises due state steps :=
  ⟨0, Nat.zero_le _, by simp, hdue⟩

/-! ## The requests of a first step -/

/-- The requests of a run are those of its first step and of the others. -/
theorem filterMap_runAt?_cons (raises : Nat → Bool) (state : Debouncing τ)
    (next : DebounceStep τ) (steps : List (DebounceStep τ)) :
    (List.range (next :: steps).length).filterMap (runAt? raises state (next :: steps)) =
      (runAt? raises state (next :: steps) 0).toList ++
        (List.range steps.length).filterMap (runAt? raises (state.step raises next) steps) := by
  have hlater : runAt? raises state (next :: steps) ∘ Nat.succ =
      runAt? raises (state.step raises next) steps := rfl
  rw [List.length_cons, List.range_succ_eq_map, List.filterMap_cons, List.filterMap_map, hlater]
  cases runAt? raises state (next :: steps) 0 with
  | none => rfl
  | some due => rfl

omit [AddZeroClass τ] in
/-- The timer of the latest request is due later, like every timer. -/
theorem Orderly.lt_of_latest? (h : state.Orderly) (hdue : state.debouncer.latest? = some due) :
    state.now < due := by
  obtain ⟨timer, hmem, -, rfl⟩ := h.numbered.latest?_eq_some_iff.mp hdue
  exact h.ahead timer hmem

/-- What has been asked for by a step is what was still to run, unless the step makes it stale,
and the request of the step. -/
theorem toList_asked? (h : state.Orderly) (raises : Nat → Bool) (next : DebounceStep τ)
    (steps : List (DebounceStep τ)) :
    ((state.asked? next).filter (QuietUntil raises · (state.step raises next) steps)).toList =
      (state.debouncer.latest?.filter (QuietUntil raises · state (next :: steps))).toList ++
        (runAt? raises state (next :: steps) 0).toList := by
  have hlatest : state.debouncer.latest?.filter (QuietUntil raises · state (next :: steps)) =
      if next.supersedes then none
      else state.debouncer.latest?.filter
        (QuietUntil raises · (state.step raises next) steps) := by
    cases hdue : state.debouncer.latest? with
    | none => simp
    | some due =>
        have hahead := not_le.mpr (h.lt_of_latest? hdue)
        cases hnext : next.supersedes <;> simp [Option.filter, quietUntil_cons, hahead, hnext]
  rw [hlatest]
  cases next with
  | schedule => rfl
  | cancel => rfl
  | delay length => exact (List.append_nil _).symm
  | advance length => exact (List.append_nil _).symm
  | flush => exact (List.append_nil _).symm

/-- The timers started in a run are that of its first step, if it is a request, and the others. -/
theorem exists_due?_cons {next : DebounceStep τ} :
    (∃ index, due? raises state (next :: steps) index = some due) ↔
      due? raises state (next :: steps) 0 = some due ∨
        ∃ index, due? raises (state.step raises next) steps index = some due :=
  Nat.or_exists_add_one.symm

/-- A request starts a timer, and nothing else does. -/
theorem exists_timer_asked (raises : Nat → Bool) (next : DebounceStep τ)
    (steps : List (DebounceStep τ)) :
    (∃ timer ∈ (state.asked next).timers, timer.due = due) ↔
      (∃ timer ∈ state.debouncer.timers, timer.due = due) ∨
        due? raises state (next :: steps) 0 = some due := by
  cases next with
  | schedule => simp [asked, Debouncer.schedule, due?, Debouncing.run, or_and_right, exists_or]
  | cancel => simp [asked, Debouncer.cancel, due?]
  | delay length => simp [asked, due?]
  | advance length => simp [asked, due?]
  | flush => simp [asked, due?]

/-! ## Runs -/

variable [AddLeftMono τ]

/-- A run keeps what every step keeps. -/
theorem Orderly.run (h : state.Orderly) (hforward : ∀ next ∈ steps, next.IsForward)
    (raises : Nat → Bool) : (state.run raises steps).Orderly := by
  induction steps generalizing state with
  | nil => exact h
  | cons next rest ih =>
      obtain ⟨hnext, hrest⟩ := List.forall_mem_cons.mp hforward
      exact ih (h.step hnext raises) hrest

/-- Time does not go back. -/
theorem now_le_run (h : state.Orderly) (hforward : ∀ next ∈ steps, next.IsForward)
    (raises : Nat → Bool) : state.now ≤ (state.run raises steps).now := by
  induction steps generalizing state with
  | nil => exact le_rfl
  | cons next rest ih =>
      obtain ⟨hnext, hrest⟩ := List.forall_mem_cons.mp hforward
      exact (step_expiredBy h hnext raises).2.trans (ih (h.step hnext raises) hrest)

/-- What a run adds to the times of an earlier one: what was still to run, if it is left alone, and
the requests of the run. -/
theorem runs_run (h : state.Orderly) (hforward : ∀ next ∈ steps, next.IsForward)
    (raises : Nat → Bool) :
    (state.run raises steps).runs =
      state.runs ++ (state.debouncer.latest?.filter (QuietUntil raises · state steps)).toList ++
        (List.range steps.length).filterMap (runAt? raises state steps) := by
  induction steps generalizing state with
  | nil =>
      cases hdue : state.debouncer.latest? with
      | none => simp [Debouncing.run]
      | some due =>
          have hahead := not_le.mpr (h.lt_of_latest? hdue)
          simp [Debouncing.run, Option.filter, quietUntil_nil, hahead]
  | cons next rest ih =>
      obtain ⟨hnext, hrest⟩ := List.forall_mem_cons.mp hforward
      have hstep := (step_expiredBy h hnext raises).1
      have hafter := ih (h.step hnext raises) hrest
      -- What expires in the step itself is also due, whatever the others are.
      have hparts (asked : Option τ) :
          (asked.filter (· ≤ (state.step raises next).now)).toList ++
            ((asked.filter ((state.step raises next).now < ·)).filter
              (QuietUntil raises · (state.step raises next) rest)).toList =
          (asked.filter (QuietUntil raises · (state.step raises next) rest)).toList := by
        cases asked with
        | none => rfl
        | some due =>
            rcases le_or_gt due (state.step raises next).now with hdue | hdue
            · simp [Option.filter, hdue, not_lt.mpr hdue, quietUntil_of_le hdue]
            · simp [Option.filter, hdue, not_le.mpr hdue]
      calc (state.run raises (next :: rest)).runs
        _ = ((state.step raises next).run raises rest).runs := rfl
        _ = state.runs ++
              ((state.asked? next).filter
                (QuietUntil raises · (state.step raises next) rest)).toList ++
              (List.range rest.length).filterMap
                (runAt? raises (state.step raises next) rest) := by
          rw [hafter, hstep.runs, hstep.latest, latest?_asked h.numbered,
            List.append_assoc state.runs, hparts]
        _ = _ := by
          rw [toList_asked? h, filterMap_runAt?_cons, List.append_assoc, List.append_assoc,
            List.append_assoc]

/-- The timers left after a run are those, of before and of the run, that are due later. -/
theorem exists_timer_run (h : state.Orderly) (hforward : ∀ next ∈ steps, next.IsForward)
    (raises : Nat → Bool) (due : τ) :
    (∃ timer ∈ (state.run raises steps).debouncer.timers, timer.due = due) ↔
      ((∃ timer ∈ state.debouncer.timers, timer.due = due) ∨
        ∃ index, due? raises state steps index = some due) ∧
      (state.run raises steps).now < due := by
  induction steps generalizing state with
  | nil =>
      simp only [Debouncing.run, List.foldl_nil, due?, List.getElem?_nil, reduceCtorEq,
        exists_false, or_false]
      refine ⟨fun hexists => ⟨hexists, ?_⟩, And.left⟩
      obtain ⟨timer, hmem, rfl⟩ := hexists
      exact h.ahead timer hmem
  | cons next rest ih =>
      obtain ⟨hnext, hrest⟩ := List.forall_mem_cons.mp hforward
      have hstep := (step_expiredBy h hnext raises).1
      have horderly := h.step hnext raises
      have hafter : (∃ timer ∈ (state.step raises next).debouncer.timers, timer.due = due) ↔
          (∃ timer ∈ (state.asked next).timers, timer.due = due) ∧
            (state.step raises next).now < due := by
        simp only [hstep.timers]
        constructor
        · rintro ⟨timer, ⟨hmem, hlater⟩, rfl⟩
          exact ⟨⟨timer, hmem, rfl⟩, hlater⟩
        · rintro ⟨⟨timer, hmem, rfl⟩, hlater⟩
          exact ⟨timer, ⟨hmem, hlater⟩, rfl⟩
      have hclock := now_le_run horderly hrest raises
      calc (∃ timer ∈ (state.run raises (next :: rest)).debouncer.timers, timer.due = due)
        _ ↔ _ := ih horderly hrest
        _ ↔ ((∃ timer ∈ (state.asked next).timers, timer.due = due) ∨
              ∃ index, due? raises (state.step raises next) rest index = some due) ∧
            ((state.step raises next).run raises rest).now < due := by
          rw [hafter]
          refine and_congr_left fun hlater => or_congr_left (and_iff_left ?_)
          exact hclock.trans_lt hlater
        _ ↔ _ := by
          rw [exists_timer_asked raises next rest, exists_due?_cons, or_assoc]
          rfl

/-- A time that comes before its request is stale has come when the next request is made. -/
theorem QuietUntil.le_now (h : state.Orderly) (hforward : ∀ next ∈ steps, next.IsForward)
    (hquiet : QuietUntil raises due state steps) {later : Nat}
    (hlater : steps[later]? = some .schedule) :
    due ≤ (state.run raises (steps.take later)).now := by
  obtain ⟨count, hcount, hquiet, hdue⟩ := hquiet
  have hle : count ≤ later := by
    by_contra hgt
    have hmem : DebounceStep.schedule ∈ steps.take count :=
      List.mem_of_getElem? ((List.getElem?_take_of_lt (not_le.mp hgt)).trans hlater)
    exact Bool.noConfusion (hquiet _ hmem)
  obtain ⟨extra, rfl⟩ := Nat.exists_eq_add_of_le hle
  have hforward : ∀ next ∈ steps.take (count + extra), next.IsForward :=
    fun next hnext => hforward next (List.mem_of_mem_take hnext)
  rw [List.take_add, List.forall_mem_append] at hforward
  rw [List.take_add, run_append]
  exact hdue.trans (now_le_run (h.run hforward.1 raises) hforward.2 raises)

/-! ## Debouncing -/

/-- A callback that is run as it should be by requests, cancellations, changes of the delay, and
the passing of time, which have led to a state. -/
structure Debounces (raises : Nat → Bool) (delay : τ) (steps : List (DebounceStep τ))
    (state : Debouncing τ) : Prop where
  /-- The callback has run for each request whose timer has expired before a later request or
  cancellation, when it has expired, and not otherwise. -/
  runs : state.runs = (List.range steps.length).filterMap (runAt? raises (start delay) steps)
  /-- A request that is followed by another runs before that is made or never, however short the
  delay of the later one is. -/
  burst : ∀ earlier later due, earlier < later → steps[later]? = some .schedule →
    runAt? raises (start delay) steps earlier = some due →
    due ≤ ((start delay).run raises (steps.take later)).now
  /-- Something is pending if a timer has been started that expires later. -/
  pending : state.debouncer.isPending ↔ ∃ due, Outstanding raises (start delay) steps due
  /-- After a flush nothing is pending, and it is as late as it has to be for that. -/
  flush : (state.step raises .flush).debouncer.isPending = false ∧
    (state.debouncer.isPending = false → (state.step raises .flush).now = state.now) ∧
    (state.debouncer.isPending →
      IsGreatest {due | Outstanding raises (start delay) steps due}
        (state.step raises .flush).now)
  /-- Errors of the callback make no difference to the clock, the timers, and the runs. -/
  raising : ∀ others, state.Alike ((start delay).run others steps)

omit [LinearOrder τ] [AddZeroClass τ] [AddLeftMono τ] in
/-- Something is pending if some timer has not expired. -/
theorem isPending_iff (debouncer : Debouncer τ) :
    debouncer.isPending ↔ ∃ due, ∃ timer ∈ debouncer.timers, timer.due = due := by
  unfold Debouncer.isPending
  cases debouncer.timers with
  | nil => simp
  | cons timer rest => simp

omit [AddLeftMono τ] in
/-- Once everything that is pending is over, the last timer has expired. -/
theorem step_flush (h : state.Orderly) (raises : Nat → Bool) :
    (state.step raises .flush).debouncer.isPending = false ∧
      (state.debouncer.isPending = false → (state.step raises .flush).now = state.now) ∧
      (state.debouncer.isPending →
        IsGreatest {due | ∃ timer ∈ state.debouncer.timers, timer.due = due}
          (state.step raises .flush).now) := by
  obtain ⟨-, hlast, hreached⟩ := lastDue_spec state
  have hnow : (state.step raises .flush).now = state.lastDue := rfl
  rw [hnow]
  refine ⟨?_, fun hidle => ?_, fun hpending => ?_⟩
  · rw [← Bool.not_eq_true, isPending_iff]
    rintro ⟨_, timer, hmem, rfl⟩
    have hexpired : ExpiredBy state.lastDue state (state.step raises .flush) :=
      advanceTo_expiredBy state h.numbered raises state.lastDue
    obtain ⟨hmem, hlater⟩ := (hexpired.timers timer).mp hmem
    exact absurd (hlast timer hmem) (not_le.mpr hlater)
  · rcases hreached with hreached | ⟨timer, hmem, -⟩
    · exact hreached
    · rw [← Bool.not_eq_true, isPending_iff] at hidle
      exact absurd ⟨_, timer, hmem, rfl⟩ hidle
  · obtain ⟨_, timer, hmem, rfl⟩ := (isPending_iff _).mp hpending
    constructor
    · rcases hreached with hreached | hreached
      · -- The clock has not come to any timer, so the last one is due later.
        exact absurd (hlast timer hmem) (not_le.mpr (hreached ▸ h.ahead timer hmem))
      · exact hreached
    · rintro _ ⟨other, hother, rfl⟩
      exact hlast other hother

omit [AddLeftMono τ] in
/-- A run does the same whether the callback raises or not. -/
theorem Alike.run (h : state.Alike after) (raises others : Nat → Bool)
    (steps : List (DebounceStep τ)) : (state.run raises steps).Alike (after.run others steps) := by
  induction steps generalizing state after with
  | nil => exact h
  | cons next rest ih => exact ih (h.step raises others next)

/-- In every state of a run from the start the callback has been run as it should be. -/
theorem debounces_trace (raises : Nat → Bool) (delay : τ) (steps : List (DebounceStep τ))
    (hforward : ∀ next ∈ steps, next.IsForward) (index : Nat) {state : Debouncing τ}
    (hstate : ((start delay).trace steps raises)[index]? = some state) :
    Debounces raises delay (steps.take (index + 1)) state := by
  have hforward : ∀ next ∈ steps.take (index + 1), next.IsForward :=
    fun next hnext => hforward next (List.mem_of_mem_take hnext)
  rw [eq_run_of_trace hstate]
  clear hstate
  generalize steps.take (index + 1) = steps at hforward
  have horderly := orderly_start delay
  have hout (due : τ) : (∃ timer ∈ ((start delay).run raises steps).debouncer.timers,
      timer.due = due) ↔ Outstanding raises (start delay) steps due := by
    have htimers := exists_timer_run horderly hforward raises due
    have hnone : ¬ ∃ timer ∈ (start delay).debouncer.timers, timer.due = due :=
      fun ⟨_, hmem, _⟩ => (List.not_mem_nil hmem).elim
    rwa [or_iff_right hnone] at htimers
  have hflush := step_flush (horderly.run hforward raises) raises
  have hpending := isPending_iff ((start delay).run raises steps).debouncer
  simp only [hout] at hflush hpending
  refine ⟨?_, ?_, hpending, hflush, fun others => ?_⟩
  · exact runs_run horderly hforward raises
  · intro earlier later due hlt hlater hrun
    obtain ⟨extra, rfl⟩ := Nat.exists_eq_add_of_le (Nat.succ_le_of_lt hlt)
    have hquiet := of_decide_eq_true (Option.filter_eq_some_iff.mp hrun).2
    rw [← List.getElem?_drop] at hlater
    rw [List.take_add, run_append]
    refine hquiet.le_now (horderly.run ?_ raises) ?_ hlater
    · exact fun next hnext => hforward next (List.mem_of_mem_take hnext)
    · exact fun next hnext => hforward next (List.mem_of_mem_drop hnext)
  · exact Alike.run ⟨rfl, rfl, rfl⟩ raises others steps

/-- A later request with a shorter delay runs the callback, and the earlier one does not. -/
theorem debounces_shorter_delay :
    Debounces (fun _ => true) (10 : Int) [.schedule, .advance 2, .delay 3, .schedule, .advance 20]
      ⟨22, ⟨3, 2, []⟩, [5], [5]⟩ :=
  debounces_trace (fun _ => true) 10 [.schedule, .advance 2, .delay 3, .schedule, .advance 20]
    (by simp [DebounceStep.IsForward]) 4 rfl

end Debouncing

end CommentIndex
