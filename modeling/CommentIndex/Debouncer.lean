/-!
# Debouncing

A debouncer runs a callback once things have been quiet for a while. Every request starts a timer
and makes all earlier requests stale; a timer that expires runs the callback only if its request
is still the latest. Time is of any ordered kind, and `Debouncing.step` follows it through
requests, cancellations, and the passing of time. The callback may raise; its error ends the timer
that ran it, and nobody else hears of it.
-/

namespace CommentIndex

/-- A timer that was started by the request of a generation. -/
structure Timer (τ : Type) where
  due : τ
  generation : Nat
deriving DecidableEq, Repr

/-- The timers of a callback that have not expired, in the order in which they were started. -/
structure Debouncer (τ : Type) where
  delay : τ
  generation : Nat
  timers : List (Timer τ)
deriving Repr

namespace Debouncer

variable {τ : Type}

/-- A debouncer without requests. -/
def idle (delay : τ) : Debouncer τ := ⟨delay, 0, []⟩

/-- Whether some timer has not expired. -/
def isPending (debouncer : Debouncer τ) : Bool :=
  !debouncer.timers.isEmpty

/-- Makes every request so far stale. Their timers go on. -/
def cancel (debouncer : Debouncer τ) : Debouncer τ :=
  { debouncer with generation := debouncer.generation + 1 }

/-- Whether the request of a timer is the latest. -/
def isCurrent (debouncer : Debouncer τ) (timer : Timer τ) : Bool :=
  timer.generation = debouncer.generation

variable [OfNat τ 0] [Add τ] [LE τ] [DecidableLE τ]

/-- The time at which a timer started now expires; a delay below zero is none. -/
def dueAt (delay now : τ) : τ :=
  if delay ≤ 0 then now else now + delay

/-- Makes a request, which starts a timer. -/
def schedule (debouncer : Debouncer τ) (now : τ) : Debouncer τ :=
  let generation := debouncer.generation + 1
  { debouncer with
    generation := generation
    timers := debouncer.timers ++ [⟨dueAt debouncer.delay now, generation⟩] }

omit [OfNat τ 0] [Add τ] in
/-- The timer that expires first, and the others; of timers that expire together the one that was
started first. -/
def first? : List (Timer τ) → Option (Timer τ × List (Timer τ))
  | [] => none
  | timer :: rest =>
    match first? rest with
    | none => some (timer, [])
    | some (next, others) =>
      if timer.due ≤ next.due then some (timer, rest) else some (next, timer :: others)

/-- The first timer that expires no later than `limit`, taken out. -/
def expire? (debouncer : Debouncer τ) (limit : τ) : Option (Timer τ × Debouncer τ) :=
  match first? debouncer.timers with
  | some (timer, others) =>
    if timer.due ≤ limit then some (timer, { debouncer with timers := others }) else none
  | none => none

end Debouncer

/-- A debouncer in time, with the times at which the callback has run. -/
structure Debouncing (τ : Type) where
  now : τ
  debouncer : Debouncer τ
  runs : List τ
  /-- The times of those runs in which the callback raised. -/
  failures : List τ
deriving Repr

/-- What may happen to a debouncer. -/
inductive DebounceStep (τ : Type) where
  | schedule
  | cancel
  | delay (length : τ)
  | advance (length : τ)
  | flush
deriving DecidableEq, Repr

namespace Debouncing

variable {τ : Type} [OfNat τ 0] [Add τ] [LE τ] [DecidableLE τ]

/-- Nothing requested, at time zero. -/
def start (delay : τ) : Debouncing τ := ⟨0, .idle delay, [], []⟩

section

-- `raises` tells of each run of the callback, counted from zero, whether it ends with an error.
variable (raises : Nat → Bool)

/-- The state once a timer has expired: the callback runs if the request is the latest. -/
def fire (state : Debouncing τ) (timer : Timer τ) (others : Debouncer τ) : Debouncing τ :=
  let expired := { state with now := timer.due, debouncer := others }
  if others.isCurrent timer then
    { expired with
      runs := state.runs ++ [timer.due]
      failures :=
        if raises state.runs.length then state.failures ++ [timer.due] else state.failures }
  else expired

/-- The state once the first `count` timers at most have expired, none later than `limit`. -/
def runTo (limit : τ) : Nat → Debouncing τ → Debouncing τ
  | 0, state => state
  | count + 1, state =>
    match state.debouncer.expire? limit with
    | some (timer, others) => runTo limit count (state.fire raises timer others)
    | none => state

/-- The state at a later time, once every timer due by then has expired. -/
def advanceTo (state : Debouncing τ) (limit : τ) : Debouncing τ :=
  { runTo raises limit state.debouncer.timers.length state with now := limit }

/-- The time at which the last timer expires, or now if there is none. -/
def lastDue (state : Debouncing τ) : τ :=
  state.debouncer.timers.foldl (fun latest timer =>
    if latest ≤ timer.due then timer.due else latest) state.now

/-- The state after one step, when everything due has run. -/
def step (state : Debouncing τ) : DebounceStep τ → Debouncing τ
  | .schedule =>
    { state with debouncer := state.debouncer.schedule state.now }.advanceTo raises state.now
  | .cancel => { state with debouncer := state.debouncer.cancel }
  | .delay length => { state with debouncer := { state.debouncer with delay := length } }
  | .advance length => state.advanceTo raises (state.now + length)
  | .flush => state.advanceTo raises state.lastDue

end

/-- The states after each of the steps. -/
def trace (state : Debouncing τ) (steps : List (DebounceStep τ))
    (raises : Nat → Bool := fun _ => false) : List (Debouncing τ) :=
  match steps with
  | [] => []
  | first :: rest => state.step raises first :: (state.step raises first).trace rest raises

end Debouncing

end CommentIndex
