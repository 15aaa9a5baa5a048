import CommentIndex.Proofs.Cache.Lookup
import Mathlib.Data.List.Nodup

/-!
# Readings that overlap

A `Traffic` is a cache together with the readings of it that are under way. It moves in steps: a
reading begins, a path is removed, the cache is cleared, or a reading under way ends with an outline
or without one. The steps come in any order, and `run` takes them one after the other. Which file a
path names is a function `file` that does not change on the way.

`Orderly` is what the tickets of every traffic that is run from nothing fulfil (`orderly_run`), and
`Always` says that something holds of each step of a run.
-/

namespace CommentIndex

/-- A reading under way. -/
structure Attempt where
  /-- The path that is read, and under which the outline is going to be kept. -/
  path : Path
  ticket : Nat
  /-- What was kept when the reading began, and comes back if it fails. -/
  before : Option Outline
  /-- Whether it has begun by putting an empty outline in the place of what was kept. -/
  replaces : Bool
deriving DecidableEq, Repr

/-- A cache and the readings under way. -/
structure Traffic where
  cache : Cache := .empty
  underWay : List Attempt := []
deriving DecidableEq, Repr

namespace Traffic

/-- What may happen to a cache. -/
inductive Step where
  /-- A reading begins that drops what is kept for the file. -/
  | replace (path : Path)
  /-- What is kept for a file is dropped, and no reading begins. -/
  | displace (path : Path)
  /-- A reading begins in place. -/
  | refresh (path : Path)
  | remove (path : Path)
  | clear
  /-- The reading with a ticket ends, with an outline unless it fails. -/
  | finish (ticket : Nat) (result : Option Outline)
deriving DecidableEq, Repr

/-- Begins a reading. -/
def start (traffic : Traffic) (path : Path) (before : Option Outline) (replaces : Bool) : Traffic :=
  { cache := traffic.cache.issue path
    underWay := traffic.underWay ++ [⟨path, traffic.cache.nextTicket, before, replaces⟩] }

/-- The cache once a reading has ended. -/
def ended (file : Path → Path) (cache : Cache) (attempt : Attempt) : Option Outline → Cache
  | some outline => cache.land attempt.path (file attempt.path) attempt.ticket outline
  | none => cache.giveUp attempt.path attempt.ticket attempt.before

/-- Ends a reading. -/
def finish (file : Path → Path) (traffic : Traffic) (attempt : Attempt) (result : Option Outline) :
    Traffic :=
  { cache := ended file traffic.cache attempt result
    underWay := traffic.underWay.filter (·.ticket ≠ attempt.ticket) }

/-- Takes one step. -/
def step (file : Path → Path) (traffic : Traffic) : Step → Traffic
  | .replace path =>
    -- What comes back on failure is asked for before it is displaced.
    let before := traffic.cache.lookup? (file path)
    { traffic with cache := traffic.cache.displace path (file path) }.start path before true
  | .displace path => { traffic with cache := traffic.cache.displace path (file path) }
  | .refresh path =>
    let holder := traffic.cache.holderOr path (file path)
    traffic.start holder (traffic.cache.outlines.find? holder) false
  | .remove path => { traffic with cache := traffic.cache.remove path (file path) }
  | .clear => { traffic with cache := traffic.cache.clear }
  | .finish ticket result =>
    match traffic.underWay.find? (·.ticket = ticket) with
    | some attempt => traffic.finish file attempt result
    | none => traffic

/-- Takes steps one after the other. -/
def run (file : Path → Path) (traffic : Traffic) (steps : List Step) : Traffic :=
  steps.foldl (step file) traffic

/-- Something holds of every step of a run, in the state in which it is taken. -/
def Always (file : Path → Path) (holds : Traffic → Step → Prop) (traffic : Traffic)
    (steps : List Step) : Prop :=
  match steps with
  | [] => True
  | next :: rest => holds traffic next ∧ Always file holds (traffic.step file next) rest

/-- `Always` is decided along the run if its property is decided for each step. -/
instance Always.decidable (file : Path → Path) (holds : Traffic → Step → Prop)
    [∀ traffic next, Decidable (holds traffic next)] :
    ∀ traffic steps, Decidable (Always file holds traffic steps)
  | _, [] => isTrue trivial
  | traffic, next :: rest =>
    have := Always.decidable file holds (traffic.step file next) rest
    inferInstanceAs (Decidable (_ ∧ _))

/-- The path under which a step begins a reading. -/
def begins? (file : Path → Path) (traffic : Traffic) : Step → Option Path
  | .replace path => some path
  | .refresh path => some (traffic.cache.holderOr path (file path))
  | _ => none

/-- Every reading has its own ticket, and no ticket is beyond those that were given out. -/
structure Orderly (traffic : Traffic) : Prop where
  given : ∀ attempt ∈ traffic.underWay, attempt.ticket ≤ traffic.cache.issued
  distinct : (traffic.underWay.map Attempt.ticket).Nodup

variable {file : Path → Path} {traffic : Traffic}

/-! ## Runs -/

@[simp] theorem run_nil : run file traffic [] = traffic := rfl

@[simp] theorem run_cons (next : Step) (rest : List Step) :
    run file traffic (next :: rest) = run file (traffic.step file next) rest := rfl

/-- A run of some steps and some more is a run after a run. -/
theorem run_append (first second : List Step) :
    run file traffic (first ++ second) = run file (run file traffic first) second :=
  List.foldl_append

/-- A run of some steps and one more ends with a step. -/
theorem run_concat (steps : List Step) (last : Step) :
    run file traffic (steps ++ [last]) = (run file traffic steps).step file last :=
  run_append steps [last]

/-- What every step preserves, a run preserves. -/
theorem run_induction (holds : Traffic → Prop)
    (hstep : ∀ traffic next, holds traffic → holds (traffic.step file next))
    (hstart : holds traffic) (steps : List Step) : holds (run file traffic steps) := by
  induction steps generalizing traffic with
  | nil => exact hstart
  | cons next rest ih => exact ih (hstep traffic next hstart)

/-- What holds of all steps of a run holds of the steps of its parts. -/
theorem always_append {holds : Traffic → Step → Prop} (first second : List Step) :
    Always file holds traffic (first ++ second) ↔
      Always file holds traffic first ∧ Always file holds (run file traffic first) second := by
  induction first generalizing traffic with
  | nil => simp [Always]
  | cons next rest ih => simp [Always, ih, and_assoc]

/-! ## Readings under way -/

/-- The readings under way once one has begun are the others and that. -/
theorem mem_underWay_start {attempt : Attempt} {path : Path} {before : Option Outline}
    {replaces : Bool} :
    attempt ∈ (traffic.start path before replaces).underWay ↔
      attempt ∈ traffic.underWay ∨
        attempt = ⟨path, traffic.cache.nextTicket, before, replaces⟩ := by
  simp [start]

/-- The readings under way once one has ended are those with other tickets. -/
theorem mem_underWay_finish {attempt ending : Attempt} {result : Option Outline} :
    attempt ∈ (traffic.finish file ending result).underWay ↔
      attempt ∈ traffic.underWay ∧ attempt.ticket ≠ ending.ticket := by
  simp [finish]

/-! ## Ends of readings -/

/-- Either a reading with the ticket is under way and ends, or nothing happens. -/
theorem step_finish_cases (file : Path → Path) (traffic : Traffic) (ticket : Nat)
    (result : Option Outline) :
    (∃ attempt ∈ traffic.underWay, attempt.ticket = ticket ∧
      traffic.step file (.finish ticket result) = traffic.finish file attempt result) ∨
    ((∀ attempt ∈ traffic.underWay, attempt.ticket ≠ ticket) ∧
      traffic.step file (.finish ticket result) = traffic) := by
  simp only [step]
  cases hfind : traffic.underWay.find? (·.ticket = ticket) with
  | none => exact Or.inr ⟨by simpa using hfind, rfl⟩
  | some attempt =>
      have hticket := List.find?_some hfind
      exact Or.inl ⟨attempt, List.mem_of_find?_eq_some hfind, by simpa using hticket, rfl⟩

/-- The end of a reading gives out no ticket. -/
@[simp] theorem issued_ended (file : Path → Path) (cache : Cache) (attempt : Attempt)
    (result : Option Outline) :
    (ended file cache attempt result).issued = cache.issued := by
  cases result with
  | none => exact Cache.issued_giveUp ..
  | some outline => exact Cache.issued_land ..

/-- The end of a reading that is not the latest of its path leaves the cache alone. -/
theorem ended_of_not_current {cache : Cache} {attempt : Attempt}
    (h : cache.inFlight.find? attempt.path ≠ some attempt.ticket) (result : Option Outline) :
    ended file cache attempt result = cache := by
  cases result with
  | none => exact Cache.giveUp_of_not_current h _
  | some outline => exact Cache.land_of_not_current h _ _

/-- What is kept stays when a reading ends that is not the latest of its path. -/
theorem cache_finish_of_not_current {attempt : Attempt}
    (h : traffic.cache.inFlight.find? attempt.path ≠ some attempt.ticket)
    (result : Option Outline) : (traffic.finish file attempt result).cache = traffic.cache :=
  ended_of_not_current h result

/-- The end of a reading that is the latest of its path ends that, and no other. -/
theorem inFlight_ended_of_current {cache : Cache} {attempt : Attempt}
    (h : cache.inFlight.find? attempt.path = some attempt.ticket) (result : Option Outline) :
    (ended file cache attempt result).inFlight = cache.inFlight.erase attempt.path := by
  cases result with
  | none => exact Cache.inFlight_giveUp_of_current h _
  | some outline =>
      simp only [ended, Cache.land_of_current h]
      rfl

/-! ## Tickets -/

/-- Tickets are never taken back. -/
theorem issued_le_step (file : Path → Path) (traffic : Traffic) (next : Step) :
    traffic.cache.issued ≤ (traffic.step file next).cache.issued := by
  cases next with
  | replace path => exact Nat.le_succ _
  | displace path => exact Nat.le_refl _
  | refresh path => exact Nat.le_succ _
  | remove path => exact Nat.le_refl _
  | clear => exact Nat.le_refl _
  | finish ticket result =>
      rcases step_finish_cases file traffic ticket result with
        ⟨attempt, -, -, hstep⟩ | ⟨-, hstep⟩
      · rw [hstep]
        exact Nat.le_of_eq (issued_ended file _ _ _).symm
      · exact Nat.le_of_eq (by rw [hstep])

/-- A new reading has a ticket of its own. -/
theorem Orderly.start (h : traffic.Orderly) (path : Path) (before : Option Outline)
    (replaces : Bool) : (traffic.start path before replaces).Orderly where
  given := by
    intro attempt hattempt
    rcases mem_underWay_start.mp hattempt with hold | rfl
    · exact Nat.le_succ_of_le (h.given attempt hold)
    · exact Nat.le_refl _
  distinct := by
    unfold Traffic.start
    rw [List.map_append, List.nodup_append]
    refine ⟨h.distinct, by simp, fun ticket hticket other hother heq => ?_⟩
    obtain ⟨attempt, hattempt, rfl⟩ := List.mem_map.mp hticket
    have hle := h.given attempt hattempt
    have hnew : other = traffic.cache.issued + 1 := by simpa [Cache.nextTicket] using hother
    omega

/-- A reading that begins supersedes those of its path that are under way. -/
theorem Orderly.superseded (h : traffic.Orderly) {attempt : Attempt}
    (hmem : attempt ∈ traffic.underWay) (path : Path) (before : Option Outline)
    (replaces : Bool) :
    (traffic.start path before replaces).cache.inFlight.find? path ≠ some attempt.ticket := by
  intro hcurrent
  have hle := h.given attempt hmem
  have hnew : traffic.cache.nextTicket = attempt.ticket := by
    simpa [Traffic.start, Cache.inFlight_issue] using hcurrent
  unfold Cache.nextTicket at hnew
  omega

/-- Every step keeps the tickets in order. -/
theorem Orderly.step (h : traffic.Orderly) (next : Step) : (traffic.step file next).Orderly := by
  cases next with
  | replace path =>
      -- The reading begins in a cache that has given out the same tickets.
      have hdisplaced : ({ traffic with cache := traffic.cache.displace path (file path) } :
          Traffic).Orderly := ⟨h.given, h.distinct⟩
      exact hdisplaced.start ..
  | displace path => exact ⟨h.given, h.distinct⟩
  | refresh path => exact h.start ..
  | remove path => exact ⟨h.given, h.distinct⟩
  | clear => exact ⟨h.given, h.distinct⟩
  | finish ticket result =>
      rcases step_finish_cases file traffic ticket result with
        ⟨attempt, -, -, hstep⟩ | ⟨-, hstep⟩
      · rw [hstep]
        refine ⟨fun other hother => ?_, h.distinct.sublist (List.filter_sublist.map _)⟩
        have hle := h.given other (mem_underWay_finish.mp hother).1
        exact (issued_ended file _ _ _).symm ▸ hle
      · rw [hstep]
        exact h

/-- The tickets are in order however the steps come. -/
theorem orderly_run (file : Path → Path) (steps : List Step) : (run file {} steps).Orderly :=
  run_induction Orderly (fun _ next h => h.step next) ⟨by simp, by simp⟩ steps

/-- A reading under way is the one that its ticket finds. -/
theorem Orderly.step_finish (h : traffic.Orderly) (file : Path → Path) {attempt : Attempt}
    (hmem : attempt ∈ traffic.underWay) (result : Option Outline) :
    traffic.step file (.finish attempt.ticket result) = traffic.finish file attempt result := by
  rcases step_finish_cases file traffic attempt.ticket result with
    ⟨other, hother, hticket, hstep⟩ | ⟨hnone, -⟩
  · obtain rfl : other = attempt := List.inj_on_of_nodup_map h.distinct hother hmem hticket
    exact hstep
  · exact absurd rfl (hnone attempt hmem)

/-- A reading stays under way after a step that does not end it. -/
theorem mem_underWay_step {attempt : Attempt} (hmem : attempt ∈ traffic.underWay) {next : Step}
    (hnext : ∀ result, next ≠ .finish attempt.ticket result) :
    attempt ∈ (traffic.step file next).underWay := by
  cases next with
  | replace path => exact mem_underWay_start.mpr (Or.inl hmem)
  | displace path => exact hmem
  | refresh path => exact mem_underWay_start.mpr (Or.inl hmem)
  | remove path => exact hmem
  | clear => exact hmem
  | finish ticket result =>
      rcases step_finish_cases file traffic ticket result with
        ⟨ending, -, rfl, hstep⟩ | ⟨-, hstep⟩
      · rw [hstep]
        refine mem_underWay_finish.mpr ⟨hmem, fun heq => ?_⟩
        exact hnext result (heq ▸ rfl)
      · rw [hstep]
        exact hmem

/-- A reading stays under way during a run that does not end it. -/
theorem mem_underWay_run {attempt : Attempt} (hmem : attempt ∈ traffic.underWay)
    {steps : List Step} (hopen : ∀ result, .finish attempt.ticket result ∉ steps) :
    attempt ∈ (run file traffic steps).underWay := by
  induction steps generalizing traffic with
  | nil => exact hmem
  | cons next rest ih =>
      have hnext : ∀ result, next ≠ .finish attempt.ticket result :=
        fun result heq => hopen result (heq ▸ List.mem_cons_self)
      exact ih (mem_underWay_step hmem hnext)
        fun result hrest => hopen result (List.mem_cons_of_mem _ hrest)

end Traffic

end CommentIndex
