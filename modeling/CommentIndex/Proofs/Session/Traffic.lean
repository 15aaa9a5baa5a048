import CommentIndex.Proofs.Session.Readings
import Mathlib.Data.List.Forall2

/-!
# The traffic of a session

A session that holds its readings does to its cache what a traffic does. Its tasks are the readings
under way, each with the gate that goes with its ticket. Every start of a reading, every release,
and every removal is one step of the traffic, and what happens to files, buffers, and settings in
between is none. The relation is `Mirrors`, and `exists_run_mirrors` is the statement about whole
runs of a session.
-/

namespace CommentIndex.Session

open Activity

variable {file : Path → Path} {session : Session} {traffic : Traffic} {path : Path}

/-- What is left of a task ends a reading under way. Gates are counted from 0 and tickets from 1. -/
structure Awaits (task : Task) (attempt : Attempt) : Prop where
  ticket : attempt.ticket = task.gate + 1
  usable : attempt.path.isUnusable = false
  rest : ∃ matcher registry text, task.rest =
    some <$> Workspace.endReading matcher registry attempt.path attempt.ticket attempt.before text

/-- Every path that holds a file is usable. -/
def Usable (cache : Cache) : Prop :=
  ∀ item holder, cache.holders.find? item = some holder → holder.isUnusable = false

/-- A session has the cache of a traffic, and its tasks are the readings under way. -/
structure Mirrors (file : Path → Path) (session : Session) (traffic : Traffic) : Prop where
  holdsReads : session.holdsReads = true
  names : session.workspace.Names file
  cache : session.workspace.cache = traffic.cache
  usable : Usable traffic.cache
  gates : session.gates = traffic.cache.issued
  tasks : List.Forall₂ Awaits session.tasks traffic.underWay

/-! ## Tasks -/

/-- A task that is held waits at the next gate. -/
theorem runTask_held (session : Session) {activity rest : Activity (Option Bool)}
    {after : Workspace}
    (h : activity.stretch session.holds session.workspace = (.held rest, after))
    (number : Option Nat) :
    (session.runTask number activity).workspace = after ∧
      (session.runTask number activity).holdsReads = session.holdsReads ∧
      (session.runTask number activity).gates = session.gates + 1 ∧
      (session.runTask number activity).tasks =
        session.tasks ++ [⟨number, session.gates, rest⟩] := by
  obtain ⟨hprogress, hwork⟩ := runAtOnce_eq_stretch activity session
  rw [h] at hprogress hwork
  unfold runTask note
  simp only [hprogress]
  exact ⟨hwork.workspace, hwork.holdsReads, congrArg (· + 1) hwork.gates, by
    rw [hwork.tasks, hwork.gates]⟩

/-- A task that ends leaves the others waiting. -/
theorem runTask_finished (session : Session) {activity : Activity (Option Bool)}
    {outcome : Outcome (Option Bool)} {after : Workspace}
    (h : activity.stretch session.holds session.workspace = (.finished outcome, after))
    (number : Option Nat) :
    SameWork { session with workspace := after } (session.runTask number activity) := by
  obtain ⟨hprogress, hwork⟩ := runAtOnce_eq_stretch activity session
  rw [h] at hprogress hwork
  unfold runTask note
  simp only [hprogress]
  cases number with
  | none => exact hwork
  | some number => exact ⟨hwork.workspace, hwork.holdsReads, hwork.gates, hwork.tasks⟩

/-- A session that holds its readings holds both kinds. -/
theorem Mirrors.holds (h : Mirrors file session traffic) :
    session.holds .buffer = true ∧ session.holds .file = true := by
  simp [Session.holds, h.holdsReads]

/-- An activity that pauses for its text is one more reading under way. -/
theorem Mirrors.start_held (h : Mirrors file session traffic) (activity : Activity Bool)
    (cache : Cache) {before : Option Outline}
    (hstretch : ∃ matcher registry text,
      activity.stretch session.holds session.workspace =
        (.held (Workspace.endReading matcher registry path cache.nextTicket before text),
          { session.workspace with cache := cache.issue path }))
    (hpath : path.isUnusable = false) (hissued : cache.issued = traffic.cache.issued)
    (husable : Usable cache) (replaces : Bool) :
    Mirrors file (session.start (some <$> activity))
      ({ traffic with cache := cache }.start path before replaces) := by
  obtain ⟨matcher, registry, text, hheld⟩ := hstretch
  have htask : (some <$> activity).stretch session.holds session.workspace =
      (.held (some <$> Workspace.endReading matcher registry path cache.nextTicket before text),
        { session.workspace with cache := cache.issue path }) := by
    rw [map_eq, stretch_bind, hheld]
    rfl
  obtain ⟨hworkspace, hholds, hgates, htasks⟩ :=
    runTask_held { session with outcomes := session.outcomes ++ [none] } htask
      (some session.outcomes.length)
  unfold start
  refine ⟨hholds.trans h.holdsReads, ?_, ?_, husable, ?_, ?_⟩
  · rw [hworkspace]
    exact h.names
  · rw [hworkspace]
    rfl
  · rw [hgates, h.gates, ← hissued]
    rfl
  · rw [htasks]
    refine List.rel_append h.tasks (List.Forall₂.cons ⟨?_, hpath, ?_⟩ List.Forall₂.nil)
    · simp [Cache.nextTicket, hissued, h.gates]
    · exact ⟨matcher, registry, text, rfl⟩

/-- An activity that ends at once only changes the cache. -/
theorem Mirrors.start_finished (h : Mirrors file session traffic) (activity : Activity Bool)
    (cache : Cache) {outcome : Outcome Bool}
    (hstretch : activity.stretch session.holds session.workspace =
      (.finished outcome, { session.workspace with cache := cache }))
    (hissued : cache.issued = traffic.cache.issued) (husable : Usable cache) :
    Mirrors file (session.start (some <$> activity)) { traffic with cache := cache } := by
  have htask : (some <$> activity).stretch session.holds session.workspace =
      (.finished (outcome.map some), { session.workspace with cache := cache }) := by
    rw [map_eq, stretch_bind, hstretch]
    cases outcome <;> rfl
  have hwork := runTask_finished { session with outcomes := session.outcomes ++ [none] } htask
    (some session.outcomes.length)
  unfold start
  refine ⟨hwork.holdsReads.trans h.holdsReads, ?_, ?_, husable, ?_, ?_⟩
  · rw [hwork.workspace]
    exact h.names
  · rw [hwork.workspace]
  · exact (hwork.gates.trans h.gates).trans hissued.symm
  · rw [hwork.tasks]
    exact h.tasks

/-! ## Holders -/

/-- A file is displaced by a usable path. -/
theorem Usable.displace {cache : Cache} (h : Usable cache) (hpath : path.isUnusable = false)
    (item : Path) : Usable (cache.displace path item) := by
  intro other holder hholder
  rw [Cache.holder_displace] at hholder
  split at hholder
  · exact Option.some.inj hholder ▸ hpath
  · exact h other holder hholder

/-- A removed path leaves the other holders. -/
theorem Usable.remove {cache : Cache} (h : Usable cache) (path item : Path) :
    Usable (cache.remove path item) := by
  intro other holder hholder
  rw [Cache.holder_remove] at hholder
  split at hholder
  · contradiction
  · exact h other holder hholder

/-- A reading of a usable path ends. -/
theorem Usable.ended {cache : Cache} (h : Usable cache) {attempt : Attempt}
    (hpath : attempt.path.isUnusable = false) (result : Option Outline) :
    Usable (Traffic.ended file cache attempt result) := by
  by_cases hcurrent : cache.inFlight.find? attempt.path = some attempt.ticket
  · intro other holder hholder
    cases result with
    | none => exact h other holder ((Cache.holders_giveUp ..) ▸ hholder)
    | some outline =>
        rw [Traffic.ended, Cache.holder_land_of_current hcurrent] at hholder
        split at hholder
        · exact Option.some.inj hholder ▸ hpath
        · exact h other holder hholder
  · rw [Traffic.ended_of_not_current hcurrent]
    exact h

/-- A usable path is read under a usable path. -/
theorem Usable.holderOr {cache : Cache} (h : Usable cache) (hpath : path.isUnusable = false)
    (item : Path) : (cache.holderOr path item).isUnusable = false := by
  unfold Cache.holderOr
  cases hholder : cache.holders.find? item with
  | none => exact hpath
  | some holder => exact h item holder hholder

/-! ## One step after the other -/

/-- What may happen in a session. -/
inductive Move where
  | replace (path : Path)
  | refresh (path : Path)
  | remove (path : Path)
  | clear
  | release (gate : Nat)
  /-- The settings, the files, the open documents, and everything else but the cache become those of
  another workspace. -/
  | world (workspace : Workspace)

/-- The session once something has happened. -/
def move (session : Session) : Move → Session
  | .replace path => session.start (some <$> Workspace.replace path)
  | .refresh path => session.start (some <$> Workspace.refresh path)
  | .remove path => (run (Workspace.remove path) session).2
  | .clear => (run Workspace.clear session).2
  | .release gate => session.release gate
  | .world workspace =>
    { session with workspace := { workspace with cache := session.workspace.cache } }

/-- The steps that something is for a traffic. What is read in the end is told from outside. -/
def Move.steps (session : Session) (result : Option Outline) : Move → List Traffic.Step
  | .replace path =>
    if path.isUnusable then []
    else if session.workspace.matcher.isSome then [.replace path]
    else [.displace path]
  | .refresh path =>
    if path.isUnusable || session.workspace.matcher.isNone then [] else [.refresh path]
  | .remove path => if path.isUnusable then [] else [.remove path]
  | .clear => [.clear]
  | .release gate => [.finish (gate + 1) result]
  | .world _ => []

/-- The steps of a traffic are those of what happens in a session. -/
def Follows (session : Session) (moves : List Move) (steps : List Traffic.Step) : Prop :=
  match moves with
  | [] => steps = []
  | next :: rest =>
    ∃ result later, steps = next.steps session result ++ later ∧
      Follows (session.move next) rest later

/-- Paths go on to name the same files. -/
def Move.Keeps (file : Path → Path) : Move → Prop
  | .world workspace => workspace.Names file
  | _ => True

/-- An activity that ends at once without a change is no step. -/
theorem Mirrors.start_idle (h : Mirrors file session traffic) (activity : Activity Bool)
    {outcome : Outcome Bool}
    (hstretch : activity.stretch session.holds session.workspace =
      (.finished outcome, session.workspace)) :
    Mirrors file (session.start (some <$> activity)) traffic :=
  h.start_finished activity traffic.cache (by rw [hstretch, ← h.cache]) rfl h.usable

/-- The start of a replacement is a step of the traffic. -/
theorem Mirrors.replace (h : Mirrors file session traffic) (path : Path)
    (result : Option Outline) :
    Mirrors file (session.move (.replace path))
      (traffic.run file (Move.steps session result (.replace path))) := by
  simp only [Move.steps]
  by_cases hpath : path.isUnusable
  · rw [if_pos hpath]
    exact h.start_idle _ (Workspace.stretch_fileAt_of_unusable hpath _)
  · rw [if_neg hpath]
    have hpath : path.isUnusable = false := eq_false_of_ne_true hpath
    have husable := h.usable.displace hpath (file path)
    cases hmatcher : session.workspace.matcher with
    | some matcher =>
        obtain ⟨text, htext⟩ :=
          Workspace.stretch_replace h.names h.holds.1 h.holds.2 hpath hmatcher
        rw [h.cache] at htext
        exact h.start_held _ (traffic.cache.displace path (file path)) ⟨matcher, _, text, htext⟩
          hpath rfl husable true
    | none =>
        have hstretch := Workspace.stretch_replace_of_none session.holds h.names hpath hmatcher
        rw [h.cache] at hstretch
        exact h.start_finished _ _ hstretch rfl husable

/-- The start of a reading in place is a step of the traffic. -/
theorem Mirrors.refresh (h : Mirrors file session traffic) (path : Path)
    (result : Option Outline) :
    Mirrors file (session.move (.refresh path))
      (traffic.run file (Move.steps session result (.refresh path))) := by
  simp only [Move.steps]
  by_cases hpath : path.isUnusable
  · rw [if_pos (by simp [hpath])]
    exact h.start_idle _ (Workspace.stretch_fileAt_of_unusable hpath _)
  · have hpath : path.isUnusable = false := eq_false_of_ne_true hpath
    have hholder := h.usable.holderOr hpath (file path)
    cases hmatcher : session.workspace.matcher with
    | some matcher =>
        rw [← h.cache] at hholder
        obtain ⟨text, htext⟩ :=
          Workspace.stretch_refresh h.names h.holds.1 h.holds.2 hpath hholder hmatcher
        rw [h.cache] at htext hholder
        rw [if_neg (by simp [hpath])]
        exact h.start_held _ traffic.cache ⟨matcher, _, text, htext⟩ hholder rfl h.usable false
    | none =>
        rw [if_pos (by simp)]
        exact h.start_idle _
          (Workspace.stretch_refresh_of_none session.holds h.names hpath hmatcher)

/-- A removal is a step of the traffic. -/
theorem Mirrors.remove (h : Mirrors file session traffic) (path : Path)
    (result : Option Outline) :
    Mirrors file (session.move (.remove path))
      (traffic.run file (Move.steps session result (.remove path))) := by
  simp only [Move.steps]
  by_cases hpath : path.isUnusable
  · have hfile : session.workspace.fileAt path = .error .unusablePath := if_pos hpath
    have hmove : session.move (.remove path) = session := by
      simp [move, Workspace.remove, ask, run, Activity.bind, hfile, Activity.ofExcept]
    rw [if_pos hpath, hmove]
    exact h
  · have hfile := h.names.fileAt (eq_false_of_ne_true hpath)
    have hmove : session.move (.remove path) =
        { session with
          workspace := { session.workspace with
            cache := session.workspace.cache.remove path (file path) } } := by
      simp [move, Workspace.remove, ask, run, Activity.bind, hfile, Activity.ofExcept,
        Activity.change]
    rw [if_neg hpath, hmove]
    -- Holders only get fewer.
    refine ⟨h.holdsReads, h.names, ?_, h.usable.remove _ _, h.gates, h.tasks⟩
    exact congrArg (Cache.remove · path (file path)) h.cache

/-- That everything is dropped is a step of the traffic. -/
theorem Mirrors.clear (h : Mirrors file session traffic) :
    Mirrors file (session.move .clear) (traffic.run file [.clear]) := by
  refine ⟨h.holdsReads, h.names, congrArg Cache.clear h.cache, ?_, h.gates, h.tasks⟩
  intro item holder hholder
  contradiction

/-- The task at a gate is the reading with the ticket that goes with it. -/
theorem find?_awaits {tasks : List Task} {underWay : List Attempt}
    (h : List.Forall₂ Awaits tasks underWay) (gate : Nat) :
    (tasks.find? (·.gate = gate) = none ∧ underWay.find? (·.ticket = gate + 1) = none) ∨
      ∃ task attempt, tasks.find? (·.gate = gate) = some task ∧
        underWay.find? (·.ticket = gate + 1) = some attempt ∧ Awaits task attempt := by
  induction h with
  | nil => exact Or.inl ⟨rfl, rfl⟩
  | @cons task attempt rest others hawaits _ ih =>
      have hticket := hawaits.ticket
      by_cases hgate : task.gate = gate
      · exact Or.inr ⟨task, attempt, by simp [hgate], by simp [hticket, hgate], hawaits⟩
      · simpa [hgate, hticket] using ih

/-- What is left of a task ends its reading. -/
theorem Awaits.stretch {task : Task} {attempt : Attempt} (hawaits : Awaits task attempt)
    (holds : Pause → Bool) {workspace : Workspace} (hnames : workspace.Names file) :
    ∃ outcome result, task.rest.stretch holds workspace =
      (.finished outcome,
        { workspace with cache := Traffic.ended file workspace.cache attempt result }) := by
  obtain ⟨matcher, registry, text, hrest⟩ := hawaits.rest
  obtain ⟨found, result, hended⟩ :=
    Workspace.stretch_endReading holds hnames hawaits.usable matcher registry text
  refine ⟨.ok (some found), result, ?_⟩
  rw [hrest, map_eq, stretch_bind, hended]
  rfl

/-- The release of a gate is a step of the traffic. -/
theorem Mirrors.release (h : Mirrors file session traffic) (gate : Nat) :
    ∃ result, Mirrors file (session.move (.release gate))
      (traffic.run file [.finish (gate + 1) result]) := by
  rcases find?_awaits h.tasks gate with
    ⟨hnone, hidle⟩ | ⟨task, attempt, htask, hattempt, hawaits⟩
  · have hmove : session.move (.release gate) = session := by simp [move, Session.release, hnone]
    have hstep : traffic.run file [.finish (gate + 1) none] = traffic := by
      simp [Traffic.step, hidle]
    refine ⟨none, ?_⟩
    rw [hmove, hstep]
    exact h
  · obtain ⟨outcome, result, hstretch⟩ := hawaits.stretch session.holds h.names
    have hticket : attempt.ticket = gate + 1 := by simpa using List.find?_some hattempt
    have hwork := runTask_finished
      { session with tasks := session.tasks.filter (·.gate ≠ gate) } hstretch task.number
    have hmove : session.move (.release gate) =
        { session with tasks := session.tasks.filter (·.gate ≠ gate) }.runTask task.number
          task.rest := by
      simp [move, Session.release, htask]
    have hstep : traffic.run file [.finish (gate + 1) result] =
        traffic.finish file attempt result := by
      simp [Traffic.step, hattempt]
    refine ⟨result, ?_⟩
    rw [hmove, hstep]
    refine ⟨hwork.holdsReads.trans h.holdsReads, ?_, ?_, h.usable.ended hawaits.usable result,
      ?_, ?_⟩
    · rw [hwork.workspace]
      exact h.names
    · rw [hwork.workspace, h.cache]
      rfl
    · rw [hwork.gates]
      exact h.gates.trans (Traffic.issued_ended file _ _ _).symm
    · rw [hwork.tasks]
      -- Gates and tickets go together, so the same places are left on both sides.
      refine List.rel_filter (fun other reading hother => ?_) h.tasks
      simp [hother.ticket, hticket]

/-- Whatever happens outside the cache is no step of the traffic. -/
theorem Mirrors.world (h : Mirrors file session traffic) {workspace : Workspace}
    (hnames : workspace.Names file) : Mirrors file (session.move (.world workspace)) traffic :=
  ⟨h.holdsReads, hnames, h.cache, h.usable, h.gates, h.tasks⟩

/-- Whatever happens in a session, its steps lead the traffic to the same cache. -/
theorem Mirrors.move (h : Mirrors file session traffic) {next : Move} (hkeeps : next.Keeps file) :
    ∃ result, Mirrors file (session.move next)
      (traffic.run file (next.steps session result)) := by
  cases next with
  | replace path => exact ⟨none, h.replace path none⟩
  | refresh path => exact ⟨none, h.refresh path none⟩
  | remove path => exact ⟨none, h.remove path none⟩
  | clear => exact ⟨none, h.clear⟩
  | release gate => exact h.release gate
  | world workspace => exact ⟨none, h.world hkeeps⟩

/-- However a session goes on, as long as paths name the same files, its traffic follows. -/
theorem Mirrors.moves (h : Mirrors file session traffic) {moves : List Move}
    (hkeeps : ∀ next ∈ moves, next.Keeps file) :
    ∃ steps, Follows session moves steps ∧
      Mirrors file (moves.foldl Session.move session) (traffic.run file steps) := by
  induction moves generalizing session traffic with
  | nil => exact ⟨[], rfl, h⟩
  | cons next rest ih =>
      obtain ⟨result, hnext⟩ := h.move (hkeeps next List.mem_cons_self)
      obtain ⟨later, hfollows, hlater⟩ :=
        ih hnext fun other hother => hkeeps other (List.mem_cons_of_mem _ hother)
      refine ⟨_, ⟨result, later, rfl, hfollows⟩, ?_⟩
      rw [Traffic.run_append]
      exact hlater

/-- A session that holds its readings and has begun none mirrors the traffic that has begun none, so
the runs of the traffic are about every session. -/
theorem exists_run_mirrors {workspace : Workspace} (hnames : workspace.Names file)
    (hcache : workspace.cache = .empty) {moves : List Move}
    (hkeeps : ∀ next ∈ moves, next.Keeps file) :
    let session : Session := { workspace := workspace, holdsReads := true }
    ∃ steps, Follows session moves steps ∧
      Mirrors file (moves.foldl Session.move session) (Traffic.run file {} steps) := by
  intro session
  have hstart : Mirrors file session {} :=
    ⟨rfl, hnames, hcache, by simp [Usable, Cache.empty], rfl, List.Forall₂.nil⟩
  exact hstart.moves hkeeps

end CommentIndex.Session
