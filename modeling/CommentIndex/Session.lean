import CommentIndex.Panel
import CommentIndex.Workspace.Documents
import CommentIndex.Workspace.Scan

/-!
# Sessions

A `Session` is a workspace in time: activities run in it, timers expire in it, and those who watch
the workspace hear when it changes. Reading takes no time; only rests do. A session may also hold
every reading until it is told to go on, and then several activities are under way at once.
-/

namespace CommentIndex

/-- A callback that is registered with a workspace. -/
inductive Listener where
  /-- Counts its calls. -/
  | counter (number : Nat)
  /-- Counts the calls of a widget. -/
  | widget (name : String) (serial : Nat)
  /-- Draws a panel afresh. -/
  | panel (name : String) (serial : Nat)
deriving DecidableEq, Repr

/-- A listener that counts its calls, and may stop to listen with the first. -/
structure Counter where
  stopsAtOnce : Bool
  calls : Nat := 0
deriving DecidableEq, Repr, Inhabited

/-- A widget that counts its calls. -/
structure Widget where
  watcher : Watcher Listener := {}
  calls : Nat := 0
deriving DecidableEq, Repr, Inhabited

/-- What a finished activity gave. -/
abbrev Outcome (α : Type) := Except WorkspaceError α

/-- How far an activity got. -/
inductive Progress (α : Type) where
  | finished (outcome : Outcome α)
  /-- It waits for its text. -/
  | held (rest : Activity α)

/-- An activity under way: what is left of it, and the reading that it waits for. The timers start
some that have no number. -/
structure Task where
  number : Option Nat
  gate : Nat
  rest : Activity (Option Bool)

/-- A workspace in time. -/
structure Session where
  workspace : Workspace
  subscriptions : Subscriptions Listener := .empty
  counters : List Counter := []
  widgets : KeyedList String Widget := .empty
  panels : KeyedList String (Panel Listener) := .empty
  /-- How many callbacks of widgets and panels have been made. -/
  serial : Nat := 0
  /-- The reports so far, the last one first. -/
  reports : List Report := []
  /-- The progress of scans so far, the last one first. -/
  progress : List (Nat × Nat) := []
  /-- Whether readings are held. -/
  holdsReads : Bool := false
  /-- How many readings have been held. -/
  gates : Nat := 0
  /-- The activities that wait. -/
  tasks : List Task := []
  /-- What the numbered activities gave, as far as they have ended. -/
  outcomes : List (Option (Outcome (Option Bool))) := []

namespace Session

variable {α : Type}

/-! ## Those who watch -/

/-- Changes the counter of a number. -/
def modifyCounter (session : Session) (number : Nat) (change : Counter → Counter) : Session :=
  { session with counters := session.counters.modify number change }

/-- Calls a callback. -/
def call (session : Session) (listener : Listener) : Session :=
  match listener with
  | .counter number =>
    let stops := (session.counters[number]?).any (·.stopsAtOnce)
    let session :=
      session.modifyCounter number fun counter => { counter with calls := counter.calls + 1 }
    if stops then { session with subscriptions := session.subscriptions.unwatch listener }
    else session
  | .widget name _ =>
    match session.widgets.find? name with
    | some widget =>
      if widget.watcher.isSuppressing then session
      else
        { session with
          widgets := session.widgets.insert name { widget with calls := widget.calls + 1 } }
    | none => session
  | .panel name _ =>
    match session.panels.find? name with
    | some panel =>
      if panel.watcher.isSuppressing || !panel.watcher.watches.contains listener then session
      else
        { session with panels := session.panels.insert name (panel.redraw session.workspace) }
    | none => session

/-- Takes notice of a signal. A change calls those callbacks that were registered when it was
told. -/
def hear (session : Session) (signal : Signal) : Session :=
  match signal with
  | .changed => session.subscriptions.notified.foldl call session
  | .report report => { session with reports := report :: session.reports }
  | .progress found total => { session with progress := (found, total) :: session.progress }

/-- Registers a new counter. -/
def watch (session : Session) (stopsAtOnce : Bool) : Session :=
  { session with
    counters := session.counters ++ [{ stopsAtOnce := stopsAtOnce }]
    subscriptions := session.subscriptions.watch (.counter session.counters.length) }

/-- Undoes the registration of a counter. -/
def unwatch (session : Session) (number : Nat) : Session :=
  { session with subscriptions := session.subscriptions.unwatch (.counter number) }

/-- The widget of a name; it is made when it is first used. -/
def widget (session : Session) (name : String) : Widget :=
  (session.widgets.find? name).getD {}

/-- Changes the watcher of a widget. -/
def modifyWidget (session : Session) (name : String)
    (change : Watcher Listener → Watcher Listener) : Session :=
  let widget := session.widget name
  { session with
    widgets := session.widgets.insert name { widget with watcher := change widget.watcher } }

/-- Registers a callback of a widget. -/
def watchWidget (session : Session) (name : String) : Session :=
  let widget := session.widget name
  let (watcher, subscriptions) :=
    widget.watcher.watch session.subscriptions (.widget name session.serial)
  { session with
    widgets := session.widgets.insert name { widget with watcher := watcher }
    subscriptions := subscriptions
    serial := session.serial + 1 }

/-- Undoes the registrations of a widget. -/
def unmountWidget (session : Session) (name : String) : Session :=
  let widget := session.widget name
  let (watcher, subscriptions) := widget.watcher.unmount session.subscriptions
  { session with
    widgets := session.widgets.insert name { widget with watcher := watcher }
    subscriptions := subscriptions }

/-- Makes a panel that shows nothing yet. -/
def openPanel (session : Session) (name : String) (view : View) : Session :=
  { session with panels := session.panels.insert name { view := view } }

/-- Changes a panel. -/
def modifyPanel (session : Session) (name : String)
    (change : Panel Listener → Panel Listener) : Session :=
  match session.panels.find? name with
  | some panel => { session with panels := session.panels.insert name (change panel) }
  | none => session

/-- Draws a panel afresh. -/
def redrawPanel (session : Session) (name : String) : Session :=
  session.modifyPanel name (·.redraw session.workspace)

/-- Registers a panel, which is drawn from then on whenever the workspace changes, and draws it. -/
def mountPanel (session : Session) (name : String) : Session :=
  match session.panels.find? name with
  | some panel =>
    let (watcher, subscriptions) :=
      panel.watcher.watch session.subscriptions (.panel name session.serial)
    { session with
      panels := session.panels.insert name { panel with watcher := watcher }
      subscriptions := subscriptions
      serial := session.serial + 1 }.redrawPanel name
  | none => session

/-- Undoes the registrations of a panel. -/
def unmountPanel (session : Session) (name : String) : Session :=
  match session.panels.find? name with
  | some panel =>
    let (watcher, subscriptions) := panel.watcher.unmount session.subscriptions
    { session with
      panels := session.panels.insert name { panel with watcher := watcher }
      subscriptions := subscriptions }
  | none => session

/-! ## Activities and time -/

/-- Whether a pause is held: only readings are. -/
def holds (session : Session) (reason : Pause) : Bool :=
  session.holdsReads && (reason = .buffer || reason = .file)

/-- Runs an activity while time stands still, up to a reading that is held. -/
def runAtOnce : Activity α → Session → Progress α × Session
  | .done result, session => (.finished (.ok result), session)
  | .fail error, session => (.finished (.error error), session)
  | .act update next, session =>
    runAtOnce (next session.workspace)
      { session with workspace := update session.workspace }
  | .tell signal next, session => runAtOnce next (session.hear signal)
  | .pause reason next, session =>
    if session.holds reason then (.held next, session) else runAtOnce next session

/-- Notes how far a task got. A task that is held gets the next gate. -/
def note (session : Session) (number : Option Nat) (progress : Progress (Option Bool)) :
    Session :=
  match progress with
  | .held rest =>
    { session with
      gates := session.gates + 1
      tasks := session.tasks ++ [⟨number, session.gates, rest⟩] }
  | .finished outcome =>
    match number with
    | some number =>
      { session with outcomes := session.outcomes.set number (some outcome) }
    | none => session

/-- Runs a task while time stands still. -/
def runTask (session : Session) (number : Option Nat) (activity : Activity (Option Bool)) :
    Session :=
  let (progress, session) := runAtOnce activity session
  session.note number progress

/-- Starts a task with the next number. -/
def start (session : Session) (activity : Activity (Option Bool)) : Session :=
  let number := session.outcomes.length
  { session with outcomes := session.outcomes ++ [none] }.runTask (some number) activity

/-- Lets the task go on that waits at a gate. -/
def release (session : Session) (gate : Nat) : Session :=
  match session.tasks.find? (·.gate = gate) with
  | some task =>
    { session with tasks := session.tasks.filter (·.gate ≠ gate) }.runTask task.number task.rest
  | none => session

/-- The session once a timer has expired: the active document is read if its request is still the
latest. -/
def expire (session : Session) (timer : Timer Nat) (others : Debouncer Nat) : Session :=
  let session :=
    { session with
      workspace := { session.workspace with now := timer.due, debouncer := others } }
  if others.isCurrent timer then
    session.runTask none do
      Workspace.refreshActive
      return none
  else session

/-- The session once the first `count` timers at most have expired, none later than `limit`. -/
def expireTo (limit : Nat) : Nat → Session → Session
  | 0, session => session
  | count + 1, session =>
    match session.workspace.debouncer.expire? limit with
    | some (timer, others) => expireTo limit count (session.expire timer others)
    | none => session

/-- The session at a later time, once every timer due by then has expired. -/
def advanceTo (session : Session) (limit : Nat) : Session :=
  let session := expireTo limit session.workspace.debouncer.timers.length session
  { session with workspace := { session.workspace with now := limit } }

/-- The session once everything has happened that needs no time. -/
def settle (session : Session) : Session :=
  session.advanceTo session.workspace.now

/-- The session some milliseconds later. -/
def advance (session : Session) (milliseconds : Nat) : Session :=
  session.advanceTo (session.workspace.now + milliseconds)

/-- The session once every timer has expired. -/
def flush (session : Session) : Session :=
  let due := session.workspace.debouncer.timers.map (·.due)
  session.advanceTo (due.foldl max session.workspace.now)

/-- Whether the active document is going to be read once more: a timer runs, or what one has started
has not ended. -/
def isPending (session : Session) : Bool :=
  session.workspace.debouncer.isPending || session.tasks.any fun task => task.number.isNone

/-- Runs an activity to its end; rests take their time, and readings are not held. -/
def run : Activity α → Session → Outcome α × Session
  | .done result, session => (.ok result, session)
  | .fail error, session => (.error error, session)
  | .act update next, session =>
    run (next session.workspace) { session with workspace := update session.workspace }
  | .tell signal next, session => run next (session.hear signal)
  | .pause reason next, session =>
    match reason with
    | .rest milliseconds => run next (session.advance milliseconds)
    | _ => run next session

end Session

end CommentIndex
