import CommentIndex.Workspace

/-!
# Activities

An `Activity` is something that is done to a workspace in steps, with pauses in which other things
may happen. Between two pauses nothing else happens. What an activity has to tell, it tells as
signals. Who runs it decides how long its pauses are and hears its signals.
-/

namespace CommentIndex

/-- How serious a report is. -/
inductive Severity where
  | warning
  | error
deriving DecidableEq, Repr

/-- The name of a severity. -/
def Severity.name : Severity → String
  | .warning => "warning"
  | .error => "error"

/-- A message to the user. -/
structure Report where
  severity : Severity
  message : String
deriving DecidableEq, Repr

/-- What an activity has to tell. -/
inductive Signal where
  /-- What is shown of the workspace has changed. -/
  | changed
  | report (report : Report)
  /-- A scan has found anchors in so many of so many files. -/
  | progress (found total : Nat)
deriving DecidableEq, Repr

/-- Why an activity pauses. -/
inductive Pause where
  /-- The text of an open document is taken. -/
  | buffer
  /-- The text of a file is read. -/
  | file
  /-- The files of the workspace are listed. -/
  | listing
  /-- A scan lets others have their turn for so many milliseconds. -/
  | rest (milliseconds : Nat)
deriving DecidableEq, Repr

/-- Something that is done in steps and ends with a result or an error. -/
inductive Activity (α : Type) where
  | done (result : α)
  | fail (error : WorkspaceError)
  /-- Changes the workspace and goes on by what it was before. -/
  | act (update : Workspace → Workspace) (next : Workspace → Activity α)
  | tell (signal : Signal) (next : Activity α)
  | pause (reason : Pause) (next : Activity α)

namespace Activity

variable {α β : Type}

/-- One activity after another, by the result of the first. -/
def bind (first : Activity α) (second : α → Activity β) : Activity β :=
  match first with
  | .done result => second result
  | .fail error => .fail error
  | .act update next => .act update fun workspace => (next workspace).bind second
  | .tell signal next => .tell signal (next.bind second)
  | .pause reason next => .pause reason (next.bind second)

instance : Monad Activity where
  pure := .done
  bind := .bind

/-- An activity whose error is a result. -/
def attempt : Activity α → Activity (Except WorkspaceError α)
  | .done result => .done (.ok result)
  | .fail error => .done (.error error)
  | .act update next => .act update fun workspace => (next workspace).attempt
  | .tell signal next => .tell signal next.attempt
  | .pause reason next => .pause reason next.attempt

/-- The workspace as it is. -/
def workspace : Activity Workspace :=
  .act id .done

/-- Changes the workspace. -/
def change (update : Workspace → Workspace) : Activity Unit :=
  .act update fun _ => .done ()

/-- Tells that what is shown has changed. -/
def notify : Activity Unit :=
  .tell .changed (.done ())

/-- Tells the user something. -/
def report (severity : Severity) (message : String) : Activity Unit :=
  .tell (.report ⟨severity, message⟩) (.done ())

/-- Pauses once. -/
def wait (reason : Pause) : Activity Unit :=
  .pause reason (.done ())

/-- A result or an error at once. -/
def ofExcept : Except WorkspaceError α → Activity α
  | .ok result => .done result
  | .error error => .fail error

/-- What can be told from the workspace as it is. -/
def ask (question : Workspace → Except WorkspaceError α) : Activity α :=
  .act id fun workspace => ofExcept (question workspace)

end Activity

end CommentIndex
