import CommentIndex.CommandLine.Request
import CommentIndex.Session
import CommentIndex.Settings.File
import CommentIndex.Workspace.Scan

/-!
# Executions

A command runs in an `Execution`: it prints, complains, changes the disk, and may end early, with
an exit code or with an error that it does not handle. `Execution.perform` runs an activity of a
workspace and prints its reports.
-/

namespace CommentIndex

/-- An error that a command does not handle. -/
inductive CommandError where
  | settings (error : SettingsError)
  | workspace (error : WorkspaceError)
deriving DecidableEq, Repr

/-- The wording of an error. -/
def CommandError.message : CommandError → String
  | .settings _ => "the settings cannot be used"
  | .workspace error => Workspace.errorDetail error

/-- How a command ends early. -/
inductive Ending where
  | exit (code : Nat)
  | crash (error : CommandError)
deriving DecidableEq, Repr

/-- The disk as a command leaves it, and what has been printed. -/
structure Console where
  disk : Disk
  /-- The text printed as the result. -/
  output : String := ""
  /-- The text printed about the run. -/
  messages : String := ""

/-- Something that a command does. -/
abbrev Execution := ExceptT Ending (StateM Console)

namespace Execution

variable {α : Type}

/-- Prints a text as the result. -/
def print (text : String) : Execution Unit :=
  modify fun console => { console with output := console.output ++ text }

/-- Prints a line as the result. -/
def printLine (line : String) : Execution Unit :=
  print (line ++ "\n")

/-- Prints lines as the result. -/
def printLines (lines : List String) : Execution Unit :=
  print (String.join (lines.map (· ++ "\n")))

/-- Prints a document as the result. -/
def printJson (document : Json) : Execution Unit :=
  printLine document.pretty

/-- Prints lines about the run. -/
def tellAll (lines : List String) : Execution Unit :=
  modify fun console =>
    { console with messages := console.messages ++ String.join (lines.map (· ++ "\n")) }

/-- Prints a line about the run. -/
def tell (line : String) : Execution Unit :=
  tellAll [line]

/-- Ends with an error that is not handled. -/
def crash (error : CommandError) : Execution α :=
  throw (.crash error)

/-- Ends with a message about what is wrong. -/
def refuse (options : RequestOptions) (message : String) : Execution α := do
  tell (if options.asJson then (Json.object [("error", .text message)]).line
    else "error: " ++ message)
  throw (.exit 1)

/-- A result or an error of a workspace. -/
def ofExcept : Except WorkspaceError α → Execution α
  | .ok result => pure result
  | .error error => crash (.workspace error)

/-- A report as a line. -/
def reportLine (report : Report) : String :=
  report.severity.name ++ ": " ++ report.message

/-- Runs an activity, and gives its result and the workspace as it leaves it. -/
def perform (workspace : Workspace) (activity : Activity α) : Execution (α × Workspace) := do
  let (outcome, session) := Session.run activity { workspace := workspace }
  tellAll (session.reports.reverse.map reportLine)
  return (← ofExcept outcome, session.workspace)

/-- The path that an argument names, without links. -/
def resolve (argument : String) : Execution Path := do
  let path := Path.ofText argument
  if path.isUnusable then crash (.workspace .unusablePath)
  else ofExcept (((← get).disk.resolve path).mapError .disk)

/-- What is at a path without links, if something is. -/
def itemAt (path : Path) : Execution (Option Item) := do
  match (← get).disk.tree.stat path.names with
  | .ok item => return some item
  | .error .nameTooLong => crash (.workspace .nameTooLong)
  | .error _ => return none

/-- The workspace that the options ask for, with its matcher built. -/
def openWorkspace (options : RequestOptions) : Execution Workspace := do
  let root ← resolve options.root
  if (← itemAt root) ≠ some .folder then
    refuse options ("Workspace '" ++ root.text ++ "' is not a directory.")
  let disk := (← get).disk
  let file := if options.config = "" then none else some (Path.ofText options.config)
  match Settings.load disk root file with
  | .error error => crash (.settings error)
  | .ok (settings, _) =>
    let (isBuilt, workspace) ← perform (← ofExcept (Workspace.start root settings disk))
      Workspace.build
    if isBuilt then return workspace else refuse options "Invalid anchor configuration."

end Execution

end CommentIndex
