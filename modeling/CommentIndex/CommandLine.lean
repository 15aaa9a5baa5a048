import CommentIndex.CommandLine.Execution
import CommentIndex.CommandLine.Report
import CommentIndex.View

/-!
# The command line

`CommandLine.run` reads the arguments of the program and does what they ask for. Each command opens
the workspace that its options name, and prints what it finds as lines or as JSON.
-/

namespace CommentIndex.CommandLine

open Execution

/-- Scans a workspace, whether or not its settings want that. -/
def scanAll (workspace : Workspace) : Execution (Nat × Workspace) :=
  let settings := workspace.settings
  let wanted := { settings with workspace := { settings.workspace with enabled := true } }
  perform { workspace with settings := wanted } Workspace.scan

/-- Gives the focus to the file that an argument names, and gives its path. -/
def focus (request : Request) (workspace : Workspace) : Execution (Path × Workspace) := do
  let path ← resolve request.operand
  match ← itemAt path with
  | some (.file _) =>
    let ((), workspace) ←
      perform { workspace with isLoaded := true } (Workspace.setActive (some path))
    return (path, workspace)
  | _ => refuse request.options ("File '" ++ request.operand ++ "' not found.")

/-- The files with anchors, in order, and their anchors. -/
def filesDocument (workspace : Workspace) : Json :=
  let sorted := workspace.outlines.mergeSort fun first second => first.1.le second.1
  .object ((sorted.filter fun entry => !entry.2.anchors.isEmpty).map fun (path, outline) =>
    ((workspace.root.seenFrom path).text, .list (Anchor.documents outline.anchors)))

/-- Lists the anchors of all files. -/
def scanFolder (options : RequestOptions) : Execution Nat := do
  let (count, workspace) ← scanAll (← openWorkspace options)
  if options.asJson then
    printJson (.object [("files", filesDocument workspace), ("count", .int count)])
  else
    printLines (Entry.forestLines 0 (View.ofWorkspace workspace))
    let noun := if count = 1 then "file" else "files"
    printLine (Nat.repr count ++ " " ++ noun ++ " with anchors")
  return 0

/-- Lists the anchors of one file. -/
def showFile (request : Request) : Execution Nat := do
  let (path, workspace) ← focus request (← openWorkspace request.options)
  let outline ← ofExcept workspace.current
  if request.options.asJson then
    let folds := outline.folds.map fun fold => Json.list [.int fold.first, .int fold.last]
    printJson (.object
      [("file", .text path.text), ("anchors", .list (Anchor.documents outline.anchors)),
       ("folds", .list folds)])
  else
    printLines (Entry.forestLines 0 (← ofExcept (View.ofFile workspace request.options.line)))
  return 0

/-- Writes a text to the file that an argument names. -/
def write (options : RequestOptions) (name text : String) : Execution Unit := do
  let disk := (← get).disk
  let path := Path.ofText name
  if path.isUnusable then crash (.workspace .unusablePath)
  match disk.tree.write (disk.names path) (Text.encode text) with
  | .ok tree => modify fun console => { console with disk := { disk with tree := tree } }
  | .error error => refuse options ("Cannot write '" ++ name ++ "': " ++ error.message)

/-- The format of an export: the one asked for, and else the one that its output asks for. -/
def exportFormat (options : RequestOptions) : ExportFormat :=
  options.format.getD
    (if options.output = "" then .json else .ofPath (.ofText options.output))

/-- Writes the anchors of all files as a document. -/
def exportRows (options : RequestOptions) : Execution Nat := do
  let (_, workspace) ← scanAll (← openWorkspace options)
  let rows := Export.rows workspace.outlines
  let text := Export.document (exportFormat options) rows
  if options.output = "" then
    print text
    unless text.toList.getLast? = some '\n' do print "\n"
  else
    write options options.output text
    tell ("Exported " ++ Nat.repr rows.length ++ " anchors to " ++ options.output)
  return 0

/-- Lists the tags. -/
def listTags (options : RequestOptions) : Execution Nat := do
  let workspace ← openWorkspace options
  let summaries := workspace.registry.summaries workspace.settings.tags.endTag
  if options.asJson then
    printJson (.list (summaries.map TagSummary.document))
  else
    printLines (summaries.map TagSummary.line)
  return 0

/-- The file and the digits of a target that names a line. One line feed may stand at its end. -/
def lineTarget? (target : List Char) : Option (List Char × List Char) :=
  let text := (Text.beforeEnd? ['\n'] target).getD target
  let digits := (text.reverse.takeWhile Text.isDecimalDigit).reverse
  match text.reverse.drop digits.length with
  | ':' :: file =>
    if digits.isEmpty || file.isEmpty || file.contains '\n' then none
    else some (file.reverse, digits)
  | _ => none

/-- The location of a line that a target names. -/
def placeOfLine (request : Request) (workspace : Workspace) (file digits : List Char) :
    Execution Location := do
  match Text.readInt? digits with
  | none => crash (.workspace .numberTooLong)
  | some line =>
    let path := Path.normalized workspace.root (.ofText (String.ofList file))
    let (location, _) ← perform workspace (Workspace.locateLine path line)
    match location.broken with
    | some reason => refuse request.options (request.operand ++ ": " ++ reason)
    | none => return location

/-- The location of the anchor with the id that a target is. -/
def placeOfId (request : Request) (workspace : Workspace) : Execution Location := do
  let (_, workspace) ← scanAll workspace
  match workspace.locateId request.operand with
  | some location => return location
  | none => refuse request.options ("Anchor '" ++ request.operand ++ "' not found.")

/-- Finds the place of an anchor or of a line. -/
def findPlace (request : Request) : Execution Nat := do
  let workspace ← openWorkspace request.options
  let location ←
    match lineTarget? request.operand.toList with
    | some (file, digits) => placeOfLine request workspace file digits
    | none => placeOfId request workspace
  if request.options.asJson then printJson location.document else printLine location.text
  return 0

/-- Checks the links of one file. -/
def checkLinks (request : Request) : Execution Nat := do
  let (path, workspace) ← focus request (← openWorkspace request.options)
  let (targets, _) ← perform workspace (Workspace.linkTargets path)
  if request.options.asJson then
    printJson (.list (targets.map fun (anchor, target) =>
      target.document workspace.root anchor))
  else
    printLines (targets.map fun (anchor, target) => target.summary workspace.root anchor)
  return if targets.any fun entry => entry.2.broken.isSome then 1 else 0

/-- Does what is asked for, and gives the exit code. -/
def execute (request : Request) : Execution Nat :=
  match request.command with
  | .scanFolder => scanFolder request.options
  | .showFile => showFile request
  | .exportRows => exportRows request.options
  | .listTags => listTags request.options
  | .findPlace => findPlace request
  | .checkLinks => checkLinks request

/-- Shows how the program is used. -/
def showUsage (reason : UsageReason) : Execution Nat := do
  if reason = .misused then tell Request.usage else print Request.usage
  return reason.exitCode

/-- Runs the program: its exit code and what it leaves behind, or an error that ends it. -/
def run (disk : Disk) (arguments : List String) : Except CommandError (Nat × Console) :=
  let execution :=
    match Request.read arguments with
    | .ok request => execute request
    | .error reason => showUsage reason
  match execution.run { disk := disk } with
  | (.ok code, console) => .ok (code, console)
  | (.error (.exit code), console) => .ok (code, console)
  | (.error (.crash error), _) => .error error

end CommentIndex.CommandLine
