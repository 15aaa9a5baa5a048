import CommentIndex.CommandLine

/-!
# The program

`main` reads what a request is about from the disk, runs it, and puts its results back: the text
that it prints, and the file that it writes.
-/

namespace CommentIndex.Program

/-- The tree with what a folder holds under a name. The insides of a repository are left out. -/
partial def withEntry (tree : FileTree) (folder : List String) (entry : IO.FS.DirEntry) :
    IO FileTree := do
  let names := folder ++ [entry.fileName]
  match (← entry.path.symlinkMetadata).type with
  | .file => return tree.put names (.file (← IO.FS.readBinFile entry.path).toList)
  | .dir =>
    if entry.fileName = ".git" then return tree.putFolder names
    (← entry.path.readDir).foldlM (fun tree below => withEntry tree names below)
      (tree.putFolder names)
  | .symlink =>
    try
      return tree.put names (.link (← IO.FS.realPath entry.path).toString)
    catch _ => return tree
  | .other => return tree

/-- The names that lead to an existing file or folder without links. -/
def namesOf? (path : String) : IO (Option (List String)) := do
  try
    return some (Path.namesOf (← IO.FS.realPath path).toString)
  catch _ => return none

/-- The tree with all that is below a path, if there is something. -/
def withPath (tree : FileTree) (path : String) : IO FileTree := do
  match ← namesOf? path with
  | none => return tree
  | some names =>
    let real ← IO.FS.realPath path
    if ← real.isDir then
      (← real.readDir).foldlM (fun tree entry => withEntry tree names entry)
        (tree.putFolder names)
    else return tree.put names (.file (← IO.FS.readBinFile real).toList)

/-- The tree with the folder that a file is in, and with the file if it is there. -/
def withFile (tree : FileTree) (path : String) : IO FileTree := do
  let folder := (Path.ofText path).parent.text
  match ← namesOf? folder with
  | none => withPath tree path
  | some names => withPath (tree.putFolder names) path

/-- The nearest repository around a folder. -/
def repositoryAround? (names : List String) : IO (Option Repository) := do
  for count in (List.range (names.length + 1)).reverse do
    let folder := names.take count
    try
      let config ← IO.FS.readFile (Path.absolute (folder ++ [".git", "config"])).text
      return some ⟨folder, config, []⟩
    catch _ => pure ()
  return none

/-- The files that a request names outside its root. -/
def filesOf (request : Request) : List String :=
  let options := request.options
  let place := (CommandLine.lineTarget? request.operand.toList).map fun (file, _) =>
    ((Path.ofText options.root).join (.ofText (String.ofList file))).text
  place.toList ++ [request.operand, options.config, options.output].filter (· ≠ "")

/-- What a request is about: its root, the repository around it, and the files that it names. -/
def diskFor (request : Request) : IO Disk := do
  let root := (Path.ofText request.options.root).text
  let mut repository := none
  if let some names ← namesOf? root then
    repository ← repositoryAround? names
  let mut tree ← withPath .empty root
  if let some found := repository then
    tree ← withPath tree (Path.absolute found.folder).text
  for path in filesOf request do
    tree ← withFile tree path
  return {
    tree := tree
    repository := repository
    workingFolder := .ofText (← IO.currentDir).toString }

/-- Writes the file that a request has made, if its command makes one. -/
def keepOutput (request : Request) (console : Console) : IO Unit := do
  let path := request.options.output
  if request.command = .exportRows ∧ path ≠ "" then
    if let .ok octets := console.disk.read (.ofText path) then
      IO.FS.writeBinFile path ⟨octets.toArray⟩

/-- Runs the program. -/
def run (arguments : List String) : IO UInt32 := do
  let request := Request.read arguments
  let disk ←
    match request with
    | .ok request => diskFor request
    | .error _ => pure { tree := .empty }
  match CommandLine.run disk arguments with
  | .error error =>
    IO.eprintln ("error: " ++ error.message)
    return 1
  | .ok (code, console) =>
    IO.print console.output
    IO.eprint console.messages
    if let .ok request := request then
      if code = 0 then keepOutput request console
    return code.toUInt32

end CommentIndex.Program

/-- The program. -/
def main (arguments : List String) : IO UInt32 :=
  CommentIndex.Program.run arguments
