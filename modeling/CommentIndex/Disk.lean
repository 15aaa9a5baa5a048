import CommentIndex.Repository

/-!
# The disk

What is outside the program: a file tree, perhaps with a repository in it, and the folders that
relative paths and paths of the user start from. `locate` gives the absolute path that a text
names, and `resolve` that path without links.
-/

namespace CommentIndex

/-- The files, a repository among them, and where relative paths and the home of the user are. -/
structure Disk where
  tree : FileTree
  repository : Option Repository := none
  workingFolder : Path := .root
  home : Path := .root
deriving Inhabited

/-- Why files cannot be listed or a path cannot be used. -/
inductive DiskError where
  /-- The format of the repository is not known. -/
  | unlistable
  /-- The links of a path lead back to themselves. -/
  | linkLoop
deriving DecidableEq, Repr

namespace Disk

/-- The absolute path that a text names: `~` at its start is the home of the user. -/
def locate (disk : Disk) (text : String) : Path :=
  match text.toList with
  | ['~'] => Path.normalized .root disk.home
  | '~' :: '/' :: rest =>
    Path.normalized disk.home ⟨0, Path.namesOf (String.ofList rest)⟩
  | _ => Path.normalized disk.workingFolder (.ofText text)

/-- The names that lead from the root to a path. -/
def names (disk : Disk) (path : Path) : List String :=
  (disk.workingFolder.join path).names

/-- The path without links and without `..`. -/
def real (disk : Disk) (path : Path) : Path :=
  .absolute (disk.tree.realNames (disk.names path))

/-- The path without links; that it leads back to itself is an error. -/
def resolve (disk : Disk) (path : Path) : Except DiskError Path :=
  match disk.tree.stat (disk.real path).names with
  | .error .tooManyLinks => .error .linkLoop
  | _ => .ok (disk.real path)

/-- The octets of a file. -/
def read (disk : Disk) (path : Path) : Except FileError (List UInt8) :=
  disk.tree.read (disk.names path)

/-- The text of a file, in which malformed stretches are replaced. -/
def readText (disk : Disk) (path : Path) : Except FileError (List Char) :=
  (disk.read path).map fun octets => Text.withLineFeeds (Text.decodeReplacing octets)

/-- The repository that a path is in: its folder is one of those above the path, as the path is
written. -/
def repositoryAt? (disk : Disk) (path : Path) : Option Repository :=
  disk.repository.filter fun repository =>
    let names := (Path.normalized disk.workingFolder path).names
    disk.tree.hasItem names &&
      (List.range (names.length + 1)).any fun count =>
        match disk.tree.follow (names.take count) with
        | .ok folder => folder = repository.folder
        | .error _ => false

/-- The overrides of the repository that a path is in. -/
def overridesAt (disk : Disk) (path : Path) : List Override :=
  ((disk.repositoryAt? path).map Repository.overrides).getD []

end Disk

end CommentIndex
