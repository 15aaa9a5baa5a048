import CommentIndex.Disk
import CommentIndex.Glob
import CommentIndex.Repository.Listing

/-!
# Files of a workspace

The files that may belong to a workspace. Inside a repository they are its files; elsewhere they
are all files outside the folders that version control keeps for itself. `Disk.findFiles` picks
those that fit a pattern and not another one.
-/

namespace CommentIndex.Disk

/-- The files below a folder without links, by their names below it. -/
def candidates (disk : Disk) (folder : Path) : Except DiskError (List (List String)) :=
  match disk.repositoryAt? folder with
  | none => .ok (disk.tree.filesBelow folder.names)
  | some repository =>
    if repository.isListable then
      .ok ((repository.files disk.tree).filterMap fun names =>
        folder.below? (.absolute (repository.folder ++ names)))
    else .error .unlistable

/-- The files below a folder that fit one pattern and not the other, in order. The empty second
pattern excludes nothing. -/
def findFiles (disk : Disk) (folder : Path) (wanted excluded : String) :
    Except DiskError (List Path) := do
  let folder ← disk.resolve folder
  let names ← disk.candidates folder
  let chosen := names.filter fun names =>
    let shown := (Path.text ⟨0, names⟩).toList
    Glob.accepts wanted.toList shown && !Glob.accepts excluded.toList shown
  return Path.sort (chosen.map fun names => .absolute (folder.names ++ names))

end CommentIndex.Disk
