import CommentIndex.FileTree.Listing
import CommentIndex.Repository
import CommentIndex.Repository.Ignore

/-!
# Files of a repository

The files that belong to a repository: those that are tracked, and those that no rule ignores. A
rule counts for the folder it stands in and for everything below, and one that is nearer to a file
takes precedence.
-/

namespace CommentIndex.Repository

/-- The rules in a folder of the repository. -/
def rulesIn (repository : Repository) (tree : FileTree) (folder : List String) :
    List IgnoreRule :=
  match tree.item? (repository.folder ++ folder ++ [".gitignore"]) with
  | some (.file octets) => IgnoreRule.ofText (Text.decodeReplacing octets)
  | _ => []

/-- What the rules above a path say about it: those in the folder nearest to it come first. -/
def verdictOn (repository : Repository) (tree : FileTree) (names : List String)
    (isFolder : Bool) : Bool :=
  let levels := (List.range names.length).reverse
  (levels.findSome? fun level =>
    IgnoreRule.verdict? (repository.rulesIn tree (names.take level)) (names.drop level)
      isFolder).getD false

/-- Whether a file below the repository, or a folder that it is in, is ignored. -/
def isIgnored (repository : Repository) (tree : FileTree) (names : List String) : Bool :=
  (List.range names.length).any fun count =>
    repository.verdictOn tree (names.take (count + 1)) (count + 1 < names.length)

/-- Whether an item is a file of the repository, given its names below it. -/
def hasFile (repository : Repository) (tree : FileTree) (names : List String) : Bool :=
  repository.tracked.contains names ||
    (!names.contains ".git" && !repository.isIgnored tree names)

/-- The files of the repository, by their names below it, as far as they exist. -/
def files (repository : Repository) (tree : FileTree) : List (List String) :=
  (tree.itemsBelow repository.folder).filter fun names =>
    repository.hasFile tree names && tree.leadsToFile (repository.folder ++ names)

end CommentIndex.Repository
