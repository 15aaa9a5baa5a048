import CommentIndex.FileTree

/-!
# Files below a folder

The files of a part of a file tree, by their names below the folder that they are listed for.
Folders that version control keeps for itself are left out, and links to folders are not followed.
-/

namespace CommentIndex.FileTree

/-- The names, below a folder, of all its items that are no folders. -/
def itemsBelow (tree : FileTree) (folder : List String) : List (List String) :=
  tree.items.entries.filterMap fun (names, item) =>
    if item ≠ .folder && folder.isPrefixOf names && folder.length < names.length then
      some (names.drop folder.length)
    else none

/-- Folders that version control keeps for itself. -/
def skippedFolders : List String :=
  [".git", ".hg", ".svn"]

/-- Whether a path leads to a file, through links. -/
def leadsToFile (tree : FileTree) (names : List String) : Bool :=
  match tree.stat names with
  | .ok (.file _) => true
  | _ => false

/-- The names, below a folder, of its files and of its links that lead to no folder. -/
def filesBelow (tree : FileTree) (folder : List String) : List (List String) :=
  (tree.itemsBelow folder).filter fun names =>
    (names.dropLast.all fun name => !skippedFolders.contains name) &&
      !tree.isFolder (folder ++ names)

end CommentIndex.FileTree
