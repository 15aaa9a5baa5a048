import CommentIndex.KeyedList
import CommentIndex.Path
import CommentIndex.Text.Encoding

/-!
# File trees

A tree of folders, files, and symbolic links. `follow` finds what a path names, through links, as
opening a file does; `realNames` gives the path without links, even if what it names is missing.
Both visit the names of a path from left to right and put the names of a link in its place.
-/

namespace CommentIndex

/-- What a name in a folder stands for. -/
inductive Item where
  | file (octets : List UInt8)
  | folder
  | link (target : String)
deriving DecidableEq, Repr, Inhabited

/-- Why a file cannot be opened. -/
inductive FileError where
  | missing
  | isFolder
  | notFolder
  | tooManyLinks
  | nameTooLong
deriving DecidableEq, Repr

/-- The wording of a file error. -/
def FileError.message : FileError → String
  | .missing => "No such file or directory"
  | .isFolder => "Is a directory"
  | .notFolder => "Not a directory"
  | .tooManyLinks => "Too many levels of symbolic links"
  | .nameTooLong => "File name too long"

/-- All items but the root, each under the names that lead to it from there. -/
structure FileTree where
  items : KeyedList (List String) Item
deriving Repr, Inhabited

namespace FileTree

/-- The tree with the root alone. -/
def empty : FileTree := ⟨.empty⟩

/-- What names that go through no links stand for. -/
def item? (tree : FileTree) (names : List String) : Option Item :=
  if names = [] then some .folder else tree.items.find? names

/-- The tree with the folders that the names lead through, those missing being made. -/
def withFolders (tree : FileTree) (names : List String) : FileTree :=
  (List.range names.length).foldl (fun tree count =>
    let folder := names.take count
    if (tree.item? folder).isSome then tree else ⟨tree.items.insert folder .folder⟩) tree

/-- The tree with an item at the names, and the folders above it. -/
def put (tree : FileTree) (names : List String) (item : Item) : FileTree :=
  ⟨(tree.withFolders names).items.insert names item⟩

/-- The tree with a folder at the names, unless something is there. -/
def putFolder (tree : FileTree) (names : List String) : FileTree :=
  if (tree.item? names).isSome then tree else tree.put names .folder

/-- The tree without the item at the names. -/
def remove (tree : FileTree) (names : List String) : FileTree :=
  ⟨tree.items.erase names⟩

/-- The longest name that a folder can hold, in octets. -/
def maxNameLength : Nat := 255

/-- The most links that are followed on the way to one file. -/
def maxLinks : Nat := 40

/-- How far a walk along names gets. -/
inductive Walk where
  /-- To the end of the names. -/
  | arrived (names : List String)
  /-- To the last of the names, which does not exist. -/
  | absent (names : List String)
  /-- To a link, with the names left behind it. -/
  | link (folder : List String) (target : String) (rest : List String)
  | failed (error : FileError)
deriving Repr

/-- Walks from a folder along names up to the first link. -/
def walk (tree : FileTree) (folder : List String) : List String → Walk
  | [] => .arrived folder
  | name :: rest =>
    if name = ".." then tree.walk folder.dropLast rest
    else if maxNameLength < name.utf8ByteSize then .failed .nameTooLong
    else
      match tree.item? (folder ++ [name]) with
      | none => if rest = [] then .absent (folder ++ [name]) else .failed .missing
      | some (.link target) => .link folder target rest
      | some .folder => tree.walk (folder ++ [name]) rest
      | some (.file _) => if rest = [] then .arrived (folder ++ [name]) else .failed .notFolder

/-- The folder that a link starts from, and the names along it and behind it. -/
def redirect (folder : List String) (target : String) (rest : List String) :
    List String × List String :=
  let path := Path.ofText target
  (if path.isAbsolute then [] else folder, path.names ++ rest)

/-- Walks from a folder along names through `links` links at most. -/
def walkThrough (tree : FileTree) : Nat → List String → List String → Walk
  | links, folder, names =>
    match tree.walk folder names with
    | .link folder target rest =>
      match links with
      | 0 => .failed .tooManyLinks
      | links + 1 =>
        let (folder, names) := redirect folder target rest
        tree.walkThrough links folder names
    | other => other

/-- The names, without links, of what names from the root stand for. -/
def follow (tree : FileTree) (names : List String) : Except FileError (List String) :=
  match tree.walkThrough maxLinks [] names with
  | .arrived names => .ok names
  | .failed error => .error error
  | _ => .error .missing

/-- What names from the root stand for once links are followed. -/
def stat (tree : FileTree) (names : List String) : Except FileError Item := do
  match tree.item? (← tree.follow names) with
  | some item => .ok item
  | none => .error .missing

/-- Whether names stand for a folder. -/
def isFolder (tree : FileTree) (names : List String) : Bool :=
  match tree.stat names with
  | .ok .folder => true
  | _ => false

/-- Whether names stand for a file; a name that is too long is an error. -/
def isFile (tree : FileTree) (names : List String) : Except FileError Bool :=
  match tree.stat names with
  | .ok (.file _) => .ok true
  | .error .nameTooLong => .error .nameTooLong
  | _ => .ok false

/-- Whether names stand for anything. -/
def hasItem (tree : FileTree) (names : List String) : Bool :=
  match tree.stat names with
  | .ok _ => true
  | .error _ => false

/-- The octets of the file that names stand for. -/
def read (tree : FileTree) (names : List String) : Except FileError (List UInt8) := do
  match ← tree.stat names with
  | .file octets => .ok octets
  | _ => .error .isFolder

/-- The tree with other octets in the file that names stand for, which is made if only its last
name is missing. -/
def write (tree : FileTree) (names : List String) (octets : List UInt8) :
    Except FileError FileTree :=
  match tree.walkThrough maxLinks [] names with
  | .arrived names | .absent names =>
    if tree.item? names = some .folder then .error .isFolder
    else .ok ⟨tree.items.insert names (.file octets)⟩
  | .failed error => .error error
  | .link _ _ _ => .error .tooManyLinks

/-! ## Paths without links -/

/-- A part of what is left of a path: a name, or the end of the names of a link. -/
inductive Todo where
  | name (name : String)
  | leave (link : List String)
deriving DecidableEq, Repr

/-- The names among what is left. -/
def Todo.names (work : List Todo) : List String :=
  work.filterMap fun todo =>
    match todo with
    | .name word => some word
    | .leave _ => none

/-- How far a path goes without links: the names reached, the links being followed, and, at a
link, the names it leads along and what is left behind it. -/
structure Trail where
  reached : List String
  following : List (List String)
  /-- The link met, its target, and what is left. -/
  met : Option (List String × String × List Todo)

/-- Goes along what is left of a path up to the first link. What is missing is taken as it is. -/
def trail (tree : FileTree) (reached : List String) (following : List (List String)) :
    List Todo → Trail
  | [] => ⟨reached, following, none⟩
  | .leave link :: work => tree.trail reached (following.erase link) work
  | .name name :: work =>
    if name = ".." then tree.trail reached.dropLast following work
    else
      match tree.item? (reached ++ [name]) with
      | some (.link target) => ⟨reached, following, some (reached ++ [name], target, work)⟩
      | _ => tree.trail (reached ++ [name]) following work

/-- The path without links, of which `fuel` are followed at most. A link that leads back to itself
ends the search, and the path goes on from there as it is written. -/
def realFrom (tree : FileTree) : Nat → List String → List (List String) → List Todo → List String
  | fuel, reached, following, work =>
    let trail := tree.trail reached following work
    match trail.met with
    | none => trail.reached
    | some (link, target, work) =>
      let asWritten := Path.collapse [] (link ++ Todo.names work)
      match fuel with
      | 0 => asWritten
      | fuel + 1 =>
        if trail.following.contains link then asWritten
        else
          let path := Path.ofText target
          tree.realFrom fuel (if path.isAbsolute then [] else trail.reached)
            (link :: trail.following) (path.names.map .name ++ .leave link :: work)

/-- More links than any tree in use has on the way to one file. -/
def manyLinks : Nat := 4096

/-- The names that lead to the same place without links. -/
def realNames (tree : FileTree) (names : List String) : List String :=
  tree.realFrom manyLinks [] [] (names.map .name)

/-- Whether two paths name the same existing item. -/
def isSameItem (tree : FileTree) (first second : List String) : Bool :=
  match tree.follow first, tree.follow second with
  | .ok first, .ok second => first = second
  | _, _ => false

end FileTree

end CommentIndex
