import CommentIndex.Text.Split

/-!
# Paths

A path is a list of names behind none, one, or two slashes. Reading a path drops empty names and
names that are a single dot; `normalized` also takes `..` back by the name before it, which needs
the folder that a relative path starts from.
-/

namespace CommentIndex

/-- A path. Names are not empty, contain no slash, and are not a single dot. -/
structure Path where
  /-- The number of slashes in front: none for a relative path. -/
  slashes : Nat
  names : List String
deriving DecidableEq, Repr, Inhabited

namespace Path

/-- The root of all absolute paths. -/
def root : Path := ⟨1, []⟩

/-- The absolute path with the given names. -/
def absolute (names : List String) : Path := ⟨1, names⟩

/-- The number of slashes that count in front of a path: more than two count as one. -/
def leadingSlashes (text : List Char) : Nat :=
  let count := (text.takeWhile (· = '/')).length
  if count ≤ 2 then count else 1

/-- The names between the slashes of a text. -/
def namesOf (text : String) : List String :=
  (Text.splitString '/' text).filter fun name => name ≠ "" && name ≠ "."

/-- The path that a text writes. -/
def ofText (text : String) : Path :=
  ⟨leadingSlashes text.toList, namesOf text⟩

/-- The written form of a path. -/
def text (path : Path) : String :=
  if path.slashes = 0 ∧ path.names = [] then "."
  else String.ofList (List.replicate path.slashes '/') ++ Text.joinStrings "/" path.names

/-- Whether the path starts at the root. -/
def isAbsolute (path : Path) : Bool :=
  path.slashes ≠ 0

/-- The second path, started from the first one if it is relative. -/
def join (base path : Path) : Path :=
  if path.isAbsolute then path else ⟨base.slashes, base.names ++ path.names⟩

/-- The path without its last name. -/
def parent (path : Path) : Path :=
  { path with names := path.names.dropLast }

/-- The last name of the path. -/
def name (path : Path) : String :=
  path.names.getLast?.getD ""

/-- The names with each `..` taken back; `before` holds those kept so far, last one first. -/
def collapse (before : List String) : List String → List String
  | [] => before.reverse
  | name :: rest =>
    if name = ".." then collapse before.tail rest else collapse (name :: before) rest

/-- The absolute path without `..`, started from `folder`. -/
def normalized (folder path : Path) : Path :=
  absolute (collapse [] (folder.join path).names)

/-- The names of a path below a folder, if it is below it. -/
def below? (folder path : Path) : Option (List String) :=
  if folder.slashes = path.slashes && folder.names.isPrefixOf path.names then
    some (path.names.drop folder.names.length)
  else none

/-- Whether a path is a folder or lies below it. -/
def isBelow (folder path : Path) : Bool :=
  (folder.below? path).isSome

/-- The path as seen from a folder, or in full if it is not below it. -/
def seenFrom (folder path : Path) : Path :=
  match folder.below? path with
  | some names => ⟨0, names⟩
  | none => path

/-- Whether the first list of names sorts no later than the second: by the first names that
differ. -/
def namesLe : List String → List String → Bool
  | [], _ => true
  | _ :: _, [] => false
  | first :: firsts, second :: seconds =>
    if first = second then namesLe firsts seconds else first < second

/-- Whether the first path sorts no later than the second. -/
def le (first second : Path) : Bool :=
  first.slashes < second.slashes ||
    (first.slashes = second.slashes && namesLe first.names second.names)

/-- The paths in order. -/
def sort (paths : List Path) : List Path :=
  paths.mergeSort le

/-- Whether the written form holds a character that no file system allows. -/
def isUnusable (path : Path) : Bool :=
  path.names.any fun name => name.toList.contains (Char.ofNat 0)

/-- The ending of the last name from its last dot on. A name has none if its only dot is its
first character or its last one. -/
def ending (path : Path) : String :=
  let reversed := path.name.toList.reverse
  let tail := reversed.takeWhile (· ≠ '.')
  match reversed.drop tail.length with
  | '.' :: before =>
    if before.isEmpty || tail.isEmpty then "" else String.ofList ('.' :: tail.reverse)
  | _ => ""

end Path

end CommentIndex
