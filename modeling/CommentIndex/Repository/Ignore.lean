import CommentIndex.Text.Split

/-!
# Ignore rules

A file of ignore rules has one pattern a line. A rule may be turned around by `!`, may be for
folders only with a slash at its end, and holds at any depth unless it has another slash. Of all
rules that fit a path the last one decides.
-/

namespace CommentIndex

/-- A rule about names below the folder of its file. -/
structure IgnoreRule where
  /-- The pattern, name by name. -/
  pattern : List (List Char)
  /-- Whether the rule takes back what earlier ones ignore. -/
  isNegated : Bool
  foldersOnly : Bool
deriving DecidableEq, Repr

namespace IgnoreRule

/-- Whether the members of a bracket, ending at its bracket, hold a character; with what follows
the bracket. -/
def bracketHolds (c : Char) (isFirst : Bool) : List Char → Bool × List Char
  | [] => (false, [])
  | ']' :: rest =>
    if isFirst then
      let (holds, behind) := bracketHolds c false rest
      (c == ']' || holds, behind)
    else (false, rest)
  | [d] => (c == d, [])
  | low :: '-' :: high :: rest =>
    if high = ']' then (c == low || c == '-', rest)
    else
      let (holds, behind) := bracketHolds c false rest
      ((low.toNat ≤ c.toNat && c.toNat ≤ high.toNat) || holds, behind)
  | d :: rest =>
    let (holds, behind) := bracketHolds c false rest
    (c == d || holds, behind)

/-- Whether a name fits a pattern for one name, in at most `fuel` steps. -/
def fitsName : Nat → List Char → List Char → Bool
  | 0, _, _ => false
  | _ + 1, [], name => name.isEmpty
  | fuel + 1, '*' :: rest, name =>
    fitsName fuel rest name ||
      (match name with
        | _ :: behind => fitsName fuel ('*' :: rest) behind
        | [] => false)
  | _ + 1, _ :: _, [] => false
  | fuel + 1, '?' :: rest, _ :: behind => fitsName fuel rest behind
  | fuel + 1, '\\' :: wanted :: rest, c :: behind => c == wanted && fitsName fuel rest behind
  | fuel + 1, '[' :: rest, c :: behind =>
    let isNegated := rest.head?.any fun d => d == '!' || d == '^'
    let (holds, after) := bracketHolds c true (if isNegated then rest.tail else rest)
    (holds != isNegated) && fitsName fuel after behind
  | fuel + 1, wanted :: rest, c :: behind => c == wanted && fitsName fuel rest behind

/-- Whether one name fits one pattern. -/
def nameFits (pattern name : List Char) : Bool :=
  fitsName (2 * pattern.length + 2 * name.length + 2) pattern name

/-- A list of names and what is left of it behind each of them. -/
def endings : List (List Char) → List (List (List Char))
  | [] => [[]]
  | name :: rest => (name :: rest) :: endings rest

/-- Whether names fit a pattern, in which two stars stand for any number of names. -/
def fitsNames : List (List Char) → List (List Char) → Bool
  | [], names => names.isEmpty
  | pattern :: rest, names =>
    if pattern = ['*', '*'] then
      if rest.isEmpty then !names.isEmpty
      else (endings names).any (fitsNames rest)
    else
      match names with
      | name :: behind => nameFits pattern name && fitsNames rest behind
      | [] => false

/-- Whether the rule is about the names of a file or a folder. -/
def isAbout (rule : IgnoreRule) (names : List String) (isFolder : Bool) : Bool :=
  (!rule.foldersOnly || isFolder) && fitsNames rule.pattern (names.map String.toList)

/-- The line without the spaces at its end, one behind a backslash aside. -/
def withoutEndSpaces (line : List Char) : List Char :=
  let reversed := line.reverse
  let spaces := reversed.takeWhile (· = ' ')
  match reversed.drop spaces.length with
  | '\\' :: rest =>
    if spaces.isEmpty then line else (' ' :: '\\' :: rest).reverse
  | rest => rest.reverse

/-- The rule of a line that is neither empty nor a comment. -/
def ofLine? (line : List Char) : Option IgnoreRule :=
  let line := withoutEndSpaces line
  match line with
  | [] => none
  | '#' :: _ => none
  | _ =>
    let isNegated := line.head? = some '!'
    let body := if isNegated then line.tail else line
    let foldersOnly := body.getLast? = some '/'
    let body := if foldersOnly then body.dropLast else body
    let names := Text.splitAtEach '/' body
    let pattern :=
      match names with
      | [name] => [['*', '*'], name]
      | [] :: rest => rest
      | names => names
    if body.isEmpty then none
    else some ⟨pattern, isNegated, foldersOnly⟩

/-- The rules of a file. -/
def ofText (text : List Char) : List IgnoreRule :=
  (Text.splitAtEach '\n' text).filterMap fun line =>
    ofLine? (if line.getLast? = some '\r' then line.dropLast else line)

/-- What the rules say about a path: that it is ignored, that it is not, or nothing. -/
def verdict? (rules : List IgnoreRule) (names : List String) (isFolder : Bool) : Option Bool :=
  (rules.reverse.find? fun rule => rule.isAbout names isFolder).map fun rule => !rule.isNegated

end IgnoreRule

end CommentIndex
