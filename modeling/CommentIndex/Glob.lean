import CommentIndex.Text.Blank
import CommentIndex.Text.Split

/-!
# Globs

Patterns for paths below a folder. `expandBraces` writes out the alternatives in braces, the
leftmost innermost pair first; a pattern without alternatives is a list of parts, and
`Glob.accepts` says whether a path fits one of the patterns that come out.
-/

namespace CommentIndex.Glob

/-- The opening brace. -/
def openBrace : Char := Char.ofNat 0x7b

/-- The closing brace. -/
def closeBrace : Char := Char.ofNat 0x7d

/-- Whether `c` is one of the two braces. -/
def isBrace (c : Char) : Bool :=
  c == openBrace || c == closeBrace

/-- The texts before, in, and behind the leftmost pair of braces with no brace inside. -/
def innermost? : List Char → Option (List Char × List Char × List Char)
  | [] => none
  | c :: rest =>
    let inner := rest.takeWhile fun d => !isBrace d
    let found : Option (List Char × List Char × List Char) :=
      if c = openBrace && (rest.drop inner.length).head? = some closeBrace then
        some ([], inner, rest.drop (inner.length + 1))
      else none
    found.or ((innermost? rest).map fun (head, inner, tail) => (c :: head, inner, tail))

/-- The patterns that come out of one by writing out `fuel` pairs of braces at most on each
way. -/
def expandWith : Nat → List Char → List (List Char)
  | 0, pattern => [pattern]
  | fuel + 1, pattern =>
    match innermost? pattern with
    | none => [pattern]
    | some (head, inner, tail) =>
      (Text.splitAtEach ',' inner).flatMap fun option => expandWith fuel (head ++ option ++ tail)

/-- The patterns without alternatives that a pattern stands for. -/
def expandBraces (pattern : List Char) : List (List Char) :=
  expandWith (pattern.count openBrace) pattern

/-- A part of a pattern. -/
inductive Part where
  /-- The character itself. -/
  | literal (c : Char)
  /-- One character other than a slash. -/
  | one
  /-- Any text without a slash. -/
  | name
  /-- Any text without a line feed. -/
  | anything
  /-- Nothing, or any text without a line feed that ends in a slash. -/
  | folders
deriving DecidableEq, Repr

/-- The parts of a pattern without alternatives. -/
def parts : List Char → List Part
  | [] => []
  | '*' :: '*' :: '/' :: rest => .folders :: parts rest
  | '*' :: '*' :: rest => .anything :: parts rest
  | '*' :: rest => .name :: parts rest
  | '?' :: rest => .one :: parts rest
  | c :: rest => .literal c :: parts rest

/-- Whether `next` holds somewhere behind a stretch of characters that satisfy `inside`. -/
def someTail (inside : Char → Bool) (next : List Char → Bool) : List Char → Bool
  | [] => next []
  | c :: rest => next (c :: rest) || (inside c && someTail inside next rest)

/-- Whether `next` holds behind a slash that is reached without passing a line feed. -/
def someFolder (next : List Char → Bool) : List Char → Bool
  | [] => false
  | c :: rest => (c == '/' && next rest) || (c != '\n' && someFolder next rest)

/-- Whether a path fits the parts; one line feed at its end may be left over. -/
def fits : List Part → List Char → Bool
  | [], path => path = [] || path = ['\n']
  | .literal wanted :: rest, path =>
    match path with
    | c :: behind => c == wanted && fits rest behind
    | [] => false
  | .one :: rest, path =>
    match path with
    | c :: behind => c != '/' && fits rest behind
    | [] => false
  | .name :: rest, path => someTail (· != '/') (fits rest) path
  | .anything :: rest, path => someTail (· != '\n') (fits rest) path
  | .folders :: rest, path => fits rest path || someFolder (fits rest) path

/-- Whether a path fits a pattern. The empty pattern fits nothing; blanks around a pattern do not
count. -/
def accepts (pattern path : List Char) : Bool :=
  !pattern.isEmpty &&
    (expandBraces (Text.strip pattern)).any fun option => fits (parts option) path

end CommentIndex.Glob
