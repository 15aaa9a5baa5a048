import CommentIndex.FileTree
import CommentIndex.Settings.Override
import CommentIndex.Text.Blank

/-!
# Repositories

A repository is a folder whose configuration may override settings and whose index names the
tracked files. `ConfigText.entries` reads one section of the configuration.
-/

namespace CommentIndex

/-- A repository. -/
structure Repository where
  /-- The folder, by its names without links. -/
  folder : List String
  /-- The text of its configuration. -/
  config : String
  /-- The tracked files, by their names below the folder. -/
  tracked : List (List String)
deriving DecidableEq, Repr, Inhabited

namespace ConfigText

/-- The title of a section, if a line is one. -/
def title? (line : List Char) : Option (List Char) :=
  match Text.strip line with
  | '[' :: rest =>
    match rest.reverse.dropWhile (· ≠ ']') with
    | ']' :: title => if title.isEmpty then none else some (Text.strip title.reverse)
    | _ => none
  | _ => none

/-- Whether a line is blank or a comment. -/
def isIgnored (line : List Char) : Bool :=
  match Text.stripStart line with
  | [] => true
  | c :: _ => c == '#' || c == ';'

/-- A value without a comment that starts with a semicolon behind a blank. -/
def withoutRemark (value : List Char) : List Char :=
  if (Text.stripStart value).head? = some Text.doubleQuote then value
  else
    let before := value.takeWhile (· ≠ ';')
    if before.length < value.length && before.getLast?.any Text.isBlank then before else value

/-- A value without the quotes around it. -/
def unquoted (value : List Char) : List Char :=
  match value with
  | first :: rest =>
    match rest.reverse with
    | last :: inner =>
      if first = Text.doubleQuote && last = Text.doubleQuote
          && !inner.contains Text.doubleQuote && !inner.contains '\\' then inner.reverse
      else value
    | [] => value
  | [] => value

/-- The key and the value of a line. -/
def assignment? (line : List Char) : Option (String × String) :=
  let key := line.takeWhile fun c => c ≠ '=' && c ≠ ':'
  match line.drop key.length with
  | _ :: value =>
    let key := Text.strip key
    if key.isEmpty then none
    else some (String.ofList key, String.ofList (unquoted (Text.strip (withoutRemark value))))
  | [] => none

/-- The entries of the lines as far as they are in the section `wanted`. -/
def entriesIn (wanted : String) (current : String) : List (List Char) → List (String × String)
  | [] => []
  | line :: rest =>
    if isIgnored line then entriesIn wanted current rest
    else
      match title? line with
      | some title => entriesIn wanted (String.ofList title) rest
      | none =>
        if current = wanted then (assignment? line).toList ++ entriesIn wanted current rest
        else entriesIn wanted current rest

/-- The entries of a section, the last of a key in the place of the first. -/
def entries (text : String) (wanted : String) : KeyedList String String :=
  .ofList (entriesIn wanted "" (Text.splitAtEach '\n' (Text.withLineFeeds text.toList)))

end ConfigText

namespace Repository

/-- The section that holds overrides. -/
def overrideSection : String := "anchors"

/-- The overrides that the configuration gives, the last of a key in the place of the first. -/
def overrides (repository : Repository) : List Override :=
  let entries := (ConfigText.entries repository.config overrideSection).entries
  let read := entries.filterMap fun (key, raw) => Override.read? key raw
  (KeyedList.ofList (read.map fun entry => (entry.key, entry.value))).entries.map
    fun (key, value) => ⟨key, value⟩

/-- Whether the files can be listed, which they can if the format is one of the two known. -/
def isListable (repository : Repository) : Bool :=
  match (ConfigText.entries repository.config "core").find? "repositoryformatversion" with
  | some version => version = "0" || version = "1"
  | none => true

end Repository

end CommentIndex
