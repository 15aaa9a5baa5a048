import CommentIndex.Text.Blank
import CommentIndex.Text.Digit
import CommentIndex.Text.Word

/-!
# Link texts

The text of a link names a path, perhaps from its own folder with `./` or `../` in front, and
perhaps a line or an id behind it. `LinkText.split?` takes it apart; the path is as short as what
follows it allows.
-/

namespace CommentIndex

/-- The parts of a link text. -/
structure LinkText where
  /-- `./` or `../`, with a slash or a backslash. -/
  relative : Option (List Char)
  path : List Char
  /-- A colon with a line number, a hash with an id, or nothing. -/
  parameter : List Char
deriving DecidableEq, Repr

namespace LinkText

/-- Whether a text is a line number behind a colon or an id behind a hash. -/
def isParameter : List Char → Bool
  | ':' :: digits => !digits.isEmpty && digits.all Text.isDecimalDigit
  | '#' :: id => !id.isEmpty && id.all fun c => Text.isWord c || c == '-'
  | _ => false

/-- The path and the parameter of a text that is not empty. -/
def splitPath : List Char → List Char × List Char
  | [] => ([], [])
  | c :: rest =>
    if rest.isEmpty || isParameter rest then ([c], rest)
    else
      let (path, parameter) := splitPath rest
      (c :: path, parameter)

/-- One or two dots and a slash at the start of a text that goes on, and the rest. -/
def relative? : List Char → Option (List Char × List Char)
  | '.' :: slash :: c :: rest =>
    if slash == '/' || slash == '\\' then some (['.', slash], c :: rest)
    else if slash == '.' && (c == '/' || c == '\\') && !rest.isEmpty then
      some (['.', '.', c], rest)
    else none
  | _ => none

/-- The parts of a link text without the blanks around it; there are none if it is empty or goes
over several lines. -/
def split? (text : List Char) : Option LinkText :=
  let text := Text.strip text
  if text.isEmpty || text.contains '\n' then none
  else
    match relative? text with
    | some (relative, rest) =>
      let (path, parameter) := splitPath rest
      some ⟨some relative, path, parameter⟩
    | none =>
      let (path, parameter) := splitPath text
      some ⟨none, path, parameter⟩

end LinkText

end CommentIndex
