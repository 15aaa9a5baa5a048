import CommentIndex.Text.Digit
import CommentIndex.Text.Split

/-!
# Options of a command line

An `OptionTable` lists how options are spelled and says which of them take a value.
`OptionTable.reading` says what an argument is on its own: a long option may be cut short as long
as only one fits, its value may stand behind `=`, and short options may share one dash.
`OptionTable.items` reads all arguments, in which a value may also stand behind its option.
-/

namespace CommentIndex

/-- The spellings of options, and which options take a value. -/
structure OptionTable (κ : Type) where
  spellings : List (String × κ)
  takesValue : κ → Bool

/-- What an argument is on its own. -/
inductive ArgumentReading (κ : Type) where
  /-- No option. -/
  | plain
  /-- Spelled as an option that there is not. -/
  | unknown
  /-- The start of several options. -/
  | ambiguous
  /-- A value for an option that takes none. -/
  | mistaken
  /-- Uses of options; one without a value has the empty one. The value of the last option may have
  to come next, and a part of the argument may be left over. -/
  | uses (complete : List (κ × String)) (waiting : Option κ) (isWhole : Bool)
deriving DecidableEq, Repr

/-- What arguments say, one thing after another. -/
inductive ArgumentItem (κ : Type) where
  | use (option : κ) (value : String)
  /-- A plain argument, and all arguments behind it. -/
  | operand (text : String) (behind : List String)
  /-- Two dashes, behind which all arguments are plain. -/
  | separator
  /-- An argument that has no use. -/
  | leftOver
  /-- An argument at which the reading ends. -/
  | mistake
deriving DecidableEq, Repr

namespace OptionTable

variable {κ : Type}

/-- The option with exactly this spelling. -/
def find? (table : OptionTable κ) (spelling : List Char) : Option κ :=
  (table.spellings.find? fun pair => pair.1.toList = spelling).map (·.2)

/-- An option on its own: its value, if it takes one, comes next. -/
def alone (table : OptionTable κ) (option : κ) : ArgumentReading κ :=
  if table.takesValue option then .uses [] (some option) true
  else .uses [(option, "")] none true

/-- An option with a value behind `=`. -/
def withValue (table : OptionTable κ) (option : κ) (value : List Char) : ArgumentReading κ :=
  if table.takesValue option then .uses [(option, String.ofList value)] none true else .mistaken

/-- A short option and the characters right behind it: its value, if it takes one, and else more
short options. -/
def shared (table : OptionTable κ) (complete : List (κ × String)) (option : κ) :
    List Char → ArgumentReading κ
  | [] =>
    if table.takesValue option then .uses complete (some option) true
    else .uses (complete ++ [(option, "")]) none true
  | c :: rest =>
    if table.takesValue option then
      .uses (complete ++ [(option, String.ofList (c :: rest))]) none true
    else if c = '=' || c = '-' then .mistaken
    else
      match table.find? ['-', c] with
      | none => .uses (complete ++ [(option, "")]) none false
      | some next =>
        match rest with
        | '=' :: value =>
          if table.takesValue next then
            .uses (complete ++ [(option, ""), (next, String.ofList value)]) none true
          else .mistaken
        | _ => table.shared (complete ++ [(option, "")]) next rest

/-- Whether a text writes a negative number, perhaps with a line feed behind it. -/
def isNegative (text : List Char) : Bool :=
  match text with
  | '-' :: number =>
    let number := (Text.beforeEnd? ['\n'] number).getD number
    let whole := number.takeWhile Text.isDecimalDigit
    match number.drop whole.length with
    | [] => !whole.isEmpty
    | '.' :: places => !places.isEmpty && places.all Text.isDecimalDigit
    | _ => false
  | _ => false

/-- An argument that no option fits: numbers and texts with a space are plain. -/
def foreign (argument : List Char) : ArgumentReading κ :=
  if isNegative argument || argument.contains ' ' then .plain else .unknown

/-- An argument with two dashes in front, split at its first `=`. -/
def long (table : OptionTable κ) (argument start : List Char) (value : Option (List Char)) :
    ArgumentReading κ :=
  match table.spellings.filter fun pair => start.isPrefixOf pair.1.toList with
  | [] => foreign argument
  | [(_, option)] =>
    match value with
    | some value => table.withValue option value
    | none => table.alone option
  | _ => .ambiguous

/-- What an argument with a dash in front is, unless it is spelled exactly as an option. -/
def loose (table : OptionTable κ) (argument : List Char) : ArgumentReading κ :=
  let (start, value) := Text.cutAtFirst '=' argument
  match value, table.find? start with
  | some value, some option => table.withValue option value
  | _, _ =>
    match argument with
    | '-' :: '-' :: _ => table.long argument start value
    | dash :: c :: rest =>
      match table.find? [dash, c] with
      | some option => table.shared [] option rest
      | none => foreign argument
    | _ => .plain

/-- What an argument is on its own. -/
def reading (table : OptionTable κ) (argument : String) : ArgumentReading κ :=
  match argument.toList with
  | '-' :: rest =>
    match table.find? ('-' :: rest) with
    | some option => table.alone option
    | none => table.loose ('-' :: rest)
  | _ => .plain

/-- Whether an argument is the start of several options. -/
def isAmbiguous (table : OptionTable κ) (argument : String) : Bool :=
  match table.reading argument with
  | .ambiguous => true
  | _ => false

/-- Whether an argument is plain. -/
def isPlain (table : OptionTable κ) (argument : String) : Bool :=
  match table.reading argument with
  | .plain => true
  | _ => false

/-- Arguments that are all plain. -/
def operands : List String → List (ArgumentItem κ)
  | [] => []
  | argument :: rest => .operand argument rest :: operands rest

/-- Uses as items. -/
def useItems (complete : List (κ × String)) : List (ArgumentItem κ) :=
  complete.map fun (option, value) => .use option value

/-- What arguments say. -/
def items (table : OptionTable κ) : List String → List (ArgumentItem κ)
  | [] => []
  | argument :: rest =>
    if argument = "--" then .separator :: operands rest
    else
      match table.reading argument with
      | .plain => .operand argument rest :: table.items rest
      | .unknown => .leftOver :: table.items rest
      | .ambiguous | .mistaken => [.mistake]
      | .uses complete none isWhole =>
        useItems complete ++ (if isWhole then [] else [.leftOver]) ++ table.items rest
      | .uses complete (some option) _ =>
        match rest with
        | [] => [.mistake]
        | value :: rest =>
          if value ≠ "--" ∧ table.isPlain value then
            useItems complete ++ .use option value :: table.items rest
          else [.mistake]

end OptionTable

end CommentIndex
