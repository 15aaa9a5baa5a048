import CommentIndex.Decimal.Text
import CommentIndex.Text.Digit
import CommentIndex.Text.Quoted
import CommentIndex.Text.Split

/-!
# Values of settings

Settings files hold values of seven kinds, and a setting keeps whatever value it was given until
it is converted to the type of its field. `text` is a value as it reads where a text is wanted and
`quoted` as it reads inside a list or a mapping; `isTrue` says which values count as yes.
-/

namespace CommentIndex

/-- A value of a settings file. The entries of a mapping keep their order. -/
inductive Value where
  | null
  | bool (value : Bool)
  | int (value : Int)
  | float (value : Float)
  | text (value : String)
  | list (items : List Value)
  | map (entries : List (Value × Value))
deriving Inhabited

namespace Value

/-- Everything counts as yes except nothing, no, zero, and what is empty. -/
def isTrue : Value → Bool
  | .null => false
  | .bool value => value
  | .int value => value ≠ 0
  | .float value => value != 0
  | .text value => value ≠ ""
  | .list items => !items.isEmpty
  | .map entries => !entries.isEmpty

/-- Whether a value is missing. -/
def isNull : Value → Bool
  | .null => true
  | _ => false

/-- The text of a value that holds no others. -/
def plainText : Value → String
  | .bool true => "True"
  | .bool false => "False"
  | .int value => toString value
  | .float value => Decimal.floatText value
  | .text value => value
  | _ => "None"

mutual

/-- A value as it is written inside a list or a mapping: texts are quoted. -/
def quoted : Value → String
  | .text value => Text.quotedString value
  | .list items => "[" ++ Text.joinStrings ", " (quotedItems items) ++ "]"
  | .map entries => "\x7b" ++ Text.joinStrings ", " (quotedEntries entries) ++ "\x7d"
  | value => plainText value
termination_by structural value => value

/-- The written form of each item. -/
def quotedItems : List Value → List String
  | [] => []
  | value :: rest => value.quoted :: quotedItems rest
termination_by structural items => items

/-- The written form of each entry. -/
def quotedEntries : List (Value × Value) → List String
  | [] => []
  | (key, value) :: rest => (key.quoted ++ ": " ++ value.quoted) :: quotedEntries rest
termination_by structural entries => entries

end

/-- A value as it is written where a text is wanted: a text is itself. -/
def asText : Value → String
  | .text value => value
  | value => value.quoted

mutual

/-- Whether a value can be written: no integer in it has more digits than may be read. -/
def isWritable : Value → Bool
  | .int value => value.natAbs < Nat.pow 10 Text.maxIntDigits
  | .list items => areWritable items
  | .map entries => areWritableEntries entries
  | _ => true
termination_by structural value => value

/-- Whether each item can be written. -/
def areWritable : List Value → Bool
  | [] => true
  | value :: rest => value.isWritable && areWritable rest
termination_by structural items => items

/-- Whether each entry can be written. -/
def areWritableEntries : List (Value × Value) → Bool
  | [] => true
  | (key, value) :: rest => key.isWritable && value.isWritable && areWritableEntries rest
termination_by structural entries => entries

end

/-- The number that a truth value, an integer, or a whole double stands for. -/
def wholeNumber? : Value → Option Int
  | .bool value => some (if value then 1 else 0)
  | .int value => some value
  | .float value =>
    if value.floor == value then Decimal.truncated? value else none
  | _ => none

/-- Whether two keys of a mapping are the same: numbers and truth values are compared by value,
and lists and mappings are never keys. -/
def sameKey (first second : Value) : Bool :=
  match first, second with
  | .null, .null => true
  | .text first, .text second => first == second
  | .float first, .float second => first == second
  | first, second =>
    match first.wholeNumber?, second.wholeNumber? with
    | some first, some second => first == second
    | _, _ => false

/-- The entries with `value` under `key`; a key that is present keeps its place and its form. -/
def putEntry (key value : Value) : List (Value × Value) → List (Value × Value)
  | [] => [(key, value)]
  | (k, old) :: rest =>
    if k.sameKey key then (k, value) :: rest else (k, old) :: putEntry key value rest

/-- A mapping made of entries given one after the other. -/
def ofEntries (entries : List (Value × Value)) : Value :=
  .map (entries.foldl (fun kept entry => putEntry entry.1 entry.2 kept) [])

/-- The value under a key that is a text. -/
def valueOf? (name : String) : List (Value × Value) → Option Value
  | [] => none
  | (key, value) :: rest => if key.sameKey (.text name) then some value else valueOf? name rest

end Value

end CommentIndex
