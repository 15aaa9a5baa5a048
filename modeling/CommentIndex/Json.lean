import CommentIndex.Value

/-!
# JSON documents

`Json.pretty` writes a document with one member a line and two spaces for each level; `Json.line`
writes it on one line. Both write characters beyond ASCII as escapes of UTF-16 units.
-/

namespace CommentIndex

/-- A JSON document. The members of an object keep their order. -/
inductive Json where
  | null
  | bool (value : Bool)
  | int (value : Int)
  | float (value : Float)
  | text (value : String)
  | list (items : List Json)
  | object (members : List (String × Json))
deriving Inhabited

namespace Json

/-- The escape of one UTF-16 unit. -/
def unitEscape (unit : Nat) : List Char :=
  '\\' :: 'u' :: Text.hexDigits 4 unit

/-- A character inside a JSON string. -/
def escapeChar (c : Char) : List Char :=
  let n := c.toNat
  if c == Text.doubleQuote || c == '\\' then ['\\', c]
  else if c == '\n' then ['\\', 'n']
  else if c == '\r' then ['\\', 'r']
  else if c == '\t' then ['\\', 't']
  else if n == 8 then ['\\', 'b']
  else if n == 12 then ['\\', 'f']
  else if 32 ≤ n && n < 127 then [c]
  else if n < 0x10000 then unitEscape n
  else unitEscape (0xD800 + (n - 0x10000) / 0x400) ++ unitEscape (0xDC00 + (n - 0x10000) % 0x400)

/-- A JSON string. -/
def string (content : String) : String :=
  String.ofList (Text.doubleQuote :: content.toList.flatMap escapeChar ++ [Text.doubleQuote])

/-- The text of a number; infinities and what is no number have names. -/
def floatText (x : Float) : String :=
  if x.isNaN then "NaN"
  else if x.isInf then (if x < 0 then "-Infinity" else "Infinity")
  else Decimal.floatText x

/-- The text of a document that holds no others. -/
def plain : Json → String
  | .bool true => "true"
  | .bool false => "false"
  | .int value => toString value
  | .float value => floatText value
  | .text value => string value
  | _ => "null"

/-- The start of a line on a level. -/
def indent (level : Nat) : String :=
  String.ofList ('\n' :: List.replicate (2 * level) ' ')

/-- Members between brackets, one a line. -/
def block (level : Nat) (first last : String) (members : List String) : String :=
  if members.isEmpty then first ++ last
  else first ++ indent (level + 1) ++ Text.joinStrings ("," ++ indent (level + 1)) members ++
    indent level ++ last

mutual

/-- The document with one member a line, on a level. -/
def prettyAt (level : Nat) : Json → String
  | .list items => block level "[" "]" (prettyItems (level + 1) items)
  | .object members => block level "\x7b" "\x7d" (prettyMembers (level + 1) members)
  | document => plain document
termination_by structural document => document

/-- The items of a list on a level. -/
def prettyItems (level : Nat) : List Json → List String
  | [] => []
  | item :: rest => prettyAt level item :: prettyItems level rest
termination_by structural items => items

/-- The members of an object on a level. -/
def prettyMembers (level : Nat) : List (String × Json) → List String
  | [] => []
  | (name, item) :: rest =>
    (string name ++ ": " ++ prettyAt level item) :: prettyMembers level rest
termination_by structural members => members

end

/-- The document with one member a line. -/
def pretty (document : Json) : String :=
  prettyAt 0 document

mutual

/-- The document on one line. -/
def line : Json → String
  | .list items => "[" ++ Text.joinStrings ", " (lineItems items) ++ "]"
  | .object members => "\x7b" ++ Text.joinStrings ", " (lineMembers members) ++ "\x7d"
  | document => plain document
termination_by structural document => document

/-- The items of a list, each on one line. -/
def lineItems : List Json → List String
  | [] => []
  | item :: rest => item.line :: lineItems rest
termination_by structural items => items

/-- The members of an object, each on one line. -/
def lineMembers : List (String × Json) → List String
  | [] => []
  | (name, item) :: rest => (string name ++ ": " ++ item.line) :: lineMembers rest
termination_by structural members => members

end

/-- A text or nothing. -/
def ofText? : Option String → Json
  | some value => .text value
  | none => .null

mutual

/-- A value of the settings as a document. -/
def ofValue : Value → Json
  | .null => .null
  | .bool value => .bool value
  | .int value => .int value
  | .float value => .float value
  | .text value => .text value
  | .list items => .list (ofItems items)
  | .map entries => .object (ofEntries entries)
termination_by structural value => value

/-- The items of a list as documents. -/
def ofItems : List Value → List Json
  | [] => []
  | item :: rest => ofValue item :: ofItems rest
termination_by structural items => items

/-- The entries of a mapping as members of an object: a key that is no text is named as it is
written in JSON. -/
def ofEntries : List (Value × Value) → List (String × Json)
  | [] => []
  | (key, value) :: rest =>
    let name :=
      match ofValue key with
      | .text value => value
      | other => plain other
    (name, ofValue value) :: ofEntries rest
termination_by structural entries => entries

end

end Json

end CommentIndex
