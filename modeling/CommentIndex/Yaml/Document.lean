import CommentIndex.Decimal.Reading
import CommentIndex.Text.Case
import CommentIndex.Value
import CommentIndex.Yaml.Node

/-!
# Values of a YAML document

`Yaml.read` reads a text as a value: scalars by their kinds, sequences as lists, and mappings with
the last value of each key.
-/

namespace CommentIndex.Yaml

/-- The text without underscores. -/
def withoutUnderscores (text : List Char) : List Char :=
  text.filter (· ≠ '_')

/-- Whether a text begins with a minus sign. -/
def isNegative (text : List Char) : Bool :=
  text.head? == some '-'

/-- The number that digits of a base write. -/
def inBase? (base : Nat) (text : List Char) : Option Nat :=
  if text.isEmpty then none
  else
    text.foldlM (fun value c =>
      (Scalar.hexValue? c).bind fun digit =>
        if digit < base then some (base * value + digit) else none) 0

/-- The number whose places in base sixty are given, the first one counting most. -/
def ofSixtieths (places : List Int) : Int :=
  places.foldl (fun value place => 60 * value + place) 0

/-- The integer that a text without its sign writes. -/
def magnitude? (text : List Char) : Option Int :=
  match text with
  | ['0'] => some 0
  | '0' :: 'b' :: digits => (inBase? 2 digits).map Int.ofNat
  | '0' :: 'x' :: digits => (inBase? 16 digits).map Int.ofNat
  | '0' :: digits => (inBase? 8 digits).map Int.ofNat
  | _ =>
    if text.contains ':' then ((Text.splitAtEach ':' text).mapM Text.readInt?).map ofSixtieths
    else Text.readInt? text

/-- The integer that a scalar writes. -/
def int? (text : List Char) : Option Int :=
  let text := withoutUnderscores text
  (magnitude? (Kind.unsigned text)).map fun value => if isNegative text then -value else value

/-- The double whose places in base sixty are given, the last one first; `unit` is what the first
of them counts. -/
def sumSixtieths (total : Float) (unit : Nat) : List Float → Float
  | [] => total
  | place :: rest => sumSixtieths (total + place * Float.ofNat unit) (60 * unit) rest

/-- The double that a scalar writes. -/
def float? (text : List Char) : Option Float :=
  let text := Text.lower (withoutUnderscores text)
  let size := Kind.unsigned text
  let signed (x : Float) : Float := if isNegative text then -x else x
  if size == ".inf".toList then some (signed Decimal.infinity)
  else if size == ".nan".toList then some Decimal.notANumber
  else if size.contains ':' then
    ((Text.splitAtEach ':' size).mapM Decimal.read?).map fun places =>
      signed (sumSixtieths 0 1 places.reverse)
  else (Decimal.read? size).map signed

/-- Whether a spelling in small letters is one of those of yes or no. -/
def bool? (text : List Char) : Option Bool :=
  let word := String.ofList (Text.lower text)
  if Kind.yes.contains word then some true
  else if Kind.no.contains word then some false
  else none

/-- A value that a scalar must write. -/
def demand {α : Type} (error : YamlError) (make : α → Value) : Option α → Except YamlError Value
  | some a => .ok (make a)
  | none => .error error

/-- The value of a scalar of a kind. -/
def scalarValue (kind : Kind) (text : List Char) : Except YamlError Value :=
  match kind with
  | .text => .ok (.text (String.ofList text))
  | .int => demand .badScalar .int (int? text)
  | .float => demand .badScalar .float (float? text)
  | .bool => demand .badTruth .bool (bool? text)
  | .null => .ok .null
  | .date =>
    match Date.read? text with
    | some date => if date.isPossible then .ok (.text date.text) else .error .badScalar
    | none => .error .malformed
  | _ => .error .malformed

/-- The value of a scalar that is a key: the mark of a default is a text there. -/
def keyKind : Kind → Kind
  | .default => .text
  | kind => kind

mutual

/-- The value of a node. -/
def Node.value : Node → Except YamlError Value
  | .scalar kind text => scalarValue kind text
  | .sequence kind items =>
    if kind = .sequence then
      match Node.itemValues items with
      | .ok values => .ok (.list values)
      | .error error => .error error
    else .error .malformed
  | .mapping kind entries =>
    if kind = .mapping then
      match Node.entryValues entries with
      | .ok values => .ok (Value.ofEntries values)
      | .error error => .error error
    else .error .malformed
termination_by structural node => node

/-- The values of the items of a sequence. -/
def Node.itemValues : List Node → Except YamlError (List Value)
  | [] => .ok []
  | item :: rest => do
    let value ← item.value
    return value :: (← Node.itemValues rest)
termination_by structural items => items

/-- The keys and values of a mapping; only scalars are keys. -/
def Node.entryValues : List (Node × Node) → Except YamlError (List (Value × Value))
  | [] => .ok []
  | (key, node) :: rest => do
    let key ←
      match key with
      | .scalar kind text => scalarValue (keyKind kind) text
      | _ => throw .malformed
    let value ← node.value
    return (key, value) :: (← Node.entryValues rest)
termination_by structural entries => entries

end

/-- The value of a text; an empty document has none. -/
def read (text : List Char) : Except YamlError Value := do
  match ← Node.ofTokens? (← Token.ofText text) with
  | some root => root.value
  | none => return .null

end CommentIndex.Yaml
