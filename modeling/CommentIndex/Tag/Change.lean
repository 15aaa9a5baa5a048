import CommentIndex.Key
import CommentIndex.KeyedList
import CommentIndex.Tag

/-!
# Changes to a tag

An entry of the settings changes some fields of a tag. `TagChange.ofEntry` reads the entry: its
keys may be spelled in every way that `Key.normalize` knows, an older spelling of the behaviour and
the style mode as truth values gives way to the newer one, and a name that is not known changes
nothing.
-/

namespace CommentIndex

/-- The fields that an entry sets. -/
structure TagChange where
  behavior : Option Behavior := none
  scope : Option Scope := none
  styleMode : Option StyleMode := none
  highlightColor : Option Value := none
  backgroundColor : Option Value := none
  iconColor : Option Value := none
  borderStyle : Option Value := none
  borderRadius : Option Value := none
  bold : Option Value := none
  italic : Option Value := none

namespace TagChange

/-- The fields of an entry under their normalized keys; of two spellings the later one counts. -/
def fields (entry : List (Value × Value)) : KeyedList String Value :=
  .ofList (entry.map fun (key, value) => (Key.normalize key.asText, value))

/-- The value of a field that is set to something. -/
def given? (fields : KeyedList String Value) (name : String) : Option Value :=
  (fields.find? name).filter fun value => !value.isNull

/-- The named choice that a value makes, if it is one of those known. -/
def choice? {α : Type} (ofName? : String → Option α) : Value → Option α
  | .text name => ofName? name
  | _ => none

/-- A choice that may be given by name, or else by `otherwise`. A name that is not known hides
`otherwise` too. -/
def choiceOr {α : Type} (fields : KeyedList String Value) (name : String)
    (ofName? : String → Option α) (otherwise : Option α) : Option α :=
  match given? fields name with
  | some value => choice? ofName? value
  | none => otherwise

/-- A truth value that may be given under its name, or else under an older one. -/
def flagOr (fields : KeyedList String Value) (name older : String) : Option Value :=
  (given? fields name).or ((fields.find? older).map fun value => .bool value.isTrue)

/-- The behaviour by its older spelling. -/
def olderBehavior (fields : KeyedList String Value) : Option Behavior :=
  if (fields.find? "is_region").any Value.isTrue then some .region else none

/-- The style mode by its older spelling. -/
def olderStyleMode (fields : KeyedList String Value) : Option StyleMode :=
  (fields.find? "style_comment").map fun value => if value.isTrue then .comment else .tag

/-- The change that an entry makes. -/
def ofEntry (entry : List (Value × Value)) : TagChange :=
  let fields := fields entry
  { behavior := choiceOr fields "behavior" Behavior.ofName? (olderBehavior fields)
    scope := choiceOr fields "scope" Scope.ofName? none
    styleMode := choiceOr fields "style_mode" StyleMode.ofName? (olderStyleMode fields)
    highlightColor := given? fields "highlight_color"
    backgroundColor := given? fields "background_color"
    iconColor := given? fields "icon_color"
    borderStyle := given? fields "border_style"
    borderRadius := given? fields "border_radius"
    bold := flagOr fields "bold" "is_bold"
    italic := flagOr fields "italic" "is_italic" }

/-- The tag of the given name that a change makes of another. -/
def apply (change : TagChange) (name : String) (tag : Tag) : Tag :=
  { name := name
    behavior := change.behavior.getD tag.behavior
    scope := change.scope.getD tag.scope
    styleMode := change.styleMode.getD tag.styleMode
    highlightColor := change.highlightColor.getD tag.highlightColor
    backgroundColor := change.backgroundColor.getD tag.backgroundColor
    iconColor := change.iconColor.getD tag.iconColor
    borderStyle := change.borderStyle.getD tag.borderStyle
    borderRadius := change.borderRadius.getD tag.borderRadius
    bold := change.bold.getD tag.bold
    italic := change.italic.getD tag.italic }

end TagChange

end CommentIndex
