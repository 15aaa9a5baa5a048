import CommentIndex.Tag.Change

/-!
# The registry of tags

A `Registry` holds the tags that are in use, at most one for each name in capitals, in the order
in which they came in. `ofSettings` builds it from the standard tags and two layers of settings.
-/

namespace CommentIndex

/-- The tags in use, each under its name in capitals. -/
structure Registry where
  tags : KeyedList String Tag

namespace Registry

/-- No tags. -/
def empty : Registry := ⟨.empty⟩

instance : Inhabited Registry := ⟨empty⟩

/-- The registry with the tag, in place of one of the same name if there is one. -/
def register (registry : Registry) (tag : Tag) : Registry :=
  ⟨registry.tags.insert tag.key tag⟩

/-- The tag of a name, in whatever case the name is written. -/
def find? (registry : Registry) (name : String) : Option Tag :=
  registry.tags.find? (Text.upperString name)

/-- Whether there is a tag of that name. -/
def contains (registry : Registry) (name : String) : Bool :=
  registry.tags.contains (Text.upperString name)

/-- The registry without the tag of that name. -/
def unregister (registry : Registry) (name : String) : Registry :=
  ⟨registry.tags.erase (Text.upperString name)⟩

/-- The tags in order. -/
def toList (registry : Registry) : List Tag :=
  registry.tags.values

/-- The number of tags. -/
def size (registry : Registry) : Nat :=
  registry.tags.size

/-- The names in order, as they were written. -/
def names (registry : Registry) : List String :=
  registry.toList.map (·.name)

/-- The tokens that close the regions of the registry. -/
def endTokens (registry : Registry) (endTag : String) : List String :=
  (registry.toList.filter (·.isRegion)).map (endTag ++ ·.name)

/-- The registry of the given tags, of which the last of a name counts. -/
def ofTags (tags : List Tag) : Registry :=
  tags.foldl register empty

/-- Whether an entry turns its tag off, for which only the truth value itself counts. -/
def turnsOff (entry : List (Value × Value)) : Bool :=
  match Value.valueOf? "enabled" entry with
  | some (.bool false) => true
  | _ => false

/-- The registry with the change that an entry makes to the tag of a name. -/
def apply (registry : Registry) (name : String) (entry : List (Value × Value)) : Registry :=
  if turnsOff entry then registry.unregister name
  else
    let current := (registry.find? name).getD { name := name }
    registry.register ((TagChange.ofEntry entry).apply name current)

/-- The name and the fields of an entry in the list layer; an entry without a name has no
effect. -/
def listed? : Value → Option (String × List (Value × Value))
  | .map entries =>
    match Value.valueOf? "tag" entries with
    | some name =>
      if name.isTrue then
        some (name.asText, entries.filter fun entry => !entry.1.sameKey (.text "tag"))
      else none
    | none => none
  | _ => none

/-- The name and the fields of an entry in the keyed layer; what is no mapping sets nothing. -/
def keyed (entry : Value × Value) : String × List (Value × Value) :=
  match entry.2 with
  | .map entries => (entry.1.asText, entries)
  | _ => (entry.1.asText, [])

/-- The registry after each of the entries in order. -/
def applyAll (registry : Registry) (entries : List (String × List (Value × Value))) : Registry :=
  entries.foldl (fun registry entry => registry.apply entry.1 entry.2) registry

/-- The standard tags, changed by the list layer and then by the keyed one. -/
def ofSettings (listedLayer : List Value) (keyedLayer : List (Value × Value)) : Registry :=
  (ofTags Tag.standard).applyAll (listedLayer.filterMap listed? ++ keyedLayer.map keyed)

end Registry

/-- A line about one tag. -/
structure TagSummary where
  name : String
  behavior : Behavior
  scope : Scope
  styleMode : StyleMode
  /-- What closes a region of the tag. -/
  endToken : Option String
  /-- The highlight, if one is set. -/
  color : Option Value

/-- One line for each tag, in the order of the names in capitals. -/
def Registry.summaries (registry : Registry) (endTag : String) : List TagSummary :=
  (registry.toList.mergeSort fun first second => first.key ≤ second.key).map fun tag =>
    { name := tag.name
      behavior := tag.behavior
      scope := tag.scope
      styleMode := tag.styleMode
      endToken := if tag.isRegion then some (endTag ++ tag.name) else none
      color := if tag.highlightColor.isTrue then some tag.highlightColor else none }

end CommentIndex
