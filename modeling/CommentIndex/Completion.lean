import CommentIndex.Workspace

/-!
# Completions

What an editor may offer to insert: the tags and end tags that are known, and for every epic in use
the attributes of its next anchor.
-/

namespace CommentIndex

/-- Something to insert. -/
structure Completion where
  label : String
  inserted : String
  detail : String
deriving DecidableEq, Repr

namespace Completion

/-- The completion of a tag: its name and the first separator. -/
def ofTag (separator : String) (tag : Tag) : Completion :=
  ⟨tag.name ++ " Anchor", tag.name ++ separator, "Insert " ++ tag.name ++ " anchor"⟩

/-- The completion of an end tag. -/
def ofEndTag (endToken : String) : Completion :=
  ⟨endToken ++ " Anchor", endToken, "Insert " ++ endToken ++ " comment anchor"⟩

/-- The tags of a workspace, each with its end tag if it has one. -/
def ofTags (workspace : Workspace) : List Completion :=
  let settings := workspace.settings.tags
  workspace.registry.toList.flatMap fun tag =>
    ofTag (settings.separators.headD " ") tag ::
      if tag.isRegion then [ofEndTag (settings.endTag ++ tag.name)] else []

/-- The highest `seq` of each epic, once an anchor with further attributes is met. -/
def raise (highest : KeyedList String Int) (attributes : Attributes) : KeyedList String Int :=
  match attributes.epic with
  | some epic =>
    highest.insert epic (max ((highest.find? epic).getD attributes.seq) attributes.seq)
  | none => highest

/-- The highest `seq` of each epic in use, in the order in which the epics are met. -/
def highest (workspace : Workspace) : KeyedList String Int :=
  let all := workspace.outlines.flatMap fun (_, outline) =>
    outline.flatten.map (·.facts.attributes)
  all.foldl raise .empty

/-- The completion of an epic whose next anchor has the given `seq`. -/
def ofEpic (epic : String) (seq : Int) : Completion :=
  let inner := "epic=" ++ epic ++ ",seq=" ++ toString seq
  ⟨inner, "[" ++ inner ++ "]", "Next anchor in " ++ epic⟩

/-- The epics in use, in order. -/
def ofEpics (workspace : Workspace) : List Completion :=
  let sorted := (highest workspace).entries.mergeSort fun first second => first.1 ≤ second.1
  sorted.map fun (epic, seq) => ofEpic epic (seq + workspace.settings.seqStep)

end Completion

end CommentIndex
