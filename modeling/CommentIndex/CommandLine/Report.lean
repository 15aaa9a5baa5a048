import CommentIndex.Json
import CommentIndex.Registry
import CommentIndex.Target
import CommentIndex.Text.Column
import CommentIndex.View.Entry

/-!
# What commands print

Anchors, tags, entries, and links as documents and as lines.
-/

namespace CommentIndex

namespace Anchor

/-- What an anchor says, as members of an object. A region also has its last line, which is null
while it is not closed. -/
def members (facts : Facts) (closing : Option Closing) : List (String × Json) :=
  [("tag", .text facts.tag), ("text", .text facts.text), ("display", .text facts.display),
   ("line", .int facts.line), ("seq", .int facts.attributes.seq),
   ("id", .ofText? facts.attributes.id), ("epic", .ofText? facts.attributes.epic)] ++
    if facts.isRegion then
      [("end_line", (closing.map fun closing => Json.int closing.line).getD .null)]
    else []

mutual

/-- An anchor as a document, with those inside it if there are some. -/
def document : Anchor → Json
  | .mk facts closing children =>
    .object (members facts closing ++
      if children.isEmpty then [] else [("children", .list (documents children))])
termination_by structural tree => tree

/-- The anchors of a forest as documents. -/
def documents : List Anchor → List Json
  | [] => []
  | first :: rest => document first :: documents rest
termination_by structural forest => forest

end

end Anchor

namespace Entry

/-- A label behind spaces, and the lines below it. -/
def indented (indent : Nat) (label : String) (below : List String) : List String :=
  (Text.padStart indent "" ++ label) :: below

mutual

/-- The labels of an entry and of those below it, which stand two spaces further in. -/
def lines (indent : Nat) : Entry → List String
  | .anchor shown _ showLine children =>
    indented indent (anchorLabel shown showLine) (forestLines (indent + 2) children)
  | .region shown _ showLine _ children =>
    indented indent (regionLabel shown showLine) (forestLines (indent + 2) children)
  | .file _ label _ _ children => indented indent label (forestLines (indent + 2) children)
  | .epic name children => indented indent name (forestLines (indent + 2) children)
  | entry => indented indent entry.label []
termination_by structural tree => tree

/-- The labels of the entries of a forest. -/
def forestLines (indent : Nat) : List Entry → List String
  | [] => []
  | first :: rest => lines indent first ++ forestLines indent rest
termination_by structural forest => forest

end

end Entry

namespace TagSummary

/-- A tag as a document. -/
def document (summary : TagSummary) : Json :=
  .object
    [("name", .text summary.name), ("behavior", .text summary.behavior.name),
     ("scope", .text summary.scope.name), ("style_mode", .text summary.styleMode.name),
     ("end_token", .ofText? summary.endToken),
     ("extra", .object (summary.color.toList.map fun color => ("color", .ofValue color)))]

/-- A tag as a line. -/
def line (summary : TagSummary) : String :=
  Text.padEnd 12 summary.name ++ " " ++ Text.padEnd 7 summary.behavior.name ++ " " ++
    Text.padEnd 10 summary.scope.name ++ " " ++ summary.styleMode.name ++
    match summary.endToken with
    | some token => "  (ends with " ++ token ++ ")"
    | none => ""

end TagSummary

namespace LinkTarget

/-- A link and its target as a document, with the path as seen from a folder. -/
def document (root : Path) (anchor : Anchor) (target : LinkTarget) : Json :=
  .object
    [("line", .int anchor.facts.line), ("link", .text anchor.facts.text),
     ("file", .text (root.seenFrom target.path).text),
     ("target_line", (target.line.map Json.int).getD .null),
     ("broken", .bool target.broken.isSome), ("reason", .ofText? target.broken)]

/-- A link and its target as a line, with the path as seen from a folder. -/
def summary (root : Path) (anchor : Anchor) (target : LinkTarget) : String :=
  Text.padStart 5 (Nat.repr anchor.facts.line) ++ "  " ++ anchor.facts.text ++ "  -> " ++
    match target.broken with
    | some reason => "broken: " ++ reason
    | none =>
      (root.seenFrom target.path).text ++ ":" ++ (target.line.map toString).getD ""

end LinkTarget

/-- A location as a document. -/
def Location.document (location : Location) : Json :=
  .object [("file", .text location.path.text), ("line", .int location.line)]

end CommentIndex
