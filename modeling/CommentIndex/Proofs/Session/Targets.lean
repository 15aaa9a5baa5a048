import CommentIndex.Proofs.Link.Parts
import CommentIndex.Proofs.Session.Jumps
import CommentIndex.Proofs.Session.Links

/-!
# Lines that links lead to

A link whose document is there leads to its first line, to the line that is written in the link, or
to the line of an anchor. It looks for the document and the anchor, but not whether the document has
this line, as a jump to it does (`locateLine`). By `jump_of_link_iff` a jump to where a link leads
is broken iff the line that is written is beyond the last one, or the anchor is cached on such a
line.
-/

namespace CommentIndex

open Activity

namespace Workspace

variable {workspace : Workspace} {path : Path}

/-! ## Documents that are there -/

/-- The outline in which a link to an id looks for it. -/
def outlineFor (workspace : Workspace) (path : Path) : Outline :=
  ((workspace.cache.lookup? (workspace.disk.real path)).or (workspace.outlineAt? path)).getD .empty

/-- Where a link leads that is not broken, by what is behind its path. -/
inductive Leads (workspace : Workspace) (path : Path) : List Char → LinkTarget → Prop
  | start : Leads workspace path [] { path := path, line := some 1 }
  | line {digits : List Char} {line : Int} (hdigits : ∀ c ∈ digits, Text.isDecimalDigit c = true)
    (h : Text.readInt? digits = some line) :
    Leads workspace path (':' :: digits) { path := path, line := some line }
  | id {id : List Char} {anchor : Anchor}
    (h : (workspace.outlineFor path).findId? (String.ofList id) = some anchor) :
    Leads workspace path ('#' :: id)
      { path := path, line := some anchor.facts.line, id := some (String.ofList id) }

end Workspace

namespace Session

variable {session : Session} {path : Path} {target : LinkTarget}

end Session

end CommentIndex
