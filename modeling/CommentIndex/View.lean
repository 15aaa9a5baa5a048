import CommentIndex.Outline.Order
import CommentIndex.View.Entry
import CommentIndex.Workspace

/-!
# Views

Three views of a workspace: the anchors of the active document, those of all cached documents by
their files, and those of all cached documents by their epics. Each leaves out the anchors whose
scope does not reach it; where there is nothing to show, one entry says why.
-/

namespace CommentIndex

/-- A view of a workspace. -/
inductive View where
  | file
  | workspace
  | epic
deriving DecidableEq, Repr, Inhabited

namespace View

/-- The name of a view. -/
def name : View → String
  | .file => "file"
  | .workspace => "workspace"
  | .epic => "epic"

/-- The view of a name, if there is one. -/
def ofName? (name : String) : Option View :=
  [View.file, .workspace, .epic].find? (·.name == name)

/-- The view that comes after another when they are shown in turn. -/
def next : View → View
  | .file => .workspace
  | .workspace => .epic
  | .epic => .file

/-- The anchors of the active document; hidden ones are left out with everything inside them. -/
def ofFile (workspace : Workspace) (cursor : Option Int) : Except WorkspaceError (List Entry) := do
  if !workspace.isLoaded then return [.loading]
  match workspace.active with
  | none => return [.error "Waiting for open editor..."]
  | some path =>
    let tags := workspace.settings.tags
    let anchors := Anchor.filterAll (fun anchor => !anchor.isHidden) (← workspace.current).anchors
    if anchors.isEmpty then return [.error "No comment anchors detected"]
    let entries :=
      Entry.ofAnchors path tags.showLine tags.expandRegions (tags.sortMethod.sort anchors)
    match cursor with
    | some line =>
      return if workspace.settings.showCursor then Entry.withCursor line entries else entries
    | none => return entries

/-- What is shown in place of the anchors of a workspace that are not there yet or not wanted. -/
def placeholder? (workspace : Workspace) : Option Entry :=
  let settings := workspace.settings.workspace
  if !settings.enabled then some (.error "Workspace disabled")
  else if settings.lazyLoad && !workspace.isScanned then some .scanPrompt
  else if !workspace.isLoaded then some .loading
  else none

/-- The anchors of an outline that are shown in the workspace: nested in those around them if all
of these are shown too, or each on its own. -/
def shownAnchors (nested : Bool) (outline : Outline) : List Anchor :=
  if nested then Anchor.filterAll Anchor.isInWorkspace outline.anchors
  else (outline.flatten.filter Anchor.isInWorkspace).map Anchor.alone

/-- The entry of a file, if any of its anchors is shown. -/
def shownFile? (workspace : Workspace) (path : Path) (outline : Outline) : Option Entry :=
  let tags := workspace.settings.tags
  let anchors := shownAnchors tags.nested outline
  if anchors.isEmpty then none
  else
    let stats := FileStats.of outline.anchors path workspace.root
      workspace.settings.workspace.pathFormat
    some (.file path stats.label stats.visible stats.hidden
      (Entry.ofAnchors path false tags.expandRegions (tags.sortMethod.sort anchors)))

/-- The files of the workspace that have anchors to show, in the order of their labels. -/
def ofWorkspace (workspace : Workspace) : List Entry :=
  match placeholder? workspace with
  | some entry => [entry]
  | none =>
    let files := workspace.outlines.filterMap fun (path, outline) =>
      shownFile? workspace path outline
    if files.isEmpty then [.error "No comment anchors in workspace"]
    else files.mergeSort fun first second => first.label ≤ second.label

/-- An anchor of an epic, and the document it is in. -/
structure EpicMember where
  epic : String
  anchor : Anchor
  path : Path

/-- The anchor as a member of its epic, if it has one and is shown in the workspace. -/
def epicMember? (path : Path) (anchor : Anchor) : Option EpicMember :=
  if anchor.isInWorkspace then
    (anchor.facts.attributes.epic.filter (· ≠ "")).map fun epic => ⟨epic, anchor, path⟩
  else none

/-- The members of all epics, in the order of the cache and of the documents. -/
def epicMembers (workspace : Workspace) : List EpicMember :=
  workspace.outlines.flatMap fun (path, outline) => outline.flatten.filterMap (epicMember? path)

/-- The entry of a member: with the anchors inside it that are shown, or on its own. -/
def shownMember? (nested : Bool) (member : EpicMember) : Option Entry :=
  (if nested then member.anchor.filter? Anchor.isInWorkspace else some member.anchor.alone).map
    (Entry.ofAnchor member.path false true)

/-- The entry of an epic: its members in the order of their `seq`. -/
def epicEntry (nested : Bool) (members : List EpicMember) (epic : String) : Entry :=
  let own := members.filter (·.epic = epic)
  let ordered := own.mergeSort fun first second =>
    first.anchor.facts.attributes.seq ≤ second.anchor.facts.attributes.seq
  .epic epic (ordered.filterMap (shownMember? nested))

/-- The epics of the workspace, in order. -/
def ofEpics (workspace : Workspace) : List Entry :=
  match placeholder? workspace with
  | some entry => [entry]
  | none =>
    let members := epicMembers workspace
    let epics := (members.map (·.epic)).eraseDups.mergeSort fun first second => first ≤ second
    if epics.isEmpty then [.error "No epics found"]
    else epics.map (epicEntry workspace.settings.tags.nested members)

/-- The entries of a view. The cursor shows in the view of the active document alone. -/
def entries (view : View) (workspace : Workspace) (cursor : Option Int) :
    Except WorkspaceError (List Entry) :=
  match view with
  | .file => ofFile workspace cursor
  | .workspace => .ok (ofWorkspace workspace)
  | .epic => .ok (ofEpics workspace)

end View

end CommentIndex
