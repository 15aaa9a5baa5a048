import CommentIndex.Text.Case
import CommentIndex.Value

/-!
# Tags

A tag is a word that makes a comment an anchor, with what that anchor does and where it shows.
Tags are told apart by their names in capitals, which is `Tag.key`.
-/

namespace CommentIndex

/-- What an anchor of a tag does. -/
inductive Behavior where
  /-- It marks a place. -/
  | plain
  /-- It opens a region that an end tag closes. -/
  | region
  /-- Its text names another place. -/
  | link
  /-- A behaviour that is not known; it acts as a plain one. -/
  | other (name : String)
deriving DecidableEq, Repr, Inhabited

/-- Where an anchor is shown. -/
inductive Scope where
  /-- In the view of its own document. -/
  | file
  /-- In the view of its document and in those of the workspace. -/
  | workspace
  /-- Nowhere. -/
  | hidden
  /-- A scope that is not known; it shows where `file` does. -/
  | other (name : String)
deriving DecidableEq, Repr, Inhabited

/-- Which part of an occurrence is highlighted. -/
inductive StyleMode where
  /-- The tag alone. -/
  | tag
  /-- The tag and the comment behind it. -/
  | comment
  /-- Everything from the comment mark to the end of the line. -/
  | full
  /-- A mode that is not known; it highlights what `comment` does. -/
  | other (name : String)
deriving DecidableEq, Repr, Inhabited

/-- The name of a behaviour in settings. -/
def Behavior.name : Behavior → String
  | .plain => "plain"
  | .region => "region"
  | .link => "link"
  | .other name => name

/-- The behaviour of a name, if there is one. -/
def Behavior.ofName? (name : String) : Option Behavior :=
  [Behavior.plain, .region, .link].find? (·.name == name)

/-- The behaviour of any name. -/
def Behavior.ofName (name : String) : Behavior :=
  (Behavior.ofName? name).getD (.other name)

/-- The name of a scope in settings. -/
def Scope.name : Scope → String
  | .file => "file"
  | .workspace => "workspace"
  | .hidden => "hidden"
  | .other name => name

/-- The scope of a name, if there is one. -/
def Scope.ofName? (name : String) : Option Scope :=
  [Scope.file, .workspace, .hidden].find? (·.name == name)

/-- The scope of any name. -/
def Scope.ofName (name : String) : Scope :=
  (Scope.ofName? name).getD (.other name)

/-- The name of a style mode in settings. -/
def StyleMode.name : StyleMode → String
  | .tag => "tag"
  | .comment => "comment"
  | .full => "full"
  | .other name => name

/-- The style mode of a name, if there is one. -/
def StyleMode.ofName? (name : String) : Option StyleMode :=
  [StyleMode.tag, .comment, .full].find? (·.name == name)

/-- The style mode of any name. -/
def StyleMode.ofName (name : String) : StyleMode :=
  (StyleMode.ofName? name).getD (.other name)

/-- A tag. The looks of its highlight are kept as they were set. -/
structure Tag where
  name : String
  behavior : Behavior := .plain
  scope : Scope := .workspace
  styleMode : StyleMode := .tag
  highlightColor : Value := .null
  backgroundColor : Value := .null
  iconColor : Value := .text "default"
  borderStyle : Value := .null
  borderRadius : Value := .null
  bold : Value := .bool true
  italic : Value := .bool true
deriving Inhabited

namespace Tag

/-- The name in capitals, by which tags are told apart. -/
def key (tag : Tag) : String :=
  Text.upperString tag.name

/-- Whether the tag opens regions. -/
def isRegion (tag : Tag) : Bool :=
  tag.behavior = .region

/-- Whether the tag is a link. -/
def isLink (tag : Tag) : Bool :=
  tag.behavior = .link

/-- The tags that are known without any settings. -/
def standard : List Tag :=
  [{ name := "ANCHOR", scope := .file, highlightColor := .text "#A8C023" },
   { name := "TODO", iconColor := .text "blue", highlightColor := .text "#3ea8ff" },
   { name := "FIXME", iconColor := .text "red", highlightColor := .text "#F44336" },
   { name := "STUB", scope := .file, iconColor := .text "purple",
     highlightColor := .text "#BA68C8" },
   { name := "NOTE", scope := .file, iconColor := .text "orange",
     highlightColor := .text "#FFB300" },
   { name := "REVIEW", iconColor := .text "green", highlightColor := .text "#64DD17" },
   { name := "SECTION", behavior := .region, iconColor := .text "blurple",
     highlightColor := .text "#896afc" },
   { name := "LINK", behavior := .link, iconColor := .text "blue",
     highlightColor := .text "#2ecc71" }]

end Tag

end CommentIndex
