import CommentIndex.Settings
import CommentIndex.Text.Case
import CommentIndex.Text.Digit

/-!
# Overrides from a repository

The configuration of a repository has a section whose values take precedence over a settings
file. `Override.read?` gives a raw text the type that its key asks for, and `Settings.override`
puts the value in its place.
-/

namespace CommentIndex

/-- A value for a key, both as settings have them. -/
structure Override where
  key : String
  value : Value
deriving Inhabited

namespace Override

/-- The type of the value of a key. -/
inductive Kind where
  | integer
  | flag
  | text
deriving DecidableEq, Repr

/-- The type that a key asks for. -/
def kindOf (key : String) : Kind :=
  if key = "max-files" ∨ key = "parse-delay" then .integer
  else if key = "lazy-load" ∨ key = "workspace-enabled" ∨ key = "match-case" then .flag
  else .text

/-- A key with underscores for its hyphens. -/
def keyOf (key : String) : String :=
  String.ofList (key.toList.map fun c => if c = '-' then '_' else c)

/-- The value of a key from its raw text; there is none if an integer is asked for and not
given. -/
def value? (key raw : String) : Option Value :=
  match kindOf key with
  | .integer => (Text.readInt? raw.toList).map .int
  | .flag => some (.bool (["true", "yes", "1"].contains (Text.lowerString raw)))
  | .text => some (.text raw)

/-- The override of a raw entry. -/
def read? (key raw : String) : Option Override :=
  (value? key raw).map fun value => ⟨keyOf key, value⟩

end Override

/-- The settings with one override; a key that is not known has no effect. -/
def Settings.override (settings : Settings) (entry : Override) : Settings :=
  match entry.key, entry.value with
  | "max_files", .int n => { settings with workspace.maxFiles := n }
  | "parse_delay", .int n => { settings with parseDelay := n }
  | "lazy_load", .bool b => { settings with workspace.lazyLoad := b }
  | "workspace_enabled", .bool b => { settings with workspace.enabled := b }
  | "match_case", .bool b => { settings with tags.matchCase := b }
  | "end_tag", .text s => { settings with tags.endTag := s }
  | _, _ => settings

/-- The settings with all overrides, one after the other. -/
def Settings.overrideAll (settings : Settings) (entries : List Override) : Settings :=
  entries.foldl Settings.override settings

end CommentIndex
