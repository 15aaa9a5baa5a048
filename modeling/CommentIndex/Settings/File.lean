import CommentIndex.Disk
import CommentIndex.Settings.Reading
import CommentIndex.Yaml.Document

/-!
# The settings of a workspace

A workspace has its settings in a YAML file, and the configuration of its repository takes
precedence over that. A file that is missing or cannot be understood sets nothing.
-/

namespace CommentIndex

namespace SettingsFile

/-- The entries of a file and the warnings about it. -/
abbrev Entries := List (Value × Value) × List SettingsWarning

/-- The entries that a text gives. -/
def entriesOf (text : List Char) : Except SettingsError Entries :=
  match Yaml.read text with
  | .ok (.map entries) => .ok (entries, [])
  | .ok value => .ok ([], if value.isTrue then [.fileNotMapping] else [])
  | .error .malformed => .ok ([], [.malformedFile])
  | .error .badScalar => .error .badScalar
  | .error .badTruth => .error .badTruth

/-- The entries that the octets of a file give, which must be UTF-8. -/
def entriesOfOctets (octets : List UInt8) : Except SettingsError Entries :=
  match Text.decode? octets with
  | some text => entriesOf (Text.withLineFeeds text)
  | none => .error .notUtf8

/-- The entries of a settings file. -/
def read (disk : Disk) (path : Path) : Except SettingsError Entries :=
  if path.isUnusable then .error .unusablePath
  else
    match disk.read path with
    | .ok octets => entriesOfOctets octets
    | .error .missing => .ok ([], [])
    | .error _ => .ok ([], [.unreadableFile])

/-- The name of the settings file in the folder of a workspace. -/
def name : String := ".anchors.yml"

end SettingsFile

/-- The settings of the workspace in a folder. They are read from `file`, or from the settings file
of the folder if none is given. -/
def Settings.load (disk : Disk) (folder : Path) (file : Option Path) :
    Except SettingsError (Settings × List SettingsWarning) := do
  let path := file.getD (folder.join (.ofText SettingsFile.name))
  let (entries, ofFile) ← SettingsFile.read disk path
  let (settings, ofEntries) ← Settings.ofEntries entries
  return (settings.overrideAll (disk.overridesAt folder), ofFile ++ ofEntries)

end CommentIndex
