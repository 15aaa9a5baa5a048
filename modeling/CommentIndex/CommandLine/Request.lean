import CommentIndex.CommandLine.Options
import CommentIndex.Export

/-!
# Requests

What the arguments of the program ask for: a command, its options, and its operand. Options that
all commands share may stand in front of the command or behind it, where they take precedence.
Arguments that ask for nothing have a reason to show how the program is used.
-/

namespace CommentIndex

/-- What the program can do. -/
inductive Command where
  /-- Lists the anchors of all files. -/
  | scanFolder
  /-- Lists the anchors of one file. -/
  | showFile
  /-- Writes the anchors of all files as a document. -/
  | exportRows
  /-- Lists the tags. -/
  | listTags
  /-- Finds the place of an anchor or of a line. -/
  | findPlace
  /-- Checks the links of one file. -/
  | checkLinks
deriving DecidableEq, Repr

namespace Command

/-- The name of a command. -/
def name : Command → String
  | .scanFolder => "scan"
  | .showFile => "show"
  | .exportRows => "export"
  | .listTags => "tags"
  | .findPlace => "goto"
  | .checkLinks => "links"

/-- All commands. -/
def all : List Command :=
  [.scanFolder, .showFile, .exportRows, .listTags, .findPlace, .checkLinks]

/-- The command of a name. -/
def ofName? (name : String) : Option Command :=
  all.find? (·.name = name)

/-- Whether a command has an operand. It is needed then, and there is only one. -/
def takesOperand : Command → Bool
  | .showFile | .findPlace | .checkLinks => true
  | _ => false

end Command

/-- The options of the program. -/
inductive Switch where
  | help
  | root
  | config
  | json
  | verbose
  | line
  | format
  | output
deriving DecidableEq, Repr

namespace Switch

/-- Whether an option takes a value. -/
def takesValue : Switch → Bool
  | .help | .json | .verbose => false
  | _ => true

/-- The spellings that all commands share. -/
def shared : List (String × Switch) :=
  [("-h", .help), ("--help", .help), ("--root", .root), ("--config", .config), ("--json", .json),
   ("-v", .verbose), ("--verbose", .verbose)]

/-- The spellings that only one command has. -/
def special : Command → List (String × Switch)
  | .showFile => [("--line", .line)]
  | .exportRows => [("--format", .format), ("-o", .output), ("--output", .output)]
  | _ => []

/-- The options in front of the command. -/
def front : OptionTable Switch :=
  ⟨shared, takesValue⟩

/-- The options behind a command. -/
def behind (command : Command) : OptionTable Switch :=
  ⟨shared ++ special command, takesValue⟩

end Switch

/-- Why the program shows how it is used. -/
inductive UsageReason where
  | asked
  | noCommand
  | misused
deriving DecidableEq, Repr

/-- The exit code of a program that has shown how it is used. -/
def UsageReason.exitCode : UsageReason → Nat
  | .asked => 0
  | .noCommand => 1
  | .misused => 2

/-- What the options of a request say. -/
structure RequestOptions where
  root : String := "."
  /-- The settings file; the empty name stands for none. -/
  config : String := ""
  asJson : Bool := false
  /-- The line of the cursor. -/
  line : Option Int := none
  format : Option ExportFormat := none
  /-- The file to write; the empty name stands for none. -/
  output : String := ""
deriving DecidableEq, Repr

/-- The options with one more use. -/
def RequestOptions.take (options : RequestOptions) (switch : Switch) (value : String) :
    Except UsageReason RequestOptions :=
  match switch with
  | .help => .error .asked
  | .root => .ok { options with root := value }
  | .config => .ok { options with config := value }
  | .json => .ok { options with asJson := true }
  | .verbose => .ok options
  | .line =>
    match Text.readInt? value.toList with
    | some line => .ok { options with line := some line }
    | none => .error .misused
  | .format =>
    match ExportFormat.ofName? value with
    | some format => .ok { options with format := some format }
    | none => .error .misused
  | .output => .ok { options with output := value }

/-- What the program is asked for. -/
structure Request where
  command : Command
  options : RequestOptions
  /-- It is empty for a command without one. -/
  operand : String
deriving DecidableEq, Repr

namespace Request

/-- Reads what stands behind a command. A separator may stand next to the operand; `isClean` says
that no argument has been left over. -/
def readBehind (command : Command) (options : RequestOptions) (operand : Option String)
    (isClean : Bool) : List (ArgumentItem Switch) → Except UsageReason Request
  | [] =>
    if isClean && (operand.isSome || !command.takesOperand) then
      .ok ⟨command, options, operand.getD ""⟩
    else .error .misused
  | .use switch value :: rest => do
    readBehind command (← options.take switch value) operand isClean rest
  | .operand text _ :: .separator :: rest =>
    if command.takesOperand && operand.isNone then
      readBehind command options (some text) isClean rest
    else readBehind command options operand false rest
  | .operand text _ :: rest =>
    if command.takesOperand && operand.isNone then
      readBehind command options (some text) isClean rest
    else readBehind command options operand false rest
  | .separator :: rest =>
    readBehind command options operand
      (isClean && command.takesOperand && operand.isNone && !rest.isEmpty) rest
  | .leftOver :: rest => readBehind command options operand false rest
  | .mistake :: _ => .error .misused

/-- Reads what stands in front of the command, and then the command and what stands behind it. -/
def readFront (options : RequestOptions) (isClean : Bool) :
    List (ArgumentItem Switch) → Except UsageReason Request
  | [] => .error (if isClean then .noCommand else .misused)
  | .use switch value :: rest => do
    readFront (← options.take switch value) isClean rest
  | .operand text behind :: _ =>
    match Command.ofName? text with
    | some command => readBehind command options none isClean ((Switch.behind command).items behind)
    | none => .error .misused
  | .leftOver :: rest => readFront options false rest
  | .separator :: _ | .mistake :: _ => .error .misused

/-- Reads the arguments of the program. That one of them is ambiguous is noticed before anything
else. -/
def read (arguments : List String) : Except UsageReason Request :=
  if (arguments.takeWhile (· ≠ "--")).any Switch.front.isAmbiguous then .error .misused
  else readFront {} true (Switch.front.items arguments)

/-- How the program is used. -/
def usage : String :=
  Text.joinStrings "\n"
    ["usage: comment-index [options] command [options] [operand]",
     "",
     "Lists the anchors in the comments of a folder of documents.",
     "",
     "commands:",
     "  scan          list the anchors of all files",
     "  show FILE     list the anchors of one file",
     "  export        write the anchors of all files as a document",
     "  tags          list the tags",
     "  goto TARGET   find an anchor by its id, or a line as FILE:LINE",
     "  links FILE    check the links of one file",
     "",
     "options:",
     "  -h, --help           show this text",
     "  --root FOLDER        the folder of documents (default: .)",
     "  --config FILE        the settings file (default: .anchors.yml in the folder)",
     "  --json               write JSON",
     "  -v, --verbose        accepted, but without effect",
     "  --line LINE          show: the line of the cursor",
     "  --format csv|json    export: the format (default: by the output, or json)",
     "  -o, --output FILE    export: the file to write",
     ""]

end Request

end CommentIndex
