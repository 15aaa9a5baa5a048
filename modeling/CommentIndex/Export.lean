import CommentIndex.Json
import CommentIndex.Outline
import CommentIndex.Path

/-!
# Exports

All anchors of a workspace as rows, and the rows as CSV or JSON. In CSV a field is quoted if it
holds a comma, a double quote, or a line feed, and a quote inside is written twice. In JSON the
rows are grouped by their files.
-/

namespace CommentIndex

/-- The format of an export. -/
inductive ExportFormat where
  | csv
  | json
deriving DecidableEq, Repr

namespace ExportFormat

/-- The name of a format. -/
def name : ExportFormat → String
  | .csv => "csv"
  | .json => "json"

/-- The format of a name. -/
def ofName? (name : String) : Option ExportFormat :=
  [ExportFormat.csv, .json].find? (·.name = name)

/-- The format that the ending of a file asks for. -/
def ofPath (path : Path) : ExportFormat :=
  if Text.lowerString path.ending = ".csv" then .csv else .json

end ExportFormat

/-- One anchor of a workspace. -/
structure ExportRow where
  file : String
  line : Int
  tag : String
  text : String
  id : Option String
  epic : Option String
deriving DecidableEq, Repr

namespace Export

/-- The row of an anchor; an anchor without a text has the name of its tag. -/
def rowOf (path : Path) (anchor : Anchor) : ExportRow :=
  { file := path.text
    line := anchor.facts.line
    tag := anchor.facts.tag
    text := if anchor.facts.text = "" then anchor.facts.tag else anchor.facts.text
    id := anchor.facts.attributes.id
    epic := anchor.facts.attributes.epic }

/-- The rows of all anchors, files in order and the anchors of each in the order of the
document. -/
def rows (outlines : List (Path × Outline)) : List ExportRow :=
  (outlines.mergeSort fun first second => first.1.le second.1).flatMap fun (path, outline) =>
    outline.flatten.map (rowOf path)

/-- Whether a field has to be quoted. -/
def needsQuotes (field : List Char) : Bool :=
  field.any fun c => c == ',' || c == Text.doubleQuote || c == '\n'

/-- A field inside quotes. -/
def quoteField (field : List Char) : List Char :=
  Text.doubleQuote ::
    field.flatMap (fun c => if c == Text.doubleQuote then [c, c] else [c]) ++ [Text.doubleQuote]

/-- A field of a record. -/
def csvField (field : List Char) : List Char :=
  if needsQuotes field then quoteField field else field

/-- A record with the line feed that ends it. -/
def csvRecord (fields : List String) : List Char :=
  Text.joinWith [','] (fields.map fun field => csvField field.toList) ++ ['\n']

/-- The names of the columns. -/
def csvHeader : List String :=
  ["Filename", "Line", "Tag", "Text", "Id", "Epic"]

/-- The fields of a row; what is missing is empty. -/
def csvFields (row : ExportRow) : List String :=
  [row.file, toString row.line, row.tag, row.text, row.id.getD "", row.epic.getD ""]

/-- The rows as CSV, behind a header. -/
def toCsv (rows : List ExportRow) : String :=
  String.ofList ((csvHeader :: rows.map csvFields).flatMap csvRecord)

/-- A row in the group of its file. -/
def jsonItem (row : ExportRow) : Json :=
  .object
    [("tag", .text row.tag), ("text", .text row.text), ("line", .int row.line),
     ("id", .ofText? row.id), ("epic", .ofText? row.epic)]

/-- The rows grouped by their files, in the order in which the files first occur. -/
def groups (rows : List ExportRow) : KeyedList String (List ExportRow) :=
  rows.foldl (fun groups row =>
    groups.insert row.file ((groups.find? row.file).getD [] ++ [row])) .empty

/-- The rows as JSON. -/
def toJson (rows : List ExportRow) : String :=
  (Json.object ((groups rows).entries.map fun (file, rows) =>
    (file, .list (rows.map jsonItem)))).pretty

/-- The rows in a format. -/
def document (format : ExportFormat) (rows : List ExportRow) : String :=
  match format with
  | .csv => toCsv rows
  | .json => toJson rows

end Export

end CommentIndex
