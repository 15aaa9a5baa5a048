import CommentIndex.Export

/-!
# Records read back

A reader of CSV goes through a text character by character. Outside quotes a comma ends a field and
a line feed ends a record; inside quotes they are characters like any other, and two quotes are one.
`foldlM_csvField` says what a written field does to the reader. From it, `csvRecords?_toCsv`: the
reader finds in an export the header and one record for each row, whatever the rows hold.
-/

namespace CommentIndex

open Export (csvField csvRecord csvHeader csvFields needsQuotes quoteField toCsv)

/-- Where a reader of CSV stands in a field. -/
inductive CsvPlace where
  /-- Nothing of the field has been read. -/
  | start
  /-- Inside a field without quotes. -/
  | bare
  /-- Inside the quotes of a field. -/
  | quoted
  /-- Behind a quote in a quoted field: it ends the field, unless it is the first of two. -/
  | quote
deriving DecidableEq, Repr

/-- What has been read of a text: the field so far, the fields of its record before it, and the
records before that. -/
structure CsvReader where
  place : CsvPlace
  field : List Char
  record : List String
  records : List (List String)
deriving DecidableEq, Repr

namespace CsvReader

/-- Nothing has been read. -/
def start : CsvReader := ⟨.start, [], [], []⟩

/-- The reader with one more character in its field. -/
def keep (reader : CsvReader) (place : CsvPlace) (c : Char) : CsvReader :=
  { reader with place := place, field := reader.field ++ [c] }

/-- The reader at the end of a field. -/
def endField (reader : CsvReader) : CsvReader :=
  ⟨.start, [], reader.record ++ [String.ofList reader.field], reader.records⟩

/-- The reader at the end of a record. -/
def endRecord (reader : CsvReader) : CsvReader :=
  ⟨.start, [], [], reader.records ++ [reader.endField.record]⟩

/-- The reader after a character that stands outside quotes. A quote may stand there only at the
start of a field. -/
def readBare (reader : CsvReader) (c : Char) : Option CsvReader :=
  if c = ',' then some reader.endField
  else if c = '\n' then some reader.endRecord
  else if c = Text.doubleQuote then none
  else some (reader.keep .bare c)

/-- The reader after one more character, unless that has no place there. -/
def read (reader : CsvReader) (c : Char) : Option CsvReader :=
  match reader.place with
  | .start =>
    if c = Text.doubleQuote then some { reader with place := .quoted } else reader.readBare c
  | .bare => reader.readBare c
  | .quoted =>
    if c = Text.doubleQuote then some { reader with place := .quote }
    else some (reader.keep .quoted c)
  | .quote =>
    if c = Text.doubleQuote then some (reader.keep .quoted c)
    else if c = ',' ∨ c = '\n' then reader.readBare c
    else none

/-- The records at the end of a text, where no quotes may be open. The last record may do without
its line feed. -/
def finish? (reader : CsvReader) : Option (List (List String)) :=
  match reader.place with
  | .quoted => none
  | .start =>
    if reader.record.isEmpty then some reader.records else some reader.endRecord.records
  | .bare | .quote => some reader.endRecord.records

end CsvReader

/-- The records of a text, unless its quotes are out of place. -/
def csvRecords? (text : List Char) : Option (List (List String)) :=
  (text.foldlM CsvReader.read .start).bind CsvReader.finish?

namespace CsvReader

/-! ## One field -/

/-- A comma outside quotes ends a field. -/
theorem read_comma {reader : CsvReader} (h : reader.place ≠ .quoted) :
    reader.read ',' = some reader.endField := by
  unfold read
  cases hplace : reader.place with
  | quoted => exact absurd hplace h
  | start | bare | quote => rfl

/-- A line feed outside quotes ends a record. -/
theorem read_lineFeed {reader : CsvReader} (h : reader.place ≠ .quoted) :
    reader.read '\n' = some reader.endRecord := by
  unfold read
  cases hplace : reader.place with
  | quoted => exact absurd hplace h
  | start | bare | quote => rfl

/-- A field that needs no quotes is read as it stands. -/
theorem foldlM_bare {field : List Char} (hfield : needsQuotes field = false)
    {reader : CsvReader} (hplace : reader.place = .start ∨ reader.place = .bare) :
    ∃ place, place ≠ .quoted ∧ field.foldlM read reader =
      some { reader with place := place, field := reader.field ++ field } := by
  induction field generalizing reader with
  | nil => exact ⟨reader.place, by rcases hplace with h | h <;> simp [h], by simp⟩
  | cons c rest ih =>
      simp only [needsQuotes, List.any_cons, Bool.or_eq_false_iff, beq_eq_false_iff_ne] at hfield
      obtain ⟨⟨⟨hcomma, hquote⟩, hlineFeed⟩, hrest⟩ := hfield
      have hread : reader.read c = some (reader.keep .bare c) := by
        rcases hplace with h | h <;> simp [read, readBare, h, hcomma, hquote, hlineFeed]
      have hkept : (reader.keep .bare c).place = .start ∨ (reader.keep .bare c).place = .bare :=
        .inr rfl
      obtain ⟨place, hne, hfold⟩ := ih hrest hkept
      refine ⟨place, hne, ?_⟩
      rw [List.foldlM_cons, hread, Option.bind_eq_bind, Option.bind_some, hfold]
      simp [keep]

/-- Inside quotes, characters are read as they stand, and two quotes as one. -/
theorem foldlM_inside (field : List Char) {reader : CsvReader} (hplace : reader.place = .quoted) :
    (field.flatMap fun c => if c == Text.doubleQuote then [c, c] else [c]).foldlM read reader =
      some { reader with field := reader.field ++ field } := by
  induction field generalizing reader with
  | nil => simp
  | cons c rest ih =>
      have hread : (if c == Text.doubleQuote then [c, c] else [c]).foldlM read reader =
          some (reader.keep .quoted c) := by
        by_cases hc : c = Text.doubleQuote
        · simp [hc, read, hplace, keep]
        · simp [hc, read, hplace]
      rw [List.flatMap_cons, List.foldlM_append, hread, Option.bind_eq_bind, Option.bind_some,
        ih rfl]
      simp [keep, hplace]

/-- A written field is read as the field, up to a place where a comma or a line feed ends it. -/
theorem foldlM_csvField (field : List Char) (record : List String) (records : List (List String)) :
    ∃ place, place ≠ .quoted ∧
      (csvField field).foldlM read ⟨.start, [], record, records⟩ =
        some ⟨place, field, record, records⟩ := by
  unfold csvField
  split
  · refine ⟨.quote, by simp, ?_⟩
    -- The first quote opens the field, and the last one is followed by no other.
    have hinside := foldlM_inside field
      (show (CsvReader.mk .quoted [] record records).place = .quoted from rfl)
    rw [quoteField, List.cons_append, List.foldlM_cons, read, if_pos rfl, Option.bind_eq_bind,
      Option.bind_some, List.foldlM_append, hinside]
    simp [read]
  · next hneeds =>
      exact foldlM_bare (Bool.eq_false_iff.mpr hneeds) (.inl rfl)

/-! ## Records -/

/-- Written fields and the end of their record are read as these fields. -/
theorem foldlM_fields (first : String) (rest : List String) (record : List String)
    (records : List (List String)) :
    (csvRecord (first :: rest)).foldlM read ⟨.start, [], record, records⟩ =
      some ⟨.start, [], [], records ++ [record ++ first :: rest]⟩ := by
  unfold csvRecord
  induction rest generalizing first record with
  | nil =>
      obtain ⟨place, hplace, hfield⟩ := foldlM_csvField first.toList record records
      have hend := read_lineFeed
        (show (CsvReader.mk place first.toList record records).place ≠ .quoted from hplace)
      rw [List.map_singleton, Text.joinWith, List.foldlM_append, hfield, Option.bind_eq_bind,
        Option.bind_some, List.foldlM_cons, hend]
      simp [endRecord, endField]
  | cons second rest ih =>
      obtain ⟨place, hplace, hfield⟩ := foldlM_csvField first.toList record records
      have hend := read_comma
        (show (CsvReader.mk place first.toList record records).place ≠ .quoted from hplace)
      rw [List.map_cons, List.map_cons, Text.joinWith, List.append_assoc, List.append_assoc,
        List.foldlM_append, hfield, Option.bind_eq_bind, Option.bind_some, List.singleton_append,
        List.foldlM_cons, hend, Option.bind_eq_bind, Option.bind_some]
      have hrest := ih second (record ++ [first])
      simpa [endField] using hrest
      · simp

/-- Written records are read as these records, behind those read before. -/
theorem foldlM_records (written : List (List String)) (hwritten : ∀ record ∈ written, record ≠ [])
    (records : List (List String)) :
    (written.flatMap csvRecord).foldlM read ⟨.start, [], [], records⟩ =
      some ⟨.start, [], [], records ++ written⟩ := by
  induction written generalizing records with
  | nil => simp
  | cons record rest ih =>
      obtain ⟨first, fields, rfl⟩ := List.exists_cons_of_ne_nil (hwritten record List.mem_cons_self)
      rw [List.flatMap_cons, List.foldlM_append, foldlM_fields, Option.bind_eq_bind,
        Option.bind_some, ih fun record hmem => hwritten record (List.mem_cons_of_mem _ hmem)]
      simp

end CsvReader

/-- A reader of CSV finds in an export the header, and then one record for each row, in order: its
file, its line in decimal digits, its tag and its text, and its id and epic, which are empty if they
are missing. -/
theorem csvRecords?_toCsv (rows : List ExportRow) :
    csvRecords? (toCsv rows).toList =
      some (["Filename", "Line", "Tag", "Text", "Id", "Epic"] ::
        rows.map fun row =>
          [row.file, toString row.line, row.tag, row.text, row.id.getD "", row.epic.getD ""]) := by
  have hrecords : ∀ record ∈ csvHeader :: rows.map csvFields, record ≠ [] := by
    simp [csvHeader, csvFields]
  have hfold := CsvReader.foldlM_records _ hrecords []
  rw [csvRecords?, toCsv, String.toList_ofList, CsvReader.start, hfold]
  rfl

/-- Fields with quotes, a comma and line ends in them, at the ends of fields too. -/
example :
    csvRecords? (toCsv [⟨"a,b", -3, "\"", " \n\"\"", some "", some "\r"⟩]).toList =
      some [csvHeader, ["a,b", "-3", "\"", " \n\"\"", "", "\r"]] := by
  decide +kernel

end CommentIndex
