import Fulgur.Files.Encoding
import Fulgur.Library.Fallible
import Fulgur.Library.Grid

/-! # The model of a CSV file

The text is read into records, which are padded to the width of the longest; the
first is the header row. A record that cannot be read is counted and left out.
The model is written back as one record for the headers and one for each row.
-/

namespace Fulgur

/-- A rectangular view of a CSV file: a header row plus data rows. -/
structure CsvData where
  headers : List String
  rows : List (List String)
deriving DecidableEq, Inhabited

structure CsvParseOutcome where
  data : CsvData
  droppedRecords : Nat
deriving DecidableEq

/-- What the reader of the `csv` crate gives for a text, without headers and flexible. -/
abbrev CsvReader := (text : String) → (delimiter : UInt8) → List (Except String (List String))

/-- `Vec::resize` with empty strings. -/
def resize (width : Nat) (record : List String) : List String :=
  record.take width ++ List.replicate (width - record.length) ""

theorem length_resize (width : Nat) (record : List String) :
    (resize width record).length = width := by
  rw [resize, List.length_append, List.length_take, List.length_replicate]
  omega

/-- The records that could be read, and how many could not. -/
def collectRecords (results : List (Except String (List String))) : List (List String) × Nat :=
  results.foldl
    (fun read result =>
      match result with
      | .ok record => (read.1 ++ [record], read.2)
      | .error _ => (read.1, read.2 + 1))
    ([], 0)

def recordWidth (records : List (List String)) : Nat := (records.map List.length).max?.getD 0

def padRecords (records : List (List String)) : List (List String) :=
  records.map (resize (recordWidth records))

theorem even_padRecords (records : List (List String)) :
    Grid.Even (padRecords records) (recordWidth records) := by
  intro row hrow
  obtain ⟨record, -, rfl⟩ := List.mem_map.mp hrow
  exact length_resize _ record

def parseCsv (reader : CsvReader) (text : String) (delimiter : UInt8) : CsvParseOutcome :=
  let (records, droppedRecords) := collectRecords (reader text delimiter)
  match padRecords records with
  | [] => ⟨⟨[], []⟩, droppedRecords⟩
  | headers :: rows => ⟨⟨headers, rows⟩, droppedRecords⟩

/-- The writer of the `csv` crate, flexible, over a vector of bytes. -/
structure CsvWriter where
  /-- The bytes that a record adds, with its terminator. -/
  writeRecord : (delimiter : UInt8) → List String → Except String (List UInt8)
  intoInner : List UInt8 → Except String (List UInt8)
  /-- The message of `String::from_utf8` for bytes that are not valid. -/
  utf8Error : List UInt8 → String

def serializeCsv (writer : CsvWriter) (data : CsvData) (delimiter : UInt8) :
    Except String String := do
  let first ← (writer.writeRecord delimiter data.headers).mapError
    ("failed to write CSV header record: " ++ ·)
  let rest ← data.rows.mapM fun row =>
    (writer.writeRecord delimiter row).mapError ("failed to write CSV data record: " ++ ·)
  let bytes ← (writer.intoInner (first ++ rest.flatten)).mapError
    ("failed to finalize CSV writer: " ++ ·)
  match fromUtf8 bytes with
  | none => .error ("CSV output is not valid UTF-8: " ++ writer.utf8Error bytes)
  | some text => .ok text

namespace CsvData

/-- Every row has as many cells as there are headers. -/
def Rectangular (data : CsvData) : Prop := Grid.Even data.rows data.headers.length

def columns (data : CsvData) : List (List String) :=
  Grid.columns "" (data.headers :: data.rows) data.headers.length

theorem Rectangular.even {data : CsvData} (h : data.Rectangular) :
    Grid.Even (data.headers :: data.rows) data.headers.length := by
  intro row hrow
  rcases List.mem_cons.mp hrow with rfl | hrest
  · rfl
  · exact h row hrest

theorem rectangular_parseCsv (reader : CsvReader) (text : String) (delimiter : UInt8) :
    (parseCsv reader text delimiter).data.Rectangular := by
  simp only [parseCsv]
  split
  · exact fun row hrow => absurd hrow List.not_mem_nil
  · rename_i headers rows hrecords
    have heven := hrecords ▸ even_padRecords (collectRecords (reader text delimiter)).1
    intro row hrow
    rw [heven row (List.mem_cons_of_mem headers hrow), heven headers List.mem_cons_self]

end CsvData

end Fulgur
