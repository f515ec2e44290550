import Fulgur.Library.Csv
import Fulgur.Tabs.CsvTable

/-! # A table is read back from its own text

The text of a table is one record for the headers and one for each row. The
crate quotes what its reader would take for something else, so every record
comes back as it was, and so does the table. A table without columns is the
exception: an empty record is written as one empty field.
-/

namespace Fulgur

variable {reader : CsvReader} {writer : CsvWriter} {delimiter : UInt8}

inductive Written (writer : CsvWriter) (delimiter : UInt8) : List (List String) → String → Prop
  | nil : Written writer delimiter [] ""
  | cons {record : List String} {records : List (List String)} {line text : String} :
      writer.writeRecord delimiter record = .ok (asBytes line) →
      Written writer delimiter records text →
      Written writer delimiter (record :: records) (line ++ text)

/-- What the crate says about a text that is written and read with one delimiter. -/
structure ReadsBack (reader : CsvReader) (writer : CsvWriter) (delimiter : UInt8) : Prop where
  /-- Records of any length are written into memory, as text. -/
  writes : ∀ record, ∃ line, writer.writeRecord delimiter record = .ok (asBytes line)
  inner : ∀ bytes, writer.intoInner bytes = .ok bytes
  /-- An empty record is quoted: it is indistinguishable from one with an empty field. -/
  empty_record : writer.writeRecord delimiter [] = writer.writeRecord delimiter [""]
  read_end : reader "" delimiter = []
  /-- Fields are quoted where it is necessary, so that a record is read as it was written. -/
  read_record : ∀ record records line text, record ≠ [] →
    writer.writeRecord delimiter record = .ok (asBytes line) →
    Written writer delimiter records text →
    reader (line ++ text) delimiter = .ok record :: reader text delimiter

/-- The table is written to a text that it is read back from, and no record is dropped. -/
def CsvData.RoundTrips (reader : CsvReader) (writer : CsvWriter) (delimiter : UInt8)
    (data : CsvData) : Prop :=
  ∃ text, serializeCsv writer data delimiter = .ok text ∧
    parseCsv reader text delimiter = ⟨data, 0⟩

/-! ## Writing -/

namespace ReadsBack

theorem exists_written (h : ReadsBack reader writer delimiter) (records : List (List String)) :
    ∃ text, Written writer delimiter records text := by
  induction records with
  | nil => exact ⟨"", .nil⟩
  | cons record records ih =>
      obtain ⟨line, hline⟩ := h.writes record
      obtain ⟨text, htext⟩ := ih
      exact ⟨line ++ text, .cons hline htext⟩

end ReadsBack

theorem Written.mapM {records : List (List String)} {text : String}
    (h : Written writer delimiter records text) (describe : String → String) :
    ∃ lines, records.mapM (fun record => (writer.writeRecord delimiter record).mapError describe) =
      .ok lines ∧ lines.flatten = asBytes text := by
  induction h with
  | nil => exact ⟨[], rfl, rfl⟩
  | cons hline htext ih =>
      rename_i line text
      obtain ⟨lines, hlines, hflatten⟩ := ih
      refine ⟨asBytes line :: lines, ?_, ?_⟩
      · rw [List.mapM_cons, hline, hlines]
        rfl
      · rw [List.flatten_cons, hflatten, asBytes_append]

theorem Written.serializeCsv {data : CsvData} {text : String}
    (h : Written writer delimiter (data.headers :: data.rows) text)
    (hinner : ∀ bytes, writer.intoInner bytes = .ok bytes) :
    serializeCsv writer data delimiter = .ok text := by
  cases h with
  | cons hheaders hrows =>
      obtain ⟨lines, hlines, hflatten⟩ := hrows.mapM ("failed to write CSV data record: " ++ ·)
      simp only [Fulgur.serializeCsv, hheaders, Fallible.mapError_ok, Fallible.ok_bind,
        hlines, hinner, hflatten, ← asBytes_append, fromUtf8_asBytes]

theorem Written.of_same {records records' : List (List String)} {text : String}
    (h : Written writer delimiter records text)
    (hsame : List.Forall₂ (fun record record' =>
      writer.writeRecord delimiter record = writer.writeRecord delimiter record')
      records records') :
    Written writer delimiter records' text := by
  induction h generalizing records' with
  | nil =>
      cases hsame
      exact .nil
  | cons hline _ ih =>
      cases hsame with
      | cons hrecord hrest => exact .cons (hrecord ▸ hline) (ih hrest)

/-! ## Reading -/

theorem collectRecords_ok (records : List (List String)) :
    collectRecords (records.map .ok) = (records, 0) := by
  have hcollect : ∀ (collect : List (List String) × Nat → Except String (List String) →
      List (List String) × Nat),
      (∀ read record, collect read (.ok record) = (read.1 ++ [record], read.2)) →
        ∀ read, (records.map Except.ok).foldl collect read = (read.1 ++ records, read.2) := by
    intro collect hok
    induction records with
    | nil => simp
    | cons record records ih =>
        intro read
        rw [List.map_cons, List.foldl_cons, hok, ih, List.append_assoc, List.singleton_append]
  exact hcollect _ (fun _ _ => rfl) ([], 0)

theorem resize_of_length {width : Nat} {record : List String} (h : record.length = width) :
    resize width record = record := by
  subst h
  simp [resize]

theorem recordWidth_of_even {records : List (List String)} {width : Nat}
    (h : Grid.Even records width) (hne : records ≠ []) : recordWidth records = width := by
  have hlengths : records.map List.length = List.replicate records.length width := by
    rw [List.eq_replicate_iff]
    refine ⟨List.length_map _, fun length hlength => ?_⟩
    obtain ⟨record, hrecord, rfl⟩ := List.mem_map.mp hlength
    exact h record hrecord
  rw [recordWidth, hlengths, List.max?_replicate_of_pos (List.length_pos_iff.mpr hne)]
  rfl

theorem padRecords_of_even {records : List (List String)} {width : Nat}
    (h : Grid.Even records width) : padRecords records = records := by
  by_cases hne : records = []
  · subst hne
    rfl
  · unfold padRecords
    rw [recordWidth_of_even h hne]
    have hresize : ∀ record ∈ records, resize width record = id record := fun record hrecord =>
      resize_of_length (h record hrecord)
    rw [List.map_congr_left hresize, List.map_id]

theorem Written.read_eq (h : ReadsBack reader writer delimiter) {records : List (List String)}
    {text : String} (hwritten : Written writer delimiter records text)
    (hne : ∀ record ∈ records, record ≠ []) :
    reader text delimiter = records.map .ok := by
  induction hwritten with
  | nil => exact h.read_end
  | cons hline htext ih =>
      rename_i record records line text
      rw [h.read_record record records line text (hne record List.mem_cons_self) hline htext,
        ih fun other hother => hne other (List.mem_cons_of_mem record hother), List.map_cons]

theorem Written.parseCsv (h : ReadsBack reader writer delimiter) {data : CsvData} {text : String}
    (hwritten : Written writer delimiter (data.headers :: data.rows) text)
    (heven : data.Rectangular) (hne : data.headers ≠ []) :
    parseCsv reader text delimiter = ⟨data, 0⟩ := by
  have hrecords : ∀ record ∈ data.headers :: data.rows, record ≠ [] := by
    intro record hrecord
    refine List.ne_nil_of_length_pos ?_
    rw [heven.even record hrecord]
    exact List.length_pos_iff.mpr hne
  rw [Fulgur.parseCsv, hwritten.read_eq h hrecords, collectRecords_ok]
  simp only [padRecords_of_even heven.even]

/-! ## Tables -/

namespace CsvData

variable {data : CsvData}

theorem roundTrips_of_headers (h : ReadsBack reader writer delimiter) (heven : data.Rectangular)
    (hne : data.headers ≠ []) : data.RoundTrips reader writer delimiter := by
  obtain ⟨text, htext⟩ := h.exists_written (data.headers :: data.rows)
  exact ⟨text, htext.serializeCsv h.inner, htext.parseCsv h heven hne⟩

/-- A table without columns is written as one with a column of empty cells. -/
theorem not_roundTrips_of_nil (h : ReadsBack reader writer delimiter) (heven : data.Rectangular)
    (hnil : data.headers = []) : ¬data.RoundTrips reader writer delimiter := by
  rintro ⟨text, hserialized, hparsed⟩
  obtain ⟨text', htext⟩ := h.exists_written (data.headers :: data.rows)
  cases hserialized.symm.trans (htext.serializeCsv h.inner)
  have hrows : ∀ row ∈ data.rows, row = [] := fun row hrow =>
    List.length_eq_zero_iff.mp ((heven row hrow).trans (hnil ▸ rfl))
  have hblank : Written writer delimiter
      (List.replicate (data.rows.length + 1) [""]) text := by
    refine htext.of_same ?_
    rw [hnil, List.eq_replicate_of_mem hrows, List.length_replicate, List.replicate_succ]
    refine List.Forall₂.cons h.empty_record ?_
    rw [List.forall₂_iff_get]
    refine ⟨by simp, fun i _ _ => ?_⟩
    simpa using h.empty_record
  have hparse : parseCsv reader text delimiter =
      ⟨⟨[""], List.replicate data.rows.length [""]⟩, 0⟩ :=
    Written.parseCsv h hblank (fun row hrow => congrArg List.length (List.eq_of_mem_replicate hrow))
      (List.cons_ne_nil _ _)
  have hdata := congrArg (·.data.headers) (hparsed.symm.trans hparse)
  rw [hnil] at hdata
  exact absurd hdata (List.cons_ne_nil _ _).symm

/--
The text of a table that edits have made of a parsed text is read back as the
table exactly when the table has a column.
-/
theorem roundTrips_iff (h : ReadsBack reader writer delimiter) (text : String)
    (edits : List TableEdit) :
    ((parseCsv reader text delimiter).data.editedBy edits).RoundTrips reader writer delimiter ↔
      ((parseCsv reader text delimiter).data.editedBy edits).headers ≠ [] := by
  have heven := Rectangular.editedBy (rectangular_parseCsv reader text delimiter) edits
  constructor
  · intro hround hnil
    exact not_roundTrips_of_nil h heven hnil hround
  · exact roundTrips_of_headers h heven

end CsvData

/-! ## A reader and a writer -/

def codecReader : CsvReader := fun text delimiter =>
  (Csv.readAll (Char.ofNat delimiter.toNat) text.toList).map fun record =>
    .ok (record.map String.ofList)

def codecWriter : CsvWriter where
  writeRecord delimiter record := .ok (asBytes (String.ofList
    (Csv.writeRecord (Char.ofNat delimiter.toNat) (record.map String.toList))))
  intoInner bytes := .ok bytes
  utf8Error _ := ""

theorem readsBack_codec (hsep : Csv.Separates (Char.ofNat delimiter.toNat)) :
    ReadsBack codecReader codecWriter delimiter where
  writes record := ⟨_, rfl⟩
  inner bytes := rfl
  empty_record := rfl
  read_end := rfl
  read_record := by
    intro record records line text hrecord hline _
    have hchars : line.toList =
        Csv.writeRecord (Char.ofNat delimiter.toNat) (record.map String.toList) := by
      have hbytes := congrArg fromUtf8 (Except.ok.inj hline)
      rw [fromUtf8_asBytes, fromUtf8_asBytes, Option.some.injEq] at hbytes
      rw [← hbytes, String.toList_ofList]
    have hfields : (record.map String.toList).map String.ofList = record := by
      simp [Function.comp_def]
    have hne : record.map String.toList ≠ [] := by simpa using hrecord
    have hread := Csv.readAll_writeRecord hsep hne text.toList
    rw [codecReader, String.toList_append, hchars, hread, List.map_cons, hfields]
    rfl

theorem separates_comma : Csv.Separates (Char.ofNat (0x2C : UInt8).toNat) :=
  ⟨by decide, by decide, by decide⟩

/-- A quoted cell, a new column, and a header with a line break. -/
theorem CsvData.roundTrips_sample :
    ((parseCsv codecReader "a,b\n1,\"x,y\"\n" 0x2C).data.editedBy
      [.insertColumnAfter (some 0), .applyEdit (.header 1) "c\nd"]).RoundTrips
        codecReader codecWriter 0x2C :=
  (CsvData.roundTrips_iff (readsBack_codec separates_comma) "a,b\n1,\"x,y\"\n"
    [.insertColumnAfter (some 0), .applyEdit (.header 1) "c\nd"]).mpr (by decide +kernel)

/-- The only column is deleted: the table has none, and comes back with an empty one. -/
theorem CsvData.last_column_comes_back :
    ReadsBack codecReader codecWriter 0x2C ∧
      (parseCsv codecReader "a\n1\n" 0x2C).data.editedBy [.deleteColumn none] = ⟨[], [[]]⟩ ∧
      serializeCsv codecWriter ⟨[], [[]]⟩ 0x2C = .ok "\"\"\n\"\"\n" ∧
      parseCsv codecReader "\"\"\n\"\"\n" 0x2C = ⟨⟨[""], [[""]]⟩, 0⟩ ∧
      ¬CsvData.RoundTrips codecReader codecWriter 0x2C ⟨[], [[]]⟩ := by
  have hreads := readsBack_codec separates_comma
  refine ⟨hreads, by decide +kernel, ?_, by decide +kernel, ?_⟩
  · have hline : codecWriter.writeRecord 0x2C [] = .ok (asBytes "\"\"\n") := rfl
    exact Written.serializeCsv (.cons hline (.cons hline .nil)) hreads.inner
  · exact CsvData.not_roundTrips_of_nil hreads (fun row hrow => by
      rw [List.mem_singleton.mp hrow]) rfl

end Fulgur
