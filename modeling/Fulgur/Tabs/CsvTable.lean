import Fulgur.Files.CsvSupport
import Mathlib.Algebra.Group.Nat.Defs
import Mathlib.Data.List.Forall2

/-! # Edits of the CSV table

Headers and rows are edited separately, each row with a clamp of its own. As
long as every row is as wide as the header row the clamps agree, and a column is
inserted, deleted or moved as one. A selection may name a row or a column that
is gone; it is clamped as well.
-/

namespace Fulgur

/-- The value that an edit dialog is about, in data indices. -/
inductive EditTarget where
  | header (col : Nat)
  | cell (row col : Nat)
deriving DecidableEq

/--
The next index in 64 bits, as a release build adds; one that checks for overflow panics
instead.
-/
def nextIndex (index : Nat) : Nat := (index + 1) % 2 ^ 64

namespace CsvData

/-! ## Values -/

def valueAtIn (data : CsvData) : EditTarget → String
  | .header col => data.headers.getD col ""
  | .cell row col => (data.rows[row]?.bind fun cells => cells[col]?).getD ""

/-- A target that is out of bounds is ignored. -/
def applyEditIn (data : CsvData) (target : EditTarget) (value : String) : CsvData :=
  match target with
  | .header col => { data with headers := data.headers.set col value }
  | .cell row col => { data with rows := data.rows.modify row fun cells => cells.set col value }

/-! ## Rows -/

def insertRowAtIn (data : CsvData) (index : Nat) : CsvData :=
  { data with
    rows := data.rows.insertIdx (min index data.rows.length)
      (List.replicate data.headers.length "") }

def insertRowAboveIn (data : CsvData) (selectedRow : Option Nat) : CsvData :=
  data.insertRowAtIn (selectedRow.getD data.rows.length)

def insertRowBelowIn (data : CsvData) (selectedRow : Option Nat) : CsvData :=
  data.insertRowAtIn (selectedRow.elim data.rows.length nextIndex)

/-- Delete the selected row, else the last one; the flag says whether there was any. -/
def deleteRowIn (data : CsvData) (selectedRow : Option Nat) : CsvData × Bool :=
  if data.rows.isEmpty then (data, false)
  else
    let last := data.rows.length - 1
    let index := min (selectedRow.getD last) last
    ({ data with rows := data.rows.eraseIdx index }, true)

/-! ## Columns -/

def insertColumnAtIn (data : CsvData) (index : Nat) : CsvData :=
  let index := min index data.headers.length
  { headers := data.headers.insertIdx index ""
    rows := data.rows.map fun row => row.insertIdx (min index row.length) "" }

def insertColumnBeforeIn (data : CsvData) (selectedCol : Option Nat) : CsvData :=
  data.insertColumnAtIn (selectedCol.getD data.headers.length)

def insertColumnAfterIn (data : CsvData) (selectedCol : Option Nat) : CsvData :=
  data.insertColumnAtIn (selectedCol.elim data.headers.length nextIndex)

/-- Delete the selected column, else the last one; the flag says whether there was any. -/
def deleteColumnIn (data : CsvData) (selectedCol : Option Nat) : CsvData × Bool :=
  if data.headers.isEmpty then (data, false)
  else
    let last := data.headers.length - 1
    let index := min (selectedCol.getD last) last
    ({ headers := data.headers.eraseIdx index
       rows := data.rows.map fun row => if index < row.length then row.eraseIdx index else row },
      true)

/-- Move a cell of a row; a row that ends before it stays as it is. -/
def moveCell (row : List String) (source target : Nat) : List String :=
  match row[source]? with
  | none => row
  | some cell =>
      let rest := row.eraseIdx source
      rest.insertIdx (min target rest.length) cell

/-- Move a grid column; at grid index 0 are the row numbers, which do not move. -/
def moveColumnIn (data : CsvData) (colIx toIx : Nat) : CsvData × Bool :=
  match colIx with
  | 0 => (data, false)
  | fromData + 1 =>
      match data.headers[fromData]? with
      | none => (data, false)
      | some header =>
          let toData := min (toIx - 1) (data.headers.length - 1)
          if fromData = toData then (data, false)
          else
            ({ headers := (data.headers.eraseIdx fromData).insertIdx toData header
               rows := data.rows.map fun row => moveCell row fromData toData },
              true)

end CsvData

/-- An edit of the table with the selection that it finds. -/
inductive TableEdit where
  | applyEdit (target : EditTarget) (value : String)
  | insertRowAbove (selectedRow : Option Nat)
  | insertRowBelow (selectedRow : Option Nat)
  | deleteRow (selectedRow : Option Nat)
  | insertColumnBefore (selectedCol : Option Nat)
  | insertColumnAfter (selectedCol : Option Nat)
  | deleteColumn (selectedCol : Option Nat)
  | moveColumn (colIx toIx : Nat)

namespace CsvData

def edited (data : CsvData) : TableEdit → CsvData
  | .applyEdit target value => data.applyEditIn target value
  | .insertRowAbove selectedRow => data.insertRowAboveIn selectedRow
  | .insertRowBelow selectedRow => data.insertRowBelowIn selectedRow
  | .deleteRow selectedRow => (data.deleteRowIn selectedRow).1
  | .insertColumnBefore selectedCol => data.insertColumnBeforeIn selectedCol
  | .insertColumnAfter selectedCol => data.insertColumnAfterIn selectedCol
  | .deleteColumn selectedCol => (data.deleteColumnIn selectedCol).1
  | .moveColumn colIx toIx => (data.moveColumnIn colIx toIx).1

def editedBy (data : CsvData) (edits : List TableEdit) : CsvData := edits.foldl edited data

/-! ## What the edits do -/

/-- Whether a target is in the table. -/
def Holds (data : CsvData) : EditTarget → Prop
  | .header col => col < data.headers.length
  | .cell row col => row < data.rows.length ∧ col < data.headers.length

/-- At most the value of the target is changed. -/
structure ValueEdited (data data' : CsvData) (target : EditTarget) (value : String) : Prop where
  headers_length : data'.headers.length = data.headers.length
  row_lengths : data'.rows.map List.length = data.rows.map List.length
  others : ∀ other, other ≠ target → data'.valueAtIn other = data.valueAtIn other
  written : data.Holds target → data'.valueAtIn target = value
  ignored : ¬data.Holds target → data' = data

/-- An empty row is inserted, and deleting it again restores the table. -/
structure RowInserted (data data' : CsvData) (index : Nat) : Prop where
  index_le : index ≤ data.rows.length
  headers : data'.headers = data.headers
  rows : data'.rows = data.rows.insertIdx index (List.replicate data.headers.length "")
  restored : data'.deleteRowIn (some index) = (data, true)

structure RowDeleted (data data' : CsvData) (index : Nat) : Prop where
  index_lt : index < data.rows.length
  headers : data'.headers = data.headers
  rows : data'.rows = data.rows.eraseIdx index

/-- An empty column is inserted, and deleting it again restores the table. -/
structure ColumnInserted (data data' : CsvData) (index : Nat) : Prop where
  index_le : index ≤ data.headers.length
  headers : data'.headers = data.headers.insertIdx index ""
  rows : data'.rows = data.rows.map (·.insertIdx index "")
  columns : data'.columns =
    data.columns.insertIdx index (List.replicate (data.rows.length + 1) "")
  restored : data'.deleteColumnIn (some index) = (data, true)

structure ColumnDeleted (data data' : CsvData) (index : Nat) : Prop where
  index_lt : index < data.headers.length
  headers : data'.headers = data.headers.eraseIdx index
  rows : data'.rows = data.rows.map (·.eraseIdx index)
  columns : data'.columns = data.columns.eraseIdx index

structure ColumnMoved (data data' : CsvData) (source target : Nat) : Prop where
  distinct : source ≠ target
  headers : Grid.MovesOne data.headers data'.headers source target
  rows : List.Forall₂ (fun row row' => Grid.MovesOne row row' source target) data.rows data'.rows
  columns : Grid.MovesOne data.columns data'.columns source target
  permuted : data'.columns.Perm data.columns

/-- What each edit does to the table that it finds. -/
def EditDone (data data' : CsvData) : TableEdit → Prop
  | .applyEdit target value => ValueEdited data data' target value
  | .insertRowAbove selectedRow =>
      RowInserted data data' (min (selectedRow.getD data.rows.length) data.rows.length)
  | .insertRowBelow selectedRow =>
      RowInserted data data' (min (selectedRow.elim data.rows.length nextIndex) data.rows.length)
  | .deleteRow selectedRow =>
      if data.rows = [] then data' = data
      else RowDeleted data data'
        (min (selectedRow.getD (data.rows.length - 1)) (data.rows.length - 1))
  | .insertColumnBefore selectedCol =>
      ColumnInserted data data' (min (selectedCol.getD data.headers.length) data.headers.length)
  | .insertColumnAfter selectedCol =>
      ColumnInserted data data'
        (min (selectedCol.elim data.headers.length nextIndex) data.headers.length)
  | .deleteColumn selectedCol =>
      if data.headers = [] then data' = data
      else ColumnDeleted data data'
        (min (selectedCol.getD (data.headers.length - 1)) (data.headers.length - 1))
  | .moveColumn colIx toIx =>
      let target := min (toIx - 1) (data.headers.length - 1)
      if colIx = 0 ∨ data.headers.length ≤ colIx - 1 ∨ colIx - 1 = target then data' = data
      else ColumnMoved data data' (colIx - 1) target

variable {data : CsvData}

/-! ## Values -/

theorem holds_iff (h : data.Rectangular) (row col : Nat) :
    data.Holds (.cell row col) ↔ ∃ cells, data.rows[row]? = some cells ∧ col < cells.length := by
  constructor
  · rintro ⟨hrow, hcol⟩
    refine ⟨data.rows[row], List.getElem?_eq_getElem hrow, ?_⟩
    rw [h _ (List.getElem_mem hrow)]
    exact hcol
  · rintro ⟨cells, hcells, hcol⟩
    obtain ⟨hrow, rfl⟩ := List.getElem?_eq_some_iff.mp hcells
    rw [h _ (List.getElem_mem hrow)] at hcol
    exact ⟨hrow, hcol⟩

theorem valueEdited_applyEditIn (h : data.Rectangular) (target : EditTarget) (value : String) :
    ValueEdited data (data.applyEditIn target value) target value := by
  cases target with
  | header col =>
      refine ⟨by simp [applyEditIn], rfl, ?_, ?_, ?_⟩
      · intro other hother
        cases other with
        | header col' =>
            have hne : col ≠ col' := fun heq => hother (heq ▸ rfl)
            simp [applyEditIn, valueAtIn, List.getD_eq_getElem?_getD, List.getElem?_set_ne hne]
        | cell row col' => rfl
      · intro hcol
        simp [applyEditIn, valueAtIn, List.getD_eq_getElem?_getD,
          show col < data.headers.length from hcol]
      · intro hcol
        simp only [applyEditIn, List.set_eq_of_length_le (Nat.le_of_not_lt hcol)]
  | cell row col =>
      refine ⟨rfl, ?_, ?_, ?_, ?_⟩
      · refine List.ext_getElem? fun i => ?_
        simp only [applyEditIn, List.getElem?_map, List.getElem?_modify]
        split <;> simp [Function.comp_def]
      · intro other hother
        cases other with
        | header col' => rfl
        | cell row' col' =>
            by_cases hrow : row = row'
            · subst hrow
              have hne : col ≠ col' := fun heq => hother (heq ▸ rfl)
              cases hcells : data.rows[row]? <;>
                simp [applyEditIn, valueAtIn, hcells, List.getElem?_set_ne hne]
            · simp [applyEditIn, valueAtIn, hrow]
      · intro hholds
        obtain ⟨cells, hcells, hcol⟩ := (holds_iff h row col).mp hholds
        simp [applyEditIn, valueAtIn, hcells, hcol]
      · intro hholds
        have hsame : data.rows.modify row (fun cells => cells.set col value) = data.rows := by
          refine List.ext_getElem? fun i => ?_
          rw [List.getElem?_modify]
          split
          · rename_i heq
            subst heq
            cases hcells : data.rows[row]? with
            | none => rfl
            | some cells =>
                have hle : cells.length ≤ col := by
                  refine Nat.le_of_not_lt fun hcol => hholds ?_
                  exact (holds_iff h row col).mpr ⟨cells, hcells, hcol⟩
                simp [List.set_eq_of_length_le hle]
          · simp
        simp only [applyEditIn, hsame]

/-! ## Rows -/

theorem deleteRowIn_of_lt {index : Nat} (h : index < data.rows.length) :
    data.deleteRowIn (some index) = ({ data with rows := data.rows.eraseIdx index }, true) := by
  have hrows : data.rows.isEmpty = false :=
    List.isEmpty_eq_false_iff.mpr (List.ne_nil_of_length_pos (by omega))
  simp only [deleteRowIn, hrows, Bool.false_eq_true, if_false, Option.getD_some]
  rw [Nat.min_eq_left (by omega)]

theorem rowInserted_insertRowAtIn (data : CsvData) (index : Nat) :
    RowInserted data (data.insertRowAtIn index) (min index data.rows.length) where
  index_le := Nat.min_le_right _ _
  headers := rfl
  rows := rfl
  restored := by
    have hlt : min index data.rows.length < (data.insertRowAtIn index).rows.length := by
      rw [insertRowAtIn, List.length_insertIdx_of_le_length (Nat.min_le_right _ _)]
      omega
    rw [deleteRowIn_of_lt hlt]
    simp only [insertRowAtIn, List.eraseIdx_insertIdx_self]

theorem rowDeleted_deleteRowIn (hrows : data.rows ≠ []) (selectedRow : Option Nat) :
    RowDeleted data (data.deleteRowIn selectedRow).1
      (min (selectedRow.getD (data.rows.length - 1)) (data.rows.length - 1)) := by
  have hpos := List.length_pos_iff.mpr hrows
  have hempty : data.rows.isEmpty = false := List.isEmpty_eq_false_iff.mpr hrows
  simp only [deleteRowIn, hempty, Bool.false_eq_true, if_false]
  exact ⟨by omega, rfl, rfl⟩

/-! ## Columns -/

variable {data' : CsvData}

theorem columns_eq_map (data : CsvData) (f : List String → List String) {width : Nat}
    (hheaders : data'.headers = f data.headers) (hrows : data'.rows = data.rows.map f)
    (hwidth : data'.headers.length = width) :
    data'.columns = Grid.columns "" ((data.headers :: data.rows).map f) width := by
  rw [columns, hwidth, hheaders, hrows, List.map_cons]

theorem deleteColumnIn_eq (hheaders : data.headers ≠ []) (selectedCol : Option Nat) :
    data.deleteColumnIn selectedCol =
      ({ headers := data.headers.eraseIdx
          (min (selectedCol.getD (data.headers.length - 1)) (data.headers.length - 1))
         rows := data.rows.map (·.eraseIdx
          (min (selectedCol.getD (data.headers.length - 1)) (data.headers.length - 1))) },
        true) := by
  have hempty : data.headers.isEmpty = false := List.isEmpty_eq_false_iff.mpr hheaders
  -- a row that ends before the column has nothing to erase
  have herase : ∀ (row : List String) (index : Nat),
      (if index < row.length then row.eraseIdx index else row) = row.eraseIdx index := by
    intro row index
    split
    · rfl
    · rename_i hge
      exact (List.eraseIdx_of_length_le (Nat.le_of_not_lt hge)).symm
  simp only [deleteColumnIn, hempty, Bool.false_eq_true, if_false, herase]

theorem deleteColumnIn_of_lt {index : Nat} (h : index < data.headers.length) :
    data.deleteColumnIn (some index) =
      ({ headers := data.headers.eraseIdx index, rows := data.rows.map (·.eraseIdx index) },
        true) := by
  rw [deleteColumnIn_eq (List.ne_nil_of_length_pos (by omega)), Option.getD_some,
    Nat.min_eq_left (by omega)]

theorem insertColumnAtIn_eq (h : data.Rectangular) (index : Nat) :
    data.insertColumnAtIn index =
      { headers := data.headers.insertIdx (min index data.headers.length) ""
        rows := data.rows.map (·.insertIdx (min index data.headers.length) "") } := by
  have hrows : (data.rows.map fun row =>
      row.insertIdx (min (min index data.headers.length) row.length) "") =
        data.rows.map (·.insertIdx (min index data.headers.length) "") := by
    refine List.map_congr_left fun row hrow => ?_
    rw [h row hrow, Nat.min_eq_left (Nat.min_le_right _ _)]
  simp only [insertColumnAtIn, hrows]

theorem columnInserted_insertColumnAtIn (h : data.Rectangular) (index : Nat) :
    ColumnInserted data (data.insertColumnAtIn index) (min index data.headers.length) := by
  have hle : min index data.headers.length ≤ data.headers.length := Nat.min_le_right _ _
  rw [insertColumnAtIn_eq h]
  generalize min index data.headers.length = place at hle
  have hlength := List.length_insertIdx_of_le_length hle ""
  refine ⟨hle, rfl, rfl, ?_, ?_⟩
  · rw [columns_eq_map data (·.insertIdx place "") rfl rfl hlength,
      Grid.columns_insertColumn "" h.even hle, List.map_const', List.length_cons, columns]
  · have hlt : place < (data.headers.insertIdx place "").length := by omega
    rw [deleteColumnIn_of_lt hlt]
    simp [List.eraseIdx_insertIdx_self, Function.comp_def]

theorem columnDeleted_deleteColumnIn (hheaders : data.headers ≠ []) (selectedCol : Option Nat) :
    ColumnDeleted data (data.deleteColumnIn selectedCol).1
      (min (selectedCol.getD (data.headers.length - 1)) (data.headers.length - 1)) := by
  have hpos := List.length_pos_iff.mpr hheaders
  have hlt : min (selectedCol.getD (data.headers.length - 1)) (data.headers.length - 1) <
      data.headers.length := by omega
  rw [deleteColumnIn_eq hheaders]
  generalize
    min (selectedCol.getD (data.headers.length - 1)) (data.headers.length - 1) = place at hlt
  refine ⟨hlt, rfl, rfl, ?_⟩
  rw [columns_eq_map data (·.eraseIdx place) rfl rfl (List.length_eraseIdx_of_lt hlt),
    Grid.columns_eraseColumn "" hlt, columns]

/-- In a row of the full width the target of a move is never past the end. -/
theorem moveCell_eq_moved {row : List String} {source target : Nat} (hsource : source < row.length)
    (htarget : target < row.length) :
    moveCell row source target = Grid.moved row source target := by
  have hlength := List.length_eraseIdx_of_lt hsource
  simp only [moveCell, Grid.moved, List.getElem?_eq_getElem hsource]
  rw [Nat.min_eq_left (by omega)]

theorem columnMoved (h : data.Rectangular) {source target : Nat} (hne : source ≠ target)
    (hsource : source < data.headers.length) (htarget : target < data.headers.length)
    (hheaders : data'.headers = Grid.moved data.headers source target)
    (hrows : data'.rows = data.rows.map fun row => moveCell row source target) :
    ColumnMoved data data' source target := by
  have hmoved : data'.rows = data.rows.map (Grid.moved · source target) := by
    rw [hrows]
    refine List.map_congr_left fun row hrow => ?_
    exact moveCell_eq_moved (h row hrow ▸ hsource) (h row hrow ▸ htarget)
  have hlength : data'.headers.length = data.headers.length :=
    hheaders ▸ Grid.length_moved hsource htarget
  have hcolumns : Grid.MovesOne data.columns data'.columns source target := by
    rw [columns_eq_map data (Grid.moved · source target) hheaders hmoved hlength,
      Grid.columns_moveColumn "" h.even hsource htarget]
    exact Grid.movesOne_moved (by simpa [columns] using hsource) (by simpa [columns] using htarget)
  refine ⟨hne, hheaders ▸ Grid.movesOne_moved hsource htarget, ?_, hcolumns, hcolumns.perm⟩
  rw [hmoved, List.forall₂_map_right_iff, List.forall₂_same]
  exact fun row hrow => Grid.movesOne_moved (h row hrow ▸ hsource) (h row hrow ▸ htarget)

/-! ## Runs of edits -/

theorem columnMoved_or_same (h : data.Rectangular) (colIx toIx : Nat) :
    EditDone data (data.moveColumnIn colIx toIx).1 (.moveColumn colIx toIx) := by
  simp only [EditDone]
  cases colIx with
  | zero => simp [moveColumnIn]
  | succ source =>
      cases hheader : data.headers[source]? with
      | none =>
          have hle := List.getElem?_eq_none_iff.mp hheader
          simp [moveColumnIn, hle]
      | some header =>
          obtain ⟨hsource, -⟩ := List.getElem?_eq_some_iff.mp hheader
          have htarget : min (toIx - 1) (data.headers.length - 1) < data.headers.length := by omega
          simp only [moveColumnIn, hheader, Nat.add_sub_cancel]
          generalize min (toIx - 1) (data.headers.length - 1) = target at htarget
          by_cases hsame : source = target
          · simp [hsame]
          · rw [if_neg (by omega), if_neg hsame]
            refine columnMoved h hsame hsource htarget ?_ rfl
            simp only [Grid.moved, hheader]

/-- What each edit does to a table whose rows are all as wide as the header row. -/
theorem editDone_edited (h : data.Rectangular) (edit : TableEdit) :
    EditDone data (data.edited edit) edit := by
  cases edit with
  | applyEdit target value => exact valueEdited_applyEditIn h target value
  | insertRowAbove selectedRow => exact rowInserted_insertRowAtIn data _
  | insertRowBelow selectedRow => exact rowInserted_insertRowAtIn data _
  | deleteRow selectedRow =>
      simp only [EditDone, edited]
      split
      · rename_i hrows
        simp [deleteRowIn, hrows]
      · rename_i hrows
        exact rowDeleted_deleteRowIn hrows selectedRow
  | insertColumnBefore selectedCol => exact columnInserted_insertColumnAtIn h _
  | insertColumnAfter selectedCol => exact columnInserted_insertColumnAtIn h _
  | deleteColumn selectedCol =>
      simp only [EditDone, edited]
      split
      · rename_i hheaders
        simp [deleteColumnIn, hheaders]
      · rename_i hheaders
        exact columnDeleted_deleteColumnIn hheaders selectedCol
  | moveColumn colIx toIx => exact columnMoved_or_same h colIx toIx

theorem ValueEdited.rectangular {target : EditTarget} {value : String} (h : data.Rectangular)
    (hedited : ValueEdited data data' target value) : data'.Rectangular := by
  intro row hrow
  have hlength : row.length ∈ data'.rows.map List.length := List.mem_map_of_mem hrow
  rw [hedited.row_lengths] at hlength
  obtain ⟨old, hold, heq⟩ := List.mem_map.mp hlength
  rw [← heq, h old hold, hedited.headers_length]

theorem RowInserted.rectangular {index : Nat} (h : data.Rectangular)
    (hinserted : RowInserted data data' index) : data'.Rectangular := by
  rw [Rectangular, hinserted.headers, hinserted.rows]
  exact Grid.Even.insertRow h List.length_replicate

theorem RowDeleted.rectangular {index : Nat} (h : data.Rectangular)
    (hdeleted : RowDeleted data data' index) : data'.Rectangular := by
  rw [Rectangular, hdeleted.headers, hdeleted.rows]
  exact Grid.Even.eraseRow h

theorem ColumnInserted.rectangular {index : Nat} (h : data.Rectangular)
    (hinserted : ColumnInserted data data' index) : data'.Rectangular := by
  rw [Rectangular, hinserted.headers, hinserted.rows,
    List.length_insertIdx_of_le_length hinserted.index_le]
  exact Grid.Even.insertColumn h hinserted.index_le ""

theorem ColumnDeleted.rectangular {index : Nat} (h : data.Rectangular)
    (hdeleted : ColumnDeleted data data' index) : data'.Rectangular := by
  rw [Rectangular, hdeleted.headers, hdeleted.rows, List.length_eraseIdx_of_lt hdeleted.index_lt]
  exact Grid.Even.eraseColumn h hdeleted.index_lt

theorem ColumnMoved.rectangular {source target : Nat} (h : data.Rectangular)
    (hmoved : ColumnMoved data data' source target) : data'.Rectangular := by
  intro row hrow
  obtain ⟨place, hplace, rfl⟩ := List.getElem_of_mem hrow
  have hlt : place < data.rows.length := hmoved.rows.length_eq ▸ hplace
  have hcells := hmoved.rows.get hlt hplace
  calc data'.rows[place].length = data.rows[place].length := hcells.perm.length_eq
    _ = data.headers.length := h _ (List.getElem_mem hlt)
    _ = data'.headers.length := hmoved.headers.perm.length_eq.symm

theorem EditDone.rectangular (h : data.Rectangular) {edit : TableEdit}
    (hdone : EditDone data data' edit) : data'.Rectangular := by
  cases edit with
  | applyEdit target value => exact ValueEdited.rectangular h hdone
  | insertRowAbove selectedRow => exact RowInserted.rectangular h hdone
  | insertRowBelow selectedRow => exact RowInserted.rectangular h hdone
  | deleteRow selectedRow =>
      simp only [EditDone] at hdone
      split at hdone
      · exact hdone ▸ h
      · exact RowDeleted.rectangular h hdone
  | insertColumnBefore selectedCol => exact ColumnInserted.rectangular h hdone
  | insertColumnAfter selectedCol => exact ColumnInserted.rectangular h hdone
  | deleteColumn selectedCol =>
      simp only [EditDone] at hdone
      split at hdone
      · exact hdone ▸ h
      · exact ColumnDeleted.rectangular h hdone
  | moveColumn colIx toIx =>
      simp only [EditDone] at hdone
      split at hdone
      · exact hdone ▸ h
      · exact ColumnMoved.rectangular h hdone

theorem Rectangular.editedBy (h : data.Rectangular) (edits : List TableEdit) :
    (data.editedBy edits).Rectangular := by
  induction edits generalizing data with
  | nil => exact h
  | cons edit edits ih => exact ih (EditDone.rectangular h (editDone_edited h edit))

/--
Whatever has been edited in the table of a text: every row is as wide as the
header row, and the next edit does to headers and rows what it is for.
-/
theorem edits_keep_table (reader : CsvReader) (text : String) (delimiter : UInt8)
    (edits : List TableEdit) (edit : TableEdit) :
    let data := (parseCsv reader text delimiter).data.editedBy edits
    data.Rectangular ∧ EditDone data (data.edited edit) edit := by
  have h := Rectangular.editedBy (rectangular_parseCsv reader text delimiter) edits
  exact ⟨h, editDone_edited h edit⟩

end CsvData

/-! ## The table with its selection -/

/-- The most recent selection made in the table, in grid coordinates. -/
inductive CsvSelection where
  | cell (row gridCol : Nat)
  | column (gridCol : Nat)
  | row (row : Nat)
deriving DecidableEq

namespace CsvSelection

def selectedRowOf : Option CsvSelection → Option Nat
  | some (.cell index _) | some (.row index) => some index
  | some (.column _) | none => none

/-- The data column of a selection; at grid index 0 are the row numbers. -/
def selectedDataColumnOf : Option CsvSelection → Option Nat
  | some (.cell _ gridCol) | some (.column gridCol) =>
      if gridCol = 0 then none else some (gridCol - 1)
  | some (.row _) | none => none

end CsvSelection

/-- What the grid and its toolbar ask of the table. -/
inductive CsvTableEvent where
  | select (selection : Option CsvSelection)
  /-- A dialog is confirmed; it keeps the target that it was opened for. -/
  | confirmEdit (target : EditTarget) (value : String)
  | insertRowAbove
  | insertRowBelow
  | deleteRow
  | insertColumnBefore
  | insertColumnAfter
  | deleteColumn
  | moveColumn (colIx toIx : Nat)

/-- The edit of an event, at the selection made last. -/
def CsvTableEvent.edit (selection : Option CsvSelection) : CsvTableEvent → Option TableEdit
  | .select _ => none
  | .confirmEdit target value => some (.applyEdit target value)
  | .insertRowAbove => some (.insertRowAbove (CsvSelection.selectedRowOf selection))
  | .insertRowBelow => some (.insertRowBelow (CsvSelection.selectedRowOf selection))
  | .deleteRow => some (.deleteRow (CsvSelection.selectedRowOf selection))
  | .insertColumnBefore =>
      some (.insertColumnBefore (CsvSelection.selectedDataColumnOf selection))
  | .insertColumnAfter => some (.insertColumnAfter (CsvSelection.selectedDataColumnOf selection))
  | .deleteColumn => some (.deleteColumn (CsvSelection.selectedDataColumnOf selection))
  | .moveColumn colIx toIx => some (.moveColumn colIx toIx)

/-- The model in the grid; edits leave the selection as it is. -/
structure CsvTable where
  data : CsvData
  lastSelection : Option CsvSelection

namespace CsvTable

def handle (table : CsvTable) (event : CsvTableEvent) : CsvTable :=
  match event, event.edit table.lastSelection with
  | .select selection, _ => { table with lastSelection := selection }
  | _, some edit => { table with data := table.data.edited edit }
  | _, none => table

def handleAll (table : CsvTable) (events : List CsvTableEvent) : CsvTable :=
  events.foldl handle table

theorem data_handle (table : CsvTable) (event : CsvTableEvent) :
    (table.handle event).data =
      ((event.edit table.lastSelection).elim table.data table.data.edited) := by
  cases event <;> rfl

theorem handleAll_edits (table : CsvTable) (events : List CsvTableEvent) :
    ∃ edits, (table.handleAll events).data = table.data.editedBy edits := by
  induction events generalizing table with
  | nil => exact ⟨[], rfl⟩
  | cons event events ih =>
      obtain ⟨edits, hedits⟩ := ih (table.handle event)
      rw [data_handle] at hedits
      cases hedit : event.edit table.lastSelection with
      | none =>
          rw [hedit] at hedits
          exact ⟨edits, hedits⟩
      | some edit =>
          rw [hedit] at hedits
          exact ⟨edit :: edits, hedits⟩

theorem rectangular_handleAll {table : CsvTable} (h : table.data.Rectangular)
    (events : List CsvTableEvent) : (table.handleAll events).data.Rectangular := by
  obtain ⟨edits, hedits⟩ := handleAll_edits table events
  exact hedits ▸ CsvData.Rectangular.editedBy h edits

end CsvTable

end Fulgur
