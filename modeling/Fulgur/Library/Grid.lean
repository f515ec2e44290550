import Mathlib.Data.List.InsertIdx
import Mathlib.Data.List.Perm.Basic

/-! # Rows of one width, read by columns

A grid is kept by its rows. When all rows have one width, an edit that changes
each row at the same place is an edit of the list of columns at that place.
-/

namespace Grid

variable {α : Type}

/-! ## Moving one item -/

/-- Take out the item at one place and put it back at another one. -/
def moved (items : List α) (source target : Nat) : List α :=
  match items[source]? with
  | none => items
  | some item => (items.eraseIdx source).insertIdx target item

/-- The item at `source` is now at `target`; the others keep their order. -/
structure MovesOne (items items' : List α) (source target : Nat) : Prop where
  source_lt : source < items.length
  target_lt : target < items.length
  item : items'[target]? = items[source]?
  others : items'.eraseIdx target = items.eraseIdx source

section Moved

variable {items items' : List α} {source target : Nat}

theorem moved_of_lt (h : source < items.length) :
    moved items source target = (items.eraseIdx source).insertIdx target items[source] := by
  simp [moved, h]

theorem movesOne_moved (hsource : source < items.length) (htarget : target < items.length) :
    MovesOne items (moved items source target) source target where
  source_lt := hsource
  target_lt := htarget
  item := by
    have hle : target ≤ (items.eraseIdx source).length := by
      have hlength := List.length_eraseIdx_of_lt hsource
      omega
    rw [moved_of_lt hsource, List.getElem?_insertIdx_self, if_pos hle,
      List.getElem?_eq_getElem hsource]
  others := by rw [moved_of_lt hsource, List.eraseIdx_insertIdx_self]

theorem MovesOne.perm (h : MovesOne items items' source target) : items'.Perm items :=
  (List.perm_eraseIdx_of_getElem?_eq h.item).mp (h.others ▸ List.Perm.refl _)

theorem MovesOne.length_eq (h : MovesOne items items' source target) :
    items'.length = items.length :=
  h.perm.length_eq

/-- After the item stands what stood there, as seen without it. -/
theorem MovesOne.next (h : MovesOne items items' source target) :
    items'[target + 1]? = (items.eraseIdx source)[target]? := by
  rw [← h.others, List.getElem?_eraseIdx_of_ge (Nat.le_refl target)]

/-- An item that is put back where it was moves nothing. -/
theorem movesOne_self (hsource : source < items.length) : MovesOne items items source source :=
  ⟨hsource, hsource, rfl, rfl⟩

theorem length_moved (hsource : source < items.length) (htarget : target < items.length) :
    (moved items source target).length = items.length :=
  (movesOne_moved hsource htarget).perm.length_eq

end Moved

/-! ## Rows of one width -/

/-- Every row has as many cells as the grid is wide. -/
def Even (rows : List (List α)) (width : Nat) : Prop := ∀ row ∈ rows, row.length = width

variable {rows : List (List α)} {width place : Nat}

theorem Even.map {width' : Nat} {f : List α → List α} (h : Even rows width)
    (hf : ∀ row : List α, row.length = width → (f row).length = width') :
    Even (rows.map f) width' := by
  intro row hrow
  obtain ⟨old, hold, rfl⟩ := List.mem_map.mp hrow
  exact hf old (h old hold)

theorem Even.insertRow (h : Even rows width) {row : List α} (hrow : row.length = width) :
    Even (rows.insertIdx place row) width := by
  intro other hother
  rcases List.eq_or_mem_of_mem_insertIdx hother with rfl | hold
  · exact hrow
  · exact h other hold

theorem Even.eraseRow (h : Even rows width) : Even (rows.eraseIdx place) width :=
  fun row hrow => h row (List.mem_of_mem_eraseIdx hrow)

theorem Even.insertColumn (h : Even rows width) (hle : place ≤ width) (cell : α) :
    Even (rows.map (·.insertIdx place cell)) (width + 1) := by
  refine h.map fun row hrow => ?_
  rw [List.length_insertIdx_of_le_length (hrow ▸ hle), hrow]

theorem Even.eraseColumn (h : Even rows width) (hlt : place < width) :
    Even (rows.map (·.eraseIdx place)) (width - 1) := by
  refine h.map fun row hrow => ?_
  rw [List.length_eraseIdx_of_lt (hrow ▸ hlt), hrow]

theorem Even.moveColumn {source target : Nat} (h : Even rows width) (hsource : source < width)
    (htarget : target < width) : Even (rows.map (moved · source target)) width := by
  refine h.map fun row hrow => ?_
  rw [length_moved (hrow ▸ hsource) (hrow ▸ htarget), hrow]

/-! ## The columns -/

def column (blank : α) (rows : List (List α)) (place : Nat) : List α :=
  rows.map (·.getD place blank)

def columns (blank : α) (rows : List (List α)) (width : Nat) : List (List α) :=
  (List.range width).map (column blank rows)

variable (blank : α)

@[simp] theorem length_columns (rows : List (List α)) (width : Nat) :
    (columns blank rows width).length = width := by
  simp [columns]

theorem getElem?_columns (rows : List (List α)) (width place : Nat) :
    (columns blank rows width)[place]? =
      if place < width then some (column blank rows place) else none := by
  by_cases h : place < width
  · simp [columns, h]
  · simp [columns, h]

/-- Rows that agree at some places have these cells in common. -/
theorem column_map_congr {β : Type} {items : List β} {f g : β → List α} {here there : Nat}
    (h : ∀ item ∈ items, (f item)[here]? = (g item)[there]?) :
    column blank (items.map f) here = column blank (items.map g) there := by
  simp only [column, List.map_map]
  refine List.map_congr_left fun item hitem => ?_
  simp [List.getD_eq_getElem?_getD, h item hitem]

/-- A cell put into each row at one place is a column put there. -/
theorem columns_insert {β : Type} {items : List β} {f : β → List α} (h : Even (items.map f) width)
    (hle : place ≤ width) (cell : β → α) :
    columns blank (items.map fun item => (f item).insertIdx place (cell item)) (width + 1) =
      (columns blank (items.map f) width).insertIdx place (items.map cell) := by
  have hplace : ∀ item ∈ items, place ≤ (f item).length := fun item hitem =>
    (h _ (List.mem_map_of_mem hitem)).symm ▸ hle
  refine List.ext_getElem? fun i => ?_
  rw [List.getElem?_insertIdx, getElem?_columns, getElem?_columns, getElem?_columns, length_columns]
  rcases Nat.lt_trichotomy i place with hlt | rfl | hgt
  · -- before the new column
    have hcolumn := column_map_congr blank fun item (_ : item ∈ items) =>
      List.getElem?_insertIdx_of_lt (l := f item) (x := cell item) hlt
    rw [if_pos hlt, if_pos (by omega), if_pos (by omega), hcolumn]
  · have hcolumn : column blank (items.map fun item => (f item).insertIdx i (cell item)) i =
        items.map cell := by
      simp only [column, List.map_map]
      refine List.map_congr_left fun item hitem => ?_
      simp [List.getD_eq_getElem?_getD, List.getElem?_insertIdx_self, hplace item hitem]
    rw [if_neg (Nat.lt_irrefl i), if_pos rfl, if_pos hle, if_pos (by omega), hcolumn]
  · -- after it, where each old column is one place further
    have hcolumn := column_map_congr blank fun item (_ : item ∈ items) =>
      List.getElem?_insertIdx_of_gt (l := f item) (x := cell item) hgt
    rw [if_neg (show ¬i < place by omega), if_neg (show i ≠ place by omega), hcolumn]
    by_cases hwidth : i < width + 1
    · rw [if_pos hwidth, if_pos (by omega)]
    · rw [if_neg hwidth, if_neg (by omega)]

theorem columns_insertColumn (h : Even rows width) (hle : place ≤ width) (cell : α) :
    columns blank (rows.map (·.insertIdx place cell)) (width + 1) =
      (columns blank rows width).insertIdx place (rows.map fun _ => cell) := by
  have hid : rows.map id = rows := List.map_id rows
  have hinsert := columns_insert blank (f := id) (hid.symm ▸ h) hle fun _ => cell
  rw [hid] at hinsert
  exact hinsert

theorem columns_eraseColumn (hlt : place < width) :
    columns blank (rows.map (·.eraseIdx place)) (width - 1) =
      (columns blank rows width).eraseIdx place := by
  have hid : rows.map id = rows := List.map_id rows
  refine List.ext_getElem? fun i => ?_
  rw [List.getElem?_eraseIdx, getElem?_columns, getElem?_columns, getElem?_columns]
  by_cases hi : i < place
  · have hcolumn := column_map_congr blank (g := id) fun row (_ : row ∈ rows) =>
      List.getElem?_eraseIdx_of_lt (l := row) hi
    rw [if_pos hi, if_pos (by omega), if_pos (by omega), hcolumn, hid]
  · have hcolumn := column_map_congr blank (g := id) fun row (_ : row ∈ rows) =>
      List.getElem?_eraseIdx_of_ge (l := row) (Nat.le_of_not_lt hi)
    rw [if_neg hi, hcolumn, hid]
    by_cases hwidth : i < width - 1
    · rw [if_pos hwidth, if_pos (by omega)]
    · rw [if_neg hwidth, if_neg (by omega)]

/-- A move in each row moves the column. -/
theorem columns_moveColumn {source target : Nat} (h : Even rows width) (hsource : source < width)
    (htarget : target < width) :
    columns blank (rows.map (moved · source target)) width =
      moved (columns blank rows width) source target := by
  have hrows : rows.map (moved · source target) =
      rows.map fun row => (row.eraseIdx source).insertIdx target (row.getD source blank) := by
    refine List.map_congr_left fun row hrow => ?_
    have hlt : source < row.length := h row hrow ▸ hsource
    rw [moved_of_lt hlt, List.getD_eq_getElem?_getD, List.getElem?_eq_getElem hlt, Option.getD_some]
  obtain ⟨rest, rfl⟩ : ∃ rest, width = rest + 1 := ⟨width - 1, by omega⟩
  have hcolumns : (columns blank rows (rest + 1))[source]? = some (column blank rows source) := by
    rw [getElem?_columns, if_pos hsource]
  have herased : Even (rows.map (·.eraseIdx source)) rest := h.eraseColumn hsource
  have hinsert := columns_insert blank herased (Nat.le_of_lt_succ htarget)
    fun row => row.getD source blank
  rw [hrows, moved, hcolumns]
  exact hinsert.trans (congrArg (List.insertIdx · target _) (columns_eraseColumn blank hsource))

end Grid
