import Mathlib.Algebra.Group.Int.Defs
import Mathlib.Algebra.Group.Nat.Defs
import Mathlib.Data.List.Basic
import Mathlib.Order.Defs.LinearOrder
import Std.Data.ExtTreeMap
import Std.Data.ExtTreeSet
import Fulgur.State.Persistence

/-! # The session state database

The `windows` and `tabs` tables of the initial migration as finite maps from
primary keys to rows, the statements the store runs on them, and the handle
that remembers which windows it has written. Each statement comes with its
effect on one row, so that no proof above has to look inside a table.
-/

namespace Fulgur

/-! ## Column types -/

/-- The text of a failed `i64::try_from`. -/
def outOfRange (what : String) : String :=
  what ++ " does not fit an integer: out of range integral type conversion attempted"

def i64TryFrom (what : String) (value : Nat) : Except String Int :=
  if value < 2 ^ 63 then .ok value else .error (outOfRange what)

theorem i64TryFrom_of_lt {value : Nat} (what : String) (h : value < 2 ^ 63) :
    i64TryFrom what value = .ok value := if_pos h

theorem i64TryFrom_eq_ok {what : String} {value : Nat} {id : Int}
    (h : i64TryFrom what value = .ok id) : value < 2 ^ 63 ∧ id = value := by
  unfold i64TryFrom at h
  split at h
  · exact ⟨‹_›, by cases h; rfl⟩
  · cases h

/-- `u64::cast_signed`. -/
def castSigned (hash : UInt64) : Int := hash.toInt64.toInt

/-- `i64::cast_unsigned`. -/
def castUnsigned (hash : Int) : UInt64 := (Int64.ofInt hash).toUInt64

@[simp] theorem castUnsigned_castSigned (hash : UInt64) :
    castUnsigned (castSigned hash) = hash := by
  simp [castUnsigned, castSigned]

/-- `usize::try_from` on a stored integer. -/
def usizeTryFrom (value : Int) : Option Nat := if 0 ≤ value then some value.toNat else none

@[simp] theorem usizeTryFrom_natCast (n : Nat) : usizeTryFrom n = some n := by simp [usizeTryFrom]

/-! ## Rows -/

/-- The primary key of a tab row: tab ids are unique within their window only. -/
structure TabKey where
  window : Int
  id : Int
deriving DecidableEq

namespace TabKey

instance : Ord TabKey := ⟨compareLex (compareOn window) (compareOn id)⟩

instance : Std.TransOrd TabKey :=
  inferInstanceAs (Std.TransCmp (compareLex (compareOn window) (compareOn id)))

theorem eq_of_compare {a b : TabKey} (h : compare a b = .eq) : a = b := by
  have hkeys : compare a.window b.window = .eq ∧ compare a.id b.id = .eq :=
    Ordering.then_eq_eq.mp h
  cases a
  cases b
  simpa using hkeys

instance : Std.LawfulEqOrd TabKey := ⟨eq_of_compare⟩

end TabKey

/-- The comparable part of a tab row, excluding the buffer text. -/
structure StoredTab where
  position : Int
  title : String
  filePath : Option (List UInt8)
  lastSaved : Option String
  logView : Bool
  colorTag : Option String
  remoteHost : Option String
  remotePort : Option UInt16
  remoteUser : Option String
  remotePath : Option String
deriving DecidableEq

/-- A row of `tabs`, without its key. -/
structure TabRow where
  stored : StoredTab
  content : Option String
  contentHash : Option Int
  contentLen : Option Int
deriving DecidableEq

/-- A row of `windows`, without its key. -/
structure StoredWindow where
  position : Int
  activeTabId : Option Int
  boundsState : String
  x : F32
  y : F32
  width : F32
  height : F32
  displayId : Option UInt32
deriving DecidableEq

namespace StoredWindow

/-- The derived `PartialEq`: floats are compared the IEEE way. -/
def eq (a b : StoredWindow) : Bool :=
  a.position = b.position && a.activeTabId = b.activeTabId && a.boundsState = b.boundsState &&
    a.x.ieeeEq b.x && a.y.ieeeEq b.y && a.width.ieeeEq b.width && a.height.ieeeEq b.height &&
    a.displayId = b.displayId

/-- A NaN is bound as NULL, which the first `NOT NULL` bounds column rejects. -/
def nullColumn (row : StoredWindow) : Option String :=
  if row.x = .nan then some "windows.bounds_x"
  else if row.y = .nan then some "windows.bounds_y"
  else if row.width = .nan then some "windows.bounds_width"
  else if row.height = .nan then some "windows.bounds_height"
  else none

theorem nullColumn_eq_none {row : StoredWindow} : row.nullColumn = none ↔
    row.x ≠ .nan ∧ row.y ≠ .nan ∧ row.width ≠ .nan ∧ row.height ≠ .nan := by
  unfold nullColumn
  grind

theorem eq_iff {a b : StoredWindow} (h : b.nullColumn = none) : a.eq b = true ↔ a = b := by
  obtain ⟨hx, hy, hwidth, hheight⟩ := nullColumn_eq_none.mp h
  cases a
  cases b
  simp only [eq, Bool.and_eq_true, decide_eq_true_eq, F32.ieeeEq_iff, StoredWindow.mk.injEq]
  grind

end StoredWindow

/-! ## Tables -/

/-- The rows of the two tables, by primary key. -/
structure Tables where
  windows : Std.ExtTreeMap Int StoredWindow
  tabs : Std.ExtTreeMap TabKey TabRow

namespace Tables

/-- The schema as the migration creates it. -/
def empty : Tables := ⟨∅, ∅⟩

@[ext] theorem ext_rows {s t : Tables} (hwindows : ∀ id : Int, s.windows[id]? = t.windows[id]?)
    (htabs : ∀ key : TabKey, s.tabs[key]? = t.tabs[key]?) : s = t := by
  cases s
  cases t
  congr
  · exact Std.ExtTreeMap.ext_getElem? hwindows
  · exact Std.ExtTreeMap.ext_getElem? htabs

def upsertWindow (tables : Tables) (id : Int) (row : StoredWindow) : Except String Tables :=
  match row.nullColumn with
  | some column => .error ("NOT NULL constraint failed: " ++ column)
  | none => .ok { tables with windows := tables.windows.insert id row }

/-- `INSERT INTO tabs .. ON CONFLICT(window_id, id) DO UPDATE`. -/
def upsertTab (tables : Tables) (key : TabKey) (row : TabRow) : Except String Tables :=
  if key.window ∈ tables.windows then .ok { tables with tabs := tables.tabs.insert key row }
  else .error "FOREIGN KEY constraint failed"

/-- `UPDATE tabs SET .. WHERE window_id = ?1 AND id = ?2`. -/
def updateTab (tables : Tables) (key : TabKey) (set : TabRow → TabRow) : Tables :=
  { tables with tabs := tables.tabs.modify key set }

/-- `DELETE FROM tabs WHERE window_id = ?1 AND id = ?2`, with the affected row count. -/
def deleteTab (tables : Tables) (key : TabKey) : Tables × Nat :=
  ({ tables with tabs := tables.tabs.erase key }, if key ∈ tables.tabs then 1 else 0)

def deleteWindow (tables : Tables) (id : Int) : Tables × Nat :=
  ({ windows := tables.windows.erase id, tabs := tables.tabs.filter fun key _ => key.window ≠ id },
    if id ∈ tables.windows then 1 else 0)

def tabsOf (tables : Tables) (window : Int) : List (Int × TabRow) :=
  tables.tabs.toList.filterMap fun row =>
    if row.1.window = window then some (row.1.id, row.2) else none

theorem mem_tabsOf {tables : Tables} {window id : Int} {row : TabRow} :
    (id, row) ∈ tables.tabsOf window ↔ tables.tabs[TabKey.mk window id]? = some row := by
  simp only [tabsOf, List.mem_filterMap, Prod.exists]
  constructor
  · rintro ⟨⟨w, i⟩, r, hmem, h⟩
    split at h
    · rename_i hw
      cases h
      subst hw
      exact Std.ExtTreeMap.mem_toList_iff_getElem?_eq_some.mp hmem
    · cases h
  · intro h
    exact ⟨⟨window, id⟩, row, Std.ExtTreeMap.mem_toList_iff_getElem?_eq_some.mpr h, by simp⟩

theorem nodup_tabsOf (tables : Tables) (window : Int) :
    ((tables.tabsOf window).map Prod.fst).Nodup := by
  have hkeys := tables.tabs.distinct_keys_toList
  rw [tabsOf, List.Nodup, List.pairwise_map, List.pairwise_filterMap]
  refine hkeys.imp ?_
  rintro ⟨⟨w, i⟩, r⟩ ⟨⟨w', i'⟩, r'⟩ hne b hb b' hb'
  simp only [Option.ite_none_right_eq_some, Option.some.injEq] at hb hb'
  obtain ⟨rfl, rfl⟩ := hb
  obtain ⟨rfl, rfl⟩ := hb'
  rintro (rfl : i = i')
  exact hne Std.ReflCmp.compare_self

/-! ## Row effects -/

theorem getElem?_deleteWindow_windows (tables : Tables) (id other : Int) :
    (tables.deleteWindow id).1.windows[other]? =
      if other = id then none else tables.windows[other]? := by
  simp only [deleteWindow, Std.ExtTreeMap.getElem?_erase, Std.compare_eq_iff_eq]
  simp only [eq_comm (a := id)]

theorem getElem?_deleteWindow_tabs (tables : Tables) (id : Int) (key : TabKey) :
    (tables.deleteWindow id).1.tabs[key]? =
      if key.window = id then none else tables.tabs[key]? := by
  simp only [deleteWindow, Std.ExtTreeMap.getElem?_filter']
  cases tables.tabs[key]? with
  | none => simp
  | some row => by_cases h : key.window = id <;> simp [h]

theorem getElem?_deleteTab_tabs (tables : Tables) (key other : TabKey) :
    (tables.deleteTab key).1.tabs[other]? = if other = key then none else tables.tabs[other]? := by
  simp only [deleteTab, Std.ExtTreeMap.getElem?_erase, Std.compare_eq_iff_eq]
  simp only [eq_comm (a := key)]

end Tables

/-- Counts of the row operations one `apply` performed. -/
structure ApplyStats where
  windowsWritten : Nat := 0
  windowsDeleted : Nat := 0
  tabsInserted : Nat := 0
  tabsMetadataUpdated : Nat := 0
  tabsContentWritten : Nat := 0
  tabsDeleted : Nat := 0
deriving DecidableEq

namespace ApplyStats

/-- Whether the apply left the database untouched. -/
def isEmpty (stats : ApplyStats) : Bool := stats = {}

end ApplyStats

/-- A handle on the session state database. -/
structure StateDb where
  tables : Tables
  /-- Window ids this handle has written; deletions are scoped to these. -/
  ownedWindows : Std.ExtTreeSet Int

def StateDb.claimPersistedWindows (db : StateDb) : StateDb :=
  { db with ownedWindows := Std.ExtTreeSet.ofList db.tables.windows.keys }

end Fulgur
