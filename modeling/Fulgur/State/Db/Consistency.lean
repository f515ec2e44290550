import Fulgur.Library.Fallible
import Fulgur.State.Db.Write

/-! # What every stored session satisfies

Every row of a database that was only ever written by `apply` carries the
fingerprint of its own text, names a port with every remote host, has an id
in the range of its type, and belongs to a stored window. Each statement of `apply`
keeps this, hence so does every sequence of applies, whatever the snapshots and
whichever windows the handles had claimed.
-/

namespace Fulgur

open Fallible

def textFingerprint (text : String) : ContentFingerprint :=
  .ofPair (contentFingerprintFromStr text)

def textColumns (content : Option String) : Option Int × Option Int :=
  (content.map fun text => castSigned (textFingerprint text).hash,
    content.map fun text => ((textFingerprint text).len : Int))

/-- A row whose redundant columns agree with the others. -/
structure RowConsistent (row : TabRow) : Prop where
  columns : (row.contentHash, row.contentLen) = textColumns row.content
  port : row.stored.remoteHost.isSome → row.stored.remotePort.isSome

theorem RowConsistent.storedFingerprint_eq {row : TabRow} (h : RowConsistent row) :
    storedFingerprint row = row.content.map textFingerprint := by
  obtain ⟨hhash, hlen⟩ := Prod.mk.inj h.columns
  unfold storedFingerprint
  rw [hhash, hlen]
  cases row.content with
  | none => rfl
  | some text => simp

structure Consistent (tables : Tables) : Prop where
  row : ∀ (key : TabKey) (row : TabRow), tables.tabs[key]? = some row → RowConsistent row
  id : ∀ (key : TabKey) (row : TabRow), tables.tabs[key]? = some row →
    0 ≤ key.id ∧ key.id < 2 ^ 63
  parent : ∀ (key : TabKey) (row : TabRow), tables.tabs[key]? = some row →
    key.window ∈ tables.windows

/-! ## Single statements -/

theorem consistent_empty : Consistent Tables.empty := by
  constructor <;> intro key row h <;> simp [Tables.empty] at h

theorem Consistent.upsertWindow {tables tables' : Tables} {id : Int} {row : StoredWindow}
    (hc : Consistent tables) (h : tables.upsertWindow id row = .ok tables') :
    Consistent tables' := by
  unfold Tables.upsertWindow at h
  split at h
  · cases h
  · cases h
    refine ⟨hc.row, hc.id, fun key row hrow => ?_⟩
    exact Std.ExtTreeMap.mem_insert.mpr (Or.inr (hc.parent key row hrow))

theorem Consistent.upsertTab {tables tables' : Tables} {key : TabKey} {row : TabRow}
    (hc : Consistent tables) (hid : 0 ≤ key.id ∧ key.id < 2 ^ 63) (hrow : RowConsistent row)
    (h : tables.upsertTab key row = .ok tables') : Consistent tables' := by
  unfold Tables.upsertTab at h
  split at h
  · rename_i hparent
    cases h
    constructor <;> intro other r hr <;>
      simp only [Std.ExtTreeMap.getElem?_insert, Std.compare_eq_iff_eq] at hr <;> split at hr
    · cases hr
      exact hrow
    · exact hc.row other r hr
    · rename_i heq
      exact heq ▸ hid
    · exact hc.id other r hr
    · rename_i heq
      exact heq ▸ hparent
    · exact hc.parent other r hr
  · cases h

theorem Consistent.updateTab {tables : Tables} (key : TabKey) {set : TabRow → TabRow}
    (hc : Consistent tables) (hset : ∀ row, RowConsistent row → RowConsistent (set row)) :
    Consistent (tables.updateTab key set) := by
  have hrow : ∀ (other : TabKey) (r : TabRow), (tables.updateTab key set).tabs[other]? = some r →
      ∃ r', tables.tabs[other]? = some r' ∧ (r = r' ∨ r = set r') := by
    intro other r hr
    simp only [Tables.updateTab, Std.ExtTreeMap.getElem?_modify, Std.compare_eq_iff_eq] at hr
    split at hr
    · rename_i heq
      obtain ⟨r', hr', rfl⟩ := Option.map_eq_some_iff.mp hr
      exact ⟨r', heq ▸ hr', Or.inr rfl⟩
    · exact ⟨r, hr, Or.inl rfl⟩
  constructor <;> intro other r hr <;> obtain ⟨r', hr', hcase⟩ := hrow other r hr
  · rcases hcase with rfl | rfl
    · exact hc.row other r hr'
    · exact hset r' (hc.row other r' hr')
  · exact hc.id other r' hr'
  · exact hc.parent other r' hr'

theorem Consistent.deleteTab {tables : Tables} (key : TabKey) (hc : Consistent tables) :
    Consistent (tables.deleteTab key).1 := by
  have hrow : ∀ (other : TabKey) (r : TabRow), (tables.deleteTab key).1.tabs[other]? = some r →
      tables.tabs[other]? = some r := by
    intro other r hr
    rw [Tables.getElem?_deleteTab_tabs] at hr
    split at hr
    · cases hr
    · exact hr
  exact ⟨fun other r hr => hc.row other r (hrow other r hr),
    fun other r hr => hc.id other r (hrow other r hr),
    fun other r hr => hc.parent other r (hrow other r hr)⟩

theorem Consistent.deleteWindow {tables : Tables} (id : Int) (hc : Consistent tables) :
    Consistent (tables.deleteWindow id).1 := by
  have hrow : ∀ (other : TabKey) (r : TabRow), (tables.deleteWindow id).1.tabs[other]? = some r →
      other.window ≠ id ∧ tables.tabs[other]? = some r := by
    intro other r hr
    rw [Tables.getElem?_deleteWindow_tabs] at hr
    split at hr
    · cases hr
    · exact ⟨‹_›, hr⟩
  refine ⟨fun other r hr => hc.row other r (hrow other r hr).2,
    fun other r hr => hc.id other r (hrow other r hr).2, fun other r hr => ?_⟩
  obtain ⟨hne, hr⟩ := hrow other r hr
  have hparent := hc.parent other r hr
  exact Std.ExtTreeMap.mem_erase.mpr
    ⟨fun h => hne (Std.compare_eq_iff_eq.mp h).symm, hparent⟩

/-! ## Rows written from a snapshot -/

theorem tabFingerprint_eq (tab : TabState) :
    tabFingerprint tab = (tab.content.map (·.toText)).map textFingerprint := by
  cases h : tab.content with
  | none => simp [tabFingerprint, h]
  | some content => simp [tabFingerprint, h, textFingerprint, TabContent.fingerprint_eq]

theorem fingerprintColumns_eq_ok {tab : TabState} {columns : Option Int × Option Int}
    (h : fingerprintColumns (tabFingerprint tab) = .ok columns) :
    columns = textColumns (tab.content.map (·.toText)) := by
  rw [tabFingerprint_eq] at h
  cases hcontent : tab.content with
  | none =>
      rw [hcontent] at h
      cases h
      rfl
  | some content =>
      simp only [hcontent, Option.map_some, fingerprintColumns, bind_eq_ok] at h
      obtain ⟨len, hlen, h⟩ := h
      obtain ⟨-, rfl⟩ := i64TryFrom_eq_ok hlen
      cases h
      rfl

theorem port_storedTabFromSnapshot (tab : TabState) (position : Int) :
    (storedTabFromSnapshot tab position).remoteHost.isSome →
      (storedTabFromSnapshot tab position).remotePort.isSome := by
  simp [storedTabFromSnapshot]

theorem rowConsistent_of_columns {tab : TabState} {position : Int}
    {columns : Option Int × Option Int}
    (h : fingerprintColumns (tabFingerprint tab) = .ok columns) :
    RowConsistent ⟨storedTabFromSnapshot tab position, tab.content.map (·.toText), columns.1,
      columns.2⟩ where
  columns := fingerprintColumns_eq_ok h
  port := port_storedTabFromSnapshot tab position

theorem RowConsistent.withStored {row : TabRow} (hrow : RowConsistent row) (tab : TabState)
    (position : Int) : RowConsistent { row with stored := storedTabFromSnapshot tab position } where
  columns := hrow.columns
  port := port_storedTabFromSnapshot tab position

/-! ## The loops of `apply` -/

theorem Consistent.applyWindow {tables tables' : Tables} {window : WindowState} {position : Int}
    {stats stats' : ApplyStats} (hc : Consistent tables)
    (h : applyWindow tables window position stats = .ok (tables', stats')) :
    Consistent tables' := by
  simp only [Fulgur.applyWindow, bind_eq_ok] at h
  obtain ⟨activeTabId, -, h⟩ := h
  split at h
  · cases h
    exact hc
  · simp only [bind_eq_ok, mapError_eq_ok] at h
    obtain ⟨written, hwrite, h⟩ := h
    cases h
    exact hc.upsertWindow hwrite

theorem Consistent.insertTab {tables tables' : Tables} {windowId : Int} {tab : TabState}
    {position : Int} (hc : Consistent tables)
    (h : insertTab tables windowId tab (storedTabFromSnapshot tab position) (tabFingerprint tab) =
      .ok tables') : Consistent tables' := by
  simp only [Fulgur.insertTab, bind_eq_ok, mapError_eq_ok] at h
  obtain ⟨id, hid, columns, hcolumns, h⟩ := h
  obtain ⟨hbound, rfl⟩ := i64TryFrom_eq_ok hid
  have hrange : 0 ≤ (tab.tabId : Int) ∧ (tab.tabId : Int) < 2 ^ 63 := by omega
  exact hc.upsertTab hrange (rowConsistent_of_columns hcolumns) h

theorem Consistent.updateTabRow {tables tables' : Tables} {windowId : Int} {tab : TabState}
    {position : Int} (hc : Consistent tables)
    (h : Fulgur.updateTab tables windowId tab (storedTabFromSnapshot tab position)
      (tabFingerprint tab) = .ok tables') : Consistent tables' := by
  simp only [Fulgur.updateTab, bind_eq_ok] at h
  obtain ⟨id, -, columns, hcolumns, h⟩ := h
  cases h
  exact hc.updateTab _ fun _ _ => rowConsistent_of_columns hcolumns

theorem Consistent.updateTabMetadata {tables tables' : Tables} {windowId : Int} {tab : TabState}
    {position : Int} (hc : Consistent tables)
    (h : updateTabMetadata tables windowId tab.tabId (storedTabFromSnapshot tab position) =
      .ok tables') : Consistent tables' := by
  simp only [Fulgur.updateTabMetadata, bind_eq_ok] at h
  obtain ⟨id, -, h⟩ := h
  cases h
  exact hc.updateTab _ fun row hrow => hrow.withStored tab position

theorem Consistent.applyTab {windowId : Int} {tab : TabState} {position : Nat}
    {pass pass' : TabPass} (hc : Consistent pass.tables)
    (h : applyTab windowId tab position pass = .ok pass') : Consistent pass'.tables := by
  simp only [Fulgur.applyTab, bind_eq_ok] at h
  obtain ⟨row, -, h⟩ := h
  split at h
  · obtain ⟨written, hwrite, h⟩ := bind_eq_ok.mp h
    cases h
    exact hc.insertTab hwrite
  · split at h
    · obtain ⟨written, hwrite, h⟩ := bind_eq_ok.mp h
      cases h
      exact hc.updateTabRow hwrite
    · split at h
      · obtain ⟨written, hwrite, h⟩ := bind_eq_ok.mp h
        cases h
        exact hc.updateTabMetadata hwrite
      · cases h
        exact hc

theorem Consistent.applyTabList {windowId : Int} {tabs : List TabState} {position : Nat}
    {pass pass' : TabPass} (hc : Consistent pass.tables)
    (h : applyTabList windowId tabs position pass = .ok pass') : Consistent pass'.tables := by
  induction tabs generalizing position pass with
  | nil =>
      cases h
      exact hc
  | cons tab tabs ih =>
      obtain ⟨next, htab, h⟩ := bind_eq_ok.mp h
      exact ih (hc.applyTab htab) h

theorem Consistent.deleteClosedTabs {windowId : Int} {closed : List Nat} {tables tables' : Tables}
    {stats stats' : ApplyStats} (hc : Consistent tables)
    (h : deleteClosedTabs windowId closed tables stats = .ok (tables', stats')) :
    Consistent tables' := by
  induction closed generalizing tables stats with
  | nil =>
      cases h
      exact hc
  | cons id closed ih =>
      obtain ⟨key, -, h⟩ := bind_eq_ok.mp h
      exact ih (hc.deleteTab _) h

theorem Consistent.applyTabs {tables tables' : Tables} {window : WindowState}
    {stats stats' : ApplyStats} (hc : Consistent tables)
    (h : applyTabs tables window stats = .ok (tables', stats')) : Consistent tables' := by
  obtain ⟨pass, hpass, h⟩ := bind_eq_ok.mp h
  have hc' : Consistent pass.tables := Consistent.applyTabList hc hpass
  exact hc'.deleteClosedTabs h

theorem Consistent.applyWindowList {windows : List WindowState} {position : Nat}
    {tables tables' : Tables} {stats stats' : ApplyStats} (hc : Consistent tables)
    (h : applyWindowList windows position tables stats = .ok (tables', stats')) :
    Consistent tables' := by
  induction windows generalizing position tables stats with
  | nil =>
      cases h
      exact hc
  | cons window windows ih =>
      simp only [Fulgur.applyWindowList, bind_eq_ok] at h
      obtain ⟨row, -, ⟨written, stats₁⟩, hwindow, ⟨reconciled, stats₂⟩, htabs, h⟩ := h
      exact ih ((hc.applyWindow hwindow).applyTabs htabs) h

theorem Consistent.deleteClosedWindows {closed : List Int} {tables : Tables} {stats : ApplyStats}
    (hc : Consistent tables) : Consistent (deleteClosedWindows closed tables stats).1 := by
  induction closed generalizing tables stats with
  | nil => exact hc
  | cons id closed ih => exact ih (hc.deleteWindow id)

/-- A successful apply keeps the tables consistent, whatever snapshot it was given. -/
theorem Consistent.apply {db db' : StateDb} {snapshot : WindowsState} {stats : ApplyStats}
    (hc : Consistent db.tables) (h : db.apply snapshot = .ok (db', stats)) :
    Consistent db'.tables := by
  obtain ⟨⟨written, stats₁⟩, hwindows, h⟩ := bind_eq_ok.mp h
  cases h
  exact Consistent.deleteClosedWindows (hc.applyWindowList hwindows)

/-! ## Reachable databases -/

/-- A database written by a sequence of applies from the empty schema. Each apply
may come from another handle, with any set of windows claimed by it. -/
inductive Reachable : Tables → Prop where
  | empty : Reachable Tables.empty
  | apply {tables : Tables} {owned : Std.ExtTreeSet Int} {snapshot : WindowsState} {db : StateDb}
      {stats : ApplyStats} (before : Reachable tables)
      (applied : StateDb.apply ⟨tables, owned⟩ snapshot = .ok (db, stats)) : Reachable db.tables

theorem Reachable.consistent {tables : Tables} (h : Reachable tables) : Consistent tables := by
  induction h with
  | empty => exact consistent_empty
  | apply _ applied ih => exact ih.apply applied

end Fulgur
