import Fulgur.State.Db.Target

/-! # The incremental apply writes what a rewrite would

Each step of `apply` leaves the tables as the naive save would have them and
counts a row operation exactly when it changes a row. The argument needs the
stored columns to agree with each other (which every reachable database
guarantees) and no stored text to share its fingerprint with a different text
that the snapshot has for the same tab.
-/

namespace Fulgur

open Fallible

/-- A window that the store can represent: tab identities are distinct and fit
the id column, bounds are numbers, and no collection is longer than the
`2 ^ 63 - 1` bytes that one allocation can have. -/
structure WindowStorable (window : WindowState) : Prop where
  tabIds : (window.tabs.map (·.tabId)).Nodup
  tabIdBound : ∀ tab ∈ window.tabs, tab.tabId < 2 ^ 63
  bounds : window.windowBounds.isNumber
  tabCount : window.tabs.length < 2 ^ 63
  textLength : ∀ tab ∈ window.tabs, ∀ content, tab.content = some content →
    content.toText.utf8ByteSize < 2 ^ 63

structure Storable (snapshot : WindowsState) : Prop where
  windowIds : snapshot.ids.Nodup
  windowCount : snapshot.windows.length < 2 ^ 63
  window : ∀ window ∈ snapshot.windows, WindowStorable window

/-- No stored text of the window is mistaken for a different text of the same tab. -/
def NoCollisionIn (tables : Tables) (window : WindowState) : Prop :=
  ∀ tab ∈ window.tabs, ∀ row, tables.tabs[tabKey window.windowId tab]? = some row →
    row.content.map textFingerprint = tabFingerprint tab → row.content = tab.content.map (·.toText)

def NoCollision (tables : Tables) (snapshot : WindowsState) : Prop :=
  ∀ window ∈ snapshot.windows, NoCollisionIn tables window

namespace ApplyStats

/-- The number of row operations counted. -/
def total (stats : ApplyStats) : Nat :=
  stats.windowsWritten + stats.windowsDeleted + stats.tabsInserted + stats.tabsMetadataUpdated +
    stats.tabsContentWritten + stats.tabsDeleted

theorem isEmpty_iff (stats : ApplyStats) : stats.isEmpty = true ↔ stats.total = 0 := by
  obtain ⟨ww, wd, ti, tm, tc, td⟩ := stats
  simp only [isEmpty, total, decide_eq_true_eq, ApplyStats.mk.injEq]
  omega

theorem eq_default_of_total {stats : ApplyStats} (h : stats.total = 0) : stats = {} := by
  simpa [isEmpty] using (isEmpty_iff stats).mpr h

end ApplyStats

/-! ## One tab -/

/-- The stored tabs of a window, read row by row. -/
theorem getElem?_readStoredTabs {tables : Tables} (windowId : Int) (id : Nat) :
    (readStoredTabs tables windowId)[id]? =
      tables.tabs[TabKey.mk windowId id]?.map fun row => (row.stored, storedFingerprint row) := by
  have hkeys : ((tables.tabsOf windowId).filterMap storedEntry).Pairwise
      fun a b => ¬compare a.1 b.1 = .eq := by
    rw [List.pairwise_filterMap]
    have hrows := tables.nodup_tabsOf windowId
    rw [List.Nodup, List.pairwise_map] at hrows
    refine hrows.imp ?_
    intro a b hne x hx y hy heq
    simp only [storedEntry, Option.ite_none_right_eq_some, Option.some.injEq] at hx hy
    obtain ⟨ha, rfl⟩ := hx
    obtain ⟨hb, rfl⟩ := hy
    have htoNat : a.1.toNat = b.1.toNat := Std.compare_eq_iff_eq.mp heq
    omega
  cases hrow : tables.tabs[TabKey.mk windowId id]? with
  | some row =>
      refine Std.ExtTreeMap.getElem?_ofList_of_mem Std.ReflCmp.compare_self hkeys ?_
      refine List.mem_filterMap.mpr ⟨((id : Int), row), Tables.mem_tabsOf.mpr hrow, ?_⟩
      simp [storedEntry]
  | none =>
      refine Std.ExtTreeMap.getElem?_ofList_of_contains_eq_false ?_
      rw [← Bool.not_eq_true, List.contains_iff_mem]
      intro hmem
      obtain ⟨⟨key, value⟩, hentry, rfl⟩ := List.mem_map.mp hmem
      obtain ⟨⟨stored, row⟩, hstored, heq⟩ := List.mem_filterMap.mp hentry
      simp only [storedEntry, Option.ite_none_right_eq_some, Option.some.injEq,
        Prod.mk.injEq] at heq
      obtain ⟨hnonneg, rfl, -⟩ := heq
      have hkey : (stored.toNat : Int) = stored := Int.toNat_of_nonneg hnonneg
      rw [hkey, Tables.mem_tabsOf.mp hstored] at hrow
      cases hrow

theorem fingerprintColumns_of_lt {tab : TabState}
    (h : ∀ content, tab.content = some content → content.toText.utf8ByteSize < 2 ^ 63) :
    fingerprintColumns (tabFingerprint tab) = .ok (textColumns (tab.content.map (·.toText))) := by
  rw [tabFingerprint_eq]
  cases hcontent : tab.content with
  | none => rfl
  | some content =>
      have hlen : (textFingerprint content.toText).len < 2 ^ 63 := h content hcontent
      simp only [Option.map_some, fingerprintColumns, i64TryFrom_of_lt _ hlen, ok_bind]
      rfl

/-- What the tab loop may assume about the row of the tab it looks at. -/
structure TabReady (windowId : Int) (tab : TabState) (pass : TabPass) : Prop where
  parent : windowId ∈ pass.tables.windows
  idBound : tab.tabId < 2 ^ 63
  textLength : ∀ content, tab.content = some content → content.toText.utf8ByteSize < 2 ^ 63
  existing : pass.existing[tab.tabId]? =
    pass.tables.tabs[tabKey windowId tab]?.map fun row => (row.stored, storedFingerprint row)
  row : ∀ row, pass.tables.tabs[tabKey windowId tab]? = some row → RowConsistent row
  noCollision : ∀ row, pass.tables.tabs[tabKey windowId tab]? = some row →
    row.content.map textFingerprint = tabFingerprint tab → row.content = tab.content.map (·.toText)

def TabPass.put (pass : TabPass) (windowId : Int) (tab : TabState) (position : Nat)
    (stats : ApplyStats) : TabPass where
  existing := pass.existing.erase tab.tabId
  tables := { pass.tables with
    tabs := pass.tables.tabs.insert (tabKey windowId tab) (tabRow tab position) }
  stats := stats

private theorem modify_eq_insert {m : Std.ExtTreeMap TabKey TabRow} {key : TabKey}
    {row row' : TabRow} (set : TabRow → TabRow) (h : m[key]? = some row) (hset : set row = row') :
    m.modify key set = m.insert key row' := by
  ext1 other
  rw [Std.ExtTreeMap.getElem?_modify, Std.ExtTreeMap.getElem?_insert, h, Option.map_some, hset]

private theorem insert_eq_self {m : Std.ExtTreeMap TabKey TabRow} {key : TabKey} {row : TabRow}
    (h : m[key]? = some row) : m.insert key row = m := by
  ext1 other
  rw [Std.ExtTreeMap.getElem?_insert]
  split
  · rename_i heq
    rw [← TabKey.eq_of_compare heq, h]
  · rfl

/-- A row with the tab's own text differs from the desired one in its metadata only. -/
private theorem tabRow_eq_of_content {row : TabRow} {tab : TabState} (position : Nat)
    (hrow : RowConsistent row) (hcontent : row.content = tab.content.map (·.toText)) :
    { row with stored := storedTabFromSnapshot tab position } = tabRow tab position := by
  obtain ⟨hhash, hlen⟩ := Prod.mk.inj hrow.columns
  rw [hcontent] at hhash hlen
  rw [tabRow, hcontent, hhash, hlen]
  rfl

/-- One round of the tab loop writes the desired row, and counts an operation
exactly when the row was not there yet. -/
theorem applyTab_spec {windowId : Int} {tab : TabState} {position : Nat} {pass : TabPass}
    (hready : TabReady windowId tab pass) (hposition : position < 2 ^ 63) :
    ∃ stats, applyTab windowId tab position pass = .ok (pass.put windowId tab position stats) ∧
      pass.stats.total ≤ stats.total ∧ (stats.total = pass.stats.total ↔
        pass.tables.tabs[tabKey windowId tab]? = some (tabRow tab position)) := by
  have hcolumns := fingerprintColumns_of_lt hready.textLength
  have hid := i64TryFrom_of_lt "Tab id" hready.idBound
  simp only [applyTab, i64TryFrom_of_lt _ hposition, ok_bind, hready.existing]
  cases hrow : pass.tables.tabs[tabKey windowId tab]? with
  | none =>
      refine ⟨{ pass.stats with tabsInserted := pass.stats.tabsInserted + 1 }, ?_, ?_, ?_⟩
      · simp only [Option.map_none, insertTab, hid, hcolumns, ok_bind, Tables.upsertTab,
          hready.parent, if_true, mapError_ok]
        rfl
      · simp only [ApplyStats.total]
        omega
      · simp [ApplyStats.total]
  | some row =>
      have hconsistent := hready.row row hrow
      simp only [Option.map_some, hconsistent.storedFingerprint_eq]
      split
      · rename_i hchanged
        refine ⟨{ pass.stats with tabsContentWritten := pass.stats.tabsContentWritten + 1 },
          ?_, ?_, ?_⟩
        · simp only [updateTab, hid, hcolumns, ok_bind, Tables.updateTab]
          have hmodify := modify_eq_insert (fun _ => tabRow tab position) hrow rfl
          exact congrArg (fun tabs => Except.ok (TabPass.mk _ { pass.tables with tabs } _)) hmodify
        · simp only [ApplyStats.total]
          omega
        · have hne : row ≠ tabRow tab position := by
            rintro rfl
            exact hchanged (tabFingerprint_eq tab).symm
          simp only [ApplyStats.total, Option.some.injEq, hne, iff_false]
          omega
      · rename_i hsame
        have hcontent := hready.noCollision row hrow (not_not.mp hsame)
        have hdesired := tabRow_eq_of_content position hconsistent hcontent
        split
        · rename_i hstored
          refine ⟨{ pass.stats with tabsMetadataUpdated := pass.stats.tabsMetadataUpdated + 1 },
            ?_, ?_, ?_⟩
          · simp only [updateTabMetadata, hid, ok_bind, Tables.updateTab]
            have hmodify := modify_eq_insert (fun row : TabRow =>
              { row with stored := storedTabFromSnapshot tab position }) hrow hdesired
            exact congrArg
              (fun tabs => Except.ok (TabPass.mk _ { pass.tables with tabs } _)) hmodify
          · simp only [ApplyStats.total]
            omega
          · have hne : row ≠ tabRow tab position := by
              rintro rfl
              exact hstored rfl
            simp only [ApplyStats.total, Option.some.injEq, hne, iff_false]
            omega
        · rename_i hstored
          have heq : row = tabRow tab position := by
            rw [← hdesired, ← not_not.mp hstored]
          refine ⟨pass.stats, ?_, le_rfl, ?_⟩
          · have hinsert := insert_eq_self (heq ▸ hrow)
            exact congrArg (fun tabs => Except.ok (TabPass.mk _ { pass.tables with tabs } _))
              hinsert.symm
          · simp [heq]

/-! ## The tabs of one window -/

theorem TabReady.put {windowId : Int} {tab other : TabState} {pass : TabPass}
    (hready : TabReady windowId other pass) (hne : other.tabId ≠ tab.tabId) (position : Nat)
    (stats : ApplyStats) : TabReady windowId other (pass.put windowId tab position stats) := by
  have hkey : tabKey windowId tab ≠ tabKey windowId other := fun h => hne (tabKey_injective h).symm
  have hrow : (pass.put windowId tab position stats).tables.tabs[tabKey windowId other]? =
      pass.tables.tabs[tabKey windowId other]? := by
    simp only [TabPass.put, Std.ExtTreeMap.getElem?_insert, Std.compare_eq_iff_eq, hkey, if_false]
  have hexisting : (pass.put windowId tab position stats).existing[other.tabId]? =
      pass.existing[other.tabId]? := by
    simp only [TabPass.put, Std.ExtTreeMap.getElem?_erase, Std.compare_eq_iff_eq, hne.symm,
      if_false]
  constructor
  · exact hready.parent
  · exact hready.idBound
  · exact hready.textLength
  · rw [hexisting, hrow]
    exact hready.existing
  · rw [hrow]
    exact hready.row
  · rw [hrow]
    exact hready.noCollision

/-- The tab loop writes every desired row, leaves the other rows pending, and
counts nothing exactly when every row was there. -/
theorem applyTabList_spec {windowId : Int} {tabs : List TabState} (position : Nat) {pass : TabPass}
    (hids : (tabs.map (·.tabId)).Nodup) (hready : ∀ tab ∈ tabs, TabReady windowId tab pass)
    (hposition : position + tabs.length ≤ 2 ^ 63) :
    ∃ pass', applyTabList windowId tabs position pass = .ok pass' ∧
      pass'.tables = { pass.tables with
        tabs := pass.tables.tabs.insertMany (tabEntries windowId tabs position) } ∧
      (∀ id : Nat, pass'.existing[id]? =
        if id ∈ tabs.map (·.tabId) then none else pass.existing[id]?) ∧
      pass.stats.total ≤ pass'.stats.total ∧ (pass'.stats.total = pass.stats.total ↔
        ∀ entry ∈ tabEntries windowId tabs position,
          pass.tables.tabs[entry.1]? = some entry.2) := by
  induction tabs generalizing position pass with
  | nil =>
      refine ⟨pass, rfl, ?_, by simp, le_rfl, by simp [tabEntries, Listing.numbered]⟩
      simp [tabEntries, Listing.numbered]
  | cons tab tabs ih =>
      obtain ⟨hnew, hrest⟩ := List.nodup_cons.mp hids
      rw [List.length_cons] at hposition
      obtain ⟨stats, hstep, hle, hsame⟩ :=
        applyTab_spec (hready tab List.mem_cons_self) (by omega : position < 2 ^ 63)
      have hne : ∀ other ∈ tabs, other.tabId ≠ tab.tabId := fun other hother heq =>
        hnew (List.mem_map.mpr ⟨other, hother, heq⟩)
      obtain ⟨pass', hrun, htables, hexisting, hle', hsame'⟩ :=
        ih (position + 1) hrest
          (fun other hother =>
            (hready other (List.mem_cons_of_mem tab hother)).put (hne other hother) position stats)
          (by omega)
      refine ⟨pass', ?_, ?_, ?_, Nat.le_trans hle hle', ?_⟩
      · rw [applyTabList, hstep]
        exact hrun
      · rw [htables, tabEntries_cons, Std.ExtTreeMap.insertMany_cons]
        rfl
      · intro id
        rw [hexisting id]
        simp only [TabPass.put, Std.ExtTreeMap.getElem?_erase, Std.compare_eq_iff_eq,
          List.map_cons, List.mem_cons]
        by_cases hmem : id ∈ tabs.map (·.tabId) <;> by_cases heq : id = tab.tabId <;>
          simp [hmem, heq, eq_comm (a := tab.tabId)]
      · have hframe : ∀ entry ∈ tabEntries windowId tabs (position + 1),
            (pass.put windowId tab position stats).tables.tabs[entry.1]? =
              pass.tables.tabs[entry.1]? := by
          intro entry hentry
          obtain ⟨i, other, hother, rfl⟩ := mem_tabEntries.mp hentry
          have hkey : tabKey windowId tab ≠ tabKey windowId other := fun h =>
            hne other (List.mem_of_getElem? hother) (tabKey_injective h).symm
          simp only [TabPass.put, Std.ExtTreeMap.getElem?_insert, Std.compare_eq_iff_eq, hkey,
            if_false]
        have hsplit : pass'.stats.total = pass.stats.total ↔
            stats.total = pass.stats.total ∧ pass'.stats.total = stats.total := by
          have : (pass.put windowId tab position stats).stats.total = stats.total := rfl
          omega
        rw [hsplit, hsame]
        refine Iff.trans (and_congr_right fun _ => hsame') ?_
        simp only [tabEntries_cons, List.forall_mem_cons]
        exact and_congr_right fun _ => forall₂_congr fun entry hentry => by rw [hframe entry hentry]

def closedKeys (windowId : Int) (closed : List Nat) : List TabKey :=
  closed.map fun id : Nat => ⟨windowId, id⟩

theorem deleteClosedTabs_spec {windowId : Int} {closed : List Nat} {tables : Tables}
    (stats : ApplyStats) (hnodup : closed.Nodup) (hbound : ∀ id ∈ closed, id < 2 ^ 63)
    (hpresent : ∀ id ∈ closed, TabKey.mk windowId id ∈ tables.tabs) :
    ∃ tables' stats', deleteClosedTabs windowId closed tables stats = .ok (tables', stats') ∧
      tables'.windows = tables.windows ∧
      (∀ key : TabKey, tables'.tabs[key]? =
        if key ∈ closedKeys windowId closed then none else tables.tabs[key]?) ∧
      stats'.total = stats.total + closed.length := by
  induction closed generalizing tables stats with
  | nil => exact ⟨tables, stats, rfl, rfl, by simp [closedKeys], rfl⟩
  | cons id closed ih =>
      obtain ⟨hnew, hrest⟩ := List.nodup_cons.mp hnodup
      have hkept : ∀ other ∈ closed,
          TabKey.mk windowId other ∈ (tables.deleteTab ⟨windowId, id⟩).1.tabs := by
        intro other hother
        refine Std.ExtTreeMap.mem_erase.mpr ⟨?_, hpresent other (List.mem_cons_of_mem id hother)⟩
        intro h
        have heq : (id : Int) = other := congrArg TabKey.id (TabKey.eq_of_compare h)
        exact hnew (by rwa [Int.ofNat_inj.mp heq])
      obtain ⟨tables', stats', hrun, hwindows, htabs, htotal⟩ :=
        ih { stats with tabsDeleted := stats.tabsDeleted + 1 } hrest
          (fun other hother => hbound other (List.mem_cons_of_mem id hother)) hkept
      refine ⟨tables', stats', ?_, hwindows, ?_, ?_⟩
      · rw [deleteClosedTabs, i64TryFrom_of_lt _ (hbound id List.mem_cons_self)]
        have hcount : (tables.deleteTab ⟨windowId, id⟩).2 = 1 :=
          if_pos (hpresent id List.mem_cons_self)
        simp only [ok_bind, hcount]
        exact hrun
      · intro key
        rw [htabs key, Tables.getElem?_deleteTab_tabs]
        have hcons : closedKeys windowId (id :: closed) =
            TabKey.mk windowId id :: closedKeys windowId closed := rfl
        rw [hcons]
        by_cases hmem : key ∈ closedKeys windowId closed <;>
          by_cases heq : key = ⟨windowId, id⟩ <;> simp [hmem, heq]
      · rw [htotal, List.length_cons]
        simp only [ApplyStats.total]
        omega

section Window

variable {tables : Tables} {window : WindowState}

/-- The window loop may assume this of every window it has not reached. -/
structure WindowReady (tables : Tables) (window : WindowState) : Prop where
  storable : WindowStorable window
  noCollision : NoCollisionIn tables window

theorem WindowReady.tabReady (hready : WindowReady tables window) (hc : Consistent tables)
    (hparent : window.windowId ∈ tables.windows) (stats : ApplyStats) {tab : TabState}
    (htab : tab ∈ window.tabs) :
    TabReady window.windowId tab ⟨readStoredTabs tables window.windowId, tables, stats⟩ where
  parent := hparent
  idBound := hready.storable.tabIdBound tab htab
  textLength := hready.storable.textLength tab htab
  existing := getElem?_readStoredTabs window.windowId tab.tabId
  row := hc.row _
  noCollision := hready.noCollision tab htab

theorem getElem?_replaceWindow_of_ne {id : Int} (hne : id ≠ window.windowId) (position : Nat) :
    (tables.replaceWindow window position).windows[id]? = tables.windows[id]? := by
  rw [Tables.replaceWindow, Tables.getElem?_insertWindow_windows, if_neg hne,
    Tables.getElem?_deleteWindow_windows, if_neg hne]

theorem getElem?_replaceWindow_tabs_of_ne {key : TabKey} (hne : key.window ≠ window.windowId)
    (position : Nat) : (tables.replaceWindow window position).tabs[key]? = tables.tabs[key]? := by
  rw [Tables.replaceWindow, Tables.getElem?_insertWindow_of_window_ne hne,
    Tables.getElem?_deleteWindow_tabs, if_neg hne]

/-- The tab rows of a replaced window are the desired ones and no others. -/
private theorem tabs_eq_replaceWindow {tabs : Std.ExtTreeMap TabKey TabRow} (position : Nat)
    (hids : (window.tabs.map (·.tabId)).Nodup)
    (hother : ∀ key : TabKey, key.window ≠ window.windowId → tabs[key]? = tables.tabs[key]?)
    (htab : ∀ i tab, window.tabs[i]? = some tab →
      tabs[tabKey window.windowId tab]? = some (tabRow tab i))
    (hclosed : ∀ key : TabKey, key.window = window.windowId →
      (∀ tab ∈ window.tabs, tabKey window.windowId tab ≠ key) → tabs[key]? = none) :
    tabs = (tables.replaceWindow window position).tabs := by
  ext1 key
  by_cases hkey : key.window = window.windowId
  · by_cases hnamed : ∃ tab ∈ window.tabs, tabKey window.windowId tab = key
    · obtain ⟨tab, hmem, rfl⟩ := hnamed
      obtain ⟨i, hi⟩ := List.mem_iff_getElem?.mp hmem
      rw [htab i tab hi, Tables.replaceWindow, Tables.getElem?_insertWindow_of_tab hids hi]
    · have hnot : ∀ tab ∈ window.tabs, tabKey window.windowId tab ≠ key := fun tab hmem heq =>
        hnamed ⟨tab, hmem, heq⟩
      rw [hclosed key hkey hnot, Tables.replaceWindow, Tables.getElem?_insertWindow_of_not_tab hnot,
        Tables.getElem?_deleteWindow_tabs, if_pos hkey]
  · rw [hother key hkey, getElem?_replaceWindow_tabs_of_ne hkey]

section Pending

variable {ids : List Nat}

/-- `ids` are the stored tabs of the window that the snapshot does not name. -/
def Pending (tables : Tables) (window : WindowState) (ids : List Nat) : Prop :=
  ∀ id : Nat, id ∈ ids ↔
    id ∉ window.tabs.map (·.tabId) ∧ TabKey.mk window.windowId id ∈ tables.tabs

theorem Pending.lt (hpending : Pending tables window ids) (hc : Consistent tables) {id : Nat}
    (hid : id ∈ ids) : id < 2 ^ 63 := by
  have hstored := Std.ExtTreeMap.mem_iff_isSome_getElem?.mp ((hpending id).mp hid).2
  obtain ⟨row, hrow⟩ := Option.isSome_iff_exists.mp hstored
  have hlt : (id : Int) < 2 ^ 63 := (hc.id _ _ hrow).2
  omega

theorem Pending.kept (hpending : Pending tables window ids) {tab : TabState}
    (htab : tab ∈ window.tabs) : tabKey window.windowId tab ∉ closedKeys window.windowId ids := by
  intro hmem
  obtain ⟨id, hid, heq⟩ := List.mem_map.mp hmem
  have hname : (id : Int) = tab.tabId := congrArg TabKey.id heq
  exact ((hpending id).mp hid).1 (List.mem_map.mpr ⟨tab, htab, (Int.ofNat_inj.mp hname).symm⟩)

theorem Pending.closed (hpending : Pending tables window ids) (hc : Consistent tables)
    {key : TabKey} {row : TabRow} (hrow : tables.tabs[key]? = some row)
    (hkey : key.window = window.windowId)
    (hnot : ∀ tab ∈ window.tabs, tabKey window.windowId tab ≠ key) :
    key ∈ closedKeys window.windowId ids := by
  have hid : (key.id.toNat : Int) = key.id := Int.toNat_of_nonneg (hc.id key row hrow).1
  have heq : TabKey.mk window.windowId key.id.toNat = key := by rw [hid, ← hkey]
  refine List.mem_map.mpr ⟨key.id.toNat, (hpending _).mpr ⟨?_, ?_⟩, heq⟩
  · intro hmem
    obtain ⟨tab, htab, htabId⟩ := List.mem_map.mp hmem
    exact hnot tab htab (by rw [← heq, tabKey, htabId])
  · rw [heq, Std.ExtTreeMap.mem_iff_isSome_getElem?, hrow]
    rfl

/-- Writing the desired rows and deleting the pending ones replaces the tab rows
of the window. -/
theorem Pending.replaced (hpending : Pending tables window ids) (hc : Consistent tables)
    (hids : (window.tabs.map (·.tabId)).Nodup) {position : Nat}
    {tabs : Std.ExtTreeMap TabKey TabRow}
    (htabs : ∀ key, tabs[key]? = if key ∈ closedKeys window.windowId ids then none
      else (tables.insertWindow window position).tabs[key]?) :
    tabs = (tables.replaceWindow window position).tabs := by
  refine tabs_eq_replaceWindow position hids ?_ ?_ ?_
  · intro key hne
    have hkept : key ∉ closedKeys window.windowId ids := by
      intro hmem
      obtain ⟨id, -, rfl⟩ := List.mem_map.mp hmem
      exact hne rfl
    rw [htabs key, if_neg hkept, Tables.getElem?_insertWindow_of_window_ne hne]
  · intro i tab hi
    rw [htabs, if_neg (hpending.kept (List.mem_of_getElem? hi)),
      Tables.getElem?_insertWindow_of_tab hids hi]
  · intro key hkey hnot
    rw [htabs key, Tables.getElem?_insertWindow_of_not_tab hnot]
    split
    · rfl
    · rename_i hkept
      by_contra hne
      obtain ⟨row, hrow⟩ := Option.ne_none_iff_exists'.mp hne
      exact hkept (hpending.closed hc hrow hkey hnot)

/-- Replacing a window leaves the tab rows as they are when no row is pending and
each desired row is the stored one. -/
theorem Pending.unchanged_iff (hpending : Pending tables window ids) (hc : Consistent tables)
    (hids : (window.tabs.map (·.tabId)).Nodup) (position : Nat) :
    (tables.replaceWindow window position).tabs = tables.tabs ↔
      ids = [] ∧ ∀ i tab, window.tabs[i]? = some tab →
        tables.tabs[tabKey window.windowId tab]? = some (tabRow tab i) := by
  have hdesired : ∀ i tab, window.tabs[i]? = some tab →
      (tables.replaceWindow window position).tabs[tabKey window.windowId tab]? =
        some (tabRow tab i) := fun i tab hi => by
    rw [Tables.replaceWindow, Tables.getElem?_insertWindow_of_tab hids hi]
  constructor
  · intro hunchanged
    refine ⟨List.eq_nil_iff_forall_not_mem.mpr ?_, ?_⟩
    · intro id hid
      obtain ⟨hnamed, hstored⟩ := (hpending id).mp hid
      have hnot :
        ∀ tab ∈ window.tabs, tabKey window.windowId tab ≠ TabKey.mk window.windowId id := by
        intro tab htab heq
        have hname : (tab.tabId : Int) = id := congrArg TabKey.id heq
        exact hnamed (List.mem_map.mpr ⟨tab, htab, Int.ofNat_inj.mp hname⟩)
      rw [← hunchanged, Std.ExtTreeMap.mem_iff_isSome_getElem?, Tables.replaceWindow,
        Tables.getElem?_insertWindow_of_not_tab hnot, Tables.getElem?_deleteWindow_tabs,
        if_pos rfl] at hstored
      cases hstored
    · intro i tab hi
      rw [← hunchanged, hdesired i tab hi]
  · rintro ⟨hnone, hrows⟩
    refine (tabs_eq_replaceWindow position hids (fun _ _ => rfl) hrows ?_).symm
    intro key hkey hnot
    by_contra hne
    obtain ⟨row, hrow⟩ := Option.ne_none_iff_exists'.mp hne
    have hclosed := hpending.closed hc hrow hkey hnot
    rw [hnone] at hclosed
    cases hclosed

end Pending

/-- Reconciling the tabs of a window replaces its tab rows, and counts nothing
exactly when none of them changes. -/
theorem applyTabs_spec (hready : WindowReady tables window) (hc : Consistent tables)
    (hparent : window.windowId ∈ tables.windows) (position : Nat) (stats : ApplyStats) :
    ∃ stats', applyTabs tables window stats =
        .ok ({ tables with tabs := (tables.replaceWindow window position).tabs }, stats') ∧
      stats.total ≤ stats'.total ∧ (stats'.total = stats.total ↔
        (tables.replaceWindow window position).tabs = tables.tabs) := by
  have hids := hready.storable.tabIds
  obtain ⟨pass, hrun, htables, hexisting, hle, hsame⟩ :=
    applyTabList_spec 0 hids
      (fun tab htab => hready.tabReady hc hparent stats htab)
      (by have := hready.storable.tabCount; omega)
  have hpending : Pending tables window pass.existing.keys := by
    intro id
    rw [Std.ExtTreeMap.mem_keys, Std.ExtTreeMap.mem_iff_isSome_getElem?, hexisting id,
      Std.ExtTreeMap.mem_iff_isSome_getElem?]
    by_cases hmem : id ∈ window.tabs.map (·.tabId)
    · simp [hmem]
    · simp only [hmem, if_false, not_false_eq_true, true_and]
      rw [getElem?_readStoredTabs, Option.isSome_map]
  have hpresent : ∀ id ∈ pass.existing.keys, TabKey.mk window.windowId id ∈ pass.tables.tabs := by
    intro id hid
    rw [htables]
    exact Std.ExtTreeMap.mem_insertMany_list.mpr (Or.inl ((hpending id).mp hid).2)
  obtain ⟨tables', stats', hdelete, hwindows, htabs, htotal⟩ :=
    deleteClosedTabs_spec pass.stats pass.existing.nodup_keys (fun _ => hpending.lt hc) hpresent
  have hinserted : pass.tables.tabs = (tables.insertWindow window position).tabs := by
    rw [htables]; rfl
  have hreplaced : tables'.tabs = (tables.replaceWindow window position).tabs :=
    hpending.replaced hc hids fun key => by rw [htabs key, hinserted]
  have hle' : stats.total ≤ pass.stats.total := hle
  refine ⟨stats', ?_, by omega, ?_⟩
  · rw [applyTabs, hrun, ok_bind, hdelete, ← hreplaced]
    have hsamewindows : tables'.windows = tables.windows := by rw [hwindows, htables]
    rw [← hsamewindows]
  · -- Nothing is counted when no row is pending and each desired row is stored.
    have hsplit : stats'.total = stats.total ↔
        pass.existing.keys = [] ∧ pass.stats.total = stats.total := by
      rw [← List.length_eq_zero_iff]
      omega
    have hstored : pass.stats.total = stats.total ↔ ∀ i tab, window.tabs[i]? = some tab →
        tables.tabs[tabKey window.windowId tab]? = some (tabRow tab i) := by
      refine hsame.trans ⟨fun h i tab hi => ?_, fun h entry hentry => ?_⟩
      · exact h _ (mem_tabEntries.mpr ⟨i, tab, hi, by rw [Nat.zero_add]⟩)
      · obtain ⟨i, tab, hi, rfl⟩ := mem_tabEntries.mp hentry
        rw [Nat.zero_add]
        exact h i tab hi
    rw [hsplit, hstored, hpending.unchanged_iff hc hids]

theorem activeTabColumn_eq (hstorable : WindowStorable window) :
    activeTabColumn window = .ok ((activeTab window).map fun tab => (tab.tabId : Int)) := by
  unfold activeTabColumn
  cases hactive : activeTab window with
  | none => rfl
  | some tab =>
      obtain ⟨index, -, hindex⟩ := Option.bind_eq_some_iff.mp hactive
      have hbound := hstorable.tabIdBound tab (List.mem_of_getElem? hindex)
      simp only [i64TryFrom_of_lt _ hbound, Option.map_some]
      rfl

theorem nullColumn_windowRow (hstorable : WindowStorable window) (position : Nat) :
    (windowRow window position).nullColumn = none := by
  have hbounds := hstorable.bounds
  simp only [SerializedWindowBounds.isNumber, F32.isNumber, Bool.and_eq_true, decide_eq_true_eq]
    at hbounds
  obtain ⟨⟨⟨hx, hy⟩, hwidth⟩, hheight⟩ := hbounds
  exact StoredWindow.nullColumn_eq_none.mpr ⟨hx, hy, hwidth, hheight⟩

def Tables.putWindowRow (tables : Tables) (window : WindowState) (position : Nat) : Tables :=
  { tables with windows := tables.windows.insert window.windowId (windowRow window position) }

/-- Writing a window row counts an operation exactly when the row was not there yet. -/
theorem applyWindow_spec (tables : Tables) (hstorable : WindowStorable window) (position : Nat)
    (stats : ApplyStats) :
    ∃ stats', applyWindow tables window position stats =
        .ok (tables.putWindowRow window position, stats') ∧
      stats.total ≤ stats'.total ∧ (stats'.total = stats.total ↔
        tables.windows[window.windowId]? = some (windowRow window position)) := by
  have hnull := nullColumn_windowRow hstorable position
  have heq : ∀ row : StoredWindow,
      row.eq (windowRow window position) = true ↔ row = windowRow window position :=
    fun _ => StoredWindow.eq_iff hnull
  have hdesired : storedWindowFromSnapshot window position
      ((activeTab window).map fun tab => (tab.tabId : Int)) = windowRow window position := rfl
  simp only [applyWindow, activeTabColumn_eq hstorable, ok_bind, hdesired]
  by_cases hstored : tables.windows[window.windowId]? = some (windowRow window position)
  · refine ⟨stats, ?_, le_rfl, by simp [hstored]⟩
    have hskip :
      tables.windows[window.windowId]?.any (·.eq (windowRow window position)) = true := by
      rw [hstored]
      exact (heq _).mpr rfl
    have hinsert : tables.windows.insert window.windowId (windowRow window position) =
        tables.windows := by
      ext1 id
      rw [Std.ExtTreeMap.getElem?_insert]
      split
      · rename_i hid
        rw [← Std.compare_eq_iff_eq.mp hid, hstored]
      · rfl
    rw [if_pos hskip, Tables.putWindowRow, hinsert]
    rfl
  · refine ⟨{ stats with windowsWritten := stats.windowsWritten + 1 }, ?_, ?_, ?_⟩
    · have hwrite :
        tables.windows[window.windowId]?.any (·.eq (windowRow window position)) ≠ true := by
        intro hany
        cases hrow : tables.windows[window.windowId]? with
        | none => simp [hrow] at hany
        | some row =>
            rw [hrow] at hany hstored
            exact hstored (congrArg some ((heq row).mp hany))
      rw [if_neg hwrite, Tables.upsertWindow, hnull]
      rfl
    · simp only [ApplyStats.total]
      omega
    · simp only [hstored, iff_false, ApplyStats.total]
      omega

theorem tabs_replaceWindow_putWindowRow (position : Nat) :
    ((tables.putWindowRow window position).replaceWindow window position).tabs =
      (tables.replaceWindow window position).tabs := rfl

theorem putWindowRow_withTabs (position : Nat) :
    ({ tables.putWindowRow window position with
      tabs := (tables.replaceWindow window position).tabs } : Tables) =
        tables.replaceWindow window position := by
  ext1 x
  · rw [Tables.replaceWindow, Tables.getElem?_insertWindow_windows,
      Tables.getElem?_deleteWindow_windows]
    simp only [Tables.putWindowRow, Std.ExtTreeMap.getElem?_insert, Std.compare_eq_iff_eq]
    by_cases hx : x = window.windowId <;> simp [hx, eq_comm (a := window.windowId)]
  · rfl

/-- One round of the window loop replaces the window. -/
theorem applyRound_spec (hready : WindowReady tables window) (hc : Consistent tables)
    (position : Nat) (stats : ApplyStats) :
    ∃ written stats₁ stats₂, applyWindow tables window position stats = .ok (written, stats₁) ∧
      applyTabs written window stats₁ = .ok (tables.replaceWindow window position, stats₂) ∧
      Consistent (tables.replaceWindow window position) ∧ stats.total ≤ stats₂.total ∧
      (stats₂.total = stats.total ↔ tables.replaceWindow window position = tables) := by
  obtain ⟨stats₁, hwindow, hle₁, hsame₁⟩ :=
    applyWindow_spec tables hready.storable position stats
  have hwritten := hc.applyWindow hwindow
  have hready' : WindowReady (tables.putWindowRow window position) window :=
    ⟨hready.storable, hready.noCollision⟩
  obtain ⟨stats₂, htabs, hle₂, hsame₂⟩ :=
    applyTabs_spec hready' hwritten (Std.ExtTreeMap.mem_insert_self) position stats₁
  rw [tabs_replaceWindow_putWindowRow, putWindowRow_withTabs] at htabs
  refine ⟨_, stats₁, stats₂, hwindow, htabs, hwritten.applyTabs htabs, by omega, ?_⟩
  have hsplit : stats₂.total = stats.total ↔
      stats₁.total = stats.total ∧ stats₂.total = stats₁.total := by omega
  rw [hsplit, hsame₁, hsame₂]
  constructor
  · rintro ⟨hrow, hrest⟩
    rw [← putWindowRow_withTabs]
    ext1 x
    · simp only [Tables.putWindowRow, Std.ExtTreeMap.getElem?_insert, Std.compare_eq_iff_eq]
      split
      · rename_i hx
        rw [← hx, hrow]
      · rfl
    · exact congrArg (·[x]?) hrest
  · intro hunchanged
    have htabsSame : (tables.replaceWindow window position).tabs = tables.tabs :=
      congrArg Tables.tabs hunchanged
    refine ⟨?_, htabsSame⟩
    rw [← hunchanged, Tables.replaceWindow, Tables.getElem?_insertWindow_windows, if_pos rfl]

end Window

theorem WindowReady.replaceWindow {tables : Tables} {window other : WindowState}
    (hready : WindowReady tables other) (hne : other.windowId ≠ window.windowId) (position : Nat) :
    WindowReady (tables.replaceWindow window position) other where
  storable := hready.storable
  noCollision := by
    intro tab htab row hrow
    rw [getElem?_replaceWindow_tabs_of_ne hne] at hrow
    exact hready.noCollision tab htab row hrow

section Frame

variable {tables : Tables} {windows : List WindowState}

theorem getElem?_replaceWindows_of_not_mem {id : Int} (h : id ∉ windows.map (·.windowId))
    (position : Nat) :
    (tables.replaceWindows windows position).windows[id]? = tables.windows[id]? := by
  induction windows generalizing tables position with
  | nil => rfl
  | cons window windows ih =>
      obtain ⟨hid, hids⟩ := List.ne_and_not_mem_of_not_mem_cons h
      rw [Tables.replaceWindows, ih hids, getElem?_replaceWindow_of_ne hid]

theorem getElem?_replaceWindows_tabs_of_not_mem {key : TabKey}
    (h : key.window ∉ windows.map (·.windowId)) (position : Nat) :
    (tables.replaceWindows windows position).tabs[key]? = tables.tabs[key]? := by
  induction windows generalizing tables position with
  | nil => rfl
  | cons window windows ih =>
      obtain ⟨hid, hids⟩ := List.ne_and_not_mem_of_not_mem_cons h
      rw [Tables.replaceWindows, ih hids, getElem?_replaceWindow_tabs_of_ne hid]

/-- Replacing other windows afterwards cannot undo the replacement of a window. -/
theorem replaceWindow_eq_self_of_replaceWindows {window : WindowState} {position : Nat}
    (hnew : window.windowId ∉ windows.map (·.windowId))
    (h : (tables.replaceWindow window position).replaceWindows windows (position + 1) = tables) :
    tables.replaceWindow window position = tables := by
  ext1 x
  · by_cases hx : x = window.windowId
    · subst hx
      rw [← getElem?_replaceWindows_of_not_mem hnew, h]
    · exact getElem?_replaceWindow_of_ne hx position
  · by_cases hx : x.window = window.windowId
    · rw [← getElem?_replaceWindows_tabs_of_not_mem (hx ▸ hnew), h]
    · exact getElem?_replaceWindow_tabs_of_ne hx position

end Frame

/-- The window loop replaces every window of the snapshot. -/
theorem applyWindowList_spec {windows : List WindowState} (position : Nat) {tables : Tables}
    (stats : ApplyStats) (hids : (windows.map (·.windowId)).Nodup) (hc : Consistent tables)
    (hready : ∀ window ∈ windows, WindowReady tables window)
    (hposition : position + windows.length ≤ 2 ^ 63) :
    ∃ stats', applyWindowList windows position tables stats =
        .ok (tables.replaceWindows windows position, stats') ∧
      stats.total ≤ stats'.total ∧
      (stats'.total = stats.total ↔ tables.replaceWindows windows position = tables) := by
  induction windows generalizing position tables stats with
  | nil => exact ⟨stats, rfl, le_rfl, by simp [Tables.replaceWindows]⟩
  | cons window windows ih =>
      obtain ⟨hnew, hrest⟩ := List.nodup_cons.mp hids
      rw [List.length_cons] at hposition
      obtain ⟨written, stats₁, stats₂, hwindow, htabs, hc', hle, hsame⟩ :=
        applyRound_spec (hready window List.mem_cons_self) hc position stats
      have hready' : ∀ other ∈ windows,
          WindowReady (tables.replaceWindow window position) other := by
        intro other hother
        refine (hready other (List.mem_cons_of_mem window hother)).replaceWindow ?_ position
        exact fun heq => hnew (List.mem_map.mpr ⟨other, hother, heq⟩)
      obtain ⟨stats₃, hrun, hle', hsame'⟩ :=
        ih (position + 1) stats₂ hrest hc' hready' (by omega)
      refine ⟨stats₃, ?_, Nat.le_trans hle hle', ?_⟩
      · simp only [applyWindowList, i64TryFrom_of_lt "Window position"
          (by omega : position < 2 ^ 63), ok_bind, hwindow, htabs]
        exact hrun
      · have hsplit : stats₃.total = stats.total ↔
            stats₂.total = stats.total ∧ stats₃.total = stats₂.total := by omega
        rw [hsplit, hsame, hsame', Tables.replaceWindows]
        constructor
        · rintro ⟨hfirst, hothers⟩
          rw [hothers, hfirst]
        · intro h
          have hfirst := replaceWindow_eq_self_of_replaceWindows hnew h
          exact ⟨hfirst, by rw [h, hfirst]⟩

/-! ## Closed windows -/

theorem deleteWindow_eq_self {tables : Tables} {id : Int} (hc : Consistent tables)
    (h : id ∉ tables.windows) : (tables.deleteWindow id).1 = tables := by
  ext1 x
  · rw [Tables.getElem?_deleteWindow_windows]
    split
    · rename_i hx
      rw [hx, Std.ExtTreeMap.getElem?_eq_none h]
    · rfl
  · rw [Tables.getElem?_deleteWindow_tabs]
    split
    · rename_i hx
      cases hrow : tables.tabs[x]? with
      | none => rfl
      | some row => exact absurd (hx ▸ hc.parent x row hrow) h
    · rfl

/-- Deleting the closed windows counts nothing exactly when none is stored. -/
theorem deleteClosedWindows_spec (closed : List Int) {tables : Tables} (stats : ApplyStats)
    (hc : Consistent tables) :
    (deleteClosedWindows closed tables stats).1 = tables.deleteWindows closed ∧
      stats.total ≤ (deleteClosedWindows closed tables stats).2.total ∧
      ((deleteClosedWindows closed tables stats).2.total = stats.total ↔
        tables.deleteWindows closed = tables) := by
  induction closed generalizing tables stats with
  | nil => exact ⟨rfl, le_rfl, by simp [deleteClosedWindows, Tables.deleteWindows]⟩
  | cons id closed ih =>
      obtain ⟨htables, hle, hsame⟩ := ih
        { stats with windowsDeleted := stats.windowsDeleted + (tables.deleteWindow id).2 }
        (hc.deleteWindow id)
      have htotal : ApplyStats.total
          { stats with windowsDeleted := stats.windowsDeleted + (tables.deleteWindow id).2 } =
            stats.total + (tables.deleteWindow id).2 := by
        simp only [ApplyStats.total]
        omega
      have hcons : tables.deleteWindows (id :: closed) =
          (tables.deleteWindow id).1.deleteWindows closed := rfl
      rw [htotal] at hle hsame
      refine ⟨htables, ?_, ?_⟩
      · simp only [deleteClosedWindows]
        omega
      · simp only [deleteClosedWindows, hcons]
        by_cases hstored : id ∈ tables.windows
        · have hcount : (tables.deleteWindow id).2 = 1 := if_pos hstored
          have hne : (tables.deleteWindow id).1.deleteWindows closed ≠ tables := by
            intro h
            rw [← h, Std.ExtTreeMap.mem_iff_isSome_getElem?, ← hcons,
              Tables.getElem?_deleteWindows_windows, if_pos List.mem_cons_self] at hstored
            cases hstored
          simp only [hne, iff_false]
          omega
        · have hcount : (tables.deleteWindow id).2 = 0 := if_neg hstored
          rw [deleteWindow_eq_self hc hstored] at hsame ⊢
          rw [← hsame]
          omega

/-! ## The whole apply -/

section Apply

variable {db : StateDb} {snapshot : WindowsState}

theorem mem_closedWindows {id : Int} :
    id ∈ db.closedWindows snapshot ↔ id ∈ db.ownedWindows ∧ id ∉ snapshot.ids := by
  rw [StateDb.closedWindows, Std.ExtTreeSet.mem_toList, Std.ExtTreeSet.mem_diff_iff,
    Std.ExtTreeSet.mem_ofList, List.contains_iff_mem]

theorem deleteWindows_replaceWindows_eq (db : StateDb) (hids : snapshot.ids.Nodup) :
    (db.tables.replaceWindows snapshot.windows 0).deleteWindows (db.closedWindows snapshot) =
      db.rewriteFromScratch snapshot := by
  have hopen : ∀ window ∈ snapshot.windows, window.windowId ∉ db.closedWindows snapshot :=
    fun window hwindow hmem => (mem_closedWindows.mp hmem).2 (List.mem_map_of_mem hwindow)
  rw [Tables.replaceWindows_eq hids, Tables.deleteWindows_insertWindows hopen,
    ← Tables.deleteWindows_append, StateDb.rewriteFromScratch]
  congr 1
  refine Tables.deleteWindows_congr (fun id => ?_) _
  have hnamed : snapshot.windows.map (·.windowId) = snapshot.ids := rfl
  rw [hnamed, List.mem_append, List.mem_append, mem_closedWindows, Std.ExtTreeSet.mem_toList]
  tauto

/-- Deleting closed windows cannot undo the replacement of the named ones. -/
theorem replaceWindows_eq_self_of_deleteWindows
    (h : (db.tables.replaceWindows snapshot.windows 0).deleteWindows (db.closedWindows snapshot) =
      db.tables) : db.tables.replaceWindows snapshot.windows 0 = db.tables := by
  have hkept : ∀ id ∈ snapshot.ids, id ∉ db.closedWindows snapshot :=
    fun id hid hmem => (mem_closedWindows.mp hmem).2 hid
  ext1 x
  · by_cases hx : x ∈ snapshot.ids
    · have hrow := congrArg (fun tables : Tables => tables.windows[x]?) h
      simpa only [Tables.getElem?_deleteWindows_windows, if_neg (hkept x hx)] using hrow
    · exact getElem?_replaceWindows_of_not_mem hx 0
  · by_cases hx : x.window ∈ snapshot.ids
    · have hrow := congrArg (fun tables : Tables => tables.tabs[x]?) h
      simpa only [Tables.getElem?_deleteWindows_tabs, if_neg (hkept x.window hx)] using hrow
    · exact getElem?_replaceWindows_tabs_of_not_mem hx 0

/-- Apply succeeds, writes what the rewrite would, and counts row operations
exactly when a row changes. -/
theorem apply_spec (db : StateDb) (hc : Consistent db.tables) (hstorable : Storable snapshot)
    (hcollision : NoCollision db.tables snapshot) :
    ∃ stats, db.apply snapshot =
        .ok (⟨db.rewriteFromScratch snapshot, Std.ExtTreeSet.ofList snapshot.ids⟩, stats) ∧
      (stats.isEmpty = true ↔ db.rewriteFromScratch snapshot = db.tables) := by
  have hready : ∀ window ∈ snapshot.windows, WindowReady db.tables window := fun window hwindow =>
    ⟨hstorable.window window hwindow, hcollision window hwindow⟩
  obtain ⟨stats₁, hrun, -, hsame₁⟩ :=
    applyWindowList_spec 0 {} hstorable.windowIds hc hready
      (by have := hstorable.windowCount; omega)
  obtain ⟨htables, hle, hsame₂⟩ := deleteClosedWindows_spec (db.closedWindows snapshot) stats₁
    (hc.applyWindowList hrun)
  have hrewrite := deleteWindows_replaceWindows_eq db hstorable.windowIds
  refine ⟨(deleteClosedWindows (db.closedWindows snapshot)
    (db.tables.replaceWindows snapshot.windows 0) stats₁).2, ?_, ?_⟩
  · rw [StateDb.apply, hrun, ok_bind, ← hrewrite, ← htables]
    rfl
  · have hzero : ApplyStats.total {} = 0 := rfl
    rw [hzero] at hsame₁
    rw [ApplyStats.isEmpty_iff]
    constructor
    · intro hempty
      have hfirst : db.tables.replaceWindows snapshot.windows 0 = db.tables :=
        hsame₁.mp (by omega)
      rw [← hrewrite, hsame₂.mp (by omega), hfirst]
    · intro hunchanged
      rw [← hrewrite] at hunchanged
      have hfirst := replaceWindows_eq_self_of_deleteWindows hunchanged
      have hstart := hsame₁.mpr hfirst
      rw [hsame₂.mpr (hunchanged.trans hfirst.symm), hstart]

end Apply

end Fulgur
