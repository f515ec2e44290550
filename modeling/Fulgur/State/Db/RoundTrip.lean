import Fulgur.State.Db.Read
import Fulgur.State.Db.Refinement

/-! # What a launch reads back

Loading a consistent database always succeeds. After an apply it returns the
snapshot, in its order and with its tabs, next to the windows that neither this
handle owned nor the snapshot names, which read as they did before.
-/

namespace Fulgur

open Fallible

/-! ## Loading without failure -/

def decodedRemote (row : StoredTab) : Option SerializedRemoteSpec :=
  row.remoteHost.bind fun host => row.remotePort.map fun port =>
    ⟨host, port, row.remoteUser.getD "", row.remotePath.getD ""⟩

def decodedTab (row : Int × TabRow) : TabState where
  tabId := row.1.toNat
  title := row.2.stored.title
  filePath := row.2.stored.filePath.map pathFromBytes
  content := row.2.content.map .text
  lastSaved := row.2.stored.lastSaved
  remote := decodedRemote row.2.stored
  logView := row.2.stored.logView
  colorTag := row.2.stored.colorTag

def loadedTabs (tables : Tables) (windowId : Int) : List TabState :=
  (Listing.orderBy (·.stored.position) (tables.tabsOf windowId)).map decodedTab

def loadedWindow (tables : Tables) (row : Int × StoredWindow) : WindowState where
  windowId := row.1
  tabs := loadedTabs tables row.1
  activeTabIndex := activeIndex row.2.activeTabId (loadedTabs tables row.1)
  windowBounds := windowBoundsFromRow row.2

def loadedWindows (tables : Tables) : List WindowState :=
  (Listing.orderBy (·.position) tables.windows.toList).map (loadedWindow tables)

theorem tabStateFromRow_eq {row : Int × TabRow} (h : RowConsistent row.2) :
    tabStateFromRow row = .ok (decodedTab row) := by
  have hremote : remoteFromRow row.2.stored = .ok (decodedRemote row.2.stored) := by
    unfold remoteFromRow decodedRemote
    cases hhost : row.2.stored.remoteHost with
    | none => rfl
    | some host =>
        obtain ⟨port, hport⟩ := Option.isSome_iff_exists.mp (h.port (by simp [hhost]))
        simp [hport]
  rw [tabStateFromRow, hremote]
  rfl

theorem loadTabs_eq {tables : Tables} (hc : Consistent tables) (windowId : Int) :
    loadTabs tables windowId = .ok (loadedTabs tables windowId) := by
  refine mapM_ok_of_forall fun row hrow => tabStateFromRow_eq ?_
  rw [Listing.mem_orderBy] at hrow
  exact hc.row _ _ (Tables.mem_tabsOf.mp hrow)

theorem load_eq {db : StateDb} (hc : Consistent db.tables) :
    db.load = .ok ⟨loadedWindows db.tables⟩ := by
  have hwindows : (Listing.orderBy (·.position) db.tables.windows.toList).mapM
      (loadWindow db.tables) = .ok (loadedWindows db.tables) := by
    refine mapM_ok_of_forall fun row _ => ?_
    rw [loadWindow, loadTabs_eq hc]
    rfl
  rw [StateDb.load, hwindows]
  rfl

theorem nodup_windowKeys (tables : Tables) : (tables.windows.toList.map Prod.fst).Nodup := by
  rw [Std.ExtTreeMap.map_fst_toList_eq_keys]
  exact tables.windows.nodup_keys

theorem mem_loadedWindows {tables : Tables} {window : WindowState} :
    window ∈ loadedWindows tables ↔
      ∃ row, tables.windows[window.windowId]? = some row ∧
        loadedWindow tables (window.windowId, row) = window := by
  simp only [loadedWindows, List.mem_map, Listing.mem_orderBy, Prod.exists,
    Std.ExtTreeMap.mem_toList_iff_getElem?_eq_some]
  constructor
  · rintro ⟨id, row, hrow, rfl⟩
    exact ⟨row, hrow, rfl⟩
  · rintro ⟨row, hrow, hwindow⟩
    exact ⟨_, row, hrow, hwindow⟩

theorem filter_loadedWindows (tables : Tables) (keep : Int → Bool) :
    (loadedWindows tables).filter (fun window => keep window.windowId) =
      (Listing.orderBy (·.position) (tables.windows.toList.filter fun row => keep row.1)).map
        (loadedWindow tables) := by
  rw [loadedWindows, List.filter_map, ← Listing.filter_orderBy _ (nodup_windowKeys tables)]
  rfl

private theorem nodup_filter_keys {ρ : Type} {rows : List (Int × ρ)}
    (h : (rows.map Prod.fst).Nodup) (keep : Int × ρ → Bool) :
    ((rows.filter keep).map Prod.fst).Nodup :=
  ((List.filter_sublist (p := keep)).map Prod.fst).nodup h

/-! ## The windows of the snapshot -/

/-- A window's tab rows with their ids, in display order. -/
def tabListing (windowId : Int) (tabs : List TabState) : List (Int × TabRow) :=
  (tabEntries windowId tabs 0).map fun entry => (entry.1.id, entry.2)

theorem decodedTab_tabRow (windowId : Int) (tab : TabState) (position : Nat) :
    decodedTab ((tabKey windowId tab).id, tabRow tab position) = tab.flatten := by
  cases tab with
  | mk tabId title filePath content lastSaved remote logView colorTag =>
      simp only [decodedTab, tabRow, tabKey, storedTabFromSnapshot, TabState.flatten,
        Int.toNat_natCast, decodedRemote, Option.map_map, TabState.mk.injEq, true_and, and_true]
      refine ⟨?_, rfl, ?_⟩
      · cases filePath <;> rfl
      · cases remote <;> rfl

/-- The listing of one snapshot window's tab rows is the snapshot's own order. -/
theorem loadedTabs_rewrite {db : StateDb} {snapshot : WindowsState} {window : WindowState}
    (hstorable : Storable snapshot) (hwindow : window ∈ snapshot.windows) :
    loadedTabs (db.rewriteFromScratch snapshot) window.windowId = window.tabs.map .flatten := by
  have hkeys : ((tabListing window.windowId window.tabs).map Prod.fst).Nodup := by
    have hnodup := nodup_tabKeys window.windowId
      (hstorable.window window hwindow).tabIds
    rw [← map_fst_tabEntries window.windowId window.tabs 0] at hnodup
    rw [tabListing, List.map_map]
    rw [List.Nodup, List.pairwise_map] at hnodup ⊢
    refine hnodup.imp_of_mem fun {a b} ha hb hne heq => hne ?_
    obtain ⟨i, tab, -, rfl⟩ := mem_tabEntries.mp ha
    obtain ⟨j, other, -, rfl⟩ := mem_tabEntries.mp hb
    simpa [tabKey] using heq
  have hmem : ∀ row, row ∈ (db.rewriteFromScratch snapshot).tabsOf window.windowId ↔
      row ∈ tabListing window.windowId window.tabs := by
    rintro ⟨id, row⟩
    rw [Tables.mem_tabsOf, tabListing, List.mem_map]
    constructor
    · intro hrow
      by_cases hnamed : ∃ tab ∈ window.tabs,
          tabKey window.windowId tab = TabKey.mk window.windowId id
      · obtain ⟨tab, htab, heq⟩ := hnamed
        obtain ⟨i, hi⟩ := List.mem_iff_getElem?.mp htab
        rw [← heq, getElem?_rewrite_tab hstorable hwindow hi] at hrow
        cases hrow
        have hid : (tab.tabId : Int) = id := congrArg TabKey.id heq
        exact ⟨_, mem_tabEntries.mpr ⟨i, tab, hi, rfl⟩, by rw [← hid, Nat.zero_add]; rfl⟩
      · have hgone := getElem?_rewrite_not_tab db hstorable.windowIds hwindow
          (rfl : (TabKey.mk window.windowId id).window = window.windowId)
          fun tab htab heq => hnamed ⟨tab, htab, heq⟩
        rw [hgone] at hrow
        cases hrow
    · rintro ⟨entry, hentry, heq⟩
      obtain ⟨i, tab, hi, rfl⟩ := mem_tabEntries.mp hentry
      cases heq
      rw [Nat.zero_add]
      exact getElem?_rewrite_tab hstorable hwindow hi
  have hsorted : (tabListing window.windowId window.tabs).Pairwise
      (Listing.Before (·.stored.position)) := by
    refine Listing.pairwise_before_of_positions _ ?_
    rw [tabListing, List.pairwise_map]
    refine Listing.pairwise_numbered (fun tab other i j hij => ?_) _ _
    exact Int.ofNat_lt.mpr hij
  rw [loadedTabs, Listing.orderBy_eq_of_mem_iff _ (Tables.nodup_tabsOf _ _) hkeys hmem hsorted,
    tabListing, List.map_map]
  refine Listing.map_numbered ?_ 0
  intro tab _ i
  exact decodedTab_tabRow window.windowId tab i

/-- The active tab is found again at its own position. -/
theorem findIdx?_flatten {tabs : List TabState} (hids : (tabs.map (·.tabId)).Nodup) {index : Nat}
    {tab : TabState} (htab : tabs[index]? = some tab) :
    (tabs.map TabState.flatten).findIdx? (fun other => other.tabId = tab.tabId) = some index := by
  obtain ⟨hlt, hget⟩ := List.getElem?_eq_some_iff.mp htab
  rw [List.findIdx?_eq_some_iff_getElem]
  refine ⟨by simpa using hlt, by simp [TabState.flatten, hget], ?_⟩
  intro j hj
  have hne : tabs[j].tabId ≠ tab.tabId := by
    intro heq
    have hj' : j < (tabs.map (·.tabId)).length := by
      rw [List.length_map]
      omega
    have hsame : (tabs.map (·.tabId))[j]? = (tabs.map (·.tabId))[index]? := by
      rw [List.getElem?_map, List.getElem?_map, htab, List.getElem?_eq_getElem (by omega)]
      exact congrArg some heq
    have hindex := (List.getElem?_inj hj' hids).mp hsame
    omega
  simpa [TabState.flatten] using hne

theorem activeIndex_flatten {window : WindowState} (hids : (window.tabs.map (·.tabId)).Nodup) :
    activeIndex ((activeTab window).map fun tab => (tab.tabId : Int)) (window.tabs.map .flatten) =
      window.activeTabIndex.filter (· < window.tabs.length) := by
  rw [activeTab]
  cases window.activeTabIndex with
  | none => rfl
  | some index =>
      rw [Option.bind_some, Option.filter_some]
      cases htab : window.tabs[index]? with
      | none =>
          have hout := List.getElem?_eq_none_iff.mp htab
          rw [if_neg (by simpa using hout)]
          rfl
      | some tab =>
          have hlt := (List.getElem?_eq_some_iff.mp htab).1
          rw [if_pos (by simpa using hlt), Option.map_some, activeIndex, Option.bind_some,
            usizeTryFrom_natCast, Option.bind_some]
          exact findIdx?_flatten hids htab

theorem loadedWindow_rewrite {db : StateDb} {snapshot : WindowsState} {window : WindowState}
    (hstorable : Storable snapshot) (hwindow : window ∈ snapshot.windows) (position : Nat) :
    loadedWindow (db.rewriteFromScratch snapshot) (window.windowId, windowRow window position) =
      window.normalise := by
  rw [loadedWindow, loadedTabs_rewrite hstorable hwindow]
  simp only [windowRow, storedWindowFromSnapshot,
    activeIndex_flatten (hstorable.window window hwindow).tabIds]
  rfl

/-- The window rows of a snapshot with their ids, in restore order. -/
def windowListing (windows : List WindowState) : List (Int × StoredWindow) :=
  Listing.numbered (fun window position => (window.windowId, windowRow window position)) windows 0

theorem map_loadedWindow_windowListing {db : StateDb} {snapshot : WindowsState}
    (hstorable : Storable snapshot) :
    (windowListing snapshot.windows).map (loadedWindow (db.rewriteFromScratch snapshot)) =
      snapshot.windows.map .normalise := by
  refine Listing.map_numbered ?_ 0
  intro window hwindow i
  exact loadedWindow_rewrite hstorable hwindow i

/-- The selected windows of the snapshot are listed in its own order. -/
theorem orderBy_rewrite {db : StateDb} {snapshot : WindowsState} (hids : snapshot.ids.Nodup) :
    Listing.orderBy (·.position)
        ((db.rewriteFromScratch snapshot).windows.toList.filter fun row => row.1 ∈ snapshot.ids) =
      windowListing snapshot.windows := by
  refine Listing.orderBy_eq_of_mem_iff _ (nodup_filter_keys (nodup_windowKeys _) _) ?_ ?_ ?_
  · have hkeys : (windowListing snapshot.windows).map Prod.fst = snapshot.ids := by
      refine Listing.map_numbered ?_ 0
      intro window _ i
      rfl
    rw [hkeys]
    exact hids
  · rintro ⟨id, row⟩
    rw [List.mem_filter, Std.ExtTreeMap.mem_toList_iff_getElem?_eq_some, windowListing,
      Listing.mem_numbered, decide_eq_true_eq]
    constructor
    · rintro ⟨hrow, hid⟩
      obtain ⟨window, hwindow, rfl⟩ := List.mem_map.mp hid
      obtain ⟨i, hi⟩ := List.mem_iff_getElem?.mp hwindow
      rw [getElem?_rewrite_window hids hi] at hrow
      cases hrow
      exact ⟨i, window, hi, by rw [Nat.zero_add]⟩
    · rintro ⟨i, window, hi, heq⟩
      cases heq
      rw [Nat.zero_add]
      exact ⟨getElem?_rewrite_window hids hi, List.mem_map_of_mem (List.mem_of_getElem? hi)⟩
  · refine Listing.pairwise_before_of_positions _ ?_
    refine Listing.pairwise_numbered ?_ _ _
    intro window other i j hij
    exact Int.ofNat_lt.mpr hij

theorem filter_written_rewrite (db : StateDb) {snapshot : WindowsState}
    (hstorable : Storable snapshot) :
    (loadedWindows (db.rewriteFromScratch snapshot)).filter
        (fun window => window.windowId ∈ snapshot.ids) = snapshot.windows.map .normalise := by
  rw [filter_loadedWindows (db.rewriteFromScratch snapshot) fun id => id ∈ snapshot.ids,
    orderBy_rewrite hstorable.windowIds]
  exact map_loadedWindow_windowListing hstorable

/-! ## The other windows -/

/-- A window that this handle neither owned nor is asked to write. -/
def foreign (owned : Std.ExtTreeSet Int) (snapshot : WindowsState) (id : Int) : Bool :=
  id ∉ owned ∧ id ∉ snapshot.ids

section Foreign

variable (db : StateDb) {snapshot : WindowsState}

theorem loadedTabs_foreign {id : Int} (h : foreign db.ownedWindows snapshot id = true) :
    loadedTabs (db.rewriteFromScratch snapshot) id = loadedTabs db.tables id := by
  obtain ⟨howned, hid⟩ := of_decide_eq_true h
  have hmem :
    ∀ row, row ∈ (db.rewriteFromScratch snapshot).tabsOf id ↔ row ∈ db.tables.tabsOf id := by
    rintro ⟨tabId, row⟩
    rw [Tables.mem_tabsOf, Tables.mem_tabsOf, getElem?_rewrite_other_tab hid, if_neg howned]
  rw [loadedTabs, loadedTabs,
    Listing.orderBy_congr _ (Tables.nodup_tabsOf _ _) (Tables.nodup_tabsOf _ _) hmem]

theorem filter_foreign_rewrite :
    (loadedWindows (db.rewriteFromScratch snapshot)).filter
        (fun window => foreign db.ownedWindows snapshot window.windowId) =
      (loadedWindows db.tables).filter
        (fun window => foreign db.ownedWindows snapshot window.windowId) := by
  have hmem : ∀ row, row ∈ ((db.rewriteFromScratch snapshot).windows.toList.filter
      fun row => foreign db.ownedWindows snapshot row.1) ↔
      row ∈ (db.tables.windows.toList.filter
        fun row => foreign db.ownedWindows snapshot row.1) := by
    rintro ⟨id, row⟩
    rw [List.mem_filter, List.mem_filter, Std.ExtTreeMap.mem_toList_iff_getElem?_eq_some,
      Std.ExtTreeMap.mem_toList_iff_getElem?_eq_some]
    refine and_congr_left fun h => ?_
    obtain ⟨howned, hid⟩ := of_decide_eq_true h
    rw [getElem?_rewrite_other_window hid, if_neg howned]
  rw [filter_loadedWindows, filter_loadedWindows,
    Listing.orderBy_congr _ (nodup_filter_keys (nodup_windowKeys _) _)
      (nodup_filter_keys (nodup_windowKeys _) _) hmem]
  refine List.map_congr_left fun row hrow => ?_
  rw [Listing.mem_orderBy, List.mem_filter] at hrow
  rw [loadedWindow, loadedWindow, loadedTabs_foreign db hrow.2]

theorem not_mem_owned_of_loaded {window : WindowState}
    (h : window ∈ loadedWindows (db.rewriteFromScratch snapshot))
    (howned : window.windowId ∈ db.ownedWindows) : window.windowId ∈ snapshot.ids := by
  by_contra hid
  obtain ⟨row, hrow, -⟩ := mem_loadedWindows.mp h
  rw [getElem?_rewrite_other_window hid, if_pos howned] at hrow
  cases hrow

end Foreign

/-- Session round trip: after an apply to a reachable database, a load returns
the windows of the snapshot as they were given (content as one string, an active
index only where it names a tab), no owned window that the snapshot left out,
and every other window as a load before the apply returned it. -/
theorem load_apply {tables : Tables} (owned : Std.ExtTreeSet Int) {snapshot : WindowsState}
    (hreachable : Reachable tables) (hstorable : Storable snapshot)
    (hcollision : NoCollision tables snapshot) :
    ∃ db stats before after, StateDb.apply ⟨tables, owned⟩ snapshot = .ok (db, stats) ∧
      StateDb.load ⟨tables, owned⟩ = .ok before ∧ db.load = .ok after ∧
      after.windows.filter (fun window => window.windowId ∈ snapshot.ids) =
        snapshot.windows.map .normalise ∧
      (∀ window ∈ after.windows, window.windowId ∈ owned → window.windowId ∈ snapshot.ids) ∧
      after.windows.filter (fun window => foreign owned snapshot window.windowId) =
        before.windows.filter (fun window => foreign owned snapshot window.windowId) := by
  obtain ⟨stats, hrun, -⟩ :=
    apply_spec ⟨tables, owned⟩ hreachable.consistent hstorable hcollision
  have hafter := Consistent.apply hreachable.consistent hrun
  refine ⟨_, stats, ⟨loadedWindows tables⟩, _, hrun, load_eq hreachable.consistent,
    load_eq hafter, ?_, ?_, ?_⟩
  · exact filter_written_rewrite ⟨tables, owned⟩ hstorable
  · intro window hwindow howned
    exact not_mem_owned_of_loaded ⟨tables, owned⟩ hwindow howned
  · exact filter_foreign_rewrite ⟨tables, owned⟩

/-- A window that another handle wrote stays next to the one that is written. -/
theorem load_apply_sample :
    ∃ db stats before after,
      StateDb.apply ⟨sampleTables, sampleOwned⟩ sampleChanged = .ok (db, stats) ∧
      StateDb.load ⟨sampleTables, sampleOwned⟩ = .ok before ∧ db.load = .ok after ∧
      after.windows.filter (fun window => window.windowId ∈ sampleChanged.ids) =
        sampleChanged.windows.map .normalise ∧
      (∀ window ∈ after.windows, window.windowId ∈ sampleOwned →
        window.windowId ∈ sampleChanged.ids) ∧
      after.windows.filter (fun window => foreign sampleOwned sampleChanged window.windowId) =
        before.windows.filter (fun window => foreign sampleOwned sampleChanged window.windowId) :=
  load_apply _ reachable_sampleTables (by decide) (by decide)

end Fulgur
