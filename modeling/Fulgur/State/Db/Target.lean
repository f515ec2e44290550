import Fulgur.Library.Listing
import Fulgur.State.Db.Consistency

/-! # What a snapshot asks the tables to hold

The rows a snapshot asks for, written the naive way: delete the windows that go
away or are named again, then insert every window and tab afresh. Deleting one
window commutes with inserting another, so windows can equally be replaced one
after the other.
-/

namespace Fulgur

def tabRow (tab : TabState) (position : Nat) : TabRow where
  stored := storedTabFromSnapshot tab position
  content := tab.content.map (·.toText)
  contentHash := (textColumns (tab.content.map (·.toText))).1
  contentLen := (textColumns (tab.content.map (·.toText))).2

def tabKey (windowId : Int) (tab : TabState) : TabKey := ⟨windowId, tab.tabId⟩

def tabEntries (windowId : Int) : List TabState → Nat → List (TabKey × TabRow) :=
  Listing.numbered fun tab position => (tabKey windowId tab, tabRow tab position)

def windowRow (window : WindowState) (position : Nat) : StoredWindow :=
  storedWindowFromSnapshot window position ((activeTab window).map fun tab => (tab.tabId : Int))

namespace Tables

def deleteWindows (tables : Tables) (ids : List Int) : Tables :=
  ids.foldl (fun tables id => (tables.deleteWindow id).1) tables

def insertWindow (tables : Tables) (window : WindowState) (position : Nat) : Tables where
  windows := tables.windows.insert window.windowId (windowRow window position)
  tabs := tables.tabs.insertMany (tabEntries window.windowId window.tabs 0)

def insertWindows : Tables → List WindowState → Nat → Tables
  | tables, [], _ => tables
  | tables, window :: windows, position =>
      (tables.insertWindow window position).insertWindows windows (position + 1)

def replaceWindow (tables : Tables) (window : WindowState) (position : Nat) : Tables :=
  (tables.deleteWindow window.windowId).1.insertWindow window position

def replaceWindows : Tables → List WindowState → Nat → Tables
  | tables, [], _ => tables
  | tables, window :: windows, position =>
      (tables.replaceWindow window position).replaceWindows windows (position + 1)

end Tables

def StateDb.rewriteFromScratch (db : StateDb) (snapshot : WindowsState) : Tables :=
  (db.tables.deleteWindows (db.ownedWindows.toList ++ snapshot.ids)).insertWindows
    snapshot.windows 0

/-! ## The entries of one window -/

theorem tabEntries_cons (windowId : Int) (tab : TabState) (tabs : List TabState) (position : Nat) :
    tabEntries windowId (tab :: tabs) position =
      (tabKey windowId tab, tabRow tab position) :: tabEntries windowId tabs (position + 1) := rfl

theorem mem_tabEntries {windowId : Int} {tabs : List TabState} {position : Nat}
    {entry : TabKey × TabRow} : entry ∈ tabEntries windowId tabs position ↔
      ∃ i tab, tabs[i]? = some tab ∧ entry = (tabKey windowId tab, tabRow tab (position + i)) :=
  Listing.mem_numbered

theorem map_fst_tabEntries (windowId : Int) (tabs : List TabState) (position : Nat) :
    (tabEntries windowId tabs position).map Prod.fst = tabs.map (tabKey windowId) := by
  refine Listing.map_numbered ?_ position
  intro tab _ i
  rfl

theorem tabKey_injective {windowId : Int} {a b : TabState}
    (h : tabKey windowId a = tabKey windowId b) : a.tabId = b.tabId := by
  have hid : (a.tabId : Int) = b.tabId := congrArg TabKey.id h
  omega

theorem nodup_tabKeys (windowId : Int) {tabs : List TabState} (h : (tabs.map (·.tabId)).Nodup) :
    (tabs.map (tabKey windowId)).Nodup := by
  rw [List.Nodup, List.pairwise_map] at h ⊢
  exact h.imp fun hne heq => hne (tabKey_injective heq)

private theorem pairwise_tabEntries {windowId : Int} {tabs : List TabState} (position : Nat)
    (h : (tabs.map (·.tabId)).Nodup) :
    (tabEntries windowId tabs position).Pairwise fun a b => ¬compare a.1 b.1 = .eq := by
  have hkeys : ((tabEntries windowId tabs position).map Prod.fst).Nodup := by
    rw [map_fst_tabEntries]
    exact nodup_tabKeys windowId h
  rw [List.Nodup, List.pairwise_map] at hkeys
  exact hkeys.imp fun hne heq => hne (TabKey.eq_of_compare heq)

/-! ## Rows after deleting and inserting windows -/

namespace Tables

theorem getElem?_insertWindow_windows (tables : Tables) (window : WindowState) (position : Nat)
    (id : Int) : (tables.insertWindow window position).windows[id]? =
      if id = window.windowId then some (windowRow window position) else tables.windows[id]? := by
  simp only [insertWindow, Std.ExtTreeMap.getElem?_insert, Std.compare_eq_iff_eq]
  simp only [eq_comm (a := window.windowId)]

theorem getElem?_insertWindow_of_tab {tables : Tables} {window : WindowState} {position i : Nat}
    {tab : TabState} (hids : (window.tabs.map (·.tabId)).Nodup)
    (htab : window.tabs[i]? = some tab) :
    (tables.insertWindow window position).tabs[tabKey window.windowId tab]? =
      some (tabRow tab i) := by
  refine Std.ExtTreeMap.getElem?_insertMany_list_of_mem Std.ReflCmp.compare_self
    (pairwise_tabEntries 0 hids) ?_
  exact mem_tabEntries.mpr ⟨i, tab, htab, by rw [Nat.zero_add]⟩

theorem getElem?_insertWindow_of_not_tab {tables : Tables} {window : WindowState} {position : Nat}
    {key : TabKey} (hkey : ∀ tab ∈ window.tabs, tabKey window.windowId tab ≠ key) :
    (tables.insertWindow window position).tabs[key]? = tables.tabs[key]? := by
  refine Std.ExtTreeMap.getElem?_insertMany_list_of_contains_eq_false ?_
  rw [map_fst_tabEntries, ← Bool.not_eq_true, List.contains_iff_mem]
  rintro hmem
  obtain ⟨tab, htab, heq⟩ := List.mem_map.mp hmem
  exact hkey tab htab heq

theorem getElem?_insertWindow_of_window_ne {tables : Tables} {window : WindowState}
    {position : Nat} {key : TabKey} (hkey : key.window ≠ window.windowId) :
    (tables.insertWindow window position).tabs[key]? = tables.tabs[key]? :=
  getElem?_insertWindow_of_not_tab fun tab _ h => hkey (by rw [← h]; rfl)

theorem getElem?_deleteWindows_windows (tables : Tables) (ids : List Int) (id : Int) :
    (tables.deleteWindows ids).windows[id]? = if id ∈ ids then none else tables.windows[id]? := by
  induction ids generalizing tables with
  | nil => simp [deleteWindows]
  | cons closed ids ih =>
      rw [deleteWindows, List.foldl_cons, ← deleteWindows, ih, getElem?_deleteWindow_windows]
      by_cases hmem : id ∈ ids <;> by_cases heq : id = closed <;> simp [hmem, heq]

theorem getElem?_deleteWindows_tabs (tables : Tables) (ids : List Int) (key : TabKey) :
    (tables.deleteWindows ids).tabs[key]? =
      if key.window ∈ ids then none else tables.tabs[key]? := by
  induction ids generalizing tables with
  | nil => simp [deleteWindows]
  | cons closed ids ih =>
      rw [deleteWindows, List.foldl_cons, ← deleteWindows, ih, getElem?_deleteWindow_tabs]
      by_cases hmem : key.window ∈ ids <;> by_cases heq : key.window = closed <;> simp [hmem, heq]

/-! ## Deleting commutes with inserting other windows -/

theorem deleteWindow_insertWindow {window : WindowState} {id : Int} (hne : window.windowId ≠ id)
    (tables : Tables) (position : Nat) :
    ((tables.insertWindow window position).deleteWindow id).1 =
      (tables.deleteWindow id).1.insertWindow window position := by
  ext1 other
  · rw [getElem?_deleteWindow_windows, getElem?_insertWindow_windows,
      getElem?_insertWindow_windows, getElem?_deleteWindow_windows]
    by_cases hid : other = id
    · subst hid
      simp [hne.symm]
    · simp [hid]
  · by_cases hwindow : other.window = window.windowId
    · have hother : other.window ≠ id := fun h => hne (hwindow ▸ h)
      rw [getElem?_deleteWindow_tabs, if_neg hother]
      simp only [insertWindow, Std.ExtTreeMap.getElem?_insertMany_list]
      rw [getElem?_deleteWindow_tabs, if_neg hother]
    · rw [getElem?_deleteWindow_tabs, getElem?_insertWindow_of_window_ne hwindow,
        getElem?_insertWindow_of_window_ne hwindow, getElem?_deleteWindow_tabs]

theorem deleteWindows_insertWindow {window : WindowState} {ids : List Int}
    (hne : window.windowId ∉ ids) (tables : Tables) (position : Nat) :
    (tables.insertWindow window position).deleteWindows ids =
      (tables.deleteWindows ids).insertWindow window position := by
  induction ids generalizing tables with
  | nil => rfl
  | cons id ids ih =>
      obtain ⟨hid, hids⟩ := List.ne_and_not_mem_of_not_mem_cons hne
      simp only [deleteWindows, List.foldl_cons]
      rw [deleteWindow_insertWindow hid]
      exact ih hids _

theorem deleteWindows_insertWindows {windows : List WindowState} {ids : List Int}
    (hne : ∀ window ∈ windows, window.windowId ∉ ids) (tables : Tables) (position : Nat) :
    (tables.insertWindows windows position).deleteWindows ids =
      (tables.deleteWindows ids).insertWindows windows position := by
  induction windows generalizing tables position with
  | nil => rfl
  | cons window windows ih =>
      rw [insertWindows, insertWindows,
        ih (fun other hother => hne other (List.mem_cons_of_mem window hother)),
        deleteWindows_insertWindow (hne window List.mem_cons_self)]

theorem replaceWindows_eq {windows : List WindowState}
    (hids : (windows.map (·.windowId)).Nodup) (tables : Tables) (position : Nat) :
    tables.replaceWindows windows position =
      (tables.deleteWindows (windows.map (·.windowId))).insertWindows windows position := by
  induction windows generalizing tables position with
  | nil => rfl
  | cons window windows ih =>
      obtain ⟨hnew, hrest⟩ := List.nodup_cons.mp hids
      rw [replaceWindows, ih hrest, replaceWindow, deleteWindows_insertWindow hnew]
      rfl

theorem deleteWindows_append (tables : Tables) (ids others : List Int) :
    tables.deleteWindows (ids ++ others) = (tables.deleteWindows ids).deleteWindows others :=
  List.foldl_append

theorem deleteWindows_congr {ids others : List Int} (h : ∀ id, id ∈ ids ↔ id ∈ others)
    (tables : Tables) : tables.deleteWindows ids = tables.deleteWindows others := by
  ext1 x
  · simp only [getElem?_deleteWindows_windows, h]
  · simp only [getElem?_deleteWindows_tabs, h]

end Tables

/-! ## The rows of a snapshot written from scratch -/

section Rewritten

variable {windows : List WindowState} {tables : Tables} {position : Nat}

theorem getElem?_insertWindows_windows_of_not_mem {id : Int}
    (h : id ∉ windows.map (·.windowId)) :
    (tables.insertWindows windows position).windows[id]? = tables.windows[id]? := by
  induction windows generalizing tables position with
  | nil => rfl
  | cons window windows ih =>
      obtain ⟨hid, hids⟩ := List.ne_and_not_mem_of_not_mem_cons h
      rw [Tables.insertWindows, ih hids, Tables.getElem?_insertWindow_windows, if_neg hid]

theorem getElem?_insertWindows_tabs_of_not_mem {key : TabKey}
    (h : key.window ∉ windows.map (·.windowId)) :
    (tables.insertWindows windows position).tabs[key]? = tables.tabs[key]? := by
  induction windows generalizing tables position with
  | nil => rfl
  | cons window windows ih =>
      obtain ⟨hid, hids⟩ := List.ne_and_not_mem_of_not_mem_cons h
      rw [Tables.insertWindows, ih hids, Tables.getElem?_insertWindow_of_window_ne hid]

theorem getElem?_insertWindows_windows {window : WindowState} {i : Nat}
    (hids : (windows.map (·.windowId)).Nodup) (hwindow : windows[i]? = some window) :
    (tables.insertWindows windows position).windows[window.windowId]? =
      some (windowRow window (position + i)) := by
  induction windows generalizing tables position i with
  | nil => simp at hwindow
  | cons head windows ih =>
      obtain ⟨hnew, hrest⟩ := List.nodup_cons.mp hids
      cases i with
      | zero =>
          cases hwindow
          rw [Tables.insertWindows, getElem?_insertWindows_windows_of_not_mem hnew,
            Tables.getElem?_insertWindow_windows, if_pos rfl]
          rfl
      | succ i =>
          rw [Tables.insertWindows, ih hrest (by simpa using hwindow), Nat.add_right_comm,
            Nat.add_assoc]

theorem getElem?_insertWindows_tab {window : WindowState} {tab : TabState} {j : Nat}
    (hids : (windows.map (·.windowId)).Nodup) (hwindow : window ∈ windows)
    (htabs : (window.tabs.map (·.tabId)).Nodup) (htab : window.tabs[j]? = some tab) :
    (tables.insertWindows windows position).tabs[tabKey window.windowId tab]? =
      some (tabRow tab j) := by
  induction windows generalizing tables position with
  | nil => simp at hwindow
  | cons head windows ih =>
      obtain ⟨hnew, hrest⟩ := List.nodup_cons.mp hids
      rw [Tables.insertWindows]
      rcases List.mem_cons.mp hwindow with rfl | hmem
      · rw [getElem?_insertWindows_tabs_of_not_mem (by simpa [tabKey] using hnew)]
        exact Tables.getElem?_insertWindow_of_tab htabs htab
      · exact ih hrest hmem

theorem getElem?_insertWindows_not_tab {window : WindowState} {key : TabKey}
    (hids : (windows.map (·.windowId)).Nodup) (hwindow : window ∈ windows)
    (hkey : key.window = window.windowId)
    (hnot : ∀ tab ∈ window.tabs, tabKey window.windowId tab ≠ key) :
    (tables.insertWindows windows position).tabs[key]? = tables.tabs[key]? := by
  induction windows generalizing tables position with
  | nil => simp at hwindow
  | cons head windows ih =>
      obtain ⟨hnew, hrest⟩ := List.nodup_cons.mp hids
      rw [Tables.insertWindows]
      rcases List.mem_cons.mp hwindow with rfl | hmem
      · rw [getElem?_insertWindows_tabs_of_not_mem (by rwa [hkey])]
        exact Tables.getElem?_insertWindow_of_not_tab hnot
      · have hne : key.window ≠ head.windowId := by
          rw [hkey]
          intro heq
          have hmem' := List.mem_map_of_mem (f := fun w : WindowState => w.windowId) hmem
          rw [heq] at hmem'
          exact hnew hmem'
        rw [ih hrest hmem, Tables.getElem?_insertWindow_of_window_ne hne]

end Rewritten

end Fulgur
