import Fulgur.Library.Keyed
import Fulgur.State.Db.RoundTrip
import Fulgur.State.Restore
import Fulgur.Tabs.ActiveTab

/-! # A window as it starts

A window starts with a fresh tab, with the tabs of a snapshot that could be
restored, or with none when a tab of another window is on its way. Restored tabs
keep the identifiers they were saved under, and the next one to hand out is past
the highest of them; each Markdown file then gets its preview.
-/

namespace Fulgur

/-- What a restore goes by besides the snapshot. -/
structure RestoreContext where
  encodings : Encodings
  parse : String → Option Int
  disk : Disk
  isMarkdown : EditorTab → Bool

/-- A saved tab is restored under the identity it was persisted under. -/
def RestoreContext.restore (context : RestoreContext) (tabState : TabState) : Option EditorTab :=
  restoreTabFromState context.encodings context.parse context.disk tabState tabState.tabId

/-- The loop over the saved tabs: what could be restored, and the highest identifier of it. -/
def restoreTabs (context : RestoreContext) :
    List TabState → List EditorTab × Nat → List EditorTab × Nat
  | [], restored => restored
  | tabState :: rest, (tabs, highestTabId) =>
      match context.restore tabState with
      | some tab => restoreTabs context rest (tabs ++ [tab], max highestTabId tabState.tabId)
      | none => restoreTabs context rest (tabs, highestTabId)

/-- `u64::saturating_add(1)`. -/
def saturatingSucc (n : Nat) : Nat := min (n + 1) (2 ^ 64 - 1)

namespace TabManager

def insertPreviewAt (s : TabManager) (index : Nat) : Option TabManager :=
  match s.tabs[index]? with
  | some (.editor tab true) =>
      if tab.largeFile then none
      else some (s.allocated.insertAt (index + 1) (s.buildPreviewTab tab.id tab.title))
  | _ => none

/-- The loop over the tabs there were: what is inserted moves the rest along. -/
def insertPreviewsFrom : Nat → TabManager → Nat → TabManager
  | 0, s, _ => s
  | left + 1, s, actualIdx =>
      match s.insertPreviewAt actualIdx with
      | some s => insertPreviewsFrom left s (actualIdx + 2)
      | none => insertPreviewsFrom left s (actualIdx + 1)

def insertPreviewTabsForMarkdown (s : TabManager) : TabManager :=
  if !s.dedicatedTab || !s.showMarkdownPreview then s
  else insertPreviewsFrom s.tabs.length s 0

def restoreWindow (context : RestoreContext) (s : TabManager) (windowState : WindowState) :
    TabManager :=
  let (tabs, highestTabId) := restoreTabs context windowState.tabs ([], 0)
  let savedActiveEditorId := (windowState.activeTabIndex.bind (tabs[·]?)).map EditorTab.id
  let s := { s with
    tabs := tabs.map fun tab => .editor tab (context.isMarkdown tab)
    nextTabId := saturatingSucc highestTabId }.insertPreviewTabsForMarkdown
  { s with activeTabId := savedActiveEditorId.or (s.tabs.head?.map Tab.id) }

def loadState (context : RestoreContext) (s : TabManager) (windowState : Option WindowState) :
    TabManager :=
  let s := match windowState with
    | some windowState => s.restoreWindow context windowState
    | none => s
  if s.tabs.isEmpty then
    { s with tabs := [.editor (.new 0 UNTITLED) false], activeTabId := some 0, nextTabId := 1 }
  else s

end TabManager

/-- How a window is created. -/
inductive WindowOrigin where
  | fresh
  | restored (windowState : Option WindowState)
  | transfer

def TabManager.launched (context : RestoreContext) (dedicatedTab showMarkdownPreview : Bool) :
    WindowOrigin → TabManager
  | .fresh =>
      { empty dedicatedTab showMarkdownPreview with
        tabs := [.editor (.new 0 UNTITLED) false], activeTabId := some 0, nextTabId := 1 }
  | .restored windowState =>
      (empty dedicatedTab showMarkdownPreview).loadState context windowState
  | .transfer => empty dedicatedTab showMarkdownPreview

/-- The saved tabs have identifiers of their own, and one more is left to hand out. -/
structure WindowState.Identified (windowState : WindowState) : Prop where
  distinct : (windowState.tabs.map TabState.tabId).Nodup
  bounded : ∀ tabState ∈ windowState.tabs, tabState.tabId < 2 ^ 64 - 1

/-- Only what is restored comes with identifiers. -/
def WindowOrigin.Identified : WindowOrigin → Prop
  | .restored windowState => ∀ saved ∈ windowState, saved.Identified
  | _ => True

/-- The key of the tabs table is what tells the tabs of a window apart. -/
theorem identified_loaded {tables : Tables} (h : Consistent tables) {window : WindowState}
    (hwindow : window ∈ loadedWindows tables) : window.Identified := by
  obtain ⟨stored, -, hloaded⟩ := mem_loadedWindows.mp hwindow
  have htabs : window.tabs = loadedTabs tables window.windowId :=
    congrArg WindowState.tabs hloaded.symm
  have hrows : ((Listing.orderBy (·.stored.position) (tables.tabsOf window.windowId)).map
      Prod.fst).Nodup :=
    ((Listing.orderBy_perm _ _).map Prod.fst).nodup_iff.mpr (tables.nodup_tabsOf window.windowId)
  have hid {row : Int × TabRow}
      (hrow : row ∈ Listing.orderBy (·.stored.position) (tables.tabsOf window.windowId)) :
      0 ≤ row.1 ∧ row.1 < 2 ^ 63 := by
    rw [Listing.mem_orderBy] at hrow
    exact h.id _ _ (Tables.mem_tabsOf.mp hrow)
  constructor
  · rw [htabs, loadedTabs, List.map_map, List.Nodup, List.pairwise_map]
    rw [List.Nodup, List.pairwise_map] at hrows
    refine hrows.imp_of_mem fun {first second} hfirst hsecond hne hsame => hne ?_
    have hnonneg := hid hfirst
    have hnonneg' := hid hsecond
    have hnat : first.1.toNat = second.1.toNat := hsame
    omega
  · intro tabState htabState
    rw [htabs] at htabState
    obtain ⟨row, hrow, rfl⟩ := List.mem_map.mp htabState
    have hbound := hid hrow
    have hnat : (decodedTab row).tabId = row.1.toNat := rfl
    omega

/-! ## What is restored -/

theorem RestoreContext.restore_id {context : RestoreContext} {tabState : TabState} {tab : EditorTab}
    (h : context.restore tabState = some tab) : tab.id = tabState.tabId :=
  Fulgur.restore_id h

theorem restoreTabs_tabs (context : RestoreContext) (states : List TabState)
    (restored : List EditorTab × Nat) :
    (restoreTabs context states restored).1 = restored.1 ++ states.filterMap context.restore := by
  induction states generalizing restored with
  | nil => exact (List.append_nil _).symm
  | cons tabState rest ih =>
      obtain ⟨tabs, highestTabId⟩ := restored
      rw [restoreTabs]
      split
      · rename_i tab htab
        rw [ih, List.filterMap_cons_some htab, List.append_assoc, List.singleton_append]
      · rename_i hskipped
        rw [ih, List.filterMap_cons_none hskipped]

/-- No restored tab has an identifier above the highest one. -/
theorem le_restoreTabs (context : RestoreContext) (states : List TabState)
    {restored : List EditorTab × Nat} (h : ∀ tab ∈ restored.1, tab.id ≤ restored.2) :
    ∀ tab ∈ (restoreTabs context states restored).1,
      tab.id ≤ (restoreTabs context states restored).2 := by
  induction states generalizing restored with
  | nil => exact h
  | cons tabState rest ih =>
      obtain ⟨tabs, highestTabId⟩ := restored
      rw [restoreTabs]
      split
      · rename_i tab htab
        refine ih fun other hother => ?_
        rcases List.mem_append.mp hother with hother | hother
        · exact Nat.le_trans (h other hother) (Nat.le_max_left _ _)
        · rw [List.mem_singleton.mp hother, RestoreContext.restore_id htab]
          exact Nat.le_max_right _ _
      · exact ih h

theorem restoreTabs_highest (context : RestoreContext) (states : List TabState)
    {restored : List EditorTab × Nat} {bound : Nat} (hbound : restored.2 ≤ bound)
    (h : ∀ tabState ∈ states, tabState.tabId ≤ bound) :
    (restoreTabs context states restored).2 ≤ bound := by
  induction states generalizing restored with
  | nil => exact hbound
  | cons tabState rest ih =>
      obtain ⟨tabs, highestTabId⟩ := restored
      have hrest := fun other hother => h other (List.mem_cons_of_mem tabState hother)
      rw [restoreTabs]
      split
      · exact ih (Nat.max_le.mpr ⟨hbound, h tabState List.mem_cons_self⟩) hrest
      · exact ih hbound hrest

theorem nodup_restored (context : RestoreContext) {states : List TabState}
    (h : (states.map TabState.tabId).Nodup) :
    ((restoreTabs context states ([], 0)).1.map EditorTab.id).Nodup := by
  rw [restoreTabs_tabs, List.nil_append]
  exact h.sublist (Keyed.sublist_filterMap (fun _ _ => RestoreContext.restore_id) states)

end Fulgur
