import Fulgur.State.Save
import Fulgur.Tabs.PreviewRuns

/-! # The active tab over a restart

The snapshot of a window names its active tab by an index. It is counted over
all editor tabs, used by the store in the list of tabs that were saved, and by
the next launch in the list of tabs that could be restored. The three agree on
the active tab as long as no tab before it was left out.
-/

namespace Fulgur

open LabelledRun

namespace TabManager

def editors (s : TabManager) : List EditorTab := s.tabs.filterMap Tab.asEditor

/-- The loop that counts editor tabs up to the one with the identifier. -/
def editorIndexOf (s : TabManager) (editorTabId : Nat) : Option Nat :=
  s.editors.findIdx? fun tab => tab.id = editorTabId

def activeEditorIndexForState (s : TabManager) : Option Nat :=
  match s.activeTabIndex.bind (s.tabs[·]?) with
  | some (.editor tab _) => s.editorIndexOf tab.id
  | some (.markdownPreview tab) => s.editorIndexOf tab.sourceTabId
  | _ => none

def buildWindowState (s : TabManager) (persistUnsaved : Bool) (disk : Disk) (windowId : Int)
    (windowBounds : SerializedWindowBounds) : WindowState where
  windowId := windowId
  tabs := buildTabStates persistUnsaved disk s.editors
  activeTabIndex := s.activeEditorIndexForState
  windowBounds := windowBounds

def activeEditor (s : TabManager) : Option EditorTab :=
  match s.activeTabIndex.bind (s.tabs[·]?) with
  | some (.editor tab _) => some tab
  | some (.markdownPreview tab) => s.editors.find? fun editor => editor.id = tab.sourceTabId
  | _ => none

end TabManager

/-- What a restart makes of a tab: it may not be saved, or not be restored. -/
def RestoreContext.reopen (context : RestoreContext) (persistUnsaved : Bool) (disk : Disk)
    (tab : EditorTab) : Option EditorTab :=
  (buildTabState persistUnsaved disk tab).bind fun tabState => context.restore tabState.flatten

/--
No editor tab before the active one is left out; or all of them are, and no more
tabs are restored than stood before it, so that the launch falls back to the first.
-/
def RestoreContext.KeepsActive (context : RestoreContext) (persistUnsaved : Bool) (disk : Disk)
    (s : TabManager) (active : EditorTab) : Prop :=
  let before := s.editors.takeWhile fun tab => tab.id ≠ active.id
  (∀ tab ∈ before, (context.reopen persistUnsaved disk tab).isSome = true) ∨
    (∀ tab ∈ before, context.reopen persistUnsaved disk tab = none) ∧
      (s.editors.filterMap (context.reopen persistUnsaved disk)).length ≤ before.length

instance (context : RestoreContext) (persistUnsaved : Bool) (disk : Disk) (s : TabManager)
    (active : EditorTab) : Decidable (context.KeepsActive persistUnsaved disk s active) :=
  inferInstanceAs (Decidable ((∀ _ ∈ _, _) ∨ (∀ _ ∈ _, _) ∧ _))

section

variable {context : RestoreContext} {persistUnsaved : Bool} {disk : Disk}

theorem flatten_tabId (tabState : TabState) : tabState.flatten.tabId = tabState.tabId := rfl

theorem reopen_id {tab reopened : EditorTab}
    (h : context.reopen persistUnsaved disk tab = some reopened) : reopened.id = tab.id := by
  obtain ⟨tabState, hsaved, hrestored⟩ := Option.bind_eq_some_iff.mp h
  rw [RestoreContext.restore_id hrestored, flatten_tabId, (buildTabState_tabId hsaved).1]

theorem restoreTabs_saved (context : RestoreContext) (persistUnsaved : Bool) (disk : Disk)
    (tabs : List EditorTab) :
    (restoreTabs context ((buildTabStates persistUnsaved disk tabs).map .flatten) ([], 0)).1 =
      tabs.filterMap (context.reopen persistUnsaved disk) := by
  rw [restoreTabs_tabs, List.nil_append, List.filterMap_map, buildTabStates,
    List.filterMap_filterMap]
  rfl

end

namespace TabManager

variable {s : TabManager}

theorem Numbered.editors (h : Numbered s) : (s.editors.map EditorTab.id).Nodup := by
  refine h.distinct.sublist (Keyed.sublist_filterMap (fun tab editor heditor => ?_) s.tabs)
  cases tab with
  | editor tab markdown =>
      cases heditor
      rfl
  | settings tab => cases heditor
  | markdownPreview tab => cases heditor

theorem mem_editors {tab : EditorTab} :
    tab ∈ s.editors ↔ ∃ markdown, .editor tab markdown ∈ s.tabs := by
  rw [TabManager.editors, List.mem_filterMap]
  constructor
  · rintro ⟨other, hother, heditor⟩
    cases other with
    | editor other markdown =>
        cases heditor
        exact ⟨markdown, hother⟩
    | settings other => cases heditor
    | markdownPreview other => cases heditor
  · rintro ⟨markdown, htab⟩
    exact ⟨_, htab, rfl⟩

theorem activeEditor_spec {active : EditorTab} (h : s.activeEditor = some active) :
    active ∈ s.editors ∧ s.activeEditorIndexForState = s.editorIndexOf active.id := by
  unfold activeEditor at h
  unfold activeEditorIndexForState
  split at h
  · rename_i tab markdown hat
    cases h
    obtain ⟨index, -, hindex⟩ := Option.bind_eq_some_iff.mp hat
    exact ⟨mem_editors.mpr ⟨markdown, List.mem_of_getElem? hindex⟩, rfl⟩
  · rename_i preview hat
    have hsource : active.id = preview.sourceTabId := by simpa using List.find?_some h
    rw [hsource]
    exact ⟨List.mem_of_find?_eq_some h, rfl⟩
  · cases h

/-! ## The launch -/

theorem insertPreviewsFrom_head (left : Nat) (s : TabManager) (index : Nat) :
    (insertPreviewsFrom left s index).tabs.head? = s.tabs.head? := by
  induction left generalizing s index with
  | zero => rfl
  | succ left ih =>
      rw [insertPreviewsFrom]
      split
      · rename_i inserted hinserted
        rw [ih]
        unfold insertPreviewAt at hinserted
        split at hinserted
        · split at hinserted
          · cases hinserted
          · cases hinserted
            show (s.tabs.insertIdx (index + 1) _).head? = s.tabs.head?
            cases htabs : s.tabs with
            | nil => rfl
            | cons tab rest => rfl
        · cases hinserted
      · exact ih s (index + 1)

theorem insertPreviewTabs_head (s : TabManager) :
    s.insertPreviewTabsForMarkdown.tabs.head? = s.tabs.head? := by
  unfold insertPreviewTabsForMarkdown
  split
  · rfl
  · exact insertPreviewsFrom_head _ _ _

/-- The active tab of a launch that restored some tab. -/
theorem launched_active (context : RestoreContext) (dedicatedTab showMarkdownPreview : Bool)
    (windowState : WindowState) {restored : List EditorTab}
    (hrestored : (restoreTabs context windowState.tabs ([], 0)).1 = restored)
    (hsome : restored ≠ []) :
    (launched context dedicatedTab showMarkdownPreview (.restored (some windowState))).activeTabId =
      ((windowState.activeTabIndex.bind (restored[·]?)).map EditorTab.id).or
        (restored.head?.map EditorTab.id) := by
  cases hpair : restoreTabs context windowState.tabs ([], 0) with
  | mk tabs highestTabId =>
      obtain rfl : tabs = restored := by rw [← hrestored, hpair]
      let opened : TabManager := { empty dedicatedTab showMarkdownPreview with
        tabs := tabs.map fun tab => .editor tab (context.isMarkdown tab)
        nextTabId := saturatingSucc highestTabId }
      have hhead : opened.insertPreviewTabsForMarkdown.tabs.head?.map Tab.id =
          tabs.head?.map EditorTab.id := by
        rw [insertPreviewTabs_head, List.head?_map, Option.map_map]
        rfl
      have hnonempty : opened.insertPreviewTabsForMarkdown.tabs.isEmpty = false := by
        rw [List.isEmpty_eq_false_iff]
        intro hnil
        rw [hnil, List.head?_nil, Option.map_none] at hhead
        exact hsome (List.head?_eq_none_iff.mp (Option.map_eq_none_iff.mp hhead.symm))
      have hwindow : (empty dedicatedTab showMarkdownPreview).restoreWindow context windowState =
          { opened.insertPreviewTabsForMarkdown with
            activeTabId := ((windowState.activeTabIndex.bind (tabs[·]?)).map EditorTab.id).or
              (opened.insertPreviewTabsForMarkdown.tabs.head?.map Tab.id) } := by
        rw [restoreWindow, hpair]
      show ((empty dedicatedTab showMarkdownPreview).loadState context
          (some windowState)).activeTabId = _
      unfold loadState
      dsimp only
      rw [hwindow]
      dsimp only
      rw [hnonempty, hhead]
      rfl

theorem editorIndexOf_of_split {before after : List EditorTab} {active : EditorTab}
    (hsplit : s.editors = before ++ active :: after)
    (hbefore : ∀ tab ∈ before, tab.id ≠ active.id) :
    s.editorIndexOf active.id = some before.length := by
  have hnone : before.findIdx? (fun tab => tab.id = active.id) = none :=
    List.findIdx?_eq_none_iff.mpr (by simpa using hbefore)
  rw [editorIndexOf, hsplit, List.findIdx?_append, hnone, List.findIdx?_cons]
  simp

/-- The launch makes the tab active exactly when what was left out does not move its index. -/
theorem launched_active_iff {context : RestoreContext} {persistUnsaved : Bool} {disk : Disk}
    (hdistinct : (s.editors.map EditorTab.id).Nodup) {active : EditorTab}
    (hactive : active ∈ s.editors)
    (hreopens : (context.reopen persistUnsaved disk active).isSome = true)
    {windowState : WindowState}
    (htabs : windowState.tabs = (buildTabStates persistUnsaved disk s.editors).map .flatten)
    (hindex : windowState.activeTabIndex =
      (s.editorIndexOf active.id).filter
        (· < (buildTabStates persistUnsaved disk s.editors).length))
    (dedicatedTab showMarkdownPreview : Bool) :
    (launched context dedicatedTab showMarkdownPreview (.restored (some windowState))).activeTabId =
      some active.id ↔ context.KeepsActive persistUnsaved disk s active := by
  obtain ⟨before, after, hsplit⟩ := List.append_of_mem hactive
  obtain ⟨reopened, hreopened⟩ := Option.isSome_iff_exists.mp hreopens
  have hid : reopened.id = active.id := reopen_id hreopened
  have hbefore : ∀ tab ∈ before, tab.id ≠ active.id := by
    intro tab htab hsame
    rw [hsplit, List.map_append, List.nodup_append] at hdistinct
    exact hdistinct.2.2 tab.id (List.mem_map_of_mem htab) active.id
      (List.mem_map_of_mem List.mem_cons_self) hsame
  have htake : (s.editors.takeWhile fun tab => tab.id ≠ active.id) = before := by
    rw [hsplit, List.takeWhile_append_of_pos (by simpa using hbefore),
      List.takeWhile_cons_of_neg (by simp), List.append_nil]
  have hposition := editorIndexOf_of_split hsplit hbefore
  have hrestored : (restoreTabs context windowState.tabs ([], 0)).1 =
      before.filterMap (context.reopen persistUnsaved disk) ++
        reopened :: after.filterMap (context.reopen persistUnsaved disk) := by
    rw [htabs, restoreTabs_saved, hsplit, List.filterMap_append, List.filterMap_cons_some hreopened]
  have hkeys : ((before.filterMap (context.reopen persistUnsaved disk) ++
      reopened :: after.filterMap (context.reopen persistUnsaved disk)).map
        EditorTab.id).Nodup := by
    rw [← List.filterMap_cons_some hreopened, ← List.filterMap_append, ← hsplit]
    exact hdistinct.sublist (Keyed.sublist_filterMap (fun _ _ => reopen_id) _)
  rw [launched_active context _ _ windowState hrestored (by simp), hindex, hposition,
    Option.filter_some, RestoreContext.KeepsActive, htake]
  have hcount : s.editors.filterMap (context.reopen persistUnsaved disk) =
      before.filterMap (context.reopen persistUnsaved disk) ++
        reopened :: after.filterMap (context.reopen persistUnsaved disk) := by
    rw [hsplit, List.filterMap_append, List.filterMap_cons_some hreopened]
  have hle : (before.filterMap (context.reopen persistUnsaved disk) ++
      reopened :: after.filterMap (context.reopen persistUnsaved disk)).length ≤
        (buildTabStates persistUnsaved disk s.editors).length := by
    rw [← hrestored, htabs, restoreTabs_tabs, List.nil_append]
    exact (List.length_filterMap_le _ _).trans_eq (List.length_map _)
  have hlength : (before.filterMap (context.reopen persistUnsaved disk)).length <
      (before.filterMap (context.reopen persistUnsaved disk) ++
        reopened :: after.filterMap (context.reopen persistUnsaved disk)).length := by
    rw [List.length_append, List.length_cons]
    omega
  have hall : (∀ tab ∈ before, (context.reopen persistUnsaved disk tab).isSome = true) ↔
      (before.filterMap (context.reopen persistUnsaved disk)).length = before.length :=
    List.filterMap_length_eq_length.symm
  have hnone : (∀ tab ∈ before, context.reopen persistUnsaved disk tab = none) ↔
      (before.filterMap (context.reopen persistUnsaved disk)).length = 0 := by
    rw [List.length_eq_zero_iff, List.filterMap_eq_nil_iff]
  rw [hcount, hall, hnone, ← hid]
  generalize before.filterMap (context.reopen persistUnsaved disk) = kept at *
  generalize after.filterMap (context.reopen persistUnsaved disk) = rest at *
  by_cases hlt : before.length < (kept ++ reopened :: rest).length
  · -- The index names a restored tab.
    have hat := List.getElem?_eq_getElem hlt
    have hfound : ((kept ++ reopened :: rest)[before.length]?).map EditorTab.id = some reopened.id ↔
        before.length = kept.length := Keyed.getElem?_key_iff hkeys
    rw [if_pos (decide_eq_true (Nat.lt_of_lt_of_le hlt hle)), Option.bind_some]
    rw [hat, Option.map_some] at hfound ⊢
    rw [Option.some_or, hfound]
    omega
  · -- It names none, and the first tab is shown.
    have hout : (kept ++ reopened :: rest)[before.length]? = none :=
      List.getElem?_eq_none_iff.mpr (Nat.le_of_not_lt hlt)
    have hindexed :
      ((if decide (before.length < (buildTabStates persistUnsaved disk s.editors).length) =
        true then some before.length else none).bind fun i =>
          (kept ++ reopened :: rest)[i]?) = none := by
      split
      · exact hout
      · rfl
    have hfirst : ((kept ++ reopened :: rest)[0]?).map EditorTab.id = some reopened.id ↔
        0 = kept.length := Keyed.getElem?_key_iff hkeys
    rw [hindexed, Option.map_none, Option.none_or, List.head?_eq_getElem?, hfirst]
    omega

end TabManager

/-! ## Through the store -/

/-- A window that was saved is the one that is loaded under its identity. -/
theorem loaded_window {tables : Tables} (owned : Std.ExtTreeSet Int) {snapshot : WindowsState}
    (hreachable : Reachable tables) (hstorable : Storable snapshot)
    (hcollision : NoCollision tables snapshot) {window : WindowState}
    (hwindow : window ∈ snapshot.windows) :
    ∃ db stats after, StateDb.apply ⟨tables, owned⟩ snapshot = .ok (db, stats) ∧
      db.load = .ok after ∧ window.normalise ∈ after.windows ∧
      ∀ loaded ∈ after.windows, loaded.windowId = window.windowId → loaded = window.normalise := by
  obtain ⟨stats, hrun, -⟩ :=
    apply_spec ⟨tables, owned⟩ hreachable.consistent hstorable hcollision
  refine ⟨_, stats, _, hrun, load_eq (Consistent.apply hreachable.consistent hrun), ?_⟩
  have hnamed : (loadedWindows (StateDb.rewriteFromScratch ⟨tables, owned⟩ snapshot)).filter
      (fun loaded => loaded.windowId ∈ snapshot.ids) = snapshot.windows.map .normalise := by
    have hselect := filter_loadedWindows (StateDb.rewriteFromScratch ⟨tables, owned⟩ snapshot)
      fun id => id ∈ snapshot.ids
    rw [hselect, orderBy_rewrite hstorable.windowIds]
    exact map_loadedWindow_windowListing hstorable
  constructor
  · have hmem : window.normalise ∈ snapshot.windows.map .normalise := List.mem_map_of_mem hwindow
    rw [← hnamed] at hmem
    exact (List.mem_filter.mp hmem).1
  · intro loaded hloaded hid
    have hamong : loaded.windowId ∈ snapshot.ids := hid ▸ List.mem_map_of_mem hwindow
    have hmem :
      loaded ∈ (loadedWindows (StateDb.rewriteFromScratch ⟨tables, owned⟩ snapshot)).filter
        (fun loaded => loaded.windowId ∈ snapshot.ids) :=
      List.mem_filter.mpr ⟨hloaded, decide_eq_true hamong⟩
    rw [hnamed] at hmem
    obtain ⟨other, hother, rfl⟩ := List.mem_map.mp hmem
    have hsame : other = window := List.inj_on_of_nodup_map hstorable.windowIds hother hwindow hid
    rw [hsame]

namespace TabManager

variable {s : TabManager}

/--
After a save and a launch the tab that was active, or whose preview was, is the
active one if and only if no editor tab before it was left out, or all of those
were and the launch falls back to the first tab.
-/
theorem active_tab_survives_iff {tables : Tables} (owned : Std.ExtTreeSet Int)
    {snapshot : WindowsState} (hreachable : Reachable tables) (hstorable : Storable snapshot)
    (hcollision : NoCollision tables snapshot) (hnumbered : Numbered s) {persistUnsaved : Bool}
    {disk : Disk} {windowId : Int} {windowBounds : SerializedWindowBounds}
    (hsaved : s.buildWindowState persistUnsaved disk windowId windowBounds ∈ snapshot.windows)
    {active : EditorTab} (hactive : s.activeEditor = some active) {context : RestoreContext}
    (hreopens : (context.reopen persistUnsaved disk active).isSome = true)
    (dedicatedTab showMarkdownPreview : Bool) :
    ∃ db stats after, StateDb.apply ⟨tables, owned⟩ snapshot = .ok (db, stats) ∧
      db.load = .ok after ∧ (∃ loaded ∈ after.windows, loaded.windowId = windowId) ∧
      ∀ loaded ∈ after.windows, loaded.windowId = windowId →
        ((launched context dedicatedTab showMarkdownPreview (.restored (some loaded))).activeTabId =
          some active.id ↔ context.KeepsActive persistUnsaved disk s active) := by
  obtain ⟨db, stats, after, hrun, hload, hmem, hunique⟩ :=
    loaded_window owned hreachable hstorable hcollision hsaved
  obtain ⟨heditor, hindex⟩ := activeEditor_spec hactive
  refine ⟨db, stats, after, hrun, hload, ⟨_, hmem, rfl⟩, fun loaded hloaded hid => ?_⟩
  rw [hunique loaded hloaded hid]
  refine launched_active_iff hnumbered.editors heditor hreopens rfl ?_ _ _
  rw [← hindex]
  rfl

/-- An empty first tab and two notes that were never saved. -/
def sampleNotes : List TabAction :=
  [.newTab false, .newTab false,
    .changeEditor 1 { EditorTab.new 1 "Untitled 1" with content := .ofText "a" } false,
    .changeEditor 2 { EditorTab.new 2 "Untitled 2" with content := .ofText "b" } false]

def savedNotes : WindowState where
  windowId := 1
  tabs := [⟨1, "Untitled 1", none, some (.rope (.ofText "a")), none, none, false, none⟩,
    ⟨2, "Untitled 2", none, some (.rope (.ofText "b")), none, none, false, none⟩]
  activeTabIndex := some 1
  windowBounds := .default

theorem storable_savedNotes : Storable ⟨[savedNotes]⟩ := by
  refine ⟨List.nodup_singleton _, by decide, fun window hwindow => ?_⟩
  rw [List.mem_singleton.mp hwindow]
  refine ⟨by decide, by decide, by decide, by decide, ?_⟩
  intro tab htab content hcontent
  simp only [savedNotes, List.mem_cons, List.not_mem_nil, or_false] at htab
  rcases htab with rfl | rfl
  · cases hcontent
    decide
  · cases hcontent
    decide

/-- With the empty tab closed the second note is active again. -/
theorem active_tab_survives_iff_sample :
    ∃ db stats after, StateDb.apply ⟨Tables.empty, ∅⟩ ⟨[savedNotes]⟩ = .ok (db, stats) ∧
      db.load = .ok after ∧ (∃ loaded ∈ after.windows, loaded.windowId = 1) ∧
      ∀ loaded ∈ after.windows, loaded.windowId = 1 →
        (launched sampleContext false false (.restored (some loaded))).activeTabId = some 2 := by
  obtain ⟨s, hrun, hstate, hfound⟩ := exists_of_any (show
    (run step (launched sampleContext false false .fresh)
      (sampleNotes ++ [.setActiveTab 2, .closeTab 0])).any (fun s => decide
        (s.buildWindowState true sampleContext.disk 1 .default = savedNotes ∧
          s.activeEditor.any (fun active => decide (active.id = 2 ∧
            (sampleContext.reopen true sampleContext.disk active).isSome = true ∧
            sampleContext.KeepsActive true sampleContext.disk s active)) = true)) = true by
    decide +kernel)
  obtain ⟨active, hactive, hid, hreopens, hkeeps⟩ := exists_of_any hfound
  have hidentified : WindowOrigin.fresh.Identified := trivial
  have hsaved : s.buildWindowState true sampleContext.disk 1 .default ∈ [savedNotes] := by
    rw [hstate]
    exact List.mem_singleton_self _
  obtain ⟨db, stats, after, happly, hload, hexists, hactivated⟩ :=
    active_tab_survives_iff ∅ Reachable.empty storable_savedNotes (noCollision_empty _)
      (linked_of_run hidentified hrun).numbered hsaved hactive hreopens false false
  refine ⟨db, stats, after, happly, hload, hexists, fun loaded hloaded hwindow => ?_⟩
  rw [← hid]
  exact (hactivated loaded hloaded hwindow).mpr hkeeps

/-- The empty tab is counted but not saved: of two notes the other one comes back active. -/
theorem active_tab_drifts :
    ∃ s, run step (launched sampleContext false false .fresh) (sampleNotes ++ [.setActiveTab 1]) =
        some s ∧ s.activeTabId = some 1 ∧
      ∃ db stats after,
        StateDb.apply ⟨Tables.empty, ∅⟩
          ⟨[s.buildWindowState true sampleContext.disk 1 .default]⟩ = .ok (db, stats) ∧
        db.load = .ok after ∧ (∃ loaded ∈ after.windows, loaded.windowId = 1) ∧
        ∀ loaded ∈ after.windows, loaded.windowId = 1 →
          (launched sampleContext false false (.restored (some loaded))).tabs.map Tab.id = [1, 2] ∧
          (launched sampleContext false false (.restored (some loaded))).activeTabId = some 2 := by
  obtain ⟨s, hrun, hactive, hstate⟩ := exists_of_any (show
    (run step (launched sampleContext false false .fresh) (sampleNotes ++ [.setActiveTab 1])).any
      (fun s => decide (s.activeTabId = some 1 ∧
        s.buildWindowState true sampleContext.disk 1 .default = savedNotes)) = true by
    decide +kernel)
  obtain ⟨db, stats, after, happly, hload, hmem, hunique⟩ :=
    loaded_window ∅ Reachable.empty storable_savedNotes (noCollision_empty _)
      (List.mem_singleton_self _)
  refine ⟨s, hrun, hactive, db, stats, after, hstate ▸ happly, hload, ⟨_, hmem, rfl⟩, ?_⟩
  intro loaded hloaded hwindow
  rw [hunique loaded hloaded hwindow]
  exact ⟨by decide +kernel, by decide +kernel⟩

end TabManager

end Fulgur
