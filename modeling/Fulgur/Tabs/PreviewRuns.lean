import Fulgur.Tabs.PreviewLinks

/-! # Previews over the life of a window

What every operation on the strip does to the previews: closing goes through
`removeTabById`, which takes a preview along with its source; what is opened has
an identifier of its own, so nothing is a preview of it yet; moves and edits leave
the links alone. A restored window has a preview for each Markdown file that it
restored, inserted one after the other.
-/

namespace Fulgur

open LabelledRun

/-- The operations that open, move and edit nothing. -/
def TabAction.onlyRemoves : TabAction → Bool
  | .newTab _ | .openFile .. | .openRemoteFile .. | .openSharedFile .. => false
  | .duplicateTab _ | .openMarkdownPreviewTab | .openSettings => false
  | .handleTabDrop .. | .handlePendingTabTransfer .. | .changeEditor .. => false
  | _ => true

namespace TabManager

variable {s s' : TabManager}

/-! ## What closing comes down to -/

/-- Kept by every removal, and a matter of the strip and the next identifier only. -/
structure KeptByRemovals (P : TabManager → Prop) : Prop where
  same : ∀ {s s' : TabManager}, P s → s'.tabs = s.tabs → s'.nextTabId = s.nextTabId → P s'
  removal : ∀ {s : TabManager} (tabId : Nat), P s → P (s.removeTabById tabId)

namespace KeptByRemovals

variable {P : TabManager → Prop}

theorem setActiveTab (kept : KeptByRemovals P) (index : Nat) (h : P s) :
    P (s.setActiveTab index) :=
  kept.same h (setActiveTab_kept s index).1 (setActiveTab_kept s index).2

theorem closeEach (kept : KeptByRemovals P) (onConfirm : Nat → OnConfirm) (tabIds : List Nat)
    (h : P s) : P (closeEach onConfirm s tabIds).1 := by
  induction tabIds generalizing s with
  | nil => exact h
  | cons tabId tabIds ih =>
      unfold TabManager.closeEach
      split
      · exact ih h
      · split
        · cases s.tabIndexOf tabId with
          | none => exact kept.same h rfl rfl
          | some pos => exact kept.same (kept.setActiveTab pos h) rfl rfl
        · exact ih (kept.removal tabId h)

theorem closeTab (kept : KeptByRemovals P) (tabId : Nat) (h : P s) : P (s.closeTab tabId) := by
  unfold TabManager.closeTab
  split
  · exact h
  · split
    · exact kept.same h rfl rfl
    · exact kept.removal tabId h

theorem clearActiveIfEmpty (kept : KeptByRemovals P) (h : P s) : P s.clearActiveIfEmpty := by
  unfold TabManager.clearActiveIfEmpty
  split
  · exact kept.same h rfl rfl
  · exact h

theorem closeAllTabs (kept : KeptByRemovals P) (h : P s) : P s.closeAllTabs := by
  unfold TabManager.closeAllTabs
  split
  · exact h
  · have hclosed := kept.closeEach .closeAllTabs (s.tabs.map Tab.id) h
    split
    · rename_i stopped heach
      rwa [heach] at hclosed
    · rename_i closed heach
      rw [heach] at hclosed
      exact kept.clearActiveIfEmpty hclosed

theorem closeTabsToLeft (kept : KeptByRemovals P) (index : Nat) (h : P s) :
    P (s.closeTabsToLeft index) := by
  unfold TabManager.closeTabsToLeft
  split
  · split
    · exact h
    · exact kept.closeEach _ _ h
  · exact h

theorem closeTabsToRight (kept : KeptByRemovals P) (index : Nat) (h : P s) :
    P (s.closeTabsToRight index) := by
  unfold TabManager.closeTabsToRight
  split
  · exact h
  · split
    · exact kept.closeEach _ _ h
    · exact h

theorem closeOtherTabs (kept : KeptByRemovals P) (h : P s) : P s.closeOtherTabs := by
  unfold TabManager.closeOtherTabs
  split
  · exact h
  · rename_i activeTabId _
    split
    · exact h
    · have hclosed := kept.closeEach (.closeOtherTabs · activeTabId) (s.otherTabIds activeTabId) h
      split
      · rename_i stopped heach
        rwa [heach] at hclosed
      · rename_i closed heach
        rw [heach] at hclosed
        exact kept.same hclosed rfl rfl

theorem confirmedOthers (kept : KeptByRemovals P) (tabId activeTabId : Nat) (h : P s) :
    P (s.confirmedOthers tabId activeTabId) := by
  have hremoved := kept.removal tabId h
  unfold TabManager.confirmedOthers
  dsimp only
  split
  · exact kept.same hremoved rfl rfl
  · exact hremoved

theorem runOnConfirm (kept : KeptByRemovals P) (onConfirm : OnConfirm) (h : P s) :
    P (s.runOnConfirm onConfirm) := by
  cases onConfirm with
  | closeTab tabId => exact kept.removal tabId h
  | closeAllTabs tabId =>
      have hremoved := kept.removal tabId h
      simp only [TabManager.runOnConfirm]
      split
      · exact kept.same hremoved rfl rfl
      · exact kept.closeAllTabs hremoved
  | closeTabsToLeft tabId keepId =>
      have hremoved := kept.removal tabId h
      simp only [TabManager.runOnConfirm]
      split
      · split
        · exact kept.closeTabsToLeft _ hremoved
        · exact hremoved
      · exact hremoved
  | closeTabsToRight tabId keepId =>
      have hremoved := kept.removal tabId h
      simp only [TabManager.runOnConfirm]
      split
      · split
        · exact kept.closeTabsToRight _ hremoved
        · exact hremoved
      · exact hremoved
  | closeOtherTabs tabId activeTabId =>
      exact kept.closeOtherTabs (kept.confirmedOthers tabId activeTabId h)

theorem nextTab (kept : KeptByRemovals P) (h : P s) : P s.nextTab := by
  unfold TabManager.nextTab
  split
  · exact kept.setActiveTab _ h
  · exact h

theorem previousTab (kept : KeptByRemovals P) (h : P s) : P s.previousTab := by
  unfold TabManager.previousTab
  split
  · exact kept.setActiveTab _ h
  · exact h

theorem closeActiveTab (kept : KeptByRemovals P) (h : P s) : P s.closeActiveTab := by
  unfold TabManager.closeActiveTab
  split
  · exact kept.closeTab _ h
  · exact h

theorem step (kept : KeptByRemovals P) {action : TabAction} (honly : action.onlyRemoves = true)
    (hstep : s.step action = some s') (h : P s) : P s' := by
  cases action with
  | focusExisting tabId =>
      obtain ⟨index, -, rfl⟩ := Option.map_eq_some_iff.mp hstep
      exact kept.same h rfl rfl
  | setActiveTab index =>
      cases hstep
      exact kept.setActiveTab index h
  | nextTab =>
      cases hstep
      exact kept.nextTab h
  | previousTab =>
      cases hstep
      exact kept.previousTab h
  | closeTab tabId =>
      cases hstep
      exact kept.closeTab tabId h
  | closeActiveTab =>
      cases hstep
      exact kept.closeActiveTab h
  | closeAllTabs =>
      cases hstep
      exact kept.closeAllTabs h
  | closeTabsToLeft tabId =>
      obtain ⟨index, -, rfl⟩ := Option.map_eq_some_iff.mp hstep
      exact kept.closeTabsToLeft index h
  | closeTabsToRight tabId =>
      obtain ⟨index, -, rfl⟩ := Option.map_eq_some_iff.mp hstep
      exact kept.closeTabsToRight index h
  | closeOtherTabs =>
      cases hstep
      exact kept.closeOtherTabs h
  | confirmDialog index =>
      obtain ⟨onConfirm, -, rfl⟩ := Option.map_eq_some_iff.mp hstep
      exact kept.runOnConfirm onConfirm (kept.same h rfl rfl)
  | cancelDialog index =>
      cases hstep
      exact kept.same h rfl rfl
  | handlePendingTabRemoval tabId =>
      cases hstep
      exact kept.removal tabId h
  | changeSettings dedicatedTab showMarkdownPreview =>
      cases hstep
      exact kept.same h rfl rfl
  | render =>
      cases hstep
      exact kept.clearActiveIfEmpty h
  | _ => cases honly

end KeptByRemovals

theorem linked_keptByRemovals : KeptByRemovals Linked where
  same h htabs hnext := h.of_eq htabs hnext
  removal tabId h := h.removeTabById tabId

/-! ## Opening -/

/-- The next identifier is no tab's yet, so no preview shows it. -/
theorem Linked.unseen (h : Linked s) {tabId : Nat} (hnext : s.nextTabId ≤ tabId) :
    ∀ tab ∈ s.tabs, tab.previewSource ≠ some tabId := by
  intro tab htab hsource
  obtain ⟨source, hmem, rfl, -⟩ := h.sources tab htab tabId hsource
  have hbelow := h.numbered.below source hmem
  omega

theorem Linked.allocated (h : Linked s) : Linked s.allocated where
  numbered := ⟨h.numbered.distinct, fun tab htab => Nat.lt_succ_of_lt (h.numbered.below tab htab)⟩
  sources := h.sources
  unique := h.unique

theorem Linked.push (h : Linked s) {tab : Tab} (hfresh : ∀ other ∈ s.tabs, other.id < tab.id)
    (hbelow : tab.id < s.nextTabId) (hsource : tab.previewSource = none) :
    Linked (s.pushActive tab) := by
  have hprevious : Linked { s with nextTabId := tab.id } :=
    ⟨⟨h.numbered.distinct, hfresh⟩, h.sources, h.unique⟩
  have hpushed := hprevious.pushActive rfl hsource
  exact ⟨⟨hpushed.numbered.distinct, fun other hother =>
    Nat.lt_of_lt_of_le (hpushed.numbered.below other hother) hbelow⟩,
    hpushed.sources, hpushed.unique⟩

theorem Linked.place (h : Linked s) {tab : Tab} (hid : tab.id = s.nextTabId)
    (hsource : tab.previewSource = none) :
    Linked (s.allocated.placeEditorTabReusingScratch tab) := by
  unfold placeEditorTabReusingScratch
  split
  · rename_i scratchId _
    have hshrinks := shrinks_removeTabById s.allocated scratchId
    refine (h.allocated.removeTabById scratchId).push (fun other hother => ?_) ?_ hsource
    · rw [hid]
      exact h.numbered.below other (hshrinks.tabs.subset hother)
    · rw [hshrinks.next, hid]
      exact Nat.lt_succ_self _
  · exact h.pushActive hid hsource

theorem mem_place {tab other : Tab} (h : other ∈ (s.placeEditorTabReusingScratch tab).tabs) :
    other ∈ s.tabs ∨ other = tab := by
  unfold placeEditorTabReusingScratch at h
  split at h
  · rename_i scratchId _
    rcases List.mem_append.mp h with hold | hnew
    · exact Or.inl ((shrinks_removeTabById s scratchId).tabs.subset hold)
    · exact Or.inr (List.mem_singleton.mp hnew)
  · rcases List.mem_append.mp h with hold | hnew
    · exact Or.inl hold
    · exact Or.inr (List.mem_singleton.mp hnew)

theorem placed_last (s : TabManager) (tab : Tab) :
    (s.placeEditorTabReusingScratch tab).tabs[
        (s.placeEditorTabReusingScratch tab).tabs.length - 1]? =
      some tab := by
  unfold placeEditorTabReusingScratch
  split
  · simp [TabManager.pushActive]
  · simp [TabManager.pushActive]

theorem Linked.maybeOpenMarkdownPreview (h : Linked s) {index : Nat}
    (hnone : ∀ source, s.tabs[index]? = some source →
      ∀ other ∈ s.tabs, other.previewSource ≠ some source.id) :
    Linked (s.maybeOpenMarkdownPreviewForEditor index) := by
  unfold maybeOpenMarkdownPreviewForEditor
  split
  · exact h
  · split
    · rename_i tab hat
      split
      · exact h
      · exact h.insertPreview (List.mem_of_getElem? hat) (hnone _ hat) (getElem?_lt hat) tab.title
    · exact h

theorem Linked.duplicateTab (h : Linked s) (index : Nat) : Linked (s.duplicateTab index) := by
  unfold TabManager.duplicateTab
  split
  · rename_i tab markdown hat
    have hperm := insertAt_perm s.allocated (.editor (tab.duplicate s.nextTabId) markdown)
      (getElem?_lt hat)
    refine h.joined hperm rfl rfl fun sourceId hlink => ?_
    cases hlink
  · exact h

/-- The toggle closes the preview there is, or opens one where there is none. -/
theorem Linked.openMarkdownPreviewTab (h : Linked s) : Linked s.openMarkdownPreviewTab := by
  unfold TabManager.openMarkdownPreviewTab
  split
  · exact h
  · split
    · exact h
    · rename_i editorId hsource
      split
      · exact h.removeTabById _
      · rename_i hnone
        split
        · rename_i tab markdown hactive
          split
          · exact h
          · obtain ⟨activeId, hid, hfind⟩ := Option.bind_eq_some_iff.mp hactive
            have heditor := (find_mem hfind).1
            have hshown : editorId = tab.id := by
              simp only [previewSourceId, hactive, Option.some.injEq] at hsource
              exact hsource.symm
            have hlt := activeTabIndex_lt heditor
            subst hshown
            refine linked_keptByRemovals.setActiveTab _ (h.insertPreview heditor ?_ hlt tab.title)
            intro other hother hpreviews
            exact List.find?_eq_none.mp hnone other hother (Tab.previews_iff.mpr hpreviews)
        · exact h

/-! ## Moves and edits -/

theorem reorderTab_perm (s : TabManager) (source slot : Nat) :
    (s.reorderTab source slot).tabs.Perm s.tabs := by
  unfold reorderTab
  split
  · exact List.Perm.refl _
  · rename_i hbounds
    split
    · exact List.Perm.refl _
    · split
      · rename_i tab hat
        obtain ⟨hlt, rfl⟩ := List.getElem?_eq_some_iff.mp hat
        have hlength := List.length_eraseIdx_of_lt hlt
        have hslot :
          (if source < slot then slot - 1 else slot) ≤ (s.tabs.eraseIdx source).length := by
          split <;> omega
        exact (List.perm_insertIdx _ _ hslot).trans (List.getElem_cons_eraseIdx_perm hlt)
      · exact List.Perm.refl _

theorem reorderTab_next (s : TabManager) (source slot : Nat) :
    (s.reorderTab source slot).nextTabId = s.nextTabId := by
  unfold reorderTab
  split
  · rfl
  · split
    · rfl
    · split
      · rfl
      · rfl

theorem change_previewSource (tab : Tab) (tabId : Nat) (changed : EditorTab) (markdown : Bool) :
    (tab.change tabId changed markdown).previewSource = tab.previewSource := by
  unfold Tab.change
  split
  · split
    · rfl
    · rfl
  · rfl

theorem change_asEditor (tab : Tab) (tabId : Nat) (changed : EditorTab) (markdown : Bool) :
    (tab.change tabId changed markdown).asEditor.isSome = tab.asEditor.isSome := by
  unfold Tab.change
  split
  · split
    · rfl
    · rfl
  · rfl

/-- An editor tab keeps its identifier and stays an editor tab whatever becomes of its text. -/
theorem Linked.changeEditor (h : Linked s) (tabId : Nat) (changed : EditorTab) (markdown : Bool) :
    Linked (s.changeEditor tabId changed markdown) where
  numbered := h.numbered.changeEditor tabId changed markdown
  sources := by
    intro tab htab sourceId hsource
    obtain ⟨old, hold, rfl⟩ := List.mem_map.mp htab
    rw [change_previewSource] at hsource
    obtain ⟨source, hmem, hid, heditor⟩ := h.sources old hold sourceId hsource
    refine ⟨_, List.mem_map.mpr ⟨source, hmem, rfl⟩, ?_, ?_⟩
    · rw [change_id]
      exact hid
    · rw [change_asEditor]
      exact heditor
  unique := by
    intro tab htab other hother sourceId hsource hotherSource
    obtain ⟨old, hold, rfl⟩ := List.mem_map.mp htab
    obtain ⟨otherOld, hotherOld, rfl⟩ := List.mem_map.mp hother
    rw [change_previewSource] at hsource hotherSource
    rw [h.unique old hold otherOld hotherOld sourceId hsource hotherSource]

/-! ## Steps -/

/-- The file opens last in the strip, and its preview after it. -/
theorem Linked.openFile (h : Linked s) {path : PathBuf} {decoded : DecodedContents}
    {markdown : Bool} (hstep : s.step (.openFile path decoded markdown) = some s') : Linked s' := by
  cases hstep
  have hplaced : Linked (s.allocated.placeEditorTabReusingScratch (.editor
      { EditorTab.fromFile
          { id := s.nextTabId, path := path, contents := decoded.content,
            encoding := decoded.encoding, isModified := false } with
        lossyDecode := decoded.lossy } markdown)) := h.place rfl rfl
  refine hplaced.maybeOpenMarkdownPreview fun source hat other hother => ?_
  rw [placed_last] at hat
  obtain rfl := Option.some.inj hat
  rcases mem_place hother with hold | rfl
  · exact h.unseen (Nat.le_refl _) other hold
  · exact nofun

theorem Linked.openSettings (h : Linked s) : Linked s.openSettings := by
  unfold TabManager.openSettings
  split
  · exact linked_keptByRemovals.setActiveTab _ h
  · exact h.pushActive rfl rfl

theorem Linked.step (h : Linked s) {action : TabAction} (hstep : s.step action = some s') :
    Linked s' := by
  by_cases honly : action.onlyRemoves = true
  · exact linked_keptByRemovals.step honly hstep h
  cases action with
  | newTab markdown =>
      cases hstep
      exact h.pushActive rfl rfl
  | openFile path decoded markdown => exact h.openFile hstep
  | openRemoteFile result markdown =>
      cases hstep
      exact h.place rfl rfl
  | openSharedFile contents fileName markdown =>
      cases hstep
      exact h.pushActive rfl rfl
  | duplicateTab tabId =>
      obtain ⟨index, -, rfl⟩ := Option.map_eq_some_iff.mp hstep
      exact h.duplicateTab index
  | openMarkdownPreviewTab =>
      cases hstep
      exact h.openMarkdownPreviewTab
  | openSettings =>
      cases hstep
      exact h.openSettings
  | handleTabDrop tabId slot =>
      obtain ⟨source, -, rfl⟩ := Option.map_eq_some_iff.mp hstep
      exact h.of_perm (s.reorderTab_perm source slot) (s.reorderTab_next source slot)
  | handlePendingTabTransfer data markdown =>
      cases hstep
      exact h.pushActive rfl rfl
  | changeEditor tabId changed markdown =>
      cases hstep
      exact h.changeEditor tabId changed markdown
  | _ => exact absurd rfl honly

/-! ## A window as it starts -/

/-- From a position on, no tab has a preview yet. -/
def UnshownFrom (s : TabManager) (index : Nat) : Prop :=
  ∀ source ∈ s.tabs.drop index, ∀ tab ∈ s.tabs, tab.previewSource ≠ some source.id

theorem UnshownFrom.succ {index : Nat} (h : UnshownFrom s index) : UnshownFrom s (index + 1) :=
  fun source hsource =>
    h source ((List.drop_suffix_drop_left s.tabs (Nat.le_succ index)).subset hsource)

theorem insertAt_drop (s : TabManager) (tab : Tab) (index : Nat) :
    (s.insertAt (index + 1) tab).tabs.drop (index + 2) = s.tabs.drop (index + 1) := by
  refine List.ext_getElem? fun i => ?_
  rw [List.getElem?_drop, List.getElem?_drop]
  show (s.tabs.insertIdx (index + 1) tab)[index + 2 + i]? = s.tabs[index + 1 + i]?
  rw [List.getElem?_insertIdx_of_gt (by omega)]
  congr 1
  omega

/-- One round of the loop: the preview it inserts is of no tab that is still to come. -/
theorem UnshownFrom.insertPreview (h : Linked s) {index : Nat} {editor : EditorTab}
    {markdown : Bool} (hat : s.tabs[index]? = some (.editor editor markdown))
    (hunshown : UnshownFrom s index) (title : String) :
    UnshownFrom (s.allocated.insertAt (index + 1) (s.buildPreviewTab editor.id title))
      (index + 2) := by
  obtain ⟨hlt, hget⟩ := List.getElem?_eq_some_iff.mp hat
  intro source hsource tab htab
  rw [s.allocated.insertAt_drop] at hsource
  rcases List.mem_cons.mp ((s.allocated.insertAt_perm _ hlt).mem_iff.mp htab) with rfl | hold
  · intro hsame
    have hid : editor.id = source.id := Option.some.inj hsame
    have hdistinct := h.numbered.distinct
    rw [← List.take_append_drop (index + 1) s.tabs, List.map_append, List.nodup_append] at hdistinct
    refine hdistinct.2.2 editor.id (List.mem_map.mpr ⟨.editor editor markdown, ?_, rfl⟩) source.id
      (List.mem_map_of_mem hsource) hid
    rw [List.take_add_one, hat]
    exact List.mem_append_right _ List.mem_cons_self
  · exact hunshown.succ source hsource tab hold

/-- The loop over the restored tabs gives each Markdown file its preview, and only one. -/
theorem Linked.insertPreviewsFrom (h : Linked s) (left : Nat) {index : Nat}
    (hunshown : UnshownFrom s index) : Linked (insertPreviewsFrom left s index) := by
  induction left generalizing s index with
  | zero => exact h
  | succ left ih =>
      rw [TabManager.insertPreviewsFrom, insertPreviewAt]
      split
      · rename_i inserted hinserted
        split at hinserted
        · rename_i editor hat
          split at hinserted
          · cases hinserted
          · cases hinserted
            have hmem := List.mem_of_getElem? hat
            have hlt := getElem?_lt hat
            have hdrop : Tab.editor editor true ∈ s.tabs.drop index := by
              rw [List.drop_eq_getElem_cons hlt, (List.getElem?_eq_some_iff.mp hat).2]
              exact List.mem_cons_self
            exact ih (h.insertPreview hmem (hunshown _ hdrop) hlt editor.title)
              (hunshown.insertPreview h hat editor.title)
        · cases hinserted
      · exact ih h hunshown.succ

theorem Linked.insertPreviewTabsForMarkdown (h : Linked s) (hunshown : UnshownFrom s 0) :
    Linked s.insertPreviewTabsForMarkdown := by
  unfold TabManager.insertPreviewTabsForMarkdown
  split
  · exact h
  · exact h.insertPreviewsFrom _ hunshown

/-- A strip of editor tabs with identifiers of their own. -/
theorem linked_of_editors (heditors : ∀ tab ∈ s.tabs, tab.previewSource = none)
    (hnumbered : Numbered s) : Linked s where
  numbered := hnumbered
  sources := by
    intro tab htab sourceId hsource
    rw [heditors tab htab] at hsource
    cases hsource
  unique := by
    intro tab htab other hother sourceId hsource
    rw [heditors tab htab] at hsource
    cases hsource

/-- The restored tabs, before any preview is opened. -/
theorem numbered_restored (context : RestoreContext) {windowState : WindowState}
    (h : windowState.Identified)
    (htabs : s.tabs = (restoreTabs context windowState.tabs ([], 0)).1.map
      fun tab => .editor tab (context.isMarkdown tab))
    (hnext : s.nextTabId = saturatingSucc (restoreTabs context windowState.tabs ([], 0)).2) :
    Numbered s where
  distinct := by
    rw [htabs, List.map_map]
    exact nodup_restored context h.distinct
  below := by
    intro tab htab
    rw [htabs] at htab
    obtain ⟨editor, heditor, rfl⟩ := List.mem_map.mp htab
    have hle := @le_restoreTabs context windowState.tabs ([], 0)
      (fun _ hnil => absurd hnil List.not_mem_nil) editor heditor
    have hhighest : (restoreTabs context windowState.tabs ([], 0)).2 ≤ 2 ^ 64 - 2 := by
      refine restoreTabs_highest context windowState.tabs (Nat.zero_le _)
        fun tabState htabState => ?_
      have hbounded := h.bounded tabState htabState
      omega
    rw [hnext, saturatingSucc]
    show editor.id < _
    omega

theorem linked_restoreWindow (context : RestoreContext) (s : TabManager)
    {windowState : WindowState} (h : windowState.Identified) :
    Linked (s.restoreWindow context windowState) := by
  have heditors : ∀ tab ∈ ((restoreTabs context windowState.tabs ([], 0)).1.map
      fun tab => Tab.editor tab (context.isMarkdown tab)), tab.previewSource = none := by
    intro tab htab
    obtain ⟨editor, -, rfl⟩ := List.mem_map.mp htab
    rfl
  have hrestored := linked_of_editors (s := { s with
    tabs := (restoreTabs context windowState.tabs ([], 0)).1.map fun tab =>
      .editor tab (context.isMarkdown tab)
    nextTabId := saturatingSucc (restoreTabs context windowState.tabs ([], 0)).2 })
    heditors (numbered_restored context h rfl rfl)
  refine (hrestored.insertPreviewTabsForMarkdown fun source _ tab htab => ?_).of_eq rfl rfl
  rw [heditors tab htab]
  exact nofun

/-- A window with one fresh tab. -/
theorem linked_initial (htabs : s.tabs = [.editor (.new 0 UNTITLED) false])
    (hnext : s.nextTabId = 1) : Linked s := by
  refine linked_of_editors (fun tab htab => ?_) ⟨?_, fun tab htab => ?_⟩
  · rw [htabs] at htab
    rw [List.mem_singleton.mp htab]
    rfl
  · rw [htabs]
    exact List.nodup_singleton _
  · rw [htabs] at htab
    rw [List.mem_singleton.mp htab, hnext]
    exact Nat.zero_lt_one

theorem linked_empty (dedicatedTab showMarkdownPreview : Bool) :
    Linked (empty dedicatedTab showMarkdownPreview) :=
  linked_of_editors (fun _ hnil => absurd hnil List.not_mem_nil)
    (numbered_empty dedicatedTab showMarkdownPreview)

theorem linked_launched (context : RestoreContext) (dedicatedTab showMarkdownPreview : Bool)
    {origin : WindowOrigin} (h : origin.Identified) :
    Linked (launched context dedicatedTab showMarkdownPreview origin) := by
  have hempty := linked_empty dedicatedTab showMarkdownPreview
  cases origin with
  | fresh => exact linked_initial rfl rfl
  | restored windowState =>
      cases windowState with
      | none => exact linked_initial rfl rfl
      | some windowState =>
          unfold launched loadState
          dsimp only
          split
          · exact linked_initial rfl rfl
          · exact linked_restoreWindow context _ (h windowState rfl)
  | transfer => exact hempty

/-- Whatever became of a window since its creation. -/
theorem linked_of_run {context : RestoreContext} {dedicatedTab showMarkdownPreview : Bool}
    {origin : WindowOrigin} {actions : List TabAction} {s : TabManager}
    (hidentified : origin.Identified)
    (hrun : run step (launched context dedicatedTab showMarkdownPreview origin) actions = some s) :
    Linked s :=
  invariant_of_run Linked (fun _ _ _ h hstep => h.step hstep)
    (linked_launched context dedicatedTab showMarkdownPreview hidentified) hrun

/--
In every run of a window that is created fresh, from a snapshot whose tabs have
identifiers of their own, or for a tab of another window, each preview shows an
editor tab of the window, and no two previews show the same one.
-/
theorem previews_linked {context : RestoreContext} {dedicatedTab showMarkdownPreview : Bool}
    {origin : WindowOrigin} {actions : List TabAction} {s : TabManager}
    (hidentified : origin.Identified)
    (hrun : run step (launched context dedicatedTab showMarkdownPreview origin) actions = some s) :
    s.PreviewsLinked :=
  (linked_of_run hidentified hrun).previewsLinked

/-- Two unsaved buffers, the second of them active. -/
def sampleWindowState : WindowState where
  windowId := 1
  tabs := [⟨7, "a", none, some (.text "a"), none, none, false, none⟩,
    ⟨4, "b", none, some (.text "b"), none, none, false, none⟩]
  activeTabIndex := some 1
  windowBounds := .default

def sampleContext : RestoreContext where
  encodings := sampleEncodings
  parse := sampleParse
  disk := fun _ => .missing
  isMarkdown := fun _ => true

/-- The previews of the restored tabs: one is closed and opened again, one goes with its source. -/
def samplePreviewRun : List TabAction :=
  [.openMarkdownPreviewTab, .openMarkdownPreviewTab, .duplicateTab 7, .openMarkdownPreviewTab,
    .handleTabDrop 4 0, .closeTab 4, .confirmDialog 0, .newTab true]

theorem previews_linked_sample :
    ∃ s, run step (launched sampleContext true true (.restored (some sampleWindowState)))
      samplePreviewRun = some s ∧
        s.tabs.map (fun tab => (tab.id, tab.previewSource)) =
          [(7, none), (11, none), (12, some 11), (8, some 7), (13, none)] ∧ s.PreviewsLinked := by
  obtain ⟨s, hrun, htabs⟩ := exists_of_any (show (run step (launched sampleContext true true
    (.restored (some sampleWindowState))) samplePreviewRun).any (fun s =>
      decide (s.tabs.map (fun tab => (tab.id, tab.previewSource)) =
        [(7, none), (11, none), (12, some 11), (8, some 7), (13, none)])) = true by decide +kernel)
  have hidentified : (WindowOrigin.restored (some sampleWindowState)).Identified := by
    intro saved hsaved
    cases hsaved
    exact ⟨by decide, by decide⟩
  exact ⟨s, hrun, htabs, previews_linked hidentified hrun⟩

end TabManager

end Fulgur
