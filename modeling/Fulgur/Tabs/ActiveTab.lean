import Mathlib.Data.List.Nodup
import Mathlib.Data.List.Perm.Basic
import Fulgur.Library.Run
import Fulgur.Tabs.Manager

/-! # The active tab of a window

The active tab is a tab of the strip, and there is none exactly when the strip is
empty. Every operation re-anchors what it removes, but closing the tabs other
than a preview takes the preview with its source and makes it active again.
-/

namespace Fulgur

open LabelledRun

namespace TabManager

/-- There is an active tab unless the strip is empty, and it is in the strip. -/
def ActiveOpen (s : TabManager) : Prop :=
  (s.activeTabId = none ↔ s.tabs = []) ∧
    ∀ tabId, s.activeTabId = some tabId → ∃ tab ∈ s.tabs, tab.id = tabId

/--
Closing the other tabs leaves the active one: it is not the preview of a tab of
the strip, or another tab is modified and the operation stops to ask.
-/
def KeepsActive (s : TabManager) : Prop :=
  ∀ active ∈ s.tabs, s.activeTabId = some active.id →
    (∃ source ∈ s.tabs, active.previews source.id = true) →
      ∃ other ∈ s.tabs, other.id ≠ active.id ∧ other.isModified = true

instance (s : TabManager) : Decidable s.KeepsActive :=
  inferInstanceAs (Decidable (∀ active ∈ s.tabs, s.activeTabId = some active.id →
    (∃ source ∈ s.tabs, active.previews source.id = true) → ∃ other ∈ s.tabs, _ ∧ _))

/-- What the confirmed dialog `onConfirm` must keep to. -/
def ConfirmKeepsActive (s : TabManager) : OnConfirm → Prop
  | .closeOtherTabs tabId activeTabId => (s.confirmedOthers tabId activeTabId).KeepsActive
  | _ => True

instance (s : TabManager) (onConfirm : OnConfirm) : Decidable (s.ConfirmKeepsActive onConfirm) :=
  match onConfirm with
  | .closeOtherTabs tabId activeTabId =>
      inferInstanceAs (Decidable (s.confirmedOthers tabId activeTabId).KeepsActive)
  | .closeTab _ => isTrue trivial
  | .closeAllTabs _ => isTrue trivial
  | .closeTabsToLeft _ _ => isTrue trivial
  | .closeTabsToRight _ _ => isTrue trivial

/-- Wherever a run closes the other tabs, that leaves the active one. -/
def AnchoredStep (s : TabManager) : TabAction → Prop
  | .closeOtherTabs => s.KeepsActive
  | .confirmDialog index => ∀ onConfirm ∈ s.dialogs[index]?,
      { s with dialogs := s.dialogs.eraseIdx index }.ConfirmKeepsActive onConfirm
  | _ => True

instance : ∀ (s : TabManager) (action : TabAction), Decidable (s.AnchoredStep action)
  | s, .closeOtherTabs => inferInstanceAs (Decidable s.KeepsActive)
  | s, .confirmDialog index => inferInstanceAs (Decidable (∀ onConfirm ∈ s.dialogs[index]?,
      { s with dialogs := s.dialogs.eraseIdx index }.ConfirmKeepsActive onConfirm))
  | _, .newTab _ => isTrue trivial
  | _, .openFile _ _ _ => isTrue trivial
  | _, .openRemoteFile _ _ => isTrue trivial
  | _, .openSharedFile _ _ _ => isTrue trivial
  | _, .focusExisting _ => isTrue trivial
  | _, .duplicateTab _ => isTrue trivial
  | _, .openMarkdownPreviewTab => isTrue trivial
  | _, .openSettings => isTrue trivial
  | _, .setActiveTab _ => isTrue trivial
  | _, .nextTab => isTrue trivial
  | _, .previousTab => isTrue trivial
  | _, .closeTab _ => isTrue trivial
  | _, .closeActiveTab => isTrue trivial
  | _, .closeAllTabs => isTrue trivial
  | _, .closeTabsToLeft _ => isTrue trivial
  | _, .closeTabsToRight _ => isTrue trivial
  | _, .cancelDialog _ => isTrue trivial
  | _, .handleTabDrop _ _ => isTrue trivial
  | _, .handlePendingTabTransfer _ _ => isTrue trivial
  | _, .handlePendingTabRemoval _ => isTrue trivial
  | _, .changeEditor _ _ _ => isTrue trivial
  | _, .changeSettings _ _ => isTrue trivial
  | _, .render => isTrue trivial

/-! ## Which tabs are in the strip -/

/-- No two tabs share an identifier, and none has one that is still to be allocated. -/
structure Numbered (s : TabManager) : Prop where
  distinct : (s.tabs.map Tab.id).Nodup
  below : ∀ tab ∈ s.tabs, tab.id < s.nextTabId

/-- Some tabs are taken out, and nothing else happens to the strip. -/
structure Shrinks (s s' : TabManager) : Prop where
  tabs : s'.tabs.Sublist s.tabs
  next : s'.nextTabId = s.nextTabId

variable {s s' : TabManager}

theorem Shrinks.refl (s : TabManager) : Shrinks s s := ⟨List.Sublist.refl _, rfl⟩

theorem Shrinks.trans {s'' : TabManager} (h : Shrinks s s') (h' : Shrinks s' s'') :
    Shrinks s s'' :=
  ⟨h'.tabs.trans h.tabs, h'.next.trans h.next⟩

theorem Shrinks.of_eq (htabs : s'.tabs = s.tabs) (hnext : s'.nextTabId = s.nextTabId) :
    Shrinks s s' :=
  ⟨htabs ▸ List.Sublist.refl _, hnext⟩

theorem Numbered.shrinks (h : Numbered s) (hshrinks : Shrinks s s') : Numbered s' where
  distinct := h.distinct.sublist (hshrinks.tabs.map Tab.id)
  below := by
    intro tab htab
    rw [hshrinks.next]
    exact h.below tab (hshrinks.tabs.subset htab)

theorem Numbered.eq_of_id (h : Numbered s) {tab other : Tab} (htab : tab ∈ s.tabs)
    (hother : other ∈ s.tabs) (hid : tab.id = other.id) : tab = other :=
  List.inj_on_of_nodup_map h.distinct htab hother hid

theorem Numbered.joined (h : Numbered s) {tab : Tab} (htabs : s'.tabs.Perm (tab :: s.tabs))
    (hid : tab.id = s.nextTabId) (hnext : s'.nextTabId = s.nextTabId + 1) : Numbered s' where
  distinct := by
    rw [(htabs.map Tab.id).nodup_iff, List.map_cons, List.nodup_cons]
    refine ⟨fun hmem => ?_, h.distinct⟩
    rcases List.mem_map.mp hmem with ⟨other, hother, hsame⟩
    have hlt := h.below other hother
    omega
  below := by
    intro other hother
    rw [hnext]
    rcases List.mem_cons.mp (htabs.mem_iff.mp hother) with rfl | hold
    · omega
    · have hlt := h.below other hold
      omega

theorem numbered_empty (dedicatedTab showMarkdownPreview : Bool) :
    Numbered (empty dedicatedTab showMarkdownPreview) :=
  ⟨List.nodup_nil, by simp [empty]⟩

/-! ### Removals -/

theorem closeTabManageFocus_kept (s : TabManager) (pos : Nat) :
    (s.closeTabManageFocus pos).tabs = s.tabs ∧
      (s.closeTabManageFocus pos).nextTabId = s.nextTabId ∧
      (s.closeTabManageFocus pos).dialogs = s.dialogs := by
  unfold closeTabManageFocus
  split
  · exact ⟨rfl, rfl, rfl⟩
  · split
    · exact ⟨rfl, rfl, rfl⟩
    · exact ⟨rfl, rfl, rfl⟩

theorem removeAt_tabs (s : TabManager) (pos : Nat) : (s.removeAt pos).tabs = s.tabs.eraseIdx pos :=
  (closeTabManageFocus_kept _ pos).1

theorem shrinks_removeAt (s : TabManager) (pos : Nat) : Shrinks s (s.removeAt pos) where
  tabs := by
    rw [removeAt_tabs]
    exact List.eraseIdx_sublist s.tabs pos
  next := (closeTabManageFocus_kept _ pos).2.1

theorem shrinks_removeTabById (s : TabManager) (tabId : Nat) :
    Shrinks s (s.removeTabById tabId) := by
  unfold removeTabById
  split
  · exact Shrinks.refl s
  · simp only
    split
    · exact shrinks_removeAt s _
    · exact (shrinks_removeAt s _).trans (shrinks_removeAt _ _)

theorem tabIndexOf_spec {tabId pos : Nat} (h : s.tabIndexOf tabId = some pos) :
    ∃ tab, s.tabs[pos]? = some tab ∧ tab ∈ s.tabs ∧ tab.id = tabId := by
  rcases List.findIdx?_eq_some_iff_getElem.mp h with ⟨hlt, hid, _⟩
  exact ⟨_, List.getElem?_eq_getElem hlt, List.getElem_mem hlt, of_decide_eq_true hid⟩

theorem find_mem {tabId : Nat} {tab : Tab} (h : s.findTab tabId = some tab) :
    tab ∈ s.tabs ∧ tab.id = tabId :=
  ⟨List.mem_of_find?_eq_some h, by simpa using List.find?_some h⟩

theorem contains_iff {tabId : Nat} : s.contains tabId = true ↔ ∃ tab ∈ s.tabs, tab.id = tabId := by
  simp [contains]

theorem removeAt_eq_eraseP {tabId pos : Nat} (hpos : s.tabIndexOf tabId = some pos) :
    (s.removeAt pos).tabs = s.tabs.eraseP fun tab => tab.id = tabId := by
  have hfound : s.tabs.findIdx? (fun tab => tab.id = tabId) = some pos := hpos
  rw [removeAt_tabs, List.eraseP_eq_eraseIdx, hfound]

theorem removeAt_perm {tabId pos : Nat} (hpos : s.tabIndexOf tabId = some pos) :
    ∃ tab ∈ s.tabs, tab.id = tabId ∧ s.tabs.Perm (tab :: (s.removeAt pos).tabs) := by
  rcases tabIndexOf_spec hpos with ⟨tab, hat, hmem, hid⟩
  rcases List.getElem?_eq_some_iff.mp hat with ⟨hlt, rfl⟩
  rw [removeAt_tabs]
  exact ⟨_, hmem, hid, (List.getElem_cons_eraseIdx_perm hlt).symm⟩

theorem mem_removeAt {tabId pos : Nat} (hpos : s.tabIndexOf tabId = some pos) {tab : Tab}
    (htab : tab ∈ s.tabs) (hid : tab.id ≠ tabId) : tab ∈ (s.removeAt pos).tabs := by
  rw [removeAt_eq_eraseP hpos, List.mem_eraseP_of_neg (by simpa using hid)]
  exact htab

theorem linkedPreviewId_spec {tab : Tab} {previewId : Nat}
    (h : s.linkedPreviewId tab = some previewId) :
    ∃ preview ∈ s.tabs, preview.previews tab.id = true ∧ preview.id = previewId := by
  unfold linkedPreviewId at h
  split at h
  · rcases Option.map_eq_some_iff.mp h with ⟨preview, hfind, hid⟩
    exact ⟨preview, List.mem_of_find?_eq_some hfind, List.find?_some hfind, hid⟩
  · cases h

/-- Only the tab itself and a preview of it are taken out. -/
theorem mem_removeTabById (h : Numbered s) {tabId : Nat} {tab : Tab} (htab : tab ∈ s.tabs)
    (hid : tab.id ≠ tabId) (hpreview : tab.previews tabId = false) :
    tab ∈ (s.removeTabById tabId).tabs := by
  unfold removeTabById
  split
  · exact htab
  · rename_i pos hpos
    have hkept := mem_removeAt hpos htab hid
    simp only
    split
    · exact hkept
    · rename_i previewPos hpreviewPos
      rcases Option.bind_eq_some_iff.mp hpreviewPos with ⟨previewId, hlinked, hat⟩
      rcases tabIndexOf_spec hpos with ⟨removed, hremoved, _, hremovedId⟩
      rw [hremoved, Option.bind_some] at hlinked
      rcases linkedPreviewId_spec hlinked with ⟨preview, hmem, hpreviews, rfl⟩
      refine mem_removeAt hat hkept fun hsame => ?_
      have heq := h.eq_of_id htab hmem hsame
      rw [heq, ← hremovedId, hpreviews] at hpreview
      cases hpreview

theorem not_previews_of_modified {tab : Tab} (h : tab.isModified = true) (tabId : Nat) :
    tab.previews tabId = false := by
  cases tab with
  | editor tab markdown => rfl
  | settings tab => rfl
  | markdownPreview tab => cases h

/-! ## The active tab after each operation -/

theorem activeOpen_empty (dedicatedTab showMarkdownPreview : Bool) :
    ActiveOpen (empty dedicatedTab showMarkdownPreview) :=
  ⟨by simp [empty], by simp [empty]⟩

theorem activeOpen_of_mem {tab : Tab} (htab : tab ∈ s.tabs)
    (hactive : s.activeTabId = some tab.id) :
    ActiveOpen s := by
  constructor
  · rw [hactive]
    exact ⟨nofun, fun hnil => absurd htab (by simp [hnil])⟩
  · intro tabId hid
    rw [hactive] at hid
    exact ⟨tab, htab, Option.some.inj hid⟩

theorem activeOpen_of_nil (htabs : s.tabs = []) (hactive : s.activeTabId = none) : ActiveOpen s :=
  ⟨by simp [htabs, hactive], by simp [hactive]⟩

theorem ActiveOpen.of_ids (h : ActiveOpen s) (hactive : s'.activeTabId = s.activeTabId)
    (hids : ∀ tab ∈ s.tabs, ∃ tab' ∈ s'.tabs, tab'.id = tab.id)
    (hnil : s.tabs = [] → s'.tabs = []) : ActiveOpen s' := by
  cases hid : s.activeTabId with
  | none => exact activeOpen_of_nil (hnil (h.1.mp hid)) (hactive.trans hid)
  | some tabId =>
      rcases h.2 tabId hid with ⟨tab, htab, rfl⟩
      rcases hids tab htab with ⟨tab', htab', hsame⟩
      exact activeOpen_of_mem htab' (by rw [hactive, hid, hsame])

theorem ActiveOpen.of_eq (h : ActiveOpen s) (htabs : s'.tabs = s.tabs)
    (hactive : s'.activeTabId = s.activeTabId) : ActiveOpen s' :=
  h.of_ids hactive (fun tab htab => ⟨tab, htabs ▸ htab, rfl⟩) (fun hnil => htabs.trans hnil)

/-- Whatever was active, after a removal the strip is anchored again. -/
theorem activeOpen_closeTabManageFocus (s : TabManager) (pos : Nat) :
    ActiveOpen (s.closeTabManageFocus pos) := by
  unfold closeTabManageFocus
  split
  · rename_i hempty
    exact activeOpen_of_nil (List.isEmpty_iff.mp hempty) rfl
  · rename_i hempty
    split
    · have hlength : 0 < s.tabs.length := List.length_pos_iff.mpr (by simpa using hempty)
      have hlt : min pos (s.tabs.length - 1) < s.tabs.length := by omega
      have hmem : s.tabs.get ⟨_, hlt⟩ ∈ s.tabs := List.get_mem _ _
      exact activeOpen_of_mem hmem (by simp [List.getElem?_eq_getElem hlt])
    · rename_i hindex
      have hfound : s.activeTabIndex.isSome = true := by
        simpa [Option.isSome_iff_ne_none] using hindex
      rcases Option.isSome_iff_exists.mp hfound with ⟨index, hactive⟩
      rcases Option.bind_eq_some_iff.mp hactive with ⟨tabId, hid, hpos⟩
      rcases tabIndexOf_spec hpos with ⟨tab, _, htab, rfl⟩
      exact activeOpen_of_mem htab hid

theorem activeOpen_removeAt (s : TabManager) (pos : Nat) : ActiveOpen (s.removeAt pos) :=
  activeOpen_closeTabManageFocus _ pos

theorem ActiveOpen.removeTabById (h : ActiveOpen s) (tabId : Nat) :
    ActiveOpen (s.removeTabById tabId) := by
  unfold TabManager.removeTabById
  split
  · exact h
  · simp only
    split
    · exact activeOpen_removeAt s _
    · exact activeOpen_removeAt _ _

theorem ActiveOpen.setActiveTab (h : ActiveOpen s) (index : Nat) :
    ActiveOpen (s.setActiveTab index) := by
  unfold TabManager.setActiveTab
  split
  · rename_i hlt
    have hmem : s.tabs.get ⟨index, hlt⟩ ∈ s.tabs := List.get_mem _ _
    exact activeOpen_of_mem hmem (by simp [List.getElem?_eq_getElem hlt])
  · exact h

theorem ActiveOpen.showUnsavedChangesDialog (h : ActiveOpen s) (onConfirm : OnConfirm) :
    ActiveOpen (s.showUnsavedChangesDialog onConfirm) :=
  h.of_eq rfl rfl

theorem activeOpen_pushActive (s : TabManager) (tab : Tab) : ActiveOpen (s.pushActive tab) :=
  activeOpen_of_mem (List.mem_append_right _ List.mem_cons_self) rfl

theorem insertAt_perm (s : TabManager) (tab : Tab) {pos : Nat} (hpos : pos ≤ s.tabs.length) :
    (s.insertAt pos tab).tabs.Perm (tab :: s.tabs) :=
  List.perm_insertIdx tab s.tabs hpos

theorem ActiveOpen.insertAt (h : ActiveOpen s) (tab : Tab) {index : Nat}
    (hlt : index < s.tabs.length) : ActiveOpen (s.insertAt (index + 1) tab) := by
  have hperm := s.insertAt_perm tab hlt
  refine h.of_ids rfl (fun other hother => ⟨other, ?_, rfl⟩) fun hnil => ?_
  · exact hperm.mem_iff.mpr (List.mem_cons_of_mem _ hother)
  · rw [hnil] at hlt
    cases hlt

/-! ### Closing several tabs -/

theorem setActiveTab_kept (s : TabManager) (index : Nat) :
    (s.setActiveTab index).tabs = s.tabs ∧ (s.setActiveTab index).nextTabId = s.nextTabId := by
  unfold setActiveTab
  split
  · exact ⟨rfl, rfl⟩
  · exact ⟨rfl, rfl⟩

theorem shrinks_setActiveTab (s : TabManager) (index : Nat) : Shrinks s (s.setActiveTab index) :=
  Shrinks.of_eq (setActiveTab_kept s index).1 (setActiveTab_kept s index).2

theorem closeEach_kept (onConfirm : Nat → OnConfirm) (h : ActiveOpen s) (tabIds : List Nat) :
    Shrinks s (closeEach onConfirm s tabIds).1 ∧ ActiveOpen (closeEach onConfirm s tabIds).1 := by
  induction tabIds generalizing s with
  | nil => exact ⟨Shrinks.refl s, h⟩
  | cons tabId tabIds ih =>
      unfold closeEach
      split
      · exact ih h
      · split
        · cases hpos : s.tabIndexOf tabId with
          | none => exact ⟨Shrinks.of_eq rfl rfl, h.showUnsavedChangesDialog _⟩
          | some pos =>
              refine ⟨(shrinks_setActiveTab s pos).trans (Shrinks.of_eq rfl rfl), ?_⟩
              exact (h.setActiveTab pos).showUnsavedChangesDialog _
        · have hrest := ih (h.removeTabById tabId)
          exact ⟨(shrinks_removeTabById s tabId).trans hrest.1, hrest.2⟩

/-- A tab that is not closed, and is not the preview of one that is, stays. -/
theorem mem_closeEach (onConfirm : Nat → OnConfirm) (tabIds : List Nat) (h : Numbered s)
    {tab : Tab} (htab : tab ∈ s.tabs) (hid : tab.id ∉ tabIds)
    (hpreview : ∀ source ∈ s.tabs, tab.previews source.id = false) :
    tab ∈ (closeEach onConfirm s tabIds).1.tabs := by
  induction tabIds generalizing s with
  | nil => exact htab
  | cons tabId tabIds ih =>
      rw [List.mem_cons, not_or] at hid
      unfold closeEach
      split
      · exact ih h htab hid.2 hpreview
      · rename_i hcontained
        split
        · cases hpos : s.tabIndexOf tabId with
          | none => exact htab
          | some pos =>
              show tab ∈ (s.setActiveTab pos).tabs
              rw [(setActiveTab_kept s pos).1]
              exact htab
        · have hshrinks := shrinks_removeTabById s tabId
          rcases contains_iff.mp (by simpa using hcontained) with ⟨source, hsource, rfl⟩
          have hkept := mem_removeTabById h htab hid.1 (hpreview source hsource)
          exact ih (h.shrinks hshrinks) hkept hid.2 fun other hother =>
            hpreview other (hshrinks.tabs.subset hother)

/-- A modified tab among those to close stops the loop. -/
theorem closeEach_stops (onConfirm : Nat → OnConfirm) (tabIds : List Nat) (h : Numbered s)
    {tab : Tab} (htab : tab ∈ s.tabs) (hmodified : tab.isModified = true) (hid : tab.id ∈ tabIds) :
    (closeEach onConfirm s tabIds).2 = false := by
  induction tabIds generalizing s with
  | nil => cases hid
  | cons tabId tabIds ih =>
      unfold closeEach
      split
      · rename_i hmissing
        refine ih h htab ((List.mem_cons.mp hid).resolve_left fun hsame => ?_)
        have hcontained : s.contains tabId = true := contains_iff.mpr ⟨tab, htab, hsame⟩
        simp [hcontained] at hmissing
      · split
        · rfl
        · rename_i hunmodified
          have hother : tab.id ≠ tabId := by
            intro hsame
            cases hfind : s.findTab tabId with
            | none =>
                have hnone := List.find?_eq_none.mp hfind tab htab
                simp [hsame] at hnone
            | some found =>
                have heq := h.eq_of_id (find_mem hfind).1 htab ((find_mem hfind).2.trans hsame.symm)
                simp [checkTabModified, hfind, heq, hmodified] at hunmodified
          have hkept := mem_removeTabById h htab hother (not_previews_of_modified hmodified tabId)
          exact ih (h.shrinks (shrinks_removeTabById s tabId)) hkept
            ((List.mem_cons.mp hid).resolve_left hother)

theorem ActiveOpen.closeTab (h : ActiveOpen s) (tabId : Nat) : ActiveOpen (s.closeTab tabId) := by
  unfold TabManager.closeTab
  split
  · exact h
  · split
    · exact h.showUnsavedChangesDialog _
    · exact h.removeTabById tabId

theorem shrinks_closeTab (s : TabManager) (tabId : Nat) : Shrinks s (s.closeTab tabId) := by
  unfold closeTab
  split
  · exact Shrinks.refl s
  · split
    · exact Shrinks.of_eq rfl rfl
    · exact shrinks_removeTabById s tabId

theorem ActiveOpen.clearActiveIfEmpty (h : ActiveOpen s) : ActiveOpen s.clearActiveIfEmpty := by
  unfold TabManager.clearActiveIfEmpty
  split
  · rename_i hempty
    exact activeOpen_of_nil (List.isEmpty_iff.mp hempty) rfl
  · exact h

theorem shrinks_clearActiveIfEmpty (s : TabManager) : Shrinks s s.clearActiveIfEmpty := by
  unfold clearActiveIfEmpty
  split
  · exact Shrinks.of_eq rfl rfl
  · exact Shrinks.refl s

theorem closeAllTabs_kept (h : ActiveOpen s) :
    Shrinks s s.closeAllTabs ∧ ActiveOpen s.closeAllTabs := by
  unfold closeAllTabs
  split
  · exact ⟨Shrinks.refl s, h⟩
  · have hkept := closeEach_kept .closeAllTabs h (s.tabs.map Tab.id)
    split
    · rename_i stopped hclosed
      rw [hclosed] at hkept
      exact hkept
    · rename_i closed hclosed
      rw [hclosed] at hkept
      exact ⟨hkept.1.trans (shrinks_clearActiveIfEmpty closed), hkept.2.clearActiveIfEmpty⟩

theorem closeTabsToLeft_kept (h : ActiveOpen s) (index : Nat) :
    Shrinks s (s.closeTabsToLeft index) ∧ ActiveOpen (s.closeTabsToLeft index) := by
  unfold closeTabsToLeft
  split
  · split
    · exact ⟨Shrinks.refl s, h⟩
    · exact closeEach_kept _ h _
  · exact ⟨Shrinks.refl s, h⟩

theorem closeTabsToRight_kept (h : ActiveOpen s) (index : Nat) :
    Shrinks s (s.closeTabsToRight index) ∧ ActiveOpen (s.closeTabsToRight index) := by
  unfold closeTabsToRight
  split
  · exact ⟨Shrinks.refl s, h⟩
  · split
    · exact closeEach_kept _ h _
    · exact ⟨Shrinks.refl s, h⟩

/-- The other tabs are closed, and the active one is left. -/
theorem closeOtherTabs_kept (hnumbered : Numbered s) (h : ActiveOpen s) (hkeeps : s.KeepsActive) :
    Shrinks s s.closeOtherTabs ∧ ActiveOpen s.closeOtherTabs := by
  unfold closeOtherTabs
  split
  · exact ⟨Shrinks.refl s, h⟩
  · rename_i activeTabId hactive
    split
    · exact ⟨Shrinks.refl s, h⟩
    · rcases h.2 activeTabId hactive with ⟨active, hmem, rfl⟩
      have hkept := closeEach_kept (.closeOtherTabs · active.id) h (s.otherTabIds active.id)
      split
      · rename_i stopped hclosed
        rw [hclosed] at hkept
        exact hkept
      · rename_i closed hclosed
        rw [hclosed] at hkept
        refine ⟨hkept.1.trans (Shrinks.of_eq rfl rfl), ?_⟩
        have hunlinked : ∀ source ∈ s.tabs, active.previews source.id = false := by
          intro source hsource
          by_contra hpreviews
          rcases hkeeps active hmem hactive ⟨source, hsource, by simpa using hpreviews⟩ with
            ⟨other, hother, hne, hmodified⟩
          have hamong : other.id ∈ s.otherTabIds active.id := by
            simpa [otherTabIds] using ⟨⟨other, hother, rfl⟩, hne⟩
          have hstops := closeEach_stops (.closeOtherTabs · active.id) _ hnumbered hother hmodified
            hamong
          rw [hclosed] at hstops
          cases hstops
        have hleft := mem_closeEach (.closeOtherTabs · active.id) (s.otherTabIds active.id)
          hnumbered hmem (by simp [otherTabIds]) hunlinked
        rw [hclosed] at hleft
        exact activeOpen_of_mem hleft rfl

theorem confirmedOthers_kept (h : ActiveOpen s) (tabId activeTabId : Nat) :
    Shrinks s (s.confirmedOthers tabId activeTabId) ∧
      ActiveOpen (s.confirmedOthers tabId activeTabId) := by
  have hshrinks := shrinks_removeTabById s tabId
  unfold confirmedOthers
  simp only
  split
  · rename_i hcontained
    rcases contains_iff.mp hcontained with ⟨tab, htab, rfl⟩
    exact ⟨hshrinks.trans (Shrinks.of_eq rfl rfl), activeOpen_of_mem htab rfl⟩
  · exact ⟨hshrinks, h.removeTabById tabId⟩

/-- What a confirmed dialog goes on with. -/
theorem runOnConfirm_kept (hnumbered : Numbered s) (h : ActiveOpen s) {onConfirm : OnConfirm}
    (hkeeps : s.ConfirmKeepsActive onConfirm) :
    Shrinks s (s.runOnConfirm onConfirm) ∧ ActiveOpen (s.runOnConfirm onConfirm) := by
  cases onConfirm with
  | closeTab tabId => exact ⟨shrinks_removeTabById s tabId, h.removeTabById tabId⟩
  | closeAllTabs tabId =>
      have hshrinks := shrinks_removeTabById s tabId
      have hactive := h.removeTabById tabId
      simp only [runOnConfirm]
      split
      · rename_i hempty
        exact ⟨hshrinks.trans (Shrinks.of_eq rfl rfl),
          activeOpen_of_nil (List.isEmpty_iff.mp hempty) rfl⟩
      · exact ⟨hshrinks.trans (closeAllTabs_kept hactive).1, (closeAllTabs_kept hactive).2⟩
  | closeTabsToLeft tabId keepId =>
      have hshrinks := shrinks_removeTabById s tabId
      have hactive := h.removeTabById tabId
      simp only [runOnConfirm]
      split
      · split
        · have hrest := closeTabsToLeft_kept hactive
          exact ⟨hshrinks.trans (hrest _).1, (hrest _).2⟩
        · exact ⟨hshrinks, hactive⟩
      · exact ⟨hshrinks, hactive⟩
  | closeTabsToRight tabId keepId =>
      have hshrinks := shrinks_removeTabById s tabId
      have hactive := h.removeTabById tabId
      simp only [runOnConfirm]
      split
      · split
        · have hrest := closeTabsToRight_kept hactive
          exact ⟨hshrinks.trans (hrest _).1, (hrest _).2⟩
        · exact ⟨hshrinks, hactive⟩
      · exact ⟨hshrinks, hactive⟩
  | closeOtherTabs tabId activeTabId =>
      have hconfirmed := confirmedOthers_kept h tabId activeTabId
      have hrest := closeOtherTabs_kept (hnumbered.shrinks hconfirmed.1) hconfirmed.2 hkeeps
      exact ⟨hconfirmed.1.trans hrest.1, hrest.2⟩

/-! ### Opening -/

theorem Numbered.pushNext (h : Numbered s) {tab : Tab} (hid : tab.id = s.nextTabId) :
    Numbered (s.allocated.pushActive tab) :=
  h.joined List.perm_append_comm hid rfl

theorem Numbered.insertNext (h : Numbered s) {tab : Tab} {index : Nat} (hlt : index < s.tabs.length)
    (hid : tab.id = s.nextTabId) : Numbered (s.allocated.insertAt (index + 1) tab) :=
  h.joined (insertAt_perm s.allocated tab hlt) hid rfl

theorem Numbered.place (h : Numbered s) {tab : Tab} (hid : tab.id = s.nextTabId) :
    Numbered (s.allocated.placeEditorTabReusingScratch tab) := by
  unfold placeEditorTabReusingScratch
  split
  · rename_i scratchId _
    have hshrinks := shrinks_removeTabById s.allocated scratchId
    have hremoved :
      Numbered { s.allocated.removeTabById scratchId with nextTabId := s.nextTabId } :=
      h.shrinks ⟨hshrinks.tabs, rfl⟩
    exact hremoved.joined List.perm_append_comm hid hshrinks.next
  · exact h.pushNext hid

theorem activeOpen_place (s : TabManager) (tab : Tab) :
    ActiveOpen (s.placeEditorTabReusingScratch tab) := by
  unfold placeEditorTabReusingScratch
  split
  · exact activeOpen_pushActive _ tab
  · exact activeOpen_pushActive s tab

theorem getElem?_lt {index : Nat} {tab : Tab} (h : s.tabs[index]? = some tab) :
    index < s.tabs.length :=
  (List.getElem?_eq_some_iff.mp h).1

theorem activeTabIndex_lt {tab : Tab} (htab : tab ∈ s.tabs) :
    s.activeTabIndex.getD 0 < s.tabs.length := by
  cases hindex : s.activeTabIndex with
  | none => exact List.length_pos_of_mem htab
  | some index =>
      rcases Option.bind_eq_some_iff.mp hindex with ⟨_, _, hpos⟩
      rcases tabIndexOf_spec hpos with ⟨_, hat, _⟩
      exact getElem?_lt hat

/-- The strip after an operation: numbered, and anchored. -/
structure Anchored (s : TabManager) : Prop where
  numbered : Numbered s
  active : ActiveOpen s

theorem Anchored.shrinks (h : Anchored s) (hkept : Shrinks s s' ∧ ActiveOpen s') : Anchored s' :=
  ⟨h.numbered.shrinks hkept.1, hkept.2⟩

theorem Anchored.setActiveTab (h : Anchored s) (index : Nat) : Anchored (s.setActiveTab index) :=
  h.shrinks ⟨shrinks_setActiveTab s index, h.active.setActiveTab index⟩

theorem Anchored.removeTabById (h : Anchored s) (tabId : Nat) : Anchored (s.removeTabById tabId) :=
  h.shrinks ⟨shrinks_removeTabById s tabId, h.active.removeTabById tabId⟩

theorem Anchored.pushNext (h : Anchored s) {tab : Tab} (hid : tab.id = s.nextTabId) :
    Anchored (s.allocated.pushActive tab) :=
  ⟨h.numbered.pushNext hid, activeOpen_pushActive _ tab⟩

theorem Anchored.insertPreview (h : Anchored s) {index : Nat} (hlt : index < s.tabs.length)
    (sourceTabId : Nat) (sourceTitle : String) :
    Anchored (s.allocated.insertAt (index + 1) (s.buildPreviewTab sourceTabId sourceTitle)) := by
  have hallocated : ActiveOpen s.allocated := h.active.of_eq rfl rfl
  exact ⟨h.numbered.insertNext hlt rfl, hallocated.insertAt _ hlt⟩

theorem Anchored.maybeOpenMarkdownPreview (h : Anchored s) (index : Nat) :
    Anchored (s.maybeOpenMarkdownPreviewForEditor index) := by
  unfold maybeOpenMarkdownPreviewForEditor
  split
  · exact h
  · split
    · rename_i tab hat
      split
      · exact h
      · exact h.insertPreview (getElem?_lt hat) tab.id tab.title
    · exact h

theorem Anchored.openSettings (h : Anchored s) : Anchored s.openSettings := by
  unfold TabManager.openSettings
  split
  · exact h.setActiveTab _
  · exact h.pushNext rfl

theorem Anchored.duplicateTab (h : Anchored s) (index : Nat) : Anchored (s.duplicateTab index) := by
  unfold TabManager.duplicateTab
  split
  · rename_i tab markdown hat
    have hlt := getElem?_lt hat
    have hperm := insertAt_perm s.allocated (.editor (tab.duplicate s.nextTabId) markdown) hlt
    exact ⟨h.numbered.joined hperm rfl rfl,
      activeOpen_of_mem (hperm.mem_iff.mpr List.mem_cons_self) rfl⟩
  · exact h

theorem Anchored.openMarkdownPreviewTab (h : Anchored s) : Anchored s.openMarkdownPreviewTab := by
  unfold TabManager.openMarkdownPreviewTab
  split
  · exact h
  · split
    · exact h
    · rename_i editorId _
      split
      · exact h.removeTabById _
      · split
        · rename_i tab markdown hactive
          split
          · exact h
          · rcases Option.bind_eq_some_iff.mp hactive with ⟨activeId, hid, hfind⟩
            have hlt := activeTabIndex_lt (find_mem hfind).1
            exact (h.insertPreview hlt editorId tab.title).setActiveTab _
        · exact h

/-! ### The other operations -/

theorem Anchored.reorderTab (h : Anchored s) (source slot : Nat) :
    Anchored (s.reorderTab source slot) := by
  unfold TabManager.reorderTab
  split
  · exact h
  · rename_i hbounds
    split
    · exact h
    · split
      · rename_i tab hat
        have hlt := getElem?_lt hat
        have hlength : (s.tabs.eraseIdx source).length = s.tabs.length - 1 :=
          List.length_eraseIdx_of_lt hlt
        have hslot :
          (if source < slot then slot - 1 else slot) ≤ (s.tabs.eraseIdx source).length := by
          split <;> omega
        have hperm : (List.insertIdx (s.tabs.eraseIdx source)
            (if source < slot then slot - 1 else slot) tab).Perm s.tabs := by
          refine (List.perm_insertIdx tab _ hslot).trans ?_
          have hget := (List.getElem?_eq_some_iff.mp hat).2
          rw [← hget]
          exact List.getElem_cons_eraseIdx_perm hlt
        constructor
        · exact ⟨((hperm.map Tab.id).nodup_iff).mpr h.numbered.distinct,
            fun other hother => h.numbered.below other (hperm.mem_iff.mp hother)⟩
        · refine h.active.of_ids rfl (fun other hother => ⟨other, hperm.mem_iff.mpr hother, rfl⟩) ?_
          intro hnil
          rw [hnil] at hlt
          cases hlt
      · exact h

@[simp] theorem change_id (tab : Tab) (tabId : Nat) (changed : EditorTab) (markdown : Bool) :
    (tab.change tabId changed markdown).id = tab.id := by
  unfold Tab.change
  split
  · split
    · rename_i hid
      exact hid.symm
    · rfl
  · rfl

theorem Numbered.changeEditor (h : Numbered s) (tabId : Nat) (changed : EditorTab)
    (markdown : Bool) : Numbered (s.changeEditor tabId changed markdown) := by
  have hids : (s.changeEditor tabId changed markdown).tabs.map Tab.id = s.tabs.map Tab.id := by
    simp [TabManager.changeEditor, Function.comp_def]
  refine ⟨hids ▸ h.distinct, fun tab htab => ?_⟩
  rcases List.mem_map.mp htab with ⟨old, hold, rfl⟩
  rw [change_id]
  exact h.below old hold

theorem Anchored.changeEditor (h : Anchored s) (tabId : Nat) (changed : EditorTab)
    (markdown : Bool) : Anchored (s.changeEditor tabId changed markdown) := by
  constructor
  · exact h.numbered.changeEditor tabId changed markdown
  · refine h.active.of_ids rfl (fun tab htab => ?_) fun hnil => ?_
    · exact ⟨_, List.mem_map.mpr ⟨tab, htab, rfl⟩, change_id tab tabId changed markdown⟩
    · simp [TabManager.changeEditor, hnil]

/-! ### Runs -/

theorem Anchored.openFile (h : Anchored s) {path : PathBuf} {decoded : DecodedContents}
    {markdown : Bool} (hstep : s.step (.openFile path decoded markdown) = some s') :
    Anchored s' := by
  cases hstep
  have hplaced : Anchored (s.allocated.placeEditorTabReusingScratch (.editor
      { EditorTab.fromFile
          { id := s.nextTabId, path := path, contents := decoded.content,
            encoding := decoded.encoding, isModified := false } with
        lossyDecode := decoded.lossy } markdown)) :=
    ⟨h.numbered.place rfl, activeOpen_place _ _⟩
  exact hplaced.maybeOpenMarkdownPreview _

theorem Anchored.focusExisting (h : Anchored s) {tabId : Nat}
    (hstep : s.step (.focusExisting tabId) = some s') : Anchored s' := by
  rcases Option.map_eq_some_iff.mp hstep with ⟨index, hindex, rfl⟩
  rcases tabIndexOf_spec hindex with ⟨tab, hat, htab, rfl⟩
  refine ⟨h.numbered.shrinks (Shrinks.of_eq rfl rfl), activeOpen_of_mem htab ?_⟩
  simp [TabManager.focusExisting, hat]

theorem Anchored.nextTab (h : Anchored s) : Anchored s.nextTab := by
  unfold TabManager.nextTab
  split
  · exact h.setActiveTab _
  · exact h

theorem Anchored.previousTab (h : Anchored s) : Anchored s.previousTab := by
  unfold TabManager.previousTab
  split
  · exact h.setActiveTab _
  · exact h

theorem Anchored.closeTab (h : Anchored s) (tabId : Nat) : Anchored (s.closeTab tabId) :=
  h.shrinks ⟨shrinks_closeTab s tabId, h.active.closeTab tabId⟩

theorem Anchored.closeActiveTab (h : Anchored s) : Anchored s.closeActiveTab := by
  unfold TabManager.closeActiveTab
  split
  · exact h.closeTab _
  · exact h

theorem Anchored.confirmDialog (h : Anchored s) {index : Nat}
    (hsafe : s.AnchoredStep (.confirmDialog index))
    (hstep : s.step (.confirmDialog index) = some s') : Anchored s' := by
  rcases Option.map_eq_some_iff.mp hstep with ⟨onConfirm, hdialog, rfl⟩
  have hdismissed : Anchored { s with dialogs := s.dialogs.eraseIdx index } :=
    h.shrinks ⟨Shrinks.of_eq rfl rfl, h.active.of_eq rfl rfl⟩
  exact hdismissed.shrinks (runOnConfirm_kept hdismissed.numbered hdismissed.active
    (hsafe onConfirm hdialog))

theorem Anchored.step (h : Anchored s) {action : TabAction} (hsafe : s.AnchoredStep action)
    (hstep : s.step action = some s') : Anchored s' := by
  cases action with
  | newTab markdown =>
      cases hstep
      exact h.pushNext rfl
  | openFile path decoded markdown => exact h.openFile hstep
  | openRemoteFile result markdown =>
      cases hstep
      exact ⟨h.numbered.place rfl, activeOpen_place _ _⟩
  | openSharedFile contents fileName markdown =>
      cases hstep
      exact h.pushNext rfl
  | focusExisting tabId => exact h.focusExisting hstep
  | duplicateTab tabId =>
      rcases Option.map_eq_some_iff.mp hstep with ⟨index, _, rfl⟩
      exact h.duplicateTab index
  | openMarkdownPreviewTab =>
      cases hstep
      exact h.openMarkdownPreviewTab
  | openSettings =>
      cases hstep
      exact h.openSettings
  | setActiveTab index =>
      cases hstep
      exact h.setActiveTab index
  | nextTab =>
      cases hstep
      exact h.nextTab
  | previousTab =>
      cases hstep
      exact h.previousTab
  | closeTab tabId =>
      cases hstep
      exact h.closeTab tabId
  | closeActiveTab =>
      cases hstep
      exact h.closeActiveTab
  | closeAllTabs =>
      cases hstep
      exact h.shrinks (closeAllTabs_kept h.active)
  | closeTabsToLeft tabId =>
      rcases Option.map_eq_some_iff.mp hstep with ⟨index, _, rfl⟩
      exact h.shrinks (closeTabsToLeft_kept h.active index)
  | closeTabsToRight tabId =>
      rcases Option.map_eq_some_iff.mp hstep with ⟨index, _, rfl⟩
      exact h.shrinks (closeTabsToRight_kept h.active index)
  | closeOtherTabs =>
      cases hstep
      exact h.shrinks (closeOtherTabs_kept h.numbered h.active hsafe)
  | confirmDialog index => exact h.confirmDialog hsafe hstep
  | cancelDialog index =>
      cases hstep
      exact h.shrinks ⟨Shrinks.of_eq rfl rfl, h.active.of_eq rfl rfl⟩
  | handleTabDrop tabId slot =>
      rcases Option.map_eq_some_iff.mp hstep with ⟨source, _, rfl⟩
      exact h.reorderTab source slot
  | handlePendingTabTransfer data markdown =>
      cases hstep
      exact h.pushNext rfl
  | handlePendingTabRemoval tabId =>
      cases hstep
      exact h.removeTabById tabId
  | changeEditor tabId changed markdown =>
      cases hstep
      exact h.changeEditor tabId changed markdown
  | changeSettings dedicatedTab showMarkdownPreview =>
      cases hstep
      exact h.shrinks ⟨Shrinks.of_eq rfl rfl, h.active.of_eq rfl rfl⟩
  | render =>
      cases hstep
      exact h.shrinks ⟨shrinks_clearActiveIfEmpty s, h.active.clearActiveIfEmpty⟩

/--
In every run from an empty window in which closing the other tabs is never done
from a preview whose source goes with them, the active tab is a tab of the strip,
and there is none exactly when the strip is empty.
-/
theorem active_tab_open {dedicatedTab showMarkdownPreview : Bool} {actions : List TabAction}
    {s : TabManager}
    (hguard : Guarded step AnchoredStep (empty dedicatedTab showMarkdownPreview) actions)
    (hrun : run step (empty dedicatedTab showMarkdownPreview) actions = some s) : s.ActiveOpen := by
  have hanchored : Anchored s := by
    refine invariant_of_guarded Anchored ?_ ?_ hguard hrun
    · intro s action s' h hsafe hstep
      exact h.step hsafe hstep
    · exact ⟨numbered_empty _ _, activeOpen_empty _ _⟩
  exact hanchored.active

/-- A modified tab and its preview are closed with the others of another tab, once confirmed. -/
def sampleStrip : List TabAction :=
  [.newTab true, .openMarkdownPreviewTab, .newTab false, .handleTabDrop 2 0,
    .changeEditor 0 { EditorTab.new 0 "a" with modified := true } true, .setActiveTab 0,
    .closeOtherTabs, .confirmDialog 0, .duplicateTab 2, .openSettings, .closeAllTabs]

theorem active_tab_open_sample :
    (run step (empty true false) sampleStrip).isSome = true ∧
      ∀ s, run step (empty true false) sampleStrip = some s → s.ActiveOpen :=
  ⟨by decide, fun _ hrun => active_tab_open (Guarded.of_guardedRun (by decide)) hrun⟩

/-- From a preview, closing the other tabs takes it along with its source and keeps it active. -/
theorem preview_left_active :
    ∃ s, run step (empty true false) [.newTab true, .openMarkdownPreviewTab, .closeOtherTabs] =
      some s ∧ s.tabs = [] ∧ s.activeTabId = some 1 ∧ ¬s.ActiveOpen := by
  have hfacts : (run step (empty true false)
      [.newTab true, .openMarkdownPreviewTab, .closeOtherTabs]).any
        (fun s => decide (s.tabs = [] ∧ s.activeTabId = some 1)) = true := by decide
  rcases exists_of_any hfacts with ⟨s, hrun, hempty, hactive⟩
  refine ⟨s, hrun, hempty, hactive, fun hopen => ?_⟩
  have hnone := hopen.1.mpr hempty
  rw [hactive] at hnone
  cases hnone

end TabManager

end Fulgur
