import Fulgur.Tabs.PreviewRuns

/-! # What an operation does to the strip

Every operation closes some tabs and opens at most two, an editor tab and its
preview; what it opens has an identifier that the counter had not handed out,
and a local path only when a file is opened or a tab of another window comes in.
Only a change of an editor tab does something else.
-/

namespace Fulgur

def Tab.localPath (tab : Tab) : Option PathBuf := tab.asEditor.bind EditorTab.filePath

/-- The local path that an operation brings into the strip. -/
def TabAction.broughtPath : TabAction → Option PathBuf
  | .openFile path _ _ => some path
  | .handlePendingTabTransfer data _ =>
      match data.location with
      | .localPath path => some path
      | _ => none
  | _ => none

namespace TabManager

variable {s middle s' : TabManager} {new : List Tab}

/-- Tabs are closed, and those in `new` opened. -/
structure Moves (s : TabManager) (new : List Tab) (s' : TabManager) : Prop where
  tabs : ∃ kept, kept.Sublist s.tabs ∧ s'.tabs.Perm (new ++ kept)
  next : s.nextTabId ≤ s'.nextTabId
  fresh : ∀ tab ∈ new, s.nextTabId ≤ tab.id

theorem Shrinks.moves (h : Shrinks s s') : Moves s [] s' :=
  ⟨⟨s'.tabs, h.tabs, List.Perm.refl _⟩, Nat.le_of_eq h.next.symm,
    fun _ htab => absurd htab List.not_mem_nil⟩

/-- What only closes tabs shrinks the strip. -/
theorem shrinks_keptByRemovals (s : TabManager) : KeptByRemovals (Shrinks s) where
  same h htabs hnext := h.trans (Shrinks.of_eq htabs hnext)
  removal tabId h := h.trans (shrinks_removeTabById _ tabId)

theorem Moves.of_eq (h : Moves s new middle) (htabs : s'.tabs = middle.tabs)
    (hnext : s'.nextTabId = middle.nextTabId) : Moves s new s' := by
  obtain ⟨kept, hsub, hperm⟩ := h.tabs
  exact ⟨⟨kept, hsub, htabs ▸ hperm⟩, hnext ▸ h.next, h.fresh⟩

theorem Moves.joined (h : Moves s new middle) {tab : Tab}
    (htabs : s'.tabs.Perm (tab :: middle.tabs)) (hid : s.nextTabId ≤ tab.id)
    (hnext : middle.nextTabId ≤ s'.nextTabId) : Moves s (tab :: new) s' := by
  obtain ⟨kept, hsub, hperm⟩ := h.tabs
  refine ⟨⟨kept, hsub, htabs.trans (hperm.cons tab)⟩, Nat.le_trans h.next hnext, ?_⟩
  intro other hother
  rcases List.mem_cons.mp hother with rfl | hold
  · exact hid
  · exact h.fresh other hold

theorem Moves.pushNext (h : Moves s new middle) {tab : Tab} (hid : tab.id = middle.nextTabId) :
    Moves s (tab :: new) (middle.allocated.pushActive tab) :=
  h.joined List.perm_append_comm (hid ▸ h.next) (Nat.le_succ _)

theorem Moves.insertNext (h : Moves s new middle) {tab : Tab} {index : Nat}
    (hlt : index < middle.tabs.length) (hid : tab.id = middle.nextTabId) :
    Moves s (tab :: new) (middle.allocated.insertAt (index + 1) tab) :=
  h.joined (insertAt_perm middle.allocated tab hlt) (hid ▸ h.next) (Nat.le_succ _)

theorem moves_place {tab : Tab} (hid : tab.id = s.nextTabId) :
    Moves s [tab] (s.allocated.placeEditorTabReusingScratch tab) := by
  unfold placeEditorTabReusingScratch
  split
  · rename_i scratchId _
    have hshrinks := shrinks_removeTabById s.allocated scratchId
    have hremoved : Moves s [] (s.allocated.removeTabById scratchId) :=
      ⟨⟨_, hshrinks.tabs, List.Perm.refl _⟩, hshrinks.next ▸ Nat.le_succ _,
        fun _ htab => absurd htab List.not_mem_nil⟩
    exact hremoved.joined List.perm_append_comm (Nat.le_of_eq hid.symm) (Nat.le_refl _)
  · exact (Shrinks.refl s).moves.pushNext hid

/-- A preview may be opened along with a file; it has no path. -/
theorem Moves.maybeOpenMarkdownPreview (h : Moves s new middle) (index : Nat) :
    ∃ opened, Moves s opened (middle.maybeOpenMarkdownPreviewForEditor index) ∧
      opened.filterMap Tab.localPath = new.filterMap Tab.localPath := by
  unfold maybeOpenMarkdownPreviewForEditor
  split
  · exact ⟨new, h, rfl⟩
  · split
    · rename_i tab hat
      split
      · exact ⟨new, h, rfl⟩
      · exact ⟨_, h.insertNext (getElem?_lt hat) rfl, List.filterMap_cons_none rfl⟩
    · exact ⟨new, h, rfl⟩

theorem moves_duplicateTab (s : TabManager) (index : Nat) :
    ∃ new, Moves s new (s.duplicateTab index) ∧ new.filterMap Tab.localPath = [] := by
  unfold TabManager.duplicateTab
  split
  · rename_i tab markdown hat
    exact ⟨_, ((Shrinks.refl s).moves.insertNext (getElem?_lt hat) rfl).of_eq rfl rfl, rfl⟩
  · exact ⟨[], (Shrinks.refl s).moves, rfl⟩

theorem moves_openMarkdownPreviewTab (s : TabManager) :
    ∃ new, Moves s new s.openMarkdownPreviewTab ∧ new.filterMap Tab.localPath = [] := by
  have hsame : ∃ new, Moves s new s ∧ new.filterMap Tab.localPath = [] :=
    ⟨[], (Shrinks.refl s).moves, rfl⟩
  unfold TabManager.openMarkdownPreviewTab
  split
  · exact hsame
  · split
    · exact hsame
    · split
      · exact ⟨[], (shrinks_removeTabById s _).moves, rfl⟩
      · split
        · rename_i tab markdown hactive
          split
          · exact hsame
          · obtain ⟨activeId, hid, hfind⟩ := Option.bind_eq_some_iff.mp hactive
            have hlt := activeTabIndex_lt (find_mem hfind).1
            obtain ⟨htabs, hnext⟩ := setActiveTab_kept (s.allocated.insertAt
              (s.activeTabIndex.getD 0 + 1) (s.buildPreviewTab _ tab.title))
              (s.activeTabIndex.getD 0 + 1)
            exact ⟨_, ((Shrinks.refl s).moves.insertNext hlt rfl).of_eq htabs hnext, rfl⟩
        · exact hsame

theorem moves_reorderTab (s : TabManager) (source slot : Nat) :
    Moves s [] (s.reorderTab source slot) :=
  ⟨⟨s.tabs, List.Sublist.refl _, s.reorderTab_perm source slot⟩,
    Nat.le_of_eq (s.reorderTab_next source slot).symm, fun _ htab => absurd htab List.not_mem_nil⟩

theorem moves_openSettings (s : TabManager) :
    ∃ new, Moves s new s.openSettings ∧ new.filterMap Tab.localPath = [] := by
  have hrefl := Shrinks.refl s
  unfold TabManager.openSettings
  split
  · exact ⟨[], ((shrinks_keptByRemovals s).setActiveTab _ hrefl).moves, rfl⟩
  · exact ⟨_, hrefl.moves.pushNext rfl, rfl⟩

/-- The tab of another window brings its path along. -/
theorem moves_transfer {data : TabTransferData} {markdown : Bool}
    (hstep : s.step (.handlePendingTabTransfer data markdown) = some s') :
    ∃ new, Moves s new s' ∧ new.filterMap Tab.localPath =
      (TabAction.handlePendingTabTransfer data markdown).broughtPath.toList := by
  cases hstep
  refine ⟨_, (Shrinks.refl s).moves.pushNext rfl, ?_⟩
  cases hlocation : data.location <;>
    simp [Tab.localPath, Tab.asEditor, EditorTab.filePath, EditorTab.fromTransfer,
      TabAction.broughtPath, hlocation]

theorem broughtPath_of_onlyRemoves {action : TabAction} (honly : action.onlyRemoves = true) :
    action.broughtPath = none := by
  cases action <;> first | rfl | cases honly

/-- Every operation but a change of an editor tab, with the path of what it opens. -/
theorem moves_step {action : TabAction} (hstep : s.step action = some s') :
    (∃ new, Moves s new s' ∧ new.filterMap Tab.localPath = action.broughtPath.toList) ∨
      ∃ tabId changed markdown, action = .changeEditor tabId changed markdown ∧
        s' = s.changeEditor tabId changed markdown := by
  have hrefl := Shrinks.refl s
  by_cases honly : action.onlyRemoves = true
  · have hshrinks := (shrinks_keptByRemovals s).step honly hstep hrefl
    rw [broughtPath_of_onlyRemoves honly]
    exact Or.inl ⟨[], hshrinks.moves, rfl⟩
  cases action with
  | changeEditor tabId changed markdown =>
      cases hstep
      exact Or.inr ⟨tabId, changed, markdown, rfl, rfl⟩
  | newTab markdown =>
      cases hstep
      exact Or.inl ⟨_, hrefl.moves.pushNext rfl, rfl⟩
  | openFile path decoded markdown =>
      cases hstep
      exact Or.inl ((moves_place rfl).maybeOpenMarkdownPreview _)
  | openRemoteFile result markdown =>
      cases hstep
      exact Or.inl ⟨_, moves_place rfl, rfl⟩
  | openSharedFile contents fileName markdown =>
      cases hstep
      exact Or.inl ⟨_, hrefl.moves.pushNext rfl, rfl⟩
  | duplicateTab tabId =>
      obtain ⟨index, -, rfl⟩ := Option.map_eq_some_iff.mp hstep
      exact Or.inl (s.moves_duplicateTab index)
  | openMarkdownPreviewTab =>
      cases hstep
      exact Or.inl s.moves_openMarkdownPreviewTab
  | openSettings =>
      cases hstep
      exact Or.inl s.moves_openSettings
  | handleTabDrop tabId slot =>
      obtain ⟨source, -, rfl⟩ := Option.map_eq_some_iff.mp hstep
      exact Or.inl ⟨[], s.moves_reorderTab source slot, rfl⟩
  | handlePendingTabTransfer data markdown => exact Or.inl (moves_transfer hstep)
  | _ => exact absurd rfl honly

end TabManager

end Fulgur
