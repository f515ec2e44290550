import Fulgur.Window.Registry

/-! # The registry against the open windows

The manager keeps its own lists consistent in every run. Whether they are about
the windows that are open depends on how these go: each step opens, closes or
keeps windows, and only a frame that takes away the last tab of a window lets it
go without the manager.
-/

namespace Fulgur

open LabelledRun Keyed

/-- The strip holds nothing but the tab and its preview. -/
def IsLastTab (tabId : Nat) : List Tab → Prop
  | [] => True
  | [tab] => tab.id = tabId
  | [tab, other] =>
      tab.isEditor tabId ∧ other.previews tabId ∨
        other.isEditor tabId ∧ tab.previews tabId ∧ tab.id ≠ tabId
  | _ => False

theorem Tab.isEditor_id {tabId : Nat} {tab : Tab} (h : tab.isEditor tabId = true) :
    tab.id = tabId := by
  cases tab with
  | editor editor markdown => exact of_decide_eq_true h
  | settings tab => cases h
  | markdownPreview tab => cases h

namespace TabManager

variable {s : TabManager}

theorem length_removeAt (s : TabManager) (pos : Nat) :
    s.tabs.length ≤ (s.removeAt pos).tabs.length + 1 := by
  rw [removeAt_tabs, List.length_eraseIdx]
  split <;> omega

theorem length_removeTabById (s : TabManager) (tabId : Nat) :
    s.tabs.length ≤ (s.removeTabById tabId).tabs.length + 2 := by
  unfold removeTabById
  split
  · omega
  · rename_i pos _
    have hfirst := length_removeAt s pos
    simp only
    split
    · omega
    · rename_i previewPos _
      have hsecond := length_removeAt (s.removeAt pos) previewPos
      omega

/-- The removal of one of two tabs takes the other along when that is its preview. -/
theorem removeTabById_pair {tabId pos : Nat} {tab other : Tab}
    (hpos : s.tabIndexOf tabId = some pos) (hat : s.tabs[pos]? = some tab) (hid : tab.id = tabId)
    (hrest : s.tabs.eraseIdx pos = [other]) (hmem : ∀ t ∈ s.tabs, t = tab ∨ t = other) :
    (s.removeTabById tabId).tabs = [] ↔ tab.isEditor tabId ∧ other.previews tabId := by
  have hremoved : (s.removeAt pos).tabs = [other] := by rw [removeAt_tabs, hrest]
  cases tab with
  | editor editor markdown =>
      have hself : (Tab.editor editor markdown).previews editor.id = false := rfl
      have heditor : (Tab.editor editor markdown).isEditor tabId = true := decide_eq_true hid
      have hother : other ∈ s.tabs :=
        List.mem_of_mem_eraseIdx (by rw [hrest]; exact List.mem_singleton_self other)
      have hsame : editor.id = tabId := hid
      subst hsame
      cases hpreview : other.previews editor.id with
      | false =>
          have hfind : s.tabs.find? (Tab.previews editor.id) = none := by
            refine List.find?_eq_none.mpr fun t ht => ?_
            rcases hmem t ht with rfl | rfl
            · simp [hself]
            · simp [hpreview]
          simp [removeTabById, hpos, hat, linkedPreviewId, hfind, hremoved]
      | true =>
          obtain ⟨found, hfound⟩ :=
            Option.isSome_iff_exists.mp (List.find?_isSome.mpr ⟨other, hother, hpreview⟩)
          have hfind : s.tabs.find? (Tab.previews editor.id) = some other := by
            rcases hmem found (List.mem_of_find?_eq_some hfound) with rfl | rfl
            · have hwrong := List.find?_some hfound
              rw [hself] at hwrong
              cases hwrong
            · exact hfound
          have hindex : (s.removeAt pos).tabIndexOf other.id = some 0 := by
            simp [tabIndexOf, hremoved]
          simp [removeTabById, hpos, hat, linkedPreviewId, hfind, hindex,
            removeAt_tabs _ 0, hremoved, heditor]
  | settings tab =>
      simp [removeTabById, hpos, hat, linkedPreviewId, hremoved, Tab.isEditor, Tab.asEditor]
  | markdownPreview tab =>
      simp [removeTabById, hpos, hat, linkedPreviewId, hremoved, Tab.isEditor, Tab.asEditor]

/-- A removal empties the strip exactly when the tab and its preview are all it holds. -/
theorem removeTabById_eq_nil_iff (s : TabManager) (tabId : Nat) :
    (s.removeTabById tabId).tabs = [] ↔ IsLastTab tabId s.tabs := by
  have hlength := length_removeTabById s tabId
  match htabs : s.tabs with
  | [] => simp [IsLastTab, removeTabById, tabIndexOf, htabs]
  | [tab] =>
      by_cases hid : tab.id = tabId
      · have hempty : (s.removeAt 0).tabs = [] := by rw [removeAt_tabs, htabs]; rfl
        have hnone : ∀ id, (s.removeAt 0).tabIndexOf id = none := by simp [tabIndexOf, hempty]
        have hpos : s.tabIndexOf tabId = some 0 := by simp [tabIndexOf, htabs, hid]
        simp [IsLastTab, removeTabById, hpos, hnone, hempty, hid]
      · simp [IsLastTab, removeTabById, tabIndexOf, htabs, hid]
  | [tab, other] =>
      by_cases hid : tab.id = tabId
      · have hpos : s.tabIndexOf tabId = some 0 := by
          simp [tabIndexOf, htabs, hid, List.findIdx?_cons]
        have hat : s.tabs[0]? = some tab := by rw [htabs]; rfl
        have hrest : s.tabs.eraseIdx 0 = [other] := by rw [htabs]; rfl
        rw [removeTabById_pair hpos hat hid hrest (by simp [htabs])]
        simp [IsLastTab, hid]
      · by_cases hother : other.id = tabId
        · have hpos : s.tabIndexOf tabId = some 1 := by
            simp [tabIndexOf, htabs, hid, hother, List.findIdx?_cons]
          have hat : s.tabs[1]? = some other := by rw [htabs]; rfl
          have hrest : s.tabs.eraseIdx 1 = [tab] := by rw [htabs]; rfl
          rw [removeTabById_pair hpos hat hother hrest (by simp [htabs, or_comm])]
          have hwrong : tab.isEditor tabId ≠ true := fun h => hid (Tab.isEditor_id h)
          simp [IsLastTab, hid, hwrong]
        · have hmissing : s.tabIndexOf tabId = none := by simp [tabIndexOf, htabs, hid, hother]
          have hwrong : tab.isEditor tabId ≠ true := fun h => hid (Tab.isEditor_id h)
          have hwrong' : other.isEditor tabId ≠ true := fun h => hother (Tab.isEditor_id h)
          simp [IsLastTab, removeTabById, hmissing, htabs, hwrong, hwrong']
  | tab :: other :: third :: rest =>
      rw [htabs] at hlength
      simp only [List.length_cons] at hlength
      refine iff_of_false (fun hnil => ?_) id
      rw [hnil, List.length_nil] at hlength
      omega

end TabManager

namespace WindowManager

/-- What the manager keeps about windows is about registered ones. -/
structure Consistent (m : WindowManager) : Prop where
  distinct : m.windows.Nodup
  focused : ∀ windowId, m.lastFocused = some windowId → windowId ∈ m.windows
  hasFocused : m.windows ≠ [] → m.lastFocused ≠ none
  named : ∀ entry ∈ m.windowNames, entry.1 ∈ m.windows
  snapshots : ∀ entry ∈ m.windowMenuTabs, entry.1 ∈ m.windows

variable {m : WindowManager}

theorem consistent_empty : empty.Consistent where
  distinct := List.nodup_nil
  focused := by simp [empty]
  hasFocused := by simp [empty]
  named := by simp [empty]
  snapshots := by simp [empty]

theorem mem_windows_register {windowId id : Nat} :
    id ∈ (m.register windowId).windows ↔ id = windowId ∨ id ∈ m.windows := by
  by_cases hid : id = windowId <;> simp [register, hid]

theorem mem_windows_unregister {windowId first id : Nat} :
    id ∈ (m.unregister windowId first).windows ↔ id ∈ m.windows ∧ id ≠ windowId := by
  simp [unregister]

theorem Consistent.register (h : m.Consistent) (windowId : Nat) :
    (m.register windowId).Consistent where
  distinct := by
    refine List.nodup_cons.mpr ⟨?_, h.distinct.filter _⟩
    simp
  focused := by
    intro id hid
    exact mem_windows_register.mpr (Or.inl (Option.some.inj hid).symm)
  hasFocused := fun _ hnone => nomatch hnone
  named := by
    intro entry hentry
    rcases List.mem_cons.mp hentry with rfl | hold
    · exact mem_windows_register.mpr (Or.inl rfl)
    · exact mem_windows_register.mpr (Or.inr (h.named entry (List.mem_of_mem_filter hold)))
  snapshots := fun entry hentry => mem_windows_register.mpr (Or.inr (h.snapshots entry hentry))

theorem Consistent.unregister (h : m.Consistent) (windowId first : Nat) :
    (m.unregister windowId first).Consistent where
  distinct := h.distinct.filter _
  focused := by
    intro id hid
    simp only [WindowManager.unregister] at hid
    split at hid
    · exact List.mem_of_getElem? hid
    · rename_i hother
      refine mem_windows_unregister.mpr ⟨h.focused id hid, fun hsame => hother ?_⟩
      rw [hid, hsame]
  hasFocused := by
    intro hleft
    simp only [WindowManager.unregister] at hleft ⊢
    split
    · -- some key comes first in a map that has keys left
      have hfirst := Nat.mod_lt first (List.length_pos_iff.mpr hleft)
      rw [List.getElem?_eq_getElem hfirst]
      exact Option.some_ne_none _
    · refine h.hasFocused fun hnone => hleft ?_
      rw [hnone]
      rfl
  named := by
    intro entry hentry
    obtain ⟨hold, hother⟩ := List.mem_filter.mp hentry
    exact mem_windows_unregister.mpr ⟨h.named entry hold, by simpa using hother⟩
  snapshots := by
    intro entry hentry
    obtain ⟨hold, hother⟩ := List.mem_filter.mp hentry
    exact mem_windows_unregister.mpr ⟨h.snapshots entry hold, by simpa using hother⟩

/-- The same windows stay registered, and the manager consistent. -/
def Touched (m m' : WindowManager) : Prop :=
  m'.windows = m.windows ∧ (m.Consistent → m'.Consistent)

theorem Touched.refl (m : WindowManager) : Touched m m := ⟨rfl, id⟩

theorem Touched.trans {m₁ m₂ m₃ : WindowManager} (h : Touched m₁ m₂) (h' : Touched m₂ m₃) :
    Touched m₁ m₃ := ⟨h'.1.trans h.1, h'.2 ∘ h.2⟩

theorem touched_setFocused (m : WindowManager) (windowId : Nat) :
    Touched m (m.setFocused windowId) := by
  unfold setFocused
  split
  · rename_i hmem
    refine ⟨rfl,
      fun h => { h with focused := fun id hid => ?_, hasFocused := fun _ hnone => nomatch hnone }⟩
    rwa [← Option.some.inj hid]
  · exact Touched.refl m

theorem touched_publishWindowMenuTabs (m : WindowManager) (windowId : Nat)
    (tabs : List WindowMenuTab) : Touched m (m.publishWindowMenuTabs windowId tabs).1 := by
  unfold publishWindowMenuTabs
  split
  · exact Touched.refl m
  · rename_i hmem
    split
    · exact Touched.refl m
    · refine ⟨rfl, fun h => { h with snapshots := fun entry hentry => ?_ }⟩
      rcases List.mem_cons.mp hentry with rfl | hold
      · exact not_not.mp hmem
      · exact h.snapshots entry (List.mem_of_mem_filter hold)

end WindowManager

namespace WindowSystem

open WindowManager (Touched)

def openIds (s : WindowSystem) : List Nat := s.windows.map FulgurWindow.windowId

/-- The manager knows the windows that are open, and can tell when one of them is the last. -/
structure InStep (s : WindowSystem) : Prop where
  consistent : s.manager.Consistent
  registered : ∀ windowId, windowId ∈ s.manager.windows ↔ windowId ∈ s.openIds
  quitsWithLast : ∀ w ∈ s.windows,
    (s.manager.windowCount = 1 ↔ ∀ other ∈ s.windows, other = w)

/-- No window loses its last tab to another one, unless the same frame brings it a new one. -/
def KeepsATab (s : WindowSystem) : WindowAction → Prop
  | .render windowId _ => s.hasQuit = false → ∀ w ∈ s.find windowId, ∀ tabId ∈ w.pendingTabRemoval,
      ¬IsLastTab tabId w.received.tabs.tabs
  | _ => True

/-- What a step does to the open windows and to the registered ones. -/
inductive Moves (s s' : WindowSystem) : Prop
  | stays (hids : s'.openIds = s.openIds) (hnext : s'.nextWindowId = s.nextWindowId)
      (hmanager : Touched s.manager s'.manager)
  | opens (hids : s'.openIds = s.openIds ++ [s.nextWindowId])
      (hnext : s'.nextWindowId = s.nextWindowId + 1)
      (hmanager : s'.manager = s.manager.register s.nextWindowId)
  | closes (windowId first : Nat) (hids : s'.openIds = s.openIds.filter (· ≠ windowId))
      (hnext : s'.nextWindowId = s.nextWindowId)
      (hmanager : s'.manager = s.manager.unregister windowId first)

/-- A window goes that stays registered. -/
structure Vanishes (s s' : WindowSystem) (windowId : Nat) : Prop where
  wasOpen : windowId ∈ s.openIds
  ids : s'.openIds = s.openIds.filter (· ≠ windowId)
  manager : Touched s.manager s'.manager

variable {s s' : WindowSystem} {w : FulgurWindow}

theorem openIds_update (s : WindowSystem) (windowId : Nat) {f : FulgurWindow → FulgurWindow}
    (hf : ∀ w, w.windowId = windowId → (f w).windowId = windowId) :
    (s.update windowId f).openIds = s.openIds :=
  map_key_updateKey hf s.windows

theorem openIds_removeWindow (s : WindowSystem) (windowId : Nat) :
    (s.removeWindow windowId).openIds = s.openIds.filter (· ≠ windowId) := by
  simp only [openIds, removeWindow, dropKey, List.filter_map]
  rfl

theorem moves_refl (s : WindowSystem) : Moves s s := .stays rfl rfl (Touched.refl _)

theorem moves_update (s : WindowSystem) (windowId : Nat) {f : FulgurWindow → FulgurWindow}
    (hf : ∀ w, w.windowId = windowId → (f w).windowId = windowId) : Moves s (s.update windowId f) :=
  .stays (openIds_update s windowId hf) rfl (Touched.refl _)

theorem Moves.of_update {windowId : Nat} {f : FulgurWindow → FulgurWindow}
    (hf : ∀ w, w.windowId = windowId → (f w).windowId = windowId)
    (h : Moves (s.update windowId f) s') : Moves s s' := by
  have hids := openIds_update s windowId hf
  cases h with
  | stays hids' hnext hmanager => exact .stays (hids'.trans hids) hnext hmanager
  | opens hids' hnext hmanager => exact .opens (by rw [hids', hids]; rfl) hnext hmanager
  | closes id first hids' hnext hmanager =>
      exact .closes id first (by rw [hids', hids]) hnext hmanager

theorem moves_openWindow (s : WindowSystem) (tabs : TabManager) (confirmExit : Bool)
    (incoming : Option (TabTransferData × Bool)) :
    Moves s (s.openWindow tabs confirmExit incoming) := by
  refine .opens ?_ rfl rfl
  simp [openIds, openWindow, FulgurWindow.create]

theorem moves_unregister (s : WindowSystem) (windowId first : Nat) :
    Moves s (s.unregister windowId first) :=
  .closes windowId first (openIds_removeWindow s windowId) rfl rfl

theorem moves_quitInner (s : WindowSystem) (w : FulgurWindow) (saveOk : Bool) :
    Moves s (s.quitInner w saveOk) := by
  unfold quitInner
  split
  · exact moves_update s w.windowId fun _ hw => hw
  · split
    · exact .stays rfl rfl (Touched.refl _)
    · exact moves_refl s

theorem moves_driveLargeFileCloseWarnings (s : WindowSystem) (w : FulgurWindow)
    (remaining : List Nat) (continuation : CloseContinuation) (saveOk : Bool) (first : Nat) :
    Moves s (s.driveLargeFileCloseWarnings w remaining continuation saveOk first) := by
  unfold driveLargeFileCloseWarnings
  split
  · cases continuation with
    | quit => exact moves_quitInner s w saveOk
    | closeWindow =>
        simp only [runCloseContinuation, finishWindowClose]
        split
        · exact moves_unregister s w.windowId first
        · exact moves_refl s
  · exact moves_update s w.windowId fun _ hw => hw

theorem moves_quit (s : WindowSystem) (w : FulgurWindow) (saveOk : Bool) (first : Nat) :
    Moves s (s.quit w saveOk first) := by
  unfold quit
  split
  · exact moves_quitInner s w saveOk
  · exact moves_driveLargeFileCloseWarnings s w _ _ saveOk first

theorem moves_onWindowCloseRequested (s : WindowSystem) (w : FulgurWindow) (saveOk : Bool)
    (first : Nat) : Moves s (s.onWindowCloseRequested w saveOk first) := by
  unfold onWindowCloseRequested
  split
  · exact moves_driveLargeFileCloseWarnings s w _ _ saveOk first
  · split
    · exact moves_quit s w saveOk first
    · unfold saveAndClose
      split
      · exact moves_unregister s w.windowId first
      · exact moves_update s w.windowId fun _ hw => hw

theorem moves_resolveLargeFileCloseWarning {choice : LargeFileCloseChoice} {writeOk saveOk : Bool}
    {first : Nat} (h : s.resolveLargeFileCloseWarning w choice writeOk saveOk first = some s') :
    Moves s s' := by
  unfold resolveLargeFileCloseWarning at h
  split at h
  · rename_i tabId rest continuation dialogs _
    have hclosed : ∀ old : FulgurWindow, old.windowId = w.windowId →
        ({ w with dialogs := dialogs } : FulgurWindow).windowId = w.windowId := fun _ _ => rfl
    cases choice with
    | cancel =>
        cases h
        exact moves_update s w.windowId hclosed
    | discard =>
        cases h
        exact (moves_driveLargeFileCloseWarnings _ _ _ _ _ _).of_update hclosed
    | save =>
        simp only at h
        split at h
        · cases h
          exact moves_update s w.windowId hclosed
        · rename_i written hwritten
          cases h
          have hkept : written.windowId = w.windowId := by
            unfold FulgurWindow.saveLocalTabBlocking at hwritten
            split at hwritten
            · split at hwritten
              · cases hwritten
                rfl
              · cases hwritten
            · cases hwritten
          exact ((moves_driveLargeFileCloseWarnings _ _ _ _ _ _).of_update
            fun _ _ => hkept).of_update hclosed
  · cases h

theorem moves_answerConfirmExit {confirmed saveOk : Bool}
    (h : s.answerConfirmExit w confirmed saveOk = some s') : Moves s s' := by
  unfold answerConfirmExit at h
  split at h
  · split at h
    · cases h
      split
      · exact .stays rfl rfl (Touched.refl _)
      · exact moves_refl s
    · cases h
      exact moves_update s w.windowId fun _ hw => hw
  · cases h

theorem handlePendingTabRemoval_eq_none_iff (w : FulgurWindow) :
    w.handlePendingTabRemoval = none ↔
      ∃ tabId ∈ w.pendingTabRemoval, IsLastTab tabId w.tabs.tabs := by
  unfold FulgurWindow.handlePendingTabRemoval
  cases hremoval : w.pendingTabRemoval with
  | none => simp
  | some tabId =>
      have hempty : (w.tabs.handlePendingTabRemoval tabId).tabs.isEmpty = true ↔
          IsLastTab tabId w.tabs.tabs :=
        List.isEmpty_iff.trans (TabManager.removeTabById_eq_nil_iff w.tabs tabId)
      simp only [Option.mem_def, Option.some.injEq, exists_eq_left']
      rw [← hempty]
      by_cases hgone : (w.tabs.handlePendingTabRemoval tabId).tabs.isEmpty = true
      · rw [if_pos hgone]
        exact iff_of_true rfl hgone
      · rw [if_neg hgone]
        exact iff_of_false (Option.some_ne_none _) hgone

theorem windowId_handlePendingTabRemoval {rendered : FulgurWindow}
    (h : w.handlePendingTabRemoval = some rendered) : rendered.windowId = w.windowId := by
  unfold FulgurWindow.handlePendingTabRemoval at h
  split at h
  · cases h
    rfl
  · simp only at h
    split at h
    · cases h
    · cases h
      rfl

theorem received_kept (w : FulgurWindow) :
    w.received.windowId = w.windowId ∧ w.received.pendingTabRemoval = w.pendingTabRemoval := by
  unfold FulgurWindow.received FulgurWindow.handlePendingTabTransfer
  split <;> exact ⟨rfl, rfl⟩

theorem touched_publish (s : WindowSystem) (w : FulgurWindow) (isActive : Bool) :
    Touched s.manager
      ((s.processFocus w.windowId isActive).publishWindowMenuTabsIfChanged w).manager := by
  have hfocus : Touched s.manager (s.processFocus w.windowId isActive).manager := by
    unfold processFocus
    split
    · exact WindowManager.touched_setFocused s.manager w.windowId
    · exact Touched.refl _
  refine hfocus.trans ?_
  unfold publishWindowMenuTabsIfChanged
  split
  · exact WindowManager.touched_publishWindowMenuTabs _ _ _
  · exact Touched.refl _

theorem publish_kept (s : WindowSystem) (w : FulgurWindow) (isActive : Bool) :
    ((s.processFocus w.windowId isActive).publishWindowMenuTabsIfChanged w).openIds = s.openIds ∧
      ((s.processFocus w.windowId isActive).publishWindowMenuTabsIfChanged w).nextWindowId =
        s.nextWindowId := by
  unfold publishWindowMenuTabsIfChanged processFocus
  split <;> split <;> exact ⟨rfl, rfl⟩

theorem moves_render (isActive : Bool)
    (hkeeps : ∀ tabId ∈ w.pendingTabRemoval, ¬IsLastTab tabId w.received.tabs.tabs) :
    Moves s (s.render w isActive) := by
  have hids := publish_kept s w isActive
  unfold render
  cases hrendered : w.received.handlePendingTabRemoval with
  | none =>
      obtain ⟨tabId, htab, hlast⟩ := (handlePendingTabRemoval_eq_none_iff _).mp hrendered
      rw [(received_kept w).2] at htab
      exact absurd hlast (hkeeps tabId htab)
  | some rendered =>
      have hid : rendered.windowId = w.windowId :=
        (windowId_handlePendingTabRemoval hrendered).trans (received_kept w).1
      refine .stays ?_ hids.2 (touched_publish s w isActive)
      exact (openIds_update _ w.windowId fun _ _ => hid).trans hids.1

theorem vanishes_render (isActive : Bool) {tabId : Nat} (hw : w ∈ s.windows)
    (htab : tabId ∈ w.pendingTabRemoval) (hlast : IsLastTab tabId w.received.tabs.tabs) :
    Vanishes s (s.render w isActive) w.windowId := by
  have hgone : w.received.handlePendingTabRemoval = none := by
    refine (handlePendingTabRemoval_eq_none_iff _).mpr ⟨tabId, ?_, hlast⟩
    rwa [(received_kept w).2]
  have hids := publish_kept s w isActive
  unfold render
  rw [hgone]
  refine ⟨List.mem_map_of_mem hw, ?_, touched_publish s w isActive⟩
  rw [openIds_removeWindow, hids.1]

theorem find_spec {windowId : Nat} (h : s.find windowId = some w) :
    w ∈ s.windows ∧ w.windowId = windowId :=
  ⟨List.mem_of_find?_eq_some h, by simpa using List.find?_some h⟩

theorem moves_step {action : WindowAction} (hkeeps : s.KeepsATab action)
    (h : s.step action = some s') : Moves s s' := by
  unfold step at h
  split at h
  · cases h
  · rename_i hquit
    cases action with
    | createWindow tabs confirmExit =>
        cases h
        exact moves_openWindow s tabs confirmExit none
    | openNewWindow windowId =>
        obtain ⟨w, _, rfl⟩ := Option.map_eq_some_iff.mp h
        exact .stays rfl rfl (Touched.refl _)
    | sendToNewWindow windowId tabId =>
        obtain ⟨w, _, hsent⟩ := Option.bind_eq_some_iff.mp h
        obtain ⟨sent, _, rfl⟩ := Option.map_eq_some_iff.mp hsent
        exact .stays (openIds_update s w.windowId fun _ hw => hw) rfl (Touched.refl _)
    | sendToWindow source tabId target =>
        simp only at h
        split at h
        · cases h
        · obtain ⟨src, _, hrest⟩ := Option.bind_eq_some_iff.mp h
          obtain ⟨_, _, hsent⟩ := Option.bind_eq_some_iff.mp hrest
          obtain ⟨sent, _, rfl⟩ := Option.map_eq_some_iff.mp hsent
          refine .stays ?_ rfl (Touched.refl _)
          rw [openIds_update, openIds_update]
          · exact fun _ hw => hw
          · exact fun _ hw => hw
    | opened index tabs confirmExit succeeds =>
        obtain ⟨incoming, _, rfl⟩ := Option.map_eq_some_iff.mp h
        cases succeeds with
        | true =>
            cases moves_openWindow { s with opening := s.opening.eraseIdx index } tabs confirmExit
                incoming with
            | stays hids hnext hmanager => exact .stays hids hnext hmanager
            | opens hids hnext hmanager => exact .opens hids hnext hmanager
            | closes id first hids hnext hmanager => exact .closes id first hids hnext hmanager
        | false => exact .stays rfl rfl (Touched.refl _)
    | work windowId tabs confirmExit =>
        obtain ⟨w, _, rfl⟩ := Option.map_eq_some_iff.mp h
        exact moves_update s windowId fun _ hw => hw
    | render windowId isActive =>
        obtain ⟨w, hw, rfl⟩ := Option.map_eq_some_iff.mp h
        exact moves_render isActive (hkeeps (by simpa using hquit) w hw)
    | requestClose windowId saveOk first =>
        obtain ⟨w, _, rfl⟩ := Option.map_eq_some_iff.mp h
        exact moves_onWindowCloseRequested s w saveOk first
    | quit windowId saveOk first =>
        obtain ⟨w, _, rfl⟩ := Option.map_eq_some_iff.mp h
        exact moves_quit s w saveOk first
    | resolveWarning windowId choice writeOk saveOk first =>
        obtain ⟨w, _, hresolved⟩ := Option.bind_eq_some_iff.mp h
        exact moves_resolveLargeFileCloseWarning hresolved
    | answerConfirmExit windowId confirmed saveOk =>
        obtain ⟨w, _, hanswered⟩ := Option.bind_eq_some_iff.mp h
        exact moves_answerConfirmExit hanswered

/-- Where the condition fails, the step is a frame that takes a window away. -/
theorem vanishes_step {action : WindowAction} (hlost : ¬s.KeepsATab action) :
    ∃ s' windowId, s.step action = some s' ∧ Vanishes s s' windowId := by
  cases action with
  | render windowId isActive =>
      simp only [KeepsATab, not_forall, not_not] at hlost
      obtain ⟨hquit, w, hw, tabId, htab, hlast⟩ := hlost
      refine ⟨s.render w isActive, w.windowId, ?_,
        vanishes_render isActive (find_spec hw).1 htab hlast⟩
      have hfound : s.find windowId = some w := hw
      simp [step, hquit, hfound]
  | _ => exact absurd trivial hlost

/-- The identifiers of the open windows, each handed out once. -/
structure Counted (s : WindowSystem) : Prop where
  distinct : s.openIds.Nodup
  old : ∀ windowId ∈ s.openIds, windowId < s.nextWindowId

theorem Counted.moves (h : s.Counted) (hmoves : Moves s s') : s'.Counted := by
  cases hmoves with
  | stays hids hnext _ =>
      refine ⟨by rw [hids]; exact h.distinct, fun id hid => ?_⟩
      rw [hnext]
      exact h.old id (hids ▸ hid)
  | opens hids hnext _ =>
      have hfresh : s.nextWindowId ∉ s.openIds := fun hmem => lt_irrefl _ (h.old _ hmem)
      refine ⟨?_, fun id hid => ?_⟩
      · rw [hids, List.nodup_append]
        refine ⟨h.distinct, List.nodup_singleton _, fun a ha b hb hsame => hfresh ?_⟩
        rw [← List.mem_singleton.mp hb, ← hsame]
        exact ha
      · rw [hids, List.mem_append, List.mem_singleton] at hid
        rw [hnext]
        rcases hid with hold | rfl
        · exact Nat.lt_succ_of_lt (h.old id hold)
        · exact Nat.lt_succ_self _
  | closes windowId first hids hnext _ =>
      refine ⟨by rw [hids]; exact h.distinct.filter _, fun id hid => ?_⟩
      rw [hnext]
      exact h.old id (List.mem_of_mem_filter (hids ▸ hid))

theorem Counted.inStep (h : s.Counted) (hconsistent : s.manager.Consistent)
    (hregistered : ∀ windowId, windowId ∈ s.manager.windows ↔ windowId ∈ s.openIds) :
    s.InStep where
  consistent := hconsistent
  registered := hregistered
  quitsWithLast := by
    intro w hw
    have hperm := (List.perm_ext_iff_of_nodup hconsistent.distinct h.distinct).mpr hregistered
    rw [WindowManager.windowCount, hperm.length_eq, openIds, List.length_map]
    exact length_eq_one_iff h.distinct hw

theorem InStep.moves (h : s.InStep) (hcounted : s.Counted) (hmoves : Moves s s') : s'.InStep := by
  have hcounted' := hcounted.moves hmoves
  cases hmoves with
  | stays hids _ hmanager =>
      refine hcounted'.inStep (hmanager.2 h.consistent) fun id => ?_
      rw [hmanager.1, hids]
      exact h.registered id
  | opens hids _ hmanager =>
      refine hcounted'.inStep (hmanager ▸ h.consistent.register _) fun id => ?_
      rw [hmanager, WindowManager.mem_windows_register, hids, List.mem_append, List.mem_singleton,
        h.registered id, or_comm]
  | closes windowId first hids _ hmanager =>
      refine hcounted'.inStep (hmanager ▸ h.consistent.unregister _ _) fun id => ?_
      rw [hmanager, WindowManager.mem_windows_unregister, hids, List.mem_filter, h.registered id,
        decide_eq_true_eq]

theorem Vanishes.not_inStep {windowId : Nat} (h : Vanishes s s' windowId) (hstep : s.InStep) :
    ¬s'.InStep := by
  intro hstep'
  have hregistered : windowId ∈ s'.manager.windows := by
    rw [h.manager.1, hstep.registered]
    exact h.wasOpen
  rw [hstep'.registered, h.ids, List.mem_filter, decide_eq_true_eq] at hregistered
  exact hregistered.2 rfl

theorem inStep_start (hasSystemMenus : Bool) :
    (start hasSystemMenus).InStep ∧ (start hasSystemMenus).Counted := by
  have hcounted : (start hasSystemMenus).Counted :=
    ⟨List.nodup_nil, fun id hid => absurd hid List.not_mem_nil⟩
  exact ⟨hcounted.inStep WindowManager.consistent_empty fun id => Iff.rfl, hcounted⟩

/--
The registered windows are the open ones in every state of a run, and the count
tells which window is the last, exactly when no frame of the run takes away a
window that lost its last tab.
-/
theorem in_step_iff (hasSystemMenus : Bool) (actions : List WindowAction) :
    After step (fun _ s => s.InStep) (start hasSystemMenus) actions ↔
      Guarded step KeepsATab (start hasSystemMenus) actions := by
  refine after_iff_guarded (fun s => s.InStep ∧ s.Counted) ?_ ?_ (inStep_start hasSystemMenus)
    actions
  · intro s action s' h hstep hpost
    refine ⟨hpost, ?_⟩
    by_cases hkeeps : s.KeepsATab action
    · exact h.2.moves (moves_step hkeeps hstep)
    · obtain ⟨t, windowId, ht, hvanishes⟩ := vanishes_step hkeeps
      rw [hstep] at ht
      cases ht
      exact absurd hpost (hvanishes.not_inStep h.1)
  · intro s action h
    constructor
    · intro hkeeps s' hstep
      exact h.1.moves h.2 (moves_step hkeeps hstep)
    · intro hpost
      by_contra hlost
      obtain ⟨t, windowId, ht, hvanishes⟩ := vanishes_step hlost
      exact hvanishes.not_inStep h.1 (hpost t ht)

theorem consistent_of_run {hasSystemMenus : Bool} {actions : List WindowAction}
    (hrun : run step (start hasSystemMenus) actions = some s) : s.manager.Consistent := by
  refine invariant_of_run (fun s => s.manager.Consistent) ?_ WindowManager.consistent_empty hrun
  intro s action s' h hstep
  by_cases hkeeps : s.KeepsATab action
  · cases moves_step hkeeps hstep with
    | stays _ _ hmanager => exact hmanager.2 h
    | opens _ _ hmanager => exact hmanager ▸ h.register _
    | closes windowId first _ _ hmanager => exact hmanager ▸ h.unregister windowId first
  · obtain ⟨t, windowId, ht, hvanishes⟩ := vanishes_step hkeeps
    rw [hstep] at ht
    cases ht
    exact hvanishes.manager.2 h

theorem InStep.mem_of_getWindowName (h : s.InStep) {windowId : Nat} {name : String}
    (hname : s.manager.getWindowName windowId = some name) : windowId ∈ s.openIds := by
  unfold WindowManager.getWindowName at hname
  split at hname
  · cases hname
  · obtain ⟨before, after, hnames, _⟩ := List.lookup_eq_some_iff.mp hname
    refine (h.registered windowId).mp (h.consistent.named (windowId, name) ?_)
    rw [hnames]
    exact List.mem_append_right before List.mem_cons_self

/-- The menus list the tabs of open windows only. -/
theorem InStep.exists_of_mem_ordered (h : s.InStep) {tabs : List WindowMenuTab}
    (htabs : tabs ∈ s.manager.orderedWindowMenuTabs) :
    ∃ windowId ∈ s.openIds, s.manager.windowMenuTabs.lookup windowId = some tabs := by
  obtain ⟨⟨name, windowId⟩, hnamed, htabs⟩ := List.mem_filterMap.mp htabs
  obtain ⟨entry, hentry, hsame⟩ := List.mem_map.mp ((List.mem_insertionSort _).mp hnamed)
  cases hsame
  exact ⟨entry.1, (h.registered _).mp (h.consistent.named entry hentry), htabs⟩

def sampleStrip : TabManager := (TabManager.empty false false).newTab false

/--
The only tab of the second window is sent to the first, so the second goes. The
manager still counts two, and the last window closes without the question that it
asks before the application quits.
-/
theorem last_window_not_seen :
    ∃ s, run step (start false) [.createWindow sampleStrip true, .createWindow sampleStrip true,
        .sendToWindow 1 0 0, .render 0 true, .render 1 false] = some s ∧
      s.openIds = [0] ∧ s.manager.windowCount = 2 ∧ ¬s.InStep ∧
      (∀ w ∈ s.windows, w.confirmExit = true) ∧
      ∃ s', s.step (.requestClose 0 true 0) = some s' ∧ s'.openIds = [] ∧ s'.hasQuit = false := by
  have hfacts : ((run step (start false) [.createWindow sampleStrip true,
      .createWindow sampleStrip true, .sendToWindow 1 0 0, .render 0 true,
      .render 1 false]).any fun s => decide (s.openIds = [0] ∧ s.manager.windows = [1, 0] ∧
        (∀ w ∈ s.windows, w.confirmExit = true) ∧
        ((s.step (.requestClose 0 true 0)).any fun s' =>
          decide (s'.openIds = [] ∧ s'.hasQuit = false)) = true)) = true := by
    decide +kernel
  obtain ⟨s, hrun, hids, hwindows, hconfirm, hclose⟩ := exists_of_any hfacts
  refine ⟨s, hrun, hids, ?_, fun h => ?_, hconfirm, exists_of_any hclose⟩
  · rw [WindowManager.windowCount, hwindows]
    rfl
  · have hregistered := (h.registered 1).mp (by simp [hwindows])
    simp [hids] at hregistered

end WindowSystem

end Fulgur
