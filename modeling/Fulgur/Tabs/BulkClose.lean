import Fulgur.Tabs.PreviewRuns

/-! # Closing several tabs

Closing all tabs, those on one side of a tab or the others of the active tab goes
through them one by one and stops at a modified one to ask. Once confirmed it is
resumed from the tab to keep, wherever that now is. Every modified tab on the
requested side is asked about, and what is left in the end is what was not
requested, unless the tab to keep is the preview of one that was: then it goes
along with its source, and nothing resumes.
-/

namespace Fulgur

open LabelledRun

/-- An operation that closes several tabs, with the identifier of the tab it keeps. -/
inductive BulkClose where
  | closeAllTabs
  | closeTabsToLeft (keepId : Nat)
  | closeTabsToRight (keepId : Nat)
  | closeOtherTabs (keepId : Nat)

namespace BulkClose

def action : BulkClose → TabAction
  | closeAllTabs => .closeAllTabs
  | closeTabsToLeft keepId => .closeTabsToLeft keepId
  | closeTabsToRight keepId => .closeTabsToRight keepId
  | closeOtherTabs _ => .closeOtherTabs

/-- The dialog in which the operation asks about a tab. -/
def onConfirm : BulkClose → Nat → OnConfirm
  | closeAllTabs, tabId => .closeAllTabs tabId
  | closeTabsToLeft keepId, tabId => .closeTabsToLeft tabId keepId
  | closeTabsToRight keepId, tabId => .closeTabsToRight tabId keepId
  | closeOtherTabs keepId, tabId => .closeOtherTabs tabId keepId

def keeps : BulkClose → Tab → Bool
  | closeAllTabs, _ => false
  | closeTabsToLeft keepId, tab => tab.id = keepId
  | closeTabsToRight keepId, tab => tab.id = keepId
  | closeOtherTabs keepId, tab => tab.id = keepId

def requested : BulkClose → List Tab → List Tab
  | closeAllTabs, tabs => tabs
  | closeTabsToLeft keepId, tabs => tabs.takeWhile fun tab => tab.id ≠ keepId
  | closeTabsToRight keepId, tabs => (tabs.dropWhile fun tab => tab.id ≠ keepId).tail
  | closeOtherTabs keepId, tabs => tabs.filter fun tab => tab.id ≠ keepId

/-- The tabs it has to ask about, in the order of the strip. -/
def asked (op : BulkClose) (tabs : List Tab) : List Tab := (op.requested tabs).filter Tab.isModified

def closes (op : BulkClose) (tabs : List Tab) (tab : Tab) : Bool :=
  !op.keeps tab && (op.requested tabs).any fun source => tab.closedWith source.id

/-- The operation, and the first prompts confirmed; the dialog is the last that was opened. -/
def confirmed (op : BulkClose) (dialog count : Nat) : List TabAction :=
  op.action :: List.replicate count (.confirmDialog dialog)

/-- The tab to keep is one of the strip, and the active one where the others are closed. -/
def AppliesTo (s : TabManager) : BulkClose → Prop
  | closeAllTabs => True
  | closeTabsToLeft keepId => ∃ tab ∈ s.tabs, tab.id = keepId
  | closeTabsToRight keepId => ∃ tab ∈ s.tabs, tab.id = keepId
  | closeOtherTabs keepId => s.activeTabId = some keepId ∧ ∃ tab ∈ s.tabs, tab.id = keepId

/--
What closing several tabs is for. The operation asks about each modified tab on
the requested side, in turn; until one is confirmed it stays, and so does all that
is not requested. Once all are confirmed exactly the requested tabs are gone, with
the previews of them, and the others are in their order.
-/
structure Exact (op : BulkClose) (s : TabManager) : Prop where
  asks : ∀ k (hk : k < (op.asked s.tabs).length), ∃ stopped,
    run TabManager.step s (op.confirmed s.dialogs.length k) = some stopped ∧
      stopped.dialogs = s.dialogs ++ [op.onConfirm (op.asked s.tabs)[k].id] ∧
      stopped.tabs.Sublist s.tabs ∧
      ∀ tab ∈ s.tabs, (op.closes s.tabs tab = false ∨
        tab.isModified = true ∧ tab ∉ (op.asked s.tabs).take k) → tab ∈ stopped.tabs
  cancels : ∀ k < (op.asked s.tabs).length, ∃ left,
    run TabManager.step s (op.confirmed s.dialogs.length k ++ [.cancelDialog s.dialogs.length]) =
      some left ∧ left.dialogs = s.dialogs ∧
      ∀ tab ∈ s.tabs, tab.isModified = true → tab ∉ (op.asked s.tabs).take k → tab ∈ left.tabs
  completes : ∃ closed,
    run TabManager.step s (op.confirmed s.dialogs.length (op.asked s.tabs).length) = some closed ∧
      closed.dialogs = s.dialogs ∧ closed.tabs = s.tabs.filter fun tab => !op.closes s.tabs tab

/-- The tab to keep is not the preview of a tab on the requested side. -/
def Apart (op : BulkClose) (tabs : List Tab) : Prop :=
  ∀ keep ∈ tabs, op.keeps keep = true → ∀ source ∈ op.requested tabs,
    keep.previewSource ≠ some source.id

instance (op : BulkClose) (tabs : List Tab) : Decidable (op.Apart tabs) :=
  inferInstanceAs (Decidable (∀ keep ∈ tabs, op.keeps keep = true → ∀ source ∈ _, _ ≠ _))

end BulkClose

namespace TabManager

variable {s s' : TabManager}

/-! ## The loop -/

def closedBy (tabIds : List Nat) (tab : Tab) : Bool := tabIds.any fun tabId => tab.closedWith tabId

theorem closedBy_iff {tabIds : List Nat} {tab : Tab} :
    closedBy tabIds tab = true ↔ ∃ tabId ∈ tabIds, tab.closedWith tabId = true := List.any_eq_true

theorem filter_closedWith (tabs : List Tab) (tabId : Nat) (tabIds : List Nat) :
    (tabs.filter fun tab => !tab.closedWith tabId).filter (fun tab => !closedBy tabIds tab) =
      tabs.filter fun tab => !closedBy (tabId :: tabIds) tab := by
  rw [List.filter_filter]
  refine List.filter_congr fun tab _ => ?_
  rw [closedBy, closedBy, List.any_cons, Bool.not_or, Bool.and_comm]

theorem checkTabModified_iff (h : Numbered s) {tabId : Nat} :
    s.checkTabModified tabId = true ↔ ∃ tab ∈ s.tabs, tab.id = tabId ∧ tab.isModified = true := by
  rw [checkTabModified, Option.any_eq_true]
  constructor
  · rintro ⟨tab, hfind, hmodified⟩
    exact ⟨tab, (find_mem hfind).1, (find_mem hfind).2, hmodified⟩
  · rintro ⟨tab, htab, rfl, hmodified⟩
    cases hfind : s.findTab tab.id with
    | none =>
        have hnone := List.find?_eq_none.mp hfind tab htab
        simp at hnone
    | some found =>
        have hsame := h.eq_of_id (find_mem hfind).1 htab (find_mem hfind).2
        exact ⟨found, rfl, hsame ▸ hmodified⟩

theorem removeTabById_of_missing {tabId : Nat} (h : s.contains tabId = false) :
    s.removeTabById tabId = s := by
  unfold removeTabById
  split
  · rfl
  · rename_i pos hpos
    obtain ⟨tab, -, htab, hid⟩ := tabIndexOf_spec hpos
    rw [contains_iff.mpr ⟨tab, htab, hid⟩] at h
    cases h

theorem removeTabById_dialogs (s : TabManager) (tabId : Nat) :
    (s.removeTabById tabId).dialogs = s.dialogs := by
  unfold removeTabById
  split
  · rfl
  · dsimp only
    split
    · exact (closeTabManageFocus_kept _ _).2.2
    · exact (closeTabManageFocus_kept _ _).2.2.trans (closeTabManageFocus_kept _ _).2.2

/-- A tab that is not modified is closed if it is still there, and the loop goes on. -/
theorem closeEach_cons_of_unmodified {tabId : Nat} (h : s.checkTabModified tabId = false)
    (onConfirm : Nat → OnConfirm) (tabIds : List Nat) :
    closeEach onConfirm s (tabId :: tabIds) =
      closeEach onConfirm (s.removeTabById tabId) tabIds := by
  rw [closeEach]
  cases hcontained : s.contains tabId with
  | false =>
      rw [removeTabById_of_missing hcontained]
      rfl
  | true => simp [h]

theorem closeEach_cons_of_modified {tabId : Nat} (h : s.checkTabModified tabId = true)
    (onConfirm : Nat → OnConfirm) (tabIds : List Nat) :
    (closeEach onConfirm s (tabId :: tabIds)).1.tabs = s.tabs ∧
      (closeEach onConfirm s (tabId :: tabIds)).1.dialogs = s.dialogs ++ [onConfirm tabId] := by
  obtain ⟨tab, hfind, -⟩ := (Option.any_eq_true _ _).mp h
  have hcontained : s.contains tabId = true := contains_iff.mpr ⟨tab, find_mem hfind⟩
  obtain ⟨pos, hpos⟩ := tabIndexOf_of_mem (find_mem hfind).1
  rw [(find_mem hfind).2] at hpos
  rw [closeEach, hcontained, h, hpos]
  refine ⟨(setActiveTab_kept s pos).1, ?_⟩
  show (s.setActiveTab pos).dialogs ++ [onConfirm tabId] = _
  unfold TabManager.setActiveTab
  split
  · rfl
  · rfl

/-- Without a modified tab among them all of the tabs are closed. -/
theorem Linked.closeEach_through (h : Linked s) (onConfirm : Nat → OnConfirm) (tabIds : List Nat)
    (hunmodified : ∀ tab ∈ s.tabs, tab.isModified = true → tab.id ∉ tabIds) :
    (closeEach onConfirm s tabIds).1.tabs = s.tabs.filter (fun tab => !closedBy tabIds tab) ∧
      (closeEach onConfirm s tabIds).1.dialogs = s.dialogs := by
  induction tabIds generalizing s with
  | nil => exact ⟨(List.filter_eq_self.mpr fun _ _ => rfl).symm, rfl⟩
  | cons tabId tabIds ih =>
      have hfirst : s.checkTabModified tabId = false := by
        rw [← Bool.not_eq_true, checkTabModified_iff h.numbered]
        rintro ⟨tab, htab, rfl, hmodified⟩
        exact hunmodified tab htab hmodified List.mem_cons_self
      have hrest := ih (h.removeTabById tabId) fun tab htab hmodified hmem =>
        hunmodified tab ((shrinks_removeTabById s tabId).tabs.subset htab) hmodified
          (List.mem_cons_of_mem tabId hmem)
      rw [closeEach_cons_of_unmodified hfirst, hrest.1, hrest.2, h.removeTabById_tabs,
        filter_closedWith]
      exact ⟨rfl, removeTabById_dialogs s tabId⟩

/-- The loop stops at the first modified tab, with the ones before it closed. -/
theorem Linked.closeEach_asks (h : Linked s) (onConfirm : Nat → OnConfirm) (before after : List Nat)
    (hunmodified : ∀ tab ∈ s.tabs, tab.isModified = true → tab.id ∉ before) {tab : Tab}
    (htab : tab ∈ s.tabs) (hmodified : tab.isModified = true) :
    (closeEach onConfirm s (before ++ tab.id :: after)).1.tabs =
        s.tabs.filter (fun other => !closedBy before other) ∧
      (closeEach onConfirm s (before ++ tab.id :: after)).1.dialogs =
        s.dialogs ++ [onConfirm tab.id] := by
  induction before generalizing s with
  | nil =>
      have hasked : s.checkTabModified tab.id = true :=
        (checkTabModified_iff h.numbered).mpr ⟨tab, htab, rfl, hmodified⟩
      have hstopped := closeEach_cons_of_modified hasked onConfirm after
      exact ⟨hstopped.1.trans (List.filter_eq_self.mpr fun _ _ => rfl).symm, hstopped.2⟩
  | cons tabId before ih =>
      have hfirst : s.checkTabModified tabId = false := by
        rw [← Bool.not_eq_true, checkTabModified_iff h.numbered]
        rintro ⟨other, hother, rfl, hmodifiedOther⟩
        exact hunmodified other hother hmodifiedOther List.mem_cons_self
      have hne : tab.id ≠ tabId := fun hsame =>
        hunmodified tab htab hmodified (hsame ▸ List.mem_cons_self)
      have hleft : tab ∈ (s.removeTabById tabId).tabs :=
        mem_removeTabById h.numbered htab hne (not_previews_of_modified hmodified tabId)
      have hrest := ih (h.removeTabById tabId) (fun other hother hmodifiedOther hmem =>
        hunmodified other ((shrinks_removeTabById s tabId).tabs.subset hother) hmodifiedOther
          (List.mem_cons_of_mem tabId hmem)) hleft
      rw [List.cons_append, closeEach_cons_of_unmodified hfirst, hrest.1, hrest.2,
        h.removeTabById_tabs, filter_closedWith, removeTabById_dialogs]
      exact ⟨rfl, rfl⟩

end TabManager

/-! ## The requested tabs -/

namespace BulkClose

theorem requested_sublist (op : BulkClose) (tabs : List Tab) :
    (op.requested tabs).Sublist tabs := by
  cases op with
  | closeAllTabs => exact List.Sublist.refl _
  | closeTabsToLeft keepId => exact List.takeWhile_sublist _
  | closeTabsToRight keepId => exact (List.tail_sublist _).trans (List.dropWhile_sublist _)
  | closeOtherTabs keepId => exact List.filter_sublist

/-- The requested tabs among those that are left, as long as the tab to keep is. -/
theorem requested_filter (op : BulkClose) (tabs : List Tab) {left : Tab → Bool}
    (hkeeps : ∀ tab ∈ tabs, op.keeps tab = true → left tab = true) :
    op.requested (tabs.filter left) = (op.requested tabs).filter left := by
  cases op with
  | closeAllTabs => rfl
  | closeTabsToLeft keepId =>
      induction tabs with
      | nil => rfl
      | cons tab tabs ih =>
          have hrest := ih fun other hother => hkeeps other (List.mem_cons_of_mem tab hother)
          by_cases hid : tab.id = keepId
          · have hleft := hkeeps tab List.mem_cons_self (decide_eq_true hid)
            simp [requested, hid, hleft]
          · cases hleft : left tab with
            | true => simpa [requested, hid, hleft] using hrest
            | false => simpa [requested, hid, hleft] using hrest
  | closeTabsToRight keepId =>
      induction tabs with
      | nil => rfl
      | cons tab tabs ih =>
          have hrest := ih fun other hother => hkeeps other (List.mem_cons_of_mem tab hother)
          by_cases hid : tab.id = keepId
          · have hleft := hkeeps tab List.mem_cons_self (decide_eq_true hid)
            simp [requested, hid, hleft]
          · cases hleft : left tab with
            | true => simpa [requested, hid, hleft] using hrest
            | false => simpa [requested, hid, hleft] using hrest
  | closeOtherTabs keepId => simp only [requested, List.filter_filter, Bool.and_comm]

/-- The tab to keep is not requested. -/
theorem not_keeps_of_requested (op : BulkClose) {tabs : List Tab} (h : (tabs.map Tab.id).Nodup)
    {tab : Tab} (htab : tab ∈ op.requested tabs) : op.keeps tab = false := by
  cases op with
  | closeAllTabs => rfl
  | closeTabsToLeft keepId => simpa [keeps] using List.all_eq_true.mp List.all_takeWhile tab htab
  | closeTabsToRight keepId =>
      have hsplit := List.takeWhile_append_dropWhile (p := fun tab : Tab => tab.id ≠ keepId)
        (l := tabs)
      cases hrest : tabs.dropWhile fun tab => tab.id ≠ keepId with
      | nil =>
          rw [requested, hrest] at htab
          cases htab
      | cons keep rest =>
          rw [requested, hrest, List.tail_cons] at htab
          have hkeep : keep.id = keepId := by
            have hhead := List.head?_dropWhile_not (fun tab : Tab => decide (tab.id ≠ keepId)) tabs
            rw [hrest] at hhead
            simpa using hhead
          rw [← hsplit, hrest, List.map_append, List.nodup_append, List.map_cons,
            List.nodup_cons] at h
          have hne : tab.id ≠ keep.id := fun hsame => h.2.1.1 (hsame ▸ List.mem_map_of_mem htab)
          simpa [keeps, ← hkeep] using hne
  | closeOtherTabs keepId => simpa [keeps] using (List.mem_filter.mp htab).2

theorem closes_iff {op : BulkClose} {tabs : List Tab} {tab : Tab} :
    op.closes tabs tab = true ↔
      op.keeps tab = false ∧ ∃ source ∈ op.requested tabs, tab.closedWith source.id = true := by
  rw [closes, Bool.and_eq_true, Bool.not_eq_true', List.any_eq_true]

/-- There is a tab to keep, unless all are closed. -/
def Keeping (op : BulkClose) (tabs : List Tab) : Prop :=
  op = closeAllTabs ∨ ∃ tab ∈ tabs, op.keeps tab = true

theorem AppliesTo.keeping {op : BulkClose} {s : TabManager} (h : op.AppliesTo s) :
    op.Keeping s.tabs := by
  cases op with
  | closeAllTabs => exact Or.inl rfl
  | closeTabsToLeft keepId =>
      obtain ⟨tab, htab, hid⟩ := h
      exact Or.inr ⟨tab, htab, decide_eq_true hid⟩
  | closeTabsToRight keepId =>
      obtain ⟨tab, htab, hid⟩ := h
      exact Or.inr ⟨tab, htab, decide_eq_true hid⟩
  | closeOtherTabs keepId =>
      obtain ⟨-, tab, htab, hid⟩ := h
      exact Or.inr ⟨tab, htab, decide_eq_true hid⟩

end BulkClose

/-! ## Starting and resuming -/

namespace TabManager

variable {s s' : TabManager}

/-- The operation goes on where a confirmed dialog left the strip. -/
def resume (s : TabManager) : BulkClose → TabManager
  | .closeAllTabs => if s.tabs.isEmpty then { s with activeTabId := none } else s.closeAllTabs
  | .closeTabsToLeft keepId =>
      match s.tabIndexOf keepId with
      | some boundaryIndex => if 0 < boundaryIndex then s.closeTabsToLeft boundaryIndex else s
      | none => s
  | .closeTabsToRight keepId =>
      match s.tabIndexOf keepId with
      | some boundaryIndex =>
          if boundaryIndex < s.tabs.length - 1 then s.closeTabsToRight boundaryIndex else s
      | none => s
  | .closeOtherTabs keepId =>
      (if s.contains keepId then { s with activeTabId := some keepId } else s).closeOtherTabs

theorem runOnConfirm_eq (s : TabManager) (op : BulkClose) (tabId : Nat) :
    s.runOnConfirm (op.onConfirm tabId) = (s.removeTabById tabId).resume op := by
  cases op with
  | closeAllTabs => rfl
  | closeTabsToLeft keepId => rfl
  | closeTabsToRight keepId => rfl
  | closeOtherTabs keepId => rfl

theorem nextTabId_keptByRemovals (next : Nat) : KeptByRemovals fun s => s.nextTabId = next where
  same h _ hnext := hnext.trans h
  removal tabId h := (shrinks_removeTabById _ tabId).next.trans h

/-- The strip after the loop over the requested tabs, which a modified one among them stops. -/
structure Closing (op : BulkClose) (s s' : TabManager) : Prop where
  through : op.asked s.tabs = [] →
    s'.tabs = s.tabs.filter (fun tab => !closedBy ((op.requested s.tabs).map Tab.id) tab) ∧
      s'.dialogs = s.dialogs
  asks : ∀ before tab after, op.requested s.tabs = before ++ tab :: after →
    (∀ other ∈ before, other.isModified = false) → tab.isModified = true →
    s'.tabs = s.tabs.filter (fun other => !closedBy (before.map Tab.id) other) ∧
      s'.dialogs = s.dialogs ++ [op.onConfirm tab.id]
  next : s'.nextTabId = s.nextTabId

theorem Numbered.mem_of_id (h : Numbered s) {tabs : List Tab} (hsub : tabs.Sublist s.tabs)
    {tab : Tab} (htab : tab ∈ s.tabs) : tab.id ∈ tabs.map Tab.id ↔ tab ∈ tabs := by
  refine ⟨fun hid => ?_, fun hmem => List.mem_map_of_mem hmem⟩
  obtain ⟨other, hother, hsame⟩ := List.mem_map.mp hid
  exact h.eq_of_id (hsub.subset hother) htab hsame ▸ hother

theorem Linked.closing (h : Linked s) {op : BulkClose}
    (htabs : s'.tabs = (closeEach op.onConfirm s ((op.requested s.tabs).map Tab.id)).1.tabs)
    (hdialogs : s'.dialogs =
      (closeEach op.onConfirm s ((op.requested s.tabs).map Tab.id)).1.dialogs)
    (hnext : s'.nextTabId =
      (closeEach op.onConfirm s ((op.requested s.tabs).map Tab.id)).1.nextTabId) :
    Closing op s s' where
  through := by
    intro hasked
    have hrequested := op.requested_sublist s.tabs
    rw [htabs, hdialogs]
    refine h.closeEach_through op.onConfirm _ fun tab htab hmodified hid => ?_
    rw [h.numbered.mem_of_id hrequested htab] at hid
    have hamong : tab ∈ op.asked s.tabs := List.mem_filter.mpr ⟨hid, hmodified⟩
    rw [hasked] at hamong
    cases hamong
  asks := by
    intro before tab after hsplit hbefore hmodified
    have hsub : (before ++ tab :: after).Sublist s.tabs := hsplit ▸ op.requested_sublist s.tabs
    rw [htabs, hdialogs, hsplit, List.map_append, List.map_cons]
    refine h.closeEach_asks op.onConfirm _ _ (fun other hother hmodifiedOther hid => ?_)
      (hsub.subset (by simp)) hmodified
    rw [h.numbered.mem_of_id ((List.sublist_append_left _ _).trans hsub) hother] at hid
    rw [hbefore other hid] at hmodifiedOther
    cases hmodifiedOther
  next := hnext.trans ((nextTabId_keptByRemovals s.nextTabId).closeEach op.onConfirm _ rfl)

theorem Linked.closing_loop (h : Linked s) {op : BulkClose}
    (hloop : s' = (closeEach op.onConfirm s ((op.requested s.tabs).map Tab.id)).1) :
    Closing op s s' :=
  h.closing (congrArg TabManager.tabs hloop) (congrArg TabManager.dialogs hloop)
    (congrArg TabManager.nextTabId hloop)

theorem Linked.closing_nil (h : Linked s) {op : BulkClose} (hnil : op.requested s.tabs = []) :
    Closing op s s :=
  h.closing_loop (by rw [hnil]; rfl)

theorem findIdx_of_tabIndexOf {tabId index : Nat} (h : s.tabIndexOf tabId = some index) :
    (s.tabs.findIdx fun tab => !decide (tab.id ≠ tabId)) = index := by
  have hfound : (s.tabs.findIdx? fun tab => decide (tab.id = tabId)) = some index := h
  simpa using (List.findIdx?_eq_some_iff_findIdx_eq.mp hfound).2

theorem Linked.closing_left (h : Linked s) {keepId index : Nat}
    (hpos : s.tabIndexOf keepId = some index) :
    Closing (.closeTabsToLeft keepId) s (s.closeTabsToLeft index) := by
  have hrequested : (BulkClose.closeTabsToLeft keepId).requested s.tabs = s.tabs.take index := by
    rw [BulkClose.requested, List.takeWhile_eq_take_findIdx_not, findIdx_of_tabIndexOf hpos]
  obtain ⟨keep, hat, -, hid⟩ := tabIndexOf_spec hpos
  unfold TabManager.closeTabsToLeft
  rw [hat]
  dsimp only
  split
  · rename_i hzero
    exact h.closing_nil (by rw [hrequested, hzero, List.take_zero])
  · exact h.closing_loop (by rw [hrequested, hid]; rfl)

theorem Linked.closing_right (h : Linked s) {keepId index : Nat}
    (hpos : s.tabIndexOf keepId = some index) :
    Closing (.closeTabsToRight keepId) s (s.closeTabsToRight index) := by
  have hrequested : (BulkClose.closeTabsToRight keepId).requested s.tabs =
      s.tabs.drop (index + 1) := by
    rw [BulkClose.requested, List.dropWhile_eq_drop_findIdx_not, findIdx_of_tabIndexOf hpos,
      List.tail_drop]
  obtain ⟨keep, hat, -, hid⟩ := tabIndexOf_spec hpos
  unfold TabManager.closeTabsToRight
  split
  · exact h.closing_nil (by rw [hrequested, List.drop_eq_nil_of_le (by omega)])
  · rw [hat]
    exact h.closing_loop (by rw [hrequested, ← hid]; rfl)

theorem Linked.closing_all (h : Linked s) : Closing .closeAllTabs s s.closeAllTabs := by
  unfold TabManager.closeAllTabs
  split
  · rename_i hempty
    exact h.closing_nil (List.isEmpty_iff.mp hempty)
  · have hloop : Closing .closeAllTabs s (closeEach .closeAllTabs s (s.tabs.map Tab.id)).1 :=
      h.closing_loop rfl
    split
    · rename_i stopped heach
      rw [heach] at hloop
      exact hloop
    · rename_i closed heach
      rw [heach] at hloop
      unfold TabManager.clearActiveIfEmpty
      split
      · exact ⟨hloop.through, hloop.asks, hloop.next⟩
      · exact hloop

theorem Linked.closing_others (h : Linked s) {keepId : Nat} (hactive : s.activeTabId = some keepId)
    (hkeep : ∃ tab ∈ s.tabs, tab.id = keepId) :
    Closing (.closeOtherTabs keepId) s s.closeOtherTabs := by
  unfold TabManager.closeOtherTabs
  rw [hactive]
  dsimp only
  split
  · rename_i hlength
    obtain ⟨tab, htab, hid⟩ := hkeep
    obtain ⟨only, honly⟩ := List.length_eq_one_iff.mp
      (Nat.le_antisymm hlength (List.length_pos_of_mem htab))
    rw [honly] at htab
    refine h.closing_nil ?_
    rw [BulkClose.requested, honly, ← List.mem_singleton.mp htab]
    simp [hid]
  · have hloop : Closing (.closeOtherTabs keepId) s
        (closeEach (.closeOtherTabs · keepId) s (s.otherTabIds keepId)).1 := by
      refine h.closing_loop ?_
      have hids : s.otherTabIds keepId =
          ((BulkClose.closeOtherTabs keepId).requested s.tabs).map Tab.id := by
        rw [otherTabIds, BulkClose.requested, List.filter_map]
        rfl
      rw [hids]
      rfl
    split
    · rename_i stopped heach
      rw [heach] at hloop
      exact hloop
    · rename_i closed heach
      rw [heach] at hloop
      exact ⟨hloop.through, hloop.asks, hloop.next⟩

/-- What a confirmed dialog goes on with is the loop over the requested tabs that are left. -/
theorem Linked.closing_resume (h : Linked s) {op : BulkClose} (hkeeping : op.Keeping s.tabs) :
    Closing op s (s.resume op) := by
  rcases hkeeping with rfl | ⟨keep, hkeep, hkeeps⟩
  · unfold resume
    dsimp only
    split
    · rename_i hempty
      have hnil : Closing .closeAllTabs s s := h.closing_nil (List.isEmpty_iff.mp hempty)
      exact ⟨hnil.through, hnil.asks, hnil.next⟩
    · exact h.closing_all
  · cases op with
    | closeAllTabs => cases hkeeps
    | closeTabsToLeft keepId =>
        obtain rfl : keep.id = keepId := of_decide_eq_true hkeeps
        obtain ⟨index, hpos⟩ := tabIndexOf_of_mem hkeep
        have hleft := h.closing_left hpos
        simp only [resume, hpos]
        split
        · exact hleft
        · have hsame : s.closeTabsToLeft index = s := by
            unfold TabManager.closeTabsToLeft
            split
            · exact if_pos (by omega)
            · rfl
          rwa [hsame] at hleft
    | closeTabsToRight keepId =>
        obtain rfl : keep.id = keepId := of_decide_eq_true hkeeps
        obtain ⟨index, hpos⟩ := tabIndexOf_of_mem hkeep
        have hright := h.closing_right hpos
        simp only [resume, hpos]
        split
        · exact hright
        · have hsame : s.closeTabsToRight index = s := if_pos (by omega)
          rwa [hsame] at hright
    | closeOtherTabs keepId =>
        have hid : keep.id = keepId := of_decide_eq_true hkeeps
        have hcontained : s.contains keepId = true := contains_iff.mpr ⟨keep, hkeep, hid⟩
        have hactivated : Linked { s with activeTabId := some keepId } := h.of_eq rfl rfl
        have hothers := hactivated.closing_others rfl ⟨keep, hkeep, hid⟩
        simp only [resume, hcontained, if_true]
        exact ⟨hothers.through, hothers.asks, hothers.next⟩

theorem Linked.closing_step (h : Linked s) {op : BulkClose} (happlies : op.AppliesTo s) :
    ∃ s', s.step op.action = some s' ∧ Closing op s s' := by
  cases op with
  | closeAllTabs => exact ⟨_, rfl, h.closing_all⟩
  | closeTabsToLeft keepId =>
      obtain ⟨tab, htab, rfl⟩ := happlies
      obtain ⟨index, hpos⟩ := tabIndexOf_of_mem htab
      exact ⟨_, by rw [BulkClose.action, TabManager.step, hpos]; rfl, h.closing_left hpos⟩
  | closeTabsToRight keepId =>
      obtain ⟨tab, htab, rfl⟩ := happlies
      obtain ⟨index, hpos⟩ := tabIndexOf_of_mem htab
      exact ⟨_, by rw [BulkClose.action, TabManager.step, hpos]; rfl, h.closing_right hpos⟩
  | closeOtherTabs keepId => exact ⟨_, rfl, h.closing_others happlies.1 happlies.2⟩

/-! ## Confirming one prompt after the other -/

theorem confirmDialog_step {op : BulkClose} {tabId : Nat} {dialogs : List OnConfirm}
    (h : s.dialogs = dialogs ++ [op.onConfirm tabId]) :
    s.step (.confirmDialog dialogs.length) =
      some (({ s with dialogs := dialogs }.removeTabById tabId).resume op) := by
  show s.confirmDialog dialogs.length = _
  rw [confirmDialog, h, List.getElem?_append_right (Nat.le_refl _), Nat.sub_self,
    List.getElem?_cons_zero, Option.map_some, runOnConfirm_eq,
    List.eraseIdx_append_of_length_le (Nat.le_refl _), Nat.sub_self, List.eraseIdx_cons_zero,
    List.append_nil]

theorem not_closedBy_of_keeps (h : Linked s) {op : BulkClose} (hapart : op.Apart s.tabs)
    {keep : Tab} (hkeep : keep ∈ s.tabs) (hkeeps : op.keeps keep = true) {source : Tab}
    (hsource : source ∈ op.requested s.tabs) : keep.closedWith source.id = false := by
  rw [← Bool.not_eq_true, Tab.closedWith_iff]
  rintro (hid | hlink)
  · have hmem := (op.requested_sublist s.tabs).subset hsource
    have hnot := op.not_keeps_of_requested h.numbered.distinct hsource
    rw [← h.numbered.eq_of_id hkeep hmem hid, hkeeps] at hnot
    cases hnot
  · exact hapart keep hkeep hkeeps source hsource hlink

theorem closes_eq_closedBy (h : Linked s) {op : BulkClose} (hapart : op.Apart s.tabs) {tab : Tab}
    (htab : tab ∈ s.tabs) :
    op.closes s.tabs tab = closedBy ((op.requested s.tabs).map Tab.id) tab := by
  rw [BulkClose.closes, closedBy, List.any_map]
  cases hkeeps : op.keeps tab with
  | false => rfl
  | true =>
      symm
      rw [Bool.not_true, Bool.false_and, List.any_eq_false]
      intro source hsource
      have hnot := not_closedBy_of_keeps h hapart htab hkeeps hsource
      simpa using hnot

/-- A modified tab is only closed by its own identifier. -/
theorem not_closedBy_of_modified {tab : Tab} (hmodified : tab.isModified = true)
    {tabIds : List Nat} (hid : tab.id ∉ tabIds) : closedBy tabIds tab = false := by
  rw [← Bool.not_eq_true, closedBy_iff]
  rintro ⟨tabId, htabId, hclosed⟩
  rw [Tab.closedWith, not_previews_of_modified hmodified, Bool.or_false, decide_eq_true_eq]
    at hclosed
  exact hid (hclosed ▸ htabId)

theorem Linked.filter_closedBy (h : Linked s) {tabIds : List Nat}
    (htabs : s'.tabs = s.tabs.filter fun tab => !closedBy tabIds tab)
    (hnext : s'.nextTabId = s.nextTabId) : Linked s' := by
  refine h.filter htabs hnext fun preview hpreview hkept source hsource hlink => ?_
  rw [Bool.not_eq_true', ← Bool.not_eq_true, closedBy_iff] at hkept ⊢
  rintro ⟨tabId, htabId, hclosed⟩
  rcases Tab.closedWith_iff.mp hclosed with rfl | hchained
  · exact hkept ⟨source.id, htabId, Tab.closedWith_iff.mpr (Or.inr hlink)⟩
  · rw [Tab.previewSource_of_asEditor (h.isEditor hpreview hsource hlink)] at hchained
    cases hchained

section

variable {op : BulkClose} {before after : List Tab} {tab : Tab}

/-- The strip once the tab that was asked about is gone. -/
structure Resumed (op : BulkClose) (s : TabManager) (before : List Tab) (tab : Tab)
    (left : TabManager) : Prop where
  linked : Linked left
  tabs : left.tabs = s.tabs.filter fun other => !closedBy ((before ++ [tab]).map Tab.id) other
  dialogs : left.dialogs = s.dialogs

theorem Closing.resumed (hclosing : Closing op s s') (h : Linked s)
    (hsplit : op.requested s.tabs = before ++ tab :: after)
    (hbefore : ∀ other ∈ before, other.isModified = false) (hmodified : tab.isModified = true) :
    Resumed op s before tab ({ s' with dialogs := s.dialogs }.removeTabById tab.id) := by
  have hstopped := (hclosing.asks before tab after hsplit hbefore hmodified).1
  have hlinked : Linked { s' with dialogs := s.dialogs } := h.filter_closedBy hstopped hclosing.next
  refine ⟨hlinked.removeTabById tab.id, ?_, removeTabById_dialogs _ _⟩
  rw [hlinked.removeTabById_tabs, hstopped, List.filter_filter]
  refine List.filter_congr fun other _ => ?_
  rw [closedBy, closedBy, List.map_append, List.any_append, List.map_singleton, List.any_cons,
    List.any_nil, Bool.or_false, Bool.not_or, Bool.and_comm]

variable {left : TabManager}

theorem Resumed.closedBy_requested (hsplit : op.requested s.tabs = before ++ tab :: after)
    {other : Tab} (hclosed : closedBy ((before ++ [tab]).map Tab.id) other = true) :
    ∃ source ∈ op.requested s.tabs, other.closedWith source.id = true := by
  obtain ⟨tabId, htabId, hclosed⟩ := closedBy_iff.mp hclosed
  obtain ⟨source, hsource, rfl⟩ := List.mem_map.mp htabId
  refine ⟨source, ?_, hclosed⟩
  rw [hsplit]
  rcases List.mem_append.mp hsource with hmem | hmem
  · exact List.mem_append_left _ hmem
  · rw [List.mem_singleton.mp hmem]
    exact List.mem_append_right _ List.mem_cons_self

theorem Resumed.requested (hleft : Resumed op s before tab left) (h : Linked s)
    (hapart : op.Apart s.tabs) (hsplit : op.requested s.tabs = before ++ tab :: after) :
    op.requested left.tabs = (op.requested s.tabs).filter fun other =>
      !closedBy ((before ++ [tab]).map Tab.id) other := by
  rw [hleft.tabs]
  refine op.requested_filter s.tabs fun keep hkeep hkeeps => ?_
  rw [Bool.not_eq_true', ← Bool.not_eq_true]
  intro hclosed
  obtain ⟨source, hsource, hclosedWith⟩ := closedBy_requested hsplit hclosed
  rw [not_closedBy_of_keeps h hapart hkeep hkeeps hsource] at hclosedWith
  cases hclosedWith

theorem Resumed.keeping (hleft : Resumed op s before tab left) (h : Linked s)
    (hapart : op.Apart s.tabs) (hsplit : op.requested s.tabs = before ++ tab :: after)
    (hkeeping : op.Keeping s.tabs) : op.Keeping left.tabs := by
  refine hkeeping.imp_right ?_
  rintro ⟨keep, hkeep, hkeeps⟩
  refine ⟨keep, ?_, hkeeps⟩
  rw [hleft.tabs, List.mem_filter]
  refine ⟨hkeep, ?_⟩
  rw [Bool.not_eq_true', ← Bool.not_eq_true]
  intro hclosed
  obtain ⟨source, hsource, hclosedWith⟩ := closedBy_requested hsplit hclosed
  rw [not_closedBy_of_keeps h hapart hkeep hkeeps hsource] at hclosedWith
  cases hclosedWith

theorem Resumed.apart (hleft : Resumed op s before tab left) (h : Linked s)
    (hapart : op.Apart s.tabs) (hsplit : op.requested s.tabs = before ++ tab :: after) :
    op.Apart left.tabs := by
  intro keep hkeep hkeeps source hsource
  rw [hleft.requested h hapart hsplit] at hsource
  rw [hleft.tabs] at hkeep
  exact hapart keep (List.mem_filter.mp hkeep).1 hkeeps source (List.mem_filter.mp hsource).1

/-- A modified tab that was neither passed nor asked about is left. -/
theorem Resumed.mem (hleft : Resumed op s before tab left) (h : Linked s)
    (hsplit : op.requested s.tabs = before ++ tab :: after)
    (hbefore : ∀ other ∈ before, other.isModified = false) {other : Tab} (hother : other ∈ s.tabs)
    (hmodified : other.isModified = true) (hne : other ≠ tab) : other ∈ left.tabs := by
  have hsub : (before ++ tab :: after).Sublist s.tabs := hsplit ▸ op.requested_sublist s.tabs
  have hpassed : (before ++ [tab]).Sublist s.tabs :=
    (List.Sublist.append_left (List.singleton_sublist.mpr List.mem_cons_self) before).trans hsub
  rw [hleft.tabs, List.mem_filter]
  refine ⟨hother, ?_⟩
  rw [Bool.not_eq_true']
  refine not_closedBy_of_modified hmodified ?_
  rw [h.numbered.mem_of_id hpassed hother, List.mem_append, List.mem_singleton, not_or]
  refine ⟨fun hmem => ?_, hne⟩
  rw [hbefore other hmem] at hmodified
  cases hmodified

/-- The operation asks about the same tabs as before, but for the one that is gone. -/
theorem Resumed.asked (hleft : Resumed op s before tab left) (h : Linked s)
    (hapart : op.Apart s.tabs) (hsplit : op.requested s.tabs = before ++ tab :: after)
    (hbefore : ∀ other ∈ before, other.isModified = false) {rest : List Tab}
    (hasked : op.asked s.tabs = tab :: rest) : op.asked left.tabs = rest := by
  have hnodup : (tab :: rest).Nodup := by
    rw [← hasked]
    exact ((List.Nodup.of_map _ h.numbered.distinct).sublist (op.requested_sublist s.tabs)).filter _
  have hgone : closedBy ((before ++ [tab]).map Tab.id) tab = true :=
    closedBy_iff.mpr ⟨tab.id, List.mem_map_of_mem (List.mem_append_right _ List.mem_cons_self),
      Tab.closedWith_iff.mpr (Or.inl rfl)⟩
  rw [BulkClose.asked, hleft.requested h hapart hsplit, List.filter_comm]
  show (op.asked s.tabs).filter _ = rest
  rw [hasked, List.filter_cons_of_neg (by rw [hgone]; exact Bool.false_ne_true),
    List.filter_eq_self]
  intro other hother
  have hamong : other ∈ op.asked s.tabs := hasked ▸ List.mem_cons_of_mem tab hother
  obtain ⟨hrequested, hmodified⟩ := List.mem_filter.mp hamong
  have hne : other ≠ tab := fun hsame => (List.nodup_cons.mp hnodup).1 (hsame ▸ hother)
  have hmem := hleft.mem h hsplit hbefore ((op.requested_sublist s.tabs).subset hrequested)
    hmodified hne
  rw [hleft.tabs] at hmem
  exact (List.mem_filter.mp hmem).2

/-- What is closed in the end: what is gone by now, and what the operation still closes. -/
theorem Resumed.closes (hleft : Resumed op s before tab left) (h : Linked s)
    (hapart : op.Apart s.tabs) (hsplit : op.requested s.tabs = before ++ tab :: after)
    {other : Tab} (hother : other ∈ s.tabs) :
    op.closes s.tabs other = true ↔
      closedBy ((before ++ [tab]).map Tab.id) other = true ∨ op.closes left.tabs other = true := by
  rw [BulkClose.closes_iff, BulkClose.closes_iff, hleft.requested h hapart hsplit]
  constructor
  · rintro ⟨hkeeps, source, hsource, hclosed⟩
    cases hgone : closedBy ((before ++ [tab]).map Tab.id) source with
    | false =>
        exact Or.inr ⟨hkeeps, source, List.mem_filter.mpr ⟨hsource, by rw [hgone]; rfl⟩, hclosed⟩
    | true =>
        have hmem := (op.requested_sublist s.tabs).subset hsource
        refine Or.inl ?_
        rcases Tab.closedWith_iff.mp hclosed with hid | hlink
        · rwa [h.numbered.eq_of_id hother hmem hid]
        · -- The source of a preview is an editor, so it went under its own identifier.
          obtain ⟨tabId, htabId, hsourceClosed⟩ := closedBy_iff.mp hgone
          rcases Tab.closedWith_iff.mp hsourceClosed with rfl | hchained
          · exact closedBy_iff.mpr ⟨source.id, htabId, hclosed⟩
          · rw [Tab.previewSource_of_asEditor (h.isEditor hother hmem hlink)] at hchained
            cases hchained
  · rintro (hgone | ⟨hkeeps, source, hsource, hclosed⟩)
    · obtain ⟨source, hsource, hclosed⟩ := closedBy_requested hsplit hgone
      refine ⟨?_, source, hsource, hclosed⟩
      rw [← Bool.not_eq_true]
      intro hkeeps
      rw [not_closedBy_of_keeps h hapart hother hkeeps hsource] at hclosed
      cases hclosed
    · exact ⟨hkeeps, source, (List.mem_filter.mp hsource).1, hclosed⟩

end

/-- What confirming the prompts comes to, from the strip `s'` that the loop left of `s`. -/
structure Confirming (op : BulkClose) (s s' : TabManager) : Prop where
  asks : ∀ k (hk : k < (op.asked s.tabs).length), ∃ stopped,
    run step s' (List.replicate k (.confirmDialog s.dialogs.length)) = some stopped ∧
      stopped.dialogs = s.dialogs ++ [op.onConfirm (op.asked s.tabs)[k].id] ∧
      stopped.tabs.Sublist s.tabs ∧
      ∀ tab ∈ s.tabs, (op.closes s.tabs tab = false ∨
        tab.isModified = true ∧ tab ∉ (op.asked s.tabs).take k) → tab ∈ stopped.tabs
  completes : ∃ closed,
    run step s' (List.replicate (op.asked s.tabs).length (.confirmDialog s.dialogs.length)) =
      some closed ∧
      closed.dialogs = s.dialogs ∧ closed.tabs = s.tabs.filter fun tab => !op.closes s.tabs tab

section

variable {op : BulkClose} {before after rest : List Tab} {tab : Tab}

/-- The first prompt: what was passed is gone, what is to stay or modified is there. -/
theorem Closing.first (hclosing : Closing op s s') (h : Linked s) (hapart : op.Apart s.tabs)
    (hsplit : op.requested s.tabs = before ++ tab :: after)
    (hbefore : ∀ other ∈ before, other.isModified = false) (hmodified : tab.isModified = true)
    {other : Tab} (hother : other ∈ s.tabs)
    (hstays : op.closes s.tabs other = false ∨ other.isModified = true) : other ∈ s'.tabs := by
  have hsub : (before ++ tab :: after).Sublist s.tabs := hsplit ▸ op.requested_sublist s.tabs
  rw [(hclosing.asks before tab after hsplit hbefore hmodified).1, List.mem_filter]
  refine ⟨hother, ?_⟩
  rw [Bool.not_eq_true']
  rcases hstays with hopen | hmodifiedOther
  · rw [closes_eq_closedBy h hapart hother, hsplit, closedBy, List.map_append, List.any_append,
      Bool.or_eq_false_iff] at hopen
    exact hopen.1
  · refine not_closedBy_of_modified hmodifiedOther ?_
    rw [h.numbered.mem_of_id ((List.sublist_append_left _ _).trans hsub) hother]
    intro hmem
    rw [hbefore other hmem] at hmodifiedOther
    cases hmodifiedOther

/-- One prompt is confirmed, and the rest of the prompts from there. -/
theorem Confirming.succ (hclosing : Closing op s s') (h : Linked s) (hapart : op.Apart s.tabs)
    (hasked : op.asked s.tabs = tab :: rest)
    (hsplit : op.requested s.tabs = before ++ tab :: after)
    (hbefore : ∀ other ∈ before, other.isModified = false) (hmodified : tab.isModified = true)
    {left : TabManager} (hleft : Resumed op s before tab left) {next : TabManager}
    (hstep : s'.step (.confirmDialog s.dialogs.length) = some next)
    (hrest : Confirming op left next) : Confirming op s s' := by
  have hleftAsked := hleft.asked h hapart hsplit hbefore hasked
  have hsublist : left.tabs.Sublist s.tabs := hleft.tabs ▸ List.filter_sublist
  constructor
  · intro k hk
    cases k with
    | zero =>
        have hstopped := hclosing.asks before tab after hsplit hbefore hmodified
        refine ⟨s', rfl, ?_, hstopped.1 ▸ List.filter_sublist, fun other hother hstays => ?_⟩
        · simp only [hasked, List.getElem_cons_zero]
          exact hstopped.2
        · exact hclosing.first h hapart hsplit hbefore hmodified hother (hstays.imp_right And.left)
    | succ k =>
        have hkrest : k < (op.asked left.tabs).length := by
          rw [hleftAsked]
          rw [hasked, List.length_cons] at hk
          omega
        obtain ⟨stopped, hrun, hdialogs, hsub, hstays⟩ := hrest.asks k hkrest
        refine ⟨stopped, ?_, ?_, hsub.trans hsublist, fun other hother hopen => hstays other ?_ ?_⟩
        · rw [List.replicate_succ, run_cons, hstep, Option.bind_some, ← hleft.dialogs]
          exact hrun
        · rw [hdialogs, hleft.dialogs]
          simp only [hasked, hleftAsked, List.getElem_cons_succ]
        · rw [hasked, List.take_succ_cons, List.mem_cons, not_or] at hopen
          rcases hopen with hopen | ⟨hmodifiedOther, hne, -⟩
          · rw [hleft.tabs, List.mem_filter]
            refine ⟨hother, ?_⟩
            rw [Bool.not_eq_true', ← Bool.not_eq_true]
            intro hclosed
            rw [(hleft.closes h hapart hsplit hother).mpr (Or.inl hclosed)] at hopen
            cases hopen
          · exact hleft.mem h hsplit hbefore hother hmodifiedOther hne
        · rw [hleftAsked]
          rw [hasked, List.take_succ_cons, List.mem_cons, not_or] at hopen
          refine hopen.imp (fun hopen => ?_) fun hmodifiedOther =>
            ⟨hmodifiedOther.1, hmodifiedOther.2.2⟩
          rw [← Bool.not_eq_true] at hopen ⊢
          exact fun hclosed => hopen ((hleft.closes h hapart hsplit hother).mpr (Or.inr hclosed))
  · obtain ⟨closed, hrun, hdialogs, htabs⟩ := hrest.completes
    refine ⟨closed, ?_, hdialogs.trans hleft.dialogs, ?_⟩
    · rw [hasked, List.length_cons, List.replicate_succ, run_cons, hstep, Option.bind_some,
        ← hleft.dialogs, ← hleftAsked]
      exact hrun
    · refine (htabs.trans (congrArg (List.filter fun other => !op.closes left.tabs other)
        hleft.tabs)).trans ?_
      rw [List.filter_filter]
      refine List.filter_congr fun other hother => ?_
      have hcloses := hleft.closes h hapart hsplit hother
      rw [Bool.eq_iff_iff, Bool.and_eq_true,
        Bool.not_eq_true', Bool.not_eq_true', Bool.not_eq_true',
        ← Bool.not_eq_true, ← Bool.not_eq_true, ← Bool.not_eq_true, hcloses, not_or, and_comm]

end

/-- From wherever the loop stopped, the prompts come one after the other. -/
theorem Linked.confirming (h : Linked s) {op : BulkClose} (hkeeping : op.Keeping s.tabs)
    (hapart : op.Apart s.tabs) (hclosing : Closing op s s') : Confirming op s s' := by
  generalize hcount : (op.asked s.tabs).length = count
  induction count generalizing s s' with
  | zero =>
      have hasked := List.length_eq_zero_iff.mp hcount
      obtain ⟨htabs, hdialogs⟩ := hclosing.through hasked
      refine ⟨fun k hk => by omega, s', ?_, hdialogs, ?_⟩
      · rw [hcount]
        rfl
      · rw [htabs]
        refine List.filter_congr fun tab htab => ?_
        rw [closes_eq_closedBy h hapart htab]
  | succ count ih =>
      obtain ⟨tab, rest, hasked⟩ := List.exists_cons_of_length_eq_add_one hcount
      obtain ⟨before, after, hsplit, hpassed, hmodified, -⟩ := List.filter_eq_cons_iff.mp hasked
      have hbefore : ∀ other ∈ before, other.isModified = false := fun other hother =>
        Bool.eq_false_iff.mpr (hpassed other hother)
      have hleft := hclosing.resumed h hsplit hbefore hmodified
      have hstep := confirmDialog_step (hclosing.asks before tab after hsplit hbefore hmodified).2
      have hleftKeeping := hleft.keeping h hapart hsplit hkeeping
      refine Confirming.succ hclosing h hapart hasked hsplit hbefore hmodified hleft hstep ?_
      refine ih hleft.linked hleftKeeping (hleft.apart h hapart hsplit)
        (hleft.linked.closing_resume hleftKeeping) ?_
      rw [hleft.asked h hapart hsplit hbefore hasked]
      rw [hasked, List.length_cons] at hcount
      omega

/-! ## The whole operation -/

theorem Linked.exact (h : Linked s) {op : BulkClose} (happlies : op.AppliesTo s)
    (hapart : op.Apart s.tabs) : op.Exact s := by
  obtain ⟨s', hstep, hclosing⟩ := h.closing_step happlies
  have hconfirming := h.confirming happlies.keeping hapart hclosing
  have hrun (count : Nat) : run TabManager.step s (op.confirmed s.dialogs.length count) =
      run TabManager.step s' (List.replicate count (.confirmDialog s.dialogs.length)) := by
    rw [BulkClose.confirmed, run_cons, hstep, Option.bind_some]
  constructor
  · intro k hk
    rw [hrun]
    exact hconfirming.asks k hk
  · intro k hk
    obtain ⟨stopped, hstopped, hdialogs, -, hstays⟩ := hconfirming.asks k hk
    refine ⟨{ stopped with dialogs := stopped.dialogs.eraseIdx s.dialogs.length }, ?_, ?_, ?_⟩
    · rw [run_append, hrun, hstopped]
      rfl
    · dsimp only
      rw [hdialogs, List.eraseIdx_append_of_length_le (Nat.le_refl _), Nat.sub_self,
        List.eraseIdx_cons_zero, List.append_nil]
    · exact fun tab htab hmodified hnot => hstays tab htab (Or.inr ⟨hmodified, hnot⟩)
  · rw [hrun]
    exact hconfirming.completes

/-- A preview never stays without its source, so it must not be kept when its source goes. -/
theorem apart_of_exact (h : Linked s) {op : BulkClose} (hexact : op.Exact s) :
    op.Apart s.tabs := by
  intro keep hkeep hkeeps source hsource hlink
  obtain ⟨closed, hrun, -, htabs⟩ := hexact.completes
  have hlinked : Linked closed := invariant_of_run Linked (fun _ _ _ h hstep => h.step hstep) h hrun
  have hmem := (op.requested_sublist s.tabs).subset hsource
  have hleft : keep ∈ closed.tabs := by
    rw [htabs, List.mem_filter, BulkClose.closes, hkeeps]
    exact ⟨hkeep, rfl⟩
  obtain ⟨other, hother, hid, -⟩ := hlinked.sources keep hleft source.id hlink
  rw [htabs, List.mem_filter] at hother
  have hsame := h.numbered.eq_of_id hother.1 hmem hid
  have hcloses : op.closes s.tabs other = true := BulkClose.closes_iff.mpr
    ⟨hsame ▸ op.not_keeps_of_requested h.numbered.distinct hsource, source, hsource,
      Tab.closedWith_iff.mpr (Or.inl hid)⟩
  rw [hcloses] at hother
  exact Bool.false_ne_true hother.2

/--
In a strip whose previews are linked to their sources, closing several tabs is
exact if and only if the tab to keep is not the preview of a requested one.
-/
theorem bulk_close_exact_iff (h : Linked s) {op : BulkClose} (happlies : op.AppliesTo s) :
    op.Exact s ↔ op.Apart s.tabs :=
  ⟨apart_of_exact h, h.exact happlies⟩

/-- An edited file, an edited Markdown file with its preview, and a file at the end. -/
def sampleEdited : List TabAction :=
  [.newTab false, .newTab true, .openMarkdownPreviewTab, .newTab false,
    .changeEditor 0 { EditorTab.new 0 "a" with modified := true } false,
    .changeEditor 1 { EditorTab.new 1 "b" with modified := true } true]

theorem bulk_close_exact_iff_sample :
    ∃ s, run step (launched sampleContext true false .transfer) sampleEdited = some s ∧
      (BulkClose.closeTabsToLeft 3).Exact s := by
  obtain ⟨s, hrun, hkeep, hapart⟩ := exists_of_any (show
    (run step (launched sampleContext true false .transfer) sampleEdited).any (fun s =>
      decide ((∃ tab ∈ s.tabs, tab.id = 3) ∧ (BulkClose.closeTabsToLeft 3).Apart s.tabs)) = true by
    decide +kernel)
  have hidentified : WindowOrigin.transfer.Identified := trivial
  have happlies : (BulkClose.closeTabsToLeft 3).AppliesTo s := hkeep
  exact ⟨s, hrun, (bulk_close_exact_iff (linked_of_run hidentified hrun) happlies).mpr hapart⟩

/-- An edited Markdown file, a file, and the preview of the first moved to the end. -/
def sampleMoved : List TabAction :=
  [.newTab true, .openMarkdownPreviewTab, .newTab false, .handleTabDrop 2 1,
    .changeEditor 0 { EditorTab.new 0 "a" with modified := true } true]

/-- To the left of the preview its source is closed, the preview with it, and the file stays. -/
theorem kept_preview_closed :
    ∃ s left, run step (launched sampleContext true false .transfer) sampleMoved = some s ∧
      s.tabs.map Tab.id = [0, 2, 1] ∧
      run step s ((BulkClose.closeTabsToLeft 1).confirmed s.dialogs.length 1) = some left ∧
      left.tabs.map Tab.id = [2] ∧ left.dialogs = [] ∧
      ¬(BulkClose.closeTabsToLeft 1).Exact s := by
  obtain ⟨s, hrun, hids, hapart, hran⟩ := exists_of_any (show
    (run step (launched sampleContext true false .transfer) sampleMoved).any (fun s =>
      decide (s.tabs.map Tab.id = [0, 2, 1] ∧ ¬(BulkClose.closeTabsToLeft 1).Apart s.tabs ∧
        (run step s ((BulkClose.closeTabsToLeft 1).confirmed s.dialogs.length 1)).any (fun left =>
          decide (left.tabs.map Tab.id = [2] ∧ left.dialogs = [])) = true)) = true by
    decide +kernel)
  obtain ⟨left, hconfirmed, hleft, hdialogs⟩ := exists_of_any hran
  have hidentified : WindowOrigin.transfer.Identified := trivial
  have hlinked := linked_of_run hidentified hrun
  exact ⟨s, left, hrun, hids, hconfirmed, hleft, hdialogs,
    fun hexact => hapart (apart_of_exact hlinked hexact)⟩

end TabManager

end Fulgur
