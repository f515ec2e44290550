import Fulgur.Library.Keyed
import Fulgur.Tabs.ActiveTab

/-! # Sending tabs between windows

A tab is sent by two notes: its contents go into the one place for incoming tabs
of the target, or along with a new window, and its identifier into the one place
for removals of the source. Each window acts on its notes when it renders next.
Here every tab is traced back to the tab that it was in the beginning: in which
runs each of them ends up in exactly one window.
-/

namespace Fulgur

open LabelledRun Keyed

/-- The contents of a tab on their way to another window. -/
structure SentTab where
  /-- The window and the tab that it was in the beginning. -/
  original : Nat × Nat
  data : TabTransferData
  markdown : Bool

structure TransferWindow where
  id : Nat
  manager : TabManager
  pendingTabTransfer : Option SentTab
  pendingTabRemoval : Option Nat
  /-- The window and the tab that each of its tabs was in the beginning. -/
  original : Nat → Nat × Nat

structure TransferApp where
  windows : List TransferWindow
  /-- The windows that are being created, by the tab that each receives. -/
  opening : List SentTab
  /-- The text of each tab when it was last edited. -/
  text : Nat × Nat → String
  /-- The tabs that were closed with their window. -/
  closed : List (Nat × Nat)

inductive TransferAction where
  | sendToWindow (source tabId target : Nat)
  | sendToNewWindow (source tabId : Nat)
  | openNewWindow (index windowId : Nat) (dedicatedTab showMarkdownPreview succeeds : Bool)
  | edit (windowId tabId : Nat) (content : Rope)
  | closeWindow (windowId : Nat)
  | render (windowId : Nat)

namespace TransferWindow

/-- What the window hands over of one of its editor tabs. -/
def extract (w : TransferWindow) (tabId : Nat) : Option SentTab :=
  (w.manager.extractTabTransferData tabId).map fun (data, markdown) =>
    ⟨w.original tabId, data, markdown⟩

/-- The tab on its way to this window joins the strip. -/
def handlePendingTabTransfer (w : TransferWindow) : TransferWindow :=
  match w.pendingTabTransfer with
  | none => w
  | some sent => { w with
      manager := w.manager.handlePendingTabTransfer sent.data sent.markdown
      pendingTabTransfer := none
      original := Function.update w.original w.manager.nextTabId sent.original }

/-- The tab that was sent away is removed, and the window closes with its last tab. -/
def handlePendingTabRemoval (w : TransferWindow) : Option TransferWindow :=
  match w.pendingTabRemoval with
  | none => some w
  | some tabId =>
      let removed := { w with
        manager := w.manager.handlePendingTabRemoval tabId
        pendingTabRemoval := none }
      if removed.manager.tabs.isEmpty then none else some removed

def render (w : TransferWindow) : Option TransferWindow :=
  handlePendingTabRemoval
    (handlePendingTabTransfer { w with manager := w.manager.clearActiveIfEmpty })

def edit (w : TransferWindow) (tabId : Nat) (content : Rope) : TransferWindow :=
  match w.manager.findTab tabId with
  | some (.editor tab markdown) =>
      { w with manager := w.manager.changeEditor tabId (tab.edit content) markdown }
  | _ => w

/-- A window whose tabs nobody has sent anywhere yet. -/
def settled (window : Nat × TabManager) : TransferWindow where
  id := window.1
  manager := window.2
  pendingTabTransfer := none
  pendingTabRemoval := none
  original := fun tabId => (window.1, tabId)

def receiving (windowId : Nat) (dedicatedTab showMarkdownPreview : Bool) (sent : SentTab) :
    TransferWindow where
  id := windowId
  manager := .empty dedicatedTab showMarkdownPreview
  pendingTabTransfer := some sent
  pendingTabRemoval := none
  original := fun tabId => (windowId, tabId)

end TransferWindow

namespace TransferApp

def start (windows : List (Nat × TabManager)) : TransferApp where
  windows := windows.map TransferWindow.settled
  opening := []
  text := fun original =>
    (((windows.find? fun window => window.1 = original.1).bind fun window =>
      (window.2.findTab original.2).bind Tab.asEditor).map fun tab => tab.content.toText).getD ""
  closed := []

def find (s : TransferApp) (windowId : Nat) : Option TransferWindow :=
  s.windows.find? fun w => w.id = windowId

def update (s : TransferApp) (windowId : Nat) (f : TransferWindow → TransferWindow) :
    TransferApp :=
  { s with windows := updateKey TransferWindow.id windowId f s.windows }

def sendToWindow (s : TransferApp) (source tabId target : Nat) : Option TransferApp :=
  if source = target then none
  else (s.find source).bind fun src => (s.find target).bind fun _ =>
    (src.extract tabId).map fun sent =>
      (s.update target fun w => { w with pendingTabTransfer := some sent }).update source
        fun w => { w with pendingTabRemoval := some tabId }

def sendToNewWindow (s : TransferApp) (source tabId : Nat) : Option TransferApp :=
  (s.find source).bind fun src => (src.extract tabId).map fun sent =>
    { s.update source fun w => { w with pendingTabRemoval := some tabId } with
      opening := s.opening ++ [sent] }

def openNewWindow (s : TransferApp) (index windowId : Nat)
    (dedicatedTab showMarkdownPreview succeeds : Bool) : Option TransferApp :=
  match s.opening[index]? with
  | none => none
  | some sent =>
      if succeeds then
        if (s.find windowId).isSome then none
        else some { s with
          windows := s.windows ++ [.receiving windowId dedicatedTab showMarkdownPreview sent]
          opening := s.opening.eraseIdx index }
      else some { s with opening := s.opening.eraseIdx index }

def edit (s : TransferApp) (windowId tabId : Nat) (content : Rope) : Option TransferApp :=
  (s.find windowId).bind fun w =>
    match w.manager.findTab tabId with
    | some (.editor _ _) => some { s.update windowId fun w => w.edit tabId content with
        text := Function.update s.text (w.original tabId) content.toText }
    | _ => none

/-- The tabs that a window holds and has not sent away. -/
def heldBy (w : TransferWindow) : List (Nat × Nat) :=
  w.manager.tabs.filterMap fun tab =>
    tab.asEditor.bind fun editor =>
      if w.pendingTabRemoval = some editor.id then none else some (w.original editor.id)

def closeWindow (s : TransferApp) (windowId : Nat) : Option TransferApp :=
  (s.find windowId).map fun w => { s with
    windows := dropKey TransferWindow.id windowId s.windows
    closed := s.closed ++ heldBy w }

def render (s : TransferApp) (windowId : Nat) : Option TransferApp :=
  (s.find windowId).map fun w =>
    match w.render with
    | some rendered => s.update windowId fun _ => rendered
    | none => { s with windows := dropKey TransferWindow.id windowId s.windows }

def step (s : TransferApp) : TransferAction → Option TransferApp
  | .sendToWindow source tabId target => s.sendToWindow source tabId target
  | .sendToNewWindow source tabId => s.sendToNewWindow source tabId
  | .openNewWindow index windowId dedicatedTab showMarkdownPreview succeeds =>
      s.openNewWindow index windowId dedicatedTab showMarkdownPreview succeeds
  | .edit windowId tabId content => s.edit windowId tabId content
  | .closeWindow windowId => s.closeWindow windowId
  | .render windowId => s.render windowId

/-! ## What a run keeps -/

/-- No note is waiting, and no window is being created. -/
def Drained (s : TransferApp) : Prop :=
  (∀ w ∈ s.windows, w.pendingTabTransfer = none ∧ w.pendingTabRemoval = none) ∧ s.opening = []

instance (s : TransferApp) : Decidable s.Drained :=
  inferInstanceAs (Decidable ((∀ w ∈ s.windows, _ ∧ _) ∧ _ = _))

def openTexts (s : TransferApp) (original : Nat × Nat) : List String :=
  s.windows.flatMap fun w => w.manager.tabs.filterMap fun tab =>
    tab.asEditor.bind fun editor =>
      if w.original editor.id = original then some editor.content.toText else none

/-- An editor tab of one of the windows. -/
def WasOpen (windows : List (Nat × TabManager)) (original : Nat × Nat) : Prop :=
  ∃ window ∈ windows, window.1 = original.1 ∧
    ∃ tab ∈ window.2.tabs, tab.id = original.2 ∧ tab.asEditor.isSome = true

instance (windows : List (Nat × TabManager)) (original : Nat × Nat) :
    Decidable (WasOpen windows original) :=
  inferInstanceAs (Decidable (∃ window ∈ windows, _ ∧ ∃ tab ∈ window.2.tabs, _ ∧ _))

/--
What a run must keep to. A tab is sent only when its window has no removal waiting
and the target no tab; a tab that waits to be removed is not edited; no window is
closed while a tab waits to come in; and every new window is there in the end.
-/
def ConservingStep (s : TransferApp) : TransferAction → Prop
  | .sendToWindow source _ target =>
      (∀ w ∈ s.find source, w.pendingTabRemoval = none) ∧
        ∀ w ∈ s.find target, w.pendingTabTransfer.isNone = true
  | .sendToNewWindow source _ => ∀ w ∈ s.find source, w.pendingTabRemoval = none
  | .openNewWindow _ _ _ _ succeeds => succeeds = true
  | .edit windowId tabId _ => ∀ w ∈ s.find windowId, w.pendingTabRemoval ≠ some tabId
  | .closeWindow windowId => ∀ w ∈ s.find windowId, w.pendingTabTransfer.isNone = true
  | .render _ => True

instance : ∀ (s : TransferApp) (action : TransferAction), Decidable (s.ConservingStep action)
  | s, .sendToWindow source _ target => inferInstanceAs (Decidable
      ((∀ w ∈ s.find source, w.pendingTabRemoval = none) ∧
        ∀ w ∈ s.find target, w.pendingTabTransfer.isNone = true))
  | s, .sendToNewWindow source _ =>
      inferInstanceAs (Decidable (∀ w ∈ s.find source, w.pendingTabRemoval = none))
  | _, .openNewWindow _ _ _ _ succeeds => inferInstanceAs (Decidable (succeeds = true))
  | s, .edit windowId tabId _ =>
      inferInstanceAs (Decidable (∀ w ∈ s.find windowId, w.pendingTabRemoval ≠ some tabId))
  | s, .closeWindow windowId =>
      inferInstanceAs (Decidable (∀ w ∈ s.find windowId, w.pendingTabTransfer.isNone = true))
  | _, .render _ => isTrue trivial

end TransferApp

/-! ## What is carried -/

/-- The text of a tab on its way, if it was `original` in the beginning. -/
def SentTab.carried (sent : SentTab) (original : Nat × Nat) : List String :=
  if sent.original = original then [sent.data.content] else []

namespace TransferWindow

def holds (w : TransferWindow) (original : Nat × Nat) (tab : Tab) : Option String :=
  tab.asEditor.bind fun editor =>
    if w.pendingTabRemoval = some editor.id then none
    else if w.original editor.id = original then some editor.content.toText else none

def carried (w : TransferWindow) (original : Nat × Nat) : List String :=
  w.manager.tabs.filterMap (w.holds original) ++
    w.pendingTabTransfer.toList.flatMap fun sent => sent.carried original

variable {w : TransferWindow} {original : Nat × Nat}

theorem carried_incoming (h : w.pendingTabTransfer = none) (sent : SentTab) :
    ({ w with pendingTabTransfer := some sent }).carried original =
      w.carried original ++ sent.carried original := by
  have hheld : ({ w with pendingTabTransfer := some sent }).holds original = w.holds original := rfl
  simp [carried, hheld, h]

theorem extract_eq_some {tabId : Nat} {sent : SentTab} (h : w.extract tabId = some sent) :
    ∃ tab markdown, w.manager.findTab tabId = some (.editor tab markdown) ∧
      sent = ⟨w.original tabId, tab.transferData, markdown⟩ := by
  rcases Option.map_eq_some_iff.mp h with ⟨⟨data, markdown⟩, hextract, rfl⟩
  unfold TabManager.extractTabTransferData at hextract
  split at hextract
  · rename_i tab _ hfind
    cases hextract
    exact ⟨tab, _, hfind, rfl⟩
  · cases hextract

theorem tabs_perm (hnumbered : w.manager.Numbered) {tabId : Nat} {tab : Tab}
    (hfind : w.manager.findTab tabId = some tab) :
    ∃ rest, w.manager.tabs.Perm (tab :: rest) ∧ ∀ other ∈ rest, other.id ≠ tabId := by
  rcases TabManager.find_mem hfind with ⟨hmem, rfl⟩
  exact exists_rest hnumbered.distinct hmem

theorem holds_of_ne {w' : TransferWindow} {tabId : Nat} {tab : Tab} (hid : tab.id ≠ tabId)
    (horiginal : w'.original = w.original) (hbefore : w.pendingTabRemoval = some tabId)
    (hafter : w'.pendingTabRemoval = none) : w'.holds original tab = w.holds original tab := by
  cases tab with
  | editor editor markdown =>
      have hother : tabId ≠ editor.id := fun hsame => hid hsame.symm
      simp [holds, Tab.asEditor, horiginal, hbefore, hafter, hother]
  | settings settings => rfl
  | markdownPreview preview => rfl

variable (original) in
/-- A tab that is sent away leaves its window, though it is still in the strip. -/
theorem carried_leaving (hnumbered : w.manager.Numbered) (h : w.pendingTabRemoval = none)
    {tabId : Nat} {sent : SentTab} (hextract : w.extract tabId = some sent) :
    (w.carried original).Perm (sent.carried original ++
      ({ w with pendingTabRemoval := some tabId }).carried original) := by
  rcases extract_eq_some hextract with ⟨editor, markdown, hfind, rfl⟩
  rcases tabs_perm hnumbered hfind with ⟨rest, hperm, hrest⟩
  have hid : editor.id = tabId := (TabManager.find_mem hfind).2
  have hbefore := filterMap_perm (w.holds original) hperm
  have hafter := filterMap_perm (({ w with pendingTabRemoval := some tabId }).holds original) hperm
  have hothers : ∀ other ∈ rest, w.holds original other =
      ({ w with pendingTabRemoval := some tabId }).holds original other :=
    fun other hother => holds_of_ne (hrest other hother) rfl rfl h
  have hsame : rest.filterMap (({ w with pendingTabRemoval := some tabId }).holds original) =
      rest.filterMap (w.holds original) :=
    (List.filterMap_congr hothers).symm
  have hleft : ({ w with pendingTabRemoval := some tabId }).holds original
      (.editor editor markdown) = none := by
    simp [holds, Tab.asEditor, hid]
  rw [hleft, hsame] at hafter
  have hheld : (w.manager.tabs.filterMap (w.holds original)).Perm
      (SentTab.carried ⟨w.original tabId, editor.transferData, markdown⟩ original ++
        w.manager.tabs.filterMap
          (({ w with pendingTabRemoval := some tabId }).holds original)) := by
    refine hbefore.trans (List.Perm.trans ?_ (hafter.symm.append_left _))
    unfold SentTab.carried
    by_cases horiginal : w.original tabId = original
    · have hholds : w.holds original (.editor editor markdown) = some editor.content.toText := by
        simp [holds, Tab.asEditor, h, hid, horiginal]
      rw [hholds, if_pos horiginal]
      exact List.Perm.refl _
    · have hholds : w.holds original (.editor editor markdown) = none := by
        simp [holds, Tab.asEditor, hid, horiginal]
      rw [hholds, if_neg horiginal]
      exact List.Perm.refl _
  unfold carried
  rw [← List.append_assoc]
  exact hheld.append_right _

variable (original) in
/-- The tab that came in is held as the tab that it was. -/
theorem carried_handlePendingTabTransfer (hnumbered : w.manager.Numbered)
    (hbound : ∀ tabId, w.pendingTabRemoval = some tabId → tabId < w.manager.nextTabId) :
    w.handlePendingTabTransfer.carried original = w.carried original := by
  unfold handlePendingTabTransfer
  cases hsent : w.pendingTabTransfer with
  | none => rfl
  | some sent =>
      have hold : ∀ tab ∈ w.manager.tabs, ({ w with
          manager := w.manager.handlePendingTabTransfer sent.data sent.markdown
          pendingTabTransfer := none
          original := Function.update w.original w.manager.nextTabId sent.original } :
            TransferWindow).holds original tab = w.holds original tab := by
        intro tab htab
        have hlt := hnumbered.below tab htab
        cases tab with
        | editor editor markdown =>
            have hne : editor.id ≠ w.manager.nextTabId := Nat.ne_of_lt hlt
            simp [holds, Tab.asEditor, Function.update_of_ne hne]
        | settings settings => rfl
        | markdownPreview preview => rfl
      have hnew : w.pendingTabRemoval ≠ some w.manager.nextTabId := fun hremoval =>
        Nat.lt_irrefl _ (hbound _ hremoval)
      simp only [carried, hsent, TabManager.handlePendingTabTransfer, TabManager.pushActive,
        TabManager.allocated, List.filterMap_append, Option.toList_some, Option.toList_none,
        List.flatMap_nil, List.flatMap_cons, List.append_nil]
      congr 1
      · exact List.filterMap_congr hold
      · have hid : (EditorTab.fromTransfer w.manager.nextTabId sent.data).id =
            w.manager.nextTabId := rfl
        have htext := EditorTab.toText_fromTransfer w.manager.nextTabId sent.data
        unfold SentTab.carried
        by_cases horiginal : sent.original = original
        · simp [holds, Tab.asEditor, hid, hnew, horiginal, htext]
        · simp [holds, Tab.asEditor, hid, hnew, horiginal]

end TransferWindow

/-- A removal takes out one tab, and at most a preview with it. -/
theorem TabManager.removeTabById_filterMap {β : Type} {s : TabManager} (h : s.Numbered)
    {tabId : Nat} {tab : Tab} (hfind : s.findTab tabId = some tab) {f : Tab → Option β}
    (hf : ∀ preview, f (.markdownPreview preview) = none) :
    (s.tabs.filterMap f).Perm ((f tab).toList ++ (s.removeTabById tabId).tabs.filterMap f) := by
  rcases find_mem hfind with ⟨hmem, hid⟩
  unfold removeTabById
  cases hpos : s.tabIndexOf tabId with
  | none =>
      have hmissing := List.findIdx?_eq_none_iff.mp hpos tab hmem
      simp [hid] at hmissing
  | some pos =>
      rcases removeAt_perm hpos with ⟨removed, hremoved, hremovedId, hperm⟩
      have hsame : removed = tab := h.eq_of_id hremoved hmem (hremovedId.trans hid.symm)
      rw [hsame] at hperm
      refine (filterMap_perm f hperm).trans (List.Perm.append_left _ ?_)
      simp only
      split
      · exact List.Perm.refl _
      · rename_i previewPos hpreviewPos
        rcases Option.bind_eq_some_iff.mp hpreviewPos with ⟨previewId, hlinked, hpreviewAt⟩
        rcases Option.bind_eq_some_iff.mp hlinked with ⟨_, _, hlinked⟩
        rcases linkedPreviewId_spec hlinked with ⟨preview, hpreview, hpreviews, hpreviewId⟩
        rcases removeAt_perm hpreviewAt with ⟨second, hsecond, hsecondId, hsecondPerm⟩
        have hmemSecond := (shrinks_removeAt s pos).tabs.subset hsecond
        have heq := h.eq_of_id hmemSecond hpreview (hsecondId.trans hpreviewId.symm)
        have hnone : f second = none := by
          rw [heq]
          cases preview with
          | markdownPreview preview => exact hf preview
          | editor editor markdown => cases hpreviews
          | settings settings => cases hpreviews
        have hrest := filterMap_perm f hsecondPerm
        rwa [hnone] at hrest

namespace TransferWindow

variable {w : TransferWindow} {original : Nat × Nat}

variable (original) in
/-- The removal takes out what was sent away, and nothing else that is held. -/
theorem carried_removed (hnumbered : w.manager.Numbered) {tabId : Nat}
    (h : w.pendingTabRemoval = some tabId) :
    (({ w with manager := w.manager.handlePendingTabRemoval tabId, pendingTabRemoval := none }
      ).carried original).Perm (w.carried original) := by
  refine List.Perm.append_right _ ?_
  show ((w.manager.removeTabById tabId).tabs.filterMap
    (({ w with pendingTabRemoval := none }).holds original)).Perm _
  cases hfind : w.manager.findTab tabId with
  | none =>
      have hmissing := List.find?_eq_none.mp hfind
      have hindex : w.manager.tabIndexOf tabId = none :=
        List.findIdx?_eq_none_iff.mpr fun tab htab => by simpa using hmissing tab htab
      have hkept : w.manager.removeTabById tabId = w.manager := by
        simp [TabManager.removeTabById, hindex]
      rw [hkept]
      have hheld : ∀ tab ∈ w.manager.tabs,
          ({ w with pendingTabRemoval := none }).holds original tab = w.holds original tab :=
        fun tab htab => holds_of_ne (by simpa using hmissing tab htab) rfl h rfl
      rw [List.filterMap_congr hheld]
  | some tab =>
      rcases tabs_perm hnumbered hfind with ⟨rest, hperm, hrest⟩
      have hheld : ∀ other ∈ rest,
          ({ w with pendingTabRemoval := none }).holds original other = w.holds original other :=
        fun other hother => holds_of_ne (hrest other hother) rfl h rfl
      have hleft : w.holds original tab = none := by
        have hid := (TabManager.find_mem hfind).2
        cases tab with
        | editor editor markdown => simp [holds, Tab.asEditor, h, show editor.id = tabId from hid]
        | settings settings => rfl
        | markdownPreview preview => rfl
      have hbefore := filterMap_perm (w.holds original) hperm
      rw [hleft, ← List.filterMap_congr hheld] at hbefore
      have hall := filterMap_perm (({ w with pendingTabRemoval := none }).holds original) hperm
      have hremoved := TabManager.removeTabById_filterMap hnumbered hfind
        (f := ({ w with pendingTabRemoval := none }).holds original) fun _ => rfl
      have hrest := (List.perm_append_left_iff _).mp (hremoved.symm.trans hall)
      exact hrest.trans hbefore.symm

/-- What every window keeps to: its tabs are numbered, and only such a tab waits to be removed. -/
structure Ready (w : TransferWindow) : Prop where
  numbered : w.manager.Numbered
  removal : ∀ tabId, w.pendingTabRemoval = some tabId → tabId < w.manager.nextTabId

theorem Ready.received (h : w.Ready) : w.handlePendingTabTransfer.Ready := by
  unfold handlePendingTabTransfer
  split
  · exact h
  · refine ⟨h.numbered.pushNext rfl, fun tabId hremoval => ?_⟩
    exact Nat.lt_succ_of_lt (h.removal tabId hremoval)

theorem handlePendingTabTransfer_kept (w : TransferWindow) :
    w.handlePendingTabTransfer.id = w.id ∧
      w.handlePendingTabTransfer.pendingTabTransfer = none := by
  unfold handlePendingTabTransfer
  split
  · rename_i hnone
    exact ⟨rfl, hnone⟩
  · exact ⟨rfl, rfl⟩

theorem Ready.cleared (h : w.Ready) :
    Ready { w with manager := w.manager.clearActiveIfEmpty } := by
  have hshrinks := TabManager.shrinks_clearActiveIfEmpty w.manager
  refine ⟨h.numbered.shrinks hshrinks, fun tabId hremoval => ?_⟩
  rw [hshrinks.next]
  exact h.removal tabId hremoval

theorem carried_cleared (w : TransferWindow) (original : Nat × Nat) :
    ({ w with manager := w.manager.clearActiveIfEmpty }).carried original = w.carried original := by
  unfold TabManager.clearActiveIfEmpty
  split <;> rfl

variable (original) in
/-- A window that renders goes on with what it carried, or had nothing and is gone. -/
theorem render_spec (h : w.Ready) :
    match w.render with
    | some rendered => rendered.Ready ∧ rendered.id = w.id ∧
        (rendered.carried original).Perm (w.carried original)
    | none => w.carried original = [] := by
  have hready := h.cleared.received
  have hkept := handlePendingTabTransfer_kept { w with manager := w.manager.clearActiveIfEmpty }
  have hcarried := carried_handlePendingTabTransfer original h.cleared.numbered
    h.cleared.removal
  rw [carried_cleared] at hcarried
  unfold render handlePendingTabRemoval
  revert hready hkept hcarried
  generalize { w with manager := w.manager.clearActiveIfEmpty }.handlePendingTabTransfer = received
  intro hready hkept hcarried
  cases hremoval : received.pendingTabRemoval with
  | none => exact ⟨hready, hkept.1, List.Perm.of_eq hcarried⟩
  | some tabId =>
      have hremoved := carried_removed original hready.numbered hremoval
      rw [hcarried] at hremoved
      have hshrinks := TabManager.shrinks_removeTabById received.manager tabId
      simp only
      split
      · rename_i rendered hrendered
        split at hrendered
        · cases hrendered
        · cases hrendered
          exact ⟨⟨hready.numbered.shrinks hshrinks, nofun⟩, hkept.1, hremoved⟩
      · rename_i hgone
        split at hgone
        · rename_i hempty
          have hnil : ({ received with
              manager := received.manager.handlePendingTabRemoval tabId
              pendingTabRemoval := none }).carried original = [] := by
            have htabs := List.isEmpty_iff.mp hempty
            simp [carried, htabs, hkept.2]
          rw [hnil] at hremoved
          exact List.nil_perm.mp hremoved
        · cases hgone

variable (original) in
/-- An edit changes what is carried of the edited tab, and of no other. -/
theorem carried_edit (h : w.Ready) {tabId : Nat} {content : Rope} {tab : EditorTab}
    {markdown : Bool} (hfind : w.manager.findTab tabId = some (.editor tab markdown))
    (hstays : w.pendingTabRemoval ≠ some tabId) :
    ∃ others : List String,
      (w.carried original).Perm
        ((if w.original tabId = original then [tab.content.toText] else []) ++ others) ∧
      ((w.edit tabId content).carried original).Perm
        ((if w.original tabId = original then [content.toText] else []) ++ others) := by
  rcases tabs_perm h.numbered hfind with ⟨rest, hperm, hrest⟩
  have hid : tab.id = tabId := (TabManager.find_mem hfind).2
  rcases tab.edit_eq content with ⟨modified, hedit⟩
  have hchanged : (Tab.editor tab markdown).change tabId (tab.edit content) markdown =
      .editor { tab.edit content with id := tabId } markdown := if_pos hid
  have hothers : rest.map (fun other => other.change tabId (tab.edit content) markdown) = rest := by
    have hsame : ∀ other ∈ rest, other.change tabId (tab.edit content) markdown = other := by
      intro other hother
      have hne := hrest other hother
      cases other with
      | editor other language => exact if_neg hne
      | settings settings => rfl
      | markdownPreview preview => rfl
    rw [List.map_congr_left hsame, List.map_id']
  have hafter := hperm.map fun other => other.change tabId (tab.edit content) markdown
  rw [List.map_cons, hchanged, hothers] at hafter
  have hwindow : w.edit tabId content =
      { w with manager := w.manager.changeEditor tabId (tab.edit content) markdown } := by
    simp [edit, hfind]
  refine ⟨rest.filterMap (w.holds original) ++
    w.pendingTabTransfer.toList.flatMap (fun sent => sent.carried original), ?_, ?_⟩
  · have hheld := filterMap_perm (w.holds original) hperm
    have hvalue : (w.holds original (.editor tab markdown)).toList =
        if w.original tabId = original then [tab.content.toText] else [] := by
      simp only [holds, Tab.asEditor, Option.bind_some, hid, if_neg hstays]
      split <;> rfl
    rw [hvalue] at hheld
    rw [← List.append_assoc]
    exact hheld.append_right _
  · have hheld := filterMap_perm (w.holds original) hafter
    have hvalue :
      (w.holds original (.editor { tab.edit content with id := tabId } markdown)).toList =
        if w.original tabId = original then [content.toText] else [] := by
      simp only [holds, Tab.asEditor, Option.bind_some, if_neg hstays, hedit]
      split <;> rfl
    rw [hvalue] at hheld
    rw [← List.append_assoc, hwindow]
    exact hheld.append_right _

theorem edit_id (w : TransferWindow) (tabId : Nat) (content : Rope) :
    (w.edit tabId content).id = w.id := by
  unfold edit
  split <;> rfl

theorem Ready.edit (h : w.Ready) (tabId : Nat) (content : Rope) : (w.edit tabId content).Ready := by
  unfold TransferWindow.edit
  split
  · rename_i tab markdown _
    exact ⟨h.numbered.changeEditor tabId (tab.edit content) markdown, h.removal⟩
  · exact h

end TransferWindow

namespace TransferApp

/-- The texts of `original` that are held or on their way anywhere. -/
def carried (s : TransferApp) (original : Nat × Nat) : List String :=
  (s.windows.flatMap fun w => w.carried original) ++
    s.opening.flatMap fun sent => sent.carried original

/-- Each tab is carried once, with its last text, until it is closed with its window. -/
structure Conserving (Known : Nat × Nat → Prop) (s : TransferApp) : Prop where
  ids : (s.windows.map TransferWindow.id).Nodup
  ready : ∀ w ∈ s.windows, w.Ready
  carried : ∀ original, Known original → original ∉ s.closed →
    s.carried original = [s.text original]

variable {Known : Nat × Nat → Prop} {s s' : TransferApp} {original : Nat × Nat}

theorem find_mem {windowId : Nat} {w : TransferWindow} (h : s.find windowId = some w) :
    w ∈ s.windows ∧ w.id = windowId :=
  ⟨List.mem_of_find?_eq_some h, by simpa using List.find?_some h⟩

variable (original) in
theorem carried_perm {w : TransferWindow} {rest : List TransferWindow}
    (h : s.windows.Perm (w :: rest)) :
    (s.carried original).Perm (w.carried original ++ ((rest.flatMap fun w => w.carried original) ++
      s.opening.flatMap fun sent => sent.carried original)) := by
  unfold carried
  rw [← List.append_assoc]
  exact (h.flatMap_right fun w => w.carried original).append_right _

variable (original) in
theorem carried_update (hids : (s.windows.map TransferWindow.id).Nodup) {w : TransferWindow}
    (hw : w ∈ s.windows) (f : TransferWindow → TransferWindow) :
    ∃ others : List String, (s.carried original).Perm (w.carried original ++ others) ∧
      ((s.update w.id f).carried original).Perm ((f w).carried original ++ others) := by
  rcases exists_rest hids hw with ⟨rest, hperm, hrest⟩
  exact ⟨_, carried_perm original hperm, carried_perm original (updateKey_perm f hperm hrest)⟩

theorem ready_update (hready : ∀ w ∈ s.windows, w.Ready) {windowId : Nat}
    {f : TransferWindow → TransferWindow}
    (hf : ∀ w ∈ s.windows, w.id = windowId → (f w).Ready) :
    ∀ w ∈ (s.update windowId f).windows, w.Ready := by
  intro w hw
  rcases mem_updateKey hw with hold | ⟨old, hold, hid, rfl⟩
  · exact hready w hold
  · exact hf old hold hid

theorem nodup_update (hids : (s.windows.map TransferWindow.id).Nodup) {windowId : Nat}
    {f : TransferWindow → TransferWindow} (hf : ∀ w, w.id = windowId → (f w).id = windowId) :
    ((s.update windowId f).windows.map TransferWindow.id).Nodup :=
  (map_key_updateKey hf s.windows).symm ▸ hids

theorem Conserving.of_perm (h : Conserving Known s)
    (hids : (s'.windows.map TransferWindow.id).Nodup) (hready : ∀ w ∈ s'.windows, w.Ready)
    (htext : s'.text = s.text) (hclosed : s'.closed = s.closed)
    (hcarried : ∀ original, (s'.carried original).Perm (s.carried original)) :
    Conserving Known s' := by
  refine ⟨hids, hready, fun original hknown hopen => ?_⟩
  rw [hclosed] at hopen
  have hsame := hcarried original
  rw [h.carried original hknown hopen] at hsame
  rw [htext]
  exact List.perm_singleton.mp hsame

/-! ### Steps -/

variable (original) in
theorem carried_sent (hids : (s.windows.map TransferWindow.id).Nodup) {w : TransferWindow}
    (hw : w ∈ s.windows) (hready : w.Ready) (hremoval : w.pendingTabRemoval = none) {tabId : Nat}
    {sent : SentTab} (hextract : w.extract tabId = some sent) :
    (s.carried original).Perm (sent.carried original ++
      (s.update w.id fun w => { w with pendingTabRemoval := some tabId }).carried original) := by
  rcases carried_update original hids hw
    (fun w => { w with pendingTabRemoval := some tabId }) with ⟨others, hbefore, hafter⟩
  have hleaving := TransferWindow.carried_leaving original hready.numbered hremoval
    hextract
  refine hbefore.trans ((hleaving.append_right others).trans ?_)
  rw [List.append_assoc]
  exact hafter.symm.append_left _

theorem ready_leaving {w : TransferWindow} (h : w.Ready) {tabId : Nat} {sent : SentTab}
    (hextract : w.extract tabId = some sent) :
    TransferWindow.Ready { w with pendingTabRemoval := some tabId } := by
  rcases TransferWindow.extract_eq_some hextract with ⟨tab, markdown, hfind, _⟩
  rcases TabManager.find_mem hfind with ⟨hmem, hid⟩
  refine ⟨h.numbered, fun other hother => ?_⟩
  cases hother
  exact hid ▸ h.numbered.below _ hmem

theorem Conserving.sendToWindow (h : Conserving Known s) {source tabId target : Nat}
    (hsafe : s.ConservingStep (.sendToWindow source tabId target))
    (hstep : s.sendToWindow source tabId target = some s') : Conserving Known s' := by
  rcases Option.ite_none_left_eq_some.mp hstep with ⟨hne, hbind⟩
  rcases Option.bind_eq_some_iff.mp hbind with ⟨src, hsource, hbind⟩
  rcases Option.bind_eq_some_iff.mp hbind with ⟨tgt, htarget, hmap⟩
  rcases Option.map_eq_some_iff.mp hmap with ⟨sent, hextract, rfl⟩
  rcases find_mem hsource with ⟨hsrc, rfl⟩
  rcases find_mem htarget with ⟨htgt, rfl⟩
  have hslot : tgt.pendingTabTransfer = none := by simpa using hsafe.2 tgt htarget
  have hremoval := hsafe.1 src hsource
  have hready : ∀ w ∈ (s.update tgt.id fun w =>
      { w with pendingTabTransfer := some sent }).windows, w.Ready :=
    ready_update h.ready fun w hw _ => ⟨(h.ready w hw).numbered, (h.ready w hw).removal⟩
  have hids : ((s.update tgt.id fun w =>
      { w with pendingTabTransfer := some sent }).windows.map TransferWindow.id).Nodup :=
    nodup_update h.ids fun _ hid => hid
  -- the source is not the target, so it is as it was
  have hstays :
    src ∈ (s.update tgt.id fun w => { w with pendingTabTransfer := some sent }).windows :=
    List.mem_map.mpr ⟨src, hsrc, if_neg hne⟩
  refine h.of_perm (nodup_update hids fun _ hid => hid) ?_ rfl rfl fun original => ?_
  · refine ready_update hready fun w hw hid => ?_
    have hsame : w = src := List.inj_on_of_nodup_map hids hw hstays hid
    exact hsame ▸ ready_leaving (hready src hstays) hextract
  · rcases carried_update original h.ids htgt
      (fun w => { w with pendingTabTransfer := some sent }) with ⟨others, hbefore, hafter⟩
    rw [TransferWindow.carried_incoming hslot] at hafter
    have hsent := carried_sent original hids hstays (hready src hstays) hremoval
      hextract
    have hmoved : (tgt.carried original ++ sent.carried original ++ others).Perm
        (sent.carried original ++ (tgt.carried original ++ others)) := by
      rw [← List.append_assoc]
      exact List.perm_append_comm.append_right others
    have hboth := hsent.symm.trans (hafter.trans (hmoved.trans (hbefore.symm.append_left _)))
    exact (List.perm_append_left_iff _).mp hboth

theorem Conserving.sendToNewWindow (h : Conserving Known s) {source tabId : Nat}
    (hsafe : s.ConservingStep (.sendToNewWindow source tabId))
    (hstep : s.sendToNewWindow source tabId = some s') : Conserving Known s' := by
  rcases Option.bind_eq_some_iff.mp hstep with ⟨src, hsource, hmap⟩
  rcases Option.map_eq_some_iff.mp hmap with ⟨sent, hextract, rfl⟩
  rcases find_mem hsource with ⟨hsrc, rfl⟩
  refine h.of_perm (nodup_update h.ids fun _ hid => hid) ?_ rfl rfl fun original => ?_
  · refine ready_update h.ready fun w hw hid => ?_
    have hsame : w = src := List.inj_on_of_nodup_map h.ids hw hsrc hid
    exact hsame ▸ ready_leaving (h.ready src hsrc) hextract
  · have hsent := carried_sent original h.ids hsrc (h.ready src hsrc)
      (hsafe src hsource) hextract
    refine List.Perm.trans ?_ hsent.symm
    show ((_ ++ (s.opening ++ [sent]).flatMap fun sent => sent.carried original) :
      List String).Perm _
    rw [List.flatMap_append, ← List.append_assoc]
    refine List.perm_append_comm.trans (List.Perm.append_right _ ?_)
    simp

theorem Conserving.openNewWindow (h : Conserving Known s) {index windowId : Nat}
    {dedicatedTab showMarkdownPreview succeeds : Bool}
    (hsafe : s.ConservingStep
      (.openNewWindow index windowId dedicatedTab showMarkdownPreview succeeds))
    (hstep : s.openNewWindow index windowId dedicatedTab showMarkdownPreview succeeds = some s') :
    Conserving Known s' := by
  unfold TransferApp.openNewWindow at hstep
  split at hstep
  · cases hstep
  · rename_i sent hat
    have hsucceeds : succeeds = true := hsafe
    rw [if_pos hsucceeds] at hstep
    rcases Option.ite_none_left_eq_some.mp hstep with ⟨hfresh, hopened⟩
    cases hopened
    rcases List.getElem?_eq_some_iff.mp hat with ⟨hlt, hget⟩
    refine h.of_perm ?_ ?_ rfl rfl fun original => ?_
    · rw [List.map_append, List.nodup_append]
      refine ⟨h.ids, by simp, fun id hid other hother hsame => ?_⟩
      rcases List.mem_map.mp hid with ⟨w, hw, rfl⟩
      have hnone : ∀ w ∈ s.windows, w.id ≠ windowId := by simpa [find] using hfresh
      rw [List.map_singleton, List.mem_singleton] at hother
      exact hnone w hw (hsame.trans hother)
    · intro w hw
      rcases List.mem_append.mp hw with hold | hnew
      · exact h.ready w hold
      · rw [List.mem_singleton.mp hnew]
        exact ⟨TabManager.numbered_empty _ _, nofun⟩
    · have hperm : s.opening.Perm (sent :: s.opening.eraseIdx index) := by
        rw [← hget]
        exact (List.getElem_cons_eraseIdx_perm hlt).symm
      have hopening := hperm.flatMap_right fun sent => sent.carried original
      have hnew : (TransferWindow.receiving windowId dedicatedTab showMarkdownPreview sent).carried
          original = sent.carried original := by
        simp [TransferWindow.carried, TransferWindow.receiving, TabManager.empty]
      unfold TransferApp.carried
      rw [List.flatMap_append, List.flatMap_singleton, hnew, List.append_assoc]
      exact (hopening.symm).append_left _

theorem Conserving.edit (h : Conserving Known s) {windowId tabId : Nat} {content : Rope}
    (hsafe : s.ConservingStep (.edit windowId tabId content))
    (hstep : s.edit windowId tabId content = some s') : Conserving Known s' := by
  rcases Option.bind_eq_some_iff.mp hstep with ⟨w, hfind, hedit⟩
  rcases find_mem hfind with ⟨hw, rfl⟩
  split at hedit
  · rename_i tab markdown htab
    cases hedit
    have hid : ∀ w' : TransferWindow, w'.id = w.id → (w'.edit tabId content).id = w.id :=
      fun w' hsame => (TransferWindow.edit_id w' tabId content).trans hsame
    refine ⟨nodup_update h.ids hid, ?_, fun original hknown hopen => ?_⟩
    · exact ready_update h.ready fun w hw _ => (h.ready w hw).edit tabId content
    · have hbefore := h.carried original hknown hopen
      rcases carried_update original h.ids hw
        (fun w => w.edit tabId content) with ⟨rest, hold, hnew⟩
      rcases TransferWindow.carried_edit original (h.ready w hw) htab
        (hsafe w hfind) with ⟨others, holdTab, hnewTab⟩
      have hall := hold.trans (holdTab.append_right rest)
      have hedited := hnew.trans (hnewTab.append_right rest)
      rw [hbefore] at hall
      apply List.perm_singleton.mp
      refine List.Perm.trans hedited ?_
      show List.Perm _ [Function.update s.text (w.original tabId) content.toText original]
      by_cases horiginal : w.original tabId = original
      · -- the edited tab was the only one, so nothing else is carried
        subst horiginal
        rw [if_pos rfl] at hall ⊢
        have hnil : others ++ rest = [] := by
          have hlength := hall.length_eq
          simp only [List.length_append, List.length_cons, List.length_nil] at hlength
          apply List.eq_nil_of_length_eq_zero
          rw [List.length_append]
          omega
        rw [List.append_assoc, hnil, Function.update_self]
        exact List.Perm.refl _
      · rw [if_neg horiginal] at hall ⊢
        rw [Function.update_of_ne (Ne.symm horiginal)]
        exact hall.symm
  · cases hedit

theorem carried_of_not_held {w : TransferWindow} (hslot : w.pendingTabTransfer = none)
    (hheld : original ∉ heldBy w) : w.carried original = [] := by
  have hnone : ∀ tab ∈ w.manager.tabs, w.holds original tab = none := by
    intro tab htab
    by_contra hsome
    rcases Option.ne_none_iff_exists'.mp hsome with ⟨text, htext⟩
    rcases Option.bind_eq_some_iff.mp htext with ⟨editor, heditor, hholds⟩
    rcases Option.ite_none_left_eq_some.mp hholds with ⟨hstays, hcond⟩
    rcases Option.ite_none_right_eq_some.mp hcond with ⟨horiginal, _⟩
    refine hheld (List.mem_filterMap.mpr ⟨tab, htab, ?_⟩)
    simp [heditor, hstays, horiginal]
  simp [TransferWindow.carried, hslot, List.filterMap_eq_nil_iff.mpr hnone]

theorem carried_dropKey (hids : (s.windows.map TransferWindow.id).Nodup) {w : TransferWindow}
    (hw : w ∈ s.windows) (hnone : w.carried original = []) :
    (carried { s with windows := dropKey TransferWindow.id w.id s.windows } original).Perm
      (s.carried original) := by
  rcases exists_rest hids hw with ⟨rest, hperm, hrest⟩
  have hbefore := carried_perm original hperm
  rw [hnone, List.nil_append] at hbefore
  have hdropped := (dropKey_perm hperm hrest).flatMap_right fun w => w.carried original
  exact (hdropped.append_right _).trans hbefore.symm

theorem Conserving.closeWindow (h : Conserving Known s) {windowId : Nat}
    (hsafe : s.ConservingStep (.closeWindow windowId))
    (hstep : s.closeWindow windowId = some s') : Conserving Known s' := by
  rcases Option.map_eq_some_iff.mp hstep with ⟨w, hfind, rfl⟩
  rcases find_mem hfind with ⟨hw, rfl⟩
  have hslot : w.pendingTabTransfer = none := by simpa using hsafe w hfind
  refine ⟨nodup_dropKey w.id h.ids, ?_, fun original hknown hopen => ?_⟩
  · exact fun other hother => h.ready other (List.mem_of_mem_filter hother)
  · rw [List.mem_append, not_or] at hopen
    have hsame := carried_dropKey h.ids hw (carried_of_not_held hslot hopen.2)
    rw [h.carried original hknown hopen.1] at hsame
    exact List.perm_singleton.mp hsame

theorem Conserving.render (h : Conserving Known s) {windowId : Nat}
    (hstep : s.render windowId = some s') : Conserving Known s' := by
  rcases Option.map_eq_some_iff.mp hstep with ⟨w, hfind, rfl⟩
  rcases find_mem hfind with ⟨hw, rfl⟩
  have hspec := fun original => TransferWindow.render_spec original (h.ready w hw)
  cases hrendered : w.render with
  | none =>
      simp only [hrendered] at hspec ⊢
      refine h.of_perm (nodup_dropKey w.id h.ids) ?_ rfl rfl fun original => ?_
      · exact fun other hother => h.ready other (List.mem_of_mem_filter hother)
      · exact carried_dropKey h.ids hw (hspec original)
  | some rendered =>
      simp only [hrendered] at hspec ⊢
      have hid := (hspec (0, 0)).2.1
      refine h.of_perm (nodup_update h.ids fun _ _ => hid) ?_ rfl rfl fun original => ?_
      · exact ready_update h.ready fun _ _ _ => (hspec (0, 0)).1
      · rcases carried_update original h.ids hw (fun _ => rendered) with
          ⟨others, hbefore, hafter⟩
        exact hafter.trans (((hspec original).2.2.append_right others).trans hbefore.symm)

/-! ### Runs -/

theorem Conserving.step (h : Conserving Known s) {action : TransferAction}
    (hsafe : s.ConservingStep action) (hstep : s.step action = some s') : Conserving Known s' := by
  cases action with
  | sendToWindow source tabId target => exact h.sendToWindow hsafe hstep
  | sendToNewWindow source tabId => exact h.sendToNewWindow hsafe hstep
  | openNewWindow index windowId dedicatedTab showMarkdownPreview succeeds =>
      exact h.openNewWindow hsafe hstep
  | edit windowId tabId content => exact h.edit hsafe hstep
  | closeWindow windowId => exact h.closeWindow hsafe hstep
  | render windowId => exact h.render hstep

theorem carried_settled_of_ne {window : Nat × TabManager} {original : Nat × Nat}
    (hne : window.1 ≠ original.1) : (TransferWindow.settled window).carried original = [] := by
  refine carried_of_not_held rfl fun hheld => ?_
  rcases List.mem_filterMap.mp hheld with ⟨tab, _, hbind⟩
  rcases Option.bind_eq_some_iff.mp hbind with ⟨editor, _, hholds⟩
  rcases Option.ite_none_left_eq_some.mp hholds with ⟨_, horiginal⟩
  exact hne (congrArg Prod.fst (Option.some.inj horiginal))

theorem asEditor_id {tab : Tab} {editor : EditorTab} (h : tab.asEditor = some editor) :
    editor.id = tab.id := by
  cases tab with
  | editor other markdown =>
      cases h
      rfl
  | settings settings => cases h
  | markdownPreview preview => cases h

/-- A window that sent nothing holds the text of each of its tabs, once. -/
theorem carried_settled {window : Nat × TabManager} {tab : Tab} {rest : List Tab}
    {editor : EditorTab} (htabs : window.2.tabs.Perm (tab :: rest))
    (hrest : ∀ other ∈ rest, other.id ≠ tab.id) (heditor : tab.asEditor = some editor) :
    ((TransferWindow.settled window).carried (window.1, tab.id)).Perm [editor.content.toText] := by
  have hid := asEditor_id heditor
  have hothers :
    rest.filterMap ((TransferWindow.settled window).holds (window.1, tab.id)) = [] := by
    refine List.filterMap_eq_nil_iff.mpr fun other hother => ?_
    cases hediting : other.asEditor with
    | none => simp [TransferWindow.holds, hediting]
    | some found =>
        have hne : found.id ≠ tab.id := asEditor_id hediting ▸ hrest other hother
        simp [TransferWindow.holds, TransferWindow.settled, hediting, hne]
  have hholds : (TransferWindow.settled window).holds (window.1, tab.id) tab =
      some editor.content.toText := by
    simp [TransferWindow.holds, TransferWindow.settled, heditor, hid]
  have hheld := filterMap_perm ((TransferWindow.settled window).holds (window.1, tab.id)) htabs
  rw [hothers, hholds] at hheld
  exact hheld.append_right []

theorem openTexts_eq_carried (h : s.Drained) : s.openTexts original = s.carried original := by
  unfold openTexts TransferApp.carried
  rw [h.2, List.flatMap_nil, List.append_nil]
  refine List.flatMap_congr fun w hw => ?_
  have hslots := h.1 w hw
  have hholds : w.holds original = fun tab => tab.asEditor.bind fun editor =>
      if w.original editor.id = original then some editor.content.toText else none := by
    funext tab
    simp [TransferWindow.holds, hslots.2]
  simp [TransferWindow.carried, hslots.1, hholds]

/-- In the beginning each tab is held by its window, with its text. -/
theorem conserving_start {windows : List (Nat × TabManager)}
    (hids : (windows.map Prod.fst).Nodup) (hnumbered : ∀ window ∈ windows, window.2.Numbered) :
    Conserving (WasOpen windows) (start windows) := by
  have hmapped : (start windows).windows.map TransferWindow.id = windows.map Prod.fst := by
    simp [start, TransferWindow.settled, Function.comp_def]
  refine ⟨hmapped ▸ hids, ?_, ?_⟩
  · intro w hw
    rcases List.mem_map.mp hw with ⟨window, hwindow, rfl⟩
    exact ⟨hnumbered window hwindow, nofun⟩
  · rintro ⟨windowId, tabId⟩ ⟨window, hwindow, rfl, tab, htab, rfl, heditor⟩ _
    rcases Option.isSome_iff_exists.mp heditor with ⟨editor, heditor⟩
    rcases exists_rest hids hwindow with ⟨others, hperm, hothers⟩
    rcases exists_rest (hnumbered window hwindow).distinct htab with ⟨rest, htabs, hrest⟩
    have htext : (start windows).text (window.1, tab.id) = editor.content.toText := by
      have hfound : window.2.findTab tab.id = some tab :=
        find_of_mem (hnumbered window hwindow).distinct htab
      simp [start, find_of_mem hids hwindow, hfound, heditor]
    have hothersNone : (others.map TransferWindow.settled).flatMap
        (fun w => w.carried (window.1, tab.id)) = [] := by
      refine List.flatMap_eq_nil_iff.mpr fun w hw => ?_
      rcases List.mem_map.mp hw with ⟨other, hother, rfl⟩
      exact carried_settled_of_ne (hothers other hother)
    have hwindowText := carried_settled htabs hrest heditor
    rw [htext]
    apply List.perm_singleton.mp
    have hcarried := carried_perm (s := start windows) (window.1, tab.id)
      (hperm.map TransferWindow.settled)
    rw [hothersNone] at hcarried
    refine hcarried.trans ?_
    simpa [start] using hwindowText

/--
In every run from windows that send nothing yet, in which each note is written
into an empty place, a tab that is to be removed is not edited, no window closes
before the tab on its way to it is there, and every new window comes up: once all
notes are gone, each tab that was open before and was not closed with its window
is open exactly once over all windows, with its last text.
-/
theorem transfers_conserve {windows : List (Nat × TabManager)}
    (hids : (windows.map Prod.fst).Nodup) (hnumbered : ∀ window ∈ windows, window.2.Numbered)
    {actions : List TransferAction} {s : TransferApp}
    (hguard : Guarded step ConservingStep (start windows) actions)
    (hrun : run step (start windows) actions = some s) (hdrained : s.Drained)
    {original : Nat × Nat} (hbefore : WasOpen windows original) (hopen : original ∉ s.closed) :
    s.openTexts original = [s.text original] := by
  have hconserving : Conserving (WasOpen windows) s := by
    refine invariant_of_guarded (Conserving (WasOpen windows)) ?_
      (conserving_start hids hnumbered) hguard hrun
    intro s action s' h hsafe hstep
    exact h.step hsafe hstep
  rw [openTexts_eq_carried hdrained]
  exact hconserving.carried original hbefore hopen

def sampleTabs (ids : List Nat) (nextTabId : Nat) : TabManager :=
  { TabManager.empty false false with
    tabs := ids.map fun id => .editor (.new id "a") false
    activeTabId := ids.head?
    nextTabId := nextTabId }

def sampleWindows : List (Nat × TabManager) := [(0, sampleTabs [0, 1] 2), (1, sampleTabs [0] 1)]

/-- One tab goes to the other window and one to a new one, while edits go on. -/
def sampleTransfer : List TransferAction :=
  [.edit 0 0 (.ofText "b"), .sendToWindow 0 0 1, .edit 0 1 (.ofText "c"), .render 0, .render 1,
    .edit 1 1 (.ofText "d"), .sendToNewWindow 1 0, .openNewWindow 0 2 false false true, .render 2,
    .render 1, .closeWindow 0]

theorem numbered_sampleWindows : ∀ window ∈ sampleWindows, window.2.Numbered := by
  intro window hwindow
  rcases List.mem_cons.mp hwindow with rfl | hsecond
  · exact ⟨by decide, by decide⟩
  · rw [List.mem_singleton.mp hsecond]
    exact ⟨by decide, by decide⟩

theorem transfers_conserve_sample :
    ((run step (start sampleWindows) sampleTransfer).any fun s =>
        decide (s.Drained ∧ (0, 0) ∉ s.closed)) = true ∧
      ∀ s, run step (start sampleWindows) sampleTransfer = some s → s.Drained →
        (0, 0) ∉ s.closed → s.openTexts (0, 0) = [s.text (0, 0)] :=
  ⟨by decide, fun _ hrun hdrained hopen => transfers_conserve (by decide) numbered_sampleWindows
    (Guarded.of_guardedRun (by decide)) hrun hdrained (by decide) hopen⟩

/--
All notes are gone and no window of the tab was closed, but it is open in no
window when a second tab took its place on the way, its target closed, or its new
window did not come up; in two when its removal was overwritten; and without its
last edit when it was edited before its removal.
-/
theorem transfers_lose_tabs :
    (∀ actions ∈ ([
          [.sendToWindow 0 0 1, .sendToWindow 2 0 1, .render 0, .render 1, .render 2],
          [.sendToWindow 0 0 1, .closeWindow 1, .render 0],
          [.sendToNewWindow 0 0, .render 0, .openNewWindow 0 3 false false false]] :
            List (List TransferAction)),
        ∃ s, run step (start (sampleWindows ++ [(2, sampleTabs [0, 1] 2)])) actions = some s ∧
          s.Drained ∧ (0, 0) ∉ s.closed ∧ s.openTexts (0, 0) = []) ∧
      (∃ s, run step (start sampleWindows)
          [.sendToWindow 0 0 1, .render 1, .sendToWindow 0 1 1, .render 0, .render 1] = some s ∧
        s.Drained ∧ (0, 0) ∉ s.closed ∧ s.openTexts (0, 0) = ["", ""]) ∧
      ∃ s, run step (start sampleWindows)
          [.sendToWindow 0 0 1, .edit 0 0 (.ofText "b"), .render 0, .render 1] = some s ∧
        s.Drained ∧ (0, 0) ∉ s.closed ∧ s.openTexts (0, 0) = [""] ∧ s.text (0, 0) = "b" := by
  refine ⟨fun actions hactions => ?_, ?_, ?_⟩
  · have hall : ∀ actions ∈ ([
        [.sendToWindow 0 0 1, .sendToWindow 2 0 1, .render 0, .render 1, .render 2],
        [.sendToWindow 0 0 1, .closeWindow 1, .render 0],
        [.sendToNewWindow 0 0, .render 0, .openNewWindow 0 3 false false false]] :
          List (List TransferAction)),
        ((run step (start (sampleWindows ++ [(2, sampleTabs [0, 1] 2)])) actions).any fun s =>
          decide (s.Drained ∧ (0, 0) ∉ s.closed ∧ s.openTexts (0, 0) = [])) = true := by decide
    exact exists_of_any (hall actions hactions)
  · have hfacts : ((run step (start sampleWindows)
        [.sendToWindow 0 0 1, .render 1, .sendToWindow 0 1 1, .render 0, .render 1]).any fun s =>
        decide (s.Drained ∧ (0, 0) ∉ s.closed ∧ s.openTexts (0, 0) = ["", ""])) = true := by
          decide
    exact exists_of_any hfacts
  · have hfacts : ((run step (start sampleWindows)
        [.sendToWindow 0 0 1, .edit 0 0 (.ofText "b"), .render 0, .render 1]).any fun s =>
          decide (s.Drained ∧ (0, 0) ∉ s.closed ∧ s.openTexts (0, 0) = [""] ∧
            s.text (0, 0) = "b")) = true := by decide
    exact exists_of_any hfacts

end TransferApp

end Fulgur
