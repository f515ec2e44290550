import Mathlib.Algebra.Group.Nat.Defs
import Mathlib.Data.List.Range
import Fulgur.Tabs.StripMoves

/-! # The identifiers of a window's tabs

Every tab that is opened draws the next identifier from the counter of its
window, and a restored window counts on from the highest one it restored. The
counter is a `u64` that is incremented without a check. Until it wraps, no two
tabs of a window's life have the same identifier.
-/

namespace Fulgur

open LabelledRun

/-- The tab under the identifier that a `u64` has room for. -/
def Tab.wrapId : Tab → Tab
  | .editor tab markdown => .editor { tab with id := tab.id % 2 ^ 64 } markdown
  | .settings tab => .settings { tab with id := tab.id % 2 ^ 64 }
  | .markdownPreview tab => .markdownPreview { tab with id := tab.id % 2 ^ 64 }

/-- What an operation leaves, with the identifiers it allocated as `u64`. -/
def TabManager.wrapped (s : TabManager) : TabManager :=
  { s with tabs := s.tabs.map Tab.wrapId, nextTabId := s.nextTabId % 2 ^ 64 }

/-- A window with the identifiers of all tabs that were ever opened in it. -/
structure WindowLife where
  window : TabManager
  opened : List Nat

namespace WindowLife

/-- The identifiers from the one up to the other, as `u64`. -/
def allocatedIds (first next : Nat) : List Nat :=
  (List.range' first (next - first)).map fun id => id % 2 ^ 64

def launched (context : RestoreContext) (dedicatedTab showMarkdownPreview : Bool)
    (origin : WindowOrigin) : WindowLife :=
  let window := (TabManager.launched context dedicatedTab showMarkdownPreview origin).wrapped
  { window := window, opened := window.tabs.map Tab.id }

def step (life : WindowLife) (action : TabAction) : Option WindowLife :=
  (life.window.step action).map fun window =>
    { window := window.wrapped
      opened := life.opened ++ allocatedIds life.window.nextTabId window.nextTabId }

/-- The identifiers that the operation allocates fit, and one more is left. -/
def InRange (life : WindowLife) (action : TabAction) : Prop :=
  ∀ window ∈ life.window.step action, window.nextTabId < 2 ^ 64

instance (life : WindowLife) (action : TabAction) : Decidable (life.InRange action) :=
  inferInstanceAs (Decidable (∀ window ∈ life.window.step action, _))

/-- Every tab that was opened had an identifier of its own, and they are all below the next. -/
structure Identified (life : WindowLife) : Prop where
  distinct : (life.window.tabs.map Tab.id).Nodup
  below : ∀ tab ∈ life.window.tabs, tab.id < life.window.nextTabId
  once : life.opened.Nodup
  opened : ∀ tab ∈ life.window.tabs, tab.id ∈ life.opened

end WindowLife

/-! ## What an operation does to the counter -/

namespace TabManager

variable {s s' : TabManager}

/-- The counter does not fall, and what is new in the strip was allocated. -/
structure Grows (s s' : TabManager) : Prop where
  next : s.nextTabId ≤ s'.nextTabId
  tabs : ∀ tab ∈ s'.tabs, tab.id ∈ s.tabs.map Tab.id ∨ s.nextTabId ≤ tab.id

theorem Moves.grows {new : List Tab} (h : Moves s new s') : Grows s s' where
  next := h.next
  tabs tab htab := by
    obtain ⟨kept, hsub, hperm⟩ := h.tabs
    rcases List.mem_append.mp (hperm.mem_iff.mp htab) with hnew | hold
    · exact Or.inr (h.fresh tab hnew)
    · exact Or.inl (List.mem_map_of_mem (hsub.subset hold))

theorem grows_changeEditor (s : TabManager) (tabId : Nat) (changed : EditorTab) (markdown : Bool) :
    Grows s (s.changeEditor tabId changed markdown) := by
  refine ⟨Nat.le_refl _, fun tab htab => Or.inl ?_⟩
  obtain ⟨old, hold, rfl⟩ := List.mem_map.mp htab
  rw [change_id]
  exact List.mem_map_of_mem hold

theorem grows_step {action : TabAction} (hstep : s.step action = some s') : Grows s s' := by
  rcases moves_step hstep with ⟨new, hmoves, -⟩ | ⟨tabId, changed, markdown, rfl, rfl⟩
  · exact hmoves.grows
  · exact s.grows_changeEditor tabId changed markdown

/-- Identifiers that fit are not changed by the width. -/
theorem wrapId_of_lt {tab : Tab} (h : tab.id < 2 ^ 64) : tab.wrapId = tab := by
  cases tab with
  | editor tab markdown =>
      have hid : tab.id % 2 ^ 64 = tab.id := Nat.mod_eq_of_lt h
      rw [Tab.wrapId, hid]
  | settings tab =>
      have hid : tab.id % 2 ^ 64 = tab.id := Nat.mod_eq_of_lt h
      rw [Tab.wrapId, hid]
  | markdownPreview tab =>
      have hid : tab.id % 2 ^ 64 = tab.id := Nat.mod_eq_of_lt h
      rw [Tab.wrapId, hid]

theorem wrapped_of_lt (h : Numbered s) (hnext : s.nextTabId < 2 ^ 64) : s.wrapped = s := by
  have htabs : s.tabs.map Tab.wrapId = s.tabs := by
    calc s.tabs.map Tab.wrapId
        = s.tabs.map id := List.map_congr_left fun tab htab =>
          wrapId_of_lt (Nat.lt_trans (h.below tab htab) hnext)
      _ = s.tabs := List.map_id _
  rw [wrapped, htabs, Nat.mod_eq_of_lt hnext]

end TabManager

/-! ## Runs -/

namespace WindowLife

variable {life life' : WindowLife}

/-- The counter has not wrapped: it is past every identifier that was handed out. -/
structure Counting (life : WindowLife) : Prop where
  linked : life.window.Linked
  once : life.opened.Nodup
  opened : ∀ tab ∈ life.window.tabs, tab.id ∈ life.opened
  past : ∀ id ∈ life.opened, id < life.window.nextTabId

theorem Counting.identified (h : Counting life) : Identified life where
  distinct := h.linked.numbered.distinct
  below := h.linked.numbered.below
  once := h.once
  opened := h.opened

theorem allocatedIds_of_lt {first next : Nat} (h : next < 2 ^ 64) :
    allocatedIds first next = List.range' first (next - first) := by
  calc (List.range' first (next - first)).map (fun id => id % 2 ^ 64)
      = (List.range' first (next - first)).map id := by
        refine List.map_congr_left fun id hid => Nat.mod_eq_of_lt ?_
        rw [List.mem_range'_1] at hid
        omega
    _ = List.range' first (next - first) := List.map_id _

theorem counting_launched (context : RestoreContext) (dedicatedTab showMarkdownPreview : Bool)
    {origin : WindowOrigin} (h : origin.Identified)
    (hfits : (TabManager.launched context dedicatedTab showMarkdownPreview origin).nextTabId <
      2 ^ 64) :
    Counting (launched context dedicatedTab showMarkdownPreview origin) := by
  have hlinked := TabManager.linked_launched context dedicatedTab showMarkdownPreview h
  have hwrapped := TabManager.wrapped_of_lt hlinked.numbered hfits
  unfold launched
  dsimp only
  rw [hwrapped]
  refine ⟨hlinked, hlinked.numbered.distinct, fun tab htab => List.mem_map_of_mem htab, ?_⟩
  intro id hid
  obtain ⟨tab, htab, rfl⟩ := List.mem_map.mp hid
  exact hlinked.numbered.below tab htab

/-- Within the range of the counter a step hands out what was not handed out before. -/
theorem Counting.step (h : Counting life) {action : TabAction} (hrange : life.InRange action)
    (hstep : life.step action = some life') : Counting life' := by
  obtain ⟨window, hwindow, rfl⟩ := Option.map_eq_some_iff.mp hstep
  have hfits := hrange window hwindow
  have hlinked := h.linked.step hwindow
  have hgrows := TabManager.grows_step hwindow
  have hnext := hgrows.next
  rw [TabManager.wrapped_of_lt hlinked.numbered hfits, allocatedIds_of_lt hfits]
  refine ⟨hlinked, ?_, fun tab htab => ?_, fun id hid => ?_⟩
  · refine List.nodup_append.mpr ⟨h.once, List.nodup_range', fun old hold new hnew => ?_⟩
    have hpast := h.past old hold
    rw [List.mem_range'_1] at hnew
    omega
  · rcases hgrows.tabs tab htab with hold | hnew
    · obtain ⟨old, hmem, hid⟩ := List.mem_map.mp hold
      exact List.mem_append_left _ (hid ▸ h.opened old hmem)
    · have hbelow := hlinked.numbered.below tab htab
      refine List.mem_append_right _ (List.mem_range'_1.mpr ⟨hnew, ?_⟩)
      omega
  · rcases List.mem_append.mp hid with hold | hnew
    · exact Nat.lt_of_lt_of_le (h.past id hold) hnext
    · rw [List.mem_range'_1] at hnew
      show id < window.nextTabId
      omega

/--
In every run of a window in which the counter does not wrap, the open tabs have
identifiers of their own, all below the next one, and no two of the tabs that
were ever opened had the same.
-/
theorem tab_ids_unique {context : RestoreContext} {dedicatedTab showMarkdownPreview : Bool}
    {origin : WindowOrigin} {actions : List TabAction} {life : WindowLife}
    (hidentified : origin.Identified)
    (hfits : (TabManager.launched context dedicatedTab showMarkdownPreview origin).nextTabId <
      2 ^ 64)
    (hguard : Guarded step InRange (launched context dedicatedTab showMarkdownPreview origin)
      actions)
    (hrun : run step (launched context dedicatedTab showMarkdownPreview origin) actions =
      some life) : life.Identified := by
  have hcounting : Counting life := by
    refine invariant_of_guarded Counting ?_ ?_ hguard hrun
    · intro s action s' h hrange hstep
      exact h.step hrange hstep
    · exact counting_launched context dedicatedTab showMarkdownPreview hidentified hfits
  exact hcounting.identified

theorem tab_ids_unique_sample :
    ∃ life, run step (launched TabManager.sampleContext true true
      (.restored (some TabManager.sampleWindowState))) TabManager.samplePreviewRun = some life ∧
        life.opened = [7, 8, 4, 9, 10, 11, 12, 13] ∧ life.Identified := by
  obtain ⟨life, hrun, hopened⟩ := exists_of_any (show (run step (launched TabManager.sampleContext
    true true (.restored (some TabManager.sampleWindowState))) TabManager.samplePreviewRun).any
      (fun life => decide (life.opened = [7, 8, 4, 9, 10, 11, 12, 13])) = true by decide +kernel)
  have hidentified : (WindowOrigin.restored (some TabManager.sampleWindowState)).Identified := by
    intro saved hsaved
    cases hsaved
    exact ⟨by decide, by decide⟩
  exact ⟨life, hrun, hopened, tab_ids_unique hidentified (by decide +kernel)
    (Guarded.of_guardedRun (by decide +kernel)) hrun⟩

/-- Two unsaved buffers, one of them near the end of the range. -/
def lateWindowState : WindowState where
  windowId := 1
  tabs := [⟨0, "a", none, some (.text "a"), none, none, false, none⟩,
    ⟨2 ^ 64 - 2, "b", none, some (.text "b"), none, none, false, none⟩]
  activeTabIndex := some 1
  windowBounds := .default

/-- After the last identifier the counter starts over, and hands out one that is in use. -/
theorem counter_starts_over :
    (WindowOrigin.restored (some lateWindowState)).Identified ∧
    ∃ life, run step (launched TabManager.sampleContext false false
      (.restored (some lateWindowState))) [.newTab false, .newTab false] = some life ∧
        life.window.tabs.map Tab.id = [0, 2 ^ 64 - 2, 2 ^ 64 - 1, 0] ∧ ¬life.Identified := by
  refine ⟨fun saved hsaved => ?_, ?_⟩
  · cases hsaved
    exact ⟨by decide, by decide⟩
  · obtain ⟨life, hrun, hids⟩ := exists_of_any (show (run step (launched TabManager.sampleContext
      false false (.restored (some lateWindowState))) [.newTab false, .newTab false]).any
        (fun life => decide (life.window.tabs.map Tab.id = [0, 2 ^ 64 - 2, 2 ^ 64 - 1, 0])) =
          true by
      decide +kernel)
    refine ⟨life, hrun, hids, fun hidentified => ?_⟩
    have hdistinct := hidentified.distinct
    rw [hids] at hdistinct
    exact absurd hdistinct (by decide)

end WindowLife

end Fulgur
