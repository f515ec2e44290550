import Fulgur.Library.Grid
import Fulgur.Tabs.PreviewRuns
import Mathlib.Data.List.Find

/-! # A tab that is dropped elsewhere

A slot is a gap between two tabs, before the first one or after the last one. Once
the dragged tab is taken out, the slots after it are one further down; the two
slots beside it are where it is already.
-/

namespace Fulgur

open Grid

namespace TabManager

variable {s : TabManager} {source slot : Nat}

/-- Where a tab stands once it is moved to a slot. -/
def landing (source slot : Nat) : Nat := if source < slot then slot - 1 else slot

theorem landing_lt {length : Nat} (hsource : source < length) (hslot : slot ≤ length) :
    landing source slot < length := by
  unfold landing
  split <;> omega

/-- One tab moves, and the rest of the window is left alone. -/
theorem reorderTab_movesOne (hsource : source < s.tabs.length) (hslot : slot ≤ s.tabs.length) :
    MovesOne s.tabs (s.reorderTab source slot).tabs source (landing source slot) := by
  unfold reorderTab
  rw [if_neg (by omega)]
  split
  · rename_i hbeside
    have hstays : landing source slot = source := by
      unfold landing
      split <;> omega
    rw [hstays]
    exact movesOne_self hsource
  · have hmoved := movesOne_moved hsource (landing_lt hsource hslot)
    rw [moved_of_lt hsource] at hmoved
    rw [List.getElem?_eq_getElem hsource]
    exact hmoved

theorem reorderTab_others (s : TabManager) (source slot : Nat) :
    s.reorderTab source slot = { s with tabs := (s.reorderTab source slot).tabs } := by
  unfold reorderTab
  split
  · rfl
  · split
    · rfl
    · split <;> rfl

theorem reorderTab_next_tab (hsource : source < s.tabs.length) (hslot : slot ≤ s.tabs.length)
    (hother : slot ≠ source) :
    (s.reorderTab source slot).tabs[landing source slot + 1]? = s.tabs[slot]? := by
  rw [(reorderTab_movesOne hsource hslot).next]
  unfold landing
  split
  · rename_i hafter
    rw [List.getElem?_eraseIdx_of_ge (by omega), Nat.sub_add_cancel (by omega)]
  · exact List.getElem?_eraseIdx_of_lt (by omega)

theorem reorderTab_beside (hbeside : slot = source ∨ slot = source + 1) :
    s.reorderTab source slot = s := by
  rw [reorderTab, if_pos hbeside, ite_self]

theorem reorderTab_findTab (hdistinct : (s.tabs.map Tab.id).Nodup) (source slot tabId : Nat) :
    (s.reorderTab source slot).findTab tabId = s.findTab tabId := by
  refine (List.find?_eq_find?_of_perm (s.reorderTab_perm source slot).symm ?_).symm
  rintro tab ⟨htab, hid⟩ other ⟨hother, hid'⟩
  exact List.inj_on_of_nodup_map hdistinct htab hother
    ((of_decide_eq_true hid).trans (of_decide_eq_true hid').symm)

theorem reorderTab_activeTab (hdistinct : (s.tabs.map Tab.id).Nodup) (source slot : Nat) :
    (s.reorderTab source slot).activeTab = s.activeTab := by
  unfold activeTab
  rw [reorderTab_others s source slot]
  exact Option.bind_congr fun tabId _ => reorderTab_findTab hdistinct source slot tabId

/--
The strip is permuted: the tab that stood at `source` stands before the tab that
was at the slot, or last, and the others keep their order. Nothing else changes,
not even the active tab; and beside the tab, nothing moves at all.
-/
theorem tab_reordered (s : TabManager) {source slot : Nat} (hsource : source < s.tabs.length)
    (hslot : slot ≤ s.tabs.length) :
    (s.reorderTab source slot).tabs.Perm s.tabs ∧
    MovesOne s.tabs (s.reorderTab source slot).tabs source (landing source slot) ∧
    (slot ≠ source →
      (s.reorderTab source slot).tabs[landing source slot + 1]? = s.tabs[slot]?) ∧
    (slot = s.tabs.length → landing source slot + 1 = (s.reorderTab source slot).tabs.length) ∧
    s.reorderTab source slot = { s with tabs := (s.reorderTab source slot).tabs } ∧
    ((s.tabs.map Tab.id).Nodup → (s.reorderTab source slot).activeTab = s.activeTab) ∧
    (slot = source ∨ slot = source + 1 → s.reorderTab source slot = s) := by
  have hmoves := reorderTab_movesOne hsource hslot
  refine ⟨hmoves.perm, hmoves, reorderTab_next_tab hsource hslot, fun hlast => ?_,
    reorderTab_others s source slot, fun hdistinct => reorderTab_activeTab hdistinct source slot,
    reorderTab_beside⟩
  rw [hmoves.length_eq, landing, if_pos (by omega)]
  omega

def sampleTabs : TabManager := (((empty true false).newTab false).newTab false).newTab false

theorem tab_reordered_sample :
    ((sampleTabs.reorderTab 0 2).tabs.map Tab.id = [1, 0, 2]) ∧
      MovesOne sampleTabs.tabs (sampleTabs.reorderTab 0 2).tabs 0 1 ∧
      (sampleTabs.reorderTab 0 2).activeTab = sampleTabs.activeTab := by
  have hreordered := @tab_reordered sampleTabs 0 2 (by decide) (by decide)
  exact ⟨by decide, hreordered.2.1, hreordered.2.2.2.2.2.1 (by decide)⟩

end TabManager

end Fulgur
