import Fulgur.Library.Circular
import Fulgur.Tabs.PreviewRuns

/-! # Going round the tabs

Next Tab and Previous Tab go round the strip in a circle. They change nothing but
which tab is active.
-/

namespace Fulgur

open LabelledRun

namespace TabManager

variable {s : TabManager} {index : Nat}

def activated (s : TabManager) (index : Nat) : TabManager :=
  { s with activeTabId := s.tabs[index]?.map Tab.id }

theorem setActiveTab_of_lt (h : index < s.tabs.length) : s.setActiveTab index = s.activated index :=
  if_pos h

theorem activated_self (h : s.activeTabIndex = some index) :
    index < s.tabs.length ∧ s.activated index = s := by
  obtain ⟨tabId, hactive, hpos⟩ := Option.bind_eq_some_iff.mp h
  obtain ⟨tab, hat, -, hid⟩ := tabIndexOf_spec hpos
  refine ⟨(List.getElem?_eq_some_iff.mp hat).1, ?_⟩
  rw [activated, hat, Option.map_some, hid, ← hactive]

theorem Numbered.activeTabIndex_activated (h : Numbered s) (hlt : index < s.tabs.length) :
    (s.activated index).activeTabIndex = some index := by
  have hfound : (s.tabs.findIdx? fun tab => tab.id = s.tabs[index].id) = some index := by
    refine List.findIdx?_eq_some_iff_getElem.mpr ⟨hlt, by simp, fun other hother => ?_⟩
    simp only [decide_eq_true_eq]
    intro hsame
    have htabs := h.eq_of_id (List.getElem_mem _) (List.getElem_mem hlt) hsame
    have heq := (List.Nodup.getElem_inj_iff (List.Nodup.of_map _ h.distinct)).mp htabs
    omega
  simp [activeTabIndex, activated, tabIndexOf, List.getElem?_eq_getElem hlt, hfound]

theorem nextTab_activated (h : s.Numbered) (hlt : index < s.tabs.length) :
    (s.activated index).nextTab = s.activated (Circular.next s.tabs.length index) := by
  simp only [nextTab, h.activeTabIndex_activated hlt]
  exact setActiveTab_of_lt (Circular.next_lt hlt)

theorem previousTab_activated (h : s.Numbered) (hlt : index < s.tabs.length) :
    (s.activated index).previousTab = s.activated (Circular.previous s.tabs.length index) := by
  simp only [previousTab, h.activeTabIndex_activated hlt]
  exact setActiveTab_of_lt (Circular.previous_lt hlt)

theorem iterate_nextTab (h : s.Numbered) (hlt : index < s.tabs.length) (k : Nat) :
    nextTab^[k] (s.activated index) = s.activated ((Circular.next s.tabs.length)^[k] index) := by
  induction k generalizing index with
  | zero => rfl
  | succ k ih =>
      rw [Function.iterate_succ_apply, nextTab_activated h hlt, ih (Circular.next_lt hlt),
        Function.iterate_succ_apply]

/--
In every run of a window whose active tab is in its strip: as often as there are
tabs, Next Tab makes each of them active once, in the order of the strip from the
active one on, and then the strip and its active tab are as they were. Previous Tab
undoes Next Tab, and Next Tab undoes Previous Tab.
-/
theorem tabs_cycle {context : RestoreContext} {dedicatedTab showMarkdownPreview : Bool}
    {origin : WindowOrigin} {actions : List TabAction} {s : TabManager}
    (hidentified : origin.Identified)
    (hrun : run step (launched context dedicatedTab showMarkdownPreview origin) actions = some s)
    {index : Nat} (hactive : s.activeTabIndex = some index) :
    ((List.range s.tabs.length).map fun k => (nextTab^[k] s).activeTabId) =
        (s.tabs.rotate index).map (fun tab => some tab.id) ∧
      nextTab^[s.tabs.length] s = s ∧ s.nextTab.previousTab = s ∧ s.previousTab.nextTab = s := by
  have hnumbered := (linked_of_run hidentified hrun).numbered
  obtain ⟨hlt, hself⟩ := activated_self hactive
  have hiterate : ∀ k, nextTab^[k] s = s.activated ((Circular.next s.tabs.length)^[k] index) := by
    intro k
    have hk := iterate_nextTab hnumbered hlt k
    rwa [hself] at hk
  have hnext := nextTab_activated hnumbered hlt
  have hprevious := previousTab_activated hnumbered hlt
  rw [hself] at hnext hprevious
  refine ⟨?_, ?_, ?_, ?_⟩
  · simp only [hiterate, activated]
    have hround :=
      congrArg (List.map (Option.map Tab.id)) (@Circular.map_iterate_next index Tab s.tabs hlt)
    simpa [List.map_map, Function.comp_def] using hround
  · rw [hiterate, Circular.iterate_next_length hlt, hself]
  · rw [hnext, previousTab_activated hnumbered (Circular.next_lt hlt),
      Circular.previous_next hlt, hself]
  · rw [hprevious, nextTab_activated hnumbered (Circular.previous_lt hlt),
      Circular.next_previous hlt, hself]

/-- Three tabs, the second of them active. -/
theorem tabs_cycle_sample :
    ∃ s, run step (launched sampleContext true false .fresh)
        [.newTab false, .newTab false, .setActiveTab 1] = some s ∧
      s.tabs.length = 3 ∧ s.nextTab.previousTab = s := by
  obtain ⟨s, hrun, hlength, hactive⟩ := exists_of_any
    (P := fun s : TabManager => s.tabs.length = 3 ∧ s.activeTabIndex = some 1)
    (by decide +kernel : (run step (launched sampleContext true false .fresh)
        [.newTab false, .newTab false, .setActiveTab 1]).any
          (fun s => decide (s.tabs.length = 3 ∧ s.activeTabIndex = some 1)) = true)
  exact ⟨s, hrun, hlength,
    (@tabs_cycle sampleContext true false .fresh _ s trivial hrun 1 hactive).2.2.1⟩

end TabManager

end Fulgur
