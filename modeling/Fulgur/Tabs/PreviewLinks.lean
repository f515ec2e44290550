import Fulgur.Library.Keyed
import Fulgur.Tabs.LoadState

/-! # Markdown previews and their sources

A preview is opened next to an editor tab of the window and is closed along with
it. Whatever is opened, closed, moved or restored, each preview shows an editor
tab of its own window, and no two previews show the same one.
-/

namespace Fulgur

open LabelledRun Keyed

namespace Tab

def previewSource : Tab → Option Nat
  | .markdownPreview tab => some tab.sourceTabId
  | _ => none

theorem previews_iff {tabId : Nat} {tab : Tab} :
    tab.previews tabId = true ↔ tab.previewSource = some tabId := by
  cases tab with
  | editor tab markdown => simp [previews, previewSource]
  | settings tab => simp [previews, previewSource]
  | markdownPreview tab => simp [previews, previewSource]

def closedWith (tabId : Nat) (tab : Tab) : Bool := tab.id = tabId || tab.previews tabId

theorem closedWith_iff {tabId : Nat} {tab : Tab} :
    tab.closedWith tabId = true ↔ tab.id = tabId ∨ tab.previewSource = some tabId := by
  rw [closedWith, Bool.or_eq_true, previews_iff, decide_eq_true_eq]

theorem previewSource_of_asEditor {tab : Tab} (h : tab.asEditor.isSome = true) :
    tab.previewSource = none := by
  cases tab with
  | editor tab markdown => rfl
  | settings tab => rfl
  | markdownPreview tab => cases h

end Tab

namespace TabManager

/-- Every preview shows an editor tab of the strip, and no two show the same one. -/
structure PreviewsLinked (s : TabManager) : Prop where
  sources : ∀ tab ∈ s.tabs, ∀ sourceId ∈ tab.previewSource,
    ∃ source ∈ s.tabs, source.id = sourceId ∧ source.asEditor.isSome = true
  unique : (s.tabs.filterMap Tab.previewSource).Nodup

/-- A strip with distinct identifiers whose previews have sources of their own. -/
structure Linked (s : TabManager) : Prop where
  numbered : Numbered s
  sources : ∀ tab ∈ s.tabs, ∀ sourceId ∈ tab.previewSource,
    ∃ source ∈ s.tabs, source.id = sourceId ∧ source.asEditor.isSome = true
  unique : ∀ tab ∈ s.tabs, ∀ other ∈ s.tabs, ∀ sourceId, tab.previewSource = some sourceId →
    other.previewSource = some sourceId → tab = other

variable {s s' : TabManager}

theorem Linked.previewsLinked (h : Linked s) : PreviewsLinked s where
  sources := h.sources
  unique := by
    rw [List.nodup_iff_pairwise_ne, List.pairwise_filterMap]
    have hdistinct := List.Nodup.of_map _ h.numbered.distinct
    refine (List.nodup_iff_pairwise_ne.mp hdistinct).imp_of_mem ?_
    rintro tab other htab hother hne sourceId hsource otherId hotherSource rfl
    exact hne (h.unique tab htab other hother sourceId hsource hotherSource)

/-- What a preview shows is an editor tab, so it is the tab with that identifier. -/
theorem Linked.isEditor (h : Linked s) {tab source : Tab} (htab : tab ∈ s.tabs)
    (hsource : source ∈ s.tabs) (hlink : tab.previewSource = some source.id) :
    source.asEditor.isSome = true := by
  obtain ⟨editor, heditor, hid, hsome⟩ := h.sources tab htab source.id hlink
  rw [h.numbered.eq_of_id heditor hsource hid] at hsome
  exact hsome

/-! ## Closing a tab -/

theorem Numbered.removeAt_tabs (h : Numbered s) {tabId pos : Nat}
    (hpos : s.tabIndexOf tabId = some pos) :
    (s.removeAt pos).tabs = s.tabs.filter fun tab => tab.id ≠ tabId :=
  (removeAt_eq_eraseP hpos).trans (eraseP_eq_dropKey tabId h.distinct)

theorem tabIndexOf_eq_none {tabId : Nat} (h : s.tabIndexOf tabId = none) {tab : Tab}
    (htab : tab ∈ s.tabs) : tab.id ≠ tabId := by
  have hnone := List.findIdx?_eq_none_iff.mp h tab htab
  simpa using hnone

theorem tabIndexOf_of_mem {tab : Tab} (htab : tab ∈ s.tabs) :
    ∃ pos, s.tabIndexOf tab.id = some pos := by
  cases hpos : s.tabIndexOf tab.id with
  | none => exact absurd rfl (tabIndexOf_eq_none hpos htab)
  | some pos => exact ⟨pos, rfl⟩

theorem Linked.linkedPreviewId (h : Linked s) {source preview : Tab} (hsource : source ∈ s.tabs)
    (heditor : source.asEditor.isSome = true) (hpreview : preview ∈ s.tabs)
    (hlink : preview.previewSource = some source.id) :
    s.linkedPreviewId source = some preview.id := by
  cases source with
  | editor tab markdown =>
      rw [TabManager.linkedPreviewId, Option.map_eq_some_iff]
      cases hfind : s.tabs.find? (Tab.previews tab.id) with
      | none =>
          exact absurd (Tab.previews_iff.mpr hlink) (List.find?_eq_none.mp hfind preview hpreview)
      | some found =>
          have hfound := Tab.previews_iff.mp (List.find?_some hfind)
          have hsame := h.unique found (List.mem_of_find?_eq_some hfind) preview hpreview _
            hfound hlink
          exact ⟨found, rfl, congrArg Tab.id hsame⟩
  | settings tab => cases heditor
  | markdownPreview tab => cases heditor

/-- Closing a tab closes that tab and its preview, and leaves the others in their order. -/
theorem Linked.removeTabById_tabs (h : Linked s) (tabId : Nat) :
    (s.removeTabById tabId).tabs = s.tabs.filter fun tab => !tab.closedWith tabId := by
  unfold removeTabById
  cases hpos : s.tabIndexOf tabId with
  | none =>
      symm
      rw [List.filter_eq_self]
      intro tab htab
      have hclosed : ¬ tab.closedWith tabId = true := by
        rw [Tab.closedWith_iff]
        rintro (hid | hlink)
        · exact tabIndexOf_eq_none hpos htab hid
        · obtain ⟨source, hsource, hid, -⟩ := h.sources tab htab tabId hlink
          exact tabIndexOf_eq_none hpos hsource hid
      simpa using hclosed
  | some pos =>
      obtain ⟨removed, hat, hmem, hid⟩ := tabIndexOf_spec hpos
      have hfirst := h.numbered.removeAt_tabs hpos
      -- Without a preview of the tab only the tab itself goes.
      have halone (hnone : ∀ tab ∈ s.tabs, tab.previewSource ≠ some tabId) :
          (s.removeAt pos).tabs = s.tabs.filter fun tab => !tab.closedWith tabId := by
        rw [hfirst]
        refine List.filter_congr fun tab htab => ?_
        have hlink : tab.previews tabId = false := by
          rw [← Bool.not_eq_true, Tab.previews_iff]
          exact hnone tab htab
        simp [Tab.closedWith, hlink]
      dsimp only
      rw [hat, Option.bind_some]
      by_cases hlinked : ∃ preview ∈ s.tabs, preview.previewSource = some tabId
      · obtain ⟨preview, hpreview, hlink⟩ := hlinked
        have heditor := h.isEditor hpreview hmem (hid ▸ hlink)
        have hne : preview.id ≠ tabId := by
          intro hsame
          have heq := h.numbered.eq_of_id hpreview hmem (hsame.trans hid.symm)
          rw [heq, Tab.previewSource_of_asEditor heditor] at hlink
          cases hlink
        have hfind : s.linkedPreviewId removed = some preview.id :=
          h.linkedPreviewId hmem heditor hpreview (hid ▸ hlink)
        have hleft : preview ∈ (s.removeAt pos).tabs := mem_removeAt hpos hpreview hne
        obtain ⟨previewPos, hpreviewPos⟩ := tabIndexOf_of_mem hleft
        have hnumbered := h.numbered.shrinks (shrinks_removeAt s pos)
        rw [hfind, Option.bind_some, hpreviewPos]
        dsimp only
        rw [hnumbered.removeAt_tabs hpreviewPos, hfirst, List.filter_filter]
        refine List.filter_congr fun tab htab => ?_
        have hsame : tab.id = preview.id ↔ tab.previews tabId = true := by
          rw [Tab.previews_iff]
          refine ⟨fun hsame => ?_, fun hsource => ?_⟩
          · rw [h.numbered.eq_of_id htab hpreview hsame]
            exact hlink
          · rw [h.unique tab htab preview hpreview tabId hsource hlink]
        simp [Tab.closedWith, hsame, Bool.and_comm]
      · have hnone : ∀ tab ∈ s.tabs, tab.previewSource ≠ some tabId :=
          fun tab htab hsource => hlinked ⟨tab, htab, hsource⟩
        have hunlinked : s.linkedPreviewId removed = none := by
          unfold TabManager.linkedPreviewId
          split
          · rename_i editor markdown
            rw [Option.map_eq_none_iff, List.find?_eq_none]
            intro tab htab hpreviews
            exact hnone tab htab (hid ▸ Tab.previews_iff.mp hpreviews)
          · rfl
        rw [hunlinked]
        exact halone hnone

theorem Linked.filter (h : Linked s) {keep : Tab → Bool} (htabs : s'.tabs = s.tabs.filter keep)
    (hnext : s'.nextTabId = s.nextTabId)
    (hclosed : ∀ preview ∈ s.tabs, keep preview = true → ∀ source ∈ s.tabs,
      preview.previewSource = some source.id → keep source = true) : Linked s' where
  numbered := h.numbered.shrinks ⟨htabs ▸ List.filter_sublist, hnext⟩
  sources tab htab sourceId hsourceId := by
    rw [htabs, List.mem_filter] at htab
    obtain ⟨source, hsource, rfl, heditor⟩ := h.sources tab htab.1 sourceId hsourceId
    refine ⟨source, ?_, rfl, heditor⟩
    rw [htabs, List.mem_filter]
    exact ⟨hsource, hclosed tab htab.1 htab.2 source hsource hsourceId⟩
  unique tab htab other hother := by
    rw [htabs, List.mem_filter] at htab hother
    exact h.unique tab htab.1 other hother.1

theorem Linked.removeTabById (h : Linked s) (tabId : Nat) : Linked (s.removeTabById tabId) := by
  refine h.filter (h.removeTabById_tabs tabId) (shrinks_removeTabById s tabId).next ?_
  intro preview hpreview hkept source hsource hlink
  have heditor := h.isEditor hpreview hsource hlink
  rw [Bool.not_eq_true', ← Bool.not_eq_true, Tab.closedWith_iff] at hkept ⊢
  rintro (hid | hchained)
  · exact hkept (Or.inr (hid ▸ hlink))
  · rw [Tab.previewSource_of_asEditor heditor] at hchained
    cases hchained

/-! ## Opening and moving tabs -/

/-- The links only depend on which tabs there are. -/
theorem Linked.of_perm (h : Linked s) (htabs : s'.tabs.Perm s.tabs)
    (hnext : s'.nextTabId = s.nextTabId) : Linked s' where
  numbered := ⟨(htabs.map Tab.id).nodup_iff.mpr h.numbered.distinct, fun tab htab => by
    rw [hnext]
    exact h.numbered.below tab (htabs.mem_iff.mp htab)⟩
  sources tab htab sourceId hsourceId := by
    obtain ⟨source, hsource, hid⟩ := h.sources tab (htabs.mem_iff.mp htab) sourceId hsourceId
    exact ⟨source, htabs.mem_iff.mpr hsource, hid⟩
  unique tab htab other hother :=
    h.unique tab (htabs.mem_iff.mp htab) other (htabs.mem_iff.mp hother)

theorem Linked.of_eq (h : Linked s) (htabs : s'.tabs = s.tabs)
    (hnext : s'.nextTabId = s.nextTabId) : Linked s' :=
  h.of_perm (htabs ▸ List.Perm.refl _) hnext

/-- A tab with the next identifier joins: no preview, or one of an editor tab that has none. -/
theorem Linked.joined (h : Linked s) {tab : Tab} (htabs : s'.tabs.Perm (tab :: s.tabs))
    (hid : tab.id = s.nextTabId) (hnext : s'.nextTabId = s.nextTabId + 1)
    (hlink : ∀ sourceId ∈ tab.previewSource,
      (∃ source ∈ s.tabs, source.id = sourceId ∧ source.asEditor.isSome = true) ∧
        ∀ other ∈ s.tabs, other.previewSource ≠ some sourceId) : Linked s' where
  numbered := h.numbered.joined htabs hid hnext
  sources other hother sourceId hsourceId := by
    have hold : ∃ source ∈ s.tabs, source.id = sourceId ∧ source.asEditor.isSome = true := by
      rcases List.mem_cons.mp (htabs.mem_iff.mp hother) with rfl | hother
      · exact (hlink sourceId hsourceId).1
      · exact h.sources other hother sourceId hsourceId
    obtain ⟨source, hsource, hspec⟩ := hold
    exact ⟨source, htabs.mem_iff.mpr (List.mem_cons_of_mem tab hsource), hspec⟩
  unique first hfirst second hsecond sourceId hfirstSource hsecondSource := by
    rcases List.mem_cons.mp (htabs.mem_iff.mp hfirst) with rfl | hfirst
    · rcases List.mem_cons.mp (htabs.mem_iff.mp hsecond) with rfl | hsecond
      · rfl
      · exact absurd hsecondSource ((hlink sourceId hfirstSource).2 second hsecond)
    · rcases List.mem_cons.mp (htabs.mem_iff.mp hsecond) with rfl | hsecond
      · exact absurd hfirstSource ((hlink sourceId hsecondSource).2 first hfirst)
      · exact h.unique first hfirst second hsecond sourceId hfirstSource hsecondSource

theorem Linked.pushActive (h : Linked s) {tab : Tab} (hid : tab.id = s.nextTabId)
    (hsource : tab.previewSource = none) : Linked (s.allocated.pushActive tab) := by
  refine h.joined (List.perm_append_singleton tab s.tabs) hid rfl fun sourceId hlink => ?_
  rw [hsource] at hlink
  cases hlink

theorem Linked.insertPreview (h : Linked s) {editor : EditorTab} {markdown : Bool}
    (heditor : Tab.editor editor markdown ∈ s.tabs)
    (hnone : ∀ other ∈ s.tabs, other.previewSource ≠ some editor.id) {pos : Nat}
    (hpos : pos ≤ s.tabs.length) (title : String) :
    Linked (s.allocated.insertAt pos (s.buildPreviewTab editor.id title)) := by
  refine h.joined (s.allocated.insertAt_perm _ hpos) rfl rfl fun sourceId hlink => ?_
  cases hlink
  exact ⟨⟨_, heditor, rfl, rfl⟩, hnone⟩

end TabManager

end Fulgur
