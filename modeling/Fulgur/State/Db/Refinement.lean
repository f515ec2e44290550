import Fulgur.State.Db.Reconcile

/-! # The incremental apply refines the rewrite

The rows of a rewritten database, row by row, and from them that a second save
of the same snapshot finds nothing to write.
-/

namespace Fulgur

section Rewrite

variable {db : StateDb} {snapshot : WindowsState}

theorem getElem?_rewrite_window (hids : snapshot.ids.Nodup) {window : WindowState} {i : Nat}
    (hwindow : snapshot.windows[i]? = some window) :
    (db.rewriteFromScratch snapshot).windows[window.windowId]? = some (windowRow window i) := by
  rw [StateDb.rewriteFromScratch, getElem?_insertWindows_windows hids hwindow, Nat.zero_add]

theorem getElem?_rewrite_other_window {id : Int} (hid : id ∉ snapshot.ids) :
    (db.rewriteFromScratch snapshot).windows[id]? =
      if id ∈ db.ownedWindows then none else db.tables.windows[id]? := by
  rw [StateDb.rewriteFromScratch, getElem?_insertWindows_windows_of_not_mem hid,
    Tables.getElem?_deleteWindows_windows]
  simp only [List.mem_append, Std.ExtTreeSet.mem_toList, hid, or_false]

theorem getElem?_rewrite_tab (hstorable : Storable snapshot) {window : WindowState}
    {tab : TabState} {i : Nat} (hwindow : window ∈ snapshot.windows)
    (htab : window.tabs[i]? = some tab) :
    (db.rewriteFromScratch snapshot).tabs[tabKey window.windowId tab]? = some (tabRow tab i) :=
  getElem?_insertWindows_tab hstorable.windowIds hwindow (hstorable.window window hwindow).tabIds
    htab

theorem getElem?_rewrite_not_tab (db : StateDb) (hids : snapshot.ids.Nodup) {window : WindowState}
    {key : TabKey} (hwindow : window ∈ snapshot.windows) (hkey : key.window = window.windowId)
    (hnot : ∀ tab ∈ window.tabs, tabKey window.windowId tab ≠ key) :
    (db.rewriteFromScratch snapshot).tabs[key]? = none := by
  have hdeleted : key.window ∈ db.ownedWindows.toList ++ snapshot.ids := by
    rw [hkey]
    exact List.mem_append_right _ (List.mem_map_of_mem hwindow)
  rw [StateDb.rewriteFromScratch, getElem?_insertWindows_not_tab hids hwindow hkey hnot,
    Tables.getElem?_deleteWindows_tabs, if_pos hdeleted]

theorem getElem?_rewrite_other_tab {key : TabKey} (hkey : key.window ∉ snapshot.ids) :
    (db.rewriteFromScratch snapshot).tabs[key]? =
      if key.window ∈ db.ownedWindows then none else db.tables.tabs[key]? := by
  rw [StateDb.rewriteFromScratch, getElem?_insertWindows_tabs_of_not_mem hkey,
    Tables.getElem?_deleteWindows_tabs]
  simp only [List.mem_append, Std.ExtTreeSet.mem_toList, hkey, or_false]

theorem noCollision_rewrite (hstorable : Storable snapshot) :
    NoCollision (db.rewriteFromScratch snapshot) snapshot := by
  intro window hwindow tab htab row hrow _
  obtain ⟨i, hi⟩ := List.mem_iff_getElem?.mp htab
  rw [getElem?_rewrite_tab hstorable hwindow hi] at hrow
  cases hrow
  rfl

/-- Rewriting a rewritten database changes nothing. -/
theorem rewrite_rewrite (hstorable : Storable snapshot) :
    StateDb.rewriteFromScratch
      ⟨db.rewriteFromScratch snapshot, Std.ExtTreeSet.ofList snapshot.ids⟩ snapshot =
        db.rewriteFromScratch snapshot := by
  have hids := hstorable.windowIds
  have howned : ∀ id ∉ snapshot.ids, id ∉ Std.ExtTreeSet.ofList snapshot.ids := by
    intro id hid hmem
    rw [Std.ExtTreeSet.mem_ofList, List.contains_iff_mem] at hmem
    exact hid hmem
  ext1 x
  · by_cases hx : x ∈ snapshot.ids
    · obtain ⟨window, hwindow, rfl⟩ := List.mem_map.mp hx
      obtain ⟨i, hi⟩ := List.mem_iff_getElem?.mp hwindow
      rw [getElem?_rewrite_window hids hi, getElem?_rewrite_window hids hi]
    · rw [getElem?_rewrite_other_window hx, if_neg (howned x hx)]
  · by_cases hx : x.window ∈ snapshot.ids
    · obtain ⟨window, hwindow, hkey⟩ := List.mem_map.mp hx
      by_cases hnamed : ∃ tab ∈ window.tabs, tabKey window.windowId tab = x
      · obtain ⟨tab, htab, rfl⟩ := hnamed
        obtain ⟨i, hi⟩ := List.mem_iff_getElem?.mp htab
        rw [getElem?_rewrite_tab hstorable hwindow hi, getElem?_rewrite_tab hstorable hwindow hi]
      · have hnot : ∀ tab ∈ window.tabs, tabKey window.windowId tab ≠ x := fun tab htab heq =>
          hnamed ⟨tab, htab, heq⟩
        rw [getElem?_rewrite_not_tab _ hids hwindow hkey.symm hnot,
          getElem?_rewrite_not_tab _ hids hwindow hkey.symm hnot]
    · rw [getElem?_rewrite_other_tab hx, if_neg (howned x.window hx)]

end Rewrite

/-- Every apply of a storable snapshot to a reachable database, by a handle with
any windows claimed, leaves the rows of the rewrite, reports an empty count
exactly when no row changed, and has nothing to do a second time. -/
theorem apply_refines_rewrite {tables : Tables} (owned : Std.ExtTreeSet Int)
    {snapshot : WindowsState} (hreachable : Reachable tables) (hstorable : Storable snapshot)
    (hcollision : NoCollision tables snapshot) :
    ∃ db stats, StateDb.apply ⟨tables, owned⟩ snapshot = .ok (db, stats) ∧
      db.tables = StateDb.rewriteFromScratch ⟨tables, owned⟩ snapshot ∧
      (stats.isEmpty = true ↔ db.tables = tables) ∧ db.apply snapshot = .ok (db, {}) := by
  obtain ⟨stats, hrun, hsame⟩ :=
    apply_spec ⟨tables, owned⟩ hreachable.consistent hstorable hcollision
  refine ⟨_, stats, hrun, rfl, hsame, ?_⟩
  have hagain := Consistent.apply hreachable.consistent hrun
  obtain ⟨stats', hrun', hsame'⟩ :=
    apply_spec _ hagain hstorable (noCollision_rewrite hstorable)
  have hempty := hsame'.mpr (rewrite_rewrite hstorable)
  rw [hrun', rewrite_rewrite hstorable,
    ApplyStats.eq_default_of_total ((ApplyStats.isEmpty_iff stats').mp hempty)]

/-! ## Sessions with two windows -/

instance (window : WindowState) : Decidable (WindowStorable window) :=
  have : Decidable (∀ tab ∈ window.tabs, ∀ content, tab.content = some content →
      content.toText.utf8ByteSize < 2 ^ 63) :=
    inferInstanceAs (Decidable (∀ tab ∈ window.tabs, ∀ content ∈ tab.content, _))
  decidable_of_iff ((window.tabs.map (·.tabId)).Nodup ∧ (∀ tab ∈ window.tabs, tab.tabId < 2 ^ 63) ∧
      window.windowBounds.isNumber ∧ window.tabs.length < 2 ^ 63 ∧ _)
    ⟨fun ⟨h₁, h₂, h₃, h₄, h₅⟩ => ⟨h₁, h₂, h₃, h₄, h₅⟩,
      fun ⟨h₁, h₂, h₃, h₄, h₅⟩ => ⟨h₁, h₂, h₃, h₄, h₅⟩⟩

instance (snapshot : WindowsState) : Decidable (Storable snapshot) :=
  decidable_of_iff (snapshot.ids.Nodup ∧ snapshot.windows.length < 2 ^ 63 ∧
      ∀ window ∈ snapshot.windows, WindowStorable window)
    ⟨fun ⟨h₁, h₂, h₃⟩ => ⟨h₁, h₂, h₃⟩, fun ⟨h₁, h₂, h₃⟩ => ⟨h₁, h₂, h₃⟩⟩

instance (tables : Tables) (snapshot : WindowsState) : Decidable (NoCollision tables snapshot) :=
  inferInstanceAs (Decidable (∀ window ∈ snapshot.windows, ∀ tab ∈ window.tabs,
    ∀ row ∈ tables.tabs[tabKey window.windowId tab]?,
      row.content.map textFingerprint = tabFingerprint tab →
        row.content = tab.content.map (·.toText)))

/-- An untitled tab with unsaved text next to a clean remote one. -/
def sampleSnapshot : WindowsState where
  windows := [
    { windowId := 7
      tabs := [
        { tabId := 3, title := "Untitled", filePath := none, content := some (.text "draft"),
          lastSaved := none, remote := none, logView := false, colorTag := none },
        { tabId := 1, title := "notes", filePath := none, content := none,
          lastSaved := some "2024-01-01T00:00:00+00:00", remote := some ⟨"host", 22, "me", "/n"⟩,
          logView := true, colorTag := some "red" }]
      activeTabIndex := some 1
      windowBounds := .default },
    { windowId := 2, tabs := [], activeTabIndex := some 4, windowBounds := .default }]

/-- The text was gone on with, the remote tab was closed, and the other window is not there. -/
def sampleChanged : WindowsState where
  windows := [
    { windowId := 7
      tabs := [
        { tabId := 3, title := "Untitled", filePath := none, content := some (.text "drafted"),
          lastSaved := none, remote := none, logView := false, colorTag := none }]
      activeTabIndex := some 0
      windowBounds := .default }]

theorem noCollision_empty (snapshot : WindowsState) : NoCollision Tables.empty snapshot := by
  intro window _ tab _ row hrow
  simp [Tables.empty] at hrow

/-- What a first handle has made of an empty database. -/
def sampleTables : Tables := StateDb.rewriteFromScratch ⟨.empty, ∅⟩ sampleSnapshot

theorem reachable_sampleTables : Reachable sampleTables := by
  obtain ⟨stats, hrun, -⟩ := apply_spec ⟨.empty, ∅⟩ consistent_empty
    (by decide : Storable sampleSnapshot) (noCollision_empty _)
  exact .apply .empty hrun

/-- The handle owns one of the windows and a window that is not there. -/
def sampleOwned : Std.ExtTreeSet Int := .ofList [(7 : Int), 9]

theorem apply_refines_rewrite_sample :
    ∃ db stats, StateDb.apply ⟨sampleTables, sampleOwned⟩ sampleChanged = .ok (db, stats) ∧
      db.tables = StateDb.rewriteFromScratch ⟨sampleTables, sampleOwned⟩ sampleChanged ∧
      (stats.isEmpty = true ↔ db.tables = sampleTables) ∧
      db.apply sampleChanged = .ok (db, {}) :=
  apply_refines_rewrite _ reachable_sampleTables (by decide) (by decide)

end Fulgur
