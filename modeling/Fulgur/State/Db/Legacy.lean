import Fulgur.Files.Encoding
import Fulgur.State.Db.RoundTrip

/-! # The import of the legacy session document

Older versions kept the session in one JSON document. It is imported into a
freshly created database: its windows and tabs get the identities that they
lack, and are written by one apply. What is then loaded is the document with
these identities.
-/

namespace Fulgur

/-- The legacy document and its backup, each absent or with its bytes. -/
structure LegacyFiles where
  primary : Option (List UInt8)
  backup : Option (List UInt8)
deriving DecidableEq

def LegacyFiles.document (fromStr : String → Option WindowsState) (files : LegacyFiles) :
    Option WindowsState :=
  ((readToString files.primary).bind fromStr).or ((readToString files.backup).bind fromStr)

namespace WindowState

/-- `allocate_id`: the last identity is raised to the clock and counted up, in 64 bits. -/
def allocateId (last now : Int) : Int :=
  let next := max last now + 1
  if next < 2 ^ 63 then next else next - 2 ^ 64

/-- The tabs of a window are numbered in their order. -/
def numberTabs (tabs : List TabState) : List TabState :=
  tabs.mapIdx fun index tab => { tab with tabId := index }

/-- Everything about a window but the identities. -/
def withoutIdentity (window : WindowState) : WindowState :=
  { window with windowId := 0, tabs := window.tabs.map fun tab => { tab with tabId := 0 } }

end WindowState

/-- Give windows and tabs a fresh identity; the clock is read once for each window. -/
def assignMissingIdentity : Int → List Int → List WindowState → List WindowState
  | _, _, [] => []
  | last, clock, window :: windows =>
      let id := WindowState.allocateId last (clock.headD 0)
      { window with windowId := id, tabs := WindowState.numberTabs window.tabs } ::
        assignMissingIdentity id clock.tail windows

/-- The document, or else its backup, as long as the document itself is a text. -/
def readLegacyJson (fromStr : String → Option WindowsState) (files : LegacyFiles) :
    Option WindowsState :=
  match readToString files.primary with
  | none => none
  | some json =>
      match fromStr json with
      | some state => some state
      | none => (readToString files.backup).bind fromStr

/-- Import the document into a database; no identity has been handed out before. -/
def importLegacyJson (fromStr : String → Option WindowsState) (files : LegacyFiles)
    (clock : List Int) (db : StateDb) : Option StateDb :=
  (readLegacyJson fromStr files).bind fun state =>
    match db.apply ⟨assignMissingIdentity 0 clock state.windows⟩ with
    | .ok (db, _) => some db
    | .error _ => none

/-! ## What is in the document -/

theorem readLegacyJson_of_text {fromStr : String → Option WindowsState} {files : LegacyFiles}
    (htext : (readToString files.primary).isSome = true) :
    readLegacyJson fromStr files = files.document fromStr := by
  obtain ⟨json, hjson⟩ := Option.isSome_iff_exists.mp htext
  rw [readLegacyJson, LegacyFiles.document, hjson, Option.bind_some]
  cases hparsed : fromStr json <;> simp [hparsed]

theorem exists_fromStr_of_document {fromStr : String → Option WindowsState} {files : LegacyFiles}
    {document : WindowsState} (h : files.document fromStr = some document) :
    ∃ json, fromStr json = some document := by
  rcases Option.or_eq_some_iff.mp h with hprimary | ⟨-, hbackup⟩
  · obtain ⟨json, -, hjson⟩ := Option.bind_eq_some_iff.mp hprimary
    exact ⟨json, hjson⟩
  · obtain ⟨json, -, hjson⟩ := Option.bind_eq_some_iff.mp hbackup
    exact ⟨json, hjson⟩

/-- What every parsed document is: no bound is NaN, and no collection exceeds one allocation. -/
structure WindowsState.Parsed (state : WindowsState) : Prop where
  windowCount : state.windows.length < 2 ^ 63
  bounds : ∀ window ∈ state.windows, window.windowBounds.isNumber = true
  tabCount : ∀ window ∈ state.windows, window.tabs.length < 2 ^ 63
  textLength : ∀ window ∈ state.windows, ∀ tab ∈ window.tabs, ∀ content,
    tab.content = some content → content.toText.utf8ByteSize < 2 ^ 63

/--
The windows and tabs of the document, in its order and with the same contents;
an active index that names no tab is dropped, as by every load.
-/
structure WindowsState.Restores (session document : WindowsState) : Prop where
  windows : session.windows.map WindowState.withoutIdentity =
    document.windows.map fun window => window.normalise.withoutIdentity
  distinct : session.ids.Nodup

/-- The readings are far enough from the last second that 64 bits of nanoseconds can say. -/
def ClockFits (count : Nat) (clock : List Int) : Prop := ∀ now ∈ clock, now + count < 2 ^ 63

instance (count : Nat) (clock : List Int) : Decidable (ClockFits count clock) :=
  inferInstanceAs (Decidable (∀ now ∈ clock, _))

/-! ## Identities -/

namespace WindowState

theorem allocateId_of_fits {last now : Int} (hlast : last + 1 < 2 ^ 63) (hnow : now + 1 < 2 ^ 63) :
    allocateId last now = max last now + 1 := by
  unfold allocateId
  exact if_pos (by omega)

@[simp] theorem map_tabId_numberTabs (tabs : List TabState) :
    (numberTabs tabs).map (·.tabId) = List.range tabs.length := by
  refine List.ext_getElem (by simp [numberTabs]) fun index _ _ => ?_
  simp [numberTabs]

@[simp] theorem length_numberTabs (tabs : List TabState) :
    (numberTabs tabs).length = tabs.length := List.length_mapIdx

theorem map_numberTabs {α : Type} {f : TabState → α}
    (hf : ∀ tab (index : Nat), f { tab with tabId := index } = f tab) (tabs : List TabState) :
    (numberTabs tabs).map f = tabs.map f := by
  refine List.ext_getElem (by simp [numberTabs]) fun index _ _ => ?_
  simp [numberTabs, hf]

theorem mem_numberTabs {tabs : List TabState} {tab : TabState} (h : tab ∈ numberTabs tabs) :
    ∃ before ∈ tabs, tab = { before with tabId := tab.tabId } := by
  obtain ⟨index, hindex, rfl⟩ := List.mem_mapIdx.mp h
  exact ⟨_, List.getElem_mem hindex, rfl⟩

end WindowState

theorem length_assignMissingIdentity (last : Int) (clock : List Int) (windows : List WindowState) :
    (assignMissingIdentity last clock windows).length = windows.length := by
  induction windows generalizing last clock with
  | nil => rfl
  | cons window windows ih => simp [assignMissingIdentity, ih]

/-- Identities are handed out in increasing order, however the clock goes. -/
theorem pairwise_assignMissingIdentity {last : Int} {clock : List Int} {windows : List WindowState}
    (hlast : 0 ≤ last ∧ last + windows.length < 2 ^ 63) (hclock : ClockFits windows.length clock) :
    ((assignMissingIdentity last clock windows).map (·.windowId)).Pairwise (· < ·) ∧
      ∀ window ∈ assignMissingIdentity last clock windows, last < window.windowId := by
  induction windows generalizing last clock with
  | nil => simp [assignMissingIdentity]
  | cons window windows ih =>
      rw [List.length_cons, Int.natCast_succ] at hlast
      have hnow : clock.headD 0 + (windows.length + 1) < 2 ^ 63 := by
        cases clock with
        | nil => simp only [List.headD_nil]; omega
        | cons now clock => exact hclock now List.mem_cons_self
      have hid : WindowState.allocateId last (clock.headD 0) = max last (clock.headD 0) + 1 :=
        WindowState.allocateId_of_fits (by omega) (by omega)
      have hrest : ClockFits windows.length clock.tail := by
        intro now hmem
        have hfits := hclock now (List.mem_of_mem_tail hmem)
        rw [List.length_cons, Int.natCast_succ] at hfits
        omega
      have hnext : 0 ≤ max last (clock.headD 0) + 1 ∧
          max last (clock.headD 0) + 1 + windows.length < 2 ^ 63 := by omega
      obtain ⟨hpairwise, habove⟩ := ih hnext hrest
      simp only [assignMissingIdentity, hid, List.map_cons, List.pairwise_cons, List.mem_map,
        List.mem_cons]
      refine ⟨⟨?_, hpairwise⟩, ?_⟩
      · rintro id ⟨other, hother, rfl⟩
        exact habove other hother
      · rintro other (rfl | hother)
        · dsimp only
          omega
        · have := habove other hother
          omega

theorem mem_assignMissingIdentity {last : Int} {clock : List Int} {windows : List WindowState}
    {window : WindowState} (h : window ∈ assignMissingIdentity last clock windows) :
    ∃ before ∈ windows, window =
      { before with windowId := window.windowId, tabs := WindowState.numberTabs before.tabs } := by
  induction windows generalizing last clock with
  | nil => cases h
  | cons head windows ih =>
      rcases List.mem_cons.mp h with rfl | hmem
      · exact ⟨head, List.mem_cons_self, rfl⟩
      · obtain ⟨before, hbefore, heq⟩ := ih hmem
        exact ⟨before, List.mem_cons_of_mem _ hbefore, heq⟩

/-- Identities are all that an import adds. -/
theorem map_withoutIdentity_assign (last : Int) (clock : List Int) (windows : List WindowState) :
    (assignMissingIdentity last clock windows).map
      (fun window => window.normalise.withoutIdentity) =
      windows.map fun window => window.normalise.withoutIdentity := by
  induction windows generalizing last clock with
  | nil => rfl
  | cons window windows ih =>
      rw [assignMissingIdentity, List.map_cons, List.map_cons, ih]
      have htabs : ((WindowState.numberTabs window.tabs).map TabState.flatten).map
          (fun tab => { tab with tabId := 0 }) =
            (window.tabs.map TabState.flatten).map fun tab => { tab with tabId := 0 } := by
        rw [List.map_map, List.map_map]
        exact WindowState.map_numberTabs (fun tab index => rfl) window.tabs
      simp only [WindowState.normalise, WindowState.withoutIdentity, htabs,
        WindowState.length_numberTabs]

/-! ## What is loaded after an import -/

section

variable {document : WindowsState} {clock : List Int}

/-- A parsed document with its identities can be stored. -/
theorem storable_assignMissingIdentity (hparsed : document.Parsed)
    (hclock : ClockFits document.windows.length clock) :
    Storable ⟨assignMissingIdentity 0 clock document.windows⟩ where
  windowIds := by
    have hcount := hparsed.windowCount
    have hlast : (0 : Int) ≤ 0 ∧ 0 + (document.windows.length : Int) < 2 ^ 63 := by omega
    exact (pairwise_assignMissingIdentity hlast hclock).1.imp fun h => h.ne
  windowCount := by
    rw [length_assignMissingIdentity]
    exact hparsed.windowCount
  window := by
    intro window hwindow
    obtain ⟨before, hbefore, heq⟩ := mem_assignMissingIdentity hwindow
    rw [heq]
    have hcount := hparsed.tabCount before hbefore
    refine ⟨?_, ?_, hparsed.bounds before hbefore, ?_, ?_⟩
    · simpa using List.nodup_range
    · intro tab htab
      have hmem := List.mem_map_of_mem (f := (·.tabId)) htab
      rw [WindowState.map_tabId_numberTabs, List.mem_range] at hmem
      omega
    · rw [WindowState.length_numberTabs]
      exact hcount
    · intro tab htab content hcontent
      obtain ⟨original, horiginal, htab⟩ := WindowState.mem_numberTabs htab
      rw [htab] at hcontent
      exact hparsed.textLength before hbefore original horiginal content hcontent

/-- What is loaded from a database that holds nothing but one applied snapshot. -/
theorem load_apply_empty {snapshot : WindowsState} (hstorable : Storable snapshot) :
    ∃ db stats, StateDb.apply ⟨Tables.empty, ∅⟩ snapshot = .ok (db, stats) ∧
      ∀ owned, StateDb.load ⟨db.tables, owned⟩ = .ok ⟨snapshot.windows.map .normalise⟩ := by
  obtain ⟨stats, hrun, -⟩ :=
    apply_spec ⟨.empty, ∅⟩ consistent_empty hstorable (noCollision_empty snapshot)
  refine ⟨_, stats, hrun, fun owned => ?_⟩
  rw [← filter_written_rewrite ⟨.empty, ∅⟩ hstorable]
  refine (load_eq (Consistent.apply consistent_empty hrun)).trans ?_
  congr 2
  refine (List.filter_eq_self.mpr fun window hwindow => ?_).symm
  -- A window that is not of the snapshot stood in the database before, and that was empty.
  by_contra hid
  have hforeign : foreign ∅ snapshot window.windowId = true := by simpa [foreign] using hid
  have hmem : window ∈ (loadedWindows Tables.empty).filter
      fun window => foreign ∅ snapshot window.windowId := by
    rw [← filter_foreign_rewrite ⟨.empty, ∅⟩]
    exact List.mem_filter.mpr ⟨hwindow, hforeign⟩
  cases hmem

theorem importLegacyJson_spec {fromStr : String → Option WindowsState} {files : LegacyFiles}
    (hread : readLegacyJson fromStr files = some document) (hparsed : document.Parsed)
    (hclock : ClockFits document.windows.length clock) :
    ∃ db, importLegacyJson fromStr files clock ⟨Tables.empty, ∅⟩ = some db ∧
      ∀ owned, ∃ session, StateDb.load ⟨db.tables, owned⟩ = .ok session ∧
        session.Restores document := by
  have hstorable := storable_assignMissingIdentity hparsed hclock
  obtain ⟨db, stats, happly, hload⟩ := load_apply_empty hstorable
  refine ⟨db, by simp [importLegacyJson, hread, happly], fun owned => ⟨_, hload owned, ?_, ?_⟩⟩
  · rw [List.map_map]
    exact map_withoutIdentity_assign 0 clock document.windows
  · have hids := hstorable.windowIds
    simpa [WindowsState.ids, Function.comp_def] using hids

end

end Fulgur
