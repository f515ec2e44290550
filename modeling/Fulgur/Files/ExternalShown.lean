import Fulgur.Library.Tickets
import Fulgur.Files.ExternalChanges

/-! # An unmodified tab shows what another program wrote

Once a reload is to read a file after another program wrote it, it is on its way
until a read that ran after the write is applied. From then on the tab shows the
file, and its baseline, or the one that a failed save goes back to, is the text
of the file, until another program or the application writes it again.
-/

namespace Fulgur

open LabelledRun
open Session (Apart)
open WatchedSession (filePath_eq_some findTabByPath_some findTabByPath_none sessionIo_restoreTab
  inflight_of_not_suppressed)

variable {encodings : Encodings} {parse : String → Option Int}

/-! ## Tabs and saves in their places -/

namespace Session

/-- The tabs are apart, and a save belongs to a tab and writes to its path. -/
structure Placed (s : Session) : Prop where
  apart : Apart s.tabs
  owned : ∀ tabId save, s.inflightSaves tabId = some save →
    ∃ tab ∈ s.tabs, tab.id = tabId ∧ tab.location = .localPath save.completion.path

variable {s t : Session} {action : SessionAction}

theorem placed_launched (disk : Disk) (persisted : List TabState) :
    Placed (launched disk persisted) where
  apart := ⟨by simp [launched], by simp [launched]⟩
  owned := by simp [launched]

theorem Placed.frame (h : Placed s) (htabs : t.tabs = s.tabs)
    (hsaves : t.inflightSaves = s.inflightSaves) : Placed t where
  apart := htabs ▸ h.apart
  owned := by
    rw [htabs, hsaves]
    exact h.owned

/-- One tab changes in place, and its save. -/
theorem Placed.update (h : Placed s) {tabId : Nat} {inflight : Option BackgroundSave}
    {f : EditorTab → EditorTab} (hf : KeepsPlace f)
    (htabs : t.tabs = updateEditorTab s.tabs tabId f)
    (hsaves : t.inflightSaves = Function.update s.inflightSaves tabId inflight)
    (howned : ∀ save ∈ inflight, ∃ tab ∈ s.tabs, tab.id = tabId ∧
      tab.location = .localPath save.completion.path) : Placed t where
  apart := htabs ▸ h.apart.update tabId hf
  owned := by
    intro other save hsave
    have hold :
      ∃ tab ∈ s.tabs, tab.id = other ∧ tab.location = .localPath save.completion.path := by
      rw [hsaves] at hsave
      by_cases hid : other = tabId
      · subst hid
        rw [Function.update_self] at hsave
        exact howned save hsave
      · rw [Function.update_of_ne hid] at hsave
        exact h.owned other save hsave
    obtain ⟨tab, htab, hid, hloc⟩ := hold
    rw [htabs]
    refine ⟨if tab.id = tabId then f tab else tab, List.mem_map_of_mem htab, ?_⟩
    split
    · exact ⟨(hf.id tab).trans hid, (hf.location tab).trans hloc⟩
    · exact ⟨hid, hloc⟩

theorem Placed.updateTab (h : Placed s) {tabId : Nat} {f : EditorTab → EditorTab}
    (hf : KeepsPlace f) (htabs : t.tabs = updateEditorTab s.tabs tabId f)
    (hsaves : t.inflightSaves = s.inflightSaves) : Placed t :=
  h.update hf htabs (hsaves.trans (Function.update_eq_self tabId _).symm)
    fun save hsave => h.owned tabId save hsave

theorem Placed.append (h : Placed s) {tab : EditorTab} (htabs : t.tabs = s.tabs ++ [tab])
    (hsaves : t.inflightSaves = s.inflightSaves) (hid : ∀ old ∈ s.tabs, old.id ≠ tab.id)
    (hpath : ∀ path, tab.location = .localPath path → ∀ old ∈ s.tabs,
      old.location ≠ .localPath path) : Placed t where
  apart := htabs ▸ h.apart.append hid hpath
  owned := by
    intro tabId save hsave
    rw [hsaves] at hsave
    rw [htabs]
    obtain ⟨old, hold, hplace⟩ := h.owned tabId save hsave
    exact ⟨old, List.mem_append_left _ hold, hplace⟩

theorem Placed.path_of_save (h : Placed s) {tab : EditorTab} (htab : tab ∈ s.tabs)
    {path : PathBuf} (hpath : tab.filePath = some path) {save : BackgroundSave}
    (hsave : s.inflightSaves tab.id = some save) : save.completion.path = path := by
  obtain ⟨owner, howner, hid, hloc⟩ := h.owned tab.id save hsave
  have hsame : owner = tab := h.apart.ids owner howner tab htab hid
  rw [hsame, filePath_eq_some.mp hpath] at hloc
  cases hloc
  rfl

theorem filePath_of_restore {state : TabState} {tabId : Nat} {tab : EditorTab} {path : PathBuf}
    (hrestore : restoreTabFromState encodings parse s.disk state tabId = some tab)
    (hpath : tab.filePath = some path) : state.filePath = some path := by
  have hloc := filePath_eq_some.mp hpath
  rcases sessionIo_restoreTab hrestore with ⟨place, _, _, hsaved, hplace, _⟩ | ⟨_, hkept⟩
  · rw [hplace] at hloc
    cases hloc
    exact hsaved
  · exact (hkept path hloc).1

/-- Tabs join on paths that no other tab has. -/
def JoinsFree (s : Session) : SessionAction → Prop
  | .openFile _ path => ∀ tab ∈ s.tabs, tab.location ≠ .localPath path
  | .restoreTab state => ∀ path ∈ state.filePath, ∀ tab ∈ s.tabs, tab.location ≠ .localPath path
  | _ => True

theorem Placed.transition (h : Placed s) (hfree : s.JoinsFree action)
    (hstep : Transition encodings parse s action t) : Placed t := by
  cases hstep with
  | opened tabId path bytes hphase hfresh hread =>
      refine h.append rfl rfl hfresh fun other hother => ?_
      cases hother
      exact hfree
  | restored state tab hphase hfresh hrestore =>
      refine h.append rfl rfl ?_ fun path hpath => ?_
      · rw [restore_id hrestore]
        exact hfresh
      · exact hfree path (filePath_of_restore hrestore (filePath_eq_some.mpr hpath))
  | edited tabId content hphase => exact h.updateTab (keepsPlace_edit content) rfl rfl
  | replaced tabId content hphase => exact h.updateTab (keepsPlace_setValue content) rfl rfl
  | notSaved tabId => exact h
  | saved tab path bytes hphase htab hloc hencode hidle =>
      refine h.update keepsPlace_markAsSaved rfl rfl fun save hsave => ?_
      cases hsave
      exact ⟨tab, List.mem_of_find?_eq_some htab, rfl, hloc⟩
  | landed tabId modified save hphase hsave hpending =>
      refine h.update keepsPlace_self (updateEditorTab_self _ tabId).symm rfl fun other hother => ?_
      cases hother
      exact h.owned tabId save hsave
  | writeFailed tabId modified save hphase hsave hpending =>
      refine h.update keepsPlace_self (updateEditorTab_self _ tabId).symm rfl fun other hother => ?_
      cases hother
      exact h.owned tabId save hsave
  | completed tabId save hphase hsave hresult =>
      exact h.update keepsPlace_self (updateEditorTab_self _ tabId).symm rfl nofun
  | rolledBack tabId save hphase hsave hresult =>
      exact h.update (keepsPlace_handleFailedSave save.completion) rfl rfl nofun
  | snapshot hphase => exact h.frame rfl rfl
  | flushed succeeds state hphase hmailbox => exact h.frame rfl rfl
  | quitFailed hphase => exact h.frame rfl rfl
  | quit hphase => exact h.frame rfl rfl
  | exited hphase => exact h.frame rfl rfl

end Session

open Session (Placed)

namespace ExternalTrace

/-! ## Which paths a step of the session takes -/

section

variable {s t : Session} {action : SessionAction} {path : PathBuf}

/-- What is written or read belongs to the path that the step takes. -/
theorem takenPath_of_sessionIo {bytes : List UInt8}
    (hstep : Session.Transition encodings parse s action t)
    (hio : sessionIo parse s action = some (path, bytes)) : takenPath s action = some path := by
  cases hstep with
  | opened tabId other read hphase hfresh hread =>
      rw [sessionIo, hread] at hio
      cases hio
      rfl
  | restored state tab hphase hfresh hrestore =>
      rcases sessionIo_restoreTab hrestore with ⟨place, _, hsame, hsaved, _⟩ | ⟨hnone, _⟩
      · rw [hsame] at hio
        cases hio
        exact hsaved
      · rw [hnone] at hio
        cases hio
  | landed tabId modified save hphase hsave hpending =>
      rw [sessionIo, hsave] at hio
      cases hio
      simp [takenPath, hsave]
  | _ => cases hio

theorem disk_of_not_taken (hstep : Session.Transition encodings parse s action t)
    (hpath : takenPath s action ≠ some path) : t.disk path = s.disk path := by
  cases hstep with
  | landed tabId modified save hphase hsave hpending =>
      refine Disk.write_of_ne _ _ _ fun hsame => hpath ?_
      simp [takenPath, hsave, hsame]
  | _ => rfl

end

/-- A tab that shows its file goes on to show it. -/
def Carried (encodings : Encodings) (s t : Session) (path : PathBuf) (tab next : EditorTab) :
    Prop :=
  ∀ bytes ∈ (s.disk path).contents,
    Shown (detectEncodingAndDecode encodings bytes).content (s.inflightSaves tab.id) tab →
      Shown (detectEncodingAndDecode encodings bytes).content (t.inflightSaves next.id) next

section

variable {s t : Session} {path : PathBuf} {tabId : Nat} {inflight : Option BackgroundSave}
  {tab next : EditorTab}

theorem Carried.refl (hsaves : t.inflightSaves = s.inflightSaves) :
    Carried encodings s t path tab tab := by
  intro bytes _ hshown
  rw [hsaves]
  exact hshown

theorem Carried.of_ne (hsaves : t.inflightSaves = Function.update s.inflightSaves tabId inflight)
    (hid : tab.id ≠ tabId) : Carried encodings s t path tab tab := by
  intro bytes _ hshown
  rw [hsaves, Function.update_of_ne hid]
  exact hshown

theorem Carried.of_self (hsaves : t.inflightSaves = Function.update s.inflightSaves tabId inflight)
    (hid : tab.id = tabId) (hnext : next.id = tabId)
    (hshown : ∀ text, Shown text (s.inflightSaves tabId) tab → Shown text inflight next) :
    Carried encodings s t path tab next := by
  intro bytes _ hbefore
  rw [hid] at hbefore
  rw [hsaves, hnext, Function.update_self]
  exact hshown _ hbefore

end

/-- A step of the session keeps the tabs of the paths that it does not take. -/
theorem carried_transition {r : ExternalTrace} {t : Session} {action : SessionAction}
    (hplaced : Placed r.watched.session)
    (hsafe : r.ExternalStep encodings (.watch (.session action)))
    (hstep : Session.Transition encodings parse r.watched.session action t) {next : EditorTab}
    (hnext : next ∈ t.tabs) {path : PathBuf} (hpath : next.filePath = some path)
    (htaken : takenPath r.watched.session action ≠ some path) :
    ∃ tab ∈ r.watched.session.tabs, tab.filePath = some path ∧
      Carried encodings r.watched.session t path tab next := by
  cases hstep with
  | opened tabId other bytes hphase hfresh hread =>
      rcases List.mem_append.mp hnext with hold | hnew
      · exact ⟨next, hold, hpath, .refl rfl⟩
      · rw [List.mem_singleton.mp hnew] at hpath
        cases hpath
        exact absurd rfl htaken
  | restored state tab hphase hfresh hrestore =>
      rcases List.mem_append.mp hnext with hold | hnew
      · exact ⟨next, hold, hpath, .refl rfl⟩
      · rw [List.mem_singleton.mp hnew] at hpath
        exact absurd (Session.filePath_of_restore hrestore hpath) htaken
  | edited tabId content hphase =>
      rcases mem_updateEditorTab hnext with ⟨old, hold, ⟨hid, rfl⟩ | ⟨hid, rfl⟩⟩
      · have hplace : old.filePath = some path := by
          rw [filePath_eq_some, ← (keepsPlace_edit content).location old]
          exact filePath_eq_some.mp hpath
        refine ⟨old, hold, hplace, fun bytes hbytes hshown => ?_⟩
        rw [(keepsPlace_edit content).id old]
        exact hshown.edit fun hlarge => hsafe old hold hid hlarge path hplace bytes hbytes
      · exact ⟨next, hold, hpath, .refl rfl⟩
  | replaced tabId content hphase =>
      rcases mem_updateEditorTab hnext with ⟨old, hold, ⟨hid, rfl⟩ | ⟨hid, rfl⟩⟩
      · obtain ⟨hkept, hdistinct⟩ := hsafe old hold hid
        refine ⟨old, hold, hpath, fun bytes hbytes hshown => ?_⟩
        exact hshown.setValue hkept fun hlarge => hdistinct hlarge path hpath bytes hbytes
      · exact ⟨next, hold, hpath, .refl rfl⟩
  | saved tab place bytes hphase htab hloc hencode hidle =>
      rcases mem_updateEditorTab hnext with ⟨old, hold, ⟨hid, rfl⟩ | ⟨hid, rfl⟩⟩
      · refine ⟨old, hold, hpath, .of_self rfl hid hid fun text hshown => ?_⟩
        have hsame : old = tab :=
          hplaced.apart.ids old hold tab (List.mem_of_find?_eq_some htab) hid
        rw [hidle] at hshown
        refine hshown.saved rfl ?_
        rw [hsame, Session.dispatchedSave, captureSavedBaseline, htab]
        rfl
      · exact ⟨next, hold, hpath, .of_ne rfl hid⟩
  | landed tabId modified save hphase hsave hpending =>
      by_cases hid : next.id = tabId
      · have hsame := hplaced.path_of_save hnext hpath (hid ▸ hsave)
        exact absurd (by simp [takenPath, hsave, hsame]) htaken
      · exact ⟨next, hnext, hpath, .of_ne rfl hid⟩
  | writeFailed tabId modified save hphase hsave hpending =>
      by_cases hid : next.id = tabId
      · refine ⟨next, hnext, hpath, .of_self rfl hid hid fun text hshown => ?_⟩
        rw [hsave] at hshown
        exact hshown.writeFailed hpending
      · exact ⟨next, hnext, hpath, .of_ne rfl hid⟩
  | completed tabId save hphase hsave hresult =>
      by_cases hid : next.id = tabId
      · refine ⟨next, hnext, hpath, .of_self rfl hid hid fun text hshown => ?_⟩
        rw [hsave] at hshown
        exact hshown.completed hresult
      · exact ⟨next, hnext, hpath, .of_ne rfl hid⟩
  | rolledBack tabId save hphase hsave hresult =>
      have hf := keepsPlace_handleFailedSave save.completion
      rcases mem_updateEditorTab hnext with ⟨old, hold, ⟨hid, rfl⟩ | ⟨hid, rfl⟩⟩
      · have hplace : old.filePath = some path := by
          rw [filePath_eq_some, ← hf.location old]
          exact filePath_eq_some.mp hpath
        refine ⟨old, hold, hplace, .of_self rfl hid ((hf.id old).trans hid) fun text hshown => ?_⟩
        rw [hsave] at hshown
        exact hshown.rolledBack hresult
      · exact ⟨next, hold, hpath, .of_ne rfl hid⟩
  | _ => exact ⟨next, hnext, hpath, .refl rfl⟩

/-! ## The invariant of a trace -/

/-- The times of reads and writes, and what was read after another program wrote. -/
structure Dated (r : ExternalTrace) : Prop where
  io : ∀ path, ∀ io ∈ r.watched.lastIo path, io.1 < r.watched.clock
  written : ∀ path, ∀ written ∈ r.externalAt path,
    written ≤ r.watched.clock ∧ (r.watched.session.disk path).contents.isSome = true
  reads : ∀ reload ∈ r.watched.reloads, ∀ io ∈ reload.readResult, io.1 < r.watched.clock ∧
    ∀ written ∈ r.externalAt reload.path, written ≤ io.1 →
      (r.watched.session.disk reload.path).contents = some io.2

/-- A reload is on its way that reads after the given time. -/
def Awaits (r : ExternalTrace) (path : PathBuf) (written : Nat) : Prop :=
  ∃ reload ∈ r.watched.reloads, reload.path = path ∧ ∀ io ∈ reload.readResult, written ≤ io.1

/-- The path was read or written after the given time. -/
def HasRead (r : ExternalTrace) (path : PathBuf) (written : Nat) : Prop :=
  ∃ io ∈ r.watched.lastIo path, written ≤ io.1

/-- A file that is to be read again is waited for until it was, and from then on it is shown. -/
structure Caught (encodings : Encodings) (r : ExternalTrace) : Prop where
  dated : Dated r
  placed : r.watched.session.Placed
  pending : ∀ tab ∈ r.watched.session.tabs, ∀ path, tab.filePath = some path →
    r.caught path = true → ∀ written ∈ r.externalAt path,
      r.Awaits path written ∨ r.HasRead path written
  shown : ∀ tab ∈ r.watched.session.tabs, ∀ path, tab.filePath = some path →
    ∀ written ∈ r.externalAt path, r.HasRead path written →
      ∀ bytes ∈ (r.watched.session.disk path).contents,
        Shown (detectEncodingAndDecode encodings bytes).content
          (r.watched.session.inflightSaves tab.id) tab

variable {r r' : ExternalTrace}

theorem caught_launched (disk : Disk) (persisted : List TabState) :
    Caught encodings (launched disk persisted) where
  dated := ⟨by simp [launched, WatchedSession.launched], by simp [launched],
    by simp [launched, WatchedSession.launched]⟩
  placed := Session.placed_launched disk persisted
  pending := by simp [launched]
  shown := by simp [launched]

/-- A step by which no other program writes. -/
theorem Dated.next (h : Dated r) (hclock : r.watched.clock ≤ r'.watched.clock)
    (hio : ∀ path, ∀ io ∈ r'.watched.lastIo path,
      io ∈ r.watched.lastIo path ∨ io.1 < r'.watched.clock)
    (hkept : ∀ path, ∀ written ∈ r'.externalAt path, written ∈ r.externalAt path ∧
      r'.watched.session.disk path = r.watched.session.disk path)
    (hreads : ∀ reload ∈ r'.watched.reloads, reload ∈ r.watched.reloads ∨
      ∀ io ∈ reload.readResult, io.1 < r'.watched.clock ∧
        (r'.watched.session.disk reload.path).contents = some io.2) : Dated r' where
  io := by
    intro path io hlast
    rcases hio path io hlast with hold | hnew
    · have hbefore := h.io path io hold
      omega
    · exact hnew
  written := by
    intro path written hwritten
    obtain ⟨hold, hdisk⟩ := hkept path written hwritten
    obtain ⟨hle, hpresent⟩ := h.written path written hold
    rw [hdisk]
    exact ⟨Nat.le_trans hle hclock, hpresent⟩
  reads := by
    intro reload hreload io hread
    rcases hreads reload hreload with hold | hnew
    · obtain ⟨hbefore, hsame⟩ := h.reads reload hold io hread
      refine ⟨Nat.lt_of_lt_of_le hbefore hclock, fun written hwritten hle => ?_⟩
      obtain ⟨hwas, hdisk⟩ := hkept reload.path written hwritten
      rw [hdisk]
      exact hsame written hwas hle
    · obtain ⟨hbefore, hsame⟩ := hnew io hread
      exact ⟨hbefore, fun _ _ _ => hsame⟩

/-- A step that applies no reload, and by which no other program writes. -/
theorem Caught.next (h : Caught encodings r) (hdated : Dated r')
    (hplaced : r'.watched.session.Placed)
    (hkept : ∀ path, ∀ written ∈ r'.externalAt path, written ∈ r.externalAt path ∧
      r'.watched.session.disk path = r.watched.session.disk path ∧
      r'.watched.lastIo path = r.watched.lastIo path)
    (htabs : ∀ next ∈ r'.watched.session.tabs, ∀ path, next.filePath = some path →
      (r'.externalAt path).isSome = true →
        ∃ tab ∈ r.watched.session.tabs, tab.filePath = some path ∧
          Carried encodings r.watched.session r'.watched.session path tab next)
    (hawaits : ∀ tab ∈ r.watched.session.tabs, ∀ path, tab.filePath = some path →
      ∀ written ∈ r.externalAt path, r.Awaits path written → r'.Awaits path written)
    (hcaught : ∀ path, r'.caught path = true →
      r.caught path = true ∨ ∀ written, r'.Awaits path written) : Caught encodings r' where
  dated := hdated
  placed := hplaced
  pending := by
    intro next hnext path hpath htold written hwritten
    obtain ⟨hold, -, hio⟩ := hkept path written hwritten
    obtain ⟨tab, htab, hplace, -⟩ := htabs next hnext path hpath (Option.isSome_of_mem hwritten)
    rcases hcaught path htold with hbefore | hnow
    · rcases h.pending tab htab path hplace hbefore written hold with hawait | hread
      · exact Or.inl (hawaits tab htab path hplace written hold hawait)
      · right
        unfold HasRead
        rw [hio]
        exact hread
    · exact Or.inl (hnow written)
  shown := by
    intro next hnext path hpath written hwritten hread bytes hbytes
    obtain ⟨hold, hdisk, hio⟩ := hkept path written hwritten
    obtain ⟨tab, htab, hplace, hcarried⟩ :=
      htabs next hnext path hpath (Option.isSome_of_mem hwritten)
    unfold HasRead at hread
    rw [hio] at hread
    rw [hdisk] at hbytes
    exact hcarried bytes hbytes (h.shown tab htab path hplace written hold hread bytes hbytes)

/-! ## Steps of the session -/

section

variable {action : SessionAction} {s : Session}

theorem afterSession_clock (w : WatchedSession) :
    w.clock ≤ (w.afterSession parse action s).clock ∧
      ∀ io, sessionIo parse w.session action = some io →
        w.clock < (w.afterSession parse action s).clock := by
  obtain ⟨pending, hrenew⟩ := w.renewWatch_eq action
  unfold WatchedSession.afterSession
  rw [hrenew]
  cases hio : sessionIo parse w.session action with
  | none => exact ⟨Nat.le_refl _, nofun⟩
  | some io => exact ⟨Nat.le_succ _, fun _ _ => Nat.lt_succ_self _⟩

theorem afterSession_lastIo {w : WatchedSession}
    (hstep : Session.Transition encodings parse w.session action s) {path : PathBuf}
    (hpath : takenPath w.session action ≠ some path) :
    (w.afterSession parse action s).lastIo path = w.lastIo path := by
  cases hio : sessionIo parse w.session action with
  | none => rw [(w.afterSession_of_none s hio).1]
  | some io =>
      have htaken := takenPath_of_sessionIo hstep hio
      have hne : path ≠ io.1 := fun hsame => hpath (hsame ▸ htaken)
      rw [(w.afterSession_of_some s hio).1, Function.update_of_ne hne]

theorem afterSession_io {w : WatchedSession} {path : PathBuf} {io : Nat × List UInt8}
    (h : io ∈ (w.afterSession parse action s).lastIo path) :
    io ∈ w.lastIo path ∨ io.1 < (w.afterSession parse action s).clock := by
  cases hio : sessionIo parse w.session action with
  | none =>
      rw [(w.afterSession_of_none s hio).1] at h
      exact Or.inl h
  | some taken =>
      rw [(w.afterSession_of_some s hio).1] at h
      by_cases hpath : path = taken.1
      · right
        rw [hpath, Function.update_self] at h
        cases h
        exact (afterSession_clock w).2 taken hio
      · left
        rwa [Function.update_of_ne hpath] at h

theorem mem_externalAfter_session {path : PathBuf} {written : Nat}
    (h : written ∈ r.externalAfter (.session action) path) :
    takenPath r.watched.session action ≠ some path ∧ written ∈ r.externalAt path := by
  cases htaken : takenPath r.watched.session action with
  | none =>
      simp only [externalAfter, htaken] at h
      exact ⟨nofun, h⟩
  | some taken =>
      simp only [externalAfter, htaken] at h
      by_cases hpath : path = taken
      · rw [hpath, Function.update_self] at h
        cases h
      · rw [Function.update_of_ne hpath] at h
        exact ⟨fun hsame => hpath (Option.some.inj hsame).symm, h⟩

theorem Caught.sessionStep (h : Caught encodings r)
    (hsafe : r.ExternalStep encodings (.watch (.session action)))
    (hstep : Session.Transition encodings parse r.watched.session action s) :
    Caught encodings (r.after (.session action) (r.watched.afterSession parse action s)) := by
  have hsession : (r.watched.afterSession parse action s).session = s :=
    WatchedSession.afterSession_session action s
  have hfree : r.watched.session.JoinsFree action := by
    cases action with
    | openFile tabId path => exact hsafe
    | restoreTab state => exact hsafe
    | _ => trivial
  have hkept : ∀ path, ∀ written ∈ r.externalAfter (.session action) path,
      written ∈ r.externalAt path ∧
      (r.watched.afterSession parse action s).session.disk path = r.watched.session.disk path ∧
      (r.watched.afterSession parse action s).lastIo path = r.watched.lastIo path := by
    intro path written hwritten
    obtain ⟨htaken, hold⟩ := mem_externalAfter_session hwritten
    refine ⟨hold, ?_, afterSession_lastIo hstep htaken⟩
    rw [hsession]
    exact disk_of_not_taken hstep htaken
  apply h.next
  · refine h.dated.next (afterSession_clock r.watched).1 (fun path io => afterSession_io) ?_ ?_
    · exact fun path written hwritten =>
        ⟨(hkept path written hwritten).1, (hkept path written hwritten).2.1⟩
    · intro reload hreload
      left
      rwa [after, ReloadTrace.afterSession_reloads] at hreload
  · have hplaced := h.placed.transition hfree hstep
    rwa [after, hsession]
  · exact hkept
  · intro next hnext path hpath hsome
    obtain ⟨written, hwritten⟩ := Option.isSome_iff_exists.mp hsome
    obtain ⟨htaken, -⟩ := mem_externalAfter_session (Option.mem_def.mpr hwritten)
    have hmem : next ∈ s.tabs := by rwa [after, hsession] at hnext
    have hcarried := carried_transition h.placed hsafe hstep hmem hpath htaken
    rwa [after, hsession]
  · rintro tab - path - written - ⟨reload, hreload, hawait⟩
    refine ⟨reload, ?_, hawait⟩
    rwa [after, ReloadTrace.afterSession_reloads]
  · intro path htold
    left
    simpa [after, caughtAfter, reloadedPath] using htold

end

/-! ## Steps that read and write nothing -/

/-- What the application is told, by an event or by the user, may start a reload. -/
structure Told (w w' : WatchedSession) : Prop where
  tabs : w'.session.tabs = w.session.tabs ∨ ∃ tabId, w'.session.tabs =
    updateEditorTab w.session.tabs tabId fun tab => { tab with modified := true }
  saves : w'.session.inflightSaves = w.session.inflightSaves
  disk : w'.session.disk = w.session.disk
  lastIo : w'.lastIo = w.lastIo
  clock : w.clock ≤ w'.clock
  reloads : ReloadTrace.Dispatches w w'

section

variable {w w' : WatchedSession} {path : PathBuf}

theorem Told.refl (w : WatchedSession) : Told w w :=
  ⟨Or.inl rfl, rfl, rfl, rfl, Nat.le_refl _, Or.inl rfl⟩

theorem told_reloadTabFromDisk (w : WatchedSession) (path : PathBuf) :
    Told w (w.reloadTabFromDisk path) :=
  ⟨Or.inl rfl, rfl, rfl, rfl, Nat.le_refl _, Or.inr ⟨path, rfl⟩⟩

theorem told_showFileConflictDialog (w : WatchedSession) (path : PathBuf) (tabId : Nat) :
    Told w (w.showFileConflictDialog path tabId) := by
  unfold WatchedSession.showFileConflictDialog
  split
  · exact .refl w
  · exact ⟨Or.inl rfl, rfl, rfl, rfl, Nat.le_refl _, Or.inl rfl⟩

theorem told_applyExternalModification (w : WatchedSession) (path : PathBuf) :
    Told w (w.applyExternalModification path) := by
  unfold WatchedSession.applyExternalModification
  split
  · exact .refl w
  · rename_i tab _
    split
    · split
      · exact told_showFileConflictDialog w path tab.id
      · exact ⟨Or.inl rfl, rfl, rfl, rfl, Nat.le_refl _, Or.inl rfl⟩
    · exact told_reloadTabFromDisk w path

theorem told_reloadWatchedTabById (w : WatchedSession) (tabId : Nat) (path : PathBuf) :
    Told w (w.reloadWatchedTabById tabId path) := by
  unfold WatchedSession.reloadWatchedTabById
  split
  · exact told_reloadTabFromDisk w path
  · exact .refl w

theorem told_setActiveTab (w : WatchedSession) (tabId : Nat) : Told w (w.setActiveTab tabId) := by
  have hquiet : Told w { w with activeTabId := some tabId } :=
    ⟨Or.inl rfl, rfl, rfl, rfl, Nat.le_refl _, Or.inl rfl⟩
  unfold WatchedSession.setActiveTab WatchedSession.showPendingConflict
  split
  · exact hquiet
  · rename_i path _
    split
    · have hshown := told_showFileConflictDialog
        (WatchedSession.forgetPendingConflict { w with activeTabId := some tabId } path) path tabId
      exact ⟨hshown.tabs, hshown.saves, hshown.disk, hshown.lastIo, hshown.clock, hshown.reloads⟩
    · exact hquiet

theorem told_answerConflict {load : Bool} (h : w.answerConflict path load = some w') :
    Told w w' := by
  unfold WatchedSession.answerConflict at h
  split at h
  · cases h
  · rename_i dialog hdialog
    cases h
    cases load with
    | true =>
        have hreload := told_reloadWatchedTabById { w with
          openConflictDialogs := w.openConflictDialogs.filter fun dialog => dialog.1 ≠ path }
          dialog.2 path
        exact ⟨hreload.tabs, hreload.saves, hreload.disk, hreload.lastIo, hreload.clock,
          hreload.reloads⟩
    | false => exact ⟨Or.inl rfl, rfl, rfl, rfl, Nat.le_refl _, Or.inl rfl⟩

theorem told_deleted (w : WatchedSession) (path : PathBuf) :
    Told w ((w.markTabDeletedExternally path).reportDeleted path) := by
  unfold WatchedSession.markTabDeletedExternally
  split
  · exact ⟨Or.inl rfl, rfl, rfl, rfl, Nat.le_succ _, Or.inl rfl⟩
  · rename_i tab _
    exact ⟨Or.inr ⟨tab.id, rfl⟩, rfl, rfl, rfl, Nat.le_succ _, Or.inl rfl⟩

theorem told_handleFileWatchEvent (w : WatchedSession) {event : FileWatchEvent} (recent : Bool)
    (hstays : ∀ source target, event ≠ .renamed source target) :
    Told w (w.handleFileWatchEvent event recent) := by
  cases event with
  | modified path =>
      rw [WatchedSession.handleFileWatchEvent]
      split
      · exact .refl w
      · exact told_applyExternalModification w path
  | deleted path =>
      rw [WatchedSession.handleFileWatchEvent]
      split
      · exact .refl w
      · split
        · have hchanged := told_applyExternalModification (w.forgetPendingConflict path) path
          exact ⟨hchanged.tabs, hchanged.saves, hchanged.disk, hchanged.lastIo, hchanged.clock,
            hchanged.reloads⟩
        · exact told_deleted w path
  | renamed source target => exact absurd rfl (hstays source target)
  | error msg => exact .refl w

/-! ### What is to be read again -/

theorem applyExternalModification_of_clean (h : isClean w path = true) :
    w.applyExternalModification path = w.reloadTabFromDisk path := by
  obtain ⟨tab, hfound, hclean⟩ := (Option.any_eq_true _ _).mp h
  unfold WatchedSession.applyExternalModification
  rw [hfound]
  have hunmodified : tab.modified = false := by simpa using hclean
  simp [hunmodified]

theorem reloadWatchedTabById_of_place {tabId : Nat} (h : hasPlace w tabId path = true) :
    w.reloadWatchedTabById tabId path = w.reloadTabFromDisk path := if_pos h

theorem mem_reloadTabFromDisk (w : WatchedSession) (path : PathBuf) :
    (⟨path, none⟩ : Reload) ∈ (w.reloadTabFromDisk path).reloads :=
  List.mem_append_right _ (List.mem_singleton_self _)

theorem mem_reloads_of_event {event : FileWatchEvent} {recent : Bool}
    (h : reloadedPath w (.event event recent) = some path) :
    (⟨path, none⟩ : Reload) ∈ (w.handleFileWatchEvent event recent).reloads := by
  cases event with
  | modified changed =>
      obtain ⟨hread, hpath⟩ := Option.ite_none_right_eq_some.mp h
      cases hpath
      obtain ⟨hheard, hclean⟩ := Bool.and_eq_true_iff.mp hread
      have hnot : w.shouldSuppressFileWatchEvent path recent = false := by simpa using hheard
      simp only [WatchedSession.handleFileWatchEvent, hnot, Bool.false_eq_true, if_false]
      rw [applyExternalModification_of_clean hclean]
      exact mem_reloadTabFromDisk w path
  | deleted changed =>
      obtain ⟨hread, hpath⟩ := Option.ite_none_right_eq_some.mp h
      cases hpath
      obtain ⟨hheard, hclean⟩ := Bool.and_eq_true_iff.mp hread
      obtain ⟨hwindow, hpresent⟩ := Bool.and_eq_true_iff.mp hheard
      have hnot : w.shouldSuppressFileWatchEvent path recent = false := by simpa using hwindow
      simp only [WatchedSession.handleFileWatchEvent, hnot, hpresent, Bool.false_eq_true, if_false,
        if_true]
      have hforgotten : isClean (w.forgetPendingConflict path) path = true := hclean
      rw [applyExternalModification_of_clean hforgotten]
      exact mem_reloadTabFromDisk _ path
  | renamed source target => cases h
  | error msg => cases h

theorem mem_reloads_of_answer {changed : PathBuf} {load : Bool}
    (hanswer : w.answerConflict changed load = some w')
    (h : reloadedPath w (.answerConflict changed load) = some path) :
    (⟨path, none⟩ : Reload) ∈ w'.reloads := by
  cases load with
  | false => cases h
  | true =>
      obtain ⟨hasked, hpath⟩ := Option.ite_none_right_eq_some.mp h
      cases hpath
      obtain ⟨dialog, hfound, hplace⟩ := (Option.any_eq_true _ _).mp hasked
      rw [WatchedSession.answerConflict, hfound] at hanswer
      cases hanswer
      have hkept : hasPlace { w with
          openConflictDialogs := w.openConflictDialogs.filter fun dialog => dialog.1 ≠ path }
          dialog.2 path = true := hplace
      rw [if_pos rfl, reloadWatchedTabById_of_place hkept]
      exact mem_reloadTabFromDisk _ path

end

theorem Caught.told (h : Caught encodings r) {action : WatchAction} {w : WatchedSession}
    (htold : Told r.watched w) (hexternal : r.externalAfter action = r.externalAt)
    (hcaught : ∀ path, r.caughtAfter action path = true →
      r.caught path = true ∨ (⟨path, none⟩ : Reload) ∈ w.reloads) :
    Caught encodings (r.after action w) := by
  have hkept : ∀ path, ∀ written ∈ r.externalAfter action path, written ∈ r.externalAt path ∧
      w.session.disk path = r.watched.session.disk path ∧
      w.lastIo path = r.watched.lastIo path := by
    intro path written hwritten
    rw [hexternal] at hwritten
    exact ⟨hwritten, congrFun htold.disk path, congrFun htold.lastIo path⟩
  have hreloads : ∀ reload ∈ r.watched.reloads, reload ∈ w.reloads := by
    intro reload hreload
    rcases htold.reloads with hsame | ⟨path, happend⟩
    · rwa [hsame]
    · rw [happend]
      exact List.mem_append_left _ hreload
  apply h.next
  · refine h.dated.next htold.clock ?_ ?_ ?_
    · intro path io hio
      left
      rwa [after, htold.lastIo] at hio
    · exact fun path written hwritten =>
        ⟨(hkept path written hwritten).1, (hkept path written hwritten).2.1⟩
    · intro reload hreload
      rcases htold.reloads with hsame | ⟨path, happend⟩
      · left
        rwa [after, hsame] at hreload
      · rw [after, happend] at hreload
        rcases List.mem_append.mp hreload with hold | hnew
        · exact Or.inl hold
        · right
          rw [List.mem_singleton.mp hnew]
          exact nofun
  · rcases htold.tabs with hsame | ⟨tabId, hmarked⟩
    · exact h.placed.frame hsame htold.saves
    · exact h.placed.updateTab keepsPlace_marked hmarked htold.saves
  · exact hkept
  · intro next hnext path hpath _
    have hmem : next ∈ w.session.tabs := hnext
    rcases htold.tabs with hsame | ⟨tabId, hmarked⟩
    · rw [hsame] at hmem
      exact ⟨next, hmem, hpath, .refl htold.saves⟩
    · rw [hmarked] at hmem
      rcases mem_updateEditorTab hmem with ⟨old, hold, ⟨hid, rfl⟩ | ⟨hid, rfl⟩⟩
      · refine ⟨old, hold, hpath, fun bytes _ hshown => ?_⟩
        rw [after, htold.saves]
        exact hshown.marked
      · exact ⟨next, hold, hpath, .refl htold.saves⟩
  · rintro tab - path - written - ⟨reload, hreload, hawait⟩
    exact ⟨reload, hreloads reload hreload, hawait⟩
  · intro path hpath
    rcases hcaught path hpath with hbefore | hnow
    · exact Or.inl hbefore
    · exact Or.inr fun written => ⟨_, hnow, rfl, nofun⟩

/-- A tab moves to a path about which the application knows nothing. -/
theorem Caught.moved (h : Caught encodings r) {source target : PathBuf} {recent : Bool}
    {tab : EditorTab} (htab : tab ∈ r.watched.session.tabs)
    (hloc : tab.location = .localPath source)
    (hsuppressed : r.watched.shouldSuppressFileWatchEvent source recent = false)
    (hsafe : r.ExternalStep encodings (.watch (.event (.renamed source target) recent)))
    (hmoves : movesTab r.watched source recent = true) {w : WatchedSession}
    (htabs : w.session.tabs =
      updateEditorTab r.watched.session.tabs tab.id fun tab => tab.moveTo target)
    (hsaves : w.session.inflightSaves = r.watched.session.inflightSaves)
    (hdisk : w.session.disk = r.watched.session.disk) (hlastIo : w.lastIo = r.watched.lastIo)
    (hclock : w.clock = r.watched.clock) (hreloads : w.reloads = r.watched.reloads) :
    Caught encodings (r.after (.event (.renamed source target) recent) w) := by
  obtain ⟨hnothing, huncaught, hfree⟩ := hsafe hmoves
  have hidle := inflight_of_not_suppressed h.placed.apart h.placed.owned hsuppressed htab hloc
  have horigin : ∀ next ∈ w.session.tabs, next.filePath = some target ∨
      next ∈ r.watched.session.tabs := by
    intro next hnext
    rw [htabs] at hnext
    rcases mem_updateEditorTab hnext with ⟨old, hold, ⟨hid, rfl⟩ | ⟨hid, rfl⟩⟩
    · exact Or.inl rfl
    · exact Or.inr hold
  have hcaught : ∀ path, (r.after (.event (.renamed source target) recent) w).caught path = true →
      r.caught path = true := by
    intro path htold
    simpa [after, caughtAfter, reloadedPath] using htold
  constructor
  · refine h.dated.next (Nat.le_of_eq hclock.symm) ?_ ?_ ?_
    · intro path io hio
      left
      rwa [after, hlastIo] at hio
    · exact fun path written hwritten => ⟨hwritten, congrFun hdisk path⟩
    · intro reload hreload
      left
      rwa [after, hreloads] at hreload
  · exact ⟨htabs ▸ WatchedSession.Apart.moveTo h.placed.apart tab.id hfree,
      WatchedSession.Owned.moveTo h.placed.owned hidle htabs hsaves⟩
  · intro next hnext path hpath htold written hwritten
    rcases horigin next hnext with htarget | hold
    · rw [htarget] at hpath
      cases hpath
      have hbefore := hcaught target htold
      rw [huncaught] at hbefore
      cases hbefore
    · rcases h.pending next hold path hpath (hcaught path htold) written hwritten with
        ⟨reload, hreload, hawait⟩ | hread
      · exact Or.inl ⟨reload, hreloads ▸ hreload, hawait⟩
      · right
        unfold HasRead
        rw [after, hlastIo]
        exact hread
  · intro next hnext path hpath written hwritten hread bytes hbytes
    have hbefore : r.HasRead path written := by
      unfold HasRead at hread
      rwa [after, hlastIo] at hread
    rcases horigin next hnext with htarget | hold
    · rw [htarget] at hpath
      cases hpath
      obtain ⟨io, hio, -⟩ := hbefore
      rw [hnothing] at hio
      cases hio
    · rw [after, hdisk] at hbytes
      rw [after, hsaves]
      exact h.shown next hold path hpath written hwritten hbefore bytes hbytes

theorem Caught.event (h : Caught encodings r) {event : FileWatchEvent} {recent : Bool}
    (hsafe : r.ExternalStep encodings (.watch (.event event recent))) :
    Caught encodings (r.after (.event event recent)
      (r.watched.handleFileWatchEvent event recent)) := by
  have hread : ∀ path, r.caughtAfter (.event event recent) path = true →
      r.caught path = true ∨
        (⟨path, none⟩ : Reload) ∈ (r.watched.handleFileWatchEvent event recent).reloads := by
    intro path hpath
    rcases (Bool.or_eq_true _ _).mp hpath with hbefore | hnow
    · exact Or.inl hbefore
    · exact Or.inr (mem_reloads_of_event (of_decide_eq_true hnow))
  cases event with
  | modified path => exact h.told (told_handleFileWatchEvent r.watched recent (by simp)) rfl hread
  | deleted path => exact h.told (told_handleFileWatchEvent r.watched recent (by simp)) rfl hread
  | error msg => exact h.told (told_handleFileWatchEvent r.watched recent (by simp)) rfl hread
  | renamed source target =>
      have hquiet : r.watched.handleFileWatchEvent (.renamed source target) recent = r.watched →
          Caught encodings (r.after (.event (.renamed source target) recent)
            (r.watched.handleFileWatchEvent (.renamed source target) recent)) := by
        intro hsame
        refine h.told ?_ rfl hread
        rw [hsame]
        exact .refl r.watched
      cases hsuppressed : r.watched.shouldSuppressFileWatchEvent source recent with
      | true => exact hquiet (by simp [WatchedSession.handleFileWatchEvent, hsuppressed])
      | false =>
          cases hfind : findTabByPath r.watched.session.tabs source with
          | none =>
              refine hquiet ?_
              simp [WatchedSession.handleFileWatchEvent, hsuppressed,
                WatchedSession.moveRenamedTab, hfind]
          | some tab =>
              obtain ⟨htab, hloc⟩ := findTabByPath_some hfind
              have hmoves : movesTab r.watched source recent = true := by
                simp [movesTab, hsuppressed, hfind]
              have hmove : r.watched.handleFileWatchEvent (.renamed source target) recent =
                  { r.watched.forgetPendingConflict source with
                    session.tabs := updateEditorTab r.watched.session.tabs tab.id
                      fun tab => tab.moveTo target } := by
                simp [WatchedSession.handleFileWatchEvent, hsuppressed,
                  WatchedSession.moveRenamedTab, hfind]
              rw [hmove]
              exact h.moved htab hloc hsuppressed hsafe hmoves rfl rfl rfl rfl rfl rfl

/-! ## Writes of other programs, reads and reloads -/

theorem caught_after_read {index : Nat} {w : WatchedSession} {path : PathBuf}
    (h : (r.after (.readReload index) w).caught path = true) : r.caught path = true := by
  simpa [after, caughtAfter, reloadedPath] using h

theorem caught_after_finish {index : Nat} {w : WatchedSession} {path : PathBuf}
    (h : (r.after (.finishReload index) w).caught path = true) : r.caught path = true := by
  simpa [after, caughtAfter, reloadedPath] using h

/-- Another program writes: what was read before is older, and what is to read sees it. -/
theorem Caught.external (h : Caught encodings r) (path : PathBuf) (file : FileView) :
    Caught encodings (r.after (.external path file) { r.watched with
      session.disk := r.watched.session.disk.replace path file }) := by
  have hself : ∀ written ∈ r.externalAfter (.external path file) path,
      written = r.watched.clock ∧ file.contents.isSome = true := by
    intro written hwritten
    rw [externalAfter, Function.update_self] at hwritten
    obtain ⟨bytes, hbytes, rfl⟩ := Option.map_eq_some_iff.mp hwritten
    exact ⟨rfl, Option.isSome_of_mem hbytes⟩
  have hother : ∀ place, place ≠ path → r.externalAfter (.external path file) place =
      r.externalAt place ∧ r.caughtAfter (.external path file) place = r.caught place ∧
      r.watched.session.disk.replace path file place = r.watched.session.disk place :=
    fun place hne => ⟨Function.update_of_ne hne _ _, Function.update_of_ne hne _ _, if_neg hne⟩
  have hunread : ∀ written ∈ r.externalAfter (.external path file) path,
      ¬ r.HasRead path written := by
    rintro written hwritten ⟨io, hio, hle⟩
    have hbefore := h.dated.io path io hio
    have hnow := (hself written hwritten).1
    omega
  constructor
  · constructor
    · exact h.dated.io
    · intro place written hwritten
      by_cases hplace : place = path
      · subst hplace
        obtain ⟨rfl, hpresent⟩ := hself written hwritten
        refine ⟨Nat.le_refl _, ?_⟩
        simp [after, Disk.replace, hpresent]
      · obtain ⟨hsame, -, hdisk⟩ := hother place hplace
        have hold : written ∈ r.externalAt place := hsame ▸ hwritten
        simp only [after, hdisk]
        exact h.dated.written place written hold
    · intro reload hreload io hread
      obtain ⟨hbefore, hseen⟩ := h.dated.reads reload hreload io hread
      refine ⟨hbefore, fun written hwritten hle => ?_⟩
      by_cases hplace : reload.path = path
      · have hnow := (hself written (hplace ▸ hwritten)).1
        omega
      · obtain ⟨hsame, -, hdisk⟩ := hother reload.path hplace
        have hold : written ∈ r.externalAt reload.path := hsame ▸ hwritten
        simp only [after, hdisk]
        exact hseen written hold hle
  · exact h.placed.frame rfl rfl
  · intro tab htab place hpath htold written hwritten
    by_cases hplace : place = path
    · subst hplace
      left
      have hwaiting : r.caughtAfter (.external place file) place = true := htold
      rw [caughtAfter, Function.update_self, List.any_eq_true] at hwaiting
      obtain ⟨reload, hreload, hopen⟩ := hwaiting
      obtain ⟨hsame, hnone⟩ := of_decide_eq_true hopen
      refine ⟨reload, hreload, hsame, ?_⟩
      rw [hnone]
      exact nofun
    · obtain ⟨hsame, hcaught, -⟩ := hother place hplace
      have hold : written ∈ r.externalAt place := hsame ▸ hwritten
      exact h.pending tab htab place hpath (hcaught ▸ htold) written hold
  · intro tab htab place hpath written hwritten hread bytes hbytes
    by_cases hplace : place = path
    · subst hplace
      exact absurd hread (hunread written hwritten)
    · obtain ⟨hsame, -, hdisk⟩ := hother place hplace
      have hold : written ∈ r.externalAt place := hsame ▸ hwritten
      simp only [after, hdisk] at hbytes
      exact h.shown tab htab place hpath written hold hread bytes hbytes

theorem Awaits.eraseIdx {path : PathBuf} {written : Nat} (h : r.Awaits path written) {index : Nat}
    (hother : ∀ reload ∈ r.watched.reloads[index]?, reload.path = path →
      ∃ io ∈ reload.readResult, io.1 < written)
    (hreloads : r'.watched.reloads = r.watched.reloads.eraseIdx index) :
    r'.Awaits path written := by
  obtain ⟨reload, hreload, hpath, hawait⟩ := h
  obtain ⟨place, hplace⟩ := List.getElem?_of_mem hreload
  refine ⟨reload, ?_, hpath, hawait⟩
  rw [hreloads, List.mem_eraseIdx_iff_getElem?]
  refine ⟨place, fun hsame => ?_, hplace⟩
  rw [hsame] at hplace
  obtain ⟨io, hio, hbefore⟩ := hother reload hplace hpath
  have hafter := hawait io hio
  omega

theorem Caught.read (h : Caught encodings r) {index : Nat} {w : WatchedSession}
    (hread : r.watched.runRead index = some w) :
    Caught encodings (r.after (.readReload index) w) := by
  unfold WatchedSession.runRead at hread
  split at hread
  · rename_i path hindex
    split at hread
    · rename_i hmissing
      cases hread
      apply h.next
      · refine h.dated.next (Nat.le_refl _) (fun _ _ hio => Or.inl hio) ?_ ?_
        · exact fun _ _ hwritten => ⟨hwritten, rfl⟩
        · exact fun reload hreload => Or.inl (List.mem_of_mem_eraseIdx hreload)
      · exact h.placed.frame rfl rfl
      · exact fun _ _ hwritten => ⟨hwritten, rfl, rfl⟩
      · exact fun next hnext _ hpath _ => ⟨next, hnext, hpath, .refl rfl⟩
      · intro tab _ place _ written hwritten hawait
        refine hawait.eraseIdx (fun reload hreload hplace => ?_) rfl
        -- a file that another program wrote can be read
        rw [hindex] at hreload
        cases hreload
        obtain ⟨-, hpresent⟩ := h.dated.written place written hwritten
        rw [← hplace, hmissing] at hpresent
        cases hpresent
      · exact fun place htold => Or.inl (caught_after_read htold)
    · rename_i bytes hbytes
      cases hread
      apply h.next
      · refine h.dated.next (Nat.le_succ _) (fun _ _ hio => Or.inl hio) ?_ ?_
        · exact fun _ _ hwritten => ⟨hwritten, rfl⟩
        · intro reload hreload
          rcases List.mem_or_eq_of_mem_set hreload with hold | rfl
          · exact Or.inl hold
          · right
            intro io hio
            cases hio
            exact ⟨Nat.lt_succ_self _, hbytes⟩
      · exact h.placed.frame rfl rfl
      · exact fun _ _ hwritten => ⟨hwritten, rfl, rfl⟩
      · exact fun next hnext _ hpath _ => ⟨next, hnext, hpath, .refl rfl⟩
      · intro tab _ place _ written hwritten hawait
        have hafter : ∀ io ∈ some (r.watched.clock, bytes), written ≤ io.1 := by
          intro io hio
          cases hio
          exact (h.dated.written place written hwritten).1
        refine (Tickets.exists_mem_set_iff hindex ?_).mpr hawait
        exact ⟨fun hnext => ⟨hnext.1, nofun⟩, fun hbefore => ⟨hbefore.1, hafter⟩⟩
      · exact fun place htold => Or.inl (caught_after_read htold)
  · cases hread

/-- The newer of two notes is as late as either of them. -/
theorem le_newerIo {known : Option (Nat × List UInt8)} {io : Nat × List UInt8} {written : Nat} :
    written ≤ (WatchedSession.newerIo known io).1 ↔
      written ≤ io.1 ∨ ∃ last ∈ known, written ≤ last.1 := by
  cases known with
  | none => simp [WatchedSession.newerIo]
  | some last =>
      rw [WatchedSession.newerIo]
      split
      · simp only [Option.mem_def, Option.some.injEq, exists_eq_left']
        omega
      · simp only [Option.mem_def, Option.some.injEq, exists_eq_left']
        omega

/-- What was read is noted when it is applied. -/
theorem Dated.applied (h : Dated r) {index : Nat} {path : PathBuf} {io : Nat × List UInt8}
    (hindex : r.watched.reloads[index]? = some ⟨path, some io⟩) {w : WatchedSession}
    (hclock : w.clock = r.watched.clock) (hdisk : w.session.disk = r.watched.session.disk)
    (hreloads : w.reloads = r.watched.reloads.eraseIdx index)
    (hio : w.lastIo = Function.update r.watched.lastIo path
      (some (WatchedSession.newerIo (r.watched.lastIo path) io))) :
    Dated (r.after (.finishReload index) w) := by
  obtain ⟨hbefore, -⟩ := h.reads _ (List.mem_of_getElem? hindex) io rfl
  refine h.next (Nat.le_of_eq hclock.symm) ?_ ?_ ?_
  · intro place last hlast
    have hnow : last ∈ w.lastIo place := hlast
    rw [hio] at hnow
    by_cases hplace : place = path
    · right
      subst hplace
      rw [Function.update_self] at hnow
      cases hnow
      show (WatchedSession.newerIo _ io).1 < w.clock
      rw [hclock, ← Nat.not_le, le_newerIo]
      rintro (hle | ⟨last, hlast, hle⟩)
      · omega
      · have hlater := h.io place last hlast
        omega
    · left
      rwa [Function.update_of_ne hplace] at hnow
  · exact fun place _ hwritten => ⟨hwritten, congrFun hdisk place⟩
  · intro reload hreload
    left
    rw [after, hreloads] at hreload
    exact List.mem_of_mem_eraseIdx hreload

/-- A read that is noted for a path leaves what is noted for the others. -/
theorem hasRead_noted {action : WatchAction} {path : PathBuf} {io : Nat × List UInt8}
    {w : WatchedSession}
    (hio : w.lastIo = Function.update r.watched.lastIo path
      (some (WatchedSession.newerIo (r.watched.lastIo path) io)))
    (place : PathBuf) (written : Nat) :
    (r.after action w).HasRead place written ↔
      place = path ∧ written ≤ io.1 ∨ r.HasRead place written := by
  show (∃ last ∈ w.lastIo place, written ≤ last.1) ↔ _
  by_cases hplace : place = path
  · subst hplace
    simp only [hio, Function.update_self, Option.mem_def, Option.some.injEq, exists_eq_left',
      true_and]
    exact le_newerIo
  · simp only [hio, Function.update_of_ne hplace, hplace, false_and, false_or]
    exact Iff.rfl

/-- A reload is applied to the tab of its path. -/
theorem Caught.applied (h : Caught encodings r) {index : Nat} {path : PathBuf}
    {io : Nat × List UInt8} (hindex : r.watched.reloads[index]? = some ⟨path, some io⟩)
    (hsafe : r.ExternalStep encodings (.watch (.finishReload index)))
    {tab : EditorTab} (htab : tab ∈ r.watched.session.tabs) (hloc : tab.location = .localPath path)
    {w : WatchedSession} (hclock : w.clock = r.watched.clock)
    (hsaves : w.session.inflightSaves = r.watched.session.inflightSaves)
    (hdisk : w.session.disk = r.watched.session.disk)
    (hreloads : w.reloads = r.watched.reloads.eraseIdx index)
    (hio : w.lastIo = Function.update r.watched.lastIo path
      (some (WatchedSession.newerIo (r.watched.lastIo path) io)))
    (htabs : w.session.tabs = updateEditorTab r.watched.session.tabs tab.id fun tab =>
      tab.applyReload (detectEncodingAndDecode encodings io.2)) :
    Caught encodings (r.after (.finishReload index) w) := by
  have hf := keepsPlace_applyReload (detectEncodingAndDecode encodings io.2)
  have hguard := hsafe _ hindex io rfl
  obtain ⟨-, hseen⟩ := h.dated.reads _ (List.mem_of_getElem? hindex) io rfl
  have hnoted := @hasRead_noted r (.finishReload index) path io w hio
  have hnewest : ∀ written ∈ r.externalAt path, r.HasRead path written → written ≤ io.1 := by
    rintro written hwritten ⟨last, hlast, hle⟩
    exact (hguard written hwritten).1 last hlast hle
  have horigin : ∀ next ∈ w.session.tabs, ∃ old ∈ r.watched.session.tabs,
      old.filePath = next.filePath ∧ ((old.id = tab.id ∧ next = old.applyReload
        (detectEncodingAndDecode encodings io.2)) ∨ (old.id ≠ tab.id ∧ next = old)) := by
    intro next hnext
    rw [htabs] at hnext
    rcases mem_updateEditorTab hnext with ⟨old, hold, ⟨hid, rfl⟩ | ⟨hid, rfl⟩⟩
    · exact ⟨old, hold, rfl, Or.inl ⟨hid, rfl⟩⟩
    · exact ⟨next, hold, rfl, Or.inr ⟨hid, rfl⟩⟩
  constructor
  · exact h.dated.applied hindex hclock hdisk hreloads hio
  · exact h.placed.updateTab hf htabs hsaves
  · intro next hnext place hpath htold written hwritten
    obtain ⟨old, hold, hsame, -⟩ := horigin next hnext
    have hwaits := h.pending old hold place (hsame.trans hpath) (caught_after_finish htold) written
      hwritten
    by_cases hplace : place = path
    · subst hplace
      by_cases hle : written ≤ io.1
      · exact Or.inr ((hnoted place written).mpr (Or.inl ⟨rfl, hle⟩))
      · rcases hwaits with hawait | hread
        · left
          refine hawait.eraseIdx (fun reload hreload _ => ?_) hreloads
          rw [hindex] at hreload
          cases hreload
          exact ⟨io, rfl, Nat.lt_of_not_le hle⟩
        · exact absurd (hnewest written hwritten hread) hle
    · rcases hwaits with hawait | hread
      · left
        refine hawait.eraseIdx (fun reload hreload hat => ?_) hreloads
        rw [hindex] at hreload
        cases hreload
        exact absurd hat.symm hplace
      · exact Or.inr ((hnoted place written).mpr (Or.inr hread))
  · intro next hnext place hpath written hwritten hread bytes hbytes
    obtain ⟨old, hold, hsame, hnext'⟩ := horigin next hnext
    have holdPath : old.filePath = some place := hsame.trans hpath
    show Shown _ (w.session.inflightSaves next.id) next
    have hbytes' : bytes ∈ (w.session.disk place).contents := hbytes
    rw [hdisk] at hbytes'
    rw [hsaves]
    by_cases hplace : place = path
    · subst hplace
      have hle : written ≤ io.1 := by
        rcases (hnoted place written).mp hread with ⟨-, hle⟩ | hbefore
        · exact hle
        · exact hnewest written hwritten hbefore
      rw [hseen written hwritten hle] at hbytes'
      cases hbytes'
      rcases hnext' with ⟨hid, rfl⟩ | ⟨hid, rfl⟩
      · rw [hf.id old]
        exact .reloaded _ ((hguard written hwritten).2 hle old hold holdPath)
      · exact absurd (congrArg EditorTab.id (h.placed.apart.paths next hold tab htab place
          (filePath_eq_some.mp holdPath) hloc)) hid
    · rcases hnext' with ⟨hid, rfl⟩ | ⟨hid, rfl⟩
      · have hequal : old = tab := h.placed.apart.ids old hold tab htab hid
        rw [hequal, filePath_eq_some, hloc] at holdPath
        cases holdPath
        exact absurd rfl hplace
      · have hbefore := ((hnoted place written).mp hread).resolve_left fun h => hplace h.1
        exact h.shown next hold place hpath written hwritten hbefore bytes hbytes'

theorem Caught.finish (h : Caught encodings r) {index : Nat} {w : WatchedSession}
    (hsafe : r.ExternalStep encodings (.watch (.finishReload index)))
    (hfinish : r.watched.finishReload encodings index = some w) :
    Caught encodings (r.after (.finishReload index) w) := by
  unfold WatchedSession.finishReload at hfinish
  split at hfinish
  · rename_i path io hindex
    cases hfinish
    unfold WatchedSession.applyReloadedContents
    cases hfind : findTabByPath r.watched.session.tabs path with
    | none =>
        dsimp only
        apply h.next
        · refine h.dated.next (Nat.le_refl _) (fun _ _ hio => Or.inl hio) ?_ ?_
          · exact fun _ _ hwritten => ⟨hwritten, rfl⟩
          · exact fun reload hreload => Or.inl (List.mem_of_mem_eraseIdx hreload)
        · exact h.placed.frame rfl rfl
        · exact fun _ _ hwritten => ⟨hwritten, rfl, rfl⟩
        · exact fun next hnext _ hpath _ => ⟨next, hnext, hpath, .refl rfl⟩
        · intro tab htab place hpath written hwritten hawait
          refine hawait.eraseIdx (fun reload hreload hplace => ?_) rfl
          rw [hindex] at hreload
          cases hreload
          have hsame : path = place := hplace
          subst hsame
          exact absurd (filePath_eq_some.mp hpath) (findTabByPath_none hfind tab htab)
        · exact fun place htold => Or.inl (caught_after_finish htold)
    | some tab =>
        obtain ⟨htab, hloc⟩ := findTabByPath_some hfind
        exact h.applied hindex hsafe htab hloc rfl rfl rfl rfl rfl rfl
  · cases hfinish

/-! ## Runs -/

theorem Caught.watchStep (h : Caught encodings r) {action : WatchAction} {w : WatchedSession}
    (hsafe : r.ExternalStep encodings (.watch action))
    (hstep : r.watched.step encodings parse action = some w) :
    Caught encodings (r.after action w) := by
  cases action with
  | session action =>
      obtain ⟨s, hsession, rfl⟩ := Option.map_eq_some_iff.mp hstep
      exact h.sessionStep hsafe (Session.transition_of_step hsession)
  | external path file =>
      cases hstep
      exact h.external path file
  | readReload index =>
      obtain ⟨-, hread⟩ := Option.ite_none_left_eq_some.mp hstep
      exact h.read hread
  | event event recent =>
      obtain ⟨-, hevent⟩ := Option.ite_none_right_eq_some.mp hstep
      cases hevent
      exact h.event hsafe
  | setActiveTab tabId =>
      obtain ⟨-, hactive⟩ := Option.ite_none_right_eq_some.mp hstep
      cases hactive
      refine h.told (told_setActiveTab r.watched tabId) rfl fun path hpath => ?_
      rcases (Bool.or_eq_true _ _).mp hpath with hbefore | hnow
      · exact Or.inl hbefore
      · cases of_decide_eq_true hnow
  | answerConflict path load =>
      obtain ⟨-, hanswer⟩ := Option.ite_none_right_eq_some.mp hstep
      refine h.told (told_answerConflict hanswer) rfl fun place hplace => ?_
      rcases (Bool.or_eq_true _ _).mp hplace with hbefore | hnow
      · exact Or.inl hbefore
      · exact Or.inr (mem_reloads_of_answer hanswer (of_decide_eq_true hnow))
  | reloadReopened tabId path =>
      obtain ⟨-, hreload⟩ := Option.ite_none_right_eq_some.mp hstep
      cases hreload
      refine h.told (told_reloadWatchedTabById r.watched tabId path) rfl fun place hplace => ?_
      rcases (Bool.or_eq_true _ _).mp hplace with hbefore | hnow
      · exact Or.inl hbefore
      · right
        obtain ⟨hopen, hsame⟩ := Option.ite_none_right_eq_some.mp (of_decide_eq_true hnow)
        cases hsame
        rw [reloadWatchedTabById_of_place hopen]
        exact mem_reloadTabFromDisk r.watched path
  | finishReload index =>
      obtain ⟨-, hfinish⟩ := Option.ite_none_right_eq_some.mp hstep
      exact h.finish hsafe hfinish

theorem Caught.step (h : Caught encodings r) {action : ExternalAction}
    (hsafe : r.ExternalStep encodings action) (hstep : r.step encodings parse action = some r') :
    Caught encodings r' := by
  cases action with
  | wait elapsed =>
      cases hstep
      exact ⟨⟨h.dated.io, h.dated.written, h.dated.reads⟩, h.placed, h.pending, h.shown⟩
  | watch action =>
      obtain ⟨-, hwatched⟩ := Option.ite_none_right_eq_some.mp hstep
      obtain ⟨w, hw, rfl⟩ := Option.map_eq_some_iff.mp hwatched
      exact h.watchStep hsafe hw

theorem Caught.showsExternal (h : Caught encodings r) : r.ShowsExternal encodings r.caught := by
  intro tab htab path hpath hexternal htold hclean hsettled bytes hbytes
  obtain ⟨hidle, hdone⟩ := hsettled
  obtain ⟨written, hwritten⟩ := Option.ne_none_iff_exists'.mp hexternal
  rcases h.pending tab htab path hpath htold written hwritten with
    ⟨reload, hreload, hsame, -⟩ | hread
  · exact absurd hsame (hdone reload hreload)
  · have hshown := h.shown tab htab path hpath written hwritten hread bytes hbytes
    rw [hidle] at hshown
    exact hshown.flag nofun hclean

end ExternalTrace

open ExternalTrace

/--
In every run that meets the condition, an unmodified tab shows what another
program wrote to its file last, once a reload that was to read the file after the
write, and every other reload and save, has completed, unless a later save landed.
-/
theorem external_writes_shown {disk : Disk} {persisted : List TabState}
    {actions : List ExternalAction} {r : ExternalTrace}
    (hrun : run (ExternalTrace.step encodings parse) (ExternalTrace.launched disk persisted)
      actions = some r)
    (hguard : Guarded (ExternalTrace.step encodings parse) (ExternalStep encodings)
      (ExternalTrace.launched disk persisted) actions) :
    r.ShowsExternal encodings r.caught :=
  (invariant_of_guarded (Caught encodings) (fun _ _ _ h hsafe hstep => h.step hsafe hstep)
    (caught_launched disk persisted) hguard hrun).showsExternal

/-- Another program writes the text to the file `/n`. -/
def sampleWritten (text : String) : ExternalAction :=
  .watch (.external ⟨asBytes "/n"⟩ ⟨true, none, true, some (asBytes text)⟩)

def sampleModified (recent : Bool) : ExternalAction :=
  .watch (.event (.modified ⟨asBytes "/n"⟩) recent)

def sampleTaken : List ExternalAction :=
  [.watch (.session (.openFile 0 ⟨asBytes "/n"⟩)), sampleWritten "ab", sampleModified false,
    .watch (.readReload 0), .watch (.finishReload 0)]

/-- A second change comes after the window of the first, with edits around its event. -/
def sampleTwice : List ExternalAction :=
  sampleTaken ++ [.wait 500, sampleWritten "b", .watch (.session (.edit 0 (.ofText "abb"))),
    .watch (.session (.replace 0 (.ofText "ac"))), .watch (.session (.edit 0 (.ofText "ab"))),
    sampleModified false, .watch (.readReload 0),
    .watch (.finishReload 0), .watch (.session (.edit 0 (.ofText "a"))),
    .watch (.session (.edit 0 (.ofText "b")))]

theorem external_writes_shown_sample :
    ∃ r, run (ExternalTrace.step sampleEncodings sampleParse)
        (ExternalTrace.launched sampleDisk []) sampleTwice = some r ∧
      r.ShowsExternal sampleEncodings r.caught ∧ r.caught ⟨asBytes "/n"⟩ = true ∧
        r.watched.session.tabs.map (fun tab => (tab.content.toText, tab.modified)) =
          [("b", false)] := by
  obtain ⟨r, hrun, hcaught, htext⟩ :
      ∃ r, run (ExternalTrace.step sampleEncodings sampleParse)
          (ExternalTrace.launched sampleDisk []) sampleTwice = some r ∧
        r.caught ⟨asBytes "/n"⟩ = true ∧
          r.watched.session.tabs.map (fun tab => (tab.content.toText, tab.modified)) =
            [("b", false)] :=
    exists_of_any (by decide +kernel)
  have hguard : Guarded (ExternalTrace.step sampleEncodings sampleParse)
      (ExternalStep sampleEncodings) (ExternalTrace.launched sampleDisk []) sampleTwice :=
    Guarded.of_guardedRun (by decide +kernel)
  exact ⟨r, hrun, external_writes_shown hrun hguard, hcaught, htext⟩

/--
The event of the last write comes in the window of an earlier event, in that of a
save, while a save is in flight, or while the tab is modified by an edit that is
then undone; or an earlier read is applied last.
-/
def sampleMissed : List (List ExternalAction) :=
  let opened : List ExternalAction := [.watch (.session (.openFile 0 ⟨asBytes "/n"⟩))]
  let saved : List ExternalAction := opened ++ [.watch (.session (.edit 0 (.ofText "ab"))),
    .watch (.session (.save 0)), .watch (.session (.write 0 true none))]
  [sampleTaken ++ [.wait 100, sampleWritten "b", sampleModified true],
    saved ++ [.watch (.session (.complete 0)), .wait 100, sampleWritten "b", sampleModified true],
    saved ++ [sampleWritten "b", sampleModified false, .watch (.session (.complete 0))],
    opened ++ [.watch (.session (.edit 0 (.ofText "ab"))), sampleWritten "b", sampleModified false,
      .watch (.session (.edit 0 (.ofText "a")))],
    opened ++ [sampleWritten "ab", sampleModified false, .watch (.readReload 0), .wait 500,
      sampleWritten "b", sampleModified false, .watch (.readReload 1), .watch (.finishReload 1),
      .watch (.finishReload 0)]]

/-- Although an event was handled after the last write, the tab shows another text, unmodified. -/
theorem external_writes_missed :
    ∃ missed, sampleMissed.mapM (run (ExternalTrace.step sampleEncodings sampleParse)
        (ExternalTrace.launched sampleDisk [])) = some missed ∧
      ∀ r ∈ missed, ¬ r.ShowsExternal sampleEncodings r.heard ∧ r.watched.reloads = [] ∧
        r.watched.session.disk ⟨asBytes "/n"⟩ = ⟨true, none, true, some (asBytes "b")⟩ :=
  exists_of_any (by decide +kernel)

end Fulgur
