import Fulgur.Files.ReloadOrder

/-! # Changes made by other programs

An event of a path is ignored when another one was handled, or a save of the
application completed, less than half a second before, and while a save to the
path is in flight. A trace adds the times of both to a watched session, and notes
of each path when another program wrote it last, whether an event was handled
since, and whether a reload reads the file after that write.
-/

namespace Fulgur

open LabelledRun
open Session (IsBaseline)

/-- The window in which an event is a duplicate or an echo of a save, in milliseconds. -/
def FILE_WATCH_DEBOUNCE : Nat := 500

/-- A watched session with the times of its windows and what other programs wrote. -/
structure ExternalTrace where
  watched : WatchedSession
  now : Nat
  lastFileEvents : PathBuf → Option Nat
  lastFileSaves : PathBuf → Option Nat
  /-- The clock at the last write of another program, if no later save landed. -/
  externalAt : PathBuf → Option Nat
  /-- Whether an event was handled after that write. -/
  heard : PathBuf → Bool
  /-- Whether a reload was to read the file after that write. -/
  caught : PathBuf → Bool

inductive ExternalAction where
  | wait (elapsed : Nat)
  /-- A step of the session; whether an event is recent is what the times say. -/
  | watch (action : WatchAction)

namespace ExternalTrace

def launched (disk : Disk) (persisted : List TabState) : ExternalTrace where
  watched := WatchedSession.launched disk persisted
  now := 0
  lastFileEvents := fun _ => none
  lastFileSaves := fun _ => none
  externalAt := fun _ => none
  heard := fun _ => false
  caught := fun _ => false

/-! ## The windows -/

def isRecent (r : ExternalTrace) (path : PathBuf) : Bool :=
  (r.lastFileEvents path).any (fun lastTime => r.now - lastTime < FILE_WATCH_DEBOUNCE) ||
    (r.lastFileSaves path).any fun saveTime => r.now - saveTime < FILE_WATCH_DEBOUNCE

/-- The flag of an event agrees with the times. -/
def isTimed (r : ExternalTrace) : WatchAction → Bool
  | .event (.modified path) recent => recent = r.isRecent path
  | .event (.deleted path) recent => recent = r.isRecent path
  | .event (.renamed source _) recent => recent = r.isRecent source
  | _ => true

def landedPath (s : Session) (tabId : Nat) : Option PathBuf :=
  (s.inflightSaves tabId).bind fun save =>
    if save.writeResult = some true then some save.completion.path else none

def movesTab (w : WatchedSession) (source : PathBuf) (recent : Bool) : Bool :=
  !w.shouldSuppressFileWatchEvent source recent && (findTabByPath w.session.tabs source).isSome

/-- An event that is not suppressed is noted; a renewed watch forgets the events of its path. -/
def eventsAfter (r : ExternalTrace) : WatchAction → PathBuf → Option Nat
  | .event (.modified path) recent =>
      if r.watched.shouldSuppressFileWatchEvent path recent then r.lastFileEvents
      else Function.update r.lastFileEvents path (some r.now)
  | .event (.deleted path) recent =>
      if r.watched.shouldSuppressFileWatchEvent path recent then r.lastFileEvents
      else Function.update r.lastFileEvents path (some r.now)
  | .event (.renamed source _) recent =>
      if r.watched.shouldSuppressFileWatchEvent source recent then r.lastFileEvents
      else if movesTab r.watched source recent then Function.update r.lastFileEvents source none
      else Function.update r.lastFileEvents source (some r.now)
  | .session (.complete tabId) =>
      match landedPath r.watched.session tabId with
      | some path => Function.update r.lastFileEvents path none
      | none => r.lastFileEvents
  | _ => r.lastFileEvents

def savesAfter (r : ExternalTrace) : WatchAction → PathBuf → Option Nat
  | .event (.deleted path) recent =>
      -- the watch on a replaced file is renewed
      if !r.watched.shouldSuppressFileWatchEvent path recent &&
          (r.watched.session.disk path).isPresent then
        Function.update r.lastFileSaves path none
      else r.lastFileSaves
  | .event (.renamed source _) recent =>
      if movesTab r.watched source recent then Function.update r.lastFileSaves source none
      else r.lastFileSaves
  | .session (.complete tabId) =>
      match landedPath r.watched.session tabId with
      | some path => Function.update r.lastFileSaves path (some r.now)
      | none => r.lastFileSaves
  | _ => r.lastFileSaves

/-! ## What other programs wrote -/

def takenPath (s : Session) : SessionAction → Option PathBuf
  | .openFile _ path => some path
  | .restoreTab state => state.filePath
  | .write tabId true _ => (s.inflightSaves tabId).map fun save => save.completion.path
  | _ => none

def externalAfter (r : ExternalTrace) : WatchAction → PathBuf → Option Nat
  | .external path file =>
      Function.update r.externalAt path (file.contents.map fun _ => r.watched.clock)
  | .session action =>
      match takenPath r.watched.session action with
      | some path => Function.update r.externalAt path none
      | none => r.externalAt
  | _ => r.externalAt

def heardAfter (r : ExternalTrace) : WatchAction → PathBuf → Bool
  | .external path _ => Function.update r.heard path false
  | .event (.modified path) _ => Function.update r.heard path true
  | .event (.deleted path) _ => Function.update r.heard path true
  | _ => r.heard

def isClean (w : WatchedSession) (path : PathBuf) : Bool :=
  (findTabByPath w.session.tabs path).any fun tab => !tab.modified

def hasPlace (w : WatchedSession) (tabId : Nat) (path : PathBuf) : Bool :=
  w.session.tabs.any fun tab => tab.id = tabId ∧ tab.filePath = some path

/--
The path that a step has read again: an event outside the windows finds its tab
unmodified, or the user has the file loaded.
-/
def reloadedPath (w : WatchedSession) : WatchAction → Option PathBuf
  | .event (.modified path) recent =>
      if !w.shouldSuppressFileWatchEvent path recent && isClean w path then some path else none
  | .event (.deleted path) recent =>
      if !w.shouldSuppressFileWatchEvent path recent && (w.session.disk path).isPresent &&
          isClean w path then some path
      else none
  | .answerConflict path true =>
      if (w.openConflictDialogs.find? fun dialog => dialog.1 = path).any
          fun dialog => hasPlace w dialog.2 path then some path
      else none
  | .reloadReopened tabId path => if hasPlace w tabId path then some path else none
  | _ => none

def caughtAfter (r : ExternalTrace) (action : WatchAction) : PathBuf → Bool :=
  match action with
  | .external path _ =>
      -- a reload that is still to read will see the write
      Function.update r.caught path
        (r.watched.reloads.any fun reload => reload.path = path ∧ reload.readResult = none)
  | action => fun path => r.caught path || reloadedPath r.watched action = some path

/-! ## Steps -/

def after (r : ExternalTrace) (action : WatchAction) (w : WatchedSession) : ExternalTrace where
  watched := w
  now := r.now
  lastFileEvents := r.eventsAfter action
  lastFileSaves := r.savesAfter action
  externalAt := r.externalAfter action
  heard := r.heardAfter action
  caught := r.caughtAfter action

def step (encodings : Encodings) (parse : String → Option Int) (r : ExternalTrace) :
    ExternalAction → Option ExternalTrace
  | .wait elapsed => some { r with now := r.now + elapsed }
  | .watch action =>
      if r.isTimed action then (r.watched.step encodings parse action).map (r.after action)
      else none

/-! ## What a run keeps, and under which steps -/

/-- No reload of the path and no save of the tab is on its way. -/
def Settled (r : ExternalTrace) (tab : EditorTab) (path : PathBuf) : Prop :=
  r.watched.session.inflightSaves tab.id = none ∧
    ∀ reload ∈ r.watched.reloads, reload.path ≠ path

instance (r : ExternalTrace) (tab : EditorTab) (path : PathBuf) : Decidable (r.Settled tab path) :=
  inferInstanceAs (Decidable (_ ∧ _))

/--
An unmodified tab shows what another program wrote last, if that is later than the
last save and the path is one of those the application was told of.
-/
def ShowsExternal (encodings : Encodings) (r : ExternalTrace) (told : PathBuf → Bool) : Prop :=
  ∀ tab ∈ r.watched.session.tabs, ∀ path ∈ tab.filePath, r.externalAt path ≠ none →
    told path = true → tab.modified = false → r.Settled tab path →
      ∀ bytes ∈ (r.watched.session.disk path).contents,
        tab.content.toText = (detectEncodingAndDecode encodings bytes).content

instance (encodings : Encodings) (r : ExternalTrace) (told : PathBuf → Bool) :
    Decidable (r.ShowsExternal encodings told) :=
  inferInstanceAs (Decidable (∀ tab ∈ r.watched.session.tabs, ∀ path ∈ tab.filePath,
    r.externalAt path ≠ none → told path = true → tab.modified = false → r.Settled tab path →
      ∀ bytes ∈ (r.watched.session.disk path).contents, _))

/--
What a run must keep to: each path is open in one tab; no edit leaves a text that
only shares the fingerprint of the file's; no replacement changes an unmodified
buffer; a tab moves to a path that is new to the application; and once a read has
seen what another program wrote last, no earlier read is applied after it, and none
that has seen it while a save of the tab is to land.
-/
def ExternalStep (encodings : Encodings) (r : ExternalTrace) : ExternalAction → Prop
  | .watch (.session (.openFile _ path)) =>
      ∀ tab ∈ r.watched.session.tabs, tab.location ≠ .localPath path
  | .watch (.session (.restoreTab state)) =>
      ∀ path ∈ state.filePath, ∀ tab ∈ r.watched.session.tabs, tab.location ≠ .localPath path
  | .watch (.session (.edit tabId content)) =>
      ∀ tab ∈ r.watched.session.tabs, tab.id = tabId → tab.largeFile = false →
        ∀ path ∈ tab.filePath, ∀ bytes ∈ (r.watched.session.disk path).contents,
          contentFingerprintFromStr content.toText =
              contentFingerprintFromStr (detectEncodingAndDecode encodings bytes).content →
            content.toText = (detectEncodingAndDecode encodings bytes).content
  | .watch (.session (.replace tabId content)) =>
      ∀ tab ∈ r.watched.session.tabs, tab.id = tabId →
        (tab.modified = true ∨ content.toText = tab.content.toText) ∧
          (tab.largeFile = false → ∀ path ∈ tab.filePath,
            ∀ bytes ∈ (r.watched.session.disk path).contents,
              contentFingerprintFromStr content.toText =
                  contentFingerprintFromStr (detectEncodingAndDecode encodings bytes).content →
                content.toText = (detectEncodingAndDecode encodings bytes).content)
  | .watch (.event (.renamed source target) recent) =>
      movesTab r.watched source recent = true → r.watched.lastIo target = none ∧
        r.caught target = false ∧
          ∀ other ∈ r.watched.session.tabs, other.location ≠ .localPath target
  | .watch (.finishReload index) =>
      ∀ reload ∈ r.watched.reloads[index]?, ∀ io ∈ reload.readResult,
        ∀ written ∈ r.externalAt reload.path,
          (∀ last ∈ r.watched.lastIo reload.path, written ≤ last.1 → written ≤ io.1) ∧
          (written ≤ io.1 → ∀ tab ∈ r.watched.session.tabs, tab.filePath = some reload.path →
            ∀ save ∈ r.watched.session.inflightSaves tab.id, save.writeResult = some true)
  | _ => True

instance (encodings : Encodings) (r : ExternalTrace) (action : ExternalAction) :
    Decidable (r.ExternalStep encodings action) :=
  match action with
  | .watch (.session (.openFile _ _)) => by dsimp only [ExternalStep]; infer_instance
  | .watch (.session (.restoreTab _)) => by dsimp only [ExternalStep]; infer_instance
  | .watch (.session (.edit _ _)) => by
      dsimp only [ExternalStep]
      exact @List.decidableBAll _ _ (fun _ => instDecidableForall) _
  | .watch (.session (.replace _ _)) => by
      dsimp only [ExternalStep]
      exact @List.decidableBAll _ _ (fun _ => instDecidableForall) _
  | .watch (.event (.renamed _ _) _) => by dsimp only [ExternalStep]; infer_instance
  | .watch (.finishReload _) => by dsimp only [ExternalStep]; infer_instance
  | .wait _ | .watch (.session (.save _)) | .watch (.session (.write _ _ _))
  | .watch (.session (.complete _)) | .watch (.session .saveStateAsync)
  | .watch (.session (.flush _)) | .watch (.session (.quit _)) | .watch (.session .exit)
  | .watch (.external _ _) | .watch (.event (.modified _) _) | .watch (.event (.deleted _) _)
  | .watch (.event (.error _) _) | .watch (.setActiveTab _)
  | .watch (.answerConflict _ _) | .watch (.reloadReopened _ _)
  | .watch (.readReload _) => isTrue trivial

end ExternalTrace

/-! ## A tab that shows its file -/

/-- A tab, with its save, whose file was read and not written by the application since. -/
structure Shown (text : String) (inflight : Option BackgroundSave) (tab : EditorTab) : Prop where
  distinct : tab.largeFile = false →
    contentFingerprintFromStr tab.content.toText = contentFingerprintFromStr text →
      tab.content.toText = text
  baseline : (∀ save ∈ inflight, save.writeResult = some true) → tab.largeFile = false →
    IsBaseline tab text
  flag : (∀ save ∈ inflight, save.writeResult = some true) → tab.modified = false →
    tab.content.toText = text
  /-- A save that may fail goes back to the text of the file. -/
  pending : ∀ save ∈ inflight, save.writeResult ≠ some true →
    ∃ baseline ∈ save.completion.previousBaseline,
      (tab.largeFile = false → contentFingerprintFromStr text = (baseline.hash, baseline.len)) ∧
      (tab.largeFile = true → baseline.modified = false → tab.modified = false →
        tab.content.toText = text)

namespace Shown

variable {text : String} {inflight : Option BackgroundSave} {tab : EditorTab}
  {save : BackgroundSave}

theorem edit (h : Shown text inflight tab) {content : Rope}
    (hdistinct : tab.largeFile = false →
      contentFingerprintFromStr content.toText = contentFingerprintFromStr text →
        content.toText = text) :
    Shown text inflight (tab.edit content) := by
  cases hlarge : tab.largeFile with
  | true =>
      have hedit : tab.edit content = { tab with content := content, modified := true } := by
        simp [EditorTab.edit, EditorTab.onContentChange, hlarge]
      rw [hedit]
      refine ⟨fun hsmall => ?_, fun hlanded => h.baseline hlanded, fun _ hclean => ?_,
        fun save hsave hopen => ?_⟩
      · rw [hlarge] at hsmall
        cases hsmall
      · cases hclean
      · obtain ⟨baseline, hbaseline, hsame, -⟩ := h.pending save hsave hopen
        exact ⟨baseline, hbaseline, hsame, fun _ _ hclean => Bool.noConfusion hclean⟩
  | false =>
      have hedit : tab.edit content = { tab with content := content }.checkModified := by
        simp [EditorTab.edit, EditorTab.onContentChange, hlarge]
      rw [hedit]
      refine ⟨fun _ => hdistinct hlarge, fun hlanded => h.baseline hlanded, ?_, ?_⟩
      · intro hlanded hclean
        have hbuffer : IsBaseline tab content.toText :=
          isBaseline_of_checkModified { tab with content := content } hlarge hclean
        exact hdistinct hlarge (hbuffer.trans (h.baseline hlanded hlarge).symm)
      · intro save hsave hopen
        obtain ⟨baseline, hbaseline, hsame, -⟩ := h.pending save hsave hopen
        refine ⟨baseline, hbaseline, hsame, fun hnot => ?_⟩
        have hnot' : tab.largeFile = true := hnot
        rw [hlarge] at hnot'
        cases hnot'

/-- A replacement leaves the flag: it may change the text of a modified tab only. -/
theorem setValue (h : Shown text inflight tab) {content : Rope}
    (hkept : tab.modified = true ∨ content.toText = tab.content.toText)
    (hdistinct : tab.largeFile = false →
      contentFingerprintFromStr content.toText = contentFingerprintFromStr text →
        content.toText = text) :
    Shown text inflight (tab.setValue content) := by
  have hclean : tab.modified = false → content.toText = tab.content.toText := by
    intro hbefore
    rcases hkept with hmodified | hsame
    · rw [hmodified] at hbefore
      cases hbefore
    · exact hsame
  refine ⟨hdistinct, h.baseline, ?_, ?_⟩
  · intro hlanded hbefore
    exact (hclean hbefore).trans (h.flag hlanded hbefore)
  · intro save hsave hopen
    obtain ⟨baseline, hbaseline, hsame, hlarge⟩ := h.pending save hsave hopen
    refine ⟨baseline, hbaseline, hsame, fun hmode hold hbefore => ?_⟩
    exact (hclean hbefore).trans (hlarge hmode hold hbefore)

/-- A save keeps the old baseline to go back to. -/
theorem saved (h : Shown text none tab) (hopen : save.writeResult = none)
    (hbaseline : save.completion.previousBaseline = some tab.savedBaseline) :
    Shown text (some save) tab.markAsSaved where
  distinct := h.distinct
  baseline hlanded := by
    have hwritten := hlanded save rfl
    rw [hopen] at hwritten
    cases hwritten
  flag hlanded := by
    have hwritten := hlanded save rfl
    rw [hopen] at hwritten
    cases hwritten
  pending := by
    intro other hother _
    cases hother
    refine ⟨tab.savedBaseline, hbaseline, h.baseline nofun, fun _ hclean _ => ?_⟩
    exact h.flag nofun hclean

theorem writeFailed (h : Shown text (some save) tab) (hopen : save.writeResult = none) :
    Shown text (some { save with writeResult := some false }) tab where
  distinct := h.distinct
  baseline hlanded := by
    have hwritten := hlanded _ rfl
    cases hwritten
  flag hlanded := by
    have hwritten := hlanded _ rfl
    cases hwritten
  pending := by
    intro other hother _
    cases hother
    exact h.pending save rfl (by simp [hopen])

theorem completed (h : Shown text (some save) tab) (hlanded : save.writeResult = some true) :
    Shown text none tab := by
  have hall : ∀ other ∈ some save, other.writeResult = some true := by
    intro other hother
    cases hother
    exact hlanded
  exact ⟨h.distinct, fun _ => h.baseline hall, fun _ => h.flag hall, nofun⟩

/-- A failed save goes back to the baseline of the file's text and recomputes the flag. -/
theorem rolledBack (h : Shown text (some save) tab) (hfailed : save.writeResult = some false) :
    Shown text none (handleFailedSave save.completion tab) := by
  obtain ⟨baseline, hbaseline, hsame, hkept⟩ := h.pending save rfl (by simp [hfailed])
  cases hlarge : tab.largeFile with
  | true =>
      have hrolled : handleFailedSave save.completion tab = { tab with
          originalContentHash := baseline.hash
          originalContentLen := baseline.len
          modified := baseline.modified || tab.modified } := by
        unfold handleFailedSave
        rw [Option.mem_def.mp hbaseline]
        simp [hlarge]
      rw [hrolled]
      refine ⟨h.distinct, fun _ hsmall => ?_, fun _ hclean => ?_, nofun⟩
      · rw [hlarge] at hsmall
        cases hsmall
      · obtain ⟨hbefore, hafter⟩ := Bool.or_eq_false_iff.mp hclean
        exact hkept hlarge hbefore hafter
  | false =>
      have hrolled : handleFailedSave save.completion tab = { tab with
          originalContentHash := baseline.hash
          originalContentLen := baseline.len }.checkModified := by
        unfold handleFailedSave
        rw [Option.mem_def.mp hbaseline]
        simp [hlarge]
      rw [hrolled]
      refine ⟨h.distinct, fun _ _ => hsame hlarge, fun _ hclean => ?_, nofun⟩
      have hbuffer : contentFingerprintFromStr tab.content.toText = (baseline.hash, baseline.len) :=
        isBaseline_of_checkModified
          { tab with originalContentHash := baseline.hash, originalContentLen := baseline.len }
          hlarge hclean
      exact h.distinct hlarge (hbuffer.trans (hsame hlarge).symm)

theorem marked (h : Shown text inflight tab) :
    Shown text inflight { tab with modified := true } where
  distinct := h.distinct
  baseline := h.baseline
  flag := nofun
  pending save hsave hopen := by
    obtain ⟨baseline, hbaseline, hsame, -⟩ := h.pending save hsave hopen
    exact ⟨baseline, hbaseline, hsame, nofun⟩

theorem reloaded (decoded : DecodedContents)
    (hlanded : ∀ save ∈ inflight, save.writeResult = some true) :
    Shown decoded.content inflight (tab.applyReload decoded) where
  distinct := by
    intro _ _
    simp [EditorTab.applyReload, EditorTab.setOriginalContentFromStr]
  baseline := by
    intro _ hlarge
    have hsmall : tab.largeFile = false := hlarge
    simp [IsBaseline, EditorTab.applyReload, EditorTab.setOriginalContentFromStr, hsmall]
  flag := by
    intro _ _
    simp [EditorTab.applyReload, EditorTab.setOriginalContentFromStr]
  pending save hsave hopen := absurd (hlanded save hsave) hopen

end Shown

end Fulgur
