import Fulgur.Library.Run
import Fulgur.LogView.Polling

/-! # A log view mirrors its file

What a view shows and what waits in it are the last lines of the part of the
file that was consumed, if nothing else consumed bytes between the question for
the offset and the application of what was read from there, and if a view is
seeded from a buffer that holds the file.
-/

namespace Fulgur

open LabelledRun Pieces

/-- The cut of a view: none once the full file was requested. -/
def cutLog (full : Bool) (text : String) : String :=
  if full then text else (trimToLastLines text LOG_LINE_CAP).1

/--
The displayed text followed by the pending text: it ends where the consumed bytes
end, without a gap, and cut alike the two are the same.
-/
structure Mirrors (file : LogFile) (full : Bool) (display : String) (state : LogTailState) :
    Prop where
  consumed : state.byteOffset ≤ file.bytes.length
  contiguous : ∃ dropped, dropped ++ (display ++ state.pending) = file.textTo state.byteOffset
  same : cutLog full (display ++ state.pending) = cutLog full (file.textTo state.byteOffset)

/-- The offset a chunk that waits to be applied was read from. -/
def PollStage.readFrom : PollStage → Option Nat
  | .loaded offset _ => some offset
  | _ => none

namespace LogWindow

/-- Every log view mirrors the file of its tab. -/
def MirrorsFile (s : LogWindow) : Prop :=
  ∀ tabId tab path display state, s.tabs tabId = some tab → tab.filePath = some path →
    tab.logContent = some display → s.logTailState tabId = some state →
      Mirrors (s.files path) tab.logFull display state

/-- The text of the file up to the offset that a view seeded now starts from. -/
def seedText (s : LogWindow) (path : PathBuf) (found : Bool) : String :=
  (s.files path).textTo (if found then (s.files path).bytes.length else 0)

/--
A view is seeded from a buffer that holds the file, and a chunk is applied at the
offset it was read from.
-/
def MirrorStep (s : LogWindow) : LogAction → Prop
  | .openFile path content found =>
      opensAsLogByDefault path = true → content = s.seedText path found
  | .setActiveTab tabId found => ∀ tab ∈ s.tabs tabId, ∀ path ∈ tab.filePath,
      tab.logView = true → tab.logContent = none → tab.content = s.seedText path found
  | .toggleLogView found => ∀ active ∈ s.getActiveEditorTab, ∀ path ∈ active.2.filePath,
      active.2.logView = false → logToggleAvailable path = true →
        active.2.content = s.seedText path found
  | .applyChunk poll => ∀ task ∈ s.polls[poll]?, ∀ offset ∈ task.stage.readFrom,
      ∀ state ∈ s.logTailState task.tabId, state.byteOffset = offset
  | _ => True

instance (s : LogWindow) (action : LogAction) : Decidable (s.MirrorStep action) := by
  cases action <;> unfold MirrorStep <;> infer_instance

/-- A window before any log view was seeded. -/
structure Launched (s : LogWindow) : Prop where
  unseeded : ∀ tabId tab, s.tabs tabId = some tab → tab.logContent = none
  allocated : ∀ tabId, s.nextTabId ≤ tabId → s.tabs tabId = none
  noTail : ∀ tabId, s.logTailState tabId = none
  noPoll : s.polls = []

end LogWindow

/-! ## Cutting before and after an append -/

theorem cutLog_toList (text : String) :
    (cutLog false text).toList = lastPieces '\n' LOG_LINE_CAP text.toList :=
  trimToLastLines_eq text LOG_LINE_CAP

theorem cutLog_cutLog (full : Bool) (text : String) :
    cutLog full (cutLog full text) = cutLog full text := by
  cases full with
  | true => rfl
  | false =>
      apply String.toList_inj.mp
      rw [cutLog_toList, cutLog_toList, lastPieces_lastPieces]

theorem cutLog_append_congr {full : Bool} {first second : String}
    (h : cutLog full first = cutLog full second) (text : String) :
    cutLog full (first ++ text) = cutLog full (second ++ text) := by
  cases full with
  | true =>
      obtain rfl : first = second := h
      rfl
  | false =>
      have hpieces := congrArg String.toList h
      rw [cutLog_toList, cutLog_toList] at hpieces
      apply String.toList_inj.mp
      rw [cutLog_toList, cutLog_toList, String.toList_append, String.toList_append]
      exact lastPieces_append_congr hpieces text.toList

theorem cutLog_suffix (full : Bool) (text : String) :
    ∃ dropped, dropped ++ cutLog full text = text := by
  cases full with
  | true => exact ⟨"", String.empty_append⟩
  | false =>
      obtain ⟨dropped, hdropped⟩ := @lastPieces_suffix _ _ '\n' LOG_LINE_CAP text.toList
      refine ⟨String.ofList dropped, String.toList_inj.mp ?_⟩
      rw [String.toList_append, String.toList_ofList, cutLog_toList, hdropped]

namespace Mirrors

variable {file : LogFile} {full : Bool} {display : String} {state : LogTailState}

/-- The file may grow. -/
theorem append (h : Mirrors file full display state) (more : LogFile) :
    Mirrors (file.append more) full display state where
  consumed := by
    have hle := h.consumed
    simp only [LogFile.append, List.length_append]
    omega
  contiguous := by
    rw [file.textTo_append more h.consumed]
    exact h.contiguous
  same := by
    rw [file.textTo_append more h.consumed]
    exact h.same

theorem wait (h : Mirrors file full display state) {text : String} {newOffset : Nat}
    (hnew : newOffset ≤ file.bytes.length)
    (htext : file.textTo state.byteOffset ++ text = file.textTo newOffset) (dropped : Bool) :
    Mirrors file full display ⟨newOffset, dropped, state.pending ++ text⟩ where
  consumed := hnew
  contiguous := by
    obtain ⟨front, hfront⟩ := h.contiguous
    refine ⟨front, ?_⟩
    dsimp only
    rw [← htext, ← hfront]
    simp only [String.append_assoc]
  same := by
    dsimp only
    rw [← htext, ← String.append_assoc]
    exact cutLog_append_congr h.same text

/-- What waits is shown below the display. -/
theorem flush (h : Mirrors file full display state) (dropped : Bool) :
    Mirrors file full (appendLogToBottom newlineRope display state.pending full).1
      ⟨state.byteOffset, dropped, ""⟩ := by
  have hshown : (appendLogToBottom newlineRope display state.pending full).1 =
      cutLog full (display ++ state.pending) :=
        appendLogToBottom_eq byNewlines_newlineRope display state.pending full
  rw [hshown]
  refine ⟨h.consumed, ?_, ?_⟩
  · obtain ⟨front, hfront⟩ := h.contiguous
    obtain ⟨cut, hcut⟩ := cutLog_suffix full (display ++ state.pending)
    refine ⟨front ++ cut, ?_⟩
    rw [String.append_empty, String.append_assoc, hcut, hfront]
  · rw [String.append_empty, cutLog_cutLog, h.same]

theorem seed {offset : Nat} (hoffset : offset ≤ file.bytes.length) (full dropped : Bool) :
    Mirrors file full (cutLog full (file.textTo offset)) ⟨offset, dropped, ""⟩ where
  consumed := hoffset
  contiguous := by
    rw [String.append_empty]
    exact cutLog_suffix full _
  same := by
    rw [String.append_empty, cutLog_cutLog]

end Mirrors

/-! ## What is kept -/

/-- A tab with a tail state shows a display that mirrors its file; one without shows none. -/
def LogTab.Kept (files : PathBuf → LogFile) (tab : LogTab) : Option LogTailState → Prop
  | none => tab.logContent = none
  | some state => ∃ path display, tab.filePath = some path ∧ tab.logContent = some display ∧
      Mirrors (files path) tab.logFull display state ∧ (tab.logFollow = true → state.pending = "")

theorem LogTab.Kept.of_mirrors {files : PathBuf → LogFile} {tab : LogTab} {state : LogTailState}
    {path : PathBuf} {display : String} (hpath : tab.filePath = some path)
    (hdisplay : tab.logContent = some display)
    (hmirrors : Mirrors (files path) tab.logFull display state)
    (hfollow : tab.logFollow = true → state.pending = "") : tab.Kept files (some state) :=
  ⟨path, display, hpath, hdisplay, hmirrors, hfollow⟩

/-- What a poll task has read is what its file still has there. -/
def LogPoll.Reads (file : LogFile) : PollStage → Prop
  | .sleeping => True
  | .finished => True
  | .reading offset => offset ≤ file.bytes.length
  | .measured offset len => offset ≤ len ∧ len ≤ file.bytes.length
  | .loaded offset chunk => chunk.truncated = false ∧ chunk.newOffset ≤ file.bytes.length ∧
      offset ≤ chunk.newOffset ∧ file.textTo offset ++ chunk.text = file.textTo chunk.newOffset

structure LogKept (s : LogWindow) : Prop where
  views : ∀ tabId tab, s.tabs tabId = some tab → tab.Kept s.files (s.logTailState tabId)
  gone : ∀ tabId, s.tabs tabId = none → s.logTailState tabId = none
  allocated : ∀ tabId, s.nextTabId ≤ tabId → s.tabs tabId = none
  polls : ∀ task ∈ s.polls, LogPoll.Reads (s.files task.path) task.stage
  owners : ∀ task ∈ s.polls, task.tabId < s.nextTabId ∧
    ∀ tab, s.tabs task.tabId = some tab → tab.filePath = some task.path

variable {s s' : LogWindow} {tabId : Nat} {tab : LogTab}

theorem LogPoll.Reads.append {file : LogFile} {stage : PollStage} (h : LogPoll.Reads file stage)
    (more : LogFile) : LogPoll.Reads (file.append more) stage := by
  have hlength : (file.append more).bytes.length = file.bytes.length + more.bytes.length :=
    List.length_append
  cases stage with
  | sleeping => trivial
  | finished => trivial
  | reading offset =>
      have hoffset : offset ≤ file.bytes.length := h
      change offset ≤ _
      omega
  | measured offset len =>
      obtain ⟨hoffset, hlen⟩ := h
      refine ⟨hoffset, ?_⟩
      omega
  | loaded offset chunk =>
      obtain ⟨htruncated, hnew, hoffset, htext⟩ := h
      refine ⟨htruncated, by omega, hoffset, ?_⟩
      rw [file.textTo_append more (by omega), file.textTo_append more hnew]
      exact htext

theorem LogWindow.Launched.kept (h : s.Launched) : LogKept s where
  views id tab htab := by
    rw [h.noTail id]
    exact h.unseeded id tab htab
  gone id _ := h.noTail id
  allocated := h.allocated
  polls := by simp [h.noPoll]
  owners := by simp [h.noPoll]

namespace LogKept

theorem withActive (h : LogKept s) (active : Option Nat) (cancel : Nat → Option Nat) :
    LogKept { s with activeTabId := active, logTailCancel := cancel } :=
  ⟨h.views, h.gone, h.allocated, h.polls, h.owners⟩

/-- A tab changes together with its tail state. -/
theorem setView (h : LogKept s) (htab : s.tabs tabId = some tab) {tab' : LogTab}
    {tail : Option LogTailState} (hkept : tab'.Kept s.files tail)
    (hpath : tab'.filePath = tab.filePath) :
    LogKept { s with
      tabs := Function.update s.tabs tabId (some tab')
      logTailState := Function.update s.logTailState tabId tail } where
  views id other hother := by
    dsimp only at hother ⊢
    by_cases hid : id = tabId
    · subst hid
      rw [Function.update_self] at hother ⊢
      cases hother
      exact hkept
    · rw [Function.update_of_ne hid] at hother ⊢
      exact h.views id other hother
  gone id hid := by
    dsimp only at hid ⊢
    by_cases hsame : id = tabId
    · subst hsame
      rw [Function.update_self] at hid
      cases hid
    · rw [Function.update_of_ne hsame] at hid ⊢
      exact h.gone id hid
  allocated id hid := by
    have hnone := h.allocated id hid
    dsimp only
    rw [Function.update_of_ne]
    · exact hnone
    · rintro rfl
      rw [htab] at hnone
      cases hnone
  polls := h.polls
  owners task htask := by
    obtain ⟨hlt, howner⟩ := h.owners task htask
    refine ⟨hlt, fun other hother => ?_⟩
    dsimp only at hother
    by_cases hid : task.tabId = tabId
    · rw [hid, Function.update_self] at hother
      cases hother
      rw [hpath]
      exact howner tab (hid ▸ htab)
    · rw [Function.update_of_ne hid] at hother
      exact howner other hother

theorem setTab (h : LogKept s) (htab : s.tabs tabId = some tab) {tab' : LogTab}
    (hpath : tab'.filePath = tab.filePath) (hkept : tab'.Kept s.files (s.logTailState tabId)) :
    LogKept (s.setTab tabId tab') := by
  have hview := h.setView htab hkept hpath
  rw [Function.update_eq_self] at hview
  exact hview

theorem withPolls (h : LogKept s) {polls : List LogPoll}
    (hpolls : ∀ task ∈ polls, LogPoll.Reads (s.files task.path) task.stage ∧
      task.tabId < s.nextTabId ∧ ∀ tab, s.tabs task.tabId = some tab →
        tab.filePath = some task.path) :
    LogKept { s with polls := polls } :=
  ⟨h.views, h.gone, h.allocated, fun task htask => (hpolls task htask).1,
    fun task htask => (hpolls task htask).2⟩

theorem modifyPoll (h : LogKept s) (poll : Nat) {f : LogPoll → LogPoll}
    (howner : ∀ task, (f task).tabId = task.tabId ∧ (f task).path = task.path)
    (hreads : ∀ task, s.polls[poll]? = some task →
      LogPoll.Reads (s.files task.path) (f task).stage) :
    LogKept { s with polls := s.polls.modify poll f } := by
  refine h.withPolls fun task htask => ?_
  obtain ⟨index, hindex⟩ := List.getElem?_of_mem htask
  rw [List.getElem?_modify] at hindex
  obtain ⟨old, hold, rfl⟩ := Option.map_eq_some_iff.mp hindex
  have hmem := List.mem_of_getElem? hold
  split
  · rename_i hsame
    subst hsame
    rw [(howner old).1, (howner old).2]
    exact ⟨hreads old hold, h.owners old hmem⟩
  · exact ⟨h.polls old hmem, h.owners old hmem⟩

theorem setStage (h : LogKept s) {poll : Nat} {stage : PollStage}
    (hreads : ∀ task, s.polls[poll]? = some task → LogPoll.Reads (s.files task.path) stage) :
    LogKept (s.setStage poll stage) :=
  h.modifyPoll poll (fun _ => ⟨rfl, rfl⟩) hreads

theorem setTail (h : LogKept s) (htab : s.tabs tabId = some tab) {tail : Option LogTailState}
    (hkept : tab.Kept s.files tail) :
    LogKept { s with logTailState := Function.update s.logTailState tabId tail } := by
  have hview := h.setView htab hkept rfl
  rwa [← htab, Function.update_eq_self] at hview

theorem shown (h : LogKept s) (htab : s.tabs tabId = some tab) {display : String}
    (hdisplay : tab.logContent = some display) :
    ∃ path state, tab.filePath = some path ∧ s.logTailState tabId = some state ∧
      Mirrors (s.files path) tab.logFull display state ∧
        (tab.logFollow = true → state.pending = "") := by
  have hview := h.views tabId tab htab
  cases htail : s.logTailState tabId with
  | none =>
      rw [htail] at hview
      cases hdisplay.symm.trans hview
  | some state =>
      rw [htail] at hview
      obtain ⟨path, shown, hpath, hshown, hmirrors, hfollow⟩ := hview
      cases hdisplay.symm.trans hshown
      exact ⟨path, state, hpath, rfl, hmirrors, hfollow⟩

theorem unseeded (h : LogKept s) (htab : s.tabs tabId = some tab)
    (hdisplay : tab.logContent = none) : s.logTailState tabId = none := by
  have hview := h.views tabId tab htab
  cases htail : s.logTailState tabId with
  | none => rfl
  | some state =>
      rw [htail] at hview
      obtain ⟨-, display, -, hshown, -⟩ := hview
      cases hdisplay.symm.trans hshown

end LogKept

namespace LogWindow

theorem updateTail_some {state : LogTailState} (htail : s.logTailState tabId = some state)
    (f : LogTailState → LogTailState) : s.updateTail tabId f =
      { s with logTailState := Function.update s.logTailState tabId (some (f state)) } := by
  rw [updateTail, htail, Option.map_some]

theorem updateTail_updateTail (s : LogWindow) (tabId : Nat) (f g : LogTailState → LogTailState) :
    (s.updateTail tabId f).updateTail tabId g = s.updateTail tabId (g ∘ f) := by
  simp [updateTail, Function.update_idem, Function.comp_def]

theorem getActiveEditorTab_eq (h : s.getActiveEditorTab = some (tabId, tab)) :
    s.tabs tabId = some tab := by
  obtain ⟨id, -, hid⟩ := Option.bind_eq_some_iff.mp h
  obtain ⟨found, hfound, heq⟩ := Option.map_eq_some_iff.mp hid
  cases heq
  exact hfound

@[simp] theorem stopLogPollTask_tabs (s : LogWindow) (tabId : Nat) :
    (s.stopLogPollTask tabId).tabs = s.tabs := by
  unfold stopLogPollTask
  split <;> rfl

@[simp] theorem stopLogPollTask_files (s : LogWindow) (tabId : Nat) :
    (s.stopLogPollTask tabId).files = s.files := by
  unfold stopLogPollTask
  split <;> rfl

theorem leaveActiveTab_tabs (s : LogWindow) (tabId : Nat) :
    (s.leaveActiveTab tabId).tabs = s.tabs := by
  unfold leaveActiveTab
  split
  · rfl
  · split
    · rfl
    · rw [stopLogPollTask_tabs]

theorem leaveActiveTab_files (s : LogWindow) (tabId : Nat) :
    (s.leaveActiveTab tabId).files = s.files := by
  unfold leaveActiveTab
  split
  · rfl
  · split
    · rfl
    · rw [stopLogPollTask_files]

/-- What waits is shown, and nothing waits any more. -/
theorem flushLogFollow_eq {display : String} {state : LogTailState}
    (htab : s.tabs tabId = some tab) (hdisplay : tab.logContent = some display)
    (htail : s.logTailState tabId = some state) :
    s.flushLogFollow tabId =
      let shown := appendLogToBottom newlineRope display state.pending tab.logFull
      { s with
        tabs := Function.update s.tabs tabId (some { tab with logContent := some shown.1 })
        logTailState := Function.update s.logTailState tabId
          (some ⟨state.byteOffset, state.droppedLines || shown.2, ""⟩) } := by
  rw [flushLogFollow, htab]
  dsimp only
  rw [hdisplay]
  dsimp only
  rw [updateTail_some htail, htail]
  rfl

end LogWindow

namespace LogKept

/-! ## Poll tasks start and stop -/

theorem stopLogPollTask (h : LogKept s) (tabId : Nat) : LogKept (s.stopLogPollTask tabId) := by
  unfold LogWindow.stopLogPollTask
  split
  · exact h
  · rename_i poll _
    have hmodified := h.modifyPoll poll (f := fun task => { task with cancelled := true })
      (fun _ => ⟨rfl, rfl⟩) fun task htask => h.polls task (List.mem_of_getElem? htask)
    exact hmodified.withActive s.activeTabId _

theorem startLogPollTask (h : LogKept s) (htab : s.tabs tabId = some tab) {path : PathBuf}
    (hpath : tab.filePath = some path) : LogKept (s.startLogPollTask tabId path) := by
  unfold LogWindow.startLogPollTask
  split
  · exact h
  · have hstarted : LogKept { s with polls := s.polls ++ [⟨tabId, path, false, .sleeping⟩] } := by
      refine h.withPolls fun task htask => ?_
      rcases List.mem_append.mp htask with htask | htask
      · exact ⟨h.polls task htask, h.owners task htask⟩
      · cases List.mem_singleton.mp htask
        refine ⟨trivial, ?_, fun other hother => ?_⟩
        · by_contra hlarge
          have hnone := h.allocated tabId (Nat.le_of_not_lt hlarge)
          cases htab.symm.trans hnone
        · cases htab.symm.trans hother
          exact hpath
    exact hstarted.withActive s.activeTabId _

/-! ## What is read reaches the display -/

/-- A chunk that goes on from the consumed offset. -/
theorem applyLogTailChunk (h : LogKept s) {offset : Nat} {chunk : LogChunk} {path : PathBuf}
    (hreads : LogPoll.Reads (s.files path) (.loaded offset chunk))
    (howner : ∀ tab, s.tabs tabId = some tab → tab.filePath = some path)
    (hoffset : ∀ state ∈ s.logTailState tabId, state.byteOffset = offset) :
    LogKept (s.applyLogTailChunk tabId chunk) := by
  obtain ⟨htruncated, hnew, -, htext⟩ := hreads
  unfold LogWindow.applyLogTailChunk
  split
  · exact h
  · rename_i tab htab
    split
    · exact h
    · rename_i display hdisplay
      obtain ⟨path', state, hpath, htail, hmirrors, hfollow⟩ := h.shown htab hdisplay
      cases (howner tab htab).symm.trans hpath
      have hsame : state.byteOffset = offset := hoffset state htail
      rw [← hsame] at htext
      have hwaits := hmirrors.wait hnew htext
      dsimp only
      rw [if_neg (by simp [htruncated])]
      split
      · rename_i hpaused
        rw [LogWindow.updateTail_updateTail, LogWindow.updateTail_some htail]
        exact h.setTail htab
          (.of_mirrors hpath hdisplay (hwaits _) fun h => absurd h (by simp [hpaused]))
      · rename_i hfollowing
        have hempty : state.pending = "" := hfollow (by simpa using hfollowing)
        rw [LogWindow.updateTail_updateTail, LogWindow.updateTail_some htail]
        rw [hempty, String.empty_append] at hwaits
        refine h.setView htab (.of_mirrors hpath ?_ ((hwaits false).flush _) fun _ => rfl) ?_
        · rfl
        · rfl

/-- Following again flushes what waits, so the two changes are taken together. -/
theorem followAgain (h : LogKept s) (htab : s.tabs tabId = some tab) :
    LogKept ((s.setTab tabId { tab with logFollow := true }).flushLogFollow tabId) := by
  have hset : (s.setTab tabId { tab with logFollow := true }).tabs tabId =
      some { tab with logFollow := true } := Function.update_self ..
  rcases Option.eq_none_or_eq_some tab.logContent with hdisplay | ⟨display, hdisplay⟩
  · have hkept : LogKept (s.setTab tabId { tab with logFollow := true }) := by
      refine h.setTab htab rfl ?_
      rw [h.unseeded htab hdisplay]
      exact hdisplay
    unfold LogWindow.flushLogFollow
    rw [hset]
    dsimp only
    rw [hdisplay] at hkept ⊢
    exact hkept
  · obtain ⟨path, state, hpath, htail, hmirrors, -⟩ := h.shown htab hdisplay
    rw [LogWindow.flushLogFollow_eq hset hdisplay htail]
    unfold LogWindow.setTab
    dsimp only
    rw [Function.update_idem]
    refine h.setView htab (.of_mirrors hpath ?_ (hmirrors.flush _) fun _ => rfl) ?_
    · rfl
    · rfl

/-! ## Entering, leaving and switching -/

/-- A view seeded from a buffer that holds the file. -/
theorem activateLogView (h : LogKept s) {found : Bool}
    (hseed : ∀ tab ∈ s.tabs tabId, ∀ path ∈ tab.filePath, tab.content = s.seedText path found) :
    LogKept (s.activateLogView tabId found) := by
  unfold LogWindow.activateLogView
  split
  · exact h
  · rename_i tab htab
    split
    · exact h
    · rename_i path hpath
      have hcontent := hseed tab htab path hpath
      have hoffset : (if found then (s.files path).bytes.length else 0) ≤
          (s.files path).bytes.length := by
        split
        · exact Nat.le_refl _
        · exact Nat.zero_le _
      have hdisplay : (trimToLastLines tab.content LOG_LINE_CAP).1 =
          cutLog false (s.seedText path found) := by
        rw [hcontent]
        rfl
      dsimp only
      rw [hdisplay]
      have hseeded : LogTab.Kept s.files
          { tab with
            logView := true, logFollow := true, logFull := false
            logContent := some (cutLog false (s.seedText path found)) }
          (some ⟨_, (trimToLastLines tab.content LOG_LINE_CAP).2, ""⟩) :=
        .of_mirrors hpath rfl (Mirrors.seed hoffset false _) fun _ => rfl
      exact (h.setView htab hseeded rfl).startLogPollTask (Function.update_self ..) hpath

theorem deactivateLogView (h : LogKept s) (tabId : Nat) : LogKept (s.deactivateLogView tabId) := by
  have hstopped := h.stopLogPollTask tabId
  unfold LogWindow.deactivateLogView LogWindow.clearLogTail
  dsimp only
  split
  · rename_i hnone
    have htail := hstopped.gone tabId hnone
    rw [← htail, Function.update_eq_self]
    exact hstopped
  · rename_i tab htab
    exact hstopped.setView htab rfl rfl

theorem resumeLogView (h : LogKept s) {found : Bool}
    (hseed : ∀ tab ∈ s.tabs tabId, ∀ path ∈ tab.filePath, tab.logContent = none →
      tab.content = s.seedText path found) :
    LogKept (s.resumeLogView tabId found) := by
  unfold LogWindow.resumeLogView
  split
  · exact h
  · rename_i tab htab
    split
    · rename_i hunseeded
      refine h.activateLogView fun other hother path hpath => ?_
      cases htab.symm.trans hother
      exact hseed tab htab path hpath hunseeded
    · split
      · exact h
      · rename_i path hpath
        exact h.startLogPollTask htab hpath

/-- Another tab is shown: a view that was not seeded yet is seeded from its buffer. -/
theorem showTab (h : LogKept s) {found : Bool}
    (hseed : ∀ tab ∈ s.tabs tabId, ∀ path ∈ tab.filePath, tab.logView = true →
      tab.logContent = none → tab.content = s.seedText path found) :
    LogKept (match s.tabs tabId with
      | none => s
      | some tab => if tab.logView then s.resumeLogView tabId found else s) := by
  split
  · exact h
  · rename_i tab htab
    split
    · rename_i hview
      refine h.resumeLogView fun other hother path hpath hunseeded => ?_
      cases htab.symm.trans hother
      exact hseed tab htab path hpath hview hunseeded
    · exact h

theorem setActiveTab (h : LogKept s) {found : Bool}
    (hstep : s.MirrorStep (.setActiveTab tabId found)) : LogKept (s.setActiveTab tabId found) := by
  have hleft : LogKept (s.leaveActiveTab tabId) := by
    unfold LogWindow.leaveActiveTab
    split
    · exact h
    · split
      · exact h
      · exact h.stopLogPollTask _
  refine (hleft.withActive (some tabId) (s.leaveActiveTab tabId).logTailCancel).showTab
    fun tab htab path hpath hview hunseeded => ?_
  dsimp only at htab
  rw [LogWindow.leaveActiveTab_tabs] at htab
  have htext := hstep tab htab path hpath hview hunseeded
  unfold LogWindow.seedText at htext ⊢
  rw [LogWindow.leaveActiveTab_files]
  exact htext

theorem toggleLogView (h : LogKept s) {found : Bool} (hstep : s.MirrorStep (.toggleLogView found)) :
    LogKept (s.toggleLogView found) := by
  unfold LogWindow.toggleLogView
  split
  · exact h
  · rename_i tabId tab hactive
    split
    · exact h
    · rename_i havailable
      split
      · exact h.deactivateLogView tabId
      · rename_i hview
        have htab := LogWindow.getActiveEditorTab_eq hactive
        refine h.activateLogView fun other hother path hpath => ?_
        cases htab.symm.trans hother
        refine hstep (tabId, tab) hactive path hpath (by simpa using hview) ?_
        rw [Option.mem_def] at hpath
        rw [hpath] at havailable
        simpa using havailable

/-! ## Following, the full file, new and closed tabs -/

theorem toggleLogFollow (h : LogKept s) : LogKept s.toggleLogFollow := by
  unfold LogWindow.toggleLogFollow
  split
  · exact h
  · rename_i tabId tab hactive
    have htab := LogWindow.getActiveEditorTab_eq hactive
    split
    · exact h
    · dsimp only
      split
      · rename_i hfollow
        refine h.setTab htab rfl ?_
        rcases Option.eq_none_or_eq_some tab.logContent with hdisplay | ⟨display, hdisplay⟩
        · rw [h.unseeded htab hdisplay]
          exact hdisplay
        · obtain ⟨path, state, hpath, htail, hmirrors, -⟩ := h.shown htab hdisplay
          rw [htail]
          exact .of_mirrors hpath hdisplay hmirrors fun hnot => absurd hnot (by simp [hfollow])
      · rename_i hpaused
        have hfollow : (!tab.logFollow) = true := by simpa using hpaused
        rw [hfollow]
        exact h.followAgain htab

theorem loadFullLog (h : LogKept s) (readable : Bool) : LogKept (s.loadFullLog readable) := by
  unfold LogWindow.loadFullLog
  split
  · exact h
  · rename_i tabId tab hactive
    have htab := LogWindow.getActiveEditorTab_eq hactive
    split
    · rename_i path display hpath hdisplay
      split
      · exact h
      · obtain ⟨-, state, -, htail, -⟩ := h.shown htab hdisplay
        dsimp only
        rw [LogWindow.updateTail_some htail]
        have hfull : (s.files path).textTo (s.files path).bytes.length =
            fromUtf8Lossy (s.files path).bytes := by
          unfold LogFile.textTo
          rw [List.take_length]
        have hmirrors := Mirrors.seed (Nat.le_refl (s.files path).bytes.length) true false
        rw [hfull] at hmirrors
        refine h.setView htab (.of_mirrors hpath ?_ hmirrors fun _ => rfl) ?_
        · rfl
        · rfl
    · exact h

/-- A new tab shows no log yet. -/
theorem newTab (h : LogKept s) (path : PathBuf) (content : String) :
    LogKept { s.setTab s.nextTabId ⟨some path, content, false, true, false, none⟩ with
      activeTabId := some s.nextTabId
      nextTabId := s.nextTabId + 1 } where
  views id tab htab := by
    dsimp only [LogWindow.setTab] at htab ⊢
    by_cases hid : id = s.nextTabId
    · subst hid
      rw [Function.update_self] at htab
      cases htab
      rw [h.gone _ (h.allocated _ (Nat.le_refl _))]
      rfl
    · rw [Function.update_of_ne hid] at htab
      exact h.views id tab htab
  gone id hid := by
    dsimp only [LogWindow.setTab] at hid ⊢
    by_cases hsame : id = s.nextTabId
    · rw [hsame, Function.update_self] at hid
      cases hid
    · rw [Function.update_of_ne hsame] at hid
      exact h.gone id hid
  allocated id hid := by
    dsimp only [LogWindow.setTab] at hid ⊢
    rw [Function.update_of_ne (by omega)]
    exact h.allocated id (by omega)
  polls := h.polls
  owners task htask := by
    obtain ⟨hlt, howner⟩ := h.owners task htask
    refine ⟨Nat.lt_succ_of_lt hlt, fun tab htab => howner tab ?_⟩
    dsimp only [LogWindow.setTab] at htab
    rwa [Function.update_of_ne (Nat.ne_of_lt hlt)] at htab

theorem openFile (h : LogKept s) {path : PathBuf} {content : String} {found : Bool}
    (hstep : s.MirrorStep (.openFile path content found)) :
    LogKept (s.openFile path content found) := by
  have hnew := h.newTab path content
  unfold LogWindow.openFile
  dsimp only
  split
  · rename_i hlog
    refine hnew.activateLogView fun tab htab path' hpath => ?_
    have hopened : Function.update s.tabs s.nextTabId
        (some ⟨some path, content, false, true, false, none⟩) s.nextTabId = some tab := htab
    rw [Function.update_self] at hopened
    cases hopened
    cases hpath
    exact hstep hlog
  · exact hnew

theorem closeTab (h : LogKept s) (tabId : Nat) (next : Option Nat) :
    LogKept (s.closeTab tabId next) := by
  have hstopped := h.stopLogPollTask tabId
  unfold LogWindow.closeTab LogWindow.clearLogTail
  refine ⟨fun id tab htab => ?_, fun id hid => ?_, fun id hid => ?_, hstopped.polls,
    fun task htask => ⟨(hstopped.owners task htask).1, fun tab htab => ?_⟩⟩
  · dsimp only at htab ⊢
    by_cases hsame : id = tabId
    · rw [hsame, Function.update_self] at htab
      cases htab
    · rw [Function.update_of_ne hsame] at htab ⊢
      rw [← LogWindow.stopLogPollTask_tabs s tabId] at htab
      exact hstopped.views id tab htab
  · dsimp only at hid ⊢
    by_cases hsame : id = tabId
    · rw [hsame, Function.update_self]
    · rw [Function.update_of_ne hsame] at hid ⊢
      rw [← LogWindow.stopLogPollTask_tabs s tabId] at hid
      exact hstopped.gone id hid
  · dsimp only at hid ⊢
    by_cases hsame : id = tabId
    · rw [hsame, Function.update_self]
    · rw [Function.update_of_ne hsame, ← LogWindow.stopLogPollTask_tabs s tabId]
      exact hstopped.allocated id hid
  · dsimp only at htab
    by_cases hsame : task.tabId = tabId
    · rw [hsame, Function.update_self] at htab
      cases htab
    · rw [Function.update_of_ne hsame, ← LogWindow.stopLogPollTask_tabs s tabId] at htab
      exact (hstopped.owners task htask).2 tab htab

/-! ## The steps of a poll task -/

theorem logTailOffset_le (h : LogKept s) {task : LogPoll} (htask : task ∈ s.polls) {offset : Nat}
    (hoffset : s.logTailOffset task.tabId = some offset) :
    offset ≤ (s.files task.path).bytes.length := by
  obtain ⟨tab, htab, hview⟩ := Option.bind_eq_some_iff.mp hoffset
  split at hview
  · obtain ⟨state, htail, rfl⟩ := Option.map_eq_some_iff.mp hview
    have hkept := h.views task.tabId tab htab
    rw [htail] at hkept
    obtain ⟨path, display, hpath, -, hmirrors, -⟩ := hkept
    cases ((h.owners task htask).2 tab htab).symm.trans hpath
    exact hmirrors.consumed
  · cases hview

theorem tick (h : LogKept s) {poll : Nat} (hs : s.tick poll = some s') : LogKept s' := by
  unfold LogWindow.tick at hs
  split at hs
  · rename_i tabId path cancelled htask
    split at hs
    · cases hs
      exact h.setStage fun _ _ => trivial
    · split at hs
      · cases hs
        exact h.setStage fun _ _ => trivial
      · rename_i offset hoffset
        cases hs
        refine h.setStage fun task hother => ?_
        cases htask.symm.trans hother
        exact h.logTailOffset_le (List.mem_of_getElem? htask) hoffset
  · cases hs

theorem measure (h : LogKept s) {poll : Nat} {found : Bool} (hs : s.measure poll found = some s') :
    LogKept s' := by
  unfold LogWindow.measure at hs
  split at hs
  · rename_i tabId path cancelled offset htask
    have hreads := h.polls _ (List.mem_of_getElem? htask)
    split at hs
    · cases hs
      refine h.setStage fun task hother => ?_
      cases htask.symm.trans hother
      exact ⟨hreads, Nat.le_refl _⟩
    · cases hs
      exact h.setStage fun _ _ => trivial
  · cases hs

theorem read (h : LogKept s) {poll : Nat} {readable : Bool} (hs : s.read poll readable = some s') :
    LogKept s' := by
  unfold LogWindow.read at hs
  split at hs
  · rename_i tabId path cancelled offset len htask
    obtain ⟨hoffset, hlen⟩ := h.polls _ (List.mem_of_getElem? htask)
    dsimp only at hs
    split at hs
    · cases hs
      exact h.setStage fun _ _ => trivial
    · cases hs
      refine h.setStage fun task hother => ?_
      cases htask.symm.trans hother
      obtain ⟨htruncated, hnew, htext⟩ := (s.files path).textTo_readNewLogBytes hoffset hlen
      refine ⟨htruncated, ?_, ?_, ?_⟩
      · rw [hnew]
        exact hlen
      · rw [hnew]
        exact hoffset
      · rw [hnew]
        exact htext
  · cases hs

theorem applyChunk (h : LogKept s) {poll : Nat} (hstep : s.MirrorStep (.applyChunk poll))
    (hs : s.applyChunk poll = some s') : LogKept s' := by
  unfold LogWindow.applyChunk at hs
  split at hs
  · rename_i tabId path cancelled offset chunk htask
    cases hs
    have hmem := List.mem_of_getElem? htask
    have happlied := h.applyLogTailChunk (h.polls _ hmem) (h.owners _ hmem).2
      (hstep _ htask offset rfl)
    exact happlied.setStage fun _ _ => trivial
  · cases hs

/-! ## Every step -/

theorem append (h : LogKept s) (path : PathBuf) (more : LogFile) :
    LogKept { s with files := Function.update s.files path ((s.files path).append more) } := by
  have hfile : ∀ other, Function.update s.files path ((s.files path).append more) other =
      s.files other ∨ Function.update s.files path ((s.files path).append more) other =
        (s.files other).append more := by
    intro other
    by_cases hsame : other = path
    · subst hsame
      exact Or.inr (Function.update_self ..)
    · exact Or.inl (Function.update_of_ne hsame ..)
  refine ⟨fun id tab htab => ?_, h.gone, h.allocated, fun task htask => ?_, h.owners⟩
  · have hkept := h.views id tab htab
    dsimp only
    cases htail : s.logTailState id with
    | none =>
        rw [htail] at hkept
        exact hkept
    | some state =>
        rw [htail] at hkept
        obtain ⟨path', display, hpath, hdisplay, hmirrors, hfollow⟩ := hkept
        refine .of_mirrors hpath hdisplay ?_ hfollow
        rcases hfile path' with hsame | hgrown
        · rw [hsame]
          exact hmirrors
        · rw [hgrown]
          exact hmirrors.append more
  · have hreads := h.polls task htask
    dsimp only
    rcases hfile task.path with hsame | hgrown
    · rw [hsame]
      exact hreads
    · rw [hgrown]
      exact hreads.append more

theorem setContent (h : LogKept s) (htab : s.tabs tabId = some tab) (content : String) :
    LogKept (s.setTab tabId { tab with content := content }) :=
  h.setTab htab rfl (h.views tabId tab htab)

/-- What every step that meets the condition keeps. -/
theorem step (h : LogKept s) {action : LogAction} (hstep : s.MirrorStep action)
    (hs : s.step action = some s') : LogKept s' := by
  cases action with
  | append path more =>
      cases hs
      exact h.append path more
  | setContent tabId content =>
      obtain ⟨tab, htab, rfl⟩ := Option.map_eq_some_iff.mp hs
      exact h.setContent htab content
  | openFile path content found =>
      cases hs
      exact h.openFile hstep
  | closeTab tabId next =>
      cases hs
      exact h.closeTab tabId next
  | setActiveTab tabId found =>
      cases hs
      exact h.setActiveTab hstep
  | toggleLogView found =>
      cases hs
      exact h.toggleLogView hstep
  | toggleLogFollow =>
      cases hs
      exact h.toggleLogFollow
  | loadFullLog readable =>
      cases hs
      exact h.loadFullLog readable
  | tick poll => exact h.tick hs
  | measure poll found => exact h.measure hs
  | read poll readable => exact h.read hs
  | applyChunk poll => exact h.applyChunk hstep hs

end LogKept

/-- A log view mirrors its file in every run whose steps all meet the condition. -/
theorem log_view_mirrors {launched s : LogWindow} {actions : List LogAction}
    (hlaunched : launched.Launched)
    (hguard : Guarded LogWindow.step LogWindow.MirrorStep launched actions)
    (hrun : run LogWindow.step launched actions = some s) : s.MirrorsFile := by
  have hkept := invariant_of_guarded LogKept (fun s action s' h hstep hs => h.step hstep hs)
    hlaunched.kept hguard hrun
  intro tabId tab path display state htab hpath hdisplay htail
  obtain ⟨path', state', hpath', htail', hmirrors, -⟩ := hkept.shown htab hdisplay
  cases hpath.symm.trans hpath'
  cases htail.symm.trans htail'
  exact hmirrors

def sampleLogFile (text : String) (h : ∀ byte ∈ asBytes text, byte < 0x80) : LogFile :=
  ⟨asBytes text, h⟩

def sampleLogPath : PathBuf := ⟨asBytes "/n.log"⟩

def sampleLogWindow : LogWindow where
  files := fun _ => sampleLogFile "a" (by decide +kernel)
  tabs := fun _ => none
  activeTabId := none
  nextTabId := 0
  logTailState := fun _ => none
  logTailCancel := fun _ => none
  polls := []

/-- `b` is appended to a file that holds `a`, opened in log view, and read by its poll task. -/
def sampleLogRead : List LogAction :=
  [.openFile sampleLogPath "a" true, .append sampleLogPath (sampleLogFile "b" (by decide +kernel)),
    .tick 0, .measure 0 true, .read 0 true]

theorem log_view_mirrors_sample :
    ∃ s, run LogWindow.step sampleLogWindow
        (sampleLogRead ++ [.toggleLogFollow, .applyChunk 0, .toggleLogFollow]) = some s ∧
      s.MirrorsFile ∧ (s.tabs 0).bind LogTab.logContent = some "ab" := by
  obtain ⟨s, hrun, hshown⟩ : ∃ s, run LogWindow.step sampleLogWindow
      (sampleLogRead ++ [.toggleLogFollow, .applyChunk 0, .toggleLogFollow]) = some s ∧
        (s.tabs 0).bind LogTab.logContent = some "ab" := exists_of_any (by decide +kernel)
  have hlaunched : sampleLogWindow.Launched :=
    ⟨by simp [sampleLogWindow], fun _ _ => rfl, fun _ => rfl, rfl⟩
  have hguard : Guarded LogWindow.step LogWindow.MirrorStep sampleLogWindow
      (sampleLogRead ++ [.toggleLogFollow, .applyChunk 0, .toggleLogFollow]) :=
    Guarded.of_guardedRun (by decide +kernel)
  exact ⟨s, hrun, log_view_mirrors hlaunched hguard hrun, hshown⟩

/-- A view whose text differs from what its file holds up to the consumed offset. -/
def LogWindow.ShowsOther (s : LogWindow) : Prop :=
  ∃ tab ∈ s.tabs 0, ∃ path ∈ tab.filePath, ∃ display ∈ tab.logContent, ∃ state ∈ s.logTailState 0,
    cutLog tab.logFull (display ++ state.pending) ≠
      cutLog tab.logFull ((s.files path).textTo state.byteOffset)

instance (s : LogWindow) : Decidable s.ShowsOther := by
  unfold LogWindow.ShowsOther
  infer_instance

theorem LogWindow.ShowsOther.not_mirrorsFile (h : s.ShowsOther) : ¬ s.MirrorsFile := by
  obtain ⟨tab, htab, path, hpath, display, hdisplay, state, htail, hother⟩ := h
  exact fun hmirrors => hother (hmirrors 0 tab path display state htab hpath hdisplay htail).same

/--
The full file is loaded while a chunk waits to be applied; the tab is left and
shown again, and both poll tasks apply what they read; the file grows between the
read of the buffer and the opening.
-/
def sampleLogSkewed : List (List LogAction) :=
  [sampleLogRead ++ [.loadFullLog true, .applyChunk 0],
    sampleLogRead ++ [.setActiveTab 7 true, .setActiveTab 0 true, .tick 1, .measure 1 true,
      .read 1 true, .applyChunk 1, .applyChunk 0],
    [.append sampleLogPath (sampleLogFile "b" (by decide +kernel)),
    .openFile sampleLogPath "a" true]]

theorem log_view_skewed :
    ∃ skewed, sampleLogSkewed.mapM (run LogWindow.step sampleLogWindow) = some skewed ∧
      (∀ s ∈ skewed, ¬ s.MirrorsFile ∧ (s.files sampleLogPath).bytes = asBytes "ab") ∧
        skewed.map (fun s => (s.tabs 0).bind LogTab.logContent) =
          [some "abb", some "abb", some "a"] := by
  obtain ⟨skewed, hruns, hother, hshown⟩ :
      ∃ skewed, sampleLogSkewed.mapM (run LogWindow.step sampleLogWindow) = some skewed ∧
        (∀ s ∈ skewed, s.ShowsOther ∧ (s.files sampleLogPath).bytes = asBytes "ab") ∧
          skewed.map (fun s => (s.tabs 0).bind LogTab.logContent) =
            [some "abb", some "abb", some "a"] := exists_of_any (by decide +kernel)
  exact ⟨skewed, hruns, fun s hs => ⟨(hother s hs).1.not_mirrorsFile, (hother s hs).2⟩, hshown⟩

end Fulgur
