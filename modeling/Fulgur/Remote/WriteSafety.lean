import Fulgur.Remote.RemoteWrite

/-! # What a write leaves on the server

Up to the fallback the destination is what it was, or all that was to be written. A
success is only reported for the latter. No other file changes but the temporary one.
-/

namespace Fulgur

open LabelledRun

namespace RemoteWrite

variable {files : String → Option RemoteFile} {data : List UInt8} {w w' : RemoteWrite}

theorem tmpPath_ne (w : RemoteWrite) : w.tmpPath ≠ w.resolved := by
  intro h
  have hlength := congrArg String.length h
  simp only [tmpPath, String.length_append] at hlength
  have hdot : ".fulgur.tmp.".length = 12 := rfl
  omega

/-! ## The calls -/

theorem files_put (w : RemoteWrite) (path : String) (file : Option RemoteFile) (other : String) :
    (w.put path file).files other = if other = path then file else w.files other := by
  simp [put, Function.update_apply]

@[simp] theorem files_put_self (w : RemoteWrite) (path : String) (file : Option RemoteFile) :
    (w.put path file).files path = file := by
  simp [files_put]

@[simp] theorem files_put_of_ne (w : RemoteWrite) {path other : String} (h : other ≠ path)
    (file : Option RemoteFile) : (w.put path file).files other = w.files other := by
  simp [files_put, h]

@[simp] theorem tmpPath_put (w : RemoteWrite) (path : String) (file : Option RemoteFile) :
    (w.put path file).tmpPath = w.tmpPath := rfl

@[simp] theorem resolved_put (w : RemoteWrite) (path : String) (file : Option RemoteFile) :
    (w.put path file).resolved = w.resolved := rfl

@[simp] theorem data_put (w : RemoteWrite) (path : String) (file : Option RemoteFile) :
    (w.put path file).data = w.data := rfl

/-- The destination has all that was to be written. -/
def Complete (w : RemoteWrite) : Prop :=
  ∃ mode, w.files w.resolved = some ⟨w.data, mode⟩ ∧
    (w.overwritten = false → w.modeSet = true → mode = w.destMode)

/-- The destination was not opened for writing. -/
def Untouched (files : String → Option RemoteFile) (w : RemoteWrite) : Prop :=
  w.overwritten = false ∧ w.files w.resolved = files w.resolved

/-- Nothing was written yet. -/
def Unstarted (files : String → Option RemoteFile) (w : RemoteWrite) : Prop :=
  w.files = files ∧ w.modeSet = false ∧ w.overwritten = false

/-- The temporary file has all that was to be written, where it is still there. -/
def Staged (w : RemoteWrite) : Prop :=
  ∀ file, w.files w.tmpPath = some file →
    file.bytes = w.data ∧ (w.modeSet = true → file.mode = w.destMode)

def PhaseOk (files : String → Option RemoteFile) (w : RemoteWrite) : Prop :=
  match w.phase with
  | .realpath | .stat => w.Unstarted files
  | .openTemp => w.Unstarted files
  | .write left => w.Untouched files ∧ w.modeSet = false ∧
      ∃ written mode, w.files w.tmpPath = some ⟨written, mode⟩ ∧ written ++ left = w.data
  | .discard _ => w.overwritten = false
  | .setstat => w.Untouched files ∧ w.modeSet = false ∧
      ∃ mode, w.files w.tmpPath = some ⟨w.data, mode⟩
  | .rename _ _ => w.overwritten = false ∧ w.Staged
  | .openDestination _ => w.overwritten = false
  | .overwrite left _ => w.overwritten = true ∧
      ∃ written mode, w.files w.resolved = some ⟨written, mode⟩ ∧ written ++ left = w.data
  | .unlink result => result = .ok () → w.Complete
  | .over result => result = .ok () → w.Complete

structure Safe (files : String → Option RemoteFile) (data : List UInt8) (w : RemoteWrite) :
    Prop where
  data : w.data = data
  frame : ∀ path, path ≠ w.resolved → path ≠ w.tmpPath → w.files path = files path
  whole : w.overwritten = false → w.Untouched files ∨ w.Complete
  begun : w.overwritten = true →
    ∃ written mode, w.files w.resolved = some ⟨written, mode⟩ ∧ written <+: w.data
  phase : PhaseOk files w

theorem safe_start (files : String → Option RemoteFile) (remotePath : String) (data : List UInt8)
    (pid nanos : Nat) : Safe files data (start files remotePath data pid nanos) where
  data := rfl
  frame := fun _ _ _ => rfl
  whole := fun _ => Or.inl ⟨rfl, rfl⟩
  begun := by simp [start]
  phase := ⟨rfl, rfl, rfl⟩

/-- A call that writes neither the destination nor any other file but the temporary one. -/
theorem Safe.aside (h : Safe files data w) (hdata : w'.data = w.data)
    (hresolved : w'.resolved = w.resolved) (htmp : w'.tmpPath = w.tmpPath)
    (hfiles : ∀ path, path ≠ w.tmpPath → w'.files path = w.files path)
    (hoverwritten : w'.overwritten = w.overwritten) (hmode : w'.destMode = w.destMode)
    (hmodeSet : w'.modeSet = w.modeSet ∨ w.Untouched files) (hphase : PhaseOk files w') :
    Safe files data w' := by
  have hdest : w'.files w.resolved = w.files w.resolved := hfiles _ w.tmpPath_ne.symm
  refine ⟨hdata.trans h.data, fun path hne hne' => ?_, fun hwhole => ?_, fun hbegun => ?_, hphase⟩
  · rw [hresolved] at hne
    rw [htmp] at hne'
    rw [hfiles path hne', h.frame path hne hne']
  · rw [hoverwritten] at hwhole
    have hkept : w.Untouched files → w'.Untouched files := fun hold =>
      ⟨hoverwritten.trans hold.1, by rw [hresolved, hdest, hold.2]⟩
    cases hmodeSet with
    | inr huntouched => exact Or.inl (hkept huntouched)
    | inl hsame =>
        cases h.whole hwhole with
        | inl hold => exact Or.inl (hkept hold)
        | inr hcomplete =>
            obtain ⟨mode, hfile, hbits⟩ := hcomplete
            refine Or.inr ⟨mode, by rw [hresolved, hdest, hfile, hdata], ?_⟩
            rw [hoverwritten, hsame, hmode]
            exact hbits
  · rw [hresolved, hdest, hdata]
    exact h.begun (hoverwritten ▸ hbegun)

theorem Safe.realpath (h : Safe files data w) (hat : w.phase = .realpath) (path : Option String) :
    Safe files data { w with resolved := path.getD w.remotePath, phase := .stat } := by
  have hphase := h.phase
  simp only [PhaseOk, hat] at hphase
  obtain ⟨hfiles, hmodeSet, hoverwritten⟩ := hphase
  refine ⟨h.data, fun _ _ _ => by rw [hfiles], fun _ => Or.inl ⟨hoverwritten, by rw [hfiles]⟩,
    fun hbegun => ?_, ⟨hfiles, hmodeSet, hoverwritten⟩⟩
  simp [hoverwritten] at hbegun

theorem Safe.stat (h : Safe files data w) (hat : w.phase = .stat) (answered : Bool) :
    Safe files data { w with
      destMode := ((if answered then (w.files w.resolved).map RemoteFile.mode else none).map
        fun perm => perm % 0o1000).getD DEFAULT_REMOTE_FILE_MODE
      phase := .openTemp } := by
  have hphase := h.phase
  simp only [PhaseOk, hat] at hphase
  obtain ⟨hfiles, hmodeSet, hoverwritten⟩ := hphase
  refine ⟨h.data, h.frame, fun _ => Or.inl ⟨hoverwritten, by rw [hfiles]⟩, fun hbegun => ?_,
    ⟨hfiles, hmodeSet, hoverwritten⟩⟩
  simp [hoverwritten] at hbegun

theorem phaseOk_afterWrite {left written : List UInt8} {mode : Nat} (huntouched : w.Untouched files)
    (hmodeSet : w.modeSet = false) (hfile : w.files w.tmpPath = some ⟨written, mode⟩)
    (hwritten : written ++ left = w.data) :
    PhaseOk files { w with phase := afterWrite left } := by
  unfold afterWrite
  split
  · rename_i hnil
    rw [hnil, List.append_nil] at hwritten
    exact ⟨huntouched, hmodeSet, mode, hwritten ▸ hfile⟩
  · exact ⟨huntouched, hmodeSet, written, mode, hfile, hwritten⟩

theorem Untouched.put (h : w.Untouched files) (file : Option RemoteFile) :
    (w.put w.tmpPath file).Untouched files :=
  ⟨h.1, (w.files_put_of_ne w.tmpPath_ne.symm file).trans h.2⟩

theorem Safe.put (h : Safe files data w) (file : Option RemoteFile) (phase : RemoteWritePhase)
    (hphase : PhaseOk files { w.put w.tmpPath file with phase := phase }) :
    Safe files data { w.put w.tmpPath file with phase := phase } :=
  h.aside rfl rfl rfl (fun _ hne => w.files_put_of_ne hne file) rfl rfl (Or.inl rfl) hphase

theorem Safe.next (h : Safe files data w) (phase : RemoteWritePhase)
    (hphase : PhaseOk files { w with phase := phase }) :
    Safe files data { w with phase := phase } :=
  h.aside rfl rfl rfl (fun _ _ => rfl) rfl rfl (Or.inl rfl) hphase

theorem Safe.openTemp (h : Safe files data w) (hat : w.phase = .openTemp) (answer : SftpAnswer)
    (mode : Nat) : Safe files data (w.openTemp answer mode) := by
  have hphase := h.phase
  simp only [PhaseOk, hat] at hphase
  obtain ⟨hfiles, hmodeSet, hoverwritten⟩ := hphase
  have huntouched : w.Untouched files := ⟨hoverwritten, by rw [hfiles]⟩
  cases answer with
  | done =>
      refine h.put _ _ (phaseOk_afterWrite (w := w.put w.tmpPath _) (huntouched.put _) hmodeSet
        (w.files_put_self _ _) (List.nil_append _))
  | failed error => exact h.next _ hoverwritten
  | lost error => exact h.put _ _ hoverwritten

theorem appended_of_some {path : String} {written bytes : List UInt8} {mode : Nat}
    (hfile : w.files path = some ⟨written, mode⟩) :
    w.appended path bytes = w.put path (some ⟨written ++ bytes, mode⟩) := by
  rw [appended, hfile]
  rfl

theorem Safe.write (h : Safe files data w) {left : List UInt8} (hat : w.phase = .write left)
    (count : Nat) :
    Safe files data { w.appended w.tmpPath (left.take count) with
      phase := afterWrite (left.drop count) } := by
  have hphase := h.phase
  simp only [PhaseOk, hat] at hphase
  obtain ⟨huntouched, hmodeSet, written, mode, hfile, hwritten⟩ := hphase
  have hmore : (w.appended w.tmpPath (left.take count)).files w.tmpPath =
      some ⟨written ++ left.take count, mode⟩ := by
    rw [appended_of_some hfile, files_put_self]
  have hall : (written ++ left.take count) ++ left.drop count = w.data := by
    rw [List.append_assoc, List.take_append_drop]
    exact hwritten
  exact h.put _ _ (phaseOk_afterWrite (w := w.appended w.tmpPath (left.take count))
    (huntouched.put _) hmodeSet hmore hall)

theorem Safe.writeFails (h : Safe files data w) {left : List UInt8} (hat : w.phase = .write left)
    (count : Nat) (error : String) :
    Safe files data { w.appended w.tmpPath (left.take count) with phase := .discard error } := by
  have hphase := h.phase
  simp only [PhaseOk, hat] at hphase
  exact h.put _ _ hphase.1.1

theorem Safe.setstat (h : Safe files data w) (hat : w.phase = .setstat) (answer : SftpAnswer) :
    Safe files data (w.setstat answer) := by
  have hphase := h.phase
  simp only [PhaseOk, hat] at hphase
  obtain ⟨huntouched, hmodeSet, mode, hfile⟩ := hphase
  unfold RemoteWrite.setstat
  cases hperformed : answer.performed with
  | false =>
      refine h.next _ ⟨huntouched.1, fun file hstaged => ?_⟩
      cases hfile.symm.trans hstaged
      exact ⟨rfl, fun hset => by simp [hmodeSet] at hset⟩
  | true =>
      refine h.aside rfl rfl rfl (fun _ hne => w.files_put_of_ne hne _) rfl rfl (Or.inr huntouched)
        ⟨huntouched.1, fun file hstaged => ?_⟩
      have hset : (w.put w.tmpPath ((w.files w.tmpPath).map fun file =>
          { file with mode := w.destMode })).files w.tmpPath = some ⟨w.data, w.destMode⟩ := by
        simp [hfile]
      cases hset.symm.trans hstaged
      exact ⟨rfl, fun _ => rfl⟩

theorem complete_moved (hstaged : w.Staged) {file : RemoteFile}
    (hfile : w.files w.tmpPath = some file) :
    ((w.put w.resolved (some file)).put w.tmpPath none).Complete := by
  obtain ⟨hbytes, hmode⟩ := hstaged file hfile
  refine ⟨file.mode, ?_, fun _ hset => hmode hset⟩
  simp [w.tmpPath_ne.symm, ← hbytes]

/-- The temporary file has taken the place of the destination. -/
theorem Safe.moved (h : Safe files data w) (hoverwritten : w.overwritten = false)
    (hstaged : w.Staged) {file : RemoteFile} (hfile : w.files w.tmpPath = some file)
    (phase : RemoteWritePhase)
    (hphase : PhaseOk files
      { (w.put w.resolved (some file)).put w.tmpPath none with phase := phase }) :
    Safe files data { (w.put w.resolved (some file)).put w.tmpPath none with phase := phase } := by
  refine ⟨h.data, fun path hne hne' => ?_, fun _ => Or.inr (complete_moved hstaged hfile),
    fun hbegun => ?_, hphase⟩
  · have hother : ((w.put w.resolved (some file)).put w.tmpPath none).files path =
        (w.put w.resolved (some file)).files path := files_put_of_ne _ hne' none
    exact (hother.trans (files_put_of_ne _ hne _)).trans (h.frame path hne hne')
  · exact absurd (hoverwritten.symm.trans hbegun) (by simp)

theorem staged_of_gone (hgone : w.files w.tmpPath = none) : w.Staged := by
  intro file hfile
  rw [hgone] at hfile
  cases hfile

theorem Safe.rename (h : Safe files data w) {label lastErr : String} {attempts : List String}
    (hat : w.phase = .rename (label :: attempts) lastErr) {answer : SftpAnswer}
    (hrename : w.rename label attempts answer = some w') : Safe files data w' := by
  have hphase := h.phase
  simp only [PhaseOk, hat] at hphase
  obtain ⟨hoverwritten, hstaged⟩ := hphase
  obtain ⟨moved, hmoved, rfl⟩ := Option.map_eq_some_iff.mp hrename
  cases answer with
  | failed error =>
      cases hmoved
      cases attempts with
      | nil => exact h.next _ hoverwritten
      | cons next attempts => exact h.next _ ⟨hoverwritten, hstaged⟩
  | done =>
      obtain ⟨file, hfile, rfl⟩ := Option.map_eq_some_iff.mp hmoved
      exact h.moved hoverwritten hstaged hfile _ fun _ => complete_moved hstaged hfile
  | lost error =>
      obtain ⟨file, hfile, rfl⟩ := Option.map_eq_some_iff.mp hmoved
      cases attempts with
      | nil => exact h.moved hoverwritten hstaged hfile _ hoverwritten
      | cons next attempts =>
          exact h.moved hoverwritten hstaged hfile _
            ⟨hoverwritten, staged_of_gone (files_put_self _ _ none)⟩

/-! ## Writing the destination itself -/

/-- The destination is written, or a call for it fails. -/
theorem Safe.onto (h : Safe files data w) (hdata : w'.data = w.data)
    (hresolved : w'.resolved = w.resolved) (htmp : w'.tmpPath = w.tmpPath)
    (hoverwritten : w'.overwritten = true)
    (hfiles : ∀ path, path ≠ w.resolved → w'.files path = w.files path)
    {left written : List UInt8} {mode : Nat}
    (hfile : w'.files w.resolved = some ⟨written, mode⟩) (hwritten : written ++ left = w.data)
    (hphase : PhaseOk files w') : Safe files data w' := by
  refine ⟨hdata.trans h.data, fun path hne hne' => ?_, fun hwhole => ?_, fun _ => ?_, hphase⟩
  · rw [hresolved] at hne
    rw [htmp] at hne'
    rw [hfiles path hne, h.frame path hne hne']
  · simp [hoverwritten] at hwhole
  · exact ⟨written, mode, hresolved ▸ hfile, left, hdata ▸ hwritten⟩

theorem phaseOk_afterOverwrite {left written : List UInt8} {mode : Nat} (lastErr : String)
    (hoverwritten : w.overwritten = true) (hfile : w.files w.resolved = some ⟨written, mode⟩)
    (hwritten : written ++ left = w.data) :
    PhaseOk files { w with phase := afterOverwrite left lastErr } := by
  unfold afterOverwrite
  split
  · rename_i hnil
    rw [hnil, List.append_nil] at hwritten
    exact fun _ =>
      ⟨mode, hwritten ▸ hfile, fun hnot => absurd (hoverwritten.symm.trans hnot) (by simp)⟩
  · exact ⟨hoverwritten, written, mode, hfile, hwritten⟩

theorem phaseOk_failed (w : RemoteWrite) (error : String) :
    PhaseOk files { w with phase := .unlink (.error error) } := by
  intro hok
  cases hok

theorem Safe.openDestination (h : Safe files data w) (lastErr : String) (answer : SftpAnswer)
    (mode : Nat) : Safe files data (w.openDestination lastErr answer mode) := by
  cases answer with
  | failed error => exact h.next _ (phaseOk_failed w _)
  | done =>
      refine h.onto rfl rfl rfl rfl (fun path hne => files_put_of_ne w hne _)
        (files_put_self w _ _) (List.nil_append _) ?_
      exact phaseOk_afterOverwrite (w := { w.truncated w.resolved mode with overwritten := true })
        lastErr rfl (files_put_self w _ _) (List.nil_append _)
  | lost error =>
      exact h.onto rfl rfl rfl rfl (fun path hne => files_put_of_ne w hne _)
        (files_put_self w _ _) (List.nil_append _)
        (phaseOk_failed { w.truncated w.resolved mode with overwritten := true } _)

/-- More of the contents is written to the destination. -/
theorem Safe.overwrite (h : Safe files data w) {left : List UInt8} {lastErr : String}
    (hat : w.phase = .overwrite left lastErr) (count : Nat) :
    Safe files data { w.appended w.resolved (left.take count) with
        phase := afterOverwrite (left.drop count) lastErr } ∧
      ∀ error, Safe files data { w.appended w.resolved (left.take count) with
        phase := .unlink (.error error) } := by
  have hphase := h.phase
  simp only [PhaseOk, hat] at hphase
  obtain ⟨hoverwritten, written, mode, hfile, hwritten⟩ := hphase
  have hall : (written ++ left.take count) ++ left.drop count = w.data := by
    rw [List.append_assoc, List.take_append_drop]
    exact hwritten
  have hmore : (w.appended w.resolved (left.take count)).files w.resolved =
      some ⟨written ++ left.take count, mode⟩ := by
    rw [appended_of_some hfile, files_put_self]
  have hothers : ∀ path, path ≠ w.resolved →
      (w.appended w.resolved (left.take count)).files path = w.files path :=
    fun path hne => files_put_of_ne w hne _
  constructor
  · exact h.onto rfl rfl rfl hoverwritten hothers hmore hall
      (phaseOk_afterOverwrite (w := w.appended w.resolved (left.take count)) lastErr hoverwritten
        hmore hall)
  · intro error
    exact h.onto rfl rfl rfl hoverwritten hothers hmore hall
      (phaseOk_failed (w.appended w.resolved (left.take count)) error)

/-! ## All calls -/

theorem Safe.unlink (h : Safe files data w) {result : Except String Unit}
    (hresult : result = .ok () → w.Complete) (answer : SftpAnswer) :
    Safe files data (w.unlink answer result) := by
  have hkept : result = .ok () → (w.put w.tmpPath none).Complete := by
    intro hok
    obtain ⟨mode, hfile, hbits⟩ := hresult hok
    exact ⟨mode, (files_put_of_ne w w.tmpPath_ne.symm none).trans hfile, hbits⟩
  unfold RemoteWrite.unlink
  cases hperformed : answer.performed with
  | false => exact h.next _ hresult
  | true => exact h.put none _ hkept

theorem Safe.step (h : Safe files data w) {move : SftpMove} (hstep : w.step move = some w') :
    Safe files data w' := by
  have hphase := h.phase
  unfold RemoteWrite.step at hstep
  split at hstep
  · rename_i path hat
    cases hstep
    exact h.realpath hat path
  · rename_i answered hat
    cases hstep
    exact h.stat hat answered
  · rename_i answer mode hat
    cases hstep
    exact h.openTemp hat answer mode
  · rename_i left count hat
    cases hstep
    exact h.write hat count
  · rename_i left count error hat
    cases hstep
    exact h.writeFails hat count _
  · rename_i error answer hat
    cases hstep
    exact h.unlink (fun hok => by cases hok) answer
  · rename_i answer hat
    cases hstep
    exact h.setstat hat answer
  · rename_i label attempts lastErr answer hat
    exact h.rename hat hstep
  · rename_i lastErr answer mode hat
    cases hstep
    exact h.openDestination lastErr answer mode
  · rename_i left lastErr count hat
    cases hstep
    exact (h.overwrite hat count).1
  · rename_i left lastErr count error hat
    cases hstep
    exact (h.overwrite hat count).2 _
  · rename_i result answer hat
    cases hstep
    simp only [PhaseOk, hat] at hphase
    exact h.unlink hphase answer
  · cases hstep

/-! ## The permission bits -/

/-- `stat` was called. -/
def StatCalled : RemoteWritePhase → Prop
  | .realpath | .stat => False
  | _ => True

@[simp] theorem statCalled_afterWrite (left : List UInt8) : StatCalled (afterWrite left) := by
  unfold afterWrite
  split <;> trivial

@[simp] theorem statCalled_afterOverwrite (left : List UInt8) (lastErr : String) :
    StatCalled (afterOverwrite left lastErr) := by
  unfold afterOverwrite
  split <;> trivial

/-- What `stat` told is kept, and it is not called again. -/
def ModeKept (w w' : RemoteWrite) : Prop :=
  StatCalled w'.phase ∧ w'.destMode = w.destMode ∧ w'.resolved = w.resolved

theorem modeKept_openTemp (w : RemoteWrite) (answer : SftpAnswer) (mode : Nat) :
    w.ModeKept (w.openTemp answer mode) := by
  cases answer with
  | done => exact ⟨statCalled_afterWrite _, rfl, rfl⟩
  | failed error | lost error => exact ⟨trivial, rfl, rfl⟩

theorem modeKept_openDestination (w : RemoteWrite) (lastErr : String) (answer : SftpAnswer)
    (mode : Nat) : w.ModeKept (w.openDestination lastErr answer mode) := by
  cases answer with
  | done => exact ⟨statCalled_afterOverwrite _ _, rfl, rfl⟩
  | failed error | lost error => exact ⟨trivial, rfl, rfl⟩

theorem modeKept_setstat (w : RemoteWrite) (answer : SftpAnswer) :
    w.ModeKept (w.setstat answer) := by
  cases answer <;> exact ⟨trivial, rfl, rfl⟩

theorem modeKept_unlink (w : RemoteWrite) (answer : SftpAnswer) (result : Except String Unit) :
    w.ModeKept (w.unlink answer result) := by
  cases answer <;> exact ⟨trivial, rfl, rfl⟩

theorem modeKept_rename {label : String} {attempts : List String} {answer : SftpAnswer}
    (h : w.rename label attempts answer = some w') : w.ModeKept w' := by
  obtain ⟨moved, hmoved, rfl⟩ := Option.map_eq_some_iff.mp h
  have hsame : moved.destMode = w.destMode ∧ moved.resolved = w.resolved := by
    split at hmoved
    · obtain ⟨file, -, rfl⟩ := Option.map_eq_some_iff.mp hmoved
      exact ⟨rfl, rfl⟩
    · cases hmoved
      exact ⟨rfl, rfl⟩
  refine ⟨?_, hsame⟩
  cases answer <;> cases attempts <;> trivial

theorem step_of_statCalled (h : StatCalled w.phase) {move : SftpMove}
    (hstep : w.step move = some w') :
    w.ModeKept w' ∧ ∀ answered, move ≠ .stat answered := by
  unfold RemoteWrite.step at hstep
  split at hstep
  case h_1 hat | h_2 hat => exact absurd h (by simp [hat, StatCalled])
  case h_8 => exact ⟨modeKept_rename hstep, by simp⟩
  case h_13 => cases hstep
  all_goals
    cases hstep
    refine ⟨?_, by simp⟩
  · exact w.modeKept_openTemp _ _
  · exact ⟨statCalled_afterWrite _, rfl, rfl⟩
  · exact ⟨trivial, rfl, rfl⟩
  · exact w.modeKept_unlink _ _
  · exact w.modeKept_setstat _
  · exact w.modeKept_openDestination _ _ _
  · exact ⟨statCalled_afterOverwrite _ _, rfl, rfl⟩
  · exact ⟨trivial, rfl, rfl⟩
  · exact w.modeKept_unlink _ _

/-- The mode of the destination is looked up once. -/
theorem destMode_of_statCalled (h : StatCalled w.phase) {moves : List SftpMove}
    (hrun : run step w moves = some w') :
    w'.destMode = w.destMode ∧ w'.resolved = w.resolved ∧
      ∀ answered, .stat answered ∉ moves := by
  induction moves generalizing w with
  | nil =>
      cases hrun
      exact ⟨rfl, rfl, fun _ => List.not_mem_nil⟩
  | cons move moves ih =>
      obtain ⟨next, hstep, hrest⟩ := run_cons_eq_some hrun
      obtain ⟨⟨hcalled, hmode, hresolved⟩, hmove⟩ := step_of_statCalled h hstep
      obtain ⟨hmode', hresolved', hmoves⟩ := ih hcalled hrest
      refine ⟨hmode'.trans hmode, hresolved'.trans hresolved, fun answered hmem => ?_⟩
      cases List.mem_cons.mp hmem with
      | inl heq => exact hmove answered heq.symm
      | inr hmem => exact hmoves answered hmem

def permissionBits (file : Option RemoteFile) : Nat :=
  (file.map fun file => file.mode % 0o1000).getD DEFAULT_REMOTE_FILE_MODE

theorem destMode_of_run {remotePath : String} {pid nanos : Nat} {moves : List SftpMove}
    (hrun : run step (start files remotePath data pid nanos) moves = some w) :
    (.stat true ∈ moves → w.destMode = permissionBits (files w.resolved)) ∧
      (.stat true ∉ moves → w.destMode = DEFAULT_REMOTE_FILE_MODE) := by
  cases moves with
  | nil =>
      cases hrun
      simp [start]
  | cons first moves =>
      obtain ⟨resolved, hfirst, hrest⟩ := run_cons_eq_some hrun
      cases first with
      | realpath path =>
          cases hfirst
          cases moves with
          | nil =>
              cases hrest
              simp [start]
          | cons second moves =>
              obtain ⟨called, hsecond, hafter⟩ := run_cons_eq_some hrest
              cases second with
              | stat answered =>
                  cases hsecond
                  obtain ⟨hmode, hresolved, hmoves⟩ := destMode_of_statCalled (by trivial) hafter
                  rw [hmode, hresolved]
                  cases answered with
                  | true => simp [start, permissionBits, Function.comp_def]
                  | false => simp [hmoves true]
              | _ => simp [step] at hsecond
      | _ => simp [step, start] at hfirst

/--
Whatever the server does and answers, and wherever the connection ends: as long as
the destination itself was not opened for writing, it is what it was or all that was
to be written, and after that a beginning of it. A success is reported only with all
of it in place, under the permission bits of the destination if these were set; they
are what `stat` answered, or the default if it gave none. No file changes but the
destination and the temporary file.
-/
theorem remote_write_is_safe {remotePath : String} {pid nanos : Nat} {moves : List SftpMove}
    (hrun : run step (start files remotePath data pid nanos) moves = some w) :
    (∀ path, path ≠ w.resolved → path ≠ w.tmpPath → w.files path = files path) ∧
      (w.overwritten = false → w.files w.resolved = files w.resolved ∨
        ∃ mode, w.files w.resolved = some ⟨data, mode⟩) ∧
      (w.overwritten = true → ∃ written mode, w.files w.resolved = some ⟨written, mode⟩ ∧
        written <+: data) ∧
      (w.phase = .over (.ok ()) → ∃ mode, w.files w.resolved = some ⟨data, mode⟩ ∧
        (w.overwritten = false → w.modeSet = true → mode = w.destMode)) ∧
      (.stat true ∈ moves → w.destMode = permissionBits (files w.resolved)) ∧
      (.stat true ∉ moves → w.destMode = DEFAULT_REMOTE_FILE_MODE) := by
  have h : Safe files data w := invariant_of_run (Safe files data)
    (fun _ _ _ h hstep => h.step hstep) (safe_start files remotePath data pid nanos) hrun
  refine ⟨h.frame, fun hwhole => ?_, fun hbegun => ?_, fun hover => ?_, destMode_of_run hrun⟩
  · cases h.whole hwhole with
    | inl huntouched => exact Or.inl huntouched.2
    | inr hcomplete =>
        obtain ⟨mode, hfile, -⟩ := hcomplete
        exact Or.inr ⟨mode, h.data ▸ hfile⟩
  · rw [← h.data]
    exact h.begun hbegun
  · have hphase := h.phase
    simp only [PhaseOk, hover] at hphase
    rw [← h.data]
    exact hphase trivial

/-- The renames are refused or their answers are lost. -/
theorem remote_write_is_safe_sample :
    ∃ w, run step (start (fun path => if path = "/f" then some ⟨[1], 0o600⟩ else none) "/f" [2, 3]
        7 0) [.realpath none, .stat true, .open_ .done 0o644, .write 1, .write 1, .setstat .done,
          .rename (.failed "unsupported"), .rename (.lost "timeout")] = some w ∧
      w.overwritten = false ∧ w.files "/g" = none ∧
      (w.files w.resolved = some ⟨[1], 0o600⟩ ∨
        ∃ mode, w.files w.resolved = some ⟨[2, 3], mode⟩) := by
  have hdecided : ∃ w, run step (start (fun path => if path = "/f" then some ⟨[1], 0o600⟩ else none)
      "/f" [2, 3] 7 0) [.realpath none, .stat true, .open_ .done 0o644, .write 1, .write 1,
        .setstat .done, .rename (.failed "unsupported"), .rename (.lost "timeout")] = some w ∧
      w.overwritten = false ∧ w.resolved = "/f" ∧ w.tmpPath ≠ "/g" :=
    exists_of_any (by decide +kernel)
  obtain ⟨w, hrun, hoverwritten, hresolved, htmp⟩ := hdecided
  obtain ⟨hframe, hwhole, -⟩ := remote_write_is_safe hrun
  refine ⟨w, hrun, hoverwritten, ?_, ?_⟩
  · rw [hframe "/g" (by rw [hresolved]; decide) htmp.symm]
    rfl
  · have hwhole := hwhole hoverwritten
    rw [hresolved] at hwhole ⊢
    exact hwhole

end RemoteWrite

end Fulgur
