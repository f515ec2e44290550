import Fulgur.Library.Run
import Fulgur.Files.LocalSave

/-! # Buffers survive quitting

The baseline of a local tab is always the text of its file or of the save that
is running for it. Quitting while such a save is running trusts a baseline whose
write has not landed; in every run that waits for it, the process leaves each
buffer in its file or in the last snapshot.
-/

namespace Fulgur

open LabelledRun

/-- The file holds a text: as it was read, or as the tab's encoding writes it. -/
def FileView.Holds (encodings : Encodings) (file : FileView) (encoding text : String) : Prop :=
  ∃ bytes ∈ file.contents, encodeForSave encodings text encoding = .encoded bytes ∨
    (detectEncodingAndDecode encodings bytes).content = text

instance (encodings : Encodings) (file : FileView) (encoding text : String) :
    Decidable (file.Holds encodings encoding text) :=
  inferInstanceAs (Decidable (∃ bytes ∈ file.contents, _))

namespace Session

/-- The last snapshot carries the buffer of the tab. -/
def Carries (persisted : List TabState) (tab : EditorTab) : Prop :=
  ∃ state ∈ persisted, state.tabId = tab.id ∧
    state.content.map TabContent.toText = some tab.content.toText

instance (persisted : List TabState) (tab : EditorTab) : Decidable (Carries persisted tab) :=
  inferInstanceAs (Decidable (∃ state ∈ persisted, _))

/-- After exit the buffer is in the file or in the last snapshot. -/
def Recoverable (encodings : Encodings) (s : Session) (tab : EditorTab) (path : PathBuf) : Prop :=
  (s.disk path).Holds encodings tab.encoding tab.content.toText ∨ Carries s.persisted tab

instance (encodings : Encodings) (s : Session) (tab : EditorTab) (path : PathBuf) :
    Decidable (s.Recoverable encodings tab path) :=
  inferInstanceAs (Decidable (_ ∨ _))

/-- The fingerprint of a text as a tab keeps it. -/
def IsBaseline (tab : EditorTab) (text : String) : Prop :=
  contentFingerprintFromStr text = (tab.originalContentHash, tab.originalContentLen)

/-- Quitting waits for every save whose text is still in the buffer. -/
def SavesLanded (s : Session) : Prop :=
  ∀ tab ∈ s.tabs, ∀ save ∈ s.inflightSaves tab.id,
    save.writeResult = some true ∨ tab.contentDiffersFromOriginal = true

/--
What a run must keep to: every text of a buffer or an opened file is one of
`Texts`, a file is open in one tab at most, no saved buffer was restored onto its
path, and quitting waits for the saves.
-/
def SafeStep (encodings : Encodings) (parse : String → Option Int) (Texts : String → Prop)
    (s : Session) : SessionAction → Prop
  | .openFile _ path =>
      (∀ tab ∈ s.tabs, tab.location ≠ .localPath path) ∧
        ∀ bytes ∈ (s.disk path).contents, Texts (detectEncodingAndDecode encodings bytes).content
  | .restoreTab state =>
      ∀ path ∈ state.filePath, (∀ tab ∈ s.tabs, tab.location ≠ .localPath path) ∧
        (∀ content ∈ state.content,
          restoreDecision parse s.disk state ≠ .useSavedContentWithPath path content.toText) ∧
        ∀ bytes ∈ (s.disk path).contents, Texts (detectEncodingAndDecode encodings bytes).content
  | .edit _ content => Texts content.toText
  | .replace _ content => Texts content.toText
  | .quit _ => s.SavesLanded
  | _ => True

instance (encodings : Encodings) (parse : String → Option Int) (Texts : String → Prop)
    [DecidablePred Texts] (s : Session) (action : SessionAction) :
    Decidable (s.SafeStep encodings parse Texts action) :=
  match action with
  | .openFile _ _ => inferInstanceAs (Decidable (_ ∧ _))
  | .restoreTab state => inferInstanceAs (Decidable (∀ path ∈ state.filePath, _ ∧ _ ∧ _))
  | .edit _ content => inferInstanceAs (Decidable (Texts content.toText))
  | .replace _ content => inferInstanceAs (Decidable (Texts content.toText))
  | .quit _ => inferInstanceAs (Decidable (∀ tab ∈ s.tabs, ∀ save ∈ s.inflightSaves tab.id, _ ∨ _))
  | .save _ => isTrue trivial
  | .write _ _ _ => isTrue trivial
  | .complete _ => isTrue trivial
  | .saveStateAsync => isTrue trivial
  | .flush _ => isTrue trivial
  | .exit => isTrue trivial

/-! ## The text behind a baseline -/

/-- The file, or the save that is running, holds the text of a tab's baseline. -/
def Backed (encodings : Encodings) (Texts : String → Prop) (file : FileView)
    (inflight : Option BackgroundSave) (tab : EditorTab) : Prop :=
  ∃ text, Texts text ∧ IsBaseline tab text ∧
    match inflight with
    | none => file.Holds encodings tab.encoding text
    | some save =>
        encodeForSave encodings text tab.encoding = .encoded save.bytes ∧
          match save.writeResult with
          | some true => file.contents = some save.bytes
          | _ => ∃ baseline old, save.completion.previousBaseline = some baseline ∧ Texts old ∧
              contentFingerprintFromStr old = (baseline.hash, baseline.len) ∧
              file.Holds encodings tab.encoding old

variable {encodings : Encodings} {parse : String → Option Int} {Texts : String → Prop}
  {file : FileView} {inflight : Option BackgroundSave} {tab tab' : EditorTab}

theorem Backed.edit (h : Backed encodings Texts file inflight tab) (content : Rope) :
    Backed encodings Texts file inflight (tab.edit content) := by
  rcases tab.edit_eq content with ⟨modified, hedit⟩
  rw [hedit]
  exact h

theorem Backed.saved {save : BackgroundSave} (h : Backed encodings Texts file none tab)
    (hlarge : tab.largeFile = false) (htext : Texts tab.content.toText)
    (hencode : encodeForSave encodings tab.content.toText tab.encoding = .encoded save.bytes)
    (hpending : save.writeResult = none)
    (hbaseline : save.completion.previousBaseline = some tab.savedBaseline) :
    Backed encodings Texts file (some save) tab.markAsSaved := by
  rcases h with ⟨old, hold, hfingerprint, hholds⟩
  refine ⟨tab.content.toText, htext, ?_, hencode, ?_⟩
  · show contentFingerprintFromStr tab.content.toText = _
    simp [EditorTab.markAsSaved, hlarge, contentFingerprintFromRope_eq]
  · rw [hpending]
    exact ⟨tab.savedBaseline, old, hbaseline, hold, hfingerprint, hholds⟩

theorem Backed.landed {save : BackgroundSave}
    (h : Backed encodings Texts file (some save) tab) {newFile : FileView}
    (hfile : newFile.contents = some save.bytes) :
    Backed encodings Texts newFile (some { save with writeResult := some true }) tab := by
  rcases h with ⟨text, htext, hfingerprint, hencode, _⟩
  exact ⟨text, htext, hfingerprint, hencode, hfile⟩

theorem Backed.writeFailed {save : BackgroundSave} (h : Backed encodings Texts file (some save) tab)
    (hpending : save.writeResult = none) :
    Backed encodings Texts file (some { save with writeResult := some false }) tab := by
  rcases h with ⟨text, htext, hfingerprint, hencode, hold⟩
  rw [hpending] at hold
  exact ⟨text, htext, hfingerprint, hencode, hold⟩

theorem Backed.completed {save : BackgroundSave} (h : Backed encodings Texts file (some save) tab)
    (hresult : save.writeResult = some true) : Backed encodings Texts file none tab := by
  rcases h with ⟨text, htext, hfingerprint, hencode, hfile⟩
  rw [hresult] at hfile
  exact ⟨text, htext, hfingerprint, ⟨_, hfile, Or.inl hencode⟩⟩

theorem Backed.rolledBack {save : BackgroundSave} (h : Backed encodings Texts file (some save) tab)
    (hlarge : tab.largeFile = false) (hresult : save.writeResult = some false) :
    Backed encodings Texts file none (handleFailedSave save.completion tab) := by
  rcases h with ⟨text, htext, hfingerprint, hencode, hold⟩
  rw [hresult] at hold
  rcases hold with ⟨baseline, old, hbaseline, hold, hfingerprint, hholds⟩
  unfold handleFailedSave
  simp only [hbaseline, hlarge]
  exact ⟨old, hold, hfingerprint, hholds⟩

theorem backed_of_read {bytes : List UInt8} (hfile : file.contents = some bytes)
    (htext : tab.content.toText = (detectEncodingAndDecode encodings bytes).content)
    (hin : Texts (detectEncodingAndDecode encodings bytes).content)
    (hlarge : tab.largeFile = false) (hsame : tab.contentDiffersFromOriginal = false) :
    Backed encodings Texts file none tab :=
  ⟨tab.content.toText, htext ▸ hin, (EditorTab.contentDiffers_eq_false_iff hlarge).mp hsame,
    ⟨bytes, hfile, Or.inr htext.symm⟩⟩

/-- A buffer that equals a backed baseline, with no write to wait for, is in the file. -/
theorem Backed.holds (h : Backed encodings Texts file inflight tab)
    (hinj : ∀ a b, Texts a → Texts b →
      contentFingerprintFromStr a = contentFingerprintFromStr b → a = b)
    (hlarge : tab.largeFile = false) (htext : Texts tab.content.toText)
    (hsame : tab.contentDiffersFromOriginal = false)
    (hlanded : ∀ save ∈ inflight, save.writeResult = some true) :
    file.Holds encodings tab.encoding tab.content.toText := by
  rcases h with ⟨text, hin, hfingerprint, hholds⟩
  have hbuffer := (EditorTab.contentDiffers_eq_false_iff hlarge).mp hsame
  have hequal : tab.content.toText = text := hinj _ _ htext hin (hbuffer.trans hfingerprint.symm)
  rw [hequal]
  cases inflight with
  | none => exact hholds
  | some save =>
      rcases hholds with ⟨hencode, hfile⟩
      rw [hlanded save rfl] at hfile
      exact ⟨_, hfile, Or.inl hencode⟩

/-! ## Tabs and their places -/

/-- Ids and local paths tell the open tabs apart. -/
structure Apart (tabs : List EditorTab) : Prop where
  ids : ∀ a ∈ tabs, ∀ b ∈ tabs, a.id = b.id → a = b
  paths : ∀ a ∈ tabs, ∀ b ∈ tabs, ∀ path,
    a.location = .localPath path → b.location = .localPath path → a = b

/-- A change of some tab in place keeps the tabs apart. -/
theorem Apart.update {tabs : List EditorTab} (h : Apart tabs) (tabId : Nat)
    {f : EditorTab → EditorTab} (hf : KeepsPlace f) : Apart (updateEditorTab tabs tabId f) := by
  have hkeeps : ∀ tab ∈ updateEditorTab tabs tabId f, ∃ old ∈ tabs,
      tab = (if old.id = tabId then f old else old) ∧ tab.id = old.id ∧
        tab.location = old.location := by
    intro tab htab
    rcases mem_updateEditorTab htab with ⟨old, hold, ⟨hsame, rfl⟩ | ⟨hother, rfl⟩⟩
    · exact ⟨old, hold, (if_pos hsame).symm, hf.id old, hf.location old⟩
    · exact ⟨tab, hold, (if_neg hother).symm, rfl, rfl⟩
  constructor
  · intro a ha b hb hab
    rcases hkeeps a ha with ⟨a', ha', hfa, hida, _⟩
    rcases hkeeps b hb with ⟨b', hb', hfb, hidb, _⟩
    have hsame : a' = b' := h.ids a' ha' b' hb' (by rw [← hida, ← hidb, hab])
    rw [hfa, hfb, hsame]
  · intro a ha b hb path hla hlb
    rcases hkeeps a ha with ⟨a', ha', hfa, _, hloca⟩
    rcases hkeeps b hb with ⟨b', hb', hfb, _, hlocb⟩
    have hsame : a' = b' := h.paths a' ha' b' hb' path (hloca ▸ hla) (hlocb ▸ hlb)
    rw [hfa, hfb, hsame]

theorem Apart.append {tabs : List EditorTab} (h : Apart tabs) {tab : EditorTab}
    (hid : ∀ old ∈ tabs, old.id ≠ tab.id)
    (hpath : ∀ path, tab.location = .localPath path →
      ∀ old ∈ tabs, old.location ≠ .localPath path) :
    Apart (tabs ++ [tab]) := by
  constructor
  · intro a ha b hb hab
    rcases List.mem_append.mp ha with ha | ha <;> rcases List.mem_append.mp hb with hb | hb
    · exact h.ids a ha b hb hab
    · rw [List.mem_singleton.mp hb] at hab
      exact absurd hab (hid a ha)
    · rw [List.mem_singleton.mp ha] at hab
      exact absurd hab.symm (hid b hb)
    · rw [List.mem_singleton.mp ha, List.mem_singleton.mp hb]
  · intro a ha b hb path hla hlb
    rcases List.mem_append.mp ha with ha | ha <;> rcases List.mem_append.mp hb with hb | hb
    · exact h.paths a ha b hb path hla hlb
    · rw [List.mem_singleton.mp hb] at hlb
      exact absurd hla (hpath path hlb a ha)
    · rw [List.mem_singleton.mp ha] at hla
      exact absurd hlb (hpath path hla b hb)
    · rw [List.mem_singleton.mp ha, List.mem_singleton.mp hb]

/-! ## The invariant of a session -/

/-- A tab the last snapshot answers for, or whose file already has the buffer. -/
def Kept (s : Session) (tab : EditorTab) : Prop :=
  Carries s.persisted tab ∨ (tab.contentDiffersFromOriginal = false ∧
    ∀ save ∈ s.inflightSaves tab.id, save.writeResult = some true)

structure Sound (encodings : Encodings) (Texts : String → Prop) (s : Session) : Prop where
  apart : Apart s.tabs
  /-- A running save belongs to an open tab and writes to its path. -/
  owned : ∀ tabId save, s.inflightSaves tabId = some save →
    ∃ tab ∈ s.tabs, tab.id = tabId ∧ tab.location = .localPath save.completion.path
  backed : ∀ tab ∈ s.tabs, ∀ path, tab.location = .localPath path → tab.largeFile = false →
    Texts tab.content.toText ∧
      Backed encodings Texts (s.disk path) (s.inflightSaves tab.id) tab
  /-- Once the last snapshot is written nothing is waiting to replace it. -/
  idle : s.phase ≠ .running → s.mailbox = none
  kept : s.phase ≠ .running → ∀ tab ∈ s.tabs, ∀ path, tab.location = .localPath path →
    tab.contentTooLargeToPersist = false → s.Kept tab

variable {s t : Session}

theorem sound_launched (disk : Disk) (persisted : List TabState) :
    Sound encodings Texts (launched disk persisted) where
  apart := ⟨by simp [launched], by simp [launched]⟩
  owned := by simp [launched]
  backed := by simp [launched]
  idle := by simp [launched]
  kept := by simp [launched]

/-- A tab that has no path, or is backed by its file, can join a running session. -/
theorem Sound.append (hs : Sound encodings Texts s) (hphase : s.phase = .running)
    (hid : ∀ old ∈ s.tabs, old.id ≠ tab.id)
    (hpath : ∀ path, tab.location = .localPath path →
      (∀ old ∈ s.tabs, old.location ≠ .localPath path) ∧
        (tab.largeFile = false → Texts tab.content.toText ∧
          Backed encodings Texts (s.disk path) none tab)) :
    Sound encodings Texts { s with tabs := s.tabs ++ [tab] } where
  apart := hs.apart.append hid fun path hloc => (hpath path hloc).1
  owned := by
    intro tabId save hsave
    rcases hs.owned tabId save hsave with ⟨old, hold, hplace⟩
    exact ⟨old, List.mem_append_left _ hold, hplace⟩
  backed := by
    intro other hother path hloc hlarge
    rcases List.mem_append.mp hother with hold | hnew
    · exact hs.backed other hold path hloc hlarge
    · rw [List.mem_singleton.mp hnew] at hloc hlarge ⊢
      have hidle : s.inflightSaves tab.id = none := by
        cases hsave : s.inflightSaves tab.id with
        | none => rfl
        | some save =>
            rcases hs.owned tab.id save hsave with ⟨old, hold, hsame, _⟩
            exact absurd hsame (hid old hold)
      show _ ∧ Backed encodings Texts (s.disk path) (s.inflightSaves tab.id) tab
      rw [hidle]
      exact (hpath path hloc).2 hlarge
  idle := fun h => absurd hphase h
  kept := fun h => absurd hphase h

/-- Changing one tab in place, and its save with it, keeps a running session sound. -/
theorem Sound.update (hs : Sound encodings Texts s) (hphase : s.phase = .running) (tabId : Nat)
    (inflight : Option BackgroundSave) {f : EditorTab → EditorTab} (hf : KeepsPlace f)
    (howned : ∀ save ∈ inflight, ∃ tab ∈ s.tabs, tab.id = tabId ∧
      tab.location = .localPath save.completion.path)
    (hbacked : ∀ tab ∈ s.tabs, tab.id = tabId → ∀ path, tab.location = .localPath path →
      tab.largeFile = false → Texts tab.content.toText →
      Backed encodings Texts (s.disk path) (s.inflightSaves tabId) tab →
      Texts (f tab).content.toText ∧ Backed encodings Texts (s.disk path) inflight (f tab)) :
    Sound encodings Texts { s with
      inflightSaves := Function.update s.inflightSaves tabId inflight
      tabs := updateEditorTab s.tabs tabId f } where
  apart := hs.apart.update tabId hf
  owned := by
    have hmoved : ∀ old ∈ s.tabs, ∃ tab ∈ updateEditorTab s.tabs tabId f,
        tab.id = old.id ∧ tab.location = old.location := by
      intro old hold
      refine ⟨if old.id = tabId then f old else old, List.mem_map_of_mem hold, ?_⟩
      split
      · exact ⟨hf.id old, hf.location old⟩
      · exact ⟨rfl, rfl⟩
    intro other save hsave
    change Function.update s.inflightSaves tabId inflight other = some save at hsave
    by_cases hother : other = tabId
    · subst hother
      rw [Function.update_self] at hsave
      rcases howned save hsave with ⟨old, hold, hsame, hplace⟩
      rcases hmoved old hold with ⟨tab, htab, htabId, htabLoc⟩
      exact ⟨tab, htab, htabId.trans hsame, htabLoc.trans hplace⟩
    · rw [Function.update_of_ne hother] at hsave
      rcases hs.owned other save hsave with ⟨old, hold, hsame, hplace⟩
      rcases hmoved old hold with ⟨tab, htab, htabId, htabLoc⟩
      exact ⟨tab, htab, htabId.trans hsame, htabLoc.trans hplace⟩
  backed := by
    intro tab htab path hplace hsmall
    rcases mem_updateEditorTab htab with ⟨old, hold, ⟨hsame, rfl⟩ | ⟨hother, rfl⟩⟩
    · rw [hf.location] at hplace
      rw [hf.largeFile] at hsmall
      rcases hs.backed old hold path hplace hsmall with ⟨htext, hback⟩
      rw [hsame] at hback
      show _ ∧ Backed encodings Texts (s.disk path)
        (Function.update s.inflightSaves tabId inflight (f old).id) (f old)
      rw [hf.id, hsame, Function.update_self]
      exact hbacked old hold hsame path hplace hsmall htext hback
    · show _ ∧ Backed encodings Texts (s.disk path)
        (Function.update s.inflightSaves tabId inflight tab.id) tab
      rw [Function.update_of_ne hother]
      exact hs.backed tab hold path hplace hsmall
  idle := fun h => absurd hphase h
  kept := fun h => absurd hphase h

/-- A background write, whether it lands or fails, keeps a session sound. -/
theorem Sound.written (hs : Sound encodings Texts s) {tabId : Nat} {save : BackgroundSave}
    (hsave : s.inflightSaves tabId = some save) (hpending : save.writeResult = none)
    (succeeds : Bool) {disk : Disk}
    (hdisk : ∀ path, path ≠ save.completion.path → disk path = s.disk path)
    (hlanded : succeeds = true → (disk save.completion.path).contents = some save.bytes)
    (hfailed : succeeds = false → disk = s.disk) :
    Sound encodings Texts { s with
      inflightSaves := Function.update s.inflightSaves tabId
        (some { save with writeResult := some succeeds })
      disk := disk } where
  apart := hs.apart
  owned := by
    intro other save' hsave'
    change Function.update s.inflightSaves tabId _ other = some save' at hsave'
    by_cases hother : other = tabId
    · subst hother
      rw [Function.update_self] at hsave'
      cases hsave'
      exact hs.owned other save hsave
    · rw [Function.update_of_ne hother] at hsave'
      exact hs.owned other save' hsave'
  backed := by
    intro tab htab path hplace hsmall
    rcases hs.backed tab htab path hplace hsmall with ⟨htext, hback⟩
    refine ⟨htext, ?_⟩
    show Backed encodings Texts (disk path) (Function.update s.inflightSaves tabId _ tab.id) tab
    rcases hs.owned tabId save hsave with ⟨owner, howner, hsame, hpath⟩
    by_cases hid : tab.id = tabId
    · have hequal : tab = owner := hs.apart.ids tab htab owner howner (hid.trans hsame.symm)
      rw [hequal, hpath] at hplace
      cases hplace
      rw [hid, Function.update_self]
      rw [hid, hsave] at hback
      cases succeeds with
      | true => exact hback.landed (hlanded rfl)
      | false =>
          rw [hfailed rfl]
          exact hback.writeFailed hpending
    · have hne : path ≠ save.completion.path := by
        intro h
        rw [h] at hplace
        exact hid ((hs.apart.paths tab htab owner howner _ hplace hpath) ▸ hsame)
      rw [Function.update_of_ne hid, hdisk path hne]
      exact hback
  idle := hs.idle
  kept := by
    intro hphase tab htab path hplace hlimit
    rcases hs.kept hphase tab htab path hplace hlimit with hcarried | ⟨hsame, hwaits⟩
    · exact Or.inl hcarried
    · right
      refine ⟨hsame, fun save' hsave' => ?_⟩
      change save' ∈ Function.update s.inflightSaves tabId _ tab.id at hsave'
      by_cases hid : tab.id = tabId
      · -- the last snapshot waited for this save, so its write has run before
        rw [hid, hsave] at hwaits
        have hresult := hwaits save rfl
        rw [hpending] at hresult
        cases hresult
      · rw [Function.update_of_ne hid] at hsave'
        exact hwaits save' hsave'

/-- Quitting after the saves leaves each buffer in the snapshot or in its file. -/
theorem Sound.quit (hs : Sound encodings Texts s) (hlanded : s.SavesLanded) :
    Sound encodings Texts
      { s with mailbox := none, persisted := s.buildState, phase := .quitting } where
  apart := hs.apart
  owned := hs.owned
  backed := hs.backed
  idle := fun _ => rfl
  kept := by
    intro _ tab htab path hplace hlimit
    cases hdiffers : tab.contentDiffersFromOriginal with
    | true =>
        left
        have hsaves : savesContent true tab = true := by simp [savesContent, hdiffers, hlimit]
        have hstate := List.mem_filterMap.mpr
          ⟨tab, htab, buildTabState_local_saved s.disk hplace hsaves⟩
        exact ⟨_, hstate, rfl, rfl⟩
    | false =>
        right
        refine ⟨hdiffers, fun save hsave => ?_⟩
        rcases hlanded tab htab save hsave with hresult | hedited
        · exact hresult
        · rw [hdiffers] at hedited
          cases hedited

/-- Opening or restoring a tab from its file keeps a running session sound. -/
private theorem Sound.restored (hs : Sound encodings Texts s) (hphase : s.phase = .running)
    {state : TabState} (hfresh : ∀ old ∈ s.tabs, old.id ≠ state.tabId)
    (hsafe : s.SafeStep encodings parse Texts (.restoreTab state))
    (hrestore : restoreTabFromState encodings parse s.disk state state.tabId = some tab) :
    Sound encodings Texts { s with tabs := s.tabs ++ [tab] } := by
  apply hs.append hphase (restore_id hrestore ▸ hfresh)
  cases restoredFrom_of_restore hrestore with
  | remote remote hremote hloc => simp [hloc]
  | untitled content hcontent hremote hpath hloc => simp [hloc]
  | saved path content hdecision hpath hpresent hcontent hloc =>
      exact absurd hdecision ((hsafe path hpath).2.1 content hcontent)
  | file path hpath hcase hloc hread hsame =>
      intro path' hloc'
      rw [hloc] at hloc'
      cases hloc'
      rcases hsafe path hpath with ⟨hunique, _, hin⟩
      rcases hread with ⟨bytes, hbytes, htext⟩
      refine ⟨hunique, fun hlarge => ⟨htext ▸ hin bytes hbytes, ?_⟩⟩
      exact backed_of_read hbytes htext (hin bytes hbytes) hlarge hsame

/-- Every step that keeps to the rules keeps the session sound. -/
theorem Sound.step {action : SessionAction} (hs : Sound encodings Texts s)
    (hsafe : s.SafeStep encodings parse Texts action)
    (h : Transition encodings parse s action t) : Sound encodings Texts t := by
  cases h with
  | opened tabId path bytes hphase hfresh hread =>
      rcases hsafe with ⟨hunique, hin⟩
      apply hs.append hphase hfresh
      intro path' hloc'
      cases hloc'
      refine ⟨hunique, fun hlarge => ?_⟩
      have htext : (openedTab encodings tabId path bytes).content.toText =
          (detectEncodingAndDecode encodings bytes).content := by
        simp [openedTab, EditorTab.fromFile]
      refine ⟨htext ▸ hin bytes hread, backed_of_read hread htext (hin bytes hread) hlarge ?_⟩
      show (EditorTab.fromFile _).contentDiffersFromOriginal = false
      rw [EditorTab.contentDiffers_fromFile, Bool.and_false]
  | restored state tab hphase hfresh hrestore => exact hs.restored hphase hfresh hsafe hrestore
  | edited tabId content hphase =>
      have hupdate := hs.update hphase tabId (s.inflightSaves tabId) (keepsPlace_edit content)
        (fun save hsave => hs.owned tabId save hsave)
        (fun tab _ _ _ _ _ _ hback => ⟨(edit_content tab content).symm ▸ hsafe, hback.edit content⟩)
      rw [Function.update_eq_self] at hupdate
      exact hupdate
  | replaced tabId content hphase =>
      have hupdate := hs.update hphase tabId (s.inflightSaves tabId) (keepsPlace_setValue content)
        (fun save hsave => hs.owned tabId save hsave)
        (fun tab _ _ _ _ _ _ hback => ⟨hsafe, hback⟩)
      rw [Function.update_eq_self] at hupdate
      exact hupdate
  | notSaved tabId => exact hs
  | saved tab path bytes hphase htab hloc hencode hidle =>
      have hmem := List.mem_of_find?_eq_some htab
      apply hs.update hphase tab.id _ keepsPlace_markAsSaved
      · intro save hsave
        cases hsave
        exact ⟨tab, hmem, rfl, hloc⟩
      · intro old hold hsame path' hplace hlarge htext hback
        have hequal : old = tab := hs.apart.ids old hold tab hmem hsame
        subst hequal
        rw [hidle] at hback
        refine ⟨htext, hback.saved hlarge htext hencode rfl ?_⟩
        simp [dispatchedSave, captureSavedBaseline, htab]
  | landed tabId modified save hphase hsave hpending =>
      exact hs.written hsave hpending true
        (fun path hne => s.disk.write_of_ne save.bytes modified hne)
        (fun _ => s.disk.contents_write_self _ _ _) (fun h => by cases h)
  | writeFailed tabId modified save hphase hsave hpending =>
      exact hs.written hsave hpending false (fun _ _ => rfl) (fun h => by cases h) (fun _ => rfl)
  | completed tabId save hphase hsave hresult =>
      have hupdate := hs.update hphase tabId none keepsPlace_self (by simp)
        (fun tab _ _ _ _ _ htext hback => ⟨htext, Backed.completed (hsave ▸ hback) hresult⟩)
      rw [updateEditorTab_self] at hupdate
      exact hupdate
  | rolledBack tabId save hphase hsave hresult =>
      apply hs.update hphase tabId none (keepsPlace_handleFailedSave save.completion) (by simp)
      intro tab htab hid path hplace hlarge htext hback
      rw [hsave] at hback
      rw [handleFailedSave_content]
      exact ⟨htext, hback.rolledBack hlarge hresult⟩
  | snapshot hphase =>
      exact ⟨hs.apart, hs.owned, hs.backed, fun h => absurd hphase h, fun h => absurd hphase h⟩
  | flushed succeeds state hphase hmailbox =>
      have hrunning : s.phase = .running := by
        by_contra h
        rw [hs.idle h] at hmailbox
        cases hmailbox
      exact ⟨hs.apart, hs.owned, hs.backed, fun h => absurd hrunning h, fun h => absurd hrunning h⟩
  | quitFailed hphase =>
      exact ⟨hs.apart, hs.owned, hs.backed, fun h => absurd hphase h, fun h => absurd hphase h⟩
  | quit hphase => exact hs.quit hsafe
  | exited hphase =>
      have hleft : s.phase ≠ .running := by simp [hphase]
      exact ⟨hs.apart, hs.owned, hs.backed, fun _ => hs.idle hleft, fun _ => hs.kept hleft⟩

theorem Sound.recoverable (hs : Sound encodings Texts s) (hphase : s.phase = .exited)
    (hinj : ∀ a b, Texts a → Texts b →
      contentFingerprintFromStr a = contentFingerprintFromStr b → a = b)
    (htab : tab ∈ s.tabs) {path : PathBuf} (hloc : tab.location = .localPath path)
    (hlimit : tab.contentTooLargeToPersist = false) : s.Recoverable encodings tab path := by
  have hlarge : tab.largeFile = false := by
    unfold EditorTab.contentTooLargeToPersist at hlimit
    exact (Bool.or_eq_false_iff.mp hlimit).1
  rcases hs.backed tab htab path hloc hlarge with ⟨htext, hback⟩
  rcases hs.kept (by simp [hphase]) tab htab path hloc hlimit with hcarried | ⟨hsame, hlanded⟩
  · exact Or.inr hcarried
  · exact Or.inl (hback.holds hinj hlarge htext hsame hlanded)

end Session

open Session

/-- The file `/n` is opened, edited and saved; then the process quits. -/
def sampleEdits (landed : List SessionAction) : List SessionAction :=
  [.openFile 0 ⟨asBytes "/n"⟩, .edit 0 (.ofText "ab"), .save 0] ++ landed ++ [.quit true, .exit]

end Fulgur
