import Fulgur.Library.Run
import Fulgur.Files.EncodingRoundTrip
import Fulgur.Files.FileWatch
import Fulgur.Remote.Window
import Fulgur.Tabs.Transfer

/-! # Lossy decodes and the encodings of saves

A file whose bytes cannot be decoded is opened with replacement characters, and
its tab is flagged, so that a save asks before it writes them over the file; a
tab saves in the encoding it carries. Flag and encoding are set by each way a tab
comes about and each way it is given new contents; the encoding is the guessed one
also where a byte order mark made the decoder use another. Here every tab is traced
with where its text comes from, and every write with what it was made of: in which
runs nothing is written that should have been asked about first.
-/

namespace Fulgur

open LabelledRun

/-- The encoding that the text of a file was really decoded with. -/
def encodingUsed (encodings : Encodings) (bytes : List UInt8) : String :=
  match fromUtf8 bytes with
  | some _ => UTF_8
  | none =>
      let (_, used, hadErrors) := encodings.decode (encodings.guess bytes) bytes
      if hadErrors then UTF_8 else used

/-- Where the text of a buffer comes from. -/
structure Provenance where
  /-- It derives from bytes whose decoding was lossy, and no conversion was confirmed since. -/
  lossy : Bool
  /-- The encoding of its last decoding, and those the user confirmed since. -/
  encodings : List String
deriving DecidableEq

namespace Provenance

def decoded (encodings : Encodings) (bytes : List UInt8) : Provenance :=
  ⟨(detectEncodingAndDecode encodings bytes).lossy, [encodingUsed encodings bytes]⟩

/-- A text that was not decoded from any file. -/
def typed : Provenance := ⟨false, [UTF_8]⟩

/-- The user agrees to save as UTF-8. -/
def confirm (provenance : Provenance) : Provenance := ⟨false, UTF_8 :: provenance.encodings⟩

end Provenance

structure TracedTab where
  tab : EditorTab
  provenance : Provenance

/-- How far a "Save as" is. -/
inductive SaveAsStage where
  /-- The path prompt is open. -/
  | choosing
  /-- The text does not fit the encoding, and the user is asked. -/
  | asking (path : PathBuf) (contents : String)
  | writing
  | over

structure SaveAsRequest where
  tabId : Nat
  encoding : String
  stage : SaveAsStage

/-- A save whose write is under way, with its number when it is a "Save as". -/
structure DispatchedSave where
  completion : SaveCompletion
  request : Option Nat

/-- A write that a save sends off, and what it was made of. -/
structure FileWrite where
  location : TabLocation
  bytes : List UInt8
  encoding : String
  provenance : Provenance

structure TracedSession where
  tabs : List TracedTab
  inflightSaves : Nat → Option DispatchedSave
  saveAs : List SaveAsRequest
  /-- The tabs whose save waits for a lossy-save confirmation. -/
  askingLossy : Nat → Bool
  writes : List FileWrite

inductive TracedAction where
  | openFile (tabId : Nat) (path : PathBuf) (bytes : List UInt8)
  | newTab (tabId : Nat) (title : String)
  | openShared (tabId : Nat) (contents fileName : String)
  | openRemote (tabId : Nat) (spec : RemoteSpec) (bytes : List UInt8)
  | edit (tabId : Nat) (content : Rope)
  | reload (tabId : Nat) (bytes : List UInt8)
  | remoteReload (tabId : Nat) (spec : RemoteSpec) (bytes : List UInt8)
  | duplicate (tabId newId : Nat)
  | transfer (tabId newId : Nat)
  | close (tabId : Nat)
  | restart (persistUnsaved : Bool) (saved found : Disk)
  | save (tabId : Nat)
  | saveBlocking (tabId : Nat)
  | finishSave (tabId : Nat) (succeeded : Bool)
  | confirmLossySave (tabId activeId : Nat)
  | saveAs (tabId : Nat)
  | choosePath (index : Nat) (path : PathBuf)
  | confirmSaveAs (index : Nat)
  | finishSaveAs (index : Nat) (written : Option PathBuf)

/-- Whether a saved tab comes back with its saved text. -/
def restoresContent (parse : String → Option Int) (disk : Disk) (state : TabState) : Bool :=
  match restoreDecision parse disk state with
  | .restoreRemote _ content => content.isSome
  | .useSavedContentWithPath _ _ => true
  | .useSavedContentNoPath _ => true
  | .loadFromFile _ => false
  | .skip => false

namespace TracedTab

/-- The tab of a file that was just read. -/
def opened (encodings : Encodings) (tabId : Nat) (path : PathBuf) (bytes : List UInt8) :
    TracedTab :=
  ⟨Session.openedTab encodings tabId path bytes, .decoded encodings bytes⟩

/-- A tab that comes back from the session; a saved text is what it was before. -/
def restored (encodings : Encodings) (parse : String → Option Int) (disk : Disk)
    (state : TabState) (before : Provenance) (tab : EditorTab) : TracedTab where
  tab := tab
  provenance :=
    if restoresContent parse disk state then before
    else match restoreDecision parse disk state, state.filePath.bind fun path =>
        (disk path).contents with
      | .loadFromFile _, some bytes => .decoded encodings bytes
      | _, _ => .typed

end TracedTab

namespace TracedSession

def launched : TracedSession where
  tabs := []
  inflightSaves := fun _ => none
  saveAs := []
  askingLossy := fun _ => false
  writes := []

def find (s : TracedSession) (tabId : Nat) : Option TracedTab :=
  s.tabs.find? fun t => t.tab.id = tabId

def update (s : TracedSession) (tabId : Nat) (f : TracedTab → TracedTab) : TracedSession :=
  { s with tabs := s.tabs.map fun t => if t.tab.id = tabId then f t else t }

def add (s : TracedSession) (t : TracedTab) : TracedSession := { s with tabs := s.tabs ++ [t] }

/-- A save of a tab is sent off, and the tab counts as saved. -/
def dispatch (s : TracedSession) (tabId : Nat) (path : PathBuf) (request : Option Nat)
    (write : FileWrite) : TracedSession :=
  { s.update tabId fun t => { t with tab := t.tab.markAsSaved } with
    inflightSaves := Function.update s.inflightSaves tabId (some
      { completion :=
          { tabId := tabId, path := path, byteLen := write.bytes.length,
            previousBaseline := captureSavedBaseline (s.tabs.map TracedTab.tab) tabId }
        request := request })
    writes := s.writes ++ [write] }

def spawnLocalSave (s : TracedSession) (tabId : Nat) (path : PathBuf) (write : FileWrite) :
    TracedSession :=
  if (s.inflightSaves tabId).isSome then s else s.dispatch tabId path none write

/-- Open the path prompt for a tab. -/
def saveFileAs (s : TracedSession) (tabId : Nat) : Option TracedSession :=
  (s.find tabId).map fun t =>
    { s with saveAs := s.saveAs ++ [⟨tabId, t.tab.encoding, .choosing⟩] }

def saveFile (encodings : Encodings) (s : TracedSession) (tabId : Nat) : Option TracedSession :=
  (s.find tabId).bind fun t =>
    match t.tab.location with
    | .untitled => s.saveFileAs tabId
    | location =>
        if t.tab.lossyDecode then
          some { s with askingLossy := Function.update s.askingLossy tabId true }
        else match encodeForSave encodings t.tab.content.toText t.tab.encoding with
          | .lossy => some { s with askingLossy := Function.update s.askingLossy tabId true }
          | .encoded bytes =>
              let write := ⟨location, bytes, t.tab.encoding, t.provenance⟩
              match location with
              | .localPath path => some (s.spawnLocalSave tabId path write)
              | _ => some { s with writes := s.writes ++ [write] }

/-- Save a large local tab while its window waits; it is never asked about. -/
def saveLocalTabBlocking (encodings : Encodings) (s : TracedSession) (tabId : Nat) :
    Option TracedSession :=
  (s.find tabId).bind fun t =>
    match t.tab.location with
    | .localPath path =>
        if t.tab.lossyDecode then none
        else match encodeForSave encodings t.tab.content.toText t.tab.encoding with
          | .lossy => none
          | .encoded bytes =>
              some { s.update tabId fun t => { t with tab := t.tab.markAsSaved } with
                writes := s.writes ++
                  [⟨.localPath path, bytes, t.tab.encoding, t.provenance⟩] }
    | _ => none

/-- The write of a save is over; a failed one takes its mark back. -/
def finishLocalSave (s : TracedSession) (tabId : Nat) (succeeded : Bool) : Option TracedSession :=
  match s.inflightSaves tabId with
  | some ⟨completion, none⟩ =>
      let landed := { s with inflightSaves := Function.update s.inflightSaves tabId none }
      if succeeded then some landed
      else some (landed.update tabId fun t => { t with tab := handleFailedSave completion t.tab })
  | _ => none

def confirmLossySave (encodings : Encodings) (s : TracedSession) (tabId activeId : Nat) :
    Option TracedSession :=
  if s.askingLossy tabId then
    let confirmed := { s.update tabId fun t =>
        ⟨{ t.tab with encoding := UTF_8, lossyDecode := false }, t.provenance.confirm⟩ with
      askingLossy := Function.update s.askingLossy tabId false }
    some ((confirmed.saveFile encodings activeId).getD confirmed)
  else none

/-- Send off a "Save as", unless a save of the tab is under way. -/
def finalizeSaveAs (s : TracedSession) (index : Nat) (request : SaveAsRequest) (path : PathBuf)
    (write : FileWrite) : TracedSession :=
  if (s.inflightSaves request.tabId).isSome then
    { s with saveAs := s.saveAs.set index { request with stage := .over } }
  else
    { s.dispatch request.tabId path (some index) write with
      saveAs := s.saveAs.set index
        { request with encoding := write.encoding, stage := .writing } }

def choosePath (encodings : Encodings) (s : TracedSession) (index : Nat) (path : PathBuf) :
    Option TracedSession :=
  match s.saveAs[index]? with
  | some ⟨tabId, encoding, .choosing⟩ =>
      match s.find tabId with
      | none => some { s with saveAs := s.saveAs.set index ⟨tabId, encoding, .over⟩ }
      | some t =>
          match encodeForSave encodings t.tab.content.toText encoding with
          | .encoded bytes => some (s.finalizeSaveAs index ⟨tabId, encoding, .choosing⟩ path
              ⟨.localPath path, bytes, encoding, t.provenance⟩)
          | .lossy => some { s with
              saveAs := s.saveAs.set index ⟨tabId, encoding, .asking path t.tab.content.toText⟩ }
  | _ => none

/-- The user agrees to save the text as UTF-8. -/
def confirmSaveAs (s : TracedSession) (index : Nat) : Option TracedSession :=
  match s.saveAs[index]? with
  | some ⟨tabId, encoding, .asking path contents⟩ =>
      some ((s.update tabId fun t => { t with provenance := t.provenance.confirm }).finalizeSaveAs
        index ⟨tabId, encoding, .asking path contents⟩ path
          ⟨.localPath path, asBytes contents, UTF_8, ⟨false, [UTF_8]⟩⟩)
  | _ => none

/-- The write is over; the tab moves to the path it was written to, and takes the encoding. -/
def finishSaveAs (s : TracedSession) (index : Nat) (written : Option PathBuf) :
    Option TracedSession :=
  match s.saveAs[index]? with
  | some ⟨tabId, encoding, .writing⟩ =>
      (s.inflightSaves tabId).map fun save =>
        let landed := { s with
          inflightSaves := Function.update s.inflightSaves tabId none
          saveAs := s.saveAs.set index ⟨tabId, encoding, .over⟩ }
        match written with
        | some path => landed.update tabId fun t =>
            { t with tab := { t.tab with
                location := .localPath path
                title := (path.fileName.bind fromUtf8).getD UNTITLED
                encoding := encoding } }
        | none => landed.update tabId fun t =>
            { t with tab := handleFailedSave save.completion t.tab }
  | _ => none

def restart (encodings : Encodings) (parse : String → Option Int) (s : TracedSession)
    (persistUnsaved : Bool) (saved found : Disk) : TracedSession where
  tabs := s.tabs.filterMap fun t =>
    (buildTabState persistUnsaved saved t.tab).bind fun state =>
      (restoreTabFromState encodings parse found state state.tabId).map
        (TracedTab.restored encodings parse found state t.provenance)
  inflightSaves := fun _ => none
  saveAs := []
  askingLossy := fun _ => false
  writes := s.writes

def step (encodings : Encodings) (parse : String → Option Int) (s : TracedSession) :
    TracedAction → Option TracedSession
  | .openFile tabId path bytes =>
      if looksBinary bytes then none else some (s.add (.opened encodings tabId path bytes))
  | .newTab tabId title => some (s.add ⟨.new tabId title, .typed⟩)
  | .openShared tabId contents fileName =>
      some (s.add ⟨.fromContent tabId contents fileName, .typed⟩)
  | .openRemote tabId spec bytes =>
      some (s.add ⟨.fromRemoteLoaded tabId (readRemoteFile encodings spec bytes),
        .decoded encodings bytes⟩)
  | .edit tabId content => some (s.update tabId fun t => { t with tab := t.tab.edit content })
  | .reload tabId bytes =>
      some (s.update tabId fun t =>
        ⟨t.tab.applyReload (detectEncodingAndDecode encodings bytes), .decoded encodings bytes⟩)
  | .remoteReload tabId spec bytes =>
      some (s.update tabId fun t =>
        ⟨t.tab.applyRemoteReload (readRemoteFile encodings spec bytes),
          .decoded encodings bytes⟩)
  | .duplicate tabId newId =>
      (s.find tabId).map fun t => s.add { t with tab := t.tab.duplicate newId }
  | .transfer tabId newId =>
      (s.find tabId).map fun t =>
        { s with tabs := s.tabs.filter fun other => other.tab.id ≠ tabId }.add
          { t with tab := .fromTransfer newId t.tab.transferData }
  | .close tabId => some { s with tabs := s.tabs.filter fun t => t.tab.id ≠ tabId }
  | .restart persistUnsaved saved found =>
      some (s.restart encodings parse persistUnsaved saved found)
  | .save tabId => s.saveFile encodings tabId
  | .saveBlocking tabId => s.saveLocalTabBlocking encodings tabId
  | .finishSave tabId succeeded => s.finishLocalSave tabId succeeded
  | .confirmLossySave tabId activeId => s.confirmLossySave encodings tabId activeId
  | .saveAs tabId => s.saveFileAs tabId
  | .choosePath index path => s.choosePath encodings index path
  | .confirmSaveAs index => s.confirmSaveAs index
  | .finishSaveAs index written => s.finishSaveAs index written

end TracedSession

/-! ## What a run keeps -/

/-- A write that nobody had to be asked about, or was: no lossy text, and its own encoding. -/
def FileWrite.Asked (write : FileWrite) : Prop :=
  write.provenance.lossy = false ∧ write.encoding ∈ write.provenance.encodings

instance (write : FileWrite) : Decidable write.Asked := inferInstanceAs (Decidable (_ ∧ _))

namespace TracedSession

/-- No mark of UTF-16 stands before the bytes, or their decoding is lossy. -/
def Unmarked (encodings : Encodings) (bytes : List UInt8) : Prop :=
  (detectEncodingAndDecode encodings bytes).lossy = true ∨ ∀ bom ∈ bomOf bytes, bom.1 = UTF_8

instance (encodings : Encodings) (bytes : List UInt8) : Decidable (Unmarked encodings bytes) :=
  inferInstanceAs (Decidable (_ ∨ ∀ bom ∈ bomOf bytes, _))

/--
What a run must keep to. No file with a mark of UTF-16 is decoded; no lossy text
and no text of another encoding than UTF-8 comes back as saved content; no lossy
contents are put into an existing remote tab that is not flagged; a "Save as" is
made of no lossy text, and its encoding is that of the text both when it is written
and when the tab takes it.
-/
def ProtectedStep (encodings : Encodings) (parse : String → Option Int) (s : TracedSession) :
    TracedAction → Prop
  | .openFile _ _ bytes => Unmarked encodings bytes
  | .openRemote _ _ bytes => Unmarked encodings bytes
  | .reload _ bytes => Unmarked encodings bytes
  | .restart persistUnsaved saved found =>
      ∀ t ∈ s.tabs, ∀ state ∈ buildTabState persistUnsaved saved t.tab,
        if restoresContent parse found state = true then
          t.provenance.lossy = false ∧ UTF_8 ∈ t.provenance.encodings
        else ∀ path ∈ state.filePath, ∀ bytes ∈ (found path).contents, Unmarked encodings bytes
  | .remoteReload tabId _ bytes =>
      Unmarked encodings bytes ∧ ((detectEncodingAndDecode encodings bytes).lossy = true →
        ∀ t ∈ s.tabs, t.tab.id = tabId → t.tab.lossyDecode = true)
  | .choosePath index _ =>
      ∀ request ∈ s.saveAs[index]?, ∀ t ∈ s.find request.tabId,
        encodeForSave encodings t.tab.content.toText request.encoding ≠ .lossy →
          t.provenance.lossy = false ∧ request.encoding ∈ t.provenance.encodings
  | .finishSaveAs index written =>
      written.isSome → ∀ request ∈ s.saveAs[index]?, ∀ t ∈ s.tabs, t.tab.id = request.tabId →
        request.encoding ∈ t.provenance.encodings
  | _ => True

instance (encodings : Encodings) (parse : String → Option Int) (s : TracedSession)
    (action : TracedAction) : Decidable (s.ProtectedStep encodings parse action) :=
  match action with
  | .openFile _ _ bytes => inferInstanceAs (Decidable (Unmarked encodings bytes))
  | .openRemote _ _ bytes => inferInstanceAs (Decidable (Unmarked encodings bytes))
  | .reload _ bytes => inferInstanceAs (Decidable (Unmarked encodings bytes))
  | .restart persistUnsaved saved found => inferInstanceAs (Decidable (∀ t ∈ s.tabs,
      ∀ state ∈ buildTabState persistUnsaved saved t.tab,
        if restoresContent parse found state = true then _ ∧ _
        else ∀ path ∈ state.filePath, ∀ bytes ∈ (found path).contents, Unmarked encodings bytes))
  | .remoteReload tabId _ _ =>
      inferInstanceAs (Decidable (_ ∧ (_ → ∀ t ∈ s.tabs, t.tab.id = tabId → _)))
  | .choosePath index _ => inferInstanceAs (Decidable (∀ request ∈ s.saveAs[index]?,
      ∀ t ∈ s.find request.tabId, _ ≠ _ → _ ∧ _))
  | .finishSaveAs index written => inferInstanceAs (Decidable (written.isSome →
      ∀ request ∈ s.saveAs[index]?, ∀ t ∈ s.tabs, t.tab.id = request.tabId → _ ∈ _))
  | .newTab _ _ => isTrue trivial
  | .openShared _ _ _ => isTrue trivial
  | .edit _ _ => isTrue trivial
  | .duplicate _ _ => isTrue trivial
  | .transfer _ _ => isTrue trivial
  | .close _ => isTrue trivial
  | .save _ => isTrue trivial
  | .saveBlocking _ => isTrue trivial
  | .finishSave _ _ => isTrue trivial
  | .confirmLossySave _ _ => isTrue trivial
  | .saveAs _ => isTrue trivial
  | .confirmSaveAs _ => isTrue trivial

end TracedSession

/-! ## What holds in every protected run -/

/-- The flag covers every lossy text, and the tab carries an encoding of its text. -/
structure TracedTab.Covered (t : TracedTab) : Prop where
  flagged : t.provenance.lossy = true → t.tab.lossyDecode = true
  label : t.tab.encoding ∈ t.provenance.encodings

theorem TracedTab.Covered.of_tab {t : TracedTab} (h : t.Covered) {tab : EditorTab}
    (hflag : tab.lossyDecode = t.tab.lossyDecode) (hlabel : tab.encoding = t.tab.encoding) :
    TracedTab.Covered { t with tab := tab } where
  flagged := fun hlossy => hflag.trans (h.flagged hlossy)
  label := hlabel ▸ h.label

namespace TracedSession

structure Covered (s : TracedSession) : Prop where
  tabs : ∀ t ∈ s.tabs, t.Covered
  writes : ∀ write ∈ s.writes, write.Asked

variable {codecs : StandardCodecs} {encodings : Encodings} {parse : String → Option Int}
  {s s' : TracedSession}

/-- Bytes without a mark of UTF-16 are decoded with the encoding that the tab carries. -/
theorem encoding_of_unmarked {bytes : List UInt8} (h : Unmarked codecs.toEncodings bytes) :
    (detectEncodingAndDecode codecs.toEncodings bytes).encoding =
      encodingUsed codecs.toEncodings bytes := by
  unfold encodingUsed
  cases hutf8 : fromUtf8 bytes with
  | some text => simp [detectEncodingAndDecode, hutf8]
  | none =>
      rcases hdecode : codecs.decode (codecs.guess bytes) bytes with ⟨text, used, hadErrors⟩
      cases hadErrors with
      | true => simp [detectEncodingAndDecode, hutf8, hdecode]
      | false =>
          have hused : used = codecs.guess bytes := by
            rcases codecs.bom_of_decoded hutf8 hdecode with ⟨-, hused, -⟩ | ⟨⟨bom, hbom, hother⟩, -⟩
            · exact hused
            · rcases h with hlossy | hunmarked
              · simp [detectEncodingAndDecode, hutf8, hdecode] at hlossy
              · exact absurd (hunmarked bom hbom) hother
          simp [detectEncodingAndDecode, hutf8, hdecode, hused]

theorem covered_decoded {bytes : List UInt8} (h : Unmarked codecs.toEncodings bytes)
    {tab : EditorTab}
    (hflag : (detectEncodingAndDecode codecs.toEncodings bytes).lossy = true →
      tab.lossyDecode = true)
    (hlabel : tab.encoding = (detectEncodingAndDecode codecs.toEncodings bytes).encoding) :
    TracedTab.Covered ⟨tab, .decoded codecs.toEncodings bytes⟩ where
  flagged := hflag
  label := by
    rw [hlabel, encoding_of_unmarked h]
    exact List.mem_singleton_self _

theorem covered_launched : launched.Covered := ⟨by simp [launched], by simp [launched]⟩

theorem Covered.add (h : s.Covered) {t : TracedTab} (ht : t.Covered) : (s.add t).Covered where
  tabs := by
    intro other hother
    rcases List.mem_append.mp hother with hold | hnew
    · exact h.tabs other hold
    · rw [List.mem_singleton.mp hnew]
      exact ht
  writes := h.writes

theorem Covered.update (h : s.Covered) (tabId : Nat) {f : TracedTab → TracedTab}
    (hf : ∀ t ∈ s.tabs, t.tab.id = tabId → t.Covered → (f t).Covered) :
    (s.update tabId f).Covered where
  tabs := by
    intro other hother
    rcases List.mem_map.mp hother with ⟨t, ht, rfl⟩
    split
    · rename_i hid
      exact hf t ht hid (h.tabs t ht)
    · exact h.tabs t ht
  writes := h.writes

theorem Covered.filter (h : s.Covered) (keep : TracedTab → Bool) :
    Covered { s with tabs := s.tabs.filter keep } where
  tabs := fun t ht => h.tabs t (List.mem_of_mem_filter ht)
  writes := h.writes

theorem Covered.write (h : s.Covered) {write : FileWrite} (hwrite : write.Asked) :
    Covered { s with writes := s.writes ++ [write] } where
  tabs := h.tabs
  writes := by
    intro other hother
    rcases List.mem_append.mp hother with hold | hnew
    · exact h.writes other hold
    · rw [List.mem_singleton.mp hnew]
      exact hwrite

theorem Covered.of_eq (h : s.Covered) (htabs : s'.tabs = s.tabs) (hwrites : s'.writes = s.writes) :
    s'.Covered := ⟨htabs ▸ h.tabs, hwrites ▸ h.writes⟩

theorem find_mem {tabId : Nat} {t : TracedTab} (h : s.find tabId = some t) :
    t ∈ s.tabs ∧ t.tab.id = tabId :=
  ⟨List.mem_of_find?_eq_some h, by simpa using List.find?_some h⟩

/-! ### Saves -/

theorem Covered.dispatch (h : s.Covered) {write : FileWrite} (hwrite : write.Asked) (tabId : Nat)
    (path : PathBuf) (request : Option Nat) : (s.dispatch tabId path request write).Covered :=
  have hmarked : (s.update tabId fun t => { t with tab := t.tab.markAsSaved }).Covered :=
    h.update tabId fun _ _ _ ht => ht.of_tab rfl rfl
  (hmarked.write hwrite).of_eq rfl rfl

theorem Covered.saveFileAs (h : s.Covered) {tabId : Nat} (hstep : s.saveFileAs tabId = some s') :
    s'.Covered := by
  rcases Option.map_eq_some_iff.mp hstep with ⟨t, _, rfl⟩
  exact h.of_eq rfl rfl

theorem Covered.asked (h : s.Covered) {tabId : Nat} {t : TracedTab} (hfind : s.find tabId = some t)
    (hflag : t.tab.lossyDecode = false) (location : TabLocation) (bytes : List UInt8) :
    FileWrite.Asked ⟨location, bytes, t.tab.encoding, t.provenance⟩ := by
  have hcovered := h.tabs t (find_mem hfind).1
  refine ⟨?_, hcovered.label⟩
  by_contra hlossy
  have hflagged := hcovered.flagged (by simpa using hlossy)
  rw [hflag] at hflagged
  cases hflagged

theorem Covered.saveFile (h : s.Covered) {tabId : Nat}
    (hstep : s.saveFile encodings tabId = some s') : s'.Covered := by
  rcases Option.bind_eq_some_iff.mp hstep with ⟨t, hfind, hsave⟩
  split at hsave
  · exact h.saveFileAs hsave
  · split at hsave
    · cases hsave
      exact h.of_eq rfl rfl
    · rename_i hflag
      split at hsave
      · cases hsave
        exact h.of_eq rfl rfl
      · rename_i bytes _
        have hasked := h.asked hfind (Bool.not_eq_true _ ▸ hflag) t.tab.location bytes
        simp only at hsave
        split at hsave
        · cases hsave
          unfold spawnLocalSave
          split
          · exact h
          · exact h.dispatch hasked tabId _ none
        · cases hsave
          exact h.write hasked

theorem Covered.saveLocalTabBlocking (h : s.Covered) {tabId : Nat}
    (hstep : s.saveLocalTabBlocking encodings tabId = some s') : s'.Covered := by
  rcases Option.bind_eq_some_iff.mp hstep with ⟨t, hfind, hsave⟩
  split at hsave
  · rename_i path _
    split at hsave
    · cases hsave
    · rename_i hflag
      split at hsave
      · cases hsave
      · rename_i bytes _
        cases hsave
        have hasked := h.asked hfind (Bool.not_eq_true _ ▸ hflag) (.localPath path) bytes
        have hmarked : (s.update tabId fun t => { t with tab := t.tab.markAsSaved }).Covered :=
          h.update tabId fun _ _ _ ht => ht.of_tab rfl rfl
        exact (hmarked.write hasked).of_eq rfl rfl
  · cases hsave

theorem covered_handleFailedSave {t : TracedTab} (h : t.Covered) (completion : SaveCompletion) :
    TracedTab.Covered { t with tab := handleFailedSave completion t.tab } := by
  apply h.of_tab
  · unfold handleFailedSave
    split
    · rfl
    · simp only
      split <;> rfl
  · unfold handleFailedSave
    split
    · rfl
    · simp only
      split <;> rfl

theorem Covered.finishLocalSave (h : s.Covered) {tabId : Nat} {succeeded : Bool}
    (hstep : s.finishLocalSave tabId succeeded = some s') : s'.Covered := by
  unfold TracedSession.finishLocalSave at hstep
  split at hstep
  · rename_i completion _
    simp only at hstep
    have hlanded : Covered
        { s with inflightSaves := Function.update s.inflightSaves tabId none } := h.of_eq rfl rfl
    split at hstep
    · cases hstep
      exact hlanded
    · cases hstep
      exact hlanded.update tabId fun t _ _ ht => covered_handleFailedSave ht completion
  · cases hstep

theorem Covered.confirmLossySave (h : s.Covered) {tabId activeId : Nat}
    (hstep : s.confirmLossySave encodings tabId activeId = some s') : s'.Covered := by
  rcases Option.ite_none_right_eq_some.mp hstep with ⟨_, hconfirm⟩
  have hupdated : (s.update tabId fun t =>
      ⟨{ t.tab with encoding := UTF_8, lossyDecode := false }, t.provenance.confirm⟩).Covered :=
    h.update tabId fun _ _ _ _ => ⟨nofun, List.mem_cons_self⟩
  have hconfirmed : Covered { s.update tabId fun t =>
        ⟨{ t.tab with encoding := UTF_8, lossyDecode := false }, t.provenance.confirm⟩ with
      askingLossy := Function.update s.askingLossy tabId false } := hupdated.of_eq rfl rfl
  cases hconfirm
  cases hsaved : TracedSession.saveFile encodings { s.update tabId fun t =>
      ⟨{ t.tab with encoding := UTF_8, lossyDecode := false }, t.provenance.confirm⟩ with
    askingLossy := Function.update s.askingLossy tabId false } activeId with
  | none => exact hconfirmed
  | some next => exact hconfirmed.saveFile hsaved

theorem Covered.finalizeSaveAs (h : s.Covered) (index : Nat) (request : SaveAsRequest)
    (path : PathBuf) {write : FileWrite} (hwrite : write.Asked) :
    (s.finalizeSaveAs index request path write).Covered := by
  unfold TracedSession.finalizeSaveAs
  split
  · exact h.of_eq rfl rfl
  · exact (h.dispatch hwrite request.tabId path (some index)).of_eq rfl rfl

theorem Covered.choosePath (h : s.Covered) {index : Nat} {path : PathBuf}
    (hguard : s.ProtectedStep encodings parse (.choosePath index path))
    (hstep : s.choosePath encodings index path = some s') : s'.Covered := by
  unfold TracedSession.choosePath at hstep
  split at hstep
  · rename_i tabId encoding hrequest
    split at hstep
    · cases hstep
      exact h.of_eq rfl rfl
    · rename_i t hfind
      split at hstep
      · rename_i bytes hbytes
        cases hstep
        apply h.finalizeSaveAs
        exact hguard _ hrequest t hfind (by simp [hbytes])
      · cases hstep
        exact h.of_eq rfl rfl
  · cases hstep

theorem Covered.confirmSaveAs (h : s.Covered) {index : Nat}
    (hstep : s.confirmSaveAs index = some s') : s'.Covered := by
  unfold TracedSession.confirmSaveAs at hstep
  split at hstep
  · rename_i tabId encoding path contents _
    cases hstep
    have hconfirmed : (s.update tabId fun t =>
        { t with provenance := t.provenance.confirm }).Covered :=
      h.update tabId fun _ _ _ ht => ⟨nofun, List.mem_cons_of_mem _ ht.label⟩
    exact hconfirmed.finalizeSaveAs index _ path ⟨rfl, List.mem_cons_self⟩
  · cases hstep

theorem Covered.finishSaveAs (h : s.Covered) {index : Nat} {written : Option PathBuf}
    (hguard : s.ProtectedStep encodings parse (.finishSaveAs index written))
    (hstep : s.finishSaveAs index written = some s') : s'.Covered := by
  unfold TracedSession.finishSaveAs at hstep
  split at hstep
  · rename_i tabId encoding hrequest
    rcases Option.map_eq_some_iff.mp hstep with ⟨save, _, rfl⟩
    have hlanded : Covered { s with
        inflightSaves := Function.update s.inflightSaves tabId none
        saveAs := s.saveAs.set index ⟨tabId, encoding, .over⟩ } := h.of_eq rfl rfl
    simp only
    split
    · apply hlanded.update
      intro t ht hid hcovered
      exact ⟨hcovered.flagged, hguard rfl _ hrequest t ht hid⟩
    · exact hlanded.update tabId fun t _ _ ht => covered_handleFailedSave ht save.completion
  · cases hstep

/-! ### Runs -/

private theorem covered_of_saved {before : Provenance} {tab : EditorTab}
    (hbefore : before.lossy = false ∧ UTF_8 ∈ before.encodings) (hlabel : tab.encoding = UTF_8) :
    TracedTab.Covered ⟨tab, before⟩ where
  flagged := fun hlossy => by
    rw [hbefore.1] at hlossy
    cases hlossy
  label := hlabel ▸ hbefore.2

/-- A tab that comes back has the flag and the encoding of what it is given. -/
theorem covered_restored {disk : Disk} {state : TabState} {t : TracedTab} {tab : EditorTab}
    (hguard : if restoresContent parse disk state = true then
        t.provenance.lossy = false ∧ UTF_8 ∈ t.provenance.encodings
      else ∀ path ∈ state.filePath, ∀ bytes ∈ (disk path).contents,
        Unmarked codecs.toEncodings bytes)
    (hrestored : restoreTabFromState codecs.toEncodings parse disk state state.tabId = some tab) :
    (TracedTab.restored codecs.toEncodings parse disk state t.provenance tab).Covered := by
  unfold restoreTabFromState at hrestored
  unfold TracedTab.restored restoresContent at *
  cases hdecision : restoreDecision parse disk state with
  | restoreRemote remote content =>
      rw [hdecision] at hguard hrestored
      cases hrestored
      cases content with
      | none => exact ⟨nofun, List.mem_singleton.mpr rfl⟩
      | some text => exact covered_of_saved hguard rfl
  | loadFromFile path =>
      have hpath := (strategy_file hdecision).1
      rw [hdecision] at hguard hrestored
      rcases Option.ite_none_right_eq_some.mp hrestored with ⟨_, hread⟩
      rcases Option.map_eq_some_iff.mp hread with ⟨bytes, hbytes, rfl⟩
      have hunmarked : Unmarked codecs.toEncodings bytes := by
        rw [if_neg Bool.false_ne_true] at hguard
        exact hguard path hpath bytes hbytes
      simp only [hpath, Option.bind_some, hbytes]
      exact covered_decoded hunmarked id rfl
  | useSavedContentWithPath path content =>
      rw [hdecision] at hguard hrestored
      cases hrestored
      exact covered_of_saved hguard rfl
  | useSavedContentNoPath content =>
      rw [hdecision] at hguard hrestored
      cases hrestored
      exact covered_of_saved hguard rfl
  | skip =>
      rw [hdecision] at hrestored
      cases hrestored

theorem Covered.restart (h : s.Covered) {persistUnsaved : Bool} {saved found : Disk}
    (hguard : s.ProtectedStep codecs.toEncodings parse (.restart persistUnsaved saved found)) :
    (s.restart codecs.toEncodings parse persistUnsaved saved found).Covered where
  tabs := by
    intro other hother
    rcases List.mem_filterMap.mp hother with ⟨t, ht, hbind⟩
    rcases Option.bind_eq_some_iff.mp hbind with ⟨state, hstate, hmap⟩
    rcases Option.map_eq_some_iff.mp hmap with ⟨tab, hrestored, rfl⟩
    exact covered_restored (hguard t ht state hstate) hrestored
  writes := h.writes

theorem Covered.step (h : s.Covered) {action : TracedAction}
    (hguard : s.ProtectedStep codecs.toEncodings parse action)
    (hstep : s.step codecs.toEncodings parse action = some s') : s'.Covered := by
  cases action with
  | openFile tabId path bytes =>
      rcases Option.ite_none_left_eq_some.mp hstep with ⟨_, hopen⟩
      cases hopen
      exact h.add (covered_decoded hguard id rfl)
  | newTab tabId title =>
      cases hstep
      exact h.add ⟨nofun, List.mem_singleton.mpr rfl⟩
  | openShared tabId contents fileName =>
      cases hstep
      exact h.add ⟨nofun, List.mem_singleton.mpr rfl⟩
  | openRemote tabId spec bytes =>
      cases hstep
      exact h.add (covered_decoded hguard id rfl)
  | edit tabId content =>
      cases hstep
      refine h.update tabId fun t _ _ ht => ?_
      rcases t.tab.edit_eq content with ⟨modified, hedit⟩
      rw [hedit]
      exact ht.of_tab rfl rfl
  | reload tabId bytes =>
      cases hstep
      exact h.update tabId fun t _ _ _ => covered_decoded hguard id rfl
  | remoteReload tabId spec bytes =>
      cases hstep
      exact h.update tabId fun t ht hid _ =>
        covered_decoded hguard.1 (fun hlossy => hguard.2 hlossy t ht hid) rfl
  | duplicate tabId newId =>
      rcases Option.map_eq_some_iff.mp hstep with ⟨t, hfind, rfl⟩
      exact h.add ((h.tabs t (find_mem hfind).1).of_tab rfl rfl)
  | transfer tabId newId =>
      rcases Option.map_eq_some_iff.mp hstep with ⟨t, hfind, rfl⟩
      exact (h.filter _).add ((h.tabs t (find_mem hfind).1).of_tab rfl rfl)
  | close tabId =>
      cases hstep
      exact h.filter _
  | restart persistUnsaved saved found =>
      cases hstep
      exact h.restart hguard
  | save tabId => exact h.saveFile hstep
  | saveBlocking tabId => exact h.saveLocalTabBlocking hstep
  | finishSave tabId succeeded => exact h.finishLocalSave hstep
  | confirmLossySave tabId activeId => exact h.confirmLossySave hstep
  | saveAs tabId => exact h.saveFileAs hstep
  | choosePath index path => exact h.choosePath hguard hstep
  | confirmSaveAs index => exact h.confirmSaveAs hstep
  | finishSaveAs index written => exact h.finishSaveAs hguard hstep

end TracedSession

/--
In every run that keeps to the condition, no save writes a lossy text that nobody
was asked about, and each writes in an encoding that its text was decoded with or
the user confirmed.
-/
theorem lossy_saves_asked {codecs : StandardCodecs} {parse : String → Option Int}
    {actions : List TracedAction} {s : TracedSession}
    (hguard : Guarded (TracedSession.step codecs.toEncodings parse)
      (TracedSession.ProtectedStep codecs.toEncodings parse) TracedSession.launched actions)
    (hrun : run (TracedSession.step codecs.toEncodings parse) TracedSession.launched actions =
      some s) :
    ∀ write ∈ s.writes, write.Asked := by
  have hcovered : s.Covered := by
    refine invariant_of_guarded TracedSession.Covered ?_ TracedSession.covered_launched hguard hrun
    intro s action s' h hprotected hstep
    exact h.step hprotected hstep
  exact hcovered.writes

/-- Bytes that look like UTF-8 by their mark and are not. -/
def sampleMalformed : List UInt8 := [0xEF, 0xBB, 0xBF, 0xE9]

/-- A lossy file is opened and saved: the user is asked, and what is written is agreed to. -/
def sampleLossySave : List TracedAction :=
  [.openFile 0 ⟨[0x61]⟩ sampleMalformed, .save 0, .confirmLossySave 0 0, .finishSave 0 true,
    .saveAs 0, .choosePath 0 ⟨[0x62]⟩, .finishSaveAs 0 (some ⟨[0x62]⟩), .reload 0 [0xE9], .save 0]

theorem lossy_saves_asked_sample :
    (run (TracedSession.step windows1252Codecs.toEncodings sampleParse) TracedSession.launched
        sampleLossySave).isSome = true ∧
      ∀ s, run (TracedSession.step windows1252Codecs.toEncodings sampleParse)
        TracedSession.launched sampleLossySave = some s → ∀ write ∈ s.writes, write.Asked :=
  ⟨by decide +kernel,
    fun _ hrun => lossy_saves_asked (Guarded.of_guardedRun (by decide +kernel)) hrun⟩

def sampleRemotePlace : RemoteSpec :=
  { host := "h", port := 22, user := some "u", path := "/n", passwordInUrl := none }

/--
What writes without a question or in another encoding: an edited tab that comes
back from the session, of a lossy file and of a file in windows-1252; a remote tab
whose reload is lossy; a lossy tab saved under another path; and a tab of a file
with a mark of UTF-16.
-/
theorem lossy_texts_written_unasked :
    (∃ s, run (TracedSession.step windows1252Codecs.toEncodings sampleParse) TracedSession.launched
        [.openFile 0 ⟨[0x61]⟩ sampleMalformed, .edit 0 (.ofText "b"),
          .restart true sampleDisk sampleDisk, .save 0] = some s ∧
        ∃ write ∈ s.writes, write.provenance.lossy = true) ∧
      (∃ s, run (TracedSession.step windows1252Codecs.toEncodings sampleParse)
        TracedSession.launched [.openFile 0 ⟨[0x61]⟩ [0xE9], .edit 0 (.ofText "b"),
          .restart true sampleDisk sampleDisk, .save 0] = some s ∧
        ∃ write ∈ s.writes, write.encoding ∉ write.provenance.encodings) ∧
      (∃ s, run (TracedSession.step windows1252Codecs.toEncodings sampleParse)
        TracedSession.launched [.openRemote 0 sampleRemotePlace [0x61],
          .remoteReload 0 sampleRemotePlace sampleMalformed, .save 0] = some s ∧
        ∃ write ∈ s.writes, write.provenance.lossy = true) ∧
      (∃ s, run (TracedSession.step windows1252Codecs.toEncodings sampleParse)
        TracedSession.launched [.openFile 0 ⟨[0x61]⟩ sampleMalformed, .saveAs 0,
          .choosePath 0 ⟨[0x62]⟩] = some s ∧ ∃ write ∈ s.writes, write.provenance.lossy = true) ∧
      ∃ s, run (TracedSession.step windows1252Codecs.toEncodings sampleParse)
        TracedSession.launched [.openFile 0 ⟨[0x61]⟩ [0xFF, 0xFE, 0xAC, 0x20], .save 0] = some s ∧
          ∃ write ∈ s.writes, write.bytes = [0x80] ∧
            write.encoding ∉ write.provenance.encodings := by
  refine ⟨?_, ?_, ?_, ?_, ?_⟩
  · exact exists_of_any (by decide +kernel)
  · exact exists_of_any (by decide +kernel)
  · exact exists_of_any (by decide +kernel)
  · exact exists_of_any (by decide +kernel)
  · exact exists_of_any (by decide +kernel)

end Fulgur
