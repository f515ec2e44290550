import Fulgur.Library.Run
import Fulgur.Files.FileWatch
import Fulgur.Files.QuitSafety

/-! # A clean tab is what its file was last known to hold

The baseline of a tab is the text last written to its path or taken from it, and
a save that is running can still go back to it. Four things break the tie between
the modified flag and the file: a report that the file is gone sets the flag,
and the next change event computes it again from the baseline alone; the read of
a reload may be applied after a newer write, report or save; the search bar
changes a buffer without the event that sets the flag; and a tab whose file was
renamed goes on under a path it was never read from. A run that avoids them never
shows a clean tab whose text is not the one last written or read.
-/

namespace Fulgur

open LabelledRun
open Session (Apart IsBaseline)

/-- The bytes decode to a text with the given fingerprint. -/
def TextOf (encodings : Encodings) (Texts : String → Prop) (bytes : List UInt8)
    (fingerprint : UInt64 × Nat) : Prop :=
  Texts (detectEncodingAndDecode encodings bytes).content ∧
    contentFingerprintFromStr (detectEncodingAndDecode encodings bytes).content = fingerprint

/-- The text a fingerprint was taken of is the one last written to the path or taken from it. -/
def InFile (encodings : Encodings) (Texts : String → Prop) (lastIo : Option (Nat × List UInt8))
    (fingerprint : UInt64 × Nat) : Prop :=
  ∀ io ∈ lastIo, TextOf encodings Texts io.2 fingerprint

/-- The path was written or read, and not reported deleted after that. -/
def Confirmed (lastIo : Option (Nat × List UInt8)) (deletedAt : Option Nat) : Prop :=
  lastIo.isSome ∧ deletedAt = none

instance (lastIo : Option (Nat × List UInt8)) (deletedAt : Option Nat) :
    Decidable (Confirmed lastIo deletedAt) :=
  inferInstanceAs (Decidable (_ ∧ _))

/-- How a tab and its save stand to what is known of its path. -/
structure Tracked (encodings : Encodings) (Texts : String → Prop)
    (lastIo : Option (Nat × List UInt8)) (deletedAt : Option Nat)
    (inflight : Option BackgroundSave) (tab : EditorTab) : Prop where
  text : Texts tab.content.toText
  flag : tab.modified = false → IsBaseline tab tab.content.toText
  /-- With no write to wait for, the baseline is in the file. -/
  file : (∀ save ∈ inflight, save.writeResult = some true) →
    InFile encodings Texts lastIo (tab.originalContentHash, tab.originalContentLen)
  idle : inflight = none → tab.modified = false → Confirmed lastIo deletedAt
  landed : ∀ save ∈ inflight, save.writeResult = some true → Confirmed lastIo deletedAt
  /-- A write to wait for has the baseline, and the file the one it goes back to. -/
  pending : ∀ save ∈ inflight, save.writeResult ≠ some true →
    TextOf encodings Texts save.bytes (tab.originalContentHash, tab.originalContentLen) ∧
      ∃ baseline ∈ save.completion.previousBaseline,
        InFile encodings Texts lastIo (baseline.hash, baseline.len)

section

variable {encodings : Encodings} {Texts : String → Prop} {lastIo : Option (Nat × List UInt8)}
  {deletedAt : Option Nat} {inflight : Option BackgroundSave} {tab : EditorTab}
  {save : BackgroundSave}

theorem isBaseline_of_checkModified (tab : EditorTab) (hlarge : tab.largeFile = false)
    (h : tab.checkModified.modified = false) : IsBaseline tab tab.content.toText :=
  (EditorTab.contentDiffers_eq_false_iff hlarge).mp h

/-- An edit recomputes the flag; it may not bring back a baseline the file is not known to hold. -/
theorem Tracked.edit (h : Tracked encodings Texts lastIo deletedAt inflight tab)
    (hlarge : tab.largeFile = false) {content : Rope} (htext : Texts content.toText)
    (hknown : inflight = none → ¬Confirmed lastIo deletedAt → ¬IsBaseline tab content.toText) :
    Tracked encodings Texts lastIo deletedAt inflight (tab.edit content) := by
  have hflag : (tab.edit content).modified = false → IsBaseline tab content.toText := by
    have hedit : tab.edit content = { tab with content := content }.checkModified := by
      simp [EditorTab.edit, EditorTab.onContentChange, hlarge]
    rw [hedit]
    exact isBaseline_of_checkModified { tab with content := content } hlarge
  rcases tab.edit_eq content with ⟨modified, heq⟩
  rw [heq] at hflag ⊢
  refine ⟨htext, hflag, h.file, fun hidle hclean => ?_, h.landed, h.pending⟩
  by_contra hlost
  exact hknown hidle hlost (hflag hclean)

/-- A replacement leaves the flag: it may change the text of a modified tab only. -/
theorem Tracked.setValue (h : Tracked encodings Texts lastIo deletedAt inflight tab)
    {content : Rope} (htext : Texts content.toText)
    (hkept : tab.modified = true ∨ content.toText = tab.content.toText) :
    Tracked encodings Texts lastIo deletedAt inflight (tab.setValue content) where
  text := htext
  flag := by
    intro hclean
    have hbefore : tab.modified = false := hclean
    rcases hkept with hmodified | hsame
    · rw [hmodified] at hbefore
      cases hbefore
    · show IsBaseline tab content.toText
      rw [hsame]
      exact h.flag hbefore
  file := h.file
  idle := h.idle
  landed := h.landed
  pending := h.pending

/-- A save puts the buffer behind the baseline, and keeps the old one to go back to. -/
theorem Tracked.saved (h : Tracked encodings Texts lastIo deletedAt none tab)
    (hlarge : tab.largeFile = false)
    (hlossless : (detectEncodingAndDecode encodings save.bytes).content = tab.content.toText)
    (hpending : save.writeResult = none)
    (hbaseline : save.completion.previousBaseline = some tab.savedBaseline) :
    Tracked encodings Texts lastIo deletedAt (some save) tab.markAsSaved := by
  have hfingerprint : contentFingerprintFromStr tab.content.toText =
      (tab.markAsSaved.originalContentHash, tab.markAsSaved.originalContentLen) := by
    simp [EditorTab.markAsSaved, hlarge, contentFingerprintFromRope_eq]
  constructor
  case text => exact h.text
  case flag => exact fun _ => hfingerprint
  case file =>
      intro hlanded
      have hresult := hlanded save rfl
      rw [hpending] at hresult
      cases hresult
  case idle =>
      intro hidle
      cases hidle
  case landed =>
      intro other hother hresult
      cases hother
      rw [hpending] at hresult
      cases hresult
  case pending =>
      intro other hother _
      cases hother
      refine ⟨⟨hlossless ▸ h.text, hlossless ▸ hfingerprint⟩, tab.savedBaseline, hbaseline, ?_⟩
      exact h.file (by simp)

/-- A write that lands is from then on what is known of the path. -/
theorem Tracked.written (h : Tracked encodings Texts lastIo deletedAt (some save) tab)
    (hpending : save.writeResult = none) (clock : Nat) :
    Tracked encodings Texts (some (clock, save.bytes)) none
      (some { save with writeResult := some true }) tab := by
  constructor
  case text => exact h.text
  case flag => exact h.flag
  case file =>
      intro _ io hio
      cases hio
      exact (h.pending save rfl (by simp [hpending])).1
  case idle =>
      intro hidle
      cases hidle
  case landed => exact fun _ _ _ => ⟨rfl, rfl⟩
  case pending =>
      intro other hother hresult
      cases hother
      exact absurd rfl hresult

theorem Tracked.writeFailed (h : Tracked encodings Texts lastIo deletedAt (some save) tab)
    (hpending : save.writeResult = none) :
    Tracked encodings Texts lastIo deletedAt
      (some { save with writeResult := some false }) tab := by
  have hnotLanded : save.writeResult ≠ some true := by simp [hpending]
  constructor
  case text => exact h.text
  case flag => exact h.flag
  case file =>
      intro hlanded
      have hresult := hlanded _ rfl
      cases hresult
  case idle =>
      intro hidle
      cases hidle
  case landed =>
      intro other hother hresult
      cases hother
      cases hresult
  case pending =>
      intro other hother _
      cases hother
      exact h.pending save rfl hnotLanded

theorem Tracked.completed (h : Tracked encodings Texts lastIo deletedAt (some save) tab)
    (hresult : save.writeResult = some true) :
    Tracked encodings Texts lastIo deletedAt none tab := by
  have hfile := h.file fun other hother => by
    cases hother
    exact hresult
  exact ⟨h.text, h.flag, fun _ => hfile, fun _ _ => h.landed save rfl hresult, by simp, by simp⟩

/-- A failed save goes back to the old baseline and recomputes the flag from it. -/
theorem Tracked.rolledBack (h : Tracked encodings Texts lastIo deletedAt (some save) tab)
    (hlarge : tab.largeFile = false) (hresult : save.writeResult = some false)
    (hknown : ¬Confirmed lastIo deletedAt → ∀ baseline ∈ save.completion.previousBaseline,
      contentFingerprintFromStr tab.content.toText ≠ (baseline.hash, baseline.len)) :
    Tracked encodings Texts lastIo deletedAt none (handleFailedSave save.completion tab) := by
  rcases (h.pending save rfl (by simp [hresult])).2 with ⟨baseline, hbaseline, hold⟩
  have hrolled : handleFailedSave save.completion tab =
      { tab with
        originalContentHash := baseline.hash
        originalContentLen := baseline.len }.checkModified := by
    rw [Option.mem_def] at hbaseline
    simp [handleFailedSave, hbaseline, hlarge]
  have hflag : (handleFailedSave save.completion tab).modified = false →
      contentFingerprintFromStr tab.content.toText = (baseline.hash, baseline.len) := by
    rw [hrolled]
    exact isBaseline_of_checkModified { tab with
      originalContentHash := baseline.hash, originalContentLen := baseline.len } hlarge
  rw [hrolled] at hflag ⊢
  refine ⟨h.text, hflag, fun _ => hold, fun _ hclean => ?_, by simp, by simp⟩
  by_contra hlost
  exact hknown hlost baseline hbaseline (hflag hclean)

theorem Tracked.marked (h : Tracked encodings Texts lastIo deletedAt none tab)
    (reported : Option Nat) :
    Tracked encodings Texts lastIo reported none { tab with modified := true } where
  text := h.text
  flag := fun hclean => by cases hclean
  file := h.file
  idle := fun _ hclean => by cases hclean
  landed := by simp
  pending := by simp

theorem Tracked.moved (h : Tracked encodings Texts lastIo deletedAt none tab)
    (hmodified : tab.modified = true) (reported : Option Nat) (target : PathBuf) :
    Tracked encodings Texts none reported none (tab.moveTo target) := by
  have hnever : (tab.moveTo target).modified ≠ false := by
    show tab.modified ≠ false
    simp [hmodified]
  constructor
  case text => exact h.text
  case flag => exact fun hclean => absurd hclean hnever
  case file => simp [InFile]
  case idle => exact fun _ hclean => absurd hclean hnever
  case landed => simp
  case pending => simp

theorem tracked_of_read {bytes : List UInt8} {at_ : Nat}
    (hin : Texts (detectEncodingAndDecode encodings bytes).content)
    (htext : tab.content.toText = (detectEncodingAndDecode encodings bytes).content)
    (hbaseline : IsBaseline tab tab.content.toText) :
    Tracked encodings Texts (some (at_, bytes)) none none tab where
  text := htext ▸ hin
  flag := fun _ => hbaseline
  file := by
    intro _ io hio
    cases hio
    exact ⟨hin, htext ▸ hbaseline⟩
  idle := fun _ _ => ⟨rfl, rfl⟩
  landed := by simp
  pending := by simp

/-- A reload whose read nothing has overtaken makes the text of the file the baseline. -/
theorem Tracked.reloaded (h : Tracked encodings Texts lastIo deletedAt inflight tab)
    (hlarge : tab.largeFile = false) {io : Nat × List UInt8}
    (hin : Texts (detectEncodingAndDecode encodings io.2).content)
    (hlanded : ∀ save ∈ inflight, save.writeResult = some true)
    (hnewest : ∀ last ∈ lastIo, io.1 < last.1 → (detectEncodingAndDecode encodings last.2).content =
      (detectEncodingAndDecode encodings io.2).content)
    (hreported : ∀ reported ∈ deletedAt, reported ≤ io.1) :
    Tracked encodings Texts (some (WatchedSession.newerIo lastIo io))
      (deletedAt.filter fun reported => io.1 < reported) inflight
      (tab.applyReload (detectEncodingAndDecode encodings io.2)) := by
  have hsame : (detectEncodingAndDecode encodings
      (WatchedSession.newerIo lastIo io).2).content =
        (detectEncodingAndDecode encodings io.2).content := by
    cases lastIo with
    | none => rfl
    | some last =>
        show (detectEncodingAndDecode encodings (if io.1 < last.1 then last else io).2).content = _
        by_cases hnewer : io.1 < last.1
        · rw [if_pos hnewer]
          exact hnewest last rfl hnewer
        · rw [if_neg hnewer]
  have hcleared : (deletedAt.filter fun reported => io.1 < reported) = none := by
    rw [Option.filter_eq_none_iff]
    intro reported hreport
    have hearlier := hreported reported hreport
    simp only [decide_eq_true_eq]
    omega
  have htext : (tab.applyReload (detectEncodingAndDecode encodings io.2)).content.toText =
      (detectEncodingAndDecode encodings io.2).content := by
    simp [EditorTab.applyReload, EditorTab.setOriginalContentFromStr]
  have hbaseline : contentFingerprintFromStr (detectEncodingAndDecode encodings io.2).content =
      ((tab.applyReload (detectEncodingAndDecode encodings io.2)).originalContentHash,
        (tab.applyReload (detectEncodingAndDecode encodings io.2)).originalContentLen) := by
    simp [EditorTab.applyReload, EditorTab.setOriginalContentFromStr, hlarge]
  constructor
  case text => exact htext ▸ hin
  case flag =>
      intro _
      rw [htext]
      exact hbaseline
  case file =>
      intro _ last hlast
      cases hlast
      exact ⟨hsame ▸ hin, hsame ▸ hbaseline⟩
  case idle => exact fun _ _ => ⟨rfl, hcleared⟩
  case landed => exact fun _ _ _ => ⟨rfl, hcleared⟩
  case pending =>
      intro save hsave hresult
      exact absurd (hlanded save hsave) hresult

theorem keepsPlace_applyReload (decoded : DecodedContents) :
    KeepsPlace fun tab => tab.applyReload decoded :=
  ⟨fun _ => rfl, fun _ => rfl, fun _ => rfl⟩

theorem keepsPlace_marked : KeepsPlace fun tab => { tab with modified := true } :=
  ⟨fun _ => rfl, fun _ => rfl, fun _ => rfl⟩

end

namespace WatchedSession

/-! ## The invariant of a watched session -/

/-- A tab that moves to a path of no other tab leaves the tabs apart. -/
theorem Apart.moveTo {tabs : List EditorTab} (h : Apart tabs) (tabId : Nat) {target : PathBuf}
    (hfree : ∀ tab ∈ tabs, tab.location ≠ .localPath target) :
    Apart (updateEditorTab tabs tabId fun tab => tab.moveTo target) := by
  constructor
  · intro a ha b hb hab
    rcases mem_updateEditorTab ha with ⟨a', ha', ⟨hida, rfl⟩ | ⟨hida, rfl⟩⟩ <;>
      rcases mem_updateEditorTab hb with ⟨b', hb', ⟨hidb, rfl⟩ | ⟨hidb, rfl⟩⟩
    · rw [h.ids a' ha' b' hb' (hida.trans hidb.symm)]
    · exact absurd (hab.symm.trans hida) hidb
    · exact absurd (hab.trans hidb) hida
    · exact h.ids a ha' b hb' hab
  · intro a ha b hb path hloca hlocb
    rcases mem_updateEditorTab ha with ⟨a', ha', ⟨hida, rfl⟩ | ⟨hida, rfl⟩⟩ <;>
      rcases mem_updateEditorTab hb with ⟨b', hb', ⟨hidb, rfl⟩ | ⟨hidb, rfl⟩⟩
    · rw [h.ids a' ha' b' hb' (hida.trans hidb.symm)]
    · cases hloca
      exact absurd hlocb (hfree b hb')
    · cases hlocb
      exact absurd hloca (hfree a ha')
    · exact h.paths a ha' b hb' path hloca hlocb

/-- Every small local tab is tracked, and tabs and saves keep to their places. -/
structure Clean (encodings : Encodings) (Texts : String → Prop) (w : WatchedSession) : Prop where
  apart : Apart w.session.tabs
  owned : ∀ tabId save, w.session.inflightSaves tabId = some save →
    ∃ tab ∈ w.session.tabs, tab.id = tabId ∧ tab.location = .localPath save.completion.path
  tracked : ∀ tab ∈ w.session.tabs, ∀ path, tab.location = .localPath path →
    tab.largeFile = false →
      Tracked encodings Texts (w.lastIo path) (w.deletedAt path)
        (w.session.inflightSaves tab.id) tab

variable {encodings : Encodings} {parse : String → Option Int} {Texts : String → Prop}
  {w w' : WatchedSession}

theorem clean_launched (disk : Disk) (persisted : List TabState) :
    Clean encodings Texts (launched disk persisted) where
  apart := ⟨by simp [launched, Session.launched], by simp [launched, Session.launched]⟩
  owned := by simp [launched, Session.launched]
  tracked := by simp [launched, Session.launched]

/-- Changing one tab in place, its save and what is known of its path keeps every other tab. -/
theorem Clean.update (hw : Clean encodings Texts w) (tabId : Nat)
    (inflight : Option BackgroundSave) {f : EditorTab → EditorTab} (hf : KeepsPlace f)
    (htabs : w'.session.tabs = updateEditorTab w.session.tabs tabId f)
    (hsaves : w'.session.inflightSaves = Function.update w.session.inflightSaves tabId inflight)
    (howned : ∀ save ∈ inflight, ∃ tab ∈ w.session.tabs, tab.id = tabId ∧
      tab.location = .localPath save.completion.path)
    (hself : ∀ tab ∈ w.session.tabs, tab.id = tabId → ∀ path, tab.location = .localPath path →
      tab.largeFile = false →
      Tracked encodings Texts (w.lastIo path) (w.deletedAt path)
        (w.session.inflightSaves tabId) tab →
      Tracked encodings Texts (w'.lastIo path) (w'.deletedAt path) inflight (f tab))
    (hother : ∀ tab ∈ w.session.tabs, tab.id ≠ tabId → ∀ path, tab.location = .localPath path →
      w'.lastIo path = w.lastIo path ∧ w'.deletedAt path = w.deletedAt path) :
    Clean encodings Texts w' where
  apart := htabs ▸ hw.apart.update tabId hf
  owned := by
    intro other save hsave
    have hold : ∃ tab ∈ w.session.tabs, tab.id = other ∧
        tab.location = .localPath save.completion.path := by
      rw [hsaves] at hsave
      by_cases hid : other = tabId
      · subst hid
        rw [Function.update_self] at hsave
        exact howned save hsave
      · rw [Function.update_of_ne hid] at hsave
        exact hw.owned other save hsave
    rcases hold with ⟨tab, htab, hid, hloc⟩
    rw [htabs]
    refine ⟨if tab.id = tabId then f tab else tab, List.mem_map_of_mem htab, ?_⟩
    split
    · exact ⟨(hf.id tab).trans hid, (hf.location tab).trans hloc⟩
    · exact ⟨hid, hloc⟩
  tracked := by
    intro tab htab path hloc hlarge
    rw [htabs] at htab
    rw [hsaves]
    rcases mem_updateEditorTab htab with ⟨old, hold, ⟨hid, rfl⟩ | ⟨hid, rfl⟩⟩
    · rw [hf.location] at hloc
      rw [hf.largeFile] at hlarge
      rw [hf.id, hid, Function.update_self]
      exact hself old hold hid path hloc hlarge (hid ▸ hw.tracked old hold path hloc hlarge)
    · rcases hother tab hold hid path hloc with ⟨hio, hdeleted⟩
      rw [Function.update_of_ne hid, hio, hdeleted]
      exact hw.tracked tab hold path hloc hlarge

/-- What the invariant does not look at may change, and so may paths that no tab has. -/
theorem Clean.frame (hw : Clean encodings Texts w) (htabs : w'.session.tabs = w.session.tabs)
    (hsaves : w'.session.inflightSaves = w.session.inflightSaves)
    (hpaths : ∀ tab ∈ w.session.tabs, ∀ path, tab.location = .localPath path →
      w'.lastIo path = w.lastIo path ∧ w'.deletedAt path = w.deletedAt path) :
    Clean encodings Texts w' where
  apart := htabs ▸ hw.apart
  owned := by
    rw [htabs, hsaves]
    exact hw.owned
  tracked := by
    intro tab htab path hloc hlarge
    rw [htabs] at htab
    rcases hpaths tab htab path hloc with ⟨hio, hdeleted⟩
    rw [hsaves, hio, hdeleted]
    exact hw.tracked tab htab path hloc hlarge

/-- A tab that has no path, or is tracked on a path no other tab has, can join. -/
theorem Clean.append (hw : Clean encodings Texts w) (tab : EditorTab)
    (htabs : w'.session.tabs = w.session.tabs ++ [tab])
    (hsaves : w'.session.inflightSaves = w.session.inflightSaves)
    (hid : ∀ old ∈ w.session.tabs, old.id ≠ tab.id)
    (hpath : ∀ path, tab.location = .localPath path →
      (∀ old ∈ w.session.tabs, old.location ≠ .localPath path) ∧
        (tab.largeFile = false →
          Tracked encodings Texts (w'.lastIo path) (w'.deletedAt path) none tab))
    (hother : ∀ path, tab.location ≠ .localPath path →
      w'.lastIo path = w.lastIo path ∧ w'.deletedAt path = w.deletedAt path) :
    Clean encodings Texts w' where
  apart := htabs ▸ hw.apart.append hid fun path hloc => (hpath path hloc).1
  owned := by
    intro tabId save hsave
    rw [hsaves] at hsave
    rw [htabs]
    rcases hw.owned tabId save hsave with ⟨old, hold, hplace⟩
    exact ⟨old, List.mem_append_left _ hold, hplace⟩
  tracked := by
    intro other hmem path hloc hlarge
    rw [htabs] at hmem
    rw [hsaves]
    rcases List.mem_append.mp hmem with hold | hnew
    · have hne : tab.location ≠ .localPath path := fun h => (hpath path h).1 other hold hloc
      rcases hother path hne with ⟨hio, hdeleted⟩
      rw [hio, hdeleted]
      exact hw.tracked other hold path hloc hlarge
    · rw [List.mem_singleton.mp hnew] at hloc hlarge ⊢
      have hidle : w.session.inflightSaves tab.id = none := by
        cases hsave : w.session.inflightSaves tab.id with
        | none => rfl
        | some save =>
            rcases hw.owned tab.id save hsave with ⟨old, hold, hsame, _⟩
            exact absurd hsame (hid old hold)
      rw [hidle]
      exact (hpath path hloc).2 hlarge

/-! ## Steps -/

/-- The path of a tab was written or read, and not reported deleted after that. -/
def FileConfirmed (w : WatchedSession) (tab : EditorTab) : Prop :=
  ∀ path ∈ tab.filePath, Confirmed (w.lastIo path) (w.deletedAt path)

instance (w : WatchedSession) (tab : EditorTab) : Decidable (w.FileConfirmed tab) :=
  inferInstanceAs (Decidable (∀ path ∈ tab.filePath, _))

/-- What a save of the tab writes decodes to the buffer again. -/
def SavesLosslessly (encodings : Encodings) (tab : EditorTab) : Prop :=
  match encodeForSave encodings tab.content.toText tab.encoding with
  | .lossy => True
  | .encoded bytes => (detectEncodingAndDecode encodings bytes).content = tab.content.toText

instance (encodings : Encodings) (tab : EditorTab) : Decidable (SavesLosslessly encodings tab) :=
  match h : encodeForSave encodings tab.content.toText tab.encoding with
  | .lossy => isTrue (by simp [SavesLosslessly, h])
  | .encoded bytes =>
      decidable_of_iff ((detectEncodingAndDecode encodings bytes).content = tab.content.toText)
        (by simp [SavesLosslessly, h])

/--
The read of a reload is still the newest thing known of its path: no other text
was written or read later, no report that it is gone came later, and no save of
the tab has a write to wait for.
-/
def StillNewest (encodings : Encodings) (w : WatchedSession) (path : PathBuf)
    (io : Nat × List UInt8) : Prop :=
  (∀ last ∈ w.lastIo path, io.1 < last.1 → (detectEncodingAndDecode encodings last.2).content =
    (detectEncodingAndDecode encodings io.2).content) ∧
  (∀ reported ∈ w.deletedAt path, reported ≤ io.1) ∧
  ∀ tab ∈ w.session.tabs, tab.filePath = some path →
    ∀ save ∈ w.session.inflightSaves tab.id, save.writeResult = some true

instance (encodings : Encodings) (w : WatchedSession) (path : PathBuf) (io : Nat × List UInt8) :
    Decidable (w.StillNewest encodings path io) :=
  inferInstanceAs (Decidable ((∀ last ∈ w.lastIo path, _) ∧ (∀ reported ∈ w.deletedAt path, _) ∧
    ∀ tab ∈ w.session.tabs, tab.filePath = some path →
      ∀ save ∈ w.session.inflightSaves tab.id, _))

/--
What a run must keep to: each path is open in one tab, and restored before it is
written or read; the texts are among `Texts` and are saved without loss; no edit
and no failed save brings a buffer back to its baseline while its file is not
confirmed to hold that; no replacement changes an unmodified buffer; no reload is
applied after its read was overtaken; and only a modified tab moves to a new path.
-/
def CleanStep (encodings : Encodings) (Texts : String → Prop) (w : WatchedSession) :
    WatchAction → Prop
  | .session (.openFile _ path) =>
      (∀ tab ∈ w.session.tabs, tab.location ≠ .localPath path) ∧
        ∀ bytes ∈ (w.session.disk path).contents,
          Texts (detectEncodingAndDecode encodings bytes).content
  | .session (.restoreTab state) =>
      ∀ path ∈ state.filePath, (∀ tab ∈ w.session.tabs, tab.location ≠ .localPath path) ∧
        w.lastIo path = none ∧ (∀ content ∈ state.content, Texts content.toText) ∧
        ∀ bytes ∈ (w.session.disk path).contents,
          Texts (detectEncodingAndDecode encodings bytes).content
  | .session (.edit tabId content) =>
      Texts content.toText ∧ ∀ tab ∈ w.session.tabs, tab.id = tabId → tab.largeFile = false →
        w.session.inflightSaves tabId = none → ¬w.FileConfirmed tab →
          ¬IsBaseline tab content.toText
  | .session (.replace tabId content) =>
      Texts content.toText ∧ ∀ tab ∈ w.session.tabs, tab.id = tabId → tab.largeFile = false →
        tab.modified = true ∨ content.toText = tab.content.toText
  | .session (.save tabId) =>
      ∀ tab ∈ w.session.tabs, tab.id = tabId → SavesLosslessly encodings tab
  | .session (.complete tabId) =>
      ∀ save ∈ w.session.inflightSaves tabId, save.writeResult = some false →
        ∀ tab ∈ w.session.tabs, tab.id = tabId → tab.largeFile = false → ¬w.FileConfirmed tab →
          ∀ baseline ∈ save.completion.previousBaseline,
            contentFingerprintFromStr tab.content.toText ≠ (baseline.hash, baseline.len)
  | .finishReload index =>
      ∀ reload ∈ w.reloads[index]?, ∀ io ∈ reload.readResult,
        Texts (detectEncodingAndDecode encodings io.2).content ∧
          w.StillNewest encodings reload.path io
  | .event (.renamed source target) recent =>
      w.shouldSuppressFileWatchEvent source recent = true ∨
        ∀ tab ∈ w.session.tabs, tab.filePath = some source → tab.modified = true ∧
          w.lastIo target = none ∧ ∀ other ∈ w.session.tabs, other.location ≠ .localPath target
  | _ => True

instance (tab : EditorTab) (text : String) : Decidable (IsBaseline tab text) :=
  inferInstanceAs (Decidable (_ = _))

instance (encodings : Encodings) (Texts : String → Prop) [DecidablePred Texts]
    (w : WatchedSession) (action : WatchAction) :
    Decidable (w.CleanStep encodings Texts action) :=
  match action with
  | .session (.openFile _ _) => inferInstanceAs (Decidable (_ ∧ _))
  | .session (.restoreTab state) =>
      inferInstanceAs (Decidable (∀ path ∈ state.filePath, _ ∧ _ ∧ _ ∧ _))
  | .session (.edit tabId content) =>
      inferInstanceAs (Decidable (_ ∧ ∀ tab ∈ w.session.tabs, tab.id = tabId →
        tab.largeFile = false → w.session.inflightSaves tabId = none → ¬w.FileConfirmed tab →
          ¬IsBaseline tab content.toText))
  | .session (.replace tabId _) =>
      inferInstanceAs (Decidable (_ ∧ ∀ tab ∈ w.session.tabs, tab.id = tabId →
        tab.largeFile = false → _ ∨ _))
  | .session (.save tabId) =>
      inferInstanceAs (Decidable (∀ tab ∈ w.session.tabs, tab.id = tabId →
        SavesLosslessly encodings tab))
  | .session (.complete tabId) =>
      inferInstanceAs (Decidable (∀ save ∈ w.session.inflightSaves tabId,
        save.writeResult = some false → ∀ tab ∈ w.session.tabs, tab.id = tabId →
          tab.largeFile = false → ¬w.FileConfirmed tab →
            ∀ baseline ∈ save.completion.previousBaseline, _ ≠ _))
  | .finishReload index =>
      inferInstanceAs (Decidable (∀ reload ∈ w.reloads[index]?, ∀ io ∈ reload.readResult, _ ∧ _))
  | .session (.write _ _ _) => isTrue trivial
  | .session .saveStateAsync => isTrue trivial
  | .session (.flush _) => isTrue trivial
  | .session (.quit _) => isTrue trivial
  | .session .exit => isTrue trivial
  | .external _ _ => isTrue trivial
  | .event (.renamed source _) _ =>
      inferInstanceAs (Decidable (_ ∨ ∀ tab ∈ w.session.tabs, tab.filePath = some source →
        _ ∧ _ ∧ ∀ other ∈ w.session.tabs, _))
  | .event (.modified _) _ => isTrue trivial
  | .event (.deleted _) _ => isTrue trivial
  | .event (.error _) _ => isTrue trivial
  | .setActiveTab _ => isTrue trivial
  | .answerConflict _ _ => isTrue trivial
  | .reloadReopened _ _ => isTrue trivial
  | .readReload _ => isTrue trivial

variable {tab : EditorTab} {path : PathBuf}

theorem filePath_eq_some : tab.filePath = some path ↔ tab.location = .localPath path := by
  unfold EditorTab.filePath
  cases tab.location <;> simp

theorem findTabByPath_some {tabs : List EditorTab} (h : findTabByPath tabs path = some tab) :
    tab ∈ tabs ∧ tab.location = .localPath path := by
  refine ⟨List.mem_of_find?_eq_some h, filePath_eq_some.mp ?_⟩
  simpa using List.find?_some h

theorem findTabByPath_none {tabs : List EditorTab} (h : findTabByPath tabs path = none) :
    ∀ tab ∈ tabs, tab.location ≠ .localPath path := by
  intro tab htab hloc
  have hnot := List.find?_eq_none.mp h tab htab
  simp [filePath_eq_some.mpr hloc] at hnot

/-- A tab with a path is restored by reading its file, or unsaved and without touching it. -/
theorem sessionIo_restoreTab {s : Session} {state : TabState} {tabId : Nat}
    (h : restoreTabFromState encodings parse s.disk state tabId = some tab) :
    (∃ path bytes, sessionIo parse s (.restoreTab state) = some (path, bytes) ∧
      state.filePath = some path ∧ tab.location = .localPath path ∧
      (s.disk path).contents = some bytes ∧
      tab.content.toText = (detectEncodingAndDecode encodings bytes).content ∧
      tab.contentDiffersFromOriginal = false) ∨
    (sessionIo parse s (.restoreTab state) = none ∧ ∀ path, tab.location = .localPath path →
      state.filePath = some path ∧ tab.modified = true ∧
        ∃ content, state.content = some content ∧ tab.content.toText = content.toText) := by
  rw [sessionIo]
  unfold restoreTabFromState at h
  split at h
  · rename_i remote content hdecision
    right
    rw [hdecision]
    cases h
    exact ⟨rfl, fun path hloc => by cases hloc⟩
  · rename_i path hdecision
    left
    rw [hdecision]
    split at h
    · rcases Option.map_eq_some_iff.mp h with ⟨bytes, hbytes, rfl⟩
      refine ⟨path, bytes, by simp [hbytes], (strategy_file hdecision).1, rfl, hbytes,
        by simp [EditorTab.fromFile], ?_⟩
      show (EditorTab.fromFile _).contentDiffersFromOriginal = false
      rw [EditorTab.contentDiffers_fromFile, Bool.and_false]
    · cases h
  · rename_i path text hdecision
    right
    rw [hdecision]
    cases h
    refine ⟨rfl, fun other hloc => ?_⟩
    cases hloc
    rcases strategy_withPath hdecision with ⟨hpath, _, hcontent⟩
    rcases Option.map_eq_some_iff.mp hcontent with ⟨content, hsaved, rfl⟩
    exact ⟨hpath, rfl, content, hsaved, by simp [EditorTab.fromFile]⟩
  · rename_i content hdecision
    right
    rw [hdecision]
    cases h
    exact ⟨rfl, fun path hloc => by cases hloc⟩
  · cases h

/-! ### Steps of the session -/

private theorem Clean.quiet (hw : Clean encodings Texts w) {action : SessionAction} {s : Session}
    (hio : sessionIo parse w.session action = none) (htabs : s.tabs = w.session.tabs)
    (hsaves : s.inflightSaves = w.session.inflightSaves) :
    Clean encodings Texts (w.afterSession parse action s) := by
  rcases w.afterSession_of_none s hio with ⟨hlast, hdeleted⟩
  apply hw.frame
  · rw [afterSession_session, htabs]
  · rw [afterSession_session, hsaves]
  · intro tab _ path _
    rw [hlast, hdeleted]
    exact ⟨rfl, rfl⟩

/-- A step of the session that changes one tab and its save and touches no path. -/
private theorem Clean.updateQuiet (hw : Clean encodings Texts w) {action : SessionAction}
    {s : Session} (hio : sessionIo parse w.session action = none) (tabId : Nat)
    (inflight : Option BackgroundSave) {f : EditorTab → EditorTab} (hf : KeepsPlace f)
    (htabs : s.tabs = updateEditorTab w.session.tabs tabId f)
    (hsaves : s.inflightSaves = Function.update w.session.inflightSaves tabId inflight)
    (howned : ∀ save ∈ inflight, ∃ tab ∈ w.session.tabs, tab.id = tabId ∧
      tab.location = .localPath save.completion.path)
    (hself : ∀ tab ∈ w.session.tabs, tab.id = tabId → ∀ path, tab.location = .localPath path →
      tab.largeFile = false →
      Tracked encodings Texts (w.lastIo path) (w.deletedAt path)
        (w.session.inflightSaves tabId) tab →
      Tracked encodings Texts (w.lastIo path) (w.deletedAt path) inflight (f tab)) :
    Clean encodings Texts (w.afterSession parse action s) := by
  rcases w.afterSession_of_none s hio with ⟨hlast, hdeleted⟩
  apply hw.update tabId inflight hf
  · rw [afterSession_session, htabs]
  · rw [afterSession_session, hsaves]
  · exact howned
  · rw [hlast, hdeleted]
    exact hself
  · intro tab _ _ path _
    rw [hlast, hdeleted]
    exact ⟨rfl, rfl⟩

/-- A tab read from its file joins on a path that no other tab has. -/
private theorem Clean.opened (hw : Clean encodings Texts w) {action : SessionAction} {s : Session}
    {bytes : List UInt8} (hio : sessionIo parse w.session action = some (path, bytes))
    (htabs : s.tabs = w.session.tabs ++ [tab])
    (hsaves : s.inflightSaves = w.session.inflightSaves)
    (hid : ∀ old ∈ w.session.tabs, old.id ≠ tab.id) (hloc : tab.location = .localPath path)
    (hunique : ∀ old ∈ w.session.tabs, old.location ≠ .localPath path)
    (hin : Texts (detectEncodingAndDecode encodings bytes).content)
    (htext : tab.content.toText = (detectEncodingAndDecode encodings bytes).content)
    (hsame : tab.contentDiffersFromOriginal = false) :
    Clean encodings Texts (w.afterSession parse action s) := by
  rcases w.afterSession_of_some s hio with ⟨hlast, hdeleted⟩
  apply hw.append tab
  · rw [afterSession_session, htabs]
  · rw [afterSession_session, hsaves]
  · exact hid
  · intro other hother
    rw [hloc] at hother
    cases hother
    refine ⟨hunique, fun hlarge => ?_⟩
    rw [hlast, hdeleted, Function.update_self, Function.update_self]
    exact tracked_of_read hin htext ((EditorTab.contentDiffers_eq_false_iff hlarge).mp hsame)
  · intro other hother
    have hne : other ≠ path := fun h => hother (h ▸ hloc)
    rw [hlast, hdeleted, Function.update_of_ne hne, Function.update_of_ne hne]
    exact ⟨rfl, rfl⟩

/-- A restored tab joins: read from its file, or unsaved on a path nothing is known of. -/
private theorem Clean.restored (hw : Clean encodings Texts w) {state : TabState} {s : Session}
    (htabs : s.tabs = w.session.tabs ++ [tab])
    (hsaves : s.inflightSaves = w.session.inflightSaves)
    (hfresh : ∀ old ∈ w.session.tabs, old.id ≠ state.tabId)
    (hsafe : w.CleanStep encodings Texts (.session (.restoreTab state)))
    (hrestore : restoreTabFromState encodings parse w.session.disk state state.tabId = some tab) :
    Clean encodings Texts (w.afterSession parse (.restoreTab state) s) := by
  have hid : ∀ old ∈ w.session.tabs, old.id ≠ tab.id := restore_id hrestore ▸ hfresh
  rcases sessionIo_restoreTab hrestore with hread | ⟨hio, hkept⟩
  · rcases hread with ⟨path, bytes, hio, hpath, hloc, hbytes, htext, hsame⟩
    rcases hsafe path hpath with ⟨hunique, _, _, hin⟩
    exact hw.opened hio htabs hsaves hid hloc hunique (hin bytes hbytes) htext hsame
  · rcases w.afterSession_of_none s hio with ⟨hlast, hdeleted⟩
    apply hw.append tab
    · rw [afterSession_session, htabs]
    · rw [afterSession_session, hsaves]
    · exact hid
    · intro path hloc
      rcases hkept path hloc with ⟨hpath, hmodified, content, hcontent, htext⟩
      rcases hsafe path hpath with ⟨hunique, hnothing, hin, _⟩
      refine ⟨hunique, fun _ => ?_⟩
      rw [hlast, hdeleted, hnothing]
      have hnever : tab.modified ≠ false := by simp [hmodified]
      constructor
      case text => exact htext ▸ hin content hcontent
      case flag => exact fun hclean => absurd hclean hnever
      case file => simp [InFile]
      case idle => exact fun _ hclean => absurd hclean hnever
      case landed => simp
      case pending => simp
    · intro path _
      rw [hlast, hdeleted]
      exact ⟨rfl, rfl⟩

/-- A write that lands is known of its path, which no other tab has. -/
private theorem Clean.landed (hw : Clean encodings Texts w) {tabId : Nat}
    {modified : Option String} {save : BackgroundSave} {s : Session}
    (hsave : w.session.inflightSaves tabId = some save) (hpending : save.writeResult = none)
    (htabs : s.tabs = w.session.tabs)
    (hsaves : s.inflightSaves = Function.update w.session.inflightSaves tabId
      (some { save with writeResult := some true })) :
    Clean encodings Texts (w.afterSession parse (.write tabId true modified) s) := by
  have hio : sessionIo parse w.session (.write tabId true modified) =
      some (save.completion.path, save.bytes) := by
    simp [sessionIo, hsave]
  rcases w.afterSession_of_some s hio with ⟨hlast, hdeleted⟩
  rcases hw.owned tabId save hsave with ⟨owner, howner, hownerId, hplace⟩
  apply hw.update tabId (some { save with writeResult := some true }) keepsPlace_self
  · rw [afterSession_session, htabs, updateEditorTab_self]
  · rw [afterSession_session, hsaves]
  · intro other hother
    cases hother
    exact ⟨owner, howner, hownerId, hplace⟩
  · intro tab htab hid path hloc hlarge htracked
    have hequal : tab = owner := hw.apart.ids tab htab owner howner (hid.trans hownerId.symm)
    rw [hequal, hplace] at hloc
    cases hloc
    rw [hlast, hdeleted, Function.update_self, Function.update_self]
    rw [hsave] at htracked
    exact htracked.written hpending w.clock
  · intro tab htab hid path hloc
    have hne : path ≠ save.completion.path := by
      intro hpath
      rw [hpath] at hloc
      exact hid ((hw.apart.paths tab htab owner howner _ hloc hplace) ▸ hownerId)
    rw [hlast, hdeleted, Function.update_of_ne hne, Function.update_of_ne hne]
    exact ⟨rfl, rfl⟩

/-- A dispatched save keeps the old baseline of its tab. -/
private theorem Clean.dispatched (hw : Clean encodings Texts w) {bytes : List UInt8} {s : Session}
    (htab : w.session.tabs.find? (fun other => other.id = tab.id) = some tab)
    (hloc : tab.location = .localPath path)
    (hencode : encodeForSave encodings tab.content.toText tab.encoding = .encoded bytes)
    (hidle : w.session.inflightSaves tab.id = none) (hlossless : SavesLosslessly encodings tab)
    (htabs : s.tabs = updateEditorTab w.session.tabs tab.id EditorTab.markAsSaved)
    (hsaves : s.inflightSaves = Function.update w.session.inflightSaves tab.id
      (some (w.session.dispatchedSave tab.id path bytes))) :
    Clean encodings Texts (w.afterSession parse (.save tab.id) s) := by
  have hmem := List.mem_of_find?_eq_some htab
  apply hw.updateQuiet rfl tab.id _ keepsPlace_markAsSaved htabs hsaves
  · intro save hsave
    cases hsave
    exact ⟨tab, hmem, rfl, hloc⟩
  · intro old hold hid path' hplace hlarge htracked
    have hequal : old = tab := hw.apart.ids old hold tab hmem hid
    subst hequal
    rw [hidle] at htracked
    apply htracked.saved hlarge ?_ rfl
      (by simp [Session.dispatchedSave, captureSavedBaseline, htab])
    unfold SavesLosslessly at hlossless
    rw [hencode] at hlossless
    exact hlossless

/-- Every step of the session that keeps to the rules keeps the tabs tracked. -/
theorem Clean.sessionStep (hw : Clean encodings Texts w) {action : SessionAction} {s : Session}
    (hsafe : w.CleanStep encodings Texts (.session action))
    (h : Session.Transition encodings parse w.session action s) :
    Clean encodings Texts (w.afterSession parse action s) := by
  cases h with
  | opened tabId path bytes hphase hfresh hread =>
      rcases hsafe with ⟨hunique, hin⟩
      have hio : sessionIo parse w.session (.openFile tabId path) = some (path, bytes) := by
        simp [sessionIo, hread]
      refine hw.opened hio rfl rfl hfresh rfl hunique (hin bytes hread) ?_ ?_
      · simp [Session.openedTab, EditorTab.fromFile]
      · show (EditorTab.fromFile _).contentDiffersFromOriginal = false
        rw [EditorTab.contentDiffers_fromFile, Bool.and_false]
  | restored state tab hphase hfresh hrestore => exact hw.restored rfl rfl hfresh hsafe hrestore
  | edited tabId content hphase =>
      rcases hsafe with ⟨htext, hknown⟩
      refine hw.updateQuiet rfl tabId (w.session.inflightSaves tabId) (keepsPlace_edit content) rfl
        (Function.update_eq_self _ _).symm (fun save hsave => hw.owned tabId save hsave) ?_
      intro tab htab hid path hloc hlarge htracked
      apply htracked.edit hlarge htext
      intro hidle hlost
      apply hknown tab htab hid hlarge hidle
      exact fun hconfirmed => hlost (hconfirmed path (filePath_eq_some.mpr hloc))
  | replaced tabId content hphase =>
      rcases hsafe with ⟨htext, hkept⟩
      refine hw.updateQuiet rfl tabId (w.session.inflightSaves tabId) (keepsPlace_setValue content)
        rfl (Function.update_eq_self _ _).symm (fun save hsave => hw.owned tabId save hsave) ?_
      intro tab htab hid path hloc hlarge htracked
      exact htracked.setValue htext (hkept tab htab hid hlarge)
  | notSaved tabId => exact hw.quiet rfl rfl rfl
  | saved tab path bytes hphase htab hloc hencode hidle =>
      exact hw.dispatched htab hloc hencode hidle
        (hsafe tab (List.mem_of_find?_eq_some htab) rfl) rfl rfl
  | landed tabId modified save hphase hsave hpending => exact hw.landed hsave hpending rfl rfl
  | writeFailed tabId modified save hphase hsave hpending =>
      refine hw.updateQuiet rfl tabId (some { save with writeResult := some false }) keepsPlace_self
        (updateEditorTab_self _ _).symm rfl ?_ ?_
      · intro other hother
        cases hother
        exact hw.owned tabId save hsave
      · intro tab htab hid path hloc hlarge htracked
        rw [hsave] at htracked
        exact htracked.writeFailed hpending
  | completed tabId save hphase hsave hresult =>
      refine hw.updateQuiet rfl tabId none keepsPlace_self (updateEditorTab_self _ _).symm rfl
        (by simp) ?_
      intro tab htab hid path hloc hlarge htracked
      rw [hsave] at htracked
      exact htracked.completed hresult
  | rolledBack tabId save hphase hsave hresult =>
      refine hw.updateQuiet rfl tabId none (keepsPlace_handleFailedSave save.completion) rfl rfl
        (by simp) ?_
      intro tab htab hid path hloc hlarge htracked
      rw [hsave] at htracked
      apply htracked.rolledBack hlarge hresult
      intro hlost
      apply hsafe save hsave hresult tab htab hid hlarge
      exact fun hconfirmed => hlost (hconfirmed path (filePath_eq_some.mpr hloc))
  | snapshot hphase => exact hw.quiet rfl rfl rfl
  | flushed succeeds state hphase hmailbox => exact hw.quiet rfl rfl rfl
  | quitFailed hphase => exact hw.quiet rfl rfl rfl
  | quit hphase => exact hw.quiet rfl rfl rfl
  | exited hphase => exact hw.quiet rfl rfl rfl

/-! ### Watch events and reloads -/

/-- The tabs, their saves and what is known of the paths are the same. -/
structure Agrees (w w' : WatchedSession) : Prop where
  tabs : w'.session.tabs = w.session.tabs
  saves : w'.session.inflightSaves = w.session.inflightSaves
  lastIo : w'.lastIo = w.lastIo
  deletedAt : w'.deletedAt = w.deletedAt

theorem Agrees.refl (w : WatchedSession) : Agrees w w := ⟨rfl, rfl, rfl, rfl⟩

theorem Clean.of_agrees (hw : Clean encodings Texts w) (h : Agrees w w') :
    Clean encodings Texts w' := by
  apply hw.frame h.tabs h.saves
  intro tab _ path _
  rw [h.lastIo, h.deletedAt]
  exact ⟨rfl, rfl⟩

theorem agrees_reloadTabFromDisk (w : WatchedSession) (path : PathBuf) :
    Agrees w (w.reloadTabFromDisk path) := ⟨rfl, rfl, rfl, rfl⟩

theorem agrees_showFileConflictDialog (w : WatchedSession) (path : PathBuf) (tabId : Nat) :
    Agrees w (w.showFileConflictDialog path tabId) := by
  unfold showFileConflictDialog
  split
  · exact .refl w
  · exact ⟨rfl, rfl, rfl, rfl⟩

theorem agrees_reloadWatchedTabById (w : WatchedSession) (tabId : Nat) (path : PathBuf) :
    Agrees w (w.reloadWatchedTabById tabId path) := by
  unfold reloadWatchedTabById
  split
  · exact w.agrees_reloadTabFromDisk path
  · exact .refl w

/-- A changed file starts a reload or asks the user; neither touches a tab. -/
theorem agrees_applyExternalModification (w : WatchedSession) (path : PathBuf) :
    Agrees w (w.applyExternalModification path) := by
  unfold applyExternalModification
  cases findTabByPath w.session.tabs path with
  | none => exact .refl w
  | some tab =>
      show Agrees w (if tab.modified then _ else _)
      split
      · split
        · exact w.agrees_showFileConflictDialog path tab.id
        · exact ⟨rfl, rfl, rfl, rfl⟩
      · exact w.agrees_reloadTabFromDisk path

theorem agrees_showPendingConflict (w : WatchedSession) (tabId : Nat) :
    Agrees w (w.showPendingConflict tabId) := by
  unfold showPendingConflict
  split
  · exact .refl w
  · rename_i path hpath
    split
    · have hshown := (w.forgetPendingConflict path).agrees_showFileConflictDialog path tabId
      exact ⟨hshown.tabs, hshown.saves, hshown.lastIo, hshown.deletedAt⟩
    · exact .refl w

theorem agrees_setActiveTab (w : WatchedSession) (tabId : Nat) :
    Agrees w (w.setActiveTab tabId) := by
  have hshown := agrees_showPendingConflict { w with activeTabId := some tabId } tabId
  exact ⟨hshown.tabs, hshown.saves, hshown.lastIo, hshown.deletedAt⟩

theorem agrees_answerConflict {load : Bool} (h : w.answerConflict path load = some w') :
    Agrees w w' := by
  unfold answerConflict at h
  split at h
  · cases h
  · rename_i dialog hdialog
    cases h
    cases load with
    | true =>
        have hreload := agrees_reloadWatchedTabById { w with
          openConflictDialogs := w.openConflictDialogs.filter fun dialog => dialog.1 ≠ path }
            dialog.2 path
        exact ⟨hreload.tabs, hreload.saves, hreload.lastIo, hreload.deletedAt⟩
    | false => exact ⟨rfl, rfl, rfl, rfl⟩

theorem agrees_runRead {index : Nat} (h : w.runRead index = some w') : Agrees w w' := by
  unfold runRead at h
  split at h
  · split at h
    · cases h
      exact ⟨rfl, rfl, rfl, rfl⟩
    · cases h
      exact ⟨rfl, rfl, rfl, rfl⟩
  · cases h

/-- Every save is that of a tab, and writes to its path. -/
def Owned (s : Session) : Prop :=
  ∀ tabId save, s.inflightSaves tabId = some save →
    ∃ tab ∈ s.tabs, tab.id = tabId ∧ tab.location = .localPath save.completion.path

/-- An event that is not suppressed finds no save in flight for the tab of its path. -/
theorem inflight_of_not_suppressed (happart : Apart w.session.tabs) (howned : Owned w.session)
    {recent : Bool} (h : w.shouldSuppressFileWatchEvent path recent = false)
    (htab : tab ∈ w.session.tabs) (hloc : tab.location = .localPath path) :
    w.session.inflightSaves tab.id = none := by
  cases hsave : w.session.inflightSaves tab.id with
  | none => rfl
  | some save =>
      rcases howned tab.id save hsave with ⟨owner, howner, hid, hplace⟩
      have hequal : owner = tab := happart.ids owner howner tab htab hid
      rw [hequal, hloc] at hplace
      cases hplace
      unfold shouldSuppressFileWatchEvent at h
      rw [Bool.or_eq_false_iff, List.any_eq_false] at h
      have hnot := h.2 tab htab
      simp [hsave] at hnot

theorem Owned.moveTo {s t : Session} (h : Owned s) (hidle : s.inflightSaves tab.id = none)
    {target : PathBuf} (htabs : t.tabs = updateEditorTab s.tabs tab.id fun tab => tab.moveTo target)
    (hsaves : t.inflightSaves = s.inflightSaves) : Owned t := by
  intro tabId save hsave
  rw [hsaves] at hsave
  rcases h tabId save hsave with ⟨owner, howner, hid, hplace⟩
  have hne : owner.id ≠ tab.id := by
    intro hsame
    rw [← hid, hsame, hidle] at hsave
    cases hsave
  rw [htabs]
  exact ⟨owner, List.mem_map.mpr ⟨owner, howner, if_neg hne⟩, hid, hplace⟩

/-- Reporting a path as deleted marks its tab, which then promises nothing. -/
theorem Clean.deleted (hw : Clean encodings Texts w) {recent : Bool}
    (hsuppressed : w.shouldSuppressFileWatchEvent path recent = false) :
    Clean encodings Texts ((w.markTabDeletedExternally path).reportDeleted path) := by
  unfold markTabDeletedExternally
  cases hfind : findTabByPath w.session.tabs path with
  | none =>
      refine hw.frame rfl rfl ?_
      intro tab htab other hloc
      have hne : other ≠ path := by
        intro hpath
        exact findTabByPath_none hfind tab htab (hpath ▸ hloc)
      exact ⟨rfl, Function.update_of_ne hne _ _⟩
  | some tab =>
      rcases findTabByPath_some hfind with ⟨htab, hloc⟩
      have hidle := inflight_of_not_suppressed hw.apart hw.owned hsuppressed htab hloc
      refine hw.update tab.id none keepsPlace_marked rfl ?_ ?_ ?_ ?_
      · exact (hidle ▸ Function.update_eq_self tab.id w.session.inflightSaves).symm
      · simp
      · intro old hold hid place hplace hlarge htracked
        rw [hidle] at htracked
        exact htracked.marked _
      · intro other hother hid place hplace
        have hne : place ≠ path := by
          intro hpath
          exact hid (congrArg EditorTab.id
            (hw.apart.paths other hother tab htab path (hpath ▸ hplace) hloc))
        exact ⟨rfl, Function.update_of_ne hne _ _⟩

/-- A tab whose file is renamed takes no save along, and is modified on its new path. -/
theorem Clean.moved (hw : Clean encodings Texts w) {source target : PathBuf} {recent : Bool}
    (hsuppressed : w.shouldSuppressFileWatchEvent source recent = false)
    (hsafe : w.CleanStep encodings Texts (.event (.renamed source target) recent)) :
    Clean encodings Texts (w.moveRenamedTab source target) := by
  unfold moveRenamedTab
  cases hfind : findTabByPath w.session.tabs source with
  | none => exact hw
  | some tab =>
      rcases findTabByPath_some hfind with ⟨htab, hloc⟩
      have hidle := inflight_of_not_suppressed hw.apart hw.owned hsuppressed htab hloc
      rcases hsafe with hrecent | hmoves
      · rw [hsuppressed] at hrecent
        cases hrecent
      · rcases hmoves tab htab (filePath_eq_some.mpr hloc) with ⟨hmodified, hnothing, hfree⟩
        constructor
        · exact Apart.moveTo hw.apart tab.id hfree
        · exact Owned.moveTo hw.owned hidle rfl rfl
        · intro moved hmem path hplace hlarge
          rcases mem_updateEditorTab hmem with ⟨old, hold, ⟨hid, rfl⟩ | ⟨hid, rfl⟩⟩
          · have hequal : old = tab := hw.apart.ids old hold tab htab hid
            subst hequal
            have htracked := hw.tracked old hold source hloc hlarge
            rw [hidle] at htracked
            cases hplace
            show Tracked encodings Texts (w.lastIo target) (w.deletedAt target)
              (w.session.inflightSaves old.id) _
            rw [hnothing, hidle]
            exact htracked.moved hmodified _ target
          · exact hw.tracked moved hold path hplace hlarge

theorem Clean.event (hw : Clean encodings Texts w) {event : FileWatchEvent} {recent : Bool}
    (hsafe : w.CleanStep encodings Texts (.event event recent)) :
    Clean encodings Texts (w.handleFileWatchEvent event recent) := by
  unfold handleFileWatchEvent
  cases event with
  | modified path =>
      show Clean encodings Texts (if w.shouldSuppressFileWatchEvent path recent then _ else _)
      split
      · exact hw
      · exact hw.of_agrees (w.agrees_applyExternalModification path)
  | deleted path =>
      show Clean encodings Texts (if w.shouldSuppressFileWatchEvent path recent then _ else _)
      split
      · exact hw
      · rename_i hsuppressed
        split
        · have hforgotten : Clean encodings Texts (w.forgetPendingConflict path) :=
            hw.of_agrees ⟨rfl, rfl, rfl, rfl⟩
          exact hforgotten.of_agrees (agrees_applyExternalModification _ path)
        · exact hw.deleted (by simpa using hsuppressed)
  | renamed source target =>
      show Clean encodings Texts (if w.shouldSuppressFileWatchEvent source recent then _ else _)
      split
      · exact hw
      · rename_i hsuppressed
        exact hw.moved (by simpa using hsuppressed) hsafe
  | error msg => exact hw

/-- A reload whose read is still the newest keeps its tab tracked. -/
theorem Clean.reloaded (hw : Clean encodings Texts w) {io : Nat × List UInt8}
    (hin : Texts (detectEncodingAndDecode encodings io.2).content)
    (hnewest : w.StillNewest encodings path io) :
    Clean encodings Texts (w.applyReloadedContents encodings path io) := by
  unfold applyReloadedContents
  cases hfind : findTabByPath w.session.tabs path with
  | none => exact hw
  | some tab =>
      rcases findTabByPath_some hfind with ⟨htab, hloc⟩
      rcases hnewest with ⟨hlast, hreported, hlanded⟩
      refine hw.update tab.id (w.session.inflightSaves tab.id) (keepsPlace_applyReload _) rfl
        ?_ ?_ ?_ ?_
      · exact (Function.update_eq_self _ _).symm
      · exact fun save hsave => hw.owned tab.id save hsave
      · intro old hold hid place hplace hlarge htracked
        have hequal : old = tab := hw.apart.ids old hold tab htab hid
        rw [hequal, hloc] at hplace
        cases hplace
        show Tracked encodings Texts (Function.update w.lastIo path _ path)
          (Function.update w.deletedAt path _ path) _ _
        rw [Function.update_self, Function.update_self]
        exact htracked.reloaded hlarge hin
          (hlanded tab htab (filePath_eq_some.mpr hloc)) hlast hreported
      · intro other hother hid place hplace
        have hne : place ≠ path := by
          intro hpath
          exact hid (congrArg EditorTab.id
            (hw.apart.paths other hother tab htab path (hpath ▸ hplace) hloc))
        exact ⟨Function.update_of_ne hne _ _, Function.update_of_ne hne _ _⟩

/-- Every step that keeps to the rules keeps the tabs tracked. -/
theorem Clean.step (hw : Clean encodings Texts w) {action : WatchAction}
    (hsafe : w.CleanStep encodings Texts action)
    (h : w.step encodings parse action = some w') : Clean encodings Texts w' := by
  cases action with
  | session action =>
      rcases Option.map_eq_some_iff.mp h with ⟨s, hstep, rfl⟩
      exact hw.sessionStep hsafe (Session.transition_of_step hstep)
  | external path file =>
      cases h
      exact hw.of_agrees ⟨rfl, rfl, rfl, rfl⟩
  | readReload index =>
      rcases Option.ite_none_left_eq_some.mp h with ⟨_, hread⟩
      exact hw.of_agrees (agrees_runRead hread)
  | event event recent =>
      rcases Option.ite_none_right_eq_some.mp h with ⟨_, hevent⟩
      cases hevent
      exact hw.event hsafe
  | setActiveTab tabId =>
      rcases Option.ite_none_right_eq_some.mp h with ⟨_, hactive⟩
      cases hactive
      exact hw.of_agrees (w.agrees_setActiveTab tabId)
  | answerConflict path load =>
      rcases Option.ite_none_right_eq_some.mp h with ⟨_, hanswer⟩
      exact hw.of_agrees (agrees_answerConflict hanswer)
  | reloadReopened tabId path =>
      rcases Option.ite_none_right_eq_some.mp h with ⟨_, hreload⟩
      cases hreload
      exact hw.of_agrees (w.agrees_reloadWatchedTabById tabId path)
  | finishReload index =>
      rcases Option.ite_none_right_eq_some.mp h with ⟨_, hfinish⟩
      unfold finishReload at hfinish
      split at hfinish
      · rename_i path io hreload
        cases hfinish
        have herased : Clean encodings Texts { w with reloads := w.reloads.eraseIdx index } :=
          hw.of_agrees ⟨rfl, rfl, rfl, rfl⟩
        rcases hsafe _ hreload io rfl with ⟨hin, hnewest⟩
        exact herased.reloaded hin hnewest
      · cases hfinish

/--
Clean means saved: a small local tab that is not modified and has no save in
flight shows the text last written to its path or taken from it, and the path
was not reported deleted after that.
-/
def CleanMeansSaved (encodings : Encodings) (w : WatchedSession) : Prop :=
  ∀ tab ∈ w.session.tabs, ∀ path ∈ tab.filePath, tab.largeFile = false →
    w.session.inflightSaves tab.id = none → tab.modified = false →
      (∃ io ∈ w.lastIo path,
        (detectEncodingAndDecode encodings io.2).content = tab.content.toText) ∧
      w.deletedAt path = none

instance (encodings : Encodings) (w : WatchedSession) : Decidable (w.CleanMeansSaved encodings) :=
  inferInstanceAs (Decidable (∀ tab ∈ w.session.tabs, ∀ path ∈ tab.filePath, _ → _ → _ →
    (∃ io ∈ w.lastIo path, _) ∧ w.deletedAt path = none))

theorem Clean.saved (hw : Clean encodings Texts w)
    (hinj : ∀ a b, Texts a → Texts b →
      contentFingerprintFromStr a = contentFingerprintFromStr b → a = b) :
    w.CleanMeansSaved encodings := by
  intro tab htab path hpath hlarge hidle hclean
  have htracked := hw.tracked tab htab path (filePath_eq_some.mp hpath) hlarge
  rw [hidle] at htracked
  rcases htracked.idle rfl hclean with ⟨hknown, hdeleted⟩
  rcases Option.isSome_iff_exists.mp hknown with ⟨io, hio⟩
  rcases htracked.file (by simp) io hio with ⟨hin, hbaseline⟩
  have hbuffer := htracked.flag hclean
  exact ⟨⟨io, hio, hinj _ _ hin htracked.text (hbaseline.trans hbuffer.symm)⟩, hdeleted⟩

end WatchedSession

open WatchedSession

/--
In every run that brings no buffer back to its baseline while its file is not
confirmed to hold it, replaces in no unmodified buffer, moves no unmodified tab,
applies no reload after its read was overtaken, and whose texts have different
fingerprints and are saved without loss, clean means saved.
-/
theorem clean_tabs_are_saved {encodings : Encodings} {parse : String → Option Int}
    (Texts : String → Prop) {disk : Disk} {persisted : List TabState}
    {actions : List WatchAction} {w : WatchedSession}
    (hinj : ∀ a b, Texts a → Texts b →
      contentFingerprintFromStr a = contentFingerprintFromStr b → a = b)
    (hguard : Guarded (WatchedSession.step encodings parse) (CleanStep encodings Texts)
      (WatchedSession.launched disk persisted) actions)
    (hrun : run (WatchedSession.step encodings parse) (WatchedSession.launched disk persisted)
      actions = some w) :
    w.CleanMeansSaved encodings := by
  have hclean : Clean encodings Texts w := by
    apply invariant_of_guarded (Clean encodings Texts) _ (clean_launched disk persisted) hguard hrun
    intro w action w' hw hsafe hstep
    exact hw.step hsafe hstep
  exact hclean.saved hinj

/-- The file `/n` is opened; then another program deletes it, and the user is told. -/
def sampleDeletion : List WatchAction :=
  [.session (.openFile 0 ⟨asBytes "/n"⟩), .external ⟨asBytes "/n"⟩ .missing,
    .event (.deleted ⟨asBytes "/n"⟩) false]

/-- After the deletion the user edits, replaces and saves; the file changes and is renamed. -/
def sampleWatch : List WatchAction :=
  sampleDeletion ++
    [.session (.edit 0 (.ofText "ab")), .session (.replace 0 (.ofText "b")), .session (.save 0),
      .session (.write 0 true none), .session (.complete 0),
      .external ⟨asBytes "/n"⟩ ⟨true, none, true, some (asBytes "a")⟩,
      .event (.modified ⟨asBytes "/n"⟩) false, .readReload 0, .finishReload 0,
      .session (.edit 0 (.ofText "ab")), .event (.renamed ⟨asBytes "/n"⟩ ⟨asBytes "/m"⟩) false]

theorem clean_tabs_are_saved_sample :
    ∃ w, run (WatchedSession.step sampleEncodings sampleParse)
        (WatchedSession.launched sampleDisk []) sampleWatch = some w ∧
      w.CleanMeansSaved sampleEncodings := by
  have hruns : (run (WatchedSession.step sampleEncodings sampleParse)
      (WatchedSession.launched sampleDisk []) sampleWatch).isSome = true := by
    decide
  rcases Option.isSome_iff_exists.mp hruns with ⟨w, hrun⟩
  have hinj : ∀ a ∈ ["a", "ab", "b"], ∀ b ∈ ["a", "ab", "b"],
      contentFingerprintFromStr a = contentFingerprintFromStr b → a = b := by
    decide
  exact ⟨w, hrun, clean_tabs_are_saved (fun text => text ∈ ["a", "ab", "b"])
    (fun a b ha hb => hinj a ha b hb) (Guarded.of_guardedRun (by decide)) hrun⟩

/-- An edit and its undo take back the mark of the deleted file. -/
theorem undo_clears_deletion_mark :
    (run (WatchedSession.step sampleEncodings sampleParse) (WatchedSession.launched sampleDisk [])
      (sampleDeletion ++ [.session (.edit 0 (.ofText "ab")), .session (.edit 0 (.ofText "a"))])).any
        (fun w => decide (¬w.CleanMeansSaved sampleEncodings ∧
          ∀ tab ∈ w.session.tabs, tab.modified = false ∧
            ∀ path ∈ tab.filePath, (w.session.disk path).isPresent = false)) = true := by
  decide

/-- A replacement in a clean tab leaves it clean, with a text that its file does not hold. -/
example :
    (run (WatchedSession.step sampleEncodings sampleParse) (WatchedSession.launched sampleDisk [])
      [.session (.openFile 0 ⟨asBytes "/n"⟩), .session (.replace 0 (.ofText "b"))]).any
        (fun w => decide (¬w.CleanMeansSaved sampleEncodings)) = true := by
  decide

/-- A reload that read its file before a save wrote it ends with the older text, clean. -/
example :
    (run (WatchedSession.step sampleEncodings sampleParse) (WatchedSession.launched sampleDisk [])
      [.session (.openFile 0 ⟨asBytes "/n"⟩), .event (.modified ⟨asBytes "/n"⟩) false,
        .readReload 0, .session (.edit 0 (.ofText "ab")), .session (.save 0),
        .session (.write 0 true none), .session (.complete 0), .finishReload 0]).any
        (fun w => decide (¬w.CleanMeansSaved sampleEncodings)) = true := by
  decide

end Fulgur
