import Fulgur.Tabs.EditsFlagged

/-! # What a failed save leaves of a tab

A save marks its tab saved when it is dispatched. When its write fails, the
baseline of the dispatch comes back; the flag of a large tab is then combined
from the dispatch and the edits since, while that of any other tab is recomputed
from the baseline, so that a flag that was set for another reason is lost.
-/

namespace Fulgur

open LabelledRun

/-- Whether an action leaves the baseline alone: it ends no save and reads nothing anew. -/
def EditAction.leavesBaseline {Language : Type} : EditAction Language → Bool
  | .finishSave _ => false
  | .finishRemoteSave _ => false
  | .reload _ => false
  | .remoteReload _ => false
  | _ => true

namespace LiveTab

variable {Language : Type}

/-- A text that is not what was saved; of a large tab no fingerprint is taken. -/
def DiffersFromBaseline (t : LiveTab Language) (text : String) : Prop :=
  if t.tab.largeFile = true then text ≠ t.savedText
  else contentFingerprintFromStr text ≠ (t.tab.originalContentHash, t.tab.originalContentLen)

instance (t : LiveTab Language) (text : String) : Decidable (t.DiffersFromBaseline text) :=
  inferInstanceAs (Decidable (if t.tab.largeFile = true then _ ≠ _ else _ ≠ _))

/-- The buffer was edited since the dispatch to something that differs from the baseline there. -/
def EditedAway (dispatched t : LiveTab Language) : Prop :=
  t.tab.content.toText ≠ dispatched.tab.content.toText ∧
    dispatched.DiffersFromBaseline t.tab.content.toText

instance (dispatched t : LiveTab Language) : Decidable (EditedAway dispatched t) :=
  inferInstanceAs (Decidable (_ ∧ _))

/-- After the failure the tab looks no cleaner than it was dispatched and edited since. -/
structure KeptDirty (dispatched before after : LiveTab Language) : Prop where
  hash : after.tab.originalContentHash = dispatched.tab.originalContentHash
  len : after.tab.originalContentLen = dispatched.tab.originalContentLen
  flag : dispatched.tab.modified = true ∨ EditedAway dispatched before → after.tab.modified = true

instance (dispatched before after : LiveTab Language) :
    Decidable (KeptDirty dispatched before after) :=
  decidable_of_iff
    (after.tab.originalContentHash = dispatched.tab.originalContentHash ∧
      after.tab.originalContentLen = dispatched.tab.originalContentLen ∧
      (dispatched.tab.modified = true ∨ EditedAway dispatched before → after.tab.modified = true))
    ⟨fun h => ⟨h.1, h.2.1, h.2.2⟩, fun h => ⟨h.hash, h.len, h.flag⟩⟩

/-- The action changes the buffer through its content entity, which tells the tab. -/
def Announced (t : LiveTab Language) : EditAction Language → Prop
  | .typeText _ => True
  | .csvEdit table serialized =>
      serialized.isSome = true ∧ ∃ delegate ∈ t.csvTables[table]?, delegate.content = t.content
  | _ => False

/--
What the dispatch and the edits during the write must be like. Of a large tab
some edit was announced, unless its flag was set already or nothing is left of
the edits; of any other tab the flag was off, or the buffer that the failure
finds differs from the baseline.
-/
def SurvivesFailure [DecidableEq Language] (languageFromContent : String → String → Language)
    (dispatched writing before : LiveTab Language) (edits : List (EditAction Language)) : Prop :=
  if dispatched.tab.largeFile = true then
    dispatched.tab.modified = true ∨
      Sometime (LiveTab.step languageFromContent) Announced writing edits ∨
      ¬EditedAway dispatched before
  else dispatched.tab.modified = false ∨ dispatched.DiffersFromBaseline before.tab.content.toText

/-! ## What the edits do during the write -/

/-- The step of an edit: what it may change, and that only an announced one reaches the flag. -/
structure EditedTo (t : LiveTab Language) (action : EditAction Language) (t' : LiveTab Language) :
    Prop where
  subscribed : Subscribed t'
  inflight : t'.inflightSave = t.inflightSave
  tab : (t.Announced action ∧ ∃ content, t'.tab = t.tab.edit content) ∨
    ¬t.Announced action ∧
      ∃ content title, t'.tab = { t.tab with content := content, title := title }

section

variable {t t' : LiveTab Language}

/-- An action that swaps the content entity leaves the tab with the text it had. -/
theorem Subscribed.swapped (h : Subscribed t) {swapped : LiveTab Language}
    {action : EditAction Language} {title : String} (hquiet : ¬t.Announced action)
    (htab : swapped.tab = { t.tab with title := title })
    (hsubscription : swapped.contentSubscription = t.contentSubscription)
    (hsave : swapped.inflightSave = t.inflightSave) :
    EditedTo t action (swapped.reattachIfContentSwapped t.content) := by
  have hsubscribed : Subscribed (swapped.reattachIfContentSwapped t.content) :=
    h.reattach hsubscription
  rcases swapped.reattachIfContentSwapped_eq t.content with ⟨subscription, hrest⟩
  rw [hrest] at hsubscribed ⊢
  exact ⟨hsubscribed, hsave, Or.inr ⟨hquiet, t.tab.content, title, htab⟩⟩

theorem Subscribed.replaced (h : Subscribed t) {action : EditAction Language}
    (hquiet : ¬t.Announced action) (replaced : Option String) :
    EditedTo t action (t.replaceText replaced) := by
  cases replaced with
  | none => exact ⟨h, rfl, Or.inr ⟨hquiet, t.tab.content, t.tab.title, rfl⟩⟩
  | some text =>
      show EditedTo t action (t.setValue t.content (.ofText text))
      rw [setValue, if_pos rfl]
      exact ⟨h, rfl, Or.inr ⟨hquiet, .ofText text, t.tab.title, rfl⟩⟩

theorem Subscribed.committed (h : Subscribed t) {table : Nat} {serialized : Option String}
    (hcommit : t.commitToBuffer table serialized = some t') :
    EditedTo t (.csvEdit table serialized) t' := by
  rcases h.commitToBuffer hcommit with ⟨delegate, csvTables, hdelegate, hresult⟩
  rcases hresult with ⟨hlive, text, hserialized, rfl⟩ | ⟨helsewhere, rfl⟩
  · have htables : Subscribed { t with csvTables := csvTables } := h
    rw [htables.typeText_eq]
    refine ⟨h, rfl, Or.inl ⟨⟨by rw [hserialized]; rfl, delegate, hdelegate, hlive⟩, _, rfl⟩⟩
  · refine ⟨h, rfl, Or.inr ⟨?_, t.tab.content, t.tab.title, rfl⟩⟩
    rintro ⟨hsome, found, hfound, hlive⟩
    rw [Option.mem_def, hdelegate, Option.some.injEq] at hfound
    rcases helsewhere with hother | hnone
    · exact hother (hfound ▸ hlive)
    · rw [hnone] at hsome
      cases hsome

theorem Subscribed.dispatchSave (h : Subscribed t) (path : PathBuf) (byteLen : Nat)
    (saveAsEncoding : Option String) : Subscribed (t.dispatchSave path byteLen saveAsEncoding) := by
  unfold LiveTab.dispatchSave
  split
  · exact h
  · exact h

variable [DecidableEq Language] {languageFromContent : String → String → Language}

theorem Subscribed.edited (h : Subscribed t) {action : EditAction Language}
    (hwriting : ∀ path byteLen saveAsEncoding, action = .save path byteLen saveAsEncoding →
      t.inflightSave.isSome = true)
    (hleaves : action.leavesBaseline = true)
    (hstep : t.step languageFromContent action = some t') : EditedTo t action t' := by
  cases action with
  | typeText text =>
      cases hstep
      rw [h.typeText_eq]
      exact ⟨h, rfl, Or.inl ⟨trivial, text, rfl⟩⟩
  | replaceCurrent bar =>
      cases hstep
      exact h.replaced id _
  | replaceAll bar =>
      cases hstep
      exact h.replaced id _
  | csvEdit table serialized => exact h.committed hstep
  | buildCsvTable =>
      cases hstep
      exact ⟨h, rfl, Or.inr ⟨id, t.tab.content, t.tab.title, rfl⟩⟩
  | save path byteLen saveAsEncoding =>
      -- a second save is not dispatched while one is in flight
      cases hstep
      rw [LiveTab.dispatchSave, if_pos (hwriting path byteLen saveAsEncoding rfl)]
      exact ⟨h, rfl, Or.inr ⟨id, t.tab.content, t.tab.title, rfl⟩⟩
  | updateSettings highlightColors =>
      cases hstep
      apply h.swapped id
      all_goals split <;> rfl
  | forceLanguage language =>
      cases hstep
      exact h.swapped id rfl rfl rfl
  | rename name =>
      have hrename : t.renameEditor languageFromContent name = some t' := hstep
      unfold LiveTab.renameEditor at hrename
      split at hrename
      · cases hrename
        show EditedTo t _ (if _ then _ else _)
        split
        · exact h.swapped id rfl rfl rfl
        · exact ⟨h, rfl, Or.inr ⟨id, t.tab.content, name, rfl⟩⟩
      · cases hrename
  | finishSave writeResult => cases hleaves
  | finishRemoteSave savedContent => cases hleaves
  | reload decoded => cases hleaves
  | remoteReload result => cases hleaves

theorem Subscribed.updateLanguage (h : Subscribed t) :
    Subscribed (t.updateLanguage languageFromContent) := by
  unfold LiveTab.updateLanguage
  cases t.tab.filePath with
  | none => exact h
  | some path =>
      show Subscribed (if _ then _ else _)
      split
      · exact h.reattach rfl
      · exact h

theorem Subscribed.finishSave (h : Subscribed t) {writeResult : Option PathBuf}
    (hfinish : t.finishSave languageFromContent writeResult = some t') : Subscribed t' := by
  unfold LiveTab.finishSave at hfinish
  split at hfinish
  · cases hfinish
  · cases hfinish
    exact h
  · simp only at hfinish
    split at hfinish
    · cases hfinish
      exact h
    · cases hfinish
      apply Subscribed.updateLanguage
      exact h

/-- Whatever happens to a tab, it listens to the content entity it has. -/
theorem subscribed_of_run {tab : EditorTab} {language : Language} {highlightColors : Bool}
    {savedText : String} {actions : List (EditAction Language)}
    (hrun : run (LiveTab.step languageFromContent)
      (intoEntity tab language highlightColors savedText) actions = some t) : Subscribed t := by
  refine invariant_of_run Subscribed ?_ (subscribed_intoEntity _ _ _ _) hrun
  intro s action s' h hstep
  cases action with
  | save path byteLen saveAsEncoding =>
      cases hstep
      exact h.dispatchSave path byteLen saveAsEncoding
  | finishSave writeResult => exact h.finishSave hstep
  | finishRemoteSave savedContent =>
      cases hstep
      exact h
  | reload decoded =>
      cases hstep
      apply Subscribed.updateLanguage
      exact h
  | remoteReload result =>
      cases hstep
      exact h.reattach rfl
  | _ => exact (h.edited (fun _ _ _ hsave => by cases hsave) rfl hstep).subscribed

end

/-! ## The tab while its write runs -/

/-- The tab since its dispatch: what the failure of the write will go back to is kept. -/
structure Awaiting (dispatched t : LiveTab Language) : Prop where
  subscribed : Subscribed t
  large : t.tab.largeFile = dispatched.tab.largeFile
  inflight : ∃ save ∈ t.inflightSave,
    save.completion.previousBaseline = some dispatched.tab.savedBaseline

variable {dispatched t t' : LiveTab Language}

theorem awaiting_dispatchSave (h : Subscribed t) (hidle : t.inflightSave = none) (path : PathBuf)
    (byteLen : Nat) (saveAsEncoding : Option String) :
    Awaiting t (t.dispatchSave path byteLen saveAsEncoding) ∧
      (t.dispatchSave path byteLen saveAsEncoding).tab = t.tab.markAsSaved := by
  rw [LiveTab.dispatchSave, if_neg (by simp [hidle])]
  exact ⟨⟨h, rfl, _, rfl, rfl⟩, rfl⟩

/-- An edit keeps the wait, and raises the flag of a large tab exactly when it is announced. -/
theorem Awaiting.edited (h : Awaiting dispatched t) {action : EditAction Language}
    (hedited : EditedTo t action t') :
    Awaiting dispatched t' ∧ (dispatched.tab.largeFile = true →
      (t'.tab.modified = true ↔ t.tab.modified = true ∨ t.Announced action)) := by
  have hinflight : ∃ save ∈ t'.inflightSave,
      save.completion.previousBaseline = some dispatched.tab.savedBaseline := by
    rw [hedited.inflight]
    exact h.inflight
  rcases hedited.tab with ⟨hannounced, content, htab⟩ | ⟨hquiet, content, title, htab⟩
  · refine ⟨⟨hedited.subscribed, ?_, hinflight⟩, fun hlarge => ?_⟩
    · rw [htab, ← h.large]
      exact (keepsPlace_edit content).largeFile t.tab
    · have hmode : t.tab.largeFile = true := h.large.trans hlarge
      simp [htab, EditorTab.edit, EditorTab.onContentChange, hmode, hannounced]
  · refine ⟨⟨hedited.subscribed, ?_, hinflight⟩, fun _ => ?_⟩
    · rw [htab]
      exact h.large
    · rw [htab]
      simp [hquiet]

variable [DecidableEq Language] {languageFromContent : String → String → Language}

theorem Awaiting.step (h : Awaiting dispatched t) {action : EditAction Language}
    (hleaves : action.leavesBaseline = true)
    (hstep : t.step languageFromContent action = some t') :
    Awaiting dispatched t' ∧ (dispatched.tab.largeFile = true →
      (t'.tab.modified = true ↔ t.tab.modified = true ∨ t.Announced action)) := by
  have hwriting : t.inflightSave.isSome = true := by
    rcases h.inflight with ⟨save, hsave, _⟩
    exact Option.isSome_of_mem hsave
  exact h.edited (h.subscribed.edited (fun _ _ _ _ => hwriting) hleaves hstep)

/-! ## The failure -/

/-- What the failure makes of the tab: the old baseline, and a flag that depends on the mode. -/
theorem Awaiting.failed (h : Awaiting dispatched t) :
    ∃ after, t.step languageFromContent (.finishSave none) = some after ∧
      after.tab.originalContentHash = dispatched.tab.originalContentHash ∧
      after.tab.originalContentLen = dispatched.tab.originalContentLen ∧
      (after.tab.modified = true ↔
        if dispatched.tab.largeFile = true then
          dispatched.tab.modified = true ∨ t.tab.modified = true
        else dispatched.DiffersFromBaseline t.tab.content.toText) := by
  rcases h.inflight with ⟨save, hsave, hbaseline⟩
  have hfinish : t.step languageFromContent (.finishSave none) = some { t with
      inflightSave := none
      tab := handleFailedSave save.completion t.tab
      savedText := t.previousText } := by
    rw [Option.mem_def] at hsave
    rw [LiveTab.step, LiveTab.finishSave.eq_def, hsave]
  refine ⟨_, hfinish, ?_⟩
  cases hlarge : dispatched.tab.largeFile with
  | true =>
      have hmode : t.tab.largeFile = true := h.large.trans hlarge
      simp [handleFailedSave, hbaseline, hmode, EditorTab.savedBaseline]
  | false =>
      have hmode : t.tab.largeFile = false := h.large.trans hlarge
      have hfailed : handleFailedSave save.completion t.tab =
          { t.tab with
            originalContentHash := dispatched.tab.originalContentHash
            originalContentLen := dispatched.tab.originalContentLen }.checkModified := by
        simp [handleFailedSave, hbaseline, hmode, EditorTab.savedBaseline]
      dsimp only
      rw [hfailed]
      refine ⟨rfl, rfl, ?_⟩
      rw [if_neg Bool.false_ne_true, DiffersFromBaseline, hlarge, if_neg Bool.false_ne_true,
        ← Bool.not_eq_false, Ne, not_iff_not]
      exact EditorTab.contentDiffers_eq_false_iff hmode

end LiveTab

open LiveTab

/--
For every tab, every run of edits during the write and every failing Save or
Save As: the baseline is that of the dispatch again, and the flag is set if it
was set there or the buffer was edited to something else, exactly when the
dispatch and the edits meet the condition.
-/
theorem failed_save_keeps_dirty_iff {Language : Type} [DecidableEq Language]
    (languageFromContent : String → String → Language) {dispatched before : LiveTab Language}
    (hsubscribed : dispatched.Subscribed) (hidle : dispatched.inflightSave = none)
    {path : PathBuf} {byteLen : Nat} {saveAsEncoding : Option String}
    {edits : List (EditAction Language)} (hedits : ∀ action ∈ edits, action.leavesBaseline = true)
    (hrun : run (LiveTab.step languageFromContent)
      (dispatched.dispatchSave path byteLen saveAsEncoding) edits = some before) :
    ∃ after, before.step languageFromContent (.finishSave none) = some after ∧
      (KeptDirty dispatched before after ↔ SurvivesFailure languageFromContent dispatched
        (dispatched.dispatchSave path byteLen saveAsEncoding) before edits) := by
  obtain ⟨hawaiting, hmarked⟩ :=
    awaiting_dispatchSave hsubscribed hidle path byteLen saveAsEncoding
  have hguard : Guarded (LiveTab.step languageFromContent)
      (fun _ action => action.leavesBaseline = true)
      (dispatched.dispatchSave path byteLen saveAsEncoding) edits := Guarded.of_labels hedits _
  have hbefore : Awaiting dispatched before :=
    invariant_of_guarded (Awaiting dispatched)
      (fun _ _ _ h hleaves hstep => (h.step hleaves hstep).1) hawaiting hguard hrun
  obtain ⟨after, hfails, hhash, hlen, hflag⟩ := @Awaiting.failed _ _ _ _ languageFromContent hbefore
  refine ⟨after, hfails, ?_⟩
  have hkept : KeptDirty dispatched before after ↔
      (dispatched.tab.modified = true ∨ EditedAway dispatched before →
        after.tab.modified = true) :=
    ⟨KeptDirty.flag, fun h => ⟨hhash, hlen, h⟩⟩
  rw [hkept, hflag, SurvivesFailure]
  cases hlarge : dispatched.tab.largeFile with
  | true =>
      have hraised := raised_iff_sometime (Awaiting dispatched) (fun t => t.tab.modified = true)
        (fun _ _ _ h hleaves hstep =>
          ⟨(h.step hleaves hstep).1, (h.step hleaves hstep).2 hlarge⟩) hawaiting hguard hrun
      have hoff : (dispatched.dispatchSave path byteLen saveAsEncoding).tab.modified = false := by
        rw [hmarked]
        rfl
      rw [hraised, hoff]
      simp only [if_true, Bool.false_eq_true, false_or]
      constructor
      · intro hkeeps
        by_cases haway : EditedAway dispatched before
        · rcases hkeeps (Or.inr haway) with hset | hannounced
          · exact Or.inl hset
          · exact Or.inr (Or.inl hannounced)
        · exact Or.inr (Or.inr haway)
      · rintro (hset | hannounced | hnothing) hdirty
        · exact Or.inl hset
        · exact Or.inr hannounced
        · exact Or.inl (hdirty.resolve_right hnothing)
  | false =>
      simp only [Bool.false_eq_true, if_false]
      rw [← Bool.not_eq_true]
      constructor
      · intro hkeeps
        by_cases hset : dispatched.tab.modified = true
        · exact Or.inr (hkeeps (Or.inl hset))
        · exact Or.inl hset
      · rintro (hclear | hdiffers) hdirty
        · exact (hdirty.resolve_left hclear).2
        · exact hdiffers

/-- The tab of `/n`, flagged as it is when another program deletes the file, or not. -/
def sampleSavedTab (modified : Bool) : LiveTab Unit :=
  intoEntity { sampleReadTab with modified := modified } () false "a"

/-- A tab that is flagged and then typed in during the write stays flagged. -/
theorem failed_save_keeps_dirty_iff_sample :
    ∃ after, (((sampleSavedTab true).dispatchSave ⟨asBytes "/n"⟩ 1 none).typeText
        (.ofText "ac")).step (fun _ _ => ()) (.finishSave none) = some after ∧
      KeptDirty (sampleSavedTab true) (((sampleSavedTab true).dispatchSave ⟨asBytes "/n"⟩ 1
        none).typeText (.ofText "ac")) after := by
  obtain ⟨after, hfails, hkept⟩ := @failed_save_keeps_dirty_iff Unit _ (fun _ _ => ())
    (sampleSavedTab true) _ rfl rfl ⟨asBytes "/n"⟩ 1 none [.typeText (.ofText "ac")] (by decide) rfl
  have hsurvives : SurvivesFailure (fun _ _ => ()) (sampleSavedTab true)
      ((sampleSavedTab true).dispatchSave ⟨asBytes "/n"⟩ 1 none)
      (((sampleSavedTab true).dispatchSave ⟨asBytes "/n"⟩ 1 none).typeText (.ofText "ac"))
      [.typeText (.ofText "ac")] := by
    rw [SurvivesFailure, if_neg (by decide)]
    right
    decide
  exact ⟨after, hfails, hkept.mpr hsurvives⟩

/-- The file was deleted, which flags its tab; a save that fails leaves the tab clean. -/
theorem failed_save_cleans_deleted :
    ∃ after, ((sampleSavedTab true).dispatchSave ⟨asBytes "/n"⟩ 1 none).step (fun _ _ => ())
        (.finishSave none) = some after ∧
      ¬KeptDirty (sampleSavedTab true)
        ((sampleSavedTab true).dispatchSave ⟨asBytes "/n"⟩ 1 none) after :=
  exists_of_any (by decide)

end Fulgur
