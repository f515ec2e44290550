import Fulgur.Library.Run
import Fulgur.Search.ReplaceAll
import Fulgur.Tabs.EditSurfaces

/-! # Which edits keep the modified flag right

The subscription follows the content entity through every swap, so an edit whose
event comes from the content entity recomputes the flag from the baseline. A
replacement of the search bar emits no event and leaves the flag as it was. The
flag stays right where nothing is replaced, and in a modified tab whose lengths
keep the replaced buffer away from the saved text.
-/

namespace Fulgur

open LabelledRun

namespace LiveTab

variable {Language : Type}

/-- The flag is what a buffer with this text calls for. -/
def FlagFits (t : LiveTab Language) (text : String) : Prop :=
  t.tab.modified = true ↔ contentFingerprintFromStr text ≠ contentFingerprintFromStr t.savedText

/-- The flag says whether the buffer differs from the saved baseline. -/
def FlagRight (t : LiveTab Language) : Prop := t.FlagFits t.tab.content.toText

instance (t : LiveTab Language) (text : String) : Decidable (t.FlagFits text) :=
  inferInstanceAs (Decidable (_ ↔ _))

instance (t : LiveTab Language) : Decidable t.FlagRight :=
  inferInstanceAs (Decidable (t.FlagFits _))

/-- Exchanging these parts for the replacement changes no text. -/
def Unchanging (parts : List (List Char)) (replace : String) : Prop :=
  ∀ part ∈ parts, part = replace.toList

instance (parts : List (List Char)) (replace : String) : Decidable (Unchanging parts replace) :=
  inferInstanceAs (Decidable (∀ part ∈ parts, _))

/--
The buffer is longer than the saved text and no part that is replaced is longer
than its replacement, or shorter and no part shorter.
-/
def LeadsAway (t : LiveTab Language) (parts : List (List Char)) (replace : String) : Prop :=
  (t.savedText.utf8ByteSize < t.tab.content.toText.utf8ByteSize ∧
      ∀ part ∈ parts, byteLen part ≤ byteLen replace.toList) ∨
    (t.tab.content.toText.utf8ByteSize < t.savedText.utf8ByteSize ∧
      ∀ part ∈ parts, byteLen replace.toList ≤ byteLen part)

instance (t : LiveTab Language) (parts : List (List Char)) (replace : String) :
    Decidable (t.LeadsAway parts replace) :=
  inferInstanceAs (Decidable (_ ∨ _))

/-- Exchanging a part of the buffer for the replacement gives another length than the saved text. -/
def MissesLength (t : LiveTab Language) (parts : List (List Char)) (replace : String) : Prop :=
  ∃ part ∈ parts, t.savedText.utf8ByteSize + byteLen part ≠
    t.tab.content.toText.utf8ByteSize + byteLen replace.toList

instance (t : LiveTab Language) (parts : List (List Char)) (replace : String) :
    Decidable (t.MissesLength parts replace) :=
  inferInstanceAs (Decidable (∃ part ∈ parts, _))

/--
What the state must be like for an edit to leave the flag right: nothing for
typing and for a table that commits to the content entity. For a replacement,
and for a table that commits nothing there, that the flag is right and no text
changes; a replacement in a modified tab may change the text by its lengths.
-/
def EditMarks (t : LiveTab Language) : EditAction Language → Prop
  | .replaceCurrent bar =>
      let parts := bar.currentParts t.tab.content.toText
      (t.FlagRight ∧ Unchanging parts bar.replaceInput) ∨
        (t.tab.modified = true ∧ t.MissesLength parts bar.replaceInput)
  | .replaceAll bar =>
      let parts := bar.replacedParts t.tab.content.toText
      (t.FlagRight ∧ Unchanging parts bar.replaceInput) ∨
        (t.tab.modified = true ∧ t.LeadsAway parts bar.replaceInput)
  | .csvEdit table serialized =>
      ∀ delegate ∈ t.csvTables[table]?,
        (delegate.content = t.content ∧ serialized.isSome) ∨ t.FlagRight
  | _ => True

instance (t : LiveTab Language) (action : EditAction Language) : Decidable (t.EditMarks action) :=
  match action with
  | .replaceCurrent _ => inferInstanceAs (Decidable (_ ∨ _))
  | .replaceAll _ => inferInstanceAs (Decidable (_ ∨ _))
  | .csvEdit table _ => inferInstanceAs (Decidable (∀ delegate ∈ t.csvTables[table]?, _ ∨ _))
  | .typeText _ => isTrue trivial
  | .buildCsvTable => isTrue trivial
  | .save _ _ _ => isTrue trivial
  | .finishSave _ => isTrue trivial
  | .finishRemoteSave _ => isTrue trivial
  | .reload _ => isTrue trivial
  | .remoteReload _ => isTrue trivial
  | .updateSettings _ => isTrue trivial
  | .forceLanguage _ => isTrue trivial
  | .rename _ => isTrue trivial

/-! ## The subscription and the baseline -/

/-- The tab listens to its content entity. -/
def Subscribed (t : LiveTab Language) : Prop := t.contentSubscription = some t.content

theorem subscribed_intoEntity (tab : EditorTab) (language : Language) (highlightColors : Bool)
    (savedText : String) : Subscribed (intoEntity tab language highlightColors savedText) := rfl

/-- The tab listens to its content entity, and its baselines are those of their texts. -/
structure Attached (t : LiveTab Language) : Prop where
  small : t.tab.largeFile = false
  subscribed : t.contentSubscription = some t.content
  baseline : contentFingerprintFromStr t.savedText =
    (t.tab.originalContentHash, t.tab.originalContentLen)
  rollback : ∀ save ∈ t.inflightSave, ∃ baseline ∈ save.completion.previousBaseline,
    contentFingerprintFromStr t.previousText = (baseline.hash, baseline.len)

variable {t : LiveTab Language}

theorem flagFits_checkModified (hsmall : t.tab.largeFile = false)
    (hbaseline : contentFingerprintFromStr t.savedText =
      (t.tab.originalContentHash, t.tab.originalContentLen)) :
    FlagRight { t with tab := t.tab.checkModified } := by
  show t.tab.contentDiffersFromOriginal = true ↔
    contentFingerprintFromStr t.tab.content.toText ≠ contentFingerprintFromStr t.savedText
  rw [← Bool.not_eq_false, EditorTab.contentDiffers_eq_false_iff hsmall, hbaseline]

theorem Subscribed.reattach (h : Subscribed t) {swapped : LiveTab Language}
    (hsubscription : swapped.contentSubscription = t.contentSubscription) :
    Subscribed (swapped.reattachIfContentSwapped t.content) := by
  unfold Subscribed reattachIfContentSwapped
  by_cases hswapped : swapped.content = t.content
  · rw [if_neg (not_not.mpr hswapped), hsubscription, h, hswapped]
  · rw [if_pos hswapped]
    rfl

theorem reattachIfContentSwapped_eq (t : LiveTab Language) (contentBefore : Nat) :
    ∃ subscription, t.reattachIfContentSwapped contentBefore =
      { t with contentSubscription := subscription } := by
  unfold reattachIfContentSwapped attachContentSubscription
  split
  · exact ⟨_, rfl⟩
  · exact ⟨_, rfl⟩

theorem Attached.setContent (h : Attached t) (text : Rope) :
    Attached { t with tab.content := text } :=
  ⟨h.small, h.subscribed, h.baseline, h.rollback⟩

theorem Attached.reattach (h : Attached t) {swapped : LiveTab Language}
    (htab : swapped.tab = t.tab)
    (hsubscription : swapped.contentSubscription = t.contentSubscription)
    (hsave : swapped.inflightSave = t.inflightSave) (hsaved : swapped.savedText = t.savedText)
    (hprevious : swapped.previousText = t.previousText) :
    Attached (swapped.reattachIfContentSwapped t.content) := by
  have hattached : Subscribed (swapped.reattachIfContentSwapped t.content) :=
    Subscribed.reattach h.subscribed hsubscription
  rcases swapped.reattachIfContentSwapped_eq t.content with ⟨subscription, hrest⟩
  rw [hrest] at hattached ⊢
  constructor
  · show swapped.tab.largeFile = false
    rw [htab]
    exact h.small
  · exact hattached
  · show contentFingerprintFromStr swapped.savedText =
      (swapped.tab.originalContentHash, swapped.tab.originalContentLen)
    rw [htab, hsaved]
    exact h.baseline
  · show ∀ save ∈ swapped.inflightSave, ∃ baseline ∈ save.completion.previousBaseline,
      contentFingerprintFromStr swapped.previousText = (baseline.hash, baseline.len)
    rw [hsave, hprevious]
    exact h.rollback

theorem Attached.forceLanguage (h : Attached t) (language : Language) :
    Attached (t.forceLanguage language) :=
  h.reattach rfl rfl rfl rfl rfl

theorem Attached.updateSettings (h : Attached t) (highlightColors : Bool) :
    Attached (t.updateSettings highlightColors) := by
  apply h.reattach
  all_goals split <;> rfl

theorem Attached.updateLanguage [DecidableEq Language]
    {languageFromContent : String → String → Language} (h : Attached t) :
    Attached (t.updateLanguage languageFromContent) := by
  unfold LiveTab.updateLanguage
  cases t.tab.filePath with
  | none => exact h
  | some path =>
      show Attached (if _ then _ else _)
      split
      · exact h.forceLanguage _
      · exact h

theorem attached_intoEntity {tab : EditorTab} (language : Language) (highlightColors : Bool)
    {savedText : String} (hsmall : tab.largeFile = false)
    (hbaseline : contentFingerprintFromStr savedText =
      (tab.originalContentHash, tab.originalContentLen)) :
    Attached (intoEntity tab language highlightColors savedText) :=
  ⟨hsmall, rfl, hbaseline, by simp [intoEntity, attachContentSubscription]⟩

/-! ## What the edits do -/

theorem Attached.replaceText (h : Attached t) (replaced : Option String) :
    Attached (t.replaceText replaced) := by
  cases replaced with
  | none => exact h
  | some text =>
      show Attached (t.setValue t.content (.ofText text))
      rw [setValue, if_pos rfl]
      exact h.setContent _

theorem Subscribed.typeText_eq (h : Subscribed t) (text : Rope) :
    t.typeText text = { t with tab := t.tab.edit text } := by
  simp [LiveTab.typeText, setValue, LiveTab.emitChange, show t.contentSubscription = _ from h,
    EditorTab.edit]

theorem Attached.typeText_eq (h : Attached t) (text : Rope) :
    t.typeText text = { t with tab := { t.tab with content := text }.checkModified } := by
  rw [Subscribed.typeText_eq h.subscribed]
  simp [EditorTab.edit, EditorTab.onContentChange, h.small]

theorem Attached.typeText (h : Attached t) (text : Rope) : Attached (t.typeText text) := by
  rw [h.typeText_eq]
  exact ⟨h.small, h.subscribed, h.baseline, h.rollback⟩

theorem Subscribed.commit_elsewhere (h : Subscribed t) {entity : Nat} (hother : entity ≠ t.content)
    (text : Rope) : (t.setValue entity text).emitChange entity = t := by
  have hset : t.setValue entity text = t := if_neg hother
  rw [hset]
  unfold LiveTab.emitChange
  rw [show t.contentSubscription = _ from h, if_neg]
  simpa using hother.symm

/-- What a table edit does: nothing in the buffer, or what typing its text would do. -/
theorem Subscribed.commitToBuffer (h : Subscribed t) {table : Nat} {serialized : Option String}
    {t' : LiveTab Language} (hcommit : t.commitToBuffer table serialized = some t') :
    ∃ delegate csvTables, t.csvTables[table]? = some delegate ∧
      ((delegate.content = t.content ∧ ∃ text, serialized = some text ∧
          t' = { t with csvTables := csvTables }.typeText (.ofText text)) ∨
        ((delegate.content ≠ t.content ∨ serialized = none) ∧
          t' = { t with csvTables := csvTables })) := by
  unfold LiveTab.commitToBuffer at hcommit
  split at hcommit
  · cases hcommit
  · rename_i delegate hdelegate
    cases hcommit
    exact ⟨delegate, _, hdelegate, Or.inr ⟨Or.inr rfl, rfl⟩⟩
  · rename_i delegate text hdelegate
    cases hcommit
    refine ⟨delegate, t.csvTables.set table
      { delegate with lastCommitHash := some (contentFingerprintFromStr text).1 }, hdelegate, ?_⟩
    by_cases hlive : delegate.content = t.content
    · left
      refine ⟨hlive, text, rfl, ?_⟩
      rw [hlive]
      rfl
    · right
      have htables (csvTables : List CsvTableDelegate) :
          Subscribed { t with csvTables := csvTables } := h
      refine ⟨Or.inl hlive, ?_⟩
      exact (htables (t.csvTables.set table _)).commit_elsewhere hlive (.ofText text)

theorem Attached.dispatchSave (h : Attached t) (path : PathBuf) (byteLen : Nat)
    (saveAsEncoding : Option String) : Attached (t.dispatchSave path byteLen saveAsEncoding) := by
  unfold LiveTab.dispatchSave
  split
  · exact h
  · constructor
    · exact h.small
    · exact h.subscribed
    · show contentFingerprintFromStr t.tab.content.toText = _
      simp [EditorTab.markAsSaved, h.small, contentFingerprintFromRope_eq]
    · intro save hsave
      cases hsave
      exact ⟨t.tab.savedBaseline, rfl, h.baseline⟩

/-! ## When an edit leaves the flag right -/

theorem Attached.flagRight_typeText (h : Attached t) (text : Rope) :
    (t.typeText text).FlagRight := by
  rw [h.typeText_eq]
  exact flagFits_checkModified (t := { t with tab.content := text }) h.small h.baseline

theorem flagRight_replaceText {replaced : Option String}
    (hfits : t.FlagFits (replaced.getD t.tab.content.toText)) :
    (t.replaceText replaced).FlagRight := by
  cases replaced with
  | none => exact hfits
  | some text => simpa [replaceText, setValue, FlagRight, FlagFits] using hfits

theorem byteLen_toList (text : String) : byteLen text.toList = text.utf8ByteSize := by
  rw [← length_charBytes, ← asBytes_eq]
  rfl

theorem flagFits_of_length {text : String} (hmodified : t.tab.modified = true)
    (hlength : byteLen text.toList ≠ t.savedText.utf8ByteSize) : t.FlagFits text := by
  refine iff_of_true hmodified fun hsame => hlength ?_
  rw [byteLen_toList]
  exact congrArg Prod.snd hsame

theorem flagFits_replaceCurrent {bar : SearchBar} (hmarks : t.EditMarks (.replaceCurrent bar)) :
    t.FlagFits ((bar.replacedCurrent t.tab.content.toText).getD t.tab.content.toText) := by
  rcases bar.replacedCurrent_cases t.tab.content.toText with
    ⟨hparts, hnone⟩ | ⟨before, part, after, hparts, htext, hreplaced⟩
  · rw [hnone, Option.getD_none]
    rcases hmarks with ⟨hright, -⟩ | ⟨-, part, hpart, -⟩
    · exact hright
    · rw [hparts] at hpart
      cases hpart
  · rw [hreplaced, Option.getD_some]
    rcases hmarks with ⟨hright, hsame⟩ | ⟨hmodified, found, hfound, hlength⟩
    · have hpart : part = bar.replaceInput.toList := hsame part (by simp [hparts])
      rw [← hpart, ← htext, String.ofList_toList]
      exact hright
    · have hpart : found = part := by simpa [hparts] using hfound
      apply flagFits_of_length hmodified
      rw [← byteLen_toList t.tab.content.toText, htext, hpart] at hlength
      simp only [byteLen_append] at hlength
      simp only [String.toList_ofList, byteLen_append]
      omega

theorem flagFits_replaceAll {bar : SearchBar} (hmarks : t.EditMarks (.replaceAll bar)) :
    t.FlagFits ((bar.replacedAll t.tab.content.toText).getD t.tab.content.toText) := by
  rcases hmarks with ⟨hright, hsame⟩ | ⟨hmodified, ⟨hlonger, hgrow⟩ | ⟨hshorter, hshrink⟩⟩
  · have hequal : t.tab.content.toText.toList = _ :=
      SearchBar.replacedAll_compared Eq (fun _ => rfl) (fun h h' => by rw [h, h']) hsame
    rw [← String.toList_injective hequal]
    exact hright
  · have hlength := SearchBar.replacedAll_compared (fun a b => byteLen a ≤ byteLen b)
      (fun part => Nat.le_refl (byteLen part))
      (fun h h' => by
        rw [byteLen_append, byteLen_append]
        exact Nat.add_le_add h h') hgrow
    apply flagFits_of_length hmodified
    rw [byteLen_toList t.tab.content.toText] at hlength
    omega
  · have hlength := SearchBar.replacedAll_compared (fun a b => byteLen b ≤ byteLen a)
      (fun part => Nat.le_refl (byteLen part))
      (fun h h' => by
        rw [byteLen_append, byteLen_append]
        exact Nat.add_le_add h h') hshrink
    apply flagFits_of_length hmodified
    rw [byteLen_toList t.tab.content.toText] at hlength
    omega

theorem Attached.flagRight_commitToBuffer (h : Attached t) {table : Nat}
    {serialized : Option String} (hmarks : t.EditMarks (.csvEdit table serialized))
    {t' : LiveTab Language} (hcommit : t.commitToBuffer table serialized = some t') :
    t'.FlagRight := by
  rcases Subscribed.commitToBuffer h.subscribed hcommit with
    ⟨delegate, csvTables, hdelegate, hresult⟩
  rcases hresult with ⟨_, text, _, rfl⟩ | ⟨helsewhere, rfl⟩
  · apply Attached.flagRight_typeText
    exact ⟨h.small, h.subscribed, h.baseline, h.rollback⟩
  · rcases hmarks delegate hdelegate with ⟨hlive, hsome⟩ | hright
    · rcases helsewhere with hother | hnone
      · exact absurd hlive hother
      · rw [hnone] at hsome
        cases hsome
    · exact hright

/-! ## Every step keeps the subscription -/

variable [DecidableEq Language] {languageFromContent : String → String → Language}

theorem Attached.finishSave (h : Attached t) {writeResult : Option PathBuf} {t' : LiveTab Language}
    (hfinish : t.finishSave languageFromContent writeResult = some t') : Attached t' := by
  unfold LiveTab.finishSave at hfinish
  split at hfinish
  · cases hfinish
  · rename_i save hsave
    cases hfinish
    rcases h.rollback save hsave with ⟨baseline, hbaseline, hprevious⟩
    have hrolled : handleFailedSave save.completion t.tab =
        { t.tab with
          originalContentHash := baseline.hash
          originalContentLen := baseline.len }.checkModified := by
      rw [Option.mem_def] at hbaseline
      simp [handleFailedSave, hbaseline, h.small]
    rw [hrolled]
    exact ⟨h.small, h.subscribed, hprevious, by simp⟩
  · rename_i save canonicalPath hsave
    have hfinished : Attached { t with inflightSave := none } :=
      ⟨h.small, h.subscribed, h.baseline, by simp⟩
    simp only at hfinish
    split at hfinish
    · cases hfinish
      exact hfinished
    · cases hfinish
      apply Attached.updateLanguage
      exact ⟨h.small, h.subscribed, h.baseline, by simp⟩

theorem fingerprint_setOriginalContent (tab : EditorTab) (hsmall : tab.largeFile = false)
    (text : String) : contentFingerprintFromStr text =
      ((tab.setOriginalContentFromStr text).originalContentHash,
        (tab.setOriginalContentFromStr text).originalContentLen) := by
  simp [EditorTab.setOriginalContentFromStr, hsmall]

theorem Attached.renameEditor (h : Attached t) {name : String} {t' : LiveTab Language}
    (hrename : t.renameEditor languageFromContent name = some t') : Attached t' := by
  have hrenamed : Attached { t with tab.title := name } :=
    ⟨h.small, h.subscribed, h.baseline, h.rollback⟩
  unfold LiveTab.renameEditor at hrename
  split at hrename
  · cases hrename
    show Attached (if _ then _ else _)
    split
    · exact hrenamed.forceLanguage _
    · exact hrenamed
  · cases hrename

theorem Attached.step (h : Attached t) {action : EditAction Language} {t' : LiveTab Language}
    (hstep : t.step languageFromContent action = some t') : Attached t' := by
  cases action with
  | typeText text =>
      cases hstep
      exact h.typeText text
  | replaceCurrent bar =>
      cases hstep
      exact h.replaceText _
  | replaceAll bar =>
      cases hstep
      exact h.replaceText _
  | csvEdit table serialized =>
      rcases Subscribed.commitToBuffer h.subscribed hstep with ⟨delegate, csvTables, _, hcommit⟩
      have htables : Attached { t with csvTables := csvTables } :=
        ⟨h.small, h.subscribed, h.baseline, h.rollback⟩
      rcases hcommit with ⟨_, text, _, rfl⟩ | ⟨_, rfl⟩
      · exact htables.typeText _
      · exact htables
  | buildCsvTable =>
      cases hstep
      exact ⟨h.small, h.subscribed, h.baseline, h.rollback⟩
  | save path byteLen saveAsEncoding =>
      cases hstep
      exact h.dispatchSave path byteLen saveAsEncoding
  | finishSave writeResult => exact h.finishSave hstep
  | finishRemoteSave savedContent =>
      cases hstep
      exact ⟨h.small, h.subscribed, fingerprint_setOriginalContent _ h.small _, h.rollback⟩
  | reload decoded =>
      cases hstep
      apply Attached.updateLanguage
      exact ⟨h.small, h.subscribed, fingerprint_setOriginalContent _ h.small _, h.rollback⟩
  | remoteReload result =>
      cases hstep
      apply Attached.forceLanguage
      exact ⟨h.small, h.subscribed, fingerprint_setOriginalContent _ h.small _, h.rollback⟩
  | updateSettings highlightColors =>
      cases hstep
      exact h.updateSettings highlightColors
  | forceLanguage language =>
      cases hstep
      exact h.forceLanguage language
  | rename name => exact h.renameEditor hstep

theorem Attached.flagRight_step (h : Attached t) {action : EditAction Language}
    (hmarks : t.EditMarks action) {t' : LiveTab Language}
    (hstep : t.step languageFromContent action = some t') (hedit : action.isUserEdit = true) :
    t'.FlagRight := by
  cases action with
  | typeText text =>
      cases hstep
      exact h.flagRight_typeText text
  | replaceCurrent bar =>
      cases hstep
      exact flagRight_replaceText (flagFits_replaceCurrent hmarks)
  | replaceAll bar =>
      cases hstep
      exact flagRight_replaceText (flagFits_replaceAll hmarks)
  | csvEdit table serialized => exact h.flagRight_commitToBuffer hmarks hstep
  | _ => cases hedit

end LiveTab

open LiveTab

/--
For every small tab and every run of edits, saves, reloads and changes of
language or settings in which each edit meets its condition: after each user
edit the flag says whether the buffer differs from the saved baseline.
-/
theorem edits_mark_tab {Language : Type} [DecidableEq Language]
    (languageFromContent : String → String → Language) {tab : EditorTab} (language : Language)
    (highlightColors : Bool) {savedText : String} (hsmall : tab.largeFile = false)
    (hbaseline : contentFingerprintFromStr savedText =
      (tab.originalContentHash, tab.originalContentLen)) {actions : List (EditAction Language)}
    (hmarks : Guarded (LiveTab.step languageFromContent) LiveTab.EditMarks
      (intoEntity tab language highlightColors savedText) actions) :
    After (LiveTab.step languageFromContent)
      (fun action t => action.isUserEdit = true → t.FlagRight)
      (intoEntity tab language highlightColors savedText) actions := by
  apply after_of_guarded Attached
  · intro t action t' h hstep
    exact h.step hstep
  · intro t action t' h hguard hstep
    exact h.flagRight_step hguard hstep
  · exact attached_intoEntity language highlightColors hsmall hbaseline
  · exact hmarks

/-- A tab that was read from the file `/n` with the text `a`. -/
def sampleReadTab : EditorTab :=
  EditorTab.fromFile
    { id := 0, path := ⟨asBytes "/n"⟩, contents := "a", encoding := UTF_8, isModified := false }

/-- Replace the first character of every text. -/
def sampleBar (replaceInput : String) : SearchBar where
  searchInput := "a"
  replaceInput := replaceInput
  matchCase := true
  matchWholeWord := false
  performSearch := fun _ => ([⟨0, 1, 0, 0⟩], some 0)
  emptyFinds := by simp

/--
A tab that is typed in first keeps its flag right through replacements, those
that lengthen it and those that change nothing, and through table edits.
-/
theorem edits_mark_tab_sample :
    After (LiveTab.step fun _ _ => ()) (fun action t => action.isUserEdit = true → t.FlagRight)
      (intoEntity sampleReadTab () false "a")
      [.replaceAll (sampleBar "a"), .typeText (.ofText "ac"), .replaceAll (sampleBar "bb"),
        .buildCsvTable, .save ⟨asBytes "/n"⟩ 3 none, .csvEdit 0 (some "bbde"), .finishSave none,
        .updateSettings true, .replaceCurrent (sampleBar "x")] :=
  edits_mark_tab (fun _ _ => ()) () false (by decide) (by decide)
    (Guarded.of_guardedRun (by decide))

/-- Replacing in a tab that is clean changes its text and leaves it clean. -/
theorem replace_all_leaves_clean :
    (run (LiveTab.step fun _ _ => ()) (intoEntity sampleReadTab () false "a")
      [.replaceAll (sampleBar "b")]).any (fun t => decide (t.tab.modified = false ∧
        t.tab.content.toText = "b" ∧ t.tab.contentDiffersFromOriginal = true ∧
        ¬t.FlagRight)) = true := by
  decide

end Fulgur
