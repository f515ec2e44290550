import Fulgur.Library.Run
import Fulgur.Tabs.CsvRoundTrip
import Fulgur.Tabs.EditSurfaces

/-! # The CSV table over its buffer

A tab builds its table from the buffer and remembers the hash of that text; the
table remembers the hash of what it committed last. A render keeps the table
when the buffer has one of the two hashes. A table edit goes to the content
entity that the table was built over, which other operations replace.
-/

namespace Fulgur

open LabelledRun

inductive CsvViewMode where
  | text
  | table
deriving DecidableEq

/-- The model of a table; its content entity and last commit are with the tab's tables. -/
structure CsvGrid where
  table : CsvTable
  delimiter : UInt8

/-- A tab with its tables, of which one is shown. -/
structure CsvTab (Language : Type) where
  live : LiveTab Language
  csvViewMode : CsvViewMode
  csvDelimiter : UInt8
  /-- The models of `live.csvTables`, in their order. -/
  grids : List CsvGrid
  csvTable : Option Nat
  csvTableSourceHash : UInt64

/-- Whether the function that makes the edit reports a change; only then it is committed. -/
def CsvData.changes (data : CsvData) : TableEdit → Bool
  | .deleteRow selectedRow => (data.deleteRowIn selectedRow).2
  | .deleteColumn selectedCol => (data.deleteColumnIn selectedCol).2
  | .moveColumn colIx toIx => (data.moveColumnIn colIx toIx).2
  | _ => true

/-- Only a dialog outlives the table being shown. -/
def CsvTableEvent.fromDialog : CsvTableEvent → Bool
  | .confirmEdit _ _ => true
  | _ => false

inductive CsvTabAction (Language : Type) where
  | edit (action : EditAction Language)
  | tableEvent (table : Nat) (event : CsvTableEvent)
  | toggleCsvViewMode
  | render

def EditAction.isOfTable {Language : Type} : EditAction Language → Bool
  | .csvEdit _ _ => true
  | .buildCsvTable => true
  | _ => false

namespace CsvTab

variable {Language : Type}

def text (t : CsvTab Language) : String := t.live.tab.content.toText

/-- The table shown is kept when the buffer is what it was read from or committed. -/
def keepsTable (t : CsvTab Language) : Bool :=
  match t.csvTable.bind (t.live.csvTables[·]?) with
  | none => false
  | some delegate =>
      let hash := (contentFingerprintFromStr t.text).1
      t.csvTableSourceHash = hash || delegate.lastCommitHash = some hash

def showTable (t : CsvTab Language) (data : CsvData) : CsvTab Language :=
  { t with
    live := t.live.buildCsvTable
    grids := t.grids ++ [⟨⟨data, none⟩, t.csvDelimiter⟩]
    csvTable := some t.live.csvTables.length
    csvTableSourceHash := (contentFingerprintFromStr t.text).1 }

/-- Make the table current, or fall back to text mode; the message is the warning. -/
def ensureCsvTable (reader : CsvReader) (t : CsvTab Language) : CsvTab Language × Option String :=
  if t.live.tab.largeFile then ({ t with csvViewMode := .text, csvTable := none }, none)
  else
    let hash := (contentFingerprintFromStr t.text).1
    if t.keepsTable then ({ t with csvTableSourceHash := hash }, none)
    else
      let outcome := parseCsv reader t.text t.csvDelimiter
      if 0 < outcome.droppedRecords then
        ({ t with csvViewMode := .text, csvTable := none },
          some (toString outcome.droppedRecords ++ " malformed CSV row(s) could not be parsed. " ++
            "Showing raw text to avoid data loss."))
      else
        (t.showTable outcome.data, none)

def render [DecidableEq Language] (reader : CsvReader) (csv : Language) (t : CsvTab Language) :
    CsvTab Language :=
  if t.live.language = csv ∧ t.csvViewMode = .table then (t.ensureCsvTable reader).1 else t

def toggleCsvViewMode [DecidableEq Language] (reader : CsvReader) (csv : Language)
    (t : CsvTab Language) : CsvTab Language :=
  if t.live.language ≠ csv ∨ t.live.tab.largeFile then t
  else
    match t.csvViewMode with
    | .table => { t with csvViewMode := .text }
    | .text => ({ t with csvViewMode := .table }.ensureCsvTable reader).1

/-- Commit an edited table; one that does not serialize is not committed. -/
def commitToBuffer (writer : CsvWriter) (t : CsvTab Language) (table : Nat) (grid : CsvGrid) :
    Option (CsvTab Language) :=
  (t.live.commitToBuffer table (serializeCsv writer grid.table.data grid.delimiter).toOption).map
    fun live => { t with live := live, grids := t.grids.set table grid }

/-- Whether an event of the table makes an edit that is committed. -/
def Commits (t : CsvTab Language) (table : Nat) (event : CsvTableEvent) : Prop :=
  ∃ grid ∈ t.grids[table]?, ∃ edit ∈ event.edit grid.table.lastSelection,
    grid.table.data.changes edit = true

instance (t : CsvTab Language) (table : Nat) (event : CsvTableEvent) :
    Decidable (t.Commits table event) :=
  inferInstanceAs (Decidable (∃ grid ∈ t.grids[table]?, _))

def tableEvent (writer : CsvWriter) (t : CsvTab Language) (table : Nat) (event : CsvTableEvent) :
    Option (CsvTab Language) :=
  if t.csvTable = some table ∨ event.fromDialog = true then
    t.grids[table]?.bind fun grid =>
      let handled := { grid with table := grid.table.handle event }
      if t.Commits table event then t.commitToBuffer writer table handled
      else some { t with grids := t.grids.set table handled }
  else none

def step [DecidableEq Language] (reader : CsvReader) (writer : CsvWriter) (csv : Language)
    (languageFromContent : String → String → Language) (t : CsvTab Language) :
    CsvTabAction Language → Option (CsvTab Language)
  | .edit action =>
      if action.isOfTable = true then none
      else (t.live.step languageFromContent action).map fun live => { t with live := live }
  | .tableEvent table event => t.tableEvent writer table event
  | .toggleCsvViewMode => some (t.toggleCsvViewMode reader csv)
  | .render => some (t.render reader csv)

/-- The tab of an opened file or of one that another window sends; it has no table yet. -/
def opened (live : LiveTab Language) (csvViewMode : CsvViewMode) (csvDelimiter : UInt8) :
    CsvTab Language :=
  { live := { live with csvTables := [] }
    csvViewMode := csvViewMode
    csvDelimiter := csvDelimiter
    grids := []
    csvTable := none
    csvTableSourceHash := 0 }

end CsvTab

/-! ## What the edits of a tab do to its tables -/

namespace LiveTab

variable {Language : Type} {t t' : LiveTab Language}

@[simp] theorem setValue_csvTables (t : LiveTab Language) (entity : Nat) (text : Rope) :
    (t.setValue entity text).csvTables = t.csvTables := by
  unfold setValue
  split <;> rfl

@[simp] theorem emitChange_csvTables (t : LiveTab Language) (entity : Nat) :
    (t.emitChange entity).csvTables = t.csvTables := by
  unfold LiveTab.emitChange
  split <;> rfl

@[simp] theorem reattach_csvTables (t : LiveTab Language) (contentBefore : Nat) :
    (t.reattachIfContentSwapped contentBefore).csvTables = t.csvTables := by
  unfold reattachIfContentSwapped attachContentSubscription
  split <;> rfl

@[simp] theorem forceLanguage_csvTables (t : LiveTab Language) (language : Language) :
    (t.forceLanguage language).csvTables = t.csvTables := reattach_csvTables _ _

@[simp] theorem updateSettings_csvTables (t : LiveTab Language) (highlightColors : Bool) :
    (t.updateSettings highlightColors).csvTables = t.csvTables := by
  unfold LiveTab.updateSettings
  rw [reattach_csvTables]
  split <;> rfl

@[simp] theorem updateLanguage_csvTables [DecidableEq Language] (t : LiveTab Language)
    (languageFromContent : String → String → Language) :
    (t.updateLanguage languageFromContent).csvTables = t.csvTables := by
  unfold LiveTab.updateLanguage
  cases t.tab.filePath with
  | none => rfl
  | some path =>
      show (if _ then _ else _ : LiveTab Language).csvTables = _
      split
      · exact forceLanguage_csvTables _ _
      · rfl

@[simp] theorem replaceText_csvTables (t : LiveTab Language) (replaced : Option String) :
    (t.replaceText replaced).csvTables = t.csvTables := by
  cases replaced with
  | none => rfl
  | some text => exact setValue_csvTables _ _ _

theorem finishSave_csvTables [DecidableEq Language]
    {languageFromContent : String → String → Language} {writeResult : Option PathBuf}
    (h : t.finishSave languageFromContent writeResult = some t') : t'.csvTables = t.csvTables := by
  unfold LiveTab.finishSave at h
  split at h
  · cases h
  · cases h
    rfl
  · simp only at h
    split at h
    · cases h
      rfl
    · cases h
      exact updateLanguage_csvTables _ _

theorem rename_csvTables [DecidableEq Language] {languageFromContent : String → String → Language}
    {name : String} (h : t.renameEditor languageFromContent name = some t') :
    t'.csvTables = t.csvTables := by
  unfold LiveTab.renameEditor at h
  split at h
  · cases h
    split
    · exact forceLanguage_csvTables _ _
    · rfl
  · cases h

/-- Only edits of tables touch the tables. -/
theorem csvTables_step [DecidableEq Language] {languageFromContent : String → String → Language}
    {action : EditAction Language} (hother : action.isOfTable ≠ true)
    (hstep : t.step languageFromContent action = some t') : t'.csvTables = t.csvTables := by
  cases action with
  | typeText text =>
      cases hstep
      simp [LiveTab.typeText]
  | replaceCurrent bar =>
      cases hstep
      exact replaceText_csvTables _ _
  | replaceAll bar =>
      cases hstep
      exact replaceText_csvTables _ _
  | csvEdit table serialized => exact absurd rfl hother
  | buildCsvTable => exact absurd rfl hother
  | save path byteLen saveAsEncoding =>
      cases hstep
      unfold LiveTab.dispatchSave
      split <;> rfl
  | finishSave writeResult => exact finishSave_csvTables hstep
  | finishRemoteSave savedContent =>
      cases hstep
      rfl
  | reload decoded =>
      cases hstep
      exact updateLanguage_csvTables _ _
  | remoteReload result =>
      cases hstep
      exact forceLanguage_csvTables _ _
  | updateSettings highlightColors =>
      cases hstep
      exact updateSettings_csvTables _ _
  | forceLanguage language =>
      cases hstep
      exact forceLanguage_csvTables _ _
  | rename name => exact rename_csvTables hstep

theorem onContentChange_content (tab : EditorTab) : tab.onContentChange.content = tab.content := by
  unfold EditorTab.onContentChange
  split <;> rfl

@[simp] theorem emitChange_content (t : LiveTab Language) (entity : Nat) :
    (t.emitChange entity).tab.content = t.tab.content := by
  unfold LiveTab.emitChange
  split
  · exact onContentChange_content _
  · rfl

theorem commitToBuffer_text {table : Nat} {delegate : CsvTableDelegate} {text : String}
    (hdelegate : t.csvTables[table]? = some delegate) (hcontent : delegate.content = t.content)
    (hcommit : t.commitToBuffer table (some text) = some t') :
    t'.tab.content = .ofText text ∧
      t'.csvTables = t.csvTables.set table
        { delegate with lastCommitHash := some (contentFingerprintFromStr text).1 } := by
  simp only [LiveTab.commitToBuffer, hdelegate, Option.some.injEq] at hcommit
  subst hcommit
  rw [emitChange_content, emitChange_csvTables, setValue_csvTables]
  simp [setValue, hcontent]

end LiveTab

/-- An edit that reports no change makes none. -/
theorem CsvData.edited_of_not_changes {data : CsvData} {edit : TableEdit}
    (h : data.changes edit = false) : data.edited edit = data := by
  cases edit with
  | deleteRow selectedRow =>
      simp only [changes, edited, deleteRowIn] at h ⊢
      split at h
      · rename_i hrows
        rw [if_pos hrows]
      · cases h
  | deleteColumn selectedCol =>
      simp only [changes, edited, deleteColumnIn] at h ⊢
      split at h
      · rename_i hheaders
        rw [if_pos hheaders]
      · cases h
  | moveColumn colIx toIx =>
      simp only [changes, edited] at h ⊢
      unfold moveColumnIn at h ⊢
      cases colIx with
      | zero => rfl
      | succ source =>
          cases hheader : data.headers[source]? with
          | none => simp only [hheader]
          | some header =>
              simp only [hheader] at h ⊢
              split at h
              · rename_i hsame
                rw [if_pos hsame]
              · cases h
  | _ => cases h

namespace CsvTab

variable {Language : Type}

/-! ## Table and buffer agree -/

/-- The table shown is the one of the buffer's text. -/
def Agrees (reader : CsvReader) (t : CsvTab Language) : Prop :=
  ∃ table ∈ t.csvTable, ∃ grid ∈ t.grids[table]?,
    grid.table.data = (parseCsv reader t.text t.csvDelimiter).data

/-- What a step leaves: a table made current agrees, and a commit is the buffer's text. -/
def LeavesInStep (reader : CsvReader) (writer : CsvWriter) (csv : Language) (t : CsvTab Language)
    (action : CsvTabAction Language) (t' : CsvTab Language) : Prop :=
  match action with
  | .edit _ => True
  | .tableEvent table event =>
      t.Commits table event → ∃ grid ∈ t'.grids[table]?,
        serializeCsv writer grid.table.data grid.delimiter = .ok t'.text
  | .toggleCsvViewMode =>
      t.csvViewMode = .text → t'.csvViewMode = .table → t'.Agrees reader
  | .render => t.live.language = csv → t'.csvViewMode = .table → t'.Agrees reader

instance (reader : CsvReader) (t : CsvTab Language) : Decidable (t.Agrees reader) :=
  inferInstanceAs (Decidable (∃ table ∈ t.csvTable, ∃ grid ∈ t.grids[table]?, _ = _))

instance [DecidableEq Language] (reader : CsvReader) (writer : CsvWriter) (csv : Language)
    (t : CsvTab Language) (action : CsvTabAction Language) (t' : CsvTab Language) :
    Decidable (t.LeavesInStep reader writer csv action t') :=
  match action with
  | .edit _ => isTrue trivial
  | .tableEvent table event =>
      inferInstanceAs (Decidable (t.Commits table event → ∃ grid ∈ t'.grids[table]?, _ = _))
  | .toggleCsvViewMode => inferInstanceAs (Decidable (_ = _ → _ = _ → t'.Agrees reader))
  | .render => inferInstanceAs (Decidable (_ = _ → _ = _ → t'.Agrees reader))

/-! ## What keeps them together -/

/-- A text that the shown table was made current for is still the one of its model. -/
def Fits (reader : CsvReader) (t : CsvTab Language) (text : String) : Prop :=
  ∀ table ∈ t.csvTable, ∀ grid ∈ t.grids[table]?,
    (contentFingerprintFromStr text).1 = t.csvTableSourceHash →
      grid.table.data = (parseCsv reader text t.csvDelimiter).data

/--
What a step must be like. A text that comes into the buffer past the shown table
is not the one that it was made current for, unless its model still is. A table
that commits has a column left, and was built over the content entity.
-/
def KeepsInStep [DecidableEq Language] (reader : CsvReader) (writer : CsvWriter)
    (languageFromContent : String → String → Language) (texts : List String)
    (t : CsvTab Language) : CsvTabAction Language → Prop
  | .edit action =>
      ∀ live ∈ t.live.step languageFromContent action,
        live.tab.content.toText ∈ texts ∧ t.Fits reader live.tab.content.toText
  | .tableEvent table event =>
      t.Commits table event → ∀ grid ∈ t.grids[table]?, ∀ delegate ∈ t.live.csvTables[table]?,
        delegate.content = t.live.content ∧ (grid.table.handle event).data.headers ≠ [] ∧
          ∀ text ∈ (serializeCsv writer (grid.table.handle event).data grid.delimiter).toOption,
            text ∈ texts ∧ (t.csvTable ≠ some table → t.Fits reader text)
  | .toggleCsvViewMode => True
  | .render => True

instance (reader : CsvReader) (t : CsvTab Language) (text : String) :
    Decidable (t.Fits reader text) :=
  inferInstanceAs (Decidable (∀ table ∈ t.csvTable, ∀ grid ∈ t.grids[table]?, _ = _ → _ = _))

instance [DecidableEq Language] (reader : CsvReader) (writer : CsvWriter)
    (languageFromContent : String → String → Language) (texts : List String) (t : CsvTab Language)
    (action : CsvTabAction Language) :
    Decidable (t.KeepsInStep reader writer languageFromContent texts action) :=
  match action with
  | .edit action =>
      inferInstanceAs (Decidable (∀ live ∈ t.live.step languageFromContent action, _ ∧ _))
  | .tableEvent table event =>
      inferInstanceAs (Decidable (t.Commits table event → ∀ grid ∈ t.grids[table]?,
        ∀ delegate ∈ t.live.csvTables[table]?, _ ∧ _ ∧ ∀ text ∈ Except.toOption _, _ ∧ _))
  | .toggleCsvViewMode => isTrue trivial
  | .render => isTrue trivial

/-- Each text is known by its hash among these. -/
def Distinguished (texts : List String) : Prop :=
  ∀ a ∈ texts, ∀ b ∈ texts,
    (contentFingerprintFromStr a).1 = (contentFingerprintFromStr b).1 → a = b

/-- The tables are those of the texts that their tab has remembered the hashes of. -/
structure InStep (reader : CsvReader) (texts : List String) (delimiter : UInt8)
    (t : CsvTab Language) : Prop where
  tabDelimiter : t.csvDelimiter = delimiter
  delimiters : ∀ grid ∈ t.grids, grid.delimiter = delimiter
  length : t.grids.length = t.live.csvTables.length
  rectangular : ∀ grid ∈ t.grids, grid.table.data.Rectangular
  current : ∀ table ∈ t.csvTable, table < t.grids.length
  text : t.text ∈ texts
  source : t.Fits reader t.text
  committed : ∀ table : Nat, ∀ grid ∈ t.grids[table]?, ∀ delegate ∈ t.live.csvTables[table]?,
    ∀ hash ∈ delegate.lastCommitHash, ∃ text ∈ texts,
      (contentFingerprintFromStr text).1 = hash ∧
        grid.table.data = (parseCsv reader text delimiter).data

variable {reader : CsvReader} {writer : CsvWriter} {texts : List String} {delimiter : UInt8}
  {t t' : CsvTab Language}

theorem inStep_opened {live : LiveTab Language} {csvViewMode : CsvViewMode}
    (htext : live.tab.content.toText ∈ texts) :
    InStep reader texts delimiter (opened live csvViewMode delimiter) where
  tabDelimiter := rfl
  delimiters _ h := absurd h List.not_mem_nil
  length := rfl
  rectangular _ h := absurd h List.not_mem_nil
  current _ h := by cases h
  text := htext
  source _ h := by cases h
  committed _ _ h := by cases h

namespace InStep

theorem agrees_of_keepsTable (h : InStep reader texts delimiter t) (hfree : Distinguished texts)
    (hkeeps : t.keepsTable = true) : t.Agrees reader := by
  unfold keepsTable at hkeeps
  split at hkeeps
  · cases hkeeps
  · rename_i delegate hdelegate
    obtain ⟨table, htable, hdelegate⟩ := Option.bind_eq_some_iff.mp hdelegate
    have hlt := h.current table htable
    refine ⟨table, htable, t.grids[table], List.getElem?_eq_getElem hlt, ?_⟩
    have hgrid : t.grids[table] ∈ t.grids[table]? := List.getElem?_eq_getElem hlt
    rw [Bool.or_eq_true, decide_eq_true_eq, decide_eq_true_eq] at hkeeps
    rcases hkeeps with hsource | hcommit
    · exact h.source table htable _ hgrid hsource.symm
    · obtain ⟨text, htext, hhash, hdata⟩ := h.committed table _ hgrid delegate hdelegate _ hcommit
      rw [hfree t.text h.text text htext hhash.symm, h.tabDelimiter]
      exact hdata

theorem made_current (h : InStep reader texts delimiter t) (hagrees : t.Agrees reader) :
    InStep reader texts delimiter
      { t with csvTableSourceHash := (contentFingerprintFromStr t.text).1 } := by
  refine ⟨h.tabDelimiter, h.delimiters, h.length, h.rectangular, h.current, h.text, ?_, h.committed⟩
  intro table htable grid hgrid _
  obtain ⟨shown, hshown, agreed, hagreed, hdata⟩ := hagrees
  cases htable.symm.trans hshown
  cases hgrid.symm.trans hagreed
  exact hdata

theorem text_mode (h : InStep reader texts delimiter t) :
    InStep reader texts delimiter { t with csvViewMode := .text, csvTable := none } :=
  ⟨h.tabDelimiter, h.delimiters, h.length, h.rectangular, nofun, h.text, nofun, h.committed⟩

theorem agrees_showTable (h : InStep reader texts delimiter t) :
    (t.showTable (parseCsv reader t.text t.csvDelimiter).data).Agrees reader := by
  refine ⟨t.live.csvTables.length, rfl, ⟨⟨_, none⟩, t.csvDelimiter⟩, ?_, rfl⟩
  rw [showTable, ← h.length, List.getElem?_concat_length]
  rfl

/-- A table that is built anew is the one of the buffer's text, and has committed nothing. -/
theorem showTable (h : InStep reader texts delimiter t) :
    InStep reader texts delimiter
      (t.showTable (parseCsv reader t.text t.csvDelimiter).data) := by
  have hgrids : ∀ {P : CsvGrid → Prop}, (∀ grid ∈ t.grids, P grid) →
      P ⟨⟨(parseCsv reader t.text t.csvDelimiter).data, none⟩, t.csvDelimiter⟩ →
        ∀ grid ∈ (t.showTable (parseCsv reader t.text t.csvDelimiter).data).grids, P grid := by
    intro P hold hnew grid hgrid
    rcases List.mem_append.mp hgrid with hmem | hmem
    · exact hold grid hmem
    · exact List.mem_singleton.mp hmem ▸ hnew
  refine ⟨h.tabDelimiter, hgrids h.delimiters h.tabDelimiter, ?_, hgrids h.rectangular ?_, ?_,
    h.text, ?_, ?_⟩
  · simp [CsvTab.showTable, LiveTab.buildCsvTable, h.length]
  · exact CsvData.rectangular_parseCsv reader t.text t.csvDelimiter
  · intro table htable
    cases htable
    simp [CsvTab.showTable, h.length]
  · obtain ⟨shown, hshown, agreed, hagreed, hdata⟩ := h.agrees_showTable
    intro table htable grid hgrid _
    cases htable.symm.trans hshown
    cases hgrid.symm.trans hagreed
    exact hdata
  · intro table grid hgrid delegate hdelegate hash hhash
    by_cases hlt : table < t.grids.length
    · refine h.committed table grid ?_ delegate ?_ hash hhash
      · exact (List.getElem?_append_left hlt).symm.trans hgrid
      · exact (List.getElem?_append_left (h.length ▸ hlt)).symm.trans hdelegate
    · -- the table that was built last has no commit yet
      have hnew : delegate ∈ [(⟨t.live.content, none⟩ : CsvTableDelegate)] := by
        have happend : (t.live.csvTables ++ [⟨t.live.content, none⟩])[table]? = some delegate :=
          hdelegate
        have hge : t.live.csvTables.length ≤ table := h.length ▸ Nat.le_of_not_lt hlt
        rw [List.getElem?_append_right hge] at happend
        exact List.mem_of_getElem? happend
      rw [List.mem_singleton.mp hnew] at hhash
      cases hhash

/-- After the table was made current: the tab is in step, and in table mode it agrees. -/
theorem ensureCsvTable (h : InStep reader texts delimiter t) (hfree : Distinguished texts) :
    InStep reader texts delimiter (t.ensureCsvTable reader).1 ∧
      ((t.ensureCsvTable reader).1.csvViewMode = .table →
        (t.ensureCsvTable reader).1.Agrees reader) := by
  unfold CsvTab.ensureCsvTable
  by_cases hlarge : t.live.tab.largeFile = true
  · rw [if_pos hlarge]
    exact ⟨h.text_mode, nofun⟩
  rw [if_neg hlarge]
  by_cases hkeeps : t.keepsTable = true
  · have hagrees := h.agrees_of_keepsTable hfree hkeeps
    simp only [hkeeps, if_true]
    exact ⟨h.made_current hagrees, fun _ => hagrees⟩
  rw [Bool.not_eq_true] at hkeeps
  simp only [hkeeps, Bool.false_eq_true, if_false]
  split
  · exact ⟨h.text_mode, nofun⟩
  · exact ⟨h.showTable, fun _ => h.agrees_showTable⟩

theorem forall_mem_set {P : CsvGrid → Prop} {grids : List CsvGrid} {new : CsvGrid}
    (hall : ∀ grid ∈ grids, P grid) (table : Nat) (hnew : P new) :
    ∀ grid ∈ grids.set table new, P grid := by
  intro grid hgrid
  rcases List.mem_or_eq_of_mem_set hgrid with hold | rfl
  · exact hall grid hold
  · exact hnew

/-- A model is put in the place of one with the same contents. -/
theorem setGrid (h : InStep reader texts delimiter t) {table : Nat} {grid handled : CsvGrid}
    (hgrid : grid ∈ t.grids[table]?) (hdelimiter : handled.delimiter = grid.delimiter)
    (hdata : handled.table.data = grid.table.data) :
    InStep reader texts delimiter { t with grids := t.grids.set table handled } := by
  have hmem := List.mem_of_getElem? hgrid
  have hset : ∀ other : Nat, ∀ new ∈ (t.grids.set table handled)[other]?, ∃ old ∈ t.grids[other]?,
      new.table.data = old.table.data := by
    intro other new hnew
    by_cases hother : table = other
    · subst hother
      have hlt := (List.getElem?_eq_some_iff.mp hgrid).1
      rw [List.getElem?_set_self hlt] at hnew
      cases hnew
      exact ⟨grid, hgrid, hdata⟩
    · rw [List.getElem?_set_ne hother] at hnew
      exact ⟨new, hnew, rfl⟩
  have hdelimiters := forall_mem_set h.delimiters table
    (hdelimiter.trans (h.delimiters grid hmem))
  have hrectangular := forall_mem_set h.rectangular table
    (show handled.table.data.Rectangular from hdata ▸ h.rectangular grid hmem)
  refine ⟨h.tabDelimiter, hdelimiters, ?_, hrectangular, ?_, h.text, ?_, ?_⟩
  · rw [List.length_set, h.length]
  · intro shown hshown
    rw [List.length_set]
    exact h.current shown hshown
  · intro shown hshown new hnew hhash
    obtain ⟨old, hold, hsame⟩ := hset shown new hnew
    rw [hsame]
    exact h.source shown hshown old hold hhash
  · intro other new hnew delegate hdelegate hash hhash
    obtain ⟨old, hold, hsame⟩ := hset other new hnew
    rw [hsame]
    exact h.committed other old hold delegate hdelegate hash hhash

theorem edit (h : InStep reader texts delimiter t) {live : LiveTab Language}
    (htables : live.csvTables = t.live.csvTables) (htext : live.tab.content.toText ∈ texts)
    (hfits : t.Fits reader live.tab.content.toText) :
    InStep reader texts delimiter { t with live := live } := by
  refine ⟨h.tabDelimiter, h.delimiters, ?_, h.rectangular, h.current, htext, hfits, ?_⟩
  · rw [htables]
    exact h.length
  · rw [htables]
    exact h.committed

/-- A commit that is read back as the table, through the content entity. -/
theorem commit (h : InStep reader texts delimiter t) {table : Nat} {grid handled : CsvGrid}
    {delegate : CsvTableDelegate} {text : String} {live : LiveTab Language}
    (hgrid : grid ∈ t.grids[table]?) (hdelimiter : handled.delimiter = grid.delimiter)
    (heven : handled.table.data.Rectangular)
    (hparse : (parseCsv reader text delimiter).data = handled.table.data) (htext : text ∈ texts)
    (hfits : t.csvTable ≠ some table → t.Fits reader text)
    (hcontent : live.tab.content = .ofText text)
    (htables : live.csvTables = t.live.csvTables.set table
      { delegate with lastCommitHash := some (contentFingerprintFromStr text).1 }) :
    InStep reader texts delimiter { t with live := live, grids := t.grids.set table handled } := by
  have hmem := List.mem_of_getElem? hgrid
  have hlt := (List.getElem?_eq_some_iff.mp hgrid).1
  have hbuffer : live.tab.content.toText = text := by
    rw [hcontent, Rope.toText_ofText]
  have hdelimiters := forall_mem_set h.delimiters table
    (hdelimiter.trans (h.delimiters grid hmem))
  refine ⟨h.tabDelimiter, hdelimiters, ?_, forall_mem_set h.rectangular table heven, ?_, ?_, ?_, ?_⟩
  · rw [List.length_set, htables, List.length_set, h.length]
  · intro shown hshown
    rw [List.length_set]
    exact h.current shown hshown
  · show live.tab.content.toText ∈ texts
    rw [hbuffer]
    exact htext
  · intro shown hshown new hnew hhash
    change (contentFingerprintFromStr live.tab.content.toText).1 = _ at hhash
    show new.table.data = (parseCsv reader live.tab.content.toText t.csvDelimiter).data
    rw [hbuffer] at hhash ⊢
    by_cases hsame : table = shown
    · subst hsame
      rw [List.getElem?_set_self hlt] at hnew
      cases hnew
      rw [h.tabDelimiter, hparse]
    · rw [List.getElem?_set_ne hsame] at hnew
      have hother : t.csvTable ≠ some table := fun heq =>
        hsame (Option.some.inj (heq.symm.trans hshown))
      exact hfits hother shown hshown new hnew hhash
  · intro other new hnew committed hcommitted hash hhash
    rw [htables] at hcommitted
    by_cases hsame : table = other
    · subst hsame
      rw [List.getElem?_set_self hlt] at hnew
      rw [List.getElem?_set_self (h.length ▸ hlt)] at hcommitted
      cases hnew
      cases hcommitted
      cases hhash
      exact ⟨text, htext, rfl, hparse.symm⟩
    · rw [List.getElem?_set_ne hsame] at hnew hcommitted
      exact h.committed other new hnew committed hcommitted hash hhash

/-- A table event: what it needs to keep the tab in step, and what it commits. -/
theorem tableEvent [DecidableEq Language] {languageFromContent : String → String → Language}
    (hreads : ReadsBack reader writer delimiter) (h : InStep reader texts delimiter t)
    {table : Nat} {event : CsvTableEvent}
    (hkeeps : t.KeepsInStep reader writer languageFromContent texts (.tableEvent table event))
    (hstep : t.tableEvent writer table event = some t') :
    InStep reader texts delimiter t' ∧ (t.Commits table event → ∃ grid ∈ t'.grids[table]?,
      serializeCsv writer grid.table.data grid.delimiter = .ok t'.text) := by
  unfold CsvTab.tableEvent at hstep
  split at hstep
  case isFalse => cases hstep
  obtain ⟨grid, hgrid, hhandled⟩ := Option.bind_eq_some_iff.mp hstep
  have heven : (grid.table.handle event).data.Rectangular :=
    CsvTable.rectangular_handleAll (h.rectangular grid (List.mem_of_getElem? hgrid)) [event]
  have hlt := (List.getElem?_eq_some_iff.mp hgrid).1
  split at hhandled
  · rename_i hcommits
    obtain ⟨delegate, hdelegate⟩ : ∃ delegate, t.live.csvTables[table]? = some delegate :=
      ⟨_, List.getElem?_eq_getElem (h.length ▸ hlt)⟩
    obtain ⟨hcontent, hheaders, htexts⟩ := hkeeps hcommits grid hgrid _ hdelegate
    obtain ⟨text, hserialized, hparsed⟩ := CsvData.roundTrips_of_headers hreads heven hheaders
    have hdelimiter := h.delimiters grid (List.mem_of_getElem? hgrid)
    rw [← hdelimiter] at hserialized
    obtain ⟨htext, hfits⟩ := htexts text (by rw [hserialized]; rfl)
    obtain ⟨live, hcommit, rfl⟩ := Option.map_eq_some_iff.mp hhandled
    rw [hserialized] at hcommit
    obtain ⟨hbuffer, htables⟩ := LiveTab.commitToBuffer_text hdelegate hcontent hcommit
    refine ⟨h.commit hgrid rfl heven (congrArg CsvParseOutcome.data hparsed) htext hfits hbuffer
      htables, fun _ => ⟨_, List.getElem?_set_self hlt, ?_⟩⟩
    rw [hserialized]
    show _ = Except.ok live.tab.content.toText
    rw [hbuffer, Rope.toText_ofText]
  · rename_i hcommits
    cases hhandled
    refine ⟨h.setGrid hgrid rfl ?_, fun hcommit => absurd hcommit hcommits⟩
    rw [CsvTable.data_handle]
    cases hedit : event.edit grid.table.lastSelection with
    | none => rfl
    | some edit =>
        have hchanges : grid.table.data.changes edit = false :=
          Bool.eq_false_iff.mpr fun htrue => hcommits ⟨grid, hgrid, edit, hedit, htrue⟩
        exact CsvData.edited_of_not_changes hchanges

/-- The step of an action that meets its condition. -/
theorem step [DecidableEq Language] {csv : Language}
    {languageFromContent : String → String → Language} (hreads : ReadsBack reader writer delimiter)
    (hfree : Distinguished texts) (h : InStep reader texts delimiter t)
    {action : CsvTabAction Language}
    (hkeeps : t.KeepsInStep reader writer languageFromContent texts action)
    (hstep : t.step reader writer csv languageFromContent action = some t') :
    InStep reader texts delimiter t' ∧ t.LeavesInStep reader writer csv action t' := by
  cases action with
  | edit action =>
      simp only [CsvTab.step] at hstep
      split at hstep
      case isTrue => cases hstep
      rename_i hother
      obtain ⟨live, hlive, rfl⟩ := Option.map_eq_some_iff.mp hstep
      obtain ⟨htext, hfits⟩ := hkeeps live hlive
      exact ⟨h.edit (LiveTab.csvTables_step hother hlive) htext hfits, trivial⟩
  | tableEvent table event => exact h.tableEvent hreads hkeeps hstep
  | toggleCsvViewMode =>
      cases hstep
      unfold CsvTab.toggleCsvViewMode
      split
      · exact ⟨h, fun htext htable => by rw [htext] at htable; cases htable⟩
      · split
        · exact ⟨⟨h.tabDelimiter, h.delimiters, h.length, h.rectangular, h.current,
            h.text, h.source, h.committed⟩, fun _ htable => by cases htable⟩
        · have hshown : InStep reader texts delimiter { t with csvViewMode := .table } :=
            ⟨h.tabDelimiter, h.delimiters, h.length, h.rectangular, h.current, h.text, h.source,
              h.committed⟩
          obtain ⟨hinStep, hagrees⟩ := hshown.ensureCsvTable hfree
          exact ⟨hinStep, fun _ => hagrees⟩
  | render =>
      cases hstep
      unfold CsvTab.render
      split
      · obtain ⟨hinStep, hagrees⟩ := h.ensureCsvTable hfree
        exact ⟨hinStep, fun _ => hagrees⟩
      · rename_i hnot
        exact ⟨h, fun hcsv htable => absurd ⟨hcsv, htable⟩ hnot⟩

end InStep

/--
In every run of a tab whose steps all meet their condition: a table that a render
or a change of the view makes current has the model of the buffer's text, and a
table edit that is committed is the buffer's text.
-/
theorem table_stays_in_step [DecidableEq Language] {csv : Language}
    {languageFromContent : String → String → Language} (hreads : ReadsBack reader writer delimiter)
    (hfree : Distinguished texts) {live : LiveTab Language} {csvViewMode : CsvViewMode}
    (htext : live.tab.content.toText ∈ texts) {actions : List (CsvTabAction Language)}
    (hguard : Guarded (CsvTab.step reader writer csv languageFromContent)
      (CsvTab.KeepsInStep reader writer languageFromContent texts)
      (opened live csvViewMode delimiter) actions)
    (hrun : run (CsvTab.step reader writer csv languageFromContent)
      (opened live csvViewMode delimiter) actions = some t) {action : CsvTabAction Language}
    (hkeeps : t.KeepsInStep reader writer languageFromContent texts action)
    (hstep : t.step reader writer csv languageFromContent action = some t') :
    t.LeavesInStep reader writer csv action t' := by
  have hinStep : InStep reader texts delimiter t := by
    refine invariant_of_guarded (InStep reader texts delimiter) ?_ (inStep_opened htext) hguard hrun
    intro s action s' h haction hs'
    exact (h.step hreads hfree haction hs').1
  exact (hinStep.step hreads hfree hkeeps hstep).2

/-! ## Runs in and out of step -/

/-- A tab of the file `/n.csv` with two columns and a row. -/
def sampleCsvLive : LiveTab Bool :=
  LiveTab.intoEntity
    (EditorTab.fromFile
      { id := 0, path := ⟨asBytes "/n.csv"⟩, contents := "a,b\n1,2\n", encoding := UTF_8,
        isModified := false })
    true false "a,b\n1,2\n"

def sampleCsvTab : CsvTab Bool := opened sampleCsvLive .table 0x2C

abbrev sampleCsvStep : CsvTab Bool → CsvTabAction Bool → Option (CsvTab Bool) :=
  CsvTab.step codecReader codecWriter true fun _ _ => true

def sampleCsvTexts : List String :=
  ["a,b\n1,2\n", "a,b\n1,2\n,\n", "b\n2\n\"\"\n", "b;c\n"]

instance (texts : List String) : Decidable (Distinguished texts) :=
  inferInstanceAs (Decidable (∀ a ∈ texts, ∀ b ∈ texts, _ = _ → _ = _))

/--
A row and a column are edited, the buffer is typed in, and its settings change before a
new table.
-/
def sampleCsvRun : List (CsvTabAction Bool) :=
  [.render, .tableEvent 0 .insertRowBelow, .render, .tableEvent 0 (.select (some (.column 1))),
    .tableEvent 0 .deleteColumn, .toggleCsvViewMode, .edit (.updateSettings true),
    .edit (.typeText (.ofText "b;c\n"))]

theorem table_stays_in_step_sample :
    ∃ t t', run sampleCsvStep sampleCsvTab sampleCsvRun = some t ∧
      sampleCsvStep t .toggleCsvViewMode = some t' ∧
      t.LeavesInStep codecReader codecWriter true .toggleCsvViewMode t' ∧
      t'.csvTable = some 1 := by
  obtain ⟨t, hrun, t', hstep, htable⟩ : ∃ t, run sampleCsvStep sampleCsvTab sampleCsvRun = some t ∧
      ∃ t' ∈ sampleCsvStep t .toggleCsvViewMode, t'.csvTable = some 1 :=
    exists_of_any (by decide +kernel)
  have hguard : Guarded sampleCsvStep
      (KeepsInStep codecReader codecWriter (fun _ _ => true) sampleCsvTexts)
      sampleCsvTab sampleCsvRun :=
    Guarded.of_guardedRun (by decide +kernel)
  refine ⟨t, t', hrun, hstep, ?_, htable⟩
  exact table_stays_in_step (readsBack_codec separates_comma) (by decide +kernel)
    (by decide +kernel) hguard hrun trivial hstep

/--
After a change of the settings the table writes to an entity that is no buffer
any more: the edit never reaches the buffer, and the next render keeps the table.
A buffer that is reloaded before the render keeps the edited table as well.
-/
theorem table_edit_lost :
    (∃ t, run sampleCsvStep sampleCsvTab [.render, .edit (.updateSettings true)] = some t ∧
      ∃ t' ∈ sampleCsvStep t (.tableEvent 0 .insertRowBelow),
        ¬t.LeavesInStep codecReader codecWriter true (.tableEvent 0 .insertRowBelow) t' ∧
        t'.text = "a,b\n1,2\n" ∧ ∃ t'' ∈ sampleCsvStep t' .render,
          ¬t'.LeavesInStep codecReader codecWriter true .render t'') ∧
      ∃ t, run sampleCsvStep sampleCsvTab
        [.render, .tableEvent 0 .insertRowBelow, .edit (.reload ⟨UTF_8, "a,b\n1,2\n", false, 8⟩)] =
          some t ∧
        ∃ t' ∈ sampleCsvStep t .render, ¬t.LeavesInStep codecReader codecWriter true .render t' :=
  ⟨exists_of_any (by decide +kernel), exists_of_any (by decide +kernel)⟩

end CsvTab

end Fulgur
