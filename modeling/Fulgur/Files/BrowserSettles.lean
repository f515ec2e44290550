import Fulgur.Files.PathBrowser
import Fulgur.Library.Latest
import Fulgur.Search.CaseFolding

/-! # What the path browser comes to show

When the timers have run out and the refreshes have come back, the browser shows the
listing for the path that is in the input, as the last refresh read it.
-/

namespace Fulgur

open LabelledRun Latest

/-! ## Listings -/

/-- The first 500 of the matching entries: directories first, then by their names. -/
structure ListsMatching (setup : PathBrowserSetup) (entries : List DirEntry)
    (parent filter : List Char) (shown : List PathEntry) : Prop where
  first : ∃ all : List PathEntry, all.Perm (setup.matching entries parent filter) ∧
    all.Pairwise setup.precedes ∧ shown = all.take 500
  /-- Nothing is left out unless there are more. -/
  all : (setup.matching entries parent filter).length ≤ 500 →
    shown.Perm (setup.matching entries parent filter)

namespace PathBrowserSetup

variable (setup : PathBrowserSetup)

theorem precedes_total (entry other : PathEntry) :
    setup.precedes entry other ∨ setup.precedes other entry := by
  unfold precedes
  cases hentry : entry.isDir <;> cases hother : other.isDir <;>
    simp [String.le_total]

theorem precedes_trans {entry other third : PathEntry} (h : setup.precedes entry other)
    (h' : setup.precedes other third) : setup.precedes entry third := by
  unfold precedes at h h' ⊢
  rcases h with ⟨hdir, hfile⟩ | ⟨hsame, hle⟩
  · rcases h' with ⟨hdir', -⟩ | ⟨hsame', -⟩
    · rw [hfile] at hdir'
      cases hdir'
    · exact Or.inl ⟨hdir, hsame'.symm.trans hfile⟩
  · rcases h' with ⟨hdir', hfile'⟩ | ⟨hsame', hle'⟩
    · exact Or.inl ⟨hsame.trans hdir', hfile'⟩
    · exact Or.inr ⟨hsame.trans hsame', le_trans hle hle'⟩

theorem pairwise_insertionSort (entries : List PathEntry) :
    (entries.insertionSort setup.precedes).Pairwise setup.precedes := by
  have : Std.Total setup.precedes := ⟨setup.precedes_total⟩
  have : IsTrans PathEntry setup.precedes := ⟨fun _ _ _ => setup.precedes_trans⟩
  exact List.pairwise_insertionSort setup.precedes entries

theorem listsMatching (disk : LocalDisk) {parent filter : List Char} {entries : List DirEntry}
    (hread : disk.readDir parent = some entries) :
    ListsMatching setup entries parent filter (setup.readAndFilterEntries disk parent filter) := by
  have hperm := List.perm_insertionSort setup.precedes (setup.matching entries parent filter)
  have hshown : setup.readAndFilterEntries disk parent filter =
      ((setup.matching entries parent filter).insertionSort setup.precedes).take 500 := by
    rw [readAndFilterEntries, hread]
  refine ⟨⟨_, hperm, setup.pairwise_insertionSort _, hshown⟩, fun hfew => ?_⟩
  rw [hshown, List.take_of_length_le (by rwa [hperm.length_eq])]
  exact hperm

end PathBrowserSetup

/-! ## Runs -/

namespace PathBrowser

variable {setup : PathBrowserSetup} {b b' : PathBrowser}

/-- The listing that a task has or is shown was read for the path in the input. -/
def Read (setup : PathBrowserSetup) (b : PathBrowser) (entries : List PathEntry) : Prop :=
  ∃ disk, b.readDisk = some disk ∧ entries = setup.listing disk b.input

/-- The last refresh is for the path in the input: it is on its way, or shown. -/
def Refreshed (setup : PathBrowserSetup) (b : PathBrowser) : Prop :=
  (∃ task ∈ b.tasks, task.generation = b.refreshGeneration ∧ task.raw = b.input ∧
    ∀ entries ∈ task.entries, b.Read setup entries) ∨
  (b.refreshGeneration ∉ b.tasks.map (·.generation) ∧ b.Read setup b.entries)

structure Following (setup : PathBrowserSetup) (count : Nat) (b : PathBrowser) : Prop where
  debounce_le : b.debounceGeneration.toNat ≤ count
  refresh_le : b.refreshGeneration.toNat ≤ count
  timers : Issued b.debounceGeneration b.timers
  tasks : Issued b.refreshGeneration (b.tasks.map (·.generation))
  /-- The timer of the last change is running, or it has run out. -/
  last : b.debounceGeneration ∈ b.timers ∨ b.Refreshed setup

namespace Following

variable {count : Nat}

theorem new (setup : PathBrowserSetup) (disk : LocalDisk) : Following setup 1 (new setup disk) where
  debounce_le := Nat.zero_le 1
  refresh_le := Nat.le_refl 1
  timers := issued_nil 0
  tasks := (issued_nil 0).issue (by decide)
  last := by
    refine Or.inr (Or.inl ⟨_, List.mem_singleton_self _, rfl, rfl, fun entries hentries => ?_⟩)
    cases hentries

theorem change (h : Following setup count b) (hroom : count + 1 < 2 ^ 64) (path : String) :
    Following setup (count + 1) { b with input := path }.scheduleRefresh := by
  have hle := h.debounce_le
  have hrefresh := h.refresh_le
  have hsmall : b.debounceGeneration.toNat + 1 < 2 ^ 64 := by omega
  refine ⟨?_, Nat.le_succ_of_le hrefresh, h.timers.issue hsmall, h.tasks, Or.inl ?_⟩
  · simp only [scheduleRefresh]
    rw [toNat_succ hsmall]
    omega
  · exact List.mem_append_right _ (List.mem_singleton_self _)

theorem dispatchRefresh (h : Following setup count b) (hroom : count + 1 < 2 ^ 64)
    (timers : List UInt64) (htimers : Issued b.debounceGeneration timers) :
    Following setup (count + 1) { b with timers := timers }.dispatchRefresh := by
  have hle := h.debounce_le
  have hrefresh := h.refresh_le
  have hsmall : b.refreshGeneration.toNat + 1 < 2 ^ 64 := by omega
  refine ⟨Nat.le_succ_of_le hle, ?_, htimers, ?_, Or.inr (Or.inl ?_)⟩
  · simp only [PathBrowser.dispatchRefresh]
    rw [toNat_succ hsmall]
    omega
  · simp only [PathBrowser.dispatchRefresh, List.map_append, List.map_singleton]
    exact h.tasks.issue hsmall
  · refine ⟨_, List.mem_append_right _ (List.mem_singleton_self _), rfl, rfl,
      fun entries hentries => ?_⟩
    cases hentries

theorem timer (h : Following setup count b) (hroom : count + 1 < 2 ^ 64) {index : Nat}
    {generation : UInt64} (hgeneration : b.timers[index]? = some generation) :
    let fired := { b with timers := b.timers.eraseIdx index }
    Following setup (count + 1)
      (if b.debounceGeneration ≠ generation then fired else fired.dispatchRefresh) := by
  intro fired
  split
  · rename_i hearlier
    refine ⟨Nat.le_succ_of_le h.debounce_le, Nat.le_succ_of_le h.refresh_le,
      h.timers.erase index, h.tasks, ?_⟩
    cases h.last with
    | inl hrunning => exact Or.inl ((h.timers.mem_erase hgeneration).mpr ⟨hrunning, hearlier⟩)
    | inr hrefreshed => exact Or.inr hrefreshed
  · exact h.dispatchRefresh hroom _ (h.timers.erase index)

theorem task_eq (h : Following setup count b) {task other : RefreshTask} (htask : task ∈ b.tasks)
    (hother : other ∈ b.tasks) (hsame : task.generation = other.generation) : task = other :=
  List.inj_on_of_nodup_map h.tasks.nodup htask hother hsame

theorem readTask (h : Following setup count b) {index : Nat} {task : RefreshTask}
    (htask : b.tasks[index]? = some task) :
    Following setup (count + 1) (b.readTask setup index task) := by
  obtain ⟨hbound, hget⟩ := List.getElem?_eq_some_iff.mp htask
  have hmem : task ∈ b.tasks := List.mem_of_getElem? htask
  have hnumbers : (b.readTask setup index task).tasks.map (·.generation) =
      b.tasks.map (·.generation) := by
    simp only [PathBrowser.readTask]
    rw [List.map_set]
    refine List.ext_getElem? fun j => ?_
    by_cases hj : index = j
    · subst hj
      rw [List.getElem?_set_self (by simpa using hbound), List.getElem?_map, htask]
      rfl
    · rw [List.getElem?_set_ne hj]
  refine ⟨Nat.le_succ_of_le h.debounce_le, Nat.le_succ_of_le h.refresh_le, h.timers, ?_, ?_⟩
  · rw [hnumbers]
    exact h.tasks
  cases h.last with
  | inl hrunning => exact Or.inl hrunning
  | inr hrefreshed =>
      refine Or.inr ?_
      rcases hrefreshed with ⟨last, hlast, hgeneration, hraw, hentries⟩ | ⟨hdone, hshown⟩
      · by_cases hcurrent : task.generation = b.refreshGeneration
        · obtain rfl : task = last := h.task_eq hmem hlast (hcurrent.trans hgeneration.symm)
          refine Or.inl ⟨_, List.mem_set hbound _, hcurrent, hraw, fun entries hnew => ?_⟩
          cases hnew
          refine ⟨b.disk, ?_, by rw [hraw]; rfl⟩
          simp only [PathBrowser.readTask, if_pos hcurrent]
        · obtain ⟨j, hj⟩ := List.mem_iff_getElem?.mp hlast
          have hne : index ≠ j := by
            rintro rfl
            rw [htask] at hj
            cases hj
            exact hcurrent hgeneration
          refine Or.inl ⟨last, List.mem_of_getElem? ((List.getElem?_set_ne hne).trans hj),
            hgeneration, hraw, fun entries hnew => ?_⟩
          obtain ⟨disk, hdisk, hlisting⟩ := hentries entries hnew
          refine ⟨disk, ?_, hlisting⟩
          simp only [PathBrowser.readTask, if_neg hcurrent]
          exact hdisk
      · have hother : task.generation ≠ b.refreshGeneration := by
          intro hequal
          exact hdone (hequal ▸ List.mem_map_of_mem hmem)
        obtain ⟨disk, hdisk, hlisting⟩ := hshown
        refine Or.inr ⟨by rw [hnumbers]; exact hdone, disk, ?_, hlisting⟩
        simp only [PathBrowser.readTask, if_neg hother]
        exact hdisk

theorem arrive (h : Following setup count b) {index : Nat} {task : RefreshTask}
    (htask : b.tasks[index]? = some task) {entries : List PathEntry}
    (hentries : task.entries = some entries) :
    let arrived := { b with tasks := b.tasks.eraseIdx index }
    Following setup (count + 1)
      (if b.refreshGeneration ≠ task.generation then arrived
        else { arrived with entries := entries }) := by
  intro arrived
  have hmem : task ∈ b.tasks := List.mem_of_getElem? htask
  have hnumber : (b.tasks.map (·.generation))[index]? = some task.generation := by
    rw [List.getElem?_map, htask]
    rfl
  have hnumbers : arrived.tasks.map (·.generation) = (b.tasks.map (·.generation)).eraseIdx index :=
    (List.eraseIdx_map _ _ _).symm
  have hissued : Issued b.refreshGeneration (arrived.tasks.map (·.generation)) := by
    rw [hnumbers]
    exact h.tasks.erase index
  split
  · rename_i hearlier
    refine ⟨Nat.le_succ_of_le h.debounce_le, Nat.le_succ_of_le h.refresh_le, h.timers, hissued, ?_⟩
    rcases h.last with hrunning | ⟨last, hlast, hgeneration, hraw, hread⟩ | ⟨hdone, hshown⟩
    · exact Or.inl hrunning
    · refine Or.inr (Or.inl ⟨last, ?_, hgeneration, hraw, hread⟩)
      obtain ⟨j, hj⟩ := List.mem_iff_getElem?.mp hlast
      refine List.mem_eraseIdx_iff_getElem?.mpr ⟨j, ?_, hj⟩
      rintro rfl
      rw [htask] at hj
      cases hj
      exact hearlier hgeneration.symm
    · refine Or.inr (Or.inr ⟨fun hopen => hdone ?_, hshown⟩)
      rw [hnumbers] at hopen
      exact (List.eraseIdx_sublist _ index).subset hopen
  · rename_i hnotEarlier
    have hcurrent : task.generation = b.refreshGeneration := (Decidable.not_not.mp hnotEarlier).symm
    refine ⟨Nat.le_succ_of_le h.debounce_le, Nat.le_succ_of_le h.refresh_le, h.timers, hissued, ?_⟩
    rcases h.last with hrunning | ⟨last, hlast, hgeneration, hraw, hread⟩ | ⟨hdone, -⟩
    · exact Or.inl hrunning
    · obtain rfl : task = last := h.task_eq hmem hlast (hcurrent.trans hgeneration.symm)
      refine Or.inr (Or.inr ⟨fun hopen => ?_, hread entries hentries⟩)
      have hopen : b.refreshGeneration ∈ (b.tasks.map (·.generation)).eraseIdx index :=
        hnumbers ▸ hopen
      exact ((h.tasks.mem_erase hnumber).mp hopen).2 hcurrent.symm
    · exact absurd (hcurrent ▸ List.mem_map_of_mem hmem) hdone

theorem step (h : Following setup count b) (hroom : count + 1 < 2 ^ 64) {action : PathBrowserAction}
    (hstep : step setup b action = some b') : Following setup (count + 1) b' := by
  cases action with
  | change path =>
      cases hstep
      exact h.change hroom path
  | timer index =>
      obtain ⟨generation, hgeneration, rfl⟩ := Option.map_eq_some_iff.mp hstep
      exact h.timer hroom hgeneration
  | read index =>
      obtain ⟨task, htask, rfl⟩ := Option.map_eq_some_iff.mp hstep
      exact h.readTask (Option.filter_eq_some_iff.mp htask).1
  | arrive index =>
      obtain ⟨task, htask, hrest⟩ := Option.bind_eq_some_iff.mp hstep
      obtain ⟨entries, hentries, rfl⟩ := Option.map_eq_some_iff.mp hrest
      exact h.arrive htask hentries
  | disk disk =>
      cases hstep
      exact ⟨Nat.le_succ_of_le h.debounce_le, Nat.le_succ_of_le h.refresh_le, h.timers, h.tasks,
        h.last⟩

theorem run (h : Following setup count b) {actions : List PathBrowserAction}
    (hroom : count + actions.length < 2 ^ 64)
    (hrun : run (PathBrowser.step setup) b actions = some b') :
    Following setup (count + actions.length) b' := by
  induction actions generalizing b count with
  | nil =>
      cases hrun
      exact h
  | cons action actions ih =>
      obtain ⟨next, hstep, hrest⟩ := run_cons_eq_some hrun
      rw [List.length_cons] at hroom
      have hnext := ih (h.step (by omega) hstep) (by omega) hrest
      rw [List.length_cons]
      have hcount : count + (actions.length + 1) = count + 1 + actions.length := by omega
      rw [hcount]
      exact hnext

end Following

/--
In every interleaving of changes of the path, timers, refreshes and changes of the file
system: once no timer runs and no refresh is on its way, the browser shows what the last
refresh read for the path in the input, which is of the directory the path leads to the
entries that begin with its last part, directories first and by name, up to 500.
-/
theorem path_browser_settles {disk : LocalDisk} {actions : List PathBrowserAction}
    (hfew : actions.length + 1 < 2 ^ 64)
    (hrun : LabelledRun.run (step setup) (new setup disk) actions = some b)
    (htimers : b.timers = []) (htasks : b.tasks = []) :
    ∃ disk, b.readDisk = some disk ∧
      match (setup.parseInputPath disk b.input).map fun place => (place, disk.readDir place.1) with
      | some ((parent, filter), some entries) => ListsMatching setup entries parent filter b.entries
      | _ => b.entries = [] := by
  have h : Following setup (1 + actions.length) b := (Following.new setup disk).run (by omega) hrun
  obtain ⟨disk, hdisk, hlisting⟩ : b.Read setup b.entries := by
    rcases h.last with hrunning | ⟨task, htask, -⟩ | ⟨-, hshown⟩
    · rw [htimers] at hrunning
      cases hrunning
    · rw [htasks] at htask
      cases htask
    · exact hshown
  refine ⟨disk, hdisk, ?_⟩
  unfold PathBrowserSetup.listing at hlisting
  cases hplace : setup.parseInputPath disk b.input with
  | none =>
      rw [hplace] at hlisting
      exact hlisting
  | some place =>
      obtain ⟨parent, filter⟩ := place
      simp only [hplace] at hlisting
      cases hread : disk.readDir parent with
      | none =>
          rw [PathBrowserSetup.readAndFilterEntries, hread] at hlisting
          simpa [hread] using hlisting
      | some entries =>
          simp only [Option.map_some, hread, hlisting]
          exact setup.listsMatching disk hread

def samplePathSetup : PathBrowserSetup := ⟨sampleUnicode, some "/home".toList⟩

def samplePathDisk : LocalDisk where
  isDir path := path = "/home/".toList ∨ path = "/home".toList
  readDir path := if path = "/home".toList then
    some [⟨"ab".toList, false⟩, ⟨"c".toList, true⟩, ⟨"Ad".toList, true⟩] else none

/-- The listing of the home directory comes back late. -/
theorem path_browser_settles_sample :
    ∃ b, LabelledRun.run (step samplePathSetup) (new samplePathSetup samplePathDisk)
        [.change "/home/", .change "/home/a", .timer 0, .timer 0, .read 1, .read 0, .arrive 1,
          .arrive 0] = some b ∧
      b.entries = [⟨"Ad".toList, true, "/home/Ad".toList⟩,
        ⟨"ab".toList, false, "/home/ab".toList⟩] ∧ b.readDisk.isSome = true := by
  obtain ⟨b, hrun, htimers, htasks, hentries⟩ :
      ∃ b, LabelledRun.run (step samplePathSetup) (new samplePathSetup samplePathDisk)
        [.change "/home/", .change "/home/a", .timer 0, .timer 0, .read 1, .read 0, .arrive 1,
          .arrive 0] = some b ∧ b.timers = [] ∧ b.tasks = [] ∧
        b.entries = [⟨"Ad".toList, true, "/home/Ad".toList⟩,
          ⟨"ab".toList, false, "/home/ab".toList⟩] := exists_of_any (by decide +kernel)
  obtain ⟨disk, hdisk, -⟩ := path_browser_settles (by decide) hrun htimers htasks
  exact ⟨b, hrun, hentries, by rw [hdisk]; rfl⟩

end PathBrowser

end Fulgur
