import Fulgur.Library.Run
import Mathlib.Algebra.Group.Nat.Defs
import Mathlib.Algebra.GroupWithZero.Nat
import Mathlib.Data.List.Perm.Basic

/-! # Jobs handed out by a shared counter

Workers take the jobs of a list by their places, which they draw from one counter
with a fetch-and-add on a machine word. A worker that draws a place past the last
job stops. Others may come between any two steps of a worker.
-/

namespace WorkQueue

open LabelledRun

variable {α ρ : Type}

inductive WorkerPhase (α ρ : Type) where
  | drawing
  | working (job : α)
  /-- The job brought a result that is not pushed yet. -/
  | holding (result : ρ)
  | stopped
deriving DecidableEq

namespace WorkerPhase

def jobs : WorkerPhase α ρ → List α
  | .working job => [job]
  | _ => []

def found : WorkerPhase α ρ → List ρ
  | .holding result => [result]
  | _ => []

def isStopped : WorkerPhase α ρ → Bool
  | .stopped => true
  | _ => false

/-- The steps up to the next draw, and the one that finds no more jobs. -/
def stepsLeft : WorkerPhase α ρ → Nat
  | .drawing => 1
  | .working _ => 3
  | .holding _ => 2
  | .stopped => 0

end WorkerPhase

end WorkQueue

open WorkQueue

structure WorkQueue (α ρ : Type) where
  next : Nat
  workers : List (WorkerPhase α ρ)
  results : List ρ
  /-- What the jobs brought, in the order in which they were done. -/
  done : List (α × Option ρ)
deriving DecidableEq

inductive WorkerMove (ρ : Type) where
  | draw
  | finish (result : Option ρ)
  | push

namespace WorkQueue

open LabelledRun

variable {α ρ : Type}

def start (workers : Nat) : WorkQueue α ρ := ⟨0, List.replicate workers .drawing, [], []⟩

/-- One step of a worker; places are counted modulo `2 ^ 64`. -/
def step (jobs : List α) (s : WorkQueue α ρ) (move : Nat × WorkerMove ρ) :
    Option (WorkQueue α ρ) :=
  match s.workers[move.1]?, move.2 with
  | some .drawing, .draw =>
      let phase : WorkerPhase α ρ :=
        match jobs[s.next]? with
        | some job => .working job
        | none => .stopped
      some { s with next := (s.next + 1) % 2 ^ 64, workers := s.workers.set move.1 phase }
  | some (.working job), .finish result =>
      let phase : WorkerPhase α ρ :=
        match result with
        | some found => .holding found
        | none => .drawing
      some { s with workers := s.workers.set move.1 phase, done := s.done ++ [(job, result)] }
  | some (.holding result), .push =>
      some { s with workers := s.workers.set move.1 .drawing, results := s.results ++ [result] }
  | _, _ => none

def inHand (s : WorkQueue α ρ) : List α := s.workers.flatMap WorkerPhase.jobs

def held (s : WorkQueue α ρ) : List ρ := s.workers.flatMap WorkerPhase.found

def stopped (s : WorkQueue α ρ) : Nat := s.workers.countP WorkerPhase.isStopped

def finished (s : WorkQueue α ρ) : Bool := s.workers.all WorkerPhase.isStopped

def stepsLeft (jobs : List α) (s : WorkQueue α ρ) : Nat :=
  3 * (jobs.length - s.next) + (s.workers.map WorkerPhase.stepsLeft).sum

variable {jobs : List α} {s s' : WorkQueue α ρ}

/-- What a step can be. -/
theorem step_cases {move : Nat × WorkerMove ρ} (hstep : step jobs s move = some s') :
    (∃ job, s.workers[move.1]? = some .drawing ∧ jobs[s.next]? = some job ∧
      s' = { s with
        next := (s.next + 1) % 2 ^ 64
        workers := s.workers.set move.1 (.working job) }) ∨
    (s.workers[move.1]? = some .drawing ∧ jobs[s.next]? = none ∧
      s' = { s with
        next := (s.next + 1) % 2 ^ 64
        workers := s.workers.set move.1 .stopped }) ∨
    (∃ job found, s.workers[move.1]? = some (.working job) ∧
      s' = { s with
        workers := s.workers.set move.1 (.holding found)
        done := s.done ++ [(job, some found)] }) ∨
    (∃ job, s.workers[move.1]? = some (.working job) ∧
      s' = { s with
        workers := s.workers.set move.1 .drawing
        done := s.done ++ [(job, none)] }) ∨
    ∃ result, s.workers[move.1]? = some (.holding result) ∧
      s' = { s with
        workers := s.workers.set move.1 .drawing
        results := s.results ++ [result] } := by
  unfold step at hstep
  split at hstep
  · rename_i hphase _
    cases hjob : jobs[s.next]? with
    | none => exact Or.inr (Or.inl ⟨hphase, rfl, by simpa [hjob] using hstep.symm⟩)
    | some job => exact Or.inl ⟨job, hphase, rfl, by simpa [hjob] using hstep.symm⟩
  · rename_i job result hphase _
    cases result with
    | none => exact Or.inr (Or.inr (Or.inr (Or.inl ⟨job, hphase, by simpa using hstep.symm⟩)))
    | some found =>
        exact Or.inr (Or.inr (Or.inl ⟨job, found, hphase, by simpa using hstep.symm⟩))
  · rename_i result hphase _
    exact Or.inr (Or.inr (Or.inr (Or.inr ⟨result, hphase, by simpa using hstep.symm⟩)))
  · cases hstep

/-! ## Workers one at a time -/

theorem workers_perm {workers : List (WorkerPhase α ρ)} {worker : Nat} {phase : WorkerPhase α ρ}
    (h : workers[worker]? = some phase) : workers.Perm (phase :: workers.eraseIdx worker) := by
  obtain ⟨hlt, rfl⟩ := List.getElem?_eq_some_iff.mp h
  exact (List.getElem_cons_eraseIdx_perm hlt).symm

theorem set_perm {workers : List (WorkerPhase α ρ)} {worker : Nat} {phase : WorkerPhase α ρ}
    (h : workers[worker]? = some phase) (next : WorkerPhase α ρ) :
    (workers.set worker next).Perm (next :: workers.eraseIdx worker) :=
  List.set_perm_cons_eraseIdx (List.getElem?_eq_some_iff.mp h).1 next

/-- A worker that has not stopped is not counted among those that have. -/
theorem stopped_lt {worker : Nat} {phase : WorkerPhase α ρ} (h : s.workers[worker]? = some phase)
    (hphase : phase.isStopped = false) : s.stopped < s.workers.length := by
  have hcount := (workers_perm h).countP_eq WorkerPhase.isStopped
  have hlength := (workers_perm h).length_eq
  have hle : (s.workers.eraseIdx worker).countP WorkerPhase.isStopped ≤ _ := List.countP_le_length
  simp only [List.countP_cons, hphase, List.length_cons] at hcount hlength
  simp only [stopped]
  simp at hcount
  omega

/-! ## Every job once -/

/--
The jobs drawn so far are in hand or done, every worker that stopped drew one
place more, and what the jobs brought is pushed or about to be.
-/
structure Fair (jobs : List α) (workers : Nat) (s : WorkQueue α ρ) : Prop where
  drawn : (s.inHand ++ s.done.map Prod.fst).Perm (jobs.take s.next)
  places : s.next = min s.next jobs.length + s.stopped
  kept : (s.results ++ s.held).Perm (s.done.filterMap Prod.snd)
  width : s.workers.length = workers

theorem fair_start (jobs : List α) (workers : Nat) :
    Fair jobs workers (start workers : WorkQueue α ρ) where
  drawn := by simp [start, inHand, WorkerPhase.jobs]
  places := by simp [start, stopped, WorkerPhase.isStopped, List.countP_replicate]
  kept := by simp [start, held, WorkerPhase.found]
  width := by simp [start]

/-- The counter does not wrap while a worker is left to draw. -/
theorem Fair.next_mod {workers : Nat} (h : Fair jobs workers s)
    (hfit : jobs.length + workers < 2 ^ 64) {worker : Nat}
    (hphase : s.workers[worker]? = some .drawing) : (s.next + 1) % 2 ^ 64 = s.next + 1 := by
  have hplaces := h.places
  have hwidth := h.width
  have hlt := stopped_lt hphase rfl
  exact Nat.mod_eq_of_lt (by omega)

/-- A worker that goes on to another phase, with nothing else different but the counter. -/
theorem inHand_set {worker : Nat} {phase : WorkerPhase α ρ}
    (h : s.workers[worker]? = some phase) (next : WorkerPhase α ρ) :
    ∃ rest, s.inHand.Perm (phase.jobs ++ rest) ∧
      ((s.workers.set worker next).flatMap WorkerPhase.jobs).Perm (next.jobs ++ rest) := by
  refine ⟨(s.workers.eraseIdx worker).flatMap WorkerPhase.jobs, ?_, ?_⟩
  · simpa [inHand] using (workers_perm h).flatMap_right WorkerPhase.jobs
  · simpa using (set_perm h next).flatMap_right WorkerPhase.jobs

theorem held_set {worker : Nat} {phase : WorkerPhase α ρ}
    (h : s.workers[worker]? = some phase) (next : WorkerPhase α ρ) :
    ∃ rest, s.held.Perm (phase.found ++ rest) ∧
      ((s.workers.set worker next).flatMap WorkerPhase.found).Perm (next.found ++ rest) := by
  refine ⟨(s.workers.eraseIdx worker).flatMap WorkerPhase.found, ?_, ?_⟩
  · simpa [held] using (workers_perm h).flatMap_right WorkerPhase.found
  · simpa using (set_perm h next).flatMap_right WorkerPhase.found

/-- A job that is done moves from the jobs in hand to those done. -/
theorem done_perm {job : α} {hand hand' rest : List α} {done : List (α × Option ρ)}
    (hbefore : hand.Perm ([job] ++ rest)) (hafter : hand'.Perm ([] ++ rest)) (result : Option ρ) :
    (hand' ++ (done ++ [(job, result)]).map Prod.fst).Perm (hand ++ done.map Prod.fst) := by
  rw [List.map_append, ← List.append_assoc]
  refine (List.perm_append_singleton job _).trans ?_
  refine List.Perm.trans ?_ (hbefore.append_right _).symm
  exact (hafter.append_right _).cons job

theorem stopped_set {worker : Nat} {phase : WorkerPhase α ρ}
    (h : s.workers[worker]? = some phase) (hphase : phase.isStopped = false)
    (next : WorkerPhase α ρ) :
    (s.workers.set worker next).countP WorkerPhase.isStopped =
      s.stopped + if next.isStopped then 1 else 0 := by
  have hold := (workers_perm h).countP_eq WorkerPhase.isStopped
  have hnew := (set_perm h next).countP_eq WorkerPhase.isStopped
  simp only [List.countP_cons, hphase] at hold hnew
  simp at hold
  rw [hnew, stopped, hold]

theorem stepsLeft_set {worker : Nat} {phase : WorkerPhase α ρ}
    (h : s.workers[worker]? = some phase) (next : WorkerPhase α ρ) :
    ((s.workers.set worker next).map WorkerPhase.stepsLeft).sum + phase.stepsLeft =
      (s.workers.map WorkerPhase.stepsLeft).sum + next.stepsLeft := by
  have hold := ((workers_perm h).map WorkerPhase.stepsLeft).sum_nat
  have hnew := ((set_perm h next).map WorkerPhase.stepsLeft).sum_nat
  simp only [List.map_cons, List.sum_cons] at hold hnew
  omega

theorem Fair.step {workers : Nat} (h : Fair jobs workers s)
    (hfit : jobs.length + workers < 2 ^ 64) {move : Nat × WorkerMove ρ}
    (hstep : WorkQueue.step jobs s move = some s') : Fair jobs workers s' := by
  have hplaces := h.places
  rcases step_cases hstep with ⟨job, hphase, hjob, rfl⟩ | ⟨hphase, hjob, rfl⟩ |
    ⟨job, found, hphase, rfl⟩ | ⟨job, hphase, rfl⟩ | ⟨result, hphase, rfl⟩
  · -- the next job is drawn
    have hlt : s.next < jobs.length := (List.getElem?_eq_some_iff.mp hjob).1
    obtain ⟨rest, hbefore, hafter⟩ := inHand_set hphase (.working job)
    obtain ⟨others, hheld, hstill⟩ := held_set hphase (.working job)
    rw [h.next_mod hfit hphase]
    constructor
    · have htake : jobs.take (s.next + 1) = jobs.take s.next ++ [job] := by
        rw [List.take_add_one, hjob]
        rfl
      refine List.Perm.trans ?_ (htake ▸ (h.drawn.append_right [job]))
      refine (hafter.append_right _).trans ?_
      refine List.Perm.trans ?_ ((hbefore.append_right _).append_right [job]).symm
      exact (List.perm_append_singleton job (rest ++ s.done.map Prod.fst)).symm
    · simp only [stopped, stopped_set hphase rfl, WorkerPhase.isStopped]
      simp only [stopped] at hplaces
      simp
      omega
    · exact (hstill.trans hheld.symm).append_left _ |>.trans h.kept
    · simpa using h.width
  · -- no job is left, and the worker stops
    have hge : jobs.length ≤ s.next := List.getElem?_eq_none_iff.mp hjob
    obtain ⟨rest, hbefore, hafter⟩ := inHand_set hphase .stopped
    obtain ⟨others, hheld, hstill⟩ := held_set hphase .stopped
    rw [h.next_mod hfit hphase]
    constructor
    · rw [List.take_of_length_le (by omega : jobs.length ≤ s.next + 1)]
      have hdrawn := h.drawn
      rw [List.take_of_length_le hge] at hdrawn
      exact ((hafter.trans hbefore.symm).append_right _).trans hdrawn
    · simp only [stopped, stopped_set hphase rfl, WorkerPhase.isStopped]
      simp only [stopped] at hplaces
      simp
      omega
    · exact (hstill.trans hheld.symm).append_left _ |>.trans h.kept
    · simpa using h.width
  · -- a job is done and brought something
    obtain ⟨rest, hbefore, hafter⟩ := inHand_set hphase (.holding found)
    obtain ⟨others, hheld, hstill⟩ := held_set hphase (.holding found)
    constructor
    · refine List.Perm.trans ?_ h.drawn
      exact done_perm hbefore hafter (some found)
    · simpa [stopped, stopped_set hphase rfl, WorkerPhase.isStopped] using hplaces
    · rw [List.filterMap_append]
      refine List.Perm.trans ?_ (h.kept.append_right [found])
      rw [List.append_assoc]
      refine List.Perm.append_left s.results (hstill.trans ?_)
      exact (List.perm_append_singleton found others).symm.trans (hheld.symm.append_right [found])
    · simpa using h.width
  · -- a job is done and brought nothing
    obtain ⟨rest, hbefore, hafter⟩ := inHand_set hphase .drawing
    obtain ⟨others, hheld, hstill⟩ := held_set hphase .drawing
    constructor
    · refine List.Perm.trans ?_ h.drawn
      exact done_perm hbefore hafter none
    · simpa [stopped, stopped_set hphase rfl, WorkerPhase.isStopped] using hplaces
    · rw [List.filterMap_append]
      simp only [List.filterMap_cons_none, List.filterMap_nil, List.append_nil]
      exact (hstill.trans hheld.symm).append_left _ |>.trans h.kept
    · simpa using h.width
  · -- a result is pushed
    obtain ⟨rest, hbefore, hafter⟩ := inHand_set hphase .drawing
    obtain ⟨others, hheld, hstill⟩ := held_set hphase .drawing
    constructor
    · exact ((hafter.trans hbefore.symm).append_right _).trans h.drawn
    · simpa [stopped, stopped_set hphase rfl, WorkerPhase.isStopped] using hplaces
    · refine List.Perm.trans ?_ h.kept
      rw [List.append_assoc]
      exact List.Perm.append_left s.results ((hstill.append_left [result]).trans hheld.symm)
    · simpa using h.width

theorem Fair.run {workers : Nat} (hfit : jobs.length + workers < 2 ^ 64)
    {moves : List (Nat × WorkerMove ρ)}
    (hrun : LabelledRun.run (WorkQueue.step jobs) (start workers) moves = some s) :
    Fair jobs workers s :=
  invariant_of_run (Fair jobs workers) (fun _ _ _ h hstep => h.step hfit hstep)
    (fair_start jobs workers) hrun

/-- No more jobs are in hand than there are workers. -/
theorem Fair.length_inHand_le {workers : Nat} (h : Fair jobs workers s) :
    s.inHand.length ≤ workers := by
  rw [← h.width, inHand]
  induction s.workers with
  | nil => simp
  | cons phase workers ih =>
      have hone : phase.jobs.length ≤ 1 := by cases phase <;> simp [WorkerPhase.jobs]
      simp only [List.flatMap_cons, List.length_append, List.length_cons]
      omega

/-! ## The end -/

/-- A worker that has not stopped can always take a step, whatever its job brings. -/
theorem exists_step {worker : Nat} {phase : WorkerPhase α ρ}
    (h : s.workers[worker]? = some phase) (hphase : phase.isStopped = false) :
    (∃ s', step jobs s (worker, .draw) = some s') ∨
    (∀ result, ∃ s', step jobs s (worker, .finish result) = some s') ∨
    ∃ s', step jobs s (worker, .push) = some s' := by
  cases phase with
  | drawing => exact Or.inl ⟨_, by simp only [step, h]; rfl⟩
  | working job => exact Or.inr (Or.inl fun result => ⟨_, by simp only [step, h]; rfl⟩)
  | holding result => exact Or.inr (Or.inr ⟨_, by simp only [step, h]; rfl⟩)
  | stopped => simp [WorkerPhase.isStopped] at hphase

theorem Fair.stepsLeft_lt {workers : Nat} (h : Fair jobs workers s)
    (hfit : jobs.length + workers < 2 ^ 64) {move : Nat × WorkerMove ρ}
    (hstep : WorkQueue.step jobs s move = some s') : s'.stepsLeft jobs < s.stepsLeft jobs := by
  unfold stepsLeft
  rcases step_cases hstep with ⟨job, hphase, hjob, rfl⟩ | ⟨hphase, hjob, rfl⟩ |
    ⟨job, found, hphase, rfl⟩ | ⟨job, hphase, rfl⟩ | ⟨result, hphase, rfl⟩
  · have hlt : s.next < jobs.length := (List.getElem?_eq_some_iff.mp hjob).1
    have hsum := stepsLeft_set hphase (.working job)
    rw [h.next_mod hfit hphase]
    simp only [WorkerPhase.stepsLeft] at hsum ⊢
    omega
  · have hsum := stepsLeft_set hphase .stopped
    rw [h.next_mod hfit hphase]
    simp only [WorkerPhase.stepsLeft] at hsum ⊢
    omega
  · have hsum := stepsLeft_set hphase (.holding found)
    simp only [WorkerPhase.stepsLeft] at hsum ⊢
    omega
  · have hsum := stepsLeft_set hphase .drawing
    simp only [WorkerPhase.stepsLeft] at hsum ⊢
    omega
  · have hsum := stepsLeft_set hphase .drawing
    simp only [WorkerPhase.stepsLeft] at hsum ⊢
    omega

theorem stepsLeft_start (jobs : List α) (workers : Nat) :
    (start workers : WorkQueue α ρ).stepsLeft jobs = 3 * jobs.length + workers := by
  simp [stepsLeft, start, WorkerPhase.stepsLeft]

/-- Runs are finite: each job takes at most three steps, and each worker one to stop. -/
theorem length_le_of_run {workers : Nat} (hfit : jobs.length + workers < 2 ^ 64)
    {moves : List (Nat × WorkerMove ρ)}
    (hrun : LabelledRun.run (WorkQueue.step jobs) (start workers) moves = some s) :
    moves.length ≤ 3 * jobs.length + workers := by
  have hbound := length_add_le_of_run (Fair jobs workers) (stepsLeft jobs)
    (fun _ _ _ h hstep => ⟨h.step hfit hstep, h.stepsLeft_lt hfit hstep⟩)
    (fair_start jobs workers) hrun
  rw [stepsLeft_start] at hbound
  omega

/-- When all workers have stopped, every job was done once and every result is there. -/
theorem Fair.of_finished {workers : Nat} (h : Fair jobs workers s) (hover : s.finished = true)
    (hworkers : jobs ≠ [] → 0 < workers) :
    (s.done.map Prod.fst).Perm jobs ∧ s.results.Perm (s.done.filterMap Prod.snd) := by
  have hstopped : ∀ phase ∈ s.workers, phase = .stopped := by
    intro phase hphase
    have := List.all_eq_true.mp hover phase hphase
    cases phase <;> simp_all [WorkerPhase.isStopped]
  have hhand : s.inHand = [] :=
    List.flatMap_eq_nil_iff.mpr fun phase hphase => by
      simp [hstopped phase hphase, WorkerPhase.jobs]
  have hheld : s.held = [] :=
    List.flatMap_eq_nil_iff.mpr fun phase hphase => by
      simp [hstopped phase hphase, WorkerPhase.found]
  have hcount : s.stopped = workers := by
    rw [← h.width, stopped]
    exact List.countP_eq_length.mpr fun phase hphase => by
      simp [hstopped phase hphase, WorkerPhase.isStopped]
  have hall : jobs.length ≤ s.next := by
    cases jobs with
    | nil => simp
    | cons job jobs =>
        have hplaces := h.places
        have hpos := hworkers (List.cons_ne_nil job jobs)
        omega
  have hdrawn := h.drawn
  have hkept := h.kept
  rw [hhand, List.take_of_length_le hall, List.nil_append] at hdrawn
  rw [hheld, List.append_nil] at hkept
  exact ⟨hdrawn, hkept⟩

end WorkQueue
