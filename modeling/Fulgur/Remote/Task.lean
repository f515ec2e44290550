import Fulgur.State.Persistence

/-! # A remote operation on its threads

A worker thread runs the operation over the connection and publishes its
outcome; a monitor on the UI thread waits for it, for the user to cancel and for
the deadline. Both publish through one completion flag, which the first of them
wins. Cancelling sets a flag that the worker reads once, when the operation is
over: it stops nothing that is already running.
-/

namespace Fulgur

/-- How far the worker thread of an operation is. -/
inductive Worker (Work : Type) where
  | working
  /-- The operation is over; the cancel flag is read next. -/
  | worked (outcome : Except String Work)
  /-- The operation was not cancelled; the completion flag is swapped next. -/
  | publishing (outcome : Except String Work)
  /-- The completion flag is won; the outcome is stored next. -/
  | storing (outcome : Except String Work)
  | done

/-- One remote operation, from its spawn on. -/
structure SshTask (Work : Type) where
  worker : Worker Work
  finished : Bool
  cancelFlag : Bool
  monitorDone : Bool
  /-- How many outcomes were handed to the UI thread. -/
  published : Nat

def SSH_CONNECTION_TIMEOUT_LABEL : String := "SSH connection timed out"

def SSH_SAVE_TIMEOUT_LABEL : String := "SSH save timed out"

def timeoutMessage (label : String) : String := label ++ " (60 s)"

namespace SshTask

variable {Work : Type}

def spawned : SshTask Work where
  worker := .working
  finished := false
  cancelFlag := false
  monitorDone := false
  published := 0

/-- The operation itself is over. -/
def works (task : SshTask Work) (outcome : Except String Work) : Option (SshTask Work) :=
  match task.worker with
  | .working => some { task with worker := .worked outcome }
  | _ => none

def advance (task : SshTask Work) : Option (SshTask Work × Option (Except String Work)) :=
  match task.worker with
  | .worked outcome =>
      if task.cancelFlag then some ({ task with worker := .done, finished := true }, none)
      else some ({ task with worker := .publishing outcome }, none)
  | .publishing outcome =>
      if task.finished then some ({ task with worker := .done }, none)
      else some ({ task with worker := .storing outcome, finished := true }, none)
  | .storing outcome =>
      some ({ task with worker := .done, published := task.published + 1 }, some outcome)
  | _ => none

/-- The monitor publishes the timeout, unless the completion flag is taken. -/
def timeOut (task : SshTask Work) (label : String) :
    SshTask Work × Option (Except String Work) :=
  if task.finished then (task, none)
  else ({ task with finished := true, published := task.published + 1 },
    some (.error (timeoutMessage label)))

/-- The user presses the cancel button, which works once. -/
def cancel (task : SshTask Work) : Option (SshTask Work) :=
  if task.cancelFlag then none else some { task with cancelFlag := true }

/-- An outcome of the task can still be published. -/
def CanReport (task : SshTask Work) : Prop :=
  match task.worker with
  | .storing _ => True
  | .publishing _ => task.finished = false
  | _ => task.finished = false ∧ task.cancelFlag = false

instance (task : SshTask Work) : Decidable task.CanReport :=
  match h : task.worker with
  | .storing _ => isTrue (by simp [CanReport, h])
  | .publishing _ => decidable_of_iff (task.finished = false) (by simp [CanReport, h])
  | .working => decidable_of_iff (task.finished = false ∧ task.cancelFlag = false)
      (by simp [CanReport, h])
  | .worked _ => decidable_of_iff (task.finished = false ∧ task.cancelFlag = false)
      (by simp [CanReport, h])
  | .done => decidable_of_iff (task.finished = false ∧ task.cancelFlag = false)
      (by simp [CanReport, h])

/-- Nothing is published before the completion flag is won, and one outcome after that. -/
def PublishesOnce (task : SshTask Work) : Prop :=
  match task.worker with
  | .storing _ => task.finished = true ∧ task.published = 0
  | _ => task.published ≤ if task.finished then 1 else 0

theorem publishesOnce_spawned : (spawned : SshTask Work).PublishesOnce := Nat.le_refl 0

theorem PublishesOnce.published_le {task : SshTask Work} (h : task.PublishesOnce) :
    task.published ≤ 1 := by
  unfold PublishesOnce at h
  split at h
  · omega
  · split at h <;> omega

theorem PublishesOnce.works {task task' : SshTask Work} {outcome : Except String Work}
    (h : task.PublishesOnce) (hworks : task.works outcome = some task') : task'.PublishesOnce := by
  unfold SshTask.works at hworks
  split at hworks
  · rename_i hworker
    cases hworks
    simpa [PublishesOnce, hworker] using h
  · cases hworks

theorem PublishesOnce.cancel {task task' : SshTask Work} (h : task.PublishesOnce)
    (hcancel : task.cancel = some task') : task'.PublishesOnce := by
  unfold SshTask.cancel at hcancel
  split at hcancel
  · cases hcancel
  · cases hcancel
    exact h

theorem PublishesOnce.advance {task task' : SshTask Work} {stored : Option (Except String Work)}
    (h : task.PublishesOnce) (hadvance : task.advance = some (task', stored)) :
    task'.PublishesOnce := by
  unfold SshTask.advance at hadvance
  split at hadvance
  · rename_i outcome hworker
    simp only [PublishesOnce, hworker] at h
    split at hadvance <;> cases hadvance
    · show task.published ≤ 1
      split at h <;> omega
    · exact h
  · rename_i outcome hworker
    simp only [PublishesOnce, hworker] at h
    split at hadvance <;> cases hadvance
    · exact h
    · rename_i hunfinished
      rw [if_neg hunfinished] at h
      exact ⟨rfl, Nat.le_zero.mp h⟩
  · rename_i outcome hworker
    simp only [PublishesOnce, hworker] at h
    cases hadvance
    show task.published + 1 ≤ if task.finished then 1 else 0
    rw [h.1, h.2]
    exact Nat.le_refl 1
  · cases hadvance

theorem PublishesOnce.timeOut {task : SshTask Work} (h : task.PublishesOnce) (label : String) :
    (task.timeOut label).1.PublishesOnce := by
  unfold SshTask.timeOut
  split
  · exact h
  · rename_i hunfinished
    unfold PublishesOnce at h ⊢
    cases hworker : task.worker with
    | storing outcome =>
        rw [hworker] at h
        exact absurd h.1 hunfinished
    | _ =>
        rw [hworker] at h
        simp only [hunfinished] at h
        simpa using h

end SshTask

end Fulgur
