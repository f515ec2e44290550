import Fulgur.Library.Run
import Fulgur.State.Db.Legacy
import Mathlib.Logic.Function.Basic

/-! # The identities of the windows

A thread that needs an identity raises the last one to the clock and then counts
it up; other threads may come between the two steps. What is counted up is
greater than all that came before, until the largest 64-bit number is reached.
-/

namespace Fulgur

open LabelledRun

/-- What is left of a number in 64 bits, when it is one too large for them. -/
def wrapI64 (n : Int) : Int := if n < 2 ^ 63 then n else n - 2 ^ 64

/-- The nanoseconds since the epoch, if the clock is past it and they fit. -/
def clockNanos (reading : Option Nat) : Int :=
  match reading with
  | none => 0
  | some elapsed => if elapsed < 2 ^ 63 then elapsed else 0

namespace WindowIds

/-- Where a thread is in `allocate_id`, with the identities returned before it began. -/
inductive ThreadPhase where
  | idle
  | started (before : List Int)
  | clockRead (now : Int) (before : List Int)
  | raised (before : List Int)
deriving DecidableEq

structure ReturnedId where
  id : Int
  /-- The identities that were returned before the call started. -/
  before : List Int
deriving DecidableEq

end WindowIds

open WindowIds

/-- The threads of the process and the identity that was handed out last. -/
structure WindowIds (ι : Type) where
  last : Int
  threads : ι → ThreadPhase
  /-- Newest first. -/
  returned : List ReturnedId

inductive WindowIdAction (ι : Type) where
  | start (thread : ι)
  | readClock (thread : ι) (reading : Option Nat)
  | fetchMax (thread : ι)
  | fetchAdd (thread : ι)

namespace WindowIds

variable {ι : Type} [DecidableEq ι]

def start : WindowIds ι := ⟨0, fun _ => .idle, []⟩

def ids (s : WindowIds ι) : List Int := s.returned.map ReturnedId.id

def move (s : WindowIds ι) (thread : ι) (phase : ThreadPhase) : WindowIds ι :=
  { s with threads := Function.update s.threads thread phase }

def step (s : WindowIds ι) : WindowIdAction ι → Option (WindowIds ι)
  | .start thread =>
      match s.threads thread with
      | .idle => some (s.move thread (.started s.ids))
      | _ => none
  | .readClock thread reading =>
      match s.threads thread with
      | .started before => some (s.move thread (.clockRead (clockNanos reading) before))
      | _ => none
  | .fetchMax thread =>
      match s.threads thread with
      | .clockRead now before =>
          some ({ s with last := max s.last now }.move thread (.raised before))
      | _ => none
  | .fetchAdd thread =>
      match s.threads thread with
      | .raised before =>
          let next := wrapI64 (s.last + 1)
          some ({ s with last := next, returned := ⟨next, before⟩ :: s.returned }.move thread .idle)
      | _ => none

/-- No identity is returned twice, and each is greater than those returned before its call. -/
def Increasing (s : WindowIds ι) : Prop :=
  s.ids.Nodup ∧ ∀ returned ∈ s.returned, ∀ earlier ∈ returned.before, earlier < returned.id

/-- The last identity is not the largest number when it is counted up. -/
def BelowMax (s : WindowIds ι) : WindowIdAction ι → Prop
  | .fetchAdd _ => s.last < 2 ^ 63 - 1
  | _ => True

instance (s : WindowIds ι) (action : WindowIdAction ι) : Decidable (s.BelowMax action) :=
  match action with
  | .start _ => isTrue trivial
  | .readClock _ _ => isTrue trivial
  | .fetchMax _ => isTrue trivial
  | .fetchAdd _ => inferInstanceAs (Decidable (_ < _))

variable {s s' : WindowIds ι}

@[simp] theorem move_threads_self (s : WindowIds ι) (thread : ι) (phase : ThreadPhase) :
    (s.move thread phase).threads thread = phase := by
  simp [move]

theorem move_threads_of_ne {thread other : ι} (hother : other ≠ thread) (s : WindowIds ι)
    (phase : ThreadPhase) : (s.move thread phase).threads other = s.threads other := by
  simp [move, hother]

/-- What a step can be. -/
theorem step_cases {action : WindowIdAction ι} (hstep : s.step action = some s') :
    (∃ thread, action = .start thread ∧ s' = s.move thread (.started s.ids)) ∨
    (∃ thread reading before, action = .readClock thread reading ∧
      s.threads thread = .started before ∧
      s' = s.move thread (.clockRead (clockNanos reading) before)) ∨
    (∃ thread now before, action = .fetchMax thread ∧ s.threads thread = .clockRead now before ∧
      s' = { s with last := max s.last now }.move thread (.raised before)) ∨
    ∃ thread before, action = .fetchAdd thread ∧ s.threads thread = .raised before ∧
      s' = { s with
        last := wrapI64 (s.last + 1)
        returned := ⟨wrapI64 (s.last + 1), before⟩ :: s.returned }.move thread .idle := by
  cases action with
  | start thread =>
      simp only [step] at hstep
      split at hstep
      · exact Or.inl ⟨thread, rfl, (Option.some.inj hstep).symm⟩
      · cases hstep
  | readClock thread reading =>
      simp only [step] at hstep
      split at hstep
      · exact Or.inr (Or.inl ⟨thread, reading, _, rfl, ‹_›, (Option.some.inj hstep).symm⟩)
      · cases hstep
  | fetchMax thread =>
      simp only [step] at hstep
      split at hstep
      · exact Or.inr (Or.inr (Or.inl ⟨thread, _, _, rfl, ‹_›, (Option.some.inj hstep).symm⟩))
      · cases hstep
  | fetchAdd thread =>
      simp only [step] at hstep
      split at hstep
      · exact Or.inr (Or.inr (Or.inr ⟨thread, _, rfl, ‹_›, (Option.some.inj hstep).symm⟩))
      · cases hstep

/-! ## Identities increase -/

/-- The identities returned before the call that a thread is in. -/
def ThreadPhase.before : ThreadPhase → List Int
  | .idle => []
  | .started before => before
  | .clockRead _ before => before
  | .raised before => before

/-- What was returned is not above the last identity, and came in increasing order. -/
structure Bounded (s : WindowIds ι) : Prop where
  ordered : s.ids.Pairwise (· > ·)
  bounded : ∀ id ∈ s.ids, id ≤ s.last
  waiting : ∀ thread, ∀ id ∈ (s.threads thread).before, id ≤ s.last
  greater : ∀ returned ∈ s.returned, ∀ earlier ∈ returned.before, earlier < returned.id

omit [DecidableEq ι] in
theorem bounded_start : (start : WindowIds ι).Bounded :=
  ⟨List.Pairwise.nil, nofun, fun _ _ hid => absurd hid List.not_mem_nil, nofun⟩

omit [DecidableEq ι] in
theorem Bounded.increasing (h : s.Bounded) : s.Increasing :=
  ⟨h.ordered.imp fun hless => (Int.ne_of_lt hless).symm, h.greater⟩

omit [DecidableEq ι] in
theorem Bounded.raise (h : s.Bounded) {last : Int} (hlast : s.last ≤ last) :
    { s with last := last }.Bounded where
  ordered := h.ordered
  bounded := fun id hid => (h.bounded id hid).trans hlast
  waiting := fun thread id hid => (h.waiting thread id hid).trans hlast
  greater := h.greater

theorem Bounded.move (h : s.Bounded) (thread : ι) {phase : ThreadPhase}
    (hphase : ∀ id ∈ phase.before, id ≤ s.last) : (s.move thread phase).Bounded where
  ordered := h.ordered
  bounded := h.bounded
  waiting := by
    intro other id hid
    by_cases hother : other = thread
    · rw [hother, move_threads_self] at hid
      exact hphase id hid
    · rw [move_threads_of_ne hother] at hid
      exact h.waiting other id hid
  greater := h.greater

theorem Bounded.step {action : WindowIdAction ι} (h : s.Bounded) (hbelow : s.BelowMax action)
    (hstep : s.step action = some s') : s'.Bounded := by
  rcases step_cases hstep with ⟨thread, -, rfl⟩ | ⟨thread, _, before, -, hphase, rfl⟩ |
    ⟨thread, now, before, -, hphase, rfl⟩ | ⟨thread, before, rfl, hphase, rfl⟩
  · exact h.move thread h.bounded
  · have hwaiting := h.waiting thread
    rw [hphase] at hwaiting
    exact h.move thread hwaiting
  · have hwaiting := h.waiting thread
    rw [hphase] at hwaiting
    have hraise : s.last ≤ max s.last now := le_max_left s.last now
    exact (h.raise hraise).move thread fun id hid => (hwaiting id hid).trans hraise
  · have hwaiting := h.waiting thread
    rw [hphase] at hwaiting
    have hnext : wrapI64 (s.last + 1) = s.last + 1 := by
      have hlast : s.last < 2 ^ 63 - 1 := hbelow
      exact if_pos (by omega)
    rw [hnext]
    have hraised := h.raise (Int.le_of_lt (Int.lt_succ s.last))
    have hadded : Bounded { s with
        last := s.last + 1, returned := ⟨s.last + 1, before⟩ :: s.returned } := by
      refine ⟨?_, ?_, hraised.waiting, ?_⟩
      · exact List.pairwise_cons.mpr ⟨fun id hid => Int.lt_add_one_of_le (h.bounded id hid),
          h.ordered⟩
      · exact List.forall_mem_cons.mpr ⟨Int.le_refl _, hraised.bounded⟩
      · exact List.forall_mem_cons.mpr
          ⟨fun earlier hearlier => Int.lt_add_one_of_le (hwaiting earlier hearlier), h.greater⟩
    exact hadded.move thread fun _ hid => nomatch hid

/-! ## Past the largest number -/

/-- The last identity and the readings of the clock fit. -/
structure Fits (s : WindowIds ι) : Prop where
  last : s.last < 2 ^ 63
  reading : ∀ thread now before, s.threads thread = .clockRead now before → now < 2 ^ 63

theorem clockNanos_lt (reading : Option Nat) : clockNanos reading < 2 ^ 63 := by
  unfold clockNanos
  split
  · decide
  · split <;> omega

omit [DecidableEq ι] in
theorem fits_start : (start : WindowIds ι).Fits :=
    ⟨Int.pow_pos (by decide), fun _ _ _ hphase => nomatch hphase⟩

theorem Fits.move (h : s.Fits) (thread : ι) {phase : ThreadPhase}
    (hphase : ∀ now before, phase = .clockRead now before → now < 2 ^ 63) :
    (s.move thread phase).Fits where
  last := h.last
  reading := by
    intro other now before hread
    by_cases hother : other = thread
    · rw [hother, move_threads_self] at hread
      exact hphase now before hread
    · rw [move_threads_of_ne hother] at hread
      exact h.reading other now before hread

theorem Fits.step {action : WindowIdAction ι} (h : s.Fits) (hstep : s.step action = some s') :
    s'.Fits := by
  rcases step_cases hstep with ⟨thread, -, rfl⟩ | ⟨thread, reading, before, -, -, rfl⟩ |
    ⟨thread, now, before, -, hphase, rfl⟩ | ⟨thread, before, -, -, rfl⟩
  · exact h.move thread fun _ _ hread => nomatch hread
  · refine h.move thread fun now _ hread => ?_
    cases hread
    exact clockNanos_lt reading
  · have hraised : Fits { s with last := max s.last now } :=
      ⟨max_lt h.last (h.reading thread now before hphase), h.reading⟩
    exact hraised.move thread fun _ _ hread => nomatch hread
  · have hnext : wrapI64 (s.last + 1) < 2 ^ 63 := by
      have hlast := h.last
      unfold wrapI64
      split <;> omega
    have hadded : Fits { s with
        last := wrapI64 (s.last + 1)
        returned := ⟨wrapI64 (s.last + 1), before⟩ :: s.returned } := ⟨hnext, h.reading⟩
    exact hadded.move thread fun _ _ hread => nomatch hread

def callAlone (thread : ι) (reading : Option Nat) : List (WindowIdAction ι) :=
  [.start thread, .readClock thread reading, .fetchMax thread, .fetchAdd thread]

theorem run_callAlone {thread : ι} (hidle : s.threads thread = .idle) (reading : Option Nat) :
    ∃ s', run step s (callAlone thread reading) = some s' ∧
      s'.last = WindowState.allocateId s.last (clockNanos reading) ∧
      s'.returned = ⟨s'.last, s.ids⟩ :: s.returned := by
  simp only [callAlone, run_cons, run_nil, WindowIds.step, hidle, move_threads_self,
    Option.bind_some]
  exact ⟨_, rfl, rfl, rfl⟩

/-- Once the largest number was counted up, the clock can bring its successor back. -/
theorem exists_repeated {thread : ι} (hlast : s.last = 2 ^ 63 - 1)
    (hstep : s.step (.fetchAdd thread) = some s') :
    ∃ more s'', run step s' more = some s'' ∧ ¬s''.Increasing := by
  have hadded : s'.threads thread = .idle ∧ s'.last = -2 ^ 63 ∧ -2 ^ 63 ∈ s'.ids := by
    rcases step_cases hstep with ⟨_, haction, -⟩ | ⟨_, _, _, haction, -⟩ | ⟨_, _, _, haction, -⟩ |
      ⟨_, _, haction, -, rfl⟩
    · cases haction
    · cases haction
    · cases haction
    · cases haction
      rw [hlast]
      exact ⟨move_threads_self _ thread _, rfl, List.mem_cons_self⟩
  obtain ⟨hidle, hwrapped, hreturned⟩ := hadded
  obtain ⟨s'', hrun, hid, hnew⟩ := run_callAlone hidle (some (2 ^ 63 - 1))
  refine ⟨_, s'', hrun, fun hincreasing => ?_⟩
  have hsame : s''.last = -2 ^ 63 := by
    rw [hid, hwrapped]
    decide
  have hnodup := hincreasing.1
  rw [ids, hnew, List.map_cons, hsame] at hnodup
  exact (List.nodup_cons.mp hnodup).1 hreturned

/--
However the steps of the threads interleave, and whatever the clock reads: as long
as the last identity is below the largest number whenever it is counted up, all
identities are distinct and each is greater than those returned before its call.
Once it is counted up at the largest number, a reading of the clock can bring an
identity back.
-/
theorem window_ids_increase :
    (∀ (actions : List (WindowIdAction ι)) s, Guarded step BelowMax start actions →
      run step start actions = some s → s.Increasing) ∧
    ∀ (actions : List (WindowIdAction ι)) thread s s', run step start actions = some s →
      s.step (.fetchAdd thread) = some s' → ¬s.BelowMax (.fetchAdd thread) →
        ∃ more s'', run step s' more = some s'' ∧ ¬s''.Increasing := by
  refine ⟨fun actions s hguard hrun => ?_, fun actions thread s s' hrun hstep hmax => ?_⟩
  · exact (invariant_of_guarded Bounded (fun s action s' h hbelow hstep => h.step hbelow hstep)
      bounded_start hguard hrun).increasing
  · have hfits : s.Fits :=
      invariant_of_run Fits (fun s action s' h hstep => h.step hstep) fits_start hrun
    have hlast := hfits.last
    have hge : ¬s.last < 2 ^ 63 - 1 := hmax
    exact exists_repeated (by omega) hstep

/-- Two threads between whose steps the clock goes back. -/
def sampleActions : List (WindowIdAction Bool) :=
  [.start true, .readClock true (some 50), .start false, .fetchMax true, .readClock false (some 20),
    .fetchMax false, .fetchAdd false, .start false, .fetchAdd true, .readClock false none,
    .fetchMax false, .fetchAdd false]

theorem window_ids_increase_sample :
    ∃ s, run step start sampleActions = some s ∧ s.ids = [53, 52, 51] ∧ s.Increasing :=
  ⟨_, rfl, rfl, window_ids_increase.1 sampleActions _ (.of_guardedRun (by decide)) rfl⟩

/-- A clock that stands at the largest number of nanoseconds gives two calls one identity. -/
theorem window_ids_repeat :
    ¬∀ (actions : List (WindowIdAction Unit)) s, run step start actions = some s →
      s.Increasing := by
  intro hall
  have hincreasing := hall
    (callAlone () (some (2 ^ 63 - 1)) ++ callAlone () (some (2 ^ 63 - 1))) _ rfl
  exact absurd hincreasing.1 (by decide)

end WindowIds

end Fulgur
