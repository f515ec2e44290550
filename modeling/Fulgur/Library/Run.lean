import Mathlib.Data.List.Basic
import Mathlib.Logic.Function.Basic

/-! # Runs of a labelled step function

A system is a partial step function from a state and a label. A run folds it
over a list of labels; a label that is not enabled ends the run with `none`. A
guard restricts the states in which each label may be taken, and an invariant
that every guarded step keeps holds after every guarded run.
-/

namespace LabelledRun

variable {σ α : Type}

/-- Fold a partial step function over a list of labels. -/
def run (step : σ → α → Option σ) : σ → List α → Option σ
  | s, [] => some s
  | s, a :: as => (step s a).bind fun s' => run step s' as

/-- Every label of the run is taken in a state that meets the guard. -/
def Guarded (step : σ → α → Option σ) (guard : σ → α → Prop) : σ → List α → Prop
  | _, [] => True
  | s, a :: as => guard s a ∧ ∀ s', step s a = some s' → Guarded step guard s' as

variable {step : σ → α → Option σ} {guard : σ → α → Prop}

@[simp] theorem run_nil (s : σ) : run step s [] = some s := rfl

theorem run_cons (s : σ) (a : α) (as : List α) :
    run step s (a :: as) = (step s a).bind fun s' => run step s' as := rfl

/-- A nonempty run that ends takes its first step and runs on from there. -/
theorem run_cons_eq_some {s t : σ} {a : α} {as : List α} (h : run step s (a :: as) = some t) :
    ∃ s', step s a = some s' ∧ run step s' as = some t := by
  rw [run_cons] at h
  cases hs : step s a with
  | none => simp [hs] at h
  | some s' => exact ⟨s', rfl, by simpa [hs] using h⟩

/-- Split a run at any boundary of its label list. -/
theorem run_append (s : σ) (as bs : List α) :
    run step s (as ++ bs) = (run step s as).bind fun s' => run step s' bs := by
  induction as generalizing s with
  | nil => simp
  | cons a as ih =>
      rw [List.cons_append, run_cons, run_cons]
      cases step s a with
      | none => rfl
      | some s' => simpa using ih s'

theorem Guarded.of_forall (hguard : ∀ s a, guard s a) (s : σ) (as : List α) :
    Guarded step guard s as := by
  induction as generalizing s with
  | nil => trivial
  | cons a as ih => exact ⟨hguard s a, fun s' _ => ih s'⟩

/-- A guard that only looks at the label is met when every label meets it. -/
theorem Guarded.of_labels {allowed : α → Prop} {as : List α} (hall : ∀ a ∈ as, allowed a) (s : σ) :
    Guarded step (fun _ a => allowed a) s as := by
  induction as generalizing s with
  | nil => trivial
  | cons a as ih =>
      refine ⟨hall a (by simp), fun s' _ => ih (fun b hb => hall b ?_) s'⟩
      exact List.mem_cons_of_mem a hb

/-- Check a guard along the states that a run really goes through. -/
def guardedRun (step : σ → α → Option σ) (guard : σ → α → Prop)
    [∀ s a, Decidable (guard s a)] : σ → List α → Bool
  | _, [] => true
  | s, a :: as =>
      decide (guard s a) && match step s a with
        | none => true
        | some s' => guardedRun step guard s' as

theorem Guarded.of_guardedRun [∀ s a, Decidable (guard s a)] {s : σ} {as : List α}
    (h : guardedRun step guard s as = true) : Guarded step guard s as := by
  induction as generalizing s with
  | nil => trivial
  | cons a as ih =>
      rw [guardedRun, Bool.and_eq_true, decide_eq_true_eq] at h
      refine ⟨h.1, fun s' hs => ih ?_⟩
      simpa [hs] using h.2

theorem Guarded.guardedRun [∀ s a, Decidable (guard s a)] {s : σ} {as : List α}
    (h : Guarded step guard s as) : guardedRun step guard s as = true := by
  induction as generalizing s with
  | nil => rfl
  | cons a as ih =>
      rw [LabelledRun.guardedRun, Bool.and_eq_true, decide_eq_true_eq]
      refine ⟨h.1, ?_⟩
      cases hs : step s a with
      | none => rfl
      | some s' => exact ih (h.2 s' hs)

/-- A state that a run ends in is found by evaluating the run. -/
theorem exists_of_any {P : σ → Prop} [DecidablePred P] {ran : Option σ}
    (h : ran.any (fun s => decide (P s)) = true) : ∃ s, ran = some s ∧ P s := by
  obtain ⟨s, hran, hs⟩ := (Option.any_eq_true _ _).mp h
  exact ⟨s, hran, of_decide_eq_true hs⟩

/-- The invariant rule: what every guarded step keeps, every guarded run keeps. -/
theorem invariant_of_guarded (inv : σ → Prop)
    (hstep : ∀ s a s', inv s → guard s a → step s a = some s' → inv s')
    {s t : σ} {as : List α} (hs : inv s) (hguard : Guarded step guard s as)
    (hrun : run step s as = some t) : inv t := by
  induction as generalizing s with
  | nil =>
      cases hrun
      exact hs
  | cons a as ih =>
      obtain ⟨s', ha, hrest⟩ := run_cons_eq_some hrun
      exact ih (hstep s a s' hs hguard.1 ha) (hguard.2 s' ha) hrest

/-- In the states of an invariant that guarded steps keep, what the guard implies guards too. -/
theorem Guarded.of_invariant {guard' : σ → α → Prop} (inv : σ → Prop)
    (hstep : ∀ s a s', inv s → guard s a → step s a = some s' → inv s')
    (himp : ∀ s a, inv s → guard s a → guard' s a) {s : σ} {as : List α} (hs : inv s)
    (h : Guarded step guard s as) : Guarded step guard' s as := by
  induction as generalizing s with
  | nil => trivial
  | cons a as ih =>
      exact ⟨himp s a hs h.1, fun s' hs' => ih (hstep s a s' hs h.1 hs') (h.2 s' hs')⟩

/-- The invariant rule without a guard. -/
theorem invariant_of_run (inv : σ → Prop) (hstep : ∀ s a s', inv s → step s a = some s' → inv s')
    {s t : σ} {as : List α} (hs : inv s) (hrun : run step s as = some t) : inv t :=
  invariant_of_guarded inv (fun s a s' hi _ h => hstep s a s' hi h) hs
    (Guarded.of_forall (fun _ _ => trivial) s as : Guarded step (fun _ _ => True) s as) hrun

/-- Where every step in the states of an invariant lowers a measure, runs are no longer than it. -/
theorem length_add_le_of_run (inv : σ → Prop) (measure : σ → Nat)
    (hstep : ∀ s a s', inv s → step s a = some s' → inv s' ∧ measure s' < measure s)
    {s t : σ} {as : List α} (hs : inv s) (hrun : run step s as = some t) :
    as.length + measure t ≤ measure s := by
  induction as generalizing s with
  | nil =>
      cases hrun
      simp
  | cons a as ih =>
      obtain ⟨s', ha, hrest⟩ := run_cons_eq_some hrun
      obtain ⟨hs', hlt⟩ := hstep s a s' hs ha
      have hle := ih hs' hrest
      simp only [List.length_cons]
      omega

/-- Every step the run takes ends in a state that the step's label asks for. -/
def After (step : σ → α → Option σ) (post : α → σ → Prop) : σ → List α → Prop
  | _, [] => True
  | s, a :: as => ∀ s', step s a = some s' → post a s' ∧ After step post s' as

/-- Where guarded steps keep the invariant and end as asked, so does each step of a guarded run. -/
theorem after_of_guarded {post : α → σ → Prop} (inv : σ → Prop)
    (hstep : ∀ s a s', inv s → step s a = some s' → inv s')
    (hpost : ∀ s a s', inv s → guard s a → step s a = some s' → post a s')
    {s : σ} (hs : inv s) {as : List α} (hguard : Guarded step guard s as) :
    After step post s as := by
  induction as generalizing s with
  | nil => trivial
  | cons a as ih =>
      intro s' hs'
      exact ⟨hpost s a s' hs hguard.1 hs', ih (hstep s a s' hs hs') (hguard.2 s' hs')⟩

/--
The exactness rule: where steps that end as asked keep the invariant, and the
guard of a label says in every state of it exactly when its steps end so, a run
is guarded exactly when each of its steps ends as asked.
-/
theorem after_iff_guarded {post : α → σ → Prop} (inv : σ → Prop)
    (hstep : ∀ s a s', inv s → step s a = some s' → post a s' → inv s')
    (hexact : ∀ s a, inv s → (guard s a ↔ ∀ s', step s a = some s' → post a s'))
    {s : σ} (hs : inv s) (as : List α) : After step post s as ↔ Guarded step guard s as := by
  induction as generalizing s with
  | nil => exact Iff.rfl
  | cons a as ih =>
      constructor
      · intro h
        refine ⟨(hexact s a hs).mpr fun s' hs' => (h s' hs').1, fun s' hs' => ?_⟩
        exact (ih (hstep s a s' hs hs' (h s' hs').1)).mp (h s' hs').2
      · intro h s' hs'
        have hpost := (hexact s a hs).mp h.1 s' hs'
        exact ⟨hpost, (ih (hstep s a s' hs hs' hpost)).mpr (h.2 s' hs')⟩

/-- Some label of the run is taken in a state that meets the condition. -/
def Sometime (step : σ → α → Option σ) (cond : σ → α → Prop) : σ → List α → Prop
  | _, [] => False
  | s, a :: as => cond s a ∨ ∃ s', step s a = some s' ∧ Sometime step cond s' as

/--
The flag rule: where a guarded step leaves a flag raised exactly when it was, or
when its label raises it there, a guarded run ends with the flag raised exactly
when it began so or one of its labels raised it.
-/
theorem raised_iff_sometime {raises : σ → α → Prop} (inv flag : σ → Prop)
    (hstep : ∀ s a s', inv s → guard s a → step s a = some s' →
      inv s' ∧ (flag s' ↔ flag s ∨ raises s a))
    {s t : σ} {as : List α} (hs : inv s) (hguard : Guarded step guard s as)
    (hrun : run step s as = some t) : flag t ↔ flag s ∨ Sometime step raises s as := by
  induction as generalizing s with
  | nil =>
      cases hrun
      simp [Sometime]
  | cons a as ih =>
      obtain ⟨s', ha, hrest⟩ := run_cons_eq_some hrun
      obtain ⟨hs', hflag⟩ := hstep s a s' hs hguard.1 ha
      rw [ih hs' (hguard.2 s' ha) hrest, hflag, or_assoc]
      simp [Sometime, ha]

/-! ## Families of systems -/

variable {ι : Type} [DecidableEq ι]

/-- One system of a family takes a step, the others stand still. -/
def stepAt (step : σ → α → Option σ) (s : ι → σ) (a : ι × α) : Option (ι → σ) :=
  (step (s a.1) a.2).map (Function.update s a.1)

/-- What guarded steps keep in one system, guarded runs of a family keep in every system. -/
theorem invariant_of_guarded_members (inv : σ → Prop)
    (hstep : ∀ s a s', inv s → guard s a → step s a = some s' → inv s') {s t : ι → σ}
    {as : List (ι × α)} (hs : ∀ i, inv (s i))
    (hguard : Guarded (stepAt step) (fun s a => guard (s a.1) a.2) s as)
    (hrun : run (stepAt step) s as = some t) (i : ι) : inv (t i) := by
  refine invariant_of_guarded (fun s => ∀ i, inv (s i)) ?_ hs hguard hrun i
  intro s a s' hinv ha hs' j
  obtain ⟨member, hmember, rfl⟩ := Option.map_eq_some_iff.mp hs'
  by_cases hj : j = a.1
  · subst hj
    rw [Function.update_self]
    exact hstep (s a.1) a.2 member (hinv a.1) ha hmember
  · rw [Function.update_of_ne hj]
    exact hinv j

/-- What every system of a family keeps by itself holds of all of them after any interleaving. -/
theorem invariant_of_members (inv : σ → Prop)
    (hstep : ∀ s a s', inv s → step s a = some s' → inv s') {s t : ι → σ} {as : List (ι × α)}
    (hs : ∀ i, inv (s i)) (hrun : run (stepAt step) s as = some t) (i : ι) : inv (t i) :=
  @invariant_of_guarded_members σ α step (fun _ _ => True) ι _ inv
    (fun s a s' hi _ h => hstep s a s' hi h) s t as hs
    (Guarded.of_forall (fun _ _ => trivial) s as) hrun i

end LabelledRun
