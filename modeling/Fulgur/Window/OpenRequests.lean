import Fulgur.Window.RegistrySafety
import Mathlib.Logic.Function.Basic

/-! # Requests from outside

The operating system and other instances ask for files to be opened and for
commands to be run; their requests wait in one queue for each kind. A window
looks at the queues at the beginning of each of its frames, once its focus is
noted, and takes what waits there if it has the focus or nobody does.
-/

namespace Fulgur

open LabelledRun

inductive RequestKind where
  | file
  | command
deriving DecidableEq

/-- The windows and the queues, with what was asked for and which window took it. -/
structure OpenRequests where
  system : WindowSystem
  pending : RequestKind → List String
  asked : RequestKind → List String
  taken : RequestKind → List (Nat × String)

inductive RequestAction where
  | window (action : WindowAction)
  | ask (kind : RequestKind) (requests : List String)
  /-- The beginning of a frame; `locked` are the queues that somebody else holds. -/
  | frame (windowId : Nat) (isActive : Bool) (locked : RequestKind → Bool)

namespace OpenRequests

def start (hasSystemMenus : Bool) : OpenRequests where
  system := .start hasSystemMenus
  pending := fun _ => []
  asked := fun _ => []
  taken := fun _ => []

/-- Whether a window takes requests: nobody is known to have the focus, or it is this window. -/
def shouldProcess (m : WindowManager) (windowId : Nat) : Bool :=
  m.lastFocused.all fun id => id = windowId

/-- The common part of `process_pending_files_from_macos` and `process_pending_ipc_commands`. -/
def process (s : OpenRequests) (windowId : Nat) (locked : RequestKind → Bool) : OpenRequests :=
  if shouldProcess s.system.manager windowId then
    { s with
      pending := fun kind => if locked kind then s.pending kind else []
      taken := fun kind =>
        if locked kind then s.taken kind
        else s.taken kind ++ (s.pending kind).map fun request => (windowId, request) }
  else s

def step (s : OpenRequests) : RequestAction → Option OpenRequests
  | .window action => (s.system.step action).map fun system => { s with system := system }
  | .ask kind requests =>
      some { s with
        pending := Function.update s.pending kind (s.pending kind ++ requests)
        asked := Function.update s.asked kind (s.asked kind ++ requests) }
  | .frame windowId isActive locked =>
      if s.system.hasQuit then none
      else (s.system.find windowId).map fun _ =>
        { s with system := s.system.processFocus windowId isActive }.process windowId locked

/-- A request is taken once, in its turn. -/
def InOrder (s : OpenRequests) : Prop :=
  ∀ kind, (s.taken kind).map Prod.snd ++ s.pending kind = s.asked kind

/-- Open windows are registered, and what the manager keeps is about registered ones. -/
structure Registered (s : WindowSystem) : Prop where
  consistent : s.manager.Consistent
  registered : ∀ windowId ∈ s.openIds, windowId ∈ s.manager.windows

variable {s s' : OpenRequests}

theorem InOrder.process (h : s.InOrder) (windowId : Nat) (locked : RequestKind → Bool) :
    (s.process windowId locked).InOrder := by
  intro kind
  have hkind := h kind
  unfold OpenRequests.process
  split
  · by_cases hlocked : locked kind = true
    · simpa [hlocked] using hkind
    · simpa [hlocked, Function.comp_def] using hkind
  · exact hkind

theorem InOrder.step {action : RequestAction} (h : s.InOrder) (hstep : s.step action = some s') :
    s'.InOrder := by
  cases action with
  | window action =>
      obtain ⟨system, -, rfl⟩ := Option.map_eq_some_iff.mp hstep
      exact h
  | ask kind requests =>
      cases hstep
      intro other
      by_cases hkind : other = kind
      · subst hkind
        simpa [← List.append_assoc] using h other
      · simpa [hkind] using h other
  | frame windowId isActive locked =>
      simp only [OpenRequests.step] at hstep
      split at hstep
      · cases hstep
      · obtain ⟨w, -, rfl⟩ := Option.map_eq_some_iff.mp hstep
        have hfocused : { s with system := s.system.processFocus windowId isActive }.InOrder := h
        exact hfocused.process windowId locked

/-! ## The window that takes them -/

theorem registered_start (hasSystemMenus : Bool) : Registered (.start hasSystemMenus) where
  consistent := WindowManager.consistent_empty
  registered := fun _ hid => absurd hid List.not_mem_nil

theorem touched_processFocus (s : WindowSystem) (windowId : Nat) (isActive : Bool) :
    WindowManager.Touched s.manager (s.processFocus windowId isActive).manager := by
  unfold WindowSystem.processFocus
  split
  · exact WindowManager.touched_setFocused s.manager windowId
  · exact WindowManager.Touched.refl _

theorem openIds_processFocus (s : WindowSystem) (windowId : Nat) (isActive : Bool) :
    (s.processFocus windowId isActive).openIds = s.openIds := by
  unfold WindowSystem.processFocus
  split <;> rfl

theorem Registered.processFocus {s : WindowSystem} (h : Registered s) (windowId : Nat)
    (isActive : Bool) : Registered (s.processFocus windowId isActive) := by
  have htouched := touched_processFocus s windowId isActive
  refine ⟨htouched.2 h.consistent, fun id hid => ?_⟩
  rw [openIds_processFocus] at hid
  rw [htouched.1]
  exact h.registered id hid

theorem Registered.moves {s s' : WindowSystem} (h : Registered s) (hmoves : s.Moves s') :
    Registered s' := by
  cases hmoves with
  | stays hids _ hmanager =>
      refine ⟨hmanager.2 h.consistent, fun id hid => ?_⟩
      rw [hmanager.1]
      exact h.registered id (hids ▸ hid)
  | opens hids _ hmanager =>
      refine ⟨hmanager ▸ h.consistent.register _, fun id hid => ?_⟩
      rw [hmanager, WindowManager.mem_windows_register]
      rw [hids, List.mem_append, List.mem_singleton] at hid
      exact hid.symm.imp_right (h.registered id)
  | closes windowId first hids _ hmanager =>
      refine ⟨hmanager ▸ h.consistent.unregister _ _, fun id hid => ?_⟩
      rw [hids, List.mem_filter, decide_eq_true_eq] at hid
      rw [hmanager, WindowManager.mem_windows_unregister]
      exact ⟨h.registered id hid.1, hid.2⟩

theorem Registered.step {s s' : WindowSystem} {action : WindowAction} (h : Registered s)
    (hstep : s.step action = some s') : Registered s' := by
  by_cases hkeeps : s.KeepsATab action
  · exact h.moves (WindowSystem.moves_step hkeeps hstep)
  · obtain ⟨t, windowId, ht, hvanishes⟩ := WindowSystem.vanishes_step hkeeps
    rw [hstep] at ht
    cases ht
    refine ⟨hvanishes.manager.2 h.consistent, fun id hid => ?_⟩
    rw [hvanishes.ids] at hid
    rw [hvanishes.manager.1]
    exact h.registered id (List.mem_of_mem_filter hid)

theorem Registered.exists_focused {s : WindowSystem} (h : Registered s) {windowId : Nat}
    (hopen : windowId ∈ s.openIds) : ∃ focused, s.manager.lastFocused = some focused := by
  have hne := h.consistent.hasFocused (List.ne_nil_of_mem (h.registered windowId hopen))
  exact Option.ne_none_iff_exists'.mp hne

theorem Registered.focused_processFocus {s : WindowSystem} (h : Registered s) {windowId : Nat}
    (hopen : windowId ∈ s.openIds) :
    (s.processFocus windowId true).manager.lastFocused = some windowId := by
  unfold WindowSystem.processFocus
  by_cases hfocused : s.manager.lastFocused = some windowId
  · simp [hfocused]
  · simp [hfocused, WindowManager.setFocused, h.registered windowId hopen]

theorem processFocus_inactive (s : WindowSystem) (windowId : Nat) :
    s.processFocus windowId false = s := by
  simp [WindowSystem.processFocus]

theorem shouldProcess_iff {m : WindowManager} {focused windowId : Nat}
    (h : m.lastFocused = some focused) : shouldProcess m windowId = true ↔ focused = windowId := by
  simp [shouldProcess, h]

theorem exists_window {s : WindowSystem} {windowId : Nat} :
    windowId ∈ s.openIds ↔ ∃ w, s.find windowId = some w := by
  constructor
  · intro hopen
    obtain ⟨w, hw, hid⟩ := List.mem_map.mp hopen
    have hfound : (s.find windowId).isSome = true :=
      List.find?_isSome.mpr ⟨w, hw, by simpa using hid⟩
    exact Option.isSome_iff_exists.mp hfound
  · intro hfound
    obtain ⟨w, hfind⟩ := hfound
    obtain ⟨hw, hid⟩ := WindowSystem.find_spec hfind
    exact List.mem_map.mpr ⟨w, hw, hid⟩

/-- Everything that waits goes to this window. -/
def TakesAll (s : OpenRequests) (windowId : Nat) (isActive : Bool) : Prop :=
  ∃ s', s.step (.frame windowId isActive fun _ => false) = some s' ∧
    ∀ kind, s'.pending kind = [] ∧
      s'.taken kind = s.taken kind ++ (s.pending kind).map fun request => (windowId, request)

theorem takesAll_of_shouldProcess {windowId : Nat} {isActive : Bool}
    (hquit : s.system.hasQuit = false) (hopen : windowId ∈ s.system.openIds)
    (hprocess : shouldProcess (s.system.processFocus windowId isActive).manager windowId = true) :
    s.TakesAll windowId isActive := by
  obtain ⟨w, hw⟩ := exists_window.mp hopen
  refine ⟨{ s with system := s.system.processFocus windowId isActive }.process windowId
    fun _ => false, ?_, ?_⟩
  · simp only [OpenRequests.step, hquit, hw, Option.map_some]
    rfl
  · intro kind
    simp [process, hprocess]

theorem frame_inactive {windowId focused : Nat} {locked : RequestKind → Bool} {kind : RequestKind}
    (hfocused : s.system.manager.lastFocused = some focused)
    (hstep : s.step (.frame windowId false locked) = some s')
    (htaken : s'.taken kind ≠ s.taken kind) :
    focused = windowId := by
  simp only [OpenRequests.step, processFocus_inactive] at hstep
  split at hstep
  · cases hstep
  · obtain ⟨w, -, rfl⟩ := Option.map_eq_some_iff.mp hstep
    by_contra hother
    have hnot : ¬shouldProcess s.system.manager windowId = true :=
      fun h => hother ((shouldProcess_iff hfocused).mp h)
    simp [process, hnot] at htaken

/-- The guard under which no window goes by itself. -/
def KeepsATab (s : OpenRequests) : RequestAction → Prop
  | .window action => s.system.KeepsATab action
  | _ => True

theorem system_step {action : RequestAction} (hstep : s.step action = some s') :
    (∃ taken, action = .window taken ∧ s.system.step taken = some s'.system) ∨
    s'.system = s.system ∨
    ∃ windowId isActive, s'.system = s.system.processFocus windowId isActive := by
  cases action with
  | window action =>
      obtain ⟨system, hsystem, rfl⟩ := Option.map_eq_some_iff.mp hstep
      exact Or.inl ⟨action, rfl, hsystem⟩
  | ask kind requests =>
      cases hstep
      exact Or.inr (Or.inl rfl)
  | frame windowId isActive locked =>
      simp only [OpenRequests.step] at hstep
      split at hstep
      · cases hstep
      · obtain ⟨w, -, rfl⟩ := Option.map_eq_some_iff.mp hstep
        refine Or.inr (Or.inr ⟨windowId, isActive, ?_⟩)
        unfold process
        split <;> rfl

theorem moves_processFocus (s : WindowSystem) (windowId : Nat) (isActive : Bool) :
    s.Moves (s.processFocus windowId isActive) := by
  refine .stays (openIds_processFocus s windowId isActive) ?_
    (touched_processFocus s windowId isActive)
  unfold WindowSystem.processFocus
  split <;> rfl

theorem registered_step {action : RequestAction} (h : Registered s.system)
    (hstep : s.step action = some s') : Registered s'.system := by
  rcases system_step hstep with ⟨taken, -, hsystem⟩ | hsame | ⟨windowId, isActive, hfocus⟩
  · exact h.step hsystem
  · exact hsame ▸ h
  · exact hfocus ▸ h.processFocus windowId isActive

theorem inStep_step {action : RequestAction} (h : s.system.InStep ∧ s.system.Counted)
    (hkeeps : s.KeepsATab action) (hstep : s.step action = some s') :
    s'.system.InStep ∧ s'.system.Counted := by
  have hmoves : s.system.Moves s'.system := by
    rcases system_step hstep with ⟨taken, rfl, hsystem⟩ | hsame | ⟨windowId, isActive, hfocus⟩
    · exact WindowSystem.moves_step hkeeps hsystem
    · exact hsame ▸ WindowSystem.moves_refl s.system
    · exact hfocus ▸ moves_processFocus s.system windowId isActive
  exact ⟨h.1.moves h.2 hmoves, h.2.moves hmoves⟩

end OpenRequests

open OpenRequests

/--
However windows open, close, send tabs to one another and draw their frames while
requests come in: every request is taken once, in its turn. The next frame of an
active window takes all that wait, if it finds the queues unlocked. A window that is
not active takes requests only when it is the last that had the focus; as long as no
window was taken away with its last tab, that one is open, and its next frame takes
all that wait as well.
-/
theorem requests_taken_once {hasSystemMenus : Bool} {actions : List RequestAction}
    {s : OpenRequests} (hrun : run step (.start hasSystemMenus) actions = some s) :
    s.InOrder ∧
    (s.system.hasQuit = false → ∀ windowId ∈ s.system.openIds, s.TakesAll windowId true) ∧
    (∀ windowId locked s' kind, s.step (.frame windowId false locked) = some s' →
      s'.taken kind ≠ s.taken kind → s.system.manager.lastFocused = some windowId) ∧
    (Guarded step KeepsATab (.start hasSystemMenus) actions → s.system.hasQuit = false →
      s.system.openIds ≠ [] → ∃ windowId ∈ s.system.openIds,
        s.system.manager.lastFocused = some windowId ∧ s.TakesAll windowId false) := by
  have hregistered : Registered s.system :=
    invariant_of_run (fun s => Registered s.system) (fun _ _ _ h hstep => registered_step h hstep)
      (registered_start hasSystemMenus) hrun
  refine ⟨?_, ?_, ?_, ?_⟩
  · exact invariant_of_run InOrder (fun _ _ _ h hstep => h.step hstep) (fun _ => rfl) hrun
  · intro hquit windowId hopen
    exact takesAll_of_shouldProcess hquit hopen
      ((shouldProcess_iff (hregistered.focused_processFocus hopen)).mpr rfl)
  · intro windowId locked s' kind hstep htaken
    have hopen : windowId ∈ s.system.openIds := by
      simp only [OpenRequests.step] at hstep
      split at hstep
      · cases hstep
      · obtain ⟨w, hw, -⟩ := Option.map_eq_some_iff.mp hstep
        exact exists_window.mpr ⟨w, hw⟩
    obtain ⟨focused, hfocused⟩ := hregistered.exists_focused hopen
    rw [hfocused, frame_inactive hfocused hstep htaken]
  · intro hguard hquit hopen
    have hinStep := invariant_of_guarded (fun s => s.system.InStep ∧ s.system.Counted)
      (fun _ _ _ h hkeeps hstep => inStep_step h hkeeps hstep)
      (WindowSystem.inStep_start hasSystemMenus) hguard hrun
    obtain ⟨windowId, hwindow⟩ := List.exists_mem_of_ne_nil _ hopen
    obtain ⟨focused, hfocused⟩ := hregistered.exists_focused hwindow
    have hfocusedOpen : focused ∈ s.system.openIds :=
      (hinStep.1.registered focused).mp (hregistered.consistent.focused focused hfocused)
    refine ⟨focused, hfocusedOpen, hfocused, takesAll_of_shouldProcess hquit hfocusedOpen ?_⟩
    rw [processFocus_inactive]
    exact (shouldProcess_iff hfocused).mpr rfl

/-- Two windows; the first one gets the focus back before a file is asked for. -/
def sampleRequests : List RequestAction :=
  [.window (.createWindow WindowSystem.sampleStrip true),
    .window (.createWindow WindowSystem.sampleStrip true),
    .frame 0 true fun _ => false, .ask .file ["/a.txt"], .frame 1 false fun _ => false]

theorem requests_taken_once_sample :
    ∃ s, run step (.start false) sampleRequests = some s ∧ s.pending .file = ["/a.txt"] ∧
      (s.taken .file).map Prod.snd ++ s.pending .file = s.asked .file := by
  obtain ⟨s, hrun, hpending⟩ :=
    exists_of_any (P := fun s : OpenRequests => s.pending .file = ["/a.txt"])
    (by decide +kernel : (run step (.start false) sampleRequests).any
      (fun s => decide (s.pending .file = ["/a.txt"])) = true)
  exact ⟨s, hrun, hpending, (requests_taken_once hrun).1 .file⟩

end Fulgur
