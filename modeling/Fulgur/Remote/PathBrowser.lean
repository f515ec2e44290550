import Fulgur.Library.Run
import Mathlib.Data.List.Nodup
import Mathlib.Data.List.Perm.Basic

/-! # The listing of the remote path browser

Each change of the path starts a timer, and the last timer that runs out asks for
a listing. The request gets a number, and a background task of its own sends it
to the worker. The worker drops every request that another one stands behind, and
answers the one that is left. An answer is shown when its number is the last.
-/

namespace Fulgur

open LabelledRun

def BROWSER_SUPERSEDED_MESSAGE : String := "Remote browser request superseded by newer input"

/-- A request with the number that its task compares when the answer is there. -/
structure BrowserListRequest where
  generation : UInt64
  rawInput : String
deriving DecidableEq

structure BrowserAnswer (Entry : Type) where
  generation : UInt64
  result : Except String (List Entry)

/-- The worker thread: it waits, or holds the latest request, or lists for it. -/
inductive BrowserWorker where
  | waiting
  | draining (latest : BrowserListRequest)
  | listing (request : BrowserListRequest)
deriving DecidableEq

def BrowserWorker.requests : BrowserWorker → List BrowserListRequest
  | .waiting => []
  | .draining request => [request]
  | .listing request => [request]

structure RemotePathBrowser (Entry : Type) where
  input : String
  entries : List Entry
  notice : Option String
  errorMessage : Option String
  isLoading : Bool
  debounceGeneration : UInt64
  refreshGeneration : UInt64
  /-- The generations of the timers that are running. -/
  timers : List UInt64
  /-- The requests whose tasks have not sent them yet. -/
  unsent : List BrowserListRequest
  queue : List BrowserListRequest
  worker : BrowserWorker
  /-- The answers that their tasks have not brought to the UI thread yet. -/
  answered : List (BrowserAnswer Entry)
  /-- The input of the last request, for the record. -/
  lastDispatched : Option String
  /-- What the worker listed for the request with the last number, and for which input. -/
  computed : Option (String × Except String (List Entry))

inductive BrowserAction (Entry : Type) where
  | typePath (path : String)
  | timer (index : Nat)
  /-- The task of an unsent request sends it. -/
  | send (index : Nat)
  /-- The worker takes a request, after it waited for one or to drop the one it holds. -/
  | receive
  | supersede
  | startListing
  | answer (result : Except String (List Entry))
  /-- The task of an answered request reaches the UI thread. -/
  | arrive (index : Nat)

namespace RemotePathBrowser

variable {Entry : Type}

/-- `schedule_refresh` after a change of the input. -/
def typePath (b : RemotePathBrowser Entry) (path : String) : RemotePathBrowser Entry :=
  { b with
    input := path
    debounceGeneration := b.debounceGeneration + 1
    timers := b.timers ++ [b.debounceGeneration + 1] }

def dispatchRefresh (b : RemotePathBrowser Entry) : RemotePathBrowser Entry :=
  { b with
    refreshGeneration := b.refreshGeneration + 1
    isLoading := true
    errorMessage := none
    notice := none
    unsent := b.unsent ++ [⟨b.refreshGeneration + 1, b.input⟩]
    lastDispatched := some b.input
    computed := none }

/-- An answer is shown unless its request is not the last one. -/
def processAnswer (b : RemotePathBrowser Entry) (answer : BrowserAnswer Entry) :
    RemotePathBrowser Entry :=
  if b.refreshGeneration ≠ answer.generation then b
  else
    match answer.result with
    | .ok entries => { b with isLoading := false, entries := entries, errorMessage := none }
    | .error message => { b with isLoading := false, entries := [], errorMessage := some message }

def answer (b : RemotePathBrowser Entry) (request : BrowserListRequest)
    (result : Except String (List Entry)) : RemotePathBrowser Entry :=
  { b with
    worker := .waiting
    answered := b.answered ++ [⟨request.generation, result⟩]
    computed :=
      if request.generation = b.refreshGeneration then some (request.rawInput, result)
      else b.computed }

def step (b : RemotePathBrowser Entry) : BrowserAction Entry → Option (RemotePathBrowser Entry)
  | .typePath path => some (b.typePath path)
  | .timer index =>
      b.timers[index]?.map fun generation =>
        let fired := { b with timers := b.timers.eraseIdx index }
        if b.debounceGeneration ≠ generation then fired else fired.dispatchRefresh
  | .send index =>
      b.unsent[index]?.map fun request =>
        { b with unsent := b.unsent.eraseIdx index, queue := b.queue ++ [request] }
  | .receive =>
      match b.worker, b.queue with
      | .waiting, request :: queue => some { b with worker := .draining request, queue := queue }
      | _, _ => none
  | .supersede =>
      match b.worker, b.queue with
      | .draining latest, next :: queue => some { b with
          worker := .draining next
          queue := queue
          answered := b.answered ++ [⟨latest.generation, .error BROWSER_SUPERSEDED_MESSAGE⟩] }
      | _, _ => none
  | .startListing =>
      match b.worker, b.queue with
      | .draining latest, [] => some { b with worker := .listing latest }
      | _, _ => none
  | .answer result =>
      match b.worker with
      | .listing request => some (b.answer request result)
      | _ => none
  | .arrive index =>
      b.answered[index]?.map fun answer =>
        { b with answered := b.answered.eraseIdx index }.processAnswer answer

/-- A browser that is opened; without entries it asks for a listing at once. -/
def opened (initialPath : String) (initialEntries : List Entry) (notice : Option String) :
    RemotePathBrowser Entry :=
  let browser : RemotePathBrowser Entry :=
    { input := initialPath
      entries := initialEntries
      notice := notice
      errorMessage := none
      isLoading := false
      debounceGeneration := 0
      refreshGeneration := 0
      timers := []
      unsent := []
      queue := []
      worker := .waiting
      answered := []
      lastDispatched := none
      computed := none }
  if initialEntries.isEmpty then browser.dispatchRefresh else browser

/-! ## What is shown at rest -/

/-- Every request was answered or superseded, and every result processed. -/
structure Settled (b : RemotePathBrowser Entry) : Prop where
  unsent : b.unsent = []
  queue : b.queue = []
  worker : b.worker = .waiting
  answered : b.answered = []

/-- The listing or the error of a result is shown. -/
def Shows (b : RemotePathBrowser Entry) (result : Except String (List Entry)) : Prop :=
  b.isLoading = false ∧
    match result with
    | .ok entries => b.entries = entries ∧ b.errorMessage = none
    | .error message => b.entries = [] ∧ b.errorMessage = some message

/-- What is shown was computed for the input that was dispatched last. -/
def ShowsLast (b : RemotePathBrowser Entry) : Prop :=
  ∃ input result, b.lastDispatched = some input ∧ b.computed = some (input, result) ∧ b.Shows result

/-- The requests that are on their way to an answer. -/
def requests (b : RemotePathBrowser Entry) : List BrowserListRequest :=
  b.unsent ++ b.queue ++ b.worker.requests

/-- The numbers of the requests that were not processed yet. -/
def numbers (b : RemotePathBrowser Entry) : List UInt64 :=
  b.requests.map (·.generation) ++ b.answered.map (·.generation)

/--
What a step must be like: a request that the worker drops is not the last one,
and no request that is not processed yet has the number of a new one.
-/
def KeepsLast (b : RemotePathBrowser Entry) : BrowserAction Entry → Prop
  | .timer index => b.timers[index]? = some b.debounceGeneration →
      b.refreshGeneration + 1 ∉ b.numbers
  | .supersede => ∀ latest ∈ b.worker.requests, latest.generation ≠ b.refreshGeneration
  | _ => True

instance (b : RemotePathBrowser Entry) (action : BrowserAction Entry) :
    Decidable (b.KeepsLast action) :=
  match action with
  | .timer _ => inferInstanceAs (Decidable (_ = _ → _ ∉ _))
  | .supersede => inferInstanceAs (Decidable (∀ latest ∈ b.worker.requests, _ ≠ _))
  | .typePath _ => isTrue trivial
  | .send _ => isTrue trivial
  | .receive => isTrue trivial
  | .startListing => isTrue trivial
  | .answer _ => isTrue trivial
  | .arrive _ => isTrue trivial

/-- The last request is on its way, or answered with what was computed for it, or shown. -/
structure FollowsLast (b : RemotePathBrowser Entry) : Prop where
  numbers : b.numbers.Nodup
  last : ∀ input, b.lastDispatched = some input →
    (⟨b.refreshGeneration, input⟩ ∈ b.requests) ∨
      (∃ result, ⟨b.refreshGeneration, result⟩ ∈ b.answered ∧ b.computed = some (input, result)) ∨
      (b.refreshGeneration ∉ b.numbers ∧ b.ShowsLast)

namespace FollowsLast

variable {b b' : RemotePathBrowser Entry}

theorem start (input : String) (entries : List Entry) (notice : Option String) :
    FollowsLast (opened input entries notice) := by
  unfold opened
  split
  · refine ⟨?_, fun last hlast => .inl ?_⟩
    · exact List.nodup_singleton _
    · cases hlast
      exact List.mem_singleton_self _
  · exact ⟨List.nodup_nil, fun last hlast => by cases hlast⟩

theorem moved (h : FollowsLast b) {unsent queue : List BrowserListRequest} {worker : BrowserWorker}
    (hperm : (unsent ++ queue ++ worker.requests).Perm b.requests) :
    FollowsLast { b with unsent := unsent, queue := queue, worker := worker } := by
  have hnumbers : ({ b with unsent := unsent, queue := queue, worker := worker } :
      RemotePathBrowser Entry).numbers.Perm b.numbers := (hperm.map _).append_right _
  refine ⟨hnumbers.nodup_iff.mpr h.numbers, fun input hlast => ?_⟩
  rcases h.last input hlast with hrequest | hanswer | ⟨hdone, hshown⟩
  · exact .inl (hperm.mem_iff.mpr hrequest)
  · exact .inr (.inl hanswer)
  · exact .inr (.inr ⟨fun hmem => hdone (hnumbers.mem_iff.mp hmem), hshown⟩)

theorem send (h : FollowsLast b) {index : Nat} {request : BrowserListRequest}
    (hrequest : b.unsent[index]? = some request) :
    FollowsLast
      { b with unsent := b.unsent.eraseIdx index, queue := b.queue ++ [request] } := by
  obtain ⟨hlt, rfl⟩ := List.getElem?_eq_some_iff.mp hrequest
  refine h.moved (List.Perm.append_right _ ?_)
  rw [← List.append_assoc]
  have hback := (List.getElem_cons_eraseIdx_perm hlt).append_right b.queue
  exact (List.perm_append_singleton _ _).trans hback

theorem dispatchRefresh (h : FollowsLast b) (hfresh : b.refreshGeneration + 1 ∉ b.numbers) :
    FollowsLast b.dispatchRefresh := by
  have hrequests : b.dispatchRefresh.requests.Perm
      (⟨b.refreshGeneration + 1, b.input⟩ :: b.requests) := by
    unfold requests
    exact (((List.perm_append_singleton _ b.unsent).append_right b.queue).append_right _)
  have hnumbers : b.dispatchRefresh.numbers.Perm ((b.refreshGeneration + 1) :: b.numbers) :=
    (hrequests.map _).append_right _
  refine ⟨hnumbers.nodup_iff.mpr (List.nodup_cons.mpr ⟨hfresh, h.numbers⟩),
    fun input hlast => .inl ?_⟩
  cases hlast
  exact hrequests.mem_iff.mpr List.mem_cons_self

/-- A request that is on its way has no answer yet. -/
theorem disjoint (h : FollowsLast b) {request : BrowserListRequest} {answer : BrowserAnswer Entry}
    (hrequest : request ∈ b.requests) (hanswer : answer ∈ b.answered) :
    request.generation ≠ answer.generation := by
  intro heq
  refine List.disjoint_of_nodup_append h.numbers (List.mem_map_of_mem hrequest) ?_
  rw [heq]
  exact List.mem_map_of_mem hanswer

theorem numbers_answered {request : BrowserListRequest} {requests : List BrowserListRequest}
    (hperm : b.requests.Perm (request :: requests)) (result : Except String (List Entry)) :
    (requests.map (·.generation) ++ (b.answered ++ [(⟨request.generation, result⟩ :
      BrowserAnswer Entry)]).map (·.generation)).Perm b.numbers := by
  have hold : b.numbers.Perm
      (request.generation :: (requests.map (·.generation) ++ b.answered.map (·.generation))) :=
    (hperm.map _).append_right _
  rw [List.map_append, ← List.append_assoc]
  exact (List.perm_append_singleton _ _).trans hold.symm

/-- A request other than the last one is dropped. -/
theorem supersede (h : FollowsLast b) {latest next : BrowserListRequest}
    {queue : List BrowserListRequest} (hworker : b.worker = .draining latest)
    (hqueue : b.queue = next :: queue) (hother : latest.generation ≠ b.refreshGeneration) :
    FollowsLast { b with
      worker := .draining next
      queue := queue
      answered := b.answered ++ [⟨latest.generation, .error BROWSER_SUPERSEDED_MESSAGE⟩] } := by
  have hrequests : b.requests.Perm (latest :: (b.unsent ++ queue ++ [next])) := by
    rw [requests, hworker, hqueue]
    refine (List.perm_append_singleton latest _).trans (List.Perm.cons latest ?_)
    exact List.perm_middle.trans (List.perm_append_singleton next _).symm
  have hnumbers := numbers_answered hrequests (.error BROWSER_SUPERSEDED_MESSAGE)
  refine ⟨hnumbers.nodup_iff.mpr h.numbers, fun input hlast => ?_⟩
  rcases h.last input hlast with hrequest | ⟨result, hanswer, hcomputed⟩ | ⟨hdone, hshown⟩
  · rcases List.mem_cons.mp (hrequests.mem_iff.mp hrequest) with hlatest | hrest
    · exact absurd (congrArg BrowserListRequest.generation hlatest).symm hother
    · exact .inl hrest
  · exact .inr (.inl ⟨result, List.mem_append_left _ hanswer, hcomputed⟩)
  · exact .inr (.inr ⟨fun hmem => hdone (hnumbers.mem_iff.mp hmem), hshown⟩)

/-- The worker answers the request that it listed for. -/
theorem answer (h : FollowsLast b) {request : BrowserListRequest}
    (hworker : b.worker = .listing request) (result : Except String (List Entry)) :
    FollowsLast (b.answer request result) := by
  have hrequests : b.requests.Perm (request :: (b.unsent ++ b.queue)) := by
    rw [requests, hworker]
    exact List.perm_append_singleton request _
  have hleft : (b.answer request result).requests = b.unsent ++ b.queue := List.append_nil _
  have hnumbers : (b.answer request result).numbers.Perm b.numbers := by
    unfold RemotePathBrowser.numbers
    rw [hleft]
    exact numbers_answered hrequests result
  refine ⟨hnumbers.nodup_iff.mpr h.numbers, fun input hlast => ?_⟩
  have hmem : request ∈ b.requests := hrequests.mem_iff.mpr List.mem_cons_self
  have hother : request.generation ≠ b.refreshGeneration →
      (b.answer request result).computed = b.computed := fun hne => if_neg hne
  rcases h.last input hlast with hrequest | ⟨shown, hanswer, hcomputed⟩ | ⟨hdone, hshown⟩
  · rcases List.mem_cons.mp (hrequests.mem_iff.mp hrequest) with rfl | hrest
    · refine .inr (.inl ⟨result, List.mem_append_right _ (List.mem_singleton_self _), ?_⟩)
      exact if_pos rfl
    · exact .inl (hleft ▸ hrest)
  · have hne : request.generation ≠ b.refreshGeneration := fun heq =>
      h.disjoint hmem hanswer heq
    exact .inr (.inl ⟨shown, List.mem_append_left _ hanswer, (hother hne).trans hcomputed⟩)
  · have hne : request.generation ≠ b.refreshGeneration := fun heq =>
      hdone (heq ▸ List.mem_append_left _ (List.mem_map_of_mem hmem))
    obtain ⟨last, shown, hlast, hcomputed, hshows⟩ := hshown
    exact .inr (.inr ⟨fun hin => hdone (hnumbers.mem_iff.mp hin),
      last, shown, hlast, (hother hne).trans hcomputed, hshows⟩)

theorem shows_processAnswer (b : RemotePathBrowser Entry) (result : Except String (List Entry)) :
    (b.processAnswer ⟨b.refreshGeneration, result⟩).Shows result := by
  unfold processAnswer
  rw [if_neg (not_not.mpr rfl)]
  cases result with
  | ok entries => exact ⟨rfl, rfl, rfl⟩
  | error message => exact ⟨rfl, rfl, rfl⟩

theorem processAnswer_rest (b : RemotePathBrowser Entry) (answer : BrowserAnswer Entry) :
    (b.processAnswer answer).requests = b.requests ∧
      (b.processAnswer answer).answered = b.answered ∧
      (b.processAnswer answer).refreshGeneration = b.refreshGeneration ∧
      (b.processAnswer answer).lastDispatched = b.lastDispatched ∧
      (b.processAnswer answer).computed = b.computed := by
  unfold processAnswer
  split
  · exact ⟨rfl, rfl, rfl, rfl, rfl⟩
  · cases answer.result <;> exact ⟨rfl, rfl, rfl, rfl, rfl⟩

/-- An answer that is not the last one changes nothing, and the last one is shown. -/
theorem arrive (h : FollowsLast b) {index : Nat} {answer : BrowserAnswer Entry}
    (hanswer : b.answered[index]? = some answer) :
    FollowsLast (({ b with answered := b.answered.eraseIdx index } :
      RemotePathBrowser Entry).processAnswer answer) := by
  obtain ⟨hlt, hget⟩ := List.getElem?_eq_some_iff.mp hanswer
  have hanswered : b.answered.Perm (answer :: b.answered.eraseIdx index) :=
    hget ▸ (List.getElem_cons_eraseIdx_perm hlt).symm
  have hnumbers : b.numbers.Perm (answer.generation ::
      (b.requests.map (·.generation) ++ (b.answered.eraseIdx index).map (·.generation))) :=
    ((hanswered.map _).append_left _).trans List.perm_middle
  have hnodup := List.nodup_cons.mp (hnumbers.nodup_iff.mp h.numbers)
  generalize hrest :
    ({ b with answered := b.answered.eraseIdx index } : RemotePathBrowser Entry) = rest
  have hleft : rest.numbers =
      b.requests.map (·.generation) ++ (b.answered.eraseIdx index).map (·.generation) := by
    subst hrest
    rfl
  have hshow := processAnswer_rest rest answer
  have hsame : (rest.processAnswer answer).numbers = rest.numbers := by
    rw [RemotePathBrowser.numbers, hshow.1, hshow.2.1, RemotePathBrowser.numbers]
  refine ⟨hsame.trans hleft ▸ hnodup.2, fun input hlast => ?_⟩
  rw [hshow.2.2.2.1, ← hrest] at hlast
  rw [hsame, hshow.1, hshow.2.1, hshow.2.2.1, hshow.2.2.2.2, hleft]
  subst hrest
  by_cases hgeneration : b.refreshGeneration = answer.generation
  · -- the last request was answered, and by this answer
    obtain ⟨generation, result⟩ := answer
    subst hgeneration
    refine .inr (.inr ⟨hnodup.1, ?_⟩)
    have hmem : ⟨b.refreshGeneration, result⟩ ∈ b.answered :=
      hanswered.mem_iff.mpr List.mem_cons_self
    rcases h.last input hlast with hrequest | ⟨other, hother, hcomputed⟩ | ⟨hdone, -⟩
    · exact absurd rfl (h.disjoint hrequest hmem)
    · have hmap := (List.nodup_append.mp h.numbers).2.1
      cases List.inj_on_of_nodup_map hmap hmem hother rfl
      refine ⟨input, result, ?_, ?_, shows_processAnswer _ result⟩
      · rw [hshow.2.2.2.1]
        exact hlast
      · rw [hshow.2.2.2.2]
        exact hcomputed
    · exact absurd (List.mem_append_right _ (List.mem_map_of_mem hmem)) hdone
  · rcases h.last input hlast with hrequest | ⟨result, hother, hcomputed⟩ | ⟨hdone, hshown⟩
    · exact .inl hrequest
    · refine .inr (.inl ⟨result, ?_, hcomputed⟩)
      rcases List.mem_cons.mp (hanswered.mem_iff.mp hother) with hthis | hrest
      · exact absurd (congrArg BrowserAnswer.generation hthis) hgeneration
      · exact hrest
    · refine .inr (.inr ⟨fun hmem => hdone ?_, ?_⟩)
      · exact hnumbers.mem_iff.mpr (List.mem_cons_of_mem _ hmem)
      · unfold processAnswer
        rw [if_pos hgeneration]
        exact hshown

theorem step (h : FollowsLast b) {action : BrowserAction Entry} (hkeeps : b.KeepsLast action)
    (hstep : b.step action = some b') : FollowsLast b' := by
  cases action with
  | typePath path =>
      cases hstep
      exact ⟨h.numbers, h.last⟩
  | timer index =>
      obtain ⟨generation, hgeneration, rfl⟩ := Option.map_eq_some_iff.mp hstep
      have hfired : FollowsLast { b with timers := b.timers.eraseIdx index } := ⟨h.numbers, h.last⟩
      simp only
      split
      · exact hfired
      · rename_i hcurrent
        rw [not_not] at hcurrent
        exact hfired.dispatchRefresh (hkeeps (hgeneration.trans (congrArg some hcurrent.symm)))
  | send index =>
      obtain ⟨request, hrequest, rfl⟩ := Option.map_eq_some_iff.mp hstep
      exact h.send hrequest
  | receive =>
      simp only [RemotePathBrowser.step] at hstep
      split at hstep
      · rename_i request queue hworker hqueue
        cases hstep
        refine h.moved ?_
        rw [requests, hworker, hqueue]
        have hmiddle : (b.unsent ++ request :: queue).Perm (b.unsent ++ queue ++ [request]) :=
          List.perm_middle.trans (List.perm_append_singleton request _).symm
        exact hmiddle.symm.trans (List.append_nil _ ▸ List.Perm.refl _)
      · cases hstep
  | supersede =>
      simp only [RemotePathBrowser.step] at hstep
      split at hstep
      · rename_i latest next queue hworker hqueue
        cases hstep
        refine h.supersede hworker hqueue (hkeeps latest ?_)
        rw [hworker]
        exact List.mem_singleton_self latest
      · cases hstep
  | startListing =>
      simp only [RemotePathBrowser.step] at hstep
      split at hstep
      · rename_i latest hworker hqueue
        cases hstep
        refine h.moved ?_
        rw [requests, hworker]
        exact List.Perm.refl _
      · cases hstep
  | answer result =>
      simp only [RemotePathBrowser.step] at hstep
      split at hstep
      · rename_i request hworker
        cases hstep
        exact h.answer hworker result
      · cases hstep
  | arrive index =>
      obtain ⟨answer, hanswer, rfl⟩ := Option.map_eq_some_iff.mp hstep
      exact h.arrive hanswer

end FollowsLast

/-! ## Runs -/

/--
In every run of the browser whose steps all meet their condition: when every
request was answered or superseded and every result processed, what is shown was
computed for the input that was dispatched last.
-/
theorem settles_on_last {initialPath : String} {initialEntries : List Entry}
    {notice : Option String} {actions : List (BrowserAction Entry)} {b : RemotePathBrowser Entry}
    (hguard : Guarded step KeepsLast (opened initialPath initialEntries notice) actions)
    (hrun : run step (opened initialPath initialEntries notice) actions = some b)
    (hsettled : b.Settled) (hdispatched : b.lastDispatched.isSome = true) : b.ShowsLast := by
  have h : FollowsLast b :=
    invariant_of_guarded FollowsLast (fun _ _ _ h hkeeps hstep => h.step hkeeps hstep)
      (FollowsLast.start initialPath initialEntries notice) hguard hrun
  obtain ⟨input, hinput⟩ := Option.isSome_iff_exists.mp hdispatched
  have hnone : b.requests = [] := by
    rw [requests, hsettled.unsent, hsettled.queue, hsettled.worker]
    rfl
  rcases h.last input hinput with hrequest | ⟨result, hanswer, -⟩ | ⟨-, hshown⟩
  · exact absurd (hnone ▸ hrequest) List.not_mem_nil
  · exact absurd (hsettled.answered ▸ hanswer) List.not_mem_nil
  · exact hshown

/-- The first request was sent before `/b` was dispatched, and is dropped for it. -/
def sampleBrowserRun : List (BrowserAction String) :=
  [.send 0, .receive, .typePath "/b", .timer 0, .send 0, .supersede, .startListing,
    .answer (.ok ["/b"]), .arrive 1, .arrive 0]

theorem settles_on_last_sample :
    ∃ b, run step (opened "/a" [] none) sampleBrowserRun = some b ∧ b.ShowsLast ∧
      b.entries = ["/b"] := by
  have hguard : Guarded step KeepsLast (opened "/a" [] none) sampleBrowserRun :=
    Guarded.of_guardedRun (by decide +kernel)
  exact ⟨_, rfl, settles_on_last hguard rfl ⟨rfl, rfl, rfl, rfl⟩ rfl, rfl⟩

/-- The task of the second request sends it first, and the worker drops it for the first one. -/
theorem last_request_superseded :
    ∃ b, run step (opened "/a" [] none)
        [.typePath "/b", .timer 0, .send 1, .send 0, .receive, .supersede, .startListing,
          .answer (.ok ["/a"]), .arrive 0, .arrive 0] = some b ∧
      b.Settled ∧ b.lastDispatched = some "/b" ∧ b.errorMessage = some BROWSER_SUPERSEDED_MESSAGE ∧
      ¬b.ShowsLast := by
  refine ⟨_, rfl, ⟨rfl, rfl, rfl, rfl⟩, rfl, rfl, ?_⟩
  rintro ⟨input, result, -, hcomputed, -⟩
  cases hcomputed

end RemotePathBrowser

end Fulgur
