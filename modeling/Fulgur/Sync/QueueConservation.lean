import Fulgur.Library.Custody
import Fulgur.Library.Run
import Fulgur.Sync.DecryptionQueue

/-! # Conservation of queued shares

A share is in the queue of its profile or in the hands of a pass until it leaves,
and it leaves once: opened, dropped as too large, or given up after as many
failed decodes as the limit allows. This holds for all interleavings of fetches
and passes, whatever the clock shows.
-/

namespace Fulgur

open LabelledRun

namespace ProfileQueue

/-! ## What a run keeps -/

def held (s : ProfileQueue) : List QueuedShare :=
  s.pendingSharedFiles ++ s.passes.flatMap PassStage.batch

def gone (s : ProfileQueue) : List QueuedShare := s.left.map Prod.fst

/-- No other share that entered has the id of this one. -/
def DistinctId (s : ProfileQueue) (queued : QueuedShare) : Prop :=
  ∀ (other : Nat) (share : SharedFileResponse), s.entered[other]? = some share →
    share.id = queued.share.id → other = queued.entry

/-- What the UI gets from a share that left. -/
def openedBy : QueuedShare × ShareExit → Option DecryptedShare
  | (queued, .decrypted content) => some ⟨queued.share.id, queued.share.fileName, content⟩
  | _ => none

/-- One pass at a time; every share that entered waits or has left, once, and for one reason. -/
structure Conserved (s : ProfileQueue) : Prop where
  onePass : s.passes.length ≤ 1
  once : ∀ entry < s.entered.length,
    (s.held.map QueuedShare.entry).count entry + (s.gone.map QueuedShare.entry).count entry = 1
  same : ∀ queued ∈ s.held ++ s.gone, s.entered[queued.entry]? = some queued.share
  waiting : ∀ queued ∈ s.held, s.DistinctId queued → queued.failures < MAX_DECRYPT_ATTEMPTS
  handed : s.opened ++ s.pendingDecryptedFiles = s.left.filterMap openedBy
  oversized : ∀ queued serverMaxSize, (queued, .oversized serverMaxSize) ∈ s.left →
    sharePayloadExceedsLimit queued.share.content.utf8ByteSize serverMaxSize = true
  quarantined : ∀ queued, (queued, .quarantined) ∈ s.left → s.DistinctId queued →
    queued.failures = MAX_DECRYPT_ATTEMPTS

/-! ## What each step does -/

end ProfileQueue

/-- Whether the failures of the share are forgotten as it leaves. -/
def ShareExit.forgets : ShareExit → Bool
  | .oversized _ => false
  | _ => true

namespace ProfileQueue

/--
Every step, by what it does to the shares. The share that a pass handles is
`queued`; `rest` is what else waits.
-/
inductive QueueMove (s s' : ProfileQueue) : Prop where
  | kept (hheld : s'.held.Perm s.held) (hentered : s'.entered = s.entered)
      (hleft : s'.left = s.left)
      (hhanded : s'.opened ++ s'.pendingDecryptedFiles = s.opened ++ s.pendingDecryptedFiles)
      (hattempts : ∀ id, s'.attempts id = s.attempts id)
      (hretry : ∀ id, s'.shareRetryState id ≠ none → s.shareRetryState id ≠ none ∨
        ∃ queued ∈ s.held, queued.share.id = id)
  | entered (shares : List SharedFileResponse) (hstep : s' = s.enter shares)
  | exited (queued last : QueuedShare) (rest : List QueuedShare) (exit : ShareExit)
      (hheld : s.held.Perm (queued :: rest)) (hheld' : s'.held.Perm rest)
      (hlast : last.entry = queued.entry ∧ last.share = queued.share)
      (hentered : s'.entered = s.entered) (hleft : s'.left = s.left ++ [(last, exit)])
      (hhanded : s'.opened ++ s'.pendingDecryptedFiles =
        s.opened ++ s.pendingDecryptedFiles ++ (openedBy (last, exit)).toList)
      (hretry : ∀ id, s'.shareRetryState id =
        if exit.forgets = true ∧ id = queued.share.id then none else s.shareRetryState id)
      (hoversized : ∀ serverMaxSize, exit = .oversized serverMaxSize →
        sharePayloadExceedsLimit queued.share.content.utf8ByteSize serverMaxSize = true)
      (hquarantined : exit = .quarantined → last.failures = queued.failures + 1 ∧
        MAX_DECRYPT_ATTEMPTS ≤ s.attempts queued.share.id + 1)
  | failed (queued : QueuedShare) (rest : List QueuedShare) (nextRetryAt : Nat)
      (hheld : s.held.Perm (queued :: rest))
      (hheld' : s'.held.Perm ({ queued with failures := queued.failures + 1 } :: rest))
      (hentered : s'.entered = s.entered) (hleft : s'.left = s.left)
      (hhanded : s'.opened ++ s'.pendingDecryptedFiles = s.opened ++ s.pendingDecryptedFiles)
      (hbelow : s.attempts queued.share.id + 1 < MAX_DECRYPT_ATTEMPTS)
      (hretry : s'.shareRetryState = Function.update s.shareRetryState queued.share.id
        (some ⟨s.attempts queued.share.id + 1, nextRetryAt⟩))

variable {s s' : ProfileQueue} {index : Nat}

def others (s : ProfileQueue) (index : Nat) : List QueuedShare :=
  (s.passes.eraseIdx index).flatMap PassStage.batch

theorem held_perm {stage : PassStage} (h : s.passes[index]? = some stage) :
    s.held.Perm (s.pendingSharedFiles ++ (stage.batch ++ s.others index)) :=
  (Custody.flatMap_perm h).append_left _

theorem held_of_set {stage next : PassStage} (h : s.passes[index]? = some stage)
    (hpasses : s'.passes = s.passes.set index next) :
    s'.held.Perm (s'.pendingSharedFiles ++ (next.batch ++ s.others index)) := by
  unfold held
  rw [hpasses]
  exact (Custody.flatMap_set_perm next h).append_left _

theorem QueueMove.setPass {stage next : PassStage} (h : s.passes[index]? = some stage)
    (hbatch : next.batch = stage.batch) : QueueMove s (s.setPass index next) := by
  refine .kept ?_ rfl rfl rfl (fun _ => rfl) fun _ => Or.inl
  refine (held_of_set h rfl).trans ?_
  rw [hbatch]
  exact (held_perm h).symm

private theorem takeDue_move (h : s.takeDue index = some s') : QueueMove s s' := by
  unfold takeDue at h
  split at h
  · rename_i serverMaxSize now hpass
    cases h
    refine .kept ?_ rfl rfl rfl (fun _ => rfl) fun _ => Or.inl
    refine (held_of_set hpass rfl).trans ?_
    refine List.Perm.trans ?_ (held_perm hpass).symm
    generalize hdue : s.pendingSharedFiles.filter (isDue s.shareRetryState now) = due
    have hbatch : (if due = [] then PassStage.ended else .taken serverMaxSize due).batch = due := by
      split
      · rename_i hempty
        exact hempty.symm
      · rfl
    have hsplit := List.filter_append_perm (isDue s.shareRetryState now) s.pendingSharedFiles
    rw [hdue] at hsplit
    rw [hbatch, ← List.append_assoc]
    exact (List.perm_append_comm.trans hsplit).append_right _
  · cases h

/-- A retry that is pushed out keeps its count. -/
theorem deferBatchForKeyRetry_attempts (sharedFiles : List QueuedShare) (nextRetryAt : Nat)
    (retryState : String → Option ShareRetryState) (id : String) :
    ((deferBatchForKeyRetry retryState sharedFiles nextRetryAt id).map
      ShareRetryState.attempts).getD 0 = ((retryState id).map ShareRetryState.attempts).getD 0 := by
  induction sharedFiles generalizing retryState with
  | nil => rfl
  | cons queued sharedFiles ih =>
      refine (ih _).trans ?_
      by_cases hid : id = queued.share.id
      · subst hid
        rw [deferRetry, Function.update_self]
        cases retryState queued.share.id <;> rfl
      · rw [deferRetry, Function.update_of_ne hid]

theorem deferBatchForKeyRetry_known {sharedFiles : List QueuedShare} {nextRetryAt : Nat}
    {retryState : String → Option ShareRetryState} {id : String}
    (h : deferBatchForKeyRetry retryState sharedFiles nextRetryAt id ≠ none) :
    retryState id ≠ none ∨ ∃ queued ∈ sharedFiles, queued.share.id = id := by
  induction sharedFiles generalizing retryState with
  | nil => exact Or.inl h
  | cons queued sharedFiles ih =>
      by_cases hid : id = queued.share.id
      · exact Or.inr ⟨queued, List.mem_cons_self, hid.symm⟩
      · rcases ih h with hbefore | ⟨other, hother, hsame⟩
        · rw [deferRetry, Function.update_of_ne hid] at hbefore
          exact Or.inl hbefore
        · exact Or.inr ⟨other, List.mem_cons_of_mem queued hother, hsame⟩

private theorem loadPrivateKey_move {key : KeyLoad} {now : Nat}
    (h : s.loadPrivateKey index key now = some s') : QueueMove s s' := by
  unfold loadPrivateKey at h
  split at h
  · rename_i serverMaxSize sharedFiles hpass
    split at h
    · cases h
      exact .setPass hpass (List.append_nil _)
    · cases h
      refine .kept ?_ rfl rfl rfl (deferBatchForKeyRetry_attempts sharedFiles _ _)
        fun id hsome => ?_
      · refine (held_of_set hpass rfl).trans ?_
        exact (held_perm hpass).symm
      · refine (deferBatchForKeyRetry_known hsome).imp_right ?_
        rintro ⟨queued, hqueued, hid⟩
        refine ⟨queued, (held_perm hpass).symm.subset ?_, hid⟩
        exact List.mem_append_right _ (List.mem_append_left _ hqueued)
  · cases h

private theorem decodeNext_move {decoded : Option String} {now : Nat}
    (h : s.decodeNext index decoded now = some s') : QueueMove s s' := by
  unfold decodeNext at h
  split at h
  · rename_i serverMaxSize queued sharedFiles retryQueue hpass
    have hfront : s.held.Perm
        (queued :: (s.pendingSharedFiles ++ (sharedFiles ++ retryQueue ++ s.others index))) :=
      (held_perm hpass).trans List.perm_middle
    have hrest : ∀ {t : ProfileQueue},
        t.passes = s.passes.set index (.decoding serverMaxSize sharedFiles retryQueue) →
          t.pendingSharedFiles = s.pendingSharedFiles →
            t.held.Perm (s.pendingSharedFiles ++ (sharedFiles ++ retryQueue ++ s.others index)) :=
      fun hpasses hpending => hpending ▸ held_of_set hpass hpasses
    simp only at h
    split at h
    · rename_i hlarge
      cases h
      refine .exited queued queued _ (.oversized serverMaxSize) hfront (hrest rfl rfl) ⟨rfl, rfl⟩
        rfl rfl (List.append_nil _).symm (fun id => (if_neg (by simp [ShareExit.forgets])).symm) ?_
          (by simp)
      intro limit hlimit
      cases hlimit
      exact hlarge
    · split at h
      · rename_i content
        cases h
        refine .exited queued queued _ (.decrypted content) hfront (hrest rfl rfl) ⟨rfl, rfl⟩
          rfl rfl (List.append_assoc _ _ _).symm (fun id => ?_) (by simp) (by simp)
        simp [leave, setRetry, handOver, setPass, ShareExit.forgets, Function.update_apply]
      · split at h
        · rename_i hattempts
          cases h
          refine .exited queued { queued with failures := queued.failures + 1 }
            _ .quarantined hfront
            (hrest rfl rfl) ⟨rfl, rfl⟩ rfl rfl (List.append_nil _).symm (fun id => ?_) (by simp)
            fun _ => ⟨rfl, hattempts⟩
          simp [leave, setRetry, setPass, ShareExit.forgets, Function.update_apply]
        · rename_i hattempts
          cases h
          refine .failed queued _ _ hfront ?_ rfl rfl rfl (by omega) rfl
          refine (held_of_set hpass rfl).trans ?_
          have hmiddle : (s.pendingSharedFiles ++ (sharedFiles ++ retryQueue) ++
              { queued with failures := queued.failures + 1 } :: s.others index).Perm _ :=
            List.perm_middle
          simpa only [PassStage.batch, List.append_assoc, List.singleton_append, setPass, setRetry]
            using hmiddle
  · cases h

private theorem requeue_move (h : s.requeue index = some s') : QueueMove s s' := by
  unfold requeue at h
  split at h
  · rename_i serverMaxSize retryQueue hpass
    cases h
    refine .kept ?_ rfl rfl rfl (fun _ => rfl) fun _ => Or.inl
    refine (held_of_set hpass rfl).trans ?_
    refine List.Perm.trans ?_ (held_perm hpass).symm
    change (retryQueue ++ s.pendingSharedFiles ++ ([] ++ s.others index)).Perm
      (s.pendingSharedFiles ++ ([] ++ retryQueue ++ s.others index))
    rw [List.nil_append, List.nil_append, ← List.append_assoc]
    exact List.perm_append_comm.append_right _
  · cases h

private theorem finishPass_move (h : s.finishPass index = some s') : QueueMove s s' := by
  unfold finishPass at h
  split at h
  · rename_i hpass
    cases h
    exact .kept (held_perm hpass).symm rfl rfl rfl (fun _ => rfl) fun _ => Or.inl
  · cases h

theorem move_of_step {action : QueueAction} (h : s.step action = some s') : QueueMove s s' := by
  cases action with
  | queuePendingShares shares =>
      cases h
      exact .entered _ rfl
  | push share =>
      cases h
      exact .entered [share] rfl
  | limitAdvertised maxFileSizeBytes =>
      cases h
      exact .kept (.refl _) rfl rfl rfl (fun _ => rfl) fun _ => Or.inl
  | checkDue now =>
      cases h
      unfold checkDue
      split <;> exact .kept (.refl _) rfl rfl rfl (fun _ => rfl) fun _ => Or.inl
  | claim =>
      have hclaim : s.claim = some s' := h
      unfold claim at hclaim
      rcases Option.ite_none_left_eq_some.mp hclaim with ⟨_, hclaim⟩
      simp only at hclaim
      split at hclaim
      · cases hclaim
        exact .kept (.refl _) rfl rfl rfl (fun _ => rfl) fun _ => Or.inl
      · cases hclaim
        refine .kept ?_ rfl rfl rfl (fun _ => rfl) fun _ => Or.inl
        simp [held, PassStage.batch]
  | readLimit index now =>
      have hread : s.readLimit index now = some s' := h
      unfold readLimit at hread
      split at hread
      · rename_i hpass
        cases hread
        exact .setPass hpass rfl
      · cases hread
  | takeDue index => exact takeDue_move h
  | loadPrivateKey index key now => exact loadPrivateKey_move h
  | decodeNext index decoded now => exact decodeNext_move h
  | requeue index => exact requeue_move h
  | finishPass index => exact finishPass_move h
  | processSharedFiles =>
      cases h
      exact .kept (.refl _) rfl rfl (List.append_nil _) (fun _ => rfl) fun _ => Or.inl

/-! ## Single flight -/

/-- The flag is up exactly while a pass is there. -/
def Single (s : ProfileQueue) : Prop := s.passes.length = if s.decryptInFlight then 1 else 0

theorem Single.set (h : s.Single) (next : PassStage) (hpasses : s'.passes = s.passes.set index next)
    (hflag : s'.decryptInFlight = s.decryptInFlight) : s'.Single := by
  unfold Single
  rw [hpasses, hflag, List.length_set]
  exact h

theorem Single.step {action : QueueAction} (h : s.Single) (hstep : s.step action = some s') :
    s'.Single := by
  cases action with
  | queuePendingShares shares =>
      cases hstep
      exact h
  | push share =>
      cases hstep
      exact h
  | limitAdvertised maxFileSizeBytes =>
      cases hstep
      exact h
  | checkDue now =>
      cases hstep
      unfold checkDue
      split <;> exact h
  | claim =>
      have hclaim : s.claim = some s' := hstep
      unfold claim at hclaim
      rcases Option.ite_none_left_eq_some.mp hclaim with ⟨_, hclaim⟩
      simp only at hclaim
      split at hclaim
      · cases hclaim
        exact h
      · rename_i hflag
        cases hclaim
        unfold Single at h ⊢
        rw [if_neg hflag] at h
        simpa using h
  | readLimit index now =>
      have hread : s.readLimit index now = some s' := hstep
      unfold readLimit at hread
      split at hread
      · cases hread
        exact h.set _ rfl rfl
      · cases hread
  | takeDue index =>
      have htake : s.takeDue index = some s' := hstep
      unfold takeDue at htake
      split at htake
      · cases htake
        exact h.set _ rfl rfl
      · cases htake
  | loadPrivateKey index key now =>
      have hload : s.loadPrivateKey index key now = some s' := hstep
      unfold loadPrivateKey at hload
      split at hload
      · split at hload <;> cases hload <;> exact h.set _ rfl rfl
      · cases hload
  | decodeNext index decoded now =>
      have hdecode : s.decodeNext index decoded now = some s' := hstep
      unfold decodeNext at hdecode
      split at hdecode
      · simp only at hdecode
        split at hdecode
        · cases hdecode
          exact h.set _ rfl rfl
        · split at hdecode
          · cases hdecode
            exact h.set _ rfl rfl
          · split at hdecode <;> cases hdecode <;> exact h.set _ rfl rfl
      · cases hdecode
  | requeue index =>
      have hrequeue : s.requeue index = some s' := hstep
      unfold requeue at hrequeue
      split at hrequeue
      · cases hrequeue
        exact h.set _ rfl rfl
      · cases hrequeue
  | finishPass index =>
      have hfinish : s.finishPass index = some s' := hstep
      unfold finishPass at hfinish
      split at hfinish
      · rename_i hpass
        cases hfinish
        have hbound := (List.getElem?_eq_some_iff.mp hpass).1
        unfold Single at h ⊢
        change (s.passes.eraseIdx index).length = 0
        rw [List.length_eraseIdx_of_lt hbound]
        split at h <;> omega
      · cases hfinish
  | processSharedFiles =>
      cases hstep
      exact h

/-! ## The invariant -/

/-- What every run keeps. -/
structure Accounted (s : ProfileQueue) : Prop where
  single : s.Single
  balanced : Custody.Balanced QueuedShare.entry s.entered.length s.held s.gone
  same : ∀ queued ∈ s.held ++ s.gone, s.entered[queued.entry]? = some queued.share
  /-- Failures are only noted for shares that entered. -/
  known : ∀ id, s.shareRetryState id ≠ none → ∃ share ∈ s.entered, share.id = id
  counted : ∀ queued ∈ s.held, s.DistinctId queued →
    queued.failures = s.attempts queued.share.id ∧ queued.failures < MAX_DECRYPT_ATTEMPTS
  handed : s.opened ++ s.pendingDecryptedFiles = s.left.filterMap openedBy
  oversized : ∀ queued serverMaxSize, (queued, .oversized serverMaxSize) ∈ s.left →
    sharePayloadExceedsLimit queued.share.content.utf8ByteSize serverMaxSize = true
  quarantined : ∀ queued, (queued, .quarantined) ∈ s.left → s.DistinctId queued →
    queued.failures = MAX_DECRYPT_ATTEMPTS

theorem accounted_launched : Accounted launched where
  single := rfl
  balanced := Custody.balanced_nil
  same := by simp [launched, held, gone]
  known := by simp [launched]
  counted := by simp [launched, held]
  handed := rfl
  oversized := by simp [launched]
  quarantined := by simp [launched]

theorem Accounted.conserved (h : s.Accounted) : s.Conserved where
  onePass := by
    have hsingle := h.single
    unfold Single at hsingle
    split at hsingle <;> omega
  once := fun _ hentry => h.balanced.count hentry
  same := h.same
  waiting := fun queued hqueued hdistinct => (h.counted queued hqueued hdistinct).2
  handed := h.handed
  oversized := h.oversized
  quarantined := h.quarantined

theorem DistinctId.of_append {queued : QueuedShare} {shares : List SharedFileResponse}
    (hentered : s'.entered = s.entered ++ shares) (h : s'.DistinctId queued) :
    s.DistinctId queued := by
  intro other share hother hid
  refine h other share ?_ hid
  rw [hentered, List.getElem?_append_left (List.getElem?_eq_some_iff.mp hother).1]
  exact hother

theorem Accounted.apart (h : s.Accounted) {queued other : QueuedShare} {rest : List QueuedShare}
    (hheld : s.held.Perm (queued :: rest)) (hother : other ∈ rest)
    (hdistinct : s.DistinctId other) :
    other.share.id ≠ queued.share.id := by
  intro hid
  have hqueued := h.same queued (List.mem_append_left _ (hheld.symm.subset List.mem_cons_self))
  have hentry := hdistinct queued.entry queued.share hqueued hid.symm
  exact (h.balanced.perm hheld.symm).ne_of_mem hother hentry.symm

theorem Accounted.kept (h : s.Accounted) (hsingle : s'.Single) (hheld : s'.held.Perm s.held)
    (hentered : s'.entered = s.entered) (hleft : s'.left = s.left)
    (hhanded : s'.opened ++ s'.pendingDecryptedFiles = s.opened ++ s.pendingDecryptedFiles)
    (hattempts : ∀ id, s'.attempts id = s.attempts id)
    (hretry : ∀ id, s'.shareRetryState id ≠ none → s.shareRetryState id ≠ none ∨
      ∃ queued ∈ s.held, queued.share.id = id) : s'.Accounted := by
  have hgone : s'.gone = s.gone := congrArg (List.map Prod.fst) hleft
  have hdistinct : ∀ queued, s'.DistinctId queued → s.DistinctId queued :=
    fun queued => .of_append (hentered.trans (List.append_nil _).symm)
  constructor
  case single => exact hsingle
  case balanced =>
      rw [hentered, hgone]
      exact h.balanced.perm hheld
  case same =>
      rw [hentered, hgone]
      exact fun queued hqueued => h.same queued ((hheld.append_right _).subset hqueued)
  case known =>
      intro id hsome
      rw [hentered]
      rcases hretry id hsome with hbefore | ⟨queued, hqueued, hid⟩
      · exact h.known id hbefore
      · have hshare := h.same queued (List.mem_append_left _ hqueued)
        exact ⟨queued.share, List.mem_of_getElem? hshare, hid⟩
  case counted =>
      intro queued hqueued hid
      rw [hattempts]
      exact h.counted queued (hheld.subset hqueued) (hdistinct queued hid)
  case handed => rw [hhanded, hleft, h.handed]
  case oversized => exact hleft ▸ h.oversized
  case quarantined =>
      intro queued hqueued hid
      exact h.quarantined queued (hleft ▸ hqueued) (hdistinct queued hid)

theorem numbered_entries (first : Nat) (shares : List SharedFileResponse) :
    (numbered first shares).map QueuedShare.entry =
      List.range' first (numbered first shares).length := by
  refine List.ext_getElem? fun i => ?_
  by_cases hi : i < shares.length <;> simp [numbered, hi]

theorem mem_numbered {first : Nat} {shares : List SharedFileResponse} {queued : QueuedShare}
    (h : queued ∈ numbered first shares) :
    first ≤ queued.entry ∧ shares[queued.entry - first]? = some queued.share ∧
      queued.failures = 0 := by
  rcases List.mem_mapIdx.mp h with ⟨i, hi, rfl⟩
  simp [hi]

theorem Accounted.entered (h : s.Accounted) (shares : List SharedFileResponse) :
    (s.enter shares).Accounted := by
  have hheld : (s.enter shares).held.Perm (s.held ++ numbered s.entered.length shares) := by
    unfold held enter
    rw [List.append_assoc, List.append_assoc]
    exact List.perm_append_comm.append_left _
  have hcases : ∀ queued ∈ (s.enter shares).held,
      queued ∈ s.held ∨ queued ∈ numbered s.entered.length shares :=
    fun queued hqueued => List.mem_append.mp (hheld.subset hqueued)
  have hold : ∀ {entry : Nat} {share : SharedFileResponse}, s.entered[entry]? = some share →
      (s.enter shares).entered[entry]? = some share := by
    intro entry share hshare
    have hbound := (List.getElem?_eq_some_iff.mp hshare).1
    exact (List.getElem?_append_left hbound).trans hshare
  constructor
  case single => exact h.single
  case balanced =>
      have hlength : (s.enter shares).entered.length =
          s.entered.length + (numbered s.entered.length shares).length := by
        simp [enter, numbered]
      rw [hlength]
      exact (h.balanced.enter (numbered_entries _ shares)).perm hheld
  case same =>
      intro queued hqueued
      rcases List.mem_append.mp hqueued with hqueued | hqueued
      · rcases hcases queued hqueued with hqueued | hqueued
        · exact hold (h.same queued (List.mem_append_left _ hqueued))
        · rcases mem_numbered hqueued with ⟨hfirst, hshare, _⟩
          exact (List.getElem?_append_right hfirst).trans hshare
      · exact hold (h.same queued (List.mem_append_right _ hqueued))
  case known =>
      intro id hsome
      rcases h.known id hsome with ⟨share, hshare, hid⟩
      exact ⟨share, List.mem_append_left _ hshare, hid⟩
  case counted =>
      intro queued hqueued hdistinct
      rcases hcases queued hqueued with hqueued | hqueued
      · exact h.counted queued hqueued (hdistinct.of_append rfl)
      · -- no failures are noted under an id that is new
        rcases mem_numbered hqueued with ⟨hfirst, _, hfailures⟩
        have hnone : s.shareRetryState queued.share.id = none := by
          by_contra hsome
          rcases h.known _ hsome with ⟨share, hshare, hid⟩
          rcases List.getElem?_of_mem hshare with ⟨other, hother⟩
          have hbefore := (List.getElem?_eq_some_iff.mp hother).1
          have hsame := hdistinct other share (hold hother) hid
          omega
        have hattempts : (s.enter shares).attempts queued.share.id = 0 := by
          change ((s.shareRetryState queued.share.id).map ShareRetryState.attempts).getD 0 = 0
          rw [hnone]
          rfl
        rw [hattempts, hfailures]
        exact ⟨rfl, by decide⟩
  case handed => exact h.handed
  case oversized => exact h.oversized
  case quarantined =>
      exact fun queued hqueued hdistinct => h.quarantined queued hqueued (hdistinct.of_append rfl)

theorem Accounted.exited (h : s.Accounted) (hsingle : s'.Single) {queued last : QueuedShare}
    {rest : List QueuedShare} {exit : ShareExit}
    (hheld : s.held.Perm (queued :: rest)) (hheld' : s'.held.Perm rest)
    (hlast : last.entry = queued.entry ∧ last.share = queued.share)
    (hentered : s'.entered = s.entered) (hleft : s'.left = s.left ++ [(last, exit)])
    (hhanded : s'.opened ++ s'.pendingDecryptedFiles =
      s.opened ++ s.pendingDecryptedFiles ++ (openedBy (last, exit)).toList)
    (hretry : ∀ id, s'.shareRetryState id =
      if exit.forgets = true ∧ id = queued.share.id then none else s.shareRetryState id)
    (hoversized : ∀ serverMaxSize, exit = .oversized serverMaxSize →
      sharePayloadExceedsLimit queued.share.content.utf8ByteSize serverMaxSize = true)
    (hquarantined : exit = .quarantined → last.failures = queued.failures + 1 ∧
      MAX_DECRYPT_ATTEMPTS ≤ s.attempts queued.share.id + 1) : s'.Accounted := by
  have hgone : s'.gone = s.gone ++ [last] := by
    unfold gone
    rw [hleft, List.map_append]
    rfl
  have hdistinct : ∀ queued, s'.DistinctId queued → s.DistinctId queued :=
    fun queued => .of_append (hentered.trans (List.append_nil _).symm)
  have hqueued := hheld.symm.subset List.mem_cons_self
  have hrest : ∀ other ∈ s'.held, other ∈ rest := fun other hother => hheld'.subset hother
  have hbefore : ∀ other ∈ rest, other ∈ s.held :=
    fun other hother => hheld.symm.subset (List.mem_cons_of_mem queued hother)
  constructor
  case single => exact hsingle
  case balanced =>
      rw [hentered, hgone]
      exact ((h.balanced.perm hheld.symm).leave hlast.1).perm hheld'
  case same =>
      intro other hother
      rw [hentered]
      rw [hgone, ← List.append_assoc, List.mem_append] at hother
      rcases hother with hother | hother
      · refine h.same other ?_
        rcases List.mem_append.mp hother with hother | hother
        · exact List.mem_append_left _ (hbefore other (hrest other hother))
        · exact List.mem_append_right _ hother
      · rw [List.mem_singleton.mp hother, hlast.1, hlast.2]
        exact h.same queued (List.mem_append_left _ hqueued)
  case known =>
      intro id hsome
      rw [hentered]
      rw [hretry] at hsome
      split at hsome
      · exact absurd rfl hsome
      · exact h.known id hsome
  case counted =>
      intro other hother hid
      have hapart := h.apart hheld (hrest other hother) (hdistinct other hid)
      have hattempts : s'.attempts other.share.id = s.attempts other.share.id := by
        unfold attempts
        rw [hretry, if_neg fun hboth => hapart hboth.2]
      rw [hattempts]
      exact h.counted other (hbefore other (hrest other hother)) (hdistinct other hid)
  case handed =>
      rw [hhanded, hleft, List.filterMap_append, h.handed]
      cases hopens : openedBy (last, exit) <;> simp [hopens]
  case oversized =>
      intro other serverMaxSize hother
      rw [hleft, List.mem_append, List.mem_singleton] at hother
      rcases hother with hother | hother
      · exact h.oversized other serverMaxSize hother
      · cases hother
        rw [hlast.2]
        exact hoversized serverMaxSize rfl
  case quarantined =>
      intro other hother hid
      rw [hleft, List.mem_append, List.mem_singleton] at hother
      rcases hother with hother | hother
      · exact h.quarantined other hother (hdistinct other hid)
      · cases hother
        rcases hquarantined rfl with ⟨hfailures, hattempts⟩
        have hdistinct' : s.DistinctId queued := by
          intro entry share hshare hsame
          rw [← hlast.1]
          exact hdistinct last hid entry share hshare (hlast.2 ▸ hsame)
        rcases h.counted queued hqueued hdistinct' with ⟨hcount, hbelow⟩
        omega

theorem Accounted.failed (h : s.Accounted) (hsingle : s'.Single) {queued : QueuedShare}
    {rest : List QueuedShare} {nextRetryAt : Nat} (hheld : s.held.Perm (queued :: rest))
    (hheld' : s'.held.Perm ({ queued with failures := queued.failures + 1 } :: rest))
    (hentered : s'.entered = s.entered) (hleft : s'.left = s.left)
    (hhanded : s'.opened ++ s'.pendingDecryptedFiles = s.opened ++ s.pendingDecryptedFiles)
    (hbelow : s.attempts queued.share.id + 1 < MAX_DECRYPT_ATTEMPTS)
    (hretry : s'.shareRetryState = Function.update s.shareRetryState queued.share.id
      (some ⟨s.attempts queued.share.id + 1, nextRetryAt⟩)) : s'.Accounted := by
  have hgone : s'.gone = s.gone := congrArg (List.map Prod.fst) hleft
  have hdistinct : ∀ queued, s'.DistinctId queued → s.DistinctId queued :=
    fun queued => .of_append (hentered.trans (List.append_nil _).symm)
  have hqueued := hheld.symm.subset List.mem_cons_self
  have hbefore : ∀ other ∈ rest, other ∈ s.held :=
    fun other hother => hheld.symm.subset (List.mem_cons_of_mem queued hother)
  have hcases : ∀ other ∈ s'.held,
      other = { queued with failures := queued.failures + 1 } ∨ other ∈ rest :=
    fun other hother => List.mem_cons.mp (hheld'.subset hother)
  constructor
  case single => exact hsingle
  case balanced =>
      have hrenewed : Custody.Balanced QueuedShare.entry s.entered.length
          ({ queued with failures := queued.failures + 1 } :: rest) s.gone :=
        (h.balanced.perm hheld.symm).renew rfl
      rw [hentered, hgone]
      exact hrenewed.perm hheld'
  case same =>
      intro other hother
      rw [hentered]
      rw [hgone] at hother
      rcases List.mem_append.mp hother with hother | hother
      · rcases hcases other hother with rfl | hother
        · exact h.same queued (List.mem_append_left _ hqueued)
        · exact h.same other (List.mem_append_left _ (hbefore other hother))
      · exact h.same other (List.mem_append_right _ hother)
  case known =>
      intro id hsome
      rw [hentered]
      by_cases hid : id = queued.share.id
      · have hshare := h.same queued (List.mem_append_left _ hqueued)
        exact ⟨queued.share, List.mem_of_getElem? hshare, hid.symm⟩
      · rw [hretry, Function.update_of_ne hid] at hsome
        exact h.known id hsome
  case counted =>
      intro other hother hid
      rcases hcases other hother with rfl | hother
      · have hcount := (h.counted queued hqueued (hdistinct _ hid)).1
        have hattempts : s'.attempts queued.share.id = s.attempts queued.share.id + 1 := by
          unfold attempts
          rw [hretry, Function.update_self]
          rfl
        rw [hattempts, hcount]
        exact ⟨rfl, hbelow⟩
      · have hapart := h.apart hheld hother (hdistinct other hid)
        have hattempts : s'.attempts other.share.id = s.attempts other.share.id := by
          unfold attempts
          rw [hretry, Function.update_of_ne hapart]
        rw [hattempts]
        exact h.counted other (hbefore other hother) (hdistinct other hid)
  case handed => rw [hhanded, hleft, h.handed]
  case oversized => exact hleft ▸ h.oversized
  case quarantined =>
      intro other hother hid
      exact h.quarantined other (hleft ▸ hother) (hdistinct other hid)

theorem Accounted.move (h : s.Accounted) (hsingle : s'.Single) (hmove : QueueMove s s') :
    s'.Accounted := by
  cases hmove with
  | kept hheld hentered hleft hhanded hattempts hretry =>
      exact h.kept hsingle hheld hentered hleft hhanded hattempts hretry
  | entered shares hstep => exact hstep ▸ h.entered shares
  | exited queued last rest exit hheld hheld' hlast hentered hleft hhanded hretry hoversized
      hquarantined =>
      exact h.exited hsingle hheld hheld' hlast hentered hleft hhanded hretry hoversized
        hquarantined
  | failed queued rest nextRetryAt hheld hheld' hentered hleft hhanded hbelow hretry =>
      exact h.failed hsingle hheld hheld' hentered hleft hhanded hbelow hretry

theorem Accounted.step {action : QueueAction} (h : s.Accounted) (hstep : s.step action = some s') :
    s'.Accounted :=
  h.move (h.single.step hstep) (move_of_step hstep)

end ProfileQueue

/-- After any interleaving of fetches and passes, on any number of profiles. -/
theorem decryption_conserves {actions : List (String × QueueAction)} {s : String → ProfileQueue}
    (hrun : run (stepAt ProfileQueue.step) (fun _ => ProfileQueue.launched) actions = some s)
    (profile : String) : (s profile).Conserved :=
  (invariant_of_members ProfileQueue.Accounted (fun _ _ _ haccounted hstep => haccounted.step hstep)
    (fun _ => ProfileQueue.accounted_launched) hrun profile).conserved

/-- A pass over a queue with one share in it, which is decoded or not. -/
def samplePass (now : Nat) (decoded : Option String) : List QueueAction :=
  [.checkDue now, .claim, .readLimit 0 now, .takeDue 0, .loadPrivateKey 0 .loaded now,
    .decodeNext 0 decoded now, .requeue 0, .finishPass 0]

/--
A share that cannot be decoded is tried until it is given up; one of another profile is
opened.
-/
def sampleQueues : List (String × QueueAction) :=
  ("p", .push ⟨"a", "notes.txt", "c2VjcmV0"⟩) :: ("q", .push ⟨"a", "list.txt", "dG9kbw=="⟩) ::
    (([0, 2000, 6000, 14000, 30000].flatMap fun now => samplePass now none).map ("p", ·) ++
      (samplePass 0 (some "todo")).map ("q", ·))

theorem decryption_conserves_sample :
    (run (stepAt ProfileQueue.step) (fun _ => ProfileQueue.launched) sampleQueues).any
        (fun s => decide ((s "p").left.map Prod.snd = [.quarantined] ∧
          (s "q").left.map Prod.snd = [.decrypted "todo"])) = true ∧
      ∀ s, run (stepAt ProfileQueue.step) (fun _ => ProfileQueue.launched) sampleQueues = some s →
        (s "p").Conserved ∧ (s "q").Conserved :=
  ⟨by decide, fun _ hrun => ⟨decryption_conserves hrun "p", decryption_conserves hrun "q"⟩⟩

end Fulgur
