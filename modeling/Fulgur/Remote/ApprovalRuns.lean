import Fulgur.Library.Tickets
import Fulgur.Remote.HostApproval

/-! # Who a password is sent to

Whatever the operations, their dialogs and other programs do in between, a password
is sent to a server only if its key was found in the file for this host and port,
or the user trusted exactly this key for this host and port in the dialog of this
operation.
-/

namespace Fulgur

open LabelledRun KnownHosts

variable {KeyData : Type} {lookups : HostKeyLookups KeyData}
  {shared shared' : SharedHosts} {index : Nat} {target : SshTarget} {serverKey : List UInt8}

/-! ## Why a key is trusted -/

/-- A text of the file has the key for the host, as the library or the parser reads it. -/
def FoundInFile (lookups : HostKeyLookups KeyData) (shared : SharedHosts) (target : SshTarget)
    (serverKey : List UInt8) : Prop :=
  ∃ text ∈ shared.texts, lookups.library text target serverKey = .matched ∨
    ∃ entries, parseKnownHosts lookups.parseLine text = some entries ∧
      ∃ entry ∈ entries, Applies lookups.hmacSha1 target.host target.port entry ∧
        lookups.publicKeyFromBytes serverKey = some entry.keyData

/-- The reason of one operation. When it asks the user, it is bound by the answer. -/
def Vouched (lookups : HostKeyLookups KeyData) (shared : SharedHosts) (index : Nat)
    (target : SshTarget) (serverKey : List UInt8) : Prop :=
  FoundInFile lookups shared target serverKey ∧ index ∉ shared.asked ∨
    (index, lookups.request target serverKey) ∈ shared.trusted

/-- Some operation had a reason to trust the server of a session. -/
def Approved (lookups : HostKeyLookups KeyData) (shared : SharedHosts)
    (session : ConnectedSession) : Prop :=
  FoundInFile lookups shared session.target session.serverKey ∨
    ∃ index, (index, lookups.request session.target session.serverKey) ∈ shared.trusted

theorem Vouched.approved (h : Vouched lookups shared index target serverKey) :
    Approved lookups shared ⟨target, serverKey⟩ := by
  cases h with
  | inl hfound => exact Or.inl hfound.1
  | inr htrusted => exact Or.inr ⟨index, htrusted⟩

/-- The logs only grow. -/
structure Extends (shared shared' : SharedHosts) : Prop where
  texts : ∀ text ∈ shared.texts, text ∈ shared'.texts
  trusted : ∀ trust ∈ shared.trusted, trust ∈ shared'.trusted

theorem Extends.refl (shared : SharedHosts) : Extends shared shared :=
  ⟨fun _ h => h, fun _ h => h⟩

theorem FoundInFile.extend (h : FoundInFile lookups shared target serverKey)
    (hextends : Extends shared shared') : FoundInFile lookups shared' target serverKey := by
  obtain ⟨text, htext, hfound⟩ := h
  exact ⟨text, hextends.texts text htext, hfound⟩

theorem Approved.extend {session : ConnectedSession} (h : Approved lookups shared session)
    (hextends : Extends shared shared') : Approved lookups shared' session := by
  cases h with
  | inl hfound => exact Or.inl (hfound.extend hextends)
  | inr htrusted =>
      obtain ⟨other, htrusted⟩ := htrusted
      exact Or.inr ⟨other, hextends.trusted _ htrusted⟩

/-- Nothing about an operation is added to the logs. -/
structure Untouched (index : Nat) (shared shared' : SharedHosts) : Prop where
  asked : index ∈ shared'.asked → index ∈ shared.asked
  answered : index ∈ shared'.answered → index ∈ shared.answered
  passwords : index ∈ shared'.passwords.map Prod.fst → index ∈ shared.passwords.map Prod.fst

theorem Untouched.refl (index : Nat) (shared : SharedHosts) : Untouched index shared shared :=
  ⟨id, id, id⟩

theorem Vouched.extend (h : Vouched lookups shared index target serverKey)
    (hextends : Extends shared shared') (hasked : index ∈ shared'.asked → index ∈ shared.asked) :
    Vouched lookups shared' index target serverKey := by
  cases h with
  | inl hfound => exact Or.inl ⟨hfound.1.extend hextends, fun hold => hfound.2 (hasked hold)⟩
  | inr htrusted => exact Or.inr (hextends.trusted _ htrusted)

theorem foundInFile_of_matched [DecidableEq KeyData] {primary : CheckResult}
    (hfile : shared.file ∈ shared.texts)
    (hprimary : primary = .matched → FoundInFile lookups shared target serverKey)
    (h : resolveWithKnownHostsFallback primary
      (lookups.checkKnownHostsWithParser shared.file target serverKey) = .matched) :
    FoundInFile lookups shared target serverKey := by
  rcases resolveWithKnownHostsFallback_matched_iff.mp h with hmatched | hmatched
  · exact hprimary hmatched
  · obtain ⟨entries, hentries, hmap⟩ := Option.bind_eq_some_iff.mp hmatched
    obtain ⟨key, hkey, hresolve⟩ := Option.map_eq_some_iff.mp hmap
    obtain ⟨entry, hentry, happlies, hdata⟩ := (resolve_matched_iff entries).mp hresolve
    exact ⟨shared.file, hfile, Or.inr ⟨entries, hentries, entry, hentry, happlies, hdata ▸ hkey⟩⟩

/-! ## One operation -/

namespace HostKeyTask

variable {t t' : HostKeyTask} {move : TaskMove}

/-- Nothing was asked yet. -/
def Quiet (shared : SharedHosts) (index : Nat) (t : HostKeyTask) : Prop :=
  t.pendingHostKey = none ∧ t.dialog = none ∧ t.decision = none ∧ index ∉ shared.asked ∧
    index ∉ shared.answered ∧ index ∉ shared.passwords.map Prod.fst

def PhaseOk (lookups : HostKeyLookups KeyData) (shared : SharedHosts) (index : Nat)
    (t : HostKeyTask) : Prop :=
  match t.phase with
  | .checkout | .connecting | .handshaken _ => t.Quiet shared index
  | .lookedUp serverKey primary => t.Quiet shared index ∧
      (primary = .matched → FoundInFile lookups shared t.target serverKey)
  | .waiting serverKey =>
      (∀ request, t.pendingHostKey = some request → request = lookups.request t.target serverKey) ∧
      (∀ request, t.dialog = some request → request = lookups.request t.target serverKey) ∧
      (t.decision = some .accept → (index, lookups.request t.target serverKey) ∈ shared.trusted)
  | .accepted serverKey => (index, lookups.request t.target serverKey) ∈ shared.trusted
  | .appending serverKey _ entry =>
      (index, lookups.request t.target serverKey) ∈ shared.trusted ∧
      knownHostsEntryLine (knownHostsEntryHost t.target.host t.target.port) serverKey = .ok entry
  | .trusted serverKey => Vouched lookups shared index t.target serverKey
  | .authenticating session | .working session => Approved lookups shared session
  | .over => True

def brought (t : HostKeyTask) : Option (Except String ConnectedSession) :=
  match t.task.worker with
  | .worked outcome | .publishing outcome | .storing outcome => some outcome
  | _ => none

structure TaskOk (lookups : HostKeyLookups KeyData) (shared : SharedHosts) (index : Nat)
    (t : HostKeyTask) : Prop where
  phase : PhaseOk lookups shared index t
  asks : t.pendingHostKey ≠ none ∨ t.dialog ≠ none → index ∉ shared.answered
  apart : t.pendingHostKey ≠ none → t.dialog = none
  brought : ∀ session, t.brought = some (.ok session) → Approved lookups shared session
  once : t.task.PublishesOnce

theorem Quiet.untouched (h : t.Quiet shared index) (huntouched : Untouched index shared shared') :
    t.Quiet shared' index := by
  obtain ⟨hpending, hdialog, hdecision, hasked, hanswered, hpasswords⟩ := h
  exact ⟨hpending, hdialog, hdecision, fun hold => hasked (huntouched.asked hold),
    fun hold => hanswered (huntouched.answered hold),
    fun hold => hpasswords (huntouched.passwords hold)⟩

theorem TaskOk.extend (h : TaskOk lookups shared index t) (hextends : Extends shared shared')
    (huntouched : Untouched index shared shared') : TaskOk lookups shared' index t where
  phase := by
    have hphase := h.phase
    unfold PhaseOk at hphase ⊢
    cases hat : t.phase <;> simp only [hat] at hphase ⊢
    case checkout | connecting | handshaken => exact hphase.untouched huntouched
    case lookedUp =>
      exact ⟨hphase.1.untouched huntouched, fun hmatched => (hphase.2 hmatched).extend hextends⟩
    case waiting =>
      exact ⟨hphase.1, hphase.2.1, fun hdecision => hextends.trusted _ (hphase.2.2 hdecision)⟩
    case accepted => exact hextends.trusted _ hphase
    case appending => exact ⟨hextends.trusted _ hphase.1, hphase.2⟩
    case trusted => exact hphase.extend hextends huntouched.asked
    case authenticating | working => exact hphase.extend hextends
  asks := fun hasks hold => h.asks hasks (huntouched.answered hold)
  apart := h.apart
  brought := fun session hsession => (h.brought session hsession).extend hextends
  once := h.once

theorem TaskOk.withPhase (h : TaskOk lookups shared index t) (phase : ConnectPhase)
    (hphase : PhaseOk lookups shared index { t with phase := phase }) :
    TaskOk lookups shared index { t with phase := phase } :=
  ⟨hphase, h.asks, h.apart, h.brought, h.once⟩

/-- The worker ends, with success only over a session that is trusted. -/
theorem TaskOk.ends (h : TaskOk lookups shared index t)
    {outcome : Except String ConnectedSession}
    (houtcome : ∀ session, outcome = .ok session → Approved lookups shared session)
    (hends : t.ends outcome = some t') : TaskOk lookups shared index t' := by
  obtain ⟨task, hworks, rfl⟩ := Option.map_eq_some_iff.mp hends
  refine ⟨trivial, h.asks, h.apart, ?_, h.once.works hworks⟩
  unfold SshTask.works at hworks
  split at hworks
  · cases hworks
    intro session hsession
    simp only [HostKeyTask.brought, Option.some.injEq] at hsession
    split at hsession
    · cases hsession
    · exact houtcome session hsession
  · cases hworks

theorem TaskOk.rejected (h : TaskOk lookups shared index t) (hends : t.rejected = some t') :
    TaskOk lookups shared index t' :=
  h.ends (by simp) hends

/-- What is true of the file, the pool and the logs. -/
structure SharedOk (lookups : HostKeyLookups KeyData) (shared : SharedHosts) : Prop where
  file : shared.file ∈ shared.texts
  pool : ∀ session ∈ shared.pool, Approved lookups shared session
  passwords : ∀ sent ∈ shared.passwords,
    Vouched lookups shared sent.1 sent.2.target sent.2.serverKey
  entries : ∀ written ∈ shared.entries, ∃ target serverKey,
    (written.1, lookups.request target serverKey) ∈ shared.trusted ∧
      knownHostsEntryLine (knownHostsEntryHost target.host target.port) serverKey = .ok written.2
  once : shared.answered.Nodup
  answered : (shared.trusted.map Prod.fst).Sublist shared.answered

/-- What a step of one operation leaves. -/
structure Kept (lookups : HostKeyLookups KeyData) (index : Nat) (shared shared' : SharedHosts)
    (t' : HostKeyTask) : Prop where
  task : TaskOk lookups shared' index t'
  hosts : SharedOk lookups shared'
  grown : Extends shared shared'
  others : ∀ other, other ≠ index → Untouched other shared shared'

theorem Kept.of_same (h : TaskOk lookups shared index t') (hshared : SharedOk lookups shared) :
    Kept lookups index shared shared t' :=
  ⟨h, hshared, .refl shared, fun other _ => .refl other shared⟩

/-- The file has another text. -/
theorem SharedOk.withFile (h : SharedOk lookups shared) (text : String)
    (entries : List (Nat × String))
    (hentries : ∀ written ∈ entries, ∃ target serverKey,
      (written.1, lookups.request target serverKey) ∈ shared.trusted ∧
        knownHostsEntryLine (knownHostsEntryHost target.host target.port) serverKey =
          .ok written.2) :
    let shared' := { shared with
      file := text, texts := shared.texts ++ [text], entries := entries }
    SharedOk lookups shared' ∧ Extends shared shared' ∧
      ∀ other, Untouched other shared shared' := by
  have hextends : Extends shared { shared with
      file := text, texts := shared.texts ++ [text], entries := entries } :=
    ⟨fun old hold => List.mem_append_left _ hold, fun _ hold => hold⟩
  refine ⟨?_, hextends, fun _ => ⟨id, id, id⟩⟩
  constructor
  · simp
  · exact fun session hsession => (h.pool session hsession).extend hextends
  · exact fun sent hsent => (h.passwords sent hsent).extend hextends id
  · exact hentries
  · exact h.once
  · exact h.answered

/-- An operation asks the user for the first time. -/
theorem TaskOk.ask (h : TaskOk lookups shared index t) (hshared : SharedOk lookups shared)
    (hquiet : t.Quiet shared index) (serverKey : List UInt8) :
    Kept lookups index shared { shared with asked := shared.asked ++ [index] }
      { t with
        phase := .waiting serverKey
        pendingHostKey := some (lookups.request t.target serverKey) } := by
  obtain ⟨hpending, hdialog, hdecision, hasked, hanswered, hpasswords⟩ := hquiet
  have hgrown : Extends shared { shared with asked := shared.asked ++ [index] } :=
    ⟨fun _ hold => hold, fun _ hold => hold⟩
  constructor
  · refine ⟨?_, fun _ => hanswered, fun _ => hdialog, fun session hsession => ?_, h.once⟩
    · simp [PhaseOk, hdialog, hdecision]
    · exact (h.brought session hsession).extend hgrown
  · refine ⟨hshared.file, fun session hsession => (hshared.pool session hsession).extend hgrown,
      fun sent hsent => (hshared.passwords sent hsent).extend hgrown fun hold => ?_,
      hshared.entries, hshared.once, hshared.answered⟩
    have hne : sent.1 ≠ index := fun heq => hpasswords (heq ▸ List.mem_map_of_mem hsent)
    simpa [hne] using hold
  · exact hgrown
  · intro other hne
    exact ⟨fun hold => by simpa [hne] using hold, id, id⟩

theorem TaskOk.checked (h : TaskOk lookups shared index t) (hshared : SharedOk lookups shared)
    {primary result : CheckResult} (hat : t.phase = .lookedUp serverKey primary)
    (hresult : result = .matched → FoundInFile lookups shared t.target serverKey)
    (hchecked : t.checked lookups shared index serverKey result = some (shared', t')) :
    Kept lookups index shared shared' t' := by
  have hphase := h.phase
  simp only [PhaseOk, hat] at hphase
  have hquiet := hphase.1
  unfold HostKeyTask.checked at hchecked
  cases result with
  | matched =>
      cases hchecked
      exact .of_same (h.withPhase (.trusted serverKey) (Or.inl ⟨hresult rfl, hquiet.2.2.2.1⟩))
        hshared
  | mismatch =>
      obtain ⟨after, hends, hsome⟩ := Option.map_eq_some_iff.mp hchecked
      cases hsome
      exact .of_same (h.ends (by simp) hends) hshared
  | notFound =>
      cases hchecked
      exact h.ask hshared hquiet serverKey
  | failure =>
      cases hchecked
      exact h.ask hshared hquiet serverKey

/-- A request moves on from its place to a dialog, or from there to an answer. -/
theorem PhaseOk.answer (h : PhaseOk lookups shared index t) {request : HostKeyRequest}
    (hasks : t.pendingHostKey = some request ∨ t.dialog = some request)
    (hgrown : Extends shared shared') (hasked : shared'.asked = shared.asked) (t' : HostKeyTask)
    (hphase : t'.phase = t.phase) (htarget : t'.target = t.target)
    (hpending : t'.pendingHostKey = none) (hdialog : t'.dialog = none ∨ t'.dialog = some request)
    (hdecision : t'.decision = some .accept →
      t.decision = some .accept ∨ (index, request) ∈ shared'.trusted) :
    PhaseOk lookups shared' index t' := by
  unfold PhaseOk at h ⊢
  rw [hphase]
  have hloud : ¬t.Quiet shared index := by
    intro hquiet
    cases hasks with
    | inl hplace => simp [hquiet.1] at hplace
    | inr hopen => simp [hquiet.2.1] at hopen
  cases hat : t.phase <;> simp only [hat, htarget] at h ⊢
  case checkout | connecting | handshaken => exact absurd h hloud
  case lookedUp => exact absurd h.1 hloud
  case waiting serverKey =>
    have hrequest : request = lookups.request t.target serverKey := by
      cases hasks with
      | inl hplace => exact h.1 request hplace
      | inr hopen => exact h.2.1 request hopen
    refine ⟨by simp [hpending], fun other hother => ?_, fun haccept => ?_⟩
    · rcases hdialog with hnone | hsome
      · simp [hnone] at hother
      · rw [hsome, Option.some.injEq] at hother
        rw [← hother, hrequest]
    · cases hdecision haccept with
      | inl hbefore => exact hgrown.trusted _ (h.2.2 hbefore)
      | inr htrusted => rwa [← hrequest]
  case accepted => exact hgrown.trusted _ h
  case appending => exact ⟨hgrown.trusted _ h.1, h.2⟩
  case trusted => exact h.extend hgrown fun hold => hasked ▸ hold
  case authenticating | working => exact h.extend hgrown

/-- The user answers this operation for the first time, and may trust its key. -/
theorem SharedOk.answer (h : SharedOk lookups shared) (requests : List HostKeyRequest)
    (hshort : requests.length ≤ 1) (hnew : index ∉ shared.answered) :
    let shared' := { shared with
      answered := shared.answered ++ [index]
      trusted := shared.trusted ++ requests.map fun request => (index, request) }
    SharedOk lookups shared' ∧ Extends shared shared' := by
  have hgrown : Extends shared { shared with
      answered := shared.answered ++ [index]
      trusted := shared.trusted ++ requests.map fun request => (index, request) } :=
    ⟨fun _ hold => hold, fun _ hold => List.mem_append_left _ hold⟩
  refine ⟨?_, hgrown⟩
  constructor
  · exact h.file
  · exact fun session hsession => (h.pool session hsession).extend hgrown
  · exact fun sent hsent => (h.passwords sent hsent).extend hgrown id
  · intro written hwritten
    obtain ⟨target, serverKey, htrusted, hline⟩ := h.entries written hwritten
    exact ⟨target, serverKey, hgrown.trusted _ htrusted, hline⟩
  · rw [List.nodup_append]
    refine ⟨h.once, by simp, ?_⟩
    intro old hold new hmem heq
    rw [List.mem_singleton.mp hmem] at heq
    exact hnew (heq ▸ hold)
  · rw [List.map_append, List.map_map]
    apply h.answered.append
    cases requests with
    | nil => exact List.nil_sublist _
    | cons request rest =>
        have hnil : rest = [] := List.length_eq_zero_iff.mp (by simpa using hshort)
        rw [hnil]
        exact List.Sublist.refl _

theorem worker_timeOut (task : SshTask ConnectedSession) (label : String) :
    (task.timeOut label).1.worker = task.worker := by
  unfold SshTask.timeOut
  split <;> rfl

/-- A dialog is open only when its request is in no other place. -/
theorem TaskOk.pending_of_dialog (h : TaskOk lookups shared index t) {request : HostKeyRequest}
    (hopen : t.dialog = some request) : t.pendingHostKey = none := by
  by_contra hpending
  simp [h.apart hpending] at hopen

/-- The monitor takes a request out of its place and opens a dialog, if the window is there. -/
theorem TaskOk.poll (h : TaskOk lookups shared index t) (hshared : SharedOk lookups shared)
    {shown : Bool} (hstep : t.monitorStep shared index (.poll shown) = some (shared', t')) :
    Kept lookups index shared shared' t' := by
  simp only [HostKeyTask.monitorStep] at hstep
  split at hstep
  · cases hstep
  · split at hstep
    · rename_i request hpending
      cases hstep
      have hphase := h.phase.answer (Or.inl hpending) (.refl shared) rfl
        ({ t with pendingHostKey := none, dialog := if shown then some request else none })
        rfl rfl rfl (by cases shown <;> simp) Or.inl
      exact .of_same ⟨hphase, fun _ => h.asks (Or.inl (by simp [hpending])), by simp, h.brought,
        h.once⟩ hshared
    · cases hstep
      exact .of_same h hshared

/-- Either answer closes the dialog; only `Trust and connect` is a trust of the key. -/
theorem TaskOk.press (h : TaskOk lookups shared index t) (hshared : SharedOk lookups shared)
    {decision : HostKeyDecision}
    (hstep : t.monitorStep shared index (.press decision) = some (shared', t')) :
    Kept lookups index shared shared' t' := by
  simp only [HostKeyTask.monitorStep] at hstep
  split at hstep
  · rename_i request hopen
    cases hstep
    have hpending := h.pending_of_dialog hopen
    obtain ⟨htrust, hgrown⟩ :=
      hshared.answer [request] (Nat.le_refl 1) (h.asks (Or.inr (by simp [hopen])))
    have hphase := h.phase.answer (Or.inr hopen) hgrown rfl
      ({ t with dialog := none, decision := some .accept }) rfl rfl hpending (Or.inl rfl)
      fun _ => Or.inr (by simp)
    refine ⟨⟨hphase, ?_, fun _ => rfl, ?_, h.once⟩, htrust, hgrown,
      fun other hne => ⟨id, fun hold => ?_, id⟩⟩
    · simp [hpending]
    · exact fun session hsession => (h.brought session hsession).extend hgrown
    · simpa [hne] using hold
  · rename_i request hopen
    cases hstep
    have hpending := h.pending_of_dialog hopen
    obtain ⟨hrefused, hgrown⟩ :=
      hshared.answer [] (Nat.zero_le 1) (h.asks (Or.inr (by simp [hopen])))
    simp only [List.map_nil, List.append_nil] at hrefused hgrown
    have hphase := h.phase.answer (Or.inr hopen) hgrown rfl
      ({ t with dialog := none, decision := some .reject }) rfl rfl hpending (Or.inl rfl)
      (by simp)
    refine ⟨⟨hphase, by simp [hpending], fun _ => rfl, ?_, h.once⟩, hrefused, hgrown,
      fun other hne => ⟨id, fun hold => by simpa [hne] using hold, id⟩⟩
    exact fun session hsession => (h.brought session hsession).extend hgrown
  · cases hstep

/-- A request that nobody has shown by the deadline counts as rejected. -/
theorem TaskOk.monitorTimesOut (h : TaskOk lookups shared index t)
    (hshared : SharedOk lookups shared)
    (hstep : t.monitorStep shared index .monitorTimesOut = some (shared', t')) :
    Kept lookups index shared shared' t' := by
  simp only [HostKeyTask.monitorStep] at hstep
  split at hstep
  · cases hstep
  · have honce := h.once.timeOut t.label
    have hlate : TaskOk lookups shared index
        { t with task := { (t.task.timeOut t.label).1 with monitorDone := true } } := by
      refine ⟨h.phase, h.asks, h.apart, fun session hsession => h.brought session ?_, honce⟩
      rwa [HostKeyTask.brought, worker_timeOut] at hsession
    split at hstep
    · rename_i request hpending
      cases hstep
      have hdialog := h.apart (by simp [hpending])
      have hphase := h.phase.answer (Or.inl hpending) (.refl shared) rfl
        ({ t with
          pendingHostKey := none
          decision := some .reject
          task := { (t.task.timeOut t.label).1 with monitorDone := true } })
        rfl rfl rfl (Or.inl hdialog) (by simp)
      exact .of_same ⟨hphase, by simp [hdialog], by simp, hlate.brought, hlate.once⟩ hshared
    · cases hstep
      exact .of_same hlate hshared

theorem TaskOk.monitorStep (h : TaskOk lookups shared index t) (hshared : SharedOk lookups shared)
    (hstep : t.monitorStep shared index move = some (shared', t')) :
    Kept lookups index shared shared' t' := by
  cases move
  case poll shown => exact h.poll hshared hstep
  case press decision => exact h.press hshared hstep
  case monitorTimesOut => exact h.monitorTimesOut hshared hstep
  all_goals simp only [HostKeyTask.monitorStep] at hstep
  case dismiss =>
    split at hstep
    · rename_i hsome
      cases hstep
      obtain ⟨request, hopen⟩ := Option.isSome_iff_exists.mp hsome
      have hpending := h.pending_of_dialog hopen
      have hphase := h.phase.answer (Or.inr hopen) (.refl shared) rfl
        ({ t with dialog := none }) rfl rfl hpending (Or.inl rfl) Or.inl
      exact .of_same ⟨hphase, by simp [hpending], fun _ => rfl, h.brought, h.once⟩ hshared
    · cases hstep
  case monitorEnds =>
    split at hstep
    · cases hstep
      exact .of_same ⟨h.phase, h.asks, h.apart, h.brought, h.once⟩ hshared
    · cases hstep
  case cancel =>
    obtain ⟨task, hcancel, hsome⟩ := Option.map_eq_some_iff.mp hstep
    cases hsome
    refine .of_same ⟨h.phase, h.asks, h.apart, fun session hsession => h.brought session ?_,
      h.once.cancel hcancel⟩ hshared
    unfold SshTask.cancel at hcancel
    split at hcancel
    · cases hcancel
    · cases hcancel
      exact hsession
  all_goals cases hstep

theorem brought_of_advance {task : SshTask ConnectedSession}
    {stored : Option (Except String ConnectedSession)} {session : ConnectedSession}
    (hadvance : t.task.advance = some (task, stored))
    (h : { t with task := task }.brought = some (.ok session)) :
    t.brought = some (.ok session) := by
  unfold SshTask.advance at hadvance
  unfold HostKeyTask.brought at h ⊢
  cases hworker : t.task.worker <;> simp only [hworker] at hadvance ⊢
  case worked | publishing =>
    split at hadvance
    · cases hadvance
      simp at h
    · cases hadvance
      simpa using h
  case storing =>
    cases hadvance
    simp at h
  all_goals cases hadvance

variable [DecidableEq KeyData]

attribute [local simp] HostKeyTask.workerStep

theorem TaskOk.takePooled (h : TaskOk lookups shared index t) (hshared : SharedOk lookups shared)
    {place : Nat} {authenticated : Bool}
    (hstep : t.workerStep lookups shared index (.takePooled place authenticated) =
      some (shared', t')) :
    Kept lookups index shared shared' t' := by
  have hphase := h.phase
  simp only [HostKeyTask.workerStep] at hstep
  split at hstep
  · rename_i session hat hplace
    obtain ⟨htarget, hsome⟩ := Option.ite_none_right_eq_some.mp hstep
    cases hsome
    simp only [PhaseOk, hat] at hphase
    have hsame : Extends shared { shared with pool := shared.pool.eraseIdx place } :=
      ⟨fun _ hold => hold, fun _ hold => hold⟩
    have hpool : SharedOk lookups { shared with pool := shared.pool.eraseIdx place } :=
      ⟨hshared.file, fun other hother => hshared.pool other (List.mem_of_mem_eraseIdx hother),
        hshared.passwords, hshared.entries, hshared.once, hshared.answered⟩
    refine ⟨(h.withPhase _ ?_).extend hsame ⟨id, id, id⟩, hpool, hsame,
      fun _ _ => ⟨id, id, id⟩⟩
    split
    · exact hshared.pool session (List.mem_of_getElem? hplace)
    · exact hphase
  · cases hstep

theorem TaskOk.connect (h : TaskOk lookups shared index t) (hshared : SharedOk lookups shared)
    (hstep : t.workerStep lookups shared index .connect = some (shared', t')) :
    Kept lookups index shared shared' t' := by
  have hphase := h.phase
  simp only [HostKeyTask.workerStep] at hstep
  split at hstep
  · rename_i hat
    cases hstep
    simp only [PhaseOk, hat] at hphase
    exact .of_same (h.withPhase _ hphase) hshared
  · cases hstep

theorem TaskOk.handshake (h : TaskOk lookups shared index t) (hshared : SharedOk lookups shared)
    {serverKey : List UInt8}
    (hstep : t.workerStep lookups shared index (.handshake serverKey) = some (shared', t')) :
    Kept lookups index shared shared' t' := by
  have hphase := h.phase
  simp only [HostKeyTask.workerStep] at hstep
  split at hstep
  · rename_i hat
    cases hstep
    simp only [PhaseOk, hat] at hphase
    exact .of_same (h.withPhase _ hphase) hshared
  · cases hstep

theorem TaskOk.lookUp (h : TaskOk lookups shared index t) (hshared : SharedOk lookups shared)
    (hstep : t.workerStep lookups shared index .lookUp = some (shared', t')) :
    Kept lookups index shared shared' t' := by
  have hphase := h.phase
  simp only [HostKeyTask.workerStep] at hstep
  split at hstep
  · rename_i serverKey hat
    cases hstep
    simp only [PhaseOk, hat] at hphase
    refine .of_same (h.withPhase _ ⟨hphase, fun hmatched => ?_⟩) hshared
    exact ⟨shared.file, hshared.file, Or.inl hmatched⟩
  · cases hstep

theorem TaskOk.parse (h : TaskOk lookups shared index t) (hshared : SharedOk lookups shared)
    (hstep : t.workerStep lookups shared index .parse = some (shared', t')) :
    Kept lookups index shared shared' t' := by
  have hphase := h.phase
  simp only [HostKeyTask.workerStep] at hstep
  split at hstep
  · rename_i serverKey primary hat
    simp only [PhaseOk, hat] at hphase
    refine h.checked hshared hat (fun hmatched => ?_) hstep
    exact foundInFile_of_matched hshared.file hphase.2 hmatched
  · cases hstep

theorem TaskOk.receive (h : TaskOk lookups shared index t) (hshared : SharedOk lookups shared)
    (hstep : t.workerStep lookups shared index .receive = some (shared', t')) :
    Kept lookups index shared shared' t' := by
  have hphase := h.phase
  simp only [HostKeyTask.workerStep] at hstep
  split at hstep
  · rename_i serverKey hat hdecision
    cases hstep
    simp only [PhaseOk, hat] at hphase
    exact .of_same ⟨hphase.2.2 hdecision, h.asks, h.apart, h.brought, h.once⟩ hshared
  · rename_i serverKey hat hdecision
    obtain ⟨after, hrejected, hsome⟩ := Option.map_eq_some_iff.mp hstep
    cases hsome
    simp only [PhaseOk, hat] at hphase
    have hread : TaskOk lookups shared index { t with decision := none } := by
      refine ⟨?_, h.asks, h.apart, h.brought, h.once⟩
      simpa [PhaseOk, hat] using ⟨hphase.1, hphase.2.1⟩
    exact .of_same (hread.rejected hrejected) hshared
  · cases hstep

theorem TaskOk.waitTimesOut (h : TaskOk lookups shared index t) (hshared : SharedOk lookups shared)
    (hstep : t.workerStep lookups shared index .waitTimesOut = some (shared', t')) :
    Kept lookups index shared shared' t' := by
  simp only [HostKeyTask.workerStep] at hstep
  split at hstep
  · rename_i serverKey hat hdecision
    obtain ⟨after, hrejected, hsome⟩ := Option.map_eq_some_iff.mp hstep
    cases hsome
    have hlate : TaskOk lookups shared index { t with timedOut := true } :=
      ⟨h.phase, h.asks, h.apart, h.brought, h.once⟩
    exact .of_same (hlate.rejected hrejected) hshared
  · cases hstep

theorem TaskOk.disconnected (h : TaskOk lookups shared index t) (hshared : SharedOk lookups shared)
    (hstep : t.workerStep lookups shared index .disconnected = some (shared', t')) :
    Kept lookups index shared shared' t' := by
  simp only [HostKeyTask.workerStep] at hstep
  split at hstep
  · obtain ⟨after, hrejected, hsome⟩ := Option.map_eq_some_iff.mp hstep
    cases hsome
    exact .of_same (h.rejected hrejected) hshared
  · cases hstep

theorem TaskOk.lookAtEnd (h : TaskOk lookups shared index t) (hshared : SharedOk lookups shared)
    (hstep : t.workerStep lookups shared index .lookAtEnd = some (shared', t')) :
    Kept lookups index shared shared' t' := by
  have hphase := h.phase
  simp only [HostKeyTask.workerStep] at hstep
  split at hstep
  · rename_i serverKey hat
    simp only [PhaseOk, hat] at hphase
    split at hstep
    · obtain ⟨after, hends, hsome⟩ := Option.map_eq_some_iff.mp hstep
      cases hsome
      exact .of_same (h.ends (by simp) hends) hshared
    · rename_i entry hline
      cases hstep
      exact .of_same (h.withPhase _ ⟨hphase, hline⟩) hshared
  · cases hstep

theorem TaskOk.append (h : TaskOk lookups shared index t) (hshared : SharedOk lookups shared)
    (hstep : t.workerStep lookups shared index .append = some (shared', t')) :
    Kept lookups index shared shared' t' := by
  have hphase := h.phase
  simp only [HostKeyTask.workerStep] at hstep
  split at hstep
  · rename_i serverKey separator entry hat
    cases hstep
    simp only [PhaseOk, hat] at hphase
    obtain ⟨hfile, hgrown, huntouched⟩ :=
      hshared.withFile (shared.file ++ (separator ++ entry ++ "\n"))
      (shared.entries ++ [(index, entry)]) (by
        intro written hwritten
        rcases List.mem_append.mp hwritten with hold | hnew
        · exact hshared.entries written hold
        · rw [List.mem_singleton] at hnew
          subst hnew
          exact ⟨t.target, serverKey, hphase⟩)
    exact ⟨(h.withPhase (.trusted serverKey) (Or.inr hphase.1)).extend hgrown (huntouched index),
      hfile, hgrown, fun other _ => huntouched other⟩
  · cases hstep

theorem TaskOk.tear (h : TaskOk lookups shared index t) (hshared : SharedOk lookups shared)
    {written : Nat} {message : String}
    (hstep : t.workerStep lookups shared index (.tear written message) = some (shared', t')) :
    Kept lookups index shared shared' t' := by
  simp only [HostKeyTask.workerStep] at hstep
  split at hstep
  · obtain ⟨after, hends, hsome⟩ := Option.map_eq_some_iff.mp hstep
    cases hsome
    obtain ⟨hfile, hgrown, huntouched⟩ := hshared.withFile _ _ hshared.entries
    exact ⟨(h.ends (by simp) hends).extend hgrown (huntouched index), hfile, hgrown,
      fun other _ => huntouched other⟩
  · cases hstep

theorem TaskOk.sendPassword (h : TaskOk lookups shared index t) (hshared : SharedOk lookups shared)
    (hstep : t.workerStep lookups shared index .sendPassword = some (shared', t')) :
    Kept lookups index shared shared' t' := by
  have hphase := h.phase
  simp only [HostKeyTask.workerStep] at hstep
  split at hstep
  · rename_i serverKey hat
    cases hstep
    simp only [PhaseOk, hat] at hphase
    have hsame : Extends shared { shared with
        passwords := shared.passwords ++ [(index, ⟨t.target, serverKey⟩)] } :=
      ⟨fun _ hold => hold, fun _ hold => hold⟩
    refine ⟨⟨hphase.approved, h.asks, h.apart, h.brought, h.once⟩,
      ⟨hshared.file, hshared.pool, fun sent hsent => ?_, hshared.entries, hshared.once,
        hshared.answered⟩, hsame,
      fun other hne => ⟨id, id, fun hold => by simpa [hne] using hold⟩⟩
    rcases List.mem_append.mp hsent with hold | hnew
    · exact hshared.passwords sent hold
    · rw [List.mem_singleton] at hnew
      subst hnew
      exact hphase
  · cases hstep

theorem TaskOk.authenticate (h : TaskOk lookups shared index t) (hshared : SharedOk lookups shared)
    (hstep : t.workerStep lookups shared index .authenticate = some (shared', t')) :
    Kept lookups index shared shared' t' := by
  have hphase := h.phase
  simp only [HostKeyTask.workerStep] at hstep
  split at hstep
  · rename_i session hat
    cases hstep
    simp only [PhaseOk, hat] at hphase
    exact .of_same (h.withPhase _ hphase) hshared
  · cases hstep

theorem TaskOk.work (h : TaskOk lookups shared index t) (hshared : SharedOk lookups shared)
    {error : Option String}
    (hstep : t.workerStep lookups shared index (.work error) = some (shared', t')) :
    Kept lookups index shared shared' t' := by
  have hphase := h.phase
  simp only [HostKeyTask.workerStep] at hstep
  split at hstep
  · rename_i session hat
    obtain ⟨after, hends, hsome⟩ := Option.map_eq_some_iff.mp hstep
    cases hsome
    simp only [PhaseOk, hat] at hphase
    have hsame : Extends shared { shared with pool := shared.pool ++ [session] } :=
      ⟨fun _ hold => hold, fun _ hold => hold⟩
    refine ⟨(h.ends ?_ hends).extend hsame ⟨id, id, id⟩, ?_, hsame, fun _ _ => ⟨id, id, id⟩⟩
    · intro other hother
      cases hother
      exact hphase
    · refine ⟨hshared.file, fun other hother => ?_, hshared.passwords, hshared.entries,
        hshared.once, hshared.answered⟩
      rcases List.mem_append.mp hother with hold | hnew
      · exact hshared.pool other hold
      · rw [List.mem_singleton] at hnew
        subst hnew
        exact hphase
  · obtain ⟨after, hends, hsome⟩ := Option.map_eq_some_iff.mp hstep
    cases hsome
    exact .of_same (h.ends (by simp) hends) hshared
  · cases hstep

theorem TaskOk.fail (h : TaskOk lookups shared index t) (hshared : SharedOk lookups shared)
    {message : String}
    (hstep : t.workerStep lookups shared index (.fail message) = some (shared', t')) :
    Kept lookups index shared shared' t' := by
  simp only [HostKeyTask.workerStep] at hstep
  split at hstep
  · cases hstep
  · cases hstep
  · cases hstep
  · obtain ⟨after, hends, hsome⟩ := Option.map_eq_some_iff.mp hstep
    cases hsome
    exact .of_same (h.ends (by simp) hends) hshared

theorem TaskOk.advance (h : TaskOk lookups shared index t) (hshared : SharedOk lookups shared)
    (hstep : t.workerStep lookups shared index .advance = some (shared', t')) :
    Kept lookups index shared shared' t' := by
  simp only [HostKeyTask.workerStep] at hstep
  obtain ⟨⟨task, stored⟩, hadvance, hsome⟩ := Option.map_eq_some_iff.mp hstep
  cases hsome
  refine .of_same ⟨h.phase, h.asks, h.apart, fun session hsession => ?_,
    h.once.advance hadvance⟩ hshared
  exact h.brought session (brought_of_advance hadvance hsession)

theorem TaskOk.workerStep (h : TaskOk lookups shared index t) (hshared : SharedOk lookups shared)
    (hstep : t.workerStep lookups shared index move = some (shared', t')) :
    Kept lookups index shared shared' t' := by
  cases move with
  | takePooled place authenticated => exact h.takePooled hshared hstep
  | connect => exact h.connect hshared hstep
  | handshake serverKey => exact h.handshake hshared hstep
  | lookUp => exact h.lookUp hshared hstep
  | parse => exact h.parse hshared hstep
  | receive => exact h.receive hshared hstep
  | waitTimesOut => exact h.waitTimesOut hshared hstep
  | disconnected => exact h.disconnected hshared hstep
  | lookAtEnd => exact h.lookAtEnd hshared hstep
  | append => exact h.append hshared hstep
  | tear written message => exact h.tear hshared hstep
  | sendPassword => exact h.sendPassword hshared hstep
  | authenticate => exact h.authenticate hshared hstep
  | work error => exact h.work hshared hstep
  | fail message => exact h.fail hshared hstep
  | advance => exact h.advance hshared hstep
  | poll | press | dismiss | monitorTimesOut | monitorEnds | cancel =>
      simp only [HostKeyTask.workerStep] at hstep
      cases hstep

theorem TaskOk.step (h : TaskOk lookups shared index t) (hshared : SharedOk lookups shared)
    (hstep : t.step lookups shared index move = some (shared', t')) :
    Kept lookups index shared shared' t' := by
  rcases Option.or_eq_some_iff.mp hstep with hworker | ⟨-, hmonitor⟩
  · exact h.workerStep hshared hworker
  · exact h.monitorStep hshared hmonitor

end HostKeyTask

/-! ## All operations -/

namespace HostApprovals

open HostKeyTask

variable {s s' : HostApprovals}

structure Sound (lookups : HostKeyLookups KeyData) (s : HostApprovals) : Prop where
  shared : SharedOk lookups s.shared
  tasks : ∀ index t, s.tasks[index]? = some t → TaskOk lookups s.shared index t
  known : ∀ index, s.tasks.length ≤ index → index ∉ s.shared.asked ∧
    index ∉ s.shared.answered ∧ index ∉ s.shared.passwords.map Prod.fst

theorem sound_start (lookups : HostKeyLookups KeyData) (file : String) :
    Sound lookups (start file) := by
  constructor
  · constructor <;> simp [start]
  · simp [start]
  · simp [start]

theorem Sound.spawn (h : Sound lookups s) (target : SshTarget) (label : String) :
    Sound lookups { s with tasks := s.tasks ++ [.spawned target label] } where
  shared := h.shared
  tasks := by
    intro index t ht
    rcases Tickets.getElem?_append_singleton ht with hold | ⟨rfl, rfl⟩
    · exact h.tasks index t hold
    · obtain ⟨hasked, hanswered, hpasswords⟩ := h.known _ (Nat.le_refl _)
      refine ⟨⟨rfl, rfl, rfl, hasked, hanswered, hpasswords⟩, fun _ => hanswered, fun _ => rfl, ?_,
        SshTask.publishesOnce_spawned⟩
      simp [spawned, HostKeyTask.brought, SshTask.spawned]
  known := by
    intro index hle
    rw [List.length_append, List.length_singleton] at hle
    exact h.known index (by omega)

variable [DecidableEq KeyData]

theorem Sound.act (h : Sound lookups s) {index : Nat} {move : TaskMove}
    (hstep : s.step lookups (.act index move) = some s') : Sound lookups s' := by
  obtain ⟨t, ht, hmap⟩ := Option.bind_eq_some_iff.mp hstep
  obtain ⟨⟨shared', t'⟩, htask, hsome⟩ := Option.map_eq_some_iff.mp hmap
  cases hsome
  obtain ⟨hkept, hshared, hgrown, hothers⟩ := (h.tasks index t ht).step h.shared htask
  have hlt := (List.getElem?_eq_some_iff.mp ht).1
  refine ⟨hshared, fun other u hu => ?_, fun other hle => ?_⟩
  · by_cases hne : other = index
    · subst hne
      rw [List.getElem?_set_self hlt] at hu
      cases hu
      exact hkept
    · rw [List.getElem?_set_ne (Ne.symm hne)] at hu
      exact (h.tasks other u hu).extend hgrown (hothers other hne)
  · rw [List.length_set] at hle
    obtain ⟨hasked, hanswered, hpasswords⟩ := h.known other hle
    have huntouched := hothers other (by omega)
    exact ⟨fun hold => hasked (huntouched.asked hold),
      fun hold => hanswered (huntouched.answered hold),
      fun hold => hpasswords (huntouched.passwords hold)⟩

theorem Sound.step (h : Sound lookups s) {move : HostMove}
    (hstep : s.step lookups move = some s') : Sound lookups s' := by
  cases move with
  | spawn target label =>
      cases hstep
      exact h.spawn target label
  | edit text =>
      cases hstep
      obtain ⟨hshared, hgrown, huntouched⟩ :=
        h.shared.withFile text s.shared.entries h.shared.entries
      exact ⟨hshared, fun index t ht => (h.tasks index t ht).extend hgrown (huntouched index),
        h.known⟩
  | evict place =>
      cases hstep
      have hsame : Extends s.shared { s.shared with pool := s.shared.pool.eraseIdx place } :=
        ⟨fun _ hold => hold, fun _ hold => hold⟩
      refine ⟨⟨h.shared.file, fun session hsession => ?_, h.shared.passwords, h.shared.entries,
        h.shared.once, h.shared.answered⟩,
        fun index t ht => (h.tasks index t ht).extend hsame ⟨id, id, id⟩, h.known⟩
      exact h.shared.pool session (List.mem_of_mem_eraseIdx hsession)
  | act index move => exact h.act hstep

/--
In every interleaving of remote operations, their dialogs, timeouts and
cancellations, and whatever other programs write to the file: a password is sent
over a connection only if the key of its server stood in the file for this host and
port and the operation did not ask the user, or the user trusted exactly this key,
host and port in the dialog of this operation. Each line that is added to the file is
that of a key the user trusted in the operation; a key is named by its fingerprint.
The user answers each operation once at most, whatever the answer, and each operation
reports one outcome at most, a success only over a session whose server was trusted.
-/
theorem password_needs_trust {file : String} {moves : List HostMove}
    (hrun : run (step lookups) (start file) moves = some s) :
    (∀ sent ∈ s.shared.passwords, Vouched lookups s.shared sent.1 sent.2.target sent.2.serverKey) ∧
      (∀ written ∈ s.shared.entries, ∃ target serverKey,
        (written.1, lookups.request target serverKey) ∈ s.shared.trusted ∧
          knownHostsEntryLine (knownHostsEntryHost target.host target.port) serverKey =
            .ok written.2) ∧
      s.shared.answered.Nodup ∧
      (s.shared.trusted.map Prod.fst).Sublist s.shared.answered ∧
      ∀ (index : Nat) (t : HostKeyTask), s.tasks[index]? = some t → t.task.published ≤ 1 ∧
        ∀ session, t.brought = some (.ok session) → Approved lookups s.shared session := by
  have h : Sound lookups s := invariant_of_run (Sound lookups)
    (fun _ _ _ h hstep => h.step hstep) (sound_start lookups file) hrun
  refine ⟨h.shared.passwords, h.shared.entries, h.shared.once, h.shared.answered,
    fun index t ht => ?_⟩
  have htask := h.tasks index t ht
  exact ⟨htask.once.published_le, htask.brought⟩

/-- The libraries know no host. -/
def sampleLookups : HostKeyLookups (List UInt8) where
  checkPort _ _ _ _ := .notFound
  check _ _ _ := .notFound
  parseLine := sampleParseLine
  publicKeyFromBytes := some
  hmacSha1 _ _ := none
  sha256Fingerprint _ := "00"

def sampleTarget : SshTarget := ⟨"h", 22, "u", "p"⟩

/-- The user trusts an unknown key, and the operation is done. -/
def sampleApproval : List HostMove :=
  .spawn sampleTarget SSH_CONNECTION_TIMEOUT_LABEL ::
    ([.connect, .handshake sampleHostKey, .lookUp, .parse, .poll true, .press .accept, .receive,
      .lookAtEnd, .append, .sendPassword, .authenticate, .work none].map (.act 0))

theorem password_needs_trust_sample :
    ∃ s, run (step sampleLookups) (start "") sampleApproval = some s ∧
      s.shared.passwords = [(0, ⟨sampleTarget, sampleHostKey⟩)] ∧
      Vouched sampleLookups s.shared 0 sampleTarget sampleHostKey := by
  obtain ⟨s, hrun, hpasswords⟩ := exists_of_any
    (P := fun s : HostApprovals => s.shared.passwords = [(0, ⟨sampleTarget, sampleHostKey⟩)])
    (by decide +kernel : (run (step sampleLookups) (start "") sampleApproval).any
      (fun s => decide (s.shared.passwords = [(0, ⟨sampleTarget, sampleHostKey⟩)])) = true)
  exact ⟨s, hrun, hpasswords, (password_needs_trust hrun).1 (0, ⟨sampleTarget, sampleHostKey⟩)
    (by simp [hpasswords])⟩

end HostApprovals

end Fulgur
