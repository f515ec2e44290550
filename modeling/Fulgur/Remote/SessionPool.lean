import Fulgur.Library.Keyed
import Fulgur.Library.Run

/-! # The pool of SSH sessions

Idle sessions are kept by host, port, user and a digest of the password. A
checkout takes the session out of the pool or connects anew; the guard that it
returns puts the session back when it is dropped, unless it is invalidated. Each
use of the pool under its lock is one step, and time passes in between.
-/

namespace Fulgur

/-- Time after which an idle session is discarded, in milliseconds. -/
def SSH_SESSION_IDLE_TTL : Nat := 60 * 60 * 1000

def SSH_SESSION_POOL_CAPACITY : Nat := 64

structure SshSessionKey where
  host : String
  port : Nat
  user : String
  passwordHash : List UInt8
deriving DecidableEq

/-- The key of the sessions that a password opens; the digest is a function of the password. -/
def SshSessionKey.new (sha256 : String → List UInt8) (host : String) (port : Nat) (user : String)
    (password : String) : SshSessionKey := ⟨host, port, user, sha256 password⟩

structure SshCredKey where
  host : String
  port : Nat
  user : String
deriving DecidableEq

/-- A session, and how many invalidations had returned when it was established. -/
structure SshSession where
  id : Nat
  establishedAt : Nat
deriving DecidableEq

structure SlotEntry where
  key : SshSessionKey
  session : SshSession
  lastUsed : Nat
deriving DecidableEq

structure SessionWithKey where
  key : SshSessionKey
  session : SshSession
deriving DecidableEq

/-- A call that discards idle sessions. -/
inductive PoolInvalidation where
  | clear
  | credential (credKey : SshCredKey)
deriving DecidableEq

def PoolInvalidation.covers (key : SshSessionKey) : PoolInvalidation → Bool
  | .clear => true
  | .credential credKey =>
      key.host = credKey.host && key.port = credKey.port && key.user = credKey.user

structure PendingConnect where
  key : SshSessionKey
  /-- How many invalidations had returned when the checkout started. -/
  startedAt : Nat
deriving DecidableEq

structure HandedOut where
  key : SshSessionKey
  /-- For how long it had been idle, if it was in the pool. -/
  idle : Option Nat
  /-- What returned after the session was established and before the checkout started. -/
  invalidatedBy : List PoolInvalidation
deriving DecidableEq

/-- A session that had to make room for another one. -/
structure PoolEviction where
  evicted : SshSessionKey
  returned : SshSessionKey
  wasCached : Bool
deriving DecidableEq

structure SshSessionPool where
  entries : List SlotEntry
  idleTtl : Nat
  clock : Nat
  nextId : Nat
  connecting : List PendingConnect
  /-- The guards, until they are dropped or invalidated. -/
  guards : List (Option SessionWithKey)
  invalidations : List PoolInvalidation
  handedOut : List HandedOut
  evictions : List PoolEviction
deriving DecidableEq

inductive PoolAction where
  | wait (elapsed : Nat)
  /-- A checkout looks into the pool; the session there may have lost its authentication. -/
  | checkout (host : String) (port : Nat) (user password : String) (authenticated : Bool)
  | connected (pending : Nat)
  | connectFailed (pending : Nat)
  /-- A guard is dropped; the map yields this key as that of an oldest entry. -/
  | drop (guard : Nat) (oldest : SshSessionKey) (elapsed : Nat)
  | invalidate (guard : Nat)
  | clear
  | invalidateByCredential (credKey : SshCredKey)
deriving DecidableEq

namespace SshSessionPool

def new : SshSessionPool := ⟨[], SSH_SESSION_IDLE_TTL, 0, 0, [], [], [], [], []⟩

def isLive (pool : SshSessionPool) (entry : SlotEntry) : Bool :=
  pool.clock - entry.lastUsed < pool.idleTtl

def evictStale (pool : SshSessionPool) : List SlotEntry := pool.entries.filter pool.isLive

/-- The invalidations since a session was established. -/
def invalidatedSince (pool : SshSessionPool) (session : SshSession) : List PoolInvalidation :=
  pool.invalidations.drop session.establishedAt

def handOut (pool : SshSessionPool) (key : SshSessionKey) (session : SshSession)
    (idle : Option Nat) (invalidatedBy : List PoolInvalidation) : SshSessionPool :=
  { pool with
    guards := pool.guards ++ [some ⟨key, session⟩]
    handedOut := pool.handedOut ++ [⟨key, idle, invalidatedBy⟩] }

/-- `checkout_or_connect` up to the connect. -/
def checkout (pool : SshSessionPool) (key : SshSessionKey) (authenticated : Bool) :
    SshSessionPool :=
  let entries := pool.evictStale
  let taken := { pool with entries := Keyed.dropKey SlotEntry.key key entries }
  match entries.find? fun entry => entry.key = key with
  | some entry =>
      if authenticated then
        taken.handOut key entry.session (some (pool.clock - entry.lastUsed))
          (pool.invalidatedSince entry.session)
      else { taken with connecting := pool.connecting ++ [⟨key, pool.invalidations.length⟩] }
  | none => { taken with connecting := pool.connecting ++ [⟨key, pool.invalidations.length⟩] }

def connected (pool : SshSessionPool) (pending : Nat) : Option SshSessionPool :=
  match pool.connecting[pending]? with
  | none => none
  | some ⟨key, startedAt⟩ =>
      let session : SshSession := ⟨pool.nextId, pool.invalidations.length⟩
      some ({ pool with
        connecting := pool.connecting.eraseIdx pending
        nextId := pool.nextId + 1 }.handOut key session none
          ((pool.invalidations.take startedAt).drop session.establishedAt))

def connectFailed (pool : SshSessionPool) (pending : Nat) : Option SshSessionPool :=
  if pending < pool.connecting.length then
    some { pool with connecting := pool.connecting.eraseIdx pending }
  else none

def isOldest (entries : List SlotEntry) (key : SshSessionKey) : Bool :=
  entries.any fun entry => entry.key = key ∧ ∀ other ∈ entries, entry.lastUsed ≤ other.lastUsed

def put (pool : SshSessionPool) (returned : SessionWithKey) (oldest : SshSessionKey)
    (elapsed : Nat) : Option SshSessionPool :=
  let live := pool.evictStale
  let slot : SlotEntry := ⟨returned.key, returned.session, pool.clock + elapsed⟩
  if SSH_SESSION_POOL_CAPACITY ≤ live.length then
    if isOldest live oldest then
      let room := Keyed.dropKey SlotEntry.key oldest live
      some { pool with
        entries := Keyed.dropKey SlotEntry.key returned.key room ++ [slot]
        clock := pool.clock + elapsed
        evictions := pool.evictions ++
          [⟨oldest, returned.key, live.any fun entry => entry.key = returned.key⟩] }
    else none
  else
    some { pool with
      entries := Keyed.dropKey SlotEntry.key returned.key live ++ [slot]
      clock := pool.clock + elapsed }

def drop (pool : SshSessionPool) (guard : Nat) (oldest : SshSessionKey) (elapsed : Nat) :
    Option SshSessionPool :=
  match pool.guards[guard]? with
  | some (some returned) =>
      { pool with guards := pool.guards.set guard none }.put returned oldest elapsed
  | _ => none

def invalidate (pool : SshSessionPool) (guard : Nat) : Option SshSessionPool :=
  match pool.guards[guard]? with
  | some (some _) => some { pool with guards := pool.guards.set guard none }
  | _ => none

/-- `clear` and `invalidate_by_credential`. -/
def discard (pool : SshSessionPool) (invalidation : PoolInvalidation) : SshSessionPool :=
  { pool with
    entries := pool.entries.filter fun entry => !invalidation.covers entry.key
    invalidations := pool.invalidations ++ [invalidation] }

def step (sha256 : String → List UInt8) (pool : SshSessionPool) :
    PoolAction → Option SshSessionPool
  | .wait elapsed => some { pool with clock := pool.clock + elapsed }
  | .checkout host port user password authenticated =>
      some (pool.checkout (.new sha256 host port user password) authenticated)
  | .connected pending => pool.connected pending
  | .connectFailed pending => pool.connectFailed pending
  | .drop guard oldest elapsed => pool.drop guard oldest elapsed
  | .invalidate guard => pool.invalidate guard
  | .clear => some (pool.discard .clear)
  | .invalidateByCredential credKey => some (pool.discard (.credential credKey))

end SshSessionPool

/-! ## Sessions that are not handed out again -/

def SshSessionPool.checkedOut (pool : SshSessionPool) (guard : Nat) : Option SessionWithKey :=
  pool.guards[guard]?.join

/-- Whether a session is kept that this key gives. -/
def SshSessionPool.isCached (pool : SshSessionPool) (key : SshSessionKey) : Bool :=
  pool.evictStale.any fun entry => entry.key = key

/--
No guard is dropped whose session was checked out when it was invalidated, and
none whose key is in a full pool, unless it is the oldest there.
-/
def PoolStep (pool : SshSessionPool) : PoolAction → Prop
  | .drop guard oldest _ => ∀ returned ∈ pool.checkedOut guard,
      (∀ invalidation ∈ pool.invalidatedSince returned.session,
        invalidation.covers returned.key = false) ∧
      (SSH_SESSION_POOL_CAPACITY ≤ pool.evictStale.length → pool.isCached returned.key = true →
        oldest = returned.key)
  | _ => True

instance (pool : SshSessionPool) (action : PoolAction) : Decidable (PoolStep pool action) := by
  unfold PoolStep
  split <;> infer_instance

/--
The pool keeps to its capacity, hands out no session that was idle for too long or
invalidated after it was established, and a session whose key is in the pool makes
no other one go.
-/
structure PoolSound (pool : SshSessionPool) : Prop where
  capacity : pool.entries.length ≤ SSH_SESSION_POOL_CAPACITY
  fresh : ∀ handed ∈ pool.handedOut, ∀ idle ∈ handed.idle, idle < SSH_SESSION_IDLE_TTL
  ownRoom : ∀ eviction ∈ pool.evictions, eviction.wasCached = true →
    eviction.evicted = eviction.returned
  discarded : ∀ handed ∈ pool.handedOut, ∀ invalidation ∈ handed.invalidatedBy,
    invalidation.covers handed.key = false

/-- What holds between any two steps that meet the condition. -/
structure PoolKept (pool : SshSessionPool) : Prop extends PoolSound pool where
  idleTtl : pool.idleTtl = SSH_SESSION_IDLE_TTL
  keys : (pool.entries.map SlotEntry.key).Nodup
  kept : ∀ entry ∈ pool.entries, ∀ invalidation ∈ pool.invalidatedSince entry.session,
    invalidation.covers entry.key = false
  started : ∀ pending ∈ pool.connecting, pending.startedAt ≤ pool.invalidations.length

namespace PoolKept

variable {pool pool' : SshSessionPool}

theorem new : PoolKept .new where
  capacity := Nat.zero_le _
  fresh := nofun
  ownRoom := nofun
  discarded := nofun
  idleTtl := rfl
  keys := List.nodup_nil
  kept := nofun
  started := nofun

theorem sublist (h : PoolKept pool) {entries : List SlotEntry}
    (hsub : entries.Sublist pool.entries) :
    PoolKept { pool with entries := entries } where
  capacity := Nat.le_trans hsub.length_le h.capacity
  fresh := h.fresh
  ownRoom := h.ownRoom
  discarded := h.discarded
  idleTtl := h.idleTtl
  keys := h.keys.sublist (hsub.map SlotEntry.key)
  kept entry hentry := h.kept entry (hsub.subset hentry)
  started := h.started

theorem withConnecting (h : PoolKept pool) {connecting : List PendingConnect}
    (hstarted : ∀ pending ∈ connecting, pending.startedAt ≤ pool.invalidations.length) :
    PoolKept { pool with connecting := connecting } :=
  { h with started := hstarted }

theorem withGuards (h : PoolKept pool) (guards : List (Option SessionWithKey)) :
    PoolKept { pool with guards := guards } := { h with }

theorem withClock (h : PoolKept pool) (clock : Nat) : PoolKept { pool with clock := clock } :=
  { h with }

theorem handOut (h : PoolKept pool) {key : SshSessionKey} {session : SshSession}
    {idle : Option Nat} {invalidatedBy : List PoolInvalidation}
    (hidle : ∀ elapsed ∈ idle, elapsed < SSH_SESSION_IDLE_TTL)
    (hinvalidated : ∀ invalidation ∈ invalidatedBy, invalidation.covers key = false) :
    PoolKept (pool.handOut key session idle invalidatedBy) :=
  { h with
    fresh := by
      intro handed hhanded
      rcases List.mem_append.mp hhanded with hhanded | hhanded
      · exact h.fresh handed hhanded
      · rw [List.mem_singleton.mp hhanded]
        exact hidle
    discarded := by
      intro handed hhanded
      rcases List.mem_append.mp hhanded with hhanded | hhanded
      · exact h.discarded handed hhanded
      · rw [List.mem_singleton.mp hhanded]
        exact hinvalidated }

theorem startConnect (h : PoolKept pool) (key : SshSessionKey) :
    PoolKept { pool with
      connecting := pool.connecting ++ [⟨key, pool.invalidations.length⟩] } := by
  refine h.withConnecting fun pending hpending => ?_
  rcases List.mem_append.mp hpending with hpending | hpending
  · exact h.started pending hpending
  · obtain rfl := List.mem_singleton.mp hpending
    exact Nat.le_refl _

/-- What is taken out of the pool was idle for less than the limit and is in no invalidation. -/
theorem checkout (h : PoolKept pool) (key : SshSessionKey) (authenticated : Bool) :
    PoolKept (pool.checkout key authenticated) := by
  have hsub : (Keyed.dropKey SlotEntry.key key pool.evictStale).Sublist pool.entries :=
    List.filter_sublist.trans List.filter_sublist
  have htaken := h.sublist hsub
  unfold SshSessionPool.checkout
  dsimp only
  split
  · rename_i entry hfound
    have hkey : entry.key = key := by simpa using List.find?_some hfound
    obtain ⟨hmem, hlive⟩ := List.mem_filter.mp (List.mem_of_find?_eq_some hfound)
    split
    · refine htaken.handOut ?_ fun invalidation hinvalidation => ?_
      · intro elapsed helapsed
        cases helapsed
        rw [← h.idleTtl]
        simpa [SshSessionPool.isLive] using hlive
      · rw [← hkey]
        exact h.kept entry hmem invalidation hinvalidation
    · exact htaken.startConnect key
  · exact htaken.startConnect key

theorem connected (h : PoolKept pool) {pending : Nat} (hs : pool.connected pending = some pool') :
    PoolKept pool' := by
  unfold SshSessionPool.connected at hs
  split at hs
  · cases hs
  · rename_i key startedAt hpending
    cases hs
    have hstarted := h.started _ (List.mem_of_getElem? hpending)
    have hrest : PoolKept { pool with connecting := pool.connecting.eraseIdx pending } :=
      h.withConnecting fun other hother => h.started other (List.mem_of_mem_eraseIdx hother)
    have hnext : PoolKept { pool with
        connecting := pool.connecting.eraseIdx pending, nextId := pool.nextId + 1 } :=
      { hrest with }
    have hnone : (pool.invalidations.take startedAt).drop pool.invalidations.length = [] := by
      rw [List.drop_eq_nil_iff, List.length_take]
      omega
    refine hnext.handOut ?_ ?_
    · intro elapsed helapsed
      cases helapsed
    · intro invalidation hinvalidation
      rw [hnone] at hinvalidation
      cases hinvalidation

theorem connectFailed (h : PoolKept pool) {pending : Nat}
    (hs : pool.connectFailed pending = some pool') : PoolKept pool' := by
  unfold SshSessionPool.connectFailed at hs
  split at hs
  · cases hs
    exact h.withConnecting fun other hother => h.started other (List.mem_of_mem_eraseIdx hother)
  · cases hs

/-- A session joins the pool where there is room for it. -/
theorem insert (h : PoolKept pool) {returned : SessionWithKey} {room : List SlotEntry}
    (hroom : room.Sublist pool.entries) (hlength : room.length < SSH_SESSION_POOL_CAPACITY)
    (hkept : ∀ invalidation ∈ pool.invalidatedSince returned.session,
      invalidation.covers returned.key = false) (lastUsed : Nat) :
    PoolKept { pool with
      entries := Keyed.dropKey SlotEntry.key returned.key room ++
        [⟨returned.key, returned.session, lastUsed⟩] } := by
  have hsub : (Keyed.dropKey SlotEntry.key returned.key room).Sublist room := List.filter_sublist
  have hrest := h.sublist (hsub.trans hroom)
  refine { hrest with capacity := ?_, keys := ?_, kept := ?_ }
  · rw [List.length_append, List.length_singleton]
    have hle := hsub.length_le
    omega
  · rw [List.map_append, List.map_singleton, List.nodup_append]
    refine ⟨hrest.keys, List.nodup_singleton _, fun key hkey other hother hsame => ?_⟩
    obtain ⟨entry, hentry, rfl⟩ := List.mem_map.mp hkey
    have hne : entry.key ≠ returned.key := by simpa using (List.mem_filter.mp hentry).2
    exact hne (hsame.trans (List.mem_singleton.mp hother))
  · intro entry hentry
    rcases List.mem_append.mp hentry with hentry | hentry
    · exact hrest.kept entry hentry
    · rw [List.mem_singleton.mp hentry]
      exact hkept

theorem put (h : PoolKept pool) {returned : SessionWithKey} {oldest : SshSessionKey} {elapsed : Nat}
    (hkept : ∀ invalidation ∈ pool.invalidatedSince returned.session,
      invalidation.covers returned.key = false)
    (hroom : SSH_SESSION_POOL_CAPACITY ≤ pool.evictStale.length →
      pool.isCached returned.key = true → oldest = returned.key)
    (hs : pool.put returned oldest elapsed = some pool') : PoolKept pool' := by
  have hlive : pool.evictStale.Sublist pool.entries := List.filter_sublist
  unfold SshSessionPool.put at hs
  dsimp only at hs
  split at hs
  · rename_i hfull
    split at hs
    · rename_i holdest
      cases hs
      obtain ⟨entry, hentry, hpassed⟩ := List.any_eq_true.mp holdest
      have hkey : entry.key = oldest := (of_decide_eq_true hpassed).1
      have hfewer : (Keyed.dropKey SlotEntry.key oldest pool.evictStale).length <
          pool.evictStale.length :=
        List.length_filter_lt_length_iff_exists.mpr ⟨entry, hentry, by simp [hkey]⟩
      have hlength : (Keyed.dropKey SlotEntry.key oldest pool.evictStale).length <
          SSH_SESSION_POOL_CAPACITY := by
        have hle := hlive.length_le
        have hcapacity := h.capacity
        omega
      have hnext := (h.insert (List.filter_sublist.trans hlive) hlength hkept
        (pool.clock + elapsed)).withClock (pool.clock + elapsed)
      refine { hnext with ownRoom := ?_ }
      intro eviction heviction hcached
      rcases List.mem_append.mp heviction with heviction | heviction
      · exact h.ownRoom eviction heviction hcached
      · rw [List.mem_singleton.mp heviction] at hcached ⊢
        exact hroom hfull hcached
    · cases hs
  · rename_i hnotFull
    cases hs
    exact (h.insert hlive (by omega) hkept (pool.clock + elapsed)).withClock (pool.clock + elapsed)

theorem drop (h : PoolKept pool) {guard : Nat} {oldest : SshSessionKey} {elapsed : Nat}
    (hguard : PoolStep pool (.drop guard oldest elapsed))
    (hs : pool.drop guard oldest elapsed = some pool') : PoolKept pool' := by
  unfold SshSessionPool.drop at hs
  split at hs
  · rename_i returned hreturned
    have hout : returned ∈ pool.checkedOut guard := by
      rw [SshSessionPool.checkedOut, hreturned]
      rfl
    obtain ⟨hkept, hroom⟩ := hguard returned hout
    exact (h.withGuards (pool.guards.set guard none)).put hkept hroom hs
  · cases hs

theorem invalidate (h : PoolKept pool) {guard : Nat} (hs : pool.invalidate guard = some pool') :
    PoolKept pool' := by
  unfold SshSessionPool.invalidate at hs
  split at hs
  · cases hs
    exact h.withGuards _
  · cases hs

theorem discard (h : PoolKept pool) (invalidation : PoolInvalidation) :
    PoolKept (pool.discard invalidation) := by
  have hrest := h.sublist (List.filter_sublist (p := fun entry => !invalidation.covers entry.key))
  refine { hrest with kept := ?_, started := ?_ }
  · intro entry hentry other hother
    obtain ⟨hmem, hleft⟩ := List.mem_filter.mp hentry
    rw [SshSessionPool.invalidatedSince, SshSessionPool.discard, List.drop_append] at hother
    rcases List.mem_append.mp hother with hother | hother
    · exact h.kept entry hmem other hother
    · rw [List.mem_singleton.mp (List.mem_of_mem_drop hother)]
      simpa using hleft
  · intro pending hpending
    have hle := h.started pending hpending
    simp only [SshSessionPool.discard, List.length_append, List.length_singleton]
    omega

theorem step {sha256 : String → List UInt8} {action : PoolAction} (h : PoolKept pool)
    (hguard : PoolStep pool action) (hs : pool.step sha256 action = some pool') :
    PoolKept pool' := by
  cases action with
  | wait elapsed =>
      cases hs
      exact h.withClock _
  | checkout host port user password authenticated =>
      cases hs
      exact h.checkout _ authenticated
  | connected pending => exact h.connected hs
  | connectFailed pending => exact h.connectFailed hs
  | drop guard oldest elapsed => exact h.drop hguard hs
  | invalidate guard => exact h.invalidate hs
  | clear =>
      cases hs
      exact h.discard .clear
  | invalidateByCredential credKey =>
      cases hs
      exact h.discard (.credential credKey)

end PoolKept

/-- The pool is sound in every run whose steps meet the condition. -/
theorem session_pool_sound (sha256 : String → List UInt8) {actions : List PoolAction}
    {pool : SshSessionPool}
    (hrun : LabelledRun.run (SshSessionPool.step sha256) .new actions = some pool)
    (hguard : LabelledRun.Guarded (SshSessionPool.step sha256) PoolStep .new actions) :
    PoolSound pool :=
  (LabelledRun.invariant_of_guarded PoolKept (fun _ _ _ h hstep hs => h.step hstep hs)
    PoolKept.new hguard hrun).toPoolSound

/-! ## Sessions that come back to the pool -/

def sampleSha256 (password : String) : List UInt8 :=
  if password = "hunter2" then
    [245, 47, 189, 50, 178, 179, 184, 111, 248, 142, 246, 196, 144, 98, 130, 133,
      244, 130, 175, 21, 221, 203, 41, 84, 31, 148, 188, 245, 38, 163, 246, 199]
  else []

def sampleSessionKey (port : Nat) : SshSessionKey :=
  .new sampleSha256 "example.com" port "alice" "hunter2"

def sampleConnect (port : Nat) : List PoolAction :=
  [.checkout "example.com" port "alice" "hunter2" true, .connected 0]

def sampleReuse : List PoolAction :=
  sampleConnect 22 ++
    [.drop 0 (sampleSessionKey 22) 0, .wait 1000, .checkout "example.com" 22 "alice" "hunter2" true,
      .clear, .invalidate 1] ++
    sampleConnect 22 ++
    [.drop 2 (sampleSessionKey 22) 5, .invalidateByCredential ⟨"example.com", 22, "alice"⟩]

theorem session_pool_sound_sample :
    ∃ pool, LabelledRun.run (SshSessionPool.step sampleSha256) .new sampleReuse = some pool ∧
      PoolSound pool ∧ pool.handedOut.map HandedOut.idle = [none, some 1000, none] := by
  obtain ⟨pool, hrun, hidle⟩ :
      ∃ pool, LabelledRun.run (SshSessionPool.step sampleSha256) .new sampleReuse = some pool ∧
        pool.handedOut.map HandedOut.idle = [none, some 1000, none] :=
    LabelledRun.exists_of_any (by decide +kernel)
  have hguard :
      LabelledRun.Guarded (SshSessionPool.step sampleSha256) PoolStep .new sampleReuse :=
    LabelledRun.Guarded.of_guardedRun (by decide +kernel)
  exact ⟨pool, hrun, session_pool_sound sampleSha256 hrun hguard, hidle⟩

/-- A session is checked out while the sessions of its credential are discarded. -/
def sampleRevoked : List PoolAction :=
  sampleConnect 22 ++
    [.invalidateByCredential ⟨"example.com", 22, "alice"⟩, .drop 0 (sampleSessionKey 22) 0,
      .checkout "example.com" 22 "alice" "hunter2" true]

/-- Two sessions of one key are among those that come back to fill the pool and one more. -/
def sampleCrowded : List PoolAction :=
  (List.range SSH_SESSION_POOL_CAPACITY ++ [1]).flatMap sampleConnect ++
    (List.range (SSH_SESSION_POOL_CAPACITY + 1)).map fun guard =>
      .drop guard (sampleSessionKey 0) 1

/-- A revoked session is handed out, and a session of another key goes from the full pool. -/
theorem revoked_session_handed_out :
    (∃ pool, LabelledRun.run (SshSessionPool.step sampleSha256) .new sampleRevoked = some pool ∧
      ⟨sampleSessionKey 22, some 0, [.credential ⟨"example.com", 22, "alice"⟩]⟩ ∈ pool.handedOut ∧
      ¬ PoolSound pool) ∧
    ∃ pool, LabelledRun.run (SshSessionPool.step sampleSha256) .new sampleCrowded = some pool ∧
      ⟨sampleSessionKey 0, sampleSessionKey 1, true⟩ ∈ pool.evictions ∧ ¬ PoolSound pool := by
  constructor
  · obtain ⟨pool, hrun, hhanded⟩ :
        ∃ pool, LabelledRun.run (SshSessionPool.step sampleSha256) .new sampleRevoked =
          some pool ∧
          ⟨sampleSessionKey 22, some 0, [.credential ⟨"example.com", 22, "alice"⟩]⟩ ∈
            pool.handedOut :=
      LabelledRun.exists_of_any (by decide +kernel)
    refine ⟨pool, hrun, hhanded, fun h => ?_⟩
    have hdiscarded := h.discarded _ hhanded _ (List.mem_singleton_self _)
    exact absurd hdiscarded (by decide +kernel)
  · obtain ⟨pool, hrun, heviction⟩ :
        ∃ pool, LabelledRun.run (SshSessionPool.step sampleSha256) .new sampleCrowded =
          some pool ∧
          ⟨sampleSessionKey 0, sampleSessionKey 1, true⟩ ∈ pool.evictions :=
      LabelledRun.exists_of_any (by decide +kernel)
    refine ⟨pool, hrun, heviction, fun h => ?_⟩
    have hsame := h.ownRoom _ heviction rfl
    exact absurd hsame (by decide +kernel)

end Fulgur
