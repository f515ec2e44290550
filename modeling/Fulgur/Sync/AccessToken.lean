import Fulgur.Library.Run
import Fulgur.Library.Tickets

/-! # Access tokens

The threads of a profile share one access token. A caller that finds none that is
valid for long enough refreshes it, with the lock released, while the others wait
on a condition variable. Each stretch of code under the lock is one step; the
clock is read anew in each, and nothing is assumed about what it shows.
-/

namespace Fulgur

/-- How long a token must still be valid to be handed out, in milliseconds. -/
def TOKEN_MARGIN : Int := 5 * 60 * 1000

def isTokenValid (expiresAt now : Int) : Bool := now + TOKEN_MARGIN < expiresAt

inductive TokenError where
  /-- The refresh of another thread took too long. -/
  | timeout
  /-- The request failed or its expiry could not be parsed. -/
  | refreshFailed
deriving DecidableEq

/-- How far a call of `get_valid_token` has come. -/
inductive TokenStage where
  | started
  /-- The fast path found no valid token. -/
  | missed
  | waiting
  /-- The flag is set and the request is to be made. -/
  | claimed
  /-- The request was made after this many clears. -/
  | requested (clears : Nat)
  | done (result : Except TokenError String)

/-- A call, and how many clears had returned when it started. -/
structure TokenCall where
  startedAt : Nat
  stage : TokenStage

def TokenCall.isRefreshing (call : TokenCall) : Bool :=
  match call.stage with
  | .claimed => true
  | .requested _ => true
  | _ => false

inductive TokenSource where
  | cached (expiresAt now : Int)
  | obtained
deriving DecidableEq

/-- A token that a call returned, and how many clears had returned when it was requested. -/
structure ReturnedToken where
  startedAt : Nat
  requestedAt : Nat
  source : TokenSource
deriving DecidableEq

/-- The token was valid for more than the margin, or the call obtained it itself. -/
def ReturnedToken.Fresh (returned : ReturnedToken) : Prop :=
  match returned.source with
  | .cached expiresAt now => now + TOKEN_MARGIN < expiresAt
  | .obtained => True

/-- The token state of a profile, its callers, and what they got. -/
structure TokenState where
  accessToken : Option String
  tokenExpiresAt : Option Int
  isRefreshingToken : Bool
  /-- How many clears had returned when the token was requested. -/
  requestedAt : Nat
  clears : Nat
  calls : List TokenCall
  returned : List ReturnedToken

inductive TokenAction where
  | call
  | look (call : Nat) (now : Int)
  | enter (call : Nat) (now : Int)
  /-- A waiter wakes up: notified, timed out or for no reason. -/
  | wake (call : Nat) (timedOut : Bool) (now : Int)
  | request (call : Nat)
  | succeed (call : Nat) (token : String) (expiresAt : Int)
  | fail (call : Nat)
  | clear
deriving DecidableEq

namespace TokenState

def new : TokenState := ⟨none, none, false, 0, 0, [], []⟩

def setStage (s : TokenState) (call : Nat) (startedAt : Nat) (stage : TokenStage) : TokenState :=
  { s with calls := s.calls.set call ⟨startedAt, stage⟩ }

def orCached (s : TokenState) (call startedAt : Nat) (now : Int) (otherwise : TokenState) :
    TokenState :=
  match s.accessToken, s.tokenExpiresAt with
  | some token, some expiresAt =>
      if isTokenValid expiresAt now then
        { s.setStage call startedAt (.done (.ok token)) with
          returned := s.returned ++ [⟨startedAt, s.requestedAt, .cached expiresAt now⟩] }
      else otherwise
  | _, _ => otherwise

def claim (s : TokenState) (call startedAt : Nat) : TokenState :=
  { s.setStage call startedAt .claimed with isRefreshingToken := true }

/-- `clear_token`. -/
def clearToken (s : TokenState) : TokenState :=
  { s with accessToken := none, tokenExpiresAt := none, clears := s.clears + 1 }

/-- The fast path. -/
def look (s : TokenState) (call : Nat) (now : Int) : Option TokenState :=
  match s.calls[call]? with
  | some ⟨startedAt, .started⟩ =>
      some (s.orCached call startedAt now (s.setStage call startedAt .missed))
  | _ => none

/-- The slow path, up to the first wait or the request. -/
def enter (s : TokenState) (call : Nat) (now : Int) : Option TokenState :=
  match s.calls[call]? with
  | some ⟨startedAt, .missed⟩ =>
      some (s.orCached call startedAt now
        (if s.isRefreshingToken then s.setStage call startedAt .waiting
          else s.claim call startedAt))
  | _ => none

/-- A turn of the loop around the wait. -/
def wake (s : TokenState) (call : Nat) (timedOut : Bool) (now : Int) : Option TokenState :=
  match s.calls[call]? with
  | some ⟨startedAt, .waiting⟩ =>
      some (s.orCached call startedAt now
        (if s.isRefreshingToken then
          if timedOut then s.setStage call startedAt (.done (.error .timeout)) else s
        else s.claim call startedAt))
  | _ => none

def request (s : TokenState) (call : Nat) : Option TokenState :=
  match s.calls[call]? with
  | some ⟨startedAt, .claimed⟩ => some (s.setStage call startedAt (.requested s.clears))
  | _ => none

/-- The response is stored and handed to the caller. -/
def succeed (s : TokenState) (call : Nat) (token : String) (expiresAt : Int) : Option TokenState :=
  match s.calls[call]? with
  | some ⟨startedAt, .requested clears⟩ =>
      some { s.setStage call startedAt (.done (.ok token)) with
        accessToken := some token
        tokenExpiresAt := some expiresAt
        isRefreshingToken := false
        requestedAt := clears
        returned := s.returned ++ [⟨startedAt, clears, .obtained⟩] }
  | _ => none

/-- The request cannot be made, fails, or has an expiry that cannot be parsed. -/
def fail (s : TokenState) (call : Nat) : Option TokenState :=
  match s.calls[call]? with
  | some ⟨startedAt, .claimed⟩ | some ⟨startedAt, .requested _⟩ =>
      some { s.setStage call startedAt (.done (.error .refreshFailed)) with
        isRefreshingToken := false }
  | _ => none

def step (s : TokenState) : TokenAction → Option TokenState
  | .call => some { s with calls := s.calls ++ [⟨s.clears, .started⟩] }
  | .look call now => s.look call now
  | .enter call now => s.enter call now
  | .wake call timedOut now => s.wake call timedOut now
  | .request call => s.request call
  | .succeed call token expiresAt => s.succeed call token expiresAt
  | .fail call => s.fail call
  | .clear => some s.clearToken

end TokenState

/-! ## Single flight -/

/-- How many clears had returned when the call made its request. -/
def TokenState.requestedBy (s : TokenState) (call : Nat) : Option Nat :=
  match s.calls[call]? with
  | some ⟨_, .requested clears⟩ => some clears
  | _ => none

/-- A refresh that was under way when the token was cleared does not succeed. -/
def TokenStep (s : TokenState) : TokenAction → Prop
  | .succeed call _ _ => ∀ clears ∈ s.requestedBy call, clears = s.clears
  | _ => True

instance (s : TokenState) (action : TokenAction) : Decidable (TokenStep s action) := by
  unfold TokenStep
  split <;> infer_instance

/--
One call at most refreshes the token, and the flag is set exactly while one does.
What is returned is fresh, and no call that starts after a clear gets a token that
was requested before it.
-/
structure TokenServed (s : TokenState) : Prop where
  singleFlight : s.calls.countP TokenCall.isRefreshing = s.isRefreshingToken.toNat
  fresh : ∀ returned ∈ s.returned, returned.Fresh
  cleared : ∀ returned ∈ s.returned, ∀ clear, clear ≤ returned.startedAt →
    clear ≤ returned.requestedAt

/-- What holds between any two steps that meet the condition. -/
structure TokenKept (s : TokenState) : Prop where
  singleFlight : s.calls.countP TokenCall.isRefreshing = s.isRefreshingToken.toNat
  started : ∀ call ∈ s.calls, call.startedAt ≤ s.clears
  requested : ∀ call ∈ s.calls, ∀ clears, call.stage = .requested clears →
    call.startedAt ≤ clears ∧ clears ≤ s.clears
  cached : s.accessToken.isSome → s.requestedAt = s.clears
  returned : ∀ returned ∈ s.returned, returned.Fresh ∧ returned.startedAt ≤ returned.requestedAt

namespace TokenKept

variable {s s' : TokenState} {call startedAt : Nat} {stage : TokenStage} {now : Int}

theorem new : TokenKept .new where
  singleFlight := rfl
  started := nofun
  requested := nofun
  cached := nofun
  returned := nofun

theorem served (h : TokenKept s) : TokenServed s where
  singleFlight := h.singleFlight
  fresh returned hreturned := (h.returned returned hreturned).1
  cleared returned hreturned _ hclear := Nat.le_trans hclear (h.returned returned hreturned).2

theorem startedAt_le (h : TokenKept s) (hcall : s.calls[call]? = some ⟨startedAt, stage⟩) :
    startedAt ≤ s.clears := h.started _ (List.mem_of_getElem? hcall)

/-- A call moves on; who refreshes may change with the flag only. -/
theorem setStage (h : TokenKept s) (hcall : s.calls[call]? = some ⟨startedAt, stage⟩)
    (stage' : TokenStage) (flag : Bool)
    (hrequested : ∀ clears, stage' = .requested clears → startedAt ≤ clears ∧ clears ≤ s.clears)
    (hflag : s.isRefreshingToken.toNat + (TokenCall.isRefreshing ⟨startedAt, stage'⟩).toNat =
      flag.toNat + (TokenCall.isRefreshing ⟨startedAt, stage⟩).toNat) :
    TokenKept { s.setStage call startedAt stage' with isRefreshingToken := flag } where
  singleFlight := by
    have hcount := Tickets.countP_set_add (p := TokenCall.isRefreshing)
      (b := (⟨startedAt, stage'⟩ : TokenCall)) hcall
    have hbefore := h.singleFlight
    simp only [TokenState.setStage]
    omega
  started other hother := by
    rcases List.mem_or_eq_of_mem_set hother with hother | rfl
    · exact h.started other hother
    · exact h.startedAt_le hcall
  requested other hother := by
    rcases List.mem_or_eq_of_mem_set hother with hother | rfl
    · exact h.requested other hother
    · exact hrequested
  cached := h.cached
  returned := h.returned

theorem withReturned (h : TokenKept s) (returned : ReturnedToken) (hfresh : returned.Fresh)
    (hstarted : returned.startedAt ≤ returned.requestedAt) :
    TokenKept { s with returned := s.returned ++ [returned] } where
  singleFlight := h.singleFlight
  started := h.started
  requested := h.requested
  cached := h.cached
  returned other hother := by
    rcases List.mem_append.mp hother with hother | hother
    · exact h.returned other hother
    · rw [List.mem_singleton.mp hother]
      exact ⟨hfresh, hstarted⟩

/-- A cached token was requested after the last clear, so after the call started. -/
theorem orCached (h : TokenKept s) (hcall : s.calls[call]? = some ⟨startedAt, stage⟩)
    (hstage : TokenCall.isRefreshing ⟨startedAt, stage⟩ = false) {otherwise : TokenState}
    (hotherwise : TokenKept otherwise) : TokenKept (s.orCached call startedAt now otherwise) := by
  unfold TokenState.orCached
  split
  · rename_i token expiresAt htoken hexpires
    split
    · rename_i hvalid
      have hdone := h.setStage hcall (.done (.ok token)) s.isRefreshingToken nofun
        (by rw [hstage]; rfl)
      have hcached : s.requestedAt = s.clears := h.cached (by rw [htoken]; rfl)
      refine hdone.withReturned ⟨startedAt, s.requestedAt, .cached expiresAt now⟩ ?_ ?_
      · simpa [ReturnedToken.Fresh, isTokenValid] using hvalid
      · rw [hcached]
        exact h.startedAt_le hcall
    · exact hotherwise
  · exact hotherwise

theorem claim (h : TokenKept s) (hcall : s.calls[call]? = some ⟨startedAt, stage⟩)
    (hstage : TokenCall.isRefreshing ⟨startedAt, stage⟩ = false)
    (hfree : s.isRefreshingToken = false) : TokenKept (s.claim call startedAt) :=
  h.setStage hcall .claimed true nofun (by rw [hstage, hfree]; rfl)

theorem look (h : TokenKept s) (hs : s.look call now = some s') : TokenKept s' := by
  unfold TokenState.look at hs
  split at hs
  · rename_i startedAt hcall
    cases hs
    exact h.orCached hcall rfl (h.setStage hcall .missed s.isRefreshingToken nofun rfl)
  · cases hs

theorem enter (h : TokenKept s) (hs : s.enter call now = some s') : TokenKept s' := by
  unfold TokenState.enter at hs
  split at hs
  · rename_i startedAt hcall
    cases hs
    refine h.orCached hcall rfl ?_
    split
    · exact h.setStage hcall .waiting s.isRefreshingToken nofun rfl
    · rename_i hfree
      exact h.claim hcall rfl (by simpa using hfree)
  · cases hs

theorem wake (h : TokenKept s) {timedOut : Bool} (hs : s.wake call timedOut now = some s') :
    TokenKept s' := by
  unfold TokenState.wake at hs
  split at hs
  · rename_i startedAt hcall
    cases hs
    refine h.orCached hcall rfl ?_
    split
    · split
      · exact h.setStage hcall (.done (.error .timeout)) s.isRefreshingToken nofun rfl
      · exact h
    · rename_i hfree
      exact h.claim hcall rfl (by simpa using hfree)
  · cases hs

theorem request (h : TokenKept s) (hs : s.request call = some s') : TokenKept s' := by
  unfold TokenState.request at hs
  split at hs
  · rename_i startedAt hcall
    cases hs
    refine h.setStage hcall (.requested s.clears) s.isRefreshingToken (fun clears hclears => ?_) rfl
    cases hclears
    exact ⟨h.startedAt_le hcall, Nat.le_refl _⟩
  · cases hs

theorem flag_of_refreshing (h : TokenKept s) (hcall : s.calls[call]? = some ⟨startedAt, stage⟩)
    (hstage : TokenCall.isRefreshing ⟨startedAt, stage⟩ = true) : s.isRefreshingToken = true := by
  have hpos : 0 < s.calls.countP TokenCall.isRefreshing :=
    List.countP_pos_iff.mpr ⟨_, List.mem_of_getElem? hcall, hstage⟩
  rw [h.singleFlight] at hpos
  cases hflag : s.isRefreshingToken with
  | true => rfl
  | false => simp [hflag] at hpos

theorem succeed (h : TokenKept s) {token : String} {expiresAt : Int}
    (hguard : TokenStep s (.succeed call token expiresAt))
    (hs : s.succeed call token expiresAt = some s') : TokenKept s' := by
  unfold TokenState.succeed at hs
  split at hs
  · rename_i startedAt clears hcall
    cases hs
    have hlast : clears = s.clears := by
      refine hguard clears ?_
      rw [TokenState.requestedBy, hcall]
      rfl
    have hflag := h.flag_of_refreshing hcall rfl
    have hdone := h.setStage hcall (.done (.ok token)) false nofun (by rw [hflag]; rfl)
    have hstarted := (h.requested _ (List.mem_of_getElem? hcall) clears rfl).1
    have hreturned := hdone.withReturned ⟨startedAt, clears, .obtained⟩ trivial hstarted
    exact ⟨hreturned.singleFlight, hreturned.started, hreturned.requested, fun _ => hlast,
      hreturned.returned⟩
  · cases hs

theorem fail (h : TokenKept s) (hs : s.fail call = some s') : TokenKept s' := by
  unfold TokenState.fail at hs
  split at hs
  · rename_i startedAt hcall
    cases hs
    have hflag := h.flag_of_refreshing hcall rfl
    exact h.setStage hcall (.done (.error .refreshFailed)) false nofun (by rw [hflag]; rfl)
  · rename_i startedAt clears hcall
    cases hs
    have hflag := h.flag_of_refreshing hcall rfl
    exact h.setStage hcall (.done (.error .refreshFailed)) false nofun (by rw [hflag]; rfl)
  · cases hs

theorem newCall (h : TokenKept s) :
    TokenKept { s with calls := s.calls ++ [⟨s.clears, .started⟩] } where
  singleFlight := by
    rw [List.countP_append, h.singleFlight]
    rfl
  started other hother := by
    rcases List.mem_append.mp hother with hother | hother
    · exact h.started other hother
    · obtain rfl := List.mem_singleton.mp hother
      exact Nat.le_refl _
  requested other hother := by
    rcases List.mem_append.mp hother with hother | hother
    · exact h.requested other hother
    · rw [List.mem_singleton.mp hother]
      exact nofun
  cached := h.cached
  returned := h.returned

theorem clearToken (h : TokenKept s) : TokenKept s.clearToken where
  singleFlight := h.singleFlight
  started other hother := Nat.le_trans (h.started other hother) (Nat.le_succ _)
  requested other hother clears hclears :=
    ⟨(h.requested other hother clears hclears).1,
      Nat.le_trans (h.requested other hother clears hclears).2 (Nat.le_succ _)⟩
  cached := nofun
  returned := h.returned

theorem step {action : TokenAction} (h : TokenKept s) (hguard : TokenStep s action)
    (hs : s.step action = some s') : TokenKept s' := by
  cases action with
  | call =>
      cases hs
      exact h.newCall
  | look call now => exact h.look hs
  | enter call now => exact h.enter hs
  | wake call timedOut now => exact h.wake hs
  | request call => exact h.request hs
  | succeed call token expiresAt => exact h.succeed hguard hs
  | fail call => exact h.fail hs
  | clear =>
      cases hs
      exact h.clearToken

end TokenKept

/-- Any number of threads are served in every interleaving whose steps meet the condition. -/
theorem tokens_served {actions : List TokenAction} {s : TokenState}
    (hrun : LabelledRun.run TokenState.step .new actions = some s)
    (hguard : LabelledRun.Guarded TokenState.step TokenStep .new actions) : TokenServed s :=
  (LabelledRun.invariant_of_guarded TokenKept (fun _ _ _ h hstep hs => h.step hstep hs)
    TokenKept.new hguard hrun).served

/-! ## A token that is cleared while it is refreshed -/

def sampleRefresh : List TokenAction :=
  [.call, .look 0 0, .enter 0 0, .request 0, .call, .look 1 5, .enter 1 5]

def sampleServed : List TokenAction :=
  sampleRefresh ++ [.succeed 0 "jwt-1" 900000, .wake 1 false 10, .clear, .call, .look 2 20,
    .enter 2 20, .request 2, .clear, .fail 2]

theorem tokens_served_sample :
    ∃ s, LabelledRun.run TokenState.step .new sampleServed = some s ∧ TokenServed s ∧
      s.returned.length = 2 := by
  obtain ⟨s, hrun, hlength⟩ :
      ∃ s, LabelledRun.run TokenState.step .new sampleServed = some s ∧ s.returned.length = 2 :=
    LabelledRun.exists_of_any (by decide)
  have hguard : LabelledRun.Guarded TokenState.step TokenStep .new sampleServed :=
    LabelledRun.Guarded.of_guardedRun (by decide)
  exact ⟨s, hrun, tokens_served hrun hguard, hlength⟩

/-- The refresh that was under way fills the cache that the clear has emptied. -/
theorem cleared_token_returned :
    ∃ s, LabelledRun.run TokenState.step .new
        (sampleRefresh ++ [.clear, .succeed 0 "jwt-1" 900000, .call, .look 2 20]) = some s ∧
      ⟨1, 0, .cached 900000 20⟩ ∈ s.returned ∧ ¬ TokenServed s := by
  obtain ⟨s, hrun, hreturned⟩ :
      ∃ s, LabelledRun.run TokenState.step .new
        (sampleRefresh ++ [.clear, .succeed 0 "jwt-1" 900000, .call, .look 2 20]) = some s ∧
        ⟨1, 0, .cached 900000 20⟩ ∈ s.returned :=
    LabelledRun.exists_of_any (by decide)
  refine ⟨s, hrun, hreturned, fun h => ?_⟩
  have hcleared := h.cleared _ hreturned 1 (Nat.le_refl 1)
  exact absurd hcleared (by decide)

end Fulgur
