import Mathlib.Data.List.Count
import Fulgur.Library.Run
import Fulgur.Sync.ShareDelivery

/-! # Every share is opened once

For each id at most one copy of its share is anywhere between the server and a
tab. A copy that has left its fetch is either still waiting for its
acknowledgement or gone from the server, so a fetch that starts for an id that
awaits none, and that no other fetch is busy with, cannot bring a second copy.
-/

namespace Fulgur

open LabelledRun

namespace FetchTask

def asks (id : String) (fetch : FetchTask) : Bool :=
  fetch.shareId = id && match fetch.stage with
    | .requested _ => true
    | _ => false

def carries (id : String) (fetch : FetchTask) : Bool :=
  match fetch.stage with
  | .fetched share => share.id = id
  | .registered share => share.id = id
  | _ => false

def hasRegistered (id : String) (fetch : FetchTask) : Bool :=
  match fetch.stage with
  | .registered share => share.id = id
  | _ => false

/-- The fetch is past its start and not over. -/
def busy (id : String) (fetch : FetchTask) : Bool := fetch.asks id || fetch.carries id

end FetchTask

def SharedFileResponse.hasId (id : String) (share : SharedFileResponse) : Bool := share.id = id

def DecryptedShare.hasId (id : String) (share : DecryptedShare) : Bool := share.shareId = id

/-! ## Counting after one element changed -/

section

variable {α : Type} [BEq α] [LawfulBEq α]

theorem countP_erase_add (p : α → Bool) {a : α} {l : List α} (h : a ∈ l) :
    (l.erase a).countP p + (if p a then 1 else 0) = l.countP p := by
  rw [(List.perm_cons_erase h).countP_eq p, List.countP_cons]

end

theorem countP_filter_add_countP_filter_not {α : Type} (p keep : α → Bool) (l : List α) :
    (l.filter keep).countP p + (l.filter fun a => !keep a).countP p = l.countP p := by
  induction l with
  | nil => rfl
  | cons a l ih =>
      cases hk : keep a <;> simp only [List.filter_cons, hk, List.countP_cons, Bool.not_true,
        Bool.not_false, if_true, Bool.false_eq_true, if_false] <;> omega

namespace ShareDelivery

/-! ## Where the copies of a share are -/

def asked (s : ShareDelivery) (id : String) : Nat := s.fetches.countP (FetchTask.asks id)

def carried (s : ShareDelivery) (id : String) : Nat := s.fetches.countP (FetchTask.carries id)

def registered (s : ShareDelivery) (id : String) : Nat :=
  s.fetches.countP (FetchTask.hasRegistered id)

def inPass (s : ShareDelivery) (id : String) : Nat :=
  match s.decryptInFlight with
  | none => 0
  | some pass => pass.todo.countP (SharedFileResponse.hasId id) +
      pass.retryQueue.countP (SharedFileResponse.hasId id)

/-- Copies that left their fetch: queued, in the pass, decrypted or opened. -/
def delivered (s : ShareDelivery) (id : String) : Nat :=
  s.pendingSharedFiles.countP (SharedFileResponse.hasId id) + s.inPass id +
    s.pendingDecryptedFiles.countP (DecryptedShare.hasId id) + s.opened.count id

/-- Fetches start only for ids that await no acknowledgement and keep no other fetch busy. -/
def StartsAlone (s : ShareDelivery) : ShareAction → Prop
  | .request fetch =>
      (fetch.shareId ∈ s.pendingAckShareIds → fetch.initialSync = none) ∧
        (fetch.shareId ∉ s.pendingAckShareIds →
          ∀ other ∈ s.fetches, other.busy fetch.shareId = false)
  | _ => True

instance (s : ShareDelivery) (action : ShareAction) : Decidable (s.StartsAlone action) :=
  match action with
  | .request _ => inferInstanceAs (Decidable ((_ → _) ∧ (_ → _)))
  | .post _ => isTrue trivial
  | .expire _ => isTrue trivial
  | .announce _ => isTrue trivial
  | .beginSync _ _ => isTrue trivial
  | .respond _ => isTrue trivial
  | .fail _ => isTrue trivial
  | .register _ => isTrue trivial
  | .push _ => isTrue trivial
  | .registerSync _ => isTrue trivial
  | .applySync _ _ => isTrue trivial
  | .startPass _ => isTrue trivial
  | .keyUnavailable => isTrue trivial
  | .decrypt _ => isTrue trivial
  | .requeue => isTrue trivial
  | .acknowledge _ => isTrue trivial
  | .endPass => isTrue trivial
  | .openDecrypted => isTrue trivial

/-- The invariant: one copy of each share, and no way to a second one. -/
structure Once (s : ShareDelivery) : Prop where
  busy : ∀ id, s.asked id + s.carried id ≤ 1
  copies : ∀ id, s.carried id + s.delivered id ≤ 1
  /-- A fetch that is asking for a delivered share gets no answer. -/
  gone : ∀ id, 0 < s.asked id → 0 < s.delivered id → s.available id = none
  awaited : ∀ id, 0 < s.registered id + s.delivered id →
    id ∈ s.pendingAckShareIds ∨ s.available id = none
  posted : ∀ id, 0 < s.carried id + s.delivered id ∨ s.available id ≠ none → id ∈ s.posted
  served : ∀ id share, s.available id = some share → share.id = id

theorem once_start : start.Once where
  busy := by simp [start, asked, carried]
  copies := by simp [start, carried, delivered, inPass]
  gone := by simp [start, asked]
  awaited := by simp [start, registered, delivered, inPass]
  posted := by simp [start, carried, delivered, inPass]
  served := by simp [start]

variable {s t : ShareDelivery}

/-- Steps that bring no request and no copy, and only deliver what was registered. -/
theorem Once.of_moved (h : s.Once) (hasked : ∀ id, t.asked id ≤ s.asked id)
    (hcarried : ∀ id, t.carried id ≤ s.carried id)
    (hcopies : ∀ id, t.carried id + t.delivered id ≤ s.carried id + s.delivered id)
    (hawaited : ∀ id, 0 < t.registered id + t.delivered id →
      id ∈ t.pendingAckShareIds ∨ 0 < s.registered id + s.delivered id)
    (havailable : ∀ id, t.available id = s.available id ∨ t.available id = none)
    (hwaits : ∀ id, id ∈ s.pendingAckShareIds → id ∈ t.pendingAckShareIds ∨ t.available id = none)
    (hposted : t.posted = s.posted) : t.Once where
  busy id := by
    have := h.busy id
    have := hasked id
    have := hcarried id
    omega
  copies id := by
    have := h.copies id
    have := hcopies id
    omega
  gone id hask hdel := by
    have hbusy := h.busy id
    have ha := hasked id
    have hc := hcopies id
    rcases havailable id with hsame | hnone
    · rw [hsame]
      exact h.gone id (by omega) (by omega)
    · exact hnone
  awaited id hpos := by
    rcases hawaited id hpos with hack | hbefore
    · exact Or.inl hack
    · rcases h.awaited id hbefore with hack | hnone
      · exact hwaits id hack
      · rcases havailable id with hsame | hgone
        · exact Or.inr (hsame.trans hnone)
        · exact Or.inr hgone
  posted id hpos := by
    have hc := hcopies id
    rw [hposted]
    apply h.posted id
    rcases hpos with hcopy | hserved
    · exact Or.inl (by omega)
    · rcases havailable id with hsame | hnone
      · exact Or.inr (hsame ▸ hserved)
      · exact absurd hnone hserved
  served id share hshare := by
    rcases havailable id with hsame | hnone
    · exact h.served id share (hsame ▸ hshare)
    · rw [hnone] at hshare
      cases hshare

/-- Steps that deliver nothing, and leave every wait in place. -/
theorem Once.of_le (h : s.Once) (hasked : ∀ id, t.asked id ≤ s.asked id)
    (hcarried : ∀ id, t.carried id ≤ s.carried id)
    (hregistered : ∀ id, t.registered id ≤ s.registered id)
    (hdelivered : ∀ id, t.delivered id ≤ s.delivered id)
    (havailable : ∀ id, t.available id = s.available id ∨ t.available id = none)
    (hwaits : ∀ id, id ∈ s.pendingAckShareIds → id ∈ t.pendingAckShareIds ∨ t.available id = none)
    (hposted : t.posted = s.posted) : t.Once := by
  apply h.of_moved hasked hcarried _ _ havailable hwaits hposted
  · intro id
    have := hcarried id
    have := hdelivered id
    omega
  · intro id hpos
    have := hregistered id
    have := hdelivered id
    right
    omega

theorem Once.of_delivered (h : s.Once) (hfetches : t.fetches = s.fetches)
    (hdelivered : ∀ id, t.delivered id ≤ s.delivered id) (havailable : t.available = s.available)
    (hwaits : t.pendingAckShareIds = s.pendingAckShareIds) (hposted : t.posted = s.posted) :
    t.Once := by
  have hcount : ∀ p : FetchTask → Bool, t.fetches.countP p ≤ s.fetches.countP p := by
    intro p
    exact Nat.le_of_eq (by rw [hfetches])
  exact h.of_le (fun id => hcount _) (fun id => hcount _) (fun id => hcount _) hdelivered
    (fun id => Or.inl (by rw [havailable])) (fun id hack => Or.inl (hwaits ▸ hack)) hposted

theorem registered_le_carried (s : ShareDelivery) (id : String) :
    s.registered id ≤ s.carried id := by
  apply List.countP_mono_left
  intro fetch _ h
  unfold FetchTask.hasRegistered at h
  unfold FetchTask.carries
  split at h <;> simp_all

theorem countP_dropFetch {fetch : FetchTask} (hmem : fetch ∈ s.fetches) (p : FetchTask → Bool) :
    (s.dropFetch fetch).fetches.countP p + (if p fetch then 1 else 0) = s.fetches.countP p :=
  countP_erase_add p hmem

theorem countP_replaceFetch {fetch : FetchTask} (hmem : fetch ∈ s.fetches) (stage : FetchStage)
    (p : FetchTask → Bool) :
    (s.replaceFetch fetch stage).fetches.countP p + (if p fetch then 1 else 0) =
      s.fetches.countP p + (if p { fetch with stage := stage } then 1 else 0) := by
  have hdrop := countP_erase_add p hmem
  unfold replaceFetch
  rw [List.countP_cons]
  omega

section

variable {fetch : FetchTask} {share : SharedFileResponse} {limit : Nat}

theorem counts_requested (limit : Nat) (hmem : fetch ∈ s.fetches)
    (hstage : fetch.stage = .announced) (id : String) :
    (s.replaceFetch fetch (.requested limit)).asked id =
        s.asked id + (if fetch.shareId = id then 1 else 0) ∧
      (s.replaceFetch fetch (.requested limit)).carried id = s.carried id ∧
      (s.replaceFetch fetch (.requested limit)).registered id = s.registered id := by
  have ha := countP_replaceFetch hmem (.requested limit) (FetchTask.asks id)
  have hc := countP_replaceFetch hmem (.requested limit) (FetchTask.carries id)
  have hr := countP_replaceFetch hmem (.requested limit) (FetchTask.hasRegistered id)
  simp [FetchTask.asks, hstage] at ha
  simp [FetchTask.carries, hstage] at hc
  simp [FetchTask.hasRegistered, hstage] at hr
  exact ⟨ha, hc, hr⟩

theorem counts_fetched (hmem : fetch ∈ s.fetches) (hstage : fetch.stage = .requested limit)
    (hid : share.id = fetch.shareId) (id : String) :
    (s.replaceFetch fetch (.fetched share)).asked id + (if fetch.shareId = id then 1 else 0) =
        s.asked id ∧
      (s.replaceFetch fetch (.fetched share)).carried id =
        s.carried id + (if fetch.shareId = id then 1 else 0) ∧
      (s.replaceFetch fetch (.fetched share)).registered id = s.registered id := by
  have ha := countP_replaceFetch hmem (.fetched share) (FetchTask.asks id)
  have hc := countP_replaceFetch hmem (.fetched share) (FetchTask.carries id)
  have hr := countP_replaceFetch hmem (.fetched share) (FetchTask.hasRegistered id)
  simp [FetchTask.asks, hstage] at ha
  simp [FetchTask.carries, hstage, hid] at hc
  simp [FetchTask.hasRegistered, hstage] at hr
  exact ⟨ha, hc, hr⟩

theorem counts_registered (hmem : fetch ∈ s.fetches) (hstage : fetch.stage = .fetched share)
    (id : String) :
    (s.replaceFetch fetch (.registered share)).asked id = s.asked id ∧
      (s.replaceFetch fetch (.registered share)).carried id = s.carried id ∧
      (s.replaceFetch fetch (.registered share)).registered id =
        s.registered id + (if share.id = id then 1 else 0) := by
  have ha := countP_replaceFetch hmem (.registered share) (FetchTask.asks id)
  have hc := countP_replaceFetch hmem (.registered share) (FetchTask.carries id)
  have hr := countP_replaceFetch hmem (.registered share) (FetchTask.hasRegistered id)
  simp [FetchTask.asks, hstage] at ha
  simp [FetchTask.carries, hstage] at hc
  simp [FetchTask.hasRegistered, hstage] at hr
  exact ⟨ha, hc, hr⟩

/-- A registered fetch that ends gives its copy away. -/
theorem counts_pushed (hmem : fetch ∈ s.fetches) (hstage : fetch.stage = .registered share)
    (id : String) :
    (s.dropFetch fetch).asked id = s.asked id ∧
      (s.dropFetch fetch).carried id + (if share.id = id then 1 else 0) = s.carried id ∧
      (s.dropFetch fetch).registered id + (if share.id = id then 1 else 0) = s.registered id := by
  have ha := countP_dropFetch hmem (FetchTask.asks id)
  have hc := countP_dropFetch hmem (FetchTask.carries id)
  have hr := countP_dropFetch hmem (FetchTask.hasRegistered id)
  simp [FetchTask.asks, hstage] at ha
  simp [FetchTask.carries, hstage] at hc
  simp [FetchTask.hasRegistered, hstage] at hr
  exact ⟨ha, hc, hr⟩

end

theorem Once.dropFetch (h : s.Once) (fetch : FetchTask) : (s.dropFetch fetch).Once :=
  h.of_le (fun _ => List.erase_sublist.countP_le) (fun _ => List.erase_sublist.countP_le)
    (fun _ => List.erase_sublist.countP_le) (fun _ => Nat.le_refl _) (fun _ => Or.inl rfl)
    (fun _ hack => Or.inl hack) rfl

theorem Once.consume (h : s.Once) (id : String) : (s.consume id).Once := by
  refine h.of_le (fun _ => Nat.le_refl _) (fun _ => Nat.le_refl _) (fun _ => Nat.le_refl _)
    (fun _ => Nat.le_refl _) (fun other => ?_) (fun _ hack => Or.inl hack) rfl
  by_cases hid : other = id
  · right
    rw [hid]
    exact Function.update_self ..
  · left
    exact Function.update_of_ne hid ..

/-- The server takes a new share under an id it never used. -/
theorem Once.post (h : s.Once) {share : SharedFileResponse} (hstep : s.post share = some t) :
    t.Once := by
  unfold ShareDelivery.post at hstep
  rcases Option.ite_none_left_eq_some.mp hstep with ⟨hfresh, hstep⟩
  cases hstep
  have hnone : s.carried share.id + s.delivered share.id = 0 := by
    by_contra hpos
    exact hfresh (h.posted share.id (Or.inl (by omega)))
  have hother : ∀ id, id ≠ share.id →
      Function.update s.available share.id (some share) id = s.available id :=
    fun id hid => Function.update_of_ne hid ..
  have hreg := registered_le_carried s share.id
  constructor
  · exact h.busy
  · exact h.copies
  · intro id hask hdel
    change 0 < s.delivered id at hdel
    have hid : id ≠ share.id := by
      intro hid
      rw [hid] at hdel
      omega
    exact (hother id hid).trans (h.gone id hask hdel)
  · intro id hpos
    change 0 < s.registered id + s.delivered id at hpos
    have hid : id ≠ share.id := by
      intro hid
      rw [hid] at hpos
      omega
    rcases h.awaited id hpos with hack | hgone
    · exact Or.inl hack
    · exact Or.inr ((hother id hid).trans hgone)
  · intro id hpos
    by_cases hid : id = share.id
    · rw [hid]
      exact List.mem_cons_self
    · apply List.mem_cons_of_mem
      apply h.posted id
      rcases hpos with hcopy | hserved
      · exact Or.inl hcopy
      · exact Or.inr (hother id hid ▸ hserved)
  · intro id other hshare
    change Function.update s.available share.id (some share) id = some other at hshare
    by_cases hid : id = share.id
    · rw [hid, Function.update_self] at hshare
      cases hshare
      exact hid.symm
    · rw [hother id hid] at hshare
      exact h.served id other hshare

/-- A fetch that starts alone asks for a share that is nowhere, or gone from the server. -/
theorem Once.request (h : s.Once) {fetch : FetchTask} (halone : s.StartsAlone (.request fetch))
    (hstep : s.request fetch = some t) : t.Once := by
  unfold ShareDelivery.request at hstep
  rcases Option.ite_none_right_eq_some.mp hstep with ⟨⟨hmem, hstage⟩, hstep⟩
  split at hstep
  · cases hstep
    exact h.dropFetch fetch
  · rename_i hnotSkipped
    cases hstep
    have hwaits : fetch.shareId ∉ s.pendingAckShareIds :=
      fun hack => hnotSkipped ⟨halone.1 hack, hack⟩
    have hidle := halone.2 hwaits
    have hbusy : s.asked fetch.shareId = 0 ∧ s.carried fetch.shareId = 0 := by
      constructor
      · apply List.countP_eq_zero.mpr
        intro other hother hasks
        have := hidle other hother
        simp [FetchTask.busy, hasks] at this
      · apply List.countP_eq_zero.mpr
        intro other hother hcarries
        have := hidle other hother
        simp [FetchTask.busy, hcarries] at this
    have hcounts := counts_requested s.maxFileSizeBytes hmem hstage
    constructor
    · intro id
      rcases hcounts id with ⟨hasked, hcarried, _⟩
      have := h.busy id
      rw [hasked, hcarried]
      by_cases hid : fetch.shareId = id
      · subst hid
        rw [if_pos rfl]
        omega
      · rw [if_neg hid]
        omega
    · intro id
      rw [(hcounts id).2.1]
      exact h.copies id
    · intro id hask hdel
      change 0 < s.delivered id at hdel
      by_cases hid : fetch.shareId = id
      · subst hid
        rcases h.awaited fetch.shareId (by omega) with hack | hgone
        · exact absurd hack hwaits
        · exact hgone
      · rw [(hcounts id).1, if_neg hid] at hask
        exact h.gone id hask hdel
    · intro id hpos
      rw [(hcounts id).2.2] at hpos
      exact h.awaited id hpos
    · intro id hpos
      rw [(hcounts id).2.1] at hpos
      exact h.posted id hpos
    · exact h.served

/-- The share the server answers with was nowhere before. -/
theorem Once.respond (h : s.Once) {fetch : FetchTask} (hstep : s.respond fetch = some t) :
    t.Once := by
  unfold ShareDelivery.respond at hstep
  split at hstep
  · rename_i limit share hstage hserved
    rcases Option.ite_none_right_eq_some.mp hstep with ⟨hmem, hstep⟩
    split at hstep
    · cases hstep
      exact h.dropFetch fetch
    · cases hstep
      have hid := h.served fetch.shareId share hserved
      have hcounts := counts_fetched hmem hstage hid
      constructor
      · intro id
        have := h.busy id
        rcases hcounts id with ⟨hasked, hcarried, _⟩
        omega
      · intro id
        have := h.busy id
        have := h.copies id
        have hgone := h.gone id
        rcases hcounts id with ⟨hasked, hcarried, _⟩
        show _ + s.delivered id ≤ 1
        by_cases hsame : fetch.shareId = id
        · subst hsame
          rw [if_pos rfl] at hasked hcarried
          have hnone : ¬0 < s.delivered fetch.shareId := by
            intro hdel
            rw [hgone (by omega) hdel] at hserved
            cases hserved
          omega
        · rw [if_neg hsame] at hcarried
          omega
      · intro id hask hdel
        rcases hcounts id with ⟨hasked, _, _⟩
        exact h.gone id (by omega) hdel
      · intro id hpos
        rw [(hcounts id).2.2] at hpos
        exact h.awaited id hpos
      · intro id hpos
        change 0 < _ + s.delivered id ∨ _ at hpos
        by_cases hsame : fetch.shareId = id
        · subst hsame
          apply h.posted fetch.shareId
          right
          rw [hserved]
          simp
        · rw [(hcounts id).2.1, if_neg hsame] at hpos
          exact h.posted id hpos
      · exact h.served
  · cases hstep

theorem Once.fail (h : s.Once) {fetch : FetchTask} (hstep : s.fail fetch = some t) : t.Once := by
  unfold ShareDelivery.fail at hstep
  split at hstep
  · rcases Option.ite_none_right_eq_some.mp hstep with ⟨_, hstep⟩
    cases hstep
    exact h.dropFetch fetch
  · cases hstep

/-- A doorbell registers its share: from then on its id awaits acknowledgement. -/
theorem Once.register (h : s.Once) {fetch : FetchTask} (hstep : s.register fetch = some t) :
    t.Once := by
  unfold ShareDelivery.register at hstep
  split at hstep
  · rename_i share hstage
    rcases Option.ite_none_right_eq_some.mp hstep with ⟨⟨hmem, _⟩, hstep⟩
    cases hstep
    have hcounts := counts_registered hmem hstage
    apply h.of_moved
    · exact fun id => Nat.le_of_eq (hcounts id).1
    · exact fun id => Nat.le_of_eq (hcounts id).2.1
    · intro id
      exact Nat.add_le_add_right (Nat.le_of_eq (hcounts id).2.1) (s.delivered id)
    · intro id hpos
      change 0 < (s.replaceFetch fetch (.registered share)).registered id + s.delivered id at hpos
      rw [(hcounts id).2.2] at hpos
      by_cases hid : share.id = id
      · left
        rw [← hid]
        exact List.mem_cons_self
      · right
        rw [if_neg hid] at hpos
        omega
    · exact fun _ => Or.inl rfl
    · exact fun _ hack => Or.inl (List.mem_cons_of_mem _ hack)
    · rfl
  · cases hstep

/-- Queueing a share moves its only copy out of the fetch. -/
theorem Once.push (h : s.Once) {fetch : FetchTask} (hstep : s.push fetch = some t) : t.Once := by
  unfold ShareDelivery.push at hstep
  split at hstep
  · rename_i share hstage
    rcases Option.ite_none_right_eq_some.mp hstep with ⟨⟨hmem, _⟩, hstep⟩
    cases hstep
    have hcounts := counts_pushed hmem hstage
    have hdelivered : ∀ id, delivered { s.dropFetch fetch with
        pendingSharedFiles := s.pendingSharedFiles ++ [share] } id =
          s.delivered id + (if share.id = id then 1 else 0) := by
      intro id
      unfold delivered inPass
      simp [List.countP_append, List.countP_cons, SharedFileResponse.hasId, ShareDelivery.dropFetch]
      omega
    apply h.of_moved
    · exact fun id => Nat.le_of_eq (hcounts id).1
    · intro id
      have hcarried : (s.dropFetch fetch).carried id ≤ s.carried id := by
        have := (hcounts id).2.1
        omega
      exact hcarried
    · intro id
      rw [hdelivered]
      have := (hcounts id).2.1
      change (s.dropFetch fetch).carried id + _ ≤ _
      omega
    · intro id hpos
      rw [hdelivered] at hpos
      change 0 < (s.dropFetch fetch).registered id + _ at hpos
      have := (hcounts id).2.2
      right
      omega
    · exact fun _ => Or.inl rfl
    · exact fun _ hack => Or.inl hack
    · rfl
  · cases hstep

/-! ## Initial synchronizations -/

theorem countP_announced (shareIds : List String) (f : String → FetchTask)
    (hstage : ∀ id, (f id).stage = .announced) (id : String) :
    (shareIds.map f).countP (FetchTask.asks id) = 0 ∧
      (shareIds.map f).countP (FetchTask.carries id) = 0 ∧
      (shareIds.map f).countP (FetchTask.hasRegistered id) = 0 := by
  have hnone :
    ∀ p : FetchTask → Bool, (∀ id, p (f id) = false) → (shareIds.map f).countP p = 0 := by
    intro p hp
    rw [List.countP_eq_zero]
    intro fetch hfetch
    rcases List.mem_map.mp hfetch with ⟨other, _, rfl⟩
    simp [hp]
  refine ⟨hnone _ ?_, hnone _ ?_, hnone _ ?_⟩ <;> intro other <;>
    simp [FetchTask.asks, FetchTask.carries, FetchTask.hasRegistered, hstage]

/-- Announced shares count for nothing yet. -/
theorem Once.announced (h : s.Once) (shareIds : List String) (f : String → FetchTask)
    (hstage : ∀ id, (f id).stage = .announced) :
    { s with fetches := s.fetches ++ shareIds.map f }.Once := by
  have hcount : ∀ (p : FetchTask → Bool), (shareIds.map f).countP p = 0 →
      (s.fetches ++ shareIds.map f).countP p ≤ s.fetches.countP p := by
    intro p hp
    rw [List.countP_append, hp]
    exact Nat.le_refl _
  exact h.of_le (fun id => hcount _ (countP_announced shareIds f hstage id).1)
    (fun id => hcount _ (countP_announced shareIds f hstage id).2.1)
    (fun id => hcount _ (countP_announced shareIds f hstage id).2.2) (fun _ => Nat.le_refl _)
    (fun _ => Or.inl rfl) (fun _ hack => Or.inl hack) rfl

theorem registerIn_counts (sync : Nat) (fetch : FetchTask) (id : String) :
    (fetch.registerIn sync).asks id = fetch.asks id ∧
      (fetch.registerIn sync).carries id = fetch.carries id := by
  unfold FetchTask.registerIn
  split
  · cases hstage : fetch.stage <;> simp [FetchTask.asks, FetchTask.carries, hstage]
  · exact ⟨rfl, rfl⟩

/-- A share that is registered with its synchronization was registered before or is its own. -/
theorem registerIn_hasRegistered {sync : Nat} {fetch : FetchTask} {id : String}
    (h : (fetch.registerIn sync).hasRegistered id = true) :
    fetch.hasRegistered id = true ∨ ∃ share ∈ fetch.syncShare sync, share.id = id := by
  unfold FetchTask.registerIn at h
  split at h
  · rename_i hsync
    cases hstage : fetch.stage with
    | fetched share =>
        right
        refine ⟨share, ?_, ?_⟩
        · simp [FetchTask.syncShare, hsync, hstage]
        · simpa [FetchTask.hasRegistered, hstage] using h
    | announced => simp [FetchTask.hasRegistered, hstage] at h
    | requested limit => simp [FetchTask.hasRegistered, hstage] at h
    | registered share =>
        left
        simpa [hstage] using h
  · exact Or.inl h

/-- All shares of a synchronization are registered before any of them is queued. -/
theorem Once.registerSync (h : s.Once) {sync : Nat} (hstep : s.registerSync sync = some t) :
    t.Once := by
  unfold ShareDelivery.registerSync at hstep
  rcases Option.ite_none_right_eq_some.mp hstep with ⟨_, hstep⟩
  cases hstep
  have hasked : ∀ id, (s.fetches.map (FetchTask.registerIn sync)).countP (FetchTask.asks id) =
      s.fetches.countP (FetchTask.asks id) := by
    intro id
    rw [List.countP_map]
    exact List.countP_congr fun fetch _ => by simp [(registerIn_counts sync fetch id).1]
  have hcarried : ∀ id, (s.fetches.map (FetchTask.registerIn sync)).countP (FetchTask.carries id) =
      s.fetches.countP (FetchTask.carries id) := by
    intro id
    rw [List.countP_map]
    exact List.countP_congr fun fetch _ => by simp [(registerIn_counts sync fetch id).2]
  apply h.of_moved
  · exact fun id => Nat.le_of_eq (hasked id)
  · exact fun id => Nat.le_of_eq (hcarried id)
  · exact fun id => Nat.add_le_add_right (Nat.le_of_eq (hcarried id)) (s.delivered id)
  · intro id hpos
    change 0 < (s.fetches.map (FetchTask.registerIn sync)).countP (FetchTask.hasRegistered id) +
      s.delivered id at hpos
    by_cases hdel : 0 < s.delivered id
    · right
      omega
    · have hnew : 0 < (s.fetches.map (FetchTask.registerIn sync)).countP
          (FetchTask.hasRegistered id) := by
        omega
      rcases List.countP_pos_iff.mp hnew with ⟨registered, hmem, hreg⟩
      rcases List.mem_map.mp hmem with ⟨fetch, hfetch, rfl⟩
      rcases registerIn_hasRegistered hreg with hbefore | ⟨share, hshare, rfl⟩
      · right
        have hcount : 0 < s.registered id := List.countP_pos_iff.mpr ⟨fetch, hfetch, hbefore⟩
        omega
      · left
        apply List.mem_append_left
        exact List.mem_map_of_mem (List.mem_filterMap.mpr ⟨fetch, hfetch, hshare⟩)
  · exact fun _ => Or.inl rfl
  · exact fun _ hack => Or.inl (List.mem_append_right _ hack)
  · rfl

/-- The registered shares of a synchronization are counted by its fetches. -/
theorem countP_syncShares_le (sync : Nat) (id : String) (fetches : List FetchTask)
    (hregistered : ∀ fetch ∈ fetches, fetch.initialSync = some sync → fetch.isRegistered = true) :
    (fetches.filterMap (FetchTask.syncShare sync)).countP (SharedFileResponse.hasId id) ≤
      (fetches.filter fun fetch => !decide (fetch.initialSync ≠ some sync)).countP
        (FetchTask.hasRegistered id) := by
  induction fetches with
  | nil => exact Nat.le_refl 0
  | cons fetch fetches ih =>
      have hrest := ih fun other hother => hregistered other (List.mem_cons_of_mem fetch hother)
      have hfetch := hregistered fetch List.mem_cons_self
      by_cases hsync : fetch.initialSync = some sync
      · have hstage := hfetch hsync
        unfold FetchTask.isRegistered at hstage
        split at hstage
        · rename_i share hshare
          simp [FetchTask.syncShare, hsync, hshare, List.countP_cons, FetchTask.hasRegistered,
            SharedFileResponse.hasId] at hrest ⊢
          omega
        · cases hstage
      · simp [FetchTask.syncShare, hsync] at hrest ⊢
        exact hrest

/-- Queueing the shares of a synchronization moves their only copies out of its fetches. -/
theorem Once.applySync (h : s.Once) {sync : Nat} {advertised : Option Nat}
    (hstep : s.applySync sync advertised = some t) : t.Once := by
  unfold ShareDelivery.applySync at hstep
  rcases Option.ite_none_right_eq_some.mp hstep with ⟨hall, hstep⟩
  have hregistered : ∀ fetch ∈ s.fetches, fetch.initialSync = some sync →
      fetch.isRegistered = true := by
    intro fetch hfetch hsync
    have hthis := List.all_eq_true.mp hall fetch hfetch
    simpa [hsync] using hthis
  have hsplit := fun p => countP_filter_add_countP_filter_not p
    (fun fetch : FetchTask => decide (fetch.initialSync ≠ some sync)) s.fetches
  have hmoved := fun id => countP_syncShares_le sync id s.fetches hregistered
  have hcarries :
    ∀ id, (s.fetches.filter fun fetch => !decide (fetch.initialSync ≠ some sync)).countP
      (FetchTask.hasRegistered id) ≤
        (s.fetches.filter fun fetch => !decide (fetch.initialSync ≠ some sync)).countP
          (FetchTask.carries id) :=
    fun id => registered_le_carried { s with fetches := _ } id
  cases hstep
  have hdelivered : ∀ id, delivered { s with
      maxFileSizeBytes := resolveServerMaxFileSize advertised
      pendingSharedFiles :=
        queuePendingShares s.pendingSharedFiles (s.fetches.filterMap (FetchTask.syncShare sync))
      fetches := s.fetches.filter fun fetch => fetch.initialSync ≠ some sync } id ≤ s.delivered id +
        (s.fetches.filterMap (FetchTask.syncShare sync)).countP (SharedFileResponse.hasId id) := by
    intro id
    have hunseen := (List.filter_sublist (l := s.fetches.filterMap (FetchTask.syncShare sync))
      (p := fun share => !(s.pendingSharedFiles.map (·.id)).contains share.id)).countP_le
        (p := SharedFileResponse.hasId id)
    unfold delivered inPass queuePendingShares
    simp only [List.countP_append]
    omega
  apply h.of_moved
  · exact fun id => List.filter_sublist.countP_le
  · exact fun id => List.filter_sublist.countP_le
  · intro id
    have := hdelivered id
    have := hmoved id
    have := hcarries id
    have hcount := hsplit (FetchTask.carries id)
    change (s.fetches.filter _).countP (FetchTask.carries id) + _ ≤
      s.fetches.countP (FetchTask.carries id) + _
    omega
  · intro id hpos
    have := hdelivered id
    have := hmoved id
    have hcount := hsplit (FetchTask.hasRegistered id)
    change 0 < (s.fetches.filter _).countP (FetchTask.hasRegistered id) + _ at hpos
    right
    change 0 < s.fetches.countP (FetchTask.hasRegistered id) + _
    omega
  · exact fun _ => Or.inl rfl
  · exact fun _ hack => Or.inl hack
  · rfl

/-! ## Decryption -/

theorem Once.startPass (h : s.Once) {late : List String} (hstep : s.startPass late = some t) :
    t.Once := by
  unfold ShareDelivery.startPass at hstep
  rcases Option.ite_none_left_eq_some.mp hstep with ⟨hidle, hstep⟩
  rcases Option.ite_none_left_eq_some.mp hstep with ⟨_, hstep⟩
  have hnone : s.decryptInFlight = none := by simpa using hidle
  cases hstep
  refine h.of_delivered rfl ?_ rfl rfl rfl
  intro id
  have hsplit := countP_filter_add_countP_filter_not (SharedFileResponse.hasId id)
    (s.isDue late) s.pendingSharedFiles
  simp only [delivered, inPass, hnone, List.countP_nil]
  omega

theorem Once.deferBatchForKeyRetry (h : s.Once) (hstep : s.deferBatchForKeyRetry = some t) :
    t.Once := by
  unfold ShareDelivery.deferBatchForKeyRetry at hstep
  split at hstep
  · rename_i serverMaxFileSize todo hpass
    cases hstep
    refine h.of_delivered rfl ?_ rfl rfl rfl
    intro id
    simp only [delivered, inPass, hpass, List.countP_nil]
    omega
  · cases hstep

/-- Decrypting a share drops it, defers it or hands it on, and never copies it. -/
theorem Once.decryptNext (h : s.Once) {decoded : Option String}
    (hstep : s.decryptNext decoded = some t) : t.Once := by
  unfold ShareDelivery.decryptNext at hstep
  split at hstep
  · rename_i serverMaxFileSize share todo retryQueue decryptedIds hpass
    split at hstep
    · cases hstep
      refine h.of_delivered rfl ?_ rfl rfl rfl
      intro id
      simp only [delivered, inPass, hpass, List.countP_cons]
      omega
    · split at hstep
      · rename_i content
        cases hstep
        refine h.of_delivered rfl ?_ rfl rfl rfl
        intro id
        have hsame : DecryptedShare.hasId id ⟨share.id, share.fileName, content⟩ =
            SharedFileResponse.hasId id share := rfl
        simp only [delivered, inPass, hpass, List.countP_cons, List.countP_append, List.countP_nil,
          hsame]
        omega
      · simp only at hstep
        split at hstep
        · cases hstep
          refine h.of_delivered rfl ?_ rfl rfl rfl
          intro id
          simp only [delivered, inPass, hpass, List.countP_cons]
          omega
        · cases hstep
          refine h.of_delivered rfl ?_ rfl rfl rfl
          intro id
          simp only [delivered, inPass, hpass, List.countP_cons, List.countP_append,
            List.countP_nil]
          omega
  · cases hstep

theorem Once.requeue (h : s.Once) (hstep : s.requeue = some t) : t.Once := by
  unfold ShareDelivery.requeue at hstep
  split at hstep
  · rename_i serverMaxFileSize retryQueue decryptedIds hpass
    cases hstep
    refine h.of_delivered rfl ?_ rfl rfl rfl
    intro id
    simp only [delivered, inPass, hpass, List.countP_append, List.countP_nil]
    omega
  · cases hstep

/-- An id leaves the acknowledgement set only as its share leaves the server. -/
theorem Once.acknowledgeNext (h : s.Once) {result : AckResult}
    (hstep : s.acknowledgeNext result = some t) : t.Once := by
  unfold ShareDelivery.acknowledgeNext at hstep
  split at hstep
  · rename_i serverMaxFileSize decryptedIds id rest hpass
    have hnext : { s with
        decryptInFlight := some ⟨serverMaxFileSize, [], [], decryptedIds, some rest⟩ }.Once := by
      refine h.of_delivered rfl ?_ rfl rfl rfl
      intro other
      simp only [delivered, inPass, hpass, List.countP_nil]
      omega
    cases result with
    | acknowledged =>
        cases hstep
        refine (hnext.consume id).of_le (fun _ => Nat.le_refl _) (fun _ => Nat.le_refl _)
          (fun _ => Nat.le_refl _) (fun _ => Nat.le_refl _) (fun _ => Or.inl rfl) ?_ rfl
        intro other hack
        by_cases hid : other = id
        · right
          rw [hid]
          exact Function.update_self ..
        · left
          exact List.mem_filter.mpr ⟨hack, by simpa using hid⟩
    | responseLost =>
        cases hstep
        exact hnext.consume id
    | failed =>
        cases hstep
        exact hnext
  · cases hstep

theorem Once.endPass (h : s.Once) (hstep : s.endPass = some t) : t.Once := by
  unfold ShareDelivery.endPass at hstep
  split at hstep
  · rename_i serverMaxFileSize decryptedIds hpass
    cases hstep
    refine h.of_delivered rfl ?_ rfl rfl rfl
    intro id
    simp only [delivered, inPass, hpass, List.countP_nil]
    omega
  · cases hstep

theorem Once.processSharedFiles (h : s.Once) : s.processSharedFiles.Once := by
  refine h.of_delivered rfl ?_ rfl rfl rfl
  intro id
  have hopened : (s.pendingDecryptedFiles.map (·.shareId)).count id =
      s.pendingDecryptedFiles.countP (DecryptedShare.hasId id) := by
    rw [List.count, List.countP_map]
    apply List.countP_congr
    intro share _
    simp [DecryptedShare.hasId]
  simp only [delivered, inPass, ShareDelivery.processSharedFiles, List.count_append, hopened,
    List.countP_nil]
  omega

/-- Every step whose fetches start alone keeps each share in one copy. -/
theorem Once.step (h : s.Once) {action : ShareAction} (halone : s.StartsAlone action)
    (hstep : s.step action = some t) : t.Once := by
  cases action with
  | post share => exact h.post hstep
  | expire id =>
      cases hstep
      exact h.consume id
  | announce id =>
      cases hstep
      exact h.announced [id] (fun id => ⟨none, id, .announced⟩) fun _ => rfl
  | beginSync sync shareIds =>
      rcases Option.ite_none_left_eq_some.mp hstep with ⟨_, hstep⟩
      cases hstep
      exact h.announced shareIds (fun id => ⟨some sync, id, .announced⟩) fun _ => rfl
  | request fetch => exact h.request halone hstep
  | respond fetch => exact h.respond hstep
  | fail fetch => exact h.fail hstep
  | register fetch => exact h.register hstep
  | push fetch => exact h.push hstep
  | registerSync sync => exact h.registerSync hstep
  | applySync sync advertised => exact h.applySync hstep
  | startPass late => exact h.startPass hstep
  | keyUnavailable => exact h.deferBatchForKeyRetry hstep
  | decrypt decoded => exact h.decryptNext hstep
  | requeue => exact h.requeue hstep
  | acknowledge result => exact h.acknowledgeNext hstep
  | endPass => exact h.endPass hstep
  | openDecrypted =>
      cases hstep
      exact h.processSharedFiles

end ShareDelivery

open ShareDelivery

/--
In every run whose fetches start only for ids that await no acknowledgement and
that no other fetch is busy with, each share id is opened in at most one tab.
-/
theorem shares_open_once {actions : List ShareAction} {s : ShareDelivery}
    (hguard : Guarded ShareDelivery.step StartsAlone start actions)
    (hrun : run ShareDelivery.step start actions = some s) (id : String) :
    s.opened.count id ≤ 1 := by
  have honce : s.Once :=
    invariant_of_guarded Once (fun _ _ _ hs halone hstep => hs.step halone hstep) once_start hguard
      hrun
  have hcopies := honce.copies id
  unfold delivered at hcopies
  omega

def sampleShare : SharedFileResponse := ⟨"a", "notes.txt", "c2VjcmV0"⟩

/-- One initial synchronization brings the share and the UI opens it. -/
def sampleSync (sync : Nat) (result : AckResult) : List ShareAction := [
  .beginSync sync ["a"], .request ⟨some sync, "a", .announced⟩,
  .respond ⟨some sync, "a", .requested U64_MAX⟩, .registerSync sync, .applySync sync none,
  .startPass [], .decrypt (some "secret"), .requeue, .acknowledge result, .endPass, .openDecrypted]

/-- Announced again after its acknowledgement, the share is not opened again. -/
theorem shares_open_once_sample :
    ∃ s, run ShareDelivery.step start
        (.post sampleShare :: sampleSync 0 .acknowledged ++ [.announce "a",
          .request ⟨none, "a", .announced⟩, .fail ⟨none, "a", .requested U64_MAX⟩]) = some s ∧
      s.opened.count "a" ≤ 1 := by
  have hsome : (run ShareDelivery.step start
      (.post sampleShare :: sampleSync 0 .acknowledged ++ [.announce "a",
        .request ⟨none, "a", .announced⟩, .fail ⟨none, "a", .requested U64_MAX⟩])).isSome := by
    decide
  rcases Option.isSome_iff_exists.mp hsome with ⟨s, hrun⟩
  exact ⟨s, hrun, shares_open_once (Guarded.of_guardedRun (by decide)) hrun "a"⟩

/-- After a failed acknowledgement a second synchronization opens the share again. -/
theorem shares_open_twice :
    (run ShareDelivery.step start (.post sampleShare :: sampleSync 0 .failed ++
      sampleSync 1 .failed)).map (·.opened) = some ["a", "a"] := by
  decide

end Fulgur
