import Fulgur.Files.AtomicWrite
import Fulgur.Files.LossyDecoding
import Fulgur.Library.Run

/-! # What an atomic write leaves behind

Until the rename everything but the temporary file is as it was, and from the
rename on the destination holds the new contents, which were synced before. So
it does on the disk after a crash, whichever changes of the directory got there.
-/

namespace Fulgur

open LabelledRun Volumes

/-! ## The temporary file is another one -/

theorem utf8SecondByte_ne_dot {first second : UInt8} (h : utf8SecondByte first second = true) :
    second ≠ 0x2E := by
  rintro rfl
  unfold utf8SecondByte at h
  split at h
  · exact absurd h (by decide)
  · split at h
    · exact absurd h (by decide)
    · split at h
      · exact absurd h (by decide)
      · split at h <;> exact absurd h (by decide)

/-- What a first byte takes along, and what is left; there is no dot in it. -/
theorem utf8Continuation_append (first : UInt8) (rest : List UInt8) :
    ∃ left, rest = utf8Continuation first rest ++ left ∧ 0x2E ∉ utf8Continuation first rest := by
  cases rest with
  | nil => exact ⟨[], rfl, List.not_mem_nil⟩
  | cons second rest =>
      rw [utf8Continuation]
      split
      · rename_i hsecond
        have hprefix : ((rest.take (utf8Width first - 2)).takeWhile fun b => 0x80 ≤ b && b ≤ 0xBF)
            <+: rest := (List.takeWhile_prefix _).trans (List.take_prefix _ _)
        obtain ⟨left, hleft⟩ := hprefix
        refine ⟨left, by rw [List.cons_append, hleft], fun hmem => ?_⟩
        rcases List.mem_cons.mp hmem with hdot | hdot
        · exact utf8SecondByte_ne_dot hsecond.2 hdot.symm
        · exact absurd (List.mem_takeWhile_imp hdot) (by decide)
      · exact ⟨second :: rest, rfl, List.not_mem_nil⟩

theorem count_dot_lossyChars (bytes : List UInt8) :
    bytes.count 0x2E ≤ (lossyChars bytes).count '.' := by
  induction hlength : bytes.length using Nat.strong_induction_on generalizing bytes with
  | _ length ih =>
      cases bytes with
      | nil => exact Nat.zero_le _
      | cons first rest =>
          obtain ⟨left, hrest, hnone⟩ := utf8Continuation_append first rest
          have hdrop : rest.drop (utf8Continuation first rest).length = left := by
            calc rest.drop (utf8Continuation first rest).length
                _ = (utf8Continuation first rest ++ left).drop
                    (utf8Continuation first rest).length :=
                  congrArg _ hrest
                _ = left := List.drop_left
          have hleft : left.length < length := by
            have htotal := congrArg List.length hrest
            rw [List.length_append] at htotal
            rw [← hlength, List.length_cons]
            omega
          have hcount : rest.count 0x2E = left.count 0x2E := by
            rw [congrArg (List.count 0x2E) hrest, List.count_append,
              List.count_eq_zero_of_not_mem hnone, Nat.zero_add]
          have hmore := ih left.length hleft left rfl
          rw [lossyChars_cons, hdrop, List.count_cons, List.count_cons, hcount]
          by_cases hfirst : first = 0x2E
          · subst hfirst
            have hnil : utf8Continuation 0x2E rest = [] := by
              cases rest with
              | nil => rfl
              | cons second rest =>
                  have hwidth : ¬2 ≤ utf8Width 0x2E := by decide
                  rw [utf8Continuation, if_neg fun h => hwidth h.1]
            rw [hnil]
            exact Nat.add_le_add hmore (Nat.le_refl 1)
          · rw [if_neg (by simpa using hfirst)]
            omega

theorem count_dot_asBytes (text : String) : text.toList.count '.' ≤ (asBytes text).count 0x2E := by
  rw [asBytes_eq]
  induction text.toList with
  | nil => exact Nat.le_refl 0
  | cons c cs ih =>
      rw [charBytes_cons, List.count_append, List.count_cons]
      by_cases hc : c = '.'
      · subst hc
        rw [show String.utf8EncodeChar '.' = [0x2E] from rfl]
        simp only [beq_self_eq_true, if_true, List.count_singleton]
        omega
      · rw [if_neg (by simpa using hc)]
        omega

theorem tempName_ne (filename : List UInt8) (pid nonce counter : Nat) :
    tempName filename pid nonce counter ≠ filename := by
  intro hsame
  have hname := count_dot_lossyChars filename
  have hbytes := count_dot_asBytes ("." ++ fromUtf8Lossy filename ++ "." ++ toString pid ++ "." ++
    toString nonce ++ "." ++ toString counter ++ ".tmp")
  rw [← tempName, hsame] at hbytes
  simp only [String.toList_append, List.count_append, toList_fromUtf8Lossy] at hbytes
  have hdot : (".".toList).count '.' = 1 := rfl
  rw [hdot] at hbytes
  omega

def AtomicWriteError.afterRename : AtomicWriteError → Bool
  | .openParent => true
  | .syncParent => true
  | _ => false

namespace AtomicWrite

/-! ## What each point of the function has done -/

def entriesOf (nodes : Location → Option FileNode) : Location → Option (Entry FileNode) :=
  (Volume.settled nodes).visible

/-- What the function has resolved; the temporary file is not the destination. -/
structure Located (nodes : Location → Option FileNode) (call : AtomicWriteCall) (t : WriteTarget) :
    Prop where
  apart : t.tmpPath ≠ t.target
  resolved : t.target = call.path ∨ canonicalize nodes call.path = some t.target

/-- The destination holds the new contents, synced; the rest is as it was. -/
structure HoldsNew (nodes : Location → Option FileNode) (call : AtomicWriteCall) (t : WriteTarget)
    (d : Location → Option (Entry FileNode)) : Prop where
  target : ∃ mode, d t.target = some ⟨.file call.contents mode, true⟩
  others : ∀ other, other ≠ t.target → other ≠ t.tmpPath → d other = entriesOf nodes other

/-- Only the temporary file is there in addition. -/
structure Beside (nodes : Location → Option FileNode) (t : WriteTarget) (v : FileSystem)
    (node : FileNode) (synced : Bool) : Prop where
  others : v.Always (Volume.AgreeOff t.tmpPath (entriesOf nodes))
  temp : v.visible t.tmpPath = some ⟨node, synced⟩
  fresh : nodes t.tmpPath = none

/-- The temporary file was renamed; the disk may not have it yet. -/
structure Replaced (nodes : Location → Option FileNode) (call : AtomicWriteCall) (t : WriteTarget)
    (v : FileSystem) : Prop where
  versions : v.Always fun d =>
    Volume.AgreeOff t.tmpPath (entriesOf nodes) d ∨ HoldsNew nodes call t d
  visible : HoldsNew nodes call t v.visible
  temp : v.visible t.tmpPath = none
  fresh : nodes t.tmpPath = none

inductive Progress (nodes : Location → Option FileNode) (call : AtomicWriteCall) :
    FileSystem → WriteStatus → Prop
  | start : Progress nodes call (.settled nodes) .canonicalize
  | refused (error : AtomicWriteError) (he : error.afterRename = false) :
      Progress nodes call (.settled nodes) (.returned none (.error error))
  | metadata {t : WriteTarget} (ht : Located nodes call t) :
      Progress nodes call (.settled nodes) (.going t .metadata)
  | create {t : WriteTarget} (ht : Located nodes call t) (existing : Option Nat) :
      Progress nodes call (.settled nodes) (.going t (.create existing))
  | write {t : WriteTarget} {v : FileSystem} (ht : Located nodes call t) (existing : Option Nat)
      (written : Nat) (h : Beside nodes t v (call.tempNode existing written) false) :
      Progress nodes call v (.going t (.write existing written))
  | flush {t : WriteTarget} {v : FileSystem} {mode : Nat} (ht : Located nodes call t)
      (existing : Option Nat) (h : Beside nodes t v (.file call.contents mode) false) :
      Progress nodes call v (.going t (.flush existing))
  | sync {t : WriteTarget} {v : FileSystem} {mode : Nat} (ht : Located nodes call t)
      (existing : Option Nat) (h : Beside nodes t v (.file call.contents mode) false) :
      Progress nodes call v (.going t (.sync existing))
  | setPermissions {t : WriteTarget} {v : FileSystem} {old : Nat} (ht : Located nodes call t)
      (mode : Nat) (h : Beside nodes t v (.file call.contents old) true) :
      Progress nodes call v (.going t (.setPermissions mode))
  | rename {t : WriteTarget} {v : FileSystem} {mode : Nat} (ht : Located nodes call t)
      (h : Beside nodes t v (.file call.contents mode) true) :
      Progress nodes call v (.going t .rename)
  | openParent {t : WriteTarget} {v : FileSystem} (ht : Located nodes call t)
      (h : Replaced nodes call t v) : Progress nodes call v (.going t .openParent)
  | syncParent {t : WriteTarget} {v : FileSystem} (ht : Located nodes call t)
      (h : Replaced nodes call t v) : Progress nodes call v (.going t .syncParent)
  | removeTemp {t : WriteTarget} {v : FileSystem} {error : AtomicWriteError}
      (ht : Located nodes call t) (he : error.afterRename = false)
      (h : v.Always (Volume.AgreeOff t.tmpPath (entriesOf nodes))) :
      Progress nodes call v (.going t (.removeTemp error))
  | removeTempAfter {t : WriteTarget} {v : FileSystem} {error : AtomicWriteError}
      (ht : Located nodes call t) (he : error.afterRename = true) (h : Replaced nodes call t v) :
      Progress nodes call v (.going t (.removeTemp error))
  | failed {t : WriteTarget} {v : FileSystem} {error : AtomicWriteError}
      (ht : Located nodes call t) (he : error.afterRename = false)
      (h : v.Always (Volume.AgreeOff t.tmpPath (entriesOf nodes))) :
      Progress nodes call v (.returned (some t) (.error error))
  | failedAfter {t : WriteTarget} {v : FileSystem} {error : AtomicWriteError}
      (ht : Located nodes call t) (he : error.afterRename = true) (h : Replaced nodes call t v) :
      Progress nodes call v (.returned (some t) (.error error))
  | done {t : WriteTarget} {v : FileSystem} (ht : Located nodes call t)
      (h : Replaced nodes call t v) :
      Progress nodes call v (.returned (some t) (.ok ()))

variable {nodes : Location → Option FileNode} {call : AtomicWriteCall} {t : WriteTarget}
  {v : FileSystem} {node : FileNode} {synced : Bool}

theorem always_agreeOff_settled (tmpPath : Location) :
    (Volume.settled nodes).Always (Volume.AgreeOff tmpPath (entriesOf nodes)) :=
  Volume.always_settled (Volume.AgreeOff.refl tmpPath _)

theorem Beside.update (h : Beside nodes t v node synced) {after : FileNode} {synced' : Bool}
    {f : (Location → Option (Entry FileNode)) → Location → Option (Entry FileNode)}
    (hf : f v.visible = Function.update v.visible t.tmpPath (some ⟨after, synced'⟩)) :
    Beside nodes t (v.change f) after synced' where
  others := h.others.change (hf ▸ h.others.visible.update _)
  temp := (congrFun hf t.tmpPath).trans (Function.update_self _ _ _)
  fresh := h.fresh

theorem Beside.put (h : Beside nodes t v node synced) (after : FileNode) :
    Beside nodes t (v.put t.tmpPath after) after false := h.update rfl

theorem Beside.sync (h : Beside nodes t v node synced) :
    Beside nodes t (v.sync t.tmpPath) node true :=
  h.update (by rw [h.temp]; rfl)

theorem Beside.modify (h : Beside nodes t v node synced) (f : FileNode → FileNode) :
    Beside nodes t (v.modify t.tmpPath f) (f node) synced :=
  h.update (by rw [h.temp]; rfl)

theorem beside_create (node : FileNode) (hfree : (Volume.settled nodes).visible t.tmpPath = none) :
    Beside nodes t ((Volume.settled nodes).put t.tmpPath node) node false where
  others := (always_agreeOff_settled _).change ((Volume.AgreeOff.refl _ _).update _)
  temp := Function.update_self _ _ _
  fresh := Option.map_eq_none_iff.mp hfree

theorem Beside.rename {mode : Nat} (h : Beside nodes t v (.file call.contents mode) true)
    (ht : t.tmpPath ≠ t.target) : Replaced nodes call t (v.rename t.tmpPath t.target) := by
  have hnew : HoldsNew nodes call t (v.rename t.tmpPath t.target).visible := by
    refine ⟨⟨mode, ?_⟩, fun other htarget htemp => ?_⟩
    · exact (Function.update_of_ne ht.symm _ _).trans ((Function.update_self _ _ _).trans h.temp)
    · exact (Function.update_of_ne htemp _ _).trans
        ((Function.update_of_ne htarget _ _).trans (h.others.visible other htemp))
  refine ⟨?_, hnew, Function.update_self _ _ _, h.fresh⟩
  exact (h.others.imp fun _ hold => Or.inl hold).change (Or.inr hnew)

theorem Replaced.syncDirectory (h : Replaced nodes call t v) :
    Replaced nodes call t v.syncDirectory :=
  ⟨h.versions.syncDirectory, h.visible, h.temp, h.fresh⟩

theorem Beside.afterWrite {existing : Option Nat} {written : Nat} (ht : Located nodes call t)
    (h : Beside nodes t v (call.tempNode existing written) false) :
    Progress nodes call v (.going t (call.afterWrite existing written)) := by
  unfold AtomicWriteCall.afterWrite
  split
  · exact .write ht existing written h
  · rename_i hall
    refine @Progress.flush nodes call t v (existing.getD DEFAULT_FILE_MODE) ht existing ?_
    rwa [AtomicWriteCall.tempNode, List.take_of_length_le (by omega)] at h

/-- Where the function goes once the destination is resolved. -/
theorem progress_locate {target : Location}
    (hresolved : target = call.path ∨ canonicalize nodes call.path = some target) :
    Progress nodes call (.settled nodes) (call.locate target) := by
  unfold AtomicWriteCall.locate Location.parent
  split
  · exact .refused .noParent rfl
  · rename_i parent hparent
    split
    · exact .refused .noFilename rfl
    · rename_i filename hname
      refine .metadata ⟨fun hsame => ?_, hresolved⟩
      split at hparent
      · exact nomatch hparent
      · obtain rfl := Option.some.inj hparent
        have hlast : target.names.getLast? = some filename := (Option.filter_eq_some_iff.mp hname).1
        have hnames := congrArg List.getLast? (congrArg Location.names hsame)
        rw [hlast, Location.join, List.getLast?_concat, Option.some.injEq] at hnames
        exact tempName_ne _ _ _ _ hnames

/-- A call that fails changes nothing, and the temporary file is removed next. -/
theorem Progress.fails {s s' : AtomicWrite} (h : Progress nodes call s.volume s.status)
    (hstep : call.step s .fails = some s') : Progress nodes call s'.volume s'.status := by
  obtain ⟨v, status⟩ := s
  cases h with
  | refused => cases hstep
  | failed => cases hstep
  | failedAfter => cases hstep
  | done => cases hstep
  | start =>
      cases hstep
      exact progress_locate (Or.inl rfl)
  | metadata ht =>
      cases hstep
      exact .create ht none
  | create ht existing =>
      cases hstep
      exact .removeTemp ht rfl (always_agreeOff_settled _)
  | write ht existing written h =>
      cases hstep
      exact .removeTemp ht rfl h.others
  | flush ht existing h =>
      cases hstep
      exact .removeTemp ht rfl h.others
  | sync ht existing h =>
      cases hstep
      exact .removeTemp ht rfl h.others
  | setPermissions ht mode h =>
      cases hstep
      exact .removeTemp ht rfl h.others
  | rename ht h =>
      cases hstep
      exact .removeTemp ht rfl h.others
  | openParent ht h =>
      cases hstep
      exact .removeTempAfter ht rfl h
  | syncParent ht h =>
      cases hstep
      exact .removeTempAfter ht rfl h
  | removeTemp ht he h =>
      cases hstep
      exact .failed ht he h
  | removeTempAfter ht he h =>
      cases hstep
      exact .failedAfter ht he h

theorem Progress.takes {s s' : AtomicWrite} {count : Nat}
    (h : Progress nodes call s.volume s.status) (hstep : call.step s (.takes count) = some s') :
    Progress nodes call s'.volume s'.status := by
  obtain ⟨v, status⟩ := s
  cases h with
  | write ht existing written h =>
      simp only [AtomicWriteCall.step, AtomicWriteCall.callAt] at hstep
      split at hstep
      · cases hstep
        exact (h.put _).afterWrite ht
      · cases hstep
  | _ => cases hstep

theorem progress_canonicalize :
    Progress nodes call (.settled nodes)
      (call.locate ((canonicalize (Volume.settled nodes).nodes call.path).getD call.path)) := by
  refine progress_locate ?_
  rw [Volume.nodes_settled]
  cases canonicalize nodes call.path with
  | none => exact Or.inl rfl
  | some target => exact Or.inr rfl

theorem Progress.succeeds {s s' : AtomicWrite} (h : Progress nodes call s.volume s.status)
    (hstep : call.step s .succeeds = some s') : Progress nodes call s'.volume s'.status := by
  obtain ⟨v, status⟩ := s
  cases h with
  | refused => cases hstep
  | failed => cases hstep
  | failedAfter => cases hstep
  | done => cases hstep
  | start =>
      cases hstep
      exact progress_canonicalize
  | metadata ht =>
      cases hstep
      exact .create ht _
  | create ht existing =>
      simp only [AtomicWriteCall.step, AtomicWriteCall.callAt] at hstep
      split at hstep
      · rename_i hfree
        cases hstep
        exact (beside_create _ hfree).afterWrite ht
      · cases hstep
  | write => cases hstep
  | flush ht existing h =>
      cases hstep
      exact .sync ht existing h
  | sync ht existing h =>
      cases hstep
      cases existing with
      | none => exact .rename ht h.sync
      | some mode => exact .setPermissions ht mode h.sync
  | setPermissions ht mode h =>
      cases hstep
      exact .rename ht (h.modify _)
  | rename ht h =>
      simp only [AtomicWriteCall.step, AtomicWriteCall.callAt] at hstep
      split at hstep
      · cases hstep
      · cases hstep
        exact .openParent ht (h.rename ht.apart)
  | openParent ht h =>
      simp only [AtomicWriteCall.step, AtomicWriteCall.callAt] at hstep
      split at hstep
      · cases hstep
      · cases hstep
        exact .syncParent ht h
  | syncParent ht h =>
      cases hstep
      exact .done ht h.syncDirectory
  | removeTemp ht he h =>
      simp only [AtomicWriteCall.step, AtomicWriteCall.callAt] at hstep
      split at hstep
      · cases hstep
      · cases hstep
        exact .failed ht he (h.change (h.visible.update _))
  | removeTempAfter ht he h =>
      -- there is no temporary file any more
      simp only [AtomicWriteCall.step, AtomicWriteCall.callAt, if_pos h.temp] at hstep
      cases hstep

theorem Progress.step {s s' : AtomicWrite} {outcome : CallOutcome}
    (h : Progress nodes call s.volume s.status) (hstep : call.step s outcome = some s') :
    Progress nodes call s'.volume s'.status := by
  cases outcome with
  | succeeds => exact h.succeeds hstep
  | fails => exact h.fails hstep
  | takes count => exact h.takes hstep

/-! ## What is left when it returns, or crashes -/

/-- The destination and the temporary file, once they are known. -/
def target (s : AtomicWrite) : Option WriteTarget :=
  match s.status with
  | .canonicalize => none
  | .going t _ => some t
  | .returned t _ => t

/-- Nothing has changed, or only the temporary file and, in one piece, the destination. -/
theorem Progress.versions {s : AtomicWrite} (h : Progress nodes call s.volume s.status) :
    (s.target = none → s.volume = .settled nodes) ∧
      ∀ t, s.target = some t → Located nodes call t ∧ s.volume.Always fun d =>
        Volume.AgreeOff t.tmpPath (entriesOf nodes) d ∨ HoldsNew nodes call t d := by
  obtain ⟨v, status⟩ := s
  have hgoing {t : WriteTarget} (ht : Located nodes call t)
      (hv : v.Always (Volume.AgreeOff t.tmpPath (entriesOf nodes))) :
      Located nodes call t ∧ v.Always fun d =>
        Volume.AgreeOff t.tmpPath (entriesOf nodes) d ∨ HoldsNew nodes call t d :=
    ⟨ht, hv.imp fun _ => Or.inl⟩
  cases h with
  | start => exact ⟨fun _ => rfl, nofun⟩
  | refused => exact ⟨fun _ => rfl, nofun⟩
  | metadata ht => exact ⟨nofun, by rintro _ ⟨⟩; exact hgoing ht (always_agreeOff_settled _)⟩
  | create ht => exact ⟨nofun, by rintro _ ⟨⟩; exact hgoing ht (always_agreeOff_settled _)⟩
  | write ht _ _ h => exact ⟨nofun, by rintro _ ⟨⟩; exact hgoing ht h.others⟩
  | flush ht _ h => exact ⟨nofun, by rintro _ ⟨⟩; exact hgoing ht h.others⟩
  | sync ht _ h => exact ⟨nofun, by rintro _ ⟨⟩; exact hgoing ht h.others⟩
  | setPermissions ht _ h => exact ⟨nofun, by rintro _ ⟨⟩; exact hgoing ht h.others⟩
  | rename ht h => exact ⟨nofun, by rintro _ ⟨⟩; exact hgoing ht h.others⟩
  | openParent ht h => exact ⟨nofun, by rintro _ ⟨⟩; exact ⟨ht, h.versions⟩⟩
  | syncParent ht h => exact ⟨nofun, by rintro _ ⟨⟩; exact ⟨ht, h.versions⟩⟩
  | removeTemp ht _ h => exact ⟨nofun, by rintro _ ⟨⟩; exact hgoing ht h⟩
  | removeTempAfter ht _ h => exact ⟨nofun, by rintro _ ⟨⟩; exact ⟨ht, h.versions⟩⟩
  | failed ht _ h => exact ⟨nofun, by rintro _ ⟨⟩; exact hgoing ht h⟩
  | failedAfter ht _ h => exact ⟨nofun, by rintro _ ⟨⟩; exact ⟨ht, h.versions⟩⟩
  | done ht h => exact ⟨nofun, by rintro _ ⟨⟩; exact ⟨ht, h.versions⟩⟩

theorem found_of_entriesOf {found : Option FileNode} {location : Location}
    (h : Volume.Left found (entriesOf nodes location)) : found = nodes location := by
  change Volume.Left found ((nodes location).map fun node => ⟨node, true⟩) at h
  cases hnode : nodes location with
  | none =>
      rw [hnode] at h
      exact h
  | some node =>
      rw [hnode] at h
      exact h

theorem Progress.crash {s : AtomicWrite} (h : Progress nodes call s.volume s.status)
    {found : Location → Option FileNode} (hcrash : s.volume.Crash found) :
    (s.target = none → found = nodes) ∧ ∀ t, s.target = some t →
      (found t.target = nodes t.target ∨ ∃ mode, found t.target = some (.file call.contents mode)) ∧
        ∀ other, other ≠ t.target → other ≠ t.tmpPath → found other = nodes other := by
  obtain ⟨hnone, hsome⟩ := h.versions
  constructor
  · intro htarget
    rw [hnone htarget] at hcrash
    have hrest : (Volume.settled nodes).Always fun d => d = entriesOf nodes :=
      Volume.always_settled rfl
    obtain ⟨_, rfl, hleft⟩ := hrest.exists_of_crash hcrash
    exact funext fun location => found_of_entriesOf (hleft location)
  · intro t htarget
    obtain ⟨ht, hversions⟩ := hsome t htarget
    obtain ⟨version, hversion, hleft⟩ := hversions.exists_of_crash hcrash
    rcases hversion with hold | hnew
    · refine ⟨Or.inl (found_of_entriesOf ?_), fun other _ hother => found_of_entriesOf ?_⟩
      · exact hold t.target ht.apart.symm ▸ hleft t.target
      · exact hold other hother ▸ hleft other
    · obtain ⟨mode, hmode⟩ := hnew.target
      refine ⟨Or.inr ⟨mode, ?_⟩, fun other htarget htemp => found_of_entriesOf ?_⟩
      · have htargetLeft := hleft t.target
        rwa [hmode] at htargetLeft
      · exact hnew.others other htarget htemp ▸ hleft other

/-- The links to a destination still lead to it once a file stands there. -/
theorem canonicalizeFrom_replaced {nodes' : Location → Option FileNode} {target temp : Location}
    {bytes : List UInt8} {mode : Nat} (hfresh : nodes temp = none)
    (htarget : nodes' target = some (.file bytes mode))
    (hothers : ∀ other, other ≠ target → other ≠ temp → nodes' other = nodes other) {fuel : Nat}
    {location : Location} (h : canonicalizeFrom nodes fuel location = some target) :
    canonicalizeFrom nodes' fuel location = some target := by
  induction fuel generalizing location with
  | zero => exact nomatch h
  | succ fuel ih =>
      rw [canonicalizeFrom] at h ⊢
      by_cases hlast : location = target
      · rw [hlast, htarget]
      · have hnode : nodes location ≠ none := by
          intro hnone
          rw [hnone] at h
          exact nomatch h
        have htemp : location ≠ temp := fun hsame => hnode (hsame ▸ hfresh)
        rw [hothers location hlast htemp]
        cases hfound : nodes location with
        | none => exact absurd hfound hnode
        | some node =>
            rw [hfound] at h
            cases node with
            | link leadsTo => exact ih h
            | file => exact h
            | directory => exact h

theorem HoldsNew.readBytes {t : WriteTarget} {v : FileSystem} (h : HoldsNew nodes call t v.visible)
    (ht : Located nodes call t) (hfresh : nodes t.tmpPath = none) :
    readBytes v.nodes call.path = some call.contents := by
  obtain ⟨mode, hmode⟩ := h.target
  have htarget : v.nodes t.target = some (.file call.contents mode) := by
    rw [Volume.nodes, hmode]
    rfl
  have hothers : ∀ other, other ≠ t.target → other ≠ t.tmpPath → v.nodes other = nodes other := by
    intro other htarget htemp
    have hentry := congrArg (Option.map Entry.node) (h.others other htarget htemp)
    rwa [← Volume.nodes_settled nodes]
  have hresolved : canonicalize v.nodes call.path = some t.target := by
    rcases ht.resolved with hpath | hfound
    · rw [← hpath, canonicalize, canonicalizeFrom, htarget]
    · exact canonicalizeFrom_replaced hfresh htarget hothers hfound
  rw [Fulgur.readBytes, hresolved, Option.bind_some, htarget]

/-- The last call was to remove the temporary file, and it failed. -/
def RemovalFailed (nodes : Location → Option FileNode) (call : AtomicWriteCall)
    (outcomes : List CallOutcome) : Prop :=
  ∃ earlier v t error, outcomes = earlier ++ [.fails] ∧
    run call.step (start nodes) earlier = some ⟨v, .going t (.removeTemp error)⟩

theorem progress_of_run {outcomes : List CallOutcome} {s : AtomicWrite}
    (hrun : run call.step (start nodes) outcomes = some s) :
    Progress nodes call s.volume s.status :=
  invariant_of_run (fun s => Progress nodes call s.volume s.status)
    (fun _ _ _ h hstep => h.step hstep) .start hrun

theorem locate_ne_returned (target : Location) (t : WriteTarget)
    (result : Except AtomicWriteError Unit) : call.locate target ≠ .returned (some t) result := by
  unfold AtomicWriteCall.locate
  split
  · nofun
  · split <;> nofun

theorem removeTemp_of_step {s s' : AtomicWrite} {outcome : CallOutcome} {t : WriteTarget}
    {error : AtomicWriteError} (hstep : call.step s outcome = some s')
    (hreturned : s'.status = .returned (some t) (.error error)) :
    (∃ error, s.status = .going t (.removeTemp error) ∧ outcome = .fails) ∨
      s'.volume.visible t.tmpPath = none := by
  obtain ⟨v, status⟩ := s
  cases status with
  | canonicalize =>
      cases outcome <;> cases hstep <;> exact absurd hreturned (locate_ne_returned _ _ _)
  | returned => cases hstep
  | going t' point =>
      change call.callAt v t' point outcome = some s' at hstep
      unfold AtomicWriteCall.callAt at hstep
      split at hstep <;> (try split at hstep) <;> cases hstep <;> cases hreturned
      · exact Or.inr (Function.update_self _ _ _)
      · exact Or.inl ⟨_, rfl, rfl⟩

theorem temp_of_failed {outcomes : List CallOutcome} {s : AtomicWrite} {t : WriteTarget}
    {error : AtomicWriteError} (hrun : run call.step (start nodes) outcomes = some s)
    (hreturned : s.status = .returned (some t) (.error error)) :
    s.volume.visible t.tmpPath = none ∨ RemovalFailed nodes call outcomes := by
  rcases List.eq_nil_or_concat outcomes with rfl | ⟨earlier, outcome, rfl⟩
  · cases hrun
    exact nomatch hreturned
  · rw [List.concat_eq_append, run_append] at hrun
    obtain ⟨before, hbefore, hlast⟩ := Option.bind_eq_some_iff.mp hrun
    obtain ⟨after, hstep, hafter⟩ := run_cons_eq_some hlast
    cases hafter
    rcases removeTemp_of_step hstep hreturned with ⟨error', hstatus, rfl⟩ | hnone
    · refine Or.inr ⟨earlier, before.volume, t, error', List.concat_eq_append, ?_⟩
      rw [hbefore, ← hstatus]
    · exact Or.inl hnone

/--
Whatever the calls of the file system answer: success means that the destination
holds the new bytes, and an error of a call up to the rename that everything but
the temporary file is as it was. No temporary file is left, unless its removal
failed too. A crash at any point leaves the old destination or the new one.
-/
theorem atomic_write_replaces (nodes : Location → Option FileNode) (call : AtomicWriteCall)
    (outcomes : List CallOutcome) (s : AtomicWrite)
    (hrun : run call.step (start nodes) outcomes = some s) :
    (∀ t, s.status = .returned t (.ok ()) → ∃ target, t = some target ∧
      (∃ mode, s.volume.nodes target.target = some (.file call.contents mode)) ∧
      readBytes s.volume.nodes call.path = some call.contents) ∧
    (∀ t error, s.status = .returned t (.error error) → error.afterRename = false →
      ∀ location, (∀ target ∈ t, location ≠ target.tmpPath) →
        s.volume.nodes location = nodes location) ∧
    (∀ t result, s.status = .returned (some t) result →
      s.volume.nodes t.tmpPath = none ∨ RemovalFailed nodes call outcomes) ∧
    ∀ found, s.volume.Crash found →
      (s.target = none → found = nodes) ∧ ∀ t, s.target = some t → t.tmpPath ≠ t.target ∧
        (found t.target = nodes t.target ∨ ∃ mode,
          found t.target = some (.file call.contents mode)) ∧
          ∀ other, other ≠ t.target → other ≠ t.tmpPath → found other = nodes other := by
  have h := progress_of_run hrun
  refine ⟨?_, ?_, ?_, fun found hcrash => ?_⟩
  · obtain ⟨v, status⟩ := s
    rintro t rfl
    cases h with
    | done ht hreplaced =>
        refine ⟨_, rfl, ?_, hreplaced.visible.readBytes ht hreplaced.fresh⟩
        obtain ⟨mode, hmode⟩ := hreplaced.visible.target
        exact ⟨mode, by rw [Volume.nodes, hmode]; rfl⟩
  · obtain ⟨v, status⟩ := s
    rintro t error rfl hbefore location hlocation
    cases h with
    | refused => exact congrFun (Volume.nodes_settled nodes) location
    | failed ht he hothers =>
        have hentry := hothers.visible location (hlocation _ rfl)
        exact (congrArg (Option.map Entry.node) hentry).trans
          (congrFun (Volume.nodes_settled nodes) location)
    | failedAfter ht he => exact absurd hbefore (by rw [he]; exact Bool.noConfusion)
  · intro t result hreturned
    cases result with
    | error error =>
        refine (temp_of_failed hrun hreturned).imp_left fun hnone => ?_
        rw [Volume.nodes, hnone]
        rfl
    | ok =>
        left
        obtain ⟨v, status⟩ := s
        cases hreturned
        cases h with
        | done ht hreplaced =>
            rw [Volume.nodes, hreplaced.temp]
            rfl
  · obtain ⟨hnone, hsome⟩ := h.crash hcrash
    exact ⟨hnone, fun t ht => ⟨((h.versions.2 t ht).1).apart, hsome t ht⟩⟩

/-! ## One file replaced -/

/-- `/a` holds one byte. -/
def sampleNodes : Location → Option FileNode
  | ⟨true, [[0x61]]⟩ => some (.file [0x61] 0o644)
  | _ => none

def sampleCall : AtomicWriteCall := ⟨⟨true, [[0x61]]⟩, [0x62], 1, 2, 3⟩

/-- The calls up to the one that replaces the file. -/
def sampleOutcomes : List CallOutcome :=
  [.succeeds, .succeeds, .succeeds, .takes 1, .succeeds, .succeeds, .succeeds]

/-- What the function returns, when it has found the destination. -/
def result (s : AtomicWrite) : Option (WriteTarget × Except AtomicWriteError Unit) :=
  match s.status with
  | .returned (some t) result => some (t, result)
  | _ => none

theorem atomic_write_sample :
    ∃ s, run sampleCall.step (start sampleNodes)
        (sampleOutcomes ++ [.succeeds, .succeeds, .succeeds]) = some s ∧
      readBytes s.volume.nodes sampleCall.path = some sampleCall.contents := by
  have hsucceeds : (run sampleCall.step (start sampleNodes)
      (sampleOutcomes ++ [.succeeds, .succeeds, .succeeds])).any
        (fun s => s.result.any (·.2.isOk)) = true := by decide +kernel
  obtain ⟨s, hrun, hok⟩ := (Option.any_eq_true _ _).mp hsucceeds
  refine ⟨s, hrun, ?_⟩
  have hsound := (atomic_write_replaces sampleNodes sampleCall _ s hrun).1
  obtain ⟨v, status⟩ := s
  cases status with
  | canonicalize => exact nomatch hok
  | going => exact nomatch hok
  | returned t result =>
      cases result with
      | error => cases t <;> exact nomatch hok
      | ok =>
          obtain ⟨_, _, _, hread⟩ := hsound t rfl
          exact hread

/--
When the directory cannot be opened for the sync, the function returns an error
and the destination has the new contents; when the sync of the temporary file and
its removal fail, it stays.
-/
theorem failed_calls_break :
    (∃ s t error, run sampleCall.step (start sampleNodes)
        (sampleOutcomes ++ [.succeeds, .fails, .fails]) = some s ∧
      s.status = .returned (some t) (.error error) ∧
      s.volume.nodes t.target ≠ sampleNodes t.target) ∧
    ∃ s t error, run sampleCall.step (start sampleNodes)
        [.succeeds, .succeeds, .succeeds, .takes 1, .succeeds, .fails, .fails] = some s ∧
      s.status = .returned (some t) (.error error) ∧ s.volume.nodes t.tmpPath ≠ none := by
  constructor
  · exact ⟨_, _, _, rfl, rfl, by decide +kernel⟩
  · exact ⟨_, _, _, rfl, rfl, by decide +kernel⟩

end AtomicWrite

end Fulgur
