import Fulgur.Library.Numerals
import Fulgur.Window.RegistrySafety

/-! # The names of the windows and the menus that go by them

The names are numerals in the letters: a later registration has a later name. So
the menus, which are sorted by the names, list the windows in the order in which
they were registered, whatever order the hash map of the names has.
-/

namespace Fulgur

open Keyed LabelledRun Numerals

/-! ## Names are numerals -/

def letter (digit : Fin 26) : Char := Char.ofNat ('A'.toNat + digit)

theorem letter_lt {a b : Fin 26} (h : a < b) : letter a < letter b := by
  revert a b
  decide

theorem toList_indexToName (index : Nat) :
    (indexToName index).toList = (numeral 26 index).map letter := by
  fun_induction indexToName index with
  | case1 index name hlt =>
      rw [numeral_of_lt 26 hlt, List.map_singleton, String.toList_singleton, letter, Fin.val_ofNat]
  | case2 index name hge ih =>
      rw [numeral_of_le 26 (Nat.not_lt.mp hge), List.map_append, List.map_singleton,
        String.toList_append, ih, String.toList_singleton, letter, Fin.val_ofNat]

def nameLt (a b : String) : Prop := a.length < b.length ∨ a.length = b.length ∧ a < b

theorem nameLt_iff {a b : String} : nameLt a b ↔ List.Shortlex (· < ·) a.toList b.toList := by
  rw [List.shortlex_def, nameLt, String.length_toList, String.length_toList]
  rfl

theorem nameLt_asymm {a b : String} (h : nameLt a b) : ¬nameLt b a := by
  rintro (hshorter | ⟨hlength, hless⟩)
  · rcases h with hshorter' | ⟨hlength', -⟩
    · exact Nat.lt_asymm hshorter hshorter'
    · omega
  · rcases h with hshorter' | ⟨-, hless'⟩
    · omega
    · exact String.lt_asymm hless hless'

theorem indexToName_lt {i j : Nat} (h : i < j) : nameLt (indexToName i) (indexToName j) := by
  rw [nameLt_iff, toList_indexToName, toList_indexToName]
  exact shortlex_map (fun _ _ hless => letter_lt hless) (shortlex_numeral 26 h)

theorem indexToName_injective : Function.Injective indexToName := by
  intro i j hsame
  rcases Nat.lt_trichotomy i j with hless | heq | hless
  · have hlt := indexToName_lt hless
    rw [hsame] at hlt
    exact absurd hlt (nameLt_asymm hlt)
  · exact heq
  · have hlt := indexToName_lt hless
    rw [hsame] at hlt
    exact absurd hlt (nameLt_asymm hlt)

namespace WindowManager

/-! ## Sorting by the names -/

instance : Std.Total nameLe where
  total a b := by
    rcases Nat.lt_trichotomy a.1.length b.1.length with hless | heq | hless
    · exact Or.inl (Or.inl hless)
    · exact (String.le_total a.1 b.1).imp (fun h => Or.inr ⟨heq, h⟩) fun h => Or.inr ⟨heq.symm, h⟩
    · exact Or.inr (Or.inl hless)

instance : IsTrans (String × Nat) nameLe where
  trans a b c := by
    rintro (hab | ⟨hab, hle⟩) (hbc | ⟨hbc, hle'⟩)
    · exact Or.inl (hab.trans hbc)
    · exact Or.inl (hbc ▸ hab)
    · exact Or.inl (hab ▸ hbc)
    · exact Or.inr ⟨hab.trans hbc, String.le_trans hle hle'⟩

theorem nameLe_of_lt {i j : Nat} (h : i < j) (windowId other : Nat) :
    nameLe (indexToName i, windowId) (indexToName j, other) := by
  rcases indexToName_lt h with hshorter | ⟨hlength, hless⟩
  · exact Or.inl hshorter
  · exact Or.inr ⟨hlength, String.not_lt.mp (String.lt_asymm hless)⟩

theorem not_nameLe_of_lt {i j : Nat} (h : i < j) (windowId other : Nat) :
    ¬nameLe (indexToName j, other) (indexToName i, windowId) := by
  intro hle
  rcases indexToName_lt h with hshorter | ⟨hlength, hless⟩
  · rcases hle with hshorter' | ⟨hlength', -⟩
    · exact Nat.lt_asymm hshorter hshorter'
    · exact absurd hlength'.symm (Nat.ne_of_lt hshorter)
  · rcases hle with hshorter' | ⟨-, hle⟩
    · exact absurd hlength.symm (Nat.ne_of_lt hshorter')
    · exact String.not_le.mpr hless hle

/-! ## The windows in the order of their registration -/

/-- A registered window, and the last snapshot of its tabs. -/
structure RegisteredWindow where
  windowId : Nat
  /-- How many windows were registered before it. -/
  number : Nat
  tabs : Option (List WindowMenuTab)

namespace RegisteredWindow

def name (window : RegisteredWindow) : String := indexToName window.number

def entry (window : RegisteredWindow) : Nat × String := (window.windowId, window.name)

def publish (tabs : List WindowMenuTab) (window : RegisteredWindow) : RegisteredWindow :=
  { window with tabs := some tabs }

end RegisteredWindow

/-- What the menus are about: the windows in the order in which they came. -/
structure WindowMenus where
  windows : List RegisteredWindow
  registrations : Nat

namespace WindowMenus

def empty : WindowMenus := ⟨[], 0⟩

def ids (menus : WindowMenus) : List Nat := menus.windows.map RegisteredWindow.windowId

def shown (menus : WindowMenus) : List (List WindowMenuTab) :=
  menus.windows.filterMap RegisteredWindow.tabs

end WindowMenus

inductive RegistryCall where
  | register (windowId : Nat)
  | unregister (windowId first : Nat)
  | setFocused (windowId : Nat)
  | publishWindowMenuTabs (windowId : Nat) (tabs : List WindowMenuTab)

/-- The manager, and beside it the windows as they came. -/
structure Registry where
  manager : WindowManager
  menus : WindowMenus

namespace Registry

def start : Registry := ⟨.empty, .empty⟩

def step (s : Registry) : RegistryCall → Option Registry
  | .register windowId => some
      ⟨s.manager.register windowId,
        ⟨s.menus.windows ++ [⟨windowId, s.menus.registrations, none⟩], s.menus.registrations + 1⟩⟩
  | .unregister windowId first => some
      ⟨s.manager.unregister windowId first,
        { s.menus with
          windows := dropKey RegisteredWindow.windowId windowId s.menus.windows }⟩
  | .setFocused windowId => some { s with manager := s.manager.setFocused windowId }
  | .publishWindowMenuTabs windowId tabs => some
      ⟨(s.manager.publishWindowMenuTabs windowId tabs).1,
        { s.menus with
          windows := updateKey RegisteredWindow.windowId windowId (.publish tabs) s.menus.windows }⟩

/-- A window is registered with an identifier that no registered window has. -/
def Fresh (s : Registry) : RegistryCall → Prop
  | .register windowId => windowId ∉ s.menus.ids
  | _ => True

instance (s : Registry) (call : RegistryCall) : Decidable (s.Fresh call) :=
  match call with
  | .register _ => inferInstanceAs (Decidable (_ ∉ _))
  | .unregister _ _ => isTrue trivial
  | .setFocused _ => isTrue trivial
  | .publishWindowMenuTabs _ _ => isTrue trivial

/-- The manager knows the windows as they came. -/
structure Ordered (s : Registry) : Prop where
  consistent : s.manager.Consistent
  names : s.manager.windowNames.Perm (s.menus.windows.map RegisteredWindow.entry)
  numbers : (s.menus.windows.map RegisteredWindow.number).Pairwise (· < ·)
  below : ∀ window ∈ s.menus.windows, window.number < s.menus.registrations
  next : s.manager.nextNameIndex = s.menus.registrations
  distinct : s.menus.ids.Nodup
  registered : ∀ windowId, windowId ∈ s.manager.windows ↔ windowId ∈ s.menus.ids
  tabs : ∀ window ∈ s.menus.windows,
    s.manager.windowMenuTabs.lookup window.windowId = window.tabs

variable {s s' : Registry}

theorem ordered_start : start.Ordered where
  consistent := consistent_empty
  names := List.Perm.refl _
  numbers := List.Pairwise.nil
  below := nofun
  next := rfl
  distinct := List.nodup_nil
  registered := fun _ => Iff.rfl
  tabs := nofun

/-! ## What the calls keep -/

theorem Ordered.lookup_eq_none (h : s.Ordered) {windowId : Nat} (hfresh : windowId ∉ s.menus.ids) :
    s.manager.windowMenuTabs.lookup windowId = none := by
  refine Keyed.lookup_eq_none fun entry hentry hsame => hfresh ?_
  exact (h.registered windowId).mp (hsame ▸ h.consistent.snapshots entry hentry)

theorem Ordered.dropKey_fresh (h : s.Ordered) {windowId : Nat} (hfresh : windowId ∉ s.menus.ids) :
    dropKey Prod.fst windowId s.manager.windowNames = s.manager.windowNames := by
  refine List.filter_eq_self.mpr fun entry hentry => decide_eq_true fun hsame => hfresh ?_
  exact (h.registered windowId).mp (hsame ▸ h.consistent.named entry hentry)

theorem Ordered.register (h : s.Ordered) {windowId : Nat} (hfresh : windowId ∉ s.menus.ids)
    (hstep : s.step (.register windowId) = some s') : s'.Ordered := by
  cases hstep
  have hids : ∀ windows, (windows ++ [⟨windowId, s.menus.registrations, none⟩]).map
      RegisteredWindow.windowId = windows.map RegisteredWindow.windowId ++ [windowId] :=
    fun windows => List.map_append
  refine ⟨h.consistent.register windowId, ?_, ?_, ?_, ?_, ?_, ?_, ?_⟩
  · -- the new name is the next numeral
    dsimp only [WindowManager.register]
    rw [h.dropKey_fresh hfresh, List.map_append, List.map_singleton, RegisteredWindow.entry,
      RegisteredWindow.name, h.next]
    exact (h.names.cons _).trans (List.perm_append_singleton _ _).symm
  · rw [List.map_append, List.map_singleton, List.pairwise_append]
    refine ⟨h.numbers, List.pairwise_singleton _ _, fun number hnumber other hother => ?_⟩
    obtain ⟨window, hwindow, rfl⟩ := List.mem_map.mp hnumber
    rw [List.mem_singleton.mp hother]
    exact h.below window hwindow
  · intro window hwindow
    rcases List.mem_append.mp hwindow with hold | hnew
    · exact Nat.lt_succ_of_lt (h.below window hold)
    · rw [List.mem_singleton.mp hnew]
      exact Nat.lt_succ_self _
  · exact congrArg (· + 1) h.next
  · rw [WindowMenus.ids, hids]
    exact (List.nodup_append_comm.mp (List.nodup_cons.mpr ⟨hfresh, h.distinct⟩))
  · intro id
    rw [mem_windows_register, h.registered, WindowMenus.ids, WindowMenus.ids, hids,
      List.mem_append, List.mem_singleton, or_comm]
  · intro window hwindow
    rcases List.mem_append.mp hwindow with hold | hnew
    · exact h.tabs window hold
    · rw [List.mem_singleton.mp hnew]
      exact h.lookup_eq_none hfresh

theorem Ordered.unregister (h : s.Ordered) {windowId first : Nat}
    (hstep : s.step (.unregister windowId first) = some s') : s'.Ordered := by
  cases hstep
  have hkept : ∀ window ∈ dropKey RegisteredWindow.windowId windowId s.menus.windows,
      window ∈ s.menus.windows ∧ window.windowId ≠ windowId := fun window hwindow =>
    ⟨List.mem_of_mem_filter hwindow, of_decide_eq_true (List.mem_filter.mp hwindow).2⟩
  refine ⟨h.consistent.unregister windowId first, ?_, ?_, ?_, h.next, ?_, ?_, ?_⟩
  · have hfiltered := h.names.filter fun entry => entry.1 ≠ windowId
    rw [List.filter_map] at hfiltered
    exact hfiltered
  · exact h.numbers.sublist (List.filter_sublist.map _)
  · exact fun window hwindow => h.below window (hkept window hwindow).1
  · exact nodup_dropKey windowId h.distinct
  · intro id
    rw [mem_windows_unregister, h.registered, WindowMenus.ids, WindowMenus.ids]
    constructor
    · rintro ⟨hid, hother⟩
      obtain ⟨window, hwindow, rfl⟩ := List.mem_map.mp hid
      exact List.mem_map_of_mem (List.mem_filter.mpr ⟨hwindow, decide_eq_true hother⟩)
    · intro hid
      obtain ⟨window, hwindow, rfl⟩ := List.mem_map.mp hid
      exact ⟨List.mem_map_of_mem (hkept window hwindow).1, (hkept window hwindow).2⟩
  · intro window hwindow
    obtain ⟨hold, hother⟩ := hkept window hwindow
    exact (lookup_dropKey hother _).trans (h.tabs window hold)

theorem Ordered.publish (h : s.Ordered) {windowId : Nat} {tabs : List WindowMenuTab}
    (hstep : s.step (.publishWindowMenuTabs windowId tabs) = some s') : s'.Ordered := by
  cases hstep
  have hsame :
    ∀ {β : Type} (f : RegisteredWindow → β), (∀ window, f (window.publish tabs) = f window) →
      (updateKey RegisteredWindow.windowId windowId (.publish tabs) s.menus.windows).map f =
        s.menus.windows.map f := by
    intro β f hf
    unfold updateKey
    rw [List.map_map]
    refine List.map_congr_left fun window _ => ?_
    rw [Function.comp_apply]
    split
    · exact hf window
    · rfl
  obtain ⟨htouched, hconsistent⟩ := touched_publishWindowMenuTabs s.manager windowId tabs
  refine ⟨hconsistent h.consistent, ?_, ?_, ?_, ?_, ?_, ?_, ?_⟩
  · rw [hsame _ fun _ => rfl]
    unfold publishWindowMenuTabs
    split
    · exact h.names
    · split <;> exact h.names
  · rw [hsame _ fun _ => rfl]
    exact h.numbers
  · intro window hwindow
    rcases mem_updateKey hwindow with hold | ⟨old, hold, -, rfl⟩
    · exact h.below window hold
    · exact h.below old hold
  · unfold publishWindowMenuTabs
    split
    · exact h.next
    · split <;> exact h.next
  · rw [WindowMenus.ids, hsame _ fun _ => rfl]
    exact h.distinct
  · intro id
    rw [htouched, WindowMenus.ids, hsame _ fun _ => rfl]
    exact h.registered id
  · intro window hwindow
    obtain ⟨old, hold, rfl⟩ := List.mem_map.mp hwindow
    have hregistered := (h.registered old.windowId).mpr (List.mem_map_of_mem hold)
    unfold publishWindowMenuTabs
    split
    · rename_i hid
      subst hid
      rw [if_neg (not_not.mpr hregistered)]
      split
      · assumption
      · exact (lookup_replace _ _ _ _).trans (if_pos rfl)
    · rename_i hid
      split
      · exact h.tabs old hold
      · split
        · exact h.tabs old hold
        · exact ((lookup_replace _ _ _ _).trans (if_neg hid)).trans (h.tabs old hold)

theorem Ordered.step {call : RegistryCall} (h : s.Ordered) (hfresh : s.Fresh call)
    (hstep : s.step call = some s') : s'.Ordered := by
  cases call with
  | register windowId => exact h.register hfresh hstep
  | unregister windowId first => exact h.unregister hstep
  | setFocused windowId =>
      cases hstep
      obtain ⟨htouched, hconsistent⟩ := touched_setFocused s.manager windowId
      refine ⟨hconsistent h.consistent, ?_, h.numbers, h.below, ?_, h.distinct, ?_, ?_⟩
      · unfold setFocused
        split <;> exact h.names
      · unfold setFocused
        split <;> exact h.next
      · intro id
        rw [htouched]
        exact h.registered id
      · unfold setFocused
        split <;> exact h.tabs
  | publishWindowMenuTabs windowId tabs => exact h.publish hstep

/-! ## What the menus show -/

/-- The names in any order sort to the windows as they came. -/
theorem Ordered.sorted (h : s.Ordered) {names : List (Nat × String)}
    (hnames : names.Perm s.manager.windowNames) :
    (names.map fun (windowId, name) => (name, windowId)).insertionSort nameLe =
      s.menus.windows.map fun window => (window.name, window.windowId) := by
  have hperm := ((hnames.trans h.names).map fun entry => (entry.2, entry.1))
  rw [List.map_map] at hperm
  refine List.Perm.eq_of_pairwise ?_ (List.pairwise_insertionSort _ _) ?_
    ((List.perm_insertionSort _ _).trans hperm)
  · -- two entries that go before each other have one number, so they are one
    intro a b ha hb hab hba
    obtain ⟨first, hfirst, rfl⟩ := List.mem_map.mp
      (hperm.mem_iff.mp ((List.mem_insertionSort _).mp ha))
    obtain ⟨second, hsecond, rfl⟩ := List.mem_map.mp hb
    have hnodup : (s.menus.windows.map RegisteredWindow.number).Nodup :=
      h.numbers.imp fun hless => Nat.ne_of_lt hless
    rcases Nat.lt_trichotomy first.number second.number with hless | heq | hless
    · exact absurd hba (not_nameLe_of_lt hless _ _)
    · rw [List.inj_on_of_nodup_map hnodup hfirst hsecond heq]
      rfl
    · exact absurd hab (not_nameLe_of_lt hless _ _)
  · exact List.pairwise_map.mpr
      ((List.pairwise_map.mp h.numbers).imp fun hless => nameLe_of_lt hless _ _)

theorem Ordered.shown (h : s.Ordered) {names : List (Nat × String)}
    (hnames : names.Perm s.manager.windowNames) :
    { s.manager with windowNames := names }.orderedWindowMenuTabs = s.menus.shown := by
  unfold orderedWindowMenuTabs WindowMenus.shown
  dsimp only
  rw [h.sorted hnames, List.filterMap_map]
  exact List.filterMap_congr fun window hwindow => h.tabs window hwindow

end Registry

open Registry

/--
Later windows have later names, and no two windows have one name. So after any
calls, with windows registered under identifiers that no registered window has, the
menus list the last snapshots of the registered windows in the order of their
registration, each once, however the hash map of the names is ordered.
-/
theorem window_menus_ordered :
    (∀ i j, i < j → nameLt (indexToName i) (indexToName j)) ∧
    Function.Injective indexToName ∧
    ∀ calls s, Guarded step Fresh start calls → run step start calls = some s →
      (∀ names, names.Perm s.manager.windowNames →
        { s.manager with windowNames := names }.orderedWindowMenuTabs = s.menus.shown) ∧
      s.menus.ids.Nodup ∧
      (∀ windowId, windowId ∈ s.menus.ids ↔ windowId ∈ s.manager.windows) ∧
      (s.menus.windows.map RegisteredWindow.number).Pairwise (· < ·) ∧
      ∀ window ∈ s.menus.windows,
        s.manager.windowMenuTabs.lookup window.windowId = window.tabs := by
  refine ⟨fun i j => indexToName_lt, indexToName_injective, fun calls s hguard hrun => ?_⟩
  have h : s.Ordered := invariant_of_guarded Ordered
    (fun s call s' h hfresh hstep => h.step hfresh hstep) ordered_start hguard hrun
  exact ⟨fun names hnames => h.shown hnames, h.distinct,
    fun windowId => (h.registered windowId).symm, h.numbers, h.tabs⟩

/-- The first of two windows is gone when a third one comes. -/
def sampleCalls : List RegistryCall :=
  [.register 7, .register 3, .publishWindowMenuTabs 3 [⟨none, "b"⟩],
    .publishWindowMenuTabs 7 [⟨none, "a"⟩], .unregister 7 0, .register 5,
    .publishWindowMenuTabs 5 [⟨none, "c"⟩], .publishWindowMenuTabs 9 []]

theorem window_menus_ordered_sample :
    ∃ s, run step start sampleCalls = some s ∧
      s.manager.orderedWindowMenuTabs = [[⟨none, "b"⟩], [⟨none, "c"⟩]] := by
  refine ⟨_, rfl, ?_⟩
  exact ((window_menus_ordered.2.2 sampleCalls _
    (.of_guardedRun (by decide)) rfl).1 _ (.refl _)).trans
    (by decide)

end WindowManager

end Fulgur
