import Fulgur.Sync.ShareSheet
import Fulgur.Sync.SharesReceived

/-! # What the share sheet reports

Devices are selected from lists that have arrived, so every selected device is
shared to in the bundle of its profile. The notification is a success exactly
when the server confirmed the share for all of them, and an error exactly when
it did so for none.
-/

namespace Fulgur

open LabelledRun

variable {codecs : ShareCodecs} {s s' : ShareSheetState}

namespace ShareSheetState

/-- What is selected can still be clicked, and a profile that is fetched shows no devices. -/
structure Offering (codecs : ShareCodecs) (profiles : List SharingProfile) (s : ShareSheetState) :
    Prop where
  profiles : s.profiles = profiles
  distinct : s.fetching.Nodup
  loading : ∀ id ∈ s.fetching, s.perProfile id = some .loading
  once : s.selected.Nodup
  offered : ∀ key ∈ s.selected, s.offers key.1 key.2 = true
  valid : ∀ id devices, s.perProfile id = some (.loaded devices) → ∀ device ∈ devices,
    ∀ key, device.publicKey = some key → codecs.isValidPublicKey key = true

theorem offering_opened {profiles : List SharingProfile}
    (hids : (profiles.map SharingProfile.id).Nodup) :
    (opened profiles).Offering codecs profiles where
  profiles := rfl
  distinct := hids
  loading := fun id hid => if_pos hid
  once := List.nodup_nil
  offered := fun key hkey => absurd hkey List.not_mem_nil
  valid := by
    intro id devices hloaded
    simp only [opened] at hloaded
    split at hloaded <;> cases hloaded

theorem valid_getDevices (codecs : ShareCodecs) (devices : List Device) :
    ∀ device ∈ getDevices codecs devices, ∀ key, device.publicKey = some key →
      codecs.isValidPublicKey key = true := by
  intro device hdevice key hkey
  obtain ⟨sent, -, rfl⟩ := List.mem_map.mp hdevice
  exact (Option.filter_eq_some_iff.mp hkey).2

theorem offers_of_update {profileId : String} {state : ProfileFetchState}
    (hloading : s.perProfile profileId = some .loading) {key : String × String}
    (h : s.offers key.1 key.2 = true) {fetching : List String} :
    { s with
      perProfile := Function.update s.perProfile profileId (some state)
      fetching := fetching }.offers key.1 key.2 = true := by
  have hne : key.1 ≠ profileId := by
    intro hsame
    simp [offers, hsame, hloading] at h
  simpa [offers, Function.update_of_ne hne] using h

theorem mem_toggle {selected : List (String × String)} {key other : String × String}
    (h : other ∈ toggle selected key) : other ∈ selected ∨ other = key := by
  unfold toggle at h
  split at h
  · exact Or.inl (List.mem_of_mem_erase h)
  · simpa using h

theorem nodup_toggle {selected : List (String × String)} (h : selected.Nodup)
    (key : String × String) : (toggle selected key).Nodup := by
  unfold toggle
  split
  · exact h.erase key
  · rename_i hfresh
    exact List.nodup_append.mpr ⟨h, by simp, by
      intro other hother last hlast hsame
      simp only [List.mem_singleton] at hlast
      exact hfresh (hlast ▸ hsame ▸ hother)⟩

theorem Offering.step {profiles : List SharingProfile} (h : s.Offering codecs profiles)
    {action : ShareSheetAction} (hstep : s.step codecs action = some s') :
    s'.Offering codecs profiles := by
  cases action with
  | fetched profileId answer =>
      simp only [ShareSheetState.step] at hstep
      split at hstep
      · rename_i hfetching
        cases hstep
        have hloading := h.loading profileId hfetching
        constructor
        · exact h.profiles
        · exact h.distinct.erase profileId
        · intro id hid
          have hid := (h.distinct.mem_erase_iff).mp hid
          exact (Function.update_of_ne hid.1 _ _).trans (h.loading id hid.2)
        · exact h.once
        · exact fun key hkey => offers_of_update hloading (h.offered key hkey)
        · intro id devices hloaded
          by_cases hid : id = profileId
          · subst hid
            simp only [Function.update_self] at hloaded
            cases answer with
            | error message => cases hloaded
            | ok sent =>
                cases hloaded
                exact valid_getDevices codecs sent
          · simp only [Function.update_of_ne hid] at hloaded
            exact h.valid id devices hloaded
      · cases hstep
  | clickDevice profileId deviceId =>
      simp only [ShareSheetState.step] at hstep
      split at hstep
      · rename_i hoffers
        cases hstep
        refine ⟨h.profiles, h.distinct, h.loading, nodup_toggle h.once _, ?_, h.valid⟩
        intro key hkey
        cases mem_toggle hkey with
        | inl hold => exact h.offered key hold
        | inr hsame =>
            subst hsame
            exact hoffers
      · cases hstep

/-! ## The bundles -/

variable {profiles : List SharingProfile} {maxFileSizeBytes : String → Nat}

def selectedOf (s : ShareSheetState) (profileId : String) : List String :=
  (s.selected.filter fun key => key.1 = profileId).map Prod.snd

theorem mem_selectedOf {profileId deviceId : String} :
    deviceId ∈ s.selectedOf profileId ↔ (profileId, deviceId) ∈ s.selected := by
  simp [selectedOf]

theorem Offering.loaded_of_selected (h : s.Offering codecs profiles) {key : String × String}
    (hkey : key ∈ s.selected) :
    key.1 ∈ s.profiles.map SharingProfile.id ∧
      ∃ devices, s.perProfile key.1 = some (.loaded devices) := by
  have hoffers := h.offered key hkey
  simp only [offers, Bool.and_eq_true] at hoffers
  obtain ⟨hprofile, hloaded⟩ := hoffers
  refine ⟨by simpa using hprofile, ?_⟩
  split at hloaded
  · rename_i devices hdevices
    exact ⟨devices, hdevices⟩
  · cases hloaded

def devicesOf (s : ShareSheetState) (profileId : String) : List Device :=
  match s.perProfile profileId with
  | some (.loaded devices) => devices
  | _ => []

def bundleOf (s : ShareSheetState) (maxFileSizeBytes : String → Nat) (profile : SharingProfile) :
    ProfileShareResources :=
  ⟨profile, s.devicesOf profile.id, s.selectedOf profile.id, maxFileSizeBytes profile.id⟩

theorem filterMap_of_guard {α β : Type} {f : α → Option β} {keep : α → Bool} {g : α → β}
    {xs : List α} (h : ∀ x ∈ xs, f x = if keep x then some (g x) else none) :
    xs.filterMap f = (xs.filter keep).map g := by
  induction xs with
  | nil => rfl
  | cons x xs ih =>
      have hrest := ih fun y hy => h y (List.mem_cons_of_mem x hy)
      have hx := h x List.mem_cons_self
      cases hkeep : keep x with
      | false => simp [hx, hkeep, hrest]
      | true => simp [hx, hkeep, hrest]

theorem Offering.build_eq (h : s.Offering codecs profiles) (maxFileSizeBytes : String → Nat) :
    s.buildProfileShareResources maxFileSizeBytes =
      (s.profiles.filter fun profile => s.selectedOf profile.id ≠ []).map
        (s.bundleOf maxFileSizeBytes) := by
  refine filterMap_of_guard fun profile _ => ?_
  change (if s.selectedOf profile.id = [] then none else _) = _
  by_cases hempty : s.selectedOf profile.id = []
  · simp [hempty]
  · obtain ⟨deviceId, hdevice⟩ := List.exists_mem_of_ne_nil _ hempty
    obtain ⟨-, devices, hdevices⟩ := h.loaded_of_selected (mem_selectedOf.mp hdevice)
    simp only at hdevices
    simp [hempty, hdevices, bundleOf, devicesOf]
    rfl

theorem keys_of_bundle (s : ShareSheetState) (maxFileSizeBytes : String → Nat)
    (profile : SharingProfile) :
    ((s.bundleOf maxFileSizeBytes profile).deviceIds.map fun deviceId => (profile.id, deviceId)) =
      s.selected.filter fun key => key.1 = profile.id := by
  have hsame : ∀ key ∈ s.selected.filter (fun key => key.1 = profile.id),
      ((fun deviceId => (profile.id, deviceId)) ∘ Prod.snd) key = id key := by
    intro key hkey
    have hid : key.1 = profile.id := by simpa using (List.mem_filter.mp hkey).2
    simp [← hid]
  simp only [bundleOf, selectedOf, List.map_map]
  rw [List.map_congr_left hsame, List.map_id]

theorem Offering.bundles_perm (h : s.Offering codecs profiles)
    (hids : (profiles.map SharingProfile.id).Nodup) (maxFileSizeBytes : String → Nat) :
    ((s.buildProfileShareResources maxFileSizeBytes).flatMap fun bundle =>
      bundle.deviceIds.map fun deviceId => (bundle.profile.id, deviceId)).Perm s.selected := by
  have hgroups := @Keyed.flatMap_filter_perm _ _ Prod.fst s.selected _ _ (h.profiles ▸ hids)
    fun key hkey => (h.loaded_of_selected hkey).1
  refine List.Perm.trans (.of_eq ?_) hgroups
  rw [h.build_eq, List.flatMap_map, List.flatMap_map]
  induction s.profiles with
  | nil => rfl
  | cons profile rest ih =>
      have hkeys := s.keys_of_bundle maxFileSizeBytes profile
      rw [List.flatMap_cons, ← hkeys, ← ih]
      by_cases hempty : s.selectedOf profile.id = []
      · simp [hempty, bundleOf]
      · simp [hempty, bundleOf]

end ShareSheetState

/-! ## One bundle -/

namespace ProfileShareResources

variable {bundle : ProfileShareResources} {context : ShareContext} {world : ProfileWorld}

/-- All checks of the bundle pass and its threads are started. -/
def Reached (bundle : ProfileShareResources) (codecs : ShareCodecs) (context : ShareContext)
    (world : ProfileWorld) : Prop :=
  world.panicked = false ∧
    requestError codecs bundle.profile.serverUrl (bundle.request context) bundle.devices
      bundle.maxFileSizeBytes = none ∧
    (∃ token, world.token = .ok token) ∧ world.compresses = true

/-- The server answered the request for the device with an expiration date. -/
def Confirmed (bundle : ProfileShareResources) (codecs : ShareCodecs) (context : ShareContext)
    (world : ProfileWorld) (deviceId : String) : Prop :=
  bundle.Reached codecs context world ∧
    ∃ expirationDate, world.worker deviceId = .answered (.ok expirationDate)

theorem requestError_devices {codecs : ShareCodecs} {serverUrl : Option String}
    {request : ShareFileRequest} {devices : List Device} {maxFileSizeBytes : Nat}
    (h : requestError codecs serverUrl request devices maxFileSizeBytes = none) :
    ∀ deviceId ∈ request.deviceIds, deviceError codecs devices deviceId = none := by
  unfold requestError at h
  repeat' split at h
  all_goals first | cases h | exact List.findSome?_eq_none_iff.mp h

theorem device_of_no_error {codecs : ShareCodecs} {devices : List Device} {deviceId : String}
    (h : deviceError codecs devices deviceId = none) :
    ∃ device key, findDevice devices deviceId = some device ∧ device.publicKey = some key := by
  unfold deviceError at h
  split at h
  · cases h
  · rename_i device hdevice
    split at h
    · cases h
    · rename_i key hkey
      exact ⟨device, key, hdevice, hkey⟩

/-- Past the checks, the thread of a device is a success exactly when its request is confirmed. -/
theorem shareToDevice_cases {codecs : ShareCodecs} {devices : List Device} {deviceId : String}
    (world : ProfileWorld) (h : deviceError codecs devices deviceId = none) :
    (∃ expirationDate, world.worker deviceId = .answered (.ok expirationDate) ∧
      shareToDevice devices world deviceId = (deviceId, .ok expirationDate)) ∨
    ((∀ expirationDate, world.worker deviceId ≠ .answered (.ok expirationDate)) ∧
      ∃ name error, shareToDevice devices world deviceId = (name, .error error)) := by
  obtain ⟨device, key, hdevice, hkey⟩ := device_of_no_error h
  unfold shareToDevice
  rw [hdevice]
  cases hworker : world.worker deviceId with
  | panicked payload => exact Or.inr ⟨by simp, _, _, rfl⟩
  | encryptionFailed => exact Or.inr ⟨by simp, _, _, by simp only [hkey]; rfl⟩
  | answered result =>
      cases result with
      | error message => exact Or.inr ⟨by simp, _, _, by simp only [hkey]; rfl⟩
      | ok expirationDate => exact Or.inl ⟨expirationDate, rfl, by simp only [hkey]; rfl⟩

def confirmation? (world : ProfileWorld) (deviceId : String) : Option (String × String) :=
  match world.worker deviceId with
  | .answered (.ok expirationDate) => some (deviceId, expirationDate)
  | _ => none

theorem confirmation_isSome {deviceId : String} :
    (confirmation? world deviceId).isSome = true ↔
      ∃ expirationDate, world.worker deviceId = .answered (.ok expirationDate) := by
  unfold confirmation?
  split
  · rename_i expirationDate hworker
    simp [hworker]
  · rename_i hworker
    simpa using hworker

/-- Past the checks, a thread yields its confirmation or a failure. -/
theorem success_failure_shareToDevice {codecs : ShareCodecs} {devices : List Device}
    {deviceId : String} (world : ProfileWorld) (h : deviceError codecs devices deviceId = none) :
    success? (shareToDevice devices world deviceId) = confirmation? world deviceId ∧
      (failure? (shareToDevice devices world deviceId)).isSome =
        (confirmation? world deviceId).isNone := by
  rcases shareToDevice_cases world h with ⟨expirationDate, hworker, hshare⟩ |
    ⟨hworker, name, error, hshare⟩
  · simp [hshare, success?, failure?, confirmation?, hworker]
  · have hnone : confirmation? world deviceId = none := by
      unfold confirmation?
      split
      · rename_i expirationDate hconfirmed
        exact absurd hconfirmed (hworker expirationDate)
      · rfl
    simp [hshare, success?, failure?, hnone]

/-- A bundle that is reached reports its confirmations in order, and all else as failed. -/
theorem execute_of_reached (h : bundle.Reached codecs context world) :
    bundle.execute codecs context world = (bundle.profile.name, .completed
        ⟨bundle.deviceIds.filterMap (confirmation? world),
          bundle.deviceIds.filterMap (failure? ∘ shareToDevice bundle.devices world)⟩) ∧
      ∀ deviceId ∈ bundle.deviceIds,
        (failure? (shareToDevice bundle.devices world deviceId)).isSome =
        (confirmation? world deviceId).isNone := by
  obtain ⟨hpanicked, hchecks, ⟨token, htoken⟩, hcompresses⟩ := h
  have hdevices := requestError_devices hchecks
  have hresults : ∀ deviceId ∈ bundle.deviceIds, _ := fun deviceId hdevice =>
    success_failure_shareToDevice world (hdevices deviceId hdevice)
  refine ⟨?_, fun deviceId hdevice => (hresults deviceId hdevice).2⟩
  have hsuccesses : bundle.deviceIds.filterMap (success? ∘ shareToDevice bundle.devices world) =
      bundle.deviceIds.filterMap (confirmation? world) :=
    List.filterMap_congr fun deviceId hdevice => (hresults deviceId hdevice).1
  simp only [execute, hpanicked, shareToDevices, hchecks, htoken, hcompresses]
  simp only [request, List.filterMap_map, hsuccesses]
  rfl

theorem shareToDevices_ok {serverUrl : Option String} {request : ShareFileRequest}
    {devices : List Device} {maxFileSizeBytes : Nat} {result : ShareResult}
    (h : shareToDevices codecs serverUrl request devices maxFileSizeBytes world = .ok result) :
    requestError codecs serverUrl request devices maxFileSizeBytes = none ∧
      (∃ token, world.token = .ok token) ∧ world.compresses = true := by
  unfold shareToDevices at h
  split at h
  · cases h
  rename_i hchecks
  split at h
  · cases h
  rename_i token htoken
  split at h
  · rename_i hcompresses
    exact ⟨hchecks, ⟨token, htoken⟩, hcompresses⟩
  · cases h

theorem execute_of_not_reached (h : ¬bundle.Reached codecs context world) :
    ∃ name error, bundle.execute codecs context world = (name, .aborted error) := by
  unfold execute
  split
  · exact ⟨_, _, rfl⟩
  rename_i hpanicked
  split
  · rename_i result hresult
    exact absurd ⟨by simpa using hpanicked, shareToDevices_ok hresult⟩ h
  · exact ⟨_, _, rfl⟩

theorem hasSuccess_execute :
    (bundle.execute codecs context world).2.hasSuccess = true ↔
      ∃ deviceId ∈ bundle.deviceIds, bundle.Confirmed codecs context world deviceId := by
  by_cases hreached : bundle.Reached codecs context world
  · simp only [(execute_of_reached hreached).1, ProfileShareOutcome.hasSuccess, Confirmed, hreached,
      true_and, ← confirmation_isSome]
    simp [List.filterMap_eq_nil_iff, Option.isSome_iff_ne_none]
  · obtain ⟨name, error, hexecute⟩ := execute_of_not_reached hreached
    simp [hexecute, ProfileShareOutcome.hasSuccess, Confirmed, hreached]

theorem hasFailure_execute (hdevices : bundle.deviceIds ≠ []) :
    (bundle.execute codecs context world).2.hasFailure = true ↔
      ∃ deviceId ∈ bundle.deviceIds, ¬bundle.Confirmed codecs context world deviceId := by
  by_cases hreached : bundle.Reached codecs context world
  · obtain ⟨hexecute, hfailures⟩ := execute_of_reached hreached
    have hnone : ∀ deviceId ∈ bundle.deviceIds,
        (failure? (shareToDevice bundle.devices world deviceId) = none ↔
          bundle.Confirmed codecs context world deviceId) := by
      intro deviceId hdevice
      have hfailure := hfailures deviceId hdevice
      rw [Confirmed, ← confirmation_isSome]
      cases hf : failure? (shareToDevice bundle.devices world deviceId) <;> simp_all
    simp only [hexecute, ProfileShareOutcome.hasFailure]
    simp only [Bool.not_eq_true', List.isEmpty_eq_false_iff, ne_eq, List.filterMap_eq_nil_iff]
    constructor
    · intro h
      by_contra hall
      exact h fun deviceId hdevice => (hnone deviceId hdevice).mpr
        (Classical.not_not.mp fun hnot => hall ⟨deviceId, hdevice, hnot⟩)
    · intro h hall
      obtain ⟨deviceId, hdevice, hnot⟩ := h
      exact hnot ((hnone deviceId hdevice).mp (hall deviceId hdevice))
  · obtain ⟨name, error, hexecute⟩ := execute_of_not_reached hreached
    obtain ⟨deviceId, hdevice⟩ := List.exists_mem_of_ne_nil _ hdevices
    simp only [hexecute, ProfileShareOutcome.hasFailure, Confirmed, hreached, true_iff]
    exact ⟨deviceId, hdevice, fun h => h.1⟩

end ProfileShareResources

/-! ## The notification -/

namespace ShareSheetState

variable {profiles : List SharingProfile} {maxFileSizeBytes : String → Nat} {context : ShareContext}
  {world : String → ProfileWorld}

/-- The server confirmed the share for this device of this profile. -/
def Confirmed (s : ShareSheetState) (codecs : ShareCodecs) (context : ShareContext)
    (maxFileSizeBytes : String → Nat) (world : String → ProfileWorld) (key : String × String) :
    Prop :=
  ∃ bundle ∈ s.buildProfileShareResources maxFileSizeBytes, bundle.profile.id = key.1 ∧
    bundle.Confirmed codecs context (world key.1) key.2

theorem Offering.mem_build (h : s.Offering codecs profiles) {bundle : ProfileShareResources} :
    bundle ∈ s.buildProfileShareResources maxFileSizeBytes ↔
      ∃ profile ∈ s.profiles, s.selectedOf profile.id ≠ [] ∧
        s.bundleOf maxFileSizeBytes profile = bundle := by
  rw [h.build_eq]
  simp [and_assoc]

theorem Offering.selected_of_bundle (h : s.Offering codecs profiles)
    {bundle : ProfileShareResources}
    (hbundle : bundle ∈ s.buildProfileShareResources maxFileSizeBytes) {deviceId : String} :
    deviceId ∈ bundle.deviceIds ↔ (bundle.profile.id, deviceId) ∈ s.selected := by
  obtain ⟨profile, -, -, rfl⟩ := h.mem_build.mp hbundle
  exact mem_selectedOf

theorem Offering.bundle_unique (h : s.Offering codecs profiles)
    (hids : (profiles.map SharingProfile.id).Nodup) {bundle other : ProfileShareResources}
    (hbundle : bundle ∈ s.buildProfileShareResources maxFileSizeBytes)
    (hother : other ∈ s.buildProfileShareResources maxFileSizeBytes)
    (hsame : other.profile.id = bundle.profile.id) : other = bundle := by
  obtain ⟨profile, hprofile, -, rfl⟩ := h.mem_build.mp hbundle
  obtain ⟨profile', hprofile', -, rfl⟩ := h.mem_build.mp hother
  have hids : (s.profiles.map SharingProfile.id).Nodup := h.profiles ▸ hids
  have heq : profile' = profile := List.inj_on_of_nodup_map hids hprofile' hprofile hsame
  rw [heq]

theorem Offering.bundle_of_selected (h : s.Offering codecs profiles) {key : String × String}
    (hkey : key ∈ s.selected) (maxFileSizeBytes : String → Nat) :
    ∃ bundle ∈ s.buildProfileShareResources maxFileSizeBytes, bundle.profile.id = key.1 := by
  obtain ⟨hprofile, -⟩ := h.loaded_of_selected hkey
  obtain ⟨profile, hprofile, hid⟩ := List.mem_map.mp hprofile
  have hdevice : key.2 ∈ s.selectedOf profile.id := mem_selectedOf.mpr (hid ▸ hkey)
  exact ⟨_, h.mem_build.mpr ⟨profile, hprofile, List.ne_nil_of_mem hdevice, rfl⟩, hid⟩

theorem Offering.confirmed_iff (h : s.Offering codecs profiles)
    (hids : (profiles.map SharingProfile.id).Nodup) {bundle : ProfileShareResources}
    (hbundle : bundle ∈ s.buildProfileShareResources maxFileSizeBytes) {deviceId : String} :
    s.Confirmed codecs context maxFileSizeBytes world (bundle.profile.id, deviceId) ↔
      bundle.Confirmed codecs context (world bundle.profile.id) deviceId := by
  constructor
  · intro hconfirmed
    obtain ⟨other, hother, hid, hconfirmed⟩ := hconfirmed
    exact h.bundle_unique hids hbundle hother hid ▸ hconfirmed
  · exact fun hconfirmed => ⟨bundle, hbundle, rfl, hconfirmed⟩

theorem Offering.any_hasSuccess (h : s.Offering codecs profiles)
    (hids : (profiles.map SharingProfile.id).Nodup) :
    (((s.buildProfileShareResources maxFileSizeBytes).map fun bundle =>
      bundle.execute codecs context (world bundle.profile.id)).any
        (fun outcome => outcome.2.hasSuccess)) = true ↔
      ∃ key ∈ s.selected, s.Confirmed codecs context maxFileSizeBytes world key := by
  simp only [List.any_map, List.any_eq_true, Function.comp]
  constructor
  · intro hany
    obtain ⟨bundle, hbundle, hsuccess⟩ := hany
    obtain ⟨deviceId, hdevice, hconfirmed⟩ := ProfileShareResources.hasSuccess_execute.mp hsuccess
    exact ⟨_, (h.selected_of_bundle hbundle).mp hdevice,
      (h.confirmed_iff hids hbundle).mpr hconfirmed⟩
  · intro hany
    obtain ⟨key, hkey, bundle, hbundle, hid, hconfirmed⟩ := hany
    have hdevice : key.2 ∈ bundle.deviceIds :=
      (h.selected_of_bundle hbundle).mpr (hid ▸ hkey)
    exact ⟨bundle, hbundle, ProfileShareResources.hasSuccess_execute.mpr
      ⟨_, hdevice, hid ▸ hconfirmed⟩⟩

theorem Offering.any_hasFailure (h : s.Offering codecs profiles)
    (hids : (profiles.map SharingProfile.id).Nodup) :
    (((s.buildProfileShareResources maxFileSizeBytes).map fun bundle =>
      bundle.execute codecs context (world bundle.profile.id)).any
        (fun outcome => outcome.2.hasFailure)) = true ↔
      ∃ key ∈ s.selected, ¬s.Confirmed codecs context maxFileSizeBytes world key := by
  have hne : ∀ bundle ∈ s.buildProfileShareResources maxFileSizeBytes, bundle.deviceIds ≠ [] := by
    intro bundle hbundle
    obtain ⟨profile, -, hselected, rfl⟩ := h.mem_build.mp hbundle
    exact hselected
  simp only [List.any_map, List.any_eq_true, Function.comp]
  constructor
  · intro hany
    obtain ⟨bundle, hbundle, hfailure⟩ := hany
    obtain ⟨deviceId, hdevice, hnot⟩ :=
      (ProfileShareResources.hasFailure_execute (hne bundle hbundle)).mp hfailure
    exact ⟨_, (h.selected_of_bundle hbundle).mp hdevice,
      fun hconfirmed => hnot ((h.confirmed_iff hids hbundle).mp hconfirmed)⟩
  · intro hany
    obtain ⟨key, hkey, hnot⟩ := hany
    obtain ⟨bundle, hbundle, hid⟩ := h.bundle_of_selected hkey maxFileSizeBytes
    have hdevice : key.2 ∈ bundle.deviceIds :=
      (h.selected_of_bundle hbundle).mpr (hid ▸ hkey)
    refine ⟨bundle, hbundle,
      (ProfileShareResources.hasFailure_execute (hne bundle hbundle)).mpr
      ⟨_, hdevice, fun hconf => ?_⟩⟩
    exact hnot ⟨bundle, hbundle, hid, hid ▸ hconf⟩

theorem requestError_ne_invalidPublicKey {serverUrl : Option String} {request : ShareFileRequest}
    {devices : List Device} {limit : Nat}
    (hvalid : ∀ device ∈ devices, ∀ key, device.publicKey = some key →
      codecs.isValidPublicKey key = true) (name : String) :
    requestError codecs serverUrl request devices limit ≠ some (.invalidPublicKey name) := by
  intro h
  unfold requestError at h
  repeat' split at h
  all_goals try cases h
  obtain ⟨deviceId, -, herror⟩ := List.exists_of_findSome?_eq_some h
  unfold deviceError at herror
  split at herror
  · cases herror
  rename_i device hdevice
  split at herror
  · cases herror
  rename_i key hkey
  rw [if_pos (hvalid device (List.mem_of_find?_eq_some hdevice) key hkey)] at herror
  cases herror

theorem Offering.valid_of_bundle (h : s.Offering codecs profiles) {bundle : ProfileShareResources}
    (hbundle : bundle ∈ s.buildProfileShareResources maxFileSizeBytes) :
    ∀ device ∈ bundle.devices, ∀ key, device.publicKey = some key →
      codecs.isValidPublicKey key = true := by
  obtain ⟨profile, -, -, rfl⟩ := h.mem_build.mp hbundle
  intro device hdevice
  simp only [bundleOf, devicesOf] at hdevice
  split at hdevice
  · rename_i devices hloaded
    exact h.valid profile.id devices hloaded device hdevice
  · cases hdevice

theorem Offering.run {profiles : List SharingProfile}
    (hids : (profiles.map SharingProfile.id).Nodup) {actions : List ShareSheetAction}
    (hrun : LabelledRun.run (ShareSheetState.step codecs) (opened profiles) actions = some s) :
    s.Offering codecs profiles :=
  invariant_of_run (Offering codecs profiles) (fun _ _ _ h hstep => h.step hstep)
    (offering_opened hids) hrun

end ShareSheetState

theorem aggregate_eq_success (outcomes : List (String × ProfileShareOutcome)) :
    aggregateNotificationType outcomes = .success ↔
      outcomes.any (fun outcome => outcome.2.hasSuccess) = true ∧
        ¬outcomes.any (fun outcome => outcome.2.hasFailure) = true := by
  unfold aggregateNotificationType
  generalize outcomes.any (fun outcome => outcome.2.hasSuccess) = anySuccess
  generalize outcomes.any (fun outcome => outcome.2.hasFailure) = anyFailure
  cases anySuccess <;> cases anyFailure <;> simp

theorem aggregate_eq_error (outcomes : List (String × ProfileShareOutcome)) :
    aggregateNotificationType outcomes = .error ↔
      ¬outcomes.any (fun outcome => outcome.2.hasSuccess) = true := by
  unfold aggregateNotificationType
  generalize outcomes.any (fun outcome => outcome.2.hasSuccess) = anySuccess
  generalize outcomes.any (fun outcome => outcome.2.hasFailure) = anyFailure
  cases anySuccess <;> cases anyFailure <;> simp

open ShareSheetState in
/--
In whatever order device lists arrive and devices are clicked: when Share is
pressed, the bundles of the profiles hold each selected device once, and no key
among them is malformed. The notification is then a success exactly when the
server confirmed the share for every selected device, an error exactly when it
did so for none, and a warning otherwise; a profile whose thread is lost has
reported none.
-/
theorem share_reports_every_device {profiles : List SharingProfile}
    (hids : (profiles.map SharingProfile.id).Nodup) {actions : List ShareSheetAction}
    (hrun : run (step codecs) (opened profiles) actions = some s) (hselected : s.selected ≠ [])
    (context : ShareContext) (maxFileSizeBytes : String → Nat) (world : String → ProfileWorld) :
    s.selected.Nodup ∧
    ((s.buildProfileShareResources maxFileSizeBytes).flatMap fun bundle =>
      bundle.deviceIds.map fun deviceId => (bundle.profile.id, deviceId)).Perm s.selected ∧
    (∀ bundle ∈ s.buildProfileShareResources maxFileSizeBytes, ∀ name,
      requestError codecs bundle.profile.serverUrl (bundle.request context) bundle.devices
        bundle.maxFileSizeBytes ≠ some (.invalidPublicKey name)) ∧
    ((handleShareFile codecs s context maxFileSizeBytes world).1 = .success ↔
      ∀ key ∈ s.selected, s.Confirmed codecs context maxFileSizeBytes world key) ∧
    ((handleShareFile codecs s context maxFileSizeBytes world).1 = .error ↔
      ∀ key ∈ s.selected, ¬s.Confirmed codecs context maxFileSizeBytes world key) := by
  have h := Offering.run hids hrun
  refine ⟨h.once, h.bundles_perm hids maxFileSizeBytes, fun bundle hbundle =>
    requestError_ne_invalidPublicKey (h.valid_of_bundle hbundle), ?_⟩
  obtain ⟨key, hkey⟩ := List.exists_mem_of_ne_nil _ hselected
  obtain ⟨bundle, hbundle, -⟩ := h.bundle_of_selected hkey maxFileSizeBytes
  have hsome : (s.buildProfileShareResources maxFileSizeBytes).isEmpty = false := by
    simpa using List.ne_nil_of_mem hbundle
  have hnotification : (handleShareFile codecs s context maxFileSizeBytes world).1 =
      aggregateNotificationType ((s.buildProfileShareResources maxFileSizeBytes).map fun bundle =>
        bundle.execute codecs context (world bundle.profile.id)) := by
    simp [handleShareFile, hselected, hsome]
  rw [hnotification, aggregate_eq_success, aggregate_eq_error, h.any_hasSuccess hids,
    h.any_hasFailure hids]
  constructor
  · constructor
    · intro hboth key hkey
      exact Classical.not_not.mp fun hnot => hboth.2 ⟨key, hkey, hnot⟩
    · intro hall
      refine ⟨⟨key, hkey, hall key hkey⟩, fun hsome => ?_⟩
      obtain ⟨other, hother, hnot⟩ := hsome
      exact hnot (hall other hother)
  · constructor
    · exact fun hnone key hkey hconfirmed => hnone ⟨key, hkey, hconfirmed⟩
    · intro hall hsome
      obtain ⟨other, hother, hconfirmed⟩ := hsome
      exact hall other hother hconfirmed

/-- Two profiles whose lists arrive; of three devices one is clicked three times. -/
def sampleSheet : List ShareSheetAction :=
  [.fetched "q" (.ok [⟨"e", "desktop", some "age1"⟩]), .clickDevice "q" "e",
    .fetched "p" (.ok [⟨"d", "laptop", some "age1"⟩, ⟨"f", "phone", some "age1"⟩]),
    .clickDevice "p" "d", .clickDevice "p" "d", .clickDevice "p" "d", .clickDevice "p" "f"]

/-- The server takes the share for the laptop alone, and the thread of the other profile is lost. -/
def sampleProfileWorld (profileId : String) : ProfileWorld where
  token := .ok "token"
  compresses := true
  worker deviceId := .answered (if deviceId = "d" then .ok "tomorrow" else .error "offline")
  panicked := profileId = "q"

theorem share_reports_every_device_sample :
    ∃ s, run (ShareSheetState.step sampleCodecs)
        (.opened [⟨"p", "home", some "https://sync.test"⟩, ⟨"q", "work", some "https://work.test"⟩])
        sampleSheet = some s ∧
      s.selected = [("q", "e"), ("p", "d"), ("p", "f")] ∧
      (handleShareFile sampleCodecs s ⟨"a", "notes.txt"⟩ (fun _ => 2000) sampleProfileWorld).1 =
        .warning ∧
      (∃ key ∈ s.selected,
        s.Confirmed sampleCodecs ⟨"a", "notes.txt"⟩ (fun _ => 2000) sampleProfileWorld key) ∧
      ∃ key ∈ s.selected,
        ¬s.Confirmed sampleCodecs ⟨"a", "notes.txt"⟩ (fun _ => 2000) sampleProfileWorld key := by
  obtain ⟨s, hrun, hselected, hwarning⟩ := exists_of_any
    (P := fun s : ShareSheetState => s.selected = [("q", "e"), ("p", "d"), ("p", "f")] ∧
      (handleShareFile sampleCodecs s ⟨"a", "notes.txt"⟩ (fun _ => 2000) sampleProfileWorld).1 =
        .warning)
    (by decide : (run (ShareSheetState.step sampleCodecs)
      (.opened [⟨"p", "home", some "https://sync.test"⟩, ⟨"q", "work", some "https://work.test"⟩])
      sampleSheet).any (fun s => decide (s.selected = [("q", "e"), ("p", "d"), ("p", "f")] ∧
        (handleShareFile sampleCodecs s ⟨"a", "notes.txt"⟩ (fun _ => 2000) sampleProfileWorld).1 =
          .warning)) = true)
  obtain ⟨-, -, -, hsuccess, herror⟩ := share_reports_every_device (by decide) hrun
    (by simp [hselected]) ⟨"a", "notes.txt"⟩ (fun _ => 2000) sampleProfileWorld
  rw [hwarning] at hsuccess herror
  refine ⟨s, hrun, hselected, hwarning, ?_, ?_⟩
  · by_contra hnone
    exact nomatch herror.mpr fun key hkey hconfirmed => hnone ⟨key, hkey, hconfirmed⟩
  · by_contra hall
    exact nomatch hsuccess.mpr fun key hkey =>
      Classical.not_not.mp fun hnot => hall ⟨key, hkey, hnot⟩

end Fulgur
