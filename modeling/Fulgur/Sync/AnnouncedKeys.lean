import Fulgur.Sync.ProfileKeys
import Fulgur.Sync.SharesReceived

/-! # Announced keys have their private halves

Nothing compares the two halves of a key pair once both are there, so a copy of
the settings is only as good as the keychain was when it was made. As long as no
copy with a replaced key is loaded or published again, the announced key is the
public half of the private key in the keychain.
-/

namespace Fulgur

variable {codecs : ShareCodecs}

/-! ## Copies of the settings -/

/-- The public key, if there is one, goes with the private key that is kept for the profile. -/
def KeyFits (codecs : ShareCodecs) (keychain : Keychain) (profile : ServerProfile) : Prop :=
  ∀ privateKey ∈ keychain profile.id,
    profile.publicKey.isSome → codecs.toPublic privateKey = profile.publicKey

/-- No profile that the settings give for an id has had its private key replaced. -/
def KeysFit (codecs : ShareCodecs) (keychain : Keychain) (settings : SynchronizationSettings) :
    Prop :=
  ∀ profileId, ∀ profile ∈ settings.findProfile profileId, KeyFits codecs keychain profile

instance (keychain : Keychain) (profile : ServerProfile) :
    Decidable (KeyFits codecs keychain profile) :=
  inferInstanceAs (Decidable (∀ privateKey ∈ keychain profile.id, _ → _))

namespace SynchronizationSettings

variable {settings : SynchronizationSettings} {profileId : String} {profile : ServerProfile}

theorem id_of_mem_findProfile (h : profile ∈ settings.findProfile profileId) :
    profile.id = profileId := by
  simpa using List.find?_some h

theorem findProfile_setProfile (profile : ServerProfile) (profileId : String) :
    (settings.setProfile profile).findProfile profileId =
      if profileId = profile.id then (settings.findProfile profileId).map fun _ => profile
      else settings.findProfile profileId := by
  unfold findProfile setProfile
  split
  · rename_i hid
    subst hid
    exact Keyed.find_replaceFirst_self settings.profiles
  · rename_i hid
    exact Keyed.find_replaceFirst_of_ne hid settings.profiles

theorem findProfile_pushProfile (profile : ServerProfile) (profileId : String) :
    (settings.pushProfile profile).findProfile profileId =
      (settings.findProfile profileId).or
        (if profile.id = profileId then some profile else none) := by
  unfold findProfile pushProfile
  rw [List.find?_append]
  by_cases hid : profile.id = profileId
  · simp [hid]
  · simp [hid]

theorem findProfile_of_removeProfile {removed : String}
    (h : profile ∈ (settings.removeProfile removed).findProfile profileId) :
    profile ∈ settings.findProfile profileId :=
  Keyed.find_of_find_dropKey h

theorem findProfile_of_load {parsesUrl : String → Bool}
    (h : profile ∈ (settings.load parsesUrl).findProfile profileId) :
    ∃ saved ∈ settings.findProfile profileId,
      profile.id = saved.id ∧ profile.publicKey = saved.publicKey := by
  unfold findProfile load at h
  simp only [List.find?_map, Option.mem_def, Option.map_eq_some_iff] at h
  obtain ⟨saved, hsaved, rfl⟩ := h
  refine ⟨saved, ?_, rfl, rfl⟩
  exact (List.take_prefix MAX_PROFILES settings.profiles).find?_eq_some hsaved

end SynchronizationSettings

instance (keychain : Keychain) (settings : SynchronizationSettings) :
    Decidable (KeysFit codecs keychain settings) :=
  decidable_of_iff
    (∀ listed ∈ settings.profiles, ∀ profile ∈ settings.findProfile listed.id,
      KeyFits codecs keychain profile)
    ⟨fun h _ profile hprofile => h profile (List.mem_of_find?_eq_some hprofile) profile
        (SynchronizationSettings.id_of_mem_findProfile hprofile ▸ hprofile),
      fun h listed _ => h listed.id⟩

namespace KeyFits

variable {keychain : Keychain} {profile : ServerProfile}

theorem removeEntry (h : KeyFits codecs keychain profile) (profileId : String) :
    KeyFits codecs (Function.update keychain profileId none) profile := by
  intro privateKey hkey hpublic
  by_cases hid : profile.id = profileId
  · simp [hid] at hkey
  · rw [Function.update_of_ne hid] at hkey
    exact h privateKey hkey hpublic

theorem mutate (h : KeyFits codecs keychain profile) (edit : ProfileEdit) :
    KeyFits codecs keychain (edit.mutate profile) := by
  cases edit with
  | sheet form => exact h
  | active value => exact h

end KeyFits

namespace KeysFit

variable {keychain : Keychain} {settings : SynchronizationSettings}

theorem setProfile (h : KeysFit codecs keychain settings) {profile : ServerProfile}
    (hprofile : KeyFits codecs keychain profile) :
    KeysFit codecs keychain (settings.setProfile profile) := by
  intro profileId found hfound
  rw [SynchronizationSettings.findProfile_setProfile] at hfound
  split at hfound
  · obtain ⟨_, -, rfl⟩ := Option.map_eq_some_iff.mp hfound
    exact hprofile
  · exact h profileId found hfound

/-- A profile at the end of the list is only found where no other one is. -/
theorem pushProfile (h : KeysFit codecs keychain settings) {profile : ServerProfile}
    (hprofile : settings.findProfile profile.id = none → KeyFits codecs keychain profile) :
    KeysFit codecs keychain (settings.pushProfile profile) := by
  intro profileId found hfound
  rw [SynchronizationSettings.findProfile_pushProfile] at hfound
  cases hknown : settings.findProfile profileId with
  | some known =>
      rw [hknown, Option.some_or] at hfound
      exact h profileId found (hknown.trans hfound)
  | none =>
      rw [hknown, Option.none_or] at hfound
      split at hfound
      · rename_i hid
        cases hfound
        exact hprofile (hid ▸ hknown)
      · cases hfound

theorem removeProfile (h : KeysFit codecs keychain settings) (profileId : String) :
    KeysFit codecs keychain (settings.removeProfile profileId) := fun id found hfound =>
  h id found (SynchronizationSettings.findProfile_of_removeProfile hfound)

theorem load (h : KeysFit codecs keychain settings) (parsesUrl : String → Bool) :
    KeysFit codecs keychain (settings.load parsesUrl) := by
  intro profileId found hfound
  obtain ⟨saved, hsaved, hid, hpublic⟩ := SynchronizationSettings.findProfile_of_load hfound
  have hfits := h profileId saved hsaved
  unfold KeyFits at hfits ⊢
  rwa [hid, hpublic]

theorem new : KeysFit codecs keychain .new := nofun

theorem removeEntry (h : KeysFit codecs keychain settings) (profileId : String) :
    KeysFit codecs (Function.update keychain profileId none) settings :=
  fun id found hfound => (h id found hfound).removeEntry profileId

end KeysFit

/-! ## Ensured key pairs -/

/-- The public key is the public half of the private key. -/
def Paired (codecs : ShareCodecs) (profile : ServerProfile) (privateKey : Option String) : Prop :=
  ∃ key publicKey, privateKey = some key ∧ profile.publicKey = some publicKey ∧
    codecs.toPublic key = some publicKey

/-- The ways in which `ensure_profile_keypair` returns `Ok`. -/
inductive EnsureCase (keys : KeyGeneration codecs) (keychain : Keychain) (profile : ServerProfile) :
    EnsuredKeypair → Prop where
  | kept {privateKey : String} (hkey : keychain profile.id = some privateKey)
      (hpublic : profile.publicKey.isSome) :
      EnsureCase keys keychain profile ⟨false, profile, keychain⟩
  | recovered {privateKey publicKey : String} (hkey : keychain profile.id = some privateKey)
      (hpublic : codecs.toPublic privateKey = some publicKey) :
      EnsureCase keys keychain profile
        ⟨true, { profile with publicKey := some publicKey }, keychain⟩
  | generated {randomness : Nat} (hkey : keychain profile.id = none) :
      EnsureCase keys keychain profile
        ⟨true, { profile with publicKey := codecs.toPublic (keys.generate randomness) },
          Function.update keychain profile.id (some (keys.generate randomness))⟩

variable {keys : KeyGeneration codecs} {keychain : Keychain} {attempt : KeyAttempt}
  {profile : ServerProfile} {done : EnsuredKeypair}

theorem ensureCase_of_ensureProfileKeypair
    (h : ensureProfileKeypair keys keychain attempt profile = .ok done) :
    EnsureCase keys keychain profile done := by
  unfold ensureProfileKeypair at h
  split at h
  · cases h
  · split at h
    · rename_i privateKey hkey
      split at h
      · rename_i hpublic
        cases h
        exact .kept hkey hpublic
      · split at h
        · cases h
        · rename_i publicKey hderived
          cases h
          exact .recovered hkey hderived
    · rename_i hkey
      split at h
      · cases h
      · cases h
        exact .generated hkey

/-- A key is generated only when the keychain answers and has none. -/
theorem generates_of_keychain_ne (h : ensureProfileKeypair keys keychain attempt profile = .ok done)
    (hchanged : done.keychain ≠ keychain) :
    attempt.readable = true ∧ attempt.storable = true ∧ keychain profile.id = none := by
  unfold ensureProfileKeypair at h
  split at h
  · cases h
  · rename_i hreadable
    split at h
    · split at h
      · cases h
        exact absurd rfl hchanged
      · split at h
        · cases h
        · cases h
          exact absurd rfl hchanged
    · rename_i hkey
      split at h
      · cases h
      · rename_i hstorable
        exact ⟨by simpa using hreadable, by simpa using hstorable, hkey⟩

namespace EnsureCase

theorem id_eq (h : EnsureCase keys keychain profile done) : done.profile.id = profile.id := by
  cases h with
  | kept hkey hpublic => rfl
  | recovered hkey hpublic => rfl
  | generated hkey => rfl

theorem keychain_of_ne (h : EnsureCase keys keychain profile done) {profileId : String}
    (hid : profileId ≠ profile.id) : done.keychain profileId = keychain profileId := by
  cases h with
  | kept hkey hpublic => rfl
  | recovered hkey hpublic => rfl
  | generated hkey => exact Function.update_of_ne hid _ _

/-- Where the public key went with the private key, both halves are there and go together. -/
theorem paired (h : EnsureCase keys keychain profile done)
    (hfits : KeyFits codecs keychain profile) :
    Paired codecs done.profile (done.keychain done.profile.id) := by
  cases h with
  | @kept privateKey hkey hpublic =>
      obtain ⟨publicKey, hsome⟩ := Option.isSome_iff_exists.mp hpublic
      exact ⟨privateKey, publicKey, hkey, hsome, (hfits privateKey hkey hpublic).trans hsome⟩
  | @recovered privateKey publicKey hkey hpublic =>
      exact ⟨privateKey, publicKey, hkey, rfl, hpublic⟩
  | @generated randomness hkey =>
      obtain ⟨publicKey, hsome⟩ := Option.isSome_iff_exists.mp (keys.toPublic_generate randomness)
      exact ⟨keys.generate randomness, publicKey, Function.update_self _ _ _, hsome, hsome⟩

end EnsureCase

theorem Paired.fits {profile : ServerProfile} (h : Paired codecs profile (keychain profile.id)) :
    KeyFits codecs keychain profile := by
  obtain ⟨key, publicKey, hkey, hpublic, hderived⟩ := h
  intro privateKey hprivate _
  rw [Option.mem_def, hkey, Option.some_inj] at hprivate
  rw [← hprivate, hderived, hpublic]

theorem Paired.decrypts {privateKey : Option String} (h : Paired codecs profile privateKey)
    {announced : String} (hbegin : beginPublicKey profile = .ok announced) :
    ∃ key, privateKey = some key ∧ ∀ randomness bytes,
      decryptBytes codecs key (encryptBytes codecs announced randomness bytes) = some bytes := by
  obtain ⟨key, publicKey, hkey, hpublic, hderived⟩ := h
  unfold beginPublicKey at hbegin
  rw [hpublic] at hbegin
  split at hbegin
  · cases hbegin
  · rename_i hsome
    cases hsome
  · rename_i hsome
    cases hbegin
    cases hsome
    exact ⟨key, hkey, fun randomness bytes => decryptBytes_encryptBytes randomness bytes hderived⟩

/-- The ensured profile put back in its place leaves no replaced key in this copy. -/
theorem KeysFit.ensured {settings : SynchronizationSettings}
    (h : KeysFit codecs keychain settings) (hcase : EnsureCase keys keychain profile done)
    (hpaired : Paired codecs done.profile (done.keychain done.profile.id)) :
    KeysFit codecs done.keychain (settings.setProfile done.profile) := by
  intro profileId found hfound
  rw [SynchronizationSettings.findProfile_setProfile] at hfound
  split at hfound
  · obtain ⟨_, -, rfl⟩ := Option.map_eq_some_iff.mp hfound
    exact hpaired.fits
  · rename_i hid
    have hother : found.id ≠ profile.id := by
      rw [SynchronizationSettings.id_of_mem_findProfile hfound]
      rwa [hcase.id_eq] at hid
    have hfits := h profileId found hfound
    unfold KeyFits at hfits ⊢
    rwa [hcase.keychain_of_ne hother]

/-! ## Copies that may be relied on -/

namespace KeyProcess

/-- The copies of the settings that the process holds between two operations. -/
def copies : KeyProcess → List SynchronizationSettings
  | .running shared windows _ => shared :: windows
  | _ => []

end KeyProcess

namespace KeyStores

def existingPublicKey (s : KeyStores) (window : Nat) (profileId : String) : Option String :=
  (s.idle window).bind fun (_, _, settings) => (settings.findProfile profileId).bind (·.publicKey)

/-- The copies of the settings that are read next: during an operation, only its window's. -/
def trusted (s : KeyStores) : List SynchronizationSettings :=
  match s.process with
  | .down => [s.settingsFile]
  | .starting settings _ _ => [settings]
  | .running shared windows none => shared :: windows
  | .running _ windows (some (window, _)) => windows[window]?.toList

end KeyStores

def generatesKey (keychain : Keychain) (attempt : KeyAttempt) (profileId : String) : Bool :=
  attempt.readable && attempt.storable && (keychain profileId).isNone

/--
No replaced key is read again: none is in the settings file when the process
stops, none in another copy when changed settings cannot be saved, and no key is
generated for a new profile that is already listed with one.
-/
def KeyStep (codecs : ShareCodecs) (s : KeyStores) : KeyAction → Prop
  | .stop => KeysFit codecs s.keychain s.settingsFile
  | .propagate (.failed _) => ∀ copy ∈ s.process.copies, KeysFit codecs s.keychain copy
  | .addProfile window form attempt =>
      form.isActive = true → generatesKey s.keychain attempt form.profileId = true →
        s.existingPublicKey window form.profileId = none
  | _ => True

instance (s : KeyStores) (action : KeyAction) : Decidable (KeyStep codecs s action) := by
  unfold KeyStep
  split <;> infer_instance

structure KeysKept (codecs : ShareCodecs) (s : KeyStores) : Prop where
  trusted : ∀ copy ∈ s.trusted, KeysFit codecs s.keychain copy
  ensured : ∀ done ∈ s.ensured, Paired codecs done.profile done.privateKey

namespace KeysKept

variable {s s' : KeyStores} {shared settings : SynchronizationSettings}
  {windows : List SynchronizationSettings} {window : Nat}

theorem installed : KeysKept codecs .installed where
  trusted := by
    intro copy hcopy
    rw [List.mem_singleton.mp hcopy]
    exact KeysFit.new
  ensured := nofun

theorem running (hensured : ∀ done ∈ s.ensured, Paired codecs done.profile done.privateKey)
    (hshared : KeysFit codecs s.keychain shared)
    (hwindows : ∀ copy ∈ windows, KeysFit codecs s.keychain copy) :
    KeysKept codecs { s with process := .running shared windows none } where
  trusted := by
    intro copy hcopy
    rcases List.mem_cons.mp hcopy with rfl | hcopy
    · exact hshared
    · exact hwindows copy hcopy
  ensured := hensured

/-- During an operation the settings of its window count alone. -/
theorem working (hensured : ∀ done ∈ s.ensured, Paired codecs done.profile done.privateKey)
    (hsettings : KeysFit codecs s.keychain settings) (stage : KeyStage) :
    KeysKept codecs
      { s with
        process := .running shared (windows.set window settings) (some (window, stage)) } where
  trusted := by
    intro copy hcopy
    simp only [KeyStores.trusted, Option.mem_toList, List.getElem?_set] at hcopy
    by_cases hbound : window < windows.length
    · simp only [if_true, hbound, Option.some_inj] at hcopy
      exact hcopy ▸ hsettings
    · simp [hbound] at hcopy
  ensured := hensured

theorem set_of_getElem? (h : windows[window]? = some settings) :
    windows.set window settings = windows := by
  obtain ⟨hbound, rfl⟩ := List.getElem?_eq_some_iff.mp h
  exact List.set_getElem_self hbound

/-- The copies in a window that no operation is under way in. -/
theorem of_idle (hkept : KeysKept codecs s) (h : s.idle window = some (shared, windows, settings)) :
    s.process = .running shared windows none ∧ windows[window]? = some settings ∧
      KeysFit codecs s.keychain settings := by
  unfold KeyStores.idle at h
  split at h
  · rename_i shared windows hprocess
    obtain ⟨listed, hlisted, heq⟩ := Option.map_eq_some_iff.mp h
    cases heq
    refine ⟨hprocess, hlisted, hkept.trusted _ ?_⟩
    rw [KeyStores.trusted, hprocess]
    exact List.mem_cons_of_mem _ (List.mem_of_getElem? hlisted)
  · cases h

theorem of_working (hkept : KeysKept codecs s) {stage : KeyStage}
    (hprocess : s.process = .running shared windows (some (window, stage)))
    (hsettings : windows[window]? = some settings) : KeysFit codecs s.keychain settings := by
  refine hkept.trusted _ ?_
  rw [KeyStores.trusted, hprocess]
  simpa using hsettings

theorem of_starting (hkept : KeysKept codecs s) {profileIds : List String} {changed : Bool}
    (hprocess : s.process = .starting settings profileIds changed) :
    KeysFit codecs s.keychain settings := by
  refine hkept.trusted _ ?_
  rw [KeyStores.trusted, hprocess]
  exact List.mem_singleton_self _

/-- The record of an `Ok` result keeps to key pairs that go together. -/
theorem record (hensured : ∀ done ∈ s.ensured, Paired codecs done.profile done.privateKey)
    (hpaired : Paired codecs done.profile (done.keychain done.profile.id)) :
    ∀ entry ∈ (s.record done).ensured, Paired codecs entry.profile entry.privateKey := by
  intro entry hentry
  unfold KeyStores.record at hentry
  split at hentry
  · rcases List.mem_append.mp hentry with hentry | hentry
    · exact hensured entry hentry
    · rw [List.mem_singleton.mp hentry]
      exact hpaired
  · exact hensured entry hentry

/-- `ensure_profile_keypair` on a listed profile, whatever it returns. -/
theorem ensureListed (hensured : ∀ done ∈ s.ensured, Paired codecs done.profile done.privateKey)
    (hsettings : KeysFit codecs s.keychain settings) {profileId : String}
    {result : Except KeypairError Bool} {settings' : SynchronizationSettings}
    (h : s.ensureListed keys attempt settings profileId = (result, settings', s')) :
    KeysFit codecs s'.keychain settings' ∧
      ∀ done ∈ s'.ensured, Paired codecs done.profile done.privateKey := by
  unfold KeyStores.ensureListed at h
  split at h
  · cases h
    exact ⟨hsettings, hensured⟩
  · rename_i profile hfound
    split at h
    · cases h
      exact ⟨hsettings, hensured⟩
    · rename_i done hdone
      cases h
      have hcase := ensureCase_of_ensureProfileKeypair hdone
      have hpaired := hcase.paired (hsettings profileId profile hfound)
      exact ⟨hsettings.ensured hcase hpaired, record hensured hpaired⟩

/-! ## The steps -/

theorem start (hkept : KeysKept codecs s) {parsesUrl : String → Bool} {readable : Bool}
    (h : s.start parsesUrl readable = some s') : KeysKept codecs s' := by
  unfold KeyStores.start at h
  split at h
  · rename_i hprocess
    cases h
    have hloaded : KeysFit codecs s.keychain
        (if readable then s.settingsFile.load parsesUrl else .new) := by
      split
      · refine (hkept.trusted s.settingsFile ?_).load parsesUrl
        rw [KeyStores.trusted, hprocess]
        exact List.mem_singleton_self _
      · exact KeysFit.new
    generalize (if readable then s.settingsFile.load parsesUrl else .new) = settings at hloaded ⊢
    by_cases hactivated : settings.isSynchronizationActivated
    · simp only [hactivated, if_true]
      refine ⟨fun copy hcopy => ?_, hkept.ensured⟩
      rw [List.mem_singleton.mp hcopy]
      exact hloaded
    · simp only [hactivated, Bool.false_eq_true, if_false]
      exact running hkept.ensured hloaded nofun
  · cases h

theorem checkKey (hkept : KeysKept codecs s) (h : s.checkKey keys attempt = some s') :
    KeysKept codecs s' := by
  unfold KeyStores.checkKey at h
  split at h
  · rename_i settings profileId rest changed hprocess
    split at h
    · rename_i updated settings' s₁ hensure
      cases h
      have hnext := ensureListed hkept.ensured (hkept.of_starting hprocess) hensure
      refine ⟨fun copy hcopy => ?_, hnext.2⟩
      rw [List.mem_singleton.mp hcopy]
      exact hnext.1
    · rename_i error settings' s₁ hensure
      cases h
      have hnext := ensureListed hkept.ensured (hkept.of_starting hprocess) hensure
      exact running hnext.2 hnext.1 nofun
  · rename_i shared windows window profileId rest changed hprocess
    split at h
    · cases h
    · rename_i settings hsettings
      have hfits := hkept.of_working hprocess hsettings
      split at h
      · rename_i updated settings' s₁ hensure
        cases h
        have hnext := ensureListed hkept.ensured hfits hensure
        exact working hnext.2 hnext.1 _
      · rename_i error settings' s₁ hensure
        cases h
        have hnext := ensureListed hkept.ensured hfits hensure
        exact working hnext.2 hnext.1 _
  · cases h

theorem write_keychain (s : KeyStores) (result : SettingsWrite)
    (settings : SynchronizationSettings) : (s.write result settings).keychain = s.keychain := by
  unfold KeyStores.write
  split <;> rfl

theorem write_process (s : KeyStores) (result : SettingsWrite)
    (settings : SynchronizationSettings) : (s.write result settings).process = s.process := by
  unfold KeyStores.write
  split <;> rfl

theorem write_ensured (s : KeyStores) (result : SettingsWrite)
    (settings : SynchronizationSettings) : (s.write result settings).ensured = s.ensured := by
  unfold KeyStores.write
  split <;> rfl

/-- While the process runs a write of the settings file is of no account either. -/
theorem write (hkept : KeysKept codecs s) (hup : s.process ≠ .down) (result : SettingsWrite)
    (settings : SynchronizationSettings) : KeysKept codecs (s.write result settings) where
  trusted := by
    intro copy hcopy
    rw [write_keychain]
    refine hkept.trusted copy ?_
    unfold KeyStores.trusted at hcopy ⊢
    rw [write_process] at hcopy
    cases hprocess : s.process with
    | down => exact absurd hprocess hup
    | starting settings profileIds changed =>
        rw [hprocess] at hcopy
        exact hcopy
    | running shared windows work =>
        rw [hprocess] at hcopy
        cases work <;> exact hcopy
  ensured := by
    rw [write_ensured]
    exact hkept.ensured

theorem finishCheck (hkept : KeysKept codecs s) {result : SettingsWrite}
    (h : s.finishCheck result = some s') : KeysKept codecs s' := by
  unfold KeyStores.finishCheck at h
  split at h
  · rename_i settings hprocess
    cases h
    exact running hkept.ensured (hkept.of_starting hprocess) nofun
  · rename_i settings hprocess
    cases h
    have hwritten := hkept.write (by simp [hprocess]) result settings
    have hfits : KeysFit codecs (s.write result settings).keychain settings := by
      rw [write_keychain]
      exact hkept.of_starting hprocess
    refine running hwritten.ensured ?_ nofun
    split
    · exact hfits
    · exact hfits
  · rename_i shared windows window changed hprocess
    split at h
    · cases h
    · rename_i settings hsettings
      cases h
      have hfits := hkept.of_working hprocess hsettings
      rw [← set_of_getElem? hsettings]
      split
      · refine working (hkept.write (by simp [hprocess]) result settings).ensured ?_ _
        rw [write_keychain]
        exact hfits
      · exact working hkept.ensured hfits _
  · cases h

theorem changeWindows (hkept : KeysKept codecs s)
    {change : SynchronizationSettings → List SynchronizationSettings → List SynchronizationSettings}
    (hchange : ∀ shared windows, ∀ copy ∈ change shared windows, copy ∈ shared :: windows)
    (h : s.changeWindows change = some s') : KeysKept codecs s' := by
  unfold KeyStores.changeWindows at h
  split at h
  · rename_i shared windows hprocess
    cases h
    have htrusted : ∀ copy ∈ shared :: windows, KeysFit codecs s.keychain copy := by
      intro copy hcopy
      refine hkept.trusted copy ?_
      rw [KeyStores.trusted, hprocess]
      exact hcopy
    refine running hkept.ensured (htrusted shared List.mem_cons_self) fun copy hcopy => ?_
    exact htrusted copy (hchange shared windows copy hcopy)
  · cases h

theorem changeSetting (hkept : KeysKept codecs s) (h : s.changeSetting window = some s') :
    KeysKept codecs s' := by
  obtain ⟨⟨shared, windows, settings⟩, hidle, rfl⟩ := Option.map_eq_some_iff.mp h
  obtain ⟨-, hsettings, hfits⟩ := hkept.of_idle hidle
  dsimp only
  rw [← set_of_getElem? hsettings]
  exact working hkept.ensured hfits _

theorem masterToggle (hkept : KeysKept codecs s) {value : Bool}
    (h : s.masterToggle window value = some s') : KeysKept codecs s' := by
  obtain ⟨⟨shared, windows, settings⟩, hidle, rfl⟩ := Option.map_eq_some_iff.mp h
  obtain ⟨-, -, hfits⟩ := hkept.of_idle hidle
  have hswitched :
    KeysFit codecs s.keychain { settings with isSynchronizationActivated := value } :=
    hfits
  exact working hkept.ensured hswitched _

/-- The profile that is added is found under its id unless another one was listed before. -/
theorem addProfile (hkept : KeysKept codecs s) {form : ProfileForm}
    (hguard : KeyStep codecs s (.addProfile window form attempt))
    (h : s.addProfile keys window form attempt = some s') : KeysKept codecs s' := by
  obtain ⟨⟨shared, windows, settings⟩, hidle, rfl⟩ := Option.map_eq_some_iff.mp h
  obtain ⟨-, -, hfits⟩ := hkept.of_idle hidle
  dsimp only
  generalize hexisting : (settings.findProfile form.profileId).bind (·.publicKey) = existing
  generalize hbuilt : buildProfileFromForm form existing = profile
  have hid : profile.id = form.profileId := by rw [← hbuilt]; rfl
  have hprofile : KeyFits codecs s.keychain profile := by
    intro privateKey hprivate hpublic
    have hpublicKey : profile.publicKey = existing := by rw [← hbuilt]; rfl
    rw [hid] at hprivate
    rw [hpublicKey, ← hexisting] at hpublic ⊢
    cases hfound : settings.findProfile form.profileId with
    | none => simp [hfound] at hpublic
    | some listed =>
        rw [hfound, Option.bind_some] at hpublic
        have hlisted := SynchronizationSettings.id_of_mem_findProfile hfound
        exact hfits form.profileId listed hfound privateKey (hlisted ▸ hprivate) hpublic
  split
  · rename_i hactive
    cases hdone : ensureProfileKeypair keys s.keychain attempt profile with
    | error error => exact working hkept.ensured (hfits.pushProfile fun _ => hprofile) _
    | ok done =>
        have hcase := ensureCase_of_ensureProfileKeypair hdone
        have hpaired := hcase.paired hprofile
        refine working (record hkept.ensured hpaired) ?_ _
        by_cases hsame : done.keychain = s.keychain
        · have hkeychain : (s.record done).keychain = s.keychain := hsame
          rw [hkeychain]
          exact hfits.pushProfile fun _ => hsame ▸ hpaired.fits
        · -- A generated key: what was listed under the id had no public key.
          obtain ⟨hreadable, hstorable, hnone⟩ := generates_of_keychain_ne hdone hsame
          have hmissing : existing = none := by
            have hform : form.isActive = true := by rw [← hbuilt] at hactive; exact hactive
            have hgenerates : generatesKey s.keychain attempt form.profileId = true := by
              simp [generatesKey, hreadable, hstorable, ← hid, hnone]
            have hshown := hguard hform hgenerates
            rw [KeyStores.existingPublicKey, hidle, Option.bind_some] at hshown
            rw [← hexisting]
            exact hshown
          have hkept' : KeysFit codecs done.keychain settings := by
            intro profileId listed hlisted
            have hlistedId := SynchronizationSettings.id_of_mem_findProfile hlisted
            by_cases hother : profileId = profile.id
            · intro privateKey _ hpublic
              rw [hother, hid] at hlisted
              rw [Option.mem_def] at hlisted
              rw [hlisted, Option.bind_some] at hexisting
              simp [hexisting, hmissing] at hpublic
            · have hlistedFits := hfits profileId listed hlisted
              unfold KeyFits at hlistedFits ⊢
              rwa [hcase.keychain_of_ne (hlistedId ▸ hother)]
          exact hkept'.pushProfile fun _ => hpaired.fits
  · exact working hkept.ensured (hfits.pushProfile fun _ => hprofile) _

theorem updateProfile (hkept : KeysKept codecs s) {profileId : String} {edit : ProfileEdit}
    (h : s.updateProfile keys window profileId edit attempt = some s') : KeysKept codecs s' := by
  obtain ⟨⟨shared, windows, settings⟩, hidle, rfl⟩ := Option.map_eq_some_iff.mp h
  obtain ⟨-, -, hfits⟩ := hkept.of_idle hidle
  dsimp only
  split
  · exact hkept
  · rename_i profile hfound
    have hedited : KeysFit codecs s.keychain (settings.setProfile (edit.mutate profile)) :=
      hfits.setProfile ((hfits profileId profile hfound).mutate edit)
    split
    · have hnext := ensureListed hkept.ensured hedited
        (rfl : s.ensureListed keys attempt _ profileId = (_, _, _))
      exact working hnext.2 hnext.1 _
    · exact working hkept.ensured hedited _

theorem deleteProfile (hkept : KeysKept codecs s) {profileId : String} {removed : Bool}
    (h : s.deleteProfile window profileId removed = some s') : KeysKept codecs s' := by
  obtain ⟨⟨shared, windows, settings⟩, hidle, rfl⟩ := Option.map_eq_some_iff.mp h
  obtain ⟨-, -, hfits⟩ := hkept.of_idle hidle
  dsimp only
  split
  · exact hkept
  · have hleft := hfits.removeProfile profileId
    split
    · exact working (s := { s with keychain := Function.update s.keychain profileId none })
        hkept.ensured (hleft.removeEntry profileId) _
    · exact working hkept.ensured hleft _

theorem propagate (hkept : KeysKept codecs s) {result : SettingsWrite}
    (hguard : KeyStep codecs s (.propagate result)) (h : s.propagate result = some s') :
    KeysKept codecs s' := by
  unfold KeyStores.propagate at h
  split at h
  · rename_i shared windows window hprocess
    split at h
    · cases h
    · rename_i settings hsettings
      cases h
      have hwritten := (hkept.write (by simp [hprocess]) result settings).ensured
      cases result with
      | written =>
          have hfits : KeysFit codecs (s.write .written settings).keychain settings := by
            rw [write_keychain]
            exact hkept.of_working hprocess hsettings
          refine running hwritten hfits fun copy hcopy => ?_
          obtain ⟨_, -, rfl⟩ := List.mem_map.mp hcopy
          exact hfits
      | failed replaced =>
          have hcopies : ∀ copy ∈ shared :: windows,
              KeysFit codecs (s.write (.failed replaced) settings).keychain copy := by
            intro copy hcopy
            rw [write_keychain]
            refine hguard copy ?_
            rw [hprocess]
            exact hcopy
          refine running hwritten (hcopies shared List.mem_cons_self) fun copy hcopy => ?_
          exact hcopies copy (List.mem_cons_of_mem shared hcopy)
  · cases h

theorem save (hkept : KeysKept codecs s) {result : SettingsWrite}
    (h : s.save window result = some s') : KeysKept codecs s' := by
  obtain ⟨⟨shared, windows, settings⟩, hidle, rfl⟩ := Option.map_eq_some_iff.mp h
  obtain ⟨hprocess, -, -⟩ := hkept.of_idle hidle
  exact hkept.write (by simp [hprocess]) result settings

theorem removeEntry (hkept : KeysKept codecs s) (profileId : String) :
    KeysKept codecs { s with keychain := Function.update s.keychain profileId none } where
  trusted copy hcopy := (hkept.trusted copy hcopy).removeEntry profileId
  ensured := hkept.ensured

theorem stop (hkept : KeysKept codecs s) (hguard : KeyStep codecs s .stop)
    (h : s.stop = some s') : KeysKept codecs s' := by
  unfold KeyStores.stop at h
  split at h
  · cases h
  · cases h
    refine ⟨fun copy hcopy => ?_, hkept.ensured⟩
    rw [List.mem_singleton.mp hcopy]
    exact hguard

theorem step {parsesUrl : String → Bool} {action : KeyAction} (hkept : KeysKept codecs s)
    (hguard : KeyStep codecs s action) (h : s.step keys parsesUrl action = some s') :
    KeysKept codecs s' := by
  cases action with
  | start readable => exact hkept.start h
  | checkKey attempt => exact hkept.checkKey h
  | finishCheck result => exact hkept.finishCheck h
  | openWindow =>
      refine hkept.changeWindows (fun shared windows copy hcopy => ?_) h
      rcases List.mem_append.mp hcopy with hcopy | hcopy
      · exact List.mem_cons_of_mem shared hcopy
      · exact List.mem_singleton.mp hcopy ▸ List.mem_cons_self
  | closeWindow window =>
      refine hkept.changeWindows (fun shared windows copy hcopy => ?_) h
      exact List.mem_cons_of_mem shared (List.mem_of_mem_eraseIdx hcopy)
  | changeSetting window => exact hkept.changeSetting h
  | masterToggle window value => exact hkept.masterToggle h
  | addProfile window form attempt => exact hkept.addProfile hguard h
  | updateProfile window profileId edit attempt => exact hkept.updateProfile h
  | deleteProfile window profileId removed => exact hkept.deleteProfile h
  | propagate result => exact hkept.propagate hguard h
  | save window result => exact hkept.save h
  | republish =>
      refine hkept.changeWindows (fun shared windows copy hcopy => ?_) h
      obtain ⟨_, -, rfl⟩ := List.mem_map.mp hcopy
      exact List.mem_cons_self
  | removeEntry profileId =>
      cases h
      exact hkept.removeEntry profileId
  | stop => exact hkept.stop hguard h

end KeysKept

theorem keysKept_of_run {parsesUrl : String → Bool} {actions : List KeyAction} {s t : KeyStores}
    (hs : KeysKept codecs s)
    (hguard : LabelledRun.Guarded (KeyStores.step keys parsesUrl) (KeyStep codecs) s actions)
    (hrun : LabelledRun.run (KeyStores.step keys parsesUrl) s actions = some t) :
    KeysKept codecs t :=
  LabelledRun.invariant_of_guarded (KeysKept codecs)
    (fun _ _ _ hkept hstep h => hkept.step hstep h) hs hguard hrun

/--
Whenever a key pair was ensured for an active profile, its public key is the public
half of the private key in the keychain, and what is encrypted for the key that a
synchronization announces is decrypted with it.
-/
theorem announced_keys_paired (keys : KeyGeneration codecs) (parsesUrl : String → Bool)
    {actions : List KeyAction} {s : KeyStores}
    (hrun : LabelledRun.run (KeyStores.step keys parsesUrl) .installed actions = some s)
    (hguard : LabelledRun.Guarded (KeyStores.step keys parsesUrl) (KeyStep codecs) .installed
      actions) :
    ∀ done ∈ s.ensured, Paired codecs done.profile done.privateKey ∧
      ∀ announced, beginPublicKey done.profile = .ok announced →
        ∃ key, done.privateKey = some key ∧ ∀ randomness bytes,
          decryptBytes codecs key (encryptBytes codecs announced randomness bytes) =
          some bytes := by
  intro done hdone
  have hpaired := (keysKept_of_run KeysKept.installed hguard hrun).ensured done hdone
  exact ⟨hpaired, fun announced hbegin => hpaired.decrypts hbegin⟩

/-! ## A profile whose keychain entry was removed -/

def samplePublicKey (privateKey : String) : Option String :=
  if privateKey = "AGE-SECRET-KEY-1" then some "age1"
  else if privateKey = "AGE-SECRET-KEY-2" then some "age2"
  else none

def sampleRecipientHeader (publicKey : String) : List UInt8 :=
  sampleAgeHeader ++ [if publicKey = "age1" then 1 else 2]

theorem length_sampleRecipientHeader (publicKey : String) :
    (sampleRecipientHeader publicKey).length = 23 := by
  have hlength : sampleAgeHeader.length = 22 := by decide
  rw [sampleRecipientHeader, List.length_append, hlength, List.length_singleton]

def sampleKeyCodecs : ShareCodecs :=
  { sampleCodecs with
    isValidPublicKey := fun key => key = "age1" ∨ key = "age2"
    toPublic := samplePublicKey
    encrypt := fun publicKey _ bytes => sampleRecipientHeader publicKey ++ bytes
    decrypt := fun privateKey bytes => (samplePublicKey privateKey).bind fun publicKey =>
      if sampleRecipientHeader publicKey <+: bytes then
        some (bytes.drop (sampleRecipientHeader publicKey).length) else none
    decrypt_encrypt := by
      intro privateKey publicKey randomness bytes hkey
      rw [hkey, Option.bind_some, if_pos (List.prefix_append _ _), List.drop_left]
    ageHeader := 23
    encrypt_overhead := by
      intro publicKey randomness bytes
      rw [List.length_append, length_sampleRecipientHeader]
      omega }

def sampleKeys : KeyGeneration sampleKeyCodecs where
  generate randomness := if randomness = 0 then "AGE-SECRET-KEY-1" else "AGE-SECRET-KEY-2"
  toPublic_generate randomness := by
    by_cases h : randomness = 0
    · rw [if_pos h]
      decide
    · rw [if_neg h]
      decide

def sampleProfileForm : ProfileForm := ⟨"p", "Home", true, some "https://sync.test", none, false⟩

def sampleAttempt (randomness : Nat) : KeyAttempt := ⟨true, true, randomness⟩

/-- A profile is added; later its keychain entry is removed, and it is edited. -/
def sampleRemovedEntry : List KeyAction :=
  [.start true, .openWindow, .addProfile 0 sampleProfileForm (sampleAttempt 0), .propagate .written,
    .removeEntry "p", .updateProfile 0 "p" (.active true) (sampleAttempt 1)]

def sampleEditAfterRestart : List KeyAction :=
  [.stop, .start true, .openWindow, .updateProfile 0 "p" (.active true) (sampleAttempt 2)]

theorem announced_keys_paired_sample :
    ∃ s, LabelledRun.run (KeyStores.step sampleKeys fun _ => true) .installed
        (sampleRemovedEntry ++ [.propagate .written] ++ sampleEditAfterRestart) = some s ∧
      s.ensured.length = 3 ∧
      ∀ done ∈ s.ensured, Paired sampleKeyCodecs done.profile done.privateKey := by
  obtain ⟨s, hrun, hlength⟩ :
      ∃ s, LabelledRun.run (KeyStores.step sampleKeys fun _ => true) .installed
        (sampleRemovedEntry ++ [.propagate .written] ++ sampleEditAfterRestart) = some s ∧
        s.ensured.length = 3 :=
    LabelledRun.exists_of_any (by decide)
  have hguard : LabelledRun.Guarded (KeyStores.step sampleKeys fun _ => true)
      (KeyStep sampleKeyCodecs) .installed
      (sampleRemovedEntry ++ [.propagate .written] ++ sampleEditAfterRestart) :=
    LabelledRun.Guarded.of_guardedRun (by decide)
  exact ⟨s, hrun, hlength, fun done hdone =>
    (announced_keys_paired sampleKeys (fun _ => true) hrun hguard done hdone).1⟩

/--
The process stops after the new private key is stored and before the settings are
saved. The next start finds the old public key beside the new private key, and
the key pair counts as complete.
-/
theorem replaced_key_announced :
    ∃ s, LabelledRun.run (KeyStores.step sampleKeys fun _ => true) .installed
        (sampleRemovedEntry ++ sampleEditAfterRestart) = some s ∧
      ∃ done ∈ s.ensured, done.profile.isActive = true ∧
        beginPublicKey done.profile = .ok "age1" ∧ done.privateKey = some "AGE-SECRET-KEY-2" ∧
        ¬ Paired sampleKeyCodecs done.profile done.privateKey := by
  obtain ⟨s, hrun, hlast⟩ :
      ∃ s, LabelledRun.run (KeyStores.step sampleKeys fun _ => true) .installed
        (sampleRemovedEntry ++ sampleEditAfterRestart) = some s ∧
        ⟨buildProfileFromForm sampleProfileForm (some "age1"), some "AGE-SECRET-KEY-2"⟩ ∈
          s.ensured :=
    LabelledRun.exists_of_any (by decide)
  refine ⟨s, hrun, _, hlast, rfl, rfl, rfl, ?_⟩
  rintro ⟨key, publicKey, hkey, hpublic, hderived⟩
  cases hkey
  cases hpublic
  exact absurd hderived (by decide)

end Fulgur
