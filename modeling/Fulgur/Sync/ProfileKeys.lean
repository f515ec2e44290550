import Fulgur.Library.Keyed
import Fulgur.Library.Run
import Fulgur.Settings.Persistence
import Fulgur.Sync.ShareLimits

/-! # The key pairs of the profiles

The private half of a profile's key pair is kept in the keychain under the
profile's id, the public half in the settings. A step reaches at most once for
either store: the process may stop between any two steps, and the keychain entry
of a profile may be removed from outside.
-/

namespace Fulgur

/-! ## One profile -/

/-- How private keys are generated; each one has a public half. -/
structure KeyGeneration (codecs : ShareCodecs) where
  generate : (randomness : Nat) → String
  toPublic_generate : ∀ randomness, (codecs.toPublic (generate randomness)).isSome

/-- The private keys, by the ids of their profiles. -/
abbrev Keychain := String → Option String

inductive KeypairError where
  | unreadable
  | unparsable
  | unstorable
deriving DecidableEq

/-- What the keychain and the generator answer while a key pair is ensured. -/
structure KeyAttempt where
  readable : Bool
  storable : Bool
  randomness : Nat
deriving DecidableEq

structure EnsuredKeypair where
  /-- Whether the settings have to be saved. -/
  updated : Bool
  profile : ServerProfile
  keychain : Keychain

variable {codecs : ShareCodecs}

def ensureProfileKeypair (keys : KeyGeneration codecs) (keychain : Keychain) (attempt : KeyAttempt)
    (profile : ServerProfile) : Except KeypairError EnsuredKeypair :=
  if !attempt.readable then .error .unreadable
  else match keychain profile.id with
    | some privateKey =>
        -- A public key that is already there is not compared with the private one.
        if profile.publicKey.isSome then .ok ⟨false, profile, keychain⟩
        else match codecs.toPublic privateKey with
          | none => .error .unparsable
          | some publicKey => .ok ⟨true, { profile with publicKey := some publicKey }, keychain⟩
    | none =>
        if !attempt.storable then .error .unstorable
        else
          let privateKey := keys.generate attempt.randomness
          .ok ⟨true, { profile with publicKey := codecs.toPublic privateKey },
            Function.update keychain profile.id (some privateKey)⟩

inductive BeginError where
  | serverUrlMissing
  | missingEncryptionKey
deriving DecidableEq

def beginPublicKey (profile : ServerProfile) : Except BeginError String :=
  match profile.serverUrl, profile.publicKey with
  | none, _ => .error .serverUrlMissing
  | some _, none => .error .missingEncryptionKey
  | some _, some publicKey => .ok publicKey

/-! ## The settings -/

namespace SynchronizationSettings

def findProfile (settings : SynchronizationSettings) (profileId : String) : Option ServerProfile :=
  settings.profiles.find? fun profile => profile.id = profileId

def setProfile (settings : SynchronizationSettings) (profile : ServerProfile) :
    SynchronizationSettings :=
  { settings with profiles := Keyed.replaceFirst ServerProfile.id profile settings.profiles }

def pushProfile (settings : SynchronizationSettings) (profile : ServerProfile) :
    SynchronizationSettings :=
  { settings with profiles := settings.profiles ++ [profile] }

def removeProfile (settings : SynchronizationSettings) (profileId : String) :
    SynchronizationSettings :=
  { settings with profiles := Keyed.dropKey ServerProfile.id profileId settings.profiles }

def activeIds (settings : SynchronizationSettings) : List String :=
  (settings.profiles.filter (·.isActive)).map (·.id)

def load (parsesUrl : String → Bool) (settings : SynchronizationSettings) :
    SynchronizationSettings :=
  { settings with
    profiles := (settings.profiles.take MAX_PROFILES).map (ServerProfile.validate parsesUrl) }

end SynchronizationSettings

/-- The fields of the profile sheet. -/
structure ProfileForm where
  profileId : String
  name : String
  isActive : Bool
  serverUrl : Option String
  email : Option String
  isDeduplication : Bool
deriving DecidableEq

def buildProfileFromForm (form : ProfileForm) (existingPublicKey : Option String) :
    ServerProfile where
  id := form.profileId
  name := form.name
  isActive := form.isActive
  serverUrl := form.serverUrl
  email := form.email
  publicKey := existingPublicKey
  isDeduplication := form.isDeduplication

/-- The changes that are made to a profile: the sheet's, and the switch of its table row. -/
inductive ProfileEdit where
  | sheet (form : ProfileForm)
  | active (value : Bool)
deriving DecidableEq

def ProfileEdit.mutate (profile : ServerProfile) : ProfileEdit → ServerProfile
  | .sheet form =>
      { profile with
        name := form.name, isActive := form.isActive, serverUrl := form.serverUrl,
        email := form.email, isDeduplication := form.isDeduplication }
  | .active value => { profile with isActive := value }

/-! ## The process and the two stores -/

/-- How a write of the settings file ends; one that fails may have replaced the file. -/
inductive SettingsWrite where
  | written
  | failed (replaced : Bool)
deriving DecidableEq

def SettingsWrite.lands : SettingsWrite → Bool
  | .written => true
  | .failed replaced => replaced

/-- How far an operation has come. -/
inductive KeyStage where
  /-- `check_private_public_keys` has yet to look at these profiles. -/
  | checking (profileIds : List String) (settingsChanged : Bool)
  /-- The changed settings are to be saved and propagated. -/
  | propagating
deriving DecidableEq

inductive KeyProcess where
  | down
  | starting (settings : SynchronizationSettings) (profileIds : List String)
      (settingsChanged : Bool)
  /-- The shared settings, those of each window, and the window with an operation under way. -/
  | running (shared : SynchronizationSettings) (windows : List SynchronizationSettings)
      (work : Option (Nat × KeyStage))
deriving DecidableEq

/-- A profile for which a key pair was ensured, and its private key at that moment. -/
structure EnsuredKey where
  profile : ServerProfile
  privateKey : Option String
deriving DecidableEq

structure KeyStores where
  keychain : Keychain
  settingsFile : SynchronizationSettings
  process : KeyProcess
  /-- Every key pair that was ensured for an active profile. -/
  ensured : List EnsuredKey

inductive KeyAction where
  | start (readable : Bool)
  | checkKey (attempt : KeyAttempt)
  | finishCheck (write : SettingsWrite)
  | openWindow
  | closeWindow (window : Nat)
  /-- A window changes another setting. -/
  | changeSetting (window : Nat)
  | masterToggle (window : Nat) (value : Bool)
  | addProfile (window : Nat) (form : ProfileForm) (attempt : KeyAttempt)
  | updateProfile (window : Nat) (profileId : String) (edit : ProfileEdit) (attempt : KeyAttempt)
  | deleteProfile (window : Nat) (profileId : String) (removed : Bool)
  | propagate (write : SettingsWrite)
  /-- A window saves its settings without publishing them (a recent file). -/
  | save (window : Nat) (write : SettingsWrite)
  /-- The windows take over the shared settings (another change of the shared state). -/
  | republish
  | removeEntry (profileId : String)
  | stop
deriving DecidableEq

namespace KeyStores

def installed : KeyStores := ⟨fun _ => none, .new, .down, []⟩

/-- What `ensure_profile_keypair` leaves behind when it returns `Ok`. -/
def record (s : KeyStores) (done : EnsuredKeypair) : KeyStores :=
  { s with
    keychain := done.keychain
    ensured := if done.profile.isActive then
      s.ensured ++ [⟨done.profile, done.keychain done.profile.id⟩] else s.ensured }

def write (s : KeyStores) (result : SettingsWrite) (settings : SynchronizationSettings) :
    KeyStores :=
  if result.lands then { s with settingsFile := settings } else s

def ensureListed (keys : KeyGeneration codecs) (s : KeyStores) (attempt : KeyAttempt)
    (settings : SynchronizationSettings) (profileId : String) :
    Except KeypairError Bool × SynchronizationSettings × KeyStores :=
  match settings.findProfile profileId with
  | none => (.ok false, settings, s)
  | some profile =>
      match ensureProfileKeypair keys s.keychain attempt profile with
      | .error error => (.error error, settings, s)
      | .ok done => (.ok done.updated, settings.setProfile done.profile, s.record done)

/-- The settings are loaded; their keys are checked if synchronization is activated. -/
def start (parsesUrl : String → Bool) (s : KeyStores) (readable : Bool) : Option KeyStores :=
  match s.process with
  | .down =>
      let settings := if readable then s.settingsFile.load parsesUrl else .new
      some { s with
        process := if settings.isSynchronizationActivated then
          .starting settings settings.activeIds false else .running settings [] none }
  | _ => none

/-- A turn of the loop of `check_private_public_keys`; the first error ends the check. -/
def checkKey (keys : KeyGeneration codecs) (s : KeyStores) (attempt : KeyAttempt) :
    Option KeyStores :=
  match s.process with
  | .starting settings (profileId :: rest) changed =>
      match s.ensureListed keys attempt settings profileId with
      | (.ok updated, settings, s) =>
          some { s with process := .starting settings rest (changed || updated) }
      | (.error _, settings, s) =>
          some { s with
            process := .running { settings with isSynchronizationActivated := false } [] none }
  | .running shared windows (some (window, .checking (profileId :: rest) changed)) =>
      match windows[window]? with
      | none => none
      | some settings =>
          match s.ensureListed keys attempt settings profileId with
          | (.ok updated, settings, s) =>
              some { s with
                process := .running shared (windows.set window settings)
                  (some (window, .checking rest (changed || updated))) }
          | (.error _, settings, s) =>
              some { s with
                process := .running shared (windows.set window settings)
                  (some (window, .propagating)) }
  | _ => none

def finishCheck (s : KeyStores) (result : SettingsWrite) : Option KeyStores :=
  match s.process with
  | .starting settings [] false => some { s with process := .running settings [] none }
  | .starting settings [] true =>
      let loaded := if result = .written then settings
        else { settings with isSynchronizationActivated := false }
      some { s.write result settings with process := .running loaded [] none }
  | .running shared windows (some (window, .checking [] changed)) =>
      match windows[window]? with
      | none => none
      | some settings =>
          let s := if changed then s.write result settings else s
          some { s with process := .running shared windows (some (window, .propagating)) }
  | _ => none

/-- The settings of a window while no operation is under way. -/
def idle (s : KeyStores) (window : Nat) :
    Option (SynchronizationSettings × List SynchronizationSettings × SynchronizationSettings) :=
  match s.process with
  | .running shared windows none => windows[window]?.map fun settings => (shared, windows, settings)
  | _ => none

def changeSetting (s : KeyStores) (window : Nat) : Option KeyStores :=
  (s.idle window).map fun (shared, windows, _) =>
    { s with process := .running shared windows (some (window, .propagating)) }

def masterToggle (s : KeyStores) (window : Nat) (value : Bool) : Option KeyStores :=
  (s.idle window).map fun (shared, windows, settings) =>
    let settings := { settings with isSynchronizationActivated := value }
    let stage := if value then .checking settings.activeIds false else .propagating
    { s with process := .running shared (windows.set window settings) (some (window, stage)) }

/-- The profile is not in the list yet when its key pair is ensured; errors are logged only. -/
def addProfile (keys : KeyGeneration codecs) (s : KeyStores) (window : Nat) (form : ProfileForm)
    (attempt : KeyAttempt) : Option KeyStores :=
  (s.idle window).map fun (shared, windows, settings) =>
    let existingPublicKey := (settings.findProfile form.profileId).bind (·.publicKey)
    let profile := buildProfileFromForm form existingPublicKey
    let (profile, s) :=
      if profile.isActive then
        match ensureProfileKeypair keys s.keychain attempt profile with
        | .ok done => (done.profile, s.record done)
        | .error _ => (profile, s)
      else (profile, s)
    { s with
      process := .running shared (windows.set window (settings.pushProfile profile))
        (some (window, .propagating)) }

def updateProfile (keys : KeyGeneration codecs) (s : KeyStores) (window : Nat) (profileId : String)
    (edit : ProfileEdit) (attempt : KeyAttempt) : Option KeyStores :=
  (s.idle window).map fun (shared, windows, settings) =>
    match settings.findProfile profileId with
    | none => s
    | some profile =>
        let profile := edit.mutate profile
        let settings := settings.setProfile profile
        let (settings, s) :=
          if profile.isActive then (s.ensureListed keys attempt settings profileId).2
          else (settings, s)
        { s with
          process := .running shared (windows.set window settings) (some (window, .propagating)) }

/-- The entry is removed from the keychain first; a failure to do so is ignored. -/
def deleteProfile (s : KeyStores) (window : Nat) (profileId : String) (removed : Bool) :
    Option KeyStores :=
  (s.idle window).map fun (shared, windows, settings) =>
    match settings.findProfile profileId with
    | none => s
    | some _ =>
        { s with
          keychain := if removed then Function.update s.keychain profileId none else s.keychain
          process := .running shared (windows.set window (settings.removeProfile profileId))
            (some (window, .propagating)) }

/-- `update_and_propagate_settings`: settings that could not be saved are not published. -/
def propagate (s : KeyStores) (result : SettingsWrite) : Option KeyStores :=
  match s.process with
  | .running shared windows (some (window, .propagating)) =>
      match windows[window]? with
      | none => none
      | some settings =>
          some { s.write result settings with
            process := if result = .written
              then .running settings (windows.map fun _ => settings) none
              else .running shared windows none }
  | _ => none

def save (s : KeyStores) (window : Nat) (result : SettingsWrite) : Option KeyStores :=
  (s.idle window).map fun (_, _, settings) => s.write result settings

/-- What happens to the windows apart from their operations. -/
def changeWindows (s : KeyStores)
    (change : SynchronizationSettings → List SynchronizationSettings →
      List SynchronizationSettings) :
    Option KeyStores :=
  match s.process with
  | .running shared windows none =>
      some { s with process := .running shared (change shared windows) none }
  | _ => none

def stop (s : KeyStores) : Option KeyStores :=
  if s.process = .down then none else some { s with process := .down }

def step (keys : KeyGeneration codecs) (parsesUrl : String → Bool) (s : KeyStores) :
    KeyAction → Option KeyStores
  | .start readable => s.start parsesUrl readable
  | .checkKey attempt => s.checkKey keys attempt
  | .finishCheck result => s.finishCheck result
  | .openWindow => s.changeWindows fun shared windows => windows ++ [shared]
  | .closeWindow window => s.changeWindows fun _ windows => windows.eraseIdx window
  | .changeSetting window => s.changeSetting window
  | .masterToggle window value => s.masterToggle window value
  | .addProfile window form attempt => s.addProfile keys window form attempt
  | .updateProfile window profileId edit attempt =>
      s.updateProfile keys window profileId edit attempt
  | .deleteProfile window profileId removed => s.deleteProfile window profileId removed
  | .propagate result => s.propagate result
  | .save window result => s.save window result
  | .republish => s.changeWindows fun shared windows => windows.map fun _ => shared
  | .removeEntry profileId =>
      some { s with keychain := Function.update s.keychain profileId none }
  | .stop => s.stop

end KeyStores

end Fulgur
