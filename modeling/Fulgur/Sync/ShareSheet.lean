import Fulgur.Library.Keyed
import Fulgur.Library.Run
import Fulgur.Sync.ShareLimits
import Mathlib.Logic.Function.Basic

/-! # The share sheet

The sheet lists the devices of every active profile as they arrive. What is
selected there is shared profile by profile and device by device, each in a
thread of its own, and one notification tells what became of it.
-/

namespace Fulgur

open LabelledRun

/-- What the sheet reads of a `ServerProfile`. -/
structure SharingProfile where
  id : String
  name : String
  serverUrl : Option String
deriving DecidableEq

inductive ProfileFetchState where
  | loading
  | loaded (devices : List Device)
  | failed (message : String)

/-- The open sheet, with the profiles whose fetch has not written its outcome. -/
structure ShareSheetState where
  profiles : List SharingProfile
  perProfile : String → Option ProfileFetchState
  /-- Pairs of a profile id and a device id, in the order of the clicks. -/
  selected : List (String × String)
  fetching : List String

inductive ShareSheetAction where
  | fetched (profileId : String) (answer : Except String (List Device))
  | clickDevice (profileId deviceId : String)

/-- The devices of an answer; a key that is malformed is taken for none. -/
def getDevices (codecs : ShareCodecs) (devices : List Device) : List Device :=
  devices.map fun device =>
    { device with publicKey := device.publicKey.filter codecs.isValidPublicKey }

namespace ShareSheetState

def opened (profiles : List SharingProfile) : ShareSheetState where
  profiles := profiles
  perProfile := fun id => if id ∈ profiles.map SharingProfile.id then some .loading else none
  selected := []
  fetching := profiles.map SharingProfile.id

/-- Whether the sheet shows a row for the device that can be clicked. -/
def offers (s : ShareSheetState) (profileId deviceId : String) : Bool :=
  s.profiles.any (fun profile => profile.id = profileId) &&
    match s.perProfile profileId with
    | some (.loaded devices) =>
        devices.any fun device => device.id = deviceId && device.publicKey.isSome
    | _ => false

def toggle (selected : List (String × String)) (key : String × String) : List (String × String) :=
  if key ∈ selected then selected.erase key else selected ++ [key]

def step (codecs : ShareCodecs) (s : ShareSheetState) : ShareSheetAction → Option ShareSheetState
  | .fetched profileId answer =>
      if profileId ∈ s.fetching then
        let fetched : ProfileFetchState :=
          match answer with
          | .ok devices => .loaded (getDevices codecs devices)
          | .error message => .failed message
        some { s with
          perProfile := Function.update s.perProfile profileId (some fetched)
          fetching := s.fetching.erase profileId }
      else none
  | .clickDevice profileId deviceId =>
      if s.offers profileId deviceId then
        some { s with selected := toggle s.selected (profileId, deviceId) }
      else none

end ShareSheetState

/-! ## Sharing what is selected -/

structure ProfileShareResources where
  profile : SharingProfile
  devices : List Device
  deviceIds : List String
  maxFileSizeBytes : Nat

inductive ShareFailure where
  | check (error : ShareError)
  | token (message : String)
  | compressionFailed
  | encryptionFailed
  | request (message : String)
deriving DecidableEq

/-- `Display` of the errors of a share. -/
def ShareFailure.toText : ShareFailure → String
  | .check .serverUrlMissing => "Server URL is missing"
  | .check .contentMissing => "Content is missing"
  | .check (.contentTooLarge fileSize maxSize) =>
      if fileSize = 0 ∧ maxSize = 0 then "File is too large to share (rejected by server)"
      else "File is too large to share (" ++ toString (fileSize / 1024) ++ " KB, max " ++
        toString (maxSize / 1024) ++ " KB)"
  | .check .fileNameMissing => "File name is missing"
  | .check .deviceIdsMissing => "Device IDs are missing"
  | .check (.other message) => message
  | .check (.missingPublicKey deviceName) => "Missing public key for device: " ++ deviceName
  | .check (.invalidPublicKey deviceName) => "Invalid public key for device: " ++ deviceName
  | .token message => message
  | .compressionFailed => "Compression failed"
  | .encryptionFailed => "Encryption failed"
  | .request message => message

/-- How the thread of a device ends, if it gets to encrypt and send. -/
inductive WorkerEnd where
  | panicked (payload : String)
  | encryptionFailed
  /-- The expiration date that the server answers with. -/
  | answered (result : Except String String)

/-- What happens while a profile is shared to. -/
structure ProfileWorld where
  token : Except String String
  compresses : Bool
  worker : String → WorkerEnd
  /-- The thread of the profile is lost. -/
  panicked : Bool

structure ShareResult where
  successes : List (String × String)
  failures : List (String × ShareFailure)
deriving DecidableEq

inductive ProfileShareOutcome where
  | completed (result : ShareResult)
  | aborted (error : ShareFailure)
deriving DecidableEq

inductive NotificationType where
  | success
  | warning
  | error
deriving DecidableEq

def shareToDevice (devices : List Device) (world : ProfileWorld) (deviceId : String) :
    String × Except ShareFailure String :=
  match world.worker deviceId, findDevice devices deviceId with
  | .panicked payload, _ =>
      ("", .error (.check (.other ("Share worker thread panicked: " ++ payload))))
  | _, none => (deviceId, .error (.check (.other ("Device " ++ deviceId ++ " not found"))))
  | ended, some device =>
      match device.publicKey, ended with
      | none, _ => (deviceId, .error (.check (.missingPublicKey device.name)))
      | some _, .answered result => (deviceId, result.mapError .request)
      | some _, _ => (deviceId, .error .encryptionFailed)

def success? (result : String × Except ShareFailure String) : Option (String × String) :=
  match result.2 with
  | .ok expirationDate => some (result.1, expirationDate)
  | .error _ => none

def failure? (result : String × Except ShareFailure String) : Option (String × ShareFailure) :=
  match result.2 with
  | .ok _ => none
  | .error error => some (result.1, error)

def shareToDevices (codecs : ShareCodecs) (serverUrl : Option String) (request : ShareFileRequest)
    (devices : List Device) (maxFileSizeBytes : Nat) (world : ProfileWorld) :
    Except ShareFailure ShareResult :=
  match requestError codecs serverUrl request devices maxFileSizeBytes with
  | some error => .error (.check error)
  | none =>
      match world.token with
      | .error message => .error (.token message)
      | .ok _ =>
          if world.compresses then
            let results := request.deviceIds.map (shareToDevice devices world)
            .ok ⟨results.filterMap success?, results.filterMap failure?⟩
          else .error .compressionFailed

namespace ShareResult

def total (result : ShareResult) : Nat := result.successes.length + result.failures.length

def profileScopedSummary (result : ShareResult) : String :=
  match result.successes, result.failures with
  | [], [] => "no devices selected"
  | (_, expiration) :: _, [] =>
      toString result.total ++ "/" ++ toString result.total ++ " succeeded until " ++ expiration
  | [], (_, error) :: _ => "0/" ++ toString result.total ++ " failed (" ++ error.toText ++ ")"
  | _ :: _, (_, error) :: _ =>
      toString result.successes.length ++ "/" ++ toString result.total ++ " succeeded, " ++
        toString result.failures.length ++ " failed (" ++ error.toText ++ ")"

end ShareResult

namespace ProfileShareOutcome

def summary : ProfileShareOutcome → String
  | .completed result => result.profileScopedSummary
  | .aborted error => "aborted (" ++ error.toText ++ ")"

def hasSuccess : ProfileShareOutcome → Bool
  | .completed result => !result.successes.isEmpty
  | .aborted _ => false

def hasFailure : ProfileShareOutcome → Bool
  | .completed result => !result.failures.isEmpty
  | .aborted _ => true

end ProfileShareOutcome

def formatMultiProfileSummary (outcomes : List (String × ProfileShareOutcome)) : String :=
  (if outcomes.any fun outcome => outcome.2.hasSuccess then "File shared:"
    else "Failed to share file:") ++
    String.join (outcomes.map fun outcome => "\n  " ++ outcome.1 ++ ": " ++ outcome.2.summary)

def aggregateNotificationType (outcomes : List (String × ProfileShareOutcome)) :
    NotificationType :=
  match outcomes.any (fun outcome => outcome.2.hasSuccess),
      outcomes.any (fun outcome => outcome.2.hasFailure) with
  | true, false => .success
  | true, true => .warning
  | false, _ => .error

namespace ShareSheetState

def buildProfileShareResources (s : ShareSheetState) (maxFileSizeBytes : String → Nat) :
    List ProfileShareResources :=
  s.profiles.filterMap fun profile =>
    let deviceIds := (s.selected.filter fun key => key.1 = profile.id).map Prod.snd
    if deviceIds = [] then none
    else
      match s.perProfile profile.id with
      | some (.loaded devices) => some ⟨profile, devices, deviceIds, maxFileSizeBytes profile.id⟩
      | _ => none

end ShareSheetState

/-- The text and the name that all profiles are sent. -/
structure ShareContext where
  content : String
  fileName : String

namespace ProfileShareResources

def request (bundle : ProfileShareResources) (context : ShareContext) : ShareFileRequest :=
  ⟨context.content, context.fileName, bundle.deviceIds⟩

/-- `execute_profile_share` in its thread. -/
def execute (bundle : ProfileShareResources) (codecs : ShareCodecs) (context : ShareContext)
    (world : ProfileWorld) : String × ProfileShareOutcome :=
  if world.panicked then ("(unknown)", .aborted (.check (.other "Internal issue")))
  else
    match shareToDevices codecs bundle.profile.serverUrl (bundle.request context) bundle.devices
      bundle.maxFileSizeBytes world with
    | .ok result => (bundle.profile.name, .completed result)
    | .error error => (bundle.profile.name, .aborted error)

end ProfileShareResources

def handleShareFile (codecs : ShareCodecs) (s : ShareSheetState) (context : ShareContext)
    (maxFileSizeBytes : String → Nat) (world : String → ProfileWorld) : NotificationType × String :=
  if s.selected = [] then (.warning, "Please select at least one device to share with.")
  else
    let bundles := s.buildProfileShareResources maxFileSizeBytes
    if bundles.isEmpty then
      (.warning,
        "No devices available to share with. Wait for the device list to load and try again.")
    else
      let outcomes := bundles.map fun bundle =>
        bundle.execute codecs context (world bundle.profile.id)
      (aggregateNotificationType outcomes, formatMultiProfileSummary outcomes)

end Fulgur
