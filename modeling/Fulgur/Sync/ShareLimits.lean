import Fulgur.Files.Encoding
import Fulgur.Library.Base64
import Fulgur.Sync.ShareDelivery

/-! # Size limits of a share, from sender to receiver

A text is checked against the server's limit, compressed, encrypted for a device
and sent as base64. The receiver bounds the response, the payload, the compressed
bytes and what they decompress to. The compressor, the cipher and the reader of
response bodies are parameters, with what is documented of them.
-/

namespace Fulgur

/-- What gzip adds at most to bytes it cannot compress. -/
def gzipOverhead (length : Nat) : Nat := 18 + 5 * (length / 16384 + 1)

structure ShareCodecs where
  gzip : List UInt8 → List UInt8
  gunzip : List UInt8 → Option (List UInt8)
  gunzip_gzip : ∀ bytes, gunzip (gzip bytes) = some bytes
  gzip_overhead : ∀ bytes, (gzip bytes).length ≤ bytes.length + gzipOverhead bytes.length
  isValidPublicKey : String → Bool
  /-- The public key that goes with a private key. -/
  toPublic : String → Option String
  /-- Encryption draws on randomness. -/
  encrypt : String → Nat → List UInt8 → List UInt8
  decrypt : String → List UInt8 → Option (List UInt8)
  decrypt_encrypt : ∀ privateKey publicKey randomness bytes, toPublic privateKey = some publicKey →
    decrypt privateKey (encrypt publicKey randomness bytes) = some bytes
  ageHeader : Nat
  encrypt_overhead : ∀ publicKey randomness bytes, (encrypt publicKey randomness bytes).length ≤
    bytes.length + ageHeader + 16 * (bytes.length / 65536 + 1)
  /-- Whether a response body is read under a limit; at the limit itself nothing is known. -/
  readsBody : (limit length : Nat) → Bool
  readsBody_below : ∀ limit length, length < limit → readsBody limit length = true
  readsBody_above : ∀ limit length, limit < length → readsBody limit length = false

/-! ## Compression -/

def MAX_COMPRESSION_RATIO : Nat := 512

def MIN_DECOMPRESSION_BUFFER_BYTES : Nat := 64 * 1024

def compressContent (codecs : ShareCodecs) (content : String) : List UInt8 :=
  codecs.gzip (asBytes content)

inductive DecompressError where
  | compressedTooLarge (compressedLen maxSize : Nat)
  | notGzip
  | ratioBounded (decompressedCap : Nat)
  | notUtf8
deriving DecidableEq

/-- `Ord::clamp`. -/
def clamp (value low high : Nat) : Nat := max low (min value high)

/-- The most that a compressed payload may decompress to. -/
def decompressedCap (compressedLen maxSize : Nat) : Nat :=
  clamp (min (compressedLen * MAX_COMPRESSION_RATIO) U64_MAX)
    (min MIN_DECOMPRESSION_BUFFER_BYTES maxSize) maxSize

def decompressContent (codecs : ShareCodecs) (compressed : List UInt8) (maxSize : Nat) :
    Except DecompressError String :=
  if maxSize ≠ U64_MAX ∧ maxSize < compressed.length then
    .error (.compressedTooLarge compressed.length maxSize)
  else
    let cap := decompressedCap compressed.length maxSize
    match codecs.gunzip compressed with
    | none => .error .notGzip
    | some decompressed =>
        -- one byte more than the cap is read, to see whether there is more
        let read := decompressed.take (cap + 1)
        if cap < read.length then .error (.ratioBounded cap)
        else match fromUtf8 read with
          | none => .error .notUtf8
          | some content => .ok content

/-! ## Encryption -/

def encryptBytes (codecs : ShareCodecs) (publicKey : String) (randomness : Nat)
    (bytes : List UInt8) : String :=
  String.ofList (Base64.encode (codecs.encrypt publicKey randomness bytes))

def decryptBytes (codecs : ShareCodecs) (privateKey encrypted : String) : Option (List UInt8) :=
  (Base64.decode encrypted.toList).bind (codecs.decrypt privateKey)

/-! ## The sender -/

structure Device where
  id : String
  name : String
  publicKey : Option String

structure ShareFileRequest where
  content : String
  fileName : String
  deviceIds : List String

inductive ShareError where
  | serverUrlMissing
  | contentMissing
  | contentTooLarge (fileSize maxSize : Nat)
  | fileNameMissing
  | deviceIdsMissing
  | other (message : String)
  | missingPublicKey (deviceName : String)
  | invalidPublicKey (deviceName : String)
deriving DecidableEq

def findDevice (devices : List Device) (deviceId : String) : Option Device :=
  devices.find? fun device => device.id = deviceId

def deviceError (codecs : ShareCodecs) (devices : List Device) (deviceId : String) :
    Option ShareError :=
  match findDevice devices deviceId with
  | none => some (.other ("Device " ++ deviceId ++ " not found"))
  | some device =>
      match device.publicKey with
      | none => some (.missingPublicKey device.name)
      | some key =>
          if codecs.isValidPublicKey key then none else some (.invalidPublicKey device.name)

/-- The first check that fails before anything is compressed. -/
def requestError (codecs : ShareCodecs) (serverUrl : Option String) (request : ShareFileRequest)
    (devices : List Device) (maxFileSizeBytes : Nat) : Option ShareError :=
  if serverUrl = none then some .serverUrlMissing
  else if request.content = "" then some .contentMissing
  else if maxFileSizeBytes ≠ U64_MAX ∧ maxFileSizeBytes < request.content.utf8ByteSize then
    some (.contentTooLarge request.content.utf8ByteSize maxFileSizeBytes)
  else if request.fileName = "" then some .fileNameMissing
  else if request.deviceIds = [] then some .deviceIdsMissing
  else request.deviceIds.findSome? (deviceError codecs devices)

/-- The payloads uploaded, each with the device it is for. -/
def shareFile (codecs : ShareCodecs) (serverUrl : Option String) (request : ShareFileRequest)
    (devices : List Device) (maxFileSizeBytes : Nat) (randomness : String → Nat) :
    Except ShareError (List (String × String)) :=
  match requestError codecs serverUrl request devices maxFileSizeBytes with
  | some error => .error error
  | none =>
      let compressed := compressContent codecs request.content
      .ok (request.deviceIds.filterMap fun deviceId =>
        ((findDevice devices deviceId).bind Device.publicKey).map fun publicKey =>
          (deviceId, encryptBytes codecs publicKey (randomness deviceId) compressed))

/-! ## The receiver -/

def JSON_OVERHEAD_PER_SHARE_BYTES : Nat := 1024

def SHARE_RESPONSE_FRAMING_BYTES : Nat := 4 * 1024

def MAX_HTTP_SINGLE_SHARE_RESPONSE_BYTES : Nat :=
  MAX_SYNC_SHARE_PAYLOAD_BYTES * 2 + JSON_OVERHEAD_PER_SHARE_BYTES + SHARE_RESPONSE_FRAMING_BYTES

/-- Addition that stops at the largest number of 64 bits. -/
def saturatingAdd (a b : Nat) : Nat := min (a + b) U64_MAX

def maxHttpSingleShareResponseBytes (serverMaxFileSize : Nat) : Nat :=
  if serverMaxFileSize = U64_MAX then MAX_HTTP_SINGLE_SHARE_RESPONSE_BYTES
  else
    saturatingAdd
      (saturatingAdd (min (serverMaxFileSize * 2) U64_MAX) JSON_OVERHEAD_PER_SHARE_BYTES)
      SHARE_RESPONSE_FRAMING_BYTES

inductive ReceiveError where
  | bodyTooLarge
  | payloadTooLarge
  | undecipherable
  | decompress (error : DecompressError)
deriving DecidableEq

/-- Fetch one share; `framing` is what the response has around the payload. -/
def fetchShareById (codecs : ShareCodecs) (serverMaxFileSize framing : Nat) (payload : String) :
    Except ReceiveError String :=
  if codecs.readsBody (maxHttpSingleShareResponseBytes serverMaxFileSize)
      (payload.utf8ByteSize + framing) then .ok payload
  else .error .bodyTooLarge

def fetchSingleShareInto (codecs : ShareCodecs) (serverMaxFileSize framing : Nat)
    (payload : String) : Except ReceiveError String :=
  match fetchShareById codecs serverMaxFileSize framing payload with
  | .error error => .error error
  | .ok content =>
      if sharePayloadExceedsLimit content.utf8ByteSize serverMaxFileSize then
        .error .payloadTooLarge
      else .ok content

/-- What a decryption pass makes of a share. -/
def decodeShare (codecs : ShareCodecs) (privateKey : String) (serverMaxFileSize : Nat)
    (payload : String) : Except ReceiveError String :=
  if sharePayloadExceedsLimit payload.utf8ByteSize serverMaxFileSize then .error .payloadTooLarge
  else match decryptBytes codecs privateKey payload with
    | none => .error .undecipherable
    | some compressed =>
        match decompressContent codecs compressed serverMaxFileSize with
        | .error error => .error (.decompress error)
        | .ok content => .ok content

def receiveShare (codecs : ShareCodecs) (privateKey : String) (serverMaxFileSize framing : Nat)
    (payload : String) : Except ReceiveError String :=
  match fetchSingleShareInto codecs serverMaxFileSize framing payload with
  | .error error => .error error
  | .ok content => decodeShare codecs privateKey serverMaxFileSize content

/-! ## What the checks come to -/

variable {codecs : ShareCodecs}

theorem decryptBytes_encryptBytes {privateKey publicKey : String} (randomness : Nat)
    (bytes : List UInt8) (hkey : codecs.toPublic privateKey = some publicKey) :
    decryptBytes codecs privateKey (encryptBytes codecs publicKey randomness bytes) =
      some bytes := by
  unfold decryptBytes encryptBytes
  rw [String.toList_ofList, Base64.decode_encode]
  exact codecs.decrypt_encrypt privateKey publicKey randomness bytes hkey

theorem length_asBytes (text : String) : (asBytes text).length = text.utf8ByteSize := rfl

theorem encryptBytes_size (publicKey : String) (randomness : Nat) (bytes : List UInt8) :
    3 * (encryptBytes codecs publicKey randomness bytes).utf8ByteSize ≤
      4 * (bytes.length + codecs.ageHeader + 16 * (bytes.length / 65536 + 1) + 2) := by
  have hlength := codecs.encrypt_overhead publicKey randomness bytes
  have hsize : (encryptBytes codecs publicKey randomness bytes).utf8ByteSize =
      4 * (((codecs.encrypt publicKey randomness bytes).length + 2) / 3) :=
    Base64.utf8ByteSize_encode _
  omega

theorem encryptBytes_fits {serverMaxFileSize : Nat} (publicKey : String) (randomness : Nat)
    {bytes : List UInt8} (hfits : bytes.length ≤ serverMaxFileSize)
    (hlimit : 3 * (codecs.ageHeader + 32) ≤ serverMaxFileSize) :
    (encryptBytes codecs publicKey randomness bytes).utf8ByteSize ≤ serverMaxFileSize * 2 := by
  have hsize : 3 * (encryptBytes codecs publicKey randomness bytes).utf8ByteSize ≤ _ :=
    encryptBytes_size publicKey randomness bytes
  omega

end Fulgur
