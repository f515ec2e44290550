import Fulgur.Sync.ShareLimits

/-! # What one side sends the other accepts

The sender bounds the text alone. The receiver also bounds its compressed form
and how far that may expand, and, where the server has no limit, the response. A
text that stays within these is received as it was sent.
-/

namespace Fulgur

variable {codecs : ShareCodecs}

/-- Strings in memory are shorter than `isize::MAX`. -/
def InMemory (length : Nat) : Prop := length < 2 ^ 63

/--
What is left to the text under a limit: its compressed form fits, and the limit
itself leaves room for the header of the cipher. Without a limit the response is
bounded as a whole.
-/
def Fits (codecs : ShareCodecs) (serverMaxFileSize framing : Nat) (content payload : String) :
    Prop :=
  if serverMaxFileSize = U64_MAX then
    payload.utf8ByteSize + framing < MAX_HTTP_SINGLE_SHARE_RESPONSE_BYTES
  else
    (compressContent codecs content).length ≤ serverMaxFileSize ∧
      3 * (codecs.ageHeader + 32) ≤ serverMaxFileSize

/-- The text is small, or no more than so many times its compressed form. -/
def WithinRatio (codecs : ShareCodecs) (content : String) : Prop :=
  content.utf8ByteSize ≤ MIN_DECOMPRESSION_BUFFER_BYTES ∨
    content.utf8ByteSize ≤ (compressContent codecs content).length * MAX_COMPRESSION_RATIO

instance (codecs : ShareCodecs) (content : String) : Decidable (WithinRatio codecs content) :=
  inferInstanceAs (Decidable (_ ∨ _))

/-! ## The sender -/

/-- What was uploaded is the text, compressed and encrypted with the device's key. -/
theorem shareFile_ok {serverUrl : Option String} {request : ShareFileRequest}
    {devices : List Device}
    {maxFileSizeBytes : Nat} {randomness : String → Nat} {uploads : List (String × String)}
    (h : shareFile codecs serverUrl request devices maxFileSizeBytes randomness = .ok uploads) :
    (maxFileSizeBytes ≠ U64_MAX → request.content.utf8ByteSize ≤ maxFileSizeBytes) ∧
      ∀ deviceId payload, (deviceId, payload) ∈ uploads → ∃ publicKey,
        (findDevice devices deviceId).bind Device.publicKey = some publicKey ∧
          payload = encryptBytes codecs publicKey (randomness deviceId)
            (compressContent codecs request.content) := by
  unfold shareFile at h
  split at h
  · cases h
  · rename_i hnone
    cases h
    constructor
    · intro hlimit
      by_contra hlarge
      unfold requestError at hnone
      split at hnone
      · cases hnone
      · split at hnone
        · cases hnone
        · rw [if_pos ⟨hlimit, by omega⟩] at hnone
          cases hnone
    · intro deviceId payload hupload
      rcases List.mem_filterMap.mp hupload with ⟨id, _, hid⟩
      rcases Option.map_eq_some_iff.mp hid with ⟨publicKey, hkey, hpair⟩
      cases hpair
      exact ⟨publicKey, hkey, rfl⟩

/-! ## The receiver -/

/-- Of an accepted text the cap of decompression leaves the bound on the ratio. -/
theorem size_le_decompressedCap {serverMaxFileSize : Nat} {content : String}
    (hmemory : InMemory content.utf8ByteSize)
    (haccepted : serverMaxFileSize ≠ U64_MAX → content.utf8ByteSize ≤ serverMaxFileSize) :
    content.utf8ByteSize ≤
        decompressedCap (compressContent codecs content).length serverMaxFileSize ↔
      WithinRatio codecs content := by
  have hlimit : content.utf8ByteSize ≤ serverMaxFileSize := by
    by_cases hunlimited : serverMaxFileSize = U64_MAX
    · rw [hunlimited]
      unfold InMemory at hmemory
      unfold U64_MAX
      omega
    · exact haccepted hunlimited
  unfold WithinRatio decompressedCap clamp
  unfold InMemory at hmemory
  unfold U64_MAX
  omega

theorem decompressContent_compressContent {serverMaxFileSize : Nat} {content : String}
    (hmemory : InMemory content.utf8ByteSize)
    (haccepted : serverMaxFileSize ≠ U64_MAX → content.utf8ByteSize ≤ serverMaxFileSize)
    (hfits : serverMaxFileSize ≠ U64_MAX →
      (compressContent codecs content).length ≤ serverMaxFileSize) :
    decompressContent codecs (compressContent codecs content) serverMaxFileSize =
      if WithinRatio codecs content then .ok content
      else .error (.ratioBounded
        (decompressedCap (compressContent codecs content).length serverMaxFileSize)) := by
  have hcap : content.utf8ByteSize ≤
      decompressedCap (compressContent codecs content).length serverMaxFileSize ↔ _ :=
    size_le_decompressedCap hmemory haccepted
  have hgunzip : codecs.gunzip (compressContent codecs content) = some (asBytes content) :=
    codecs.gunzip_gzip _
  have hsmall : ¬(serverMaxFileSize ≠ U64_MAX ∧
      serverMaxFileSize < (compressContent codecs content).length) := by
    rintro ⟨hlimit, hlarge⟩
    exact absurd (hfits hlimit) (by omega)
  unfold decompressContent
  rw [if_neg hsmall]
  generalize decompressedCap (compressContent codecs content).length serverMaxFileSize = cap
    at hcap ⊢
  simp only [hgunzip]
  by_cases hratio : WithinRatio codecs content
  · have hwhole : (asBytes content).take (cap + 1) = asBytes content := by
      refine List.take_of_length_le ?_
      rw [length_asBytes]
      exact Nat.le_succ_of_le (hcap.mpr hratio)
    have hread : ¬cap < (asBytes content).length := Nat.not_lt.mpr (hcap.mpr hratio)
    rw [hwhole, if_neg hread, fromUtf8_asBytes, if_pos hratio]
  · have hlarge : cap < content.utf8ByteSize := Nat.not_le.mp fun hle => hratio (hcap.mp hle)
    have hread : cap < ((asBytes content).take (cap + 1)).length := by
      rw [List.length_take, length_asBytes]
      omega
    rw [if_pos hread, if_neg hratio]

/-- A payload that fits gets as far as decompression. -/
theorem receiveShare_encryptBytes {serverMaxFileSize framing : Nat} {content : String}
    {privateKey publicKey : String} {randomness : Nat}
    (hkey : codecs.toPublic privateKey = some publicKey)
    (hframing : framing < JSON_OVERHEAD_PER_SHARE_BYTES + SHARE_RESPONSE_FRAMING_BYTES)
    (hmemory : InMemory ((encryptBytes codecs publicKey randomness
      (compressContent codecs content)).utf8ByteSize + framing))
    (hfits : Fits codecs serverMaxFileSize framing content
      (encryptBytes codecs publicKey randomness (compressContent codecs content))) :
    receiveShare codecs privateKey serverMaxFileSize framing
        (encryptBytes codecs publicKey randomness (compressContent codecs content)) =
      match decompressContent codecs (compressContent codecs content) serverMaxFileSize with
      | .error error => .error (.decompress error)
      | .ok content => .ok content := by
  generalize hpayload : encryptBytes codecs publicKey randomness (compressContent codecs content) =
    payload at hmemory hfits ⊢
  have hdecrypt : decryptBytes codecs privateKey payload = some (compressContent codecs content) :=
    hpayload ▸ decryptBytes_encryptBytes randomness _ hkey
  have hpayloadSize : serverMaxFileSize ≠ U64_MAX →
      payload.utf8ByteSize ≤ serverMaxFileSize * 2 := by
    intro hlimit
    rw [Fits, if_neg hlimit] at hfits
    exact hpayload ▸ encryptBytes_fits publicKey randomness hfits.1 hfits.2
  unfold InMemory at hmemory
  have hexceeds : sharePayloadExceedsLimit payload.utf8ByteSize serverMaxFileSize = false := by
    unfold sharePayloadExceedsLimit
    by_cases hlimit : serverMaxFileSize = U64_MAX
    · simp [hlimit]
    · have hbound := hpayloadSize hlimit
      simp only [ne_eq, hlimit, not_false_eq_true, decide_true, Bool.true_and,
        decide_eq_false_iff_not]
      unfold U64_MAX
      omega
  have hbody : codecs.readsBody (maxHttpSingleShareResponseBytes serverMaxFileSize)
      (payload.utf8ByteSize + framing) = true := by
    refine codecs.readsBody_below _ _ ?_
    unfold maxHttpSingleShareResponseBytes
    split
    · rename_i hlimit
      rw [Fits, if_pos hlimit] at hfits
      exact hfits
    · rename_i hlimit
      have hbound := hpayloadSize hlimit
      unfold saturatingAdd U64_MAX
      omega
  have hfetched : fetchSingleShareInto codecs serverMaxFileSize framing payload = .ok payload := by
    simp only [fetchSingleShareInto, fetchShareById, hbody, if_true, hexceeds, Bool.false_eq_true,
      if_false]
  have hdecoded : receiveShare codecs privateKey serverMaxFileSize framing payload =
      decodeShare codecs privateKey serverMaxFileSize payload := by
    simp only [receiveShare, hfetched]
  rw [hdecoded, decodeShare, hexceeds, hdecrypt]
  cases hout : decompressContent codecs (compressContent codecs content) serverMaxFileSize with
  | error error => simp only [Bool.false_eq_true, if_false, hout]
  | ok received => simp only [Bool.false_eq_true, if_false, hout]

/--
A text that the sender accepted and that fits passes every check of the receiver
but the one of the compression ratio. It is received, as it was, exactly when it
passes that one too.
-/
theorem accepted_shares_received {serverUrl : Option String} {request : ShareFileRequest}
    {devices : List Device} {maxFileSizeBytes : Nat} {randomness : String → Nat}
    {uploads : List (String × String)}
    (haccepted : shareFile codecs serverUrl request devices maxFileSizeBytes randomness =
      .ok uploads)
    {deviceId payload : String} (hupload : (deviceId, payload) ∈ uploads) {privateKey : String}
    (hkey : (findDevice devices deviceId).bind Device.publicKey = codecs.toPublic privateKey)
    {framing : Nat}
    (hframing : framing < JSON_OVERHEAD_PER_SHARE_BYTES + SHARE_RESPONSE_FRAMING_BYTES)
    (hmemory : InMemory request.content.utf8ByteSize ∧ InMemory (payload.utf8ByteSize + framing))
    (hfits : Fits codecs maxFileSizeBytes framing request.content payload) :
    receiveShare codecs privateKey maxFileSizeBytes framing payload =
      if WithinRatio codecs request.content then .ok request.content
      else .error (.decompress (.ratioBounded (decompressedCap
        (compressContent codecs request.content).length maxFileSizeBytes))) := by
  rcases shareFile_ok haccepted with ⟨hsize, huploads⟩
  rcases huploads deviceId payload hupload with ⟨publicKey, hdevice, rfl⟩
  have hpublic : codecs.toPublic privateKey = some publicKey := hkey.symm.trans hdevice
  have hcompressed : maxFileSizeBytes ≠ U64_MAX →
      (compressContent codecs request.content).length ≤ maxFileSizeBytes := by
    intro hlimit
    rw [Fits, if_neg hlimit] at hfits
    exact hfits.1
  rw [receiveShare_encryptBytes hpublic hframing hmemory.2 hfits,
    decompressContent_compressContent hmemory.1 hsize hcompressed]
  by_cases hratio : WithinRatio codecs request.content
  · rw [if_pos hratio, if_pos hratio]
  · rw [if_neg hratio, if_neg hratio]

/-! ## A text of one letter -/

/-- The letter `a`, and its gzip stream. -/
def sampleNote : List UInt8 := [97]

def sampleNoteGzip : List UInt8 :=
  [31, 139, 8, 0, 0, 0, 0, 0, 0, 255, 75, 4, 0, 67, 190, 183, 232, 1, 0, 0, 0]

/-- A hundred thousand letters, and their gzip stream. -/
def sampleLetters : List UInt8 := List.replicate 100000 65

def sampleLettersGzip : List UInt8 :=
  [31, 139, 8, 0, 0, 0, 0, 0, 0, 255, 237, 193, 49, 1, 0, 0, 0, 194, 160, 108, 235, 95, 202, 26, 30,
    64, 1] ++ List.replicate 96 0 ++ [175, 6, 215, 159, 138, 5, 160, 134, 1, 0]

def sampleGzip (bytes : List UInt8) : List UInt8 :=
  if bytes = sampleNote then sampleNoteGzip
  else if bytes = sampleLetters then sampleLettersGzip
  else 0 :: bytes

def sampleGunzip (bytes : List UInt8) : Option (List UInt8) :=
  if bytes = sampleNoteGzip then some sampleNote
  else if bytes = sampleLettersGzip then some sampleLetters
  else match bytes with
    | 0 :: rest => some rest
    | _ => none

theorem sampleGunzip_sampleGzip (bytes : List UInt8) :
    sampleGunzip (sampleGzip bytes) = some bytes := by
  unfold sampleGzip
  split
  · rename_i hnote
    rw [hnote]
    exact if_pos rfl
  · split
    · rename_i hletters
      rw [hletters]
      exact (if_neg (by decide)).trans (if_pos rfl)
    · refine (if_neg ?_).trans (if_neg ?_)
      · intro hhead
        cases hhead
      · intro hhead
        cases hhead

theorem sampleGzip_length (bytes : List UInt8) :
    (sampleGzip bytes).length ≤ bytes.length + gzipOverhead bytes.length := by
  unfold sampleGzip gzipOverhead
  split
  · rename_i hnote
    rw [hnote]
    decide
  · split
    · rename_i hletters
      have hlength : sampleLettersGzip.length = 133 := by simp [sampleLettersGzip]
      rw [hletters, hlength, sampleLetters, List.length_replicate]
      omega
    · rw [List.length_cons]
      omega

def sampleAgeHeader : List UInt8 := asBytes "age-encryption.org/v1\n"

def sampleCodecs : ShareCodecs where
  gzip := sampleGzip
  gunzip := sampleGunzip
  gunzip_gzip := sampleGunzip_sampleGzip
  gzip_overhead := sampleGzip_length
  isValidPublicKey key := key = "age1"
  toPublic key := if key = "AGE-SECRET-KEY-1" then some "age1" else none
  encrypt _ _ bytes := sampleAgeHeader ++ bytes
  decrypt _ bytes :=
    if sampleAgeHeader <+: bytes then some (bytes.drop sampleAgeHeader.length) else none
  decrypt_encrypt _ _ _ bytes _ := by
    rw [if_pos (List.prefix_append _ _), List.drop_left]
  ageHeader := 22
  encrypt_overhead _ _ bytes := by
    have hlength : sampleAgeHeader.length = 22 := by decide
    rw [List.length_append, hlength]
    omega
  readsBody limit length := length < limit
  readsBody_below limit length h := by simpa using h
  readsBody_above limit length h := by simpa using Nat.le_of_lt h

def sampleDevices : List Device := [⟨"d", "laptop", some "age1"⟩]

def sampleRequest (content : String) : ShareFileRequest := ⟨content, "notes.txt", ["d"]⟩

def samplePayload (content : String) : String :=
  encryptBytes sampleCodecs "age1" 0 (compressContent sampleCodecs content)

theorem shareFile_sample {content : String} {maxFileSizeBytes : Nat} (hcontent : content ≠ "")
    (hsize : content.utf8ByteSize ≤ maxFileSizeBytes) :
    shareFile sampleCodecs (some "https://sync.test") (sampleRequest content) sampleDevices
      maxFileSizeBytes (fun _ => 0) = .ok [("d", samplePayload content)] := by
  have hnone : requestError sampleCodecs (some "https://sync.test") (sampleRequest content)
      sampleDevices maxFileSizeBytes = none := by
    have hlarge : ¬(maxFileSizeBytes ≠ U64_MAX ∧ maxFileSizeBytes < content.utf8ByteSize) :=
      fun h => absurd h.2 (Nat.not_lt.mpr hsize)
    have hname : "notes.txt" ≠ "" := by decide
    have hids : ["d"] ≠ [] := by decide
    have hdevices : ["d"].findSome? (deviceError sampleCodecs sampleDevices) = none := by decide
    exact (if_neg (by decide)).trans ((if_neg hcontent).trans ((if_neg hlarge).trans
      ((if_neg hname).trans ((if_neg hids).trans hdevices))))
  unfold shareFile
  rw [hnone]
  rfl

theorem accepted_shares_received_sample :
    receiveShare sampleCodecs "AGE-SECRET-KEY-1" 2000 100 (samplePayload "a") = .ok "a" := by
  have haccepted : shareFile sampleCodecs (some "https://sync.test") (sampleRequest "a")
      sampleDevices 2000 (fun _ => 0) = .ok [("d", samplePayload "a")] :=
    shareFile_sample (by decide) (by decide)
  refine (accepted_shares_received haccepted List.mem_cons_self rfl (by decide)
    ⟨by unfold InMemory; decide, by unfold InMemory; decide⟩ ?_).trans (if_pos ?_)
  · rw [Fits, if_neg (by decide)]
    decide
  · decide

/-! ## A text of many equal letters -/

def sampleLetterText (size : Nat) : String := String.ofList (List.replicate size 'A')

theorem asBytes_sampleLetterText (size : Nat) :
    asBytes (sampleLetterText size) = List.replicate size 65 := by
  induction size with
  | zero => rfl
  | succ size ih =>
      have hletter : asBytes (String.singleton 'A') = [65] := by decide
      have htext : sampleLetterText (size + 1) = String.singleton 'A' ++ sampleLetterText size :=
        String.ofList_cons
      rw [htext, asBytes_append, ih, hletter]
      rfl

theorem sampleLetterText_size (size : Nat) : (sampleLetterText size).utf8ByteSize = size := by
  rw [← length_asBytes, asBytes_sampleLetterText, List.length_replicate]

theorem compressContent_sampleCodecs (content : String) :
    compressContent sampleCodecs content = sampleGzip (asBytes content) := rfl

theorem compressContent_sampleLetterText :
    compressContent sampleCodecs (sampleLetterText 100000) = sampleLettersGzip := by
  have hletters : asBytes (sampleLetterText 100000) = sampleLetters := asBytes_sampleLetterText _
  have hnote : sampleLetters ≠ sampleNote := by
    intro hsame
    have hlength := congrArg List.length hsame
    rw [sampleLetters, List.length_replicate] at hlength
    cases hlength
  have hgzip : sampleGzip sampleLetters = sampleLettersGzip := by
    unfold sampleGzip
    rw [if_neg hnote, if_pos rfl]
  rw [compressContent_sampleCodecs, hletters, hgzip]

/--
Under a limit of a mebibyte the sender accepts a text that the receiver takes for a gzip
bomb.
-/
theorem sampleLetterText_refused :
    shareFile sampleCodecs (some "https://sync.test") (sampleRequest (sampleLetterText 100000))
        sampleDevices 1048576 (fun _ => 0) = .ok [("d", samplePayload (sampleLetterText 100000))] ∧
      receiveShare sampleCodecs "AGE-SECRET-KEY-1" 1048576 100
        (samplePayload (sampleLetterText 100000)) = .error (.decompress (.ratioBounded 68096)) := by
  have hsize : (sampleLetterText 100000).utf8ByteSize = 100000 := sampleLetterText_size _
  have hlength : sampleLettersGzip.length = 133 := by simp [sampleLettersGzip]
  have hmemory : InMemory (sampleLetterText 100000).utf8ByteSize := by
    unfold InMemory
    omega
  have hratio : ¬WithinRatio sampleCodecs (sampleLetterText 100000) := by
    rw [WithinRatio, compressContent_sampleLetterText, hlength, hsize]
    decide
  have hfits : Fits sampleCodecs 1048576 100 (sampleLetterText 100000)
      (samplePayload (sampleLetterText 100000)) := by
    rw [Fits, if_neg (by decide), compressContent_sampleLetterText, hlength]
    decide
  have hupload : InMemory ((samplePayload (sampleLetterText 100000)).utf8ByteSize + 100) := by
    have hbound : (samplePayload (sampleLetterText 100000)).utf8ByteSize ≤ 1048576 * 2 := by
      refine encryptBytes_fits "age1" 0 ?_ (by decide)
      rw [compressContent_sampleLetterText, hlength]
      decide
    unfold InMemory
    omega
  constructor
  · refine shareFile_sample ?_ (by rw [hsize]; decide)
    intro hempty
    rw [hempty] at hsize
    cases hsize
  · refine (receiveShare_encryptBytes rfl (by decide) hupload hfits).trans ?_
    rw [decompressContent_compressContent hmemory (fun _ => by rw [hsize]; decide) fun _ => by
      rw [compressContent_sampleLetterText, hlength]; decide, if_neg hratio,
      compressContent_sampleLetterText, hlength]
    rfl

theorem sampleShortText_refused :
    shareFile sampleCodecs (some "https://sync.test") (sampleRequest (sampleLetterText 20))
        sampleDevices 21 (fun _ => 0) = .ok [("d", samplePayload (sampleLetterText 20))] ∧
      receiveShare sampleCodecs "AGE-SECRET-KEY-1" 21 100 (samplePayload (sampleLetterText 20)) =
        .error .payloadTooLarge := by
  constructor
  · exact shareFile_sample (by decide) (by decide)
  · decide +kernel

theorem samplePayload_sampleLetterText {size : Nat} (hsize : 100000 < size) :
    (samplePayload (sampleLetterText size)).utf8ByteSize = 4 * ((size + 25) / 3) := by
  have hgzip :
    compressContent sampleCodecs (sampleLetterText size) = 0 :: List.replicate size 65 := by
    rw [compressContent_sampleCodecs, asBytes_sampleLetterText, sampleGzip, if_neg, if_neg]
    · intro hletters
      have hlength := congrArg List.length hletters
      rw [sampleLetters, List.length_replicate, List.length_replicate] at hlength
      omega
    · intro hnote
      have hlength := congrArg List.length hnote
      rw [sampleNote, List.length_replicate, List.length_singleton] at hlength
      omega
  have hheader : sampleAgeHeader.length = 22 := by decide
  have hencrypted : (sampleCodecs.encrypt "age1" 0 (0 :: List.replicate size 65)).length =
      size + 23 := by
    refine List.length_append.trans ?_
    rw [hheader, List.length_cons, List.length_replicate]
    omega
  rw [samplePayload, hgzip]
  refine (Base64.utf8ByteSize_encode _).trans ?_
  rw [hencrypted]

/-- Without a limit of the server the response is still bounded. -/
theorem sampleLongText_refused {size : Nat} (hlarge : 2097152 ≤ size) (hsize : size ≤ U64_MAX) :
    shareFile sampleCodecs (some "https://sync.test") (sampleRequest (sampleLetterText size))
        sampleDevices U64_MAX (fun _ => 0) = .ok [("d", samplePayload (sampleLetterText size))] ∧
      receiveShare sampleCodecs "AGE-SECRET-KEY-1" U64_MAX 100
        (samplePayload (sampleLetterText size)) = .error .bodyTooLarge := by
  have htext : (sampleLetterText size).utf8ByteSize = size := sampleLetterText_size size
  have hbody : sampleCodecs.readsBody (maxHttpSingleShareResponseBytes U64_MAX)
      ((samplePayload (sampleLetterText size)).utf8ByteSize + 100) = false := by
    have hlimit : maxHttpSingleShareResponseBytes U64_MAX = 2102272 := by decide
    refine sampleCodecs.readsBody_above _ _ ?_
    rw [samplePayload_sampleLetterText (by omega), hlimit]
    omega
  constructor
  · refine shareFile_sample (fun hempty => ?_) (by rw [htext]; exact hsize)
    have hzero : ("" : String).utf8ByteSize = size := hempty ▸ htext
    rw [String.utf8ByteSize_empty] at hzero
    omega
  · simp only [receiveShare, fetchSingleShareInto, fetchShareById, hbody, Bool.false_eq_true,
      if_false]

/--
The sender accepts texts that the receiver refuses: for their ratio, for the limit, for
their size.
-/
theorem repetitive_share_refused :
    (shareFile sampleCodecs (some "https://sync.test") (sampleRequest (sampleLetterText 100000))
          sampleDevices 1048576 (fun _ => 0) = .ok
            [("d", samplePayload (sampleLetterText 100000))] ∧
        receiveShare sampleCodecs "AGE-SECRET-KEY-1" 1048576 100
          (samplePayload (sampleLetterText 100000)) = .error (.decompress (.ratioBounded 68096))) ∧
      (shareFile sampleCodecs (some "https://sync.test") (sampleRequest (sampleLetterText 20))
          sampleDevices 21 (fun _ => 0) = .ok [("d", samplePayload (sampleLetterText 20))] ∧
        receiveShare sampleCodecs "AGE-SECRET-KEY-1" 21 100 (samplePayload (sampleLetterText 20)) =
          .error .payloadTooLarge) ∧
      shareFile sampleCodecs (some "https://sync.test") (sampleRequest (sampleLetterText 2097152))
          sampleDevices U64_MAX (fun _ => 0) =
        .ok [("d", samplePayload (sampleLetterText 2097152))] ∧
      receiveShare sampleCodecs "AGE-SECRET-KEY-1" U64_MAX 100
        (samplePayload (sampleLetterText 2097152)) = .error .bodyTooLarge :=
  ⟨sampleLetterText_refused, sampleShortText_refused,
    sampleLongText_refused (Nat.le_refl _) (by decide)⟩

end Fulgur
