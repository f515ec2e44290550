import Fulgur.Files.Encoding
import Fulgur.Sync.ShareDelivery
import Fulgur.Tabs.Transfer

/-! # Reading server-sent events

The connection of a profile reads its stream byte by byte into lines. The loop
over the lines keeps the event type and the data that it has come across, and
emits an event at an empty line if there is data.
-/

namespace Fulgur

/-! ## Lines -/

/-- Maximum size for the accumulated data of an event, and for a line. -/
def MAX_SSE_EVENT_DATA_BYTES : Nat := MAX_SYNC_SHARE_PAYLOAD_BYTES * 10

/-- For how long no byte may arrive, in milliseconds. -/
def SSE_READ_DEADLINE : Nat := 60 * 1000

/-- What the reader comes to with one look at the stream; at the end of the list the stream ends. -/
inductive ReadOutcome where
  | byte (value : UInt8)
  /-- Nothing to read yet; the time since a byte of this line or its start. -/
  | timedOut (elapsed : Nat)
  | failed (message : String)
  | shutdown
deriving DecidableEq

inductive LineRead where
  | line (text : String)
  | endOfStream
  | shutdown
  | failed (message : String)
deriving DecidableEq

def LF : UInt8 := 10

def CR : UInt8 := 13

def popCarriageReturn (line : List UInt8) : List UInt8 :=
  if line.getLast? = some CR then line.dropLast else line

def lineLimitMessage : String :=
  "SSE line exceeds size limit (10485760 bytes), connection presumed malicious"

def readDeadlineMessage : String := "no data received within 60s, connection presumed dead"

def readLineWithTimeout (line : List UInt8) : List ReadOutcome → LineRead × List ReadOutcome
  | [] => (if line = [] then .endOfStream else .line (fromUtf8Lossy line), [])
  | .shutdown :: rest => (.shutdown, rest)
  | .failed message :: rest => (.failed message, rest)
  | .timedOut elapsed :: rest =>
      if SSE_READ_DEADLINE < elapsed then (.failed readDeadlineMessage, rest)
      else readLineWithTimeout line rest
  | .byte value :: rest =>
      if value = LF then (.line (fromUtf8Lossy (popCarriageReturn line)), rest)
      else if MAX_SSE_EVENT_DATA_BYTES ≤ line.length then (.failed lineLimitMessage, rest)
      else readLineWithTimeout (line ++ [value]) rest

/-! ## Events -/

inductive SseEvent where
  | heartbeat (timestamp : String)
  | shareAvailable (shareId : String)
  | pendingSharesSnapshot
  | error (message : String)
deriving DecidableEq

/-- `serde_json::from_str` for the two payloads: the field they have, or the error. -/
structure SsePayloads where
  heartbeat : String → Except String String
  shareNotification : String → Except String String

namespace SseEvent

def parse (payloads : SsePayloads) (eventType data : String) : SseEvent :=
  if eventType = "heartbeat" then
    match payloads.heartbeat data with
    | .ok timestamp => .heartbeat timestamp
    | .error _ => .heartbeat ""
  else if eventType = "share_available" then
    match payloads.shareNotification data with
    | .ok shareId => .shareAvailable shareId
    | .error reason => .error ("Invalid share notification: " ++ reason)
  else if eventType = "pending_shares" then .pendingSharesSnapshot
  else if eventType = "" then .error "Unknown event with no event type"
  else .error ("Unknown event type: " ++ eventType)

end SseEvent

/-! ## The loop -/

/-- `str::starts_with`. -/
def startsWith (text pattern : String) : Bool := pattern.toList.isPrefixOf text.toList

/-- `str::trim_start_matches`; the fuel bounds how often the pattern occurs. -/
def trimStartMatchesAux (pattern : List Char) : Nat → List Char → List Char
  | 0, text => text
  | fuel + 1, text =>
      if pattern.isPrefixOf text then trimStartMatchesAux pattern fuel (text.drop pattern.length)
      else text

def trimStartMatches (text pattern : String) : String :=
  String.ofList (trimStartMatchesAux pattern.toList text.length text.toList)

/-- What the loop carries from line to line. -/
structure SseLoop where
  currentEventType : String
  currentData : String
deriving DecidableEq

namespace SseLoop

def start : SseLoop := ⟨"", ""⟩

/-- One line; an event is emitted at an empty line if there is data. -/
def handleLine (payloads : SsePayloads) (loop : SseLoop) (line : String) :
    SseLoop × Option SseEvent :=
  if startsWith line "event:" then
    ({ loop with currentEventType := trim (trimStartMatches line "event:") }, none)
  else if startsWith line "data:" then
    let fragment := trim (trimStartMatches line "data:")
    if MAX_SSE_EVENT_DATA_BYTES < loop.currentData.utf8ByteSize + fragment.utf8ByteSize then
      (.start, none)
    else ({ loop with currentData := loop.currentData ++ fragment }, none)
  else if line = "" ∧ loop.currentData ≠ "" then
    (.start, some (SseEvent.parse payloads loop.currentEventType loop.currentData))
  else (loop, none)

/-- The events emitted until the stream ends or fails; the fuel bounds the number of lines. -/
def readEvents (payloads : SsePayloads) : Nat → SseLoop → List ReadOutcome → List SseEvent
  | 0, _, _ => []
  | fuel + 1, loop, outcomes =>
      match readLineWithTimeout [] outcomes with
      | (.line text, rest) =>
          let (loop, event) := loop.handleLine payloads text
          event.toList ++ readEvents payloads fuel loop rest
      | (.endOfStream, _) => []
      | (.shutdown, _) => []
      | (.failed message, _) => [.error message]

end SseLoop

/-- The events that a connection emits for a stream. -/
def connectionEvents (payloads : SsePayloads) (outcomes : List ReadOutcome) : List SseEvent :=
  SseLoop.readEvents payloads (outcomes.length + 1) .start outcomes

example : connectionEvents ⟨fun _ => .ok "now", fun _ => .error "unused"⟩
    ((asBytes "event: heartbeat\r\n: comment\ndata: {}\r\n\n").map .byte) = [.heartbeat "now"] := by
  decide

/-! ## Reading what was sent -/

/-- The bytes of a stream, without the time-outs between them. -/
def bytesOf (outcomes : List ReadOutcome) : List UInt8 :=
  outcomes.filterMap fun
    | .byte value => some value
    | _ => none

/-- Bytes and time-outs only. -/
def Undisturbed (outcomes : List ReadOutcome) : Prop :=
  ∀ outcome ∈ outcomes, (∃ value, outcome = .byte value) ∨ ∃ elapsed, outcome = .timedOut elapsed

/-- The read deadline passes nowhere in the stream. -/
def InTime (outcomes : List ReadOutcome) : Prop :=
  ∀ elapsed, .timedOut elapsed ∈ outcomes → elapsed ≤ SSE_READ_DEADLINE

namespace Undisturbed

variable {outcome : ReadOutcome} {outcomes : List ReadOutcome}

theorem tail (h : Undisturbed (outcome :: outcomes)) : Undisturbed outcomes :=
  fun other hother => h other (List.mem_cons_of_mem outcome hother)

theorem head (h : Undisturbed (outcome :: outcomes)) :
    (∃ value, outcome = .byte value) ∨ ∃ elapsed, outcome = .timedOut elapsed :=
  h outcome List.mem_cons_self

end Undisturbed

theorem InTime.tail {outcome : ReadOutcome} {outcomes : List ReadOutcome}
    (h : InTime (outcome :: outcomes)) : InTime outcomes :=
  fun elapsed helapsed => h elapsed (List.mem_cons_of_mem outcome helapsed)

theorem inTime_timedOut {elapsed : Nat} {outcomes : List ReadOutcome}
    (h : ¬ SSE_READ_DEADLINE < elapsed) :
    InTime (.timedOut elapsed :: outcomes) ↔ InTime outcomes := by
  refine ⟨InTime.tail, fun hrest other hother => ?_⟩
  rcases List.mem_cons.mp hother with heq | hother
  · cases heq
    omega
  · exact hrest other hother

/-- A line that was sent is read as it is, unless the deadline passes before its end. -/
theorem readLineWithTimeout_line {outcomes : List ReadOutcome} (hundisturbed : Undisturbed outcomes)
    {line raw rest : List UInt8} (hbytes : bytesOf outcomes = raw ++ LF :: rest) (hraw : LF ∉ raw)
    (hlimit : line.length + raw.length ≤ MAX_SSE_EVENT_DATA_BYTES) :
    (∃ left, readLineWithTimeout line outcomes =
        (.line (fromUtf8Lossy (popCarriageReturn (line ++ raw))), left) ∧
      bytesOf left = rest ∧ Undisturbed left ∧ left.length < outcomes.length ∧
      (InTime outcomes ↔ InTime left)) ∨
    (¬ InTime outcomes ∧ ∃ left, readLineWithTimeout line outcomes =
      (.failed readDeadlineMessage, left)) := by
  induction outcomes generalizing line raw with
  | nil => simp [bytesOf] at hbytes
  | cons outcome outcomes ih =>
      rcases hundisturbed.head with ⟨value, rfl⟩ | ⟨elapsed, rfl⟩
      · have hnext : value :: bytesOf outcomes = raw ++ LF :: rest := hbytes
        have hintime : InTime (.byte value :: outcomes) ↔ InTime outcomes := by
          simp [InTime]
        cases raw with
        | nil =>
            rw [List.nil_append] at hnext
            obtain ⟨rfl, hrest⟩ := List.cons.inj hnext
            refine Or.inl ⟨outcomes, ?_, hrest, hundisturbed.tail, ?_, hintime⟩
            · rw [readLineWithTimeout, if_pos rfl, List.append_nil]
            · rw [List.length_cons]
              omega
        | cons first raw =>
            obtain ⟨rfl, hrest⟩ := List.cons.inj hnext
            have hfirst : value ≠ LF := fun h => hraw (h ▸ List.mem_cons_self)
            have hroom : ¬ MAX_SSE_EVENT_DATA_BYTES ≤ line.length := by
              rw [List.length_cons] at hlimit
              omega
            have hlimit' : (line ++ [value]).length + raw.length ≤ MAX_SSE_EVENT_DATA_BYTES := by
              rw [List.length_append, List.length_singleton]
              rw [List.length_cons] at hlimit
              omega
            have hnot : LF ∉ raw := fun h => hraw (List.mem_cons_of_mem value h)
            have hread := ih hundisturbed.tail hrest hnot hlimit'
            rw [List.append_assoc, List.singleton_append] at hread
            rw [readLineWithTimeout, if_neg hfirst, if_neg hroom, hintime]
            rcases hread with ⟨left, hline, hleft, hundist, hlength, hsame⟩ | hfailed
            · refine Or.inl ⟨left, hline, hleft, hundist, ?_, hsame⟩
              rw [List.length_cons]
              omega
            · exact Or.inr hfailed
      · by_cases hlate : SSE_READ_DEADLINE < elapsed
        · refine Or.inr ⟨fun h => ?_, outcomes, ?_⟩
          · have := h elapsed List.mem_cons_self
            omega
          · rw [readLineWithTimeout, if_pos hlate]
        · have hread := @ih hundisturbed.tail line raw hbytes hraw hlimit
          rw [readLineWithTimeout, if_neg hlate, inTime_timedOut hlate]
          rcases hread with ⟨left, hline, hleft, hundist, hlength, hsame⟩ | hfailed
          · refine Or.inl ⟨left, hline, hleft, hundist, ?_, hsame⟩
            rw [List.length_cons]
            omega
          · exact Or.inr hfailed

/-- Time-outs alone end with the stream or with the deadline. -/
theorem readLineWithTimeout_end {outcomes : List ReadOutcome} (hundisturbed : Undisturbed outcomes)
    (hbytes : bytesOf outcomes = []) :
    (InTime outcomes ∧ (readLineWithTimeout [] outcomes).1 = .endOfStream) ∨
      (¬ InTime outcomes ∧ (readLineWithTimeout [] outcomes).1 = .failed readDeadlineMessage) := by
  induction outcomes with
  | nil => exact Or.inl ⟨nofun, rfl⟩
  | cons outcome outcomes ih =>
      rcases hundisturbed.head with ⟨value, rfl⟩ | ⟨elapsed, rfl⟩
      · cases hbytes
      · by_cases hlate : SSE_READ_DEADLINE < elapsed
        · refine Or.inr ⟨fun h => ?_, ?_⟩
          · have := h elapsed List.mem_cons_self
            omega
          · rw [readLineWithTimeout, if_pos hlate]
        · rw [readLineWithTimeout, if_neg hlate, inTime_timedOut hlate]
          exact ih hundisturbed.tail hbytes

end Fulgur
