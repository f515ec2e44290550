import Fulgur.Sync.SseFraming

/-! # Event blocks are read apart

A stream is a sequence of blocks of lines, each ended by a blank line. The loop
forgets the event type only with an event and with data that is too large: a type
that a block names without data waits for the next data, and data lines behind an
overflow are an event of their own. Where neither happens each block is read as if
it were alone.
-/

namespace Fulgur

/-! ## Streams of blocks -/

structure SentLine where
  bytes : List UInt8
  noLineFeed : LF ∉ bytes
  withinLimit : bytes.length ≤ MAX_SSE_EVENT_DATA_BYTES

def SentLine.text (line : SentLine) : String := fromUtf8Lossy (popCarriageReturn line.bytes)

structure EventBlock where
  lines : List SentLine
  lines_ne : ∀ line ∈ lines, line.text ≠ ""
  blank : SentLine
  blank_eq : blank.text = ""

def EventBlock.sentLines (block : EventBlock) : List SentLine := block.lines ++ [block.blank]

def lineBytes (lines : List SentLine) : List UInt8 := lines.flatMap fun line => line.bytes ++ [LF]

/-- Complete blocks, and how the connection comes to read them. -/
structure EventStream where
  blocks : List EventBlock
  outcomes : List ReadOutcome
  undisturbed : Undisturbed outcomes
  bytes_eq : bytesOf outcomes = lineBytes (blocks.flatMap EventBlock.sentLines)

theorem bytesOf_map_byte (bytes : List UInt8) : bytesOf (bytes.map .byte) = bytes := by
  unfold bytesOf
  rw [List.filterMap_map]
  exact List.filterMap_some

theorem undisturbed_map_byte (bytes : List UInt8) : Undisturbed (bytes.map .byte) := by
  intro outcome houtcome
  obtain ⟨value, -, rfl⟩ := List.mem_map.mp houtcome
  exact Or.inl ⟨value, rfl⟩

theorem inTime_map_byte (bytes : List UInt8) : InTime (bytes.map .byte) := by
  intro elapsed helapsed
  obtain ⟨value, -, hvalue⟩ := List.mem_map.mp helapsed
  cases hvalue

def EventBlock.alone (block : EventBlock) : EventStream where
  blocks := [block]
  outcomes := (lineBytes block.sentLines).map .byte
  undisturbed := undisturbed_map_byte _
  bytes_eq := by
    rw [bytesOf_map_byte, List.flatMap_singleton]

variable {payloads : SsePayloads}

/-! ## The lines of a stream -/

namespace SseLoop

def handleLines (payloads : SsePayloads) : SseLoop → List String → SseLoop × List SseEvent
  | loop, [] => (loop, [])
  | loop, line :: lines =>
      let (loop, event) := loop.handleLine payloads line
      let (loop, events) := loop.handleLines payloads lines
      (loop, event.toList ++ events)

theorem handleLines_cons (loop : SseLoop) (line : String) (lines : List String) :
    loop.handleLines payloads (line :: lines) =
      (((loop.handleLine payloads line).1.handleLines payloads lines).1,
        (loop.handleLine payloads line).2.toList ++
          ((loop.handleLine payloads line).1.handleLines payloads lines).2) := rfl

theorem handleLines_append (loop : SseLoop) (first second : List String) :
    loop.handleLines payloads (first ++ second) =
      (((loop.handleLines payloads first).1.handleLines payloads second).1,
        (loop.handleLines payloads first).2 ++
          ((loop.handleLines payloads first).1.handleLines payloads second).2) := by
  induction first generalizing loop with
  | nil => rfl
  | cons line lines ih =>
      rw [List.cons_append, handleLines_cons, handleLines_cons, ih, List.append_assoc]

/-- What was sent is handled line by line; a deadline that passes ends it with its own error. -/
theorem readEvents_lines {lines : List SentLine} {outcomes : List ReadOutcome} {loop : SseLoop}
    {fuel : Nat} (hundisturbed : Undisturbed outcomes) (hbytes : bytesOf outcomes = lineBytes lines)
    (hfuel : outcomes.length < fuel) :
    (InTime outcomes → readEvents payloads fuel loop outcomes =
      (loop.handleLines payloads (lines.map SentLine.text)).2) ∧
    (¬ InTime outcomes → .error readDeadlineMessage ∈ readEvents payloads fuel loop outcomes) := by
  induction lines generalizing outcomes loop fuel with
  | nil =>
      obtain ⟨fuel, rfl⟩ := Nat.exists_eq_add_of_lt hfuel
      rw [readEvents]
      rcases readLineWithTimeout_end hundisturbed hbytes with ⟨hintime, hend⟩ | ⟨hlate, hfailed⟩
      · refine ⟨fun _ => ?_, fun h => absurd hintime h⟩
        generalize readLineWithTimeout [] outcomes = read at hend ⊢
        obtain ⟨line, rest⟩ := read
        cases hend
        rfl
      · refine ⟨fun h => absurd h hlate, fun _ => ?_⟩
        generalize readLineWithTimeout [] outcomes = read at hfailed ⊢
        obtain ⟨line, rest⟩ := read
        cases hfailed
        exact List.mem_singleton_self _
  | cons line lines ih =>
      obtain ⟨fuel, rfl⟩ := Nat.exists_eq_add_of_lt hfuel
      have hnext : bytesOf outcomes = line.bytes ++ LF :: lineBytes lines := by
        rw [hbytes, lineBytes, List.flatMap_cons, List.append_assoc, List.singleton_append,
          lineBytes]
      have hlimit : ([] : List UInt8).length + line.bytes.length ≤ MAX_SSE_EVENT_DATA_BYTES := by
        rw [List.length_nil, Nat.zero_add]
        exact line.withinLimit
      rw [readEvents]
      rcases readLineWithTimeout_line hundisturbed hnext line.noLineFeed hlimit with
        ⟨left, hread, hleft, hundist, hlength, hsame⟩ | ⟨hlate, left, hfailed⟩
      · rw [hread, List.nil_append, List.map_cons, handleLines_cons, hsame]
        have hrest := @ih left (loop.handleLine payloads line.text).1 (outcomes.length + fuel)
          hundist hleft (by omega)
        refine ⟨fun hintime => ?_, fun hlate => ?_⟩
        · dsimp only
          rw [← hrest.1 hintime]
          rfl
        · exact List.mem_append_right _ (hrest.2 hlate)
      · rw [hfailed]
        exact ⟨fun h => absurd h hlate, fun _ => List.mem_singleton_self _⟩

end SseLoop

/-- The events of a whole stream. -/
theorem connectionEvents_stream (stream : EventStream) :
    (InTime stream.outcomes → connectionEvents payloads stream.outcomes =
      (SseLoop.start.handleLines payloads
        ((stream.blocks.flatMap EventBlock.sentLines).map SentLine.text)).2) ∧
    (¬ InTime stream.outcomes →
      .error readDeadlineMessage ∈ connectionEvents payloads stream.outcomes) :=
  SseLoop.readEvents_lines stream.undisturbed stream.bytes_eq (Nat.lt_succ_self _)

/-! ## The fields of a block -/

inductive SseField where
  | event (eventType : String)
  | data (fragment : String)
  | other
deriving DecidableEq

namespace SseField

def ofLine (line : String) : SseField :=
  if startsWith line "event:" then .event (trim (trimStartMatches line "event:"))
  else if startsWith line "data:" then .data (trim (trimStartMatches line "data:"))
  else .other

/-- The last event type among the fields, or one that was there before. -/
def lastType : String → List SseField → String
  | eventType, [] => eventType
  | _, .event eventType :: fields => lastType eventType fields
  | eventType, _ :: fields => lastType eventType fields

def dataOf : List SseField → String
  | [] => ""
  | .data fragment :: fields => fragment ++ dataOf fields
  | _ :: fields => dataOf fields

/-- The fields behind the last data line with which the data is too large. -/
def behindOverflow : (size : Nat) → List SseField → Option (List SseField)
  | _, [] => none
  | size, .data fragment :: fields =>
      if MAX_SSE_EVENT_DATA_BYTES < size + fragment.utf8ByteSize then
        some ((behindOverflow 0 fields).getD fields)
      else behindOverflow (size + fragment.utf8ByteSize) fields
  | size, _ :: fields => behindOverflow size fields

/-- The data is too large as a whole exactly when some data line overflows. -/
theorem isSome_behindOverflow_iff (size : Nat) (fields : List SseField)
    (hsize : size ≤ MAX_SSE_EVENT_DATA_BYTES) :
    (behindOverflow size fields).isSome ↔
      MAX_SSE_EVENT_DATA_BYTES < size + (dataOf fields).utf8ByteSize := by
  induction fields generalizing size with
  | nil =>
      simp only [behindOverflow, dataOf, Option.isSome_none, Bool.false_eq_true, false_iff]
      rw [String.utf8ByteSize_empty]
      omega
  | cons field fields ih =>
      cases field with
      | event eventType => exact ih size hsize
      | other => exact ih size hsize
      | data fragment =>
          rw [behindOverflow, dataOf, String.utf8ByteSize_append]
          split
          · rename_i hover
            simp only [Option.isSome_some, true_iff]
            omega
          · rename_i hfits
            rw [ih (size + fragment.utf8ByteSize) (by omega), Nat.add_assoc]

end SseField

namespace SseLoop

/-- What a line that is not blank does to the loop. -/
def handleField (loop : SseLoop) : SseField → SseLoop
  | .event eventType => { loop with currentEventType := eventType }
  | .data fragment =>
      if MAX_SSE_EVENT_DATA_BYTES < loop.currentData.utf8ByteSize +
        fragment.utf8ByteSize then .start
      else { loop with currentData := loop.currentData ++ fragment }
  | .other => loop

theorem handleLine_of_ne {line : String} (hline : line ≠ "") (loop : SseLoop) :
    loop.handleLine payloads line = (loop.handleField (.ofLine line), none) := by
  unfold handleLine SseField.ofLine
  split
  · rfl
  · split
    · simp only [handleField]
      split <;> rfl
    · rw [if_neg fun h => hline h.1]
      rfl

theorem handleLine_blank (loop : SseLoop) :
    loop.handleLine payloads "" =
      if loop.currentData ≠ "" then
        (.start, some (SseEvent.parse payloads loop.currentEventType loop.currentData))
      else (loop, none) := by
  have hevent : startsWith "" "event:" = false := by decide
  have hdata : startsWith "" "data:" = false := by decide
  unfold handleLine
  simp [hevent, hdata]

theorem handleLines_of_ne {lines : List String} (hlines : ∀ line ∈ lines, line ≠ "")
    (loop : SseLoop) :
    loop.handleLines payloads lines = ((lines.map SseField.ofLine).foldl handleField loop, []) := by
  induction lines generalizing loop with
  | nil => rfl
  | cons line lines ih =>
      rw [handleLines_cons, handleLine_of_ne (hlines line List.mem_cons_self),
        ih fun other hother => hlines other (List.mem_cons_of_mem line hother)]
      rfl

/-- The fields before the last overflow leave nothing behind. -/
theorem foldl_handleField (fields : List SseField) (loop : SseLoop) :
    fields.foldl handleField loop =
      match SseField.behindOverflow loop.currentData.utf8ByteSize fields with
      | none => ⟨SseField.lastType loop.currentEventType fields,
          loop.currentData ++ SseField.dataOf fields⟩
      | some rest => ⟨SseField.lastType "" rest, SseField.dataOf rest⟩ := by
  induction fields generalizing loop with
  | nil => simp [SseField.behindOverflow, SseField.lastType, SseField.dataOf]
  | cons field fields ih =>
      rw [List.foldl_cons, ih]
      cases field with
      | event eventType => rfl
      | other => rfl
      | data fragment =>
          rw [handleField, SseField.behindOverflow]
          by_cases hover : MAX_SSE_EVENT_DATA_BYTES <
              loop.currentData.utf8ByteSize + fragment.utf8ByteSize
          · simp only [if_pos hover, start, String.utf8ByteSize_empty]
            cases SseField.behindOverflow 0 fields with
            | none => simp
            | some rest => simp
          · simp only [if_neg hover, String.utf8ByteSize_append, SseField.lastType, SseField.dataOf,
              String.append_assoc]

end SseLoop

/-! ## One block after the other -/

namespace EventBlock

def fields (block : EventBlock) : List SseField :=
  block.lines.map fun line => SseField.ofLine line.text

/-- What is left of a block after its last overflow. -/
def behindOverflow (block : EventBlock) : Option (List SseField) :=
  SseField.behindOverflow 0 block.fields

/-- The accumulated data of the block is too large. -/
def Oversized (block : EventBlock) : Prop :=
  MAX_SSE_EVENT_DATA_BYTES < (SseField.dataOf block.fields).utf8ByteSize

def data (block : EventBlock) : String := SseField.dataOf (block.behindOverflow.getD block.fields)

/-- The event type that the block ends with, where it starts with another one. -/
def eventType (block : EventBlock) (pending : String) : String :=
  match block.behindOverflow with
  | none => SseField.lastType pending block.fields
  | some rest => SseField.lastType "" rest

def emits (payloads : SsePayloads) (block : EventBlock) (pending : String) : List SseEvent :=
  if block.data = "" then [] else [SseEvent.parse payloads (block.eventType pending) block.data]

/-- The event type that is left for the next block. -/
def leaves (block : EventBlock) (pending : String) : String :=
  if block.data = "" then block.eventType pending else ""

theorem oversized_iff (block : EventBlock) : block.Oversized ↔ block.behindOverflow.isSome := by
  rw [Oversized, behindOverflow, SseField.isSome_behindOverflow_iff 0 block.fields (Nat.zero_le _),
    Nat.zero_add]

theorem handleLines_sentLines (block : EventBlock) (pending : String) :
    SseLoop.handleLines payloads ⟨pending, ""⟩ (block.sentLines.map SentLine.text) =
      (⟨block.leaves pending, ""⟩, block.emits payloads pending) := by
  have hne : ∀ line ∈ block.lines.map SentLine.text, line ≠ "" := by
    intro line hline
    obtain ⟨sent, hsent, rfl⟩ := List.mem_map.mp hline
    exact block.lines_ne sent hsent
  have hfields : (block.lines.map SentLine.text).map SseField.ofLine = block.fields := by
    rw [List.map_map]
    rfl
  have hloop : (block.fields).foldl SseLoop.handleField ⟨pending, ""⟩ =
      ⟨block.eventType pending, block.data⟩ := by
    rw [SseLoop.foldl_handleField, String.utf8ByteSize_empty, eventType, data, behindOverflow]
    cases SseField.behindOverflow 0 block.fields with
    | none => simp
    | some rest => rfl
  rw [sentLines, List.map_append, SseLoop.handleLines_append, SseLoop.handleLines_of_ne hne,
    hfields, hloop, List.map_singleton, block.blank_eq, SseLoop.handleLines_cons,
    SseLoop.handleLine_blank]
  simp only [emits, leaves, SseLoop.handleLines]
  by_cases hdata : block.data = ""
  · simp [hdata]
  · simp [hdata, SseLoop.start]

end EventBlock

/-- The events of blocks, the first of which finds a pending event type. -/
def blockEvents (payloads : SsePayloads) : String → List EventBlock → List SseEvent
  | _, [] => []
  | pending, block :: blocks =>
      block.emits payloads pending ++ blockEvents payloads (block.leaves pending) blocks

theorem handleLines_blocks (pending : String) (blocks : List EventBlock) :
    (SseLoop.handleLines payloads ⟨pending, ""⟩
      ((blocks.flatMap EventBlock.sentLines).map SentLine.text)).2 =
        blockEvents payloads pending blocks := by
  induction blocks generalizing pending with
  | nil => rfl
  | cons block blocks ih =>
      rw [List.flatMap_cons, List.map_append, SseLoop.handleLines_append,
        block.handleLines_sentLines, blockEvents]
      dsimp only
      rw [ih]

theorem connectionEvents_alone (block : EventBlock) :
    connectionEvents payloads block.alone.outcomes = block.emits payloads "" := by
  have hevents := (@connectionEvents_stream payloads block.alone).1
    (inTime_map_byte (lineBytes block.sentLines))
  rw [hevents, show SseLoop.start = ⟨"", ""⟩ from rfl, handleLines_blocks]
  exact List.append_nil _

/-! ## Errors tell apart -/

theorem append_ne_of_head {first second rest : String} {c d : Char}
    (hfirst : first.toList.head? = some c) (hsecond : second.toList.head? = some d) (hne : c ≠ d) :
    first ++ rest ≠ second := by
  intro h
  rw [← h, String.toList_append, List.head?_append, hfirst] at hsecond
  exact hne (Option.some_inj.mp hsecond)

/-- What is parsed is never the error of a deadline. -/
theorem SseEvent.parse_ne_deadline (eventType data : String) :
    SseEvent.parse payloads eventType data ≠ .error readDeadlineMessage := by
  unfold SseEvent.parse
  split
  · split <;> nofun
  · split
    · split
      · nofun
      · intro h
        exact append_ne_of_head (c := 'I') (d := 'n') (by decide) (by decide) (by decide)
          (SseEvent.error.inj h)
    · split
      · nofun
      · split
        · intro h
          exact absurd (SseEvent.error.inj h) (by decide)
        · intro h
          exact append_ne_of_head (c := 'U') (d := 'n') (by decide) (by decide) (by decide)
            (SseEvent.error.inj h)

/-- Data is parsed as without a type only if it has none. -/
theorem SseEvent.parse_eq_untyped_iff (eventType data : String) :
    SseEvent.parse payloads eventType data = SseEvent.parse payloads "" data ↔ eventType = "" := by
  have huntyped : SseEvent.parse payloads "" data = .error "Unknown event with no event type" := rfl
  rw [huntyped]
  refine ⟨fun h => ?_, fun h => h ▸ huntyped⟩
  unfold SseEvent.parse at h
  split at h
  · split at h <;> cases h
  · split at h
    · split at h
      · cases h
      · exact absurd (SseEvent.error.inj h) (append_ne_of_head (c := 'I') (d := 'U') (by decide)
          (by decide) (by decide))
    · split at h
      · cases h
      · split at h
        · assumption
        · have htext := congrArg String.toList (SseEvent.error.inj h)
          rw [String.toList_append] at htext
          have hprefix : "Unknown event ".toList ++ ('t' :: "ype: ".toList ++ eventType.toList) =
              "Unknown event ".toList ++ "with no event type".toList := htext
          cases List.append_cancel_left hprefix

/-! ## When blocks are read apart -/

namespace SseField

theorem lastType_of_untyped {fields : List SseField} (h : ∀ eventType, .event eventType ∉ fields)
    (pending : String) : lastType pending fields = pending := by
  induction fields with
  | nil => rfl
  | cons field fields ih =>
      have hrest : ∀ eventType, .event eventType ∉ fields := fun eventType hmem =>
        h eventType (List.mem_cons_of_mem field hmem)
      cases field with
      | event eventType => exact absurd List.mem_cons_self (h eventType)
      | data fragment => exact ih hrest
      | other => exact ih hrest

theorem lastType_of_typed {fields : List SseField} {eventType : String}
    (h : .event eventType ∈ fields) (first second : String) :
    lastType first fields = lastType second fields := by
  induction fields generalizing first second with
  | nil => cases h
  | cons field fields ih =>
      cases field with
      | event named => rfl
      | data fragment => exact ih (by simpa using h) first second
      | other => exact ih (by simpa using h) first second

end SseField

namespace EventBlock

/-- The block says nothing about the event type. -/
def Untyped (block : EventBlock) : Prop :=
  block.behindOverflow = none ∧ ∀ eventType, .event eventType ∉ block.fields

/-- The block ends with an event type and without data. -/
def NamesOnly (block : EventBlock) : Prop := block.data = "" ∧ block.eventType "" ≠ ""

/-- The block says nothing at all. -/
def Silent (block : EventBlock) : Prop := block.data = "" ∧ block.Untyped

variable {block : EventBlock}

theorem eventType_of_untyped (h : block.Untyped) (pending : String) :
    block.eventType pending = pending := by
  rw [eventType, h.1]
  exact SseField.lastType_of_untyped h.2 pending

theorem eventType_of_not_untyped (h : ¬ block.Untyped) (pending : String) :
    block.eventType pending = block.eventType "" := by
  unfold eventType
  cases hover : block.behindOverflow with
  | some rest => rfl
  | none =>
      have hnamed : ∃ eventType, .event eventType ∈ block.fields := by
        by_contra hnone
        exact h ⟨hover, fun eventType hmem => hnone ⟨eventType, hmem⟩⟩
      obtain ⟨eventType, hmem⟩ := hnamed
      exact SseField.lastType_of_typed hmem pending ""

/-- A pending type changes the event of a block exactly when its data comes without a type. -/
theorem emits_eq_iff (block : EventBlock) (pending : String) :
    block.emits payloads pending = block.emits payloads "" ↔
      (pending ≠ "" → block.Untyped → block.data = "") := by
  unfold emits
  by_cases hdata : block.data = ""
  · simp [hdata]
  · by_cases huntyped : block.Untyped
    · rw [if_neg hdata, if_neg hdata, eventType_of_untyped huntyped, eventType_of_untyped huntyped,
        List.singleton_inj, SseEvent.parse_eq_untyped_iff]
      constructor
      · intro hpending hne
        exact absurd hpending hne
      · intro h
        by_contra hne
        exact hdata (h hne huntyped)
    · rw [eventType_of_not_untyped huntyped pending]
      simp [huntyped]

theorem leaves_ne_iff (block : EventBlock) (pending : String) :
    block.leaves pending ≠ "" ↔ (block.Silent ∧ pending ≠ "") ∨ block.NamesOnly := by
  unfold leaves Silent NamesOnly
  by_cases hdata : block.data = ""
  · by_cases huntyped : block.Untyped
    · simp [hdata, huntyped, eventType_of_untyped huntyped]
    · simp [hdata, huntyped, eventType_of_not_untyped huntyped pending]
  · simp [hdata]

theorem length_emits (block : EventBlock) (pending : String) :
    (block.emits payloads pending).length = (block.emits payloads "").length := by
  unfold emits
  split <;> rfl

end EventBlock

/-- After blocks that say nothing no data comes without a type. -/
def NoUntypedData (blocks : List EventBlock) : Prop :=
  ∀ between block after, blocks = between ++ block :: after →
    (∀ silent ∈ between, silent.Silent) → block.Untyped → block.data = ""

/-- No block names a type for data of a later block. -/
def NoTypeLeft (blocks : List EventBlock) : Prop :=
  ∀ before naming rest, blocks = before ++ naming :: rest → naming.NamesOnly → NoUntypedData rest

theorem noUntypedData_cons (block : EventBlock) (blocks : List EventBlock) :
    NoUntypedData (block :: blocks) ↔
      (block.Untyped → block.data = "") ∧ (block.Silent → NoUntypedData blocks) := by
  constructor
  · intro h
    refine ⟨h [] block blocks rfl nofun, fun hsilent between other after heq hbetween => ?_⟩
    refine h (block :: between) other after (by rw [heq]; rfl) fun silent hmem => ?_
    rcases List.mem_cons.mp hmem with rfl | hmem
    · exact hsilent
    · exact hbetween silent hmem
  · rintro ⟨hblock, hrest⟩ between other after heq hbetween
    cases between with
    | nil =>
        obtain ⟨rfl, -⟩ := List.cons.inj heq
        exact hblock
    | cons first between =>
        obtain ⟨rfl, hblocks⟩ := List.cons.inj heq
        exact hrest (hbetween block List.mem_cons_self) between other after hblocks
          fun silent hmem => hbetween silent (List.mem_cons_of_mem block hmem)

theorem noTypeLeft_cons (block : EventBlock) (blocks : List EventBlock) :
    NoTypeLeft (block :: blocks) ↔
      (block.NamesOnly → NoUntypedData blocks) ∧ NoTypeLeft blocks := by
  constructor
  · intro h
    refine ⟨h [] block blocks rfl, fun before naming rest heq => ?_⟩
    exact h (block :: before) naming rest (by rw [heq]; rfl)
  · rintro ⟨hblock, hrest⟩ before naming rest heq
    cases before with
    | nil =>
        obtain ⟨rfl, rfl⟩ := List.cons.inj heq
        exact hblock
    | cons first before =>
        obtain ⟨rfl, hblocks⟩ := List.cons.inj heq
        exact hrest before naming rest hblocks

/-- Blocks emit what each emits alone exactly when no type is left for untyped data. -/
theorem blockEvents_eq_iff (pending : String) (blocks : List EventBlock) :
    blockEvents payloads pending blocks = blocks.flatMap (·.emits payloads "") ↔
      (pending ≠ "" → NoUntypedData blocks) ∧ NoTypeLeft blocks := by
  induction blocks generalizing pending with
  | nil => simp [blockEvents, NoUntypedData, NoTypeLeft]
  | cons block blocks ih =>
      have hsplit : blockEvents payloads pending (block :: blocks) =
          (block :: blocks).flatMap (·.emits payloads "") ↔
          block.emits payloads pending = block.emits payloads "" ∧
            blockEvents payloads (block.leaves pending) blocks =
              blocks.flatMap (·.emits payloads "") := by
        rw [blockEvents, List.flatMap_cons]
        exact ⟨fun h => List.append_inj h (block.length_emits pending),
          fun h => congrArg₂ List.append h.1 h.2⟩
      rw [hsplit, ih, block.emits_eq_iff, block.leaves_ne_iff, noUntypedData_cons, noTypeLeft_cons]
      constructor
      · rintro ⟨hdata, hleft, hrest⟩
        exact ⟨fun hpending => ⟨hdata hpending, fun hsilent => hleft (Or.inl ⟨hsilent, hpending⟩)⟩,
          fun hnames => hleft (Or.inr hnames), hrest⟩
      · rintro ⟨hpending, hnames, hrest⟩
        refine ⟨fun h => (hpending h).1, fun hleft => ?_, hrest⟩
        rcases hleft with ⟨hsilent, h⟩ | h
        · exact (hpending h).2 hsilent
        · exact hnames h

/-! ## The framing of a stream -/

/--
The events of a stream are those of its blocks, each read as the whole stream, and
a block with too much data has none (and so none that another block would get).
-/
structure FramedApart (payloads : SsePayloads) (stream : EventStream) : Prop where
  events : connectionEvents payloads stream.outcomes =
    stream.blocks.flatMap fun block => connectionEvents payloads block.alone.outcomes
  oversized : ∀ block ∈ stream.blocks, block.Oversized →
    connectionEvents payloads block.alone.outcomes = []

/--
The stream is read to its end, no block names an event type and leaves it to the
untyped data of a later one, and behind its last overflow a block has no data.
-/
structure ReadsApart (stream : EventStream) : Prop where
  inTime : InTime stream.outcomes
  noTypeLeft : NoTypeLeft stream.blocks
  nothingBehind : ∀ block ∈ stream.blocks, ∀ rest ∈ block.behindOverflow,
    SseField.dataOf rest = ""

/-- A block with too much data emits nothing exactly when no data is behind its last overflow. -/
theorem emits_oversized_iff (block : EventBlock) :
    (block.Oversized → block.emits payloads "" = []) ↔
      ∀ rest ∈ block.behindOverflow, SseField.dataOf rest = "" := by
  rw [block.oversized_iff]
  unfold EventBlock.emits EventBlock.data
  cases block.behindOverflow with
  | none => simp
  | some rest => simp

/-- Every block is read as if it were the whole stream exactly under these conditions. -/
theorem framedApart_iff_readsApart (payloads : SsePayloads) (stream : EventStream) :
    FramedApart payloads stream ↔ ReadsApart stream := by
  have halone : (fun block : EventBlock => connectionEvents payloads block.alone.outcomes) =
      fun block => block.emits payloads "" := funext connectionEvents_alone
  have hstream : InTime stream.outcomes →
      connectionEvents payloads stream.outcomes = blockEvents payloads "" stream.blocks :=
    fun h => ((connectionEvents_stream stream).1 h).trans (handleLines_blocks "" stream.blocks)
  constructor
  · intro h
    have hevents := h.events
    rw [halone] at hevents
    have hintime : InTime stream.outcomes := by
      by_contra hlate
      have hdeadline := (@connectionEvents_stream payloads stream).2 hlate
      rw [hevents] at hdeadline
      obtain ⟨block, -, hblock⟩ := List.mem_flatMap.mp hdeadline
      unfold EventBlock.emits at hblock
      split at hblock
      · cases hblock
      · exact SseEvent.parse_ne_deadline _ _ (List.mem_singleton.mp hblock).symm
    refine ⟨hintime, ?_, fun block hblock => ?_⟩
    · rw [hstream hintime] at hevents
      exact ((blockEvents_eq_iff "" stream.blocks).mp hevents).2
    · refine (@emits_oversized_iff payloads block).mp fun hover => ?_
      rw [← connectionEvents_alone]
      exact h.oversized block hblock hover
  · intro h
    refine ⟨?_, fun block hblock hover => ?_⟩
    · rw [hstream h.inTime, halone]
      exact (blockEvents_eq_iff "" stream.blocks).mpr ⟨fun hne => absurd rfl hne, h.noTypeLeft⟩
    · rw [connectionEvents_alone]
      exact (emits_oversized_iff block).mpr (h.nothingBehind block hblock) hover

/-! ## A type without data before data without a type -/

def samplePayloads : SsePayloads := ⟨fun _ => .ok "now", fun _ => .error "missing field"⟩

def sampleBlank : SentLine := ⟨[CR], by decide, by decide⟩

def sampleNaming : EventBlock where
  lines := [⟨asBytes "event: pending_shares", by decide, by decide⟩]
  lines_ne := by
    intro line hline
    rw [List.mem_singleton.mp hline]
    decide
  blank := sampleBlank
  blank_eq := by decide

def sampleUntyped : EventBlock where
  lines := [⟨asBytes "data: 7", by decide, by decide⟩]
  lines_ne := by
    intro line hline
    rw [List.mem_singleton.mp hline]
    decide
  blank := sampleBlank
  blank_eq := by decide

def sampleStream : EventStream where
  blocks := [sampleNaming, sampleUntyped]
  outcomes := (lineBytes ([sampleNaming, sampleUntyped].flatMap EventBlock.sentLines)).map .byte
  undisturbed := undisturbed_map_byte _
  bytes_eq := bytesOf_map_byte _

/-- The data of the second block is taken for that of the type that the first one names. -/
theorem untyped_data_typed :
    connectionEvents samplePayloads sampleStream.outcomes = [.pendingSharesSnapshot] ∧
      connectionEvents samplePayloads sampleUntyped.alone.outcomes =
        [.error "Unknown event with no event type"] ∧
      ¬ FramedApart samplePayloads sampleStream := by
  have hevents :
    connectionEvents samplePayloads sampleStream.outcomes = [.pendingSharesSnapshot] := by
    decide
  have halone : sampleStream.blocks.flatMap (fun block =>
      connectionEvents samplePayloads block.alone.outcomes) =
        [.error "Unknown event with no event type"] := by
    decide
  refine ⟨hevents, halone, fun h => ?_⟩
  have hsame := h.events
  rw [hevents, halone] at hsame
  cases hsame

end Fulgur
