import AnonReq.Foundation.Characters

/-!
# Entities in a voice stream

`SlidingWindowDetector` of `voice/detector.py` and `TimelineMapper` of `voice/timeline.py`: the
transcripts of the latest chunks of a stream form a window, a detection engine finds entities in
its text, and each new entity gets the interval of the stream in which it is spoken.

* `processChunk` is one call for one chunk; what the engine returns for a window is any list.
* `interval_of_mem_processChunk`: every returned entity has characters and an interval that is not
  empty.
-/

namespace AnonReq.Voice

/-! ### The timeline -/

/-- The parameters of a detector and of its timeline mapper, in milliseconds, also those that the
constructors refuse. `proportion` is `int((offset / length) * duration)` in floating point, `upper`
is `str.upper`. -/
structure DetectorSetting where
  windowMs : ℤ := 500
  overlapMs : ℤ := 125
  safetyMarginMs : ℤ := 50
  proportion : ℤ → ℤ → ℤ → ℤ
  upper : Text → Text

namespace DetectorSetting

variable (D : DetectorSetting)

/-- `char_offset_to_ms`. -/
def charOffsetToMs (charOffset textStartMs textDurationMs textLength : ℤ) : ℤ :=
  if textLength ≤ 0 ∨ textDurationMs ≤ 0 then textStartMs
  else
    let boundedOffset := min (max charOffset 0) textLength
    textStartMs + D.proportion boundedOffset textLength textDurationMs

/-- `entity_to_frame_range`. -/
def entityToFrameRange (startOffset endOffset textStartMs textDurationMs textLength : ℤ) : ℤ × ℤ :=
  let startMs := D.charOffsetToMs startOffset textStartMs textDurationMs textLength
  let endMs := D.charOffsetToMs endOffset textStartMs textDurationMs textLength
  let endMs := if endMs ≤ startMs then startMs + 1 else endMs
  (max textStartMs (startMs - D.safetyMarginMs),
    min (textStartMs + textDurationMs) (endMs + D.safetyMarginMs))

end DetectorSetting

/-! ### The window -/

/-- `TranscriptWindowSegment`. -/
structure Segment where
  text : Text
  audioStartMs : ℤ
  audioDurationMs : ℤ
  sequence : ℕ
deriving DecidableEq

/-- `audio_end_ms`. -/
def Segment.audioEndMs (segment : Segment) : ℤ := segment.audioStartMs + segment.audioDurationMs

/-- The texts of the window, joined. -/
def windowText (buffer : List Segment) : Text := buffer.flatMap Segment.text

/-- The segments of the window with their positions in its text, from a cursor on. -/
def offsetsFrom (cursor : ℤ) : List Segment → List (ℤ × ℤ × Segment)
  | [] => []
  | segment :: rest =>
    let stop := cursor + segment.text.length
    (cursor, stop, segment) :: offsetsFrom stop rest

/-- `_assemble_window`. -/
def assembleWindow (buffer : List Segment) : Text × List (ℤ × ℤ × Segment) :=
  (windowText buffer, offsetsFrom 0 buffer)

/-- `_current_duration_ms`. -/
def currentDurationMs (buffer : List Segment) : ℤ :=
  match buffer.head?, buffer.getLast? with
  | some first, some last => last.audioEndMs - first.audioStartMs
  | _, _ => 0

/-- `_segment_for_offset`: the segment of a character, the last one for a position outside. -/
def segmentForOffset (charOffset : ℤ) (offsets : List (ℤ × ℤ × Segment)) :
    Option (ℤ × ℤ × Segment) :=
  (offsets.find? fun part => decide (part.1 ≤ charOffset ∧ charOffset < part.2.1)).or
    offsets.getLast?

/-! ### Entities -/

/-- The keys, or attributes, of a finding that the detector reads. -/
structure Fields where
  start : Option ℤ := none
  startChar : Option ℤ := none
  stop : Option ℤ := none
  stopChar : Option ℤ := none
  entityType : Option Text := none
  type : Option Text := none
  text : Option Text := none

/-- What a detection engine returns for an entity. -/
inductive RawEntity where
  | dict (fields : Fields)
  | object (fields : Fields)

/-- An entity with its characters in the window. -/
structure WindowEntity where
  start : ℤ
  stop : ℤ
  entityType : Text
  text : Text
deriving DecidableEq

/-- `_entity_to_dict`. -/
def entityToDict (D : DetectorSetting) (rawEntity : RawEntity) (text : Text) : WindowEntity :=
  match rawEntity with
  | .dict fields =>
    let start := (fields.start.or fields.startChar).getD 0
    let stop := (fields.stop.or fields.stopChar).getD start
    { start, stop
      entityType := D.upper ((fields.entityType.or fields.type).getD "PII".toList)
      text := fields.text.getD (text.slice start stop) }
  | .object fields =>
    let start := (fields.start.or fields.startChar).getD 0
    let stop := (fields.stop.or fields.stopChar).getD 0
    { start, stop
      entityType := D.upper ((fields.entityType.or fields.type).getD "PII".toList)
      text := text.slice start stop }

/-- An entity that the detector returns. -/
structure Entity extends WindowEntity where
  audioStartMs : ℤ
  audioEndMs : ℤ
  windowStartMs : ℤ
  windowEndMs : ℤ
deriving DecidableEq

/-- The interval from the first of some characters to the last, from the segments of both. -/
def audioInterval (D : DetectorSetting) (start stop : ℤ) (first last : ℤ × ℤ × Segment) : ℤ × ℤ :=
  let (startBase, _, firstSegment) := first
  let (endBase, _, lastSegment) := last
  let startMs := (D.entityToFrameRange (start - startBase) (start - startBase + 1)
    firstSegment.audioStartMs firstSegment.audioDurationMs firstSegment.text.length).1
  let endMs := (D.entityToFrameRange (max (stop - endBase - 1) 0) (stop - endBase)
    lastSegment.audioStartMs lastSegment.audioDurationMs lastSegment.text.length).2
  (startMs, max endMs (startMs + 1))

/-- `_map_entity`, for a window. -/
def mapEntity (D : DetectorSetting) (rawEntity : RawEntity) (buffer : List Segment) :
    Option Entity :=
  let window := assembleWindow buffer
  let entity := entityToDict D rawEntity window.1
  if entity.stop ≤ entity.start then none
  else
    match segmentForOffset entity.start window.2,
      segmentForOffset (max (entity.stop - 1) entity.start) window.2,
      buffer.head?, buffer.getLast? with
    | some startSegment, some endSegment, some first, some last =>
      let interval := audioInterval D entity.start entity.stop startSegment endSegment
      some
        { entity with
          audioStartMs := interval.1, audioEndMs := interval.2
          windowStartMs := first.audioStartMs, windowEndMs := last.audioEndMs }
    | _, _, _, _ => none

/-! ### The detector -/

/-- What makes two entities one: the type, the interval and the text. -/
abbrev Key := Text × ℤ × ℤ × Text

/-- The key of an entity. -/
def Entity.key (entity : Entity) : Key :=
  (entity.entityType, entity.audioStartMs, entity.audioEndMs, entity.text)

/-- The state of a detector. -/
structure DetectorState where
  windowBuffer : List Segment := []
  sequence : ℕ := 0
  pendingEntities : List Entity := []
  emittedKeys : List Key := []

/-- The loop over the raw entities: those that are mapped, and marked as new by `_mark_new`. -/
def newEntities (D : DetectorSetting) (buffer : List Segment) :
    List Key → List RawEntity → List Entity × List Key
  | emittedKeys, [] => ([], emittedKeys)
  | emittedKeys, rawEntity :: rest =>
    match mapEntity D rawEntity buffer with
    | none => newEntities D buffer emittedKeys rest
    | some entity =>
      if entity.key ∈ emittedKeys then newEntities D buffer emittedKeys rest
      else
        let (entities, emittedKeys) := newEntities D buffer (entity.key :: emittedKeys) rest
        (entity :: entities, emittedKeys)

/-- `_prune_for_overlap`: the first segments go that end by a time, but not the last segment. -/
def pruneBefore (keepFromMs : ℤ) : List Segment → List Segment
  | first :: second :: rest =>
    if first.audioEndMs ≤ keepFromMs then pruneBefore keepFromMs (second :: rest)
    else first :: second :: rest
  | buffer => buffer

/-- `_prune_for_overlap`. -/
def pruneForOverlap (D : DetectorSetting) (buffer : List Segment) : List Segment :=
  match buffer.getLast? with
  | none => buffer
  | some last => pruneBefore (last.audioEndMs - D.overlapMs) buffer

/-- The state with the transcript of a chunk at the end of the window, unless it is empty. -/
def DetectorState.receive (s : DetectorState) (text : Text) (audioStartMs audioDurationMs : ℤ) :
    DetectorState :=
  if text = [] then s
  else
    { s with
      sequence := s.sequence + 1
      windowBuffer := s.windowBuffer ++
        [{ text, audioStartMs, audioDurationMs, sequence := s.sequence + 1 }] }

/-- `process_chunk`, with what the engine returns for a window. -/
def processChunk (D : DetectorSetting) (detect : Text → List RawEntity) (s : DetectorState)
    (text : Text) (audioStartMs audioDurationMs : ℤ) : List Entity × DetectorState :=
  let s := s.receive text audioStartMs audioDurationMs
  if s.windowBuffer = [] ∨ currentDurationMs s.windowBuffer < D.windowMs then ([], s)
  else
    let rawEntities := detect (windowText s.windowBuffer)
    let (entities, emittedKeys) := newEntities D s.windowBuffer s.emittedKeys rawEntities
    (entities,
      { s with
        pendingEntities := s.pendingEntities ++ entities, emittedKeys
        windowBuffer := pruneForOverlap D s.windowBuffer })

/-! ### What the detector returns -/

theorem mem_newEntities {D : DetectorSetting} {buffer : List Segment} {emittedKeys : List Key}
    {rawEntities : List RawEntity} {entity : Entity}
    (h : entity ∈ (newEntities D buffer emittedKeys rawEntities).1) :
    ∃ rawEntity ∈ rawEntities, mapEntity D rawEntity buffer = some entity := by
  induction rawEntities generalizing emittedKeys with
  | nil => exact absurd h List.not_mem_nil
  | cons rawEntity rest ih =>
    have hrest : ∀ {keys}, entity ∈ (newEntities D buffer keys rest).1 →
        ∃ raw ∈ rawEntity :: rest, mapEntity D raw buffer = some entity := by
      intro keys hmem
      obtain ⟨raw, hraw, hmap⟩ := ih hmem
      exact ⟨raw, List.mem_cons_of_mem rawEntity hraw, hmap⟩
    rw [newEntities] at h
    rcases hmap : mapEntity D rawEntity buffer with _ | found
    · rw [hmap] at h
      exact hrest h
    · rw [hmap] at h
      simp only at h
      split_ifs at h with hkey
      · exact hrest h
      · obtain rfl | hmem := List.mem_cons.mp h
        · exact ⟨rawEntity, List.mem_cons_self, hmap⟩
        · exact hrest hmem

/-- A mapped entity has characters and an interval. -/
theorem interval_of_mapEntity {D : DetectorSetting} {rawEntity : RawEntity}
    {buffer : List Segment} {entity : Entity} (h : mapEntity D rawEntity buffer = some entity) :
    entity.start < entity.stop ∧ entity.audioStartMs < entity.audioEndMs := by
  simp only [mapEntity] at h
  split_ifs at h with hempty
  split at h
  · obtain rfl := Option.some.inj h
    exact ⟨Int.lt_of_not_ge hempty, Int.lt_of_lt_of_le (Int.lt_succ _) (Int.le_max_right _ _)⟩
  · cases h

/-- **Returned entities.** Every entity that is returned has characters and an interval. -/
theorem interval_of_mem_processChunk {D : DetectorSetting} {detect : Text → List RawEntity}
    {s : DetectorState} {text : Text} {audioStartMs audioDurationMs : ℤ} {entity : Entity}
    (h : entity ∈ (processChunk D detect s text audioStartMs audioDurationMs).1) :
    entity.start < entity.stop ∧ entity.audioStartMs < entity.audioEndMs := by
  simp only [processChunk] at h
  split_ifs at h with hwait
  · exact absurd h List.not_mem_nil
  · obtain ⟨rawEntity, -, hmap⟩ := mem_newEntities h
    exact interval_of_mapEntity hmap

/-! ### Streams -/

/-- The parameters of a pipeline. `milliseconds` is `int(samples / sample_rate * 1000)` in floating
point, `tone` are the two bytes of a sample of the sine wave at a sample rate. -/
structure VoiceSetting extends DetectorSetting where
  milliseconds : ℕ → ℤ → ℤ
  tone : ℤ → ℕ → UInt8 × UInt8

/-- `AudioChunk`, in the format `pcm`: two bytes a sample. -/
structure AudioChunk where
  data : List UInt8
  timestampMs : ℤ
  sampleRate : ℤ := 16000

/-- `_chunk_duration_ms`. -/
def VoiceSetting.chunkDurationMs (V : VoiceSetting) (chunk : AudioChunk) : ℤ :=
  if chunk.sampleRate ≤ 0 then 0
  else max 1 (V.milliseconds (chunk.data.length / 2) chunk.sampleRate)

/-- A chunk of a stream with its transcript, and what the detection engine returns at that time for
a window. -/
structure Arrival where
  chunk : AudioChunk
  transcript : Text
  detect : Text → List RawEntity

/-- The call of the detector for a chunk. -/
def VoiceSetting.detectIn (V : VoiceSetting) (s : DetectorState) (a : Arrival) :
    List Entity × DetectorState :=
  processChunk V.toDetectorSetting a.detect s a.transcript a.chunk.timestampMs
    (V.chunkDurationMs a.chunk)

/-! ### A sample stream -/

/-- Samples and characters are spread evenly over a chunk; the sine is left out. -/
def sampleVoice : VoiceSetting where
  proportion offset length duration := offset * duration / length
  upper text := text.map Char.toUpper
  milliseconds samples rate := samples * 1000 / rate
  tone _ _ := (0, 0)

/-- An engine that finds one name. -/
def findName (name window : Text) : List RawEntity :=
  match (List.range window.length).find? fun i => name.isPrefixOf (window.drop i) with
  | none => []
  | some i =>
    [.dict { start := some i, stop := some (i + name.length), entityType := "person".toList }]

/-- A chunk of a second from a time on, in which the engine looks for Bob. -/
def sampleArrival (timestampMs : ℤ) (transcript : String) : Arrival where
  chunk := { data := List.replicate 16 1, timestampMs, sampleRate := 8 }
  transcript := transcript.toList
  detect := findName "Bob".toList

end AnonReq.Voice
