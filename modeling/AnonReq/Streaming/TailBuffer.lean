import Mathlib.Algebra.Order.Ring.Rat
import AnonReq.Foundation.Characters
import AnonReq.Foundation.Dict
import AnonReq.Foundation.Pattern

/-!
# The tail buffer

`streaming/tail_buffer.py`: the text of a stream is collected, and what lies before the last 128
characters is emitted when one of four triggers fires. An emission is cut by length alone.

* `ingest_textDelta`: a text event either leaves the text in the buffer, or emits what stands
  before the tail window.
* `flatten_ingest_textDelta`: no character is lost or duplicated.
-/

namespace AnonReq.Streaming

open Pattern

/-! ### Events -/

/-- `EventType`. -/
inductive EventType where
  | start
  | textDelta
  | toolCallDelta
  | reasoningDelta
  | finish
  | error
  | heartbeat
deriving DecidableEq, Repr

/-- `FinishReason`. -/
inductive FinishReason where
  | stop
  | length
  | toolCall
  | contentFilter
  | error
  | unknown
deriving DecidableEq, Repr

/-- The value of a finish reason. -/
def FinishReason.value : FinishReason → Text
  | .stop => "STOP".toList
  | .length => "LENGTH".toList
  | .toolCall => "TOOL_CALL".toList
  | .contentFilter => "CONTENT_FILTER".toList
  | .error => "ERROR".toList
  | .unknown => "UNKNOWN".toList

/-- `ToolCallDelta`. -/
structure ToolCallDelta where
  index : ℤ
  id : Option Text := none
  type : Option Text := none
  functionName : Option Text := none
  functionArguments : Option Text := none
deriving DecidableEq, Repr

/-- `StreamEvent`, as far as the stream reads it. -/
structure StreamEvent where
  eventType : EventType
  deltaText : Option Text := none
  toolCall : Option ToolCallDelta := none
  reasoning : Option Text := none
  finishReason : Option FinishReason := none
  metadata : List (Text × Text) := []
deriving DecidableEq, Repr

/-- The text an event adds to the buffer. -/
def StreamEvent.text (event : StreamEvent) : Text := event.deltaText.getD []

/-! ### Token patterns -/

/-- The item for one character. -/
def literal (c : Char) : Item Char := { cls := (· == c) }

variable (u : Unicode)

/-- `\[[A-Z][A-Z_]{0,49}_\d+\]`. -/
def tokenPattern : List (Item Char) :=
  [literal '[', { cls := Char.isUpper },
    { cls := fun c => c.isUpper || c == '_', least := 0, most := some 49 }, literal '_',
    { cls := u.isDecimal, most := none }, literal ']']

/-- `\[[A-Za-z][A-Za-z_]{0,19}_?\d*`. -/
def partialPattern : List (Item Char) :=
  [literal '[', { cls := Char.isAlpha },
    { cls := fun c => c.isAlpha || c == '_', least := 0, most := some 19 },
    { cls := (· == '_'), least := 0 }, { cls := u.isDecimal, least := 0, most := none }]

/-- `$`: the end of the text, or a line break at its end. -/
def atEnd (text : Text) : Bool := text.isEmpty || text == ['\n']

/-- `TOKEN_PATTERN.search`. -/
def searchToken (text : Text) : Bool := search (tokenPattern u) (fun _ => true) text

/-- `PARTIAL_PATTERN.search`. -/
def searchPartial (text : Text) : Bool := search (partialPattern u) atEnd text

/-! ### The buffer -/

/-- `TAIL_WINDOW_CHARS`. -/
def tailWindowChars : ℕ := 128

/-- `MAX_BUFFER_CHARS`. -/
def maxBufferChars : ℕ := 2048

/-- `MAX_BUFFER_AGE_MS`. -/
def maxBufferAgeMs : ℚ := 1000

/-- `BufferState`. -/
inductive BufferState where
  | collecting
  | matching
  | flushing
  | terminated
deriving DecidableEq, Repr

/-- `TailBuffer`. -/
structure TailBuffer where
  activeBuffer : Text
  tailWindow : Text
  state : BufferState
  lastFlushAt : ℚ
deriving Repr

/-- What `time.monotonic()` gives, in seconds, when the age of the buffer is checked and when a
flush is noted. -/
structure Readings where
  checked : ℚ
  flushed : ℚ

namespace TailBuffer

/-- `__init__`. -/
def create (now : ℚ) : TailBuffer := ⟨[], [], .collecting, now⟩

/-- `_flush`. -/
def flush (b : TailBuffer) (now : ℚ) : List Text × TailBuffer :=
  let b := { b with state := .flushing }
  let bufferLen := b.activeBuffer.length
  if bufferLen ≤ tailWindowChars then
    ([], { b with tailWindow := b.activeBuffer, lastFlushAt := now, state := .collecting })
  else
    let safeEnd := bufferLen - tailWindowChars
    let safePrefix := b.activeBuffer.take safeEnd
    let tailWindow := b.activeBuffer.drop safeEnd
    (if safePrefix.isEmpty then [] else [safePrefix],
      { activeBuffer := tailWindow
        tailWindow := tailWindow
        lastFlushAt := now
        state := .collecting })

/-- The last characters of the buffer, in which tokens are looked for. -/
def tailRegion (b : TailBuffer) : Text :=
  if tailWindowChars < b.activeBuffer.length then
    b.activeBuffer.drop (b.activeBuffer.length - tailWindowChars)
  else b.activeBuffer

/-- The age of the buffer triggers a flush. -/
def isOld (b : TailBuffer) (now : ℚ) : Bool :=
  decide (0 < b.lastFlushAt ∧ maxBufferAgeMs ≤ (now - b.lastFlushAt) * 1000)

/-- `_match`: the age, the size, a token, or the lack of the beginning of one triggers a flush. -/
def match_ (b : TailBuffer) (clock : Readings) : List Text × TailBuffer :=
  if b.isOld clock.checked then b.flush clock.flushed
  else if maxBufferChars ≤ b.activeBuffer.length then b.flush clock.flushed
  else if searchToken u b.tailRegion then b.flush clock.flushed
  else if searchPartial u b.tailRegion then ([], { b with state := .collecting })
  else b.flush clock.flushed

/-- `_format_non_text_delta`; `dumpJson` is `model_dump_json` of a tool call. -/
def formatNonTextDelta (dumpJson : ToolCallDelta → Text) (event : StreamEvent) : Text :=
  match event.eventType with
  | .reasoningDelta => event.reasoning.getD []
  | .toolCallDelta => (event.toolCall.map dumpJson).getD "{}".toList
  | .finish => (event.finishReason.map FinishReason.value).getD "STOP".toList
  | .error => (Dict.get event.metadata "error".toList).getD "Unknown error".toList
  | _ => []

/-- `ingest`. -/
def ingest (dumpJson : ToolCallDelta → Text) (b : TailBuffer) (event : StreamEvent)
    (clock : Readings) : List Text × TailBuffer :=
  if b.state = .terminated then ([], b)
  else if event.eventType ≠ .textDelta then
    let text := formatNonTextDelta dumpJson event
    (if text.isEmpty then [] else [text], b)
  else { b with activeBuffer := b.activeBuffer ++ event.text, state := .matching }.match_ u clock

/-- `flush_remaining`. -/
def flushRemaining (b : TailBuffer) : Text × TailBuffer :=
  (b.activeBuffer, { b with activeBuffer := [], tailWindow := [] })

/-- `terminate`. -/
def terminate (b : TailBuffer) : TailBuffer := { b with state := .terminated }

/-! ### What a step does -/

/-- The triggers of `_match`, in one condition. -/
def flushes (b : TailBuffer) (now : ℚ) : Bool :=
  b.isOld now || decide (maxBufferChars ≤ b.activeBuffer.length) ||
    searchToken u b.tailRegion || !searchPartial u b.tailRegion

/-- Where a buffer is cut. -/
def safeEnd (b : TailBuffer) : ℕ := b.activeBuffer.length - tailWindowChars

variable {u}

theorem match_eq_flush {b : TailBuffer} {clock : Readings}
    (h : b.flushes u clock.checked = true) : b.match_ u clock = b.flush clock.flushed := by
  unfold match_
  split_ifs with hage hsize htoken hpartial
  · rfl
  · rfl
  · rfl
  · exact absurd h (by simp [flushes, hage, hsize, htoken, hpartial])
  · rfl

theorem match_eq_wait {b : TailBuffer} {clock : Readings}
    (h : b.flushes u clock.checked = false) :
    b.match_ u clock = ([], { b with state := .collecting }) := by
  simp only [flushes, Bool.or_eq_false_iff, decide_eq_false_iff_not, Bool.not_eq_false'] at h
  obtain ⟨⟨⟨hage, hsize⟩, htoken⟩, hpartial⟩ := h
  unfold match_
  rw [if_neg (by simp [hage]), if_neg hsize, if_neg (by simp [htoken]), if_pos hpartial]

theorem flush_of_le {b : TailBuffer} (h : b.activeBuffer.length ≤ tailWindowChars) (now : ℚ) :
    b.flush now = ([], { b with
      tailWindow := b.activeBuffer, lastFlushAt := now, state := .collecting }) :=
  if_pos h

theorem flush_of_lt {b : TailBuffer} (h : tailWindowChars < b.activeBuffer.length) (now : ℚ) :
    b.flush now = ([b.activeBuffer.take b.safeEnd],
      { activeBuffer := b.activeBuffer.drop b.safeEnd
        tailWindow := b.activeBuffer.drop b.safeEnd
        lastFlushAt := now
        state := .collecting }) := by
  have hstarts : ¬ (b.activeBuffer.take b.safeEnd).isEmpty = true := by
    rw [Bool.not_eq_true, List.isEmpty_eq_false_iff, ← List.length_pos_iff, List.length_take,
      safeEnd]
    omega
  unfold safeEnd at hstarts ⊢
  simp only [flush, not_le.mpr h, hstarts, Bool.false_eq_true, if_false]

/-- **A text event** is added to the buffer, and the buffer stays or is cut before its tail
window. A cut needs a trigger and a buffer longer than the window. -/
theorem ingest_textDelta (dumpJson : ToolCallDelta → Text) {b b' : TailBuffer}
    {event : StreamEvent} (clock : Readings) (hstate : b.state ≠ .terminated)
    (htype : event.eventType = .textDelta)
    (hextended : b' = { b with activeBuffer := b.activeBuffer ++ event.text, state := .matching }) :
    (ingest u dumpJson b event clock).2.state = .collecting ∧
      (((ingest u dumpJson b event clock).1 = [] ∧
          (ingest u dumpJson b event clock).2.activeBuffer = b'.activeBuffer) ∨
        (b'.flushes u clock.checked = true ∧ tailWindowChars < b'.activeBuffer.length ∧
          (ingest u dumpJson b event clock).1 = [b'.activeBuffer.take b'.safeEnd] ∧
          (ingest u dumpJson b event clock).2.activeBuffer =
            b'.activeBuffer.drop b'.safeEnd)) := by
  have hingest : ingest u dumpJson b event clock = b'.match_ u clock := by
    subst hextended
    unfold ingest
    rw [if_neg hstate, if_neg (not_not.mpr htype)]
  rw [hingest]
  by_cases hflush : b'.flushes u clock.checked = true
  · rw [match_eq_flush hflush]
    by_cases hlength : b'.activeBuffer.length ≤ tailWindowChars
    · rw [flush_of_le hlength]
      exact ⟨rfl, Or.inl ⟨rfl, rfl⟩⟩
    · have hlonger : tailWindowChars < b'.activeBuffer.length := not_le.mp hlength
      rw [flush_of_lt hlonger]
      refine ⟨rfl, Or.inr ⟨hflush, hlonger, ?_⟩⟩
      dsimp only
      exact ⟨rfl, rfl⟩
  · rw [match_eq_wait (Bool.not_eq_true _ ▸ hflush)]
    exact ⟨rfl, Or.inl ⟨rfl, rfl⟩⟩

/-- **No character is lost or duplicated** by a text event. -/
theorem flatten_ingest_textDelta (dumpJson : ToolCallDelta → Text) {b : TailBuffer}
    {event : StreamEvent} (clock : Readings) (hstate : b.state ≠ .terminated)
    (htype : event.eventType = .textDelta) :
    (ingest u dumpJson b event clock).1.flatten ++
        (ingest u dumpJson b event clock).2.activeBuffer = b.activeBuffer ++ event.text := by
  obtain ⟨-, ⟨hchunks, hbuffer⟩ | ⟨-, -, hchunks, hbuffer⟩⟩ :=
    ingest_textDelta (u := u) dumpJson clock hstate htype rfl
  · rw [hchunks, hbuffer]
    rfl
  · rw [hchunks, hbuffer, List.flatten_singleton, List.take_append_drop]

end TailBuffer

end AnonReq.Streaming
