import AnonReq.Foundation.Json
import AnonReq.Streaming.Generator

/-!
# The order and the types of events

What a client gets of the text and of the tool calls of a stream, from the payloads that
`SSEEmitter.emit` writes (`streaming/emitter.py`). The tail buffer gives a tool call back as a text,
at once, while the text before it is held back.

* `not_delivers`: no frame carries a tool call.
* `keepsEvents_iff`: where every cut of the text is clean, a stream keeps its events exactly if it
  has no tool calls; a stream with a tool call never keeps them, clean cuts or not.
* `not_keepsEvents`: a tool call becomes content, before the text the provider sent first.
-/

namespace AnonReq.Streaming

/-! ### Payloads -/

/-- A payload with one choice. -/
def choicePayload (delta : List (Text × Json)) (more : List (Text × Json)) : Json :=
  .object [("choices".toList, .list
    [.object (("delta".toList, .object delta) :: more ++ [("index".toList, .int 0)])])]

/-- What `SSEEmitter.emit` writes for a frame; the closing frame is no JSON. -/
def Frame.payload : Frame → Option Json
  | .content text => some (choicePayload [("content".toList, .text text)] [])
  | .finish reason => some (choicePayload [] [("finish_reason".toList, .text reason)])
  | .error message type => some (.object [("error".toList, .object
      [("message".toList, .text message), ("type".toList, .text type)])])
  | .empty => some (choicePayload [] [])
  | .done => none

/-- Where the tool calls of a payload are. -/
def toolCallsPath : List Key :=
  [.name "choices".toList, .index 0, .name "delta".toList, .name "tool_calls".toList]

/-! ### What a client has to get -/

variable (u : Unicode) (lookup : List (Text × Text))

/-- A tool call delta with its payload restored. -/
def ToolCallDelta.restored (delta : ToolCallDelta) : ToolCallDelta :=
  { delta with
    functionName := delta.functionName.map (restoreText u lookup)
    functionArguments := delta.functionArguments.map (restoreText u lookup) }

/-- A tool call of a payload says what a delta says. -/
structure CarriesCall (call : Json) (delta : ToolCallDelta) : Prop where
  index : call.get "index".toList = some (.int delta.index)
  id : ∀ id ∈ delta.id, call.get "id".toList = some (.text id)
  type : ∀ type ∈ delta.type, call.get "type".toList = some (.text type)
  functionName : ∀ functionName ∈ delta.functionName,
    call.readPath [.name "function".toList, .name "name".toList] = some (.text functionName)
  functionArguments : ∀ functionArguments ∈ delta.functionArguments,
    call.readPath [.name "function".toList, .name "arguments".toList] =
      some (.text functionArguments)

/-- A frame carries a tool call delta, restored. -/
def Delivers (frame : Frame) (toolCall : Option ToolCallDelta) : Prop :=
  ∃ payload calls, frame.payload = some payload ∧
    payload.readPath toolCallsPath = some (.list calls) ∧
    ∀ delta ∈ toolCall, ∃ call ∈ calls, CarriesCall call (delta.restored u lookup)

/-- The text events. -/
def texts (arrivals : List Arrival) : List Arrival :=
  arrivals.filter fun a => a.event.eventType = .textDelta

/-- A stream keeps its events: the contents are the restored text, with nothing of a tool call, and
every tool call is delivered as one, after the text before it. A token that the tool call cuts may
be waited for. -/
structure KeepsEvents (arrivals : List Arrival) (frames : List Frame) : Prop where
  text : contents frames = restoreText u lookup (textOf (texts arrivals))
  toolCalls : ∀ before a after, arrivals = before ++ a :: after →
    a.event.eventType = .toolCallDelta →
    ∃ sent frame rest, frames = sent ++ frame :: rest ∧
      Delivers u lookup frame a.event.toolCall ∧
      ∃ more, more <+: textOf (texts after) ∧
        restoreText u lookup (textOf (texts before) ++ more) <+: contents sent

/-- An event before the end of the stream, with the client there. -/
def Arrival.IsStreamed (a : Arrival) : Prop :=
  a.disconnected = false ∧
    (a.event.eventType = .textDelta ∨ a.event.eventType = .toolCallDelta ∨
      a.event.eventType = .start ∨ a.event.eventType = .heartbeat)

instance (a : Arrival) : Decidable a.IsStreamed := inferInstanceAs (Decidable (_ ∧ _))

variable {u lookup}

/-- **No frame carries a tool call.** -/
theorem not_delivers (frame : Frame) (toolCall : Option ToolCallDelta) :
    ¬ Delivers u lookup frame toolCall := by
  rintro ⟨payload, calls, hpayload, hcalls, -⟩
  have hnone : ∀ payload ∈ frame.payload, payload.readPath toolCallsPath = none := by
    cases frame with
    | content text => exact fun payload hmem => Option.some.inj hmem ▸ rfl
    | finish reason => exact fun payload hmem => Option.some.inj hmem ▸ rfl
    | error message type => exact fun payload hmem => Option.some.inj hmem ▸ rfl
    | empty => exact fun payload hmem => Option.some.inj hmem ▸ rfl
    | done => exact fun payload hmem => absurd hmem (by simp [Frame.payload])
  rw [hnone payload hpayload] at hcalls
  exact Option.some_ne_none _ hcalls.symm

/-! ### Streams without tool calls -/

variable {dumpJson : ToolCallDelta → Text}

/-- Starts and heartbeats leave no trace in the buffer. -/
theorem ingest_silent {a : Arrival}
    (h : a.event.eventType = .start ∨ a.event.eventType = .heartbeat) (b : TailBuffer) :
    b.ingest u dumpJson a.event a.clock = ([], b) := by
  have hne : a.event.eventType ≠ .textDelta := by
    obtain h | h := h <;> rw [h] <;> decide
  have hformat : TailBuffer.formatNonTextDelta dumpJson a.event = [] := by
    obtain h | h := h <;> rw [TailBuffer.formatNonTextDelta, h]
  rw [TailBuffer.ingest, if_pos hne, hformat]
  exact ite_self _

/-- Starts and heartbeats leave no trace. -/
theorem forward_texts {ending : Ending} {arrivals rest : List Arrival}
    (hevents : ∀ a ∈ arrivals, a.IsStreamed)
    (hcalls : ∀ a ∈ arrivals, a.event.eventType ≠ .toolCallDelta) (b : TailBuffer) :
    forward u dumpJson lookup ending b (arrivals ++ rest) =
      forward u dumpJson lookup ending b (texts arrivals ++ rest) := by
  induction arrivals generalizing b with
  | nil => rfl
  | cons a arrivals ih =>
    obtain ⟨⟨hconnected, htype⟩, hevents⟩ := List.forall_mem_cons.mp hevents
    obtain ⟨hcall, hcalls⟩ := List.forall_mem_cons.mp hcalls
    obtain htext | hsilent : a.event.eventType = .textDelta ∨
        (a.event.eventType = .start ∨ a.event.eventType = .heartbeat) :=
      htype.imp_right fun h => h.resolve_left hcall
    · have hfilter : texts (a :: arrivals) = a :: texts arrivals :=
        List.filter_cons_of_pos (by simp [htext])
      simp only [hfilter, List.cons_append, forward, hconnected, htext, Bool.false_eq_true,
        if_false, ih hevents hcalls]
    · -- the buffer neither changes nor gives a frame
      have hne : a.event.eventType ≠ .textDelta := by
        obtain h | h := hsilent <;> rw [h] <;> decide
      have hfilter : texts (a :: arrivals) = texts arrivals :=
        List.filter_cons_of_neg (by simp [hne])
      have hingest : b.ingest u dumpJson a.event a.clock = ([], b) := ingest_silent hsilent b
      rw [hfilter, ← ih hevents hcalls b]
      obtain h | h := hsilent
      · simp only [List.cons_append, forward, hconnected, h, hingest, Bool.false_eq_true, if_false]
        rfl
      · simp only [List.cons_append, forward, hconnected, h, hingest, Bool.false_eq_true, if_false]
        rfl

theorem isText_of_mem_texts {arrivals : List Arrival} (hevents : ∀ a ∈ arrivals, a.IsStreamed) :
    ∀ a ∈ texts arrivals, a.IsText := by
  intro a ha
  obtain ⟨hmem, htype⟩ := List.mem_filter.mp ha
  exact ⟨of_decide_eq_true htype, (hevents a hmem).1⟩

/-- **Streams without tool calls**: the contents are the restored pieces of the text. -/
theorem contents_streamGenerator_pieces {mapping : SessionMapping} {started : ℚ}
    {arrivals after : List Arrival} {finishing : Arrival} {ending : Ending} {audited : Bool}
    (hevents : ∀ a ∈ arrivals, a.IsStreamed) (hfinish : finishing.event.eventType = .finish)
    (hconnected : finishing.disconnected = false)
    (hcalls : ∀ a ∈ arrivals, a.event.eventType ≠ .toolCallDelta) :
    contents (streamGenerator u dumpJson mapping started (arrivals ++ finishing :: after) ending
        audited) =
      (pieces u (TailBuffer.create started) (texts arrivals)).flatMap
        (restoreText u (coreTable u mapping)) := by
  -- The frames of the closing carry no content.
  have hrest : Finishes ending (finishing :: after) :=
    Or.inr ⟨finishing, after, rfl, hfinish, hconnected⟩
  rw [streamGenerator, forward_texts hevents hcalls, contents_append,
    contents_forward_pieces (isText_of_mem_texts hevents) hrest (by simp [TailBuffer.create])]
  split_ifs <;> exact List.append_nil _

/-! ### Any streams -/

/-- A stream that keeps its events has no tool calls. -/
theorem ne_toolCallDelta_of_keepsEvents {arrivals : List Arrival} {frames : List Frame}
    (h : KeepsEvents u lookup arrivals frames) :
    ∀ a ∈ arrivals, a.event.eventType ≠ .toolCallDelta := by
  intro a ha hcall
  obtain ⟨before, after, hsplit⟩ := List.append_of_mem ha
  obtain ⟨sent, frame, rest, -, hdelivers, -⟩ := h.toolCalls before a after hsplit hcall
  exact not_delivers frame _ hdelivers

/-- **A stream keeps its events** only if it has no tool calls, and then it does keep them if every
cut of the text is clean. -/
theorem keepsEvents_iff (u : Unicode) (dumpJson : ToolCallDelta → Text) (mapping : SessionMapping)
    (started : ℚ) {arrivals after : List Arrival} {finishing : Arrival} (ending : Ending)
    (audited : Bool) (hevents : ∀ a ∈ arrivals, a.IsStreamed)
    (hfinish : finishing.event.eventType = .finish)
    (hconnected : finishing.disconnected = false) :
    (KeepsEvents u (coreTable u mapping) arrivals
        (streamGenerator u dumpJson mapping started (arrivals ++ finishing :: after) ending
          audited) → ∀ a ∈ arrivals, a.event.eventType ≠ .toolCallDelta) ∧
      (CutsSafe u dumpJson (coreTable u mapping) (TailBuffer.create started) (texts arrivals) →
        (KeepsEvents u (coreTable u mapping) arrivals
            (streamGenerator u dumpJson mapping started (arrivals ++ finishing :: after) ending
              audited) ↔ ∀ a ∈ arrivals, a.event.eventType ≠ .toolCallDelta)) := by
  refine ⟨ne_toolCallDelta_of_keepsEvents, fun hcuts => ⟨ne_toolCallDelta_of_keepsEvents, ?_⟩⟩
  intro hcalls
  refine ⟨?_, fun before a after hsplit hcall => ?_⟩
  · rw [contents_streamGenerator_pieces hevents hfinish hconnected hcalls]
    exact flatMap_restoreText_pieces (isText_of_mem_texts hevents) (by simp [TailBuffer.create])
      hcuts
  · have hmem : a ∈ arrivals := hsplit ▸ List.mem_append_right _ List.mem_cons_self
    exact absurd hcall (hcalls a hmem)

/-- An event that brings no text. -/
def silentArrival (eventType : EventType) : Arrival where
  event := { eventType := eventType }
  clock := ⟨1, 1⟩

set_option maxRecDepth 4000 in
theorem keepsEvents_earlyText :
    KeepsEvents .ascii (coreTable .ascii mailMapping)
      [silentArrival .start, textArrival earlyText, silentArrival .heartbeat]
      (streamGenerator .ascii (fun _ => []) mailMapping 1
        ([silentArrival .start, textArrival earlyText, silentArrival .heartbeat] ++
          finishArrival :: []) .exhausted true) := by
  obtain ⟨-, hiff⟩ := @keepsEvents_iff .ascii (fun _ => []) mailMapping 1
    [silentArrival .start, textArrival earlyText, silentArrival .heartbeat] [] finishArrival
    .exhausted true (by decide) rfl rfl
  exact (hiff ⟨fun _ _ => by decide +kernel, trivial⟩).mpr (by decide)

/-- A tool call. -/
def lookupCall : ToolCallDelta where
  index := 0
  id := some "call_1".toList
  type := some "function".toList
  functionName := some "lookup".toList
  functionArguments := some "\x7b\x7d".toList

/-- `model_dump_json` of the tool call. -/
def lookupJson : Text :=
  ("\x7b\"index\":0,\"id\":\"call_1\",\"type\":\"function\",\"function_name\":\"lookup\"," ++
    "\"function_arguments\":\"\x7b\x7d\"\x7d").toList

/-- An event with the tool call. -/
def callArrival : Arrival where
  event := { eventType := .toolCallDelta, toolCall := some lookupCall }
  clock := ⟨1, 1⟩

/-- **A tool call becomes content**, and stands before the text that the provider sent first. -/
theorem not_keepsEvents :
    contents (streamGenerator .ascii (fun _ => lookupJson) mailMapping 1
        ([textArrival "Hi".toList, callArrival] ++ finishArrival :: []) .exhausted true) =
      lookupJson ++ "Hi".toList ∧
    ¬ ∀ (u : Unicode) (dumpJson : ToolCallDelta → Text) (mapping : SessionMapping) (started : ℚ)
      (arrivals after : List Arrival) (finishing : Arrival) (ending : Ending) (audited : Bool),
      (∀ a ∈ arrivals, a.IsStreamed) → finishing.event.eventType = .finish →
      finishing.disconnected = false →
      KeepsEvents u (coreTable u mapping) arrivals
        (streamGenerator u dumpJson mapping started (arrivals ++ finishing :: after) ending
          audited) := by
  constructor
  · decide +kernel
  · intro h
    obtain ⟨-, hcalls⟩ := h .ascii (fun _ => lookupJson) mailMapping 1
      [textArrival "Hi".toList, callArrival] [] finishArrival .exhausted true (by decide) rfl rfl
    obtain ⟨sent, frame, rest, -, hdelivers, -⟩ :=
      hcalls [textArrival "Hi".toList] callArrival [] rfl rfl
    exact not_delivers frame _ hdelivers

end AnonReq.Streaming
