import AnonReq.Providers.Gemini
import AnonReq.Providers.Requests

/-!
# The chunks of a stream

What `providers/openai.py`, `providers/anthropic.py` and `providers/ollama.py` make of one payload
of a stream (`_parse_chunk`, `_parse_anthropic_event`, `_parse_ollama_chunk`), and of the payloads
one after another.

* `OpenAIAdapter.parseChunk_eq`: the events of a chunk are those of its choices, with nothing left
  of the index of the choice.
* `eventsOf_eq`: payloads that all have events give them in order.
-/

namespace AnonReq.Providers

open Streaming

/-! ### What the adapters share -/

/-- `document.get(k) or default`: `none` is the exception. -/
def getOr (k : String) (default document : Json) : Option Json :=
  (getD k .null document).map fun value => if value.truthy then value else default

theorem exists_fields_of_getD {k : String} {default document value : Json}
    (h : getD k default document = some value) : ∃ fields, document = .object fields := by
  cases document with
  | object fields => exact ⟨fields, rfl⟩
  | null => exact absurd h (Option.some_ne_none _).symm
  | bool b => exact absurd h (Option.some_ne_none _).symm
  | int n => exact absurd h (Option.some_ne_none _).symm
  | float shown => exact absurd h (Option.some_ne_none _).symm
  | text s => exact absurd h (Option.some_ne_none _).symm
  | list items => exact absurd h (Option.some_ne_none _).symm

/-- `_map_finish_reason` with the `mapping` of an adapter: `none` is the exception for what cannot
be hashed. -/
def lookupReason (mapping : List (Text × FinishReason)) : Json → Option FinishReason
  | .list _ | .object _ => none
  | .text reason => some ((mapping.lookup reason).getD .unknown)
  | _ => some .unknown

/-- The payloads one after another: the events, and whether an exception ends them. -/
def eventsOf {α : Type} (parse : α → Option (List ProviderEvent)) :
    List α → List ProviderEvent × Bool
  | [] => ([], false)
  | payload :: payloads =>
    match parse payload with
    | none => ([], true)
    | some events =>
      (events ++ (eventsOf parse payloads).1, (eventsOf parse payloads).2)

theorem eventsOf_eq {α : Type} {parse : α → Option (List ProviderEvent)}
    {events : α → List ProviderEvent} {payloads : List α}
    (h : ∀ payload ∈ payloads, parse payload = some (events payload)) :
    eventsOf parse payloads = (payloads.flatMap events, false) := by
  induction payloads with
  | nil => rfl
  | cons payload payloads ih =>
    obtain ⟨hpayload, hpayloads⟩ := List.forall_mem_cons.mp h
    rw [eventsOf, hpayload, ih hpayloads, List.flatMap_cons]

theorem eventsOf_map {α β : Type} (parse : β → Option (List ProviderEvent)) (g : α → β)
    (payloads : List α) :
    eventsOf parse (payloads.map g) = eventsOf (fun payload => parse (g payload)) payloads := by
  induction payloads with
  | nil => rfl
  | cons payload payloads ih => rw [List.map_cons, eventsOf, eventsOf, ih]

/-- The texts among some events. -/
def eventTexts (events : List StreamEvent) : Text :=
  (events.filter fun event => event.eventType = .textDelta).flatMap StreamEvent.text

theorem eventTexts_append (a b : List StreamEvent) :
    eventTexts (a ++ b) = eventTexts a ++ eventTexts b := by
  rw [eventTexts, List.filter_append, List.flatMap_append]
  rfl

theorem deltaText_eq (events : List ProviderEvent) :
    deltaText events = eventTexts (events.map ProviderEvent.toStreamEvent) := by
  rw [deltaText, eventTexts, List.filter_map, List.flatMap_map]
  rfl

theorem deltaText_append (a b : List ProviderEvent) :
    deltaText (a ++ b) = deltaText a ++ deltaText b := by
  rw [deltaText_eq, List.map_append, eventTexts_append, ← deltaText_eq, ← deltaText_eq]

theorem deltaText_flatMap {α : Type} (events : α → List ProviderEvent) (xs : List α) :
    deltaText (xs.flatMap events) = xs.flatMap fun x => deltaText (events x) := by
  induction xs with
  | nil => rfl
  | cons x xs ih => rw [List.flatMap_cons, deltaText_append, ih, List.flatMap_cons]

/-- The texts of payloads that all have events. -/
theorem deltaText_eventsOf {α : Type} {parse : α → Option (List ProviderEvent)} {text : α → Text}
    {payloads : List α}
    (h : ∀ payload ∈ payloads, ∃ events, parse payload = some events ∧
      deltaText events = text payload) :
    deltaText (eventsOf parse payloads).1 = payloads.flatMap text := by
  induction payloads with
  | nil => rfl
  | cons payload payloads ih =>
    obtain ⟨⟨events, hparse, htext⟩, hpayloads⟩ := List.forall_mem_cons.mp h
    rw [eventsOf, hparse, List.flatMap_cons, ← ih hpayloads, ← htext]
    exact deltaText_append _ _

/-! ### OpenAI -/

namespace OpenAIAdapter

/-- `provider_name`. -/
def providerName : Text := "openai".toList

/-- The reasons of OpenAI by name. -/
def finishReasons : List (Text × FinishReason) :=
  [("stop".toList, .stop), ("length".toList, .length), ("tool_calls".toList, .toolCall),
    ("function_call".toList, .toolCall), ("content_filter".toList, .contentFilter)]

/-- `_map_finish_reason`. -/
def mapFinishReason : Json → Option FinishReason := lookupReason finishReasons

/-- `role or "assistant"`. -/
def speaker (role : Json) : Json := if role.truthy then role else .text "assistant".toList

section

-- the `int` of a model field, for a value of another type
variable (toInt : Json → Option ℤ)

/-- The index of a tool call: `none` is the `ValidationError`. -/
def toolIndex : Json → Option ℤ
  | .int i => some i
  | other => toInt other

/-- The delta of one tool call, the one at `index` of its list. -/
def toolCallDelta (index : ℕ) (toolCall : Json) : Option ToolCallDelta := do
  let function ← getOr "function" (.object []) toolCall
  let index ← (← getD "index" (.int index) toolCall) |> toolIndex toInt
  let id ← (← getD "id" .null toolCall) |> eventRole
  let type ← (← getD "type" .null toolCall) |> eventRole
  let functionName ← (← getD "name" .null function) |> eventRole
  let functionArguments ← (← getD "arguments" .null function) |> eventRole
  return ⟨index, id, type, functionName, functionArguments⟩

/-- The tool calls of a delta. -/
def toolCallDeltas (delta : Json) : Option (List ToolCallDelta) := do
  let toolCalls ← (← getOr "tool_calls" (.list []) delta) |> iterate
  toolCalls.zipIdx.mapM fun toolCall => toolCallDelta toInt toolCall.2 toolCall.1

/-- The start of a choice: a role without content. -/
def startEvents (data role content : Json) : Option (List ProviderEvent) :=
  if role.truthy && !content.truthy then do
    let speaker ← eventRole role
    let id ← getD "id" (.text []) data
    let model ← getD "model" (.text []) data
    return [{
      eventType := .start
      provider := providerName
      role := speaker
      raw := [("id".toList, id), ("model".toList, model)] }]
  else some []

/-- The text of a choice. -/
def textEvents (role content : Json) : Option (List ProviderEvent) :=
  if content.truthy then do
    let speaker ← eventRole (speaker role)
    let text ← asText content
    return [{
      eventType := .textDelta
      deltaText := some text
      provider := providerName
      role := speaker }]
  else some []

/-- The tool calls of a choice. -/
def toolCallEvents (role delta : Json) : Option (List ProviderEvent) := do
  let deltas ← toolCallDeltas toInt delta
  deltas.mapM fun toolCall => do
    let speaker ← eventRole (speaker role)
    return {
      eventType := .toolCallDelta
      toolCall := some toolCall
      provider := providerName
      role := speaker }

/-- The end of a choice. -/
def finishEvents (role finishReason : Json) : Option (List ProviderEvent) :=
  if finishReason.truthy then do
    let speaker ← eventRole (speaker role)
    let reason ← mapFinishReason finishReason
    return [{
      eventType := .finish
      finishReason := some reason
      provider := providerName
      role := speaker
      raw := [("finish_reason".toList, finishReason)] }]
  else some []

/-- The events of one of the choices of a chunk. -/
def parseChoice (data choice : Json) : Option (List ProviderEvent) := do
  let delta ← getOr "delta" (.object []) choice
  let role ← getD "role" .null delta
  let content ← getD "content" .null delta
  let start ← startEvents data role content
  let text ← textEvents role content
  let toolCalls ← toolCallEvents toInt role delta
  let finish ← finishEvents role (← getD "finish_reason" .null choice)
  return start ++ text ++ toolCalls ++ finish

/-- `_parse_chunk`: `none` is an exception. -/
def parseChunk (data : Json) : Option (List ProviderEvent) := do
  let choices ← (← getOr "choices" (.list []) data) |> iterate
  return (← choices.mapM (parseChoice toInt data)).flatten

/-! ### The chunks of OpenAI -/

/-- A text, or null. -/
def textOrNull : Option Text → Json
  | none => .null
  | some s => .text s

/-- One of the choices of a chunk: its index, its delta, and the reason to finish. The code never
reads the index, so that no proof does; it says which choice a text is part of. -/
structure ChoiceChunk where
  json : Json
  delta : Json
  index : ℕ
  role : Option Text
  content : Option Text
  calls : List ToolCallDelta
  reason : Option Text
  index_eq : json.get "index".toList = some (.int index)
  delta_eq : getOr "delta" (.object []) json = some delta
  role_eq : getD "role" .null delta = some (textOrNull role)
  content_eq : getD "content" .null delta = some (textOrNull content)
  calls_eq : toolCallDeltas toInt delta = some calls
  reason_eq : getD "finish_reason" .null json = some (textOrNull reason)

/-- A chunk with its choices. -/
structure Chunk where
  data : Json
  choices : List (ChoiceChunk toInt)
  choices_eq : getOr "choices" (.list []) data = some (.list (choices.map ChoiceChunk.json))

variable {toInt}

namespace ChoiceChunk

/-- The text of the delta. -/
def text (c : ChoiceChunk toInt) : Text := c.content.getD []

/-- The choice ends with this chunk. -/
def Finishes (c : ChoiceChunk toInt) : Prop := c.reason.getD [] ≠ []

instance (c : ChoiceChunk toInt) : Decidable c.Finishes := inferInstanceAs (Decidable (_ ≠ _))

/-- The role of the events. -/
def speaker (c : ChoiceChunk toInt) : Text :=
  if c.role.getD [] = [] then "assistant".toList else c.role.getD []

/-- The events before the end of the choice. -/
def deltas (data : Json) (c : ChoiceChunk toInt) : List ProviderEvent :=
  (if c.role.getD [] ≠ [] ∧ c.text = [] then
    [{
      eventType := .start
      provider := providerName
      role := c.role
      raw :=
        [("id".toList, (data.get "id".toList).getD (.text [])),
          ("model".toList, (data.get "model".toList).getD (.text []))] }]
    else []) ++
  (if c.text ≠ [] then
    [{
      eventType := .textDelta
      deltaText := some c.text
      provider := providerName
      role := some c.speaker }]
    else []) ++
  c.calls.map fun toolCall =>
    { eventType := .toolCallDelta
      toolCall := some toolCall
      provider := providerName
      role := some c.speaker }

/-- The event for the end of the choice. -/
def finish (c : ChoiceChunk toInt) : ProviderEvent where
  eventType := .finish
  finishReason := some ((finishReasons.lookup (c.reason.getD [])).getD .unknown)
  provider := providerName
  role := some c.speaker
  raw := [("finish_reason".toList, textOrNull c.reason)]

/-- The events of a choice. -/
def events (data : Json) (c : ChoiceChunk toInt) : List ProviderEvent :=
  c.deltas data ++ if c.Finishes then [c.finish] else []

theorem truthy_textOrNull (value : Option Text) :
    (textOrNull value).truthy = !(value.getD []).isEmpty := by
  cases value with
  | none => rfl
  | some s => rfl

theorem eventRole_textOrNull (value : Option Text) :
    eventRole (textOrNull value) = some value := by
  cases value with
  | none => rfl
  | some s => rfl

theorem eventRole_speaker (c : ChoiceChunk toInt) :
    eventRole (OpenAIAdapter.speaker (textOrNull c.role)) = some (some c.speaker) := by
  unfold OpenAIAdapter.speaker speaker
  rw [truthy_textOrNull]
  rcases c.role with _ | _ | ⟨letter, letters⟩
  · rfl
  · rfl
  · rfl

theorem textEvents_eq (c : ChoiceChunk toInt) :
    textEvents (textOrNull c.role) (textOrNull c.content) = some (if c.text ≠ [] then
      [{
        eventType := .textDelta
        deltaText := some c.text
        provider := providerName
        role := some c.speaker }]
      else []) := by
  unfold textEvents text
  rw [truthy_textOrNull, c.eventRole_speaker]
  rcases c.content with _ | _ | ⟨letter, letters⟩
  · rfl
  · rfl
  · rfl

theorem finishEvents_eq (c : ChoiceChunk toInt) :
    finishEvents (textOrNull c.role) (textOrNull c.reason) =
      some (if c.Finishes then [c.finish] else []) := by
  unfold finishEvents
  rw [truthy_textOrNull, c.eventRole_speaker]
  by_cases hreason : c.reason.getD [] = []
  · rw [if_neg (by simp [hreason]), if_neg fun h : c.Finishes => h hreason]
  · rw [if_pos (by simp [hreason]), if_pos (show c.Finishes from hreason)]
    have hmap : mapFinishReason (textOrNull c.reason) =
        some ((finishReasons.lookup (c.reason.getD [])).getD .unknown) := by
      rcases hvalue : c.reason with _ | reason
      · exact absurd (by rw [hvalue]; rfl) hreason
      · rfl
    rw [hmap]
    rfl

theorem toolCallEvents_eq (c : ChoiceChunk toInt) :
    toolCallEvents toInt (textOrNull c.role) c.delta =
      some (c.calls.map fun toolCall =>
        { eventType := .toolCallDelta
          toolCall := some toolCall
          provider := providerName
          role := some c.speaker }) := by
  unfold toolCallEvents
  simp only [c.calls_eq, c.eventRole_speaker, Option.bind_eq_bind, Option.bind_some]
  exact List.mapM_pure

/-- **One choice.** Its events say nothing of its index. -/
theorem parseChoice_eq (fields : List (Text × Json)) (c : ChoiceChunk toInt) :
    parseChoice toInt (.object fields) c.json = some (c.events (.object fields)) := by
  have hstart : startEvents (.object fields) (textOrNull c.role) (textOrNull c.content) =
      some (if c.role.getD [] ≠ [] ∧ c.text = [] then
        [{
          eventType := .start
          provider := providerName
          role := c.role
          raw :=
            [("id".toList, (fields.lookup "id".toList).getD (.text [])),
              ("model".toList, (fields.lookup "model".toList).getD (.text []))] }]
        else []) := by
    unfold startEvents text
    rw [truthy_textOrNull, truthy_textOrNull, eventRole_textOrNull]
    rcases c.role with _ | _ | ⟨letter, letters⟩
    · rfl
    · rfl
    · rcases c.content with _ | _ | ⟨letter, letters⟩
      · rfl
      · rfl
      · rfl
  unfold parseChoice
  simp only [c.delta_eq, c.role_eq, c.content_eq, c.reason_eq, hstart, c.textEvents_eq,
    c.toolCallEvents_eq, c.finishEvents_eq, Option.bind_eq_bind, Option.bind_some]
  rfl

/-- What the stream reads of the events before the end of a choice. -/
def deltaEvents (c : ChoiceChunk toInt) : List StreamEvent :=
  (if c.role.getD [] ≠ [] ∧ c.text = [] then [{ eventType := .start }] else []) ++
    (if c.text ≠ [] then [{ eventType := .textDelta, deltaText := some c.text }] else []) ++
    c.calls.map fun toolCall => { eventType := .toolCallDelta, toolCall := some toolCall }

theorem map_toStreamEvent_deltas (data : Json) (c : ChoiceChunk toInt) :
    (c.deltas data).map ProviderEvent.toStreamEvent = deltaEvents c := by
  unfold ChoiceChunk.deltas deltaEvents
  rw [List.map_append, List.map_append, List.map_map]
  split_ifs <;> rfl

theorem eventTexts_deltaEvents (c : ChoiceChunk toInt) : eventTexts (deltaEvents c) = c.text := by
  have hcalls : eventTexts (c.calls.map fun toolCall =>
      { eventType := .toolCallDelta, toolCall := some toolCall }) = [] := by
    have hnone : ((c.calls.map fun toolCall => ({
        eventType := .toolCallDelta
        toolCall := some toolCall } : StreamEvent)).filter
          fun event => event.eventType = .textDelta) = [] := by
      simp
    rw [eventTexts, hnone, List.flatMap_nil]
  unfold deltaEvents
  rw [eventTexts_append, eventTexts_append, hcalls, List.append_nil]
  by_cases htext : c.text = []
  · rw [if_neg (not_not.mpr htext), htext]
    split_ifs <;> rfl
  · rw [if_pos htext, if_neg fun h => htext h.2]
    exact List.append_nil _

theorem deltaText_events (data : Json) (c : ChoiceChunk toInt) :
    deltaText (c.events data) = c.text := by
  rw [deltaText_eq, events, List.map_append, eventTexts_append, map_toStreamEvent_deltas,
    eventTexts_deltaEvents]
  split_ifs
  · exact List.append_nil _
  · exact List.append_nil _

end ChoiceChunk

theorem Chunk.exists_fields (c : Chunk toInt) : ∃ fields, c.data = .object fields := by
  obtain ⟨choices, hget, -⟩ := Option.map_eq_some_iff.mp c.choices_eq
  exact exists_fields_of_getD hget

/-- **One chunk**: the events of its choices, one after another. -/
theorem parseChunk_eq (c : Chunk toInt) :
    parseChunk toInt c.data = some (c.choices.flatMap (ChoiceChunk.events c.data)) := by
  obtain ⟨fields, hfields⟩ := c.exists_fields
  have hchoices : (c.choices.map ChoiceChunk.json).mapM (parseChoice toInt c.data) =
      some (c.choices.map (ChoiceChunk.events c.data)) := by
    rw [hfields]
    induction c.choices with
    | nil => rfl
    | cons choice choices ih =>
      rw [List.map_cons, List.mapM_cons, choice.parseChoice_eq fields, ih]
      rfl
  unfold parseChunk
  simp only [c.choices_eq, iterate, hchoices, Option.bind_eq_bind, Option.bind_some]
  rfl

/-- **Some chunks.** -/
theorem eventsOf_parseChunk (chunks : List (Chunk toInt)) :
    eventsOf (parseChunk toInt) (chunks.map Chunk.data) =
      (chunks.flatMap fun c => c.choices.flatMap (ChoiceChunk.events c.data), false) := by
  rw [eventsOf_map]
  exact eventsOf_eq fun c _ => parseChunk_eq c

/-- One choice of a chunk, with a text and possibly a reason to finish. -/
def deltaChoice (i : ℕ) (text : Text) (reason : Option Text) : ChoiceChunk fun _ => none where
  json := .object
    [("index".toList, .int i), ("delta".toList, .object [("content".toList, .text text)]),
      ("finish_reason".toList, textOrNull reason)]
  delta := .object [("content".toList, .text text)]
  index := i
  role := none
  content := some text
  calls := []
  reason := reason
  index_eq := rfl
  delta_eq := rfl
  role_eq := rfl
  content_eq := rfl
  calls_eq := rfl
  reason_eq := rfl

/-- The end of a choice. -/
def stopChoice (i : ℕ) : ChoiceChunk fun _ => none := deltaChoice i [] (some "stop".toList)

/-- A chunk of one choice. -/
def oneChoice (c : ChoiceChunk fun _ => none) : Chunk fun _ => none where
  data := .object [("choices".toList, .list [c.json])]
  choices := [c]
  choices_eq := rfl

end

end OpenAIAdapter

/-! ### Anthropic -/

namespace AnthropicAdapter

/-- `provider_name`. -/
def providerName : Text := "anthropic".toList

/-- The reasons of Anthropic by name. -/
def finishReasons : List (Text × FinishReason) :=
  [("end_turn".toList, .stop), ("stop_sequence".toList, .stop), ("max_tokens".toList, .length),
    ("tool_use".toList, .toolCall)]

/-- `_map_finish_reason`. -/
def mapFinishReason : Json → Option FinishReason := lookupReason finishReasons

/-- An event of the assistant. -/
def assistantEvent (event : StreamEvent) (raw : List (Text × Json)) : ProviderEvent :=
  { event with provider := providerName, role := some "assistant".toList, raw := raw }

/-- The event of a `content_block_delta`. -/
def parseDelta (data : Json) : Option (Option ProviderEvent) := do
  let delta ← getD "delta" (.object []) data
  let deltaType ← getD "type" .null delta
  if isWord "text_delta" deltaType then
    let text ← (← getD "text" (.text []) delta) |> eventRole
    return some (assistantEvent { eventType := .textDelta, deltaText := text } [])
  else if isWord "input_json_delta" deltaType then
    let partialJson ← getD "partial_json" (.text []) delta
    return some (assistantEvent { eventType := .toolCallDelta }
      [("partial_json".toList, partialJson)])
  else return none

/-- The event of a `message_delta`. -/
def parseStop (data : Json) : Option (Option ProviderEvent) := do
  let delta ← getD "delta" (.object []) data
  let stopReason ← getD "stop_reason" .null delta
  if stopReason.truthy then
    let finishReason ← mapFinishReason stopReason
    let usage ← getD "usage" (.object []) data
    return some (assistantEvent { eventType := .finish, finishReason := some finishReason }
      [("stop_reason".toList, stopReason), ("usage".toList, usage)])
  else return none

/-- `_parse_anthropic_event`: `none` is an exception. -/
def parseAnthropicEvent (sseEventType : Text) (data : Json) : Option (Option ProviderEvent) :=
  if sseEventType = "message_start".toList then do
    let message ← getD "message" (.object []) data
    let id ← getD "id" (.text []) message
    return some (assistantEvent { eventType := .start } [("message_id".toList, id)])
  else if sseEventType = "content_block_delta".toList then parseDelta data
  else if sseEventType = "message_delta".toList then parseStop data
  else if sseEventType = "error".toList then do
    let error ← getD "error" (.object []) data
    return some
      { eventType := .error
        provider := providerName
        role := none
        raw := [("error".toList, error)] }
  else some none

end AnthropicAdapter

/-! ### Ollama -/

namespace OllamaAdapter

/-- `provider_name`. -/
def providerName : Text := "ollama".toList

/-- The reasons of Ollama by name. -/
def finishReasons : List (Text × FinishReason) :=
  [("stop".toList, .stop), ("length".toList, .length)]

/-- `_map_finish_reason`. -/
def mapFinishReason : Json → Option FinishReason := lookupReason finishReasons

/-- `message.get(k, default)` of a message, the default where it is no object. -/
def messageField (k default : String) : Json → Json
  | .object fields => (fields.lookup k.toList).getD (.text default.toList)
  | _ => .text default.toList

/-- The text of a chunk. -/
def textEvents (role content : Json) : Option (List ProviderEvent) :=
  if content.truthy then do
    let speaker ← eventRole role
    let text ← asText content
    return [{
      eventType := .textDelta
      deltaText := some text
      provider := providerName
      role := speaker }]
  else some []

/-- The end of a stream. -/
def finishEvents (data role : Json) : Option (List ProviderEvent) := do
  let done ← getD "done" (.bool false) data
  if done.truthy then
    let doneReason ← getD "done_reason" (.text "stop".toList) data
    let finishReason ← mapFinishReason doneReason
    let speaker ← eventRole role
    return [{
      eventType := .finish
      finishReason := some finishReason
      provider := providerName
      role := speaker
      raw := [("done_reason".toList, doneReason)] }]
  else return []

/-- `_parse_ollama_chunk`: `none` is an exception. -/
def parseOllamaChunk (data : Json) : Option (List ProviderEvent) := do
  let message ← getD "message" (.object []) data
  let content := messageField "content" "" message
  let role := messageField "role" "assistant" message
  return (← textEvents role content) ++ (← finishEvents data role)

end OllamaAdapter

end AnonReq.Providers
