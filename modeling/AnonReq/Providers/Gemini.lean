import AnonReq.Providers.Documents
import AnonReq.Streaming.TailBuffer

/-!
# The streams of Gemini

`providers/gemini.py`: every payload of a stream becomes at most one event (`stream_events`,
`_parse_gemini_event`), and a response that is not streamed becomes a chat completion
(`translate_response`).

* `parseGeminiEvent_eq`: the event of a payload is the finish if there is a reason to finish, and
  the text of its parts otherwise.
* `streamEvents_eq`: the events of a stream.
* `keepsText_iff`: when the text deltas are the text of the response in one piece.
-/

namespace AnonReq.Providers

open Streaming

/-! ### Parts -/

/-- The `text` of each part that is an object. -/
def textParts (parts : List Json) : List Json :=
  parts.filterMap fun part =>
    match part with
    | .object fields => some ((fields.lookup "text".toList).getD (.text []))
    | _ => none

/-- `"".join(text_parts)`: `none` is the exception for an item that is no string. -/
def joinText (parts : List Json) : Option Text := ((textParts parts).mapM asText).map List.flatten

/-! ### Events -/

/-- A `StreamEvent` of a provider, with the fields that only the provider sets. -/
structure ProviderEvent extends StreamEvent where
  provider : Text
  role : Option Text
  raw : List (Text × Json) := []

/-- The reasons of Gemini by name. -/
def finishReasons : List (Text × FinishReason) :=
  [("STOP".toList, .stop), ("MAX_TOKENS".toList, .length), ("SAFETY".toList, .contentFilter),
    ("RECITATION".toList, .contentFilter), ("OTHER".toList, .unknown)]

/-- `_map_finish_reason`: `none` is the exception for what cannot be hashed. -/
def mapFinishReason : Json → Option FinishReason
  | .list _ | .object _ => none
  | .text reason => some ((finishReasons.lookup reason).getD .unknown)
  | _ => some .unknown

/-- The `role` of an event: `none` is the `ValidationError`. -/
def eventRole : Json → Option (Option Text)
  | .null => some none
  | .text role => some (some role)
  | _ => none

/-- `_parse_gemini_event`: the event of a payload, if there is one; `none` is an exception. -/
def parseGeminiEvent (data : Json) : Option (Option ProviderEvent) := do
  let candidates ← getD "candidates" (.list []) data
  if candidates.truthy = false then return none
  let candidate ← firstItem candidates
  let content ← getD "content" (.object []) candidate
  let role ← getD "role" (.text "model".toList) content
  let parts ← (← getD "parts" (.list []) content) |> iterate
  let fullText ← joinText parts
  let finishReasonRaw ← getD "finishReason" .null candidate
  if finishReasonRaw.truthy then
    let finishReason ← mapFinishReason finishReasonRaw
    let role ← eventRole role
    return some
      { eventType := .finish
        finishReason := some finishReason
        provider := "gemini".toList
        role := role
        raw := [("finishReason".toList, finishReasonRaw)] }
  if fullText ≠ [] then
    let role ← eventRole role
    return some
      { eventType := .textDelta
        deltaText := some fullText
        provider := "gemini".toList
        role := role }
  return none

/-- The payload of a line of the stream, if it has one; `loads` is `json.loads`. -/
def readLine (loads : Text → Option Json) (line : Text) : Option Json :=
  let line := line.strip
  if line = [] then none
  else if "data: ".toList <+: line then loads (line.drop 6)
  else none

/-- `stream_events` over the lines of a response: the events, and whether an exception ends
them. -/
def streamEvents (loads : Text → Option Json) : List Text → List ProviderEvent × Bool
  | [] => ([], false)
  | line :: lines =>
    match readLine loads line with
    | none => streamEvents loads lines
    | some data =>
      match parseGeminiEvent data with
      | none => ([], true)
      | some none => streamEvents loads lines
      | some (some event) =>
        (event :: (streamEvents loads lines).1, (streamEvents loads lines).2)

/-! ### Responses -/

/-- The text and the finish reason that `translate_response` reads from the candidates. -/
def readCandidates (candidates : Json) : Option (Text × Text) :=
  if candidates.truthy = false then some ([], "stop".toList)
  else do
    let candidate ← firstItem candidates
    let content ← getD "content" (.object []) candidate
    let parts ← (← getD "parts" (.list []) content) |> iterate
    let fullText ← joinText parts
    let finishReasonRaw ← getD "finishReason" (.text "STOP".toList) candidate
    let finishReason ← mapFinishReason finishReasonRaw
    return (fullText, finishReason.value.map Char.toLower)

/-- `translate_response`: the body of the chat completion; `none` is an exception. `model` is the
model of the request. -/
def translateResponse (model body : Json) : Option Json := do
  let candidates ← getD "candidates" (.list []) body
  let (fullText, finish) ← readCandidates candidates
  let id ← getD "id" (.text "anonreq-gemini".toList) body
  let model ← getD "model" model body
  let usage ← getD "usageMetadata" .null body
  let choice := Json.object
    [("index".toList, .int 0),
      ("message".toList, .object
        [("role".toList, .text "assistant".toList), ("content".toList, .text fullText)]),
      ("finish_reason".toList, .text finish)]
  return .object <|
    [("id".toList, id), ("object".toList, .text "chat.completion".toList),
      ("created".toList, .int 0), ("model".toList, model), ("choices".toList, .list [choice])] ++
      if usage.truthy then [("usage".toList, usage)] else []

/-- Where the text of a chat completion stands. -/
def contentPath : List Key :=
  [.name "choices".toList, .index 0, .name "message".toList, .name "content".toList]

/-! ### Payloads -/

/-- A payload with at least one candidate: what is read of it. The role is a text or null, the
parts are a list, and the reason to finish is a text or null. -/
structure Payload where
  data : Json
  candidate : Json
  others : List Json
  content : Json
  role : Json
  parts : List Json
  reason : Json
  getD_candidates : getD "candidates" (.list []) data = some (.list (candidate :: others))
  getD_content : getD "content" (.object []) candidate = some content
  getD_role : getD "role" (.text "model".toList) content = some role
  getD_parts : getD "parts" (.list []) content = some (.list parts)
  getD_reason : getD "finishReason" .null candidate = some reason
  role_eq : role = .null ∨ ∃ text, role = .text text
  reason_eq : reason = .null ∨ ∃ text, reason = .text text

/-- The payload carries a reason to finish. -/
def Payload.Finishes (p : Payload) : Prop := p.reason.truthy = true

instance (p : Payload) : Decidable p.Finishes :=
  inferInstanceAs (Decidable (_ = true))

/-- The events of a payload whose parts have a text. -/
def Payload.event (p : Payload) (text : Text) : Option ProviderEvent :=
  if p.Finishes then
    some
      { eventType := .finish
        finishReason := mapFinishReason p.reason
        provider := "gemini".toList
        role := asText p.role
        raw := [("finishReason".toList, p.reason)] }
  else if text ≠ [] then
    some
      { eventType := .textDelta
        deltaText := some text
        provider := "gemini".toList
        role := asText p.role }
  else none

theorem Payload.eventRole_eq (p : Payload) :
    eventRole p.role = some (asText p.role) := by
  obtain h | ⟨text, h⟩ := p.role_eq
  · rw [h]
    rfl
  · rw [h]
    rfl

theorem Payload.isSome_mapFinishReason (p : Payload) :
    ∃ reason, mapFinishReason p.reason = some reason := by
  obtain h | ⟨text, h⟩ := p.reason_eq
  · exact ⟨.unknown, by rw [h]; rfl⟩
  · exact ⟨_, by rw [h]; rfl⟩

/-- **One payload.** The text is read in any case; a reason to finish takes its place. -/
theorem parseGeminiEvent_eq (p : Payload) :
    parseGeminiEvent p.data = (joinText p.parts).map p.event := by
  obtain ⟨reason, hreason⟩ := p.isSome_mapFinishReason
  have htruthy : (Json.list (p.candidate :: p.others)).truthy = true := rfl
  unfold parseGeminiEvent
  simp only [p.getD_candidates, p.getD_content, p.getD_role, p.getD_parts, p.getD_reason,
    Option.bind_eq_bind, Option.bind_some, htruthy, firstItem, iterate, Bool.true_eq_false,
    if_false]
  rcases joinText p.parts with _ | text
  · rfl
  · simp only [Option.bind_some, Option.map_some, Payload.event, Payload.Finishes,
      p.eventRole_eq, hreason]
    split_ifs <;> rfl

/-- The text of a payload. -/
def Payload.text (p : Payload) : Text := (joinText p.parts).getD []

/-! ### The events of a stream -/

/-- The lines carry the payloads, one after another. -/
def Carry (loads : Text → Option Json) (lines : List Text) (payloads : List Payload) : Prop :=
  lines.filterMap (readLine loads) = payloads.map Payload.data

/-- The first payload of some lines comes after lines that have none. -/
theorem streamEvents_cons {loads : Text → Option Json} {lines : List Text} {p : Payload}
    {payloads : List Payload} (h : Carry loads lines (p :: payloads)) :
    ∃ rest, Carry loads rest payloads ∧ streamEvents loads lines =
      match (joinText p.parts).map p.event with
      | none => ([], true)
      | some none => streamEvents loads rest
      | some (some event) =>
        (event :: (streamEvents loads rest).1, (streamEvents loads rest).2) := by
  induction lines with
  | nil => exact absurd h (List.cons_ne_nil _ _).symm
  | cons line lines ih =>
    unfold Carry at h ih
    rcases hline : readLine loads line with _ | data
    · rw [List.filterMap_cons_none hline] at h
      obtain ⟨rest, hrest, heq⟩ := ih h
      exact ⟨rest, hrest, by rw [streamEvents, hline]; exact heq⟩
    · rw [List.filterMap_cons_some hline, List.map_cons] at h
      obtain ⟨rfl, hrest⟩ := List.cons.inj h
      refine ⟨lines, hrest, ?_⟩
      rw [← parseGeminiEvent_eq, streamEvents, hline]

theorem streamEvents_nil {loads : Text → Option Json} {lines : List Text}
    (h : Carry loads lines []) : streamEvents loads lines = ([], false) := by
  induction lines with
  | nil => rfl
  | cons line lines ih =>
    unfold Carry at h ih
    obtain ⟨hline, hlines⟩ := List.forall_mem_cons.mp (List.filterMap_eq_nil_iff.mp h)
    rw [streamEvents, hline]
    exact ih (List.filterMap_eq_nil_iff.mpr hlines)

/-- **A stream** whose parts all have texts gives the events of its payloads. -/
theorem streamEvents_eq {loads : Text → Option Json} {lines : List Text}
    {payloads : List Payload} (h : Carry loads lines payloads)
    (htexts : ∀ p ∈ payloads, joinText p.parts = some p.text) :
    streamEvents loads lines = (payloads.filterMap fun p => p.event p.text, false) := by
  induction payloads generalizing lines with
  | nil => exact streamEvents_nil h
  | cons p payloads ih =>
    obtain ⟨htext, htexts⟩ := List.forall_mem_cons.mp htexts
    obtain ⟨rest, hrest, heq⟩ := streamEvents_cons h
    rw [heq, htext, Option.map_some, ih hrest htexts]
    rcases hevent : p.event p.text with _ | event
    · rw [List.filterMap_cons_none (f := fun p : Payload => p.event p.text) hevent]
    · rw [List.filterMap_cons_some (f := fun p : Payload => p.event p.text) hevent]

/-! ### The text in one piece -/

theorem joinText_append (parts more : List Json) :
    joinText (parts ++ more) =
      (joinText parts).bind fun text => (joinText more).map fun rest => text ++ rest := by
  have htexts : textParts (parts ++ more) = textParts parts ++ textParts more :=
    List.filterMap_append
  rw [joinText, htexts, List.mapM_append, joinText, joinText]
  rcases (textParts parts).mapM asText with _ | texts
  · rfl
  · rcases (textParts more).mapM asText with _ | rest
    · rfl
    · exact congrArg some List.flatten_append

/-- The parts of all payloads have a text if and only if those of each payload have one. -/
theorem joinText_flatMap_isSome {payloads : List Payload} {text : Text}
    (h : joinText (payloads.flatMap Payload.parts) = some text) :
    ∀ p ∈ payloads, joinText p.parts = some p.text := by
  induction payloads generalizing text with
  | nil => exact fun _ hp => absurd hp List.not_mem_nil
  | cons p payloads ih =>
    rw [List.flatMap_cons, joinText_append] at h
    obtain ⟨first, hfirst, hrest⟩ := Option.bind_eq_some_iff.mp h
    obtain ⟨rest, hrest, -⟩ := Option.map_eq_some_iff.mp hrest
    refine List.forall_mem_cons.mpr ⟨?_, ih hrest⟩
    rw [Payload.text, hfirst]
    rfl

theorem joinText_flatMap {payloads : List Payload}
    (h : ∀ p ∈ payloads, joinText p.parts = some p.text) :
    joinText (payloads.flatMap Payload.parts) = some (payloads.flatMap Payload.text) := by
  induction payloads with
  | nil => rfl
  | cons p payloads ih =>
    obtain ⟨hp, hpayloads⟩ := List.forall_mem_cons.mp h
    rw [List.flatMap_cons, joinText_append, hp, Option.bind_some, ih hpayloads]
    rfl

/-- Dropping the pieces with a property changes nothing if and only if they are empty. -/
theorem flatMap_ite_eq_iff {α β : Type*} {P : α → Prop} [DecidablePred P] {f : α → List β}
    {xs : List α} :
    (xs.flatMap fun x => if P x then [] else f x) = xs.flatMap f ↔
      ∀ x ∈ xs, P x → f x = [] := by
  have hle : ∀ ys : List α,
      (ys.flatMap fun x => if P x then [] else f x).length ≤ (ys.flatMap f).length := by
    intro ys
    induction ys with
    | nil => exact le_rfl
    | cons y ys ih =>
      rw [List.flatMap_cons, List.flatMap_cons, List.length_append, List.length_append]
      split_ifs
      · exact Nat.add_le_add (Nat.zero_le _) ih
      · exact Nat.add_le_add_left ih _
  induction xs with
  | nil => simp
  | cons x xs ih =>
    rw [List.flatMap_cons, List.flatMap_cons, List.forall_mem_cons]
    refine Iff.trans ?_ (and_congr_right fun _ => ih)
    by_cases hx : P x
    · rw [if_pos hx, List.nil_append]
      constructor
      · -- what the rest can lose by dropping, the first piece cannot make up for
        intro h
        have hlength := congrArg List.length h
        rw [List.length_append] at hlength
        have hempty : f x = [] := List.length_eq_zero_iff.mp (by have := hle xs; omega)
        rw [hempty, List.nil_append] at h
        exact ⟨fun _ => hempty, h⟩
      · rintro ⟨hempty, h⟩
        rw [hempty hx, List.nil_append, h]
    · rw [if_neg hx, List.append_cancel_left_eq]
      exact ⟨fun h => ⟨fun hP => absurd hP hx, h⟩, fun h => h.2⟩

/-- The response in one piece: the parts of all payloads, and the reason of the last one. -/
def singleResponse (payloads : List Payload) : Json :=
  let finish : List (Text × Json) :=
    match payloads.getLast? with
    | some p => if p.Finishes then [("finishReason".toList, p.reason)] else []
    | none => []
  .object [("candidates".toList, .list [.object <|
    ("content".toList, .object [("parts".toList, .list (payloads.flatMap Payload.parts))]) ::
      finish])]

/-- The text of the response in one piece. -/
def responseText (model : Json) (payloads : List Payload) : Option Text :=
  (translateResponse model (singleResponse payloads)).bind fun body =>
    (body.readPath contentPath).bind asText

theorem responseText_eq (model : Json) (payloads : List Payload) :
    responseText model payloads = joinText (payloads.flatMap Payload.parts) := by
  -- Only the candidate's reason depends on the last payload, and every reason is mapped.
  have hfinish : ∃ candidate reason finish,
      singleResponse payloads = .object [("candidates".toList, .list [candidate])] ∧
      getD "content" (.object []) candidate = some (.object
        [("parts".toList, .list (payloads.flatMap Payload.parts))]) ∧
      getD "finishReason" (.text "STOP".toList) candidate = some reason ∧
      mapFinishReason reason = some finish := by
    unfold singleResponse
    rcases payloads.getLast? with _ | p
    · exact ⟨_, _, _, rfl, rfl, rfl, rfl⟩
    · obtain ⟨finish, hp⟩ := p.isSome_mapFinishReason
      by_cases h : p.Finishes
      · exact ⟨_, _, finish, rfl, rfl, by simp only [h, if_true]; rfl, hp⟩
      · exact ⟨_, _, _, rfl, rfl, by simp only [h, if_false]; rfl, rfl⟩
  obtain ⟨candidate, reason, finish, hsingle, hcontent, hreason, hmap⟩ := hfinish
  have hread : readCandidates (.list [candidate]) =
      (joinText (payloads.flatMap Payload.parts)).map
        fun text => (text, finish.value.map Char.toLower) := by
    have htruthy : (Json.list [candidate]).truthy = true := rfl
    have hparts : getD "parts" (.list []) (.object
        [("parts".toList, .list (payloads.flatMap Payload.parts))]) =
          some (.list (payloads.flatMap Payload.parts)) := rfl
    unfold readCandidates
    simp only [htruthy, firstItem, hcontent, hparts, iterate, hreason, hmap, Option.bind_eq_bind,
      Option.bind_some, Bool.true_eq_false, if_false]
    rcases joinText (payloads.flatMap Payload.parts) with _ | text
    · rfl
    · rfl
  have hcandidates : getD "candidates" (.list []) (singleResponse payloads) =
      some (.list [candidate]) := by
    rw [hsingle]
    rfl
  rw [responseText, translateResponse]
  simp only [hcandidates, hread, Option.bind_eq_bind, Option.bind_some]
  rw [hsingle]
  rcases joinText (payloads.flatMap Payload.parts) with _ | text
  · rfl
  · rfl

/-- The text of the deltas among some events. -/
def deltaText (events : List ProviderEvent) : Text :=
  (events.filter fun event => decide (event.eventType = .textDelta)).flatMap
    fun event => event.toStreamEvent.text

theorem deltaText_filterMap (payloads : List Payload) :
    deltaText (payloads.filterMap fun p => p.event p.text) =
      payloads.flatMap fun p => if p.Finishes then [] else p.text := by
  induction payloads with
  | nil => rfl
  | cons p payloads ih =>
    rw [List.flatMap_cons, ← ih]
    by_cases hfinish : p.Finishes
    · -- the finishing event has no room for the text of its payload
      have hevent : ∃ event, p.event p.text = some event ∧ event.eventType = .finish :=
        ⟨_, if_pos hfinish, rfl⟩
      obtain ⟨event, hevent, htype⟩ := hevent
      rw [List.filterMap_cons_some (f := fun p : Payload => p.event p.text) hevent, deltaText,
        List.filter_cons_of_neg (by simp [htype]), if_pos hfinish]
      rfl
    · rw [if_neg hfinish]
      by_cases htext : p.text = []
      · have hevent : p.event p.text = none := by
          rw [Payload.event, if_neg hfinish, if_neg fun h => h htext]
        rw [List.filterMap_cons_none (f := fun p : Payload => p.event p.text) hevent, htext]
        rfl
      · have hevent : ∃ event, p.event p.text = some event ∧ event.eventType = .textDelta ∧
            event.toStreamEvent.text = p.text :=
          ⟨_, (if_neg hfinish).trans (if_pos htext), rfl, rfl⟩
        obtain ⟨event, hevent, htype, hdelta⟩ := hevent
        rw [List.filterMap_cons_some (f := fun p : Payload => p.event p.text) hevent, deltaText,
          List.filter_cons_of_pos (by simp [htype]), List.flatMap_cons, hdelta]
        rfl

theorem exists_finish_iff (payloads : List Payload) :
    (∃ event ∈ payloads.filterMap fun p => p.event p.text, event.eventType = .finish) ↔
      ∃ p ∈ payloads, p.Finishes := by
  simp only [List.mem_filterMap]
  constructor
  · rintro ⟨event, ⟨p, hp, hevent⟩, htype⟩
    refine ⟨p, hp, ?_⟩
    by_contra hfinish
    rw [Payload.event, if_neg hfinish] at hevent
    split_ifs at hevent with htext
    obtain rfl := Option.some_injective _ hevent
    exact absurd htype (by simp)
  · rintro ⟨p, hp, hfinish⟩
    exact ⟨_, ⟨p, hp, if_pos hfinish⟩, rfl⟩

/-- A stream keeps its text: no exception ends it, its text deltas are the text of the response in
one piece, and it finishes exactly if a payload carries a reason to. -/
def KeepsText (model : Json) (loads : Text → Option Json) (lines : List Text)
    (payloads : List Payload) : Prop :=
  (streamEvents loads lines).2 = false ∧
    responseText model payloads = some (deltaText (streamEvents loads lines).1) ∧
    ((∃ event ∈ (streamEvents loads lines).1, event.eventType = .finish) ↔
      ∃ p ∈ payloads, p.Finishes)

/-- **Streams of Gemini.** A stream keeps its text if and only if all its parts have texts and no
payload that carries a reason to finish carries text as well. -/
theorem keepsText_iff (model : Json) {loads : Text → Option Json} {lines : List Text}
    {payloads : List Payload} (h : Carry loads lines payloads) :
    KeepsText model loads lines payloads ↔
      ∀ p ∈ payloads, ∃ text, joinText p.parts = some text ∧ (p.Finishes → text = []) := by
  rw [KeepsText, responseText_eq]
  constructor
  · rintro ⟨-, htext, -⟩ p hp
    have htexts := joinText_flatMap_isSome htext
    rw [joinText_flatMap htexts, streamEvents_eq h htexts, deltaText_filterMap] at htext
    exact ⟨p.text, htexts p hp,
      flatMap_ite_eq_iff.mp (Option.some_injective _ htext).symm p hp⟩
  · intro hall
    have htexts : ∀ p ∈ payloads, joinText p.parts = some p.text := fun p hp => by
      obtain ⟨text, htext, -⟩ := hall p hp
      rw [Payload.text, htext]
      rfl
    have hempty : ∀ p ∈ payloads, p.Finishes → p.text = [] := fun p hp hfinish => by
      obtain ⟨text, htext, hnil⟩ := hall p hp
      rw [Payload.text, htext]
      exact hnil hfinish
    rw [streamEvents_eq h htexts, joinText_flatMap htexts, deltaText_filterMap,
      flatMap_ite_eq_iff.mpr hempty]
    exact ⟨rfl, rfl, exists_finish_iff payloads⟩

/-! ### Two streams -/

/-- A payload with one part, and a reason to finish or null. -/
def partPayload (text : Text) (reason : Json)
    (h : reason = .null ∨ ∃ name, reason = .text name) : Payload where
  data := .object [("candidates".toList, .list [.object
    [("content".toList, .object
      [("parts".toList, .list [.object [("text".toList, .text text)]])]),
      ("finishReason".toList, reason)]])]
  candidate := .object
    [("content".toList, .object
      [("parts".toList, .list [.object [("text".toList, .text text)]])]),
      ("finishReason".toList, reason)]
  others := []
  content := .object [("parts".toList, .list [.object [("text".toList, .text text)]])]
  role := .text "model".toList
  parts := [.object [("text".toList, .text text)]]
  reason := reason
  getD_candidates := rfl
  getD_content := rfl
  getD_role := rfl
  getD_parts := rfl
  getD_reason := rfl
  role_eq := Or.inr ⟨_, rfl⟩
  reason_eq := h

/-- The payload with the text `Hi`. -/
def textPayload : Payload := partPayload "Hi".toList .null (Or.inl rfl)

/-- The payload that finishes, without a text. -/
def stopPayload : Payload := partPayload [] (.text "STOP".toList) (Or.inr ⟨_, rfl⟩)

/-- The payload that finishes, with the text `Hi`. -/
def lastPayload : Payload := partPayload "Hi".toList (.text "STOP".toList) (Or.inr ⟨_, rfl⟩)

/-- The line of `textPayload`. -/
def textLine : Text :=
  "data: \x7b\"candidates\":[\x7b\"content\":\x7b\"parts\":[".toList ++
    "\x7b\"text\":\"Hi\"\x7d]\x7d,\"finishReason\":null\x7d]\x7d".toList

/-- The line of `stopPayload`. -/
def stopLine : Text :=
  "data: \x7b\"candidates\":[\x7b\"content\":\x7b\"parts\":[".toList ++
    "\x7b\"text\":\"\"\x7d]\x7d,\"finishReason\":\"STOP\"\x7d]\x7d".toList

/-- The line of `lastPayload`. -/
def lastLine : Text :=
  "data: \x7b\"candidates\":[\x7b\"content\":\x7b\"parts\":[".toList ++
    "\x7b\"text\":\"Hi\"\x7d]\x7d,\"finishReason\":\"STOP\"\x7d]\x7d".toList

/-- `json.loads` on what these lines carry. -/
def loadsLines (s : Text) : Option Json :=
  if s = textLine.drop 6 then some textPayload.data
  else if s = stopLine.drop 6 then some stopPayload.data
  else if s = lastLine.drop 6 then some lastPayload.data
  else none

theorem carry_textLine : Carry loadsLines [textLine, stopLine] [textPayload, stopPayload] := by
  have htext : readLine loadsLines textLine = some textPayload.data := by
    unfold readLine
    rw [if_neg (by decide), if_pos (by decide)]
    exact if_pos (by decide)
  have hstop : readLine loadsLines stopLine = some stopPayload.data := by
    unfold readLine
    rw [if_neg (by decide), if_pos (by decide)]
    exact (if_neg (by decide)).trans (if_pos (by decide))
  rw [Carry, List.filterMap_cons_some htext, List.filterMap_cons_some hstop]
  rfl

theorem carry_lastLine : Carry loadsLines [lastLine] [lastPayload] := by
  have hlast : readLine loadsLines lastLine = some lastPayload.data := by
    unfold readLine
    rw [if_neg (by decide), if_pos (by decide)]
    exact (if_neg (by decide)).trans ((if_neg (by decide)).trans (if_pos (by decide)))
  rw [Carry, List.filterMap_cons_some hlast]
  rfl

/-- A stream whose last payload only finishes keeps its text. -/
theorem keepsText_textLine :
    KeepsText .null loadsLines [textLine, stopLine] [textPayload, stopPayload] := by
  refine (keepsText_iff .null carry_textLine).mpr fun p hp => ?_
  obtain rfl | hp := List.mem_cons.mp hp
  · exact ⟨_, rfl, fun h => absurd h (by decide)⟩
  · obtain rfl := List.mem_singleton.mp hp
    exact ⟨[], rfl, fun _ => rfl⟩

/-- The text of a payload that finishes is in no event. -/
theorem not_keepsText :
    (streamEvents loadsLines [lastLine]).1.map (fun event => event.deltaText) = [none] ∧
      responseText .null [lastPayload] = some "Hi".toList ∧
      ¬ KeepsText .null loadsLines [lastLine] [lastPayload] := by
  have htext : joinText lastPayload.parts = some "Hi".toList := rfl
  have hevents : streamEvents loadsLines [lastLine] =
      ([lastPayload].filterMap fun p => p.event p.text, false) :=
    streamEvents_eq carry_lastLine fun p hp => by
      obtain rfl := List.mem_singleton.mp hp
      rfl
  have hresponse : responseText .null [lastPayload] = some "Hi".toList :=
    (responseText_eq .null [lastPayload]).trans htext
  refine ⟨by rw [hevents]; rfl, hresponse, fun h => ?_⟩
  have hlost := h.2.1
  rw [hevents, hresponse] at hlost
  exact absurd (Option.some_injective _ hlost) (by decide)

end AnonReq.Providers
