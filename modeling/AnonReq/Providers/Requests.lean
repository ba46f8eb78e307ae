import Mathlib.Data.List.Perm.Subperm
import AnonReq.Foundation.Runs
import AnonReq.Providers.Documents

/-!
# The requests to Anthropic and Gemini

`translate_request` of `providers/anthropic.py` and `providers/gemini.py`: the messages of a chat
are split into one system text and the entries of the conversation, each with a role and a content.
Nothing else of a message is read, so that its tool calls, and the call that it answers, are lost.

* `splitMessages_eq`: the system text is that of the last system message, and the other messages
  keep their order.
* `Format.KeepsConversation` says what a body should hold: each content in its order, the strings of
  the system messages, and in each entry the tool calls of its message beside role and content.
* `keepsConversation_iff`: when a body that is built holds the conversation. It is so for
  `greeting`, and not for a chat with two system messages or with a tool call.
-/

namespace AnonReq.Providers

/-! ### Messages -/

/-- `role == word`. -/
def isWord (word : String) : Json → Bool
  | .text s => s == word.toList
  | _ => false

section

-- `str` of a document that is no string
variable (pyStr : Json → Text)

/-- `content if isinstance(content, str) else str(content)`. -/
def shown : Json → Text
  | .text s => s
  | content => pyStr content

/-- One message of the loop: it takes the place of the system text, or is one more entry. -/
def splitMessage (entry : Json → Json → Json) (state : Option Text × List Json) (msg : Json) :
    Option (Option Text × List Json) := do
  let role ← getD "role" (.text []) msg
  let content ← getD "content" (.text []) msg
  if isWord "system" role then return (some (shown pyStr content), state.2)
  return (state.1, state.2 ++ [entry role content])

/-- The loop over the messages: the system text and the entries, `none` for an exception. -/
def splitMessages (entry : Json → Json → Json) (messages : List Json) :
    Option (Option Text × List Json) :=
  messages.foldlM (splitMessage pyStr entry) (none, [])

/-! ### Tools and parameters -/

/-- A tool with its schema under another key: `_convert_tool`, `_convert_tools`. -/
def convertTool (schemaKey : String) (tool : Json) : Option Json := do
  let function ← getD "function" (.object []) tool
  let name ← getD "name" (.text []) function
  let description ← getD "description" (.text []) function
  let parameters ← getD "parameters" (.object []) function
  return .object [("name".toList, name), ("description".toList, description),
    (schemaKey.toList, parameters)]

/-- The tools of a request, if it has any: `none` is an exception. -/
def convertTools (schemaKey : String) (tools : Json) : Option (Option (List Json)) :=
  if tools.truthy then do
    let items ← iterate tools
    return some (← items.mapM (convertTool schemaKey))
  else some none

/-- The parameters of a request that are not null. -/
def copyParams (names : List String) (original : Json) : List (Text × Json) :=
  names.filterMap fun name =>
    match original.get name.toList with
    | none | some .null => none
    | some value => some (name.toList, value)

/-- The `tool_choice` of Anthropic. -/
def convertToolChoice : Json → List (Text × Json)
  | .object fields => [("tool_choice".toList, .object fields)]
  | choice =>
    let type (name : String) : List (Text × Json) :=
      [("tool_choice".toList, .object [("type".toList, .text name.toList)])]
    if isWord "auto" choice then type "auto"
    else if isWord "required" choice then type "any"
    else if isWord "none" choice then type "none"
    else []

/-! ### The adapters -/

/-- `ProviderRequest`. -/
structure ProviderRequest where
  url : Text
  headers : List (Text × Text)
  body : Json
  timeout : ℕ

namespace AnthropicAdapter

/-- An entry of the conversation. -/
def entry (role content : Json) : Json :=
  .object [("role".toList, role), ("content".toList, content)]

/-- `AnthropicAdapter.translate_request`: `none` is an exception. -/
def translateRequest (apiKey : Text) (original : Json) : Option ProviderRequest := do
  let messages ← (← getD "messages" (.list []) original) |> iterate
  let (system, entries) ← splitMessages pyStr entry messages
  let model ← getD "model" (.text "claude-sonnet-4".toList) original
  let tools ← convertTools "input_schema" (← getD "tools" .null original)
  let toolChoice ← getD "tool_choice" .null original
  let systemText := system.getD []
  return {
    url := "https://api.anthropic.com/v1/messages".toList
    headers := [("x-api-key".toList, apiKey),
      ("anthropic-version".toList, "2023-06-01".toList),
      ("Content-Type".toList, "application/json".toList)]
    body := .object <|
      [("model".toList, model), ("messages".toList, .list entries)] ++
      (if systemText = [] then [] else [("system".toList, .text systemText)]) ++
      (tools.elim [] fun tools => [("tools".toList, .list tools)]) ++
      convertToolChoice toolChoice ++
      copyParams ["temperature", "top_p", "max_tokens", "stop", "stream"] original
    timeout := 30 }

end AnthropicAdapter

namespace GeminiAdapter

/-- The role of an entry. -/
def entryRole (role : Json) : Json :=
  if isWord "assistant" role then .text "model".toList else role

/-- The parts of an entry. -/
def entryParts : Json → Json
  | .text s => .list [.object [("text".toList, .text s)]]
  | content => content

/-- An entry of the conversation. -/
def entry (role content : Json) : Json :=
  .object [("role".toList, entryRole role), ("parts".toList, entryParts content)]

/-- `GeminiAdapter.translate_request`: `none` is an exception. -/
def translateRequest (apiKey : Text) (original : Json) : Option ProviderRequest := do
  let messages ← (← getD "messages" (.list []) original) |> iterate
  let (system, entries) ← splitMessages pyStr entry messages
  let model ← getD "model" (.text "gemini-pro".toList) original
  let tools ← convertTools "parameters" (← getD "tools" .null original)
  let streaming ← getD "stream" (.bool false) original
  let systemText := system.getD []
  let config := copyParams ["temperature", "top_p", "max_tokens", "stop"] original
  return {
    url := "https://generativelanguage.googleapis.com/v1beta/models".toList ++ '/' ::
      shown pyStr model ++
        (if streaming.truthy then ":streamGenerateContent?alt=sse".toList
        else ":generateContent".toList)
    headers := [("x-goog-api-key".toList, apiKey),
      ("Content-Type".toList, "application/json".toList)]
    body := .object <|
      [("model".toList, model), ("contents".toList, .list entries)] ++
      (if systemText = [] then []
      else [("system_instruction".toList, .object
        [("parts".toList, .list [.object [("text".toList, .text systemText)]])])]) ++
      (tools.elim [] fun tools =>
        [("tools".toList, .list [.object [("function_declarations".toList, .list tools)]])]) ++
      (if config = [] then [] else [("generationConfig".toList, .object config)])
    timeout := 30 }

end GeminiAdapter

/-! ### The conversation -/

/-- The role of a message. -/
def roleOf (msg : Json) : Json := (msg.get "role".toList).getD (.text [])

/-- The content of a message. -/
def contentOf (msg : Json) : Json := (msg.get "content".toList).getD (.text [])

/-- The message is one of the system. -/
def isSystem (msg : Json) : Bool := isWord "system" (roleOf msg)

/-- The system messages of a chat. -/
def systems (messages : List Json) : List Json := messages.filter isSystem

/-- The messages of a chat that are not of the system. -/
def others (messages : List Json) : List Json := messages.filter fun msg => !isSystem msg

/-- A string, unless it is empty. -/
def nonEmpty (s : Text) : List Text := if s = [] then [] else [s]

/-- The strings of one part of a content. -/
def partStrings : Json → List Text
  | .text s => nonEmpty s
  | .object fields =>
    match fields.lookup "text".toList with
    | some (.text s) => nonEmpty s
    | _ => []
  | _ => []

/-- The strings of a content that are not empty. -/
def contentStrings : Json → List Text
  | .text s => nonEmpty s
  | .list parts => parts.flatMap partStrings
  | _ => []

/-- The id, the name and the arguments of a tool call. -/
def callStrings (call : Json) : List Text :=
  [call.get "id".toList, call.readPath [.name "function".toList, .name "name".toList],
    call.readPath [.name "function".toList, .name "arguments".toList]].filterMap
      fun value => value.bind asText

/-- What a message says in its tool calls, each with its id, name and arguments, and the id of the
call that it answers. -/
def toolCallStrings (msg : Json) : List Text :=
  (match msg.get "tool_calls".toList with
    | some (.list calls) => calls.flatMap callStrings
    | _ => []) ++
  (((msg.get "tool_call_id".toList).bind asText).elim [] fun id => [id])

/-- The strings of all system messages. -/
def systemStrings (messages : List Json) : List Text :=
  (systems messages).flatMap fun msg => contentStrings (contentOf msg)

/-- The system text that the loop leaves. -/
def systemText (messages : List Json) : Option Text :=
  (systems messages).getLast?.map fun msg => shown pyStr (contentOf msg)

/-- **The loop** keeps the other messages in their order, and the last system message. -/
theorem splitMessages_eq (entry : Json → Json → Json) {messages : List Json}
    (h : ∀ msg ∈ messages, ∃ fields, msg = .object fields) :
    splitMessages pyStr entry messages =
      some (systemText pyStr messages,
        (others messages).map fun msg => entry (roleOf msg) (contentOf msg)) := by
  -- The state is generalised: a system text of before stays only if no system message follows.
  have hloop : ∀ state : Option Text × List Json,
      messages.foldlM (splitMessage pyStr entry) state =
        some ((systemText pyStr messages).or state.1,
          state.2 ++ (others messages).map fun msg => entry (roleOf msg) (contentOf msg)) := by
    induction messages with
    | nil => exact fun state => by simp [systemText, systems, others]
    | cons msg messages ih =>
      intro state
      obtain ⟨⟨fields, rfl⟩, hrest⟩ := List.forall_mem_cons.mp h
      have hstep : splitMessage pyStr entry state (.object fields) =
          if isSystem (.object fields) then
            some (some (shown pyStr (contentOf (.object fields))), state.2)
          else some (state.1, state.2 ++ [entry (roleOf (.object fields))
            (contentOf (.object fields))]) := rfl
      rw [List.foldlM_cons, hstep]
      by_cases hsystem : isSystem (.object fields) = true
      · -- a system message is overwritten by those behind it
        rw [if_pos hsystem, Option.bind_eq_bind, Option.bind_some, ih hrest]
        have hothers : others (.object fields :: messages) = others messages :=
          List.filter_cons_of_neg (by simp [hsystem])
        have hsystems : systems (.object fields :: messages) = .object fields :: systems messages :=
          List.filter_cons_of_pos hsystem
        rw [hothers, systemText, systemText, hsystems, List.getLast?_cons]
        rcases (systems messages).getLast? with _ | last
        · rfl
        · rfl
      · rw [if_neg hsystem, Option.bind_eq_bind, Option.bind_some, ih hrest]
        have hothers : others (.object fields :: messages) = .object fields :: others messages :=
          List.filter_cons_of_pos (by simp [hsystem])
        have hsystems : systems (.object fields :: messages) = systems messages :=
          List.filter_cons_of_neg hsystem
        rw [hothers, systemText, systemText, hsystems, List.map_cons, List.append_assoc]
        rfl
  rw [splitMessages, hloop, Option.or_none, List.nil_append]

/-! ### Where a body holds the conversation -/

/-- Where an adapter puts the entries and the system text of a conversation. -/
structure Format where
  entry : Json → Json → Json
  role : Json → Json
  entriesKey : String
  contentKey : String
  systemPath : List Key
  contentStrings_entry : ∀ r content, contentStrings
    (((entry r content).get contentKey.toList).getD .null) = contentStrings content
  texts_entry : ∀ r content, texts (entry r content) = texts (role r) ++ texts content

namespace Format

variable (f : Format)

/-- The entries of the conversation in a body. -/
def entries (body : Json) : List Json :=
  match body.get f.entriesKey.toList with
  | some (.list items) => items
  | _ => []

/-- The strings of the system text in a body. -/
def systemStrings (body : Json) : List Text :=
  contentStrings ((body.readPath f.systemPath).getD .null)

/-- **The body holds the conversation**: the strings of the messages that are not of the system in
their order, each string of a system message as often as it is in the chat, and, beside the strings
of the role and the content, which do not count for them, the strings of the tool calls. -/
structure KeepsConversation (messages : List Json) (body : Json) : Prop where
  contents : ((f.entries body).flatMap fun entry =>
      contentStrings ((entry.get f.contentKey.toList).getD .null)) =
    (others messages).flatMap fun msg => contentStrings (contentOf msg)
  system : ∀ s ∈ Providers.systemStrings messages,
    (f.systemStrings body).count s = (Providers.systemStrings messages).count s
  calls : List.Forall₂ (fun msg entry => List.Subperm
      (texts (f.role (roleOf msg)) ++ texts (contentOf msg) ++ toolCallStrings msg) (texts entry))
    (others messages) (f.entries body)
  systemCalls : List.Subperm (nonEmpty ((systemText pyStr messages).getD []) ++
    (systems messages).flatMap toolCallStrings) (f.systemStrings body)

end Format

/-- The chats that a body holds: the system messages have no string, or one, and that is the text
of the last of them; and no message has or answers a tool call that says anything. -/
structure Plain (messages : List Json) : Prop where
  system : systemStrings messages = [] ∨
    ∃ s, systemText pyStr messages = some s ∧ systemStrings messages = [s]
  calls : ∀ msg ∈ messages, toolCallStrings msg = []

theorem mem_nonEmpty {s t : Text} : s ∈ nonEmpty t ↔ s ≠ [] ∧ s = t := by
  rw [nonEmpty]
  split_ifs with h
  · refine iff_of_false List.not_mem_nil ?_
    rintro ⟨hs, rfl⟩
    exact hs h
  · rw [List.mem_singleton]
    refine ⟨?_, fun hs => hs.2⟩
    rintro rfl
    exact ⟨h, rfl⟩

theorem ne_nil_of_mem_partStrings {part : Json} {s : Text} (h : s ∈ partStrings part) :
    s ≠ [] := by
  unfold partStrings at h
  split at h
  · exact (mem_nonEmpty.mp h).1
  · split at h
    · exact (mem_nonEmpty.mp h).1
    · exact absurd h List.not_mem_nil
  · exact absurd h List.not_mem_nil

theorem ne_nil_of_mem_contentStrings {content : Json} {s : Text}
    (h : s ∈ contentStrings content) : s ≠ [] := by
  unfold contentStrings at h
  split at h
  · exact (mem_nonEmpty.mp h).1
  · obtain ⟨part, -, hpart⟩ := List.mem_flatMap.mp h
    exact ne_nil_of_mem_partStrings hpart
  · exact absurd h List.not_mem_nil

theorem ne_nil_of_mem_systemStrings {messages : List Json} {s : Text}
    (h : s ∈ systemStrings messages) : s ≠ [] := by
  obtain ⟨msg, -, hmsg⟩ := List.mem_flatMap.mp h
  exact ne_nil_of_mem_contentStrings hmsg

/-- One slot holds some strings, each as often as they are there, only if they are one or none. -/
theorem count_nonEmpty_iff {strings : List Text} (hne : ∀ s ∈ strings, s ≠ [])
    (slot : Option Text) :
    (∀ s ∈ strings, (nonEmpty (slot.getD [])).count s = strings.count s) ↔
      strings = [] ∨ ∃ s, slot = some s ∧ strings = [s] := by
  constructor
  · intro h
    rcases strings with _ | ⟨s, rest⟩
    · exact Or.inl rfl
    · have hmem : ∀ t ∈ s :: rest, t = slot.getD [] := fun t ht => by
        have hpos : 0 < (nonEmpty (slot.getD [])).count t := by
          rw [h t ht]
          exact List.count_pos_iff.mpr ht
        exact (mem_nonEmpty.mp (List.count_pos_iff.mp hpos)).2
      have hs := hmem s List.mem_cons_self
      have hslot : slot = some s := by
        rcases slot with _ | t
        · exact absurd hs (hne s List.mem_cons_self)
        · exact congrArg some hs.symm
      -- all strings are that of the slot, which holds it once
      have hcount := h s List.mem_cons_self
      have hall : ∀ t ∈ s :: rest, s = t := fun t ht => hs.trans (hmem t ht).symm
      rw [List.count_eq_length.mpr hall, ← hs, nonEmpty, if_neg (hne s List.mem_cons_self),
        List.count_singleton_self, List.length_cons] at hcount
      have hrest : rest = [] := List.length_eq_zero_iff.mp (by omega)
      exact Or.inr ⟨s, hslot, by rw [hrest]⟩
  · rintro (rfl | ⟨s, rfl, rfl⟩) t ht
    · exact absurd ht List.not_mem_nil
    · rw [Option.getD_some, nonEmpty, if_neg (hne s (List.mem_singleton_self s))]

/-- Nothing has room beside a list in the same list. -/
theorem append_subperm_self_iff {a b : List Text} : List.Subperm (a ++ b) a ↔ b = [] := by
  constructor
  · intro h
    have hlength := h.length_le
    rw [List.length_append] at hlength
    exact List.eq_nil_of_length_eq_zero (by omega)
  · rintro rfl
    rw [List.append_nil]

/-- **What a body holds**, from its entries and its system text. -/
theorem keepsConversation_iff_of_body (f : Format) {messages : List Json} {body : Json}
    (hentries : f.entries body =
      (others messages).map fun msg => f.entry (roleOf msg) (contentOf msg))
    (hsystem : f.systemStrings body = nonEmpty ((systemText pyStr messages).getD [])) :
    f.KeepsConversation pyStr messages body ↔ Plain pyStr messages := by
  have hstrings : ∀ s ∈ systemStrings messages, s ≠ [] := fun s hs =>
    ne_nil_of_mem_systemStrings hs
  have hslot := count_nonEmpty_iff hstrings (systemText pyStr messages)
  -- an entry has the strings of role and content, and no room for more
  have hcalls : List.Forall₂ (fun msg entry => List.Subperm
        (texts (f.role (roleOf msg)) ++ texts (contentOf msg) ++ toolCallStrings msg) (texts entry))
        (others messages) (f.entries body) ↔
      ∀ msg ∈ others messages, toolCallStrings msg = [] := by
    rw [hentries, List.forall₂_map_right_iff, List.forall₂_same]
    simp only [f.texts_entry, append_subperm_self_iff]
  have hsystemCalls : List.Subperm (nonEmpty ((systemText pyStr messages).getD []) ++
        (systems messages).flatMap toolCallStrings) (f.systemStrings body) ↔
      ∀ msg ∈ systems messages, toolCallStrings msg = [] := by
    rw [hsystem, append_subperm_self_iff, List.flatMap_eq_nil_iff]
  have hboth : (∀ msg ∈ messages, toolCallStrings msg = []) ↔
      (∀ msg ∈ others messages, toolCallStrings msg = []) ∧
        ∀ msg ∈ systems messages, toolCallStrings msg = [] := by
    refine ⟨fun h => ⟨fun msg hmsg => h msg (List.mem_of_mem_filter hmsg),
      fun msg hmsg => h msg (List.mem_of_mem_filter hmsg)⟩, fun h msg hmsg => ?_⟩
    by_cases hrole : isSystem msg = true
    · exact h.2 msg (List.mem_filter.mpr ⟨hmsg, hrole⟩)
    · exact h.1 msg (List.mem_filter.mpr ⟨hmsg, by simpa using hrole⟩)
  constructor
  · intro h
    refine ⟨hslot.mp fun s hs => ?_, hboth.mpr ⟨hcalls.mp h.calls, hsystemCalls.mp h.systemCalls⟩⟩
    rw [← hsystem]
    exact h.system s hs
  · intro h
    obtain ⟨hnone, hnoneSystem⟩ := hboth.mp h.calls
    refine ⟨?_, fun s hs => ?_, hcalls.mpr hnone, hsystemCalls.mpr hnoneSystem⟩
    · rw [hentries, List.flatMap_map]
      simp only [f.contentStrings_entry]
    · rw [hsystem]
      exact hslot.mpr h.system s hs

/-! ### The two formats -/

theorem texts_object_pair (j k : Text) (a b : Json) :
    texts (.object [(j, a), (k, b)]) = texts a ++ texts b := by
  rw [texts, textsOfFields, textsOfFields, textsOfFields, List.append_nil]

/-- Where `AnthropicAdapter` puts a conversation. -/
def anthropicFormat : Format where
  entry := AnthropicAdapter.entry
  role := id
  entriesKey := "messages"
  contentKey := "content"
  systemPath := [.name "system".toList]
  contentStrings_entry _ _ := rfl
  texts_entry _ _ := texts_object_pair _ _ _ _

theorem contentStrings_entryParts (content : Json) :
    contentStrings (GeminiAdapter.entryParts content) = contentStrings content := by
  cases content with
  | text s => exact List.append_nil _
  | _ => rfl

theorem texts_entryParts (content : Json) :
    texts (GeminiAdapter.entryParts content) = texts content := by
  cases content with
  | text s => rfl
  | _ => rfl

/-- Where `GeminiAdapter` puts a conversation. -/
def geminiFormat : Format where
  entry := GeminiAdapter.entry
  role := GeminiAdapter.entryRole
  entriesKey := "contents"
  contentKey := "parts"
  systemPath := [.name "system_instruction".toList, .name "parts".toList]
  contentStrings_entry _ content := contentStrings_entryParts content
  texts_entry r content := by
    rw [GeminiAdapter.entry, texts_object_pair, texts_entryParts]

/-- Fields with other keys are not found. -/
theorem lookup_eq_none {fields : List (Text × Json)} {k : Text}
    (h : ∀ field ∈ fields, field.1 ≠ k) : fields.lookup k = none :=
  List.lookup_eq_none_iff.mpr fun field hfield => bne_iff_ne.mpr (h field hfield).symm

theorem key_mem_copyParams {names : List String} {original : Json} {field : Text × Json}
    (h : field ∈ copyParams names original) : ∃ name ∈ names, field.1 = name.toList := by
  obtain ⟨name, hname, hfield⟩ := List.mem_filterMap.mp h
  refine ⟨name, hname, ?_⟩
  split at hfield
  · exact absurd hfield (by simp)
  · exact absurd hfield (by simp)
  · rw [← Option.some.inj hfield]

theorem key_mem_convertToolChoice {choice : Json} {field : Text × Json}
    (h : field ∈ convertToolChoice choice) : field.1 = "tool_choice".toList := by
  unfold convertToolChoice at h
  split at h
  · rw [List.mem_singleton.mp h]
  · dsimp only at h
    split_ifs at h
    · rw [List.mem_singleton.mp h]
    · rw [List.mem_singleton.mp h]
    · rw [List.mem_singleton.mp h]
    · exact absurd h List.not_mem_nil

/-- A chat request whose messages are objects, and whose tools can be converted. -/
structure ChatRequest where
  fields : List (Text × Json)
  messages : List Json
  tools : Option (List Json)
  getD_messages : getD "messages" (.list []) (.object fields) = some (.list messages)
  messages_object : ∀ msg ∈ messages, ∃ fields, msg = .object fields
  getD_tools : ∃ value, getD "tools" .null (.object fields) = some value ∧
    ((tools = none ∧ value.truthy = false) ∨
      ∃ items, tools = some items ∧ value = .list items ∧ value.truthy = true)
  tools_object : ∀ items, tools = some items → ∀ tool ∈ items, ∃ fields function,
    tool = .object fields ∧ getD "function" (.object []) tool = some (.object function)

/-- The request as a document. -/
def ChatRequest.original (r : ChatRequest) : Json := .object r.fields

theorem ChatRequest.isSome_convertTools (r : ChatRequest) (schemaKey : String) :
    ∃ value tools, getD "tools" .null r.original = some value ∧
      convertTools schemaKey value = some tools := by
  obtain ⟨value, hvalue, ⟨-, hfalsy⟩ | ⟨items, hitems, rfl, htruthy⟩⟩ := r.getD_tools
  · exact ⟨value, none, hvalue, by rw [convertTools, if_neg (by simp [hfalsy])]⟩
  · have hconvert : ∀ tools : List Json, (∀ tool ∈ tools, ∃ fields function,
        tool = .object fields ∧ getD "function" (.object []) tool = some (.object function)) →
        ∃ converted, tools.mapM (convertTool schemaKey) = some converted := by
      intro tools htools
      have htool : ∀ tool ∈ tools, convertTool schemaKey tool =
          some ((convertTool schemaKey tool).getD .null) := by
        intro tool htool
        obtain ⟨fields, function, -, hfunction⟩ := htools tool htool
        rw [convertTool, hfunction]
        rfl
      exact ⟨_, Runs.mapM_eq_some_map htool⟩
    obtain ⟨converted, hconverted⟩ := hconvert items (r.tools_object items hitems)
    refine ⟨_, some converted, hvalue, ?_⟩
    rw [convertTools, if_pos htruthy]
    simp only [iterate, Option.bind_eq_bind, Option.bind_some, hconverted]
    rfl

/-- A field that is neither before nor behind some fields is read among them. -/
theorem get_append {front slot rest : List (Text × Json)} {k : Text}
    (hfront : front.lookup k = none) (hrest : rest.lookup k = none) :
    (Json.object (front ++ slot ++ rest)).get k = slot.lookup k := by
  rw [Json.get, List.lookup_append, List.lookup_append, hfront, hrest, Option.none_or,
    Option.or_none]

theorem lookup_tools_eq_none {tools : Option (List Json)} {wrap : List Json → Json} {k : Text}
    (hk : "tools".toList ≠ k) :
    (tools.elim [] fun tools => [("tools".toList, wrap tools)]).lookup k = none := by
  refine lookup_eq_none fun field hfield => ?_
  rcases tools with _ | tools
  · exact absurd hfield List.not_mem_nil
  · rw [List.mem_singleton.mp hfield]
    exact hk

/-- The body that `AnthropicAdapter` builds, as far as the conversation is concerned. -/
theorem AnthropicAdapter.translateRequest_eq (apiKey : Text) (r : ChatRequest) :
    ∃ out, AnthropicAdapter.translateRequest pyStr apiKey r.original = some out ∧
      anthropicFormat.entries out.body = (others r.messages).map (fun msg =>
        anthropicFormat.entry (roleOf msg) (contentOf msg)) ∧
      anthropicFormat.systemStrings out.body =
        nonEmpty ((systemText pyStr r.messages).getD []) := by
  obtain ⟨value, tools, hvalue, htools⟩ := r.isSome_convertTools "input_schema"
  have hmessages : getD "messages" (.list []) r.original = some (.list r.messages) :=
    r.getD_messages
  have hsplit := splitMessages_eq pyStr AnthropicAdapter.entry r.messages_object
  unfold AnthropicAdapter.translateRequest
  simp only [hmessages, iterate, hsplit, hvalue, htools, Option.bind_eq_bind, Option.bind_some]
  refine ⟨_, rfl, rfl, ?_⟩
  generalize (systemText pyStr r.messages).getD [] = text
  rw [Format.systemStrings, show anthropicFormat.systemPath = [.name "system".toList] from rfl,
    Json.readPath_name]
  dsimp only
  rw [List.append_assoc (_ ++ _ ++ _), List.append_assoc (_ ++ _), get_append rfl]
  · rw [nonEmpty]
    split_ifs with hempty
    · rfl
    · exact if_neg hempty
  · -- no other field has the key of the system text
    rw [List.lookup_append, lookup_tools_eq_none (by decide), Option.none_or, List.lookup_append]
    have hchoice : ∀ choice, (convertToolChoice choice).lookup "system".toList = none :=
      fun choice => lookup_eq_none fun field hfield => by
        rw [key_mem_convertToolChoice hfield]
        decide
    rw [hchoice, Option.none_or]
    refine lookup_eq_none fun field hfield => ?_
    obtain ⟨name, hname, hkey⟩ := key_mem_copyParams hfield
    have hkeys : ∀ name ∈ ["temperature", "top_p", "max_tokens", "stop", "stream"],
        name.toList ≠ "system".toList := by
      decide
    rw [hkey]
    exact hkeys name hname

/-- The body that `GeminiAdapter` builds, as far as the conversation is concerned. -/
theorem GeminiAdapter.translateRequest_eq (apiKey : Text) (r : ChatRequest) :
    ∃ out, GeminiAdapter.translateRequest pyStr apiKey r.original = some out ∧
      geminiFormat.entries out.body = (others r.messages).map (fun msg =>
        geminiFormat.entry (roleOf msg) (contentOf msg)) ∧
      geminiFormat.systemStrings out.body =
        nonEmpty ((systemText pyStr r.messages).getD []) := by
  obtain ⟨value, tools, hvalue, htools⟩ := r.isSome_convertTools "parameters"
  have hmessages : getD "messages" (.list []) r.original = some (.list r.messages) :=
    r.getD_messages
  have hsplit := splitMessages_eq pyStr GeminiAdapter.entry r.messages_object
  unfold GeminiAdapter.translateRequest
  simp only [hmessages, iterate, hsplit, hvalue, htools, Option.bind_eq_bind, Option.bind_some]
  refine ⟨_, rfl, rfl, ?_⟩
  generalize (systemText pyStr r.messages).getD [] = text
  have hpath : ∀ body, geminiFormat.systemStrings body = contentStrings
      (((body.get "system_instruction".toList).bind fun inner =>
        inner.readPath [.name "parts".toList]).getD .null) := fun _ => rfl
  rw [hpath]
  dsimp only
  rw [List.append_assoc (_ ++ _), get_append rfl]
  · rw [nonEmpty]
    split_ifs with hempty
    · rfl
    · exact (List.append_nil _).trans (if_neg hempty)
  · -- no other field has the key of the system text
    rw [List.lookup_append, lookup_tools_eq_none (by decide), Option.none_or]
    refine lookup_eq_none fun field hfield => ?_
    split_ifs at hfield
    · exact absurd hfield List.not_mem_nil
    · have hkey : "generationConfig".toList ≠ "system_instruction".toList := by decide
      rw [List.mem_singleton.mp hfield]
      exact hkey

/-- **The requests.** Both adapters build a body for every chat, and it holds the conversation if
and only if the system messages have no string, or one, and that is the text of the last of them,
and no message has or answers a tool call. -/
theorem keepsConversation_iff (apiKey : Text) (r : ChatRequest) :
    (∃ out, AnthropicAdapter.translateRequest pyStr apiKey r.original = some out ∧
      (anthropicFormat.KeepsConversation pyStr r.messages out.body ↔
        Plain pyStr r.messages)) ∧
    ∃ out, GeminiAdapter.translateRequest pyStr apiKey r.original = some out ∧
      (geminiFormat.KeepsConversation pyStr r.messages out.body ↔
        Plain pyStr r.messages) := by
  obtain ⟨out, hout, hentries, hsystem⟩ := AnthropicAdapter.translateRequest_eq pyStr apiKey r
  obtain ⟨out', hout', hentries', hsystem'⟩ := GeminiAdapter.translateRequest_eq pyStr apiKey r
  exact ⟨⟨out, hout, keepsConversation_iff_of_body pyStr anthropicFormat hentries hsystem⟩,
    out', hout', keepsConversation_iff_of_body pyStr geminiFormat hentries' hsystem'⟩

end

/-! ### Two chats -/

/-- A message with a role and a content. -/
def message (role content : String) : Json :=
  .object [("role".toList, .text role.toList), ("content".toList, .text content.toList)]

/-- A message of the assistant with a tool call and no content. -/
def callMessage : Json :=
  .object [("role".toList, .text "assistant".toList), ("content".toList, .null),
    ("tool_calls".toList, .list [.object
      [("id".toList, .text "call_1".toList), ("type".toList, .text "function".toList),
        ("function".toList, .object [("name".toList, .text "lookup".toList),
          ("arguments".toList, .text "\x7b\x7d".toList)])]])]

/-- The messages of a chat with two system messages. -/
def twoSystems : List Json :=
  [message "system" "Be kind.", message "system" "Be brief.", message "user" "Hi"]

/-- The messages of a chat with a tool call. -/
def withCall : List Json := [message "user" "Hi", callMessage]

/-- A chat of some messages, without tools. -/
def request (messages : List Json) (h : ∀ msg ∈ messages, ∃ fields, msg = .object fields) :
    ChatRequest where
  fields := [("messages".toList, .list messages)]
  messages
  tools := none
  getD_messages := rfl
  messages_object := h
  getD_tools := ⟨.null, rfl, Or.inl ⟨rfl, rfl⟩⟩
  tools_object _ h := absurd h (Option.some_ne_none _).symm

/-- A chat with one system message and no tool call. -/
def greeting : ChatRequest :=
  request [message "system" "Be brief.", message "user" "Hi"]
    (List.forall_mem_cons.mpr ⟨⟨_, rfl⟩, List.forall_mem_singleton.mpr ⟨_, rfl⟩⟩)

/-- Both bodies for this chat hold it. -/
theorem keepsConversation_greeting :
    (∃ out, AnthropicAdapter.translateRequest (fun _ => []) [] greeting.original = some out ∧
      anthropicFormat.KeepsConversation (fun _ => []) greeting.messages out.body) ∧
    ∃ out, GeminiAdapter.translateRequest (fun _ => []) [] greeting.original = some out ∧
      geminiFormat.KeepsConversation (fun _ => []) greeting.messages out.body := by
  obtain ⟨⟨out, hout, hiff⟩, out', hout', hiff'⟩ := keepsConversation_iff (fun _ => []) [] greeting
  exact ⟨⟨out, hout, hiff.mpr ⟨Or.inr ⟨_, rfl, rfl⟩, by decide⟩⟩,
    out', hout', hiff'.mpr ⟨Or.inr ⟨_, rfl, rfl⟩, by decide⟩⟩

/-- The chat with two system messages. -/
def twoSystemsRequest : ChatRequest :=
  request twoSystems (List.forall_mem_cons.mpr ⟨⟨_, rfl⟩,
    List.forall_mem_cons.mpr ⟨⟨_, rfl⟩, List.forall_mem_singleton.mpr ⟨_, rfl⟩⟩⟩)

/-- The chat with a tool call. -/
def withCallRequest : ChatRequest :=
  request withCall (List.forall_mem_cons.mpr ⟨⟨_, rfl⟩, List.forall_mem_singleton.mpr ⟨_, rfl⟩⟩)

/-- The second system message overwrites the first one, and a tool call is in no entry. -/
theorem not_keepsConversation :
    (∃ out, AnthropicAdapter.translateRequest (fun _ => []) [] twoSystemsRequest.original =
        some out ∧ anthropicFormat.systemStrings out.body = ["Be brief.".toList] ∧
      ¬ anthropicFormat.KeepsConversation (fun _ => []) twoSystems out.body) ∧
    (∃ out, GeminiAdapter.translateRequest (fun _ => []) [] twoSystemsRequest.original =
        some out ∧ geminiFormat.systemStrings out.body = ["Be brief.".toList] ∧
      ¬ geminiFormat.KeepsConversation (fun _ => []) twoSystems out.body) ∧
    (∃ out, AnthropicAdapter.translateRequest (fun _ => []) [] withCallRequest.original =
        some out ∧ ¬ anthropicFormat.KeepsConversation (fun _ => []) withCall out.body) ∧
    ∃ out, GeminiAdapter.translateRequest (fun _ => []) [] withCallRequest.original =
        some out ∧ ¬ geminiFormat.KeepsConversation (fun _ => []) withCall out.body := by
  have hfirst : "Be kind.".toList ∈ systemStrings twoSystems := by decide
  refine ⟨⟨_, rfl, rfl, fun h => ?_⟩, ⟨_, rfl, rfl, fun h => ?_⟩, ⟨_, rfl, fun h => ?_⟩, _, rfl,
    fun h => ?_⟩
  · exact absurd (h.system _ hfirst) (by decide)
  · exact absurd (h.system _ hfirst) (by decide)
  · obtain ⟨-, hcalls⟩ := List.forall₂_cons.mp h.calls
    exact absurd (List.forall₂_cons.mp hcalls).1.length_le (by decide)
  · obtain ⟨-, hcalls⟩ := List.forall₂_cons.mp h.calls
    exact absurd (List.forall₂_cons.mp hcalls).1.length_le (by decide)

end AnonReq.Providers
