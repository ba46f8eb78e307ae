import AnonReq.Governance.ToolPolicy

/-!
# Tool calls in a request

`ToolExtractor` of `governance/tool_extractor.py`: the format of the tool calls in a request body,
and the calls of a message in a given format. `json.loads` is a parameter.

* `detectFormat_modelDump`: a dumped chat request with a message is always taken for OpenAI's
  format, because every dumped message has the key `tool_calls`.
* `extractCalls_openai_modelDump`: what is then extracted is the OpenAI calls, and nothing of the
  content blocks.
-/

namespace AnonReq.Governance

open Pipeline (name Fields ChatMessage ChatRequest)

/-- The formats of tool calls. -/
inductive ToolFormat where
  | openai
  | anthropic
  | mcp
deriving DecidableEq

/-- `ToolCall`. -/
structure ToolCall where
  name : Text
  arguments : Json
  format : ToolFormat
  domain : Text := Pipeline.name "model"
  provider : Option Text := none
  credentialContext : Option Text := none

/-- How an extraction fails: the message is malformed, or a `ValueError` or another exception
leaves the decoder. -/
inductive ExtractionError where
  | toolExtraction
  | value
  | other (typeName : Text)

/-- How decoding a text fails: it is no document, or another exception is raised. -/
inductive DecodeError where
  | decode
  | value
  | other (typeName : Text)

/-- `json.loads`. -/
abbrev Loads := Text → Except DecodeError Json

/-! ### The format of a body -/

/-- A content block with a tool call. -/
def isToolUse (block : Json) : Bool :=
  match block.get (name "type") with
  | some (.text t) => decide (t = name "tool_use")
  | _ => false

/-- The format a message tells. -/
def messageFormat (message : Json) : Option ToolFormat :=
  if (message.get (name "tool_calls")).isSome then some .openai
  else
    match message.get (name "content") with
    | some (.list blocks) => if blocks.any isToolUse then some .anthropic else none
    | _ => none

/-- The method of a tool request. -/
def isToolMethod (body : Json) : Bool :=
  match body.get (name "method") with
  | some (.text method) =>
    decide (method = name "tools/call") || (name "tools/").isPrefixOf method
  | _ => false

/-- `detect_format`. -/
def detectFormat (requestBody : Json) : Option ToolFormat :=
  if isToolMethod requestBody then some .mcp
  else
    match requestBody.get (name "messages") with
    | some (.list messages) => messages.findSome? messageFormat
    | _ => none

/-- `detect_domain`, of the value of the header `X-AnonReq-Tool-Domain`. -/
def detectDomain (L : LowerCase) (domainHeader : Option Text) : Text :=
  if L.lower (Text.strip (domainHeader.getD [])) = name "host" then name "host" else name "model"

/-! ### The calls of a message -/

variable (loads : Loads)

/-- A dictionary, or an empty one in place of anything else. -/
def dictOrEmpty : Option Json → Json
  | some (.object fields) => .object fields
  | _ => .object []

/-- The arguments of an OpenAI call. -/
def openaiArguments (function : Json) : Except ExtractionError Json :=
  match (function.get (name "arguments")).getD (.text (name "\x7b\x7d")) with
  | .text raw =>
    match loads raw with
    | .ok arguments => .ok arguments
    | .error .decode => .error .toolExtraction
    | .error .value => .error .value
    | .error (.other typeName) => .error (.other typeName)
  | raw => .ok (dictOrEmpty (some raw))

/-- The function of an OpenAI entry; a missing one is an empty dictionary. -/
def functionOf (entry : Json) : Json := (entry.get (name "function")).getD (.object [])

/-- An entry of `tool_calls`; entries that are no dictionaries, or whose function is none, are
passed over. -/
def openaiCall (entry : Json) : Except ExtractionError (Option ToolCall) :=
  match entry, functionOf entry with
  | .object _, .object fields =>
    match textField (.object fields) (name "name") with
    | none => .error .toolExtraction
    | some toolName => do
      let arguments ← openaiArguments loads (.object fields)
      return some { name := toolName, arguments := arguments, format := .openai }
  | _, _ => .ok none

/-- A content block. -/
def anthropicCall (block : Json) : Except ExtractionError (Option ToolCall) :=
  if isToolUse block then
    match textField block (name "name") with
    | none => .error .toolExtraction
    | some toolName => .ok <| some
        { name := toolName
          arguments := dictOrEmpty (block.get (name "input"))
          format := .anthropic }
  else .ok none

/-- The calls of the items of a list, the first failure being the failure of all. -/
def extractEach (extract : Json → Except ExtractionError (Option ToolCall)) :
    List Json → Except ExtractionError (List ToolCall)
  | [] => .ok []
  | item :: rest => do
    let call ← extract item
    let calls ← extractEach extract rest
    return call.toList ++ calls

/-- The calls of a list in a field. -/
def extractField (message : Json) (k : Text)
    (extract : Json → Except ExtractionError (Option ToolCall)) :
    Except ExtractionError (List ToolCall) :=
  match message.get k with
  | some (.list items) => extractEach extract items
  | _ => .ok []

/-- `_extract_mcp_calls`. -/
def extractMcpCalls (message : Json) : Except ExtractionError (List ToolCall) :=
  match message.get (name "method") with
  | some (.text method) =>
    if method = name "tools/call" then
      let params := dictOrEmpty (message.get (name "params"))
      match textField params (name "name") with
      | none => .error .toolExtraction
      | some toolName => .ok
          [{ name := toolName
             arguments := dictOrEmpty (params.get (name "arguments"))
             format := .mcp }]
    else .ok []
  | _ => .ok []

/-- `extract_calls`. -/
def extractCalls (message : Json) : ToolFormat → Except ExtractionError (List ToolCall)
  | .openai => extractField message (name "tool_calls") (openaiCall loads)
  | .anthropic => extractField message (name "content") anthropicCall
  | .mcp => extractMcpCalls message

/-! ### Well-formed entries -/

/-- The text of the arguments of a function, if they are a text; missing ones are `{}`. -/
def argumentsText (function : Json) : Option Text :=
  match (function.get (name "arguments")).getD (.text (name "\x7b\x7d")) with
  | .text raw => some raw
  | _ => none

/-- An OpenAI entry that calls a tool. -/
def Calls (entry : Fields) (toolName : Text) : Prop :=
  ∃ fields, functionOf (.object entry) = .object fields ∧
    textField (.object fields) (name "name") = some toolName

theorem Calls.unique {entry : Fields} {toolName toolName' : Text} (h : Calls entry toolName)
    (h' : Calls entry toolName') : toolName = toolName' := by
  obtain ⟨fields, hfields, hname⟩ := h
  obtain ⟨fields', hfields', hname'⟩ := h'
  obtain rfl := Json.object.inj (hfields.symm.trans hfields')
  exact Option.some.inj (hname.symm.trans hname')

/-- An OpenAI entry whose function has no name, or has arguments that are not decoded. -/
def Malformed (entry : Fields) : Prop :=
  ∃ fields, functionOf (.object entry) = .object fields ∧
    (textField (.object fields) (name "name") = none ∨
      ∃ raw, argumentsText (.object fields) = some raw ∧ ∀ document, loads raw ≠ .ok document)

/-- The arguments of a function are an error where they are a text that is not decoded. -/
theorem openaiArguments_eq_error_iff {function : Json} :
    (∃ error, openaiArguments loads function = .error error) ↔
      ∃ raw, argumentsText function = some raw ∧ ∀ document, loads raw ≠ .ok document := by
  rw [openaiArguments, argumentsText]
  generalize (function.get (name "arguments")).getD (.text (name "\x7b\x7d")) = arguments
  cases arguments with
  | text raw =>
    rcases hraw : loads raw with (_ | _ | typeName) | document <;> simp [hraw]
  | _ => simp

/-- **Entries.** An entry is an error if it is malformed. Otherwise the tool it calls is
extracted, in the model domain, for no provider in particular. -/
theorem openaiCall_cases (entry : Fields) :
    (Malformed loads entry ∧ ∃ error, openaiCall loads (.object entry) = .error error) ∨
      ¬ Malformed loads entry ∧
        ((∃ toolName arguments, Calls entry toolName ∧ openaiCall loads (.object entry) =
            .ok (some { name := toolName, arguments := arguments, format := .openai })) ∨
          (∀ toolName, ¬ Calls entry toolName) ∧ openaiCall loads (.object entry) = .ok none) := by
  by_cases hfields : ∃ fields, functionOf (.object entry) = .object fields
  · obtain ⟨fields, hcase⟩ := hfields
    simp only [openaiCall, hcase]
    rcases hname : textField (.object fields) (name "name") with _ | toolName
    · exact Or.inl ⟨⟨fields, hcase, Or.inl hname⟩, _, rfl⟩
    rcases harguments : openaiArguments loads (.object fields) with error | arguments
    · obtain ⟨raw, hraw, hloads⟩ := (openaiArguments_eq_error_iff loads).mp ⟨error, harguments⟩
      exact Or.inl ⟨⟨fields, hcase, Or.inr ⟨raw, hraw, hloads⟩⟩, error, rfl⟩
    refine Or.inr ⟨?_, Or.inl ⟨toolName, arguments, ⟨fields, hcase, hname⟩, rfl⟩⟩
    rintro ⟨fields', hfields', h⟩
    obtain rfl := Json.object.inj (hcase.symm.trans hfields')
    obtain hnone | herror := h
    · exact Option.some_ne_none toolName (hname.symm.trans hnone)
    · obtain ⟨error, herror⟩ := (openaiArguments_eq_error_iff loads).mpr herror
      simp [harguments] at herror
  · refine Or.inr ⟨fun ⟨fields, h, _⟩ => hfields ⟨fields, h⟩,
      Or.inr ⟨fun _ ⟨fields, h, _⟩ => hfields ⟨fields, h⟩, ?_⟩⟩
    cases hcase : functionOf (.object entry) with
    | object fields => exact absurd ⟨fields, hcase⟩ hfields
    | _ => simp only [openaiCall, hcase]

/-- One item that fails is a failure of the list, and nothing else is. -/
theorem extractEach_eq_error_iff {extract : Json → Except ExtractionError (Option ToolCall)}
    {items : List Json} : (∃ error, extractEach extract items = .error error) ↔
      ∃ item ∈ items, ∃ error, extract item = .error error := by
  induction items with
  | nil => simp [extractEach]
  | cons item rest ih =>
    rw [extractEach, List.exists_mem_cons_iff, ← ih]
    rcases hitem : extract item with error | call
    · exact iff_of_true ⟨error, rfl⟩ (Or.inl ⟨error, rfl⟩)
    · rcases hrest : extractEach extract rest with error | calls
      · exact iff_of_true ⟨error, rfl⟩ (Or.inr ⟨error, rfl⟩)
      · simp [bind, Except.bind, pure, Except.pure]

/-- The calls of a list are those of its items. -/
theorem mem_extractEach {extract : Json → Except ExtractionError (Option ToolCall)}
    {items : List Json} {calls : List ToolCall} (h : extractEach extract items = .ok calls)
    {call : ToolCall} : call ∈ calls ↔ ∃ item ∈ items, extract item = .ok (some call) := by
  induction items generalizing calls with
  | nil =>
    obtain rfl := Except.ok.inj h
    simp
  | cons item rest ih =>
    rw [extractEach] at h
    obtain ⟨first, hfirst, h⟩ := Runs.bind_eq_ok_iff.mp h
    obtain ⟨others, hothers, h⟩ := Runs.bind_eq_ok_iff.mp h
    obtain rfl := Except.ok.inj h
    rw [List.mem_append, ih hothers, List.exists_mem_cons_iff, hfirst]
    simp

/-! ### Dumped chat requests -/

/-- A dumped request has no method. -/
theorem isToolMethod_modelDump (request : ChatRequest) :
    isToolMethod request.modelDump = false := rfl

/-- **The format.** A dumped request with a message is taken for OpenAI's format. -/
theorem detectFormat_modelDump (request : ChatRequest) :
    detectFormat request.modelDump =
      if request.messages = [] then none else some .openai := by
  rw [detectFormat, isToolMethod_modelDump, if_neg Bool.false_ne_true,
    ChatRequest.get_messages_modelDump]
  rcases request.messages with _ | ⟨message, rest⟩
  · rfl
  · -- the key is there in the first message, whatever its value is
    rw [if_neg (List.cons_ne_nil message rest)]
    rfl

/-- What is extracted from a dumped message in that format. -/
theorem extractCalls_openai_modelDump (message : ChatMessage) :
    extractCalls loads message.modelDump .openai =
      extractEach (openaiCall loads) ((message.toolCalls.getD []).map Json.object) := by
  rw [extractCalls, extractField, message.get_modelDump.2.2]
  rcases message.toolCalls with _ | calls <;> rfl

end AnonReq.Governance
