import AnonReq.Foundation.Json

/-!
# Chat requests

`ChatMessage` and `ChatRequest` of `models/chat.py`, and the dictionary `model_dump()` makes of
them: every declared field is a key of it, an absent optional one with the value `null`.

* `ChatRequest.get_messages_modelDump`, `ChatMessage.get_modelDump`: what is read from a dump.
-/

namespace AnonReq.Pipeline

/-- A field name as a text. -/
def name (s : String) : Text := s.toList

/-- A dictionary of type `dict[str, Any]`. -/
abbrev Fields := List (Text × Json)

/-- A field of type `str | α`. -/
inductive TextOr (α : Type) where
  | text (s : Text)
  | other (a : α)

/-- The roles of a message. -/
inductive Role where
  | system
  | user
  | assistant
  | tool
  | function
deriving DecidableEq

/-- The value of a role. -/
def Role.value : Role → String
  | .system => "system"
  | .user => "user"
  | .assistant => "assistant"
  | .tool => "tool"
  | .function => "function"

/-- `ChatMessage`. -/
structure ChatMessage where
  role : Role
  content : Option (TextOr (List Fields)) := none
  name : Option Text := none
  toolCalls : Option (List Fields) := none
  toolCallId : Option Text := none

/-- `ChatRequest`. Floating-point numbers are the texts they are shown as. -/
structure ChatRequest where
  model : Text
  messages : List ChatMessage
  stream : Bool := false
  temperature : Option Text := none
  topP : Option Text := none
  n : Option ℤ := some 1
  stop : Option (TextOr (List Text)) := none
  maxTokens : Option ℤ := none
  presencePenalty : Option Text := none
  frequencyPenalty : Option Text := none
  logitBias : Option (List (Text × Text)) := none
  user : Option Text := none
  tools : Option (List Fields) := none
  toolChoice : Option (TextOr Fields) := none
  responseFormat : Option Fields := none
  seed : Option ℤ := none

/-! ### `model_dump` -/

/-- The dump of an optional field. -/
def dumpOption {α : Type} (dump : α → Json) : Option α → Json
  | none => .null
  | some a => dump a

/-- The dump of a list of dictionaries. -/
def dumpDicts (dicts : List Fields) : Json := .list (dicts.map .object)

/-- The dump of a field of type `str | α`. -/
def TextOr.dump {α : Type} (dump : α → Json) : TextOr α → Json
  | .text s => .text s
  | .other a => dump a

/-- `model_dump()` of a message. -/
def ChatMessage.modelDump (message : ChatMessage) : Json :=
  .object
    [(Pipeline.name "role", .text message.role.value.toList),
     (Pipeline.name "content", dumpOption (TextOr.dump dumpDicts) message.content),
     (Pipeline.name "name", dumpOption .text message.name),
     (Pipeline.name "tool_calls", dumpOption dumpDicts message.toolCalls),
     (Pipeline.name "tool_call_id", dumpOption .text message.toolCallId)]

/-- `model_dump()` of a request. -/
def ChatRequest.modelDump (request : ChatRequest) : Json :=
  .object
    [(name "model", .text request.model),
     (name "messages", .list (request.messages.map ChatMessage.modelDump)),
     (name "stream", .bool request.stream),
     (name "temperature", dumpOption .float request.temperature),
     (name "top_p", dumpOption .float request.topP),
     (name "n", dumpOption .int request.n),
     (name "stop", dumpOption (TextOr.dump fun texts => .list (texts.map .text)) request.stop),
     (name "max_tokens", dumpOption .int request.maxTokens),
     (name "presence_penalty", dumpOption .float request.presencePenalty),
     (name "frequency_penalty", dumpOption .float request.frequencyPenalty),
     (name "logit_bias",
      dumpOption (fun bias => .object (bias.map fun e => (e.1, .float e.2))) request.logitBias),
     (name "user", dumpOption .text request.user),
     (name "tools", dumpOption dumpDicts request.tools),
     (name "tool_choice", dumpOption (TextOr.dump .object) request.toolChoice),
     (name "response_format", dumpOption .object request.responseFormat),
     (name "seed", dumpOption .int request.seed)]

theorem ChatRequest.get_messages_modelDump (request : ChatRequest) :
    request.modelDump.get (name "messages") =
      some (.list (request.messages.map ChatMessage.modelDump)) := rfl

/-- The fields of a dumped message. -/
theorem ChatMessage.get_modelDump (message : ChatMessage) :
    message.modelDump.get (Pipeline.name "role") = some (.text message.role.value.toList) ∧
      message.modelDump.get (Pipeline.name "content") =
        some (dumpOption (TextOr.dump dumpDicts) message.content) ∧
      message.modelDump.get (Pipeline.name "tool_calls") =
        some (dumpOption dumpDicts message.toolCalls) := ⟨rfl, rfl, rfl⟩

end AnonReq.Pipeline
