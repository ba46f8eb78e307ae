import Mathlib
import AnonReq.Foundation.JsonReader
import AnonReq.Foundation.Redaction
import AnonReq.Foundation.Runs
import AnonReq.Foundation.Utf8
import AnonReq.Providers.Documents

/-!
# Inspecting MCP messages

`mcp/parser.py` and `MCPInspector.inspect_request` of `mcp/inspector.py`: the body of a request that
looks like a message of JSON-RPC 2.0 is parsed, and the tool calls and tool results in it are
reported.

* `isMcpMessage_encode`: whether a body looks like a message, from its text.
* `messageCalls_parseSingle`: what is extracted from an accepted element of a document.
* `inspectRequest_reports_iff`: when every call of a document is reported.
* `not_inspectRequest_reports`: a blank before a colon, capitals in the content type, and one bad
  element of a batch hide calls.
-/

namespace AnonReq.Mcp

open Providers

/-! ### Messages -/

/-- The domain of a tool call. -/
inductive Domain where
  | model
  | host
deriving DecidableEq

/-- The id of a message. -/
inductive MessageId where
  | int (n : ℤ)
  | text (s : Text)
deriving DecidableEq

/-- `MCPMessage`. -/
structure MCPMessage where
  jsonrpc : Text
  id : Option MessageId
  method : Option Text
  params : Option (List (Text × Json))
  result : Option (List (Text × Json))

/-- `MCPToolCall`. -/
structure MCPToolCall where
  name : Json
  arguments : Json
  id : Text
  domain : Domain

/-- `MCPToolResult`. -/
structure MCPToolResult where
  id : Text
  name : Json
  content : Json
  isError : Json

/-- `str(document)`, where `repr` shows a list or an object. -/
def str (repr : Json → Text) : Json → Text
  | .null => "None".toList
  | .bool true => "True".toList
  | .bool false => "False".toList
  | .int n => (toString n).toList
  | .float shown => shown
  | .text s => s
  | document => repr document

/-- `str(id)`. -/
def MessageId.str : MessageId → Text
  | .int n => (toString n).toList
  | .text s => s

/-- The id of a message as it is reported. -/
def MCPMessage.idText (msg : MCPMessage) : Text := (msg.id.map MessageId.str).getD "unknown".toList

/-- The value of a field, and `None` where there is none. -/
def field (k : String) (document : Json) : Json := (document.get k.toList).getD .null

/-- The document is this text. -/
def isText (word : String) : Json → Bool
  | .text s => s == word.toList
  | _ => false

section Parser

-- the integer that the validation makes of a truth value or of a number with a fraction
variable (toInt : Json → Option ℤ)

/-- Validation of `int | str | None`. -/
def optionalId : Json → Option (Option MessageId)
  | .null => some none
  | .int n => some (some (.int n))
  | .text s => some (some (.text s))
  | .bool b => (toInt (.bool b)).map fun n => some (.int n)
  | .float shown => (toInt (.float shown)).map fun n => some (.int n)
  | _ => none

/-- Validation of `str | None`. -/
def optionalText : Json → Option (Option Text)
  | .null => some none
  | .text s => some (some s)
  | _ => none

/-- Validation of `dict[str, Any] | None`. -/
def optionalObject : Json → Option (Option (List (Text × Json)))
  | .null => some none
  | .object fields => some (some fields)
  | _ => none

/-- `_parse_single`: `none` is the exception. -/
def parseSingle (data : Json) : Option MCPMessage := do
  let jsonrpc ← getD "jsonrpc" .null data
  if isText "2.0" jsonrpc then
    some
      { jsonrpc := "2.0".toList
        id := ← optionalId toInt (← getD "id" .null data)
        method := ← optionalText (← getD "method" .null data)
        params := ← optionalObject (← getD "params" .null data)
        result := ← optionalObject (← getD "result" .null data) }
  else none

variable (shown : Text → Text)

/-- `parse`: `none` is the exception. A single message is the list with it. -/
def parse (raw : List UInt8) : Option (List MCPMessage) :=
  match Json.loads shown (Utf8.decodeReplace raw) with
  | some (.list items) => items.mapM (parseSingle toInt)
  | some (.object fields) => [Json.object fields].mapM (parseSingle toInt)
  | _ => none

end Parser

/-- What is searched in a body. -/
def jsonrpcLiterals : List Text :=
  ["\"jsonrpc\":\"2.0\"".toList, "\"jsonrpc\": \"2.0\"".toList]

/-- `is_mcp_message`. -/
def isMcpMessage (data : List UInt8) : Bool :=
  let stripped := Utf8.strip data
  if stripped.head? = some 0x7B ∨ stripped.head? = some 0x5B then
    jsonrpcLiterals.any fun literal => decide (literal <:+: Utf8.decodeReplace stripped)
  else false

/-! ### Extraction -/

section Extraction

variable (repr : Json → Text)

/-- An entry of `tool_calls`, as a call. -/
def toolCallOf (domain : Domain) (tc : Json) : Option MCPToolCall := do
  some
    { name := ← getD "name" (.text "unknown".toList) tc
      arguments := ← getD "arguments" (.object []) tc
      id := str repr (← getD "id" (.text "unknown".toList) tc)
      domain := domain }

/-- An entry of `tool_calls`, as a result. -/
def toolResultOf (tc : Json) : Option MCPToolResult := do
  some
    { id := str repr (← getD "id" (.text "unknown".toList) tc)
      name := ← getD "name" (.text "unknown".toList) tc
      content := ← getD "content" (.text []) tc
      isError := .bool false }

/-- A loop over the entries of a document: `none` is the exception. -/
def forEntries {β : Type} (build : Json → Option β) (source : Json) : Option (List β) :=
  (iterate source).bind fun entries => entries.mapM build

/-- A loop over the entries of the field `tool_calls`, if it is there. -/
def forToolCalls {β : Type} (build : Json → Option β) (fields : Option (List (Text × Json))) :
    Option (List β) :=
  match fields.bind (List.lookup "tool_calls".toList) with
  | none => some []
  | some source => forEntries build source

/-- The call of a `tools/call` request. -/
def requestCall (msg : MCPMessage) : List MCPToolCall :=
  match msg.params with
  | some (e :: fields) =>
    if msg.method = some "tools/call".toList then
      [{ name := (List.lookup "name".toList (e :: fields)).getD (.text "unknown".toList)
         arguments := (List.lookup "arguments".toList (e :: fields)).getD (.object [])
         id := msg.idText
         domain := .model }]
    else []
  | _ => []

/-- The method of a notification. -/
def isNotification (method : Option Text) : Bool :=
  method.any fun m => "notifications/".toList.isPrefixOf m

/-- The calls of one message: `none` is the exception. -/
def messageCalls (msg : MCPMessage) : Option (List MCPToolCall) := do
  let hostCalls ← forToolCalls (toolCallOf repr .host) msg.result
  let notified ←
    if isNotification msg.method then forToolCalls (toolCallOf repr .model) msg.params else some []
  some (requestCall msg ++ hostCalls ++ notified)

/-- `extract_tool_calls`: `none` is the exception. -/
def extractToolCalls (messages : List MCPMessage) : Option (List MCPToolCall) :=
  (messages.mapM (messageCalls repr)).map List.flatten

/-- The result of a response. -/
def responseResult (msg : MCPMessage) : List MCPToolResult :=
  match msg.result, msg.id with
  | some (e :: fields), some id =>
    [{ id := id.str
       name := (List.lookup "name".toList (e :: fields)).getD (.text "unknown".toList)
       content := (List.lookup "content".toList (e :: fields)).getD (.object [])
       isError := (List.lookup "isError".toList (e :: fields)).getD (.bool false) }]
  | _, _ => []

/-- The fields of `result["model"]`, if it is an object. -/
def modelFields (result : Option (List (Text × Json))) : Option (List (Text × Json)) :=
  match result.bind (List.lookup "model".toList) with
  | some (.object fields) => some fields
  | _ => none

/-- The results of one message: `none` is the exception. -/
def messageResults (msg : MCPMessage) : Option (List MCPToolResult) :=
  (forToolCalls (toolResultOf repr) (modelFields msg.result)).map (responseResult msg ++ ·)

/-- `extract_tool_results`: `none` is the exception. -/
def extractToolResults (messages : List MCPMessage) : Option (List MCPToolResult) :=
  (messages.mapM (messageResults repr)).map List.flatten

end Extraction

/-! ### The inspector -/

/-- What the inspector reads of a request. -/
structure Request where
  body : Option (List UInt8)
  headers : List (Text × Text)
  urlHost : Option Text

/-- `InspectionResult`. -/
structure InspectionResult where
  detected : Bool
  toolCalls : List MCPToolCall
  toolResults : List MCPToolResult
  provider : Option Text
  confidence : ℚ

/-- What the inspector uses. -/
structure Inspector where
  lower : LowerCase
  shown : Text → Text
  toInt : Json → Option ℤ
  repr : Json → Text
  /-- The provider of the match of a hostname, if there is an allowlist and it has a match. -/
  matchHostname : Text → Option Text

namespace Inspector

variable (I : Inspector)

/-- `_get_headers_dict`. -/
def headersDict (request : Request) : List (Text × Text) :=
  Dict.ofList (request.headers.map fun e => (I.lower.lower e.1, e.2))

/-- The content type of a request. -/
def contentType (request : Request) : Text :=
  (Dict.get (I.headersDict request) "content-type".toList).getD []

/-- `_get_target_host`. -/
def targetHost (request : Request) : Option Text :=
  match request.urlHost with
  | some (c :: host) => some (c :: host)
  | _ => Dict.get (I.headersDict request) "host".toList

/-- The provider of the destination. -/
def providerOf (request : Request) : Option Text :=
  (I.targetHost request).bind fun host => if host = [] then none else I.matchHostname host

/-- The confidence of an inspection. -/
def confidenceOf (toolCalls : List MCPToolCall) (provider : Option Text) : ℚ :=
  let confidence : ℚ := if toolCalls = [] then 8 / 10 else min 1 (8 / 10 + toolCalls.length / 10)
  if provider.any (· ≠ []) then min 1 (confidence + 1 / 10) else confidence

/-- `inspect_request`: `none` is an exception, and `some none` the result `None`. -/
def inspectRequest (request : Request) : Option (Option InspectionResult) :=
  let body := request.body.getD []
  if body.length < 10 then some none
  else if ¬ "application/json".toList <:+: I.contentType request then some none
  else if isMcpMessage body then
    match parse I.toInt I.shown body with
    | none => some none
    | some message => do
      let toolCalls ← extractToolCalls I.repr message
      let toolResults ← extractToolResults I.repr message
      if toolCalls.isEmpty ∧ toolResults.isEmpty then some none
      else
        let provider := I.providerOf request
        some (some
          { detected := true
            toolCalls := toolCalls
            toolResults := toolResults
            provider := provider
            confidence := confidenceOf toolCalls provider })
  else some none

/-- The calls that are reported for a request; an exception reports nothing. -/
def reported (request : Request) : Option (List MCPToolCall) :=
  (I.inspectRequest request).map fun result => (result.map InspectionResult.toolCalls).getD []

end Inspector

/-! ### What is to be found -/

/-- A batch, or a single message. -/
def IsDocument (document : Json) : Prop :=
  (∃ fields, document = .object fields) ∨ ∃ items, document = .list items

/-- The elements of a batch, or the single message. -/
def elements : Json → List Json
  | .list items => items
  | document => [document]

def isObject : Json → Bool
  | .object _ => true
  | _ => false

/-- What may be the id of a message. -/
def isId : Json → Bool
  | .list _ | .object _ => false
  | _ => true

/-- What may be the method of a message. -/
def isMethod : Json → Bool
  | .null | .text _ => true
  | _ => false

/-- What may be the parameters of a message. -/
def isParams : Json → Bool
  | .null | .list _ | .object _ => true
  | _ => false

/-- A message of JSON-RPC 2.0; its result may be anything. -/
def isMessage (e : Json) : Bool :=
  isText "2.0" (field "jsonrpc" e) && isId (field "id" e) && isMethod (field "method" e) &&
    isParams (field "params" e)

/-- The entries of a list that are objects. -/
def entriesOf : Json → List Json
  | .list items => items.filter isObject
  | _ => []

/-- The method of a document is that of a notification. -/
def isNotified (e : Json) : Bool :=
  match field "method" e with
  | .text m => "notifications/".toList.isPrefixOf m
  | _ => false

section Expected

variable (repr : Json → Text)

/-- The call that an object describes. -/
def callOf (domain : Domain) (tc : Json) : MCPToolCall where
  name := (tc.get "name".toList).getD (.text "unknown".toList)
  arguments := (tc.get "arguments".toList).getD (.object [])
  id := str repr ((tc.get "id".toList).getD (.text "unknown".toList))
  domain := domain

/-- The id of an element as a text. -/
def ownId (e : Json) : Text :=
  match field "id" e with
  | .null => "unknown".toList
  | id => str repr id

/-- The call of a `tools/call` request, with or without arguments. -/
def requestCalls (e : Json) : List MCPToolCall :=
  if isText "tools/call" (field "method" e) then
    [{ callOf repr .model (field "params" e) with id := ownId repr e }]
  else []

/-- The calls in the `tool_calls` of a result. -/
def hostCalls (e : Json) : List MCPToolCall :=
  (entriesOf (field "tool_calls" (field "result" e))).map (callOf repr .host)

/-- The calls in the `tool_calls` of a notification. -/
def notifiedCalls (e : Json) : List MCPToolCall :=
  if isNotified e then
    (entriesOf (field "tool_calls" (field "params" e))).map (callOf repr .model)
  else []

/-- The calls of an element; a malformed one has none. -/
def expectedCalls (e : Json) : List MCPToolCall :=
  if isMessage e then requestCalls repr e ++ hostCalls repr e ++ notifiedCalls repr e else []

end Expected

/-! ### What can be extracted -/

/-- A loop can go through a document, and finds objects only. -/
def iterates (source : Json) : Bool :=
  match iterate source with
  | some entries => entries.all isObject
  | none => false

/-- The field `tool_calls` is missing, or a loop can go through it. -/
def iteratesToolCalls (document : Json) : Bool :=
  (document.get "tool_calls".toList).all iterates

/-- No loop over the `tool_calls` of an element fails. -/
def Extractable (e : Json) : Prop :=
  iteratesToolCalls (field "result" e) ∧ (isNotified e → iteratesToolCalls (field "params" e)) ∧
    iteratesToolCalls (field "model" (field "result" e))

instance : DecidablePred Extractable := fun _ => inferInstanceAs (Decidable (_ ∧ _))

/-- A `tools/call` request has parameters, and its id is reported as it stands there. -/
def KeepsRequest (toInt : Json → Option ℤ) (repr : Json → Text) (e : Json) : Prop :=
  isText "tools/call" (field "method" e) →
    (field "params" e).truthy ∧
      (optionalId toInt (field "id" e)).map
          (fun id => (id.map MessageId.str).getD "unknown".toList) =
        some (ownId repr e)

/-- The call that the parser finds in a `tools/call` request. -/
def foundRequest (toInt : Json → Option ℤ) (e : Json) : List MCPToolCall :=
  ((parseSingle toInt e).map requestCall).getD []

theorem isText_iff {word : String} {document : Json} :
    isText word document = true ↔ document = .text word.toList := by
  constructor
  · intro h
    cases document with
    | text s => exact congrArg Json.text (beq_iff_eq.mp h)
    | _ => exact absurd h Bool.false_ne_true
  · rintro rfl
    exact beq_iff_eq.mpr rfl

/-- What an accepted element is made into. -/
theorem parseSingle_eq_some_iff {toInt : Json → Option ℤ} {e : Json} {msg : MCPMessage} :
    parseSingle toInt e = some msg ↔
      isText "2.0" (field "jsonrpc" e) ∧ msg.jsonrpc = "2.0".toList ∧
        optionalId toInt (field "id" e) = some msg.id ∧
        optionalText (field "method" e) = some msg.method ∧
        optionalObject (field "params" e) = some msg.params ∧
        optionalObject (field "result" e) = some msg.result := by
  have hfield : ∀ (fields : List (Text × Json)) (k : String),
      getD k .null (.object fields) = some (field k (.object fields)) := fun _ _ => rfl
  constructor
  · intro h
    obtain ⟨jsonrpc, hjsonrpc, h⟩ := Option.bind_eq_some_iff.mp h
    cases e with
    | object fields =>
      rw [hfield] at hjsonrpc
      obtain rfl := Option.some.inj hjsonrpc
      split_ifs at h with hversion
      simp only [hfield] at h
      obtain ⟨_, hid', h⟩ := Option.bind_eq_some_iff.mp h
      obtain rfl := Option.some.inj hid'
      obtain ⟨id, hid, h⟩ := Option.bind_eq_some_iff.mp h
      obtain ⟨_, hmethod', h⟩ := Option.bind_eq_some_iff.mp h
      obtain rfl := Option.some.inj hmethod'
      obtain ⟨method, hmethod, h⟩ := Option.bind_eq_some_iff.mp h
      obtain ⟨_, hparams', h⟩ := Option.bind_eq_some_iff.mp h
      obtain rfl := Option.some.inj hparams'
      obtain ⟨params, hparams, h⟩ := Option.bind_eq_some_iff.mp h
      obtain ⟨_, hresult', h⟩ := Option.bind_eq_some_iff.mp h
      obtain rfl := Option.some.inj hresult'
      obtain ⟨result, hresult, h⟩ := Option.bind_eq_some_iff.mp h
      obtain rfl := Option.some.inj h
      exact ⟨hversion, rfl, hid, hmethod, hparams, hresult⟩
    | _ => exact absurd hjsonrpc (Option.some_ne_none _).symm
  · rintro ⟨hversion, hjsonrpc, hid, hmethod, hparams, hresult⟩
    cases e with
    | object fields =>
      obtain ⟨jsonrpc, id, method, params, result⟩ := msg
      subst hjsonrpc
      simp only [parseSingle, hfield, Option.bind_eq_bind, Option.bind_some, hversion, if_true, hid,
        hmethod, hparams, hresult]
    | _ => exact absurd hversion Bool.false_ne_true

/-- An accepted element is a message. -/
theorem isMessage_of_parseSingle {toInt : Json → Option ℤ} {e : Json} {msg : MCPMessage}
    (h : parseSingle toInt e = some msg) : isMessage e = true := by
  obtain ⟨hversion, -, hid, hmethod, hparams, -⟩ := parseSingle_eq_some_iff.mp h
  have hid' : isId (field "id" e) = true := by
    cases hfield : field "id" e with
    | list items => exact absurd (hfield ▸ hid) (Option.some_ne_none _).symm
    | object fields => exact absurd (hfield ▸ hid) (Option.some_ne_none _).symm
    | _ => rfl
  have hmethod' : isMethod (field "method" e) = true := by
    cases hfield : field "method" e with
    | null => rfl
    | text s => rfl
    | _ => exact absurd (hfield ▸ hmethod) (Option.some_ne_none _).symm
  have hparams' : isParams (field "params" e) = true := by
    cases hfield : field "params" e with
    | null => rfl
    | object fields => rfl
    | _ => exact absurd (hfield ▸ hparams) (Option.some_ne_none _).symm
  rw [isMessage, hversion, hid', hmethod', hparams']
  rfl

/-- **Loops over entries.** A loop succeeds if it finds objects only. -/
theorem forEntries_eq {β : Type} {build : Json → Option β} {made : Json → β}
    (hbuild : ∀ tc, build tc = if isObject tc then some (made tc) else none) (source : Json) :
    forEntries build source =
      if iterates source then some ((entriesOf source).map made) else none := by
  have htexts : ∀ entries : List Json, (∀ entry ∈ entries, isObject entry = false) →
      entries.mapM build = if entries.all isObject then some [] else none := by
    rintro (_ | ⟨entry, entries⟩) h
    · rfl
    · rw [List.mapM_cons, hbuild, List.all_cons, h entry List.mem_cons_self]
      rfl
  cases source with
  | list items =>
    rw [forEntries, iterate, Option.bind_some, Runs.mapM_eq_ite fun tc _ => hbuild tc]
    refine if_ctx_congr List.all_eq_true.symm (fun hall => ?_) fun _ => rfl
    rw [entriesOf, List.filter_eq_self.mpr (List.all_eq_true.mp hall)]
  | object fields =>
    exact htexts _ (List.forall_mem_map.mpr fun _ _ => rfl)
  | text s =>
    exact htexts _ (List.forall_mem_map.mpr fun _ _ => rfl)
  | _ => rfl

theorem toolCallOf_eq (repr : Json → Text) (domain : Domain) (tc : Json) :
    toolCallOf repr domain tc = if isObject tc then some (callOf repr domain tc) else none := by
  cases tc <;> rfl

theorem exists_toolResultOf (repr : Json → Text) :
    ∃ made : Json → MCPToolResult, ∀ tc,
      toolResultOf repr tc = if isObject tc then some (made tc) else none := by
  refine ⟨fun tc => (toolResultOf repr tc).getD ⟨[], .null, .null, .null⟩, fun tc => ?_⟩
  cases tc <;> rfl

/-- The loop over the `tool_calls` of an object, or of a document with the same field. -/
theorem forToolCalls_eq {β : Type} {build : Json → Option β} {made : Json → β}
    (hbuild : ∀ tc, build tc = if isObject tc then some (made tc) else none)
    {fields : Option (List (Text × Json))} {document : Json}
    (h : fields.bind (List.lookup "tool_calls".toList) = document.get "tool_calls".toList) :
    forToolCalls build fields =
      if iteratesToolCalls document then
        some ((entriesOf (field "tool_calls" document)).map made) else none := by
  rw [forToolCalls, h, iteratesToolCalls, field]
  cases hsource : document.get "tool_calls".toList with
  | none => rfl
  | some source => exact forEntries_eq hbuild source

theorem bind_lookup_of_optionalObject {document : Json} {fields : Option (List (Text × Json))}
    (h : optionalObject document = some fields) (k : Text) :
    fields.bind (List.lookup k) = document.get k := by
  cases document with
  | null =>
    obtain rfl := Option.some.inj h
    rfl
  | object entries =>
    obtain rfl := Option.some.inj h
    rfl
  | _ => exact absurd h (Option.some_ne_none _).symm

theorem isNotification_of_optionalText {e : Json} {method : Option Text}
    (h : optionalText (field "method" e) = some method) : isNotification method = isNotified e := by
  rw [isNotified]
  cases hfield : field "method" e with
  | null =>
    obtain rfl := Option.some.inj (hfield ▸ h)
    rfl
  | text m =>
    obtain rfl := Option.some.inj (hfield ▸ h)
    rfl
  | _ => exact absurd (hfield ▸ h) (Option.some_ne_none _).symm

section

variable {toInt : Json → Option ℤ} {repr : Json → Text} {e : Json} {msg : MCPMessage}

/-- **The calls of an accepted element.** -/
theorem messageCalls_parseSingle (h : parseSingle toInt e = some msg) :
    messageCalls repr msg =
      if iteratesToolCalls (field "result" e) ∧
          (isNotified e → iteratesToolCalls (field "params" e)) then
        some (requestCall msg ++ hostCalls repr e ++ notifiedCalls repr e) else none := by
  obtain ⟨-, -, -, hmethod, hparams, hresult⟩ := parseSingle_eq_some_iff.mp h
  rw [messageCalls, forToolCalls_eq (toolCallOf_eq repr .host)
      (bind_lookup_of_optionalObject hresult _),
    forToolCalls_eq (toolCallOf_eq repr .model) (bind_lookup_of_optionalObject hparams _),
    isNotification_of_optionalText hmethod, notifiedCalls]
  cases iteratesToolCalls (field "result" e) <;> cases isNotified e <;>
    cases iteratesToolCalls (field "params" e) <;> rfl

/-- **The results of an accepted element.** -/
theorem messageResults_parseSingle (h : parseSingle toInt e = some msg) :
    ∃ results, messageResults repr msg =
      if iteratesToolCalls (field "model" (field "result" e)) then some results else none := by
  obtain ⟨-, -, -, -, -, hresult⟩ := parseSingle_eq_some_iff.mp h
  obtain ⟨made, hmade⟩ := exists_toolResultOf repr
  have hfields : (modelFields msg.result).bind (List.lookup "tool_calls".toList) =
      (field "model" (field "result" e)).get "tool_calls".toList := by
    rw [modelFields, bind_lookup_of_optionalObject hresult]
    generalize field "result" e = result
    rw [field]
    cases result.get "model".toList with
    | none => rfl
    | some model => cases model <;> rfl
  rw [messageResults, forToolCalls_eq hmade hfields]
  exact ⟨_, by split_ifs <;> rfl⟩

theorem requestCall_eq (h : parseSingle toInt e = some msg) :
    requestCall msg =
      if isText "tools/call" (field "method" e) ∧ (field "params" e).truthy then
        [{ callOf repr .model (field "params" e) with id := msg.idText }] else [] := by
  obtain ⟨-, -, -, hmethod, hparams, -⟩ := parseSingle_eq_some_iff.mp h
  have hcall : msg.method = some "tools/call".toList ↔
      isText "tools/call" (field "method" e) = true := by
    rw [isText_iff]
    cases hfield : field "method" e with
    | text m =>
      rw [hfield] at hmethod
      have hsome : some m = msg.method := Option.some.inj hmethod
      rw [← hsome, Option.some.injEq, Json.text.injEq]
    | null =>
      rw [hfield] at hmethod
      have hnone : none = msg.method := Option.some.inj hmethod
      simp only [← hnone, reduceCtorEq]
    | _ => exact absurd (hfield ▸ hmethod) (Option.some_ne_none _).symm
  cases hfield : field "params" e with
  | null =>
    rw [hfield] at hparams
    have hnone : none = msg.params := Option.some.inj hparams
    rw [requestCall, ← hnone]
    exact (if_neg fun hand => Bool.false_ne_true hand.2).symm
  | object fields =>
    rw [hfield] at hparams
    have hsome : some fields = msg.params := Option.some.inj hparams
    rw [requestCall, ← hsome]
    cases fields with
    | nil => exact (if_neg fun hand => Bool.false_ne_true hand.2).symm
    | cons first fields =>
      exact if_congr (hcall.trans (and_iff_left rfl).symm) rfl rfl
  | _ => exact absurd (hfield ▸ hparams) (Option.some_ne_none _).symm

theorem length_foundRequest_le :
    (foundRequest toInt e).length ≤ (requestCalls repr e).length := by
  rw [foundRequest]
  cases hparse : parseSingle toInt e with
  | none => exact Nat.zero_le _
  | some msg =>
    rw [Option.map_some, Option.getD_some, @requestCall_eq _ repr _ _ hparse, requestCalls]
    by_cases hcall : isText "tools/call" (field "method" e) = true
    · rw [if_pos hcall]
      split_ifs <;> simp
    · rw [if_neg hcall, if_neg fun hand => hcall hand.1]

/-- When the call of an accepted request is found. -/
theorem foundRequest_eq_iff (h : (parseSingle toInt e).isSome) :
    foundRequest toInt e = requestCalls repr e ↔ KeepsRequest toInt repr e := by
  obtain ⟨msg, hparse⟩ := Option.isSome_iff_exists.mp h
  obtain ⟨-, -, hid, -⟩ := parseSingle_eq_some_iff.mp hparse
  rw [foundRequest, hparse, Option.map_some, Option.getD_some, @requestCall_eq _ repr _ _ hparse,
    requestCalls, KeepsRequest, hid]
  by_cases hcall : isText "tools/call" (field "method" e) = true
  · rw [if_pos hcall]
    by_cases hparams : (field "params" e).truthy = true
    · rw [if_pos ⟨hcall, hparams⟩]
      simp [hcall, hparams, MCPMessage.idText, callOf]
    · rw [if_neg fun hand => hparams hand.2]
      simp [hcall, hparams]
  · rw [if_neg hcall, if_neg fun hand => hcall hand.1]
    simp [hcall]

end

/-! ### What looks like a message -/

theorem isSpace_of_isBlank {c : Char} (h : JsonText.isBlank c = true) : Utf8.IsSpace c := by
  simp only [JsonText.isBlank, Bool.or_eq_true, beq_iff_eq] at h
  obtain ((rfl | rfl) | rfl) | rfl := h <;> decide

theorem quote_not_mem {blanks : Text} (h : Json.Blank blanks) : '"' ∉ blanks :=
  fun hmem => absurd (h _ hmem) (by decide)

/-- A literal stands in the value of a text, and not in the blanks around it. -/
theorem literal_infix_iff {literal : Text} (hliteral : literal ∈ jsonrpcLiterals)
    {before core behind : Text} (hbefore : Json.Blank before) (hbehind : Json.Blank behind) :
    literal <:+: before ++ (core ++ behind) ↔ literal <:+: core := by
  obtain ⟨word, rfl⟩ : ∃ word : Text, literal = '"' :: word ++ ['"'] := by
    simp only [jsonrpcLiterals, List.mem_cons, List.not_mem_nil, or_false] at hliteral
    obtain rfl | rfl := hliteral
    · exact ⟨"jsonrpc\":\"2.0".toList, rfl⟩
    · exact ⟨"jsonrpc\": \"2.0".toList, rfl⟩
  rw [List.cons_append, Redaction.cons_infix_append_iff (quote_not_mem hbefore), ← List.cons_append,
    Redaction.concat_infix_append_iff (quote_not_mem hbehind)]

/-- **Bodies that look like messages**: those of documents in which a literal stands as it is. -/
theorem isMcpMessage_encode {shown : Text → Text} {text : Text} {document : Json}
    (hloads : Json.loads shown text = some document) (hdocument : IsDocument document) :
    isMcpMessage (Utf8.encode text) = true ↔ ∃ literal ∈ jsonrpcLiterals, literal <:+: text := by
  obtain ⟨opening, closing, hbrackets, hopening, hclosing, hhead⟩ :
      ∃ opening closing, Json.brackets document = some (opening, closing) ∧
        Utf8.IsMark opening ∧ Utf8.IsMark closing ∧
          (String.utf8EncodeChar opening = [0x7B] ∨ String.utf8EncodeChar opening = [0x5B]) := by
    obtain ⟨fields, rfl⟩ | ⟨items, rfl⟩ := hdocument
    · exact ⟨'{', '}', rfl, ⟨0x7B, rfl, rfl⟩, ⟨0x7D, rfl, rfl⟩, Or.inl rfl⟩
    · exact ⟨'[', ']', rfl, ⟨0x5B, rfl, rfl⟩, ⟨0x5D, rfl, rfl⟩, Or.inr rfl⟩
  obtain ⟨before, inner, behind, hbefore, hbehind, rfl, -⟩ :=
    Json.exists_inner_of_loads hloads hbrackets
  have hstrip := @Utf8.strip_encode before inner behind opening closing
    (fun c hc => isSpace_of_isBlank (hbefore c hc)) (fun c hc => isSpace_of_isBlank (hbehind c hc))
    hopening hclosing
  have hfirst : (Utf8.encode (opening :: (inner ++ [closing]))).head? = some 0x7B ∨
      (Utf8.encode (opening :: (inner ++ [closing]))).head? = some 0x5B := by
    rw [Utf8.encode, List.flatMap_cons]
    obtain h | h := hhead
    · exact Or.inl (h ▸ rfl)
    · exact Or.inr (h ▸ rfl)
  rw [isMcpMessage, hstrip, if_pos hfirst, Utf8.decodeReplace_encode, List.any_eq_true]
  refine exists_congr fun literal => and_congr_right fun hliteral => ?_
  rw [decide_eq_true_iff, literal_infix_iff hliteral hbefore hbehind]

/-- A text with a literal is not too short. -/
theorem not_length_lt_of_literal {text : Text}
    (h : ∃ literal ∈ jsonrpcLiterals, literal <:+: text) : ¬ (Utf8.encode text).length < 10 := by
  obtain ⟨literal, hliteral, hpart⟩ := h
  have hlength : 10 ≤ literal.length := by
    simp only [jsonrpcLiterals, List.mem_cons, List.not_mem_nil, or_false] at hliteral
    obtain rfl | rfl := hliteral <;> decide
  exact Nat.not_lt.mpr
    (hlength.trans (hpart.length_le.trans (Utf8.length_le_length_encode text)))

theorem parse_encode {toInt : Json → Option ℤ} {shown : Text → Text} {text : Text}
    {document : Json} (hloads : Json.loads shown text = some document)
    (hdocument : IsDocument document) :
    parse toInt shown (Utf8.encode text) = (elements document).mapM (parseSingle toInt) := by
  rw [parse, Utf8.decodeReplace_encode, hloads]
  obtain ⟨fields, rfl⟩ | ⟨items, rfl⟩ := hdocument
  · rfl
  · rfl

/-! ### What is reported -/

namespace Inspector

variable (I : Inspector)

/-- A document gets as far as the extraction: its content type is written in small letters, a
literal stands in its text, and each element is accepted. -/
structure Passes (request : Request) (text : Text) (document : Json) : Prop where
  contentType : "application/json".toList <:+: I.contentType request
  literal : ∃ literal ∈ jsonrpcLiterals, literal <:+: text
  accepted : ∀ e ∈ elements document, (parseSingle I.toInt e).isSome

/-- The calls that are extracted from an element. -/
def foundCalls (e : Json) : List MCPToolCall :=
  foundRequest I.toInt e ++ hostCalls I.repr e ++ notifiedCalls I.repr e

variable {I} {request : Request} {text : Text} {document : Json}

theorem extractToolCalls_eq {elements : List Json} {messages : List MCPMessage}
    (h : elements.mapM (parseSingle I.toInt) = some messages)
    (haccepted : ∀ e ∈ elements, (parseSingle I.toInt e).isSome) :
    extractToolCalls I.repr messages =
      if ∀ e ∈ elements, iteratesToolCalls (field "result" e) ∧
          (isNotified e → iteratesToolCalls (field "params" e)) then
        some (elements.flatMap I.foundCalls) else none := by
  have hcalls : ∀ e ∈ elements, (parseSingle I.toInt e).bind (messageCalls I.repr) =
      if iteratesToolCalls (field "result" e) ∧
          (isNotified e → iteratesToolCalls (field "params" e)) then
        some (I.foundCalls e) else none := by
    intro e he
    obtain ⟨msg, hparse⟩ := Option.isSome_iff_exists.mp (haccepted e he)
    rw [hparse, Option.bind_some, messageCalls_parseSingle hparse, foundCalls, foundRequest, hparse]
    rfl
  rw [extractToolCalls, Runs.mapM_mapM h, Runs.mapM_eq_ite hcalls]
  split_ifs
  · rw [Option.map_some, List.flatMap_def]
  · rfl

theorem extractToolResults_eq {elements : List Json} {messages : List MCPMessage}
    (h : elements.mapM (parseSingle I.toInt) = some messages)
    (haccepted : ∀ e ∈ elements, (parseSingle I.toInt e).isSome) :
    ∃ results, extractToolResults I.repr messages =
      if ∀ e ∈ elements, iteratesToolCalls (field "model" (field "result" e)) then
        some results else none := by
  have hresults : ∀ e ∈ elements, (parseSingle I.toInt e).bind (messageResults I.repr) =
      if iteratesToolCalls (field "model" (field "result" e)) then
        some (((parseSingle I.toInt e).bind (messageResults I.repr)).getD []) else none := by
    intro e he
    obtain ⟨msg, hparse⟩ := Option.isSome_iff_exists.mp (haccepted e he)
    obtain ⟨results, hresults⟩ := @messageResults_parseSingle _ I.repr _ _ hparse
    rw [hparse, Option.bind_some, hresults]
    split_ifs <;> rfl
  rw [extractToolResults, Runs.mapM_mapM h, Runs.mapM_eq_ite hresults]
  exact ⟨_, by split_ifs <;> rfl⟩

/-- A document that does not get as far as the extraction has no calls. -/
theorem reported_of_not_passes (hbody : request.body = some (Utf8.encode text))
    (hloads : Json.loads I.shown text = some document) (hdocument : IsDocument document)
    (h : ¬ I.Passes request text document) : I.reported request = some [] := by
  rw [reported, inspectRequest, hbody, Option.getD_some]
  by_cases hlength : (Utf8.encode text).length < 10
  · rw [if_pos hlength]
    rfl
  by_cases htype : "application/json".toList <:+: I.contentType request
  · by_cases hliteral : ∃ literal ∈ jsonrpcLiterals, literal <:+: text
    · rw [if_neg hlength, if_neg (not_not.mpr htype),
        if_pos ((isMcpMessage_encode hloads hdocument).mpr hliteral),
        parse_encode hloads hdocument]
      cases hparse : (elements document).mapM (parseSingle I.toInt) with
      | none => rfl
      | some messages =>
        refine absurd ⟨htype, hliteral, fun e he => ?_⟩ h
        exact Runs.isSome_of_mapM hparse e he
    · rw [if_neg hlength, if_neg (not_not.mpr htype),
        if_neg (mt (isMcpMessage_encode hloads hdocument).mp hliteral)]
      rfl
  · rw [if_neg hlength, if_pos htype]
    rfl

/-- A document that gets as far as the extraction. -/
theorem reported_of_passes (hbody : request.body = some (Utf8.encode text))
    (hloads : Json.loads I.shown text = some document) (hdocument : IsDocument document)
    (h : I.Passes request text document) :
    I.reported request =
      if ∀ e ∈ elements document, Extractable e then
        some ((elements document).flatMap I.foundCalls) else none := by
  obtain ⟨messages, hparse⟩ := Runs.exists_mapM_eq_some h.accepted
  obtain ⟨results, hresults⟩ := extractToolResults_eq hparse h.accepted
  have hall : (∀ e ∈ elements document, Extractable e) ↔
      (∀ e ∈ elements document, iteratesToolCalls (field "result" e) ∧
        (isNotified e → iteratesToolCalls (field "params" e))) ∧
      ∀ e ∈ elements document, iteratesToolCalls (field "model" (field "result" e)) := by
    rw [← forall₂_and]
    exact forall₂_congr fun e _ => and_assoc.symm
  rw [reported, inspectRequest, hbody, Option.getD_some,
    if_neg (not_length_lt_of_literal h.literal), if_neg (not_not.mpr h.contentType),
    if_pos ((isMcpMessage_encode hloads hdocument).mpr h.literal), parse_encode hloads hdocument,
    hparse]
  dsimp only
  rw [extractToolCalls_eq hparse h.accepted, hresults]
  by_cases hcalls : ∀ e ∈ elements document, iteratesToolCalls (field "result" e) ∧
      (isNotified e → iteratesToolCalls (field "params" e))
  · by_cases hmodel : ∀ e ∈ elements document,
        iteratesToolCalls (field "model" (field "result" e))
    · rw [if_pos hcalls, if_pos hmodel, if_pos (hall.mpr ⟨hcalls, hmodel⟩)]
      dsimp only [Option.bind_eq_bind, Option.bind_some]
      split_ifs with hempty
      · rw [List.isEmpty_iff.mp hempty.1]
        rfl
      · rfl
    · rw [if_pos hcalls, if_neg hmodel, if_neg fun hand => hmodel (hall.mp hand).2]
      rfl
  · rw [if_neg hcalls, if_neg fun hand => hcalls (hall.mp hand).1]
    rfl

theorem length_flatMap_le {α β : Type} {f g : α → List β} {l : List α}
    (hle : ∀ a ∈ l, (f a).length ≤ (g a).length) :
    (l.flatMap f).length ≤ (l.flatMap g).length := by
  induction l with
  | nil => exact Nat.le_refl 0
  | cons a l ih =>
    obtain ⟨ha, hl⟩ := List.forall_mem_cons.mp hle
    rw [List.flatMap_cons, List.flatMap_cons, List.length_append, List.length_append]
    exact Nat.add_le_add ha (ih hl)

/-- Lists that are joined to the same list, where no part is longer than the other. -/
theorem flatMap_eq_flatMap_iff {α β : Type} {f g : α → List β} {l : List α}
    (hle : ∀ a ∈ l, (f a).length ≤ (g a).length) :
    l.flatMap f = l.flatMap g ↔ ∀ a ∈ l, f a = g a := by
  constructor
  · intro h
    induction l with
    | nil => exact fun _ ha => absurd ha List.not_mem_nil
    | cons a l ih =>
      obtain ⟨ha, hl⟩ := List.forall_mem_cons.mp hle
      have hlengths := congrArg List.length h
      rw [List.flatMap_cons, List.flatMap_cons, List.length_append, List.length_append] at hlengths
      have hrest := length_flatMap_le hl
      obtain ⟨hfirst, htail⟩ := List.append_inj h (by omega)
      exact List.forall_mem_cons.mpr ⟨hfirst, ih hl htail⟩
  · intro h
    rw [List.flatMap_def, List.flatMap_def, List.map_congr_left h]

/-- An accepted element has the calls of a message. -/
theorem expectedCalls_of_accepted {e : Json} (h : (parseSingle I.toInt e).isSome) :
    expectedCalls I.repr e =
      requestCalls I.repr e ++ hostCalls I.repr e ++ notifiedCalls I.repr e := by
  obtain ⟨msg, hparse⟩ := Option.isSome_iff_exists.mp h
  rw [expectedCalls, if_pos (isMessage_of_parseSingle hparse)]

theorem foundCalls_eq_iff {e : Json} (h : (parseSingle I.toInt e).isSome) :
    I.foundCalls e = expectedCalls I.repr e ↔ KeepsRequest I.toInt I.repr e := by
  rw [expectedCalls_of_accepted h, foundCalls, List.append_assoc, List.append_assoc,
    List.append_left_inj, foundRequest_eq_iff h]

/-- **Which calls are reported.** The calls of a document are reported, one for each call, if and
only if the document gets as far as the extraction, each loop over `tool_calls` finds objects only
and each `tools/call` request has parameters and an id that is not coerced; or it does not get there
and has no calls. -/
theorem inspectRequest_reports_iff (hbody : request.body = some (Utf8.encode text))
    (hloads : Json.loads I.shown text = some document) (hdocument : IsDocument document) :
    I.reported request = some ((elements document).flatMap (expectedCalls I.repr)) ↔
      (I.Passes request text document ∧
          ∀ e ∈ elements document, Extractable e ∧ KeepsRequest I.toInt I.repr e) ∨
        ¬ I.Passes request text document ∧
          ∀ e ∈ elements document, expectedCalls I.repr e = [] := by
  by_cases hpasses : I.Passes request text document
  · have hle : ∀ e ∈ elements document,
        (I.foundCalls e).length ≤ (expectedCalls I.repr e).length := by
      intro e he
      have hlength := @length_foundRequest_le I.toInt I.repr e
      rw [expectedCalls_of_accepted (hpasses.accepted e he), foundCalls]
      simp only [List.length_append]
      omega
    have hkeeps : (∀ e ∈ elements document, I.foundCalls e = expectedCalls I.repr e) ↔
        ∀ e ∈ elements document, KeepsRequest I.toInt I.repr e :=
      forall₂_congr fun e he => foundCalls_eq_iff (hpasses.accepted e he)
    rw [reported_of_passes hbody hloads hdocument hpasses, forall₂_and]
    simp only [hpasses, true_and, not_true_eq_false, false_and, or_false]
    by_cases hextractable : ∀ e ∈ elements document, Extractable e
    · rw [if_pos hextractable, Option.some.injEq, flatMap_eq_flatMap_iff hle, hkeeps]
      exact (and_iff_right hextractable).symm
    · rw [if_neg hextractable]
      exact iff_of_false (Option.some_ne_none _).symm fun hand => hextractable hand.1
  · rw [reported_of_not_passes hbody hloads hdocument hpasses, Option.some.injEq, eq_comm,
      List.flatMap_eq_nil_iff]
    simp only [hpasses, false_and, not_false_eq_true, true_and, false_or]

/-! ### Some requests -/

/-- An inspector without an allowlist; a number that is no integer is never accepted as an id. -/
def plain : Inspector where
  lower := asciiLower
  shown := id
  toInt := fun _ => none
  repr := fun _ => []
  matchHostname := fun _ => none

/-- A request with a JSON body. -/
def jsonRequest (contentType body : String) : Request where
  body := some (Utf8.encode body.toList)
  headers := [("Content-Type".toList, contentType.toList)]
  urlHost := none

/-- A call without arguments. -/
def callText : String :=
  "\x7b\"jsonrpc\":\"2.0\",\"id\":\"a\",\"method\":\"tools/call\"," ++
    "\"params\":\x7b\"name\":\"t\"\x7d\x7d"

/-- A call without arguments, and one in a result. -/
def batch : String :=
  "[" ++ callText ++ ",\x7b\"jsonrpc\":\"2.0\",\"result\":\x7b\"tool_calls\":[\x7b\x7d]\x7d\x7d]"

/-- The document of `batch`. -/
def batchDocument : Json :=
  .list [.object
    [("jsonrpc".toList, .text "2.0".toList), ("id".toList, .text "a".toList),
      ("method".toList, .text "tools/call".toList),
      ("params".toList, .object [("name".toList, .text "t".toList)])],
    .object
      [("jsonrpc".toList, .text "2.0".toList),
        ("result".toList, .object [("tool_calls".toList, .list [.object []])])]]

set_option maxRecDepth 20000 in
theorem loads_batch : Json.loads id batch.toList = some batchDocument := rfl

theorem inspectRequest_reports_batch :
    plain.reported (jsonRequest "application/json" batch) =
      some ((elements batchDocument).flatMap (expectedCalls plain.repr)) := by
  have hloads : Json.loads plain.shown batch.toList = some batchDocument := loads_batch
  refine (@inspectRequest_reports_iff plain (jsonRequest "application/json" batch) batch.toList
    batchDocument rfl hloads (Or.inr ⟨_, rfl⟩)).mpr (Or.inl ⟨⟨?_, ?_, ?_⟩, ?_⟩)
  · decide +kernel
  · decide +kernel
  · exact List.forall_mem_cons.mpr ⟨rfl, List.forall_mem_singleton.mpr rfl⟩
  · refine List.forall_mem_cons.mpr ⟨⟨by decide, fun _ => ⟨rfl, rfl⟩⟩,
      List.forall_mem_singleton.mpr ⟨by decide, fun hcall => absurd hcall (by decide)⟩⟩

/-- **Hidden calls.** A blank before a colon, a capital in the content type, one element of a batch
that is no message or without parameters: no call is reported. -/
theorem not_inspectRequest_reports :
    (plain.reported (jsonRequest "application/json"
        ("\x7b\"jsonrpc\" :\"2.0\",\"method\":\"tools/call\"," ++
          "\"params\":\x7b\"name\":\"t\"\x7d\x7d"))).map List.length = some 0 ∧
      (plain.reported (jsonRequest "application/json" ("[" ++ callText ++ ",1]"))).map
        List.length = some 0 ∧
      (plain.reported (jsonRequest "application/json"
        "\x7b\"jsonrpc\":\"2.0\",\"method\":\"tools/call\"\x7d")).map List.length = some 0 ∧
      ¬ ∀ (I : Inspector) (request : Request) (text : Text) (document : Json),
        request.body = some (Utf8.encode text) → Json.loads I.shown text = some document →
        IsDocument document →
        "application/json".toList <:+: I.lower.lower (I.contentType request) →
        I.reported request = some ((elements document).flatMap (expectedCalls I.repr)) := by
  refine ⟨by decide +kernel, by decide +kernel, by decide +kernel, fun h => ?_⟩
  have hreported := congrArg (Option.map List.length)
    (h plain (jsonRequest "Application/JSON" batch) batch.toList batchDocument rfl loads_batch
      (Or.inr ⟨_, rfl⟩) (by decide +kernel))
  exact absurd hreported (by decide +kernel)

end Inspector

end AnonReq.Mcp
