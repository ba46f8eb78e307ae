import AnonReq.Foundation.Runs
import AnonReq.Multimodal.JsonAnalyzer

/-!
# Tool calls in messages and responses

`multimodal/tool_call.py`: the arguments of tool calls in three formats are given to the JSON
analyzer. A body is read in one format, and of its messages or choices one is read.

* `source_inspects`: what a result says of the calls in the message or payload that is read.
* `not_complete`: arguments that cannot be parsed are left as an empty dictionary, uninspected.
-/

namespace AnonReq.Multimodal

/-! ### The model -/

/-- A tool call as it stands in a message: its position, identifier and name, and its arguments. -/
structure Call where
  index : ℕ
  toolCallId : Json := .null
  functionName : Json := .text []
  arguments : Option Json

/-- `ToolCallDetection`, with what was given to the engine for it. -/
structure ToolCallDetection where
  index : ℕ
  toolCallId : Json
  functionName : Json
  arguments : Json
  entities : List Entity
  offered : List Visit

/-- `ToolCallResult`. -/
structure ToolCallResult where
  provider : Text
  detections : List ToolCallDetection := []

/-- What arguments are: nothing, a text that cannot be parsed, or a document, which is analyzed as
it is or wrapped in a dictionary. -/
inductive ParsedArguments where
  | absent
  | malformed
  | document (value : Json) (wrapped : Bool)

/-- Where a document stands in what is analyzed of it. -/
def root (wrapped : Bool) : List Key := if wrapped then [.name "_value".toList] else []

/-- What is analyzed of a document. -/
def analyzed (value : Json) (wrapped : Bool) : Json :=
  if wrapped then .object [("_value".toList, value)] else value

variable (R : Library) (a : JsonAnalyzer)

/-- The arguments as `_analyze_arguments` reads them. -/
def parseArguments : Option Json → Except Raised ParsedArguments
  | none => .ok .absent
  | some .null => .ok .absent
  | some (.text arguments) =>
    match R.loads arguments with
    | .error (.invalid _) => .ok .malformed
    | .error .recursion => .error .recursion
    | .ok (.object fields) => .ok (.document (.object fields) false)
    | .ok value => .ok (.document value true)
  | some value => .ok (.document value false)

/-- `_analyze_arguments` of arguments that were read, for the detection of a call. -/
def analyzeParsed (call : Call) : ParsedArguments → Except Raised ToolCallDetection
  | .absent | .malformed =>
    .ok { call with arguments := .object [], entities := [], offered := [] }
  | .document value wrapped =>
    (a.analyze R (.parsed (analyzed value wrapped))).map fun result =>
      { call with
        arguments := value
        entities := result.entities
        offered := a.offered R (analyzed value wrapped) }

/-- `_analyze_arguments`, for the detection of a call. -/
def analyzeArguments (call : Call) : Except Raised ToolCallDetection :=
  parseArguments R call.arguments >>= analyzeParsed R a call

/-- The field is there, and true. -/
def truthyField (document : Json) (k : Text) : Bool := ((document.get k).map Json.truthy).getD false

/-- An entry of `tool_calls`. -/
def openaiCall (index : ℕ) (tc : Json) : Except Raised Call :=
  match tc with
  | .object _ =>
    let func := if truthyField tc "function".toList then tc.get "function".toList else none
    match func.getD (.object []) with
    | .object fields =>
      .ok
        { index := index
          toolCallId := (tc.get "id".toList).getD .null
          functionName := ((Json.object fields).get "name".toList).getD (.text [])
          arguments := (Json.object fields).get "arguments".toList }
    | _ => .error .attribute
  | _ => .error .attribute

/-- `extract_tool_calls_openai`. -/
def extractToolCallsOpenai (message : Json) : Except Raised (List ToolCallDetection) :=
  if truthyField message "tool_calls".toList then
    match message.get "tool_calls".toList with
    | some (.list toolCalls) => toolCalls.zipIdx.mapM fun tc =>
      openaiCall tc.2 tc.1 >>= analyzeArguments R a
    | some (.object _) | some (.text _) => .error .attribute
    | _ => .error .type
  else .ok []

/-- A block of `content` that is a tool call. -/
def isToolUse (block : Json) : Bool :=
  match block.get "type".toList with
  | some (.text type) => type = "tool_use".toList
  | _ => false

/-- The call of a block of `content`. -/
def anthropicCall (index : ℕ) (block : Json) : Option Call :=
  if isToolUse block then
    some
      { index := index
        toolCallId := (block.get "id".toList).getD .null
        functionName := (block.get "name".toList).getD (.text [])
        arguments := block.get "input".toList }
  else none

/-- `extract_tool_calls_anthropic`. -/
def extractToolCallsAnthropic (content : List Json) : Except Raised (List ToolCallDetection) :=
  (content.zipIdx.filterMap fun block => anthropicCall block.2 block.1).mapM (analyzeArguments R a)

/-- The payload is an MCP request. -/
def isToolsCall (payload : Json) : Bool :=
  match payload.get "method".toList with
  | some (.text method) => method = "tools/call".toList
  | _ => false

/-- The call of an MCP request, if it has parameters. -/
def mcpRequestCalls (payload : Json) : List Call :=
  if isToolsCall payload && truthyField payload "params".toList then
    let params := (payload.get "params".toList).getD .null
    [{ index := 0
       functionName := (params.get "name".toList).getD (.text [])
       arguments := params.get "arguments".toList }]
  else []

/-- The content of an MCP response. -/
def mcpContent (payload : Json) : List Json :=
  match (payload.get "result".toList).bind (Json.get "content".toList) with
  | some (.list items) => items
  | _ => []

/-- The texts of an MCP response, with the positions of their items. -/
def mcpTexts (payload : Json) : List (ℕ × Json) :=
  (mcpContent payload).zipIdx.filterMap fun item =>
    (item.1.get "text".toList).map (Prod.mk item.2)

/-- The items of an MCP response that have a text, each a call with this text as its arguments. A
string stands in a dictionary. -/
def mcpResponseCalls (ofText : Text → Json) (payload : Json) : List Call :=
  (mcpTexts payload).map fun item =>
    { index := item.1
      arguments := some <| match item.2 with
        | .text s => ofText s
        | value => value }

/-- `extract_tool_calls_mcp`; the string of a response is written as JSON first. -/
def extractToolCallsMcp (payload : Json) : Except Raised (List ToolCallDetection) :=
  let calls := if isToolsCall payload then mcpRequestCalls payload
    else mcpResponseCalls (fun s => .text (R.dumpsText s)) payload
  calls.mapM (analyzeArguments R a)

/-- The message or payload that is read, and its format. -/
inductive Source where
  | mcp (payload : Json)
  | openai (message : Json)
  | anthropic (content : List Json)

/-- The extractor for a format. -/
def Source.extract : Source → Except Raised ToolCallResult
  | .mcp payload =>
    (extractToolCallsMcp R a payload).map fun detections => ⟨"mcp".toList, detections⟩
  | .openai message =>
    (extractToolCallsOpenai R a message).map fun detections => ⟨"openai".toList, detections⟩
  | .anthropic content =>
    (extractToolCallsAnthropic R a content).map fun detections => ⟨"anthropic".toList, detections⟩

/-- `"jsonrpc" in message`, of a dictionary. -/
def isJsonRpc (message : Json) : Bool := (message.get "jsonrpc".toList).isSome

/-- The content of a message of an assistant, if it has a tool call. -/
def toolUseContent (message : Json) : Option (List Json) :=
  match message.get "role".toList, message.get "content".toList with
  | some (.text role), some (.list content) =>
    if role = "assistant".toList ∧ content.any isToolUse = true then some content else none
  | _, _ => none

/-- The source that `extract_request` reads. -/
def requestSource (messages : List Json) : Option Source :=
  match messages.head?.filter isJsonRpc with
  | some first => some (.mcp first)
  | none =>
    match messages.find? (truthyField · "tool_calls".toList) with
    | some message => some (.openai message)
    | none => (messages.findSome? toolUseContent).map Source.anthropic

/-- `extract_request`. -/
def extractRequest (messages : List Json) : Except Raised ToolCallResult :=
  match requestSource messages with
  | some source => source.extract R a
  | none => .ok { provider := "unknown".toList }

/-- `choices` as a loop goes over it: a dictionary and a text have no dictionary in them. -/
def choicesOf (response : Json) : Except Raised (List Json) :=
  match response.get "choices".toList with
  | none => .ok []
  | some (.list choices) => .ok choices
  | some (.object _) => .ok []
  | some (.text _) => .ok []
  | some _ => .error .type

/-- The message of a choice, if it has tool calls. -/
def choiceMessage (choice : Json) : Option Json :=
  (choice.get "message".toList).filter (truthyField · "tool_calls".toList)

/-- The source that `extract_response` reads. -/
def responseSource (response : Json) (provider : Text) : Except Raised (Option Source) :=
  match response with
  | .object _ =>
    if provider = "openai".toList then
      (choicesOf response).map fun choices => (choices.findSome? choiceMessage).map Source.openai
    else if provider = "anthropic".toList then
      match response.get "content".toList with
      | none => .ok (some (.anthropic []))
      | some (.list content) => .ok (some (.anthropic content))
      | some _ => .ok none
    else if provider = "mcp".toList then .ok (some (.mcp response))
    else .ok none
  | _ =>
    if provider ∈ ["openai".toList, "anthropic".toList, "mcp".toList] then .error .attribute
    else .ok none

/-- `extract_response`. -/
def extractResponse (response : Json) (provider : Text) : Except Raised ToolCallResult :=
  responseSource response provider >>= fun source =>
    match source with
    | some source => source.extract R a
    | none => .ok { provider := provider }

/-! ### The calls of a body -/

/-- The dictionary that a string of an MCP response stands in. -/
def textArguments (s : Text) : Json := .object [("text".toList, .text s)]

/-- The calls in the `tool_calls` of a message. -/
def openaiCalls (message : Json) : List Call :=
  match message.get "tool_calls".toList with
  | some (.list toolCalls) => toolCalls.zipIdx.filterMap fun tc => (openaiCall tc.2 tc.1).toOption
  | _ => []

/-- The calls in a list of content. -/
def anthropicCalls (content : List Json) : List Call :=
  content.zipIdx.filterMap fun block => anthropicCall block.2 block.1

/-- The calls of a message, in whichever format. -/
def messageCalls (message : Json) : List Call :=
  (if isJsonRpc message then
    mcpRequestCalls message ++ mcpResponseCalls textArguments message else []) ++
  openaiCalls message ++
  match message.get "content".toList with
  | some (.list content) => anthropicCalls content
  | _ => []

/-- The calls of all messages of a request. -/
def requestCalls (messages : List Json) : List Call := messages.flatMap messageCalls

/-- The calls of the message or payload that is read. -/
def Source.calls : Source → List Call
  | .mcp payload =>
    if isToolsCall payload then mcpRequestCalls payload else mcpResponseCalls textArguments payload
  | .openai message => openaiCalls message
  | .anthropic content => anthropicCalls content

/-! ### What is said of a call -/

/-- The detection is one of the call. -/
def Identifies (call : Call) (d : ToolCallDetection) : Prop :=
  d.index = call.index ∧ d.toolCallId = call.toolCallId ∧ d.functionName = call.functionName

/-- The string at some keys was given to the engine. -/
def Offers (d : ToolCallDetection) (keys : List Key) (s : Text) : Prop :=
  ∃ visit ∈ d.offered, visit.place = keys ∧ visit.value = s

/-- All of the arguments are inspected: they are given to the engine as raw text, or they can be
parsed and each string leaf of them is given to it. -/
def InspectsAll (call : Call) (d : ToolCallDetection) : Prop :=
  (∃ raw, call.arguments = some (.text raw) ∧ Offers d [] raw) ∨
    match parseArguments R call.arguments with
    | .ok .absent => True
    | .ok (.document value wrapped) =>
      ∀ keys s, Leaf value keys s → Offers d (root wrapped ++ keys) s
    | _ => False

/-- Every call has a detection of its own, if there is a result. -/
def Complete (calls : List Call) (outcome : Except Raised ToolCallResult) : Prop :=
  ∀ result, outcome = .ok result → ∃ matched, List.Subperm matched result.detections ∧
    List.Forall₂ (fun call d => Identifies call d ∧ InspectsAll R call d) calls matched

/-- What a detection says of its call. Of a document, the leaves down to the depth are given to the
engine, if there is one. Of arguments that are missing or cannot be parsed nothing is. What the
engine finds is among the entities. -/
structure Inspects (call : Call) (d : ToolCallDetection) : Prop where
  identifies : Identifies call d
  arguments :
    match parseArguments R call.arguments with
    | .ok (.document value wrapped) => d.arguments = value ∧ ∀ keys s,
      Offers d (root wrapped ++ keys) s ↔ a.detectionEngine.isSome = true ∧ Leaf value keys s ∧
        Reached R (a.maxDepth + 1) (root wrapped ++ keys)
    | .ok _ => d.arguments = .object [] ∧ d.offered = [] ∧ d.entities = []
    | .error _ => False
  found : ∀ analyzeText ∈ a.detectionEngine, ∀ visit ∈ d.offered,
    ∃ detections, analyzeText visit.value = .ok detections ∧
      ∀ det ∈ detections, entityOf R visit det ∈ d.entities

variable {R a}

theorem leaf_analyzed_iff {value : Json} {wrapped : Bool} {keys : List Key} {s : Text} :
    Leaf (analyzed value wrapped) (root wrapped ++ keys) s ↔ Leaf value keys s := by
  cases wrapped with
  | false => rfl
  | true =>
    refine ⟨fun h => ?_, fun h => Leaf.field (List.mem_singleton_self _) h⟩
    cases h with
    | field hfield hleaf =>
      obtain ⟨-, rfl⟩ := Prod.mk.inj (List.mem_singleton.mp hfield)
      exact hleaf

/-- The detection of a call whose arguments are analyzed. -/
theorem inspects_of_analyzeArguments {call : Call} {d : ToolCallDetection}
    (h : analyzeArguments R a call = .ok d) : Inspects R a call d := by
  obtain ⟨parsed, hparsed, h⟩ := Runs.bind_eq_ok_iff.mp h
  cases parsed with
  | absent =>
    obtain rfl := Except.ok.inj h
    exact ⟨⟨rfl, rfl, rfl⟩, by rw [hparsed]; exact ⟨rfl, rfl, rfl⟩,
      fun _ _ _ hvisit => absurd hvisit List.not_mem_nil⟩
  | malformed =>
    obtain rfl := Except.ok.inj h
    exact ⟨⟨rfl, rfl, rfl⟩, by rw [hparsed]; exact ⟨rfl, rfl, rfl⟩,
      fun _ _ _ hvisit => absurd hvisit List.not_mem_nil⟩
  | document value wrapped =>
    unfold analyzeParsed JsonAnalyzer.analyze at h
    dsimp only at h
    cases hstrings : a.analyzeStrings R (walkNode R (a.maxDepth + 1) (analyzed value wrapped) [])
      [] with
    | error e =>
      rw [hstrings] at h
      cases h
    | ok found =>
      rw [hstrings] at h
      obtain rfl := Except.ok.inj h
      refine ⟨⟨rfl, rfl, rfl⟩, ?_, fun analyzeText hengine visit hvisit => ?_⟩
      · rw [hparsed]
        refine ⟨rfl, fun keys s => ?_⟩
        rw [← leaf_analyzed_iff]
        exact JsonAnalyzer.exists_mem_offered_iff
      · have hvisit : visit ∈ a.offered R (analyzed value wrapped) := hvisit
        rw [JsonAnalyzer.offered, Option.isSome_of_eq_some hengine, if_pos rfl] at hvisit
        exact (JsonAnalyzer.mem_of_analyzeStrings hstrings).2 analyzeText hengine visit hvisit

/-- Detections of calls that an optional reading picks. -/
theorem forall₂_filterMap {α β γ : Type*} {f : α → Option β} {P : β → γ → Prop} {items : List α}
    {results : List γ}
    (h : List.Forall₂ (fun item result => ∃ b, f item = some b ∧ P b result) items results) :
    List.Forall₂ P (items.filterMap f) results := by
  induction h with
  | nil => exact List.Forall₂.nil
  | cons hitem _ ih =>
    obtain ⟨b, hb, hP⟩ := hitem
    rw [List.filterMap_cons_some hb]
    exact List.Forall₂.cons hP ih

theorem openai_inspects {message : Json} {detections : List ToolCallDetection}
    (h : extractToolCallsOpenai R a message = .ok detections) :
    List.Forall₂ (Inspects R a) (openaiCalls message) detections := by
  unfold extractToolCallsOpenai at h
  unfold openaiCalls
  split_ifs at h with htruthy
  · split at h
    · rename_i toolCalls hcalls
      rw [hcalls]
      refine forall₂_filterMap ((Runs.mapM_eq_ok_iff.mp h).imp fun tc d hd => ?_)
      obtain ⟨call, hcall, hd⟩ := Runs.bind_eq_ok_iff.mp hd
      exact ⟨call, by rw [hcall]; rfl, inspects_of_analyzeArguments hd⟩
    all_goals cases h
  · obtain rfl := Except.ok.inj h
    -- a list that is not true has no entries
    split
    · rename_i toolCalls hcalls
      have hempty : toolCalls = [] := by
        rw [truthyField, hcalls] at htruthy
        simpa [Json.truthy] using htruthy
      subst hempty
      exact List.Forall₂.nil
    · exact List.Forall₂.nil

theorem anthropic_inspects {content : List Json} {detections : List ToolCallDetection}
    (h : extractToolCallsAnthropic R a content = .ok detections) :
    List.Forall₂ (Inspects R a) (anthropicCalls content) detections :=
  (Runs.mapM_eq_ok_iff.mp h).imp fun _ _ => inspects_of_analyzeArguments

/-- A string of a response is analyzed as the dictionary that it is written into. -/
theorem analyzeArguments_dumpsText (call : Call) (s : Text) :
    analyzeArguments R a { call with arguments := some (.text (R.dumpsText s)) } =
      analyzeArguments R a { call with arguments := some (textArguments s) } := by
  unfold analyzeArguments
  have hwritten : parseArguments R (some (.text (R.dumpsText s))) =
      parseArguments R (some (textArguments s)) := by
    rw [parseArguments, R.loads_dumpsText]
    rfl
  dsimp only
  rw [hwritten]
  rfl

theorem mcp_inspects {payload : Json} {detections : List ToolCallDetection}
    (h : extractToolCallsMcp R a payload = .ok detections) :
    List.Forall₂ (Inspects R a) (Source.mcp payload).calls detections := by
  unfold extractToolCallsMcp at h
  unfold Source.calls
  dsimp only at h ⊢
  split_ifs at h ⊢
  · exact (Runs.mapM_eq_ok_iff.mp h).imp fun _ _ => inspects_of_analyzeArguments
  · refine List.forall₂_map_left_iff.mpr ?_
    refine (List.forall₂_map_left_iff.mp (Runs.mapM_eq_ok_iff.mp h)).imp fun item d hd => ?_
    obtain ⟨index, value⟩ := item
    cases value with
    | text s =>
      exact inspects_of_analyzeArguments
        ((analyzeArguments_dumpsText { index := index, arguments := none } s).symm.trans hd)
    | _ => exact inspects_of_analyzeArguments hd

/-- **What is said of a source.** Each call of the source that is read has its detection. -/
theorem source_inspects {source : Source} {result : ToolCallResult}
    (h : source.extract R a = .ok result) :
    List.Forall₂ (Inspects R a) source.calls result.detections := by
  cases source with
  | mcp payload =>
    obtain ⟨detections, hdetections, rfl⟩ := Runs.map_eq_ok_iff.mp h
    exact mcp_inspects hdetections
  | openai message =>
    obtain ⟨detections, hdetections, rfl⟩ := Runs.map_eq_ok_iff.mp h
    exact openai_inspects hdetections
  | anthropic content =>
    obtain ⟨detections, hdetections, rfl⟩ := Runs.map_eq_ok_iff.mp h
    exact anthropic_inspects hdetections

/-- **What a result says.** In a request and in a response, each call of the message or payload
that is read has its own detection, in their order. -/
theorem inspects (R : Library) (a : JsonAnalyzer) :
    (∀ messages source result, requestSource messages = some source →
      extractRequest R a messages = .ok result →
        List.Forall₂ (Inspects R a) source.calls result.detections) ∧
    ∀ response provider source result, responseSource response provider = .ok (some source) →
      extractResponse R a response provider = .ok result →
        List.Forall₂ (Inspects R a) source.calls result.detections := by
  refine ⟨fun messages source result hsource h => ?_,
    fun response provider source result hsource h => ?_⟩
  · rw [extractRequest, hsource] at h
    exact source_inspects h
  · rw [extractResponse, hsource] at h
    exact source_inspects h

/-! ### A message with a tool call -/

/-- What `json.dumps` writes around a text. -/
def textPrefix : Text := "\x7b\"text\": \"".toList

/-- A library that reads only what it wrote, of a text without quotes and escapes, for keys in lower
case. -/
def plainLibrary : Library where
  lowerCase := { lower := id, lower_idem := fun _ => rfl }
  loads text :=
    if textPrefix <+: text then
      .ok (.object [("text".toList, .text ((text.drop textPrefix.length).dropLast.dropLast))])
    else .error (.invalid "Expecting value: line 1 column 1 (char 0)".toList)
  dumpsText s := textPrefix ++ s ++ ['"', '\x7d']
  boost score := score
  loads_dumpsText s := by
    rw [List.append_assoc, if_pos (List.prefix_append _ _), List.drop_left]
    simp

/-- A message of an assistant with one call. -/
def callMessage (id function : Text) (arguments : Json) : Json :=
  .object
    [("role".toList, .text "assistant".toList),
      ("tool_calls".toList, .list [.object
        [("id".toList, .text id), ("type".toList, .text "function".toList),
          ("function".toList, .object
            [("name".toList, .text function), ("arguments".toList, arguments)])]])]

/-- An engine that finds one address. -/
def addressEngine (text : Text) : Except Text (List Entity) :=
  if text = "alice@example.com".toList then
    .ok [[("entity_type".toList, .text "EMAIL_ADDRESS".toList)]]
  else .ok []

/-- A message that sends a mail. -/
def sendMessage : Json :=
  callMessage "call_2".toList "send_email".toList
    (.object [("to".toList, .text "alice@example.com".toList)])

theorem sendMessage_isOk :
    (extractRequest plainLibrary { detectionEngine := some addressEngine } [sendMessage]).isOk =
      true := by
  decide +kernel

theorem inspects_sendMessage :
    ∃ result,
      extractRequest plainLibrary { detectionEngine := some addressEngine } [sendMessage] =
        .ok result ∧
      List.Forall₂ (Inspects plainLibrary { detectionEngine := some addressEngine })
        (openaiCalls sendMessage) result.detections := by
  have hok := sendMessage_isOk
  cases h : extractRequest plainLibrary { detectionEngine := some addressEngine } [sendMessage] with
  | error e =>
    rw [h] at hok
    cases hok
  | ok result =>
    exact ⟨result, rfl, (inspects plainLibrary { detectionEngine := some addressEngine }).1
      [sendMessage] (.openai sendMessage) result rfl h⟩

/-- A message whose arguments are a text, and no JSON. -/
def plainMessage : Json :=
  callMessage "call_1".toList "send_email".toList (.text "to alice@example.com".toList)

/-- Arguments that cannot be parsed are given to the engine neither as raw text nor by their leaves,
and no error is reported. -/
theorem not_complete :
    ¬ ∀ (R : Library) (a : JsonAnalyzer) (messages : List Json),
      Complete R (requestCalls messages) (extractRequest R a messages) := by
  intro h
  obtain ⟨d, hresult, hoffered⟩ : ∃ d : ToolCallDetection,
      extractRequest plainLibrary { detectionEngine := some addressEngine } [plainMessage] =
        .ok { provider := "openai".toList, detections := [d] } ∧ d.offered = [] := ⟨_, rfl, rfl⟩
  obtain ⟨call, hcalls, harguments⟩ : ∃ call, requestCalls [plainMessage] = [call] ∧
      call.arguments = some (.text "to alice@example.com".toList) := ⟨_, rfl, rfl⟩
  have hmalformed : parseArguments plainLibrary call.arguments = .ok .malformed := by
    rw [harguments]
    rfl
  obtain ⟨matched, hmatched, hall⟩ := h _ _ _ _ hresult
  rw [hcalls, List.forall₂_cons_left_iff] at hall
  obtain ⟨found, _, ⟨-, hinspects⟩, -, rfl⟩ := hall
  obtain rfl : found = d := List.mem_singleton.mp (hmatched.subset List.mem_cons_self)
  rcases hinspects with ⟨raw, -, visit, hvisit, -⟩ | hparsed
  · rw [hoffered] at hvisit
    exact List.not_mem_nil hvisit
  · rw [hmalformed] at hparsed
    exact hparsed

end AnonReq.Multimodal
