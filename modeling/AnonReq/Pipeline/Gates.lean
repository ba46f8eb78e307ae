import AnonReq.Governance.ToolEvaluator

/-!
# The gates of the pipeline

The stages in front of the provider that may stop a request for reasons of policy:
`PolicyEnforcementStage` of `pipeline/stages.py`, `InboundDLPStage` of `pipeline/dlp.py`,
`ToolGovernanceStage` of `pipeline/tool_governance.py` and `ForwardingGuard` of
`pipeline/forwarding_guard.py`. The first three ask a collaborator that the application state may
have or not.

* `fails_toolGovernanceStage_iff`: on a chat request the tool stage fails if and only if the
  evaluator `Refuses` the request: one of its OpenAI calls is malformed, or blocked for the
  provider that the context names at that time.
-/

namespace AnonReq.Pipeline

open Governance (PdpToolEvaluator Loads ToolCall ExtractionError)

universe u v

variable {Λ : Type u} {β : Type v}

/-! ### The application state -/

/-- The collaborators of the gates, each of which may be missing. A policy decision point, an
enforcement point and a DLP engine are any functions of the context; they may raise. -/
structure AppState (Λ : Type u) where
  pdp : Option (RequestData Λ → Except StageError Policy.PolicyDecision) := none
  pep : Option (Policy.PolicyDecision → RequestData Λ →
    Except StageError Policy.PolicyEnforcementResult) := none
  dlpEngine : Option (RequestData Λ → Except StageError DlpResult) := none
  toolEvaluator : Option PdpToolEvaluator := none

/-- The stages of the chat pipeline. -/
abbrev ChatStage (Λ : Type u) (β : Type v) := PipelineStage (RequestData Λ) StageError β

/-- What `execute` did, seen from the context before and after it. -/
def Outcome.between {σ ε : Type*} (before after : ProcessingContext σ ε) : Outcome σ ε β :=
  ⟨after.data, after.errors.drop before.errors.length, .returned⟩

/-! ### Policy enforcement -/

/-- The classification result with the sensitivity of the request. -/
def withSensitivity (data : RequestData Λ) : RequestData Λ :=
  match data.classificationResultV2 with
  | none => data
  | some result =>
    let base := Dict.set (data.classificationResult.getD []) (name "classification_level")
      (.text result.highest)
    { data with
      classificationResult :=
        some (Dict.set base (name "highest_entity") (.text result.highestEntity)) }

/-- The error of a decision that is not forwarded. -/
def enforcementError (result : Policy.PolicyEnforcementResult) : StageError :=
  .abort ((result.statusCode.filter fun code => decide (code ≠ 0)).getD 403)
    ((((result.body.getD []).lookup "reason").map String.toList).getD
      (name "Request blocked by policy"))

/-- `PolicyEnforcementStage`. -/
def policyEnforcementStage (appState : Option (AppState Λ)) : ChatStage Λ β :=
  stage fun ctx =>
    match appState.bind AppState.pdp, appState.bind AppState.pep with
    | some pdp, some pep =>
      let data := withSensitivity ctx.data
      match pdp data with
      | .error error => .raised data error
      | .ok decision =>
        let decided := { data with policyDecision := some decision }
        match pep decision decided with
        | .error error => .raised decided error
        | .ok result =>
          let enforced := { decided with policyEnforcement := some result }
          if result.shouldForward then .done enforced
          else .failed enforced (enforcementError result)
    | _, _ => .done ctx.data

/-! ### Data loss prevention -/

/-- `InboundDLPStage`. -/
def inboundDlpStage (appState : Option (AppState Λ)) : ChatStage Λ β :=
  stage fun ctx =>
    match appState.bind AppState.dlpEngine with
    | none => .done ctx.data
    | some inspectRequest =>
      match inspectRequest ctx.data with
      | .error error => .raised ctx.data error
      | .ok result =>
        let inspected := { ctx.data with dlpResult := some result }
        if result.isBlocked then
          .failed inspected (.abort 451 (name "Request blocked by DLP policy"))
        else .done inspected

/-! ### Tool governance -/

/-- The error of a failed extraction. -/
def extractionError : ExtractionError → StageError
  | .value => .toolBlocked (name "Failed to extract tool calls")
  | .toolExtraction => .toolBlocked (name "Failed to extract tool calls: ToolExtractionError")
  | .other typeName => .toolBlocked (name "Failed to extract tool calls: " ++ typeName)

/-- Evaluate one call; a context with errors ends the stage. -/
def governCall (E : PdpToolEvaluator) (ctx : ChatContext Λ) (call : ToolCall) :
    Except (ChatContext Λ) (ChatContext Λ) :=
  let evaluated := (E.evaluate call ctx).2
  if evaluated.hasErrors then .error evaluated else .ok evaluated

/-- Extract the calls of one message, and evaluate them in order. -/
def governMessage (loads : Loads) (E : PdpToolEvaluator) (format : Governance.ToolFormat)
    (ctx : ChatContext Λ) (message : Json) : Except (ChatContext Λ) (ChatContext Λ) :=
  match message with
  | .object _ =>
    match Governance.extractCalls loads message format with
    | .error error => .error (ctx.failSecure (extractionError error))
    | .ok calls => calls.foldlM (governCall E) ctx
  | _ => .ok ctx

/-- The context after the loops of `ToolGovernanceStage`, whether they were left early or not. -/
def leaveLoops {σ : Type*} : Except σ σ → σ
  | .error ctx => ctx
  | .ok ctx => ctx

/-- `ToolGovernanceStage`. -/
def toolGovernanceStage (loads : Loads) (appState : Option (AppState Λ)) : ChatStage Λ β :=
  stage fun ctx =>
    match appState.bind AppState.toolEvaluator with
    | none => .done ctx.data
    | some toolEvaluator =>
      match Governance.detectFormat ctx.data.originalRequest,
        ctx.data.originalRequest.get (name "messages") with
      | some format, some (.list messages) =>
        .between ctx (leaveLoops (messages.foldlM (governMessage loads toolEvaluator format) ctx))
      | _, _ => .done ctx.data

/-! ### The forwarding guard -/

/-- `ForwardingGuard`. -/
def forwardingGuard : ChatStage Λ β :=
  stage fun ctx =>
    if ctx.data.classificationResult.isNone then
      .failed ctx.data (.abort 503 (name "ForwardingGuard: classification did not complete"))
    else if ctx.data.detections.isNone then
      .failed ctx.data (.abort 503 (name "ForwardingGuard: detection did not complete"))
    else if ctx.data.tokenMappings.isNone then
      .failed ctx.data (.abort 503 (name "ForwardingGuard: tokenisation did not complete"))
    else if ctx.data.transformedRequest.isNone then
      .failed ctx.data (.abort 503 (name "ForwardingGuard: request was not tokenized"))
    else .done ctx.data

/-! ### What the tool stage leaves alone -/

/-- What every step of a loop keeps holds of the context in which the loops are left. -/
theorem leaveLoops_foldlM {σ α : Type*} {I : σ → Prop} {f : σ → α → Except σ σ}
    (hstep : ∀ s a, I s → I (leaveLoops (f s a))) (actions : List α) {s : σ} (hs : I s) :
    I (leaveLoops (actions.foldlM f s)) := by
  induction actions generalizing s with
  | nil => exact hs
  | cons a actions ih =>
    have hfirst := hstep s a hs
    rw [List.foldlM_cons]
    rcases hrun : f s a with stopped | next
    · rw [hrun] at hfirst
      exact hfirst
    · rw [hrun] at hfirst
      exact ih hfirst

/-- The data is that of the beginning, but for the mark that an approval is required. -/
def OnlyMarked (data : RequestData Λ) (ctx : ChatContext Λ) : Prop :=
  ∃ approval, ctx.data = { data with requiresApproval := approval }

theorem onlyMarked_governMessage (loads : Loads) (E : PdpToolEvaluator)
    (format : Governance.ToolFormat) {data : RequestData Λ} (ctx : ChatContext Λ) (message : Json)
    (h : OnlyMarked data ctx) :
    OnlyMarked data (leaveLoops (governMessage loads E format ctx message)) := by
  cases message with
  | object fields =>
    simp only [governMessage]
    rcases Governance.extractCalls loads (.object fields) format with error | calls
    · exact h
    · refine leaveLoops_foldlM (fun ctx call h => ?_) calls h
      obtain ⟨approval, hdata⟩ := h
      obtain ⟨approval', hevaluated⟩ := E.data_evaluate call ctx
      rw [hdata] at hevaluated
      rw [governCall]
      split_ifs <;> exact ⟨approval', hevaluated⟩
  | _ => exact h

/-- The tool stage changes nothing but the mark that an approval is required. -/
theorem data_toolGovernanceStage (loads : Loads) (appState : Option (AppState Λ))
    (ctx : ChatContext Λ) : ∃ approval,
      ((toolGovernanceStage loads appState : ChatStage Λ β).execute ctx).data =
        { ctx.data with requiresApproval := approval } := by
  simp only [toolGovernanceStage, stage]
  split
  · exact ⟨ctx.data.requiresApproval, rfl⟩
  · split
    · exact leaveLoops_foldlM (I := OnlyMarked ctx.data)
        (onlyMarked_governMessage loads _ _) _ ⟨ctx.data.requiresApproval, rfl⟩
    · exact ⟨ctx.data.requiresApproval, rfl⟩

/-! ### What the tool stage refuses -/

/-- A context without errors that names the provider. -/
def Clean (provider : Option Text) (ctx : ChatContext Λ) : Prop :=
  ctx.errors = [] ∧ ctx.data.provider = provider

/-- The provider that calls are looked up for, where the context names this one. -/
def lookedUp (provider : Option Text) : Text :=
  (Governance.nonEmpty provider).getD (name "unknown")

/-- One call: it ends the stage if its tool is blocked, and is passed over otherwise. -/
theorem governCall_cases (E : PdpToolEvaluator) {provider : Option Text} {ctx : ChatContext Λ}
    (hclean : Clean provider ctx) {call : ToolCall} (hprovider : call.provider = none)
    (hcredential : call.credentialContext = none) :
    (E.Blocks (lookedUp provider) call.domain call.name ∧
        ∃ blocked, governCall E ctx call = .error blocked ∧ blocked.errors ≠ []) ∨
      ¬ E.Blocks (lookedUp provider) call.domain call.name ∧
        ∃ passed, governCall E ctx call = .ok passed ∧ Clean provider passed := by
  have hlooked : Governance.providerOf call ctx = lookedUp provider := by
    rw [Governance.providerOf, hprovider, hclean.2]
    rfl
  have hcases := E.evaluate_cases ctx hcredential
  rw [hlooked] at hcases
  obtain ⟨hblocks, reason, hevaluated⟩ | ⟨hpasses, approval, hevaluated⟩ := hcases
  · refine Or.inl ⟨hblocks, _, if_pos ?_, ?_⟩ <;>
      simp [hevaluated, ProcessingContext.hasErrors, ProcessingContext.failSecure]
  · refine Or.inr ⟨hpasses, _, if_neg ?_, ?_⟩
    · simp [hevaluated, ProcessingContext.hasErrors, hclean.1]
    · rw [hevaluated]
      exact hclean

/-- An OpenAI entry the tool stage refuses: it is malformed, or its tool is blocked in the model
domain. -/
def RefusesEntry (loads : Loads) (E : PdpToolEvaluator) (provider : Text) (entry : Fields) :
    Prop :=
  Governance.Malformed loads entry ∨
    ∃ toolName, Governance.Calls entry toolName ∧ E.Blocks provider (name "model") toolName

/-- One of the OpenAI entries of a message is refused. -/
def RefusesMessage (loads : Loads) (E : PdpToolEvaluator) (provider : Text)
    (message : ChatMessage) : Prop :=
  ∃ entry ∈ message.toolCalls.getD [], RefusesEntry loads E provider entry

/-- One of the messages of a request is refused. -/
def Refuses (loads : Loads) (E : PdpToolEvaluator) (provider : Text) (request : ChatRequest) :
    Prop :=
  ∃ message ∈ request.messages, RefusesMessage loads E provider message

/-- The calls extracted from entries that are not malformed are those the entries make. -/
theorem mem_extractEach_openaiCall {loads : Loads} {entries : List Fields}
    {calls : List ToolCall}
    (h : Governance.extractEach (Governance.openaiCall loads) (entries.map Json.object) =
      .ok calls) {call : ToolCall} :
    call ∈ calls ↔ ∃ entry ∈ entries, ¬ Governance.Malformed loads entry ∧
      ∃ toolName arguments, Governance.Calls entry toolName ∧
        Governance.openaiCall loads (.object entry) = .ok (some call) ∧
        call = { name := toolName, arguments := arguments, format := .openai } := by
  simp only [Governance.mem_extractEach h, List.mem_map, exists_exists_and_eq_and]
  refine exists_congr fun entry => and_congr_right fun _ => ⟨fun hcall => ?_, ?_⟩
  · obtain ⟨-, error, herror⟩ | ⟨hformed, ⟨toolName, arguments, hcalls, hok⟩ | ⟨-, hnone⟩⟩ :=
      Governance.openaiCall_cases loads entry
    · simp [hcall] at herror
    · refine ⟨hformed, toolName, arguments, hcalls, hcall, ?_⟩
      exact Option.some.inj (Except.ok.inj (hcall.symm.trans hok))
    · simp [hcall] at hnone
  · rintro ⟨-, toolName, arguments, -, hcall, -⟩
    exact hcall

/-- **One message.** It ends the stage if one of its OpenAI entries is refused, and is passed over
otherwise. -/
theorem governMessage_cases (loads : Loads) (E : PdpToolEvaluator) {provider : Option Text}
    {ctx : ChatContext Λ} (hclean : Clean provider ctx) (message : ChatMessage) :
    (RefusesMessage loads E (lookedUp provider) message ∧
        ∃ stopped, governMessage loads E .openai ctx message.modelDump = .error stopped ∧
          stopped.errors ≠ []) ∨
      ¬ RefusesMessage loads E (lookedUp provider) message ∧
        ∃ passed, governMessage loads E .openai ctx message.modelDump = .ok passed ∧
          Clean provider passed := by
  have hgovern : governMessage loads E .openai ctx message.modelDump =
      match Governance.extractCalls loads message.modelDump .openai with
      | .error error => .error (ctx.failSecure (extractionError error))
      | .ok calls => calls.foldlM (governCall E) ctx := rfl
  rw [hgovern, Governance.extractCalls_openai_modelDump]
  rcases hcalls : Governance.extractEach (Governance.openaiCall loads)
    ((message.toolCalls.getD []).map Json.object) with error | calls
  · -- an entry is malformed
    obtain ⟨item, hitem, herror⟩ := Governance.extractEach_eq_error_iff.mp ⟨error, hcalls⟩
    obtain ⟨entry, hentry, rfl⟩ := List.mem_map.mp hitem
    refine Or.inl ⟨⟨entry, hentry, Or.inl ?_⟩, _, rfl,
      by simp [ProcessingContext.failSecure]⟩
    obtain ⟨hmalformed, -⟩ | ⟨-, ⟨toolName, arguments, -, hok⟩ | ⟨-, hok⟩⟩ :=
      Governance.openaiCall_cases loads entry
    · exact hmalformed
    all_goals
      obtain ⟨error, herror⟩ := herror
      simp [hok] at herror
  · have hformed : ∀ entry ∈ message.toolCalls.getD [], ¬ Governance.Malformed loads entry := by
      intro entry hentry hmalformed
      obtain ⟨-, herror⟩ | ⟨hformed, -⟩ := Governance.openaiCall_cases loads entry
      · obtain ⟨error, herror⟩ := Governance.extractEach_eq_error_iff.mpr
          ⟨.object entry, List.mem_map_of_mem hentry, herror⟩
        simp [hcalls] at herror
      · exact hformed hmalformed
    have hrefuses : RefusesMessage loads E (lookedUp provider) message ↔
        ∃ call ∈ calls, E.Blocks (lookedUp provider) call.domain call.name := by
      simp only [mem_extractEach_openaiCall hcalls]
      constructor
      · rintro ⟨entry, hentry, hmalformed | ⟨toolName, htool, hblocks⟩⟩
        · exact absurd hmalformed (hformed entry hentry)
        · obtain ⟨hmalformed, -⟩ | ⟨hf, ⟨toolName', arguments, htool', hok⟩ | ⟨hnone, -⟩⟩ :=
            Governance.openaiCall_cases loads entry
          · exact absurd hmalformed (hformed entry hentry)
          · obtain rfl := htool.unique htool'
            exact ⟨_, ⟨entry, hentry, hf, toolName, arguments, htool, hok, rfl⟩, hblocks⟩
          · exact absurd htool (hnone toolName)
      · rintro ⟨call, ⟨entry, hentry, -, toolName, arguments, htool, -, rfl⟩, hblocks⟩
        exact ⟨entry, hentry, Or.inr ⟨toolName, htool, hblocks⟩⟩
    rw [hrefuses]
    refine Runs.foldlM_cases (I := Clean provider) (fun ctx hclean call hcall => ?_) hclean
    obtain ⟨entry, -, -, toolName, arguments, -, -, rfl⟩ :=
      (mem_extractEach_openaiCall hcalls).mp hcall
    exact governCall_cases E hclean rfl rfl

/-- **The tool stage.** On the context of a chat request, without errors so far, it fails if and
only if the evaluator refuses the request, for the provider that the context names. -/
theorem fails_toolGovernanceStage_iff {loads : Loads} {E : PdpToolEvaluator}
    {appState : AppState Λ} (hevaluator : appState.toolEvaluator = some E) {request : ChatRequest}
    {ctx : ChatContext Λ} (herrors : ctx.errors = [])
    (hrequest : ctx.data.originalRequest = request.modelDump) :
    fails (toolGovernanceStage loads (some appState) : ChatStage Λ β) ctx = true ↔
      Refuses loads E (lookedUp ctx.data.provider) request := by
  have hexecute : (toolGovernanceStage loads (some appState) : ChatStage Λ β).execute ctx =
      match Governance.detectFormat request.modelDump,
        request.modelDump.get (name "messages") with
      | some format, some (.list messages) =>
        .between ctx (leaveLoops (messages.foldlM (governMessage loads E format) ctx))
      | _, _ => .done ctx.data := by
    simp only [toolGovernanceStage, stage, Option.bind_some, hevaluator, hrequest]
  rw [Governance.detectFormat_modelDump, ChatRequest.get_messages_modelDump] at hexecute
  by_cases hmessages : request.messages = []
  · -- no message: no format either
    rw [if_pos hmessages] at hexecute
    rw [fails_done hexecute, Refuses, hmessages]
    simp
  · rw [if_neg hmessages] at hexecute
    have hmessage : ∀ ctx', Clean (Λ := Λ) ctx.data.provider ctx' →
        ∀ message ∈ request.messages, _ ∨ _ :=
      fun ctx' hclean message _ => governMessage_cases loads E hclean message
    have hrun := Runs.foldlM_cases hmessage ⟨herrors, rfl⟩
    rw [← List.foldlM_map] at hrun
    rw [Refuses, fails, hexecute]
    obtain ⟨hrefuses, stopped, hstopped, hne⟩ | ⟨hpasses, passed, hpassed, hclean⟩ := hrun
    · simp [Outcome.between, hstopped, leaveLoops, herrors, hne, hrefuses]
    · simp [Outcome.between, hpassed, leaveLoops, herrors, hclean.1, hpasses]

end AnonReq.Pipeline
