import AnonReq.Pipeline.Gates

/-!
# The stages of the chat pipeline

`ClassificationStage`, `LocaleNegotiationStage`, `DetectionStage`,
`SensitivityClassificationStage`, `TokenizationStage` and `ProviderStage`, and the pipelines that
`routing/chat.py` builds of them and of the gates. The engines the stages call are parameters:
each is a function of what its stage hands to it.

* `framed_appliedAll`: the stages up to the tool stage leave alone the request, its nodes, who sent
  it, the provider, and the body to be sent.
* `noBaseException_buildPreProviderPipeline`: no cancellation leaves the stages.
-/

namespace AnonReq.Pipeline

open Governance (Loads)

universe u v

variable {Λ : Type u} {β : Type v}

/-! ### Classification -/

/-- `result.get("action", "ANONYMIZE")`. -/
def actionOf (result : Fields) : Json :=
  (Dict.get result (name "action")).getD (.text (name "ANONYMIZE"))

/-- The action is this one. -/
def isAction (action : Json) (s : Text) : Bool :=
  match action with
  | .text t => decide (t = s)
  | _ => false

/-- A `PASS` is recorded as `ANONYMIZE`. -/
def recordedResult (result : Fields) : Fields :=
  if isAction (actionOf result) (name "PASS") then
    Dict.set (Dict.set result (name "action") (.text (name "ANONYMIZE")))
      (name "configured_action") (.text (name "PASS"))
  else result

/-- `ClassificationStage`. -/
def classificationStage (classify : List TextNode → Fields) : ChatStage Λ β :=
  stage fun ctx =>
    let result := recordedResult (classify ctx.data.textNodes)
    let data := { ctx.data with classificationResult := some result }
    if isAction (actionOf result) (name "BLOCK") then
      .failed data (.abort 403 (name "Request blocked by policy"))
    else if isAction (actionOf result) (name "ROUTE_LOCAL") then
      .failed data (.abort 501 (name "ROUTE_LOCAL not yet implemented"))
    else .done data

/-! ### Locale negotiation -/

/-- What the negotiation of a locale header brings: the bundles with their merged recognizers,
the codes of the bundles, and whether codes were dropped or replaced. -/
structure Negotiated (Λ : Type u) where
  bundles : Λ
  codes : List Text
  fallback : Bool

/-- How a stage's engine fails: with an error that the stage records, or with one it raises. -/
inductive EngineFailure where
  | recorded (error : StageError)
  | raised (error : StageError)

/-- The outcome of a failure of the engine. -/
def EngineFailure.outcome (data : RequestData Λ) :
    EngineFailure → Outcome (RequestData Λ) StageError β
  | .recorded error => .failed data error
  | .raised error => .raised data error

/-- `LocaleNegotiationStage`. -/
def localeNegotiationStage (negotiate : Option Text → Except EngineFailure (Negotiated Λ)) :
    ChatStage Λ β :=
  stage fun ctx =>
    match negotiate ctx.data.localeHeader with
    | .error failure => failure.outcome ctx.data
    | .ok negotiated =>
      let locale :=
        if (Governance.nonEmpty ctx.data.localeHeader).isNone then name "universal"
        else [','].intercalate negotiated.codes
      let auditMetadata := Dict.set ctx.data.auditMetadata (name "locale") (.text locale)
      .done
        { ctx.data with
          localeBundles := some negotiated.bundles
          auditMetadata :=
            if negotiated.fallback then
              Dict.set auditMetadata (name "negotiation_fallback") (.bool true)
            else auditMetadata }

/-! ### Detection -/

/-- The classification result says `BLOCK`. -/
def blockedByClassification (data : RequestData Λ) : Bool :=
  match data.classificationResult with
  | some result =>
    match Dict.get result (name "action") with
    | some action => isAction action (name "BLOCK")
    | none => false
  | none => false

/-- `DetectionStage`. -/
def detectionStage
    (detect : List TextNode → Option Λ → Except EngineFailure (List NodeDetection)) :
    ChatStage Λ β :=
  stage fun ctx =>
    if blockedByClassification ctx.data then .done ctx.data
    else if ctx.data.textNodes.isEmpty then .done { ctx.data with detections := some [] }
    else
      match detect ctx.data.textNodes ctx.data.localeBundles with
      | .error failure => failure.outcome ctx.data
      | .ok detections => .done { ctx.data with detections := some detections }

/-! ### Sensitivity -/

/-- The entity types of the detections, each once. -/
def entityTypes (data : RequestData Λ) : List Text :=
  ((data.detections.getD []).map fun d => d.detection.entityType).dedup

/-- `SensitivityClassificationStage`. `defaultAction` is the configured default action, in upper
case. -/
def sensitivityClassificationStage
    (classify : List Text → Option Text → Except StageError ClassificationResult)
    (defaultAction : Text) : ChatStage Λ β :=
  stage fun ctx =>
    match classify (entityTypes ctx.data) ctx.data.clientClassification with
    | .error error => .raised ctx.data error
    | .ok result =>
      let auditMetadata := Dict.set ctx.data.auditMetadata (name "classification_level")
        (.text result.highest)
      let data :=
        { ctx.data with
          classificationResultV2 := some result
          auditMetadata :=
            if result.highestEntity = [] then auditMetadata
            else Dict.set auditMetadata (name "highest_entity") (.text result.highestEntity) }
      if result.handlingAction = name "block" ∧
          (ctx.data.clientClassification.isSome = true ∨ defaultAction ≠ name "ANONYMIZE") then
        .failed data (.abort 451 (name "Request blocked due to data classification policy"))
      else .done data

/-! ### Tokenization -/

/-- The nodes of a request, each with the detections made in it. -/
def detectedNodes (data : RequestData Λ) : List Tokenization.Node :=
  data.textNodes.zipIdx.map fun node =>
    ⟨node.1.value, ((data.detections.getD []).filter fun d =>
      decide (d.nodeIndex = node.2)).map NodeDetection.detection⟩

/-- How the failure to store a mapping surfaces: an abort or a missing dependency is raised,
anything else recorded. -/
def storeFailure (data : RequestData Λ) : StageError → Outcome (RequestData Λ) StageError β
  | .abort statusCode message => .raised data (.abort statusCode message)
  | .languageUnsupported language => .raised data (.languageUnsupported language)
  | .dependencyUnavailable dependency => .raised data (.dependencyUnavailable dependency)
  | .toolBlocked _ | .other _ =>
    .failed data (.abort 500 (name "Tokenization stage failed"))

/-- `TokenizationStage`, with the random bits of its session. -/
def tokenizationStage (randomBits : Fin (2 ^ 64))
    (storeMapping : Text → Text → List (Text × Text) → Option StageError) : ChatStage Λ β :=
  stage fun ctx =>
    if blockedByClassification ctx.data then .done ctx.data
    else if (ctx.data.detections.getD []).isEmpty then
      .done
        { ctx.data with
          transformedRequest := some ctx.data.originalRequest
          tokenMappings := some [] }
    else
      let nodes := detectedNodes ctx.data
      let session := Tokenization.tokenizeSession randomBits nodes
      let written := ctx.data.textNodes.zip
        (session.1.zip (nodes.map fun node => !node.detections.isEmpty))
      match writeBack ctx.data.originalRequest written with
      | none => .failed ctx.data (.abort 500 (name "Tokenization stage failed"))
      | some transformed =>
        let data := { ctx.data with transformedRequest := some transformed }
        let stored :=
          if session.2.isEmpty then none
          else storeMapping ctx.data.tenantId ctx.data.contextId session.2
        match stored with
        | some error => storeFailure data error
        | none => .done { data with tokenMappings := some session.2 }

/-! ### The provider -/

/-- `ModelAlias`, with the fields that route a request. -/
structure ModelAlias where
  provider : Text
  model : Text
deriving DecidableEq

/-- `AliasRegistry`: the aliases by their case-folded names. -/
structure AliasRegistry where
  aliases : List (Text × ModelAlias)

/-- `resolve`, `none` for the `AliasNotFoundError`. -/
def AliasRegistry.resolve (u : Unicode) (registry : AliasRegistry) (aliasName : Text) :
    Option ModelAlias :=
  Dict.get registry.aliases (u.foldText aliasName)

/-- `body.get("model", "")`, which is a text. -/
def modelOf (body : Json) : Text :=
  match body.get (name "model") with
  | some (.text s) => s
  | _ => []

/-- `body.get("stream") is True`. -/
def isStream (body : Json) : Bool :=
  match body.get (name "stream") with
  | some (.bool b) => b
  | _ => false

/-- `ProviderStage`. `post` sends a body upstream: the response, or the error that is recorded. -/
def providerStage (u : Unicode) (aliasRegistry : Option AliasRegistry)
    (post : Json → Except StageError Json) : ChatStage Λ β :=
  stage fun ctx =>
    let send (data : RequestData Λ) (body : Json) :=
      match post body with
      | .error error => .failed data error
      | .ok response => .done { data with providerResponse := some response }
    match ctx.data.transformedRequest with
    | none => .failed ctx.data (.abort 500 (name "No request body available for provider"))
    | some body =>
      if isStream body then
        .failed ctx.data
          (.abort 500 (name "Streaming requests must use provider adapter streaming"))
      else
        match aliasRegistry with
        | none => send ctx.data body
        | some registry =>
          match registry.resolve u (modelOf body) with
          | none => .failed ctx.data (.abort 400 (name "Unknown model alias"))
          | some resolved => send
              { ctx.data with provider := some resolved.provider, model := some resolved.model }
              (body.setField (name "model") (.text resolved.model))

/-! ### The pipelines -/

/-- What the stages in front of the provider call. -/
structure Engines (Λ : Type u) where
  classify : List TextNode → Fields
  negotiate : Option Text → Except EngineFailure (Negotiated Λ)
  detect : List TextNode → Option Λ → Except EngineFailure (List NodeDetection)
  classifySensitivity : List Text → Option Text → Except StageError ClassificationResult
  defaultAction : Text
  loads : Loads
  storeMapping : Text → Text → List (Text × Text) → Option StageError

/-- The stages that read the request. -/
def prepareStages (engines : Engines Λ) : List (ChatStage Λ β) :=
  [classificationStage engines.classify,
   localeNegotiationStage engines.negotiate,
   detectionStage engines.detect,
   sensitivityClassificationStage engines.classifySensitivity engines.defaultAction]

/-- The gates that ask the application state. -/
def gateStages (engines : Engines Λ) (appState : Option (AppState Λ)) : List (ChatStage Λ β) :=
  [policyEnforcementStage appState,
   inboundDlpStage appState,
   toolGovernanceStage engines.loads appState]

/-- The stages that make the body to be sent. -/
def sealStages (engines : Engines Λ) (randomBits : Fin (2 ^ 64)) : List (ChatStage Λ β) :=
  [tokenizationStage randomBits engines.storeMapping, forwardingGuard]

/-- `build_pre_provider_pipeline`, with the random bits of the session to come. -/
def buildPreProviderPipeline (engines : Engines Λ) (appState : Option (AppState Λ))
    (randomBits : Fin (2 ^ 64)) : List (ChatStage Λ β) :=
  prepareStages engines ++ gateStages engines appState ++ sealStages engines randomBits

/-- `build_pipeline`, with the stages after the provider: outbound DLP, restoration, cleanup. -/
def buildPipeline (engines : Engines Λ) (appState : Option (AppState Λ))
    (randomBits : Fin (2 ^ 64)) (provider : ChatStage Λ β)
    (afterwards : List (ChatStage Λ β)) : List (ChatStage Λ β) :=
  buildPreProviderPipeline engines appState randomBits ++ provider :: afterwards

/-! ### What the stages leave alone -/

/-- A call leaves alone what no stage before the tokenization assigns to: the request, its nodes,
who sent it, the provider, and the body to be sent. -/
structure Framed (before after : RequestData Λ) : Prop where
  tenantId : after.tenantId = before.tenantId
  contextId : after.contextId = before.contextId
  originalRequest : after.originalRequest = before.originalRequest
  textNodes : after.textNodes = before.textNodes
  provider : after.provider = before.provider
  transformedRequest : after.transformedRequest = before.transformedRequest

theorem Framed.refl (data : RequestData Λ) : Framed data data := ⟨rfl, rfl, rfl, rfl, rfl, rfl⟩

theorem Framed.trans {a b c : RequestData Λ} (h : Framed a b) (h' : Framed b c) : Framed a c :=
  ⟨h'.tenantId.trans h.tenantId, h'.contextId.trans h.contextId,
    h'.originalRequest.trans h.originalRequest, h'.textNodes.trans h.textNodes,
    h'.provider.trans h.provider, h'.transformedRequest.trans h.transformedRequest⟩

/-- A call that keeps the frame, and that no cancellation leaves. -/
def Ordinary (before : RequestData Λ) (out : Outcome (RequestData Λ) StageError β) : Prop :=
  Framed before out.data ∧ ∀ error, out.ending ≠ .baseException error

/-- A stage whose calls are ordinary. -/
def Proper (s : ChatStage Λ β) : Prop := ∀ ctx, Ordinary ctx.data (s.execute ctx)

theorem returned_ne_baseException {ε : Type*} (error : β) :
    (Ending.returned : Ending ε β) ≠ .baseException error := by simp

theorem exception_ne_baseException {ε : Type*} (raised : ε) (error : β) :
    (Ending.exception raised : Ending ε β) ≠ .baseException error := by simp

theorem Framed.done {before after : RequestData Λ} (h : Framed before after) :
    Ordinary before (.done after : Outcome _ StageError β) := ⟨h, returned_ne_baseException⟩

theorem Framed.failed {before after : RequestData Λ} (h : Framed before after)
    (error : StageError) : Ordinary before (.failed after error : Outcome _ StageError β) :=
  ⟨h, returned_ne_baseException⟩

theorem Framed.raised {before after : RequestData Λ} (h : Framed before after)
    (error : StageError) : Ordinary before (.raised after error : Outcome _ StageError β) :=
  ⟨h, exception_ne_baseException error⟩

theorem EngineFailure.ordinary (data : RequestData Λ) (failure : EngineFailure) :
    Ordinary data (failure.outcome data : Outcome _ StageError β) := by
  rcases failure with error | error
  · exact (Framed.refl data).failed error
  · exact (Framed.refl data).raised error

theorem proper_classificationStage (classify : List TextNode → Fields) :
    Proper (classificationStage classify : ChatStage Λ β) := by
  intro ctx
  have hframed : Framed ctx.data { ctx.data with
      classificationResult := some (recordedResult (classify ctx.data.textNodes)) } :=
    ⟨rfl, rfl, rfl, rfl, rfl, rfl⟩
  simp only [classificationStage, stage]
  split_ifs
  · exact hframed.failed _
  · exact hframed.failed _
  · exact hframed.done

theorem proper_localeNegotiationStage
    (negotiate : Option Text → Except EngineFailure (Negotiated Λ)) :
    Proper (localeNegotiationStage negotiate : ChatStage Λ β) := by
  intro ctx
  simp only [localeNegotiationStage, stage]
  split
  · exact EngineFailure.ordinary ctx.data _
  · exact Framed.done ⟨rfl, rfl, rfl, rfl, rfl, rfl⟩

theorem proper_detectionStage
    (detect : List TextNode → Option Λ → Except EngineFailure (List NodeDetection)) :
    Proper (detectionStage detect : ChatStage Λ β) := by
  intro ctx
  simp only [detectionStage, stage]
  split_ifs
  · exact (Framed.refl ctx.data).done
  · exact Framed.done ⟨rfl, rfl, rfl, rfl, rfl, rfl⟩
  · split
    · exact EngineFailure.ordinary ctx.data _
    · exact Framed.done ⟨rfl, rfl, rfl, rfl, rfl, rfl⟩

theorem proper_sensitivityClassificationStage
    (classify : List Text → Option Text → Except StageError ClassificationResult)
    (defaultAction : Text) :
    Proper (sensitivityClassificationStage classify defaultAction : ChatStage Λ β) := by
  intro ctx
  simp only [sensitivityClassificationStage, stage]
  split
  · exact (Framed.refl ctx.data).raised _
  · have hframed : ∀ result auditMetadata, Framed ctx.data { ctx.data with
        classificationResultV2 := result, auditMetadata := auditMetadata } :=
      fun _ _ => ⟨rfl, rfl, rfl, rfl, rfl, rfl⟩
    split_ifs
    · exact (hframed _ _).failed _
    · exact (hframed _ _).failed _
    · exact (hframed _ _).done
    · exact (hframed _ _).done

theorem framed_withSensitivity (data : RequestData Λ) : Framed data (withSensitivity data) := by
  rw [withSensitivity]
  split
  · exact Framed.refl data
  · exact ⟨rfl, rfl, rfl, rfl, rfl, rfl⟩

theorem proper_policyEnforcementStage (appState : Option (AppState Λ)) :
    Proper (policyEnforcementStage appState : ChatStage Λ β) := by
  intro ctx
  have hsensitivity := framed_withSensitivity ctx.data
  have hframed : ∀ decision enforcement, Framed ctx.data { withSensitivity ctx.data with
      policyDecision := decision, policyEnforcement := enforcement } :=
    fun _ _ => hsensitivity.trans ⟨rfl, rfl, rfl, rfl, rfl, rfl⟩
  simp only [policyEnforcementStage, stage]
  split
  · split
    · exact hsensitivity.raised _
    · split
      · exact (hframed _ _).raised _
      · split_ifs
        · exact (hframed _ _).done
        · exact (hframed _ _).failed _
  · exact (Framed.refl ctx.data).done

theorem proper_inboundDlpStage (appState : Option (AppState Λ)) :
    Proper (inboundDlpStage appState : ChatStage Λ β) := by
  intro ctx
  have hframed : ∀ result, Framed ctx.data { ctx.data with dlpResult := result } :=
    fun _ => ⟨rfl, rfl, rfl, rfl, rfl, rfl⟩
  simp only [inboundDlpStage, stage]
  split
  · exact (Framed.refl ctx.data).done
  · split
    · exact (Framed.refl ctx.data).raised _
    · split_ifs
      · exact (hframed _).failed _
      · exact (hframed _).done

theorem proper_toolGovernanceStage (loads : Loads) (appState : Option (AppState Λ)) :
    Proper (toolGovernanceStage loads appState : ChatStage Λ β) := by
  intro ctx
  obtain ⟨approval, hdata⟩ := data_toolGovernanceStage (β := β) loads appState ctx
  refine ⟨hdata ▸ ⟨rfl, rfl, rfl, rfl, rfl, rfl⟩, fun error => ?_⟩
  simp only [toolGovernanceStage, stage]
  -- the stage catches what is raised inside, and returns
  split
  · exact returned_ne_baseException error
  · split <;> exact returned_ne_baseException error

/-- The stages that read the request are proper. -/
theorem proper_prepareStages (engines : Engines Λ) :
    ∀ s ∈ (prepareStages engines : List (ChatStage Λ β)), Proper s := by
  simp only [prepareStages, List.forall_mem_cons]
  exact ⟨proper_classificationStage _, proper_localeNegotiationStage _, proper_detectionStage _,
    proper_sensitivityClassificationStage _ _, List.forall_mem_nil _⟩

/-- The gates are proper. -/
theorem proper_gateStages (engines : Engines Λ) (appState : Option (AppState Λ)) :
    ∀ s ∈ (gateStages engines appState : List (ChatStage Λ β)), Proper s := by
  simp only [gateStages, List.forall_mem_cons]
  exact ⟨proper_policyEnforcementStage appState, proper_inboundDlpStage appState,
    proper_toolGovernanceStage _ appState, List.forall_mem_nil _⟩

/-- No cancellation leaves the stages that make the body to be sent. -/
theorem noBaseException_sealStages (engines : Engines Λ) (randomBits : Fin (2 ^ 64)) :
    NoBaseException (sealStages engines randomBits : List (ChatStage Λ β)) := by
  simp only [NoBaseException, sealStages, List.forall_mem_cons]
  refine ⟨fun ctx error => ?_, fun ctx error => ?_, List.forall_mem_nil _⟩
  · simp only [tokenizationStage, stage]
    split_ifs
    · exact returned_ne_baseException error
    · exact returned_ne_baseException error
    · split <;> exact returned_ne_baseException error
    · split
      · exact returned_ne_baseException error
      · split
        · rename_i stored _
          rcases stored
          · exact exception_ne_baseException _ error
          · exact exception_ne_baseException _ error
          · exact exception_ne_baseException _ error
          · exact returned_ne_baseException error
          · exact returned_ne_baseException error
        · exact returned_ne_baseException error
  · simp only [forwardingGuard, stage]
    split_ifs <;> exact returned_ne_baseException error

/-- **No cancellation.** None leaves the stages in front of the provider. -/
theorem noBaseException_buildPreProviderPipeline (engines : Engines Λ)
    (appState : Option (AppState Λ)) (randomBits : Fin (2 ^ 64)) :
    NoBaseException (buildPreProviderPipeline engines appState randomBits :
      List (ChatStage Λ β)) := by
  intro s hs
  obtain hs | hs := List.mem_append.mp hs
  · obtain hs | hs := List.mem_append.mp hs
    · exact fun ctx => (proper_prepareStages engines s hs ctx).2
    · exact fun ctx => (proper_gateStages engines appState s hs ctx).2
  · exact noBaseException_sealStages engines randomBits s hs

/-- **The frame.** Proper stages leave alone what no stage before the provider assigns to. -/
theorem framed_appliedAll {stages : List (ChatStage Λ β)} (h : ∀ s ∈ stages, Proper s)
    (ctx : ChatContext Λ) : Framed ctx.data (appliedAll stages ctx).data :=
  appliedAll_of_step (fun s hs ctx' hframed => hframed.trans (h s hs ctx').1)
    (Framed.refl ctx.data)

end AnonReq.Pipeline
