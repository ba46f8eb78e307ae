import AnonReq.Pipeline.Extraction
import AnonReq.Pipeline.Manager
import AnonReq.Policy.EnforcementPoint
import AnonReq.Tokenization.Tokenizer

/-!
# The context of a chat request

The fields of `ProcessingContext` (`models/processing_context.py`) that the stages of the chat
pipeline read and write, the errors they record, and `_new_processing_context` of
`routing/chat.py`. Locale bundles with their merged recognizers are a parameter `Λ`.
-/

namespace AnonReq.Pipeline

universe u

/-! ### The errors -/

/-- The errors that stages record: `PipelineAbortError` and its subclasses with a status code of
their own, `PresidioLanguageUnsupportedError`, `DependencyUnavailableError`, `ToolBlockedError`,
and any other exception by the name of its type. -/
inductive StageError where
  | abort (statusCode : ℕ) (message : Text)
  | languageUnsupported (language : Text)
  | dependencyUnavailable (dependency : Text)
  | toolBlocked (message : Text)
  | other (typeName : Text)

/-! ### The fields -/

/-- `ClassificationResult`: the name of the highest level, its first entity, and how the request
is to be handled. -/
structure ClassificationResult where
  highest : Text
  highestEntity : Text
  handlingAction : Text

/-- A detection, with the node it was made in. -/
structure NodeDetection where
  nodeIndex : ℕ
  detection : Tokenization.Detection

/-- `DLPResult`, as far as the pipeline reads it. -/
structure DlpResult where
  isBlocked : Bool

/-- The fields of a `ProcessingContext`, the errors apart. -/
structure RequestData (Λ : Type u) where
  tenantId : Text := name "default"
  contextId : Text
  originalRequest : Json
  textNodes : List TextNode
  localeHeader : Option Text := none
  clientClassification : Option Text := none
  model : Option Text := none
  provider : Option Text := none
  classificationResult : Option Fields := none
  localeBundles : Option Λ := none
  detections : Option (List NodeDetection) := none
  classificationResultV2 : Option ClassificationResult := none
  policyDecision : Option Policy.PolicyDecision := none
  policyEnforcement : Option Policy.PolicyEnforcementResult := none
  dlpResult : Option DlpResult := none
  requiresApproval : Bool := false
  tokenMappings : Option (List (Text × Text)) := none
  transformedRequest : Option Json := none
  providerResponse : Option Json := none
  auditMetadata : Fields := []

/-- The context of the chat pipeline. -/
abbrev ChatContext (Λ : Type u) := ProcessingContext (RequestData Λ) StageError

/-- What is known of a request besides its body: the caller, the headers that are read, and the
active compliance presets. -/
structure RequestInfo where
  tenantId : Text := name "default"
  contextId : Text
  localeHeader : Option Text := none
  clientClassification : Option Text := none
  activeCompliancePresets : List Text := []

/-- `_new_processing_context`. -/
def newProcessingContext (Λ : Type u) (body : ChatRequest) (info : RequestInfo) :
    ChatContext Λ where
  data :=
    { tenantId := info.tenantId
      contextId := info.contextId
      originalRequest := body.modelDump
      textNodes := extract body.modelDump
      localeHeader := info.localeHeader
      clientClassification := info.clientClassification
      model := some body.model
      auditMetadata :=
        if info.activeCompliancePresets = [] then []
        else [(name "compliance_preset",
          .text ([','].intercalate info.activeCompliancePresets))] }
  errors := []

/-! ### Stages -/

variable {σ ε β : Type*}

/-- A call of `execute` that returns without an error. -/
def Outcome.done (data : σ) : Outcome σ ε β := ⟨data, [], .returned⟩

/-- A call of `execute` that returns after it passed an error to `fail_secure`. -/
def Outcome.failed (data : σ) (error : ε) : Outcome σ ε β := ⟨data, [error], .returned⟩

/-- A call of `execute` that raises an exception. -/
def Outcome.raised (data : σ) (error : ε) : Outcome σ ε β := ⟨data, [], .exception error⟩

/-- A stage that is skipped after a failure. -/
def stage (execute : ProcessingContext σ ε → Outcome σ ε β) : PipelineStage σ ε β :=
  ⟨false, execute⟩

@[simp]
theorem fails_done {s : PipelineStage σ ε β} {ctx : ProcessingContext σ ε} {data : σ}
    (h : s.execute ctx = .done data) : fails s ctx = false := by
  rw [fails, h]
  rfl

@[simp]
theorem fails_failed {s : PipelineStage σ ε β} {ctx : ProcessingContext σ ε} {data : σ}
    {error : ε} (h : s.execute ctx = .failed data error) : fails s ctx = true := by
  rw [fails, h]
  rfl

end AnonReq.Pipeline
