import AnonReq.Pipeline.Stages

/-!
# The same stages with and without a stream

The stages in front of the provider run on the same request twice: with `stream` set and without
an application state, as the streaming route runs them, and with neither, as the other route does.

* `preProvider_agrees`: if the first run stops the request, so does the second; where the gates let
  the request through, both fail at the same stage and make the same body.
* `sent_of_preProvider`: a request that passes was classified, and has a body to be sent with its
  own fields, the messages apart.

The stages that read the request do not see the `stream` flag (`inStep_prepareStages`), and the
last ones carry it over (`inStep_sealStages`). The gates do see it, but leave alone what the last
stages read (`kept_gateStages`).
-/

namespace AnonReq.Pipeline

universe u v

variable {Λ : Type u} {β : Type v}

/-! ### The stages that read the request -/

/-- The body that is sent, with `stream` set. -/
def withStream (body : Json) : Json := body.setField (name "stream") (.bool true)

/-- The data of the same request on the streaming route. -/
def asStreamed (data : RequestData Λ) : RequestData Λ :=
  { data with
    originalRequest := withStream data.originalRequest }

/-- The same data, up to the `stream` flag. -/
def SameReading (plain streamed : RequestData Λ) : Prop := streamed = asStreamed plain

theorem inStep_classificationStage (classify : List TextNode → Fields) :
    InStep SameReading (classificationStage classify : ChatStage Λ β)
      (classificationStage classify) := by
  refine inStep_of_execute fun plain streamed h => ?_
  rw [SameReading] at h
  simp only [classificationStage, stage, h, asStreamed]
  split_ifs <;> exact ⟨rfl, rfl, rfl⟩

theorem inStep_localeNegotiationStage
    (negotiate : Option Text → Except EngineFailure (Negotiated Λ)) :
    InStep SameReading (localeNegotiationStage negotiate : ChatStage Λ β)
      (localeNegotiationStage negotiate) := by
  refine inStep_of_execute fun plain streamed h => ?_
  rw [SameReading] at h
  simp only [localeNegotiationStage, stage, h, asStreamed]
  rcases negotiate plain.data.localeHeader with failure | negotiated
  · rcases failure <;> exact ⟨rfl, rfl, rfl⟩
  · exact ⟨rfl, rfl, rfl⟩

theorem inStep_detectionStage
    (detect : List TextNode → Option Λ → Except EngineFailure (List NodeDetection)) :
    InStep SameReading (detectionStage detect : ChatStage Λ β) (detectionStage detect) := by
  refine inStep_of_execute fun plain streamed h => ?_
  rw [SameReading] at h
  simp only [detectionStage, stage, h, asStreamed, blockedByClassification]
  split_ifs
  · exact ⟨rfl, rfl, rfl⟩
  · exact ⟨rfl, rfl, rfl⟩
  · rcases detect plain.data.textNodes plain.data.localeBundles with failure | detections
    · rcases failure <;> exact ⟨rfl, rfl, rfl⟩
    · exact ⟨rfl, rfl, rfl⟩

theorem inStep_sensitivityClassificationStage
    (classify : List Text → Option Text → Except StageError ClassificationResult)
    (defaultAction : Text) :
    InStep SameReading (sensitivityClassificationStage classify defaultAction : ChatStage Λ β)
      (sensitivityClassificationStage classify defaultAction) := by
  refine inStep_of_execute fun plain streamed h => ?_
  rw [SameReading] at h
  simp only [sensitivityClassificationStage, stage, h, asStreamed, entityTypes]
  rcases classify _ plain.data.clientClassification with error | result
  · exact ⟨rfl, rfl, rfl⟩
  · dsimp only
    split_ifs <;> exact ⟨rfl, rfl, rfl⟩

/-- None of the stages that read the request sees the `stream` flag. -/
theorem inStep_prepareStages (engines : Engines Λ) :
    List.Forall₂ (InStep SameReading) (prepareStages engines : List (ChatStage Λ β))
      (prepareStages engines) :=
  .cons (inStep_classificationStage _) (.cons (inStep_localeNegotiationStage _)
    (.cons (inStep_detectionStage _) (.cons (inStep_sensitivityClassificationStage _ _) .nil)))

/-- The request was classified, and may be forwarded. -/
def Classified (data : RequestData Λ) : Prop :=
  ∃ result, data.classificationResult = some result ∧
    isAction (actionOf result) (name "BLOCK") = false ∧
      isAction (actionOf result) (name "ROUTE_LOCAL") = false

/-- A stage that leaves the classification alone. -/
def KeepsClassification (s : ChatStage Λ β) : Prop :=
  ∀ ctx, (s.execute ctx).data.classificationResult = ctx.data.classificationResult

theorem keepsClassification_localeNegotiationStage
    (negotiate : Option Text → Except EngineFailure (Negotiated Λ)) :
    KeepsClassification (localeNegotiationStage negotiate : ChatStage Λ β) := by
  intro ctx
  simp only [localeNegotiationStage, stage]
  rcases negotiate ctx.data.localeHeader with failure | negotiated
  · rcases failure <;> rfl
  · rfl

theorem keepsClassification_detectionStage
    (detect : List TextNode → Option Λ → Except EngineFailure (List NodeDetection)) :
    KeepsClassification (detectionStage detect : ChatStage Λ β) := by
  intro ctx
  simp only [detectionStage, stage]
  split_ifs
  · rfl
  · rfl
  · rcases detect ctx.data.textNodes ctx.data.localeBundles with failure | detections
    · rcases failure <;> rfl
    · rfl

theorem keepsClassification_sensitivityClassificationStage
    (classify : List Text → Option Text → Except StageError ClassificationResult)
    (defaultAction : Text) :
    KeepsClassification
      (sensitivityClassificationStage classify defaultAction : ChatStage Λ β) := by
  intro ctx
  simp only [sensitivityClassificationStage, stage]
  rcases classify (entityTypes ctx.data) ctx.data.clientClassification with error | result
  · rfl
  · dsimp only
    split_ifs <;> rfl

variable {ctx : ChatContext Λ}

/-- The first stage classifies the request, unless it fails. -/
theorem classified_classificationStage {classify : List TextNode → Fields}
    (h : fails (classificationStage classify : ChatStage Λ β) ctx = false) :
    Classified (applied (classificationStage classify : ChatStage Λ β) ctx).data := by
  let result := recordedResult (classify ctx.data.textNodes)
  by_cases hblock : isAction (actionOf result) (name "BLOCK") = true
  · have hexecute : (classificationStage classify : ChatStage Λ β).execute ctx = .failed _ _ :=
      if_pos hblock
    rw [fails_failed hexecute] at h
    exact absurd h (by decide)
  · by_cases hlocal : isAction (actionOf result) (name "ROUTE_LOCAL") = true
    · have hexecute : (classificationStage classify : ChatStage Λ β).execute ctx = .failed _ _ :=
        (if_neg hblock).trans (if_pos hlocal)
      rw [fails_failed hexecute] at h
      exact absurd h (by decide)
    · have hexecute : (classificationStage classify : ChatStage Λ β).execute ctx = .done _ :=
        (if_neg hblock).trans (if_neg hlocal)
      rw [applied, hexecute]
      exact ⟨result, rfl, Bool.eq_false_iff.mpr hblock, Bool.eq_false_iff.mpr hlocal⟩

/-- **Classified requests.** A request that passes the stages which read it was classified. -/
theorem classified_prepareStages {engines : Engines Λ}
    (h : firstFailure (prepareStages engines : List (ChatStage Λ β)) ctx = none) :
    Classified (appliedAll (prepareStages engines : List (ChatStage Λ β)) ctx).data := by
  rw [prepareStages, firstFailure] at h
  split_ifs at h with hfails
  obtain ⟨result, hresult, hactions⟩ :=
    classified_classificationStage (Bool.eq_false_iff.mpr hfails)
  refine ⟨result, ?_, hactions⟩
  have hkeep : ∀ s ∈ ([localeNegotiationStage engines.negotiate, detectionStage engines.detect,
      sensitivityClassificationStage engines.classifySensitivity engines.defaultAction] :
      List (ChatStage Λ β)), KeepsClassification s := by
    simp only [List.forall_mem_cons]
    exact ⟨keepsClassification_localeNegotiationStage _, keepsClassification_detectionStage _,
      keepsClassification_sensitivityClassificationStage _ _, List.forall_mem_nil _⟩
  exact appliedAll_of_step (I := fun data => data.classificationResult = some result)
    (fun s hs ctx => (hkeep s hs ctx).trans) hresult

/-! ### The gates -/

/-- The action that the classification recorded. -/
def recordedAction (data : RequestData Λ) : Option Json :=
  Dict.get (data.classificationResult.getD []) (name "action")

/-- What the gates leave alone: what no stage before the tokenization assigns to, the detections,
and the action of the classification. -/
structure Kept (before after : RequestData Λ) : Prop where
  framed : Framed before after
  detections : after.detections = before.detections
  tokenMappings : after.tokenMappings = before.tokenMappings
  action : recordedAction after = recordedAction before
  classified : before.classificationResult.isSome = true →
    after.classificationResult.isSome = true

theorem Kept.refl (data : RequestData Λ) : Kept data data :=
  ⟨Framed.refl data, rfl, rfl, rfl, id⟩

theorem Kept.trans {a b c : RequestData Λ} (h : Kept a b) (h' : Kept b c) : Kept a c :=
  ⟨h.framed.trans h'.framed, h'.detections.trans h.detections,
    h'.tokenMappings.trans h.tokenMappings, h'.action.trans h.action,
    fun hclassified => h'.classified (h.classified hclassified)⟩

theorem kept_withSensitivity (data : RequestData Λ) : Kept data (withSensitivity data) := by
  refine ⟨framed_withSensitivity data, ?_, ?_, ?_, ?_⟩
  all_goals
    rw [withSensitivity]
    rcases data.classificationResultV2 with _ | result
  · rfl
  · rfl
  · rfl
  · rfl
  · rfl
  · -- the level and the entity are recorded under other keys
    have hlevel : name "classification_level" ≠ name "action" := by decide
    have hentity : name "highest_entity" ≠ name "action" := by decide
    simp only [recordedAction, Option.getD_some, Dict.get_set, if_neg hlevel, if_neg hentity]
  · exact id
  · exact fun _ => rfl

theorem kept_policyEnforcementStage (appState : Option (AppState Λ)) (ctx : ChatContext Λ) :
    Kept ctx.data ((policyEnforcementStage appState : ChatStage Λ β).execute ctx).data := by
  have hsensitivity := kept_withSensitivity ctx.data
  have hkept : ∀ decision enforcement, Kept ctx.data { withSensitivity ctx.data with
      policyDecision := decision, policyEnforcement := enforcement } :=
    fun _ _ => hsensitivity.trans ⟨⟨rfl, rfl, rfl, rfl, rfl, rfl⟩, rfl, rfl, rfl, id⟩
  simp only [policyEnforcementStage, stage]
  split
  · split
    · exact hsensitivity
    · split
      · exact hkept _ _
      · split_ifs <;> exact hkept _ _
  · exact Kept.refl ctx.data

theorem kept_inboundDlpStage (appState : Option (AppState Λ)) (ctx : ChatContext Λ) :
    Kept ctx.data ((inboundDlpStage appState : ChatStage Λ β).execute ctx).data := by
  have hkept : ∀ result, Kept ctx.data { ctx.data with dlpResult := result } :=
    fun _ => ⟨⟨rfl, rfl, rfl, rfl, rfl, rfl⟩, rfl, rfl, rfl, id⟩
  simp only [inboundDlpStage, stage]
  split
  · exact Kept.refl ctx.data
  · split
    · exact Kept.refl ctx.data
    · split_ifs <;> exact hkept _

theorem kept_toolGovernanceStage (loads : Governance.Loads) (appState : Option (AppState Λ))
    (ctx : ChatContext Λ) :
    Kept ctx.data ((toolGovernanceStage loads appState : ChatStage Λ β).execute ctx).data := by
  obtain ⟨approval, hdata⟩ := data_toolGovernanceStage (β := β) loads appState ctx
  exact hdata ▸ ⟨⟨rfl, rfl, rfl, rfl, rfl, rfl⟩, rfl, rfl, rfl, id⟩

/-- **The gates.** They leave alone what the stages behind them read. -/
theorem kept_gateStages (engines : Engines Λ) (appState : Option (AppState Λ))
    (ctx : ChatContext Λ) :
    Kept ctx.data (appliedAll (gateStages engines appState : List (ChatStage Λ β)) ctx).data := by
  refine appliedAll_of_step (I := Kept ctx.data) ?_ (Kept.refl ctx.data)
  simp only [gateStages, List.forall_mem_cons]
  exact ⟨fun ctx' h => h.trans (kept_policyEnforcementStage appState ctx'),
    fun ctx' h => h.trans (kept_inboundDlpStage appState ctx'),
    fun ctx' h => h.trans (kept_toolGovernanceStage _ appState ctx'), List.forall_mem_nil _⟩

/-- **Gates that are off.** Without an application state no gate fails, and none changes the
data. -/
theorem gateStages_none (engines : Engines Λ) (ctx : ChatContext Λ) :
    firstFailure (gateStages engines none : List (ChatStage Λ β)) ctx = none ∧
      (appliedAll (gateStages engines none : List (ChatStage Λ β)) ctx).data = ctx.data :=
  ⟨rfl, rfl⟩

/-! ### The stages that make the body to be sent -/

/-- The data of the same request on the two routes, behind the gates: what the last stages read
is the same up to the `stream` flag. -/
structure Sealing (plain streamed : RequestData Λ) : Prop where
  tenantId : streamed.tenantId = plain.tenantId
  contextId : streamed.contextId = plain.contextId
  originalRequest : streamed.originalRequest = withStream plain.originalRequest
  textNodes : streamed.textNodes = plain.textNodes
  places : ∀ node ∈ plain.textNodes, ∃ place : Place, node.path = place.path
  detections : streamed.detections = plain.detections
  tokenMappings : streamed.tokenMappings = plain.tokenMappings
  action : recordedAction streamed = recordedAction plain
  classified : plain.classificationResult.isSome = true ∧
    streamed.classificationResult.isSome = true
  transformedRequest : streamed.transformedRequest = plain.transformedRequest.map withStream

/-- Whether detection and tokenization are skipped depends on the recorded action. -/
theorem blockedByClassification_congr {data data' : RequestData Λ}
    (h : recordedAction data' = recordedAction data) :
    blockedByClassification data' = blockedByClassification data := by
  have hblocked : ∀ data : RequestData Λ, blockedByClassification data =
      (recordedAction data).any fun action => isAction action (name "BLOCK") := by
    intro data
    rw [blockedByClassification, recordedAction]
    rcases data.classificationResult with _ | result
    · rfl
    · dsimp only [Option.getD_some]
      rcases Dict.get result (name "action") with _ | action <;> rfl
  rw [hblocked, hblocked, h]

/-- The body that the tokenization makes of the request, and the mapping it stores. -/
def tokenized (randomBits : Fin (2 ^ 64)) (data : RequestData Λ) :
    Option (Json × List (Text × Text)) :=
  if (data.detections.getD []).isEmpty then some (data.originalRequest, [])
  else
    let nodes := detectedNodes data
    let session := Tokenization.tokenizeSession randomBits nodes
    (writeBack data.originalRequest (data.textNodes.zip
      (session.1.zip (nodes.map fun node => !node.detections.isEmpty)))).map
      fun transformed => (transformed, session.2)

/-- How the mapping is stored. An empty one is not. -/
def storeError (storeMapping : Text → Text → List (Text × Text) → Option StageError)
    (data : RequestData Λ) (mapping : List (Text × Text)) : Option StageError :=
  if mapping.isEmpty then none else storeMapping data.tenantId data.contextId mapping

theorem fails_storeFailure {s : ChatStage Λ β} {data : RequestData Λ} {error : StageError}
    (h : s.execute ctx = storeFailure data error) : fails s ctx = true := by
  rw [fails, h]
  rcases error <;> rfl

/-- What the tokenization does: it makes the body, and stores the mapping. -/
theorem tokenizationStage_execute (randomBits : Fin (2 ^ 64))
    (storeMapping : Text → Text → List (Text × Text) → Option StageError)
    (ctx : ChatContext Λ) :
    (tokenizationStage randomBits storeMapping : ChatStage Λ β).execute ctx =
      if blockedByClassification ctx.data then .done ctx.data
      else
        match tokenized randomBits ctx.data with
        | none => .failed ctx.data (.abort 500 (name "Tokenization stage failed"))
        | some (transformed, mapping) =>
          match storeError storeMapping ctx.data mapping with
          | some error =>
            storeFailure { ctx.data with transformedRequest := some transformed } error
          | none => .done
              { ctx.data with
                transformedRequest := some transformed, tokenMappings := some mapping } := by
  by_cases hblocked : blockedByClassification ctx.data = true
  · rw [if_pos hblocked]
    exact if_pos hblocked
  · rw [if_neg hblocked, tokenized]
    refine (if_neg hblocked).trans ?_
    by_cases hempty : (ctx.data.detections.getD []).isEmpty = true
    · rw [if_pos hempty, if_pos hempty]
      rfl
    · rw [if_neg hempty, if_neg hempty]
      dsimp only
      rcases writeBack ctx.data.originalRequest _ with _ | transformed <;> rfl

/-- The body on the streaming route is that on the other one, with `stream` set. -/
theorem tokenized_of_sealing {plain streamed : RequestData Λ} (h : Sealing plain streamed)
    (randomBits : Fin (2 ^ 64)) :
    tokenized randomBits streamed =
      (tokenized randomBits plain).map fun sent => (withStream sent.1, sent.2) := by
  have hnodes : detectedNodes streamed = detectedNodes plain := by
    rw [detectedNodes, detectedNodes, h.textNodes, h.detections]
  have hwrite : ∀ texts : List (Text × Bool),
      writeBack (withStream plain.originalRequest) (plain.textNodes.zip texts) =
        (writeBack plain.originalRequest (plain.textNodes.zip texts)).map withStream :=
    fun texts => writeBack_setField (by decide) _
      (fun node hnode => h.places _ (List.of_mem_zip hnode).1) _
  rw [tokenized, tokenized, h.detections, h.originalRequest, h.textNodes, hnodes]
  split_ifs
  · rfl
  · dsimp only
    rw [hwrite, Option.map_map, Option.map_map]
    rfl

/-- The tokenization does not see the `stream` flag, but carries it over. -/
theorem inStep_tokenizationStage (randomBits : Fin (2 ^ 64))
    (storeMapping : Text → Text → List (Text × Text) → Option StageError) :
    InStep Sealing (tokenizationStage randomBits storeMapping : ChatStage Λ β)
      (tokenizationStage randomBits storeMapping) := by
  refine inStep_of_execute fun plain streamed h => ?_
  rw [tokenizationStage_execute, tokenizationStage_execute,
    blockedByClassification_congr h.action, tokenized_of_sealing h]
  split_ifs
  · exact ⟨h, rfl, rfl⟩
  · rcases tokenized randomBits plain.data with _ | ⟨transformed, mapping⟩
    · exact ⟨h, rfl, rfl⟩
    · have hstore : storeError storeMapping streamed.data mapping =
          storeError storeMapping plain.data mapping := by
        rw [storeError, storeError, h.tenantId, h.contextId]
      simp only [Option.map_some, hstore]
      rcases storeError storeMapping plain.data mapping with _ | error
      · exact ⟨{ h with tokenMappings := rfl, transformedRequest := rfl }, rfl, rfl⟩
      · rcases error <;> exact ⟨{ h with transformedRequest := rfl }, rfl, rfl⟩

theorem inStep_forwardingGuard :
    InStep Sealing (forwardingGuard : ChatStage Λ β) forwardingGuard := by
  refine inStep_of_execute fun plain streamed h => ?_
  have hclassified : streamed.data.classificationResult.isNone =
      plain.data.classificationResult.isNone := by
    rw [← Option.not_isSome, ← Option.not_isSome, h.classified.1, h.classified.2]
  simp only [forwardingGuard, stage, hclassified, h.detections, h.tokenMappings,
    h.transformedRequest, Option.isNone_map]
  split_ifs <;> exact ⟨h, rfl, rfl⟩

/-- The last stages carry the `stream` flag over. -/
theorem inStep_sealStages (engines : Engines Λ) (randomBits : Fin (2 ^ 64)) :
    List.Forall₂ (InStep Sealing) (sealStages engines randomBits : List (ChatStage Λ β))
      (sealStages engines randomBits) :=
  .cons (inStep_tokenizationStage _ _) (.cons inStep_forwardingGuard .nil)

/-! ### The two routes up to the provider -/

/-- The gates let a request through, if it comes to them. -/
def GatesPass (β : Type v) (engines : Engines Λ) (gates : AppState Λ) (ctx : ChatContext Λ) :
    Prop :=
  firstFailure (prepareStages engines : List (ChatStage Λ β)) ctx = none →
    firstFailure (gateStages engines (some gates) : List (ChatStage Λ β))
      (appliedAll (prepareStages engines : List (ChatStage Λ β)) ctx) = none

/-- What the gates let through is the same for the last stages as what no gate has seen, up to the
`stream` flag. -/
theorem sealing_of_kept {plain gated streamed : RequestData Λ} (h : SameReading plain streamed)
    (hkept : Kept plain gated) (hclassified : Classified plain)
    (hplaces : ∀ node ∈ plain.textNodes, ∃ place : Place, node.path = place.path)
    (hnone : plain.transformedRequest = none) : Sealing gated streamed := by
  obtain rfl := h
  obtain ⟨result, hresult, -⟩ := hclassified
  have hsome : plain.classificationResult.isSome = true := Option.isSome_of_eq_some hresult
  exact
    { tenantId := hkept.framed.tenantId.symm
      contextId := hkept.framed.contextId.symm
      originalRequest := congrArg withStream hkept.framed.originalRequest.symm
      textNodes := hkept.framed.textNodes.symm
      places := hkept.framed.textNodes ▸ hplaces
      detections := hkept.detections.symm
      tokenMappings := hkept.tokenMappings.symm
      action := hkept.action.symm
      classified := ⟨hkept.classified hsome, hsome⟩
      transformedRequest := by
        rw [hkept.framed.transformedRequest, hnone]
        exact hnone }

/-- The stages behind those that read the request. -/
def lastStages (engines : Engines Λ) (appState : Option (AppState Λ))
    (randomBits : Fin (2 ^ 64)) : List (ChatStage Λ β) :=
  gateStages engines appState ++ sealStages engines randomBits

theorem buildPreProviderPipeline_eq (engines : Engines Λ) (appState : Option (AppState Λ))
    (randomBits : Fin (2 ^ 64)) :
    (buildPreProviderPipeline engines appState randomBits : List (ChatStage Λ β)) =
      prepareStages engines ++ lastStages engines appState randomBits :=
  List.append_assoc _ _ _

/-- If the last stages stop a request on the streaming route, they do on the other one; where the
gates let it through, they agree. -/
theorem lastStages_agree (engines : Engines Λ) (gates : AppState Λ) (randomBits : Fin (2 ^ 64))
    {plain streamed : ChatContext Λ} (hsame : SameReading plain.data streamed.data)
    (hclassified : Classified plain.data)
    (hplaces : ∀ node ∈ plain.data.textNodes, ∃ place : Place, node.path = place.path)
    (hnone : plain.data.transformedRequest = none) :
    let gated : List (ChatStage Λ β) := lastStages engines (some gates) randomBits
    let ungated : List (ChatStage Λ β) := lastStages engines none randomBits
    (firstFailure ungated streamed ≠ none → firstFailure gated plain ≠ none) ∧
      (firstFailure (gateStages engines (some gates) : List (ChatStage Λ β)) plain = none →
        firstFailure gated plain = firstFailure ungated streamed ∧
          Sealing (executed gated plain).data (executed ungated streamed).data) := by
  intro gated ungated
  obtain ⟨hoff, hunchanged⟩ := gateStages_none (β := β) engines streamed
  have hsealing := sealing_of_kept hsame (kept_gateStages (β := β) engines (some gates) plain)
    hclassified hplaces hnone
  rw [← hunchanged] at hsealing
  obtain ⟨hseal, hsealed⟩ :=
    firstFailure_of_inStep (inStep_sealStages (β := β) engines randomBits) hsealing
  have hpasses : firstFailure (gateStages engines (some gates) : List (ChatStage Λ β)) plain =
      none → firstFailure gated plain = firstFailure ungated streamed := by
    intro hpass
    simp only [gated, ungated, lastStages, firstFailure_append, hpass, hoff, hseal]
    rfl
  refine ⟨fun hstopped => ?_, fun hpass => ⟨hpasses hpass, ?_⟩⟩
  · rcases hgates : firstFailure (gateStages engines (some gates) : List (ChatStage Λ β)) plain
      with _ | k
    · rw [hpasses hgates]
      exact hstopped
    · simp only [gated, lastStages, firstFailure_append, hgates]
      exact Option.some_ne_none k
  · simp only [gated, ungated, lastStages, executed_append, if_pos hpass, if_pos hoff]
    exact hsealed

/-- **The stages of the two routes.** If the streaming route stops a request, so does the other
one. Where the gates let the request through, both fail at the same stage, and make the same body
up to the `stream` flag. -/
theorem preProvider_agrees (engines : Engines Λ) (gates : AppState Λ)
    (randomBits : Fin (2 ^ 64)) {plain streamed : ChatContext Λ}
    (hsame : SameReading plain.data streamed.data)
    (hplaces : ∀ node ∈ plain.data.textNodes, ∃ place : Place, node.path = place.path)
    (hnone : plain.data.transformedRequest = none) :
    let gated : List (ChatStage Λ β) := buildPreProviderPipeline engines (some gates) randomBits
    let ungated : List (ChatStage Λ β) := buildPreProviderPipeline engines none randomBits
    (firstFailure ungated streamed ≠ none → firstFailure gated plain ≠ none) ∧
      (GatesPass β engines gates plain →
        firstFailure gated plain = firstFailure ungated streamed ∧
          (executed ungated streamed).data.transformedRequest =
            (executed gated plain).data.transformedRequest.map withStream) := by
  intro gated ungated
  obtain ⟨hprepare, hread⟩ := firstFailure_of_inStep (inStep_prepareStages (β := β) engines) hsame
  have hframed : Framed plain.data
      (executed (prepareStages engines : List (ChatStage Λ β)) plain).data :=
    executed_of_step (fun s hs ctx h => h.trans (proper_prepareStages engines s hs ctx).1)
      (Framed.refl plain.data)
  simp only [gated, ungated, buildPreProviderPipeline_eq, firstFailure_append, executed_append,
    ← hprepare]
  rcases hstopped : firstFailure (prepareStages engines : List (ChatStage Λ β)) plain with _ | k
  · rw [executed_of_firstFailure_none hstopped,
      executed_of_firstFailure_none (hprepare.symm.trans hstopped)] at hread
    rw [executed_of_firstFailure_none hstopped] at hframed
    obtain ⟨hungated, hgated⟩ := lastStages_agree (β := β) engines gates randomBits hread
      (classified_prepareStages hstopped) (hframed.textNodes ▸ hplaces)
      (hframed.transformedRequest.trans hnone)
    simp only [Option.none_or, ne_eq, Option.map_eq_none_iff, if_true]
    refine ⟨hungated, fun hpass => ?_⟩
    obtain ⟨hfailure, hsealed⟩ := hgated (hpass hstopped)
    exact ⟨by rw [hfailure], hsealed.transformedRequest⟩
  · -- both routes stop at the same stage that reads the request
    refine ⟨fun _ => Option.some_ne_none k, fun _ => ⟨rfl, ?_⟩⟩
    simp only [reduceCtorEq, if_false]
    rw [hread, asStreamed, hframed.transformedRequest, hnone]
    rfl

/-! ### What is sent -/

/-- A body that the tokenization makes has the fields of the request, the messages apart. -/
theorem get_tokenized {randomBits : Fin (2 ^ 64)} {data : RequestData Λ} {transformed : Json}
    {mapping : List (Text × Text)} (h : tokenized randomBits data = some (transformed, mapping))
    (hplaces : ∀ node ∈ data.textNodes, ∃ place : Place, node.path = place.path)
    {k : Text} (hne : k ≠ name "messages") : transformed.get k = data.originalRequest.get k := by
  rw [tokenized] at h
  split_ifs at h
  · rw [← (Prod.mk.inj (Option.some.inj h)).1]
  · obtain ⟨written, hwritten, heq⟩ := Option.map_eq_some_iff.mp h
    rw [← (Prod.mk.inj heq).1]
    exact get_writeBack hne (fun node hnode => hplaces _ (List.of_mem_zip hnode).1) hwritten

/-- Detection and tokenization are not skipped for a classified request. -/
theorem Classified.not_blocked {data : RequestData Λ} (h : Classified data) :
    blockedByClassification data = false := by
  obtain ⟨result, hresult, hblock, -⟩ := h
  rw [actionOf] at hblock
  rw [blockedByClassification, hresult]
  dsimp only
  rcases haction : Dict.get result (name "action") with _ | action
  · rfl
  · rw [haction] at hblock
    exact hblock

/-- A request that passes the last stages, which are not skipped, is sent with the body that the
tokenization makes of it, after the mapping is stored. -/
theorem tokenized_of_sealStages {engines : Engines Λ} {randomBits : Fin (2 ^ 64)}
    (hblocked : blockedByClassification ctx.data = false)
    (h : firstFailure (sealStages engines randomBits : List (ChatStage Λ β)) ctx = none) :
    ∃ transformed mapping, tokenized randomBits ctx.data = some (transformed, mapping) ∧
      storeError engines.storeMapping ctx.data mapping = none ∧
        (appliedAll (sealStages engines randomBits : List (ChatStage Λ β)) ctx).data =
          { ctx.data with
            transformedRequest := some transformed, tokenMappings := some mapping } := by
  have hguard : ∀ ctx : ChatContext Λ,
      ((forwardingGuard : ChatStage Λ β).execute ctx).data = ctx.data := by
    intro ctx
    simp only [forwardingGuard, stage]
    split_ifs <;> rfl
  have hexecute := tokenizationStage_execute (β := β) randomBits engines.storeMapping ctx
  rw [hblocked] at hexecute
  have hpass : fails (tokenizationStage randomBits engines.storeMapping : ChatStage Λ β) ctx =
      false := by
    rw [sealStages, firstFailure] at h
    split_ifs at h with hfails
    exact Bool.eq_false_iff.mpr hfails
  rcases htokenized : tokenized randomBits ctx.data with _ | ⟨transformed, mapping⟩
  · rw [htokenized] at hexecute
    rw [fails_failed hexecute] at hpass
    exact absurd hpass (by decide)
  · rw [htokenized] at hexecute
    rcases hstore : storeError engines.storeMapping ctx.data mapping with _ | error
    · simp only [hstore] at hexecute
      exact ⟨transformed, mapping, rfl, hstore,
        (hguard _).trans (congrArg Outcome.data hexecute)⟩
    · simp only [hstore] at hexecute
      rw [fails_storeFailure hexecute] at hpass
      exact absurd hpass (by decide)

/-- A classified request that passes the last stages has a body to be sent, with the fields of the
request, the messages apart. -/
theorem sent_of_sealStages {engines : Engines Λ} {randomBits : Fin (2 ^ 64)}
    (hclassified : Classified ctx.data)
    (hplaces : ∀ node ∈ ctx.data.textNodes, ∃ place : Place, node.path = place.path)
    (h : firstFailure (sealStages engines randomBits : List (ChatStage Λ β)) ctx = none) :
    let sealed := (appliedAll (sealStages engines randomBits : List (ChatStage Λ β)) ctx).data
    sealed.classificationResult = ctx.data.classificationResult ∧
      ∃ transformed, sealed.transformedRequest = some transformed ∧
        ∀ k, k ≠ name "messages" → transformed.get k = ctx.data.originalRequest.get k := by
  obtain ⟨transformed, mapping, htokenized, -, hsealed⟩ :=
    tokenized_of_sealStages hclassified.not_blocked h
  rw [hsealed]
  exact ⟨rfl, transformed, rfl, fun k hne => get_tokenized htokenized hplaces hne⟩

/-- **Sent requests.** A request that passes the stages of the streaming route was classified, and
has a body to be sent with its own fields, the messages apart. -/
theorem sent_of_preProvider {engines : Engines Λ} {randomBits : Fin (2 ^ 64)}
    (hplaces : ∀ node ∈ ctx.data.textNodes, ∃ place : Place, node.path = place.path)
    (h : firstFailure (buildPreProviderPipeline engines none randomBits :
      List (ChatStage Λ β)) ctx = none) :
    let sent := (appliedAll (buildPreProviderPipeline engines none randomBits :
      List (ChatStage Λ β)) ctx).data
    Classified sent ∧ ∃ transformed, sent.transformedRequest = some transformed ∧
      ∀ k, k ≠ name "messages" → transformed.get k = ctx.data.originalRequest.get k := by
  have hframed := framed_appliedAll (proper_prepareStages (β := β) engines) ctx
  simp only [buildPreProviderPipeline_eq, lastStages, firstFailure_append, Option.or_eq_none_iff,
    Option.map_eq_none_iff] at h
  obtain ⟨hprepare, -, hseal⟩ := h
  have hclassified := classified_prepareStages hprepare
  rw [← (gateStages_none (β := β) engines _).2] at hclassified hframed
  obtain ⟨hkept, transformed, htransformed, hget⟩ :=
    sent_of_sealStages hclassified (hframed.textNodes ▸ hplaces) hseal
  simp only [buildPreProviderPipeline_eq, lastStages, appliedAll, List.foldl_append]
  obtain ⟨result, hresult, hactions⟩ := hclassified
  refine ⟨⟨result, hkept.trans hresult, hactions⟩, transformed, htransformed, fun k hne => ?_⟩
  exact (hget k hne).trans (congrArg (fun body : Json => body.get k) hframed.originalRequest)

end AnonReq.Pipeline
