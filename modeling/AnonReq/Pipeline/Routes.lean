import AnonReq.Pipeline.LockStep
import AnonReq.Pipeline.ToolGovernance

/-!
# The two routes of a chat request

`_stream_chat_completions` of `routing/chat.py`, up to the call of `adapter.stream_events`, next to
the pipeline that `chat_completions` runs. The streaming route builds the stages in front of the
provider itself, without the application state, and keeps them for later requests.

* `ready_exec`: whatever streaming requests were served and whichever gates were installed, the
  cached pipeline is one without an application state.
* `rejected_iff`: a streaming request is rejected if and only if the route has no engines, a stage
  other than the gates stops it, or it is not routed.
* `stream_agrees`: where the gates let a request through, the two routes agree.
-/

namespace AnonReq.Pipeline

universe u v

/-! ### The streaming route -/

/-- How a request is rejected: with an HTTP status, or with another exception. -/
inductive Rejection where
  | http (statusCode : ℕ) (detail : Text)
  | exception (typeName : Text)

/-- `_raise_for_pipeline_errors`. -/
def raiseForPipelineErrors (errors : List StageError) : Option Rejection :=
  errors.getLast?.map fun
    | .languageUnsupported language =>
      .http 503 (name "Presidio analyzer does not support language '" ++ language ++
        name "'. Refusing to fall back to English.")
    | .dependencyUnavailable _ => .http 503 (name "Service temporarily unavailable")
    | .abort statusCode message =>
      if statusCode ∈ [400, 403, 404, 501, 451] then .http statusCode message
      else if statusCode = 504 then .http 504 (name "Upstream provider timeout")
      else if statusCode = 503 then .http 503 (name "Service temporarily unavailable")
      else .http 500 (name "Internal gateway error")
    | .toolBlocked _ | .other _ => .http 500 (name "Internal gateway error")

/-- How an adapter fails to translate a request: with a `ValueError`, or another exception. -/
inductive TranslationError where
  | value
  | other (typeName : Text)

variable {Λ : Type u} {β : Type v}

/-- `ProviderAdapter`, as the route uses it before the stream. -/
structure ProviderAdapter (Λ : Type u) where
  streaming : Bool
  translateRequest : RequestData Λ → Except TranslationError Json

/-- A pipeline that waits for the random bits of a session. -/
abbrev WaitingPipeline (Λ : Type u) (β : Type v) := Fin (2 ^ 64) → List (ChatStage Λ β)

/-- The fields of the application state that the routes read. The engines are there if the
detection subsystem was set up. -/
structure RouteState (Λ : Type u) (β : Type v) where
  engines : Option (Engines Λ)
  gates : AppState Λ
  aliasRegistry : Option AliasRegistry
  providerRegistry : Option (List (Text × ProviderAdapter Λ))
  cacheManager : Bool
  cachedPreProviderPipeline : Option (WaitingPipeline Λ β) := none

/-- The data of a request that is addressed to the model behind its alias. -/
def addressed (data : RequestData Λ) (transformed : Json) (resolved : ModelAlias) :
    RequestData Λ :=
  { data with
    originalRequest := (withStream transformed).setField (name "model") (.text resolved.model)
    provider := some resolved.provider
    model := some resolved.model }

/-- What the route does with a tokenized body: the request for the adapter's stream. -/
def routeStream (unicode : Unicode) (state : RouteState Λ β) (data : RequestData Λ)
    (transformed : Json) : Except Rejection Json :=
  match state.aliasRegistry with
  | none => .error (.http 503 (name "Alias registry not initialized"))
  | some aliases =>
    match aliases.resolve unicode (modelOf (withStream transformed)) with
    | none => .error (.http 400 (name "Unknown model alias"))
    | some resolved =>
      match state.providerRegistry with
      | none => .error (.http 503 (name "Provider registry not initialized"))
      | some providers =>
        match Dict.get providers resolved.provider with
        | none => .error (.http 400 (name "Unknown provider"))
        | some adapter =>
          if adapter.streaming then
            match adapter.translateRequest (addressed data transformed resolved) with
            | .error .value => .error (.http 502 (name "Provider configuration error"))
            | .error (.other typeName) => .error (.exception typeName)
            | .ok request =>
              if state.cacheManager then .ok request
              else .error (.http 503 (name "Cache manager not initialized"))
          else .error (.http 400 (name "Provider '" ++ resolved.provider ++
            name "' does not support streaming"))

/-- What the route does with the context that the pipeline returns. -/
def admitStream (unicode : Unicode) (state : RouteState Λ β) (ctx : ChatContext Λ) :
    Except Rejection Json :=
  match raiseForPipelineErrors ctx.errors with
  | some rejection => .error rejection
  | none =>
    let action := actionOf (ctx.data.classificationResult.getD [])
    if isAction action (name "BLOCK") then
      .error (.http 403 (name "Request blocked by policy"))
    else if isAction action (name "ROUTE_LOCAL") then
      .error (.http 501 (name "ROUTE_LOCAL not yet implemented"))
    else
      match ctx.data.transformedRequest with
      | none => .error (.http 503 (name "Request was not tokenized"))
      | some transformed => routeStream unicode state ctx.data transformed

/-- The pipeline of the streaming route: the cached one, or a new one. -/
def preProviderPipeline (state : RouteState Λ β) : Option (WaitingPipeline Λ β) :=
  state.cachedPreProviderPipeline.or
    (if state.cacheManager then
      state.engines.map fun engines => buildPreProviderPipeline engines none
    else none)

/-- How the streaming route ends before the stream: it is rejected, the stream of the adapter is
opened, or a cancellation leaves it. -/
inductive StreamOutcome (β : Type v) where
  | rejected (rejection : Rejection)
  | streaming (providerRequest : Json)
  | interrupted (error : β)

/-- A streaming request: its body, who sends it, the random bits of its session, and whether an
early cleanup succeeds. -/
structure StreamCall where
  body : ChatRequest
  info : RequestInfo
  randomBits : Fin (2 ^ 64)
  cleaned : Bool

/-- `_stream_chat_completions` up to the stream, and the application state after it. -/
def streamChatCompletions (unicode : Unicode) (state : RouteState Λ β) (call : StreamCall) :
    StreamOutcome β × RouteState Λ β :=
  match preProviderPipeline state with
  | none => (.rejected (.http 503 (name "Service dependencies not initialized")), state)
  | some preProvider =>
    let cached := { state with cachedPreProviderPipeline := some preProvider }
    match (run (preProvider call.randomBits) (newProcessingContext Λ call.body call.info)).1 with
    | .error error => (.interrupted error, cached)
    | .ok ctx =>
      match admitStream unicode cached ctx with
      | .ok request => (.streaming request, cached)
      | .error rejection =>
        (.rejected (if call.cleaned then rejection
          else .http 500 (name "Internal gateway error")), cached)

/-- The request is rejected before the stream of the adapter is opened. -/
def Rejected (unicode : Unicode) (state : RouteState Λ β) (call : StreamCall) : Prop :=
  ∃ rejection, (streamChatCompletions unicode state call).1 = .rejected rejection

/-! ### The states of the application -/

/-- What changes the state: a streaming request, or other gates that are installed. -/
inductive StateChange (Λ : Type u) where
  | stream (call : StreamCall)
  | install (gates : AppState Λ)

/-- The state after a change. -/
def changeState (unicode : Unicode) (state : RouteState Λ β) :
    StateChange Λ → RouteState Λ β
  | .stream call => (streamChatCompletions unicode state call).2
  | .install gates => { state with gates := gates }

/-- The state that the lifespan builds: routing and the cache are set up, no pipeline is cached
for streaming. -/
structure Built (state : RouteState Λ β) : Prop where
  aliasRegistry : state.aliasRegistry.isSome = true
  providerRegistry : state.providerRegistry.isSome = true
  cacheManager : state.cacheManager = true
  cachedPreProviderPipeline : state.cachedPreProviderPipeline = none

/-- A state of a running application: if a pipeline is cached, it is the one without an
application state. -/
structure Ready (state : RouteState Λ β) : Prop where
  aliasRegistry : state.aliasRegistry.isSome = true
  providerRegistry : state.providerRegistry.isSome = true
  cacheManager : state.cacheManager = true
  pipeline : preProviderPipeline state =
    state.engines.map fun engines => buildPreProviderPipeline engines none

theorem Built.ready {state : RouteState Λ β} (h : Built state) : Ready state where
  aliasRegistry := h.aliasRegistry
  providerRegistry := h.providerRegistry
  cacheManager := h.cacheManager
  pipeline := by
    rw [preProviderPipeline, h.cachedPreProviderPipeline, h.cacheManager]
    rfl

/-- A streaming request changes the cached pipeline at most. -/
theorem streamChatCompletions_state (unicode : Unicode) (state : RouteState Λ β)
    (call : StreamCall) :
    (streamChatCompletions unicode state call).2 =
      { state with
        cachedPreProviderPipeline :=
          (preProviderPipeline state).or state.cachedPreProviderPipeline } := by
  rw [streamChatCompletions]
  rcases preProviderPipeline state with _ | preProvider
  · rfl
  · dsimp only
    split
    · rfl
    · split <;> rfl

/-- A change keeps the state ready. -/
theorem Ready.changeState {unicode : Unicode} {state : RouteState Λ β} (h : Ready state)
    (change : StateChange Λ) : Ready (changeState unicode state change) := by
  rcases change with call | gates
  · have hpipeline := h.pipeline
    rw [Pipeline.changeState, streamChatCompletions_state]
    refine ⟨h.aliasRegistry, h.providerRegistry, h.cacheManager, ?_⟩
    rw [preProviderPipeline, hpipeline]
    rcases hengines : state.engines with _ | engines
    · rw [preProviderPipeline, hengines] at hpipeline
      simpa [h.cacheManager] using hpipeline
    · rfl
  · exact ⟨h.aliasRegistry, h.providerRegistry, h.cacheManager, h.pipeline⟩

/-- **Reachable states.** Every state that is reached from the lifespan's is ready. -/
theorem ready_exec (unicode : Unicode) {state : RouteState Λ β} (h : Built state)
    (changes : List (StateChange Λ)) : Ready (Runs.exec (changeState unicode) state changes) := by
  have halong : ∀ (state : RouteState Λ β) (changes : List (StateChange Λ)),
      Runs.Along (changeState unicode) (fun _ _ => True) state changes := by
    intro state changes
    induction changes generalizing state with
    | nil => trivial
    | cons change changes ih => exact ⟨trivial, ih _⟩
  exact Runs.Along.exec_of_step (fun state change hready _ => hready.changeState change)
    (halong state changes) h.ready

/-! ### Rejected requests -/

/-- The streaming route finds where a request for the model goes: the model is an alias, the
provider of the alias has an adapter with streams, and the adapter translates the request if there
is a body to be sent. -/
def Routable (unicode : Unicode) (state : RouteState Λ β) (model : Text) (data : RequestData Λ) :
    Prop :=
  ∃ aliases, state.aliasRegistry = some aliases ∧
    ∃ resolved, aliases.resolve unicode model = some resolved ∧
      ∃ providers, state.providerRegistry = some providers ∧
        ∃ adapter, Dict.get providers resolved.provider = some adapter ∧
          adapter.streaming = true ∧ ∀ transformed, data.transformedRequest = some transformed →
            ∃ request, adapter.translateRequest (addressed data transformed resolved) =
              .ok request

/-- A body with this model is routed if and only if the model is routable. -/
theorem routeStream_ok_iff {unicode : Unicode} {state : RouteState Λ β}
    (haliasRegistry : state.aliasRegistry.isSome = true)
    (hproviderRegistry : state.providerRegistry.isSome = true)
    (hcacheManager : state.cacheManager = true) {data : RequestData Λ} {transformed : Json}
    (htransformed : data.transformedRequest = some transformed) :
    (∃ request, routeStream unicode state data transformed = .ok request) ↔
      Routable unicode state (modelOf (withStream transformed)) data := by
  obtain ⟨aliases, haliases⟩ := Option.isSome_iff_exists.mp haliasRegistry
  obtain ⟨providers, hproviders⟩ := Option.isSome_iff_exists.mp hproviderRegistry
  simp only [routeStream, Routable, haliases, hproviders, htransformed, hcacheManager,
    Option.some.injEq, exists_eq_left', forall_eq', if_true]
  rcases aliases.resolve unicode (modelOf (withStream transformed)) with _ | resolved
  · simp
  · simp only [Option.some.injEq, exists_eq_left']
    rcases Dict.get providers resolved.provider with _ | adapter
    · simp
    · simp only [Option.some.injEq, exists_eq_left']
      split_ifs with hstreaming
      · simp only [hstreaming, true_and]
        rcases adapter.translateRequest (addressed data transformed resolved) with error | request
        · rcases error <;> simp
        · simp
      · simp [hstreaming]

/-- A context with errors is not admitted. -/
theorem admitStream_of_errors {unicode : Unicode} {state : RouteState Λ β} {ctx : ChatContext Λ}
    (h : ctx.errors ≠ []) : ¬ ∃ request, admitStream unicode state ctx = .ok request := by
  obtain ⟨rejection, hrejection⟩ : ∃ rejection,
      raiseForPipelineErrors ctx.errors = some rejection := by
    refine Option.isSome_iff_exists.mp ?_
    rw [raiseForPipelineErrors, Option.isSome_map]
    exact Option.isSome_iff_ne_none.mpr fun hnone => h (List.getLast?_eq_none_iff.mp hnone)
  rw [admitStream, hrejection]
  rintro ⟨request, hrequest⟩
  exact absurd hrequest nofun

/-- A classified request without errors is routed. -/
theorem admitStream_of_classified {unicode : Unicode} {state : RouteState Λ β}
    {ctx : ChatContext Λ} (herrors : ctx.errors = []) (hclassified : Classified ctx.data)
    {transformed : Json} (htransformed : ctx.data.transformedRequest = some transformed) :
    admitStream unicode state ctx = routeStream unicode state ctx.data transformed := by
  obtain ⟨result, hresult, hblock, hlocal⟩ := hclassified
  have hnone : raiseForPipelineErrors ctx.errors = none := by
    rw [herrors]
    rfl
  rw [admitStream, hnone]
  simp only [hresult, htransformed, Option.getD_some, hblock, hlocal, Bool.false_eq_true,
    if_false]

/-- The stream is opened if and only if the route admits what the pipeline returns. -/
theorem rejected_of_returned {unicode : Unicode} {state : RouteState Λ β} {call : StreamCall}
    {preProvider : WaitingPipeline Λ β} {ctx : ChatContext Λ}
    (hpipeline : preProviderPipeline state = some preProvider)
    (hrun : (run (preProvider call.randomBits)
      (newProcessingContext Λ call.body call.info)).1 = .ok ctx) :
    Rejected unicode state call ↔ ¬ ∃ request, admitStream unicode state ctx = .ok request := by
  -- the route does not look at the cached pipeline again
  have hcached : admitStream unicode { state with cachedPreProviderPipeline := some preProvider }
      ctx = admitStream unicode state ctx := rfl
  rw [Rejected, streamChatCompletions, hpipeline]
  dsimp only
  rw [hrun]
  dsimp only
  rw [hcached]
  rcases admitStream unicode state ctx with rejection | request
  · simp
  · simp

/-- The nodes of a request are at places. -/
theorem places_newProcessingContext (body : ChatRequest) (info : RequestInfo) :
    ∀ node ∈ (newProcessingContext Λ body info).data.textNodes,
      ∃ place : Place, node.path = place.path := by
  intro node hnode
  replace hnode : node ∈ extract body.modelDump := hnode
  obtain ⟨place, hpath, -⟩ := mem_extract_iff.mp hnode
  exact ⟨place, hpath⟩

/-- What the stages of the streaming route make of a request. -/
def streamedData (β : Type v) (engines : Engines Λ) (call : StreamCall) : RequestData Λ :=
  (executed (buildPreProviderPipeline engines none call.randomBits : List (ChatStage Λ β))
    (newProcessingContext Λ call.body call.info)).data

/-- **Rejected requests.** The streaming route rejects a request if and only if one of its stages
fails, or the request is not routable. -/
theorem rejected_iff (unicode : Unicode) {state : RouteState Λ β} (hready : Ready state)
    {engines : Engines Λ} (hengines : state.engines = some engines) (call : StreamCall) :
    Rejected unicode state call ↔
      firstFailure (buildPreProviderPipeline engines none call.randomBits :
          List (ChatStage Λ β)) (newProcessingContext Λ call.body call.info) ≠ none ∨
        ¬ Routable unicode state call.body.model (streamedData β engines call) := by
  have hpipeline : preProviderPipeline state =
      some fun randomBits => buildPreProviderPipeline engines none randomBits := by
    rw [hready.pipeline, hengines]
    rfl
  have hbase := noBaseException_buildPreProviderPipeline (β := β) engines none call.randomBits
  obtain ⟨ctx, hok⟩ := run_returns (newProcessingContext Λ call.body call.info) hbase
  rw [rejected_of_returned hpipeline hok]
  rcases hfailure : firstFailure (buildPreProviderPipeline engines none call.randomBits :
    List (ChatStage Λ β)) (newProcessingContext Λ call.body call.info) with _ | k
  · obtain ⟨hrun, herrors⟩ := run_of_firstFailure_none rfl hfailure
    rw [hrun] at hok
    obtain rfl := Except.ok.inj hok
    obtain ⟨hclassified, transformed, htransformed, hget⟩ :=
      sent_of_preProvider (places_newProcessingContext call.body call.info) hfailure
    have hmodel : modelOf (withStream transformed) = call.body.model := by
      have hstream : (withStream transformed).get (name "model") =
          some (.text call.body.model) :=
        (Json.get_setField_of_ne (by decide) _ _).trans (hget (name "model") (by decide))
      rw [modelOf, hstream]
    rw [admitStream_of_classified herrors hclassified htransformed,
      routeStream_ok_iff hready.aliasRegistry hready.providerRegistry hready.cacheManager
        htransformed, hmodel, streamedData, executed_of_firstFailure_none hfailure]
    simp only [ne_eq, not_true_eq_false, false_or]
  · -- a stage failed: its error is raised
    have herrors := (run_of_firstFailure_some rfl hfailure hok).2
    have hne : ctx.errors ≠ [] := herrors ▸ appliedAll_errors_ne_nil hbase hfailure
    exact iff_of_true (admitStream_of_errors hne) (Or.inl (Option.some_ne_none k))

/-- Without engines every request is rejected. -/
theorem rejected_of_no_engines (unicode : Unicode) {state : RouteState Λ β}
    (hready : Ready state) (hengines : state.engines = none) (call : StreamCall) :
    Rejected unicode state call := by
  have hpipeline : preProviderPipeline state = none := by
    rw [hready.pipeline, hengines]
    rfl
  rw [Rejected, streamChatCompletions, hpipeline]
  exact ⟨_, rfl⟩

/-! ### The same request on both routes -/

/-- The request, sent with this `stream` flag. -/
def StreamCall.flagged (call : StreamCall) (stream : Bool) : StreamCall :=
  { call with
    body := { call.body with stream := stream } }

/-- The context that a route makes of a request. -/
def StreamCall.context (Λ : Type u) (call : StreamCall) : ChatContext Λ :=
  newProcessingContext Λ call.body call.info

/-- The two routes start from the same data, up to the `stream` flag. -/
theorem sameReading_context (call : StreamCall) :
    SameReading ((call.flagged false).context Λ).data ((call.flagged true).context Λ).data := by
  have hdump : (call.flagged true).body.modelDump =
      withStream (call.flagged false).body.modelDump := rfl
  have hnodes : extract (withStream (call.flagged false).body.modelDump) =
      extract (call.flagged false).body.modelDump := by
    rw [extract, extract, withStream, Json.get_setField_of_ne (by decide)]
  simp only [SameReading, asStreamed, StreamCall.context, newProcessingContext, hdump, hnodes]
  rfl

/-- The other route stops the request in front of the provider stage: an error is recorded in an
earlier stage, and the provider stage is never executed. Without engines there is no pipeline. -/
def StoppedBeforeProvider (unicode : Unicode) (post : Json → Except StageError Json)
    (afterwards : List (ChatStage Λ β)) (state : RouteState Λ β) (call : StreamCall) : Prop :=
  ∀ engines, state.engines = some engines →
    let stages := buildPipeline engines (some state.gates) call.randomBits
      (providerStage unicode state.aliasRegistry post) afterwards
    (∃ stopped, (run (stages.take providerIndex) (call.context Λ)).1 = .ok stopped ∧
      stopped.errors ≠ []) ∧ providerIndex ∉ (run stages (call.context Λ)).2

theorem stoppedBeforeProvider_iff (unicode : Unicode) (post : Json → Except StageError Json)
    (afterwards : List (ChatStage Λ β)) {state : RouteState Λ β} {engines : Engines Λ}
    (hengines : state.engines = some engines) (call : StreamCall) :
    StoppedBeforeProvider unicode post afterwards state call ↔
      firstFailure (buildPreProviderPipeline engines (some state.gates) call.randomBits :
        List (ChatStage Λ β)) (call.context Λ) ≠ none := by
  have htake : (buildPipeline engines (some state.gates) call.randomBits
      (providerStage unicode state.aliasRegistry post) afterwards).take providerIndex =
      buildPreProviderPipeline engines (some state.gates) call.randomBits := rfl
  have hbase := noBaseException_buildPreProviderPipeline (β := β) engines (some state.gates)
    call.randomBits
  rw [← htake] at hbase
  have hlater : ¬ guaranteedAt (buildPipeline engines (some state.gates) call.randomBits
      (providerStage unicode state.aliasRegistry post) afterwards) providerIndex :=
    not_guaranteedAt_provider engines state.gates call.randomBits _ rfl afterwards false
  have herrors : (call.context Λ).errors = [] := rfl
  have hstopped := stopped_iff hbase le_rfl hlater herrors
  rw [htake] at hstopped
  rw [StoppedBeforeProvider, hengines]
  simp only [Option.some.injEq, forall_eq', htake]
  exact hstopped

/-- The request is not routable on the streaming route. -/
def Unroutable (unicode : Unicode) (state : RouteState Λ β) (call : StreamCall) : Prop :=
  ∃ engines, state.engines = some engines ∧
    ¬ Routable unicode state call.body.model (streamedData β engines call)

/-- What the stages of the other route make of a request, up to the provider. -/
def plainData (β : Type v) (engines : Engines Λ) (gates : AppState Λ) (call : StreamCall) :
    RequestData Λ :=
  (executed (buildPreProviderPipeline engines (some gates) call.randomBits :
    List (ChatStage Λ β)) (call.context Λ)).data

/-- **The two routes.** In every state that streaming requests and the installation of gates lead
to, a request that is rejected with `stream` set is stopped before the provider without it, or is
not routable, and what is not routable is rejected. Where the gates let the request through, one
that is stopped without `stream` is rejected with it, and both routes make the same body, up to
the `stream` flag. -/
theorem stream_agrees (unicode : Unicode) {built : RouteState Λ β} (hbuilt : Built built)
    (changes : List (StateChange Λ)) (post : Json → Except StageError Json)
    (afterwards : List (ChatStage Λ β)) (call : StreamCall) :
    let state := Runs.exec (changeState unicode) built changes
    let plain := call.flagged false
    let streamed := call.flagged true
    (Rejected unicode state streamed →
      StoppedBeforeProvider unicode post afterwards state plain ∨
        Unroutable unicode state streamed) ∧
    (Unroutable unicode state streamed → Rejected unicode state streamed) ∧
    ((∀ engines, state.engines = some engines →
        GatesPass β engines state.gates (plain.context Λ)) →
      (StoppedBeforeProvider unicode post afterwards state plain →
        Rejected unicode state streamed) ∧
      ∀ engines, state.engines = some engines →
        (streamedData β engines streamed).transformedRequest =
          (plainData β engines state.gates plain).transformedRequest.map withStream) := by
  intro state plain streamed
  have hready : Ready state := ready_exec unicode hbuilt changes
  rcases hengines : state.engines with _ | engines
  · -- neither route has a pipeline
    have hnone : ∀ engines : Engines Λ, (none : Option (Engines Λ)) = some engines → False :=
      fun _ => nofun
    have hstopped : StoppedBeforeProvider unicode post afterwards state plain :=
      fun engines h => (hnone engines (hengines.symm.trans h)).elim
    have hrejected := rejected_of_no_engines unicode hready hengines streamed
    exact ⟨fun _ => Or.inl hstopped, fun _ => hrejected,
      fun _ => ⟨fun _ => hrejected, fun engines h => (hnone engines h).elim⟩⟩
  · have hrejected := rejected_iff unicode hready hengines streamed
    have hstopped := stoppedBeforeProvider_iff unicode post afterwards hengines plain
    have hunroutable : Unroutable unicode state streamed ↔
        ¬ Routable unicode state streamed.body.model (streamedData β engines streamed) := by
      simp only [Unroutable, hengines, Option.some.injEq, exists_eq_left']
    obtain ⟨hstops, hagrees⟩ := preProvider_agrees (β := β) engines state.gates call.randomBits
      (sameReading_context call) (places_newProcessingContext _ _) rfl
    rw [hrejected, hstopped, hunroutable]
    refine ⟨Or.imp_left hstops, Or.inr, fun hpass => ?_⟩
    obtain ⟨hfailure, hbody⟩ := hagrees (hpass engines rfl)
    refine ⟨fun h => Or.inl (hfailure ▸ h), ?_⟩
    rintro _ ⟨⟩
    exact hbody

/-- An adapter with streams, which sends the request as it is. -/
def sampleAdapter : ProviderAdapter Unit where
  streaming := true
  translateRequest data := .ok data.originalRequest

/-- The state at the start, with the alias `gpt-4` and no gate installed. -/
def sampleRouteState : RouteState Unit Empty where
  engines := some sampleEngines
  gates := {}
  aliasRegistry := some sampleAliases
  providerRegistry := some [(name "openai", sampleAdapter)]
  cacheManager := true

theorem built_sampleRouteState : Built sampleRouteState := ⟨rfl, rfl, rfl, rfl⟩

/-- A request for a model, with one message. -/
def sampleCall (model : Text) : StreamCall where
  body := { sampleTextRequest with model := model }
  info := { contextId := name "c" }
  randomBits := 0
  cleaned := true

theorem stream_agrees_sampleCall : Built sampleRouteState ∧
    (streamedData Empty sampleEngines
        ((sampleCall (name "gpt-4")).flagged true)).transformedRequest =
      (plainData Empty sampleEngines {}
        ((sampleCall (name "gpt-4")).flagged false)).transformedRequest.map withStream := by
  have hpass : ∀ engines, some sampleEngines = some engines → GatesPass Empty engines {}
      (((sampleCall (name "gpt-4")).flagged false).context Unit) := by
    rintro _ ⟨⟩ -
    rfl
  obtain ⟨-, -, hagrees⟩ := stream_agrees Unicode.ascii built_sampleRouteState [.install {}]
    (fun _ => .ok .null) [] (sampleCall (name "gpt-4"))
  exact ⟨built_sampleRouteState, (hagrees hpass).2 sampleEngines rfl⟩

/-- A request for an unknown model is rejected with `stream` set, but not stopped before the
provider stage without it: that stage is the one to look up the alias. -/
theorem not_stopped_iff_rejected : Built sampleRouteState ∧
    ¬ (StoppedBeforeProvider Unicode.ascii (fun _ => .ok .null) [] sampleRouteState
        ((sampleCall (name "gpt-5")).flagged false) ↔
      Rejected Unicode.ascii sampleRouteState ((sampleCall (name "gpt-5")).flagged true)) := by
  refine ⟨built_sampleRouteState, fun h => ?_⟩
  have hrejected : Rejected Unicode.ascii sampleRouteState
      ((sampleCall (name "gpt-5")).flagged true) := by
    refine (rejected_iff Unicode.ascii built_sampleRouteState.ready rfl _).mpr (Or.inr ?_)
    rintro ⟨aliases, haliases, resolved, hresolved, -⟩
    obtain rfl := Option.some.inj haliases
    have hunknown : sampleAliases.resolve Unicode.ascii (name "gpt-5") = none := by decide +kernel
    exact Option.some_ne_none resolved (hresolved.symm.trans hunknown)
  have hstopped := (stoppedBeforeProvider_iff Unicode.ascii (fun _ => .ok .null) [] rfl
    ((sampleCall (name "gpt-5")).flagged false)).mp (h.mpr hrejected)
  exact hstopped (by decide +kernel)

end AnonReq.Pipeline
