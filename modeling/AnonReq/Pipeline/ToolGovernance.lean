import AnonReq.Pipeline.Stages

/-!
# Can tool governance be bypassed?

Whether the chat route stops a request that carries a tool which the policies of its provider
deny. The tool stage runs before the provider stage, which is the first to name the provider, and
it takes every dumped request for OpenAI's format. A streamed request is given to the stages in
front of the provider alone, without the application state: the policy, DLP and tool stages then
find no collaborator to ask, and let it pass.

* `routePipeline`: the stages that the route runs on a request.
* `governed_iff_stopped`: a request is governed if and only if an earlier stage stops it, or it is
  not streamed and the evaluator refuses one of its OpenAI calls for the provider `unknown`.
* `governed_iff`: when the promise about denied tools is kept.
* `fails_iff_malformed`: with the policies of a configuration that names no provider `unknown`,
  and the default permissions, the tool stage refuses only malformed calls.
-/

namespace AnonReq.Pipeline

open Governance (PdpToolEvaluator Loads)

universe u v

variable {Λ : Type u} {β : Type v}

/-! ### The place of the tool stage -/

/-- The stages in front of the tool stage. -/
def earlierStages (engines : Engines Λ) (appState : Option (AppState Λ)) :
    List (ChatStage Λ β) :=
  prepareStages engines ++ [policyEnforcementStage appState, inboundDlpStage appState]

/-- The index of the tool stage, and that of the provider stage. -/
def toolIndex : ℕ := 6

def providerIndex : ℕ := 9

/-- The stages that the route runs: `build_pre_provider_pipeline` without the application state for
a streamed request, whose provider is asked behind them, and `build_pipeline` for any other. -/
def routePipeline (engines : Engines Λ) (appState : AppState Λ) (randomBits : Fin (2 ^ 64))
    (provider : ChatStage Λ β) (afterwards : List (ChatStage Λ β)) (stream : Bool) :
    List (ChatStage Λ β) :=
  if stream then buildPreProviderPipeline engines none randomBits
  else buildPipeline engines (some appState) randomBits provider afterwards

/-- The application state that the gates of these stages ask. -/
def gatesOf (appState : AppState Λ) (stream : Bool) : Option (AppState Λ) :=
  if stream then none else some appState

theorem take_routePipeline (engines : Engines Λ) (appState : AppState Λ)
    (randomBits : Fin (2 ^ 64)) (provider : ChatStage Λ β) (afterwards : List (ChatStage Λ β))
    (stream : Bool) :
    (routePipeline engines appState randomBits provider afterwards stream).take (toolIndex + 1) =
      earlierStages engines (gatesOf appState stream) ++
        [toolGovernanceStage engines.loads (gatesOf appState stream)] := by
  cases stream <;> rfl

/-- The provider stage, if there is one, is skipped after a failure. -/
theorem not_guaranteedAt_provider (engines : Engines Λ) (appState : AppState Λ)
    (randomBits : Fin (2 ^ 64)) (provider : ChatStage Λ β) (h : provider.guaranteed = false)
    (afterwards : List (ChatStage Λ β)) (stream : Bool) :
    ¬ guaranteedAt (routePipeline engines appState randomBits provider afterwards stream)
      providerIndex := by
  rintro ⟨s, hs, hguaranteed⟩
  cases stream with
  | false =>
    have hprovider : (routePipeline engines appState randomBits provider afterwards
      false)[providerIndex]? = some provider := rfl
    obtain rfl := Option.some.inj (hprovider.symm.trans hs)
    exact absurd (h.symm.trans hguaranteed) (by decide)
  | true =>
    have hnone : (routePipeline engines appState randomBits provider afterwards
      true)[providerIndex]? = none := rfl
    exact Option.some_ne_none s (hs.symm.trans hnone)

theorem proper_earlierStages (engines : Engines Λ) (appState : Option (AppState Λ)) :
    ∀ s ∈ (earlierStages engines appState : List (ChatStage Λ β)), Proper s := by
  intro s hs
  obtain hs | hs := List.mem_append.mp hs
  · exact proper_prepareStages engines s hs
  · obtain rfl | hs := List.mem_cons.mp hs
    · exact proper_policyEnforcementStage appState
    · obtain rfl := List.mem_singleton.mp hs
      exact proper_inboundDlpStage appState

/-- No cancellation leaves the stages up to the tool stage. -/
theorem noBaseException_take (engines : Engines Λ) (appState : Option (AppState Λ)) :
    NoBaseException (earlierStages engines appState ++
      [toolGovernanceStage engines.loads appState] : List (ChatStage Λ β)) := by
  intro s hs
  obtain hs | hs := List.mem_append.mp hs
  · exact fun ctx => (proper_earlierStages engines appState s hs ctx).2
  · obtain rfl := List.mem_singleton.mp hs
    exact fun ctx => (proper_toolGovernanceStage engines.loads appState ctx).2

/-! ### The promise -/

/-- A message carries a tool: an OpenAI entry calls it, or an Anthropic block uses it. -/
inductive Carries (message : ChatMessage) (toolName : Text) : Prop where
  | openai {entry : Fields} (hentry : entry ∈ message.toolCalls.getD [])
      (hcalls : Governance.Calls entry toolName)
  | anthropic {blocks : List Fields} (hcontent : message.content = some (.other blocks))
      {block : Fields} (hblock : block ∈ blocks)
      (huse : Governance.isToolUse (.object block) = true)
      (hname : Governance.textField (.object block) (name "name") = some toolName)

/-- A policy that is to stop a call. -/
def Stops (policy : Governance.ToolPolicy) : Prop :=
  policy.permission = .block ∨ policy.permission = .requireHumanApproval

/-- A message of the request carries a tool that is denied to the provider its model resolves to,
in the domain that the header asks for. -/
def Denied (unicode : Unicode) (L : LowerCase) (registry : AliasRegistry) (E : PdpToolEvaluator)
    (domainHeader : Option Text) (request : ChatRequest) : Prop :=
  ∃ resolved, registry.resolve unicode request.model = some resolved ∧
    ∃ message ∈ request.messages, ∃ toolName, Carries message toolName ∧
      ∃ policy, Governance.getPolicy E.policies resolved.provider
        (Governance.detectDomain L domainHeader) toolName = some policy ∧ Stops policy

/-- A run is governed: an error is recorded in the tool stage or before it, and the provider stage
is never executed. -/
def Governed (stages : List (ChatStage Λ β)) (ctx : ChatContext Λ) : Prop :=
  (∃ stopped, (run (stages.take (toolIndex + 1)) ctx).1 = .ok stopped ∧ stopped.errors ≠ []) ∧
    providerIndex ∉ (run stages ctx).2

/-! ### When it is kept -/

section

variable (engines : Engines Λ) (appState : AppState Λ) (E : PdpToolEvaluator)
  (request : ChatRequest) (info : RequestInfo) (randomBits : Fin (2 ^ 64))

/-- The application state with the evaluator installed. -/
def withEvaluator : AppState Λ := { appState with toolEvaluator := some E }

/-- One of the earlier stages stops the request. A streamed one meets neither a policy decision
point nor a DLP engine there. -/
def StoppedEarlier : Prop :=
  firstFailure (earlierStages engines (gatesOf (withEvaluator appState E) request.stream) :
    List (ChatStage Λ β)) (newProcessingContext Λ request info) ≠ none

/-- The tool stage fails, or a stage before it, if and only if one of the earlier stages stops the
request, or it is not streamed and the evaluator refuses it for the provider `unknown`. -/
theorem firstFailure_take_ne_none_iff :
    firstFailure (earlierStages engines (gatesOf (withEvaluator appState E) request.stream) ++
        [toolGovernanceStage engines.loads (gatesOf (withEvaluator appState E) request.stream)] :
        List (ChatStage Λ β)) (newProcessingContext Λ request info) ≠ none ↔
      StoppedEarlier (β := β) engines appState E request info ∨
        request.stream = false ∧ Refuses engines.loads E (name "unknown") request := by
  rw [firstFailure_append, StoppedEarlier]
  rcases hearlier : firstFailure
    (earlierStages engines (gatesOf (withEvaluator appState E) request.stream) :
      List (ChatStage Λ β)) (newProcessingContext Λ request info) with _ | k
  · obtain ⟨-, herrors⟩ := run_of_firstFailure_none rfl hearlier
    have hfails : fails (toolGovernanceStage engines.loads
          (gatesOf (withEvaluator appState E) request.stream) : ChatStage Λ β)
        (appliedAll (earlierStages (β := β) engines
          (gatesOf (withEvaluator appState E) request.stream))
          (newProcessingContext Λ request info)) = true ↔
        request.stream = false ∧ Refuses engines.loads E (name "unknown") request := by
      cases hstream : request.stream with
      -- without the application state there is no evaluator to ask
      | true => simp [gatesOf, toolGovernanceStage, stage, fails, Outcome.done]
      | false =>
        rw [hstream] at herrors
        have hframed := framed_appliedAll
          (proper_earlierStages (β := β) engines (some (withEvaluator appState E)))
          (newProcessingContext Λ request info)
        have hevaluator : (withEvaluator appState E).toolEvaluator = some E := rfl
        have hunknown : lookedUp (newProcessingContext Λ request info).data.provider =
          name "unknown" := rfl
        rw [and_iff_right rfl, ← hunknown, ← hframed.provider]
        exact fails_toolGovernanceStage_iff hevaluator herrors hframed.originalRequest
    rw [← hfails, firstFailure]
    split_ifs with hstops <;> simp [hstops, firstFailure]
  · simp

/-- **Governed requests.** The route governs a request if and only if one of the earlier stages
stops it, or it is not streamed and the evaluator refuses one of its OpenAI calls for the provider
`unknown`. -/
theorem governed_iff_stopped (provider : ChatStage Λ β) (hprovider : provider.guaranteed = false)
    (afterwards : List (ChatStage Λ β)) :
    Governed (routePipeline engines (withEvaluator appState E) randomBits provider afterwards
        request.stream) (newProcessingContext Λ request info) ↔
      StoppedEarlier (β := β) engines appState E request info ∨
        request.stream = false ∧ Refuses engines.loads E (name "unknown") request := by
  have hbase := noBaseException_take (β := β) engines
    (gatesOf (withEvaluator appState E) request.stream)
  rw [← take_routePipeline engines _ randomBits provider afterwards] at hbase
  have hlater := not_guaranteedAt_provider engines (withEvaluator appState E) randomBits
    provider hprovider afterwards request.stream
  rw [Governed, stopped_iff hbase (by decide) hlater rfl, take_routePipeline]
  exact firstFailure_take_ne_none_iff engines appState E request info

/-- **Tool governance.** That a denied tool is governed holds of a request if and only if it
carries no denied tool, one of the earlier stages stops it, or it is not streamed and one of its
OpenAI calls is malformed or blocked for the provider `unknown`. -/
theorem governed_iff (unicode : Unicode) (L : LowerCase) (registry : AliasRegistry)
    (post : Json → Except StageError Json) (domainHeader : Option Text)
    (afterwards : List (ChatStage Λ β)) :
    (Denied unicode L registry E domainHeader request →
        Governed (routePipeline engines (withEvaluator appState E) randomBits
          (providerStage unicode (some registry) post) afterwards request.stream)
          (newProcessingContext Λ request info)) ↔
      ¬ Denied unicode L registry E domainHeader request ∨
        StoppedEarlier (β := β) engines appState E request info ∨
          request.stream = false ∧ Refuses engines.loads E (name "unknown") request := by
  rw [governed_iff_stopped engines appState E request info randomBits _ rfl, imp_iff_not_or]

end

/-- Engines that let everything through; the decoder knows the empty dictionary. -/
def sampleEngines : Engines Unit where
  classify _ := [(name "action", .text (name "ANONYMIZE"))]
  negotiate _ := .ok ⟨(), [], false⟩
  detect _ _ := .ok []
  classifySensitivity _ _ := .ok ⟨name "PUBLIC", [], name "allow_and_anonymize"⟩
  defaultAction := []
  loads raw := if raw = name "\x7b\x7d" then .ok (.object []) else .error .decode
  storeMapping _ _ _ := none

/-- The tool `shell` is blocked for `openai`. -/
def sampleToolEvaluator : PdpToolEvaluator where
  policies := [(Governance.policyKey (name "openai") (name "model"),
    { provider := name "openai", tools := [⟨name "shell", .block, none⟩] })]

/-- The alias `gpt-4` stands for a model of `openai`. -/
def sampleAliases : AliasRegistry := ⟨[(name "gpt-4", ⟨name "openai", name "gpt-4o"⟩)]⟩

/-- A call of `shell`. -/
def sampleToolEntry : Fields :=
  [(name "id", .text (name "call_1")),
   (name "function", .object [(name "name", .text (name "shell"))])]

theorem not_malformed_sampleToolEntry :
    ¬ Governance.Malformed sampleEngines.loads sampleToolEntry := by
  have hok : Governance.openaiCall sampleEngines.loads (.object sampleToolEntry) =
      .ok (some { name := name "shell", arguments := .object [], format := .openai }) := rfl
  obtain ⟨-, error, herror⟩ | ⟨hformed, -⟩ :=
    Governance.openaiCall_cases sampleEngines.loads sampleToolEntry
  · exact absurd (hok.symm.trans herror) nofun
  · exact hformed

/-- A message that calls `shell`. -/
def sampleToolMessage : ChatMessage where
  role := .assistant
  toolCalls := some [sampleToolEntry]

/-- A request for `gpt-4` with that message. -/
def sampleToolRequest : ChatRequest where
  model := name "gpt-4"
  messages := [sampleToolMessage]

/-- A call of `shell` for `gpt-4` is denied, and is not governed. -/
theorem not_governed :
    ¬ (Denied Unicode.ascii ⟨id, fun _ => rfl⟩ sampleAliases sampleToolEvaluator none
        sampleToolRequest →
      Governed (β := Empty) (routePipeline sampleEngines
        (withEvaluator ({} : AppState Unit) sampleToolEvaluator) 0
        (providerStage Unicode.ascii (some sampleAliases) fun _ => .ok .null) []
        sampleToolRequest.stream)
        (newProcessingContext Unit sampleToolRequest ⟨[], [], none, none, []⟩)) := by
  intro h
  have hcalls : Governance.Calls sampleToolEntry (name "shell") := ⟨_, rfl, rfl⟩
  have hdenied : Denied Unicode.ascii ⟨id, fun _ => rfl⟩ sampleAliases sampleToolEvaluator none
      sampleToolRequest :=
    ⟨⟨name "openai", name "gpt-4o"⟩, by decide +kernel, sampleToolMessage, List.mem_cons_self,
      name "shell", .openai List.mem_cons_self hcalls,
      ⟨name "shell", .block, none⟩, rfl, Or.inl rfl⟩
  obtain hearlier | ⟨-, message, hmessage, entry, hentry, hrefuses⟩ :=
    (governed_iff_stopped sampleEngines {} sampleToolEvaluator sampleToolRequest _ 0 _ rfl []).mp
      (h hdenied)
  · exact hearlier (by decide +kernel)
  · obtain rfl := List.mem_singleton.mp hmessage
    obtain rfl := List.mem_singleton.mp hentry
    obtain hmalformed | ⟨toolName, -, hblocks⟩ := hrefuses
    · exact not_malformed_sampleToolEntry hmalformed
    · have hnone : Governance.getPolicy sampleToolEvaluator.policies (name "unknown")
        (name "model") toolName = none := rfl
      obtain ⟨-, hcrosses⟩ | ⟨policy, hpolicy, -⟩ | ⟨-, hblock⟩ := hblocks
      · exact absurd hcrosses (by decide)
      · exact Option.some_ne_none policy (hpolicy.symm.trans hnone)
      · have hallowed : sampleToolEvaluator.unlistedPermission toolName (name "unknown") =
          .allow := rfl
        exact absurd (hallowed.symm.trans hblock) (by decide)

/-! ### Configured policies -/

/-- A tool without policies has no risk level. -/
theorem getToolRiskLevel_eq_none {E : PdpToolEvaluator} {provider : Text}
    (h : ∀ domain ∈ [name "model", name "host"],
      Governance.getProviderPolicy E.policies provider domain = none) (toolName : Text) :
    E.getToolRiskLevel toolName provider = none := by
  obtain ⟨hmodel, hhost⟩ := List.forall_mem_cons.mp h
  have hhost := List.forall_mem_singleton.mp hhost
  simp [PdpToolEvaluator.getToolRiskLevel, Governance.getPolicy, hmodel, hhost]

/-- With the policies of a configuration that names no provider `unknown`, and tools without a
policy allowed, the evaluator refuses malformed calls and nothing else. -/
theorem refuses_iff_malformed {L : LowerCase} {policyYaml : Json} {E : PdpToolEvaluator}
    (hparse : Governance.parse L policyYaml = .ok E.policies)
    (hunknown : name "unknown" ∉ Governance.providerNames policyYaml)
    (hdefault : E.defaultUnlisted ≠ .block) (loads : Loads) (request : ChatRequest) :
    Refuses loads E (name "unknown") request ↔ ∃ message ∈ request.messages,
      ∃ entry ∈ message.toolCalls.getD [], Governance.Malformed loads entry := by
  have hpolicies : ∀ domain ∈ [name "model", name "host"],
      Governance.getProviderPolicy E.policies (name "unknown") domain = none := by
    intro domain hdomain
    refine Governance.getProviderPolicy_parse_eq_none hparse ?_ hunknown
    obtain rfl | hdomain := List.mem_cons.mp hdomain
    · decide
    · obtain rfl := List.mem_singleton.mp hdomain
      decide
  have hblocks : ∀ toolName, ¬ E.Blocks (name "unknown") (name "model") toolName := by
    rintro toolName (⟨-, hcrosses⟩ | ⟨policy, hpolicy, -⟩ | ⟨-, hblock⟩)
    · exact absurd hcrosses (by decide)
    · simp [Governance.getPolicy, hpolicies _ List.mem_cons_self] at hpolicy
    · rw [PdpToolEvaluator.unlistedPermission, getToolRiskLevel_eq_none hpolicies] at hblock
      exact hdefault hblock
  refine exists_congr fun message => and_congr_right fun _ => exists_congr fun entry =>
    and_congr_right fun _ => or_iff_left ?_
  rintro ⟨toolName, -, h⟩
  exact hblocks toolName h

/-- **Configured policies.** With such a configuration the tool stage fails on a request if and only
if one of its OpenAI calls is malformed, whatever the policies of the other providers say. -/
theorem fails_iff_malformed {L : LowerCase} {policyYaml : Json} {E : PdpToolEvaluator}
    (hparse : Governance.parse L policyYaml = .ok E.policies)
    (hunknown : name "unknown" ∉ Governance.providerNames policyYaml)
    (hdefault : E.defaultUnlisted ≠ .block) (loads : Loads) (appState : AppState Λ)
    {request : ChatRequest} {ctx : ChatContext Λ} (herrors : ctx.errors = [])
    (hrequest : ctx.data.originalRequest = request.modelDump)
    (hprovider : ctx.data.provider = none) :
    fails (toolGovernanceStage loads (some (withEvaluator appState E)) : ChatStage Λ β) ctx = true ↔
      ∃ message ∈ request.messages, ∃ entry ∈ message.toolCalls.getD [],
        Governance.Malformed loads entry := by
  have hevaluator : (withEvaluator appState E).toolEvaluator = some E := rfl
  rw [fails_toolGovernanceStage_iff hevaluator herrors hrequest, hprovider]
  exact refuses_iff_malformed hparse hunknown hdefault loads request

/-- A configuration that blocks `shell` for `openai`. -/
def samplePolicyYaml : Json :=
  .object [(name "providers", .object [(name "openai", .object [(name "tools", .list
    [.object [(name "name", .text (name "shell")), (name "permission", .text (name "block"))]])])])]

/-- The tool stage lets the call of `shell` pass. -/
theorem fails_iff_malformed_shell :
    ¬ fails (toolGovernanceStage sampleEngines.loads
        (some (withEvaluator ({} : AppState Unit) sampleToolEvaluator)) : ChatStage Unit Empty)
      (newProcessingContext Unit sampleToolRequest ⟨[], [], none, none, []⟩) = true := by
  have hparse : Governance.parse ⟨id, fun _ => rfl⟩ samplePolicyYaml =
      .ok sampleToolEvaluator.policies := rfl
  rw [fails_iff_malformed hparse (by decide) (by decide) _ _ rfl rfl rfl]
  rintro ⟨message, hmessage, entry, hentry, hmalformed⟩
  obtain rfl := List.mem_singleton.mp hmessage
  obtain rfl := List.mem_singleton.mp hentry
  exact not_malformed_sampleToolEntry hmalformed

end AnonReq.Pipeline
