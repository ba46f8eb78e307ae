import AnonReq.Governance.ToolExtractor
import AnonReq.Pipeline.Context

/-!
# The tool evaluator

`PDPToolEvaluator.evaluate` of `governance/pdp_tool_evaluator.py`: the decision on a tool call, and
what it leaves in the context.

* `evaluate_cases`: a call is blocked if and only if the evaluator `Blocks` its tool for the
  provider and the domain; any other call at most marks the context for approval.
-/

namespace AnonReq.Governance

open Pipeline (name Fields ChatContext StageError)

universe u

variable {Λ : Type u}

/-- `ToolDecision`. -/
structure ToolDecision where
  permission : ToolPermission
  toolName : Text
  provider : Text
  domain : Text := name "model"
  riskLevel : Option ToolRiskLevel := none
  reason : Option Text := none
  audit : Fields := []
  credentialContext : Option Text := none

/-- `PDPToolEvaluator`. -/
structure PdpToolEvaluator where
  policies : ToolPolicies
  defaultUnlisted : ToolPermission := .allow
  defaultCritical : ToolPermission := .requireHumanApproval
  strictDomainIsolation : Bool := true

/-- A text that is there and not empty. -/
def nonEmpty (text : Option Text) : Option Text := text.filter fun s => decide (s ≠ [])

/-- `tool_call.provider or context.provider or "unknown"`. -/
def providerOf (call : ToolCall) (ctx : ChatContext Λ) : Text :=
  ((nonEmpty call.provider).or (nonEmpty ctx.data.provider)).getD (name "unknown")

/-- The domain and the provider of a call do not belong together. -/
def CrossesDomains (domain provider : Text) : Prop :=
  (domain = name "model" ∧ provider = name "host_mcp") ∨
    (domain = name "host" ∧
      provider ∈ [name "openai", name "anthropic", name "gemini"])

instance (domain provider : Text) : Decidable (CrossesDomains domain provider) := by
  unfold CrossesDomains
  infer_instance

/-- `_check_domain_isolation`: the text of the violation. -/
def checkDomainIsolation (domain toolName provider : Text) : Option Text :=
  if CrossesDomains domain provider then
    some (name "Cross-domain isolation: " ++ domain ++ name " domain tool call '" ++ toolName ++
      (if domain = name "model" then name "' targets host provider '"
        else name "' targets model provider '") ++ provider ++ name "'")
  else none

/-- `_check_credential_isolation`. A delegation id is a text. -/
def checkCredentialIsolation (call : ToolCall) (auditMetadata : Fields) : Option Text :=
  match call.credentialContext, Dict.get auditMetadata (name "delegation_id") with
  | some credential, some (.text session) =>
    if credential = session then none
    else some (name "Cross-delegation credential isolation: tool call credential context '" ++
      credential ++ name "' does not match session delegation '" ++ session ++ name "'")
  | _, _ => none

namespace PdpToolEvaluator

/-- `_get_tool_risk_level`: that of the tool's policy, or the provider's classification. -/
def getToolRiskLevel (E : PdpToolEvaluator) (toolName provider : Text) : Option ToolRiskLevel :=
  let domains := [name "model", name "host"]
  (domains.findSome? fun domain =>
    (getPolicy E.policies provider domain toolName).bind ToolPolicy.riskLevel).or <|
  domains.findSome? fun domain =>
    (getProviderPolicy E.policies provider domain).bind fun policy =>
      policy.riskClassification.bind fun levels => Dict.get levels toolName

/-- The permission of a tool without a policy. -/
def unlistedPermission (E : PdpToolEvaluator) (toolName provider : Text) : ToolPermission :=
  if E.getToolRiskLevel toolName provider = some .critical then E.defaultCritical
  else E.defaultUnlisted

/-- The permission of a tool and its risk level, before isolation. -/
def permissionOf (E : PdpToolEvaluator) (provider domain toolName : Text) :
    ToolPermission × Option ToolRiskLevel :=
  let riskLevel := E.getToolRiskLevel toolName provider
  match getPolicy E.policies provider domain toolName with
  | some policy => (policy.permission, policy.riskLevel.or riskLevel)
  | none => (E.unlistedPermission toolName provider, riskLevel)

/-- What a decision says about a permission. -/
def reasonOf (toolName : Text) : ToolPermission → Text
  | .block => name "Tool '" ++ toolName ++ name "' is blocked by policy"
  | .requireHumanApproval => name "Tool '" ++ toolName ++ name "' requires human approval"
  | .allowWithAudit => name "Tool '" ++ toolName ++ name "' allowed with audit"
  | .allow => name "Tool '" ++ toolName ++ name "' allowed"

/-- The audited action of a permission. -/
def auditAction : ToolPermission → Text
  | .block => name "blocked"
  | .requireHumanApproval => name "approval_required"
  | .allowWithAudit => name "allowed_with_audit"
  | .allow => name "allowed"

/-- A decision by policy. -/
def policyDecision (E : PdpToolEvaluator) (provider domain toolName : Text) : ToolDecision :=
  let decided := E.permissionOf provider domain toolName
  { permission := decided.1
    toolName := toolName
    provider := provider
    domain := domain
    riskLevel := decided.2
    reason := some (reasonOf toolName decided.1)
    audit :=
      [(name "tool", .text toolName),
       (name "provider", .text provider),
       (name "domain", .text domain),
       (name "action", .text (auditAction decided.1)),
       (name "risk_level", .text ((decided.2.map ToolRiskLevel.value).getD (name "unknown")))] }

/-- A decision by isolation. -/
def isolationDecision (provider domain toolName reason : Text) (audit : Fields) : ToolDecision where
  permission := .block
  toolName := toolName
  provider := provider
  domain := domain
  reason := some reason
  audit := audit

/-- `evaluate`: the decision, and the context after it. -/
def evaluate (E : PdpToolEvaluator) (call : ToolCall) (ctx : ChatContext Λ) :
    ToolDecision × ChatContext Λ :=
  let provider := providerOf call ctx
  let crossing :=
    if E.strictDomainIsolation then checkDomainIsolation call.domain call.name provider else none
  match crossing, checkCredentialIsolation call ctx.data.auditMetadata with
  | some reason, _ =>
    (isolationDecision provider call.domain call.name reason
      [(name "domain", .text call.domain), (name "provider", .text provider),
       (name "tool", .text call.name), (name "action", .text (name "blocked_cross_domain"))],
      ctx.failSecure (.toolBlocked reason))
  | none, some reason =>
    (isolationDecision provider call.domain call.name reason
      [(name "tool", .text call.name), (name "provider", .text provider),
       (name "action", .text (name "blocked_cross_delegation_credential_leak"))],
      ctx.failSecure (.toolBlocked reason))
  | none, none =>
    let decision := E.policyDecision provider call.domain call.name
    match decision.permission with
    | .block => (decision, ctx.failSecure (.toolBlocked (reasonOf call.name .block)))
    | .requireHumanApproval =>
      (decision, { ctx with data := { ctx.data with requiresApproval := true } })
    | .allowWithAudit | .allow => (decision, ctx)

/-- The evaluator blocks a tool for a provider and a domain: they do not belong together, or the
policy of the tool says so, or what the evaluator was told about tools without a policy. -/
def Blocks (E : PdpToolEvaluator) (provider domain toolName : Text) : Prop :=
  (E.strictDomainIsolation = true ∧ CrossesDomains domain provider) ∨
    (∃ policy, getPolicy E.policies provider domain toolName = some policy ∧
      policy.permission = .block) ∨
    getPolicy E.policies provider domain toolName = none ∧
      E.unlistedPermission toolName provider = .block

/-- The permission is to block where the policy says so, or the default of a tool without one. -/
theorem permissionOf_eq_block_iff (E : PdpToolEvaluator) (provider domain toolName : Text) :
    (E.permissionOf provider domain toolName).1 = .block ↔
      (∃ policy, getPolicy E.policies provider domain toolName = some policy ∧
        policy.permission = .block) ∨
      getPolicy E.policies provider domain toolName = none ∧
        E.unlistedPermission toolName provider = .block := by
  rw [permissionOf]
  rcases getPolicy E.policies provider domain toolName with _ | policy <;> simp

/-- **Evaluation.** A call without a credential context is blocked if and only if the evaluator
blocks its tool. Any other call leaves the context as it is, but for the mark that an approval is
required. -/
theorem evaluate_cases (E : PdpToolEvaluator) {call : ToolCall} (ctx : ChatContext Λ)
    (hcredential : call.credentialContext = none) :
    (E.Blocks (providerOf call ctx) call.domain call.name ∧
        ∃ reason, (E.evaluate call ctx).2 = ctx.failSecure (.toolBlocked reason)) ∨
      ¬ E.Blocks (providerOf call ctx) call.domain call.name ∧
        ∃ approval, (E.evaluate call ctx).2 =
          { ctx with data := { ctx.data with requiresApproval := approval } } := by
  have hisolated : checkCredentialIsolation call ctx.data.auditMetadata = none := by
    rw [checkCredentialIsolation, hcredential]
  rw [evaluate, hisolated, Blocks, ← permissionOf_eq_block_iff]
  by_cases hcross : E.strictDomainIsolation = true ∧
      CrossesDomains call.domain (providerOf call ctx)
  · refine Or.inl ⟨Or.inl hcross, ?_⟩
    simp only [hcross.1, if_true, checkDomainIsolation, if_pos hcross.2]
    exact ⟨_, rfl⟩
  · have hnone : (if E.strictDomainIsolation = true then
        checkDomainIsolation call.domain call.name (providerOf call ctx) else none) = none := by
      split_ifs with hstrict
      · exact if_neg fun h => hcross ⟨hstrict, h⟩
      · rfl
    simp only [hnone, or_iff_right hcross]
    have hpermission : (E.policyDecision (providerOf call ctx) call.domain call.name).permission =
      (E.permissionOf (providerOf call ctx) call.domain call.name).1 := rfl
    rw [hpermission]
    rcases (E.permissionOf (providerOf call ctx) call.domain call.name).1
    · exact Or.inr ⟨by decide, ctx.data.requiresApproval, rfl⟩
    · exact Or.inr ⟨by decide, ctx.data.requiresApproval, rfl⟩
    · exact Or.inr ⟨by decide, true, rfl⟩
    · exact Or.inl ⟨rfl, _, rfl⟩

/-- Whatever the decision is, the fields of the context stay as they are, but for the mark that an
approval is required. -/
theorem data_evaluate (E : PdpToolEvaluator) (call : ToolCall) (ctx : ChatContext Λ) :
    ∃ approval, (E.evaluate call ctx).2.data =
      { ctx.data with requiresApproval := approval } := by
  rw [evaluate]
  dsimp only
  split
  · exact ⟨ctx.data.requiresApproval, rfl⟩
  · exact ⟨ctx.data.requiresApproval, rfl⟩
  · split
    · exact ⟨ctx.data.requiresApproval, rfl⟩
    · exact ⟨true, rfl⟩
    · exact ⟨ctx.data.requiresApproval, rfl⟩
    · exact ⟨ctx.data.requiresApproval, rfl⟩

end PdpToolEvaluator

end AnonReq.Governance
