import AnonReq.Foundation.Glob
import AnonReq.Foundation.Runs
import AnonReq.Foundation.Splitting
import AnonReq.Pipeline.Chat

/-!
# Tool permission policies

`governance/tool_policy_parser.py`: the policies of a provider's tools, how a tool name is looked
up among them, and the parser of the `tools:` section of the policy configuration.

* `parse_stored`: whatever is parsed is stored under the provider it was written for, in the
  domain that the provider's name tells.
* `getProviderPolicy_parse_eq_none`: a provider that the configuration does not name has no
  policies.
-/

namespace AnonReq.Governance

open Pipeline (name Fields)

/-! ### Policies -/

/-- `ToolPermission`. -/
inductive ToolPermission where
  | allow
  | allowWithAudit
  | requireHumanApproval
  | block
deriving DecidableEq

/-- The value of a permission. -/
def ToolPermission.value : ToolPermission → Text
  | .allow => name "allow"
  | .allowWithAudit => name "allow_with_audit"
  | .requireHumanApproval => name "require_human_approval"
  | .block => name "block"

/-- `ToolRiskLevel`. -/
inductive ToolRiskLevel where
  | low
  | medium
  | high
  | critical
deriving DecidableEq

/-- The value of a risk level. -/
def ToolRiskLevel.value : ToolRiskLevel → Text
  | .low => name "low"
  | .medium => name "medium"
  | .high => name "high"
  | .critical => name "critical"

/-- `ToolPolicy`, with the fields that decide on a call. -/
structure ToolPolicy where
  toolName : Text
  permission : ToolPermission
  riskLevel : Option ToolRiskLevel := none

/-- `ProviderToolPolicy`. -/
structure ProviderToolPolicy where
  provider : Text
  domain : Text := name "model"
  tools : List ToolPolicy := []
  riskClassification : Option (List (Text × ToolRiskLevel)) := none

/-- `pattern.endswith("*") and tool_name.startswith(pattern[:-1])`. -/
def prefixMatches (pattern toolName : Text) : Bool :=
  decide (pattern.getLast? = some '*') && pattern.dropLast.isPrefixOf toolName

/-- `get_tool_policy`: an exact match first, then a prefix, then a glob pattern. -/
def ProviderToolPolicy.getToolPolicy (policy : ProviderToolPolicy) (toolName : Text) :
    Option ToolPolicy :=
  (policy.tools.find? fun tool => decide (tool.toolName = toolName)).or <|
    (policy.tools.find? fun tool => prefixMatches tool.toolName toolName).or <|
      policy.tools.find? fun tool => Glob.fnmatch toolName tool.toolName

/-! ### The loaded policies -/

/-- The policies of a `ToolPolicyParser`, by provider and domain. -/
abbrev ToolPolicies := List (Text × ProviderToolPolicy)

/-- `f"{provider}:{domain}"`. -/
def policyKey (provider domain : Text) : Text := provider ++ ':' :: domain

/-- `get_provider_policy`. -/
def getProviderPolicy (policies : ToolPolicies) (provider domain : Text) :
    Option ProviderToolPolicy :=
  Dict.get policies (policyKey provider domain)

/-- `get_policy`. -/
def getPolicy (policies : ToolPolicies) (provider domain toolName : Text) : Option ToolPolicy :=
  (getProviderPolicy policies provider domain).bind fun policy => policy.getToolPolicy toolName

/-- Domains have no colon, so that a key tells its provider. -/
theorem policyKey_inj {provider provider' domain domain' : Text} (h : ':' ∉ domain)
    (h' : ':' ∉ domain') (heq : policyKey provider domain = policyKey provider' domain') :
    provider = provider' ∧ domain = domain' :=
  -- the last colon of a key is the one in front of the domain
  Splitting.append_cons_inj_of_back h h' (by simpa [policyKey] using heq)

/-! ### The parser -/

/-- `_detect_domain`. Every name that is not a host's is a model provider's. -/
def detectProviderDomain (provider : Text) : Text :=
  if (name "host_").isPrefixOf provider then name "host" else name "model"

variable (L : LowerCase)

/-- The permission of a value. -/
def ToolPermission.ofValue (value : Text) : Option ToolPermission :=
  [allow, allowWithAudit, requireHumanApproval, block].find? fun p => decide (p.value = value)

/-- The risk level of a value. -/
def ToolRiskLevel.ofValue (value : Text) : Option ToolRiskLevel :=
  [low, medium, high, critical].find? fun level => decide (level.value = value)

/-- A risk level of the configuration, or the text of the `ToolPolicyValidationError`. -/
def parseRiskLevel (provider toolName risk : Text) : Except Text ToolRiskLevel :=
  match ToolRiskLevel.ofValue (L.lower risk) with
  | some level => .ok level
  | none => .error (name "Invalid risk level '" ++ risk ++ name "' for tool '" ++ toolName ++
      name "' in provider '" ++ provider ++ name "'. Must be one of: critical, high, low, medium")

/-- The risk classification of a provider, which may be missing; values that are no texts are
passed over. -/
def parseRiskClassification (provider : Text) :
    Option Json → Except Text (Option (List (Text × ToolRiskLevel)))
  | some (.object risks) => some <$> risks.foldlM (fun levels risk =>
      match risk.2 with
      | .text s => Dict.set levels risk.1 <$> parseRiskLevel L provider risk.1 s
      | _ => .ok levels) []
  | _ => .ok none

/-- A field with a text that is not empty. -/
def textField (entry : Json) (k : Text) : Option Text :=
  match entry.get k with
  | some (.text s) => if s = [] then none else some s
  | _ => none

/-- `_parse_tool_entry`. -/
def parseToolEntry (entry : Json) (provider : Text) : Except Text ToolPolicy :=
  match textField entry (name "name"), textField entry (name "permission") with
  | none, _ => .error (name "Missing or invalid 'name' field in tool policy for provider '" ++
      provider ++ name "'")
  | some toolName, none => .error (name "Missing or invalid 'permission' field for tool '" ++
      toolName ++ name "' in provider '" ++ provider ++ name "'")
  | some toolName, some permission =>
    match ToolPermission.ofValue (L.lower permission) with
    | none => .error (name "Invalid permission '" ++ permission ++ name "' for tool '" ++
        toolName ++ name "' in provider '" ++ provider ++
        name "'. Must be one of: allow, allow_with_audit, block, require_human_approval")
    | some permission =>
      match entry.get (name "risk_level") with
      | some (.text risk) => (fun level => ⟨toolName, permission, some level⟩) <$>
          parseRiskLevel L provider toolName risk
      | _ => .ok ⟨toolName, permission, none⟩

/-- The tools of a provider; what is no dictionary is passed over. -/
def parseTools (provider : Text) : Json → Except Text (List ToolPolicy)
  | .list entries => entries.foldlM (fun tools entry =>
      match entry with
      | .object _ => (fun tool => tools ++ [tool]) <$> parseToolEntry L entry provider
      | _ => .ok tools) []
  | _ => .ok []

/-- The body of the loop of `parse` over the providers. -/
def parseProvider (policies : ToolPolicies) (provider : Text) (config : Json) :
    Except Text ToolPolicies :=
  match config with
  | .object _ =>
    if provider = [] then .error (name "Invalid provider name: '" ++ provider ++ name "'")
    else
      match config.get (name "tools") with
      | none | some .null => .ok policies
      | some toolsData => do
        let domain := detectProviderDomain provider
        let risks ← parseRiskClassification L provider
          (config.get (name "tool_risk_classification"))
        let tools ← parseTools L provider toolsData
        return Dict.set policies (policyKey provider domain) ⟨provider, domain, tools, risks⟩
  | _ => .ok policies

/-- `parse`: the policies it leaves, or the text of the `ToolPolicyValidationError`. -/
def parse (policyYaml : Json) : Except Text ToolPolicies :=
  match policyYaml.get (name "providers") with
  | some (.object providers) => providers.foldlM (fun policies provider =>
      parseProvider L policies provider.1 provider.2) []
  | _ => .ok []

/-! ### What is parsed -/

/-- The names of the providers of a configuration. -/
def providerNames (policyYaml : Json) : List Text :=
  match policyYaml.get (name "providers") with
  | some (.object providers) => providers.map Prod.fst
  | _ => []

/-- The policies are those of named providers, each under its own key. -/
def Stored (names : List Text) (policies : ToolPolicies) : Prop :=
  ∀ key policy, Dict.get policies key = some policy → policy.provider ∈ names ∧
    policy.domain = detectProviderDomain policy.provider ∧
    key = policyKey policy.provider policy.domain

variable {L}

/-- One provider more: what was stored stays, and its own policy comes under its own key. -/
theorem parseProvider_stored {names : List Text} {policies parsed : ToolPolicies}
    {provider : Text} {config : Json} (hstored : Stored names policies)
    (hprovider : provider ∈ names)
    (h : parseProvider L policies provider config = .ok parsed) : Stored names parsed := by
  have hsame : ∀ {parsed : ToolPolicies}, Except.ok (ε := Text) policies = .ok parsed →
      Stored names parsed := fun heq => Except.ok.inj heq ▸ hstored
  cases config with
  | object fields =>
    rw [parseProvider] at h
    split_ifs at h
    split at h
    · exact hsame h
    · exact hsame h
    · obtain ⟨risks, -, h⟩ := Runs.bind_eq_ok_iff.mp h
      obtain ⟨tools, -, h⟩ := Runs.bind_eq_ok_iff.mp h
      obtain rfl := Except.ok.inj h
      intro key policy hpolicy
      rw [Dict.get_set] at hpolicy
      split_ifs at hpolicy with hkey
      · obtain rfl := Option.some.inj hpolicy
        exact ⟨hprovider, rfl, hkey.symm⟩
      · exact hstored key policy hpolicy
  | _ => exact hsame h

/-- **The parser.** Whatever it stores belongs to a provider that the configuration names, and
stands under the domain that the provider's name tells. -/
theorem parse_stored {policyYaml : Json} {policies : ToolPolicies}
    (h : parse L policyYaml = .ok policies) : Stored (providerNames policyYaml) policies := by
  have hnil : Stored (providerNames policyYaml) [] := fun key policy hpolicy => by
    simp [Dict.get] at hpolicy
  rw [parse] at h
  split at h
  · rename_i providers hproviders
    have hnames : providerNames policyYaml = providers.map Prod.fst := by
      rw [providerNames, hproviders]
    refine Runs.foldlM_ok_of_step (I := Stored (providerNames policyYaml)) ?_ hnil h
    intro policies provider hprovider parsed hstored hparsed
    exact parseProvider_stored hstored (hnames ▸ List.mem_map_of_mem hprovider) hparsed
  · exact Except.ok.inj h ▸ hnil

/-- A provider that the configuration does not name has no policies, in no domain. -/
theorem getProviderPolicy_parse_eq_none {policyYaml : Json} {policies : ToolPolicies}
    (h : parse L policyYaml = .ok policies) {provider domain : Text} (hdomain : ':' ∉ domain)
    (hprovider : provider ∉ providerNames policyYaml) :
    getProviderPolicy policies provider domain = none := by
  rw [getProviderPolicy, Option.eq_none_iff_forall_ne_some]
  intro policy hpolicy
  obtain ⟨hnamed, hdetected, hkey⟩ := parse_stored h _ _ hpolicy
  have hcolon : ':' ∉ policy.domain := by
    rw [hdetected, detectProviderDomain]
    split_ifs <;> decide
  obtain ⟨rfl, -⟩ := policyKey_inj hdomain hcolon hkey
  exact hprovider hnamed

end AnonReq.Governance
