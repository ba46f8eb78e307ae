import AnonReq.Foundation.Yaml
import AnonReq.Governance.ToolPolicy

/-!
# Validating and parsing tool policies

`ToolPolicyParser` of `governance/tool_policy_parser.py` on any YAML document: `parse` returns the
policies of the providers, or raises; `validate` returns the errors it finds without parsing.

* `validate_eq_nil_iff`: validation finds no error in a sound document. `exists_parse`: a document
  that is sound and heeded in full is parsed, and everything in it is kept.
* `validateAgrees_iff`: validation and parsing agree exactly on the documents that are not sound or
  are heeded in full.
-/

namespace AnonReq.Governance.PolicyYaml

open Pipeline (name)

/-! ### Policies -/

/-- `ToolPolicy`, with the rules for the arguments of a call. -/
structure RuledToolPolicy extends ToolPolicy where
  allowedParameters : Option (List Yaml) := none
  excludedParameters : Option (List Yaml) := none
  maxArgumentsSize : Option ℤ := none

/-- `ProviderToolPolicy`, with the tools in full. -/
structure ProviderPolicy where
  provider : Text
  domain : Text
  tools : List RuledToolPolicy
  governance : Yaml
  riskClassification : Option (List (Yaml × ToolRiskLevel))

/-- What `parse` and `validate` raise. -/
inductive PolicyError where
  /-- `ToolPolicyValidationError`. -/
  | validation (message : Text)
  /-- `OverflowError`: `int` of an infinite float. -/
  | overflow
  /-- `ValueError`: `int` of a float that is no number. -/
  | notANumber
  /-- `AttributeError`: the document has no `get`. -/
  | noMapping

/-! ### `parse` -/

variable (L : LowerCase) (shown : Yaml → Text)

/-- Raise a `ToolPolicyValidationError`. -/
def orRaise {α : Type} (result : Except Text α) : Except PolicyError α :=
  result.mapError .validation

/-- The risk level of a tool. -/
def parseEntryRisk (provider toolName : Text) :
    Yaml → Except PolicyError (Option ToolRiskLevel)
  | .str risk => some <$> orRaise (parseRiskLevel L provider toolName risk)
  | _ => .ok none

/-- `max_arguments_size`, if it is an `int` or a `float`. -/
def parseSize : Yaml → Except PolicyError (Option ℤ)
  | .infinity _ => .error .overflow
  | .nan => .error .notANumber
  | size => .ok size.numberOf

/-- `_parse_tool_entry`. -/
def parseToolEntry (entry : Yaml) (provider : Text) : Except PolicyError RuledToolPolicy :=
  match (entry.get (name "name")).textOf, (entry.get (name "permission")).textOf with
  | none, _ => .error (.validation (name "Missing or invalid 'name' field in tool policy for " ++
      name "provider '" ++ provider ++ name "'"))
  | some toolName, none => .error (.validation (name "Missing or invalid 'permission' field for " ++
      name "tool '" ++ toolName ++ name "' in provider '" ++ provider ++ name "'"))
  | some toolName, some permission =>
    match ToolPermission.ofValue (L.lower permission) with
    | none => .error (.validation (name "Invalid permission '" ++ permission ++
        name "' for tool '" ++ toolName ++ name "' in provider '" ++ provider ++
        name "'. Must be one of: allow, allow_with_audit, block, require_human_approval"))
    | some permission => do
      let riskLevel ← parseEntryRisk L provider toolName (entry.get (name "risk_level"))
      let size ← parseSize (entry.get (name "max_arguments_size"))
      return {
        toolName := toolName
        permission := permission
        riskLevel := riskLevel
        allowedParameters := (entry.get (name "allowed_parameters")).itemsOf
        excludedParameters := (entry.get (name "excluded_parameters")).itemsOf
        maxArgumentsSize := size }

/-- One item of `tools`; what is no mapping is passed over. -/
def parseTool (provider : Text) (item : Yaml) : Except PolicyError (Option RuledToolPolicy) :=
  match item with
  | .map _ => some <$> parseToolEntry L item provider
  | _ => .ok none

/-- The items of `tools`. -/
def parseTools (provider : Text) : Yaml → Except PolicyError (List RuledToolPolicy)
  | .seq items => Runs.collect (parseTool L provider) items
  | _ => .ok []

/-- One entry of `tool_risk_classification`; a value that is no text is passed over. -/
def parseRisk (provider : Text) (risk : Yaml × Yaml) :
    Except PolicyError (Option (Yaml × ToolRiskLevel)) :=
  match risk.2 with
  | .str s => (fun level => some (risk.1, level)) <$>
      orRaise (parseRiskLevel L provider (shown risk.1) s)
  | _ => .ok none

/-- `tool_risk_classification`. The keys of a mapping are distinct. -/
def parseRisks (provider : Text) :
    Yaml → Except PolicyError (Option (List (Yaml × ToolRiskLevel)))
  | .map risks => some <$> Runs.collect (parseRisk L shown provider) risks
  | _ => .ok none

/-- `Invalid provider name`. -/
def invalidProviderName (key : Yaml) : Text :=
  name "Invalid provider name: '" ++ shown key ++ name "'"

/-- The body of the loop of `parse` over the providers. -/
def parseProvider (entry : Yaml × Yaml) : Except PolicyError (Option ProviderPolicy) :=
  match entry.2 with
  | .map _ =>
    match entry.1.textOf with
    | none => .error (.validation (invalidProviderName shown entry.1))
    | some provider =>
      match entry.2.get (name "tools") with
      | .null => .ok none
      | toolsData => do
        let risks ← parseRisks L shown provider (entry.2.get (name "tool_risk_classification"))
        let tools ← parseTools L provider toolsData
        return some {
          provider := provider
          domain := detectProviderDomain provider
          tools := tools
          governance := entry.2.get (name "governance")
          riskClassification := risks }
  | _ => .ok none

/-- `parse`: the policies it returns. -/
def parse (policyYaml : Yaml) : Except PolicyError (List ProviderPolicy) :=
  match policyYaml with
  | .map _ =>
    match policyYaml.get (name "providers") with
    | .map providers => Runs.collect (parseProvider L shown) providers
    | _ => .ok []
  | _ => .error .noMapping

/-! ### `validate` -/

/-- The errors of an item of `tools`. -/
def validateTool (provider : Text) (i : ℕ) (item : Yaml) : List Text :=
  let place := name "Provider '" ++ provider ++ name "', tools[" ++ Nat.toDigits 10 i ++ name "]: "
  match item with
  | .map _ =>
    match (item.get (name "name")).textOf, (item.get (name "permission")).textOf with
    | none, _ => [place ++ name "missing or invalid 'name'"]
    | some toolName, none => [name "Provider '" ++ provider ++ name "', tool '" ++ toolName ++
        name "': missing or invalid 'permission'"]
    | some toolName, some permission =>
      if (ToolPermission.ofValue (L.lower permission)).isSome then []
      else [name "Provider '" ++ provider ++ name "', tool '" ++ toolName ++
        name "': invalid permission '" ++ permission ++ name "'"]
  | _ => [place ++ name "expected dict, got " ++ item.typeName]

/-- The errors of an entry of `tool_risk_classification`. -/
def validateRisk (provider : Text) (risk : Yaml × Yaml) : List Text :=
  match risk.2 with
  | .str s =>
    if (ToolRiskLevel.ofValue (L.lower s)).isSome then []
    else [name "Provider '" ++ provider ++ name "': invalid risk level '" ++ s ++
      name "' for tool '" ++ shown risk.1 ++ name "'"]
  | _ => []

/-- The errors of `tool_risk_classification`. -/
def validateRisks (provider : Text) : Yaml → List Text
  | .map risks => risks.flatMap (validateRisk L shown provider)
  | _ => []

/-- The body of the loop of `validate` over the providers. -/
def validateProvider (entry : Yaml × Yaml) : List Text :=
  match entry.2 with
  | .map _ =>
    match entry.1.textOf with
    | none => [invalidProviderName shown entry.1]
    | some provider =>
      match entry.2.get (name "tools") with
      | .null => []
      | .seq items =>
        validateRisks L shown provider (entry.2.get (name "tool_risk_classification")) ++
          items.zipIdx.flatMap fun item => validateTool L provider item.2 item.1
      | _ => [name "Provider '" ++ provider ++ name "': 'tools' must be a list"]
  | _ => []

/-- `validate`. -/
def validate (policyYaml : Yaml) : Except PolicyError (List Text) :=
  match policyYaml with
  | .map _ =>
    match policyYaml.get (name "providers") with
    | .map providers => .ok (providers.flatMap (validateProvider L shown))
    | _ => .ok []
  | _ => .error .noMapping

/-! ### What validation accepts -/

/-- A tool to which validation has nothing to object. -/
structure ToolSound (item : Yaml) : Prop where
  isMap : item.IsMap
  named : ∃ s ≠ [], item.get (name "name") = .str s
  permitted : ∃ s ≠ [], item.get (name "permission") = .str s ∧
    ∃ permission : ToolPermission, L.lower s = permission.value

/-- A risk classification to which validation has nothing to object. -/
def RisksSound (value : Yaml) : Prop :=
  ∀ risks, value = .map risks → ∀ risk ∈ risks, ∀ s, risk.2 = .str s →
    ∃ level : ToolRiskLevel, L.lower s = level.value

/-- A provider to which validation has nothing to object. -/
structure ProviderSound (entry : Yaml × Yaml) : Prop where
  named : ∃ s ≠ [], entry.1 = .str s
  listed : entry.2.get (name "tools") = .null ∨
    ∃ items, entry.2.get (name "tools") = .seq items ∧ (∀ item ∈ items, ToolSound L item) ∧
      RisksSound L (entry.2.get (name "tool_risk_classification"))

/-- A document to which validation has nothing to object. -/
def Sound (policyYaml : Yaml) : Prop :=
  ∀ providers, policyYaml.get (name "providers") = .map providers → ∀ entry ∈ providers,
    entry.2.IsMap → ProviderSound L entry

/-! ### What parsing reads -/

/-- A field that is missing or a list. -/
def ListOrNull (value : Yaml) : Prop := value = .null ∨ ∃ items, value = .seq items

/-- A tool of which every field is read. -/
structure ToolHeeded (item : Yaml) : Prop where
  risk : item.get (name "risk_level") = .null ∨ ∃ s, item.get (name "risk_level") = .str s ∧
    ∃ level : ToolRiskLevel, L.lower s = level.value
  allowed : ListOrNull (item.get (name "allowed_parameters"))
  excluded : ListOrNull (item.get (name "excluded_parameters"))
  size : item.get (name "max_arguments_size") = .null ∨
    (item.get (name "max_arguments_size")).numberOf.isSome

/-- No risk is classified. -/
def NoRisks (value : Yaml) : Prop := value = .null ∨ value = .map []

/-- A provider of which every section is read: without tools, nothing is. If `every` is set, every
provider has to have tools. -/
def ProviderHeeded (every : Bool) (config : Yaml) : Prop :=
  let risks := config.get (name "tool_risk_classification")
  every = false ∧ config = .null ∨ config.IsMap ∧
    (config.get (name "tools") = .null → every = false ∧ NoRisks risks) ∧
    ∀ items, config.get (name "tools") = .seq items → (∀ item ∈ items, ToolHeeded L item) ∧
      (risks = .null ∨ ∃ entries, risks = .map entries ∧ ∀ risk ∈ entries, ∃ s, risk.2 = .str s)

/-- A document of which every section is read. -/
def Heeded (every : Bool) (policyYaml : Yaml) : Prop :=
  policyYaml.get (name "providers") = .null ∨
    ∃ providers, policyYaml.get (name "providers") = .map providers ∧
      ∀ entry ∈ providers, ProviderHeeded L every entry.2

/-! ### What is present -/

/-- The risk level of a tool. -/
def RiskPresent (value : Yaml) (level : Option ToolRiskLevel) : Prop :=
  value = .null ∧ level = none ∨ ∃ s l, value = .str s ∧ level = some l ∧ L.lower s = l.value

/-- The name, the permission and the risk level of a tool. -/
structure ToolPresent (item : Yaml) (tool : RuledToolPolicy) : Prop where
  named : item.get (name "name") = .str tool.toolName
  permitted : ∃ s, item.get (name "permission") = .str s ∧ L.lower s = tool.permission.value
  risk : RiskPresent L (item.get (name "risk_level")) tool.riskLevel

/-- A list of parameters. -/
def ListKept (value : Yaml) (parameters : Option (List Yaml)) : Prop :=
  value = .null ∧ parameters = none ∨ ∃ items, value = .seq items ∧ parameters = some items

/-- Every field of a tool. -/
structure ToolKept (item : Yaml) (tool : RuledToolPolicy) : Prop extends
    ToolPresent L item tool where
  allowed : ListKept (item.get (name "allowed_parameters")) tool.allowedParameters
  excluded : ListKept (item.get (name "excluded_parameters")) tool.excludedParameters
  size : item.get (name "max_arguments_size") = .null ∧ tool.maxArgumentsSize = none ∨
    (item.get (name "max_arguments_size")).numberOf.isSome ∧
      tool.maxArgumentsSize = (item.get (name "max_arguments_size")).numberOf

/-- The entries of a risk classification. -/
def RisksPresent (value : Yaml) (levels : Option (List (Yaml × ToolRiskLevel))) : Prop :=
  value = .null ∨ ∃ risks, value = .map risks ∧ ∀ risk ∈ risks, ∃ s l, risk.2 = .str s ∧
    L.lower s = l.value ∧ ∃ present, levels = some present ∧ (risk.1, l) ∈ present

/-- What a provider says about tools is in its policy, as far as `R` says so of each tool. If
`every` is set, a provider that says nothing has a policy, too. -/
def ProviderPresent (every : Bool) (R : Yaml → RuledToolPolicy → Prop) (entry : Yaml × Yaml)
    (policies : List ProviderPolicy) : Prop :=
  let tools := entry.2.get (name "tools")
  let risks := entry.2.get (name "tool_risk_classification")
  every = false ∧ entry.2 = .null ∨ entry.2.IsMap ∧
    (every = false ∧ tools = .null ∧ NoRisks risks ∨
      ∃ policy ∈ policies, entry.1 = .str policy.provider ∧
        policy.domain = detectProviderDomain policy.provider ∧
        (∃ items, tools = .seq items ∧ ∀ item ∈ items, ∃ tool ∈ policy.tools, R item tool) ∧
        RisksPresent L risks policy.riskClassification)

/-- What a document says about tools is in the policies, as far as `R` says so of each tool. -/
def Present (every : Bool) (R : Yaml → RuledToolPolicy → Prop) (policyYaml : Yaml)
    (policies : List ProviderPolicy) : Prop :=
  policyYaml.get (name "providers") = .null ∨
    ∃ providers, policyYaml.get (name "providers") = .map providers ∧
      ∀ entry ∈ providers, ProviderPresent L every R entry policies

/-- Validation finds no errors exactly where parsing does not raise and every provider, domain,
tool, permission and risk is there; and where it finds none, nothing is ignored or downgraded. If
`every` is set, providers without tools count. -/
def Agrees (every : Bool) (policyYaml : Yaml) : Prop :=
  (validate L shown policyYaml = .ok [] ↔
    ∃ policies, parse L shown policyYaml = .ok policies ∧
      Present L every (ToolPresent L) policyYaml policies) ∧
  (validate L shown policyYaml = .ok [] → ∀ policies, parse L shown policyYaml = .ok policies →
    Present L every (ToolKept L) policyYaml policies)

section

variable {L shown}

theorem ofValue_permission_iff {value : Text} {permission : ToolPermission} :
    ToolPermission.ofValue value = some permission ↔ value = permission.value := by
  constructor
  · intro h
    exact (of_decide_eq_true (List.find?_some h :)).symm
  · rintro rfl
    cases permission <;> decide

theorem ofValue_level_iff {value : Text} {level : ToolRiskLevel} :
    ToolRiskLevel.ofValue value = some level ↔ value = level.value := by
  constructor
  · intro h
    exact (of_decide_eq_true (List.find?_some h :)).symm
  · rintro rfl
    cases level <;> decide

theorem parseRiskLevel_eq_ok_iff {provider toolName risk : Text} {level : ToolRiskLevel} :
    orRaise (parseRiskLevel L provider toolName risk) = .ok level ↔ L.lower risk = level.value := by
  rw [← ofValue_level_iff, parseRiskLevel]
  cases ToolRiskLevel.ofValue (L.lower risk) <;> simp [orRaise, Except.mapError]

/-! ### Tools -/

variable {provider : Text}

/-- **Parsing a tool.** -/
theorem parseToolEntry_eq_ok_iff {entry : Yaml} {tool : RuledToolPolicy} :
    parseToolEntry L entry provider = .ok tool ↔
      (entry.get (name "name")).textOf = some tool.toolName ∧
      (∃ s, (entry.get (name "permission")).textOf = some s ∧
        L.lower s = tool.permission.value) ∧
      parseEntryRisk L provider tool.toolName (entry.get (name "risk_level")) =
        .ok tool.riskLevel ∧
      tool.allowedParameters = (entry.get (name "allowed_parameters")).itemsOf ∧
      tool.excludedParameters = (entry.get (name "excluded_parameters")).itemsOf ∧
      parseSize (entry.get (name "max_arguments_size")) = .ok tool.maxArgumentsSize := by
  rw [parseToolEntry]
  cases hname : (entry.get (name "name")).textOf with
  | none => simp
  | some toolName =>
    cases hpermission : (entry.get (name "permission")).textOf with
    | none => simp
    | some s =>
      dsimp only
      cases hvalue : ToolPermission.ofValue (L.lower s) with
      | none =>
        -- neither side holds for a permission that is none of the enumeration
        refine iff_of_false (by simp) ?_
        rintro ⟨-, ⟨s', hs', hlower⟩, -⟩
        obtain rfl := Option.some.inj hs'
        rw [← ofValue_permission_iff, hvalue] at hlower
        exact absurd hlower (Option.some_ne_none _).symm
      | some permission =>
        rw [Runs.bind_eq_ok_iff]
        constructor
        · rintro ⟨risk, hrisk, h⟩
          obtain ⟨size, hsize, h⟩ := Runs.bind_eq_ok_iff.mp h
          obtain rfl := Except.ok.inj h
          exact ⟨rfl, ⟨s, rfl, ofValue_permission_iff.mp hvalue⟩, hrisk, rfl, rfl, hsize⟩
        · obtain ⟨⟨toolName', permission', risk⟩, allowed, excluded, size⟩ := tool
          rintro ⟨hname', ⟨s', hs', hlower⟩, hrisk, hallowed, hexcluded, hsize⟩
          dsimp only at hname' hlower hrisk hallowed hexcluded hsize
          obtain rfl := Option.some.inj hname'
          obtain rfl := Option.some.inj hs'
          rw [← ofValue_permission_iff, hvalue] at hlower
          obtain rfl := Option.some.inj hlower
          obtain rfl := hallowed
          obtain rfl := hexcluded
          exact ⟨risk, hrisk, Runs.bind_eq_ok_iff.mpr ⟨size, hsize, rfl⟩⟩

theorem ToolPresent.isMap {item : Yaml} {tool : RuledToolPolicy} (h : ToolPresent L item tool) :
    item.IsMap := by
  refine Yaml.isMap_of_get_ne (k := name "name") fun hnull => ?_
  rw [h.named] at hnull
  exact Yaml.noConfusion hnull

/-- A tool that is parsed and present is sound. -/
theorem toolSound_of_parse {item : Yaml} {tool : RuledToolPolicy} (hmap : item.IsMap)
    (h : parseToolEntry L item provider = .ok tool) : ToolSound L item := by
  obtain ⟨hname, ⟨s, hs, hlower⟩, -⟩ := parseToolEntry_eq_ok_iff.mp h
  obtain ⟨hname, hne⟩ := Yaml.textOf_eq_some_iff.mp hname
  obtain ⟨hs, hs'⟩ := Yaml.textOf_eq_some_iff.mp hs
  exact ⟨hmap, ⟨_, hne, hname⟩, s, hs', hs, _, hlower⟩

theorem listKept_itemsOf {value : Yaml} (h : ListOrNull value) : ListKept value value.itemsOf := by
  obtain h | ⟨items, h⟩ := h
  · exact Or.inl ⟨h, by rw [h]; rfl⟩
  · exact Or.inr ⟨items, h, by rw [h]; rfl⟩

theorem listOrNull_of_kept {value : Yaml} {parameters : Option (List Yaml)}
    (h : ListKept value parameters) : ListOrNull value :=
  h.imp And.left fun ⟨items, h, _⟩ => ⟨items, h⟩

/-- **A tool that is sound and heeded** is parsed, and kept. -/
theorem exists_parseToolEntry {item : Yaml} (provider : Text) (hsound : ToolSound L item)
    (hheeded : ToolHeeded L item) :
    ∃ tool, parseToolEntry L item provider = .ok tool ∧ ToolKept L item tool := by
  obtain ⟨-, ⟨toolName, hne, hname⟩, s, hs, hpermission, permission, hlower⟩ := hsound
  obtain ⟨risk, hrisk, hpresent⟩ : ∃ risk,
      parseEntryRisk L provider toolName (item.get (name "risk_level")) = .ok risk ∧
        RiskPresent L (item.get (name "risk_level")) risk := by
    obtain hnull | ⟨text, htext, level, hlevel⟩ := hheeded.risk
    · rw [hnull]
      exact ⟨none, rfl, Or.inl ⟨rfl, rfl⟩⟩
    · rw [htext]
      refine ⟨some level, ?_, Or.inr ⟨text, level, rfl, rfl, hlevel⟩⟩
      rw [parseEntryRisk, parseRiskLevel_eq_ok_iff.mpr hlevel]
      rfl
  obtain ⟨size, hsize, hkept⟩ : ∃ size,
      parseSize (item.get (name "max_arguments_size")) = .ok size ∧
        (item.get (name "max_arguments_size") = .null ∧ size = none ∨
          (item.get (name "max_arguments_size")).numberOf.isSome ∧
            size = (item.get (name "max_arguments_size")).numberOf) := by
    obtain hnull | hnumber := hheeded.size
    · rw [hnull]
      exact ⟨none, rfl, Or.inl ⟨rfl, rfl⟩⟩
    · refine ⟨_, ?_, Or.inr ⟨hnumber, rfl⟩⟩
      cases hvalue : item.get (name "max_arguments_size") with
      | infinity negative =>
        rw [hvalue] at hnumber
        exact absurd hnumber Bool.false_ne_true
      | nan =>
        rw [hvalue] at hnumber
        exact absurd hnumber Bool.false_ne_true
      | _ => rfl
  refine ⟨⟨⟨toolName, permission, risk⟩, (item.get (name "allowed_parameters")).itemsOf,
    (item.get (name "excluded_parameters")).itemsOf, size⟩, ?_, ?_⟩
  · exact parseToolEntry_eq_ok_iff.mpr ⟨Yaml.textOf_eq_some_iff.mpr ⟨hname, hne⟩,
      ⟨s, Yaml.textOf_eq_some_iff.mpr ⟨hpermission, hs⟩, hlower⟩, hrisk, rfl, rfl, hsize⟩
  · exact ⟨⟨hname, ⟨s, hpermission, hlower⟩, hpresent⟩, listKept_itemsOf hheeded.allowed,
      listKept_itemsOf hheeded.excluded, hkept⟩

/-- A tool that is kept is heeded. -/
theorem ToolKept.heeded {item : Yaml} {tool : RuledToolPolicy} (h : ToolKept L item tool) :
    ToolHeeded L item where
  risk := h.risk.imp And.left fun ⟨s, level, hs, _, hlower⟩ => ⟨s, hs, level, hlower⟩
  allowed := listOrNull_of_kept h.allowed
  excluded := listOrNull_of_kept h.excluded
  size := h.size.imp And.left And.left

/-! ### Validation -/

theorem isSome_permission_iff {value : Text} :
    (ToolPermission.ofValue value).isSome ↔ ∃ permission : ToolPermission,
      value = permission.value := by
  rw [Option.isSome_iff_exists]
  exact exists_congr fun _ => ofValue_permission_iff

theorem isSome_level_iff {value : Text} :
    (ToolRiskLevel.ofValue value).isSome ↔ ∃ level : ToolRiskLevel, value = level.value := by
  rw [Option.isSome_iff_exists]
  exact exists_congr fun _ => ofValue_level_iff

/-- An error that is only there unless something holds. -/
theorem ite_nil_singleton_iff {p : Prop} [Decidable p] {e : Text} :
    (if p then [] else [e]) = [] ↔ p := by
  split_ifs with hp
  · exact iff_of_true rfl hp
  · exact iff_of_false id hp

theorem validateTool_eq_nil_iff {i : ℕ} {item : Yaml} :
    validateTool L provider i item = [] ↔ ToolSound L item := by
  rw [validateTool.eq_def]
  split
  · rename_i entries
    split
    · rename_i hname
      refine iff_of_false (List.cons_ne_nil _ _) fun ⟨_, ⟨s, hne, hs⟩, _⟩ => ?_
      exact Option.some_ne_none s ((Yaml.textOf_eq_some_iff.mpr ⟨hs, hne⟩).symm.trans hname)
    · rename_i hpermission
      refine iff_of_false (List.cons_ne_nil _ _) fun ⟨_, _, s, hne, hs, _⟩ => ?_
      exact Option.some_ne_none s ((Yaml.textOf_eq_some_iff.mpr ⟨hs, hne⟩).symm.trans hpermission)
    · rename_i toolName s hname hpermission
      rw [ite_nil_singleton_iff, isSome_permission_iff]
      obtain ⟨hname, hnamed⟩ := Yaml.textOf_eq_some_iff.mp hname
      obtain ⟨hpermission, hne⟩ := Yaml.textOf_eq_some_iff.mp hpermission
      constructor
      · intro hvalue
        exact ⟨⟨entries, rfl⟩, ⟨toolName, hnamed, hname⟩, s, hne, hpermission, hvalue⟩
      · rintro ⟨-, -, s', -, hs', hvalue⟩
        obtain rfl := Yaml.str.inj (hs'.symm.trans hpermission)
        exact hvalue
  · rename_i hmap
    refine iff_of_false (List.cons_ne_nil _ _) fun h => ?_
    obtain ⟨entries, rfl⟩ := h.isMap
    exact hmap entries rfl

theorem validateRisk_eq_nil_iff {risk : Yaml × Yaml} :
    validateRisk L shown provider risk = [] ↔
      ∀ s, risk.2 = .str s → ∃ level : ToolRiskLevel, L.lower s = level.value := by
  rw [validateRisk]
  split
  · rename_i s hs
    rw [ite_nil_singleton_iff, isSome_level_iff]
    constructor
    · intro h s' hs'
      obtain rfl := Yaml.str.inj (hs'.symm.trans hs)
      exact h
    · intro h
      exact h s hs
  · rename_i hother
    exact iff_of_true rfl fun s hs => absurd hs (hother s)

theorem validateRisks_eq_nil_iff {value : Yaml} :
    validateRisks L shown provider value = [] ↔ RisksSound L value := by
  rw [validateRisks.eq_def]
  split
  · rename_i risks
    rw [List.flatMap_eq_nil_iff]
    constructor
    · intro h risks' heq risk hrisk
      obtain rfl := Yaml.map.inj heq
      exact validateRisk_eq_nil_iff.mp (h risk hrisk)
    · intro h risk hrisk
      exact validateRisk_eq_nil_iff.mpr (h risks rfl risk hrisk)
  · rename_i hother
    exact iff_of_true rfl fun risks heq => absurd heq (hother risks)

/-- Validating the items of a list. -/
theorem validateTools_eq_nil_iff {items : List Yaml} :
    (items.zipIdx.flatMap fun item => validateTool L provider item.2 item.1) = [] ↔
      ∀ item ∈ items, ToolSound L item := by
  rw [List.flatMap_eq_nil_iff]
  constructor
  · intro h item hitem
    obtain ⟨i, hi, rfl⟩ := List.mem_iff_getElem.mp hitem
    exact validateTool_eq_nil_iff.mp (h (items[i], i) (List.mk_mem_zipIdx_iff_getElem?.mpr
      (List.getElem?_eq_getElem hi)))
  · rintro h ⟨item, i⟩ hitem
    exact validateTool_eq_nil_iff.mpr (h item (List.fst_mem_of_mem_zipIdx hitem))

theorem validateProvider_eq_nil_iff {entry : Yaml × Yaml} :
    validateProvider L shown entry = [] ↔ (entry.2.IsMap → ProviderSound L entry) := by
  rw [validateProvider]
  split
  · rename_i entries hmap
    rw [forall_prop_of_true ⟨entries, hmap⟩]
    split
    · rename_i hkey
      refine iff_of_false (List.cons_ne_nil _ _) fun ⟨⟨s, hne, hs⟩, _⟩ => ?_
      exact Option.some_ne_none s ((Yaml.textOf_eq_some_iff.mpr ⟨hs, hne⟩).symm.trans hkey)
    · rename_i provider hkey
      obtain ⟨hkey, hne⟩ := Yaml.textOf_eq_some_iff.mp hkey
      split
      · rename_i htools
        exact iff_of_true rfl ⟨⟨provider, hne, hkey⟩, Or.inl htools⟩
      · rename_i items htools
        rw [List.append_eq_nil_iff, validateRisks_eq_nil_iff, validateTools_eq_nil_iff]
        constructor
        · rintro ⟨hrisks, hitems⟩
          exact ⟨⟨provider, hne, hkey⟩, Or.inr ⟨items, htools, hitems, hrisks⟩⟩
        · rintro ⟨-, hnull | ⟨items', htools', hitems, hrisks⟩⟩
          · exact absurd (htools.symm.trans hnull) Yaml.noConfusion
          · obtain rfl := Yaml.seq.inj (htools.symm.trans htools')
            exact ⟨hrisks, hitems⟩
      · rename_i hnull hseq
        refine iff_of_false (List.cons_ne_nil _ _) ?_
        rintro ⟨-, htools | ⟨items, htools, -⟩⟩
        · exact hnull htools
        · exact hseq items htools
  · rename_i hmap
    refine iff_of_true rfl ?_
    rintro ⟨entries, heq⟩
    exact absurd heq (hmap entries)

/-- **Validation** finds no error exactly in the sound documents. -/
theorem validate_eq_nil_iff {policyYaml : Yaml} :
    validate L shown policyYaml = .ok [] ↔ policyYaml.IsMap ∧ Sound L policyYaml := by
  rw [validate.eq_def]
  split
  · rename_i entries
    rw [and_iff_right ⟨entries, rfl⟩]
    split
    · rename_i providers hproviders
      rw [Except.ok.injEq, List.flatMap_eq_nil_iff]
      constructor
      · intro h providers' heq entry hentry
        obtain rfl := Yaml.map.inj (hproviders.symm.trans heq)
        exact validateProvider_eq_nil_iff.mp (h entry hentry)
      · intro h entry hentry
        exact validateProvider_eq_nil_iff.mpr (h providers hproviders entry hentry)
    · rename_i hother
      exact iff_of_true rfl fun providers heq => absurd heq (hother providers)
  · rename_i hmap
    refine iff_of_false (by simp) ?_
    rintro ⟨⟨entries, rfl⟩, -⟩
    exact hmap entries rfl

/-! ### Parsing -/

/-- **Parsing a provider** whose configuration is a mapping. -/
theorem parseProvider_eq_ok_iff {entry : Yaml × Yaml} {found : Option ProviderPolicy}
    (hmap : entry.2.IsMap) :
    parseProvider L shown entry = .ok found ↔ ∃ provider, entry.1.textOf = some provider ∧
      (entry.2.get (name "tools") = .null ∧ found = none ∨
        entry.2.get (name "tools") ≠ .null ∧ ∃ tools risks,
          parseTools L provider (entry.2.get (name "tools")) = .ok tools ∧
          parseRisks L shown provider (entry.2.get (name "tool_risk_classification")) =
            .ok risks ∧
          found = some ⟨provider, detectProviderDomain provider, tools,
            entry.2.get (name "governance"), risks⟩) := by
  obtain ⟨entries, hentries⟩ := hmap
  rw [parseProvider, hentries]
  dsimp only
  cases hkey : entry.1.textOf with
  | none => simp
  | some provider =>
    dsimp only
    split
    · rename_i hnull
      rw [hnull]
      constructor
      · intro h
        exact ⟨provider, rfl, Or.inl ⟨rfl, (Except.ok.inj h).symm⟩⟩
      · rintro ⟨-, -, ⟨-, rfl⟩ | ⟨hne, -⟩⟩
        · rfl
        · exact absurd rfl hne
    · rename_i hne
      constructor
      · intro h
        obtain ⟨risks, hrisks, h⟩ := Runs.bind_eq_ok_iff.mp h
        obtain ⟨tools, htools, h⟩ := Runs.bind_eq_ok_iff.mp h
        exact ⟨provider, rfl, Or.inr ⟨hne, tools, risks, htools, hrisks, (Except.ok.inj h).symm⟩⟩
      · rintro ⟨provider', hprovider, ⟨hnull, -⟩ | ⟨-, tools, risks, htools, hrisks, rfl⟩⟩
        · exact absurd hnull hne
        · obtain rfl := Option.some.inj hprovider
          exact Runs.bind_eq_ok_iff.mpr ⟨risks, hrisks,
            Runs.bind_eq_ok_iff.mpr ⟨tools, htools, rfl⟩⟩

/-- An item that is parsed and present is a sound tool. -/
theorem toolsSound_of_parse {items : List Yaml} {tools : List RuledToolPolicy}
    (hparse : parseTools L provider (.seq items) = .ok tools) (hmap : ∀ item ∈ items, item.IsMap) :
    ∀ item ∈ items, ToolSound L item := by
  intro item hitem
  obtain ⟨found, hfound, -⟩ := Runs.mem_of_collect hparse hitem
  obtain ⟨entries, rfl⟩ := hmap item hitem
  rw [parseTool] at hfound
  obtain ⟨tool, htool, -⟩ := Runs.map_eq_ok_iff.mp hfound
  exact toolSound_of_parse ⟨entries, rfl⟩ htool

theorem risksSound_of_present {value : Yaml} {levels : Option (List (Yaml × ToolRiskLevel))}
    (h : RisksPresent L value levels) : RisksSound L value := by
  rintro risks rfl risk hrisk s hs
  obtain hnull | ⟨risks', heq, hpresent⟩ := h
  · exact Yaml.noConfusion hnull
  · obtain rfl := Yaml.map.inj heq
    obtain ⟨s', level, hs', hlower, -⟩ := hpresent risk hrisk
    obtain rfl := Yaml.str.inj (hs.symm.trans hs')
    exact ⟨level, hlower⟩

/-- A provider that is parsed and present is sound. -/
theorem providerSound_of_parse {every : Bool} {entry : Yaml × Yaml}
    {policies : List ProviderPolicy} {found : Option ProviderPolicy} (hmap : entry.2.IsMap)
    (hparse : parseProvider L shown entry = .ok found)
    (hpresent : ProviderPresent L every (ToolPresent L) entry policies) :
    ProviderSound L entry := by
  obtain ⟨provider, hkey, htools⟩ := (parseProvider_eq_ok_iff hmap).mp hparse
  obtain ⟨hkey, hne⟩ := Yaml.textOf_eq_some_iff.mp hkey
  refine ⟨⟨provider, hne, hkey⟩, ?_⟩
  obtain ⟨hnull, -⟩ | ⟨-, tools, risks, htools, -⟩ := htools
  · exact Or.inl hnull
  obtain ⟨-, hnull⟩ | ⟨-, ⟨-, hnull, -⟩ | ⟨policy, -, -, -, ⟨items, hitems, hall⟩, hrisks⟩⟩ :=
    hpresent
  · obtain ⟨entries, hentries⟩ := hmap
    exact absurd (hnull.symm.trans hentries) Yaml.noConfusion
  · exact Or.inl hnull
  · refine Or.inr ⟨items, hitems, ?_, risksSound_of_present hrisks⟩
    rw [hitems] at htools
    refine toolsSound_of_parse htools fun item hitem => ?_
    obtain ⟨tool, -, htool⟩ := hall item hitem
    exact htool.isMap

/-- A document that is parsed and present is sound. -/
theorem sound_of_parse {every : Bool} {policyYaml : Yaml} {policies : List ProviderPolicy}
    (hparse : parse L shown policyYaml = .ok policies)
    (hpresent : Present L every (ToolPresent L) policyYaml policies) :
    policyYaml.IsMap ∧ Sound L policyYaml := by
  rw [parse.eq_def] at hparse
  split at hparse
  · rename_i entries
    refine ⟨⟨entries, rfl⟩, fun providers hproviders entry hentry hmap => ?_⟩
    rw [hproviders] at hparse
    obtain ⟨found, hfound, -⟩ := Runs.mem_of_collect hparse hentry
    obtain hnull | ⟨providers', heq, hall⟩ := hpresent
    · exact absurd (hproviders.symm.trans hnull) Yaml.noConfusion
    · obtain rfl := Yaml.map.inj (hproviders.symm.trans heq)
      exact providerSound_of_parse hmap hfound (hall entry hentry)
  · cases hparse

theorem exists_parseTools (provider : Text) {items : List Yaml}
    (hsound : ∀ item ∈ items, ToolSound L item) (hheeded : ∀ item ∈ items, ToolHeeded L item) :
    ∃ tools, parseTools L provider (.seq items) = .ok tools ∧
      ∀ item ∈ items, ∃ tool ∈ tools, ToolKept L item tool := by
  obtain ⟨tools, htools, hall⟩ := Runs.exists_collect (f := parseTool L provider)
    (P := fun item found => ∃ tool ∈ found, ToolKept L item tool) fun item hitem => by
      obtain ⟨tool, htool, hkept⟩ :=
        exists_parseToolEntry provider (hsound item hitem) (hheeded item hitem)
      obtain ⟨entries, rfl⟩ := (hsound item hitem).isMap
      exact ⟨some tool, Runs.map_eq_ok_iff.mpr ⟨tool, htool, rfl⟩, tool, rfl, hkept⟩
  refine ⟨tools, htools, fun item hitem => ?_⟩
  obtain ⟨found, ⟨tool, htool, hkept⟩, hmem⟩ := hall item hitem
  exact ⟨tool, hmem tool htool, hkept⟩

theorem exists_parseRisks (shown : Yaml → Text) (provider : Text) {value : Yaml}
    (hsound : RisksSound L value)
    (hheeded : value = .null ∨ ∃ risks, value = .map risks ∧ ∀ risk ∈ risks, ∃ s, risk.2 = .str s) :
    ∃ levels, parseRisks L shown provider value = .ok levels ∧ RisksPresent L value levels := by
  obtain rfl | ⟨risks, rfl, htexts⟩ := hheeded
  · exact ⟨none, rfl, Or.inl rfl⟩
  · obtain ⟨levels, hlevels, hall⟩ := Runs.exists_collect (f := parseRisk L shown provider)
      (P := fun risk found => ∃ s l, risk.2 = .str s ∧ L.lower s = l.value ∧
        (risk.1, l) ∈ found) fun risk hrisk => by
        obtain ⟨s, hs⟩ := htexts risk hrisk
        obtain ⟨level, hlevel⟩ := hsound risks rfl risk hrisk s hs
        refine ⟨some (risk.1, level), ?_, s, level, hs, hlevel, rfl⟩
        rw [parseRisk, hs]
        exact Runs.map_eq_ok_iff.mpr ⟨level, parseRiskLevel_eq_ok_iff.mpr hlevel, rfl⟩
    refine ⟨some levels, Runs.map_eq_ok_iff.mpr ⟨levels, hlevels, rfl⟩,
      Or.inr ⟨risks, rfl, fun risk hrisk => ?_⟩⟩
    obtain ⟨found, ⟨s, level, hs, hlevel, hfound⟩, hmem⟩ := hall risk hrisk
    exact ⟨s, level, hs, hlevel, levels, rfl, hmem _ hfound⟩

theorem ProviderPresent.mono {every : Bool} {R R' : Yaml → RuledToolPolicy → Prop}
    {entry : Yaml × Yaml} {policies policies' : List ProviderPolicy}
    (hR : ∀ item tool, R item tool → R' item tool)
    (hpolicies : ∀ policy ∈ policies, policy ∈ policies')
    (h : ProviderPresent L every R entry policies) :
    ProviderPresent L every R' entry policies' := by
  obtain hnull | ⟨hmap, hnone | ⟨policy, hpolicy, hkey, hdomain, ⟨items, hitems, hall⟩, hrisks⟩⟩ :=
    h
  · exact Or.inl hnull
  · exact Or.inr ⟨hmap, Or.inl hnone⟩
  · refine Or.inr ⟨hmap, Or.inr ⟨policy, hpolicies policy hpolicy, hkey, hdomain,
      ⟨items, hitems, fun item hitem => ?_⟩, hrisks⟩⟩
    obtain ⟨tool, htool, h⟩ := hall item hitem
    exact ⟨tool, htool, hR item tool h⟩

/-- **A provider that is sound and heeded** is parsed, and present. -/
theorem exists_parseProvider (shown : Yaml → Text) {every : Bool} {entry : Yaml × Yaml}
    (hsound : entry.2.IsMap → ProviderSound L entry)
    (hheeded : ProviderHeeded L every entry.2) :
    ∃ found, parseProvider L shown entry = .ok found ∧
      ProviderPresent L every (ToolKept L) entry found.toList := by
  obtain ⟨hevery, hnull⟩ | ⟨hmap, hnone, hsome⟩ := hheeded
  · refine ⟨none, ?_, Or.inl ⟨hevery, hnull⟩⟩
    rw [parseProvider, hnull]
  obtain ⟨⟨provider, hne, hkey⟩, htools⟩ := hsound hmap
  have hprovider : entry.1.textOf = some provider := Yaml.textOf_eq_some_iff.mpr ⟨hkey, hne⟩
  obtain hnull | ⟨items, hitems, hall, hrisks⟩ := htools
  · obtain ⟨hevery, hrisks⟩ := hnone hnull
    exact ⟨none, (parseProvider_eq_ok_iff hmap).mpr ⟨provider, hprovider, Or.inl ⟨hnull, rfl⟩⟩,
      Or.inr ⟨hmap, Or.inl ⟨hevery, hnull, hrisks⟩⟩⟩
  · obtain ⟨hheeded, htexts⟩ := hsome items hitems
    obtain ⟨tools, htools, hkept⟩ := exists_parseTools provider hall hheeded
    obtain ⟨levels, hlevels, hpresent⟩ := exists_parseRisks shown provider hrisks htexts
    refine ⟨_, (parseProvider_eq_ok_iff hmap).mpr ⟨provider, hprovider, Or.inr ⟨?_, tools, levels,
      ?_, hlevels, rfl⟩⟩, Or.inr ⟨hmap, Or.inr ⟨_, List.mem_singleton_self _, hkey, rfl,
      ⟨items, hitems, hkept⟩, hpresent⟩⟩⟩
    · rw [hitems]
      exact Yaml.noConfusion
    · rw [hitems]
      exact htools

/-- **A document that is sound and heeded** is parsed, and present. -/
theorem exists_parse {every : Bool} {policyYaml : Yaml} (hmap : policyYaml.IsMap)
    (hsound : Sound L policyYaml) (hheeded : Heeded L every policyYaml) :
    ∃ policies, parse L shown policyYaml = .ok policies ∧
      Present L every (ToolKept L) policyYaml policies := by
  obtain ⟨entries, rfl⟩ := hmap
  rw [parse]
  obtain hnull | ⟨providers, hproviders, hall⟩ := hheeded
  · rw [hnull]
    exact ⟨[], rfl, Or.inl hnull⟩
  · rw [hproviders]
    obtain ⟨policies, hpolicies, hpresent⟩ := Runs.exists_collect fun entry hentry =>
      exists_parseProvider shown (hsound providers hproviders entry hentry)
        (hall entry hentry)
    refine ⟨policies, hpolicies, Or.inr ⟨providers, hproviders, fun entry hentry => ?_⟩⟩
    obtain ⟨found, hfound, hmem⟩ := hpresent entry hentry
    exact hfound.mono (fun _ _ => id) fun policy hpolicy =>
      hmem policy (Option.mem_toList.mp hpolicy)

/-! ### Agreement -/

/-- A provider that is kept is heeded. -/
theorem ProviderPresent.heeded {every : Bool} {entry : Yaml × Yaml}
    {policies : List ProviderPolicy} (h : ProviderPresent L every (ToolKept L) entry policies) :
    ProviderHeeded L every entry.2 := by
  obtain hnull | ⟨hmap, ⟨hevery, hnull, hrisks⟩ |
    ⟨policy, -, -, -, ⟨items, hitems, hall⟩, hrisks⟩⟩ := h
  · exact Or.inl hnull
  · refine Or.inr ⟨hmap, fun _ => ⟨hevery, hrisks⟩, fun items hitems => ?_⟩
    exact absurd (hnull.symm.trans hitems) Yaml.noConfusion
  · refine Or.inr ⟨hmap, fun hnull => ?_, fun items' hitems' => ⟨fun item hitem => ?_, ?_⟩⟩
    · exact absurd (hnull.symm.trans hitems) Yaml.noConfusion
    · obtain rfl := Yaml.seq.inj (hitems.symm.trans hitems')
      obtain ⟨tool, -, htool⟩ := hall item hitem
      exact htool.heeded
    · refine hrisks.imp id fun ⟨risks, heq, hpresent⟩ => ⟨risks, heq, fun risk hrisk => ?_⟩
      obtain ⟨s, -, hs, -⟩ := hpresent risk hrisk
      exact ⟨s, hs⟩

theorem Present.heeded {every : Bool} {policyYaml : Yaml} {policies : List ProviderPolicy}
    (h : Present L every (ToolKept L) policyYaml policies) : Heeded L every policyYaml :=
  h.imp id fun ⟨providers, heq, hall⟩ =>
    ⟨providers, heq, fun entry hentry => (hall entry hentry).heeded⟩

/-- **Agreement.** Validation and parsing agree exactly where a document is not sound or heeded in
full. -/
theorem validateAgrees_iff {every : Bool} {policyYaml : Yaml} :
    Agrees L shown every policyYaml ↔
      (policyYaml.IsMap → Sound L policyYaml → Heeded L every policyYaml) := by
  constructor
  · rintro ⟨hiff, hkept⟩ hmap hsound
    have hvalid : validate L shown policyYaml = .ok [] := validate_eq_nil_iff.mpr ⟨hmap, hsound⟩
    obtain ⟨policies, hparse, -⟩ := hiff.mp hvalid
    exact (hkept hvalid policies hparse).heeded
  · intro h
    -- `parse` is a function, so the policies found here are those that any other run gives
    have hexists : validate L shown policyYaml = .ok [] → ∃ policies,
        parse L shown policyYaml = .ok policies ∧
          Present L every (ToolKept L) policyYaml policies := by
      intro hvalid
      obtain ⟨hmap, hsound⟩ := validate_eq_nil_iff.mp hvalid
      exact exists_parse hmap hsound (h hmap hsound)
    refine ⟨⟨fun hvalid => ?_, ?_⟩, fun hvalid policies hparse => ?_⟩
    · obtain ⟨policies, hparse, hpresent⟩ := hexists hvalid
      refine ⟨policies, hparse, hpresent.imp id fun ⟨providers, heq, hall⟩ => ⟨providers, heq, ?_⟩⟩
      intro entry hentry
      exact (hall entry hentry).mono (fun _ _ => ToolKept.toToolPresent) fun _ => id
    · rintro ⟨policies, hparse, hpresent⟩
      exact validate_eq_nil_iff.mpr (sound_of_parse hparse hpresent)
    · obtain ⟨policies', hparse', hpresent⟩ := hexists hvalid
      obtain rfl := Except.ok.inj (hparse.symm.trans hparse')
      exact hpresent

end

/-- A document with one tool, whose risk level is none of the four. -/
def severeTool : Yaml :=
  .map [(.str (name "providers"), .map [(.str (name "openai"), .map [(.str (name "tools"),
    .seq [.map [(.str (name "name"), .str (name "search")),
      (.str (name "permission"), .str (name "allow")),
      (.str (name "risk_level"), .str (name "severe"))]])])])]

/-- Validation does not read the risk level of a tool, and parsing raises. -/
theorem severeTool_not_agrees (every : Bool) :
    ¬ Agrees asciiLower (fun _ => []) every severeTool := by
  rintro ⟨hiff, -⟩
  have hvalid : validate asciiLower (fun _ => []) severeTool = .ok [] := rfl
  obtain ⟨policies, hparse, -⟩ := hiff.mp hvalid
  have herror : Except.error (PolicyError.validation _) = Except.ok policies := hparse
  exact absurd herror (by simp)

/-- In neither reading of the entries that have to be there, validation and parsing agree. -/
theorem not_validateAgrees :
    ¬ (∀ (shown : Yaml → Text) (policyYaml : Yaml), Agrees asciiLower shown true policyYaml) ∧
      ¬ ∀ (shown : Yaml → Text) (policyYaml : Yaml), Agrees asciiLower shown false policyYaml :=
  ⟨fun h => severeTool_not_agrees true (h _ _), fun h => severeTool_not_agrees false (h _ _)⟩

end AnonReq.Governance.PolicyYaml
