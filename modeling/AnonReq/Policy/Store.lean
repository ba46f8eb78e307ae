import AnonReq.Foundation.Json
import AnonReq.Policy.Models

/-!
# The store of the policy rules and its cache

`policy/store.py`: the rules of a tenant are rebuilt from memory, the global rules first, or read
back from the cache, where `load_policies` and `set_tenant_policy` leave them as JSON.

* `readBack_normal_iff`: a rule survives the cache, up to the documented normalisation, if and only
  if its conditions and its metadata are JSON documents.
* `step_coherent_iff` is the step lemma: what keeps the cache the same as memory.
* `coherentRun_iff`: in a run the cached and the rebuilt rules agree at every moment if and only if
  every step that writes the cache writes JSON rules, and no tenant policy is set over global
  rules.
* `not_coherentRun`: after `set_tenant_policy` the global rule is gone until the entry expires.
-/

namespace AnonReq.Policy

/-! ### Rules -/

/-- A value of a dictionary the rules carry: JSON data, or anything else, with the JSON data it
reads back as once it has been written with `default=str`. -/
inductive Value where
  | json (document : Json)
  | foreign (readBack : Json)

namespace Value

/-- What the value is in a JSON text. -/
def toJson : Value → Json
  | json document => document
  | foreign readBack => readBack

/-- The value is JSON data. -/
def IsJson (value : Value) : Prop := json value.toJson = value

end Value

/-- `PolicyRule`, with all its fields. -/
structure StoredRule where
  ruleId : String
  enabled : Bool := true
  version : ℤ := 1
  name : String := ""
  description : Option String := none
  action : PolicyAction
  priority : ℤ := 0
  conditions : Option (List (String × Value)) := none
  metadata : List (String × Value) := []
  tenantId : Option String := none

/-- A rule as the cache holds it, in JSON. -/
structure CachedRule where
  ruleId : String
  enabled : Bool
  version : ℤ
  name : String
  description : String
  action : PolicyAction
  priority : ℤ
  conditions : List (String × Json)
  metadata : List (String × Json)
  tenantId : String

/-- A dictionary in a JSON text. -/
def dictToJson (dict : List (String × Value)) : List (String × Json) :=
  dict.map fun field => (field.1, field.2.toJson)

/-- A dictionary read back from a JSON text. -/
def dictOfJson (dict : List (String × Json)) : List (String × Value) :=
  dict.map fun field => (field.1, Value.json field.2)

/-- `_rule_to_dict` and `json.dumps`. -/
def ruleToDict (rule : StoredRule) : CachedRule where
  ruleId := rule.ruleId
  enabled := rule.enabled
  version := rule.version
  name := rule.name
  description := rule.description.getD ""
  action := rule.action
  priority := rule.priority
  conditions := dictToJson (rule.conditions.getD [])
  metadata := dictToJson rule.metadata
  tenantId := rule.tenantId.getD ""

/-- A text that stands for `None` where it is empty. -/
def noneOfEmpty (text : String) : Option String := if text = "" then none else some text

/-- Conditions that stand for `None` where there are none. -/
def noneOfNil (dict : List (String × Value)) : Option (List (String × Value)) :=
  if dict.isEmpty then none else some dict

/-- `json.loads` and `_dict_to_rule`. -/
def dictToRule (dict : CachedRule) : StoredRule where
  ruleId := dict.ruleId
  enabled := dict.enabled
  version := dict.version
  name := dict.name
  description := noneOfEmpty dict.description
  action := dict.action
  priority := dict.priority
  conditions := noneOfNil (dictOfJson dict.conditions)
  metadata := dictOfJson dict.metadata
  tenantId := noneOfEmpty dict.tenantId

/-- The documented normalisation: an empty description, tenant or condition is none. -/
def StoredRule.normal (rule : StoredRule) : StoredRule :=
  { rule with
    description := noneOfEmpty (rule.description.getD "")
    conditions := noneOfNil (rule.conditions.getD [])
    tenantId := noneOfEmpty (rule.tenantId.getD "") }

/-- The conditions and the metadata of the rule are JSON documents. -/
def StoredRule.IsJson (rule : StoredRule) : Prop :=
  (∀ field ∈ rule.conditions.getD [], field.2.IsJson) ∧ ∀ field ∈ rule.metadata, field.2.IsJson

/-- A dictionary is read back as it was if its values are JSON data. -/
theorem dictOfJson_dictToJson_iff (dict : List (String × Value)) :
    dictOfJson (dictToJson dict) = dict ↔ ∀ field ∈ dict, field.2.IsJson := by
  rw [dictOfJson, dictToJson, List.map_map]
  nth_rewrite 2 [← List.map_id dict]
  rw [List.map_inj_left]
  refine forall₂_congr fun field _ => ?_
  exact Prod.ext_iff.trans (and_iff_right rfl)

theorem getD_noneOfEmpty (text : String) : (noneOfEmpty text).getD "" = text := by
  rw [noneOfEmpty]
  split_ifs with h
  · exact h.symm
  · rfl

theorem getD_noneOfNil (dict : List (String × Value)) : (noneOfNil dict).getD [] = dict := by
  rcases dict with _ | ⟨field, dict⟩ <;> rfl

/-- **The cache as a mirror.** A rule read back from the cache is the rule that was written, up to
the documented normalisation, if and only if its conditions and metadata are JSON documents. -/
theorem readBack_normal_iff (rule : StoredRule) :
    (dictToRule (ruleToDict rule)).normal = rule.normal ↔ rule.IsJson := by
  have hreadBack : (dictToRule (ruleToDict rule)).normal = { rule.normal with
      conditions := noneOfNil (dictOfJson (dictToJson (rule.conditions.getD [])))
      metadata := dictOfJson (dictToJson rule.metadata) } := by
    simp only [StoredRule.normal, dictToRule, ruleToDict, getD_noneOfEmpty, getD_noneOfNil]
  rw [hreadBack, StoredRule.IsJson, ← dictOfJson_dictToJson_iff, ← dictOfJson_dictToJson_iff]
  constructor
  · intro h
    have hconditions := congrArg (fun r => r.conditions.getD []) h
    simp only [StoredRule.normal, getD_noneOfNil] at hconditions
    exact ⟨hconditions, congrArg StoredRule.metadata h⟩
  · rintro ⟨hconditions, hmetadata⟩
    rw [hconditions, hmetadata]
    rfl

/-- Rules read back from the cache, rule by rule. -/
theorem readBack_rules_iff (rules : List StoredRule) :
    ((rules.map ruleToDict).map dictToRule).map StoredRule.normal = rules.map StoredRule.normal ↔
      ∀ rule ∈ rules, rule.IsJson := by
  rw [List.map_map, List.map_map, List.map_inj_left]
  exact forall₂_congr fun rule _ => readBack_normal_iff rule

/-! ### The store -/

/-- `_policy_key`. -/
def policyKey (tenantId suffix : String) : String := "anonreq:policy:" ++ tenantId ++ ":" ++ suffix

/-- The rules of a tenant have a key of their own. -/
theorem policyKey_inj {tenantId tenantId' suffix : String} :
    policyKey tenantId suffix = policyKey tenantId' suffix ↔ tenantId = tenantId' := by
  change "anonreq:policy:" ++ tenantId ++ ":" ++ suffix =
    "anonreq:policy:" ++ tenantId' ++ ":" ++ suffix ↔ _
  rw [String.append_left_inj, String.append_left_inj, String.append_right_inj]

/-- `PolicyStore`, with the part of the cache it writes. -/
structure StoreState where
  globalRules : List StoredRule
  tenantRules : String → Option (List StoredRule)
  redis : String → Option (List CachedRule) := fun _ => none

/-- The rules of one tenant in a bundle, `none` where it has none. -/
def rulesOf (rules : List StoredRule) (tenantId : String) : Option (List StoredRule) :=
  match rules.filter fun rule => rule.tenantId = some tenantId with
  | [] => none
  | rule :: rest => some (rule :: rest)

namespace StoreState

/-- `PolicyStore.__init__`, with an empty cache. -/
def init (rules : List StoredRule) : StoreState where
  globalRules := rules.filter fun rule => rule.tenantId.isNone
  tenantRules := rulesOf rules

/-- The rules of a tenant as `load_policies` rebuilds them from memory. -/
def rebuilt (s : StoreState) (tenantId : String) : List StoredRule :=
  s.globalRules ++ (s.tenantRules tenantId).getD []

/-- `load_policies`. -/
def loadPolicies (s : StoreState) (tenantId : String) : List StoredRule × StoreState :=
  let cacheKey := policyKey tenantId "rules"
  match s.redis cacheKey with
  | some data => (data.map dictToRule, s)
  | none =>
    let rules := s.rebuilt tenantId
    (rules, { s with redis := Function.update s.redis cacheKey (some (rules.map ruleToDict)) })

/-- `set_tenant_policy`. -/
def setTenantPolicy (s : StoreState) (tenantId : String) (rules : List StoredRule) : StoreState :=
  { s with
    redis := Function.update s.redis (policyKey tenantId "rules") (some (rules.map ruleToDict))
    tenantRules := Function.update s.tenantRules tenantId (some rules) }

/-- The time to live of the rules of a tenant is over. -/
def expire (s : StoreState) (tenantId : String) : StoreState :=
  { s with redis := Function.update s.redis (policyKey tenantId "rules") none }

/-- `invalidate_cache`: the keys of one tenant, or all that `scan` finds. -/
def invalidateCache (s : StoreState) : Option String → StoreState
  | some tenantId => s.expire tenantId
  | none =>
    { s with redis := fun key =>
        if "anonreq:policy:".toList.isPrefixOf key.toList then none else s.redis key }

end StoreState

/-- What happens to a store. -/
inductive StoreStep where
  | load (tenantId : String)
  | set (tenantId : String) (rules : List StoredRule)
  | invalidate (tenantId : Option String)
  | expire (tenantId : String)

namespace StoreState

/-- One step of a store. -/
def step (s : StoreState) : StoreStep → StoreState
  | .load tenantId => (s.loadPolicies tenantId).2
  | .set tenantId rules => s.setTenantPolicy tenantId rules
  | .invalidate tenantId => s.invalidateCache tenantId
  | .expire tenantId => s.expire tenantId

/-! ### Coherence -/

/-- The same rules, up to the documented normalisation. -/
def SameRules (a b : List StoredRule) : Prop :=
  a.map StoredRule.normal = b.map StoredRule.normal

/-- Whatever the cache holds, every tenant is served the rules of memory, the global rules among
them. -/
structure Coherent (s : StoreState) : Prop where
  same : ∀ tenantId,
    SameRules (s.loadPolicies tenantId).1 ((s.expire tenantId).loadPolicies tenantId).1
  globals : ∀ tenantId, ∀ rule ∈ s.globalRules,
    rule.normal ∈ (s.loadPolicies tenantId).1.map StoredRule.normal

/-- The cache entry of a tenant mirrors the rules in memory. -/
def Mirrors (s : StoreState) (tenantId : String) : Prop :=
  ∀ data, s.redis (policyKey tenantId "rules") = some data →
    SameRules (data.map dictToRule) (s.rebuilt tenantId)

variable {s : StoreState} {tenantId : String}

theorem loadPolicies_of_none (h : s.redis (policyKey tenantId "rules") = none) :
    (s.loadPolicies tenantId).1 = s.rebuilt tenantId := by
  rw [loadPolicies, h]

theorem loadPolicies_of_some {data : List CachedRule}
    (h : s.redis (policyKey tenantId "rules") = some data) :
    s.loadPolicies tenantId = (data.map dictToRule, s) := by
  rw [loadPolicies, h]

theorem loadPolicies_expire (s : StoreState) (tenantId : String) :
    ((s.expire tenantId).loadPolicies tenantId).1 = s.rebuilt tenantId := by
  rw [loadPolicies_of_none (Function.update_self _ _ _)]
  rfl

/-- A store is coherent if and only if every cache entry mirrors memory. -/
theorem coherent_iff : Coherent s ↔ ∀ tenantId, s.Mirrors tenantId := by
  constructor
  · intro h tenantId data hdata
    have hsame := h.same tenantId
    rw [loadPolicies_expire, loadPolicies_of_some hdata] at hsame
    exact hsame
  · intro h
    have hsame (tenantId : String) :
        SameRules (s.loadPolicies tenantId).1 (s.rebuilt tenantId) := by
      rcases hdata : s.redis (policyKey tenantId "rules") with _ | data
      · rw [loadPolicies_of_none hdata]
        rfl
      · rw [loadPolicies_of_some hdata]
        exact h tenantId data hdata
    refine ⟨fun tenantId => ?_, fun tenantId rule hrule => ?_⟩
    · rw [loadPolicies_expire]
      exact hsame tenantId
    · rw [hsame tenantId]
      exact List.mem_map_of_mem (List.mem_append_left _ hrule)

/-- What a step has to meet for the cache to stay the same as memory: the rules that are cached
are JSON, and a tenant policy is set only where there are no global rules. -/
def Keeps (s : StoreState) : StoreStep → Prop
  | .load tenantId => s.redis (policyKey tenantId "rules") = none →
      ∀ rule ∈ s.rebuilt tenantId, rule.IsJson
  | .set _ rules => s.globalRules = [] ∧ ∀ rule ∈ rules, rule.IsJson
  | .invalidate _ => True
  | .expire _ => True

/-- Writing the entry of one tenant leaves the others as they are. -/
theorem mirrors_iff_of_ne {s s' : StoreState} {tenantId tenantId' : String}
    (h : tenantId' ≠ tenantId) {entry : Option (List CachedRule)}
    (hredis : s'.redis = Function.update s.redis (policyKey tenantId "rules") entry)
    (hrebuilt : s'.rebuilt tenantId' = s.rebuilt tenantId') :
    s'.Mirrors tenantId' ↔ s.Mirrors tenantId' := by
  have hkey : policyKey tenantId' "rules" ≠ policyKey tenantId "rules" :=
    fun heq => h (policyKey_inj.mp heq)
  rw [Mirrors, Mirrors, hredis, Function.update_of_ne hkey, hrebuilt]

/-- The entry that has just been written mirrors memory if and only if its rules are JSON and are
the rules of memory. -/
theorem mirrors_iff_of_written (rules : List StoredRule)
    (h : s.redis (policyKey tenantId "rules") = some (rules.map ruleToDict)) :
    s.Mirrors tenantId ↔
      SameRules ((rules.map ruleToDict).map dictToRule) (s.rebuilt tenantId) := by
  refine ⟨fun hm => hm _ h, fun hsame data hdata => ?_⟩
  obtain rfl := Option.some.inj (h.symm.trans hdata)
  exact hsame

/-- Loading rebuilt rules into the cache mirrors them if and only if they are JSON. -/
theorem mirrors_load_iff (h : s.redis (policyKey tenantId "rules") = none) :
    (s.loadPolicies tenantId).2.Mirrors tenantId ↔ ∀ rule ∈ s.rebuilt tenantId, rule.IsJson := by
  rw [← readBack_rules_iff, mirrors_iff_of_written (s.rebuilt tenantId)]
  · rw [loadPolicies, h]
    rfl
  · rw [loadPolicies, h]
    exact Function.update_self _ _ _

/-- Setting the policy of a tenant caches its own rules alone, which mirrors memory if and only
if there are no global rules and the rules are JSON. -/
theorem mirrors_set_iff (s : StoreState) (tenantId : String) (rules : List StoredRule) :
    (s.setTenantPolicy tenantId rules).Mirrors tenantId ↔
      s.globalRules = [] ∧ ∀ rule ∈ rules, rule.IsJson := by
  have hrebuilt : (s.setTenantPolicy tenantId rules).rebuilt tenantId = s.globalRules ++ rules := by
    simp only [rebuilt, setTenantPolicy, Function.update_self, Option.getD_some]
  rw [mirrors_iff_of_written rules (Function.update_self _ _ _), hrebuilt]
  constructor
  · intro h
    have hlength := congrArg List.length h
    simp only [List.length_map, List.length_append] at hlength
    have hglobals : s.globalRules = [] := List.eq_nil_of_length_eq_zero (by omega)
    refine ⟨hglobals, (readBack_rules_iff rules).mp ?_⟩
    rw [SameRules, hglobals, List.nil_append] at h
    exact h
  · rintro ⟨hglobals, hjson⟩
    rw [SameRules, hglobals, List.nil_append]
    exact (readBack_rules_iff rules).mpr hjson

/-- Where one tenant's entry is written, coherence is a matter of that entry. -/
theorem coherent_iff_of_written {s s' : StoreState} (h : Coherent s)
    {entry : Option (List CachedRule)}
    (hredis : s'.redis = Function.update s.redis (policyKey tenantId "rules") entry)
    (hrebuilt : ∀ tenantId', tenantId' ≠ tenantId → s'.rebuilt tenantId' = s.rebuilt tenantId') :
    Coherent s' ↔ s'.Mirrors tenantId := by
  rw [coherent_iff]
  refine ⟨fun h' => h' tenantId, fun hown tenantId' => ?_⟩
  rcases eq_or_ne tenantId' tenantId with rfl | hne
  · exact hown
  · exact (mirrors_iff_of_ne hne hredis (hrebuilt tenantId' hne)).mpr (coherent_iff.mp h tenantId')

/-- An entry that is dropped mirrors anything. -/
theorem mirrors_of_none (h : s.redis (policyKey tenantId "rules") = none) : s.Mirrors tenantId :=
  fun data hdata => absurd (h.symm.trans hdata) (Option.some_ne_none data).symm

theorem coherent_expire (h : Coherent s) (tenantId : String) : Coherent (s.expire tenantId) := by
  have hredis : (s.expire tenantId).redis =
      Function.update s.redis (policyKey tenantId "rules") none := rfl
  refine (coherent_iff_of_written h hredis fun _ _ => rfl).mpr (mirrors_of_none ?_)
  rw [hredis, Function.update_self]

theorem coherent_invalidateCache (h : Coherent s) (tenantId : Option String) :
    Coherent (s.invalidateCache tenantId) := by
  rcases tenantId with _ | tenantId
  · refine coherent_iff.mpr fun tenantId => mirrors_of_none (if_pos ?_)
    change "anonreq:policy:".toList.isPrefixOf
      ("anonreq:policy:" ++ tenantId ++ ":" ++ "rules").toList = true
    rw [String.append_assoc, String.append_assoc, String.toList_append]
    exact List.isPrefixOf_iff_prefix.mpr (List.prefix_append _ _)
  · exact coherent_expire h tenantId

/-- **Step.** A coherent store stays coherent if and only if the step keeps the cache the same as
memory. -/
theorem step_coherent_iff (h : Coherent s) (a : StoreStep) : Coherent (s.step a) ↔ s.Keeps a := by
  cases a with
  | load tenantId =>
    rcases hentry : s.redis (policyKey tenantId "rules") with _ | data
    · have hredis : (s.loadPolicies tenantId).2.redis = Function.update s.redis
          (policyKey tenantId "rules") (some ((s.rebuilt tenantId).map ruleToDict)) := by
        rw [loadPolicies, hentry]
      have hrebuilt (tenantId' : String) :
          (s.loadPolicies tenantId).2.rebuilt tenantId' = s.rebuilt tenantId' := by
        rw [loadPolicies, hentry]
        rfl
      rw [step, Keeps, coherent_iff_of_written h hredis fun t _ => hrebuilt t,
        mirrors_load_iff hentry]
      exact (forall_prop_of_true (q := fun _ => ∀ rule ∈ s.rebuilt tenantId, rule.IsJson)
        hentry).symm
    · rw [step, loadPolicies_of_some hentry, Keeps]
      exact iff_of_true h fun hnone => absurd (hentry.symm.trans hnone) (Option.some_ne_none data)
  | set tenantId rules =>
    rw [step, Keeps, ← mirrors_set_iff]
    refine coherent_iff_of_written h rfl fun tenantId' hne => ?_
    simp only [rebuilt, setTenantPolicy, Function.update_of_ne hne]
  | invalidate tenantId => exact iff_of_true (coherent_invalidateCache h tenantId) trivial
  | expire tenantId => exact iff_of_true (coherent_expire h tenantId) trivial

/-! ### Runs -/

/-- The store after some steps. -/
def run (s : StoreState) (steps : List StoreStep) : StoreState := steps.foldl step s

/-- At every moment of a run every tenant is served the rules of memory. -/
def CoherentRun (s : StoreState) (steps : List StoreStep) : Prop :=
  ∀ front, front <+: steps → Coherent (s.run front)

/-- Every step of a run keeps the cache the same as memory. -/
def KeepingRun (s : StoreState) (steps : List StoreStep) : Prop :=
  ∀ front a, front ++ [a] <+: steps → (s.run front).Keeps a

theorem run_concat (s : StoreState) (front : List StoreStep) (a : StoreStep) :
    s.run (front ++ [a]) = (s.run front).step a :=
  List.foldl_concat step s a front

theorem coherent_init (rules : List StoredRule) : Coherent (init rules) :=
  coherent_iff.mpr fun _ => mirrors_of_none rfl

/-- **Coherence.** In every run from every bundle, cached and rebuilt rules are the same at every
moment, the global rules among them, if and only if every step keeps the cache the same as
memory. -/
theorem coherentRun_iff (rules : List StoredRule) (steps : List StoreStep) :
    CoherentRun (init rules) steps ↔ KeepingRun (init rules) steps := by
  constructor
  · intro h front a hfront
    have hbefore := h front ((List.prefix_append front [a]).trans hfront)
    refine (step_coherent_iff hbefore a).mp ?_
    rw [← run_concat]
    exact h (front ++ [a]) hfront
  · intro h front
    -- the invariant is coherence itself, step by step
    induction front using List.reverseRecOn with
    | nil => exact fun _ => coherent_init rules
    | append_singleton front a ih =>
      intro hfront
      rw [run_concat]
      refine (step_coherent_iff (ih ((List.prefix_append front [a]).trans hfront)) a).mpr ?_
      exact h front a hfront

/-- A global rule. -/
def globalRule : StoredRule := { ruleId := "no-cards", action := .block }

/-- A rule of the tenant `acme`. -/
def tenantRule : StoredRule :=
  { ruleId := "acme-ok", action := .allow, tenantId := some "acme" }

/-- Once the policy of a tenant is set, the global rule is missing from its rules until the cache
entry expires. -/
theorem not_coherentRun :
    ((((init [globalRule]).setTenantPolicy "acme" [tenantRule]).loadPolicies "acme").1.map
        StoredRule.ruleId = ["acme-ok"]) ∧
      ((((init [globalRule]).setTenantPolicy "acme" [tenantRule]).expire "acme").loadPolicies
        "acme").1.map StoredRule.ruleId = ["no-cards", "acme-ok"] ∧
      ¬ ∀ rules steps, CoherentRun (init rules) steps := by
  refine ⟨by rfl, by rfl, fun h => ?_⟩
  have hafter : Coherent ((init [globalRule]).step (.set "acme" [tenantRule])) :=
    h [globalRule] [.set "acme" [tenantRule]] [.set "acme" [tenantRule]] (List.prefix_refl _)
  have hkeeps := (step_coherent_iff (coherent_init [globalRule]) _).mp hafter
  exact List.cons_ne_nil _ _ hkeeps.1

end StoreState

end AnonReq.Policy
