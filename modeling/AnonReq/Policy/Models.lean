import Mathlib.Data.Rat.Floor
import Mathlib.Data.String.Basic

/-!
# Policy rules, decisions and limits

The data of the policy engine (`policy/models.py`), and the store of its rules
(`policy/store.py`). A decision cannot be built without a positive time to live, nor a limit
configuration without positive limits: the validators are fields.

Clock readings are rational numbers of seconds.
-/

namespace AnonReq.Policy

/-! ### Actions, rules, decisions -/

/-- `PolicyAction`. -/
inductive PolicyAction where
  | block
  | allow
  | routeLocal
  | flagAndForward
  | monitor
deriving DecidableEq, Repr

/-- The value of a condition of a rule: a text, or anything else. -/
inductive ConditionValue where
  | text (s : String)
  | other
deriving DecidableEq

/-- `PolicyRule`, with the fields the decision point reads. -/
structure PolicyRule where
  ruleId : String
  enabled : Bool := true
  action : PolicyAction
  priority : ℤ := 0
  conditions : Option (List (String × ConditionValue)) := none
deriving DecidableEq

/-- The default time to live is positive. -/
theorem default_ttl_pos : (0 : ℤ) < 60 := by decide

/-- `PolicyDecision`. -/
structure PolicyDecision where
  action : PolicyAction
  matchedRuleIds : List String
  decisionTs : ℚ
  ttlSeconds : ℤ := 60
  reason : Option String := none
  enforcement : Option String := none
  ttl_pos : 0 < ttlSeconds := by decide
deriving DecidableEq

/-- A decision with a given time to live: `none` is the `ValidationError`. -/
def PolicyDecision.withTtl? (d : PolicyDecision) (ttlSeconds : ℤ) : Option PolicyDecision :=
  if h : 0 < ttlSeconds then some { d with ttlSeconds := ttlSeconds, ttl_pos := h } else none

theorem PolicyDecision.withTtl?_of_pos {d : PolicyDecision} {ttlSeconds : ℤ}
    (h : 0 < ttlSeconds) :
    d.withTtl? ttlSeconds = some { d with ttlSeconds := ttlSeconds, ttl_pos := h } :=
  dif_pos h

theorem PolicyDecision.withTtl?_of_not_pos {d : PolicyDecision} {ttlSeconds : ℤ}
    (h : ¬ 0 < ttlSeconds) : d.withTtl? ttlSeconds = none :=
  dif_neg h

/-! ### Limits -/

/-- `RateLimitConfig`. -/
structure RateLimitConfig where
  rpm : ℤ := 1000
  tpm : ℤ := 100000
  concurrent : ℤ := 50
  rpm_pos : 0 < rpm := by decide
  tpm_pos : 0 < tpm := by decide
  concurrent_pos : 0 < concurrent := by decide

/-- `SpendBudget`. -/
structure SpendBudget where
  dailyUsd : Option ℚ := none
  monthlyUsd : Option ℚ := none
  enabled : Bool := true

/-- `ResidencyRule`. -/
structure ResidencyRule where
  allowedRegions : List String
  blockedRegions : List String := []
  fallbackAction : PolicyAction := .block

/-! ### The request -/

/-- The fields of the `ProcessingContext` the policy engine reads: an absent name is `none`, the
classification level is empty without a classification result. -/
structure ProcessingContext where
  tenantId : String
  model : Option String := none
  provider : Option String := none
  classificationLevel : String := ""
  detections : ℕ := 0
  transformed : Bool := false

/-! ### The rule store -/

/-- `PolicyStore`: the global rules and those of each tenant. -/
structure PolicyStore where
  globalRules : List PolicyRule
  tenantRules : String → Option (List PolicyRule) := fun _ => none

/-- `load_policies`. `cached` is what the cache returns for the tenant and `saved` whether the
rules could be written to it; `none` is an exception. -/
def loadPolicies (store : PolicyStore) (cached : Option (Option (List PolicyRule)))
    (saved : Bool) (tenantId : String) : Option (List PolicyRule) :=
  match cached with
  | none => none
  | some (some rules) => some rules
  | some none =>
    let rules := store.globalRules ++ (store.tenantRules tenantId).getD []
    if saved then some rules else none

/-- `enabled_rules`: the enabled rules by falling priority, in their order where it is equal. -/
def enabledRules (store : PolicyStore) (cached : Option (Option (List PolicyRule)))
    (saved : Bool) (tenantId : String) : Option (List PolicyRule) :=
  (loadPolicies store cached saved tenantId).map fun rules =>
    (rules.filter PolicyRule.enabled).mergeSort fun a b => decide (b.priority ≤ a.priority)

end AnonReq.Policy
