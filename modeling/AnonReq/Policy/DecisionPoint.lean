import AnonReq.Policy.EnforcementPoint
import AnonReq.Policy.Gates

/-!
# The policy decision point

`PolicyDecisionPoint` of `policy/pdp.py`: a cache of decisions in front of four gates that are
asked in turn. The first gate to answer `BLOCK` decides; when none does the answer is `ALLOW`.

* `evaluateAll` is `evaluate_all`. `evaluateAll_of_miss` writes it, on a cache miss, in terms of
  the four sub-decisions.
* `evaluateAll_permits_only_iff`: on a cache miss, permission to forward implies that every gate
  permits it exactly when it is not the case that no gate blocks and the classification or the
  residency gate answers `ROUTE_LOCAL` or `MONITOR`.
-/

namespace AnonReq.Policy

open PolicyAction

/-! ### The decision point and its surroundings -/

/-- `PolicyDecisionPoint`. `requestHash` is the digest of the JSON object of the request. -/
structure PolicyDecisionPoint where
  store : PolicyStore
  limits : RateLimitConfig := {}
  budgets : String → Option SpendBudget := fun _ => none
  residency : String → Option ResidencyRule := fun _ => none
  cacheTtl : ℤ := 5
  requestHash : List (String × String) → String

/-- The decisions cached by key, each with the clock reading at which it was stored. -/
abbrev DecisionCache := String → Option (ℚ × PolicyDecision)

/-- What calls of `evaluate_all` change. -/
structure State where
  cache : DecisionCache := fun _ => none
  redis : Redis := fun _ => none

/-- What one call meets: the clocks, and the answers of Redis to the store, the limiter and the
spend controller. `monotonic` is read when the cache is consulted, `monotonicSet` when it is
written. -/
structure Env where
  now : ℚ
  monotonic : ℚ
  monotonicSet : ℚ
  cachedRules : Option (Option (List PolicyRule)) := some none
  rulesSaved : Bool := true
  limiterReply : PipelineReply := .results
  storedSpend : Option (StoredAmount × StoredAmount) := some (.missing, .missing)

/-! ### The decision cache -/

/-- `_compute_request_hash`. -/
def computeRequestHash (P : PolicyDecisionPoint) (ctx : ProcessingContext) : String :=
  P.requestHash
    [("classification", ctx.classificationLevel), ("model", ctx.model.getD ""),
      ("provider", ctx.provider.getD ""), ("tenant_id", ctx.tenantId)]

/-- `_cache_key`. -/
def cacheKey (P : PolicyDecisionPoint) (ctx : ProcessingContext) : String :=
  ctx.tenantId ++ ":" ++ computeRequestHash P ctx

/-- `_get_cached`: the cached decision if it is fresh; an old one is deleted. -/
def getCached (ttl : ℤ) (cache : DecisionCache) (key : String) (now : ℚ) :
    Option PolicyDecision × DecisionCache :=
  match cache key with
  | none => (none, cache)
  | some (ts, decision) =>
    if now - ts < ttl then (some decision, cache) else (none, Function.update cache key none)

/-! ### The four evaluations -/

/-- `evaluate_classification` in a call. -/
def classificationDecision (P : PolicyDecisionPoint) (env : Env) (ctx : ProcessingContext) :
    PolicyDecision :=
  evaluateClassification P.cacheTtl
    (enabledRules P.store env.cachedRules env.rulesSaved ctx.tenantId)
    ctx.classificationLevel env.now

/-- `evaluate_rate_limit` in a call: the decision and the counters. -/
def rateDecision (P : PolicyDecisionPoint) (redis : Redis) (env : Env)
    (ctx : ProcessingContext) : PolicyDecision × Redis :=
  checkRateLimit P.limits redis env.limiterReply ctx.tenantId env.now

/-- `evaluate_spend` in a call. -/
def spendDecision (P : PolicyDecisionPoint) (env : Env) (ctx : ProcessingContext) :
    PolicyDecision :=
  checkSpend (P.budgets ctx.tenantId) env.storedSpend env.now

/-- `evaluate_residency` in a call. `evaluate_all` passes no region, so it is `unknown`. -/
def residencyDecision (P : PolicyDecisionPoint) (env : Env) (ctx : ProcessingContext) :
    PolicyDecision :=
  resolveRegion (P.residency ctx.tenantId) "unknown" env.now

/-- `evaluate_all`: the decision (an error is an exception that leaves the function) and the
state after the call. -/
def evaluateAll (P : PolicyDecisionPoint) (s : State) (env : Env) (ctx : ProcessingContext) :
    Except String PolicyDecision × State :=
  let key := cacheKey P ctx
  let cached := getCached P.cacheTtl s.cache key env.monotonic
  match cached.1 with
  | some decision => (.ok decision, { s with cache := cached.2 })
  | none =>
    let setCache (decision : PolicyDecision) : DecisionCache :=
      Function.update cached.2 key (some (env.monotonicSet, decision))
    let classResult := classificationDecision P env ctx
    if classResult.action = block then
      (.ok classResult, { s with cache := setCache classResult })
    else
      let rate := rateDecision P s.redis env ctx
      if rate.1.action = block then
        (.ok rate.1, { cache := setCache rate.1, redis := rate.2 })
      else
        let spendResult := spendDecision P env ctx
        if spendResult.action = block then
          (.ok spendResult, { cache := setCache spendResult, redis := rate.2 })
        else
          let residencyResult := residencyDecision P env ctx
          if residencyResult.action = block then
            (.ok residencyResult, { cache := setCache residencyResult, redis := rate.2 })
          else
            let allowed : PolicyDecision :=
              { action := allow
                matchedRuleIds := ["all_checks_passed"]
                decisionTs := env.now
                ttl_pos := default_ttl_pos }
            match allowed.withTtl? P.cacheTtl with
            | none => (.error "ValidationError", { cache := cached.2, redis := rate.2 })
            | some decision =>
              (.ok decision, { cache := setCache decision, redis := rate.2 })

/-! ### A cache miss -/

/-- The call does not find a fresh decision. -/
def Misses (P : PolicyDecisionPoint) (s : State) (env : Env) (ctx : ProcessingContext) : Prop :=
  (getCached P.cacheTtl s.cache (cacheKey P ctx) env.monotonic).1 = none

/-- One of the four gates blocks. -/
def SomeGateBlocks (P : PolicyDecisionPoint) (s : State) (env : Env)
    (ctx : ProcessingContext) : Prop :=
  ClassificationBlocks P.cacheTtl
      (enabledRules P.store env.cachedRules env.rulesSaved ctx.tenantId)
      ctx.classificationLevel ∨
    RateBlocks P.limits s.redis env.limiterReply ctx.tenantId env.now ∨
    SpendBlocks (P.budgets ctx.tenantId) env.storedSpend ∨
    ResidencyBlocks (P.residency ctx.tenantId) "unknown"

/-- The first rule that matches the classification, or the fallback of the residency rule, asks
for something the enforcement point does not forward without being a `BLOCK`. -/
def SomeGateWithholds (P : PolicyDecisionPoint) (env : Env) (ctx : ProcessingContext) : Prop :=
  (∃ rules, enabledRules P.store env.cachedRules env.rulesSaved ctx.tenantId = some rules ∧
    (matchedAction rules ctx.classificationLevel = routeLocal ∨
      matchedAction rules ctx.classificationLevel = monitor)) ∨
    FallsBackTo (P.residency ctx.tenantId) "unknown" routeLocal ∨
    FallsBackTo (P.residency ctx.tenantId) "unknown" monitor

/-- An action that is no `BLOCK` is withheld exactly when it is `ROUTE_LOCAL` or `MONITOR`. -/
theorem not_forwards_iff {action : PolicyAction} (h : action ≠ block) :
    ¬ action.Forwards ↔ action = routeLocal ∨ action = monitor := by
  cases action <;> simp_all [Forwards]

variable {P : PolicyDecisionPoint}

theorem someGateBlocks_iff {s : State} {env : Env} {ctx : ProcessingContext} :
    SomeGateBlocks P s env ctx ↔ (classificationDecision P env ctx).action = block ∨
      (rateDecision P s.redis env ctx).1.action = block ∨
      (spendDecision P env ctx).action = block ∨ (residencyDecision P env ctx).action = block := by
  rw [classificationDecision, evaluateClassification_eq_block_iff, rateDecision,
    (checkRateLimit_action ..).1, spendDecision, (checkSpend_action ..).1, residencyDecision,
    resolveRegion_eq_block_iff]
  rfl

/-- **A cache miss.** `evaluate_all` returns a block when some gate blocks and `ALLOW` when none
does, and caches what it returns. The counters are those the rate gate leaves, or the old ones
when classification blocked before it. -/
theorem evaluateAll_of_miss {s : State} {env : Env} {ctx : ProcessingContext}
    (hmiss : Misses P s env ctx) :
    ∃ decision, (evaluateAll P s env ctx).1 = .ok decision ∧
      (evaluateAll P s env ctx).2.cache (cacheKey P ctx) = some (env.monotonicSet, decision) ∧
      ((SomeGateBlocks P s env ctx ∧ decision.action = block ∧
        ((evaluateAll P s env ctx).2.redis = s.redis ∨
          (evaluateAll P s env ctx).2.redis = (rateDecision P s.redis env ctx).2)) ∨
      (¬ SomeGateBlocks P s env ctx ∧ decision.action = allow ∧
        (evaluateAll P s env ctx).2.redis = (rateDecision P s.redis env ctx).2)) := by
  have hmiss : (getCached P.cacheTtl s.cache (cacheKey P ctx) env.monotonic).1 = none := hmiss
  rw [someGateBlocks_iff]
  simp only [evaluateAll, hmiss]
  -- one case for each gate that can be the first to block
  by_cases hclass : (classificationDecision P env ctx).action = block
  · rw [if_pos hclass]
    exact ⟨_, rfl, Function.update_self .., Or.inl ⟨Or.inl hclass, hclass, Or.inl rfl⟩⟩
  rw [if_neg hclass]
  by_cases hrate : (rateDecision P s.redis env ctx).1.action = block
  · rw [if_pos hrate]
    exact ⟨_, rfl, Function.update_self .., Or.inl ⟨Or.inr (Or.inl hrate), hrate, Or.inr rfl⟩⟩
  rw [if_neg hrate]
  by_cases hspend : (spendDecision P env ctx).action = block
  · rw [if_pos hspend]
    exact ⟨_, rfl, Function.update_self ..,
      Or.inl ⟨Or.inr (Or.inr (Or.inl hspend)), hspend, Or.inr rfl⟩⟩
  rw [if_neg hspend]
  by_cases hresidency : (residencyDecision P env ctx).action = block
  · rw [if_pos hresidency]
    exact ⟨_, rfl, Function.update_self ..,
      Or.inl ⟨Or.inr (Or.inr (Or.inr hresidency)), hresidency, Or.inr rfl⟩⟩
  rw [if_neg hresidency]
  have httl : 0 < P.cacheTtl := by
    rw [classificationDecision, evaluateClassification_eq_block_iff] at hclass
    by_contra hle
    exact hclass (Or.inl (by omega))
  rw [PolicyDecision.withTtl?_of_pos httl]
  refine ⟨_, rfl, Function.update_self .., Or.inr ⟨?_, rfl, rfl⟩⟩
  rintro (h | h | h | h)
  · exact hclass h
  · exact hrate h
  · exact hspend h
  · exact hresidency h

/-- **A cache hit.** `evaluate_all` returns the cached decision and asks no gate. -/
theorem evaluateAll_of_hit {s : State} {env : Env} {ctx : ProcessingContext}
    {decision : PolicyDecision}
    (hhit : (getCached P.cacheTtl s.cache (cacheKey P ctx) env.monotonic).1 = some decision) :
    (evaluateAll P s env ctx).1 = .ok decision ∧
      (evaluateAll P s env ctx).2.redis = s.redis := by
  simp only [evaluateAll, hhit, and_self]

/-- A decision is served again until its time to live is over. -/
theorem getCached_of_fresh {ttl : ℤ} {cache : DecisionCache} {key : String} {ts now : ℚ}
    {decision : PolicyDecision} (hcached : cache key = some (ts, decision))
    (hfresh : now - ts < ttl) : (getCached ttl cache key now).1 = some decision := by
  rw [getCached, hcached]
  simp only [if_pos hfresh]

/-! ### Permission to forward -/

/-- The rate and the spend gate forward whenever they do not block. -/
theorem rate_spend_forwards {s : State} {env : Env} {ctx : ProcessingContext}
    (h : ¬ SomeGateBlocks P s env ctx) :
    (rateDecision P s.redis env ctx).1.action.Forwards ∧
      (spendDecision P env ctx).action.Forwards := by
  rw [someGateBlocks_iff] at h
  refine ⟨Or.inl (((checkRateLimit_action ..).2).resolve_left fun hrate => ?_),
    Or.inl (((checkSpend_action ..).2).resolve_left fun hspend => ?_)⟩
  · exact h (Or.inr (Or.inl hrate))
  · exact h (Or.inr (Or.inr (Or.inl hspend)))

/-- When no gate blocks, classification and residency both forward unless one withholds. -/
theorem classification_residency_forwards_iff {s : State} {env : Env} {ctx : ProcessingContext}
    (h : ¬ SomeGateBlocks P s env ctx) :
    ((classificationDecision P env ctx).action.Forwards ∧
      (residencyDecision P env ctx).action.Forwards) ↔ ¬ SomeGateWithholds P env ctx := by
  have hclass : (classificationDecision P env ctx).action ≠ block := fun hb =>
    h (someGateBlocks_iff.mpr (Or.inl hb))
  have hresidency : (residencyDecision P env ctx).action ≠ block := fun hb =>
    h (someGateBlocks_iff.mpr (Or.inr (Or.inr (Or.inr hb))))
  have hfallback := not_forwards_iff hresidency
  rw [residencyDecision, resolveRegion_eq_iff (by decide) (by decide),
    resolveRegion_eq_iff (by decide) (by decide)] at hfallback
  have hnone : ¬ ClassificationBlocks P.cacheTtl
      (enabledRules P.store env.cachedRules env.rulesSaved ctx.tenantId)
      ctx.classificationLevel := fun hb => h (Or.inl hb)
  rw [ClassificationBlocks, not_or, not_le] at hnone
  obtain ⟨rules, hrules, -⟩ : ∃ rules, enabledRules P.store env.cachedRules env.rulesSaved
      ctx.tenantId = some rules ∧ matchedAction rules ctx.classificationLevel ≠ block := by
    simpa using hnone.2
  have haction : (classificationDecision P env ctx).action =
      matchedAction rules ctx.classificationLevel := by
    rw [classificationDecision, hrules, evaluateClassification_action hnone.1]
  have hmatched := not_forwards_iff hclass
  rw [haction] at hmatched ⊢
  simp only [SomeGateWithholds, hrules, Option.some.injEq, exists_eq_left', ← hmatched,
    ← hfallback]
  rw [residencyDecision]
  tauto

/-- **No gate is weakened, except where one withholds.** On a cache miss, permission to forward
implies that each of the four sub-decisions permits it on its own, if and only if some gate
blocks, or neither the first rule that matches the classification nor the fallback of the
residency rule is `ROUTE_LOCAL` or `MONITOR`. -/
theorem evaluateAll_permits_only_iff (P : PolicyDecisionPoint) (s : State) (env : Env)
    (ctx : ProcessingContext) (decisionId now : String) (hmiss : Misses P s env ctx) :
    (∀ decision, (evaluateAll P s env ctx).1 = .ok decision →
      (enforce decisionId now decision ctx).shouldForward = true →
      (enforce decisionId now (classificationDecision P env ctx) ctx).shouldForward = true ∧
      (enforce decisionId now (rateDecision P s.redis env ctx).1 ctx).shouldForward = true ∧
      (enforce decisionId now (spendDecision P env ctx) ctx).shouldForward = true ∧
      (enforce decisionId now (residencyDecision P env ctx) ctx).shouldForward = true) ↔
    (SomeGateBlocks P s env ctx ∨ ¬ SomeGateWithholds P env ctx) := by
  simp only [enforce_shouldForward_iff]
  obtain ⟨decision, hdecision, -, ⟨hblocks, haction, -⟩ | ⟨hblocks, haction, -⟩⟩ :=
    evaluateAll_of_miss hmiss
  · refine ⟨fun _ => Or.inl hblocks, fun _ d hd hforwards => ?_⟩
    obtain rfl : decision = d := Except.ok.inj (hdecision.symm.trans hd)
    rw [haction] at hforwards
    rcases hforwards with h | h <;> cases h
  · obtain ⟨hrate, hspend⟩ := rate_spend_forwards hblocks
    have hrest := classification_residency_forwards_iff hblocks
    refine ⟨fun h => Or.inr (hrest.mp ?_), fun h d hd _ => ?_⟩
    · obtain ⟨hclass, -, -, hresidency⟩ := h decision hdecision (Or.inl haction)
      exact ⟨hclass, hresidency⟩
    · obtain ⟨hclass, hresidency⟩ := hrest.mpr (h.resolve_left hblocks)
      exact ⟨hclass, hrate, hspend, hresidency⟩

/-! ### A rule that routes to the local endpoint -/

/-- A decision point with the given rules and limits. -/
def samplePdp (rules : List PolicyRule) (limits : RateLimitConfig) : PolicyDecisionPoint where
  store := { globalRules := rules }
  limits := limits
  requestHash fields := String.join (fields.map fun p => p.1 ++ p.2)

/-- Restricted data stays on the local endpoint. -/
def sampleRule : PolicyRule where
  ruleId := "restricted-local"
  action := routeLocal
  conditions := some [("classification_level", .text "RESTRICTED")]

/-- A request with restricted data. -/
def sampleRequest : ProcessingContext where
  tenantId := "acme"
  model := some "gpt-4o"
  classificationLevel := "RESTRICTED"

/-- A call at a given time, everything reachable. -/
def sampleEnv (time : ℚ) : Env where
  now := time
  monotonic := time
  monotonicSet := time

/-- On an empty state no gate blocks a request whose first matching rule does not. -/
theorem not_someGateBlocks_sample {rules : List PolicyRule}
    (h : enabledRules { globalRules := rules } (some none) true "acme" = some rules)
    (haction : matchedAction rules "RESTRICTED" ≠ block) (limits : RateLimitConfig) (time : ℚ) :
    ¬ SomeGateBlocks (samplePdp rules limits) {} (sampleEnv time) sampleRequest := by
  have hrpm := limits.rpm_pos
  have htpm := limits.tpm_pos
  have hconcurrent := limits.concurrent_pos
  have hcount : ∀ key, Redis.count (fun _ => none) time key = 0 := fun key => by
    simp [Redis.count, Redis.live]
  rintro (hclass | hrate | hspend | hresidency)
  · rcases hclass with httl | hblock
    · simp [samplePdp] at httl
    · exact haction (hblock rules h)
  · simp only [RateBlocks, samplePdp, sampleEnv, hcount, ne_eq, not_true_eq_false,
      false_or] at hrate
    omega
  · simp [SpendBlocks, samplePdp] at hspend
  · simp [ResidencyBlocks, FallsBackTo, samplePdp] at hresidency

/-- Without rules every gate permits what the decision point permits. -/
theorem evaluateAll_permits_only_sample :
    ∃ decision, (evaluateAll (samplePdp [] {}) {} (sampleEnv 0) sampleRequest).1 = .ok decision ∧
      (enforce "id" "now" decision sampleRequest).shouldForward = true ∧
      (enforce "id" "now" (classificationDecision (samplePdp [] {}) (sampleEnv 0) sampleRequest)
        sampleRequest).shouldForward = true := by
  have hwithholds : ¬ SomeGateWithholds (samplePdp [] {}) (sampleEnv 0) sampleRequest := by
    simp [SomeGateWithholds, FallsBackTo, samplePdp, sampleEnv, enabledRules, loadPolicies,
      matchedAction]
  have hrules : enabledRules { globalRules := [] } (some none) true "acme" = some [] := by
    simp [enabledRules, loadPolicies]
  have hblocks := not_someGateBlocks_sample hrules (by decide) {} 0
  have hmiss : Misses (samplePdp [] {}) {} (sampleEnv 0) sampleRequest := rfl
  have hpermits := (evaluateAll_permits_only_iff (samplePdp [] {}) {} (sampleEnv 0) sampleRequest
    "id" "now" hmiss).mpr (Or.inr hwithholds)
  obtain ⟨decision, hdecision, -, ⟨hsome, -, -⟩ | ⟨-, haction, -⟩⟩ := evaluateAll_of_miss hmiss
  · exact absurd hsome hblocks
  · have hforward : (enforce "id" "now" decision sampleRequest).shouldForward = true :=
      enforce_shouldForward_iff.mpr (Or.inl haction)
    exact ⟨decision, hdecision, hforward, (hpermits decision hdecision hforward).1⟩

/-- A request that a rule routes to the local endpoint is forwarded. -/
theorem evaluateAll_forwards_routeLocal :
    Misses (samplePdp [sampleRule] {}) {} (sampleEnv 0) sampleRequest ∧
    ∃ decision,
      (evaluateAll (samplePdp [sampleRule] {}) {} (sampleEnv 0) sampleRequest).1 = .ok decision ∧
      (enforce "id" "now" decision sampleRequest).shouldForward = true ∧
      (classificationDecision (samplePdp [sampleRule] {}) (sampleEnv 0) sampleRequest).action =
        routeLocal ∧
      (enforce "id" "now" (classificationDecision (samplePdp [sampleRule] {}) (sampleEnv 0)
        sampleRequest) sampleRequest).shouldForward = false := by
  have hmatched : matchedAction [sampleRule] "RESTRICTED" = routeLocal := by decide
  have hrules : enabledRules { globalRules := [sampleRule] } (some none) true "acme" =
      some [sampleRule] := by
    simp [enabledRules, loadPolicies, sampleRule]
  have hblocks := not_someGateBlocks_sample hrules (by rw [hmatched]; decide) {} 0
  have hclass : (classificationDecision (samplePdp [sampleRule] {}) (sampleEnv 0)
      sampleRequest).action = routeLocal := by
    have heval : (evaluateClassification 5 (some [sampleRule]) "RESTRICTED" 0).action =
        matchedAction [sampleRule] "RESTRICTED" := evaluateClassification_action (by decide)
    rw [hmatched, ← hrules] at heval
    exact heval
  have hmiss : Misses (samplePdp [sampleRule] {}) {} (sampleEnv 0) sampleRequest := rfl
  obtain ⟨decision, hdecision, -, ⟨hsome, -, -⟩ | ⟨-, haction, -⟩⟩ := evaluateAll_of_miss hmiss
  · exact absurd hsome hblocks
  · refine ⟨hmiss, decision, hdecision, ?_, hclass, ?_⟩
    · exact enforce_shouldForward_iff.mpr (Or.inl haction)
    · rw [← Bool.not_eq_true, enforce_shouldForward_iff, hclass]
      rintro (h | h) <;> cases h

end AnonReq.Policy
