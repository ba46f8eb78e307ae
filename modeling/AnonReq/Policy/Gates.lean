import AnonReq.Policy.Models

/-!
# The four gates

The evaluations the decision point asks for: the classification rules (`policy/pdp.py`), the
usage limiter (`policy/usage_limiter.py`), the spend controller (`policy/spend_controller.py`)
and the residency router (`policy/residency_router.py`). Each answers with a decision; an
exception inside one becomes a `BLOCK` with enforcement `503`.

For each gate a predicate on its inputs says when it blocks (`ClassificationBlocks`,
`RateBlocks`, `SpendBlocks`, `ResidencyBlocks`), and a lemma that it does so exactly then. Only
classification and residency can answer with something else than `ALLOW` and `BLOCK`.
-/

namespace AnonReq.Policy

open PolicyAction

/-- The decision a gate turns an exception into. -/
def errorDecision (ruleId reason : String) (now : ℚ) : PolicyDecision where
  action := block
  matchedRuleIds := [ruleId]
  decisionTs := now
  reason := some reason
  enforcement := some "503"

/-! ### Classification -/

/-- A rule matches a level when its condition names it. -/
def ruleMatches (level : String) (rule : PolicyRule) : Bool :=
  match (rule.conditions.getD []).lookup "classification_level" with
  | some (.text ruleLevel) => decide (ruleLevel ≠ "" ∧ ruleLevel = level)
  | _ => false

/-- `evaluate_classification`. `rules` is `none` when the store raised. -/
def evaluateClassification (cacheTtl : ℤ) (rules : Option (List PolicyRule)) (level : String)
    (now : ℚ) : PolicyDecision :=
  let decision : Option PolicyDecision :=
    match rules with
    | none => none
    | some rules =>
      match rules.find? (ruleMatches level) with
      | some rule =>
        PolicyDecision.withTtl? {
          action := rule.action
          matchedRuleIds := [rule.ruleId]
          decisionTs := now
          reason := some ("Classification rule '" ++ rule.ruleId ++ "' matched level '" ++
            level ++ "'") } cacheTtl
      | none =>
        PolicyDecision.withTtl? {
          action := allow
          matchedRuleIds := []
          decisionTs := now } cacheTtl
  decision.getD (errorDecision "classification_error" "Classification evaluation failed" now)

/-- The action of the first rule that matches. -/
def matchedAction (rules : List PolicyRule) (level : String) : PolicyAction :=
  match rules.find? (ruleMatches level) with
  | some rule => rule.action
  | none => allow

/-- The classification gate blocks: the rules could not be read, or no decision can be built
from them, or the first rule that matches says so. -/
def ClassificationBlocks (cacheTtl : ℤ) (rules : Option (List PolicyRule)) (level : String) :
    Prop :=
  cacheTtl ≤ 0 ∨ ∀ rs, rules = some rs → matchedAction rs level = block

theorem evaluateClassification_action {cacheTtl : ℤ} {rules : List PolicyRule} {level : String}
    {now : ℚ} (h : 0 < cacheTtl) :
    (evaluateClassification cacheTtl (some rules) level now).action =
      matchedAction rules level := by
  rw [evaluateClassification, matchedAction]
  rcases rules.find? (ruleMatches level) with _ | rule
  · simp only [PolicyDecision.withTtl?_of_pos h, Option.getD_some]
  · simp only [PolicyDecision.withTtl?_of_pos h, Option.getD_some]

theorem evaluateClassification_eq_block_iff {cacheTtl : ℤ} {rules : Option (List PolicyRule)}
    {level : String} {now : ℚ} :
    (evaluateClassification cacheTtl rules level now).action = block ↔
      ClassificationBlocks cacheTtl rules level := by
  rcases rules with _ | rs
  · have hread : ClassificationBlocks cacheTtl none level := Or.inr (by simp)
    exact ⟨fun _ => hread, fun _ => rfl⟩
  · by_cases hpos : 0 < cacheTtl
    · rw [evaluateClassification_action hpos, ClassificationBlocks]
      have hle : ¬ cacheTtl ≤ 0 := by omega
      simp [hle]
    · have herror : (evaluateClassification cacheTtl (some rs) level now).action = block := by
        rw [evaluateClassification]
        rcases rs.find? (ruleMatches level) with _ | rule
        · simp only [PolicyDecision.withTtl?_of_not_pos hpos, Option.getD_none, errorDecision]
        · simp only [PolicyDecision.withTtl?_of_not_pos hpos, Option.getD_none, errorDecision]
      exact ⟨fun _ => Or.inl (by omega), fun _ => herror⟩

/-! ### Counters in Redis -/

/-- A counter and when it expires. -/
structure Counter where
  value : ℤ
  expiresAt : Option ℚ := none

/-- The counter has not expired. -/
def Counter.alive (now : ℚ) (c : Counter) : Bool := c.expiresAt.all fun t => decide (now < t)

/-- The counters by key. -/
abbrev Redis := String → Option Counter

namespace Redis

/-- The counter of a key, if there is one and it has not expired. -/
def live (redis : Redis) (now : ℚ) (key : String) : Option Counter :=
  (redis key).filter (Counter.alive now)

/-- `GET` of a counter, a missing one counting as `0`. -/
def count (redis : Redis) (now : ℚ) (key : String) : ℤ :=
  ((redis.live now key).map Counter.value).getD 0

/-- `INCR`: a missing counter counts as `0`; the time to live is kept. -/
def incr (redis : Redis) (now : ℚ) (key : String) : Redis :=
  Function.update redis key (some ((redis.live now key).elim { value := 1 } fun c =>
    { c with value := c.value + 1 }))

/-- `EXPIRE`. -/
def expire (redis : Redis) (now : ℚ) (key : String) (seconds : ℚ) : Redis :=
  Function.update redis key
    ((redis.live now key).map fun c => { c with expiresAt := some (now + seconds) })

/-- `INCR` and then `EXPIRE` in 60 seconds: the value of the counter, and the counters. -/
def hit (redis : Redis) (now : ℚ) (key : String) : ℤ × Redis :=
  ((redis.incr now key).count now key, (redis.incr now key).expire now key 60)

theorem live_incr_self (redis : Redis) (now : ℚ) (key : String) :
    ∃ c, (redis.incr now key).live now key = some c ∧ c.value = redis.count now key + 1 := by
  rcases hlive : redis.live now key with _ | c
  · have hnew : redis.incr now key key = some { value := 1 } := by simp [incr, hlive]
    exact ⟨{ value := 1 }, by simp [live, hnew, Counter.alive], by simp [count, hlive]⟩
  · have halive : c.alive now = true := (Option.filter_eq_some_iff.mp hlive).2
    have hnew : redis.incr now key key = some { c with value := c.value + 1 } := by
      simp [incr, hlive]
    refine ⟨{ c with value := c.value + 1 }, ?_, by simp [count, hlive]⟩
    rw [live, hnew, Option.filter_some, if_pos]
    exact halive

@[simp]
theorem hit_fst (redis : Redis) (now : ℚ) (key : String) :
    (redis.hit now key).1 = redis.count now key + 1 := by
  obtain ⟨c, hlive, hvalue⟩ := redis.live_incr_self now key
  simp [hit, count, hlive, hvalue]

/-- After a hit the counter stands for another 60 seconds. -/
theorem hit_snd_self (redis : Redis) (now : ℚ) (key : String) :
    (redis.hit now key).2 key =
      some { value := redis.count now key + 1, expiresAt := some (now + 60) } := by
  obtain ⟨c, hlive, hvalue⟩ := redis.live_incr_self now key
  simp [hit, expire, hlive, hvalue]

theorem hit_snd_of_ne (redis : Redis) (now : ℚ) {key other : String} (h : other ≠ key) :
    (redis.hit now key).2 other = redis other := by
  simp [hit, expire, incr, Function.update_of_ne h]

theorem count_of_alive {redis : Redis} {now : ℚ} {key : String} {c : Counter}
    (h : redis key = some c) (halive : c.alive now = true) : redis.count now key = c.value := by
  simp [count, live, h, Option.filter_some, halive]

theorem count_congr {redis redis' : Redis} {key : String} (h : redis' key = redis key)
    (now : ℚ) : redis'.count now key = redis.count now key := by
  simp [count, live, h]

end Redis

/-! ### The usage limiter -/

/-- The limiter window of a time: `int(time.time() / 60)`. -/
def window (now : ℚ) : ℤ := ⌊now / 60⌋

/-- The key of a limiter counter of one window. -/
def limiterKey (kind tenantId : String) (window : ℤ) : String :=
  "anonreq:ratelimit:" ++ tenantId ++ kind ++ toString window

/-- `_rpm_key`. -/
def rpmKey (tenantId : String) (now : ℚ) : String := limiterKey ":rpm:" tenantId (window now)

/-- `_tpm_key`. -/
def tpmKey (tenantId : String) (now : ℚ) : String := limiterKey ":tpm:" tenantId (window now)

/-- `_concurrent_key`. -/
def concurrentKey (tenantId : String) : String :=
  "anonreq:ratelimit:" ++ tenantId ++ ":concurrent"

/-- How the pipeline of the limiter ends: with its results, or with an exception, the commands
having been executed or not. -/
inductive PipelineReply where
  | results
  | raised (executed : Bool)
deriving DecidableEq

/-- One limit that is exceeded, as it is reported. -/
def exceeded (label : String) (value limit : ℤ) : String :=
  label ++ " limit exceeded: " ++ toString value ++ "/" ++ toString limit

/-- The counters after the pipeline: both request counters are hit. -/
def hitBoth (redis : Redis) (tenantId : String) (now : ℚ) : Redis :=
  ((redis.hit now (rpmKey tenantId now)).2.hit now (tpmKey tenantId now)).2

/-- `check_rate_limit`: the decision and the counters. -/
def checkRateLimit (config : RateLimitConfig) (redis : Redis) (reply : PipelineReply)
    (tenantId : String) (now : ℚ) : PolicyDecision × Redis :=
  match reply with
  | .raised executed =>
    (errorDecision "rate_limit_error" "Rate limit check failed: cache unavailable" now,
      if executed then hitBoth redis tenantId now else redis)
  | .results =>
    let rpm := redis.hit now (rpmKey tenantId now)
    let tpm := rpm.2.hit now (tpmKey tenantId now)
    let concurrent := tpm.2.count now (concurrentKey tenantId)
    let reasons :=
      (if rpm.1 > config.rpm then [exceeded "RPM" rpm.1 config.rpm] else []) ++
      (if tpm.1 > config.tpm then [exceeded "TPM" tpm.1 config.tpm] else []) ++
      (if concurrent ≥ config.concurrent then
        [exceeded "Concurrent" concurrent config.concurrent] else [])
    if reasons ≠ [] then
      ({ action := block
         matchedRuleIds := ["rate_limit"]
         decisionTs := now
         reason := some ("; ".intercalate reasons) }, tpm.2)
    else
      ({ action := allow
         matchedRuleIds := ["rate_limit"]
         decisionTs := now }, tpm.2)

/-- The rate gate blocks: the counters could not be updated, or this request exceeds one of the
limits. -/
def RateBlocks (config : RateLimitConfig) (redis : Redis) (reply : PipelineReply)
    (tenantId : String) (now : ℚ) : Prop :=
  reply ≠ .results ∨
    config.rpm < redis.count now (rpmKey tenantId now) + 1 ∨
    config.tpm < redis.count now (tpmKey tenantId now) + 1 ∨
    config.concurrent ≤ redis.count now (concurrentKey tenantId)

private theorem toList_limiterKey (kind tenantId : String) (window : ℤ) :
    (limiterKey kind tenantId window).toList = "anonreq:ratelimit:".toList ++
      (tenantId.toList ++ (kind.toList ++ (toString window).toList)) := by
  unfold limiterKey
  simp only [String.toList_append, List.append_assoc]

private theorem toList_concurrentKey (tenantId : String) :
    (concurrentKey tenantId).toList = "anonreq:ratelimit:".toList ++
      (tenantId.toList ++ ":concurrent".toList) := by
  unfold concurrentKey
  simp only [String.toList_append, List.append_assoc]

/-- Counters of different kinds have different keys. -/
theorem limiterKey_ne {kind kind' : String} (h : kind ≠ kind') (tenantId : String)
    (window : ℤ) : limiterKey kind tenantId window ≠ limiterKey kind' tenantId window := by
  intro heq
  have hchars : (limiterKey kind tenantId window).toList =
      (limiterKey kind' tenantId window).toList := by rw [heq]
  rw [toList_limiterKey, toList_limiterKey, List.append_cancel_left_eq,
    List.append_cancel_left_eq, List.append_cancel_right_eq] at hchars
  exact h (String.toList_inj.mp hchars)

/-- No counter of a window has the key of the counter of open requests. -/
theorem concurrentKey_ne_limiterKey {kind : String} {c : Char} {s : List Char}
    (hkind : kind.toList = ':' :: c :: s) (hc : c ≠ 'c') (tenantId : String) (window : ℤ) :
    concurrentKey tenantId ≠ limiterKey kind tenantId window := by
  intro heq
  have hchars : (concurrentKey tenantId).toList = (limiterKey kind tenantId window).toList := by
    rw [heq]
  have hconcurrent : ":concurrent".toList = ':' :: 'c' :: "oncurrent".toList := rfl
  rw [toList_limiterKey, toList_concurrentKey, List.append_cancel_left_eq,
    List.append_cancel_left_eq, hkind, hconcurrent, List.cons_append, List.cons_append,
    List.cons.injEq, List.cons.injEq] at hchars
  exact hc hchars.2.1.symm

theorem checkRateLimit_action (config : RateLimitConfig) (redis : Redis)
    (reply : PipelineReply) (tenantId : String) (now : ℚ) :
    ((checkRateLimit config redis reply tenantId now).1.action = block ↔
      RateBlocks config redis reply tenantId now) ∧
    ((checkRateLimit config redis reply tenantId now).1.action = block ∨
      (checkRateLimit config redis reply tenantId now).1.action = allow) := by
  rcases reply with _ | executed
  · have hrpm : concurrentKey tenantId ≠ rpmKey tenantId now :=
      concurrentKey_ne_limiterKey (c := 'r') rfl (by decide) tenantId (window now)
    have htpm : concurrentKey tenantId ≠ tpmKey tenantId now :=
      concurrentKey_ne_limiterKey (c := 't') rfl (by decide) tenantId (window now)
    have hne : tpmKey tenantId now ≠ rpmKey tenantId now :=
      limiterKey_ne (by decide) tenantId (window now)
    simp only [checkRateLimit, RateBlocks, Redis.hit_fst]
    generalize rpmKey tenantId now = rpm at *
    generalize tpmKey tenantId now = tpm at *
    generalize concurrentKey tenantId = concurrent at *
    have htpmCount : (redis.hit now rpm).2.count now tpm = redis.count now tpm :=
      Redis.count_congr (redis.hit_snd_of_ne now hne) now
    have hconcurrent : ((redis.hit now rpm).2.hit now tpm).2.count now concurrent =
        redis.count now concurrent :=
      Redis.count_congr (((redis.hit now rpm).2.hit_snd_of_ne now htpm).trans
        (redis.hit_snd_of_ne now hrpm)) now
    rw [htpmCount, hconcurrent]
    by_cases h₁ : redis.count now rpm + 1 > config.rpm
    · simp [h₁]
    · by_cases h₂ : redis.count now tpm + 1 > config.tpm
      · simp [h₁, h₂]
      · by_cases h₃ : redis.count now concurrent ≥ config.concurrent
        · simp [h₁, h₂, h₃]
        · simp [h₁, h₂, h₃]
  · exact ⟨⟨fun _ => Or.inl (by simp), fun _ => rfl⟩, Or.inl rfl⟩

/-! ### The spend controller -/

/-- A number with two decimals, ties to even, as in the format `.2f`. -/
def twoPlaces (q : ℚ) : String :=
  let hundredths := |q| * 100
  let floor := ⌊hundredths⌋.toNat
  let rest := hundredths - floor
  let rounded := if rest < 1 / 2 ∨ (rest = 1 / 2 ∧ floor % 2 = 0) then floor else floor + 1
  (if q < 0 then "-" else "") ++ toString (rounded / 100) ++ "." ++
    (if rounded % 100 < 10 then "0" else "") ++ toString (rounded % 100)

/-- A stored amount: missing, a number, or something `Decimal` does not take. -/
inductive StoredAmount where
  | missing
  | amount (q : ℚ)
  | malformed
deriving DecidableEq

/-- One spend limit: `none` is an exception, otherwise what is reported, if anything. -/
def spendReason (label : String) (stored : StoredAmount) (limit : Option ℚ) :
    Option (List String) :=
  match stored, limit with
  | .amount q, some limit =>
    some (if q ≥ limit then
      [label ++ " spend limit exceeded: $" ++ twoPlaces q ++ "/$" ++ twoPlaces limit] else [])
  | .malformed, some _ => none
  | _, _ => some []

/-- Both limits. `stored` are the daily and the monthly amount, or an exception. -/
def spendReasons (budget : SpendBudget) (stored : Option (StoredAmount × StoredAmount)) :
    Option (List String) := do
  let (daily, monthly) ← stored
  let dailyReasons ← spendReason "Daily" daily budget.dailyUsd
  let monthlyReasons ← spendReason "Monthly" monthly budget.monthlyUsd
  return dailyReasons ++ monthlyReasons

/-- `check_spend`. -/
def checkSpend (budget : Option SpendBudget) (stored : Option (StoredAmount × StoredAmount))
    (now : ℚ) : PolicyDecision :=
  match budget.filter SpendBudget.enabled with
  | none => { action := allow, matchedRuleIds := [], decisionTs := now }
  | some budget =>
    match spendReasons budget stored with
    | none => errorDecision "spend_limit_error" "Spend check failed: cache unavailable" now
    | some [] => { action := allow, matchedRuleIds := ["spend_limit"], decisionTs := now }
    | some reasons =>
      { action := block
        matchedRuleIds := ["spend_limit"]
        decisionTs := now
        reason := some ("; ".intercalate reasons) }

/-- A stored amount that cannot be read, or has reached its limit. -/
def AmountBlocks (stored : StoredAmount) (limit : Option ℚ) : Prop :=
  ∃ l, limit = some l ∧ (stored = .malformed ∨ ∃ q, stored = .amount q ∧ l ≤ q)

/-- The spend gate blocks: the tenant has an enabled budget, and the amounts cannot be read or
one of them has reached its limit. -/
def SpendBlocks (budget : Option SpendBudget)
    (stored : Option (StoredAmount × StoredAmount)) : Prop :=
  ∃ b, budget = some b ∧ b.enabled = true ∧
    ∀ amounts, stored = some amounts →
      AmountBlocks amounts.1 b.dailyUsd ∨ AmountBlocks amounts.2 b.monthlyUsd

theorem spendReason_eq_some_nil_iff (label : String) {s : StoredAmount} {l : Option ℚ} :
    spendReason label s l = some [] ↔ ¬ AmountBlocks s l := by
  rcases l with _ | limit
  · rcases s <;> simp [spendReason, AmountBlocks]
  · rcases s with _ | q | _
    · simp [spendReason, AmountBlocks]
    · by_cases hle : limit ≤ q <;> simp [spendReason, AmountBlocks, hle]
    · simp [spendReason, AmountBlocks]

theorem spendReasons_eq_some_nil_iff {budget : SpendBudget}
    {stored : Option (StoredAmount × StoredAmount)} :
    spendReasons budget stored = some [] ↔ ∃ amounts, stored = some amounts ∧
      ¬ AmountBlocks amounts.1 budget.dailyUsd ∧ ¬ AmountBlocks amounts.2 budget.monthlyUsd := by
  rcases stored with _ | ⟨daily, monthly⟩
  · simp [spendReasons]
  · have hdaily := spendReason_eq_some_nil_iff "Daily" (s := daily) (l := budget.dailyUsd)
    have hmonthly := spendReason_eq_some_nil_iff "Monthly" (s := monthly) (l := budget.monthlyUsd)
    simp only [spendReasons, Option.bind_eq_bind, Option.bind_some, Option.some.injEq,
      exists_eq_left', ← hdaily, ← hmonthly]
    rcases spendReason "Daily" daily budget.dailyUsd with _ | dailyReasons
    · simp
    · rcases spendReason "Monthly" monthly budget.monthlyUsd with _ | monthlyReasons
      · simp
      · simp

theorem checkSpend_action (budget : Option SpendBudget)
    (stored : Option (StoredAmount × StoredAmount)) (now : ℚ) :
    ((checkSpend budget stored now).action = block ↔ SpendBlocks budget stored) ∧
    ((checkSpend budget stored now).action = block ∨
      (checkSpend budget stored now).action = allow) := by
  by_cases henabled : ∃ b, budget = some b ∧ b.enabled = true
  · obtain ⟨b, rfl, hb⟩ := henabled
    have hfilter : (some b).filter SpendBudget.enabled = some b := by simp [hb]
    have hblocks : SpendBlocks (some b) stored ↔ spendReasons b stored ≠ some [] := by
      rw [Ne, spendReasons_eq_some_nil_iff]
      simp [SpendBlocks, hb, or_iff_not_imp_left]
    rw [checkSpend, hfilter, hblocks]
    rcases hreasons : spendReasons b stored with _ | ⟨_ | ⟨reason, reasons⟩⟩
    · simp [hreasons, errorDecision]
    · simp [hreasons]
    · simp [hreasons]
  · have hfilter : budget.filter SpendBudget.enabled = none := by
      simpa [Option.filter_eq_none_iff] using henabled
    have hblocks : ¬ SpendBlocks budget stored := fun ⟨b, hb, hen, _⟩ => henabled ⟨b, hb, hen⟩
    simp [checkSpend, hfilter, hblocks]

/-! ### The residency router -/

/-- `resolve_region`. -/
def resolveRegion (rule : Option ResidencyRule) (providerRegion : String) (now : ℚ) :
    PolicyDecision :=
  match rule with
  | none =>
    { action := allow
      matchedRuleIds := []
      decisionTs := now
      reason := some "No residency rules for tenant" }
  | some rule =>
    if providerRegion ∈ rule.allowedRegions then
      { action := allow
        matchedRuleIds := ["residency_match"]
        decisionTs := now
        reason := some ("Region " ++ providerRegion ++ " is allowed") }
    else if providerRegion ∈ rule.blockedRegions then
      { action := block
        matchedRuleIds := ["residency_block"]
        decisionTs := now
        reason := some ("Region " ++ providerRegion ++ " is blocked") }
    else
      { action := rule.fallbackAction
        matchedRuleIds := ["residency_fallback"]
        decisionTs := now
        reason := some ("Region " ++ providerRegion ++
          " not in allowed or blocked lists, using fallback") }

/-- The residency rule leaves the region to its fallback action, which is `action`. -/
def FallsBackTo (rule : Option ResidencyRule) (providerRegion : String)
    (action : PolicyAction) : Prop :=
  ∃ r, rule = some r ∧ providerRegion ∉ r.allowedRegions ∧ providerRegion ∉ r.blockedRegions ∧
    r.fallbackAction = action

/-- The residency gate blocks: the region is blocked, or is left to a fallback that blocks. -/
def ResidencyBlocks (rule : Option ResidencyRule) (providerRegion : String) : Prop :=
  (∃ r, rule = some r ∧ providerRegion ∉ r.allowedRegions ∧ providerRegion ∈ r.blockedRegions) ∨
    FallsBackTo rule providerRegion block

theorem resolveRegion_eq_block_iff {rule : Option ResidencyRule} {providerRegion : String}
    {now : ℚ} :
    (resolveRegion rule providerRegion now).action = block ↔
      ResidencyBlocks rule providerRegion := by
  rcases rule with _ | r
  · simp [resolveRegion, ResidencyBlocks, FallsBackTo]
  · by_cases hallowed : providerRegion ∈ r.allowedRegions <;>
      by_cases hblocked : providerRegion ∈ r.blockedRegions <;>
      simp [resolveRegion, ResidencyBlocks, FallsBackTo, hallowed, hblocked]

/-- Any action but `ALLOW` and `BLOCK` comes from the fallback. -/
theorem resolveRegion_eq_iff {rule : Option ResidencyRule} {providerRegion : String} {now : ℚ}
    {action : PolicyAction} (hallow : action ≠ allow) (hblock : action ≠ block) :
    (resolveRegion rule providerRegion now).action = action ↔
      FallsBackTo rule providerRegion action := by
  rcases rule with _ | r
  · simp [resolveRegion, FallsBackTo, hallow.symm]
  · by_cases hallowed : providerRegion ∈ r.allowedRegions <;>
      by_cases hblocked : providerRegion ∈ r.blockedRegions <;>
      simp [resolveRegion, FallsBackTo, hallowed, hblocked, hallow.symm, hblock.symm]

end AnonReq.Policy
