import AnonReq.Foundation.Redaction
import AnonReq.Policy.EnforcementPoint
import AnonReq.Policy.Gates

/-!
# How the gates are reported

The enforcement point infers the gate that blocked from the ids of the rules and the text of the
reason (`_determine_block_type` of `policy/pep.py`). The decisions it meets are those of the four
`evaluate_*` functions of `policy/pdp.py`.

* `GateCall.decision`: the decision of a gate, with what it evaluates.
* `occursIn_classificationReason_iff`: what occurs in the reason that a classification rule gives.
* `reported_iff`: which decisions are reported as those of their gate.
-/

namespace AnonReq.Policy

open PolicyAction

/-! ### The decisions of the gates -/

/-- `evaluate_rate_limit`; the limiter raised if there is no decision. -/
def evaluateRateLimit (checked : Option PolicyDecision) (now : ℚ) : PolicyDecision :=
  checked.getD (errorDecision "rate_limit_error" "Rate limit evaluation failed" now)

/-- `evaluate_spend`; the spend controller raised if there is no decision. -/
def evaluateSpend (checked : Option PolicyDecision) (now : ℚ) : PolicyDecision :=
  checked.getD (errorDecision "spend_error" "Spend evaluation failed" now)

/-- The region that `evaluate_residency` asks for. -/
def providerRegion (region : Option String) : String :=
  if region.getD "" = "" then "unknown" else region.getD ""

/-- `evaluate_residency`; the router raised if there is no decision. -/
def evaluateResidency (resolved : Option PolicyDecision) (now : ℚ) : PolicyDecision :=
  resolved.getD (errorDecision "residency_error" "Residency evaluation failed" now)

/-- A call of one of the gates, with what it evaluates. In a call that raised, the component behind
the gate raised an exception. -/
inductive GateCall where
  | classification (cacheTtl : ℤ) (rules : Option (List PolicyRule)) (level : String)
  | rateLimit (config : RateLimitConfig) (redis : Redis) (reply : PipelineReply)
      (tenantId : String)
  | rateLimitRaised
  | spend (budget : Option SpendBudget) (stored : Option (StoredAmount × StoredAmount))
  | spendRaised
  | residency (rule : Option ResidencyRule) (region : Option String)
  | residencyRaised

/-- The decision of the gate. -/
def GateCall.decision (now : ℚ) : GateCall → PolicyDecision
  | classification cacheTtl rules level => evaluateClassification cacheTtl rules level now
  | rateLimit config redis reply tenantId =>
    evaluateRateLimit (some (checkRateLimit config redis reply tenantId now).1) now
  | rateLimitRaised => evaluateRateLimit none now
  | spend budget stored => evaluateSpend (some (checkSpend budget stored now)) now
  | spendRaised => evaluateSpend none now
  | residency rule region =>
    evaluateResidency (some (resolveRegion rule (providerRegion region) now)) now
  | residencyRaised => evaluateResidency none now

/-- The status code of the gate. -/
def GateCall.statusCode : GateCall → ℕ
  | classification .. => 451
  | rateLimit .. | rateLimitRaised => 429
  | spend .. | spendRaised => 402
  | residency .. | residencyRaised => 451

/-! ### What the enforcement point makes of them -/

/-- The response says that the gateway failed secure. -/
def PolicyEnforcementResult.FailSecure (r : PolicyEnforcementResult) : Prop :=
  r.statusCode = some 503 ∧ r.shouldForward = false ∧
    ∃ body, r.body = some body ∧ ("error_type", "fail_secure") ∈ body

/-- A decision is reported as one of its gate: as a failure if the enforcement is `503`, and with
the status code of the gate if it blocks otherwise. -/
def GateCall.Reported (g : GateCall) (now : ℚ) (r : PolicyEnforcementResult) : Prop :=
  ((g.decision now).enforcement = some "503" → r.FailSecure) ∧
    ((g.decision now).action = block → (g.decision now).enforcement = none →
      r.statusCode = some g.statusCode)

/-- The names that leave a classification rule to its own branch. -/
def NamesClear (ruleId level : String) : Prop :=
  occursIn "rate_limit" ruleId = false ∧ occursIn "error" ruleId = false ∧
    occursIn "spend" ruleId.toLower = false ∧ occursIn "spend" level.toLower = false

/-- The calls whose decisions are reported as those of their gate. -/
def GateCall.Clear : GateCall → Prop
  | classification cacheTtl rules level =>
    0 < cacheTtl → ∀ rs, rules = some rs → ∀ rule, rs.find? (ruleMatches level) = some rule →
      rule.action = block → NamesClear rule.ruleId level
  | rateLimit _ _ reply _ => reply = .results
  | rateLimitRaised => False
  | residency rule region =>
    ResidencyBlocks rule (providerRegion region) →
      occursIn "spend" (providerRegion region).toLower = false
  | spend .. | spendRaised | residencyRaised => True

theorem enforce_of_block {d : PolicyDecision} (h : d.action = block) (decisionId now : String)
    (ctx : ProcessingContext) : enforce decisionId now d ctx = handleBlock d decisionId now := by
  unfold enforce
  rw [h]

theorem statusCode_handleBlock (d : PolicyDecision) (decisionId now : String) :
    (handleBlock d decisionId now).statusCode = some (determineBlockType d).1 := rfl

theorem failSecure_handleBlock_iff (d : PolicyDecision) (decisionId now : String) :
    (handleBlock d decisionId now).FailSecure ↔ (determineBlockType d).1 = 503 := by
  have htype : (determineBlockType d).1 = 503 → (determineBlockType d).2.1 = "fail_secure" := by
    unfold determineBlockType
    dsimp only
    split_ifs <;> simp
  constructor
  · rintro ⟨hstatus, -⟩
    exact Option.some_injective _ hstatus
  · intro h
    refine ⟨congrArg some h, rfl, _, rfl, List.mem_append_right _ ?_⟩
    change ("error_type", "fail_secure") ∈ if (determineBlockType d).2.1 = "blocked" then []
      else [("error_type", (determineBlockType d).2.1)]
    rw [htype h, if_neg (by decide)]
    exact List.mem_singleton_self _

/-- The status code of a decision with one rule. -/
theorem statusCode_of_singleton {d : PolicyDecision} {ruleId : String}
    (hids : d.matchedRuleIds = [ruleId]) :
    (determineBlockType d).1 =
      if occursIn "rate_limit" ruleId then 429
      else if d.enforcement = some "503" ∨ occursIn "error" ruleId then 503
      else if occursIn "spend" (d.reason.getD "").toLower ∨ occursIn "spend" ruleId then 402
      else if occursIn "residency" (d.reason.getD "").toLower ∨ occursIn "residency" ruleId then
        451
      else if occursIn "classification" (d.reason.getD "").toLower ∨
          (occursIn "classification" ruleId || ruleId.startsWith "block_") then 451
      else 403 := by
  unfold determineBlockType
  have hany : ∀ p : String → Bool, [ruleId].any p = p ruleId := fun p => by simp
  simp only [hids, hany]
  split_ifs <;> rfl

/-- A failure is reported as one unless its rule is taken for a rate limit. -/
theorem statusCode_errorDecision (ruleId reason : String) (now : ℚ) :
    (determineBlockType (errorDecision ruleId reason now)).1 =
      if occursIn "rate_limit" ruleId then 429 else 503 := by
  rw [statusCode_of_singleton rfl]
  exact if_congr Iff.rfl rfl (if_pos (Or.inl rfl))

/-! ### What occurs in a reason -/

theorem toList_toLower (s : String) : s.toLower.toList = s.toList.map Char.toLower :=
  String.toList_map

theorem toList_toLower_append (s t : String) :
    (s ++ t).toLower.toList = s.toLower.toList ++ t.toLower.toList := by
  rw [toList_toLower, toList_toLower, toList_toLower, String.toList_append, List.map_append]

/-- The reason that a classification rule gives. -/
def classificationReason (ruleId level : String) : String :=
  "Classification rule '" ++ ruleId ++ "' matched level '" ++ level ++ "'"

/-- A word occurs in the reason if it occurs in the id, in the level or in what stands around
them: the quotes keep them apart. -/
theorem occursIn_classificationReason_iff {x : String} (hx : '\'' ∉ x.toList)
    (ruleId level : String) :
    occursIn x (classificationReason ruleId level).toLower = true ↔
      occursIn x "classification rule " = true ∨ occursIn x ruleId.toLower = true ∨
        occursIn x " matched level " = true ∨ occursIn x level.toLower = true ∨ x = "" := by
  have hlower : (classificationReason ruleId level).toLower.toList =
      "classification rule ".toList ++ '\'' :: (ruleId.toLower.toList ++
        '\'' :: (" matched level ".toList ++ '\'' :: (level.toLower.toList ++ ['\'']))) := by
    have hpieces : ∀ a b c : String, (a ++ ruleId ++ b ++ level ++ c).toLower.toList =
        a.toLower.toList ++ ruleId.toLower.toList ++ b.toLower.toList ++ level.toLower.toList ++
          c.toLower.toList := fun a b c => by
      simp only [toList_toLower_append]
    have hfirst : "Classification rule '".toLower.toList =
        "classification rule ".toList ++ ['\''] := by
      rw [toList_toLower]
      decide
    have hsecond : "' matched level '".toLower.toList =
        '\'' :: (" matched level ".toList ++ ['\'']) := by
      rw [toList_toLower]
      decide
    have hthird : "'".toLower.toList = ['\''] := by
      rw [toList_toLower]
      decide
    refine (hpieces _ _ _).trans ?_
    rw [hfirst, hsecond, hthird]
    simp only [List.append_assoc, List.cons_append, List.nil_append]
  simp only [occursIn, decide_eq_true_eq]
  rw [hlower, Redaction.infix_append_cons_iff hx, Redaction.infix_append_cons_iff hx,
    Redaction.infix_append_cons_iff hx, Redaction.infix_append_cons_iff hx, List.infix_nil,
    String.toList_eq_nil_iff]

/-- A word in small letters that occurs in a text occurs in the text in small letters. -/
theorem occursIn_toLower {x s : String} (hx : x.toList.map Char.toLower = x.toList)
    (h : occursIn x s = true) : occursIn x s.toLower = true := by
  simp only [occursIn, decide_eq_true_eq] at h ⊢
  rw [← hx, toList_toLower]
  exact h.map Char.toLower

/-- The reason that the residency router gives for a region. -/
def residencyReason (region rest : String) : String := "Region " ++ region ++ " " ++ rest

/-- Spaces keep the region apart in the reason. -/
theorem occursIn_residencyReason_iff {x : String} (hx : ' ' ∉ x.toList) (region rest : String) :
    occursIn x (residencyReason region rest).toLower = true ↔
      occursIn x "region" = true ∨ occursIn x region.toLower = true ∨
        occursIn x rest.toLower = true := by
  have hlower : (residencyReason region rest).toLower.toList =
      "region".toList ++ ' ' :: (region.toLower.toList ++ ' ' :: rest.toLower.toList) := by
    have hpieces : ∀ a b : String, (a ++ region ++ b ++ rest).toLower.toList =
        a.toLower.toList ++ region.toLower.toList ++ b.toLower.toList ++ rest.toLower.toList :=
      fun a b => by simp only [toList_toLower_append]
    have hfirst : "Region ".toLower.toList = "region".toList ++ [' '] := by
      rw [toList_toLower]
      decide
    have hspace : " ".toLower.toList = [' '] := by
      rw [toList_toLower]
      decide
    refine (hpieces _ _).trans ?_
    rw [hfirst, hspace]
    simp only [List.append_assoc, List.cons_append, List.nil_append]
  simp only [occursIn, decide_eq_true_eq]
  rw [hlower, Redaction.infix_append_cons_iff hx, Redaction.infix_append_cons_iff hx]

/-! ### The gates -/

/-- The status code of a block by a classification rule. -/
theorem statusCode_classification_iff {d : PolicyDecision} {ruleId level : String}
    (hids : d.matchedRuleIds = [ruleId]) (hreason : d.reason = classificationReason ruleId level)
    (henforcement : d.enforcement = none) :
    (determineBlockType d).1 = 451 ↔ NamesClear ruleId level := by
  have hspend := occursIn_classificationReason_iff (x := "spend") (by decide) ruleId level
  have hclassification := occursIn_classificationReason_iff (x := "classification") (by decide)
    ruleId level
  have hfront : occursIn "spend" "classification rule " = false := by decide
  have hmiddle : occursIn "spend" " matched level " = false := by decide
  have hbranch : occursIn "classification" "classification rule " = true := by decide
  have hsmall : occursIn "spend" ruleId = true → occursIn "spend" ruleId.toLower = true :=
    occursIn_toLower (by decide)
  rw [hfront, hmiddle] at hspend
  rw [hbranch] at hclassification
  rw [statusCode_of_singleton hids, hreason, henforcement, Option.getD_some, NamesClear]
  by_cases hrate : occursIn "rate_limit" ruleId = true
  · simp only [hrate, if_true]
    simp
  by_cases herror : occursIn "error" ruleId = true
  · simp only [hrate, herror, if_true, or_true]
    simp
  by_cases hid : occursIn "spend" ruleId.toLower = true
  · simp only [hrate, herror, hid, hspend.mpr (Or.inr (Or.inl hid)), true_or, if_true]
    simp
  by_cases hlevel : occursIn "spend" level.toLower = true
  · simp only [hrate, herror, hlevel,
      hspend.mpr (Or.inr (Or.inr (Or.inr (Or.inl hlevel)))), true_or, if_true]
    simp
  -- no other branch takes the rule, and the reason names its own
  have hnone : ¬ occursIn "spend" (classificationReason ruleId level).toLower = true := by
    rw [hspend]
    simp [hid, hlevel]
  have hbranch := hclassification.mpr (Or.inl rfl)
  simp only [hrate, herror, hnone, mt hsmall hid, hbranch, if_false, reduceCtorEq, or_self,
    true_or, if_true, ite_self, hid, hlevel]
  simp

/-- The decision of the first rule that matches. -/
theorem evaluateClassification_of_find {cacheTtl : ℤ} (hpos : 0 < cacheTtl)
    {rules : List PolicyRule} {level : String} {rule : PolicyRule}
    (hfind : rules.find? (ruleMatches level) = some rule) (now : ℚ) :
    (evaluateClassification cacheTtl (some rules) level now).matchedRuleIds = [rule.ruleId] ∧
      (evaluateClassification cacheTtl (some rules) level now).reason =
        some (classificationReason rule.ruleId level) ∧
      (evaluateClassification cacheTtl (some rules) level now).enforcement = none := by
  rw [evaluateClassification]
  simp only [hfind, PolicyDecision.withTtl?_of_pos hpos]
  exact ⟨rfl, rfl, rfl⟩

/-- Without a rule that matches there is no failure. -/
theorem evaluateClassification_of_find_eq_none {cacheTtl : ℤ} (hpos : 0 < cacheTtl)
    {rules : List PolicyRule} {level : String}
    (hfind : rules.find? (ruleMatches level) = none) (now : ℚ) :
    (evaluateClassification cacheTtl (some rules) level now).enforcement = none := by
  rw [evaluateClassification]
  simp only [hfind, PolicyDecision.withTtl?_of_pos hpos]
  rfl

/-- Without the rules, or without a time to live, the evaluation fails. -/
theorem evaluateClassification_of_raises {cacheTtl : ℤ} {rules : Option (List PolicyRule)}
    {level : String} (h : rules = none ∨ ¬ 0 < cacheTtl) (now : ℚ) :
    evaluateClassification cacheTtl rules level now =
      errorDecision "classification_error" "Classification evaluation failed" now := by
  rcases rules with _ | rs
  · rfl
  · have hpos := h.resolve_left (by simp)
    rw [evaluateClassification]
    rcases rs.find? (ruleMatches level) with _ | rule
    · simp only [PolicyDecision.withTtl?_of_not_pos hpos, Option.getD_none]
    · simp only [PolicyDecision.withTtl?_of_not_pos hpos, Option.getD_none]

theorem allow_ne_block : allow ≠ block := by decide

section Reported

variable (g : GateCall) (now : ℚ) (decisionId stamp : String) (ctx : ProcessingContext)

/-- A failure is reported as one unless its rule is taken for a rate limit. -/
theorem reported_of_errorDecision {ruleId reason : String}
    (h : g.decision now = errorDecision ruleId reason now) :
    g.Reported now (enforce decisionId stamp (g.decision now) ctx) ↔
      occursIn "rate_limit" ruleId = false := by
  rw [GateCall.Reported, h, enforce_of_block rfl, failSecure_handleBlock_iff,
    statusCode_errorDecision]
  constructor
  · rintro ⟨hfail, -⟩
    by_contra hrate
    rw [if_pos (Bool.not_eq_false _ ▸ hrate)] at hfail
    exact absurd (hfail rfl) (by decide)
  · intro hrate
    refine ⟨fun _ => if_neg (by rw [hrate]; exact Bool.false_ne_true), fun _ hnone => ?_⟩
    exact absurd hnone (Option.some_ne_none _)

theorem reported_of_block (hblock : (g.decision now).action = block)
    (hnone : (g.decision now).enforcement = none) :
    g.Reported now (enforce decisionId stamp (g.decision now) ctx) ↔
      (determineBlockType (g.decision now)).1 = g.statusCode := by
  rw [GateCall.Reported, enforce_of_block hblock, statusCode_handleBlock]
  constructor
  · exact fun h => Option.some_injective _ (h.2 hblock hnone)
  · exact fun h => ⟨fun h503 => absurd (hnone.symm.trans h503) (Option.some_ne_none _).symm,
      fun _ _ => congrArg some h⟩

theorem reported_of_not_block (hblock : (g.decision now).action ≠ block)
    (hnone : (g.decision now).enforcement = none) :
    g.Reported now (enforce decisionId stamp (g.decision now) ctx) :=
  ⟨fun h503 => absurd (hnone.symm.trans h503) (Option.some_ne_none _).symm,
    fun h => absurd h hblock⟩

end Reported

/-! ### Which decisions are reported as those of their gate -/

theorem reported_classification_iff (cacheTtl : ℤ) (rules : Option (List PolicyRule))
    (level : String) (now : ℚ) (decisionId stamp : String) (ctx : ProcessingContext) :
    (GateCall.classification cacheTtl rules level).Reported now
        (enforce decisionId stamp ((GateCall.classification cacheTtl rules level).decision now) ctx)
      ↔ (GateCall.classification cacheTtl rules level).Clear := by
  by_cases hraises : rules = none ∨ ¬ 0 < cacheTtl
  · -- the failure of this gate is not taken for a rate limit
    refine (reported_of_errorDecision (.classification cacheTtl rules level) now decisionId
      stamp ctx (evaluateClassification_of_raises hraises now)).trans ?_
    refine iff_of_true (by decide) fun hpos rs hrules => ?_
    exact hraises.elim (fun hnone => by simp [hnone] at hrules) fun h => absurd hpos h
  · obtain ⟨hread, hpos⟩ := not_or.mp hraises
    have hpos := not_not.mp hpos
    obtain ⟨rs, rfl⟩ := Option.ne_none_iff_exists'.mp hread
    have haction : (evaluateClassification cacheTtl (some rs) level now).action =
        matchedAction rs level := evaluateClassification_action hpos
    rw [matchedAction] at haction
    rcases hfind : rs.find? (ruleMatches level) with _ | rule
    · rw [hfind] at haction
      refine iff_of_true (reported_of_not_block _ now decisionId stamp ctx ?_ ?_) ?_
      · exact fun hblock => allow_ne_block (haction.symm.trans hblock)
      · exact evaluateClassification_of_find_eq_none hpos hfind now
      · intro _ rs' hrs rule hrule
        obtain rfl := Option.some_injective _ hrs
        rw [hfind] at hrule
        exact absurd hrule.symm (Option.some_ne_none rule)
    · rw [hfind] at haction
      obtain ⟨hids, hreason, hnone⟩ := evaluateClassification_of_find hpos hfind now
      have hclear : (GateCall.classification cacheTtl (some rs) level).Clear ↔
          (rule.action = block → NamesClear rule.ruleId level) := by
        simp [GateCall.Clear, hpos, hfind]
      rw [hclear]
      by_cases hblock : rule.action = block
      · refine (reported_of_block (.classification cacheTtl (some rs) level) now decisionId stamp
          ctx (haction.trans hblock) hnone).trans ?_
        exact (statusCode_classification_iff hids hreason hnone).trans
          ⟨fun h _ => h, fun h => h hblock⟩
      · exact iff_of_true
          (reported_of_not_block (.classification cacheTtl (some rs) level) now decisionId stamp ctx
            (fun h => hblock (haction.symm.trans h)) hnone)
          fun h => absurd h hblock

theorem reported_rateLimit_iff (config : RateLimitConfig) (redis : Redis) (reply : PipelineReply)
    (tenantId : String) (now : ℚ) (decisionId stamp : String) (ctx : ProcessingContext) :
    (GateCall.rateLimit config redis reply tenantId).Reported now
        (enforce decisionId stamp
          ((GateCall.rateLimit config redis reply tenantId).decision now) ctx)
      ↔ (GateCall.rateLimit config redis reply tenantId).Clear := by
  rcases reply with _ | executed
  · refine iff_of_true ?_ rfl
    have hdecision : ((GateCall.rateLimit config redis .results tenantId).decision
          now).matchedRuleIds = ["rate_limit"] ∧
        ((GateCall.rateLimit config redis .results tenantId).decision now).enforcement = none := by
      unfold GateCall.decision checkRateLimit
      dsimp only
      split_ifs <;> exact ⟨rfl, rfl⟩
    by_cases hblock : ((GateCall.rateLimit config redis .results tenantId).decision now).action =
        block
    · refine (reported_of_block _ now decisionId stamp ctx hblock hdecision.2).mpr ?_
      exact (statusCode_of_singleton hdecision.1).trans (if_pos (by decide))
    · exact reported_of_not_block _ now decisionId stamp ctx hblock hdecision.2
  · rw [reported_of_errorDecision _ now decisionId stamp ctx rfl]
    exact iff_of_false (by decide) (by simp [GateCall.Clear])

theorem reported_spend (budget : Option SpendBudget)
    (stored : Option (StoredAmount × StoredAmount)) (now : ℚ) (decisionId stamp : String)
    (ctx : ProcessingContext) :
    (GateCall.spend budget stored).Reported now
      (enforce decisionId stamp ((GateCall.spend budget stored).decision now) ctx) := by
  have hcases : checkSpend budget stored now =
        errorDecision "spend_limit_error" "Spend check failed: cache unavailable" now ∨
      ((checkSpend budget stored now).enforcement = none ∧
        ((checkSpend budget stored now).action = block →
          (checkSpend budget stored now).matchedRuleIds = ["spend_limit"])) := by
    unfold checkSpend
    split
    · exact Or.inr ⟨rfl, fun h => absurd h allow_ne_block⟩
    · split
      · exact Or.inl rfl
      · exact Or.inr ⟨rfl, fun _ => rfl⟩
      · exact Or.inr ⟨rfl, fun _ => rfl⟩
  obtain herror | ⟨hnone, hids⟩ := hcases
  · exact (reported_of_errorDecision (.spend budget stored) now decisionId stamp ctx
      herror).mpr (by decide)
  · by_cases hblock : (checkSpend budget stored now).action = block
    · refine (reported_of_block (.spend budget stored) now decisionId stamp ctx hblock
        hnone).mpr ?_
      have hrate : ¬ occursIn "rate_limit" "spend_limit" = true := by decide
      have herror : ¬ (none = some "503" ∨ occursIn "error" "spend_limit" = true) := by decide
      have hspend : occursIn "spend" "spend_limit" = true := by decide
      refine (statusCode_of_singleton (hids hblock)).trans ?_
      rw [if_neg hrate, hnone, if_neg herror, if_pos (Or.inr hspend)]
      rfl
    · exact reported_of_not_block (.spend budget stored) now decisionId stamp ctx hblock hnone

/-- The status code of a block by the residency router. -/
theorem statusCode_residency_iff {d : PolicyDecision} {ruleId region rest : String}
    (hids : d.matchedRuleIds = [ruleId]) (hreason : d.reason = residencyReason region rest)
    (hnone : d.enforcement = none) (hrate : occursIn "rate_limit" ruleId = false)
    (herror : occursIn "error" ruleId = false) (hspend : occursIn "spend" ruleId = false)
    (hresidency : occursIn "residency" ruleId = true)
    (hrest : occursIn "spend" rest.toLower = false) :
    (determineBlockType d).1 = 451 ↔ occursIn "spend" region.toLower = false := by
  have hword := occursIn_residencyReason_iff (x := "spend") (by decide) region rest
  have hfirst : occursIn "spend" "region" = false := by decide
  rw [hfirst, hrest] at hword
  rw [statusCode_of_singleton hids, hreason, hnone, hrate, herror, hspend, hresidency,
    Option.getD_some]
  by_cases hregion : occursIn "spend" region.toLower = true
  · simp only [hword.mpr (Or.inr (Or.inl hregion)), hregion]
    simp
  · have hno : occursIn "spend" (residencyReason region rest).toLower = false := by
      rw [← Bool.not_eq_true, hword]
      simp [hregion]
    simp only [hno, hregion]
    simp

theorem resolveRegion_enforcement (rule : Option ResidencyRule) (region : String) (now : ℚ) :
    (resolveRegion rule region now).enforcement = none := by
  unfold resolveRegion
  split
  · rfl
  · split_ifs <;> rfl

/-- A block by the residency router names the region, in one of two reasons. -/
theorem resolveRegion_of_block {rule : Option ResidencyRule} {region : String} {now : ℚ}
    (h : (resolveRegion rule region now).action = block) :
    ((resolveRegion rule region now).matchedRuleIds = ["residency_block"] ∧
        (resolveRegion rule region now).reason = some (residencyReason region "is blocked")) ∨
      ((resolveRegion rule region now).matchedRuleIds = ["residency_fallback"] ∧
        (resolveRegion rule region now).reason = some
          (residencyReason region "not in allowed or blocked lists, using fallback")) := by
  have hjoin : ∀ a b c : String, a ++ region ++ (b ++ c) = a ++ region ++ b ++ c :=
    fun _ _ _ => String.append_assoc.symm
  unfold resolveRegion at h ⊢
  split at h
  · exact absurd h allow_ne_block
  · split_ifs at h ⊢ with hallowed hblocked
    · exact Or.inl ⟨rfl, congrArg some (hjoin "Region " " " "is blocked")⟩
    · exact Or.inr ⟨rfl, congrArg some
        (hjoin "Region " " " "not in allowed or blocked lists, using fallback")⟩

theorem reported_residency_iff (rule : Option ResidencyRule) (region : Option String) (now : ℚ)
    (decisionId stamp : String) (ctx : ProcessingContext) :
    (GateCall.residency rule region).Reported now
        (enforce decisionId stamp ((GateCall.residency rule region).decision now) ctx)
      ↔ (GateCall.residency rule region).Clear := by
  have hnone := resolveRegion_enforcement rule (providerRegion region) now
  by_cases hblock : (resolveRegion rule (providerRegion region) now).action = block
  · have hclear : (GateCall.residency rule region).Clear ↔
        occursIn "spend" (providerRegion region).toLower = false :=
      ⟨fun h => h (resolveRegion_eq_block_iff.mp hblock), fun h _ => h⟩
    refine (reported_of_block (.residency rule region) now decisionId stamp ctx hblock
      hnone).trans (Iff.trans ?_ hclear.symm)
    obtain ⟨hids, hreason⟩ | ⟨hids, hreason⟩ := resolveRegion_of_block hblock
    · refine statusCode_residency_iff hids hreason hnone (by decide) (by decide) (by decide)
        (by decide) ?_
      rw [occursIn, toList_toLower]
      decide
    · refine statusCode_residency_iff hids hreason hnone (by decide) (by decide) (by decide)
        (by decide) ?_
      rw [occursIn, toList_toLower]
      decide
  · refine iff_of_true
      (reported_of_not_block (.residency rule region) now decisionId stamp ctx hblock hnone) ?_
    exact fun h => absurd (resolveRegion_eq_block_iff.mpr h) hblock

/-- **The reports.** A decision is reported as one of its gate if and only if the gate is not the
rate limiter after a failure, no classification rule has a name that another branch takes, and no
region that is blocked is taken for a limit of spend. -/
theorem reported_iff (g : GateCall) (now : ℚ) (decisionId stamp : String)
    (ctx : ProcessingContext) :
    g.Reported now (enforce decisionId stamp (g.decision now) ctx) ↔ g.Clear := by
  cases g with
  | classification cacheTtl rules level =>
    exact reported_classification_iff cacheTtl rules level now decisionId stamp ctx
  | rateLimit config redis reply tenantId =>
    exact reported_rateLimit_iff config redis reply tenantId now decisionId stamp ctx
  | rateLimitRaised =>
    refine (reported_of_errorDecision _ now decisionId stamp ctx rfl).trans ?_
    exact iff_of_false (by decide) id
  | spend budget stored =>
    exact iff_of_true (reported_spend budget stored now decisionId stamp ctx) trivial
  | spendRaised =>
    refine (reported_of_errorDecision _ now decisionId stamp ctx rfl).trans ?_
    exact iff_of_true (by decide) trivial
  | residency rule region =>
    exact reported_residency_iff rule region now decisionId stamp ctx
  | residencyRaised =>
    refine (reported_of_errorDecision _ now decisionId stamp ctx rfl).trans ?_
    exact iff_of_true (by decide) trivial

/-- A failure of the rate limiter is reported as an exceeded limit, and a classification rule with
the id `block_error_logs` as a failure. -/
theorem not_reported :
    let failed := GateCall.rateLimit {} (fun _ => none) (.raised false) "acme"
    let blocked := GateCall.classification 5
      (some [{ ruleId := "block_error_logs", action := block,
               conditions := some [("classification_level", .text "RESTRICTED")] }]) "RESTRICTED"
    (enforce "d1" "t" (failed.decision 0) { tenantId := "acme" }).statusCode = some 429 ∧
      ¬ failed.Reported 0 (enforce "d1" "t" (failed.decision 0) { tenantId := "acme" }) ∧
      (enforce "d2" "t" (blocked.decision 0) { tenantId := "acme" }).statusCode = some 503 ∧
      ¬ blocked.Reported 0 (enforce "d2" "t" (blocked.decision 0) { tenantId := "acme" }) := by
  intro failed blocked
  have hfailed : (enforce "d1" "t" (failed.decision 0) { tenantId := "acme" }).statusCode =
      some 429 := by
    decide
  have hblocked : (enforce "d2" "t" (blocked.decision 0) { tenantId := "acme" }).statusCode =
      some 503 := by
    decide
  refine ⟨hfailed, fun h => ?_, hblocked, fun h => ?_⟩
  · exact absurd (hfailed.symm.trans (h.1 rfl).1) (by decide)
  · exact absurd (hblocked.symm.trans (h.2 (by decide) (by decide))) (by decide)

end AnonReq.Policy
