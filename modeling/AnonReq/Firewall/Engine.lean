import AnonReq.Foundation.Characters
import AnonReq.Foundation.Preference
import Mathlib.Tactic.Positivity

/-!
# The rules of the firewall

`firewall/engine.py` and the result side of `firewall/ml_model.py`: the rules that match a text are
reduced to one result for each category, the most severe one, and merged with the results of a
model, of which the more confident one is kept.

* `mem_evaluate_iff`: the results of the rules are those of the rules their categories keep.
* `mem_mergeResults_iff`: after the merge a category holds the result of its rule unless the model
  is more confident.
-/

namespace AnonReq.Firewall

/-! ### The model -/

/-- `DetectionCategory`. -/
inductive DetectionCategory where
  | promptInjection
  | jailbreak
  | systemPromptExtraction
  | instructionOverride
  | roleEscalation
  | hiddenToolInvocation
  | secretExfiltration
deriving DecidableEq, Repr

/-- `list(DetectionCategory)`. -/
def DetectionCategory.all : List DetectionCategory :=
  [.promptInjection, .jailbreak, .systemPromptExtraction, .instructionOverride, .roleEscalation,
    .hiddenToolInvocation, .secretExfiltration]

/-- `SeverityLevel`. -/
inductive SeverityLevel where
  | low
  | medium
  | high
deriving DecidableEq, Repr

/-- `FirewallAction`. -/
inductive FirewallAction where
  | block
  | flagAndForward
  | monitor
deriving DecidableEq, Repr

/-- `FirewallRule`, with the fields the engine reads. -/
structure FirewallRule where
  ruleId : String
  category : DetectionCategory
  enabled : Bool := true
  pattern : Option Text := none
  action : FirewallAction := .block
  severity : SeverityLevel := .high
  priority : ℤ := 0
deriving DecidableEq

/-- `DetectionResult`: a confidence lies between zero and one. -/
structure DetectionResult where
  category : DetectionCategory
  confidence : ℚ
  ruleId : Option String := none
  severity : SeverityLevel
  action : FirewallAction
  matchedTextSnippet : Option Text := none
  confidence_nonneg : 0 ≤ confidence
  confidence_le_one : confidence ≤ 1
deriving DecidableEq

/-- `RuleCategoryConfig`. -/
structure RuleCategoryConfig where
  enabled : Bool := true
  threshold : ℚ := 17 / 20

/-- `FirewallRuleEngine`: the rules by falling priority, and the configuration of the categories.
`search` is what a pattern finds first in a text, `none` where it finds nothing or is no pattern. -/
structure FirewallRuleEngine where
  rules : List FirewallRule
  categoryConfig : DetectionCategory → Option RuleCategoryConfig := fun _ => none
  search : Text → Text → Option Text

/-- `FirewallRuleEngine.__init__`: the rules are sorted, those of one priority in their order. -/
def FirewallRuleEngine.init (rules : List FirewallRule)
    (categoryConfig : DetectionCategory → Option RuleCategoryConfig)
    (search : Text → Text → Option Text) : FirewallRuleEngine where
  rules := rules.mergeSort fun a b => decide (b.priority ≤ a.priority)
  categoryConfig := categoryConfig
  search := search

/-- `_severity_score`. -/
def severityScore : SeverityLevel → ℕ
  | .high => 3
  | .medium => 2
  | .low => 1

/-- The confidence of a match of some length. -/
def matchScore (length : ℕ) : ℚ := min 1 (length / 100 + 4 / 5)

theorem matchScore_nonneg (length : ℕ) : 0 ≤ matchScore length :=
  le_min (by positivity) (by positivity)

theorem matchScore_le_one (length : ℕ) : matchScore length ≤ 1 := min_le_left _ _

namespace FirewallRuleEngine

/-- The category is not switched off. -/
def categoryEnabled (engine : FirewallRuleEngine) (category : DetectionCategory) : Bool :=
  ((engine.categoryConfig category).map RuleCategoryConfig.enabled).getD true

/-- The threshold of a category. -/
def threshold (engine : FirewallRuleEngine) (category : DetectionCategory) : ℚ :=
  ((engine.categoryConfig category).map RuleCategoryConfig.threshold).getD (17 / 20)

/-- What one rule reports: one turn of the loop of `evaluate`, with `_match_rule` and
`_make_snippet`. -/
def detect (engine : FirewallRuleEngine) (text : Text) (rule : FirewallRule) :
    Option DetectionResult :=
  if !rule.enabled then none
  else if !engine.categoryEnabled rule.category then none
  else
    (rule.pattern.bind fun pattern => engine.search pattern text).bind fun found =>
      if matchScore found.length < engine.threshold rule.category then none
      else some {
        category := rule.category
        confidence := matchScore found.length
        ruleId := some rule.ruleId
        severity := rule.severity
        action := rule.action
        matchedTextSnippet := some (found.take 50)
        confidence_nonneg := matchScore_nonneg found.length
        confidence_le_one := matchScore_le_one found.length }

/-- `_deduplicate_by_category`. -/
def deduplicateByCategory (results : List DetectionResult) : List DetectionResult :=
  (Dict.keepBest DetectionResult.category (fun r => severityScore r.severity) [] results).map
    Prod.snd

/-- `evaluate`. -/
def evaluate (engine : FirewallRuleEngine) (text : Text) : List DetectionResult :=
  deduplicateByCategory (engine.rules.filterMap (engine.detect text))

/-- `_merge_results`. -/
def mergeResults (ruleResults mlResults : List DetectionResult) : List DetectionResult :=
  (Dict.keepBest DetectionResult.category DetectionResult.confidence
    (Dict.ofList (ruleResults.map fun r => (r.category, r))) mlResults).map Prod.snd

/-- `evaluate_with_ml`. `prediction` is what the model returns for the text, `none` where it
raises. -/
def evaluateWithMl (engine : FirewallRuleEngine) (text : Text)
    (prediction : Option (List DetectionResult)) : List DetectionResult :=
  let ruleResults := engine.evaluate text
  if ruleResults.isEmpty then []
  else
    match prediction with
    | none => ruleResults
    | some mlResults => mergeResults ruleResults mlResults

end FirewallRuleEngine

/-- What a session of the model returns: one row of scores, a batch of rows, or something else. -/
inductive Logits where
  | row (probs : List ℚ)
  | batch (rows : List (List ℚ))
  | other

/-- The result the model reports for a category with a score. -/
def modelResult (category : DetectionCategory) (prob : ℚ) : Option DetectionResult :=
  if 1 / 2 ≤ min 1 (max 0 prob) then
    some {
      category := category
      confidence := min 1 (max 0 prob)
      severity := .medium
      action := .flagAndForward
      confidence_nonneg := le_min (by positivity) (le_max_left _ _)
      confidence_le_one := min_le_left _ _ }
  else none

/-- `FirewallMLModel._parse_output`. -/
def parseOutput (logits : Logits) : List DetectionResult :=
  let probs :=
    match logits with
    | .row probs => probs
    | .batch rows => rows.headD []
    | .other => []
  (DetectionCategory.all.zip probs).filterMap fun entry => modelResult entry.1 entry.2

/-! ### What a rule reports -/

namespace FirewallRuleEngine

variable {engine : FirewallRuleEngine} {text : Text} {result : DetectionResult}

/-- A rule reports its own category, severity and action. -/
theorem detect_eq_some {rule : FirewallRule} (h : engine.detect text rule = some result) :
    result.category = rule.category ∧ result.severity = rule.severity ∧
      result.action = rule.action := by
  rw [detect] at h
  split_ifs at h
  obtain ⟨found, -, hfound⟩ := Option.bind_eq_some_iff.mp h
  split_ifs at hfound
  obtain rfl := Option.some.inj hfound
  exact ⟨rfl, rfl, rfl⟩

/-- A rule reports a result if and only if it and its category are enabled and its pattern matches
with a confidence that reaches the threshold. -/
theorem detect_isSome_iff {rule : FirewallRule} : (engine.detect text rule).isSome ↔
    rule.enabled = true ∧ engine.categoryEnabled rule.category = true ∧
      ∃ pattern found, rule.pattern = some pattern ∧ engine.search pattern text = some found ∧
        engine.threshold rule.category ≤ matchScore found.length := by
  rw [detect]
  by_cases henabled : rule.enabled = true
  · by_cases hcategory : engine.categoryEnabled rule.category = true
    · simp only [henabled, hcategory, Bool.not_true, Bool.false_eq_true, if_false, true_and]
      rcases rule.pattern with _ | pattern
      · simp
      · rcases hfound : engine.search pattern text with _ | found
        · simp [hfound]
        · simp only [Option.bind_some, hfound, Option.some.injEq, ← not_lt]
          by_cases hlt : matchScore found.length < engine.threshold rule.category
          · simp [hlt, hfound]
          · simp [hlt, hfound, not_lt.mp hlt]
    · simp [henabled, hcategory]
  · simp [henabled]

/-- The rule its category keeps: among the rules of the category that report a result it is the
first of the most severe ones. -/
def Kept (engine : FirewallRuleEngine) (text : Text) (rule : FirewallRule) : Prop :=
  Dict.FirstBest (fun r => severityScore r.severity) rule
    (engine.rules.filter fun other =>
      decide (other.category = rule.category) && (engine.detect text other).isSome)

theorem Kept.isSome {rule : FirewallRule} (h : engine.Kept text rule) :
    (engine.detect text rule).isSome = true := by
  obtain ⟨front, back, hsplit, -, -⟩ := h
  have hmem : rule ∈ front ++ rule :: back := List.mem_append_right _ List.mem_cons_self
  rw [← hsplit] at hmem
  exact (Bool.and_eq_true_iff.mp (List.mem_filter.mp hmem).2).2

/-- The dictionary `_deduplicate_by_category` builds. -/
def bestByCategory (engine : FirewallRuleEngine) (text : Text) :
    List (DetectionCategory × DetectionResult) :=
  Dict.keepBest DetectionResult.category (fun r => severityScore r.severity) []
    (engine.rules.filterMap (engine.detect text))

/-- What is kept for a category is the result of the rule the category keeps. -/
theorem get_bestByCategory_iff {category : DetectionCategory} :
    Dict.get (engine.bestByCategory text) category = some result ↔
      ∃ rule, engine.Kept text rule ∧ rule.category = category ∧
        engine.detect text rule = some result := by
  have hown (rule : FirewallRule) : ((engine.detect text rule).filter fun r =>
      decide (r.category = category)).isSome =
        (decide (rule.category = category) && (engine.detect text rule).isSome) := by
    rcases hdetect : engine.detect text rule with _ | r
    · exact (Bool.and_false _).symm
    · rw [Option.filter_some, (detect_eq_some hdetect).1]
      by_cases hcategory : rule.category = category <;> simp [hcategory]
  have hscore : ∀ (rule : FirewallRule) (r : DetectionResult),
      (engine.detect text rule).filter (fun r => decide (r.category = category)) = some r →
        severityScore r.severity = severityScore rule.severity := fun rule r hr =>
    congrArg severityScore (detect_eq_some (Option.filter_eq_some_iff.mp hr).1).2.1
  rw [bestByCategory, Dict.get_keepBest, Dict.get, Option.toList_none, List.nil_append,
    List.filter_filterMap, Dict.argmax_filterMap hscore, Option.bind_eq_some_iff]
  simp only [hown, Dict.argmax_eq_some_iff, Option.filter_eq_some_iff, decide_eq_true_eq]
  refine exists_congr fun rule => ?_
  constructor
  · rintro ⟨hbest, hdetect, hcategory⟩
    obtain rfl := (detect_eq_some hdetect).1.symm.trans hcategory
    exact ⟨hbest, rfl, hdetect⟩
  · rintro ⟨hkept, rfl, hdetect⟩
    exact ⟨hkept, hdetect, (detect_eq_some hdetect).1⟩

theorem nodup_bestByCategory : ((engine.bestByCategory text).map Prod.fst).Nodup :=
  Dict.nodup_keys_keepBest (d := []) List.nodup_nil _

/-- **The results of the rules.** Every category reports the result of the rule it keeps. -/
theorem mem_evaluate_iff : result ∈ engine.evaluate text ↔
    ∃ rule, engine.Kept text rule ∧ engine.detect text rule = some result := by
  have hvalues : engine.evaluate text = (engine.bestByCategory text).map Prod.snd := rfl
  rw [hvalues, Dict.mem_values_iff nodup_bestByCategory]
  simp only [get_bestByCategory_iff]
  constructor
  · rintro ⟨category, rule, hkept, -, hdetect⟩
    exact ⟨rule, hkept, hdetect⟩
  · rintro ⟨rule, hkept, hdetect⟩
    exact ⟨rule.category, rule, hkept, rfl, hdetect⟩

/-! ### The merge with the results of a model -/

/-- The rule stands against the results of a model: its category keeps it, and the model is not
more confident of anything in that category. -/
def Stands (engine : FirewallRuleEngine) (text : Text) (mlResults : List DetectionResult)
    (rule : FirewallRule) : Prop :=
  engine.Kept text rule ∧ ∀ m ∈ mlResults, m.category = rule.category →
    ∀ result, engine.detect text rule = some result → m.confidence ≤ result.confidence

/-- The result of a model counts: it is the first of the most confident ones of its category, and
more confident than the rule its category keeps, if there is one. -/
def Overtakes (engine : FirewallRuleEngine) (text : Text) (mlResults : List DetectionResult)
    (m : DetectionResult) : Prop :=
  Dict.FirstBest DetectionResult.confidence m
      (mlResults.filter fun other => decide (other.category = m.category)) ∧
    ∀ rule, engine.Kept text rule → rule.category = m.category →
      ∀ result, engine.detect text rule = some result → result.confidence < m.confidence

theorem Kept.unique {rule rule' : FirewallRule} (h : engine.Kept text rule)
    (h' : engine.Kept text rule') (hcategory : rule.category = rule'.category) : rule = rule' := by
  have hbest := Dict.argmax_eq_some_iff.mpr h
  rw [hcategory, Dict.argmax_eq_some_iff.mpr h'] at hbest
  exact (Option.some.inj hbest).symm

/-- The dictionary `_merge_results` starts from is the one the rules were reduced in. -/
theorem ofList_evaluate (engine : FirewallRuleEngine) (text : Text) :
    Dict.ofList ((engine.evaluate text).map fun r => (r.category, r)) =
      engine.bestByCategory text := by
  have hkeyed : Dict.Keyed DetectionResult.category (engine.bestByCategory text) :=
    Dict.Keyed.keepBest (d := []) (fun e he => absurd he List.not_mem_nil) _
  have hentries : (engine.evaluate text).map (fun r => (r.category, r)) =
      engine.bestByCategory text := hkeyed.map_values
  rw [hentries, Dict.ofList_eq_self nodup_bestByCategory]

/-- The model is no more confident than the rule that stands, so the rule's result is kept. -/
theorem Stands.argmax_eq {mlResults : List DetectionResult} {rule : FirewallRule}
    (h : engine.Stands text mlResults rule) (hdetect : engine.detect text rule = some result) :
    List.argmax DetectionResult.confidence
      ((Dict.get (engine.bestByCategory text) rule.category).toList ++
        mlResults.filter fun m => decide (m.category = rule.category)) = some result := by
  rw [get_bestByCategory_iff.mpr ⟨rule, h.1, rfl, hdetect⟩]
  refine Dict.argmax_cons_eq_self fun m hm => ?_
  obtain ⟨hmem, hcategory⟩ := List.mem_filter.mp hm
  exact h.2 m hmem (of_decide_eq_true hcategory) result hdetect

/-- The result of the model that counts is kept. -/
theorem Overtakes.argmax_eq {mlResults : List DetectionResult} {m : DetectionResult}
    (h : engine.Overtakes text mlResults m) :
    List.argmax DetectionResult.confidence
      ((Dict.get (engine.bestByCategory text) m.category).toList ++
        mlResults.filter fun other => decide (other.category = m.category)) = some m := by
  have hbest := Dict.argmax_eq_some_iff.mpr h.1
  rcases hget : Dict.get (engine.bestByCategory text) m.category with _ | r
  · exact hbest
  · obtain ⟨rule, hkept, hcategory, hdetect⟩ := get_bestByCategory_iff.mp hget
    rw [Option.toList_some, List.singleton_append, List.argmax_cons, hbest]
    exact if_pos (h.2 rule hkept hcategory r hdetect)

/-- **The merge.** A category that keeps a rule reports its result unless a result of the model is
more confident, and reports that one then. -/
theorem mem_mergeResults_iff {mlResults : List DetectionResult} :
    result ∈ mergeResults (engine.evaluate text) mlResults ↔
      (∃ rule, engine.Stands text mlResults rule ∧ engine.detect text rule = some result) ∨
        engine.Overtakes text mlResults result := by
  rw [mergeResults, ofList_evaluate, Dict.mem_values_keepBest nodup_bestByCategory]
  constructor
  · rintro ⟨category, hbest⟩
    rcases hget : Dict.get (engine.bestByCategory text) category with _ | r
    -- the category keeps no rule: what is kept comes from the model
    · rw [hget, Option.toList_none, List.nil_append] at hbest
      have hmem := List.mem_filter.mp (List.argmax_mem (Option.mem_def.mpr hbest))
      obtain rfl := of_decide_eq_true hmem.2
      refine Or.inr ⟨Dict.argmax_eq_some_iff.mp hbest, fun rule hkept hcategory r hdetect => ?_⟩
      have hsome := get_bestByCategory_iff.mpr ⟨rule, hkept, hcategory, hdetect⟩
      exact absurd (hget.symm.trans hsome) (Option.some_ne_none r).symm
    · obtain ⟨rule, hkept, rfl, hdetect⟩ := get_bestByCategory_iff.mp hget
      rw [hget, Option.toList_some, List.singleton_append, List.argmax_cons] at hbest
      rcases hmodel : List.argmax DetectionResult.confidence
          (mlResults.filter fun m => decide (m.category = rule.category)) with _ | best
      · rw [hmodel] at hbest
        obtain rfl := Option.some.inj hbest
        refine Or.inl ⟨rule, ⟨hkept, fun m hm hcategory _ _ => ?_⟩, hdetect⟩
        have hmem : m ∈ mlResults.filter fun m => decide (m.category = rule.category) :=
          List.mem_filter.mpr ⟨hm, decide_eq_true hcategory⟩
        exact absurd (List.argmax_eq_none.mp hmodel ▸ hmem) List.not_mem_nil
      · simp only [hmodel] at hbest
        have hmem := List.mem_filter.mp (List.argmax_mem (Option.mem_def.mpr hmodel))
        split_ifs at hbest with hlt
        · obtain rfl := Option.some.inj hbest
          have hcategory : best.category = rule.category := of_decide_eq_true hmem.2
          refine Or.inr ⟨?_, fun rule' hkept' hcategory' r' hdetect' => ?_⟩
          · rw [hcategory]
            exact Dict.argmax_eq_some_iff.mp hmodel
          · obtain rfl := hkept'.unique hkept (hcategory'.trans hcategory)
            obtain rfl := Option.some.inj (hdetect'.symm.trans hdetect)
            exact hlt
        · obtain rfl := Option.some.inj hbest
          refine Or.inl ⟨rule, ⟨hkept, fun m hm hcategory r' hdetect' => ?_⟩, hdetect⟩
          obtain rfl := Option.some.inj (hdetect'.symm.trans hdetect)
          have hown : m ∈ mlResults.filter fun m => decide (m.category = rule.category) :=
            List.mem_filter.mpr ⟨hm, decide_eq_true hcategory⟩
          exact (List.le_of_mem_argmax hown (Option.mem_def.mpr hmodel)).trans (not_lt.mp hlt)
  · rintro (⟨rule, hstands, hdetect⟩ | hovertakes)
    · exact ⟨rule.category, hstands.argmax_eq hdetect⟩
    · exact ⟨result.category, hovertakes.argmax_eq⟩

end FirewallRuleEngine

end AnonReq.Firewall
