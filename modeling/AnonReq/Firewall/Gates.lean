import AnonReq.Firewall.Engine

/-!
# The gates of the firewall

`firewall/gates.py`: the inbound gate returns the results of the engine, the outbound gate gives
each of them the action of its severity.

* `checkPreAnon_eq`: both gates see the rule results merged with what the model returned.
* `blocks_iff`: a gate blocks if and only if some rule that blocks is the one its category keeps and
  the model is not more confident, or a result of the model that counts blocks.
* `not_blocks`: a rule that blocks is dropped for a more severe rule, or for the model.
-/

namespace AnonReq.Firewall

open FirewallRuleEngine

/-! ### The model -/

/-- What a model predicts for a text, `none` where it raises. -/
abbrev MLModel := Text → Option (List DetectionResult)

/-- `FirewallMLModel.predict`, by what its session returns for a text. -/
def firewallMLModel (run : Text → Logits) : MLModel := fun text => some (parseOutput (run text))

/-- `SeverityActionMapping`. -/
structure SeverityActionMapping where
  high : FirewallAction := .block
  medium : FirewallAction := .flagAndForward
  low : FirewallAction := .monitor

/-- `_get_outbound_action`. -/
def SeverityActionMapping.action (mapping : SeverityActionMapping) : SeverityLevel → FirewallAction
  | .high => mapping.high
  | .medium => mapping.medium
  | .low => mapping.low

/-- `InboundFirewallGate.check_pre_anon`. -/
def checkPreAnon (engine : FirewallRuleEngine) (mlModel : Option MLModel) (text : Text) :
    List DetectionResult :=
  let results := engine.evaluate text
  match mlModel with
  | none => results
  | some predict =>
    if results.isEmpty then results else engine.evaluateWithMl text (predict text)

/-- `_should_block`. -/
def shouldBlock (results : List DetectionResult) : Bool :=
  results.any fun r => decide (r.action = .block)

/-- `_apply_severity_mapping`. -/
def applySeverityMapping (mapping : SeverityActionMapping) (results : List DetectionResult) :
    List DetectionResult :=
  results.map fun r => { r with action := mapping.action r.severity }

/-- `OutboundFirewallGate.check_pre_restore`. -/
def checkPreRestore (engine : FirewallRuleEngine) (mapping : SeverityActionMapping)
    (mlModel : Option MLModel) (providerOutput : Text) : List DetectionResult :=
  applySeverityMapping mapping (checkPreAnon engine mlModel providerOutput)

/-! ### What the gates see -/

/-- The results of the model that are merged: none without a model, or where it raises. -/
def predictions (mlModel : Option MLModel) (text : Text) : List DetectionResult :=
  (mlModel.bind fun predict => predict text).getD []

variable {engine : FirewallRuleEngine} {mlModel : Option MLModel} {text : Text}

theorem mergeResults_nil (engine : FirewallRuleEngine) (text : Text) :
    mergeResults (engine.evaluate text) [] = engine.evaluate text := by
  rw [mergeResults, ofList_evaluate]
  rfl

/-- Where a rule reports a result, its results are merged with those of the model. -/
theorem checkPreAnon_eq (engine : FirewallRuleEngine) (mlModel : Option MLModel) (text : Text) :
    checkPreAnon engine mlModel text =
      if (engine.evaluate text).isEmpty then []
      else mergeResults (engine.evaluate text) (predictions mlModel text) := by
  by_cases hempty : (engine.evaluate text).isEmpty
  · have hnil := List.isEmpty_iff.mp hempty
    rcases mlModel with _ | predict
    · simp [checkPreAnon, hnil]
    · simp [checkPreAnon, hnil]
  · rw [if_neg hempty]
    rcases mlModel with _ | predict
    · exact (mergeResults_nil engine text).symm
    · simp only [checkPreAnon, predictions, if_neg hempty, evaluateWithMl, Option.bind_some]
      rcases predict text with _ | mlResults
      · exact (mergeResults_nil engine text).symm
      · rfl

/-- Some rule reports a result if and only if some category keeps a rule. -/
theorem evaluate_ne_nil_iff :
    engine.evaluate text ≠ [] ↔ ∃ rule, engine.Kept text rule := by
  constructor
  · intro h
    obtain ⟨result, hresult⟩ := List.exists_mem_of_ne_nil _ h
    obtain ⟨rule, hkept, -⟩ := mem_evaluate_iff.mp hresult
    exact ⟨rule, hkept⟩
  · rintro ⟨rule, hkept⟩
    obtain ⟨result, hdetect⟩ := Option.isSome_iff_exists.mp hkept.isSome
    exact List.ne_nil_of_mem (mem_evaluate_iff.mpr ⟨rule, hkept, hdetect⟩)

/-- The results of the gates: those of the rules that stand, and of the model where it counts and
some rule reported a result in the first place. -/
theorem mem_checkPreAnon_iff {result : DetectionResult} :
    result ∈ checkPreAnon engine mlModel text ↔
      (∃ rule, engine.Stands text (predictions mlModel text) rule ∧
          engine.detect text rule = some result) ∨
        (∃ rule, engine.Kept text rule) ∧
          engine.Overtakes text (predictions mlModel text) result := by
  rw [checkPreAnon_eq, ← evaluate_ne_nil_iff]
  by_cases hempty : engine.evaluate text = []
  · simp only [hempty, List.isEmpty_nil, if_true, List.not_mem_nil, ne_eq, not_true, false_and,
      or_false, false_iff, not_exists, not_and]
    intro rule hstands _
    exact absurd hempty (evaluate_ne_nil_iff.mpr ⟨rule, hstands.1⟩)
  · rw [if_neg (by simpa using hempty), mem_mergeResults_iff]
    simp only [ne_eq, hempty, not_false_eq_true, true_and]

/-! ### What blocks -/

/-- A gate that gives a result of the engine the action `act`, which is a rule's own or that of its
severity, blocks if and only if a rule that stands blocks or a result of the model does. -/
theorem exists_block_iff (act : FirewallAction → SeverityLevel → FirewallAction) :
    (∃ r ∈ checkPreAnon engine mlModel text, act r.action r.severity = .block) ↔
      (∃ rule, engine.Stands text (predictions mlModel text) rule ∧
          act rule.action rule.severity = .block) ∨
        (∃ rule, engine.Kept text rule) ∧ ∃ m,
          engine.Overtakes text (predictions mlModel text) m ∧
            act m.action m.severity = .block := by
  constructor
  · rintro ⟨r, hr, hblock⟩
    rcases mem_checkPreAnon_iff.mp hr with ⟨rule, hstands, hdetect⟩ | ⟨hkept, hovertakes⟩
    · obtain ⟨-, hseverity, haction⟩ := detect_eq_some hdetect
      rw [hseverity, haction] at hblock
      exact Or.inl ⟨rule, hstands, hblock⟩
    · exact Or.inr ⟨hkept, r, hovertakes, hblock⟩
  · rintro (⟨rule, hstands, hblock⟩ | ⟨hkept, m, hovertakes, hblock⟩)
    · obtain ⟨r, hdetect⟩ := Option.isSome_iff_exists.mp hstands.1.isSome
      obtain ⟨-, hseverity, haction⟩ := detect_eq_some hdetect
      refine ⟨r, mem_checkPreAnon_iff.mpr (Or.inl ⟨rule, hstands, hdetect⟩), ?_⟩
      rw [hseverity, haction]
      exact hblock
    · exact ⟨m, mem_checkPreAnon_iff.mpr (Or.inr ⟨hkept, hovertakes⟩), hblock⟩

/-- **What blocks.** The inbound gate blocks if and only if a rule that blocks stands, or a result
of the model that counts blocks; the outbound gate likewise, with the action of the severity. -/
theorem blocks_iff (engine : FirewallRuleEngine) (mapping : SeverityActionMapping)
    (mlModel : Option MLModel) (text : Text) :
    (shouldBlock (checkPreAnon engine mlModel text) = true ↔
      (∃ rule, engine.Stands text (predictions mlModel text) rule ∧ rule.action = .block) ∨
        (∃ rule, engine.Kept text rule) ∧
          ∃ m, engine.Overtakes text (predictions mlModel text) m ∧ m.action = .block) ∧
    ((∃ r ∈ checkPreRestore engine mapping mlModel text, r.action = .block) ↔
      (∃ rule, engine.Stands text (predictions mlModel text) rule ∧
          mapping.action rule.severity = .block) ∨
        (∃ rule, engine.Kept text rule) ∧
          ∃ m, engine.Overtakes text (predictions mlModel text) m ∧
            mapping.action m.severity = .block) := by
  constructor
  · rw [shouldBlock, List.any_eq_true]
    simp only [decide_eq_true_eq]
    exact exists_block_iff fun action _ => action
  · rw [checkPreRestore, applySeverityMapping]
    simp only [List.mem_map, exists_exists_and_eq_and]
    exact exists_block_iff fun _ severity => mapping.action severity

/-- A rule that blocks on the word `attack`, with some severity. -/
def blockRule (severity : SeverityLevel) : FirewallRule where
  ruleId := "block"
  category := .jailbreak
  pattern := some "attack".toList
  severity := severity

/-- A more severe rule for the same word, which only flags. -/
def flagRule : FirewallRule where
  ruleId := "flag"
  category := .jailbreak
  pattern := some "attack".toList
  action := .flagAndForward

/-- An engine whose patterns are found in a text that is equal to them. -/
def sampleEngine (rules : List FirewallRule) : FirewallRuleEngine :=
  .init rules (fun _ => none) fun pattern text => if pattern = text then some text else none

/-- A model that is sure of every jailbreak. -/
def sureModel : MLModel := firewallMLModel fun _ => .row [0, 19 / 20]

/-- A rule that blocks is dropped for a more severe one of its category that does not, and for a
result of the model that is more confident, at the inbound and at the outbound gate. -/
theorem not_blocks :
    shouldBlock (checkPreAnon (sampleEngine [blockRule .medium, flagRule]) none
        "attack".toList) = false ∧
      shouldBlock (checkPreAnon (sampleEngine [blockRule .high]) (some sureModel)
        "attack".toList) = false ∧
      (checkPreRestore (sampleEngine [blockRule .high]) {} (some sureModel)
        "attack".toList).map DetectionResult.action = [.flagAndForward] ∧
      ¬ ∀ engine mlModel text, (∃ rule ∈ engine.rules, (engine.detect text rule).isSome = true ∧
        rule.action = .block) → shouldBlock (checkPreAnon engine mlModel text) = true := by
  have hrules : sampleEngine [blockRule .medium, flagRule] =
      { rules := [blockRule .medium, flagRule], search := (sampleEngine []).search } := by
    refine congrArg (fun rules => FirewallRuleEngine.mk rules _ _) ?_
    exact List.mergeSort_of_pairwise (by decide)
  have hdropped : shouldBlock (checkPreAnon (sampleEngine [blockRule .medium, flagRule]) none
      "attack".toList) = false := by
    rw [hrules]
    decide +kernel
  refine ⟨hdropped, by decide +kernel, by decide +kernel, fun h => ?_⟩
  have hblocks := h (sampleEngine [blockRule .medium, flagRule]) none "attack".toList
    ⟨blockRule .medium, by rw [hrules]; exact List.mem_cons_self, by decide +kernel, rfl⟩
  exact Bool.false_ne_true (hdropped.symm.trans hblocks)

end AnonReq.Firewall
