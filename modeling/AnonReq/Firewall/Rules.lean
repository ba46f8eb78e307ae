import AnonReq.Firewall.Gates
import AnonReq.Foundation.Runs
import AnonReq.Foundation.Yaml

/-!
# Loading the rules of the firewall

`firewall/rules.py`, `firewall/reloader.py` and the models they build. A load parses three sections
of the file one after the other; the category configuration is replaced while it is parsed, the
severity mapping only if its section is not empty, and the rules at the end.

* `atomic_iff`: when one load either changes nothing or leaves what a new loader would hold.
* `atomicRun_iff`: the same for every run of loads.
* `parseRules_eq`: of the rules of a file with one id the last one is loaded.
* `not_atomicRun`: a file without a severity section after one with it, and a file with an invalid
  category.
-/

namespace AnonReq.Firewall

/-! ### The models -/

/-- `FirewallRule` with all its fields. -/
structure LoadedRule extends FirewallRule where
  description : Option Text := none
  semanticDescription : Option Text := none
  metadata : List (Text × Yaml) := []

/-- `category.value`. -/
def DetectionCategory.value : DetectionCategory → Text
  | .promptInjection => "prompt_injection".toList
  | .jailbreak => "jailbreak".toList
  | .systemPromptExtraction => "system_prompt_extraction".toList
  | .instructionOverride => "instruction_override".toList
  | .roleEscalation => "role_escalation".toList
  | .hiddenToolInvocation => "hidden_tool_invocation".toList
  | .secretExfiltration => "secret_exfiltration".toList

/-- `severity.value`. -/
def SeverityLevel.value : SeverityLevel → Text
  | .low => "LOW".toList
  | .medium => "MEDIUM".toList
  | .high => "HIGH".toList

/-- `action.value`. -/
def FirewallAction.value : FirewallAction → Text
  | .block => "BLOCK".toList
  | .flagAndForward => "FLAG_AND_FORWARD".toList
  | .monitor => "MONITOR".toList

/-- What a load raises: `safe_load` rejects the file, a section is of the wrong kind, keyword
arguments are no mapping with texts as keys, or a model rejects its fields. -/
inductive RuleError where
  | yamlError
  | attributeError
  | typeError
  | validationError
deriving DecidableEq

/-- How pydantic converts a value to a truth value, an integer and a finite number. -/
structure Conversions where
  bool : Yaml → Option Bool
  int : Yaml → Option ℤ
  float : Yaml → Option ℚ

/-- A text, as pydantic takes it. -/
def textValue : Yaml → Option Text
  | .str s => some s
  | _ => none

/-- A text or `None`. -/
def optionalText : Yaml → Option (Option Text)
  | .null => some none
  | .str s => some (some s)
  | _ => none

/-- The member of an enumeration with a value. -/
def memberOf {α : Type} (members : List α) (value : α → Text) (v : Yaml) : Option α :=
  (textValue v).bind fun s => members.find? fun member => value member = s

/-- The keyword arguments of `**raw`. -/
def keywords : Yaml → Option (List (Text × Yaml))
  | .map entries => entries.mapM fun entry => (textValue entry.1).map fun name => (name, entry.2)
  | _ => none

/-- A field of a model, which is converted if it is given. -/
def field {α : Type} (fields : List (Text × Yaml)) (name : String) (default : Option α)
    (convert : Yaml → Option α) : Option α :=
  match fields.lookup name.toList with
  | none => default
  | some v => convert v

/-- `Model(**raw)` of a model that forbids other fields. -/
def construct {α : Type} (names : List String) (model : List (Text × Yaml) → Option α)
    (raw : Yaml) : Except RuleError α :=
  match keywords raw with
  | none => .error .typeError
  | some fields =>
    if fields.all fun entry => names.any fun name => entry.1 == name.toList then
      match model fields with
      | none => .error .validationError
      | some value => .ok value
    else .error .validationError

variable (C : Conversions)

/-- `FirewallRule(**raw)`. -/
def firewallRule : Yaml → Except RuleError LoadedRule :=
  construct ["rule_id", "category", "enabled", "pattern", "description", "semantic_description",
      "action", "severity", "priority", "metadata"] fun fields => do
    let ruleId ← field fields "rule_id" none textValue
    let category ← field fields "category" none
      (memberOf DetectionCategory.all DetectionCategory.value)
    let enabled ← field fields "enabled" (some true) C.bool
    let pattern ← field fields "pattern" (some none) optionalText
    let description ← field fields "description" (some none) optionalText
    let semanticDescription ← field fields "semantic_description" (some none) optionalText
    let action ← field fields "action" (some .block)
      (memberOf [.block, .flagAndForward, .monitor] FirewallAction.value)
    let severity ← field fields "severity" (some .high)
      (memberOf [.low, .medium, .high] SeverityLevel.value)
    let priority ← field fields "priority" (some 0) C.int
    let metadata ← field fields "metadata" (some []) keywords
    pure { ruleId := String.ofList ruleId, category, enabled, pattern, action, severity, priority,
           description, semanticDescription, metadata }

/-- `RuleCategoryConfig(**value)`. -/
def ruleCategoryConfig : Yaml → Except RuleError RuleCategoryConfig :=
  construct ["enabled", "threshold"] fun fields => do
    let enabled ← field fields "enabled" (some true) C.bool
    let threshold ← field fields "threshold" (some (17 / 20)) C.float
    if 0 ≤ threshold ∧ threshold ≤ 1 then pure { enabled, threshold } else none

/-- `SeverityActionMapping(**raw)`. -/
def severityActionMapping : Yaml → Except RuleError SeverityActionMapping :=
  construct ["high", "medium", "low"] fun fields => do
    let action := memberOf [.block, .flagAndForward, .monitor] FirewallAction.value
    let high ← field fields "high" (some .block) action
    let medium ← field fields "medium" (some .flagAndForward) action
    let low ← field fields "low" (some .monitor) action
    pure { high, medium, low }

/-! ### Loading -/

/-- The file at the path of a loader. -/
inductive RuleFile where
  | missing
  | malformed
  | document (data : Yaml)

/-- `FirewallRuleLoader`. The keys of the categories are those of a mapping, of any kind. -/
structure FirewallRuleLoader where
  rules : List LoadedRule
  categoryConfig : List (Yaml × RuleCategoryConfig)
  severityMapping : SeverityActionMapping

/-- A new loader. -/
def FirewallRuleLoader.create : FirewallRuleLoader where
  rules := []
  categoryConfig := []
  severityMapping := {}

/-- What a `for` loop over a value runs over. -/
def iterate : Yaml → Option (List Yaml)
  | .seq items => some items
  | .map entries => some (entries.map Prod.fst)
  | .str s => some (s.map fun c => .str [c])
  | _ => none

/-- The body of the loop over the rules, whose state is what is parsed and the ids that were seen:
of rules with one id the last is kept. -/
def addRule (state : List LoadedRule × List String) (raw : Yaml) :
    Except RuleError (List LoadedRule × List String) := do
  let rule ← firewallRule C raw
  let parsed := if rule.ruleId ∈ state.2 then
      state.1.filter fun other => other.ruleId ≠ rule.ruleId
    else state.1
  pure (parsed ++ [rule], rule.ruleId :: state.2)

/-- The rules of a file. -/
def parseRules (raw : Yaml) : Except RuleError (List LoadedRule) :=
  match iterate raw with
  | none => .error .typeError
  | some items => (items.foldlM (addRule C) ([], [])).map Prod.fst

/-- The configuration of one category. -/
def categoryEntry : Yaml → Except RuleError RuleCategoryConfig
  | .map entries => ruleCategoryConfig C (.map entries)
  | _ => .ok {}

/-- The entries of a section, up to the first that raises. -/
def categoryEntries : List (Yaml × Yaml) → List (Yaml × RuleCategoryConfig) × Option RuleError
  | [] => ([], none)
  | (key, value) :: entries =>
    match categoryEntry C value with
    | .error e => ([], some e)
    | .ok config =>
      let rest := categoryEntries entries
      ((key, config) :: rest.1, rest.2)

/-- `_parse_category_config(raw)`: what it leaves in the field, and what it raises. -/
def parseCategoryConfig : Yaml → List (Yaml × RuleCategoryConfig) × Option RuleError
  | .map entries => categoryEntries C entries
  | _ => ([], some .attributeError)

/-- `_parse_severity_mapping(raw)`. -/
def parseSeverityMapping (mapping : SeverityActionMapping) (raw : Yaml) :
    Except RuleError SeverityActionMapping :=
  if raw.truthy then severityActionMapping raw else .ok mapping

namespace FirewallRuleLoader

/-- The sections of a mapping, taken over one after the other. -/
def loadSections (s : FirewallRuleLoader) (data : Yaml) :
    Except RuleError (List LoadedRule) × FirewallRuleLoader :=
  match parseRules C (data.getD "rules".toList (.seq [])) with
  | .error e => (.error e, s)
  | .ok parsed =>
    let categories := parseCategoryConfig C (data.getD "category_config".toList (.map []))
    let s := { s with categoryConfig := categories.1 }
    match categories.2 with
    | some e => (.error e, s)
    | none =>
      match parseSeverityMapping s.severityMapping
          (data.getD "severity_mapping".toList (.map [])) with
      | .error e => (.error e, s)
      | .ok mapping =>
        let s := { s with severityMapping := mapping, rules := parsed }
        (.ok s.rules, s)

/-- `load()`. -/
def load (s : FirewallRuleLoader) :
    RuleFile → Except RuleError (List LoadedRule) × FirewallRuleLoader
  | .missing => (.ok [], s)
  | .malformed => (.error .yamlError, s)
  | .document data =>
    match if data.truthy then data else .map [] with
    | .map entries => loadSections C s (.map entries)
    | _ => (.error .attributeError, s)

/-- `FirewallRuleReloader.reload()`: the old and the new rules. -/
def reload (s : FirewallRuleLoader) (file : RuleFile) :
    (List LoadedRule × List LoadedRule) × FirewallRuleLoader :=
  let loaded := s.load C file
  match loaded.1 with
  | .ok new => ((s.rules, new), loaded.2)
  | .error _ => ((s.rules, s.rules), loaded.2)

/-! ### What has to hold -/

/-- A load changes nothing if it fails, and leaves what it leaves in a new loader if it succeeds. -/
def Atomic (s : FirewallRuleLoader) (file : RuleFile) : Prop :=
  match (s.load C file).1 with
  | .error _ => (s.load C file).2 = s
  | .ok _ => (s.load C file).2 = (create.load C file).2

/-- One of the sections behind the rules is invalid. -/
def SectionsFail (data : Yaml) : Prop :=
  (parseCategoryConfig C (data.getD "category_config".toList (.map []))).2 ≠ none ∨
    ∃ e, parseSeverityMapping {} (data.getD "severity_mapping".toList (.map [])) = .error e

/-- The rules of a document are valid. -/
def RulesParse (data : Yaml) : Prop :=
  data.IsMap ∧ ∃ parsed, parseRules C (data.getD "rules".toList (.seq [])) = .ok parsed

/-- A file whose load is not seen to be divided. Where the rules are valid and a section behind them
is not, the categories up to the failure are those that the loader holds; where all is valid, the
severity section is not empty, or the loader holds the default mapping. A missing file leaves what
a new loader has. -/
def Undivided (s : FirewallRuleLoader) : RuleFile → Prop
  | .missing => s = create
  | .malformed => True
  | .document data =>
    let data := if data.truthy then data else .map []
    RulesParse C data →
      (SectionsFail C data →
        s.categoryConfig =
          (parseCategoryConfig C (data.getD "category_config".toList (.map []))).1) ∧
      (¬ SectionsFail C data →
        (data.getD "severity_mapping".toList (.map [])).truthy = true ∨ s.severityMapping = {})

variable {C}

/-! ### One load -/

theorem setCategories_eq_self_iff {s : FirewallRuleLoader}
    {config : List (Yaml × RuleCategoryConfig)} :
    { s with categoryConfig := config } = s ↔ s.categoryConfig = config := by
  constructor
  · exact fun h => (congrArg categoryConfig h).symm
  · rintro rfl
    rfl

/-- The mapping that a section leaves does not depend on the one before, if the section says
something. -/
theorem parseSeverityMapping_eq (mapping : SeverityActionMapping) (raw : Yaml) :
    parseSeverityMapping mapping raw =
      (parseSeverityMapping {} raw).map fun parsed => if raw.truthy then parsed else mapping := by
  rw [parseSeverityMapping, parseSeverityMapping]
  by_cases h : raw.truthy = true
  · simp only [h, if_true]
    cases severityActionMapping raw <;> rfl
  · simp only [h]
    rfl

/-- The sections of a document whose rules are valid. -/
theorem loadSections_of_parse (s : FirewallRuleLoader) {data : Yaml} {parsed : List LoadedRule}
    (hrules : parseRules C (data.getD "rules".toList (.seq [])) = .ok parsed) :
    let categories := parseCategoryConfig C (data.getD "category_config".toList (.map []))
    let severity := data.getD "severity_mapping".toList (.map [])
    (SectionsFail C data ∧ ∃ e,
        s.loadSections C data = (.error e, { s with categoryConfig := categories.1 })) ∨
      (¬ SectionsFail C data ∧ ∃ mapping, parseSeverityMapping {} severity = .ok mapping ∧
        s.loadSections C data = (.ok parsed, {
          rules := parsed
          categoryConfig := categories.1
          severityMapping := if severity.truthy then mapping else s.severityMapping })) := by
  intro categories severity
  rw [loadSections, hrules]
  dsimp only
  cases hcategories : categories.2 with
  | some e =>
    have hfail : SectionsFail C data := Or.inl (by rw [hcategories]; exact Option.some_ne_none e)
    exact Or.inl ⟨hfail, e, rfl⟩
  | none =>
    rw [parseSeverityMapping_eq]
    cases hseverity : parseSeverityMapping {} severity with
    | error e => exact Or.inl ⟨Or.inr ⟨e, hseverity⟩, e, rfl⟩
    | ok mapping =>
      refine Or.inr ⟨?_, mapping, rfl, rfl⟩
      rintro (h | ⟨e, h⟩)
      · exact h hcategories
      · exact absurd (hseverity.symm.trans h) (by simp)

/-- The load of a document that is a mapping. -/
theorem atomic_iff_of_loadSections (s : FirewallRuleLoader) {file : RuleFile} {data : Yaml}
    (hmap : data.IsMap)
    (hload : ∀ s : FirewallRuleLoader, s.load C file = s.loadSections C data) :
    Atomic C s file ↔ (RulesParse C data →
      (SectionsFail C data →
        s.categoryConfig =
          (parseCategoryConfig C (data.getD "category_config".toList (.map []))).1) ∧
      (¬ SectionsFail C data →
        (data.getD "severity_mapping".toList (.map [])).truthy = true ∨
          s.severityMapping = {})) := by
  obtain ⟨severity, hseverity⟩ : ∃ severity,
      severity = data.getD "severity_mapping".toList (.map []) := ⟨_, rfl⟩
  rw [Atomic, hload, hload]
  cases hrules : parseRules C (data.getD "rules".toList (.seq [])) with
  | error e =>
    have hsections : s.loadSections C data = (.error e, s) := by
      rw [loadSections, hrules]
    rw [hsections]
    refine iff_of_true rfl ?_
    rintro ⟨-, parsed, hparsed⟩
    exact absurd (hrules.symm.trans hparsed) (by simp)
  | ok parsed =>
    have hparse : RulesParse C data := ⟨hmap, parsed, hrules⟩
    obtain ⟨hfail, e, hfailed⟩ | ⟨hvalid, mapping, hmapping, hloaded⟩ :=
      loadSections_of_parse s hrules
    · -- the load raises, and what it leaves are the categories up to the failure
      rw [hfailed]
      dsimp only
      rw [setCategories_eq_self_iff]
      exact ⟨fun h _ => ⟨fun _ => h, fun hvalid => absurd hfail hvalid⟩,
        fun h => (h hparse).1 hfail⟩
    · -- it succeeds, and so it does in a new loader
      obtain ⟨hfail, -⟩ | ⟨-, mapping', hmapping', hcreate⟩ := loadSections_of_parse create hrules
      · exact absurd hfail hvalid
      · obtain rfl := Except.ok.inj (hmapping.symm.trans hmapping')
        rw [hloaded, hcreate, ← hseverity]
        have hiff : (if severity.truthy = true then mapping else s.severityMapping) =
            (if severity.truthy = true then mapping else {}) ↔
              severity.truthy = true ∨ s.severityMapping = {} := by
          by_cases h : severity.truthy = true <;> simp [h]
        constructor
        · exact fun h _ => ⟨fun hfail => absurd hfail hvalid,
            fun _ => hiff.mp (congrArg severityMapping h)⟩
        · intro h
          exact congrArg (FirewallRuleLoader.mk parsed _) (hiff.mpr ((h hparse).2 hvalid))

/-- **One load** is atomic exactly if the file is undivided. -/
theorem atomic_iff (s : FirewallRuleLoader) (file : RuleFile) :
    Atomic C s file ↔ Undivided C s file := by
  cases file with
  | missing => exact Iff.rfl
  | malformed => exact iff_of_true rfl trivial
  | document data =>
    rw [Undivided]
    obtain ⟨document, hdocument⟩ : ∃ document, document = if data.truthy then data else .map [] :=
      ⟨_, rfl⟩
    rw [← hdocument]
    by_cases hmap : document.IsMap
    · refine atomic_iff_of_loadSections s hmap fun s => ?_
      obtain ⟨entries, rfl⟩ := hmap
      rw [load, ← hdocument]
    · have hload : s.load C (.document data) = (.error .attributeError, s) := by
        rw [load, ← hdocument]
        cases document with
        | map entries => exact absurd ⟨entries, rfl⟩ hmap
        | _ => rfl
      rw [Atomic, hload]
      exact iff_of_true rfl fun h => absurd h.1 hmap

/-! ### Runs -/

variable (C)

/-- **Every run of loads** from a new loader has only atomic loads exactly if every file is
undivided when it is loaded. -/
theorem atomicRun_iff (files : List RuleFile) :
    Runs.Along (fun s file => (reload C s file).2) (Atomic C) create files ↔
      Runs.Along (fun s file => (reload C s file).2) (Undivided C) create files :=
  Runs.along_congr (I := fun _ => True) (fun _ _ _ _ => trivial)
    (fun s file _ => atomic_iff s file) trivial

/-! ### The rules of a file -/

variable {C}

/-- The rules of which no later one has the id. -/
def lastOfEachId (rules : List LoadedRule) : List LoadedRule :=
  rules.pwFilter fun rule later => rule.ruleId ≠ later.ruleId

/-- One rule more takes the place of the earlier rule with its id. -/
theorem lastOfEachId_append (rules : List LoadedRule) (rule : LoadedRule) :
    lastOfEachId (rules ++ [rule]) =
      (lastOfEachId rules).filter (fun other => other.ruleId ≠ rule.ruleId) ++ [rule] := by
  have hforall : ∀ (first : LoadedRule) (rest : List LoadedRule),
      (∀ later ∈ lastOfEachId rest, first.ruleId ≠ later.ruleId) ↔
        ∀ later ∈ rest, first.ruleId ≠ later.ruleId :=
    List.forall_mem_pwFilter fun {first second third} hne =>
      Decidable.or_iff_not_imp_left.mpr fun heq => not_not.mp heq ▸ hne
  induction rules with
  | nil => rfl
  | cons first rest ih =>
    have hkeep : ∀ {rest : List LoadedRule}, (∀ later ∈ rest, first.ruleId ≠ later.ruleId) →
        lastOfEachId (first :: rest) = first :: lastOfEachId rest :=
      fun h => List.pwFilter_cons_of_pos ((hforall first _).mpr h)
    have hdrop : ∀ {rest : List LoadedRule}, (¬ ∀ later ∈ rest, first.ruleId ≠ later.ruleId) →
        lastOfEachId (first :: rest) = lastOfEachId rest :=
      fun h => List.pwFilter_cons_of_neg fun hall => h ((hforall first _).mp hall)
    have hall : (∀ later ∈ rest ++ [rule], first.ruleId ≠ later.ruleId) ↔
        (∀ later ∈ rest, first.ruleId ≠ later.ruleId) ∧ first.ruleId ≠ rule.ruleId := by
      simp only [List.forall_mem_append, List.forall_mem_singleton]
    rw [List.cons_append]
    by_cases hrest : ∀ later ∈ rest, first.ruleId ≠ later.ruleId
    · rw [hkeep hrest]
      by_cases hrule : first.ruleId ≠ rule.ruleId
      · rw [hkeep (hall.mpr ⟨hrest, hrule⟩), ih, List.filter_cons_of_pos (by simpa using hrule),
          List.cons_append]
      · rw [hdrop fun h => hrule (hall.mp h).2, ih, List.filter_cons_of_neg (by simpa using hrule)]
    · rw [hdrop hrest, hdrop fun h => hrest (hall.mp h).1, ih]

/-- What is parsed is the last rule of each id so far, and the ids of all rules have been seen. -/
theorem foldlM_addRule (items : List Yaml) (rules : List LoadedRule) (seen : List String)
    (hseen : ∀ rule ∈ rules, rule.ruleId ∈ seen) :
    (items.foldlM (addRule C) (lastOfEachId rules, seen)).map Prod.fst =
      (items.mapM (firewallRule C)).map fun more => lastOfEachId (rules ++ more) := by
  induction items generalizing rules seen with
  | nil => exact congrArg Except.ok (congrArg lastOfEachId (List.append_nil rules).symm)
  | cons item items ih =>
    rw [List.foldlM_cons, List.mapM_cons]
    cases hrule : firewallRule C item with
    | error e =>
      rw [addRule, hrule]
      rfl
    | ok rule =>
      have hadd : addRule C (lastOfEachId rules, seen) item =
          .ok (lastOfEachId (rules ++ [rule]), rule.ruleId :: seen) := by
        rw [addRule, hrule, lastOfEachId_append]
        refine congrArg Except.ok (congrArg₂ Prod.mk (congrArg (· ++ [rule]) ?_) rfl)
        split_ifs with hmem
        · rfl
        · refine (List.filter_eq_self.mpr fun other hother => ?_).symm
          rw [decide_eq_true_eq]
          exact fun heq => hmem (heq ▸ hseen other (List.pwFilter_subset _ hother))
      have hseen' : ∀ other ∈ rules ++ [rule], other.ruleId ∈ rule.ruleId :: seen := by
        intro other hother
        obtain hother | hother := List.mem_append.mp hother
        · exact List.mem_cons_of_mem _ (hseen other hother)
        · exact List.mem_singleton.mp hother ▸ List.mem_cons_self
      rw [hadd]
      refine (ih (rules ++ [rule]) (rule.ruleId :: seen) hseen').trans ?_
      cases items.mapM (firewallRule C) with
      | error e => rfl
      | ok more =>
        exact congrArg Except.ok (congrArg lastOfEachId (List.append_assoc rules [rule] more))

/-- **The rules of a file**: of the rules with one id the last one, in the order of the file. -/
theorem parseRules_eq (C : Conversions) (raw : Yaml) : parseRules C raw =
    match iterate raw with
    | none => .error .typeError
    | some items => (items.mapM (firewallRule C)).map lastOfEachId := by
  rw [parseRules]
  cases iterate raw with
  | none => rfl
  | some items => exact foldlM_addRule items [] [] fun rule h => absurd h List.not_mem_nil

end FirewallRuleLoader

/-! ### Files -/

/-- Conversions of values that are already of the right kind. -/
def strictConversions : Conversions where
  bool
    | .bool b => some b
    | _ => none
  int
    | .int n => some n
    | _ => none
  float
    | .float q => some q
    | .int n => some n
    | _ => none

/-- A file that monitors high severity. -/
def monitorFile : RuleFile :=
  .document (.map [(.str "rules".toList, .seq []),
    (.str "category_config".toList, .map [(.str "jailbreak".toList, .map [])]),
    (.str "severity_mapping".toList, .map [(.str "high".toList, .str "MONITOR".toList)])])

/-- A file without a severity section. -/
def plainFile : RuleFile := .document (.map [(.str "rules".toList, .seq [])])

/-- A file with a threshold that is too high. -/
def highThreshold : RuleFile :=
  .document (.map [(.str "category_config".toList, .map [(.str "jailbreak".toList,
    .map [(.str "threshold".toList, .float 2)])])])

/-- **Neither half holds**: a load that fails has emptied the categories, and a load that succeeds
has kept the mapping of an earlier file. -/
theorem not_atomicRun :
    ((FirewallRuleLoader.create.load strictConversions monitorFile).2.load strictConversions
        highThreshold).2.categoryConfig.length = 0 ∧
    ((FirewallRuleLoader.create.load strictConversions monitorFile).2.load strictConversions
        plainFile).2.severityMapping.high = .monitor ∧
    (¬ ∀ (C : Conversions) (files : List RuleFile),
      Runs.Along (fun s file => (FirewallRuleLoader.reload C s file).2)
        (FirewallRuleLoader.Atomic C) FirewallRuleLoader.create files) := by
  refine ⟨by decide +kernel, by decide +kernel, fun h => ?_⟩
  obtain ⟨-, hkept, -⟩ := h strictConversions [monitorFile, plainFile]
  have hmapping := congrArg (fun s => s.severityMapping.high) hkept
  exact absurd hmapping (by decide +kernel)

end AnonReq.Firewall
