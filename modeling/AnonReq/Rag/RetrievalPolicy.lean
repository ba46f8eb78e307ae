import Mathlib.Data.List.Basic

/-!
# The retrieval policy

`rag/policy.py`: four rules decide which of the retrieved chunks a user may see. Levels of
classification and clearance are free texts; what is no level counts as `Internal`.

* `allowed_iff`: what the four rules let through together.
* `filterChunks_spec`: the chunks are split into the allowed ones and the others, and which chunks
  with a level are allowed.
* `not_failsClosed`: a user without a business unit sees the chunks of every unit.
-/

namespace AnonReq.Rag

/-! ### The texts of reasons -/

/-- So many hexadecimal digits, the last ones of a number. -/
def hexDigits : ℕ → ℕ → List Char
  | 0, _ => []
  | width + 1, n => hexDigits width (n / 16) ++ [Nat.digitChar (n % 16)]

/-- A character in the `repr` of a text. `printable` tells which characters from U+0080 on are
written as they are. -/
def reprChar (printable : Char → Bool) (quote c : Char) : List Char :=
  if c = quote ∨ c = '\\' then ['\\', c]
  else if c = '\t' then ['\\', 't']
  else if c = '\n' then ['\\', 'n']
  else if c = '\r' then ['\\', 'r']
  else if 0x20 ≤ c.toNat ∧ c.toNat < 0x7F ∨ 0x7F < c.toNat ∧ printable c then [c]
  else if c.toNat ≤ 0xFF then '\\' :: 'x' :: hexDigits 2 c.toNat
  else if c.toNat ≤ 0xFFFF then '\\' :: 'u' :: hexDigits 4 c.toNat
  else '\\' :: 'U' :: hexDigits 8 c.toNat

/-- `repr` of a text: in double quotes if it has single quotes and no double quotes. -/
def reprText (printable : Char → Bool) (text : String) : String :=
  let quote := if text.toList.contains '\'' && !text.toList.contains '"' then '"' else '\''
  String.ofList (quote :: (text.toList.flatMap (reprChar printable quote) ++ [quote]))

/-- `repr` of a list of texts. -/
def reprList (printable : Char → Bool) (texts : List String) : String :=
  "[" ++ ", ".intercalate (texts.map (reprText printable)) ++ "]"

/-! ### The model -/

/-- `_CLASSIFICATION_ORDER`. -/
def classificationOrder : List String := ["Internal", "Confidential", "Highly Restricted"]

/-- `_classification_rank`. -/
def classificationRank (level : String) : ℕ := (classificationOrder.idxOf? level).getD 0

/-- `ChunkContext`. -/
structure ChunkContext where
  chunkId : String
  content : String
  classificationLevel : String := "Internal"
  entityTypesPresent : List String := []
  sourceAppId : String := ""
  businessUnit : String := ""
  allowedRoles : List String := []
deriving DecidableEq

/-- `UserContext`. -/
structure UserContext where
  userId : String
  roles : List String
  applications : List String
  clearance : String := "Internal"
  businessUnit : String := ""
deriving DecidableEq

/-- `PolicyRuleResult`. -/
structure PolicyRuleResult where
  ruleId : String
  denied : Bool
  reason : String := ""
deriving DecidableEq

/-- `PolicyEvaluationResult`. -/
structure PolicyEvaluationResult where
  allowed : Bool
  deniedRules : List PolicyRuleResult := []
deriving DecidableEq

/-- `all_rules`. -/
def allRules : List String :=
  ["classification_clearance", "entity_type_restriction", "cross_app_isolation",
    "business_unit_isolation"]

/-- `RetrievalPolicyEngine`, and the characters that the runtime prints. -/
structure RetrievalPolicyEngine where
  printable : Char → Bool
  enabledRules : List String := allRules

namespace RetrievalPolicyEngine

variable (engine : RetrievalPolicyEngine) (chunk : ChunkContext) (user : UserContext)

/-- `_rule_classification_clearance`. -/
def ruleClassificationClearance : PolicyRuleResult :=
  if classificationRank user.clearance < classificationRank chunk.classificationLevel then
    { ruleId := "classification_clearance"
      denied := true
      reason := "Chunk classification '" ++ chunk.classificationLevel ++
        "' exceeds user clearance '" ++ user.clearance ++ "'" }
  else { ruleId := "classification_clearance", denied := false }

/-- `_rule_entity_type_restriction`. -/
def ruleEntityTypeRestriction : PolicyRuleResult :=
  if chunk.allowedRoles.isEmpty then { ruleId := "entity_type_restriction", denied := false }
  else if !chunk.allowedRoles.any fun role => user.roles.contains role then
    { ruleId := "entity_type_restriction"
      denied := true
      reason := "User roles " ++ reprList engine.printable user.roles ++ " not in allowed roles " ++
        reprList engine.printable chunk.allowedRoles }
  else { ruleId := "entity_type_restriction", denied := false }

/-- `_rule_cross_app_isolation`. -/
def ruleCrossAppIsolation : PolicyRuleResult :=
  if chunk.sourceAppId = "" then { ruleId := "cross_app_isolation", denied := false }
  else if !user.applications.contains chunk.sourceAppId then
    { ruleId := "cross_app_isolation"
      denied := true
      reason := "Chunk source app '" ++ chunk.sourceAppId ++ "' not in user applications " ++
        reprList engine.printable user.applications }
  else { ruleId := "cross_app_isolation", denied := false }

/-- `_rule_business_unit_isolation`. -/
def ruleBusinessUnitIsolation : PolicyRuleResult :=
  if chunk.businessUnit = "" ∨ user.businessUnit = "" then
    { ruleId := "business_unit_isolation", denied := false }
  else if chunk.businessUnit = user.businessUnit then
    { ruleId := "business_unit_isolation", denied := false }
  else if classificationRank "Confidential" ≤ classificationRank chunk.classificationLevel then
    { ruleId := "business_unit_isolation"
      denied := true
      reason := "Cross-BU access denied: chunk BU '" ++ chunk.businessUnit ++ "' != user BU '" ++
        user.businessUnit ++ "' for classification '" ++ chunk.classificationLevel ++ "'" }
  else { ruleId := "business_unit_isolation", denied := false }

/-- The rule of a name; another name is passed over. -/
def rule (ruleId : String) : Option PolicyRuleResult :=
  if ruleId = "classification_clearance" then some (ruleClassificationClearance chunk user)
  else if ruleId = "entity_type_restriction" then
    some (engine.ruleEntityTypeRestriction chunk user)
  else if ruleId = "cross_app_isolation" then some (engine.ruleCrossAppIsolation chunk user)
  else if ruleId = "business_unit_isolation" then some (ruleBusinessUnitIsolation chunk user)
  else none

/-- `evaluate`. -/
def evaluate : PolicyEvaluationResult :=
  let denied := engine.enabledRules.filterMap fun ruleId =>
    (engine.rule chunk user ruleId).filter (·.denied)
  { allowed := denied.isEmpty, deniedRules := denied }

/-- The body of the loop of `filter_chunks`. -/
def place (lists : List ChunkContext × List ChunkContext) (chunk : ChunkContext) :
    List ChunkContext × List ChunkContext :=
  let result := engine.evaluate chunk user
  if result.allowed then (lists.1 ++ [chunk], lists.2) else (lists.1, lists.2 ++ [chunk])

/-- `filter_chunks`. -/
def filterChunks (chunks : List ChunkContext) (user : UserContext) :
    List ChunkContext × List ChunkContext :=
  chunks.foldl (engine.place user) ([], [])

end RetrievalPolicyEngine

/-! ### Levels -/

/-- `ClassificationLevel`. -/
inductive ClassificationLevel
  | internal
  | confidential
  | highlyRestricted
deriving DecidableEq

namespace ClassificationLevel

/-- The text of a level. -/
def value : ClassificationLevel → String
  | internal => "Internal"
  | confidential => "Confidential"
  | highlyRestricted => "Highly Restricted"

/-- The place of a level among the levels. -/
def index : ClassificationLevel → ℕ
  | internal => 0
  | confidential => 1
  | highlyRestricted => 2

instance : LE ClassificationLevel := ⟨fun a b => a.index ≤ b.index⟩

instance (a b : ClassificationLevel) : Decidable (a ≤ b) :=
  inferInstanceAs (Decidable (a.index ≤ b.index))

/-- The level that a text names. -/
def named (text : String) : Option ClassificationLevel :=
  if text = "Internal" then some internal
  else if text = "Confidential" then some confidential
  else if text = "Highly Restricted" then some highlyRestricted
  else none

/-- The level that a text counts as. -/
def counted (text : String) : ClassificationLevel := (named text).getD internal

@[simp]
theorem named_value (level : ClassificationLevel) : named level.value = some level := by
  cases level <;> decide

theorem internal_le (level : ClassificationLevel) : internal ≤ level := Nat.zero_le _

end ClassificationLevel

open ClassificationLevel

/-- The rank of a text is the place of the level that it counts as. -/
theorem classificationRank_eq (text : String) :
    classificationRank text = (counted text).index := by
  unfold counted named
  split_ifs with hinternal hconfidential hrestricted
  · rw [hinternal]
    decide
  · rw [hconfidential]
    decide
  · rw [hrestricted]
    decide
  · have hnone : classificationOrder.idxOf? text = none := by
      rw [List.idxOf?_eq_none_iff]
      simp [classificationOrder, hinternal, hconfidential, hrestricted]
    rw [classificationRank, hnone]
    rfl

/-! ### What the rules let through -/

/-- What the rules let through: the conditions on the level, the roles, the application and the
business unit of a chunk. -/
structure Admitted (chunk : ChunkContext) (user : UserContext) : Prop where
  level : counted chunk.classificationLevel ≤ counted user.clearance
  role : chunk.allowedRoles ≠ [] → ∃ role ∈ chunk.allowedRoles, role ∈ user.roles
  app : chunk.sourceAppId ≠ "" → chunk.sourceAppId ∈ user.applications
  unit : confidential ≤ counted chunk.classificationLevel → chunk.businessUnit ≠ "" →
    user.businessUnit ≠ "" → chunk.businessUnit = user.businessUnit

namespace RetrievalPolicyEngine

variable {engine : RetrievalPolicyEngine} {chunk : ChunkContext} {user : UserContext}

theorem denied_ruleClassificationClearance :
    (ruleClassificationClearance chunk user).denied = false ↔
      counted chunk.classificationLevel ≤ counted user.clearance := by
  unfold ruleClassificationClearance
  rw [classificationRank_eq, classificationRank_eq]
  split_ifs with hlt
  · exact iff_of_false not_false (Nat.not_le_of_lt hlt)
  · exact iff_of_true rfl (Nat.le_of_not_lt hlt)

theorem denied_ruleEntityTypeRestriction :
    (engine.ruleEntityTypeRestriction chunk user).denied = false ↔
      (chunk.allowedRoles ≠ [] → ∃ role ∈ chunk.allowedRoles, role ∈ user.roles) := by
  unfold ruleEntityTypeRestriction
  split_ifs with hempty hnone
  · exact iff_of_true rfl fun hne => absurd (List.isEmpty_iff.mp hempty) hne
  · refine iff_of_false not_false fun hsome => ?_
    obtain ⟨role, hrole, huser⟩ := hsome fun hnil => hempty (List.isEmpty_iff.mpr hnil)
    rw [Bool.not_eq_true', List.any_eq_false] at hnone
    exact hnone role hrole (List.contains_iff_mem.mpr huser)
  · refine iff_of_true rfl fun _ => ?_
    rw [Bool.not_eq_true', Bool.not_eq_false, List.any_eq_true] at hnone
    obtain ⟨role, hrole, huser⟩ := hnone
    exact ⟨role, hrole, List.contains_iff_mem.mp huser⟩

theorem denied_ruleCrossAppIsolation :
    (engine.ruleCrossAppIsolation chunk user).denied = false ↔
      (chunk.sourceAppId ≠ "" → chunk.sourceAppId ∈ user.applications) := by
  unfold ruleCrossAppIsolation
  split_ifs with hempty hnone
  · exact iff_of_true rfl fun hne => absurd hempty hne
  · rw [Bool.not_eq_true', List.contains_eq_mem, decide_eq_false_iff_not] at hnone
    exact iff_of_false not_false fun hmem => hnone (hmem hempty)
  · rw [Bool.not_eq_true', Bool.not_eq_false, List.contains_iff_mem] at hnone
    exact iff_of_true rfl fun _ => hnone

theorem denied_ruleBusinessUnitIsolation :
    (ruleBusinessUnitIsolation chunk user).denied = false ↔
      (confidential ≤ counted chunk.classificationLevel → chunk.businessUnit ≠ "" →
        user.businessUnit ≠ "" → chunk.businessUnit = user.businessUnit) := by
  have hrank : classificationRank "Confidential" = confidential.index := by decide
  unfold ruleBusinessUnitIsolation
  rw [hrank, classificationRank_eq]
  split_ifs with hempty hsame hlevel
  · refine iff_of_true rfl fun _ hchunk huser => ?_
    exact (hempty.elim hchunk huser).elim
  · exact iff_of_true rfl fun _ _ _ => hsame
  · obtain ⟨hchunk, huser⟩ := not_or.mp hempty
    exact iff_of_false not_false fun hunit => hsame (hunit hlevel hchunk huser)
  · exact iff_of_true rfl fun hle => absurd hle hlevel

/-- No rule denies if and only if none of the enabled ones does. -/
theorem allowed_eq_true_iff : (engine.evaluate chunk user).allowed = true ↔
    ∀ ruleId ∈ engine.enabledRules, ∀ result ∈ engine.rule chunk user ruleId,
      result.denied = false := by
  rw [evaluate, List.isEmpty_iff, List.filterMap_eq_nil_iff]
  refine forall₂_congr fun ruleId _ => ?_
  rw [Option.filter_eq_none_iff]
  refine forall₂_congr fun result _ => ?_
  rw [Bool.not_eq_true]

/-- **What the four rules let through together.** -/
theorem allowed_iff (printable : Char → Bool) :
    (evaluate { printable } chunk user).allowed = true ↔ Admitted chunk user := by
  rw [allowed_eq_true_iff]
  constructor
  · intro h
    -- each rule is found under its name
    have hrule : ∀ ruleId ∈ allRules, ∀ result ∈ rule { printable } chunk user ruleId,
        result.denied = false := h
    exact ⟨
      denied_ruleClassificationClearance.mp (hrule "classification_clearance" (by decide) _ rfl),
      denied_ruleEntityTypeRestriction.mp (hrule "entity_type_restriction" (by decide) _ rfl),
      denied_ruleCrossAppIsolation.mp (hrule "cross_app_isolation" (by decide) _ rfl),
      denied_ruleBusinessUnitIsolation.mp (hrule "business_unit_isolation" (by decide) _ rfl)⟩
  · intro h ruleId _ result hresult
    unfold rule at hresult
    split_ifs at hresult
    · exact Option.some.inj hresult ▸ denied_ruleClassificationClearance.mpr h.level
    · exact Option.some.inj hresult ▸ denied_ruleEntityTypeRestriction.mpr h.role
    · exact Option.some.inj hresult ▸ denied_ruleCrossAppIsolation.mpr h.app
    · exact Option.some.inj hresult ▸ denied_ruleBusinessUnitIsolation.mpr h.unit
    · exact absurd hresult (Option.not_mem_none result)

/-- **The chunks are split** into those that are allowed and the others, in their order. -/
theorem filterChunks_eq (engine : RetrievalPolicyEngine) (chunks : List ChunkContext)
    (user : UserContext) : engine.filterChunks chunks user =
      (chunks.filter fun chunk => (engine.evaluate chunk user).allowed,
        chunks.filter fun chunk => !(engine.evaluate chunk user).allowed) := by
  -- the loop, with what it has collected so far in front
  have hloop : ∀ (chunks : List ChunkContext) (lists : List ChunkContext × List ChunkContext),
      chunks.foldl (engine.place user) lists =
        (lists.1 ++ chunks.filter fun chunk => (engine.evaluate chunk user).allowed,
          lists.2 ++ chunks.filter fun chunk => !(engine.evaluate chunk user).allowed) := by
    intro chunks
    induction chunks with
    | nil => simp
    | cons chunk chunks ih =>
      intro lists
      by_cases hchunk : (engine.evaluate chunk user).allowed = true
      · rw [List.foldl_cons, place, if_pos hchunk, ih]
        simp [hchunk]
      · rw [List.foldl_cons, place, if_neg hchunk, ih]
        simp [hchunk]
  exact hloop chunks ([], [])

end RetrievalPolicyEngine

/-! ### Failing closed -/

/-- A chunk is cleared for a user: everything that decides is known, and in favour of the user. -/
structure Cleared (chunk : ChunkContext) (user : UserContext) : Prop where
  level : ∃ level clearance, named chunk.classificationLevel = some level ∧
    named user.clearance = some clearance ∧ level ≤ clearance
  role : chunk.allowedRoles ≠ [] → ∃ role ∈ chunk.allowedRoles, role ∈ user.roles
  app : chunk.sourceAppId ≠ "" → chunk.sourceAppId ∈ user.applications
  unit : ∀ level, named chunk.classificationLevel = some level → confidential ≤ level →
    chunk.businessUnit ≠ "" → chunk.businessUnit = user.businessUnit

/-- **Failing closed**: the allowed chunks are cleared, and what is not known does not help. -/
structure FailsClosed (engine : RetrievalPolicyEngine) (chunks : List ChunkContext)
    (user : UserContext) : Prop where
  /-- The chunks are split, nothing is lost, doubled or moved. -/
  split : ∃ allowed : ChunkContext → Bool,
    engine.filterChunks chunks user = (chunks.filter allowed, chunks.filter fun c => !allowed c)
  cleared : ∀ chunk ∈ (engine.filterChunks chunks user).1, Cleared chunk user
  unknownLevel : ∀ chunk ∈ (engine.filterChunks chunks user).1,
    named chunk.classificationLevel = none → ∀ level : ClassificationLevel,
      (engine.evaluate { chunk with classificationLevel := level.value } user).allowed = true
  unknownClearance : ∀ chunk ∈ (engine.filterChunks chunks user).1, named user.clearance = none →
    ∀ level : ClassificationLevel,
      (engine.evaluate chunk { user with clearance := level.value }).allowed = true
  noUnit : ∀ chunk ∈ (engine.filterChunks chunks user).1, user.businessUnit = "" →
    ∀ unit, (engine.evaluate chunk { user with businessUnit := unit }).allowed = true

/-- **A user without a business unit** is kept from the chunks of no unit. -/
theorem not_failsClosed : ¬ ∀ (printable : Char → Bool) (chunks : List ChunkContext)
    (user : UserContext), FailsClosed { printable } chunks user := by
  intro hall
  let chunk : ChunkContext :=
    { chunkId := "c1"
      content := "Salaries."
      classificationLevel := "Confidential"
      businessUnit := "HR" }
  let user : UserContext :=
    { userId := "u1", roles := [], applications := [], clearance := "Confidential" }
  have hmem : chunk ∈
      (RetrievalPolicyEngine.filterChunks { printable := fun _ => true } [chunk] user).1 := by
    decide
  have hunit := ((hall _ _ _).cleared chunk hmem).unit confidential (by decide) (by decide)
  exact absurd (hunit (by decide)) (by decide)

section

variable {chunk : ChunkContext} {user : UserContext}

theorem counted_of_named {text : String} {level : ClassificationLevel}
    (h : named text = some level) : counted text = level := by
  rw [counted, h, Option.getD_some]

/-- A text that is no level counts as `Internal`. -/
theorem counted_of_none {text : String} (h : named text = none) : counted text = internal := by
  rw [counted, h, Option.getD_none]

/-- Where everything is known, what is let through is what is cleared. -/
theorem admitted_iff_cleared {level clearance : ClassificationLevel}
    (hlevel : named chunk.classificationLevel = some level)
    (hclearance : named user.clearance = some clearance) (hunit : user.businessUnit ≠ "") :
    Admitted chunk user ↔ Cleared chunk user := by
  constructor
  · intro h
    have hle := h.level
    rw [counted_of_named hlevel, counted_of_named hclearance] at hle
    refine ⟨⟨level, clearance, hlevel, hclearance, hle⟩, h.role, h.app, ?_⟩
    intro level' hlevel' hle' hchunk
    rw [← counted_of_named hlevel'] at hle'
    exact h.unit hle' hchunk hunit
  · intro h
    obtain ⟨level', clearance', hlevel', hclearance', hle⟩ := h.level
    refine ⟨?_, h.role, h.app, fun hle' hchunk _ => h.unit level hlevel ?_ hchunk⟩
    · rwa [counted_of_named hlevel', counted_of_named hclearance']
    · rwa [counted_of_named hlevel] at hle'

/-- An unknown clearance lets through no more than any clearance. -/
theorem admitted_of_unknown_clearance (h : named user.clearance = none)
    (hadmitted : Admitted chunk user) (level : ClassificationLevel) :
    Admitted chunk { user with clearance := level.value } := by
  refine ⟨?_, hadmitted.role, hadmitted.app, hadmitted.unit⟩
  have hle : counted chunk.classificationLevel ≤ internal := counted_of_none h ▸ hadmitted.level
  rw [counted_of_named (named_value level)]
  exact Nat.le_trans hle (internal_le level)

end

/-- **The retrieval policy.** The chunks are split into the allowed ones and the others, in their
order. Of a chunk with a level, all four conditions have to hold, where a clearance that is no level
counts as `Internal` and a user without a business unit is kept from no unit; where all is known,
these are the conditions for being cleared. A clearance that is no level never helps. -/
theorem filterChunks_spec (printable : Char → Bool) (chunks : List ChunkContext)
    (user : UserContext) :
    RetrievalPolicyEngine.filterChunks { printable } chunks user =
        (chunks.filter fun chunk =>
          (RetrievalPolicyEngine.evaluate { printable } chunk user).allowed,
        chunks.filter fun chunk =>
          !(RetrievalPolicyEngine.evaluate { printable } chunk user).allowed) ∧
      (∀ chunk level, named chunk.classificationLevel = some level →
        ((RetrievalPolicyEngine.evaluate { printable } chunk user).allowed = true ↔
          Admitted chunk user)) ∧
      (∀ chunk level clearance, named chunk.classificationLevel = some level →
        named user.clearance = some clearance → user.businessUnit ≠ "" →
          (Admitted chunk user ↔ Cleared chunk user)) ∧
      (named user.clearance = none → ∀ chunk,
        (RetrievalPolicyEngine.evaluate { printable } chunk user).allowed = true →
          ∀ level : ClassificationLevel, (RetrievalPolicyEngine.evaluate { printable } chunk
            { user with clearance := level.value }).allowed = true) := by
  refine ⟨RetrievalPolicyEngine.filterChunks_eq _ _ _,
    fun _ _ _ => RetrievalPolicyEngine.allowed_iff printable, fun _ _ _ => admitted_iff_cleared, ?_⟩
  intro hunknown chunk hallowed level
  rw [RetrievalPolicyEngine.allowed_iff] at hallowed ⊢
  exact admitted_of_unknown_clearance hunknown hallowed level

end AnonReq.Rag
