import AnonReq.Compliance.PresetMerge

/-!
# Enforcing compliance presets

`compliance/validation.py`, and what the merge of presets keeps.

* `Enforced` says of a result that it does not depend on the order of the presets, that the
  effective tiers run what is asked for, that the validation finds what is disabled and nothing
  else, and that presets and overrides only add.
* `Applied.same`, `Applied.tiersRun_iff`, `Applied.typeViolations_eq_nil_iff`, `Applied.weaker`:
  these four, for the tables of a result.
* `enforced_iff`: a merge enforces presets exactly if no list of tiers is empty for a type that the
  base configuration lacks, every tier that is asked for is run by the one the base configuration
  has, and no preset asks for `BOTH` for a mandatory type.
* `not_enforced_both`: such a preset.
-/

namespace AnonReq.Compliance

open Absorption

variable {R : Type*} [LinearOrder R] [OfScientific R]

/-! ### The validation -/

/-- `violation_type`. -/
inductive ViolationType where
  | missingType
  | lowThreshold
  | missingTier
  | missingChecksum
deriving DecidableEq

/-- `ComplianceViolation`. -/
structure ComplianceViolation where
  presetId : Text
  entityType : Text
  violationType : ViolationType
  message : Text

/-- `_has_entity(effective_config, entity_type)`. -/
def hasEntity (result : PresetMergeResult R) (entityType : Text) : Bool :=
  if entityType ∈ result.disabledEntityTypes then false
  else (Dict.get result.mergedEntityTypes entityType).isSome

/-- The check of a threshold, which is shown this way. -/
def thresholdViolations (shown : R → Text) (result : PresetMergeResult R)
    (preset : CompliancePreset R) (entityType : Text) : List ComplianceViolation :=
  match Dict.get preset.thresholds entityType with
  | none => []
  | some required =>
    if (Dict.get result.mergedThresholds entityType).getD 0.0 < required then
      [⟨preset.id, entityType, .lowThreshold,
        entityType ++ " threshold below ".toList ++ shown required⟩]
    else []

/-- The check of the tiers, which are compared as sets. -/
def tierViolations (result : PresetMergeResult R) (preset : CompliancePreset R)
    (entityType : Text) : List ComplianceViolation :=
  let requiredTiers := (Dict.get preset.minimumTiers entityType).getD []
  let actualTiers := (Dict.get result.mergedMinimumTiers entityType).getD []
  if requiredTiers ≠ [] ∧ ¬ ∀ tier ∈ requiredTiers, tier ∈ actualTiers then
    [⟨preset.id, entityType, .missingTier, entityType ++ " missing required tiers".toList⟩]
  else []

/-- The check of the checksum. -/
def checksumViolations (result : PresetMergeResult R) (preset : CompliancePreset R)
    (entityType : Text) : List ComplianceViolation :=
  if entityType ∈ preset.requiresChecksum ∧ entityType ∉ result.requiresChecksum then
    [⟨preset.id, entityType, .missingChecksum,
      entityType ++ " requires checksum validation".toList⟩]
  else []

/-- The violations for one mandatory type of a preset. -/
def typeViolations (shown : R → Text) (result : PresetMergeResult R) (preset : CompliancePreset R)
    (entityType : Text) : List ComplianceViolation :=
  if hasEntity result entityType = false then
    [⟨preset.id, entityType, .missingType, preset.id ++ " requires ".toList ++ entityType⟩]
  else
    thresholdViolations shown result preset entityType ++
      (tierViolations result preset entityType ++ checksumViolations result preset entityType)

/-- `validate_effective_config(active_presets, result)`. -/
def validateEffectiveConfig (shown : R → Text) (presets : List (CompliancePreset R))
    (result : PresetMergeResult R) : List ComplianceViolation :=
  presets.flatMap fun preset =>
    preset.mandatoryEntityTypes.flatMap (typeViolations shown result preset)

/-! ### What a merge has to keep -/

/-- Two results agree, up to the order of entries and the names of the presets. -/
structure Same (result result' : PresetMergeResult R) : Prop where
  entityTypes (entityType : Text) : Dict.get result'.mergedEntityTypes entityType =
    Dict.get result.mergedEntityTypes entityType
  thresholds (entityType : Text) : Dict.get result'.mergedThresholds entityType =
    Dict.get result.mergedThresholds entityType
  minimumTiers (entityType : Text) : Dict.get result'.mergedMinimumTiers entityType =
    Dict.get result.mergedMinimumTiers entityType
  requiresChecksum : result'.requiresChecksum = result.requiresChecksum
  hasCustomerOverrides : result'.hasCustomerOverrides = result.hasCustomerOverrides
  disabledEntityTypes : result'.disabledEntityTypes = result.disabledEntityTypes

/-- A second result has every type of the first one, with a tier that runs as much, needs as much,
and has its checksums. -/
structure Weaker (result result' : PresetMergeResult R) : Prop where
  entityTypes : ∀ entityType tier, Dict.get result.mergedEntityTypes entityType = some tier →
    ∃ tier', Dict.get result'.mergedEntityTypes entityType = some tier' ∧ tier.runs ≤ tier'.runs
  minimumTiers : ∀ entityType,
    needs ((Dict.get result.mergedMinimumTiers entityType).getD []) ≤
      needs ((Dict.get result'.mergedMinimumTiers entityType).getD [])
  requiresChecksum : ∀ entityType ∈ result.requiresChecksum, entityType ∈ result'.requiresChecksum

/-- Overrides to which others were added. -/
def Extends : Option (Overrides R) → Option (Overrides R) → Prop
  | none, _ => True
  | some _, none => False
  | some overrides, some overrides' =>
    (∀ entityType config, Dict.get overrides.entityTypes entityType = some config →
      Dict.get overrides'.entityTypes entityType = some config) ∧
      ∀ entityType ∈ overrides.requiresChecksum, entityType ∈ overrides'.requiresChecksum

/-- A result enforces presets: it does not depend on their order or repetition, the effective tier
of a type runs its minimum tiers, the validation reports the mandatory types that are disabled and
no others, and nothing is lost when presets or overrides are added. -/
structure Enforced (shown : R → Text) (base : BaseConfig R) (presets : List (CompliancePreset R))
    (overrides : Option (Overrides R)) (result : PresetMergeResult R) : Prop where
  unordered : ∀ presets', (∀ preset, preset ∈ presets' ↔ preset ∈ presets) →
    ∃ result', mergePresets base presets' overrides = some result' ∧ Same result result'
  tiersRun : ∀ entityType tiers, Dict.get result.mergedMinimumTiers entityType = some tiers →
    ∀ minimum ∈ tiers, ∃ tier, Dict.get result.mergedEntityTypes entityType = some tier ∧
      minimum.runs ≤ tier.runs
  validated : ∀ violation ∈ validateEffectiveConfig shown presets result,
    violation.entityType ∈ base.disabledEntityTypes
  reported : ∀ preset ∈ presets, ∀ entityType ∈ preset.mandatoryEntityTypes,
    entityType ∈ base.disabledEntityTypes →
      ∃ violation ∈ validateEffectiveConfig shown presets result,
        violation.presetId = preset.id ∧ violation.entityType = entityType ∧
          violation.violationType = .missingType
  kept : ∀ presets' overrides' result', (∀ preset ∈ presets, preset ∈ presets') →
    Extends overrides overrides' → mergePresets base presets' overrides' = some result' →
      Weaker result result'

/-- A tier that is asked for is run: by the one of the base configuration, or it is the one that
mandatory types get. -/
def Covered (base : BaseConfig R) (presets : List (CompliancePreset R)) (entityType : Text)
    (minimum : RecognizerTier) : Prop :=
  match Dict.get base.entityTypes entityType with
  | some config => minimum.runs ≤ config.baseTier.runs
  | none => minimum = .regex ∧ ∃ preset ∈ presets, entityType ∈ preset.mandatoryEntityTypes

/-- No preset has an empty list of tiers for a type that the base configuration lacks, every tier
that is asked for is run, and no preset asks for a mandatory type, unless it is disabled, to run
`BOTH`. -/
structure Enforceable (base : BaseConfig R) (presets : List (CompliancePreset R))
    (overrides : Option (Overrides R)) : Prop where
  filled : ∀ preset ∈ presets, ∀ entry ∈ preset.minimumTiers, entry.2 = [] →
    (Dict.get base.entityTypes entry.1).isSome
  covered : ∀ preset ∈ sources presets overrides, ∀ entityType tiers,
    Dict.get preset.minimumTiers entityType = some tiers → ∀ minimum ∈ tiers,
      Covered base (sources presets overrides) entityType minimum
  single : ∀ preset ∈ presets, ∀ entityType ∈ preset.mandatoryEntityTypes,
    entityType ∉ base.disabledEntityTypes → ∀ tiers,
      Dict.get preset.minimumTiers entityType = some tiers → .both ∉ tiers

/-! ### The tables of a result -/

section Result

variable {base : BaseConfig R} {presets : List (CompliancePreset R)} {tables : Tables R}

/-- The effective tier of a type. -/
theorem Applied.entityTypes_eq (h : Applied presets (normalizeBase base) tables)
    (entityType : Text) :
    Dict.get tables.entityTypes entityType =
      ((Dict.get base.entityTypes entityType).map EntityTypeConfig.baseTier).or
        (if ∃ preset ∈ presets, entityType ∈ preset.mandatoryEntityTypes then some .regex
          else none) := by
  have hfold (tier : Option RecognizerTier) :
      presets.foldl (typeStep entityType) tier =
        tier.or (if ∃ preset ∈ presets, entityType ∈ preset.mandatoryEntityTypes then some .regex
          else none) := by
    clear h
    induction presets generalizing tier with
    | nil => simp
    | cons preset presets ih =>
      rw [List.foldl_cons, ih, typeStep]
      by_cases hmem : entityType ∈ preset.mandatoryEntityTypes
      · cases tier <;> simp [hmem]
      · simp [hmem]
  rw [h.entityTypes, hfold, normalizeBase, Dict.get_mapValues]

/-- What the minimum tiers of a type need is what the base configuration and each preset need. -/
theorem Applied.needs_le_iff (h : Applied presets (normalizeBase base) tables) (entityType : Text)
    (need : Bool × Bool) :
    needs ((Dict.get tables.minimumTiers entityType).getD []) ≤ need ↔
      (∀ config, Dict.get base.entityTypes entityType = some config →
        config.baseTier.runs ≤ need) ∧
      ∀ preset ∈ presets, ∀ tiers, Dict.get preset.minimumTiers entityType = some tiers →
        needs tiers ≤ need := by
  have hfold (tiers : Option (List RecognizerTier)) :
      needs ((presets.foldl (tiersStep entityType) tiers).getD []) ≤ need ↔
        needs (tiers.getD []) ≤ need ∧ ∀ preset ∈ presets, ∀ tiers,
          Dict.get preset.minimumTiers entityType = some tiers → needs tiers ≤ need := by
    clear h
    induction presets generalizing tiers with
    | nil => simp
    | cons preset presets ih =>
      rw [List.foldl_cons, ih, List.forall_mem_cons, tiersStep]
      cases Dict.get preset.minimumTiers entityType with
      | none => simp
      | some incoming => simp [mergeTiers_eq, and_assoc]
  have hbase : Dict.get (normalizeBase base).minimumTiers entityType =
      (Dict.get base.entityTypes entityType).map fun config => [config.baseTier] :=
    Dict.get_mapValues (fun config : EntityTypeConfig R => [config.baseTier]) _ _
  rw [h.minimumTiers, hfold, hbase]
  refine and_congr_left fun _ => ?_
  cases Dict.get base.entityTypes entityType with
  | none => simp [(needs_eq_bot_iff []).mpr rfl]
  | some config => simp [Compliance.needs_le_iff]

/-- What a type's effective tier runs, if it has one. -/
def limit (tables : Tables R) (entityType : Text) : Bool × Bool :=
  ((Dict.get tables.entityTypes entityType).map RecognizerTier.runs).getD ⊥

omit [LinearOrder R] [OfScientific R] in
theorem runs_le_limit_iff (minimum : RecognizerTier) (entityType : Text) :
    minimum.runs ≤ limit tables entityType ↔
      ∃ tier, Dict.get tables.entityTypes entityType = some tier ∧ minimum.runs ≤ tier.runs := by
  rw [limit]
  cases Dict.get tables.entityTypes entityType with
  | none => cases minimum <;> simp <;> decide
  | some tier => simp

/-- A tier is covered if the effective tier runs it. -/
theorem Applied.covered_iff (h : Applied presets (normalizeBase base) tables) (entityType : Text)
    (minimum : RecognizerTier) :
    Covered base presets entityType minimum ↔ minimum.runs ≤ limit tables entityType := by
  rw [runs_le_limit_iff, h.entityTypes_eq, Covered]
  cases Dict.get base.entityTypes entityType with
  | some config => simp
  | none =>
    rw [Option.map_none, Option.none_or]
    split_ifs with hmem
    · have hregex : minimum.runs ≤ RecognizerTier.regex.runs ↔ minimum = .regex := by
        cases minimum <;> decide
      simp [hmem, hregex]
    · simp [hmem]

/-- **Minimum tiers** are run exactly if every tier that is asked for is covered. -/
theorem Applied.tiersRun_iff (h : Applied presets (normalizeBase base) tables) :
    (∀ entityType tiers, Dict.get tables.minimumTiers entityType = some tiers →
      ∀ minimum ∈ tiers, ∃ tier, Dict.get tables.entityTypes entityType = some tier ∧
        minimum.runs ≤ tier.runs) ↔
      ∀ preset ∈ presets, ∀ entityType tiers,
        Dict.get preset.minimumTiers entityType = some tiers → ∀ minimum ∈ tiers,
          Covered base presets entityType minimum := by
  have hone (entityType : Text) :
      (∀ tiers, Dict.get tables.minimumTiers entityType = some tiers →
        ∀ minimum ∈ tiers, ∃ tier, Dict.get tables.entityTypes entityType = some tier ∧
          minimum.runs ≤ tier.runs) ↔
        needs ((Dict.get tables.minimumTiers entityType).getD []) ≤ limit tables entityType := by
    simp only [← runs_le_limit_iff, Compliance.needs_le_iff]
    cases Dict.get tables.minimumTiers entityType with
    | none => simp
    | some tiers => simp
  have hbase (entityType : Text) (config : EntityTypeConfig R)
      (hconfig : Dict.get base.entityTypes entityType = some config) :
      config.baseTier.runs ≤ limit tables entityType := by
    rw [runs_le_limit_iff, h.entityTypes_eq, hconfig]
    exact ⟨config.baseTier, rfl, le_rfl⟩
  simp only [hone, h.needs_le_iff, h.covered_iff, ← Compliance.needs_le_iff]
  exact ⟨fun hall preset hpreset entityType => (hall entityType).2 preset hpreset,
    fun hall entityType => ⟨hbase entityType, fun preset hpreset => hall preset hpreset entityType⟩⟩

variable {preset : CompliancePreset R}

/-- What a preset asks for is in the tables it was applied to. -/
theorem Applied.of_mem (h : Applied presets (normalizeBase base) tables)
    (hpreset : preset ∈ presets) (entityType : Text) :
    typeStep entityType (Dict.get tables.entityTypes entityType) preset =
        Dict.get tables.entityTypes entityType ∧
      thresholdStep entityType (Dict.get tables.thresholds entityType) preset =
        Dict.get tables.thresholds entityType ∧
      tiersStep entityType (Dict.get tables.minimumTiers entityType) preset =
        Dict.get tables.minimumTiers entityType := by
  rw [h.entityTypes, h.thresholds, h.minimumTiers]
  exact ⟨(absorbing_typeStep entityType).foldl_of_mem hpreset _,
    (absorbing_thresholdStep entityType).foldl_of_mem hpreset _,
    (absorbing_tiersStep entityType).foldl_of_mem hpreset _⟩

/-- Thresholds are never too low. -/
theorem Applied.thresholdViolations_eq_nil (h : Applied presets (normalizeBase base) tables)
    (shown : R → Text) (presets' : List (CompliancePreset R)) (overrides : Option (Overrides R))
    (hpreset : preset ∈ presets) {entityType : Text}
    (hmandatory : entityType ∈ preset.mandatoryEntityTypes) :
    thresholdViolations shown (resultOf base presets' overrides tables) preset entityType = [] := by
  obtain ⟨-, hthreshold, -⟩ := h.of_mem hpreset entityType
  rw [thresholdViolations]
  cases hrequired : Dict.get preset.thresholds entityType with
  | none => rfl
  | some required =>
    rw [thresholdStep, if_pos hmandatory, hrequired] at hthreshold
    refine if_neg (not_lt.mpr ?_)
    rw [resultOf, ← hthreshold]
    exact le_max_right _ _

/-- Checksums are never missing. -/
theorem Applied.checksumViolations_eq_nil (h : Applied presets (normalizeBase base) tables)
    (presets' : List (CompliancePreset R)) (overrides : Option (Overrides R))
    (hpreset : preset ∈ presets) (entityType : Text) :
    checksumViolations (resultOf base presets' overrides tables) preset entityType = [] := by
  rw [checksumViolations, if_neg]
  rintro ⟨hrequires, hmissing⟩
  refine hmissing ((Finset.mem_sort _).mpr ?_)
  rw [h.checksums]
  exact Finset.mem_union_right _ (List.mem_toFinset.mpr
    (List.mem_flatMap.mpr ⟨preset, hpreset, hrequires⟩))

omit [LinearOrder R] [OfScientific R] in
/-- When no tier is missing. -/
theorem tierViolations_eq_nil_iff (result : PresetMergeResult R) (preset : CompliancePreset R)
    (entityType : Text) :
    tierViolations result preset entityType = [] ↔
      ∀ tier ∈ (Dict.get preset.minimumTiers entityType).getD [],
        tier ∈ (Dict.get result.mergedMinimumTiers entityType).getD [] := by
  rw [tierViolations]
  split_ifs with h
  · exact iff_of_false not_false h.2
  · refine iff_of_true rfl fun tier htier => ?_
    exact not_not.mp (not_and.mp h (List.ne_nil_of_mem htier)) tier htier

/-- Tiers are missing where they are written as `BOTH`. -/
theorem Applied.tierViolations_eq_nil_iff (h : Applied presets (normalizeBase base) tables)
    (presets' : List (CompliancePreset R)) (overrides : Option (Overrides R))
    (hpreset : preset ∈ presets) (entityType : Text) :
    tierViolations (resultOf base presets' overrides tables) preset entityType = [] ↔
      ∀ tiers, Dict.get preset.minimumTiers entityType = some tiers → .both ∉ tiers := by
  obtain ⟨-, -, htiers⟩ := h.of_mem hpreset entityType
  rw [tiersStep] at htiers
  refine (Compliance.tierViolations_eq_nil_iff _ preset entityType).trans ?_
  change (∀ tier ∈ _, tier ∈ (Dict.get tables.minimumTiers entityType).getD []) ↔ _
  cases hget : Dict.get preset.minimumTiers entityType with
  | none => simp
  | some tiers =>
    rw [hget] at htiers
    rw [← htiers]
    simp only [Option.getD_some, Option.some.injEq, forall_eq', forall_mem_mergeTiers_iff]

/-- The types of a result that a preset asks for are there unless they are disabled. -/
theorem Applied.hasEntity_eq_false_iff (h : Applied presets (normalizeBase base) tables)
    (presets' : List (CompliancePreset R)) (overrides : Option (Overrides R))
    (hpreset : preset ∈ presets) {entityType : Text}
    (hmandatory : entityType ∈ preset.mandatoryEntityTypes) :
    hasEntity (resultOf base presets' overrides tables) entityType = false ↔
      entityType ∈ base.disabledEntityTypes := by
  obtain ⟨htype, -, -⟩ := h.of_mem hpreset entityType
  rw [typeStep, if_pos hmandatory] at htype
  have hthere : (Dict.get tables.entityTypes entityType).isSome = true := by
    rw [← htype]
    rfl
  rw [hasEntity]
  have hsame : entityType ∈ (resultOf base presets' overrides tables).disabledEntityTypes ↔
      entityType ∈ base.disabledEntityTypes := List.mem_mergeSort
  by_cases hdisabled : entityType ∈ base.disabledEntityTypes
  · exact iff_of_true (if_pos (hsame.mpr hdisabled)) hdisabled
  · rw [if_neg (mt hsame.mp hdisabled)]
    exact iff_of_false (by rw [resultOf, hthere]; decide) hdisabled

/-- **The validation** of a mandatory type that is not disabled finds only tiers that are written as
`BOTH`. -/
theorem Applied.typeViolations_eq_nil_iff (h : Applied presets (normalizeBase base) tables)
    (shown : R → Text) (presets' : List (CompliancePreset R)) (overrides : Option (Overrides R))
    (hpreset : preset ∈ presets) {entityType : Text}
    (hmandatory : entityType ∈ preset.mandatoryEntityTypes)
    (henabled : entityType ∉ base.disabledEntityTypes) :
    typeViolations shown (resultOf base presets' overrides tables) preset entityType = [] ↔
      ∀ tiers, Dict.get preset.minimumTiers entityType = some tiers → .both ∉ tiers := by
  rw [typeViolations, if_neg (mt (h.hasEntity_eq_false_iff presets' overrides hpreset
    hmandatory).mp henabled), h.thresholdViolations_eq_nil shown presets' overrides hpreset
    hmandatory, h.checksumViolations_eq_nil presets' overrides hpreset, List.nil_append,
    List.append_nil, h.tierViolations_eq_nil_iff presets' overrides hpreset]

/-- A violation is about the type it was found for. -/
theorem entityType_of_mem_typeViolations {shown : R → Text} {result : PresetMergeResult R}
    {entityType : Text} {violation : ComplianceViolation}
    (h : violation ∈ typeViolations shown result preset entityType) :
    violation.entityType = entityType := by
  rw [typeViolations] at h
  split_ifs at h
  · rw [List.mem_singleton.mp h]
  obtain h | h := List.mem_append.mp h
  · rw [thresholdViolations] at h
    cases hrequired : Dict.get preset.thresholds entityType with
    | none => simp [hrequired] at h
    | some required =>
      simp only [hrequired, List.mem_ite_nil_right, List.mem_singleton] at h
      rw [h.2]
  obtain h | h := List.mem_append.mp h
  · simp only [tierViolations, List.mem_ite_nil_right, List.mem_singleton] at h
    rw [h.2]
  · simp only [checksumViolations, List.mem_ite_nil_right, List.mem_singleton] at h
    rw [h.2]

/-- **The order** of the sources and their repetition do not matter. -/
theorem Applied.same {presets' : List (CompliancePreset R)} {tables' : Tables R}
    (h : Applied presets (normalizeBase base) tables)
    (h' : Applied presets' (normalizeBase base) tables')
    (hmem : ∀ preset, preset ∈ presets' ↔ preset ∈ presets) (entityType : Text) :
    Dict.get tables'.entityTypes entityType = Dict.get tables.entityTypes entityType ∧
      Dict.get tables'.thresholds entityType = Dict.get tables.thresholds entityType ∧
      Dict.get tables'.minimumTiers entityType = Dict.get tables.minimumTiers entityType ∧
      tables'.checksums = tables.checksums := by
  rw [h.entityTypes, h.thresholds, h.minimumTiers, h.checksums, h'.entityTypes, h'.thresholds,
    h'.minimumTiers, h'.checksums]
  refine ⟨(absorbing_typeStep entityType).foldl_eq_of_mem_iff hmem _,
    (absorbing_thresholdStep entityType).foldl_eq_of_mem_iff hmem _,
    (absorbing_tiersStep entityType).foldl_eq_of_mem_iff hmem _, congrArg _ ?_⟩
  ext key
  simp only [List.mem_toFinset, List.mem_flatMap, hmem]

end Result

/-! ### More presets -/

/-- A preset that asks for no more than another one. -/
structure Below (preset preset' : CompliancePreset R) : Prop where
  mandatory : ∀ entityType ∈ preset.mandatoryEntityTypes,
    entityType ∈ preset'.mandatoryEntityTypes
  tiers : ∀ entityType tiers, Dict.get preset.minimumTiers entityType = some tiers →
    ∃ tiers', Dict.get preset'.minimumTiers entityType = some tiers' ∧ needs tiers ≤ needs tiers'
  checksum : ∀ entityType ∈ preset.requiresChecksum, entityType ∈ preset'.requiresChecksum

omit [LinearOrder R] [OfScientific R] in
theorem Below.refl (preset : CompliancePreset R) : Below preset preset :=
  ⟨fun _ h => h, fun _ tiers h => ⟨tiers, h, le_rfl⟩, fun _ h => h⟩

/-- **Sources** that ask for more lose nothing. -/
theorem Applied.weaker {base : BaseConfig R} {presets presets' : List (CompliancePreset R)}
    {tables tables' : Tables R} (h : Applied presets (normalizeBase base) tables)
    (h' : Applied presets' (normalizeBase base) tables')
    (hbelow : ∀ preset ∈ presets, ∃ preset' ∈ presets', Below preset preset')
    (names names' : List (CompliancePreset R)) (overrides overrides' : Option (Overrides R)) :
    Weaker (resultOf base names overrides tables) (resultOf base names' overrides' tables') where
  entityTypes entityType tier htier := by
    have htier : Dict.get tables.entityTypes entityType = some tier := htier
    refine ⟨tier, ?_, le_rfl⟩
    change Dict.get tables'.entityTypes entityType = some tier
    rw [h.entityTypes_eq] at htier
    rw [h'.entityTypes_eq]
    cases hbase : Dict.get base.entityTypes entityType with
    | some config => simpa [hbase] using htier
    | none =>
      rw [hbase, Option.map_none, Option.none_or] at htier
      split_ifs at htier with hmandatory
      obtain ⟨preset, hpreset, hmem⟩ := hmandatory
      obtain ⟨preset', hpreset', hle⟩ := hbelow preset hpreset
      rw [Option.map_none, Option.none_or, if_pos ⟨preset', hpreset', hle.mandatory _ hmem⟩]
      exact htier
  minimumTiers entityType := by
    change needs ((Dict.get tables.minimumTiers entityType).getD []) ≤
      needs ((Dict.get tables'.minimumTiers entityType).getD [])
    obtain ⟨hbase', hpresets'⟩ := (h'.needs_le_iff entityType _).mp le_rfl
    refine (h.needs_le_iff entityType _).mpr ⟨hbase', fun preset hpreset tiers htiers => ?_⟩
    obtain ⟨preset', hpreset', hle⟩ := hbelow preset hpreset
    obtain ⟨tiers', htiers', hneeds⟩ := hle.tiers entityType tiers htiers
    exact hneeds.trans (hpresets' preset' hpreset' tiers' htiers')
  requiresChecksum entityType hmem := by
    have hmem : entityType ∈ tables.checksums := (Finset.mem_sort _).mp hmem
    refine (Finset.mem_sort _).mpr ?_
    rw [h.checksums, Finset.mem_union, List.mem_toFinset, List.mem_flatMap] at hmem
    rw [h'.checksums, Finset.mem_union, List.mem_toFinset, List.mem_flatMap]
    refine hmem.imp_right ?_
    rintro ⟨preset, hpreset, hrequires⟩
    obtain ⟨preset', hpreset', hle⟩ := hbelow preset hpreset
    exact ⟨preset', hpreset', hle.checksum entityType hrequires⟩

omit [LinearOrder R] [OfScientific R] in
/-- The tiers that overrides ask for, by their entries. -/
theorem get_overrideTiers {entries : List (Text × EntityTypeConfig R)}
    (h : (entries.map Prod.fst).Nodup) (entityType : Text) :
    Dict.get (overrideTiers entries) entityType =
      (Dict.get entries entityType).bind fun config => config.tier.map fun tier => [tier] := by
  induction entries with
  | nil => rfl
  | cons entry entries ih =>
    rw [List.map_cons, List.nodup_cons] at h
    have hrest := ih h.2
    rw [overrideTiers, List.filterMap_cons, Dict.get]
    by_cases hkey : entry.1 = entityType
    · rw [if_pos hkey, Option.bind_some]
      cases htier : entry.2.tier with
      | none =>
        have hnone : Dict.get entries entityType = none :=
          Dict.get_eq_none_iff.mpr (hkey ▸ h.1)
        rw [hnone] at hrest
        exact hrest
      | some tier => exact if_pos hkey
    · rw [if_neg hkey]
      cases entry.2.tier with
      | none => exact hrest
      | some tier => exact (if_neg hkey).trans hrest

/-- Overrides for a type that is to be looked for in both ways. -/
def nameOverrides : Overrides ℚ where
  entityTypes := [("NAME".toList, ⟨some .both, none, none⟩)]
  requiresChecksum := []
  nodup_entityTypes := by decide

example : Dict.get (overridePreset nameOverrides).minimumTiers "NAME".toList = some [.both] := rfl

omit [LinearOrder R] in
/-- Overrides to which others were added ask for more. -/
theorem below_overridePreset {overrides overrides' : Overrides R}
    (h : Extends (some overrides) (some overrides')) :
    Below (overridePreset overrides) (overridePreset overrides') where
  mandatory entityType hmem := by
    have hsome : Dict.get overrides.entityTypes entityType ≠ none :=
      fun hnone => Dict.get_eq_none_iff.mp hnone hmem
    obtain ⟨config, hconfig⟩ := Option.ne_none_iff_exists'.mp hsome
    exact List.mem_map_of_mem (Dict.mem_of_get_eq_some (h.1 entityType config hconfig))
  tiers entityType tiers htiers := by
    refine ⟨tiers, ?_, le_rfl⟩
    change Dict.get (overrideTiers overrides.entityTypes) entityType = some tiers at htiers
    change Dict.get (overrideTiers overrides'.entityTypes) entityType = some tiers
    rw [get_overrideTiers overrides.nodup_entityTypes] at htiers
    rw [get_overrideTiers overrides'.nodup_entityTypes]
    obtain ⟨config, hconfig, htier⟩ := Option.bind_eq_some_iff.mp htiers
    rw [h.1 entityType config hconfig]
    exact htier
  checksum := h.2

omit [LinearOrder R] in
/-- Among more presets and overrides each source has one that asks for as much. -/
theorem exists_below {presets presets' : List (CompliancePreset R)}
    {overrides overrides' : Option (Overrides R)}
    (hpresets : ∀ preset ∈ presets, preset ∈ presets') (hoverrides : Extends overrides overrides') :
    ∀ preset ∈ sources presets overrides, ∃ preset' ∈ sources presets' overrides',
      Below preset preset' := by
  intro preset hpreset
  obtain hpreset | hpreset := List.mem_append.mp hpreset
  · exact ⟨preset, mem_sources_of_mem (hpresets preset hpreset) overrides', Below.refl preset⟩
  · cases overrides with
    | none => exact absurd hpreset List.not_mem_nil
    | some overrides =>
      obtain rfl := List.mem_singleton.mp hpreset
      cases overrides' with
      | none => exact hoverrides.elim
      | some overrides' =>
        exact ⟨_, List.mem_append_right _ List.mem_cons_self, below_overridePreset hoverrides⟩

/-! ### When presets are enforced -/

variable {base : BaseConfig R} {presets : List (CompliancePreset R)}
  {overrides : Option (Overrides R)}

omit [LinearOrder R] in
/-- Overrides have no empty list of tiers. -/
theorem filled_overridePreset (minimumTiers : List (Text × List RecognizerTier))
    (overrides : Overrides R) :
    Filled minimumTiers (overridePreset overrides).minimumTiers := by
  intro entry hentry hnil
  obtain ⟨source, -, hsource⟩ := List.mem_filterMap.mp hentry
  obtain ⟨tier, -, rfl⟩ := Option.map_eq_some_iff.mp hsource
  exact absurd hnil (List.cons_ne_nil _ _)

omit [LinearOrder R] in
/-- The base configuration has tiers for its types. -/
theorem filled_normalizeBase_iff (base : BaseConfig R)
    (entries : List (Text × List RecognizerTier)) :
    Filled (normalizeBase base).minimumTiers entries ↔
      ∀ entry ∈ entries, entry.2 = [] → (Dict.get base.entityTypes entry.1).isSome := by
  refine forall₂_congr fun entry _ => imp_congr_right fun _ => ?_
  have hbase : Dict.get (normalizeBase base).minimumTiers entry.1 =
      (Dict.get base.entityTypes entry.1).map fun config => [config.baseTier] :=
    Dict.get_mapValues (fun config : EntityTypeConfig R => [config.baseTier]) _ _
  rw [hbase]
  cases Dict.get base.entityTypes entry.1 <;> simp

/-- **Presets** can be merged in every order if no empty list is for a type that the base
configuration lacks. -/
theorem exists_mergePresets (overrides : Option (Overrides R))
    (hfilled : ∀ preset ∈ presets, Filled (normalizeBase base).minimumTiers preset.minimumTiers) :
    ∃ result, mergePresets base presets overrides = some result := by
  have hsources : ∀ preset ∈ sources presets overrides,
      Filled (normalizeBase base).minimumTiers preset.minimumTiers := by
    intro preset hpreset
    obtain hpreset | hpreset := List.mem_append.mp hpreset
    · exact hfilled preset hpreset
    · obtain ⟨overrides, -, rfl⟩ := List.mem_map.mp hpreset
      exact filled_overridePreset _ overrides
  obtain ⟨tables, htables⟩ := exists_foldlM_applyPreset hsources
  exact ⟨_, by rw [mergePresets_eq, htables]; rfl⟩

/-- A preset with an empty list for a type that has no tiers raises where it comes first. -/
theorem mergePresets_cons_eq_none {preset : CompliancePreset R}
    (h : ¬ Filled (normalizeBase base).minimumTiers preset.minimumTiers) :
    mergePresets base (preset :: presets) overrides = none := by
  rw [mergePresets, List.foldlM_cons, (applyPreset_spec preset _).2 h]
  rfl

omit [LinearOrder R] in
/-- The same presets in another order are the same sources in another order. -/
theorem mem_sources_iff {presets' : List (CompliancePreset R)}
    (hmem : ∀ preset, preset ∈ presets' ↔ preset ∈ presets) (preset : CompliancePreset R) :
    preset ∈ sources presets' overrides ↔ preset ∈ sources presets overrides := by
  rw [sources, sources, List.mem_append, List.mem_append, hmem]

/-- **Presets** are enforced by their merge exactly if no preset has an empty list of tiers for a
type that the base configuration lacks, the effective tiers run what is asked for, and no preset
asks for `BOTH` for a mandatory type that is not disabled. -/
theorem enforced_iff (shown : R → Text) (base : BaseConfig R)
    (presets : List (CompliancePreset R)) (overrides : Option (Overrides R)) :
    (∃ result, mergePresets base presets overrides = some result ∧
      Enforced shown base presets overrides result) ↔ Enforceable base presets overrides := by
  constructor
  · rintro ⟨result, hmerge, henforced⟩
    obtain ⟨tables, happlied, rfl⟩ := applied_of_mergePresets hmerge
    refine ⟨fun preset hpreset => ?_, happlied.tiersRun_iff.mp henforced.tiersRun,
      fun preset hpreset entityType hmandatory henabled => ?_⟩
    · rw [← filled_normalizeBase_iff]
      by_contra hempty
      obtain ⟨result', hmerge', -⟩ := henforced.unordered (preset :: presets) fun other => by
        rw [List.mem_cons]
        exact or_iff_right_of_imp fun h => h ▸ hpreset
      exact absurd ((mergePresets_cons_eq_none hempty).symm.trans hmerge') (by simp)
    · refine (happlied.typeViolations_eq_nil_iff shown presets overrides
        (mem_sources_of_mem hpreset overrides) hmandatory henabled).mp ?_
      refine List.eq_nil_iff_forall_not_mem.mpr fun violation hviolation => henabled ?_
      rw [← entityType_of_mem_typeViolations hviolation]
      exact henforced.validated violation (List.mem_flatMap.mpr
        ⟨preset, hpreset, List.mem_flatMap.mpr ⟨entityType, hmandatory, hviolation⟩⟩)
  · intro h
    have hfilled : ∀ preset ∈ presets,
        Filled (normalizeBase base).minimumTiers preset.minimumTiers := fun preset hpreset =>
      (filled_normalizeBase_iff base _).mpr (h.filled preset hpreset)
    obtain ⟨result, hmerge⟩ := exists_mergePresets overrides hfilled
    obtain ⟨tables, happlied, rfl⟩ := applied_of_mergePresets hmerge
    refine ⟨_, hmerge, ?_, happlied.tiersRun_iff.mpr h.covered, ?_, ?_, ?_⟩
    · intro presets' hmem
      obtain ⟨result', hmerge'⟩ := exists_mergePresets overrides
        fun preset hpreset => hfilled preset ((hmem preset).mp hpreset)
      obtain ⟨tables', happlied', rfl⟩ := applied_of_mergePresets hmerge'
      have hsame := happlied.same happlied' (mem_sources_iff hmem)
      refine ⟨_, hmerge', fun entityType => (hsame entityType).1,
        fun entityType => (hsame entityType).2.1, fun entityType => (hsame entityType).2.2.1,
        ?_, rfl, rfl⟩
      exact congrArg (fun checksums : Finset Text => checksums.sort) (hsame []).2.2.2
    · intro violation hviolation
      obtain ⟨preset, hpreset, hviolation⟩ := List.mem_flatMap.mp hviolation
      obtain ⟨entityType, hmandatory, hviolation⟩ := List.mem_flatMap.mp hviolation
      rw [entityType_of_mem_typeViolations hviolation]
      by_contra henabled
      rw [(happlied.typeViolations_eq_nil_iff shown presets overrides
        (mem_sources_of_mem hpreset overrides) hmandatory henabled).mpr
          (h.single preset hpreset entityType hmandatory henabled)] at hviolation
      exact absurd hviolation List.not_mem_nil
    · intro preset hpreset entityType hmandatory hdisabled
      have hmissing := (happlied.hasEntity_eq_false_iff presets overrides
        (mem_sources_of_mem hpreset overrides) hmandatory).mpr hdisabled
      have hfound : (⟨preset.id, entityType, .missingType,
            preset.id ++ " requires ".toList ++ entityType⟩ : ComplianceViolation) ∈
          typeViolations shown (resultOf base presets overrides tables) preset entityType := by
        rw [typeViolations, if_pos hmissing]
        exact List.mem_singleton_self _
      exact ⟨_, List.mem_flatMap.mpr
        ⟨preset, hpreset, List.mem_flatMap.mpr ⟨entityType, hmandatory, hfound⟩⟩, rfl, rfl, rfl⟩
    · intro presets' overrides' result' hpresets hoverrides hmerge'
      obtain ⟨tables', happlied', rfl⟩ := applied_of_mergePresets hmerge'
      exact happlied.weaker happlied' (exists_below hpresets hoverrides) _ _ _ _

/-- A preset asks for a mandatory type to run `BOTH`; the base configuration has neither the type
nor any other. -/
theorem not_enforced_both : ¬ ∃ result,
    mergePresets (R := ℚ) ⟨[], [], []⟩ [⟨"p".toList, ["T".toList], [], [("T".toList, [.both])], [],
      by decide⟩] none = some result ∧
    Enforced (fun _ => []) ⟨[], [], []⟩ [⟨"p".toList, ["T".toList], [], [("T".toList, [.both])], [],
      by decide⟩] none result := by
  rintro ⟨result, hmerge, henforced⟩
  obtain rfl := Option.some.inj hmerge
  obtain ⟨tier, htier, hruns⟩ := henforced.tiersRun "T".toList [.regex, .ner] rfl .ner (by decide)
  obtain rfl := Option.some.inj htier
  exact absurd hruns (by decide)

end AnonReq.Compliance
