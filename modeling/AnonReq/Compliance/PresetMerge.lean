import Mathlib
import AnonReq.Foundation.Absorption
import AnonReq.Foundation.Characters
import AnonReq.Foundation.Dict

/-!
# Merging compliance presets

`compliance/merge.py`: presets and overrides are merged into the tables of a base configuration.

* `mergeTiers_eq`: lists of tiers are merged by which recognizers they need.
* `applyTiers_eq`: an entry of a preset's tiers changes no effective tier.
* `applyPreset_spec`: what a preset does to each table, entry by entry, or that it raises.
* `mergePresets_eq`: a merge uses the presets and the overrides one after the other.
  `applied_of_mergePresets`: what its result is.
-/

namespace AnonReq.Compliance

variable {R : Type*}

/-! ### Tiers -/

/-- `RecognizerTier`. -/
inductive RecognizerTier where
  | regex
  | ner
  | both
deriving DecidableEq

namespace RecognizerTier

/-- `_tier_rank`. -/
def rank : RecognizerTier → ℕ
  | regex => 1
  | ner => 1
  | both => 2

/-- Which recognizers a tier runs: patterns, and named entities. -/
def runs : RecognizerTier → Bool × Bool
  | regex => (true, false)
  | ner => (false, true)
  | both => (true, true)

end RecognizerTier

/-- `_merge_tiers(existing, incoming)`, sorted by the names of the tiers. -/
def mergeTiers (existing incoming : List RecognizerTier) : List RecognizerTier :=
  let tiers := existing ++ incoming
  if .both ∈ tiers ∨ .regex ∈ tiers ∧ .ner ∈ tiers then [.regex, .ner]
  else [.both, .ner, .regex].filter fun tier => tier ∈ tiers

/-- `max(tiers, key=_tier_rank)`: of several the first one, of none an error. -/
def strongest : List RecognizerTier → Option RecognizerTier
  | [] => none
  | tier :: tiers =>
    some (tiers.foldl (fun best tier => if best.rank < tier.rank then tier else best) tier)

/-! ### Configurations -/

/-- `CompliancePreset`, up to what no merge reads. The table of tiers is a dictionary. -/
structure CompliancePreset (R : Type*) where
  id : Text
  mandatoryEntityTypes : List Text
  thresholds : List (Text × R)
  minimumTiers : List (Text × List RecognizerTier)
  requiresChecksum : List Text
  nodup_minimumTiers : (minimumTiers.map Prod.fst).Nodup

/-- The configuration of one entity type. -/
structure EntityTypeConfig (R : Type*) where
  tier : Option RecognizerTier
  confidenceThreshold : Option R
  threshold : Option R

/-- `base_config`. -/
structure BaseConfig (R : Type*) where
  entityTypes : List (Text × EntityTypeConfig R)
  requiresChecksum : List Text
  disabledEntityTypes : List Text

/-- `overrides`, where they are not empty. -/
structure Overrides (R : Type*) where
  entityTypes : List (Text × EntityTypeConfig R)
  requiresChecksum : List Text
  nodup_entityTypes : (entityTypes.map Prod.fst).Nodup

/-- The tables that a merge maintains. -/
structure Tables (R : Type*) where
  entityTypes : List (Text × RecognizerTier)
  thresholds : List (Text × R)
  minimumTiers : List (Text × List RecognizerTier)
  checksums : Finset Text

/-- `PresetMergeResult`. -/
structure PresetMergeResult (R : Type*) where
  mergedEntityTypes : List (Text × RecognizerTier)
  mergedThresholds : List (Text × R)
  mergedMinimumTiers : List (Text × List RecognizerTier)
  requiresChecksum : List Text
  sourcePresets : List Text
  hasCustomerOverrides : Bool
  disabledEntityTypes : List Text

/-- The tier of a configuration. -/
def EntityTypeConfig.baseTier (config : EntityTypeConfig R) : RecognizerTier :=
  config.tier.getD .regex

/-- The tiers that overrides ask for. -/
def overrideTiers (entries : List (Text × EntityTypeConfig R)) :
    List (Text × List RecognizerTier) :=
  entries.filterMap fun entry => entry.2.tier.map fun tier => (entry.1, [tier])

theorem nodup_overrideTiers {entries : List (Text × EntityTypeConfig R)}
    (h : (entries.map Prod.fst).Nodup) : ((overrideTiers entries).map Prod.fst).Nodup := by
  refine List.Nodup.sublist ?_ h
  induction entries with
  | nil => exact List.Sublist.slnil
  | cons entry entries ih =>
    have hrest := ih (List.Nodup.of_cons h)
    rw [overrideTiers, List.filterMap_cons]
    cases entry.2.tier with
    | none => exact hrest.cons _
    | some tier => exact hrest.cons_cons _

variable [LinearOrder R] [OfScientific R]

/-- `_normalize_base(base_config)`, with the checksums. -/
def normalizeBase (base : BaseConfig R) : Tables R where
  entityTypes := base.entityTypes.map fun entry => (entry.1, entry.2.baseTier)
  thresholds := base.entityTypes.map fun entry =>
    (entry.1, entry.2.confidenceThreshold.getD (entry.2.threshold.getD 0.7))
  minimumTiers := base.entityTypes.map fun entry => (entry.1, [entry.2.baseTier])
  checksums := base.requiresChecksum.toFinset

/-! ### The merge -/

/-- What a preset does for a mandatory type. -/
def applyMandatory (preset : CompliancePreset R) (tables : Tables R) (entityType : Text) :
    Tables R :=
  { tables with
    entityTypes :=
      if (Dict.get tables.entityTypes entityType).isSome then tables.entityTypes
      else Dict.set tables.entityTypes entityType .regex
    thresholds := Dict.set tables.thresholds entityType
      (max ((Dict.get tables.thresholds entityType).getD 0.0)
        ((Dict.get preset.thresholds entityType).getD 0.7)) }

/-- What a preset does with an entry of its tiers; `none` where it raises. -/
def applyTiers (tables : Tables R) (entry : Text × List RecognizerTier) : Option (Tables R) :=
  let tiers := mergeTiers ((Dict.get tables.minimumTiers entry.1).getD []) entry.2
  (strongest tiers).map fun best =>
    { tables with
      minimumTiers := Dict.set tables.minimumTiers entry.1 tiers
      entityTypes :=
        if best.rank > ((Dict.get tables.entityTypes entry.1).getD .regex).rank then
          Dict.set tables.entityTypes entry.1 best
        else tables.entityTypes }

/-- `_apply_preset(preset, …)`. -/
def applyPreset (tables : Tables R) (preset : CompliancePreset R) : Option (Tables R) :=
  (preset.minimumTiers.foldlM applyTiers
    (preset.mandatoryEntityTypes.foldl (applyMandatory preset) tables)).map fun tables =>
      { tables with checksums := tables.checksums ∪ preset.requiresChecksum.toFinset }

/-- The preset that overrides are made into. -/
def overridePreset (overrides : Overrides R) : CompliancePreset R where
  id := "customer_overrides".toList
  mandatoryEntityTypes := overrides.entityTypes.map Prod.fst
  thresholds := overrides.entityTypes.map fun entry =>
    (entry.1, entry.2.confidenceThreshold.getD (entry.2.threshold.getD 0.0))
  minimumTiers := overrideTiers overrides.entityTypes
  requiresChecksum := overrides.requiresChecksum
  nodup_minimumTiers := nodup_overrideTiers overrides.nodup_entityTypes

/-- The result that tables are made into. -/
def resultOf (base : BaseConfig R) (presets : List (CompliancePreset R))
    (overrides : Option (Overrides R)) (tables : Tables R) : PresetMergeResult R where
  mergedEntityTypes := tables.entityTypes
  mergedThresholds := tables.thresholds
  mergedMinimumTiers := tables.minimumTiers
  requiresChecksum := tables.checksums.sort
  sourcePresets := presets.map CompliancePreset.id
  hasCustomerOverrides := overrides.isSome
  disabledEntityTypes := base.disabledEntityTypes.mergeSort fun a b => decide (a ≤ b)

/-- `merge_presets(base_config, presets, overrides)`; `none` where it raises. -/
def mergePresets (base : BaseConfig R) (presets : List (CompliancePreset R))
    (overrides : Option (Overrides R)) : Option (PresetMergeResult R) := do
  let tables ← presets.foldlM applyPreset (normalizeBase base)
  let tables ← match overrides with
    | none => some tables
    | some overrides => applyPreset tables (overridePreset overrides)
  return resultOf base presets overrides tables

/-! ### What a preset does to each table -/

/-- A mandatory type is there. -/
def typeStep (entityType : Text) (tier : Option RecognizerTier) (preset : CompliancePreset R) :
    Option RecognizerTier :=
  if entityType ∈ preset.mandatoryEntityTypes then some (tier.getD .regex) else tier

/-- A threshold is raised. -/
def thresholdStep (entityType : Text) (threshold : Option R) (preset : CompliancePreset R) :
    Option R :=
  if entityType ∈ preset.mandatoryEntityTypes then
    some (max (threshold.getD 0.0) ((Dict.get preset.thresholds entityType).getD 0.7))
  else threshold

/-- Tiers are added. -/
def tiersStep (entityType : Text) (tiers : Option (List RecognizerTier))
    (preset : CompliancePreset R) : Option (List RecognizerTier) :=
  match Dict.get preset.minimumTiers entityType with
  | none => tiers
  | some incoming => some (mergeTiers (tiers.getD []) incoming)

/-- Which recognizers a list of tiers needs. -/
def needs (tiers : List RecognizerTier) : Bool × Bool :=
  (decide (.both ∈ tiers ∨ .regex ∈ tiers), decide (.both ∈ tiers ∨ .ner ∈ tiers))

/-- The tiers of a need, as a merge lists them. -/
def tiersOf : Bool × Bool → List RecognizerTier
  | (true, true) => [.regex, .ner]
  | (true, false) => [.regex]
  | (false, true) => [.ner]
  | (false, false) => []

@[simp] theorem needs_tiersOf (need : Bool × Bool) : needs (tiersOf need) = need := by
  obtain ⟨regex, ner⟩ := need
  cases regex <;> cases ner <;> rfl

theorem needs_append (existing incoming : List RecognizerTier) :
    needs (existing ++ incoming) = needs existing ⊔ needs incoming := by
  refine Prod.ext (Bool.eq_iff_iff.mpr ?_) (Bool.eq_iff_iff.mpr ?_) <;>
  · simp only [needs, List.mem_append, Prod.mk_sup_mk, Bool.sup_eq_bor, Bool.or_eq_true,
      decide_eq_true_eq]
    exact or_or_or_comm

/-- **Tiers** are merged by what they need. -/
theorem mergeTiers_eq (existing incoming : List RecognizerTier) :
    mergeTiers existing incoming = tiersOf (needs existing ⊔ needs incoming) := by
  obtain ⟨tiers, htiers⟩ : ∃ tiers, tiers = existing ++ incoming := ⟨_, rfl⟩
  rw [← needs_append, mergeTiers, ← htiers, needs]
  by_cases hboth : RecognizerTier.both ∈ tiers <;>
    by_cases hregex : RecognizerTier.regex ∈ tiers <;>
      by_cases hner : RecognizerTier.ner ∈ tiers <;>
        simp [hboth, hregex, hner, tiersOf]

/-- What a list of tiers needs is what its tiers run. -/
theorem needs_le_iff {tiers : List RecognizerTier} {need : Bool × Bool} :
    needs tiers ≤ need ↔ ∀ tier ∈ tiers, tier.runs ≤ need := by
  induction tiers with
  | nil => exact iff_of_true bot_le fun _ h => absurd h List.not_mem_nil
  | cons tier tiers ih =>
    have hone : needs [tier] = tier.runs := by cases tier <;> rfl
    rw [← List.singleton_append, needs_append, sup_le_iff, ih, hone, List.singleton_append,
      List.forall_mem_cons]

/-- A list of tiers needs nothing only if it is empty. -/
theorem needs_eq_bot_iff (tiers : List RecognizerTier) : needs tiers = ⊥ ↔ tiers = [] := by
  constructor
  · intro h
    cases tiers with
    | nil => rfl
    | cons tier tiers =>
      have hle : tier.runs ≤ ⊥ := needs_le_iff.mp h.le tier List.mem_cons_self
      cases tier <;> exact absurd hle (by decide)
  · rintro rfl
    rfl

/-- The tiers of a need are those that it covers, but never `BOTH`. -/
theorem mem_tiersOf_iff (tier : RecognizerTier) (need : Bool × Bool) :
    tier ∈ tiersOf need ↔ tier ≠ .both ∧ tier.runs ≤ need := by
  obtain ⟨regex, ner⟩ := need
  cases tier <;> cases regex <;> cases ner <;> decide

/-- Tiers that were merged in are in the list unless one of them is `BOTH`. -/
theorem forall_mem_mergeTiers_iff (existing incoming : List RecognizerTier) :
    (∀ tier ∈ incoming, tier ∈ mergeTiers existing incoming) ↔ .both ∉ incoming := by
  simp only [mergeTiers_eq, mem_tiersOf_iff]
  constructor
  · intro h hboth
    exact (h .both hboth).1 rfl
  · intro h tier htier
    exact ⟨fun heq => h (heq ▸ htier),
      (needs_le_iff.mp le_rfl tier htier).trans le_sup_right⟩

/-- No merged list has a tier above the others. -/
theorem strongest_mergeTiers (existing incoming : List RecognizerTier) :
    (strongest (mergeTiers existing incoming) = none ↔ existing = [] ∧ incoming = []) ∧
      ∀ best, strongest (mergeTiers existing incoming) = some best → best.rank = 1 := by
  obtain ⟨need, hneed⟩ : ∃ need, need = needs existing ⊔ needs incoming := ⟨_, rfl⟩
  have hbot : (existing = [] ∧ incoming = []) ↔ need = ⊥ := by
    rw [hneed, sup_eq_bot_iff, needs_eq_bot_iff, needs_eq_bot_iff]
  rw [mergeTiers_eq, ← hneed, hbot]
  obtain ⟨regex, ner⟩ := need
  cases regex <;> cases ner <;> decide

theorem one_le_rank (tier : RecognizerTier) : 1 ≤ tier.rank := by cases tier <;> decide

omit [LinearOrder R] [OfScientific R] in
/-- **An entry** of a preset's tiers changes no effective tier, and raises if it is empty and there
were no tiers. -/
theorem applyTiers_eq (tables : Tables R) (entry : Text × List RecognizerTier) :
    applyTiers tables entry =
      if (Dict.get tables.minimumTiers entry.1).getD [] = [] ∧ entry.2 = [] then none
      else some { tables with
        minimumTiers := Dict.set tables.minimumTiers entry.1
          (mergeTiers ((Dict.get tables.minimumTiers entry.1).getD []) entry.2) } := by
  obtain ⟨hnone, hrank⟩ :=
    strongest_mergeTiers ((Dict.get tables.minimumTiers entry.1).getD []) entry.2
  rw [applyTiers]
  split_ifs with h
  · rw [hnone.mpr h]
    rfl
  · cases hbest : strongest
        (mergeTiers ((Dict.get tables.minimumTiers entry.1).getD []) entry.2) with
    | none => exact absurd (hnone.mp hbest) h
    | some best =>
      rw [Option.map_some, hrank best hbest, if_neg (not_lt.mpr (one_le_rank _))]

/-- What a preset does to the tables, entry by entry. -/
structure Applied (presets : List (CompliancePreset R)) (tables tables' : Tables R) : Prop where
  entityTypes (entityType : Text) : Dict.get tables'.entityTypes entityType =
    presets.foldl (typeStep entityType) (Dict.get tables.entityTypes entityType)
  thresholds (entityType : Text) : Dict.get tables'.thresholds entityType =
    presets.foldl (thresholdStep entityType) (Dict.get tables.thresholds entityType)
  minimumTiers (entityType : Text) : Dict.get tables'.minimumTiers entityType =
    presets.foldl (tiersStep entityType) (Dict.get tables.minimumTiers entityType)
  checksums : tables'.checksums =
    tables.checksums ∪ (presets.flatMap CompliancePreset.requiresChecksum).toFinset

/-- Nothing was done. -/
theorem Applied.nil (tables : Tables R) : Applied [] tables tables :=
  ⟨fun _ => rfl, fun _ => rfl, fun _ => rfl, by simp⟩

/-- One preset after others. -/
theorem Applied.trans {presets presets' : List (CompliancePreset R)}
    {tables tables' tables'' : Tables R} (h : Applied presets tables tables')
    (h' : Applied presets' tables' tables'') : Applied (presets ++ presets') tables tables'' where
  entityTypes entityType := by rw [h'.entityTypes, h.entityTypes, List.foldl_append]
  thresholds entityType := by rw [h'.thresholds, h.thresholds, List.foldl_append]
  minimumTiers entityType := by rw [h'.minimumTiers, h.minimumTiers, List.foldl_append]
  checksums := by
    rw [h'.checksums, h.checksums, List.flatMap_append, List.toFinset_append, Finset.union_assoc]

/-- Every empty list of tiers is for a type that has some. -/
def Filled (minimumTiers entries : List (Text × List RecognizerTier)) : Prop :=
  ∀ entry ∈ entries, entry.2 = [] → (Dict.get minimumTiers entry.1).getD [] ≠ []

omit [LinearOrder R] [OfScientific R] in
/-- The entries of a preset's tiers: they are all used, or one of them raises. -/
theorem foldlM_applyTiers {entries : List (Text × List RecognizerTier)}
    (hnodup : (entries.map Prod.fst).Nodup) (tables : Tables R) :
    (Filled tables.minimumTiers entries → ∃ minimumTiers,
      entries.foldlM applyTiers tables = some { tables with minimumTiers := minimumTiers } ∧
        ∀ entityType, Dict.get minimumTiers entityType =
          match Dict.get entries entityType with
          | none => Dict.get tables.minimumTiers entityType
          | some incoming =>
            some (mergeTiers ((Dict.get tables.minimumTiers entityType).getD []) incoming)) ∧
      (¬ Filled tables.minimumTiers entries → entries.foldlM applyTiers tables = none) := by
  induction entries generalizing tables with
  | nil =>
    refine ⟨fun _ => ⟨tables.minimumTiers, rfl, fun _ => rfl⟩, fun h => ?_⟩
    exact absurd (fun _ hmem => absurd hmem List.not_mem_nil) h
  | cons entry entries ih =>
    rw [List.map_cons, List.nodup_cons] at hnodup
    obtain ⟨hfresh, hnodup⟩ := hnodup
    rw [List.foldlM_cons, applyTiers_eq]
    by_cases hraise : (Dict.get tables.minimumTiers entry.1).getD [] = [] ∧ entry.2 = []
    · rw [if_pos hraise]
      exact ⟨fun h => absurd hraise.1 (h entry List.mem_cons_self hraise.2), fun _ => rfl⟩
    rw [if_neg hraise]
    obtain ⟨merged, hmerged⟩ : ∃ merged, merged = Dict.set tables.minimumTiers entry.1
      (mergeTiers ((Dict.get tables.minimumTiers entry.1).getD []) entry.2) := ⟨_, rfl⟩
    rw [← hmerged]
    -- the other entries are for other types, for which the tables have not changed
    have hother : ∀ other ∈ entries,
        Dict.get merged other.1 = Dict.get tables.minimumTiers other.1 := by
      intro other hmem
      have hne : entry.1 ≠ other.1 := fun h => hfresh (by
        rw [h]
        exact List.mem_map_of_mem hmem)
      rw [hmerged, Dict.get_set, if_neg hne]
    have hfilled : Filled tables.minimumTiers (entry :: entries) ↔ Filled merged entries := by
      rw [Filled, List.forall_mem_cons, and_iff_right fun h h' => hraise ⟨h', h⟩]
      exact forall₂_congr fun other hmem => by rw [hother other hmem]
    obtain ⟨hsome, hnone⟩ := ih hnodup { tables with minimumTiers := merged }
    refine ⟨fun h => ?_, fun h => hnone (mt hfilled.mpr h)⟩
    obtain ⟨minimumTiers, hfold, hget⟩ := hsome (hfilled.mp h)
    refine ⟨minimumTiers, hfold, fun entityType => ?_⟩
    rw [hget, Dict.get]
    by_cases hkey : entry.1 = entityType
    · subst hkey
      rw [if_pos rfl, Dict.get_eq_none_iff.mpr hfresh]
      dsimp only
      rw [hmerged, Dict.get_set, if_pos rfl]
    · rw [if_neg hkey]
      dsimp only
      rw [hmerged, Dict.get_set, if_neg hkey]

/-- The mandatory types of a preset. -/
theorem foldl_applyMandatory (preset : CompliancePreset R) (entityTypes : List Text)
    (tables : Tables R) :
    let tables' := entityTypes.foldl (applyMandatory preset) tables
    (∀ entityType, Dict.get tables'.entityTypes entityType =
      if entityType ∈ entityTypes then
        some ((Dict.get tables.entityTypes entityType).getD .regex)
      else Dict.get tables.entityTypes entityType) ∧
    (∀ entityType, Dict.get tables'.thresholds entityType =
      if entityType ∈ entityTypes then
        some (max ((Dict.get tables.thresholds entityType).getD 0.0)
          ((Dict.get preset.thresholds entityType).getD 0.7))
      else Dict.get tables.thresholds entityType) ∧
    tables'.minimumTiers = tables.minimumTiers ∧ tables'.checksums = tables.checksums := by
  induction entityTypes generalizing tables with
  | nil => exact ⟨fun _ => (if_neg List.not_mem_nil).symm, fun _ => (if_neg List.not_mem_nil).symm,
      rfl, rfl⟩
  | cons key entityTypes ih =>
    obtain ⟨htypes, hthresholds, htiers, hchecksums⟩ := ih (applyMandatory preset tables key)
    have hkey (entityType : Text) :
        Dict.get (applyMandatory preset tables key).entityTypes entityType =
          if key = entityType then some ((Dict.get tables.entityTypes entityType).getD .regex)
          else Dict.get tables.entityTypes entityType := by
      rw [applyMandatory]
      dsimp only
      split_ifs with hthere heq heq
      · subst heq
        obtain ⟨tier, htier⟩ := Option.isSome_iff_exists.mp hthere
        rw [htier]
        rfl
      · rfl
      · subst heq
        rw [Dict.get_set, if_pos rfl, Option.not_isSome_iff_eq_none.mp hthere]
        rfl
      · rw [Dict.get_set, if_neg heq]
    have hthreshold (entityType : Text) :
        Dict.get (applyMandatory preset tables key).thresholds entityType =
          if key = entityType then
            some (max ((Dict.get tables.thresholds entityType).getD 0.0)
              ((Dict.get preset.thresholds entityType).getD 0.7))
          else Dict.get tables.thresholds entityType := by
      rw [applyMandatory]
      dsimp only
      rw [Dict.get_set]
      split_ifs with heq
      · rw [heq]
      · rfl
    refine ⟨fun entityType => ?_, fun entityType => ?_, htiers, hchecksums⟩
    · rw [List.foldl_cons, htypes, hkey]
      by_cases heq : key = entityType
      · simp [heq]
      · simp [heq, Ne.symm heq]
    · rw [List.foldl_cons, hthresholds, hthreshold]
      by_cases heq : key = entityType
      · simp [heq]
      · simp [heq, Ne.symm heq]

/-- **A preset** is used in full, or it has an empty list of tiers for a type that has none. -/
theorem applyPreset_spec (preset : CompliancePreset R) (tables : Tables R) :
    (Filled tables.minimumTiers preset.minimumTiers →
      ∃ tables', applyPreset tables preset = some tables' ∧ Applied [preset] tables tables') ∧
      (¬ Filled tables.minimumTiers preset.minimumTiers → applyPreset tables preset = none) := by
  obtain ⟨htypes, hthresholds, htiers, hchecksums⟩ :=
    foldl_applyMandatory preset preset.mandatoryEntityTypes tables
  obtain ⟨hsome, hnone⟩ := foldlM_applyTiers preset.nodup_minimumTiers
    (preset.mandatoryEntityTypes.foldl (applyMandatory preset) tables)
  rw [htiers] at hsome hnone
  rw [applyPreset]
  refine ⟨fun h => ?_, fun h => by rw [hnone h]; rfl⟩
  obtain ⟨minimumTiers, hfold, hget⟩ := hsome h
  rw [hfold]
  refine ⟨_, rfl, fun entityType => ?_, fun entityType => ?_, fun entityType => ?_, ?_⟩
  · exact htypes entityType
  · exact hthresholds entityType
  · exact hget entityType
  · dsimp only
    rw [hchecksums, List.flatMap_singleton]

/-! ### Runs of the merge -/

/-- A list of tiers with something in it keeps something. -/
theorem mergeTiers_ne_nil {existing : List RecognizerTier} (h : existing ≠ [])
    (incoming : List RecognizerTier) : mergeTiers existing incoming ≠ [] := by
  intro hnil
  have hneed : needs (mergeTiers existing incoming) = needs existing ⊔ needs incoming := by
    rw [mergeTiers_eq, needs_tiersOf]
  rw [hnil, (needs_eq_bot_iff []).mpr rfl, eq_comm, sup_eq_bot_iff] at hneed
  exact h ((needs_eq_bot_iff existing).mp hneed.1)

/-- Tiers that are there stay there. -/
theorem Filled.step {preset : CompliancePreset R} {tables tables' : Tables R}
    (happlied : Applied [preset] tables tables') {entries : List (Text × List RecognizerTier)}
    (h : Filled tables.minimumTiers entries) : Filled tables'.minimumTiers entries := by
  intro entry hentry hnil
  have hold := h entry hentry hnil
  rw [happlied.minimumTiers, List.foldl_cons, List.foldl_nil, tiersStep]
  cases Dict.get preset.minimumTiers entry.1 with
  | none => exact hold
  | some incoming => exact mergeTiers_ne_nil hold incoming

/-- **Presets** whose empty lists are for types with tiers are all used. -/
theorem exists_foldlM_applyPreset {presets : List (CompliancePreset R)} {tables : Tables R}
    (h : ∀ preset ∈ presets, Filled tables.minimumTiers preset.minimumTiers) :
    ∃ tables', presets.foldlM applyPreset tables = some tables' := by
  induction presets generalizing tables with
  | nil => exact ⟨tables, rfl⟩
  | cons preset presets ih =>
    obtain ⟨tables', hstep, happlied⟩ :=
      (applyPreset_spec preset tables).1 (h preset List.mem_cons_self)
    obtain ⟨tables'', hrest⟩ := ih fun other hother =>
      (h other (List.mem_cons_of_mem preset hother)).step happlied
    refine ⟨tables'', ?_⟩
    rw [List.foldlM_cons, hstep]
    exact hrest

/-- What presets did that were used. -/
theorem applied_of_foldlM {presets : List (CompliancePreset R)} {tables tables' : Tables R}
    (h : presets.foldlM applyPreset tables = some tables') : Applied presets tables tables' := by
  induction presets generalizing tables with
  | nil =>
    obtain rfl := Option.some.inj h
    exact Applied.nil tables
  | cons preset presets ih =>
    rw [List.foldlM_cons] at h
    obtain ⟨between, hstep, hrest⟩ := Option.bind_eq_some_iff.mp h
    have hspec := applyPreset_spec preset tables
    by_cases hfilled : Filled tables.minimumTiers preset.minimumTiers
    · obtain ⟨tables₁, hstep', happlied⟩ := hspec.1 hfilled
      obtain rfl : tables₁ = between := Option.some.inj (hstep'.symm.trans hstep)
      exact happlied.trans (ih hrest)
    · exact absurd ((hspec.2 hfilled).symm.trans hstep) (by simp)

/-- What is merged into the base: the presets, and the overrides as one more. -/
def sources (presets : List (CompliancePreset R)) (overrides : Option (Overrides R)) :
    List (CompliancePreset R) :=
  presets ++ overrides.toList.map overridePreset

omit [LinearOrder R] in
theorem mem_sources_of_mem {presets : List (CompliancePreset R)} {preset : CompliancePreset R}
    (h : preset ∈ presets) (overrides : Option (Overrides R)) :
    preset ∈ sources presets overrides :=
  List.mem_append_left _ h

/-- **A merge** uses the sources one after the other. -/
theorem mergePresets_eq (base : BaseConfig R) (presets : List (CompliancePreset R))
    (overrides : Option (Overrides R)) :
    mergePresets base presets overrides =
      ((sources presets overrides).foldlM applyPreset (normalizeBase base)).map
        (resultOf base presets overrides) := by
  rw [mergePresets, sources, List.foldlM_append]
  cases presets.foldlM applyPreset (normalizeBase base) with
  | none => rfl
  | some tables =>
    cases overrides with
    | none => rfl
    | some overrides =>
      cases hstep : applyPreset tables (overridePreset overrides) <;> simp [hstep]

/-- A result is made of tables to which the sources were applied. -/
theorem applied_of_mergePresets {base : BaseConfig R} {presets : List (CompliancePreset R)}
    {overrides : Option (Overrides R)} {result : PresetMergeResult R}
    (h : mergePresets base presets overrides = some result) :
    ∃ tables, Applied (sources presets overrides) (normalizeBase base) tables ∧
      result = resultOf base presets overrides tables := by
  rw [mergePresets_eq] at h
  obtain ⟨tables, hfold, hresult⟩ := Option.map_eq_some_iff.mp h
  exact ⟨tables, applied_of_foldlM hfold, hresult.symm⟩

/-! ### Order and repetition -/

open Absorption

omit [LinearOrder R] [OfScientific R] in
theorem absorbing_typeStep (entityType : Text) :
    Absorbing (typeStep (R := R) entityType) where
  comm tier a b := by
    simp only [typeStep]
    split_ifs <;> rfl
  idem tier a := by
    simp only [typeStep]
    split_ifs <;> rfl

theorem absorbing_thresholdStep (entityType : Text) :
    Absorbing (thresholdStep (R := R) entityType) where
  comm threshold a b := by
    simp only [thresholdStep]
    split_ifs
    · exact congrArg some (max_right_comm _ _ _)
    · rfl
    · rfl
    · rfl
  idem threshold a := by
    simp only [thresholdStep]
    split_ifs
    · exact congrArg some (max_eq_left (le_max_right _ _))
    · rfl

omit [LinearOrder R] [OfScientific R] in
theorem absorbing_tiersStep (entityType : Text) :
    Absorbing (tiersStep (R := R) entityType) where
  comm tiers a b := by
    simp only [tiersStep]
    cases Dict.get a.minimumTiers entityType with
    | none => cases Dict.get b.minimumTiers entityType <;> rfl
    | some incoming =>
      cases Dict.get b.minimumTiers entityType with
      | none => rfl
      | some incoming' =>
        simp only [Option.getD_some, mergeTiers_eq, needs_tiersOf, sup_right_comm]
  idem tiers a := by
    simp only [tiersStep]
    cases Dict.get a.minimumTiers entityType with
    | none => rfl
    | some incoming =>
      simp only [Option.getD_some, mergeTiers_eq, needs_tiersOf, sup_assoc, sup_idem]

end AnonReq.Compliance
