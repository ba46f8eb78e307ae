import AnonReq.Detection.Checksum
import AnonReq.Detection.ExclusionList

/-!
# The detection stage

`DetectionStage.execute` (`pipeline/detection.py`) after the detectors have run: the spans of a
text node are merged, excluded spans are dropped, check digits are recomputed, and what is left is
tagged with its node and boosted.

Exclusion and checksum validation see the merged spans only. So a detection survives with its
cluster, whatever its own text is:

* `exists_execute_covers_iff`: the characters of a node that the stage covers are those of the
  clusters that survive.
* `execute_covers_keptAlone_iff`: detections that would be kept on their own stay covered exactly
  if their clusters survive.
* `filter_execute`: the detections of a node, and `entityType_of_mem_final`: their types.
-/

namespace AnonReq.Detection

open Fusion

/-! ### Exclusion and validation of one span -/

/-- `_exclusion_exempt`. -/
def exclusionExempt (d : Span) : Bool :=
  d.isProtected || d.fromProtectedSource || irreversibleEntityTypes.contains d.entityType ||
    isMnpi d.entityType

/-- `_MASK_ON_FORMAT`. -/
def maskOnFormat : List (String × String) :=
  [("IBAN_DE", "IBAN_UNVERIFIED"), ("IBAN_CODE", "IBAN_UNVERIFIED"),
    ("TAX_ID_DE", "TAX_ID_DE_UNVERIFIED")]

/-- `_UNVERIFIED_SCORE`. -/
def unverifiedScore : ℚ := 6 / 10

/-- `_validate_or_downgrade`. -/
def validateOrDowngrade (u : Unicode) (detection : Span) (registry : ChecksumValidatorRegistry)
    (text : Text) : Option Span :=
  match validateDetection u detection registry text with
  | some validated => some validated
  | none =>
    (maskOnFormat.lookup detection.entityType).map fun downgraded =>
      { detection with
        entityType := downgraded
        score := min detection.score unverifiedScore }

/-! ### Context boosting -/

/-- `ContextBooster`, with the positions at which its high-risk words occur in a text. -/
structure ContextBooster where
  wordPositions : Text → List (ℤ × ℤ)
  boostAmount : ℚ
  proximity : ℤ
  financialEntityTypes : List String

/-- `is_within_proximity`. -/
def ContextBooster.isWithinProximity (b : ContextBooster) (d : Span)
    (positions : List (ℤ × ℤ)) : Bool :=
  positions.any fun word =>
    if word.2 ≤ d.start then decide (d.start - word.2 ≤ b.proximity)
    else if d.stop ≤ word.1 then decide (word.1 - d.stop ≤ b.proximity)
    else true

/-- `apply_boost`, on the dictionary of the span. -/
def ContextBooster.applyBoost (b : ContextBooster) (positions : List (ℤ × ℤ)) (d : Span) : Span :=
  let entity := { d with source := some (d.source.getD "regex") }
  if b.financialEntityTypes.contains d.entityType && b.isWithinProximity d positions then
    { entity with score := min (d.score + b.boostAmount) 1 }
  else entity

/-- `boost_detections`. -/
def boostDetections (b : ContextBooster) (detections : List Span) (text : Text) : List Span :=
  let positions := b.wordPositions text
  if positions.isEmpty then detections else detections.map (b.applyBoost positions)

/-! ### The stage -/

/-- `DetectionStage`: what is configured. -/
structure DetectionStage where
  unicode : Unicode
  exclusionList : ExclusionList := {}
  checksumRegistry : ChecksumValidatorRegistry := {}
  /-- The configured entity types that are not reversible. -/
  irreversibleConfigured : List String := []
  booster : ContextBooster

/-- A text node with the spans its detectors found; `nerResults` are those that
`_trim_person_spans` returns. -/
structure NodeHits where
  value : Text
  regexResults : List Span := []
  nerResults : List Span := []
  mnpiResults : List Span := []
  enterpriseResults : List Span := []

/-- Every span a detector found in the node. -/
def NodeHits.detections (h : NodeHits) : List Span :=
  h.regexResults ++ h.nerResults ++ h.mnpiResults ++ h.enterpriseResults

namespace DetectionStage

variable (stage : DetectionStage)

/-- `irreversible_names`. -/
def irreversibleNames : List String := stage.irreversibleConfigured ++ irreversibleEntityTypes

/-- Types that are not reversible are flagged before the merge. -/
def flagIrreversible (d : Span) : Span :=
  if stage.irreversibleNames.contains d.entityType then { d with irreversible := true } else d

/-- `detection.setdefault("source", "enterprise")`. -/
def setEnterpriseSource (d : Span) : Span :=
  { d with source := some (d.source.getD "enterprise") }

/-- The lists that the arbiter merges for a node. -/
def arbiterInput (h : NodeHits) : List Span × List Span × List (List Span) :=
  (h.regexResults.map stage.flagIrreversible, h.nerResults.map stage.flagIrreversible,
    [h.mnpiResults, h.enterpriseResults.map setEnterpriseSource])

/-- The merged spans of a node. -/
def merged (h : NodeHits) : List Span :=
  merge (stage.arbiterInput h).1 (stage.arbiterInput h).2.1 (stage.arbiterInput h).2.2

/-- `final`: the merged spans of a node after exclusion and validation. -/
def final (h : NodeHits) : List Span :=
  let exempt := (stage.merged h).filter exclusionExempt
  let eligible := (stage.merged h).filter fun d => !exclusionExempt d
  (exempt ++ stage.exclusionList.filterDetections eligible h.value).filterMap fun d =>
    if d.isProtected then some d
    else validateOrDowngrade stage.unicode d stage.checksumRegistry h.value

/-- The node index and the reversibility of a span that is kept. -/
def tagNode (i : ℕ) (d : Span) : Span :=
  { d with
    nodeIndex := some i
    reversible := some (!stage.irreversibleNames.contains d.entityType &&
      d.source != some "enterprise" && !d.irreversible && !d.isProtected) }

/-- `all_detections`. -/
def allDetections (nodes : List NodeHits) : List Span :=
  nodes.zipIdx.flatMap fun p => (stage.final p.1).map (stage.tagNode p.2)

/-- `ctx.detections` after `DetectionStage.execute`. -/
def execute (nodes : List NodeHits) : List Span :=
  let all := stage.allDetections nodes
  if all.isEmpty || nodes.isEmpty then all
  else
    nodes.zipIdx.flatMap fun p =>
      let nodeDetections := all.filter fun d => d.nodeIndex == some p.2
      if nodeDetections.isEmpty then [] else boostDetections stage.booster nodeDetections p.1.value

/-! ### What the later steps leave alone -/

theorem extent_of_validateOrDowngrade {u : Unicode} {d f : Span}
    {registry : ChecksumValidatorRegistry} {text : Text}
    (h : validateOrDowngrade u d registry text = some f) : f.extent = d.extent := by
  unfold validateOrDowngrade validateDetection at h
  have hmask : ∀ {o : Option String},
      o.map (fun downgraded => { d with
        entityType := downgraded, score := min d.score unverifiedScore }) = some f →
      f.extent = d.extent := by
    intro o ho
    obtain ⟨downgraded, -, rfl⟩ := Option.map_eq_some_iff.mp ho
    rfl
  split at h
  · rename_i validated hvalidated
    obtain rfl := Option.some.inj h
    split at hvalidated
    · rw [Option.some.inj hvalidated]
    · split_ifs at hvalidated
      rw [Option.some.inj hvalidated]
  · exact hmask h

/-- Boosting changes scores and sources only. -/
theorem map_boostDetections_of_keeps {γ : Type*} {g : Span → γ}
    (hg : ∀ d source score, g { d with source := source, score := score } = g d)
    {b : ContextBooster} {detections : List Span} {text : Text} :
    (boostDetections b detections text).map g = detections.map g := by
  unfold boostDetections
  dsimp only
  split_ifs
  · rfl
  · rw [List.map_map]
    refine List.map_congr_left fun d _ => ?_
    unfold ContextBooster.applyBoost
    dsimp only [Function.comp_apply]
    split_ifs
    · exact hg d _ _
    · exact hg d _ d.score

/-- Boosting changes no bounds and no node. -/
theorem map_boostDetections (b : ContextBooster) (detections : List Span) (text : Text) :
    (boostDetections b detections text).map (fun d => (d.extent, d.nodeIndex)) =
      detections.map fun d => (d.extent, d.nodeIndex) :=
  map_boostDetections_of_keeps fun _ _ _ => rfl

theorem exists_mem_boostDetections_iff {b : ContextBooster} {detections : List Span} {text : Text}
    {i : Option ℕ} {e : Extent} :
    (∃ f ∈ boostDetections b detections text, f.nodeIndex = i ∧ f.extent = e) ↔
      ∃ f ∈ detections, f.nodeIndex = i ∧ f.extent = e := by
  have hkey : ∀ l : List Span, (∃ f ∈ l, f.nodeIndex = i ∧ f.extent = e) ↔
      (e, i) ∈ l.map fun d => (d.extent, d.nodeIndex) := by
    intro l
    simp only [List.mem_map, Prod.mk.injEq, and_comm]
  rw [hkey, hkey, map_boostDetections]

/-- What is made of each item of a list, and carries its index, is found again by the index. -/
theorem filter_flatMap_zipIdx {α β : Type*} {f : α × ℕ → List β} {key : β → Option ℕ}
    (hkey : ∀ p, ∀ b ∈ f p, key b = some p.2) {xs : List α} {x : α} {i : ℕ}
    (hx : xs[i]? = some x) :
    (xs.zipIdx.flatMap f).filter (fun b => key b == some i) = f (x, i) := by
  have hfrom : ∀ (xs : List α) (k i : ℕ), xs[i]? = some x →
      ((xs.zipIdx k).flatMap f).filter (fun b => key b == some (k + i)) = f (x, k + i) := by
    intro xs
    induction xs with
    | nil => simp
    | cons a xs ih =>
      intro k i hi
      rw [List.zipIdx_cons, List.flatMap_cons, List.filter_append]
      cases i with
      | zero =>
        obtain rfl : a = x := Option.some.inj hi
        have hlater : ((xs.zipIdx (k + 1)).flatMap f).filter (fun b => key b == some k) = [] := by
          refine List.filter_eq_nil_iff.mpr fun b hb => ?_
          obtain ⟨p, hp, hb⟩ := List.mem_flatMap.mp hb
          have hle := List.le_snd_of_mem_zipIdx hp
          simp only [hkey p b hb, beq_iff_eq, Option.some.injEq]
          omega
        have hself : (f (a, k)).filter (fun b => key b == some k) = f (a, k) :=
          List.filter_eq_self.mpr fun b hb => by simp [hkey (a, k) b hb]
        rw [Nat.add_zero, hself, hlater, List.append_nil]
      | succ i =>
        have hother : (f (a, k)).filter (fun b => key b == some (k + (i + 1))) = [] :=
          List.filter_eq_nil_iff.mpr fun b hb => by simp [hkey (a, k) b hb]
        have hstep : k + (i + 1) = k + 1 + i := by omega
        rw [hother, List.nil_append, hstep]
        exact ih (k + 1) i hi
  simpa using hfrom xs 0 i hx

theorem nodeIndex_of_mem_tagged {p : NodeHits × ℕ} {d : Span}
    (hd : d ∈ (stage.final p.1).map (stage.tagNode p.2)) : d.nodeIndex = some p.2 := by
  obtain ⟨_, -, rfl⟩ := List.mem_map.mp hd
  rfl

theorem nodeIndex_of_mem_boosted {p : NodeHits × ℕ} {d : Span}
    (hd : d ∈ boostDetections stage.booster ((stage.final p.1).map (stage.tagNode p.2))
      p.1.value) : d.nodeIndex = some p.2 := by
  have hmem := List.mem_map_of_mem (f := fun d : Span => (d.extent, d.nodeIndex)) hd
  rw [map_boostDetections] at hmem
  obtain ⟨d', hd', heq⟩ := List.mem_map.mp hmem
  exact (congrArg Prod.snd heq).symm.trans (stage.nodeIndex_of_mem_tagged hd')

theorem filter_allDetections {nodes : List NodeHits} {i : ℕ} {h : NodeHits}
    (hi : nodes[i]? = some h) :
    (stage.allDetections nodes).filter (fun d => d.nodeIndex == some i) =
      (stage.final h).map (stage.tagNode i) :=
  filter_flatMap_zipIdx (fun _ _ hd => stage.nodeIndex_of_mem_tagged hd) hi

/-- What the stage stores, node by node. -/
theorem execute_eq (nodes : List NodeHits) :
    stage.execute nodes = nodes.zipIdx.flatMap fun p =>
      boostDetections stage.booster ((stage.final p.1).map (stage.tagNode p.2)) p.1.value := by
  have hboost : ∀ text, boostDetections stage.booster [] text = [] := by
    intro text
    rw [boostDetections]
    split_ifs <;> rfl
  rw [execute]
  dsimp only
  split_ifs with hempty
  · have hnone : stage.allDetections nodes = [] := by
      obtain hempty | hempty := Bool.or_eq_true_iff.mp hempty
      · exact List.isEmpty_iff.mp hempty
      · rw [List.isEmpty_iff.mp hempty]
        rfl
    rw [hnone]
    refine (List.flatMap_eq_nil_iff.mpr fun p hp => ?_).symm
    rw [← stage.filter_allDetections (List.mem_zipIdx_iff_getElem?.mp hp), hnone, List.filter_nil,
      hboost]
  · refine List.flatMap_congr fun p hp => ?_
    rw [stage.filter_allDetections (List.mem_zipIdx_iff_getElem?.mp hp)]
    split_ifs with hnone
    · rw [List.isEmpty_iff.mp hnone, hboost]
    · rfl

theorem exists_nodeIndex_of_mem_execute {nodes : List NodeHits} {d : Span}
    (hd : d ∈ stage.execute nodes) : ∃ i, d.nodeIndex = some i := by
  rw [execute_eq] at hd
  obtain ⟨p, -, hd⟩ := List.mem_flatMap.mp hd
  exact ⟨p.2, stage.nodeIndex_of_mem_boosted hd⟩

/-- **Node by node.** The detections of a node are those that are kept of it, boosted. -/
theorem filter_execute {nodes : List NodeHits} {i : ℕ} {h : NodeHits} (hi : nodes[i]? = some h) :
    (stage.execute nodes).filter (fun d => d.nodeIndex == some i) =
      boostDetections stage.booster ((stage.final h).map (stage.tagNode i)) h.value := by
  rw [execute_eq]
  exact filter_flatMap_zipIdx (fun _ _ hd => stage.nodeIndex_of_mem_boosted hd) hi

/-- The stage stores, for every node, what is left of its merged spans. -/
theorem exists_mem_execute_iff {nodes : List NodeHits} {i : ℕ} {e : Extent} :
    (∃ f ∈ stage.execute nodes, f.nodeIndex = some i ∧ f.extent = e) ↔
      ∃ h, nodes[i]? = some h ∧ ∃ d ∈ stage.final h, d.extent = e := by
  simp only [execute_eq, List.mem_flatMap, Prod.exists, List.mem_zipIdx_iff_getElem?]
  constructor
  · rintro ⟨f, ⟨h, j, hj, hf⟩, hi, he⟩
    have hj' : f.nodeIndex = some j := stage.nodeIndex_of_mem_boosted (p := (h, j)) hf
    obtain rfl : j = i := Option.some.inj (hj'.symm.trans hi)
    obtain ⟨g, hg, -, hge⟩ := exists_mem_boostDetections_iff.mp ⟨f, hf, hi, he⟩
    obtain ⟨d, hd, rfl⟩ := List.mem_map.mp hg
    exact ⟨h, hj, d, hd, hge⟩
  · rintro ⟨h, hi, d, hd, he⟩
    obtain ⟨f, hf, hfi, hfe⟩ := exists_mem_boostDetections_iff.mpr
      ⟨stage.tagNode i d, List.mem_map_of_mem hd, rfl, he⟩
    exact ⟨f, ⟨h, i, hi, hf⟩, hfi, hfe⟩

/-! ### The spans that survive -/

/-- A type without a validator passes, any other only with a text that its validator accepts. -/
def PassesChecksum (entityType : String) (value : Text) : Prop :=
  ∀ validate, stage.checksumRegistry.get stage.unicode entityType = some validate →
    validate value = true

/-- The type is masked on format. -/
def MaskedOnFormat (entityType : String) : Prop := (maskOnFormat.lookup entityType).isSome

/-- The detection would be kept on its own: its text is not excluded, and it passes the validator
of its type, which may be none, or its type is masked on format. -/
def KeptAlone (text : Text) (d : Span) : Prop :=
  stage.exclusionList.isExcluded (text.slice d.start d.stop) = false ∧
    (stage.PassesChecksum d.entityType (detectionValue d text) ∨ MaskedOnFormat d.entityType)

/-- The cluster survives: one of its members is protected, or the text of its hull is not
excluded and passes the validator of the leader's type, which may be none, or that type is masked
on format. -/
def Survives (text : Text) (c : Cluster Span) : Prop :=
  let union := text.slice (c.hull Span.extent).lo (c.hull Span.extent).hi
  (∃ d ∈ c.members, d.isProtected = true) ∨
    stage.exclusionList.isExcluded union = false ∧
      (stage.PassesChecksum (leader c).entityType ((leader c).value.getD union) ∨
        MaskedOnFormat (leader c).entityType)

/-- The clusters of overlapping detections of a node. -/
def clusters (h : NodeHits) : List (Cluster Span) :=
  spanClusters (stage.arbiterInput h).1 (stage.arbiterInput h).2.1 (stage.arbiterInput h).2.2

theorem isSome_validateOrDowngrade_iff {text : Text} {d : Span} :
    (validateOrDowngrade stage.unicode d stage.checksumRegistry text).isSome = true ↔
      stage.PassesChecksum d.entityType (detectionValue d text) ∨
        MaskedOnFormat d.entityType := by
  unfold validateOrDowngrade validateDetection PassesChecksum MaskedOnFormat
  cases hget : stage.checksumRegistry.get stage.unicode d.entityType with
  | none => simp
  | some validate => by_cases hvalid : validate (detectionValue d text) = true <;> simp [hvalid]

theorem exclusionExempt_withFlags (s : Span) (tag : SourceTag) :
    exclusionExempt (withFlags s tag) = (withFlags s tag).isProtected := by
  unfold exclusionExempt withFlags Span.fromProtectedSource
  dsimp only
  cases s.isProtected <;> cases (s.source.any fun s => protectedSources.contains s) <;>
    cases isMnpi s.entityType <;> cases irreversibleEntityTypes.contains s.entityType <;> simp

/-- Every span the arbiter places carries its flags. -/
theorem exists_withFlags_of_mem_combined {regex ner : List Span} {additional : List (List Span)}
    {t : Span} (ht : t ∈ combined regex ner additional) : ∃ s tag, t = withFlags s tag := by
  rw [combined, List.mem_insertionSort, List.mem_append, List.mem_append, List.mem_flatMap] at ht
  obtain (ht | ht) | ⟨extra, -, ht⟩ := ht <;> obtain ⟨s, -, rfl⟩ := List.mem_map.mp ht <;>
    exact ⟨s, _, rfl⟩

/-- A merged span is exempt exactly if one of the spans merged into it is protected. -/
theorem exclusionExempt_summary {h : NodeHits} {c : Cluster Span} (hc : c ∈ stage.clusters h) :
    exclusionExempt (summary c) = c.members.any Span.isProtected := by
  have hleader : leader c ∈ combined (stage.arbiterInput h).1 (stage.arbiterInput h).2.1
      (stage.arbiterInput h).2.2 :=
    (Cluster.mem_members_clusters Span.extent).mp ⟨c, hc, leader_mem_members c⟩
  obtain ⟨s, tag, hs⟩ := exists_withFlags_of_mem_combined hleader
  have hexempt : exclusionExempt (leader c) = (leader c).isProtected := by
    rw [hs, exclusionExempt_withFlags]
  have hsource : (summary c).fromProtectedSource = (leader c).fromProtectedSource := by
    rw [Span.fromProtectedSource, summary_source, Span.fromProtectedSource]
  cases hany : c.members.any Span.isProtected with
  | true => simp [exclusionExempt, hany]
  | false =>
    have hunprotected : (leader c).isProtected = false := by
      simpa using List.any_eq_false.mp hany _ (leader_mem_members c)
    rw [exclusionExempt, hunprotected] at hexempt
    rw [exclusionExempt, summary_isProtected, hany, hsource, summary_entityType, hexempt]

/-- What `final` does with a merged span that is not excluded. -/
theorem exists_validated_iff {text : Text} {d : Span} {e : Extent} :
    (∃ f, (if d.isProtected then some d
        else validateOrDowngrade stage.unicode d stage.checksumRegistry text) = some f ∧
        f.extent = e) ↔
      (d.isProtected = true ∨ stage.PassesChecksum d.entityType (detectionValue d text) ∨
        MaskedOnFormat d.entityType) ∧ d.extent = e := by
  rw [← isSome_validateOrDowngrade_iff, Option.isSome_iff_exists]
  cases d.isProtected with
  | true => simp
  | false =>
    constructor
    · rintro ⟨f, hf, rfl⟩
      exact ⟨Or.inr ⟨f, hf⟩, (extent_of_validateOrDowngrade hf).symm⟩
    · rintro ⟨hvalid, rfl⟩
      obtain ⟨f, hf⟩ := hvalid.resolve_left Bool.false_ne_true
      exact ⟨f, hf, extent_of_validateOrDowngrade hf⟩

theorem mem_final_iff {h : NodeHits} {f : Span} :
    f ∈ stage.final h ↔ ∃ d ∈ stage.merged h,
      (exclusionExempt d = true ∨
        stage.exclusionList.isExcluded (h.value.slice d.start d.stop) = false) ∧
      (if d.isProtected then some d
        else validateOrDowngrade stage.unicode d stage.checksumRegistry h.value) = some f := by
  simp only [final, List.mem_filterMap, List.mem_append, mem_filterDetections, List.mem_filter]
  refine exists_congr fun d => ?_
  cases exclusionExempt d <;> simp [and_assoc]

/-- **A cluster is kept exactly if it survives.** -/
theorem exists_mem_final_iff {h : NodeHits} {e : Extent} :
    (∃ d ∈ stage.final h, d.extent = e) ↔
      ∃ c ∈ stage.clusters h, stage.Survives h.value c ∧ c.hull Span.extent = e := by
  have hsurvives : ∀ c ∈ stage.clusters h,
      ((exclusionExempt (summary c) = true ∨ stage.exclusionList.isExcluded
            (h.value.slice (summary c).start (summary c).stop) = false) ∧
          ((summary c).isProtected = true ∨
            stage.PassesChecksum (summary c).entityType (detectionValue (summary c) h.value) ∨
              MaskedOnFormat (summary c).entityType)) ↔ stage.Survives h.value c := by
    intro c hc
    have hhull : h.value.slice (summary c).start (summary c).stop =
        h.value.slice (c.hull Span.extent).lo (c.hull Span.extent).hi := by
      rw [← summary_extent]
      rfl
    rw [Survives, ← List.any_eq_true, exclusionExempt_summary stage hc, summary_isProtected,
      detectionValue, hhull, summary_value, summary_entityType]
    tauto
  constructor
  · rintro ⟨f, hf, he⟩
    obtain ⟨d, hd, hkept, hvalid⟩ := (mem_final_iff stage).mp hf
    obtain ⟨hvalid, he⟩ := (exists_validated_iff stage).mp ⟨f, hvalid, he⟩
    obtain ⟨c, hc, rfl⟩ := (mem_merge_iff _ _ _).mp hd
    exact ⟨c, hc, (hsurvives c hc).mp ⟨hkept, hvalid⟩, by rwa [summary_extent] at he⟩
  · rintro ⟨c, hc, hsurvive, he⟩
    obtain ⟨hkept, hvalid⟩ := (hsurvives c hc).mpr hsurvive
    obtain ⟨f, hf, he⟩ := (exists_validated_iff stage).mpr ⟨hvalid, (summary_extent c).trans he⟩
    exact ⟨f, (mem_final_iff stage).mpr
      ⟨summary c, (mem_merge_iff _ _ _).mpr ⟨c, hc, rfl⟩, hkept, hf⟩, he⟩

/-- **What the stage covers.** A position of a node is covered exactly if it lies in a cluster of
that node that survives. -/
theorem exists_execute_covers_iff {nodes : List NodeHits} {i : ℕ} {p : ℤ} :
    (∃ f ∈ stage.execute nodes, f.nodeIndex = some i ∧ f.extent.Covers p) ↔
      ∃ h, nodes[i]? = some h ∧
        ∃ c ∈ stage.clusters h, stage.Survives h.value c ∧ (c.hull Span.extent).Covers p := by
  constructor
  · rintro ⟨f, hf, hi, hp⟩
    obtain ⟨h, hh, hd⟩ := (exists_mem_execute_iff stage).mp ⟨f, hf, hi, rfl⟩
    obtain ⟨c, hc, hsurvive, he⟩ := (exists_mem_final_iff stage).mp hd
    exact ⟨h, hh, c, hc, hsurvive, he ▸ hp⟩
  · rintro ⟨h, hh, c, hc, hsurvive, hp⟩
    obtain ⟨d, hd, he⟩ := (exists_mem_final_iff stage).mpr ⟨c, hc, hsurvive, rfl⟩
    obtain ⟨f, hf, hi, he'⟩ := (exists_mem_execute_iff stage).mpr ⟨h, hh, d, hd, he⟩
    exact ⟨f, hf, hi, he' ▸ hp⟩

/-! ### Detections and the spans that are merged -/

/-- What flags and tags leave alone: the type, the bounds and the value of a span. -/
def finding (d : Span) : String × Extent × Option Text := (d.entityType, d.extent, d.value)

theorem finding_withFlags (d : Span) (tag : SourceTag) : finding (withFlags d tag) = finding d :=
  rfl

theorem finding_flagIrreversible (d : Span) :
    finding (stage.flagIrreversible d) = finding d := by
  unfold flagIrreversible
  split_ifs <;> rfl

/-- The arbiter places every detection of the node, and nothing else. -/
theorem map_finding_combined (h : NodeHits) :
    ((combined (stage.arbiterInput h).1 (stage.arbiterInput h).2.1
      (stage.arbiterInput h).2.2).map finding).Perm (h.detections.map finding) := by
  refine ((List.perm_insertionSort placedBefore _).map finding).trans (List.Perm.of_eq ?_)
  have hflag : ∀ (l : List Span) (tag : SourceTag),
      ((l.map stage.flagIrreversible).map (withFlags · tag)).map finding = l.map finding := by
    intro l tag
    simp only [List.map_map]
    exact List.map_congr_left fun d _ =>
      (finding_withFlags _ tag).trans (stage.finding_flagIrreversible d)
  have hmnpi : (h.mnpiResults.map (withFlags · .other)).map finding =
      h.mnpiResults.map finding := by
    rw [List.map_map]
    rfl
  have henterprise : ((h.enterpriseResults.map setEnterpriseSource).map (withFlags · .other)).map
      finding = h.enterpriseResults.map finding := by
    rw [List.map_map, List.map_map]
    rfl
  simp only [arbiterInput, NodeHits.detections, List.map_append, hflag, hmnpi, henterprise,
    List.flatMap_cons, List.flatMap_nil, List.append_nil, List.append_assoc]

theorem keptAlone_congr {text : Text} {d t : Span} (h : finding d = finding t) :
    stage.KeptAlone text d ↔ stage.KeptAlone text t := by
  obtain ⟨htype, hextent, hvalue⟩ := by simpa only [finding, Prod.mk.injEq] using h
  obtain ⟨hstart, hstop⟩ := by simpa only [Span.extent, Extent.mk.injEq] using hextent
  rw [KeptAlone, KeptAlone, detectionValue, detectionValue, htype, hstart, hstop, hvalue]

/-- **Coverage and survival.** Every character covered by a detection that would be kept on its
own stays covered exactly if every cluster with such a detection survives. -/
theorem execute_covers_keptAlone_iff (nodes : List NodeHits) :
    (∀ (i : ℕ) (h : NodeHits), nodes[i]? = some h →
        ∀ d ∈ h.detections, stage.KeptAlone h.value d →
          ∀ p : ℕ, p < h.value.length → d.extent.Covers p →
          ∃ f ∈ stage.execute nodes, f.nodeIndex = some i ∧ f.extent.Covers p) ↔
      ∀ (i : ℕ) (h : NodeHits), nodes[i]? = some h → ∀ c ∈ stage.clusters h,
        (∃ d ∈ c.members, stage.KeptAlone h.value d ∧
          ∃ p : ℕ, p < h.value.length ∧ d.extent.Covers p) →
        stage.Survives h.value c := by
  refine forall_congr' fun i => forall_congr' fun h => forall_congr' fun hh => ?_
  have hmember : ∀ t, (∃ c ∈ stage.clusters h, t ∈ c.members) ↔
      t ∈ combined (stage.arbiterInput h).1 (stage.arbiterInput h).2.1
        (stage.arbiterInput h).2.2 := fun _ => Cluster.mem_members_clusters Span.extent
  constructor
  · rintro hcovered c hc ⟨t, ht, hkept, p, hp, htp⟩
    -- The detection behind the member is covered, and by a cluster that overlaps this one.
    have htc := (hmember t).mp ⟨c, hc, ht⟩
    obtain ⟨d, hd, hdt⟩ := List.mem_map.mp
      ((stage.map_finding_combined h).mem_iff.mp (List.mem_map_of_mem htc))
    have hextent : d.extent = t.extent := congrArg (fun k => k.2.1) hdt
    obtain ⟨h', hh', c', hc', hsurvive, hp'⟩ := (exists_execute_covers_iff stage).mp
      (hcovered d hd ((stage.keptAlone_congr hdt).mpr hkept) p hp (hextent ▸ htp))
    obtain rfl : h = h' := Option.some.inj (hh.symm.trans hh')
    obtain rfl : c = c' := eq_of_covers (spanClusters_disjoint _ _ _) hc hc'
      (Cluster.hull_covers Span.extent ht htp) hp'
    exact hsurvive
  · intro hsurvive d hd hkept p hp hdp
    obtain ⟨t, ht, htd⟩ := List.mem_map.mp
      ((stage.map_finding_combined h).mem_iff.mpr (List.mem_map_of_mem hd))
    have hextent : t.extent = d.extent := congrArg (fun k => k.2.1) htd
    obtain ⟨c, hc, htc⟩ := (hmember t).mpr ht
    have htp : t.extent.Covers p := hextent ▸ hdp
    exact (exists_execute_covers_iff stage).mpr ⟨h, hh, c, hc,
      hsurvive c hc ⟨t, htc, (stage.keptAlone_congr htd).mpr hkept, p, hp, htp⟩,
      Cluster.hull_covers Span.extent htc htp⟩

/-! ### The types of what is kept -/

theorem entityType_of_validateOrDowngrade {u : Unicode} {d f : Span}
    {registry : ChecksumValidatorRegistry} {text : Text}
    (h : validateOrDowngrade u d registry text = some f) :
    f.entityType = d.entityType ∨ f.entityType ∈ maskOnFormat.map Prod.snd := by
  unfold validateOrDowngrade validateDetection at h
  have hmask : ∀ {o : Option Span}, (o = some d ∨ o = none) → (match o with
      | some validated => some validated
      | none => (maskOnFormat.lookup d.entityType).map fun downgraded =>
        { d with entityType := downgraded, score := min d.score unverifiedScore }) = some f →
      f.entityType = d.entityType ∨ f.entityType ∈ maskOnFormat.map Prod.snd := by
    rintro o (rfl | rfl) ho
    · exact Or.inl (congrArg Span.entityType (Option.some.inj ho)).symm
    · obtain ⟨downgraded, hlookup, rfl⟩ := Option.map_eq_some_iff.mp ho
      obtain ⟨front, back, hsplit, -⟩ := List.lookup_eq_some_iff.mp hlookup
      have hmem : (d.entityType, downgraded) ∈ maskOnFormat := by
        rw [hsplit]
        exact List.mem_append_right front List.mem_cons_self
      exact Or.inr (List.mem_map_of_mem (f := Prod.snd) hmem)
  refine hmask ?_ h
  split
  · exact Or.inl rfl
  · split_ifs
    · exact Or.inl rfl
    · exact Or.inr rfl

/-- The types of the spans that are kept: those of the detections, and those that stand for a type
that is masked on format. -/
theorem entityType_of_mem_final {h : NodeHits} {f : Span} (hf : f ∈ stage.final h) :
    (∃ d ∈ h.detections, f.entityType = d.entityType) ∨
      f.entityType ∈ maskOnFormat.map Prod.snd := by
  obtain ⟨d, hd, -, hvalid⟩ := (mem_final_iff stage).mp hf
  have hdetected : ∃ d' ∈ h.detections, d.entityType = d'.entityType := by
    obtain ⟨c, hc, rfl⟩ := (mem_merge_iff _ _ _).mp hd
    have hleader := (Cluster.mem_members_clusters Span.extent).mp ⟨c, hc, leader_mem_members c⟩
    obtain ⟨d', hd', hfinding⟩ := List.mem_map.mp
      ((stage.map_finding_combined h).mem_iff.mp (List.mem_map_of_mem hleader))
    exact ⟨d', hd', (summary_entityType c).trans (congrArg Prod.fst hfinding).symm⟩
  obtain ⟨d', hd', htype⟩ := hdetected
  split_ifs at hvalid
  · obtain rfl := Option.some.inj hvalid
    exact Or.inl ⟨d', hd', htype⟩
  · exact (entityType_of_validateOrDowngrade hvalid).imp
      (fun h => ⟨d', hd', h.trans htype⟩) id

/-! ### A name and an identity card -/

/-- A stage with the identity card validator and no exclusions. -/
def identityCardStage : DetectionStage where
  unicode := .ascii
  checksumRegistry := ChecksumValidatorRegistry.register .ascii {} "PERSONAL_AUSWEIS"
    (personalausweisValidate .ascii)
  booster := ⟨fun _ => [], 15 / 100, 50, ["IBAN", "PAYMENT_REF", "CUSTOMER_ID", "AML_CASE_REF"]⟩

/-- The number, as the regex detector finds it. -/
def cardSpan : Span where
  entityType := "PERSONAL_AUSWEIS"
  start := 5
  stop := 15
  score := 1
  source := some "regex"

/-- A name, as the recognizer of names finds it, that runs over the number. -/
def nameSpan : Span where
  entityType := "PERSON"
  start := 0
  stop := 15
  score := 85 / 100
  source := some "ner"

/-- A node with a name and the number of an identity card. -/
def identityCardNode : NodeHits where
  value := "Anna L01X00T471".toList
  regexResults := [cardSpan]
  nerResults := [nameSpan]

/-- The number is valid, but the text of both spans together is not a number: nothing is left. -/
theorem execute_identityCardNode : identityCardStage.execute [identityCardNode] = [] := by
  decide

/-- **Detections that would be kept on their own can be lost to a merge.** -/
theorem not_execute_covers_keptAlone :
    ¬ ∀ (stage : DetectionStage) (nodes : List NodeHits) (i : ℕ) (h : NodeHits),
      nodes[i]? = some h → ∀ d ∈ h.detections, stage.KeptAlone h.value d →
        ∀ p : ℕ, p < h.value.length → d.extent.Covers p →
          ∃ f ∈ stage.execute nodes, f.nodeIndex = some i ∧ f.extent.Covers p := by
  intro hcovered
  have hmem : nameSpan ∈ identityCardNode.detections :=
    List.mem_cons_of_mem cardSpan List.mem_cons_self
  have hkept : identityCardStage.KeptAlone identityCardNode.value nameSpan := by
    refine ⟨by decide, Or.inl fun validate hvalidate => ?_⟩
    have hnone : identityCardStage.checksumRegistry.get identityCardStage.unicode
        nameSpan.entityType = none := by decide
    exact absurd (hvalidate.symm.trans hnone) (Option.some_ne_none _)
  obtain ⟨f, hf, -⟩ := hcovered identityCardStage [identityCardNode] 0 identityCardNode rfl
    nameSpan hmem hkept 0 (by decide) (by decide)
  rw [execute_identityCardNode] at hf
  exact List.not_mem_nil hf

end DetectionStage

end AnonReq.Detection
