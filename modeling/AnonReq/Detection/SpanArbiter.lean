import Mathlib.Data.List.Sort
import Mathlib.Data.Rat.Floor
import AnonReq.Foundation.Characters
import AnonReq.Foundation.Fusion

/-!
# The span arbiter

`detection/span_arbiter.py`: the spans of every detector are merged in one pass. Sorted by start
(higher scores first), each span is fused with the accepted spans it overlaps; the fused span has
the bounds of the union, the type of the more specific side, and the flags of either.

* `place_eq_arrive`: the loop of `merge` meets at most one accepted span, and is one arrival in
  the sense of `Fusion.arrive`.
* `mem_merge_iff`: the merged spans are the summaries of the clusters of overlapping spans. A
  summary has the hull of its cluster, the metadata of its leader, and every flag any member has.
* `merge_covers_iff`: merging covers exactly the characters that the detectors covered.
-/

namespace AnonReq.Detection

open Fusion

/-! ### Spans -/

/-- The detector list a span came from (`_source`). -/
inductive SourceTag where
  | regex
  | ner
  | other
deriving DecidableEq, Repr

/-- One span of a detector: the keys of its dictionary that the arbiter and the detection stage
read or write. -/
structure Span where
  entityType : String
  start : ℤ
  stop : ℤ
  score : ℚ
  source : Option String := none
  value : Option Text := none
  isProtected : Bool := false
  irreversible : Bool := false
  reversible : Option Bool := none
  sourceTag : Option SourceTag := none
  nodeIndex : Option ℕ := none
deriving DecidableEq

/-- The positions a span covers. -/
def Span.extent (d : Span) : Extent := ⟨d.start, d.stop⟩

/-- `IRREVERSIBLE_ENTITY_TYPES`. -/
def irreversibleEntityTypes : List String :=
  ["API_KEY", "ENTERPRISE_API_KEY", "ENTERPRISE_AWS_KEY", "ENTERPRISE_GITHUB_TOKEN",
    "ENTERPRISE_INTERNAL_HOST", "AWS_ACCESS_KEY", "GITHUB_TOKEN", "PRIVATE_KEY"]

/-- `ENTITY_SPECIFICITY`. -/
def entitySpecificity : List (String × ℕ) :=
  [("API_KEY", 100), ("ENTERPRISE_API_KEY", 100), ("ENTERPRISE_AWS_KEY", 99),
    ("ENTERPRISE_GITHUB_TOKEN", 99), ("EMAIL_ADDRESS", 90), ("TAX_ID_DE", 89),
    ("PERSONAL_AUSWEIS", 88), ("KVNR", 87), ("SVNR_DE", 86), ("HR_NUMBER", 84),
    ("AKTENZEICHEN", 83), ("DATE_OF_BIRTH", 82), ("SITE_ID", 81), ("PHONE_NUMBER", 80),
    ("ACCOUNT_NUMBER_DE", 79), ("TAX_ID_DE_UNVERIFIED", 72), ("IBAN_UNVERIFIED", 71),
    ("CREDIT_CARD", 75), ("IBAN_DE", 73), ("IBAN_CODE", 70), ("US_SSN", 65), ("URL", 55),
    ("IP_ADDRESS", 50), ("STREET_ADDRESS_DE", 45), ("POSTCODE_CITY_DE", 44),
    ("PERSON_NAME_DE", 41), ("PERSON", 40), ("DATE_DE", 36), ("DATE_TIME", 35),
    ("LOCATION", 30), ("ORGANIZATION", 25)]

/-- `ENTITY_SPECIFICITY.get(entity_type, 0)`. -/
def specificity (entityType : String) : ℕ := (entitySpecificity.lookup entityType).getD 0

/-- `_PROTECTED_SOURCES`. -/
def protectedSources : List String := ["enterprise", "mnpi"]

/-- The source of the span is one of the protected ones. -/
def Span.fromProtectedSource (d : Span) : Bool :=
  d.source.any fun s => protectedSources.contains s

/-- `entity_type.startswith("MNPI_")`. -/
def isMnpi (entityType : String) : Bool := "MNPI_".toList.isPrefixOf entityType.toList

/-- `_with_flags`. -/
def withFlags (span : Span) (sourceTag : SourceTag) : Span :=
  let irreversible := span.irreversible || span.reversible == some false ||
    irreversibleEntityTypes.contains span.entityType
  let isProtected := span.isProtected || span.fromProtectedSource || isMnpi span.entityType ||
    irreversible
  { span with
    sourceTag := some sourceTag
    isProtected := isProtected
    irreversible := irreversible || isProtected }

/-! ### Overlaps -/

/-- How two spans overlap. -/
inductive Overlap where
  | exactly
  | nested
  | partially
deriving DecidableEq, Repr

/-- `_overlap_type`. -/
def overlapType (a b : Extent) : Option Overlap :=
  if a.hi ≤ b.lo ∨ b.hi ≤ a.lo then none
  else if a.lo = b.lo ∧ a.hi = b.hi then some .exactly
  else if (b.lo ≤ a.lo ∧ a.hi ≤ b.hi) ∨ (a.lo ≤ b.lo ∧ b.hi ≤ a.hi) then some .nested
  else some .partially

theorem overlapType_eq_none_iff {a b : Extent} : overlapType a b = none ↔ ¬ a.Meets b := by
  unfold overlapType Extent.Meets
  split_ifs with hapart <;> simp only [true_iff, false_iff, not_not] <;> omega

/-- The side of an overlap whose metadata survives. -/
inductive Side where
  | incoming
  | accepted
deriving DecidableEq, Repr

/-- `_preferred_span`: an exact overlap goes to the regex list, any other to the more specific
type, and the accepted span wins a tie. -/
def preferredSpan (incoming accepted : Span) (overlap : Overlap) : Side :=
  if overlap = .exactly then
    if incoming.sourceTag = some .regex then .incoming else .accepted
  else if specificity accepted.entityType < specificity incoming.entityType then .incoming
  else .accepted

/-- `_cover_union`. -/
def coverUnion (winner other : Span) : Span :=
  let irreversible := winner.irreversible || other.irreversible
  { winner with
    isProtected := winner.isProtected || other.isProtected
    irreversible := irreversible
    reversible := if irreversible then some false else winner.reversible
    start := min winner.start other.start
    stop := max winner.stop other.stop }

/-- The span that replaces two overlapping ones. -/
def resolve (pending accepted : Span) (overlap : Overlap) : Span :=
  match preferredSpan pending accepted overlap with
  | .incoming => coverUnion pending accepted
  | .accepted => coverUnion accepted pending

@[simp] theorem extent_resolve (pending accepted : Span) (overlap : Overlap) :
    (resolve pending accepted overlap).extent = pending.extent.union accepted.extent := by
  unfold resolve
  cases preferredSpan pending accepted overlap with
  | incoming => rfl
  | accepted =>
    ext
    · exact min_comm _ _
    · exact max_comm _ _

/-! ### The merge -/

/-- The first accepted span that `pending` overlaps, with its index. -/
def firstOverlap (pending : Span) : List Span → Option (ℕ × Span × Overlap)
  | [] => none
  | accepted :: merged =>
    match overlapType pending.extent accepted.extent with
    | some overlap => some (0, accepted, overlap)
    | none => (firstOverlap pending merged).map fun r => (r.1 + 1, r.2)

/-- The `while` loop of `merge` for one span: every round takes one accepted span out, so there
are at most as many rounds as accepted spans. -/
def placeWithin : ℕ → Span → List Span → List Span
  | 0, pending, merged => merged ++ [pending]
  | rounds + 1, pending, merged =>
    match firstOverlap pending merged with
    | none => merged ++ [pending]
    | some (index, accepted, overlap) =>
      placeWithin rounds (resolve pending accepted overlap) (merged.eraseIdx index)

/-- What is accepted after `span` has been placed. -/
def place (merged : List Span) (span : Span) : List Span :=
  placeWithin merged.length span merged

/-- The order in which spans are placed: by start, then by descending score. -/
def placedBefore (a b : Span) : Prop :=
  a.start < b.start ∨ (a.start = b.start ∧ b.score ≤ a.score)

/-- The order of the merged list: by start, then by end. -/
def startsBefore (a b : Span) : Prop :=
  a.start < b.start ∨ (a.start = b.start ∧ a.stop ≤ b.stop)

instance : DecidableRel placedBefore := fun _ _ => inferInstanceAs (Decidable (_ ∨ _))

instance : DecidableRel startsBefore := fun _ _ => inferInstanceAs (Decidable (_ ∨ _))

/-- Every span with its flags, in the order in which they are placed. -/
def combined (regexResults nerResults : List Span)
    (additionalResults : List (List Span)) : List Span :=
  (regexResults.map (withFlags · .regex) ++ nerResults.map (withFlags · .ner) ++
    additionalResults.flatMap fun extra => extra.map (withFlags · .other)).insertionSort
      placedBefore

/-- `SpanArbiter.merge`. -/
def merge (regexResults nerResults : List Span)
    (additionalResults : List (List Span)) : List Span :=
  if regexResults.isEmpty && nerResults.isEmpty && !additionalResults.any (!·.isEmpty) then []
  else
    let merged := (combined regexResults nerResults additionalResults).foldl place []
    (merged.map fun r => { r with sourceTag := none }).insertionSort startsBefore

/-! ### One arrival -/

theorem firstOverlap_eq_none_iff {pending : Span} {merged : List Span} :
    firstOverlap pending merged = none ↔
      ∀ a ∈ merged, ¬ pending.extent.Meets a.extent := by
  induction merged with
  | nil => simp [firstOverlap]
  | cons a merged ih =>
    rw [firstOverlap, List.forall_mem_cons, ← overlapType_eq_none_iff]
    cases overlapType pending.extent a.extent with
    | none => simpa using ih
    | some overlap => simp

theorem firstOverlap_of_one {pending a : Span} {pre : List Span} (post : List Span)
    {overlap : Overlap} (ha : overlapType pending.extent a.extent = some overlap)
    (hpre : ∀ b ∈ pre, ¬ pending.extent.Meets b.extent) :
    firstOverlap pending (pre ++ a :: post) = some (pre.length, a, overlap) := by
  induction pre with
  | nil => simp [firstOverlap, ha]
  | cons b pre ih =>
    obtain ⟨hb, hpre⟩ := List.forall_mem_cons.mp hpre
    simp [firstOverlap, overlapType_eq_none_iff.mpr hb, ih hpre]

/-- The fusion of two spans; for spans that do not overlap any overlap would do. -/
def fuse (pending accepted : Span) : Span :=
  resolve pending accepted ((overlapType pending.extent accepted.extent).getD .partially)

theorem extent_fuse (pending accepted : Span) :
    (fuse pending accepted).extent = pending.extent.union accepted.extent :=
  extent_resolve _ _ _

theorem placeWithin_of_none {rounds : ℕ} {pending : Span} {merged : List Span}
    (h : ∀ a ∈ merged, ¬ pending.extent.Meets a.extent) :
    placeWithin rounds pending merged = merged ++ [pending] := by
  cases rounds with
  | zero => rfl
  | succ rounds => rw [placeWithin, firstOverlap_eq_none_iff.mpr h]

/-- **The loop is one arrival.** Where the accepted spans are disjoint and begin no later than
the span that is placed, the loop takes at most one of them out, and the widened span meets no
other. -/
theorem place_eq_arrive {merged : List Span} {span : Span}
    (h : Settled Span.extent span.start merged) :
    place merged span = arrive Span.extent fuse merged span := by
  have hs : Settled Span.extent span.extent.lo merged := h
  obtain hnone | ⟨pre, a, post, rfl, ha, hpre, hpost⟩ := hs.meets_unique
  · rw [arrive_of_none hnone, place, placeWithin_of_none hnone]
  · obtain ⟨overlap, hoverlap⟩ : ∃ o, overlapType span.extent a.extent = some o :=
      Option.ne_none_iff_exists'.mp fun hn => overlapType_eq_none_iff.mp hn ha
    have hfused : fuse span a = resolve span a overlap := by rw [fuse, hoverlap, Option.getD_some]
    have harrive : arrive Span.extent fuse (pre ++ a :: post) span = pre ++ post ++ [fuse span a] :=
      arrive_of_one ha hpre hpost
    have hrest : ∀ b ∈ pre ++ post, ¬ (fuse span a).extent.Meets b.extent := by
      have hdisjoint := (hs.arrive extent_fuse).disjoint
      rw [harrive] at hdisjoint
      intro b hb hm
      exact (List.pairwise_append.mp hdisjoint).2.2 b hb _ (List.mem_singleton_self _) hm.symm
    have hlength : (pre ++ a :: post).length = (pre ++ post).length + 1 := by simp [Nat.add_assoc]
    have herase : (pre ++ a :: post).eraseIdx pre.length = pre ++ post := by
      rw [List.eraseIdx_append_of_length_le (Nat.le_refl _), Nat.sub_self, List.eraseIdx_cons_zero]
    rw [harrive, place, hlength, placeWithin, firstOverlap_of_one post hoverlap hpre]
    simp only [herase, ← hfused]
    exact placeWithin_of_none hrest

/-! ### The order of placing -/

theorem placedBefore_start_le {a b : Span} (h : placedBefore a b) : a.start ≤ b.start := by
  unfold placedBefore at h
  omega

instance : IsTrans Span placedBefore where
  trans a b c hab hbc := by
    unfold placedBefore at *
    by_cases hstart : a.start = b.start ∧ b.start = c.start
    · exact Or.inr ⟨hstart.1.trans hstart.2,
        le_trans (hbc.resolve_left (by omega)).2 (hab.resolve_left (by omega)).2⟩
    · left
      omega

instance : Std.Total placedBefore where
  total a b := by
    unfold placedBefore
    have hscore := le_total a.score b.score
    have hstart := lt_trichotomy a.start b.start
    tauto

/-! ### Clusters of spans -/

/-- The member of a cluster whose type and source survive: at every fusion the preferred side's
leader. -/
def leader : Cluster Span → Span
  | .single span => span
  | .fuse latest earlier =>
    match preferredSpan (leader latest) (leader earlier)
        ((overlapType (latest.hull Span.extent) (earlier.hull Span.extent)).getD .partially) with
    | .incoming => leader latest
    | .accepted => leader earlier

/-- The span a cluster is merged into. -/
def summary (c : Cluster Span) : Span :=
  { c.fold fuse id with sourceTag := none }

/-- A fused cluster has the metadata of its leader, the bounds of its hull, and every flag that
one of its members has. -/
theorem fold_fuse (c : Cluster Span) :
    ∃ reversible, c.fold fuse id =
      { leader c with
        start := (c.hull Span.extent).lo
        stop := (c.hull Span.extent).hi
        isProtected := c.members.any Span.isProtected
        irreversible := c.members.any Span.irreversible
        reversible := reversible } := by
  induction c with
  | single span => exact ⟨span.reversible, by simp [Cluster.fold, leader, Cluster.hull,
      Cluster.members, Span.extent]⟩
  | fuse latest earlier ihl ihe =>
    obtain ⟨rl, hl⟩ := ihl
    obtain ⟨re, he⟩ := ihe
    have hextent : ∀ c : Cluster Span, (c.fold fuse id).extent = c.hull Span.extent :=
      Cluster.extent_fold (fun _ => rfl) extent_fuse
    -- The preference reads types and list tags only, which fusing takes over from the leaders.
    have hprefer : ∀ overlap, preferredSpan (latest.fold fuse id) (earlier.fold fuse id) overlap =
        preferredSpan (leader latest) (leader earlier) overlap := by
      intro overlap
      rw [hl, he]
      rfl
    simp only [Cluster.fold, fuse, resolve, hextent, hprefer, leader, Cluster.members,
      List.any_append, Cluster.hull, Extent.union_lo, Extent.union_hi]
    cases preferredSpan (leader latest) (leader earlier)
        ((overlapType (latest.hull Span.extent) (earlier.hull Span.extent)).getD .partially) with
    | incoming =>
      rw [hl, he]
      exact ⟨_, rfl⟩
    | accepted =>
      refine ⟨(coverUnion (earlier.fold fuse id) (latest.fold fuse id)).reversible, ?_⟩
      simp only [coverUnion, hl, he, min_comm, max_comm, Bool.or_comm]

@[simp] theorem summary_extent (c : Cluster Span) : (summary c).extent = c.hull Span.extent :=
  Cluster.extent_fold (fun _ => rfl) extent_fuse c

@[simp] theorem summary_entityType (c : Cluster Span) :
    (summary c).entityType = (leader c).entityType := by
  obtain ⟨r, hr⟩ := fold_fuse c
  rw [summary, hr]

@[simp] theorem summary_source (c : Cluster Span) : (summary c).source = (leader c).source := by
  obtain ⟨r, hr⟩ := fold_fuse c
  rw [summary, hr]

@[simp] theorem summary_value (c : Cluster Span) : (summary c).value = (leader c).value := by
  obtain ⟨r, hr⟩ := fold_fuse c
  rw [summary, hr]

@[simp] theorem summary_isProtected (c : Cluster Span) :
    (summary c).isProtected = c.members.any Span.isProtected := by
  obtain ⟨r, hr⟩ := fold_fuse c
  rw [summary, hr]

@[simp] theorem summary_irreversible (c : Cluster Span) :
    (summary c).irreversible = c.members.any Span.irreversible := by
  obtain ⟨r, hr⟩ := fold_fuse c
  rw [summary, hr]

theorem leader_mem_members (c : Cluster Span) : leader c ∈ c.members := by
  induction c with
  | single span => exact List.mem_singleton_self span
  | fuse latest earlier ihl ihe =>
    rw [leader, Cluster.members, List.mem_append]
    split
    · exact Or.inl ihl
    · exact Or.inr ihe

/-! ### The whole merge, cluster by cluster -/

section Merge

variable (regexResults nerResults : List Span) (additionalResults : List (List Span))

/-- Spans are placed in the order of their starts. -/
theorem combined_pairwise :
    (combined regexResults nerResults additionalResults).Pairwise
      fun a b => a.extent.lo ≤ b.extent.lo :=
  (List.pairwise_insertionSort placedBefore _).imp placedBefore_start_le

private theorem foldl_place_eq {spans merged : List Span}
    (hsorted : spans.Pairwise fun a b => a.extent.lo ≤ b.extent.lo)
    (hmerged : ∀ span ∈ spans, Settled Span.extent span.extent.lo merged) :
    spans.foldl place merged = spans.foldl (arrive Span.extent fuse) merged := by
  induction spans generalizing merged with
  | nil => rfl
  | cons span spans ih =>
    obtain ⟨hspan, -⟩ := List.pairwise_cons.mp hsorted
    have hplace := hmerged span List.mem_cons_self
    rw [List.foldl_cons, List.foldl_cons, place_eq_arrive hplace]
    exact ih hsorted.of_cons fun b hb => (hplace.arrive extent_fuse).mono (hspan b hb)

/-- The loops of `merge` together gather the spans. -/
theorem foldl_place_combined :
    (combined regexResults nerResults additionalResults).foldl place [] =
      gather Span.extent fuse (combined regexResults nerResults additionalResults) :=
  foldl_place_eq (combined_pairwise _ _ _) fun _ _ => Settled.nil

/-- The clusters of overlapping spans of a text. -/
def spanClusters : List (Cluster Span) :=
  Cluster.clusters Span.extent (combined regexResults nerResults additionalResults)

/-- The merged spans, in their order. -/
theorem merge_eq :
    merge regexResults nerResults additionalResults =
      ((spanClusters regexResults nerResults additionalResults).map summary).insertionSort
        startsBefore := by
  have hempty : (regexResults.isEmpty && nerResults.isEmpty &&
      !additionalResults.any (!·.isEmpty)) = true →
      combined regexResults nerResults additionalResults = [] := by
    intro h
    simp only [Bool.and_eq_true, Bool.not_eq_true', List.isEmpty_iff, List.any_eq_false,
      Bool.not_eq_false] at h
    obtain ⟨⟨rfl, rfl⟩, hadditional⟩ := h
    have hflat : additionalResults.flatMap (fun extra => extra.map (withFlags · .other)) = [] :=
      List.flatMap_eq_nil_iff.mpr fun extra hextra => by
        simp [show extra = [] by simpa using hadditional extra hextra]
    simp [combined, hflat]
  have hfold : (spanClusters regexResults nerResults additionalResults).map (Cluster.fold fuse id) =
      gather Span.extent fuse ((combined regexResults nerResults additionalResults).map id) :=
    Cluster.map_fold_clusters (fun _ => rfl) extent_fuse _
  rw [merge]
  split
  · rename_i h
    simp [spanClusters, hempty h, Cluster.clusters, gather]
  · rw [foldl_place_combined, ← List.map_id (combined _ _ _), ← hfold]
    dsimp only
    rw [List.map_map]
    rfl

/-- **The merged spans are the summaries of the clusters.** -/
theorem mem_merge_iff {d : Span} :
    d ∈ merge regexResults nerResults additionalResults ↔
      ∃ c ∈ spanClusters regexResults nerResults additionalResults, summary c = d := by
  rw [merge_eq, List.mem_insertionSort, List.mem_map]

theorem spanClusters_disjoint :
    (spanClusters regexResults nerResults additionalResults).Pairwise
      fun a b => ¬ (a.hull Span.extent).Meets (b.hull Span.extent) :=
  Cluster.clusters_disjoint Span.extent (combined_pairwise _ _ _)

/-- **Merging covers exactly what the detectors covered.** -/
theorem merge_covers_iff (p : ℤ) :
    (∃ d ∈ merge regexResults nerResults additionalResults, d.extent.Covers p) ↔
      ∃ d ∈ combined regexResults nerResults additionalResults, d.extent.Covers p := by
  rw [← Cluster.clusters_cover_iff Span.extent (combined_pairwise _ _ _)]
  constructor
  · rintro ⟨d, hd, hp⟩
    obtain ⟨c, hc, rfl⟩ := (mem_merge_iff _ _ _).mp hd
    exact ⟨c, hc, by simpa using hp⟩
  · rintro ⟨c, hc, hp⟩
    exact ⟨summary c, (mem_merge_iff _ _ _).mpr ⟨c, hc, rfl⟩, by simpa using hp⟩

end Merge

end AnonReq.Detection
