import AnonReq.Detection.SpanArbiter
import AnonReq.Foundation.Dict
import AnonReq.Foundation.Pattern
import AnonReq.Foundation.Selection

/-!
# The regex detector

`detection/regex_detector.py`: every pattern of a table runs over the text, card numbers have to
pass the Luhn check (`detection/regex_patterns.py`), and of two overlapping matches one is kept, so
that a character of the other may be lost.

* `collapseOverlaps_eq_select`: the collapse is a selection in the sense of `Fusion.select`.
* `examine_eq`: what is collapsed are the accepted matches, each once, in their order.
* `mem_detect_iff`: the detections are selected from them. `detect_eq_none_iff`: when it raises.
* `losesNothing_iff`: no accepted character is lost exactly if the accepted matches can be tiled.
-/

namespace AnonReq.Detection

open Fusion

/-! ### Patterns -/

/-- A compiled regular expression, as `finditer` shows it: the bounds of its matches in a text. -/
structure CompiledPattern where
  finditer : Text → List (ℕ × ℕ)
  bounds : ∀ text, ∀ m ∈ finditer text, m.1 ≤ m.2 ∧ m.2 ≤ text.length

/-- A sequence of items that takes at least one character, as a compiled pattern. -/
def CompiledPattern.ofItems (items : List (Pattern.Item Char)) : CompiledPattern where
  finditer := Pattern.findAll items 0 0
  bounds text m hm := by simpa using Pattern.bounds_of_mem_findAll hm

/-- A table of patterns by entity type. -/
abbrev PatternTable := List (String × CompiledPattern)

/-- What the runtime says about the digits of numbers: `str.isdigit` of a character, and `int` of
one, which refuses some of them. -/
structure DigitTables where
  isDigit : Char → Bool
  toInt : Char → Option ℕ

/-- The digits of ASCII. -/
def DigitTables.ascii : DigitTables where
  isDigit := Char.isDigit
  toInt c := if c.isDigit then some (c.toNat - '0'.toNat) else none

/-- The Luhn sum over digits from right to left; every second one is doubled. -/
def luhnSum : List ℕ → Bool → ℕ
  | [], _ => 0
  | d :: digits, isSecond =>
    (if isSecond then d * 2 / 10 + d * 2 % 10 else d) + luhnSum digits (!isSecond)

variable (tables : DigitTables)

/-- `luhn_checksum`; `none` where `int` refuses a digit. -/
def luhnChecksum (cardNumber : Text) : Option Bool :=
  ((cardNumber.filter tables.isDigit).mapM tables.toInt).map fun digits =>
    if digits.length < 13 ∨ 19 < digits.length then false
    else luhnSum digits.reverse false % 10 == 0

/-! ### Matches -/

/-- A match of a pattern in the text. -/
structure Hit where
  entityType : String
  start : ℕ
  stop : ℕ
deriving DecidableEq

/-- Every match of every pattern, in the order of the table. -/
def hits (patterns : PatternTable) (text : Text) : List Hit :=
  patterns.flatMap fun entry => (entry.2.finditer text).map fun m => ⟨entry.1, m.1, m.2⟩

/-- `_LUHN_VALIDATED`. -/
def luhnValidated : List String := ["CREDIT_CARD"]

/-- Whether a match is accepted: a card number has to pass the Luhn check. -/
def acceptsHit (text : Text) (hit : Hit) : Option Bool :=
  if luhnValidated.contains hit.entityType then
    luhnChecksum tables ((text.take hit.stop).drop hit.start)
  else some true

/-- The result for a match. A match whose checksum is not verified has the score 0.6. -/
def Hit.span (hit : Hit) : Span where
  entityType := hit.entityType
  start := hit.start
  stop := hit.stop
  score := if "_UNVERIFIED".toList.isSuffixOf hit.entityType.toList then 6 / 10 else 1
  source := some "regex"

/-- The loop of `detect` over the matches, given those seen before. -/
def examine (text : Text) : List Hit → List Hit → Option (List Span)
  | _, [] => some []
  | seen, hit :: rest =>
    if hit ∈ seen then examine text seen rest
    else
      match acceptsHit tables text hit with
      | none => none
      | some accepted =>
        (examine text (hit :: seen) rest).map fun results =>
          if accepted then hit.span :: results else results

/-! ### Overlaps -/

/-- One round of `_collapse_overlaps`: the first kept span that the span overlaps, or the span,
goes. -/
def collapseStep : List Span → Span → List Span
  | [], span => [span]
  | accepted :: kept, span =>
    if span.stop ≤ accepted.start ∨ accepted.stop ≤ span.start then
      accepted :: collapseStep kept span
    else
      let spanContains := span.start ≤ accepted.start ∧ accepted.stop ≤ span.stop
      let accContains := accepted.start ≤ span.start ∧ span.stop ≤ accepted.stop
      if spanContains ∧ ¬ accContains then span :: kept
      else if accContains ∧ ¬ spanContains then accepted :: kept
      else if specificity accepted.entityType < specificity span.entityType then span :: kept
      else accepted :: kept

/-- The order in which spans are collapsed: by start, the longest first. -/
def collapsedBefore (a b : Span) : Prop := a.extent.Before b.extent

instance : DecidableRel collapsedBefore := fun _ _ => inferInstanceAs (Decidable (_ ∨ _))

/-- `_collapse_overlaps`. -/
def collapseOverlaps (results : List Span) : List Span :=
  if results.length < 2 then results
  else (results.insertionSort collapsedBefore).foldl collapseStep []

/-- `RegexDetector`. -/
structure RegexDetector where
  patterns : PatternTable

/-- The patterns `detect` runs. -/
def RegexDetector.table (d : RegexDetector) (extraPatterns : Option PatternTable) : PatternTable :=
  match extraPatterns with
  | none => d.patterns
  | some extra => Dict.update d.patterns extra

/-- `detect`; `none` where the Luhn check raises. -/
def RegexDetector.detect (d : RegexDetector) (text : Text)
    (extraPatterns : Option PatternTable) : Option (List Span) :=
  if text.isEmpty then some []
  else
    (examine tables text [] (hits (d.table extraPatterns) text)).map fun results =>
      (collapseOverlaps results).insertionSort fun a b => a.start ≤ b.start

/-! ### The collapse as a selection -/

/-- The rank of a span among those that overlap. -/
def spanRank (span : Span) : ℕ := specificity span.entityType

theorem collapseStep_eq_keep (kept : List Span) (span : Span) :
    collapseStep kept span = keep Span.extent spanRank kept span := by
  induction kept with
  | nil => rfl
  | cons accepted kept ih =>
    have hmeets : (span.stop ≤ accepted.start ∨ accepted.stop ≤ span.start) ↔
        ¬ span.extent.Meets accepted.extent := by
      simp only [Extent.Meets, Span.extent]
      omega
    by_cases h : span.extent.Meets accepted.extent
    · have hprefer : prefer Span.extent spanRank accepted span =
          if (span.start ≤ accepted.start ∧ accepted.stop ≤ span.stop) ∧
            ¬ (accepted.start ≤ span.start ∧ span.stop ≤ accepted.stop) then span
          else if (accepted.start ≤ span.start ∧ span.stop ≤ accepted.stop) ∧
            ¬ (span.start ≤ accepted.start ∧ accepted.stop ≤ span.stop) then accepted
          else if specificity accepted.entityType < specificity span.entityType then span
          else accepted :=
        rfl
      rw [collapseStep, if_neg (hmeets.not.mpr (not_not.mpr h)), keep, if_pos h, hprefer]
      dsimp only
      split_ifs <;> rfl
    · rw [collapseStep, if_pos (hmeets.mpr h), keep, if_neg h, ih]

instance : IsTrans Span collapsedBefore where
  trans a b c hab hbc := by
    unfold collapsedBefore Extent.Before at *
    omega

instance : Std.Total collapsedBefore where
  total a b := by
    unfold collapsedBefore Extent.Before
    omega

/-- **The collapse is a selection** from the sorted results. -/
theorem collapseOverlaps_eq_select (results : List Span) :
    collapseOverlaps results =
      select Span.extent spanRank (results.insertionSort collapsedBefore) := by
  have hstep : collapseStep = keep Span.extent spanRank :=
    funext fun kept => funext fun span => collapseStep_eq_keep kept span
  rw [collapseOverlaps, hstep]
  match results with
  | [] => rfl
  | [span] => rfl
  | a :: b :: rest => exact if_neg (by simp)

/-! ### Accepted matches -/

/-- The spans of the accepted matches. -/
def acceptedSpans (patterns : PatternTable) (text : Text) : List Span :=
  ((hits patterns text).filter fun hit => acceptsHit tables text hit == some true).map Hit.span

/-- The accepted matches, in the order in which they are collapsed. -/
def arrivals (patterns : PatternTable) (text : Text) : List Span :=
  (((hits patterns text).eraseDups.filter fun hit => acceptsHit tables text hit == some true).map
    Hit.span).insertionSort collapsedBefore

/-- The Luhn check raises on a match. -/
def Raises (patterns : PatternTable) (text : Text) : Prop :=
  ∃ hit ∈ hits patterns text, acceptsHit tables text hit = none

variable {tables} {patterns : PatternTable} {text : Text}

theorem mem_arrivals_iff {s : Span} :
    s ∈ arrivals tables patterns text ↔ s ∈ acceptedSpans tables patterns text := by
  simp [arrivals, acceptedSpans]

variable (tables patterns text) in
theorem sorted_arrivals :
    (arrivals tables patterns text).Pairwise fun a b => a.extent.Before b.extent :=
  List.pairwise_insertionSort collapsedBefore _

/-- What the loop over the matches gives. -/
theorem examine_eq {seen rest : List Hit} {results : List Span}
    (h : examine tables text seen rest = some results) :
    results = ((rest.filter (· ∉ seen)).eraseDups.filter fun hit =>
      acceptsHit tables text hit == some true).map Hit.span := by
  induction rest generalizing seen results with
  | nil => exact (Option.some.inj h).symm
  | cons hit rest ih =>
    rw [examine] at h
    split_ifs at h with hseen
    · rw [List.filter_cons_of_neg (by simpa using hseen)]
      exact ih h
    · split at h
      · cases h
      · next accepted haccepts =>
        obtain ⟨later, hlater, rfl⟩ := Option.map_eq_some_iff.mp h
        have hrest : rest.filter (· ∉ hit :: seen) =
            (rest.filter (· ∉ seen)).filter fun other => !other == hit := by
          rw [List.filter_filter]
          refine List.filter_congr fun other _ => ?_
          by_cases heq : other = hit <;> simp [heq]
        rw [List.filter_cons_of_pos (by simpa using hseen), List.eraseDups_cons, ← hrest,
          ih hlater]
        cases accepted with
        | true => simp [haccepts]
        | false => simp [haccepts]

/-- The loop over the matches raises if and only if the Luhn check raises on one of them. -/
theorem examine_eq_none_iff {seen rest : List Hit}
    (hseen : ∀ hit ∈ seen, acceptsHit tables text hit ≠ none) :
    examine tables text seen rest = none ↔ ∃ hit ∈ rest, acceptsHit tables text hit = none := by
  induction rest generalizing seen with
  | nil => simp [examine]
  | cons hit rest ih =>
    rw [examine, List.exists_mem_cons_iff]
    split_ifs with hmem
    · rw [ih hseen, or_iff_right (hseen hit hmem)]
    · split
      · next hraises => exact iff_of_true rfl (Or.inl hraises)
      · next accepted haccepts =>
        have hne : acceptsHit tables text hit ≠ none := by
          rw [haccepts]
          exact Option.some_ne_none _
        have hseen' : ∀ other ∈ hit :: seen, acceptsHit tables text other ≠ none :=
          List.forall_mem_cons.mpr ⟨hne, hseen⟩
        rw [Option.map_eq_none_iff, ih hseen', or_iff_right hne]

theorem bounds_of_mem_acceptedSpans {span : Span}
    (h : span ∈ acceptedSpans tables patterns text) :
    0 ≤ span.start ∧ span.start ≤ span.stop ∧ span.stop ≤ text.length := by
  simp only [acceptedSpans, List.mem_map, List.mem_filter, hits, List.mem_flatMap] at h
  obtain ⟨_, ⟨⟨entry, -, m, hm, rfl⟩, -⟩, rfl⟩ := h
  obtain ⟨hle, hlength⟩ := entry.2.bounds text m hm
  exact ⟨Int.natCast_nonneg _, Int.ofNat_le.mpr hle, Int.ofNat_le.mpr hlength⟩

/-! ### What is detected -/

variable {d : RegexDetector} {extraPatterns : Option PatternTable} {spans : List Span}

/-- Nothing raises in the empty text. -/
theorem not_raises_nil : ¬ Raises tables patterns [] := by
  rintro ⟨hit, -, h⟩
  rw [acceptsHit] at h
  split_ifs at h
  simp [luhnChecksum] at h

theorem detect_eq_none_iff :
    d.detect tables text extraPatterns = none ↔ Raises tables (d.table extraPatterns) text := by
  have hexamine := @examine_eq_none_iff tables text [] (hits (d.table extraPatterns) text)
    fun hit h => absurd h List.not_mem_nil
  rw [RegexDetector.detect]
  split_ifs with htext
  · rw [List.isEmpty_iff.mp htext]
    exact iff_of_false not_false not_raises_nil
  · rw [Option.map_eq_none_iff, hexamine]
    rfl

/-- What is detected is selected from the accepted matches, and sorted by start. -/
theorem detect_eq (h : d.detect tables text extraPatterns = some spans) :
    spans = (if text.isEmpty then [] else
      select Span.extent spanRank (arrivals tables (d.table extraPatterns) text)).insertionSort
        fun a b => a.start ≤ b.start := by
  rw [RegexDetector.detect] at h
  split_ifs at h ⊢ with htext
  · exact (Option.some.inj h).symm
  · obtain ⟨results, hresults, rfl⟩ := Option.map_eq_some_iff.mp h
    rw [collapseOverlaps_eq_select, examine_eq hresults]
    simp [arrivals]

/-- What is returned are spans of accepted matches. -/
theorem mem_acceptedSpans_of_mem_detect (h : d.detect tables text extraPatterns = some spans)
    {span : Span} (hspan : span ∈ spans) :
    span ∈ acceptedSpans tables (d.table extraPatterns) text := by
  rw [detect_eq h, List.mem_insertionSort] at hspan
  split_ifs at hspan
  · exact absurd hspan List.not_mem_nil
  · exact mem_arrivals_iff.mp (mem_of_mem_select (sorted_arrivals _ _ _) hspan)

/-- **What is detected** is selected from the accepted matches, unless it covers nothing and the
text is empty. -/
theorem mem_detect_iff (h : d.detect tables text extraPatterns = some spans) {s : Span}
    (hne : text ≠ [] ∨ s.extent.lo < s.extent.hi) :
    s ∈ spans ↔
      s ∈ select Span.extent spanRank (arrivals tables (d.table extraPatterns) text) := by
  rw [detect_eq h, List.mem_insertionSort]
  split_ifs with htext
  · refine iff_of_false List.not_mem_nil fun hs => ?_
    have harrives := mem_of_mem_select (sorted_arrivals _ _ _) hs
    obtain ⟨hstart, -, hstop⟩ := bounds_of_mem_acceptedSpans (mem_arrivals_iff.mp harrives)
    have hnil := List.isEmpty_iff.mp htext
    rw [hnil] at hstop
    exact (hne.resolve_left (not_not.mpr hnil)).not_ge (hstop.trans hstart)
  · exact Iff.rfl

/-- The returned spans are sorted and pairwise disjoint. -/
theorem detect_sorted_disjoint (h : d.detect tables text extraPatterns = some spans) :
    spans.Pairwise (fun a b => a.start ≤ b.start) ∧
      spans.Pairwise fun a b => ¬ a.extent.Meets b.extent := by
  have htrans : IsTrans Span fun a b => a.start ≤ b.start := ⟨fun _ _ _ h h' => le_trans h h'⟩
  have htotal : Std.Total fun a b : Span => a.start ≤ b.start := ⟨fun a b => le_total _ _⟩
  rw [detect_eq h]
  refine ⟨List.pairwise_insertionSort _ _, ?_⟩
  refine (List.perm_insertionSort _ _).symm.pairwise ?_ fun h hm => h hm.symm
  split_ifs
  · exact List.Pairwise.nil
  · exact select_disjoint (sorted_arrivals _ _ _)

/-! ### What is lost -/

variable (tables)

/-- `detect` loses no accepted character: what it returns covers every accepted match, sorted by
start and pairwise disjoint. -/
def LosesNothing (d : RegexDetector) (text : Text) (extraPatterns : Option PatternTable) : Prop :=
  ∀ spans, d.detect tables text extraPatterns = some spans →
    (∀ span ∈ acceptedSpans tables (d.table extraPatterns) text, ∀ p, span.extent.Covers p →
      ∃ s ∈ spans, s.extent.Covers p) ∧
    spans.Pairwise (fun a b => a.start ≤ b.start) ∧
    spans.Pairwise fun a b => ¬ a.extent.Meets b.extent

/-- **When no accepted character is lost.** Exactly if the Luhn check raises on a match, so that
nothing is returned, or the accepted matches can be tiled. -/
theorem losesNothing_iff (d : RegexDetector) (text : Text)
    (extraPatterns : Option PatternTable) :
    LosesNothing tables d text extraPatterns ↔
      (∃ hit ∈ hits (d.table extraPatterns) text, acceptsHit tables text hit = none) ∨
        ∃ tile, Tiling Span.extent spanRank
          (acceptedSpans tables (d.table extraPatterns) text) tile := by
  change _ ↔ Raises tables (d.table extraPatterns) text ∨ _
  by_cases hraises : Raises tables (d.table extraPatterns) text
  · have hnone := detect_eq_none_iff.mpr hraises
    exact iff_of_true (fun spans hspans => nomatch hnone.symm.trans hspans) (Or.inl hraises)
  · obtain ⟨spans, hspans⟩ := Option.ne_none_iff_exists'.mp (mt detect_eq_none_iff.mp hraises)
    have htiling : (∃ tile, Tiling Span.extent spanRank
          (acceptedSpans tables (d.table extraPatterns) text) tile) ↔
        ∃ tile, Tiling Span.extent spanRank (arrivals tables (d.table extraPatterns) text) tile :=
      exists_congr fun tile => ⟨fun h => h.of_mem_iff fun _ => mem_arrivals_iff,
        fun h => h.of_mem_iff fun _ => mem_arrivals_iff.symm⟩
    rw [or_iff_right hraises, htiling, ← select_covers_iff (sorted_arrivals _ _ _)]
    constructor
    · intro h x hx p hp
      obtain ⟨s, hs, hcovers⟩ := (h spans hspans).1 x (mem_arrivals_iff.mp hx) p hp
      exact ⟨s, (mem_detect_iff hspans (Or.inr (hcovers.1.trans_lt hcovers.2))).mp hs, hcovers⟩
    · intro h spans' hspans'
      refine ⟨fun span hspan p hp => ?_, detect_sorted_disjoint hspans'⟩
      obtain ⟨s, hs, hcovers⟩ := h span (mem_arrivals_iff.mpr hspan) p hp
      exact ⟨s, (mem_detect_iff hspans' (Or.inr (hcovers.1.trans_lt hcovers.2))).mpr hs, hcovers⟩

/-- A detector with two patterns, for the texts `ab` and `bc`. -/
def sampleDetector : RegexDetector where
  patterns := [("ORGANIZATION", .ofItems [{ cls := (· == 'a') }, { cls := (· == 'b') }]),
    ("LOCATION", .ofItems [{ cls := (· == 'b') }, { cls := (· == 'c') }])]

/-- **Two matches that overlap in part**: the first one loses, and its first character with it. -/
theorem not_losesNothing :
    ¬ ∀ (tables : DigitTables) (d : RegexDetector) (text : Text)
      (extraPatterns : Option PatternTable), LosesNothing tables d text extraPatterns := by
  intro h
  have hdetect : sampleDetector.detect .ascii "abc".toList none =
      some [Hit.span ⟨"LOCATION", 1, 3⟩] := by
    decide +kernel
  have haccepted : Hit.span ⟨"ORGANIZATION", 0, 2⟩ ∈
      acceptedSpans .ascii (sampleDetector.table none) "abc".toList := by
    decide +kernel
  obtain ⟨s, hs, hcovers⟩ :=
    (h .ascii sampleDetector "abc".toList none _ hdetect).1 _ haccepted 0 (by decide)
  obtain rfl := List.mem_singleton.mp hs
  exact absurd hcovers (by decide)

end AnonReq.Detection
