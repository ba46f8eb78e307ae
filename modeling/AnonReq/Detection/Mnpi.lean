import AnonReq.Detection.RegexPatterns
import AnonReq.Foundation.Sweep

/-!
# Restricted names

`MNPIRecognizer` of `detection/recognizers/mnpi.py`, with the `RestrictedNamesManager` of
`config/restricted_names.py`: tickers and deal codenames are found by patterns, the restricted names
of a tenant by their first place in the text, and of overlapping finds the first one is kept.

* `deduplicate_eq_sweepFrom`: the deduplication keeps the first of overlapping things in the sense
  of `Fusion.sweepFrom`.
* `namesMasked_iff`: every restricted name is masked, and nothing else as one, if the finds that no
  other one overlaps in part cover the names and keep out what does not read as a name. Where no two
  finds overlap in part, this is the exact condition.
-/

namespace AnonReq.Detection

open Fusion Regex RegexPatterns

/-! ### The restricted names -/

/-- `RestrictedNamesManager`: the restricted names of each tenant. -/
structure RestrictedNamesManager where
  data : List (String × List Text)

/-- `get_names`. -/
def RestrictedNamesManager.getNames (manager : RestrictedNamesManager) (tenantId : String) :
    List Text :=
  (Dict.get manager.data tenantId).getD []

/-- `check_name`: the text is part of a restricted name, or has one as a part. -/
def RestrictedNamesManager.checkName (L : LowerCase) (manager : RestrictedNamesManager)
    (tenantId : String) (text : Text) : Bool :=
  let search := L.lower (Text.strip text)
  if (Text.strip text).isEmpty then false
  else if search.length < 3 then false
  else
    (manager.getNames tenantId).any fun name =>
      !name.isEmpty &&
        (decide (search <:+: L.lower name) || decide (L.lower name <:+: search))

/-! ### The recognizer -/

/-- `MNPIConfig`, with its patterns compiled. -/
structure MNPIConfig where
  tickerPattern : CompiledPattern
  dealCodenamePatterns : List CompiledPattern
  excludedWords : List Text := []
  minTickerLength : ℤ := 2
  score : ℚ := 85 / 100

/-- `MNPIRecognizer`. -/
structure MNPIRecognizer where
  config : MNPIConfig
  restrictedNames : Option RestrictedNamesManager := none

variable (u : Unicode) (L : LowerCase)

/-- `_ID_CHARS`. -/
def isIdChar (c : Char) : Bool := RegexPatterns.isAlnum c || c == '-'

/-- `_SITE_ID`. -/
def siteId : Regex Char :=
  seqs
    [between 2 5 (.one isUpper),
      atLeast 1 (seqs [literal "-", between 2 10 (.one isUpperAlnum)]), literal "-",
      between 2 6 (digit u)]

/-- `_inside_site_id`: the range is part of a token with hyphens that is a site ID. -/
def insideSiteId (text : Text) (start stop : ℕ) : Bool :=
  let token := (text.take start).rtakeWhile isIdChar ++ Text.slice text start stop ++
    (text.drop stop).takeWhile isIdChar
  token.contains '-' && ((siteId u).ends none token).contains token.length

/-- `text.find(part)`. -/
def find (part text : Text) : Option ℕ := text.tails.findIdx? (part.isPrefixOf ·)

namespace MNPIRecognizer

variable (r : MNPIRecognizer)

/-- The type of the restricted names. -/
def restrictedName : String := "MNPI_RESTRICTED_NAME"

/-- A detection. -/
def found (entityType : String) (start stop : ℕ) : Span where
  entityType := entityType
  start := start
  stop := stop
  score := r.config.score
  source := some "mnpi"

/-- `_detect_tickers`. -/
def detectTickers (text : Text) : List Span :=
  (r.config.tickerPattern.finditer text).filterMap fun m =>
    let raw := Text.slice text m.1 m.2
    if (r.config.excludedWords.map u.upperText).contains (u.upperText raw) then none
    else if insideSiteId u text m.1 m.2 then none
    else if ((raw.takeWhile (· != '.')).length : ℤ) < r.config.minTickerLength then none
    else some (r.found "MNPI_TICKER" m.1 m.2)

/-- `_detect_deal_codenames`. -/
def detectDealCodenames (text : Text) : List Span :=
  r.config.dealCodenamePatterns.flatMap fun pattern =>
    (pattern.finditer text).map fun m => r.found "MNPI_DEAL" m.1 m.2

/-- `_detect_restricted_names`. -/
def detectRestrictedNames (text : Text) (tenantId : String) : List Span :=
  match r.restrictedNames with
  | none => []
  | some manager =>
    if manager.checkName L tenantId text then
      (manager.getNames tenantId).filterMap fun name =>
        (find (u.upperText name) (u.upperText text)).map fun start =>
          r.found restrictedName start (start + name.length)
    else []

/-- One round of `_deduplicate`. -/
def deduplicateStep (deduped : List Span) (result : Span) : List Span :=
  match deduped.getLast? with
  | none => deduped ++ [result]
  | some last => if result.start < last.stop then deduped else deduped ++ [result]

/-- `_deduplicate`: sorted by start, the longest first, what begins before the last one ends
goes. -/
def deduplicate (results : List Span) : List Span :=
  if results.isEmpty then results
  else (results.insertionSort collapsedBefore).foldl deduplicateStep []

/-- What `analyze` finds before it deduplicates. -/
def results (text : Text) (tenantId : Option String) : List Span :=
  r.detectTickers u text ++ r.detectDealCodenames text ++
    match tenantId with
    | none => []
    | some tenantId => r.detectRestrictedNames u L text tenantId

/-- `analyze`. -/
def analyze (text : Text) (tenantId : Option String) : List Span :=
  deduplicate (r.results u L text tenantId)

end MNPIRecognizer

/-! ### Deduplication -/

open MNPIRecognizer

theorem foldl_deduplicateStep {deduped : List Span} {last : Span}
    (hlast : deduped.getLast? = some last) (results : List Span) :
    results.foldl deduplicateStep deduped =
      deduped ++ sweepFrom Span.extent last.stop results := by
  induction results generalizing deduped last with
  | nil => rw [List.foldl_nil, sweepFrom, List.append_nil]
  | cons result results ih =>
    rw [List.foldl_cons, deduplicateStep, hlast]
    dsimp only
    obtain hlt | hle := lt_or_ge result.start last.stop
    · rw [if_pos hlt, ih hlast, sweepFrom_cons_of_lt (show (Span.extent result).lo < _ from hlt)]
    · rw [if_neg (not_lt.mpr hle), ih List.getLast?_concat,
        sweepFrom_cons_of_le (show _ ≤ (Span.extent result).lo from hle), List.append_assoc,
        List.singleton_append]
      rfl

/-- **The deduplication keeps the first of overlapping spans.** -/
theorem deduplicate_eq_sweepFrom {results : List Span} (hstart : ∀ s ∈ results, 0 ≤ s.start) :
    deduplicate results =
      sweepFrom Span.extent 0 (results.insertionSort collapsedBefore) := by
  have hall : ∀ s ∈ results.insertionSort collapsedBefore, 0 ≤ s.start :=
    fun s hs => hstart s ((List.mem_insertionSort _).mp hs)
  have hfold : deduplicate results =
      (results.insertionSort collapsedBefore).foldl deduplicateStep [] := by
    rw [deduplicate]
    split_ifs with hempty
    · rw [List.isEmpty_iff.mp hempty]
      rfl
    · rfl
  rw [hfold]
  generalize results.insertionSort collapsedBefore = sorted at hall
  cases sorted with
  | nil => rfl
  | cons s sorted =>
    rw [List.foldl_cons, sweepFrom_cons_of_le (hall s List.mem_cons_self)]
    exact foldl_deduplicateStep rfl sorted

/-! ### What is found -/

/-- A part stands first at a position of a text. -/
def FirstAt (part text : Text) (i : ℕ) : Prop :=
  part <+: text.drop i ∧ ∀ j < i, ¬ part <+: text.drop j

/-- **The first place of a part.** -/
theorem find_eq_some_iff {part text : Text} {i : ℕ} :
    find part text = some i ↔ FirstAt part text i := by
  rw [find, List.findIdx?_eq_some_iff_getElem]
  simp only [List.length_tails, List.getElem_tails, List.isPrefixOf_iff_prefix, FirstAt]
  constructor
  · rintro ⟨-, hstarts, hbefore⟩
    exact ⟨hstarts, fun j hj => hbefore j hj⟩
  · rintro ⟨hstarts, hbefore⟩
    have hlength : i < text.length + 1 := by
      by_contra hlong
      -- nothing but an empty part stands after the text, and that stands at its front, too
      have hnil : text.drop i = [] := List.drop_of_length_le (by omega)
      rw [hnil, List.prefix_nil] at hstarts
      exact hbefore 0 (by omega) (hstarts ▸ List.nil_prefix)
    exact ⟨hlength, hstarts, fun j hj => hbefore j hj⟩

section

variable (config : MNPIConfig) (manager : RestrictedNamesManager) (text : Text)
  (tenantId : String)

/-- A range of the text reads, up to case, as a restricted name of the tenant. -/
def ReadsAsName (start stop : ℤ) : Prop :=
  ∃ name ∈ manager.getNames tenantId,
    u.upperText (Text.slice text start stop) = u.upperText name

/-- Every place of a restricted name is covered, and what is returned as one reads as one. -/
def NamesMasked : Prop :=
  let spans := (MNPIRecognizer.mk config (some manager)).analyze u L text (some tenantId)
  (∀ start stop : ℕ, stop ≤ text.length → ReadsAsName u manager text tenantId start stop →
    ∀ p, (Extent.mk start stop).Covers p → ∃ s ∈ spans, s.extent.Covers p) ∧
  ∀ s ∈ spans, s.entityType = restrictedName →
    ReadsAsName u manager text tenantId s.start s.stop

/-- A range that the ticker pattern finds, that is no excluded word and no part of a site ID, and
whose part before a dot is long enough. -/
def IsTicker (m : ℕ × ℕ) : Prop :=
  m ∈ config.tickerPattern.finditer text ∧
    u.upperText (Text.slice text m.1 m.2) ∉ config.excludedWords.map u.upperText ∧
    insideSiteId u text m.1 m.2 = false ∧
    config.minTickerLength ≤ ((Text.slice text m.1 m.2).takeWhile (· != '.')).length

/-- The ranges of the tickers and deal codenames. -/
def patternPlaces : Set Extent :=
  {e | ∃ m : ℕ × ℕ, (IsTicker u config text m ∨
    ∃ pattern ∈ config.dealCodenamePatterns, m ∈ pattern.finditer text) ∧ e = ⟨m.1, m.2⟩}

/-- The ranges that are taken for the restricted names: each begins where the name, in upper case,
stands first in the text, in upper case, and is as long as the name. -/
def namePlaces : Set Extent :=
  {e | manager.checkName L tenantId text = true ∧ ∃ name ∈ manager.getNames tenantId, ∃ i : ℕ,
    FirstAt (u.upperText name) (u.upperText text) i ∧ e = ⟨i, i + name.length⟩}

/-- All ranges that are found. -/
def places : Set Extent := patternPlaces u config text ∪ namePlaces u L manager text tenantId

/-- The ranges that are found, and that no other one overlaps in part, cover the restricted names,
and any range that is taken for a name and does not read as one. -/
structure NamesClear : Prop where
  located : ∀ start stop : ℕ, stop ≤ text.length →
    ReadsAsName u manager text tenantId start stop → ∀ p, (Extent.mk start stop).Covers p →
      ∃ e ∈ places u L config manager text tenantId,
        Clear (places u L config manager text tenantId) e ∧ e.Covers p
  reads : ∀ e ∈ namePlaces u L manager text tenantId, e.lo < e.hi →
    e ∉ patternPlaces u config text → ReadsAsName u manager text tenantId e.lo e.hi ∨
      ∃ g ∈ places u L config manager text tenantId,
        Clear (places u L config manager text tenantId) g ∧ g ≠ e ∧ g.lo ≤ e.lo ∧ e.hi ≤ g.hi

end

section

variable {u L} {config : MNPIConfig} {manager : RestrictedNamesManager} {text : Text}
  {tenantId : String}

/-- The recognizer with restricted names. -/
abbrev withNames (config : MNPIConfig) (manager : RestrictedNamesManager) : MNPIRecognizer :=
  ⟨config, some manager⟩

theorem mem_detectRestrictedNames_iff {s : Span} :
    s ∈ (withNames config manager).detectRestrictedNames u L text tenantId ↔
      manager.checkName L tenantId text = true ∧ ∃ name ∈ manager.getNames tenantId, ∃ i : ℕ,
        FirstAt (u.upperText name) (u.upperText text) i ∧
          (withNames config manager).found restrictedName i (i + name.length) =
            s := by
  rw [detectRestrictedNames]
  dsimp only
  split_ifs with hcheck
  · simp only [List.mem_filterMap, Option.map_eq_some_iff, find_eq_some_iff, hcheck, true_and]
  · exact iff_of_false List.not_mem_nil fun h => hcheck h.1

/-- The restricted names are found last. -/
theorem results_eq :
    (withNames config manager).results u L text (some tenantId) =
      (MNPIRecognizer.mk config none).results u L text none ++
        (withNames config manager).detectRestrictedNames u L text tenantId := by
  rw [results, results, List.append_nil]
  rfl

/-- What the patterns find has these ranges. -/
theorem mem_patternPlaces_iff {e : Extent} :
    e ∈ patternPlaces u config text ↔
      ∃ s ∈ (MNPIRecognizer.mk config none).results u L text none, s.extent = e := by
  have hticker : ∀ m : ℕ × ℕ, IsTicker u config text m ↔
      (MNPIRecognizer.mk config none).found "MNPI_TICKER" m.1 m.2 ∈
        (MNPIRecognizer.mk config none).detectTickers u text := by
    intro m
    rw [detectTickers, List.mem_filterMap, IsTicker]
    constructor
    · rintro ⟨hm, hexcluded, hsite, hlength⟩
      refine ⟨m, hm, ?_⟩
      dsimp only
      rw [if_neg (by simpa using hexcluded), if_neg (by simp [hsite]), if_neg (not_lt.mpr hlength)]
    · rintro ⟨m', hm', hfound⟩
      dsimp only at hfound
      split_ifs at hfound with hexcluded hsite hlength
      have hspan := Option.some.inj hfound
      obtain rfl : m' = m := Prod.ext (Int.ofNat.inj (congrArg Span.start hspan))
        (Int.ofNat.inj (congrArg Span.stop hspan))
      exact ⟨hm', by simpa using hexcluded, by simpa using hsite, not_lt.mp hlength⟩
  -- the tickers and the codenames are listed one after the other
  rw [results, List.append_nil]
  constructor
  · rintro ⟨m, hm | ⟨pattern, hpattern, hm⟩, rfl⟩
    · exact ⟨_, List.mem_append_left _ ((hticker m).mp hm), rfl⟩
    · exact ⟨_, List.mem_append_right _ (List.mem_flatMap.mpr
        ⟨pattern, hpattern, List.mem_map_of_mem hm⟩), rfl⟩
  · rintro ⟨s, hs, rfl⟩
    obtain hs | hs := List.mem_append.mp hs
    · obtain ⟨m, -, hm⟩ := List.mem_filterMap.mp hs
      dsimp only at hm
      split_ifs at hm
      obtain rfl := Option.some.inj hm
      exact ⟨m, Or.inl ((hticker m).mpr hs), rfl⟩
    · obtain ⟨pattern, hpattern, hs⟩ := List.mem_flatMap.mp hs
      obtain ⟨m, hm, rfl⟩ := List.mem_map.mp hs
      exact ⟨m, Or.inr ⟨pattern, hpattern, hm⟩, rfl⟩

/-- A pattern finds no restricted name. -/
theorem pattern_of_mem_results {s : Span}
    (hs : s ∈ (MNPIRecognizer.mk config none).results u L text none) :
    s.entityType ≠ restrictedName ∧ 0 ≤ s.start := by
  rw [results, List.append_nil, List.mem_append] at hs
  obtain hs | hs := hs
  · obtain ⟨m, -, hm⟩ := List.mem_filterMap.mp hs
    dsimp only at hm
    split_ifs at hm
    obtain rfl := Option.some.inj hm
    have hticker : "MNPI_TICKER" ≠ restrictedName := by decide
    exact ⟨hticker, Int.natCast_nonneg _⟩
  · obtain ⟨pattern, -, hs⟩ := List.mem_flatMap.mp hs
    obtain ⟨m, -, rfl⟩ := List.mem_map.mp hs
    have hdeal : "MNPI_DEAL" ≠ restrictedName := by decide
    exact ⟨hdeal, Int.natCast_nonneg _⟩

/-- What stands among the names has been found for one. -/
theorem entityType_of_mem {s : Span}
    (hs : s ∈ (withNames config manager).detectRestrictedNames u L text tenantId) :
    s.entityType = restrictedName := by
  obtain ⟨-, name, -, i, -, rfl⟩ := mem_detectRestrictedNames_iff.mp hs
  rfl

theorem start_nonneg {s : Span}
    (hs : s ∈ (withNames config manager).results u L text (some tenantId)) :
    0 ≤ s.start := by
  rw [results_eq, List.mem_append] at hs
  obtain hs | hs := hs
  · exact (pattern_of_mem_results hs).2
  · obtain ⟨-, name, -, i, -, rfl⟩ := mem_detectRestrictedNames_iff.mp hs
    exact Int.natCast_nonneg _

/-- The finds have the ranges of the patterns and of the names. -/
theorem mem_places_iff {e : Extent} :
    e ∈ places u L config manager text tenantId ↔
      ∃ s ∈ ((withNames config manager).results u L text
        (some tenantId)).insertionSort collapsedBefore, s.extent = e := by
  simp only [List.mem_insertionSort, results_eq, List.mem_append]
  rw [places, Set.mem_union, mem_patternPlaces_iff (L := L)]
  constructor
  · rintro (⟨s, hs, rfl⟩ | ⟨hcheck, name, hname, i, hfirst, rfl⟩)
    · exact ⟨s, Or.inl hs, rfl⟩
    · exact ⟨_, Or.inr (mem_detectRestrictedNames_iff.mpr ⟨hcheck, name, hname, i, hfirst, rfl⟩),
        rfl⟩
  · rintro ⟨s, hs | hs, rfl⟩
    · exact Or.inl ⟨s, hs, rfl⟩
    · obtain ⟨hcheck, name, hname, i, hfirst, rfl⟩ := mem_detectRestrictedNames_iff.mp hs
      exact Or.inr ⟨hcheck, name, hname, i, hfirst, rfl⟩

theorem pairwise_sorted_results :
    (((withNames config manager).results u L text
      (some tenantId)).insertionSort collapsedBefore).Pairwise fun a b =>
        a.extent.lo ≤ b.extent.lo :=
  (List.pairwise_insertionSort collapsedBefore _).imp fun h => Extent.Before.lo_le h

/-- What is returned are the first ones of overlapping finds. -/
theorem analyze_eq :
    (withNames config manager).analyze u L text (some tenantId) =
      sweepFrom Span.extent 0 (((withNames config manager).results u L text
        (some tenantId)).insertionSort collapsedBefore) :=
  deduplicate_eq_sweepFrom fun _ => start_nonneg

theorem mem_or_mem_of_mem_analyze {s : Span}
    (hs : s ∈ (withNames config manager).analyze u L text (some tenantId)) :
    s ∈ (MNPIRecognizer.mk config none).results u L text none ∨
      s ∈ (withNames config manager).detectRestrictedNames u L text tenantId := by
  rw [analyze_eq] at hs
  rw [← List.mem_append, ← results_eq]
  exact (List.mem_insertionSort _).mp (mem_of_mem_sweepFrom hs)

/-- Nothing but names follows a name. -/
theorem pairwise_results :
    ((withNames config manager).results u L text (some tenantId)).Pairwise
      fun a b => a.entityType = restrictedName → b.entityType = restrictedName := by
  rw [results_eq, List.pairwise_append]
  exact ⟨List.pairwise_of_forall_mem_list fun a ha b _ h =>
      absurd h (pattern_of_mem_results ha).1,
    List.pairwise_of_forall_mem_list fun a _ b hb _ => entityType_of_mem hb,
    fun a _ b hb _ => entityType_of_mem hb⟩

/-- A restricted name is kept only where no pattern has found its range. -/
theorem not_mem_patternPlaces {s : Span}
    (hs : s ∈ (withNames config manager).analyze u L text (some tenantId))
    (hname : s.entityType = restrictedName) (hpos : s.extent.lo < s.extent.hi) :
    s.extent ∉ patternPlaces u config text := by
  intro hplace
  obtain ⟨p, hp, hextent⟩ := mem_patternPlaces_iff.mp hplace
  have hpattern := (pattern_of_mem_results hp).1
  have hsame : ∀ a b : Span, a.extent = b.extent → collapsedBefore b a := fun a b h =>
    Or.inr ⟨congrArg Extent.lo h.symm, (congrArg Extent.hi h).le⟩
  have hmem : p ∈ ((withNames config manager).results u L text
      (some tenantId)).insertionSort collapsedBefore :=
    (List.mem_insertionSort _).mpr (results_eq ▸ List.mem_append_left _ hp)
  rw [analyze_eq] at hs
  obtain rfl | hnamed := eq_or_of_mem_sweepFrom pairwise_sorted_results
    ((pairwise_insertionSort pairwise_results).imp fun h heq => h (hsame _ _ heq)) hs hpos hmem
    hextent.symm
  · exact hpattern hname
  · exact hpattern (hnamed hname)

theorem mem_places_of_mem_analyze {s : Span}
    (hs : s ∈ (withNames config manager).analyze u L text (some tenantId)) :
    s.extent ∈ places u L config manager text tenantId := by
  rw [analyze_eq] at hs
  exact mem_places_iff.mpr ⟨s, mem_of_mem_sweepFrom hs, rfl⟩

/-- A find that no other one overlaps in part lies in one that is returned. -/
theorem exists_mem_analyze {e : Extent} (he : e ∈ places u L config manager text tenantId)
    (hclear : Clear (places u L config manager text tenantId) e) :
    ∃ s ∈ (withNames config manager).analyze u L text (some tenantId),
      s.extent.lo ≤ e.lo ∧ e.hi ≤ s.extent.hi := by
  obtain ⟨s, hs, rfl⟩ := mem_places_iff.mp he
  rw [analyze_eq]
  refine exists_mem_sweepFrom_of_clear (List.pairwise_insertionSort collapsedBefore _) hs
    (start_nonneg ((List.mem_insertionSort _).mp hs)) fun g hg => hclear g (mem_places_iff.mpr hg)

theorem eq_of_mem_analyze {s t : Span}
    (hs : s ∈ (withNames config manager).analyze u L text (some tenantId))
    (ht : t ∈ (withNames config manager).analyze u L text (some tenantId))
    (hmeets : s.extent.Meets t.extent) : s = t := by
  rw [analyze_eq] at hs ht
  exact eq_of_mem_sweepFrom pairwise_sorted_results hs ht hmeets

/-- What is returned as a restricted name and covers nothing is an empty name. -/
theorem readsAsName_of_not_pos {s : Span}
    (hs : s ∈ (withNames config manager).analyze u L text (some tenantId))
    (hname : s.entityType = restrictedName) (hpos : ¬ s.extent.lo < s.extent.hi) :
    ReadsAsName u manager text tenantId s.start s.stop := by
  obtain hs | hs := mem_or_mem_of_mem_analyze hs
  · exact absurd hname (pattern_of_mem_results hs).1
  · obtain ⟨-, name, hmem, i, -, rfl⟩ := mem_detectRestrictedNames_iff.mp hs
    have hlength : ¬ (i : ℤ) < ((i + name.length : ℕ) : ℤ) := hpos
    obtain rfl : name = [] := List.eq_nil_of_length_eq_zero (by omega)
    have hslice : Text.slice text i ((i + ([] : Text).length : ℕ) : ℤ) = [] := by
      rw [List.length_nil, Nat.add_zero, Text.slice]
      exact List.drop_of_length_le (List.length_take_le _ _)
    exact ⟨[], hmem, congrArg u.upperText hslice⟩

end

/-- `ticker_pattern` of `config/mnpi_recognizers.yaml`. -/
def tickerPattern : Regex Char :=
  seqs
    [boundary u, between 1 4 (.one isUpper),
      opt (seqs [literal ".", between 1 2 (.one (isWord u))]), boundary u]

/-- `deal_codename_patterns` of `config/mnpi_recognizers.yaml`. -/
def dealCodenamePatterns : List (Regex Char) :=
  [seqs
    [boundary u, alts [literal "Project", literal "Operation"] (literal "Initiative"),
      atLeast 1 (spaceOr ""), .one isUpper, atLeast 2 (.one isLetter), boundary u],
   seqs
    [boundary u, alts [literal "Codenamed"] (literal "Codename"), atLeast 1 (spaceOr ""),
      literal "\"", .one isUpper, atLeast 1 (.one isLetter), literal "\"", boundary u]]

/-- `config/mnpi_recognizers.yaml`. -/
def mnpiConfig : MNPIConfig where
  tickerPattern := .ofRegex (tickerPattern u)
  dealCodenamePatterns := (dealCodenamePatterns u).map .ofRegex
  excludedWords :=
    ["THE", "FOR", "AND", "NOT", "YOU", "ARE", "WAS", "IBAN", "BIC", "KVNR", "SVNR", "PLZ", "CRM",
      "API", "URL", "PDF", "EUR", "USD", "DOB", "KFZ", "GMBH", "UST", "HRB", "HRA", "PIN", "TAN",
      "SMS", "FAQ", "SEPA", "ID", "CV", "HR", "ISO", "VAIT", "DPO", "CISO", "GDPR", "PII", "LLM",
      "SLA", "VPN", "TLS", "DE", "EN", "EU", "AI", "IT"].map String.toList

/-- `config/restricted_names.yaml`. -/
def restrictedNames : RestrictedNamesManager where
  data :=
    [("acme-corp",
        ["Acme Merger Target Alpha", "Project Firestorm", "Unicorn Acquisition"].map
          String.toList),
      ("bigbank", ["Mercury Deal", "Jupiter Partnership"].map String.toList)]

end AnonReq.Detection
