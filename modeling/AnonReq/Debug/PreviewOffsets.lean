import AnonReq.Foundation.Offsets
import AnonReq.Foundation.Sweep
import AnonReq.Tokenization.Session

/-!
# Offsets of preview entities

`debug/offsets.py`: for each detection of a preview, where its text stands in the message and where
its token stands in the anonymized message. The spans are filtered once more, and the positions of
the tokens are counted again, from the values that the tokenizer has tokens for.

* `get_getMapping`: the token that the preview reads for a value.
* `map_patch_filtered`: when the filtered spans are those of the tokenizer.
* `selectable_of_map_patch`: when they have to be.
* `preview_selects_iff`: when the records select what they claim.
-/

namespace AnonReq.Debug

open Redaction Tokenization Fusion

/-! ### Records -/

/-- `get_mapping()`: the tokens of the session by value, whatever the reversibility. -/
def getMapping (t : Tokenizer) : List (Text × Text) :=
  Dict.ofList (t.valueToToken.map fun e => (e.1.1, e.2))

/-- An entry of `spans`: a detection with its text and its token. -/
structure Candidate where
  start : ℕ
  stop : ℕ
  entityType : Text
  span : Text
  token : Text
deriving DecidableEq

/-- The extent of a candidate. -/
def Candidate.extent (item : Candidate) : Extent := ⟨item.start, item.stop⟩

/-- The candidate of a detection, where its bounds are valid and its text has a token. -/
def candidate (original : Text) (valueToToken : List (Text × Text)) (d : Detection) :
    Option Candidate :=
  match d.start, d.stop with
  | some start, some stop =>
    if start < 0 ∨ stop ≤ start ∨ (original.length : ℤ) < stop then none
    else
      let span := (original.take stop.toNat).drop start.toNat
      match Dict.get valueToToken span with
      | some token =>
        if token.isEmpty then none
        else some ⟨start.toNat, stop.toNat, d.entityType, span, token⟩
      | none => none
  | _, _ => none

/-- `spans`, sorted by start and end. -/
def sortedCandidates (original : Text) (valueToToken : List (Text × Text))
    (detections : List Detection) : List Candidate :=
  (detections.filterMap (candidate original valueToToken)).insertionSort
    fun a b => a.extent.ShortFirst b.extent

/-- `filtered`. -/
def filtered (original : Text) (valueToToken : List (Text × Text)) (detections : List Detection) :
    List Candidate :=
  sweepFrom Candidate.extent (-1) (sortedCandidates original valueToToken detections)

/-- A record, without its score. -/
structure EntityRecord where
  entityType : Text
  span : Text
  token : Text
  start : ℕ
  stop : ℕ
  startUtf16 : ℕ
  endUtf16 : ℕ
  tokenStart : ℕ
  tokenEnd : ℕ
  tokenStartUtf16 : ℕ
  tokenEndUtf16 : ℕ
  messageIndex : Option ℕ
deriving DecidableEq

/-- `utf16_len(text)`. -/
def utf16Len (text : Text) : ℕ := (Utf16.encode text).length

/-- The loop over the filtered spans. -/
def recordsFrom (original anonymized : Text) (messageIndex : Option ℕ) :
    ℕ → ℕ → List Candidate → List EntityRecord
  | _, _, [] => []
  | cursor, previousEnd, item :: items =>
    let tokenStart := cursor + (item.start - previousEnd)
    let tokenEnd := tokenStart + item.token.length
    { entityType := item.entityType
      span := item.span
      token := item.token
      start := item.start
      stop := item.stop
      startUtf16 := utf16Len (original.take item.start)
      endUtf16 := utf16Len (original.take item.stop)
      tokenStart := tokenStart
      tokenEnd := tokenEnd
      tokenStartUtf16 := utf16Len (anonymized.take tokenStart)
      tokenEndUtf16 := utf16Len (anonymized.take tokenEnd)
      messageIndex := messageIndex } ::
      recordsFrom original anonymized messageIndex tokenEnd item.stop items

/-- `entities_for_text`. -/
def entitiesForText (original anonymized : Text) (detections : List Detection)
    (valueToToken : List (Text × Text)) (messageIndex : Option ℕ) : List EntityRecord :=
  recordsFrom original anonymized messageIndex 0 0 (filtered original valueToToken detections)

/-! ### Previews -/

/-- The tokenizer after a session. -/
def tokenizerAfter (t : Tokenizer) (nodes : List Node) : Tokenizer :=
  nodes.foldl (fun t node => (tokenize t node.value node.detections).2.1) t

/-- The messages of a preview as text nodes, with the detections that are tagged with their
index. -/
def previewNodes (contents : List Text) (detections : List (ℤ × Detection)) : List Node :=
  contents.mapIdx fun i value => ⟨value, (detections.filter fun d => d.1 = (i : ℤ)).map Prod.snd⟩

/-- `entities_from_context` after the pipeline of a preview: the calls of the tokenizer, each with
the records for its message. -/
def runPreview (randomBits : Fin (2 ^ 64)) (contents : List Text)
    (detections : List (ℤ × Detection)) (includeMessageIndex : Bool) :
    List (Call × List EntityRecord) :=
  let nodes := previewNodes contents detections
  let mapping := getMapping (tokenizerAfter (initializeSession randomBits) nodes)
  (tokenizeCalls (initializeSession randomBits) nodes).mapIdx fun i c =>
    (c, entitiesForText c.node.value c.output c.node.detections mapping
      (if includeMessageIndex then some i else none))

/-! ### What the preview reads -/

theorem refines_tokenizerAfter (nodes : List Node) {t : Tokenizer} {l : Ledger}
    (h : Refines t l) :
    Refines (tokenizerAfter t nodes) (l.recordAll (nodes.flatMap Node.findings)) ∧
      (tokenizerAfter t nodes).seed = t.seed := by
  induction nodes generalizing t l with
  | nil => exact ⟨h, rfl⟩
  | cons node nodes ih =>
    obtain ⟨-, hrefines, hseed⟩ := tokenizeCall_agrees h node (List.prefix_refl _)
    obtain ⟨hrest, hrest'⟩ := ih hrefines
    rw [List.flatMap_cons, Ledger.recordAll, List.foldl_append]
    exact ⟨hrest, hrest'.trans hseed⟩

/-- The entry that was recorded last for a value. -/
def lastEntry (l : Ledger) (value : Text) : Option Entry :=
  l.entries.reverse.find? (·.value == value)

theorem mem_of_lastEntry {l : Ledger} {value : Text} {e : Entry}
    (h : lastEntry l value = some e) : e ∈ l.entries ∧ e.value = value :=
  ⟨List.mem_reverse.mp (List.mem_of_find?_eq_some h), by simpa using List.find?_some h⟩

/-- **The token that is read** for a value is that of the entry that was recorded last for it. -/
theorem get_getMapping {t : Tokenizer} {l : Ledger} (h : Refines t l) (value : Text) :
    Dict.get (getMapping t) value = (lastEntry l value).map (Entry.token t.seed) := by
  have hentries : t.valueToToken.map (fun e => (e.1.1, e.2)) =
      l.entries.map fun e => (e.value, e.token t.seed) := by
    rw [h.table, Ledger.table, List.map_map]
    rfl
  refine Option.ext fun token => ?_
  rw [getMapping, Dict.get_eq_some_iff (Dict.nodup_keys_ofList _), Dict.mem_ofList_iff, hentries,
    Option.map_eq_some_iff]
  simp only [lastEntry, List.find?_eq_some_iff_append, beq_iff_eq, Bool.not_eq_true',
    beq_eq_false_iff_ne]
  constructor
  · rintro ⟨before, after, hsplit, hafter⟩
    obtain ⟨before, rest, hall, rfl, hrest⟩ := List.map_eq_append_iff.mp hsplit
    obtain ⟨e, after, rfl, he, rfl⟩ := List.map_eq_cons_iff.mp hrest
    obtain ⟨rfl, rfl⟩ := Prod.mk.inj he
    refine ⟨e, ⟨rfl, after.reverse, before.reverse, by rw [hall]; simp, fun a ha hvalue => ?_⟩, rfl⟩
    refine hafter (List.mem_map.mpr ⟨_, List.mem_map_of_mem (List.mem_reverse.mp ha), hvalue⟩)
  · rintro ⟨e, ⟨rfl, after, before, hall, hafter⟩, rfl⟩
    rw [List.reverse_eq_iff] at hall
    refine ⟨before.reverse.map fun e => (e.value, e.token t.seed),
      after.reverse.map fun e => (e.value, e.token t.seed), by rw [hall]; simp, fun hmem => ?_⟩
    obtain ⟨_, hpair, hvalue⟩ := List.mem_map.mp hmem
    obtain ⟨a, ha, rfl⟩ := List.mem_map.mp hpair
    exact hafter a (List.mem_reverse.mp ha) hvalue

variable {valueToToken : List (Text × Text)}

/-- **Candidates** are the valid spans whose text has a token. -/
theorem candidate_eq_some_iff {original : Text} {d : Detection} {item : Candidate} :
    candidate original valueToToken d = some item ↔
      ∃ v : ValidSpan original.length, d.validate original.length = some v ∧
        ∃ token, Dict.get valueToToken v.finding.value = some token ∧ token ≠ [] ∧
          item = ⟨v.start, v.stop, d.entityType, v.finding.value, token⟩ := by
  rw [candidate, Detection.validate]
  cases d.start with
  | none => simp
  | some start =>
    cases d.stop with
    | none => simp
    | some stop =>
      dsimp only
      by_cases hvalid : start < 0 ∨ stop ≤ start ∨ (original.length : ℤ) < stop
      · have hinvalid : ¬ ¬ (start < 0 ∨ stop < 0 ∨ stop ≤ start ∨
            (original.length : ℤ) < stop) := by omega
        rw [if_pos hvalid, dif_neg hinvalid]
        simp
      · have hvalid' : ¬ (start < 0 ∨ stop < 0 ∨ stop ≤ start ∨
            (original.length : ℤ) < stop) := by omega
        rw [if_neg hvalid, dif_pos hvalid']
        simp only [Option.some.injEq, exists_eq_left', ValidSpan.finding]
        cases hget : Dict.get valueToToken ((original.take stop.toNat).drop start.toNat) with
        | none => simp
        | some token =>
          dsimp only
          by_cases htoken : token = []
          · simp [htoken]
          · rw [if_neg (by simpa using htoken)]
            simp [htoken, eq_comm]

/-! ### What the records select -/

/-- A candidate as a patch of the message. -/
def Candidate.patch (item : Candidate) : Patch Char := ⟨item.start, item.stop, item.token⟩

/-- The patch of a record, with the offsets of its token. -/
def EntityRecord.located (r : EntityRecord) : Located Char :=
  ⟨⟨r.start, r.stop, r.token⟩, r.tokenStart, r.tokenEnd⟩

/-- The records select their texts and tokens, in characters and in code units; they are disjoint
and sorted; and every token that was put in has exactly one record. -/
structure Selects (original anonymized : Text) (placed : List (Located Char))
    (records : List EntityRecord) : Prop where
  span : ∀ r ∈ records, slice original r.start r.stop = r.span
  token : ∀ r ∈ records, slice anonymized r.tokenStart r.tokenEnd = r.token
  spanUtf16 : ∀ r ∈ records,
    slice (Utf16.encode original) r.startUtf16 r.endUtf16 = Utf16.encode r.span
  tokenUtf16 : ∀ r ∈ records,
    slice (Utf16.encode anonymized) r.tokenStartUtf16 r.tokenEndUtf16 = Utf16.encode r.token
  apart : records.Pairwise fun a b => a.stop ≤ b.start
  exactlyOne : ∀ p ∈ placed,
    records.countP (fun r => r.tokenStart = p.tokenStart ∧ r.tokenEnd = p.tokenEnd) = 1

section Records

variable {original anonymized : Text} {messageIndex : Option ℕ} {cursor previous : ℕ}
  {items : List Candidate}

theorem map_located_recordsFrom :
    (recordsFrom original anonymized messageIndex cursor previous items).map
        EntityRecord.located = locate cursor previous (items.map Candidate.patch) := by
  induction items generalizing cursor previous with
  | nil => rfl
  | cons item items ih => rw [recordsFrom, List.map_cons, ih, List.map_cons, locate]; rfl

/-- A record is about one of the spans, and its offsets in code units are those of its offsets in
characters. -/
theorem of_mem_recordsFrom {r : EntityRecord}
    (hr : r ∈ recordsFrom original anonymized messageIndex cursor previous items) :
    (∃ item ∈ items, item.start = r.start ∧ item.stop = r.stop ∧ item.span = r.span) ∧
      r.startUtf16 = utf16Len (original.take r.start) ∧
      r.endUtf16 = utf16Len (original.take r.stop) ∧
      r.tokenStartUtf16 = utf16Len (anonymized.take r.tokenStart) ∧
      r.tokenEndUtf16 = utf16Len (anonymized.take r.tokenEnd) := by
  induction items generalizing cursor previous with
  | nil => exact absurd hr List.not_mem_nil
  | cons item items ih =>
    obtain rfl | hr := List.mem_cons.mp hr
    · exact ⟨⟨item, List.mem_cons_self, rfl, rfl, rfl⟩, rfl, rfl, rfl, rfl⟩
    · obtain ⟨⟨other, hother, hspan⟩, hunits⟩ := ih hr
      exact ⟨⟨other, List.mem_cons_of_mem item hother, hspan⟩, hunits⟩

end Records

/-! ### The filtered spans -/

section Session

variable {t : Tokenizer} {l : Ledger} {node : Node}

/-- The patches that the tokenizer puts in. -/
def patches (l : Ledger) (seed : ℕ) (node : Node) : List (Patch Char) :=
  node.spans.map fun span => (l.issue seed span).patch

theorem mem_sortedCandidates {original : Text} {detections : List Detection} {item : Candidate} :
    item ∈ sortedCandidates original valueToToken detections ↔
      ∃ d ∈ detections, candidate original valueToToken d = some item := by
  rw [sortedCandidates, List.mem_insertionSort, List.mem_filterMap]

/-- A candidate comes from a valid span, and has its text and a token for it. -/
theorem exists_span_of_candidate {item : Candidate}
    (hitem : item ∈ sortedCandidates node.value valueToToken node.detections) :
    ∃ v ∈ sortedSpans node.value.length node.detections, item.start = v.start ∧
      item.stop = v.stop ∧ item.span = v.finding.value ∧
        Dict.get valueToToken v.finding.value = some item.token ∧ item.token ≠ [] := by
  obtain ⟨d, hd, hcandidate⟩ := mem_sortedCandidates.mp hitem
  obtain ⟨v, hv, token, htoken, hne, rfl⟩ := candidate_eq_some_iff.mp hcandidate
  exact ⟨v, mem_sortedSpans.mpr ⟨d, hd, hv⟩, rfl, rfl, rfl, htoken, hne⟩

/-- A valid span whose text has a token is a candidate. -/
theorem exists_candidate {token : Text} {v : ValidSpan node.value.length}
    (hv : v ∈ sortedSpans node.value.length node.detections)
    (htoken : Dict.get valueToToken v.finding.value = some token) (hne : token ≠ []) :
    ∃ item ∈ sortedCandidates node.value valueToToken node.detections,
      item.extent = ⟨v.start, v.stop⟩ := by
  obtain ⟨d, hd, hvalid⟩ := mem_sortedSpans.mp hv
  exact ⟨_, mem_sortedCandidates.mpr ⟨d, hd, candidate_eq_some_iff.mpr
    ⟨v, hvalid, token, htoken, hne, rfl⟩⟩, rfl⟩

theorem pairwise_sortedCandidates (original : Text) (valueToToken : List (Text × Text))
    (detections : List Detection) :
    (sortedCandidates original valueToToken detections).Pairwise fun a b =>
      a.extent.ShortFirst b.extent := by
  have : Std.Total fun a b : Candidate => a.extent.ShortFirst b.extent :=
    ⟨fun a b => by unfold Extent.ShortFirst; omega⟩
  have : IsTrans Candidate fun a b => a.extent.ShortFirst b.extent :=
    ⟨fun a b c => by unfold Extent.ShortFirst; omega⟩
  exact List.pairwise_insertionSort _ _

theorem pairwise_start_sortedCandidates (original : Text) (valueToToken : List (Text × Text))
    (detections : List Detection) :
    (sortedCandidates original valueToToken detections).Pairwise fun a b =>
      a.extent.lo ≤ b.extent.lo :=
  (pairwise_sortedCandidates original valueToToken detections).imp fun h =>
    h.elim le_of_lt fun h => h.1.le

/-- When the spans are filtered as the tokenizer merges them: each accepted span is one of the valid
spans; no text of a shorter one at its start has a token in the session; and its text was recorded
last as what it is, to be restored or not. -/
structure Selectable (l : Ledger) (node : Node) : Prop where
  covered : ∀ a ∈ node.spans, ∃ v ∈ sortedSpans node.value.length node.detections,
    v.start = a.start ∧ v.stop = a.stop
  shortest : ∀ a ∈ node.spans, ∀ v ∈ sortedSpans node.value.length node.detections,
    v.start = a.start → v.stop < a.stop → ∀ e ∈ l.entries, e.value ≠ v.finding.value
  last : ∀ a ∈ node.spans, (lastEntry l a.finding.value).map (fun e => e.reversible) =
    some a.reversible

theorem token_ne_nil (seed : ℕ) (e : Entry) : e.token seed ≠ [] := by
  rw [Entry.token, tokenText]
  simp

/-- The token that is read for the text of a finding is the one that was put in for it, if the text
was recorded last as what the finding is. -/
theorem get_eq_tokenOf_iff (h : Refines t l) {f : Finding}
    (hf : f.key ∈ l.entries.map fun e => e.key) :
    Dict.get (getMapping t) f.value = some (l.tokenOf f t.seed) ↔
      (lastEntry l f.value).map (fun e => e.reversible) = some f.reversible := by
  obtain ⟨e, he, hkey⟩ := List.mem_map.mp hf
  rw [get_getMapping h, l.tokenOf_eq f t.seed he hkey, Option.map_eq_some_iff,
    Option.map_eq_some_iff]
  refine exists_congr fun other => and_congr_right fun hlast => ?_
  obtain ⟨hother, hvalue⟩ := mem_of_lastEntry hlast
  constructor
  · intro htoken
    rw [List.inj_on_of_nodup_map (l.tokens_nodup t.seed) hother he htoken]
    exact congrArg Prod.snd hkey
  · intro hreversible
    have hsame : other.key = e.key := by
      rw [hkey]
      exact Prod.ext hvalue hreversible
    rw [List.inj_on_of_nodup_map l.keys_nodup hother he hsame]

/-- A value is recorded if a token is read for it. -/
theorem exists_entry_of_get (h : Refines t l) {value token : Text}
    (hget : Dict.get (getMapping t) value = some token) :
    ∃ e ∈ l.entries, e.value = value ∧ e.token t.seed = token := by
  rw [get_getMapping h] at hget
  obtain ⟨e, hlast, htoken⟩ := Option.map_eq_some_iff.mp hget
  obtain ⟨he, hvalue⟩ := mem_of_lastEntry hlast
  exact ⟨e, he, hvalue, htoken⟩

theorem exists_get_of_entry (h : Refines t l) {e : Entry} (he : e ∈ l.entries) :
    ∃ token, Dict.get (getMapping t) e.value = some token ∧ token ≠ [] := by
  rw [get_getMapping h]
  cases hlast : lastEntry l e.value with
  | none =>
    rw [lastEntry, List.find?_eq_none] at hlast
    exact absurd (beq_self_eq_true e.value) (hlast e (List.mem_reverse.mpr he))
  | some other => exact ⟨_, rfl, token_ne_nil _ _⟩

theorem extent_pos {item : Candidate}
    (hitem : item ∈ sortedCandidates node.value valueToToken node.detections) :
    item.extent.lo < item.extent.hi := by
  obtain ⟨v, -, hstart, hstop, -⟩ := exists_span_of_candidate hitem
  have hlt := v.start_lt_stop
  rw [Candidate.extent]
  dsimp only
  omega

/-- A candidate lies in an accepted span. -/
theorem exists_accepted_of_candidate {item : Candidate}
    (hitem : item ∈ sortedCandidates node.value valueToToken node.detections) :
    ∃ a ∈ node.spans, a.start ≤ item.start ∧ item.stop ≤ a.stop := by
  obtain ⟨v, hv, hstart, hstop, -⟩ := exists_span_of_candidate hitem
  obtain ⟨d, hd, hvalid⟩ := mem_sortedSpans.mp hv
  obtain ⟨a, ha, hlo, hhi, -⟩ := exists_mem_nonOverlapping hd hvalid
  exact ⟨a, ha, hstart ▸ hlo, hstop ▸ hhi⟩

/-- **Filtered spans** are the accepted spans, with their tokens, if they are selectable. -/
theorem map_patch_filtered (h : Refines t l)
    (hkeys : ∀ f ∈ node.findings, f.key ∈ l.entries.map fun e => e.key)
    (hselectable : Selectable l node) :
    (filtered node.value (getMapping t) node.detections).map Candidate.patch =
      patches l t.seed node := by
  have hget : ∀ a ∈ node.spans, Dict.get (getMapping t) a.finding.value =
      some (l.tokenOf a.finding t.seed) := fun a ha =>
    (get_eq_tokenOf_iff h (hkeys _ (List.mem_map_of_mem ha))).mpr (hselectable.last a ha)
  have hmosaic : Mosaic Candidate.extent (-1)
      (sortedCandidates node.value (getMapping t) node.detections)
      (node.spans.map fun a => ⟨a.start, a.stop⟩) := by
    refine ⟨?_, ?_, ?_, ?_, ?_⟩
    · refine List.pairwise_map.mpr ((nonOverlapping_pairwise _ _).imp fun {a b} hab => ?_)
      exact Int.ofNat_le.mpr hab
    · intro e he
      obtain ⟨a, -, rfl⟩ := List.mem_map.mp he
      dsimp only
      omega
    · intro e he
      obtain ⟨a, ha, rfl⟩ := List.mem_map.mp he
      obtain ⟨v, hv, hstart, hstop⟩ := hselectable.covered a ha
      have hvalue : v.finding.value = a.finding.value := by
        rw [ValidSpan.finding, ValidSpan.finding, hstart, hstop]
      obtain ⟨token, htoken, hne⟩ : ∃ token, Dict.get (getMapping t) v.finding.value =
          some token ∧ token ≠ [] := by
        obtain ⟨e, he, hkey⟩ := List.mem_map.mp (hkeys _ (List.mem_map_of_mem ha))
        rw [hvalue, ← show e.value = a.finding.value from congrArg Prod.fst hkey]
        exact exists_get_of_entry h he
      obtain ⟨item, hitem, hextent⟩ := exists_candidate hv htoken hne
      exact ⟨item, hitem, by rw [hextent, hstart, hstop]⟩
    · intro item hitem
      obtain ⟨a, ha, hlo, hhi⟩ := exists_accepted_of_candidate hitem
      exact Or.inr ⟨_, List.mem_map_of_mem ha, Int.ofNat_le.mpr hlo, Int.ofNat_le.mpr hhi⟩
    · intro item hitem e he hstart
      obtain ⟨a, ha, rfl⟩ := List.mem_map.mp he
      obtain ⟨v, hv, hvstart, hvstop, -, hvtoken, -⟩ := exists_span_of_candidate hitem
      obtain ⟨e, he, hvalue, -⟩ := exists_entry_of_get h hvtoken
      by_contra hshort
      rw [Candidate.extent] at hstart hshort
      dsimp only at hstart hshort
      exact hselectable.shortest a ha v hv (by omega) (by omega) e he hvalue
  have hextents := hmosaic.map_sweepFrom (pairwise_sortedCandidates _ _ _)
    fun item hitem => extent_pos hitem
  -- a patch is determined by its extent
  let patchOf : Extent → Patch Char := fun e => ⟨e.lo.toNat, e.hi.toNat,
    (Dict.get (getMapping t) ((node.value.take e.hi.toNat).drop e.lo.toNat)).getD []⟩
  have hitems : ∀ item ∈ filtered node.value (getMapping t) node.detections,
      item.patch = patchOf item.extent := by
    intro item hitem
    obtain ⟨v, -, hstart, hstop, -, htoken, -⟩ :=
      exists_span_of_candidate (mem_of_mem_sweepFrom hitem)
    have hvalue : v.finding.value = (node.value.take item.stop).drop item.start := by
      rw [hstart, hstop]
      rfl
    rw [hvalue] at htoken
    dsimp only [patchOf, Candidate.extent, Int.toNat_natCast]
    rw [htoken]
    rfl
  calc (filtered node.value (getMapping t) node.detections).map Candidate.patch
      = ((filtered node.value (getMapping t) node.detections).map Candidate.extent).map
          patchOf := by
        rw [List.map_map]
        exact List.map_congr_left hitems
    _ = (node.spans.map fun a => (⟨a.start, a.stop⟩ : Extent)).map patchOf := by
        rw [← hextents, filtered]
    _ = patches l t.seed node := by
        rw [List.map_map, patches]
        refine List.map_congr_left fun a ha => ?_
        have htoken : (Dict.get (getMapping t)
            ((node.value.take a.stop).drop a.start)).getD [] = l.tokenOf a.finding t.seed := by
          rw [← show a.finding.value = (node.value.take a.stop).drop a.start from rfl, hget a ha]
          rfl
        exact congrArg (fun token => (⟨a.start, a.stop, token⟩ : Patch Char)) htoken

theorem spaced_patches
    (hkeys : ∀ f ∈ node.findings, f.key ∈ l.entries.map fun e => e.key) (seed : ℕ) :
    Spaced 0 (patches l seed node) where
  pairwise := List.pairwise_map.mpr (nonOverlapping_pairwise _ _)
  bound_le _ _ := Nat.zero_le _
  ne_empty p hp := by
    obtain ⟨a, -, rfl⟩ := List.mem_map.mp hp
    exact a.start_lt_stop
  token_ne p hp := by
    obtain ⟨a, ha, rfl⟩ := List.mem_map.mp hp
    obtain ⟨e, he, hkey⟩ := List.mem_map.mp (hkeys _ (List.mem_map_of_mem ha))
    rw [Ledger.issue, l.tokenOf_eq a.finding seed he hkey]
    exact token_ne_nil seed e

theorem spaced_filtered (valueToToken : List (Text × Text)) :
    Spaced 0 ((filtered node.value valueToToken node.detections).map Candidate.patch) where
  pairwise := by
    have hapart : (filtered node.value valueToToken node.detections).Pairwise _ :=
      pairwise_sweepFrom (pairwise_start_sortedCandidates _ _ _)
    exact List.pairwise_map.mpr (hapart.imp fun {a b} hab => Int.ofNat_le.mp hab)
  bound_le _ _ := Nat.zero_le _
  ne_empty p hp := by
    obtain ⟨item, hitem, rfl⟩ := List.mem_map.mp hp
    exact Int.ofNat_lt.mp (extent_pos (mem_of_mem_sweepFrom hitem))
  token_ne p hp := by
    obtain ⟨item, hitem, rfl⟩ := List.mem_map.mp hp
    obtain ⟨-, -, -, -, -, -, hne⟩ := exists_span_of_candidate (mem_of_mem_sweepFrom hitem)
    exact hne

/-! ### When the records select what they claim -/

/-- Tokens stand at different offsets. -/
theorem nodup_tokenStarts {bound cursor : ℕ} {ps : List (Patch Char)} (h : Spaced bound ps) :
    ((locate cursor bound ps).map Located.tokenStart).Nodup := by
  induction ps generalizing bound cursor with
  | nil => exact List.nodup_nil
  | cons p ps ih =>
    rw [locate, List.map_cons, List.nodup_cons]
    refine ⟨fun hmem => ?_, ih h.tail⟩
    obtain ⟨l, hl, hstart⟩ := List.mem_map.mp hmem
    have hlater := cursor_le_of_mem_locate hl
    have hpos := List.length_pos_of_ne_nil (h.token_ne p List.mem_cons_self)
    dsimp only at hstart
    omega

/-- What always holds of the records: they select their texts, and they are disjoint and sorted. -/
theorem selects_span {valueToToken : List (Text × Text)} {anonymized : Text}
    {messageIndex : Option ℕ} :
    let records := entitiesForText node.value anonymized node.detections valueToToken messageIndex
    (∀ r ∈ records, r.start ≤ r.stop ∧ slice node.value r.start r.stop = r.span) ∧
      records.Pairwise fun a b => a.stop ≤ b.start := by
  intro records
  constructor
  · intro r hr
    obtain ⟨⟨item, hitem, hstart, hstop, hspan⟩, -⟩ := of_mem_recordsFrom hr
    obtain ⟨v, -, hvstart, hvstop, hvspan, -⟩ :=
      exists_span_of_candidate (mem_of_mem_sweepFrom hitem)
    have hlt := v.start_lt_stop
    refine ⟨by omega, ?_⟩
    rw [← hstart, ← hstop, ← hspan, hvspan, hvstart, hvstop]
    rfl
  · have hlocated : records.map EntityRecord.located = locate 0 0
        ((filtered node.value valueToToken node.detections).map Candidate.patch) :=
      map_located_recordsFrom
    have hspaced : ((records.map EntityRecord.located).map Located.toPatch).Pairwise
        fun p q => p.stop ≤ q.start := by
      rw [hlocated, map_patch_locate]
      exact (spaced_filtered valueToToken).pairwise
    rw [List.map_map] at hspaced
    exact List.pairwise_map.mp hspaced

/-- **Selectable spans** have records that select what they claim. -/
theorem selects_of_selectable (h : Refines t l)
    (hkeys : ∀ f ∈ node.findings, f.key ∈ l.entries.map fun e => e.key)
    (hselectable : Selectable l node) (messageIndex : Option ℕ) :
    Selects node.value (weave node.value 0 (patches l t.seed node))
      (locate 0 0 (patches l t.seed node))
      (entitiesForText node.value (weave node.value 0 (patches l t.seed node)) node.detections
        (getMapping t) messageIndex) := by
  have hspaced := spaced_patches hkeys t.seed
  obtain ⟨hspan, hapart⟩ := @selects_span node (getMapping t)
    (weave node.value 0 (patches l t.seed node)) messageIndex
  have hlocated : (entitiesForText node.value (weave node.value 0 (patches l t.seed node))
      node.detections (getMapping t) messageIndex).map EntityRecord.located =
        locate 0 0 (patches l t.seed node) := by
    rw [entitiesForText, map_located_recordsFrom, map_patch_filtered h hkeys hselectable]
  have hmem : ∀ r ∈ entitiesForText node.value (weave node.value 0 (patches l t.seed node))
      node.detections (getMapping t) messageIndex,
        r.located ∈ locate 0 0 (patches l t.seed node) := by
    intro r hr
    rw [← hlocated]
    exact List.mem_map_of_mem hr
  have htoken : ∀ r ∈ entitiesForText node.value (weave node.value 0 (patches l t.seed node))
      node.detections (getMapping t) messageIndex,
        slice (weave node.value 0 (patches l t.seed node)) r.tokenStart r.tokenEnd = r.token := by
    intro r hr
    have hlength : ∀ p ∈ patches l t.seed node, p.start ≤ node.value.length := by
      intro p hp
      obtain ⟨a, -, rfl⟩ := List.mem_map.mp hp
      exact a.start_lt_stop.le.trans a.stop_le
    exact @slice_of_mem_locate Char 0 _ node.value [] hspaced hlength _ (hmem r hr)
  refine ⟨fun r hr => (hspan r hr).2, htoken, fun r hr => ?_, fun r hr => ?_, hapart,
    fun p hp => ?_⟩
  · obtain ⟨-, hstart, hstop, -⟩ := of_mem_recordsFrom hr
    rw [hstart, hstop, ← (hspan r hr).2]
    exact Utf16.slice_encode _ (hspan r hr).1
  · obtain ⟨-, -, -, hstart, hstop⟩ := of_mem_recordsFrom hr
    rw [hstart, hstop, ← htoken r hr]
    refine Utf16.slice_encode _ ?_
    have hend : r.tokenEnd = r.tokenStart + r.token.length := tokenEnd_of_mem_locate (hmem r hr)
    exact hend ▸ Nat.le_add_right _ _
  · -- the offsets of a token are those of no other one
    have hcount : ∀ q ∈ locate 0 0 (patches l t.seed node),
        (q.tokenStart = p.tokenStart ∧ q.tokenEnd = p.tokenEnd ↔ q.tokenStart = p.tokenStart) := by
      intro q hq
      refine ⟨And.left, fun hstart => ⟨hstart, ?_⟩⟩
      rw [List.inj_on_of_nodup_map (nodup_tokenStarts hspaced) hq hp hstart]
    have hone : ((locate 0 0 (patches l t.seed node)).map Located.tokenStart).count
        p.tokenStart = 1 :=
      List.count_eq_one_of_mem (nodup_tokenStarts hspaced) (List.mem_map_of_mem hp)
    rw [← hone, ← hlocated, List.map_map, List.count, List.countP_map]
    refine List.countP_congr fun r hr => ?_
    rw [decide_eq_true_eq, Function.comp_apply, Function.comp_apply, beq_iff_eq]
    exact hcount r.located (hmem r hr)

/-- Records that select their tokens, one for each token that was put in, are those of the accepted
spans. -/
theorem Selects.map_patch_filtered (h : Refines t l)
    (hkeys : ∀ f ∈ node.findings, f.key ∈ l.entries.map fun e => e.key) {messageIndex : Option ℕ}
    (hselects : Selects node.value (weave node.value 0 (patches l t.seed node))
      (locate 0 0 (patches l t.seed node))
      (entitiesForText node.value (weave node.value 0 (patches l t.seed node)) node.detections
        (getMapping t) messageIndex)) :
    (filtered node.value (getMapping t) node.detections).map Candidate.patch =
      patches l t.seed node := by
  have hspaced := spaced_patches hkeys t.seed
  refine @eq_of_located Char 0 0 (patches l t.seed node) _ hspaced (spaced_filtered _)
    (fun e he => ?_) (fun e he p hp htoken => ?_) fun p hp => ?_
  · obtain ⟨item, hitem, rfl⟩ := List.mem_map.mp he
    obtain ⟨a, ha, hinside⟩ := exists_accepted_of_candidate (mem_of_mem_sweepFrom hitem)
    exact ⟨_, List.mem_map_of_mem ha, hinside⟩
  · -- the texts of two patches with one token are the same
    obtain ⟨item, hitem, rfl⟩ := List.mem_map.mp he
    obtain ⟨a, ha, rfl⟩ := List.mem_map.mp hp
    obtain ⟨v, -, hstart, hstop, -, hget, -⟩ :=
      exists_span_of_candidate (mem_of_mem_sweepFrom hitem)
    obtain ⟨e, he, hvalue, hetoken⟩ := exists_entry_of_get h hget
    obtain ⟨e', he', hkey⟩ := List.mem_map.mp (hkeys _ (List.mem_map_of_mem ha))
    have hissued : item.token = e'.token t.seed :=
      htoken.trans (l.tokenOf_eq a.finding t.seed he' hkey)
    rw [← hetoken] at hissued
    obtain rfl := List.inj_on_of_nodup_map (l.tokens_nodup t.seed) he he' hissued
    have hvalues : v.finding.value = a.finding.value :=
      hvalue.symm.trans (congrArg Prod.fst hkey)
    have hlength := congrArg List.length hvalues
    rw [ValidSpan.finding, ValidSpan.finding] at hlength
    dsimp only at hlength
    rw [List.length_drop, List.length_take, List.length_drop, List.length_take,
      Nat.min_eq_left v.stop_le, Nat.min_eq_left a.stop_le] at hlength
    change item.stop - item.start = a.stop - a.start
    omega
  · have hcount := hselects.exactlyOne p hp
    obtain ⟨r, hr, hmatch⟩ := List.countP_pos_iff.mp (hcount.symm ▸ Nat.one_pos)
    rw [decide_eq_true_eq] at hmatch
    refine ⟨r.located, ?_, hmatch.1, ?_⟩
    · rw [← map_located_recordsFrom]
      exact List.mem_map_of_mem hr
    · have hlength : ∀ q ∈ patches l t.seed node, q.start ≤ node.value.length := by
        intro q hq
        obtain ⟨a, -, rfl⟩ := List.mem_map.mp hq
        exact a.start_lt_stop.le.trans a.stop_le
      have hplaced := @slice_of_mem_locate Char 0 _ node.value [] hspaced hlength p hp
      rw [List.nil_append] at hplaced
      rw [← hplaced, ← hmatch.1, ← hmatch.2]
      exact (hselects.token r hr).symm

/-- **Records that select** what they claim come from selectable spans. -/
theorem selectable_of_map_patch (h : Refines t l)
    (hkeys : ∀ f ∈ node.findings, f.key ∈ l.entries.map fun e => e.key)
    (hpatches : (filtered node.value (getMapping t) node.detections).map Candidate.patch =
      patches l t.seed node) : Selectable l node := by
  have hitem : ∀ a ∈ node.spans, ∃ item ∈ filtered node.value (getMapping t) node.detections,
      item.start = a.start ∧ item.stop = a.stop ∧ item.token = l.tokenOf a.finding t.seed := by
    intro a ha
    have hmem : (l.issue t.seed a).patch ∈ patches l t.seed node := List.mem_map_of_mem ha
    rw [← hpatches] at hmem
    obtain ⟨item, hitem, heq⟩ := List.mem_map.mp hmem
    exact ⟨item, hitem, congrArg Patch.start heq, congrArg Patch.stop heq,
      congrArg Patch.token heq⟩
  refine ⟨fun a ha => ?_, fun a ha v hv hstart hshort e he hvalue => ?_, fun a ha => ?_⟩
  · obtain ⟨item, hmem, hlo, hhi, -⟩ := hitem a ha
    obtain ⟨v, hv, hvstart, hvstop, -⟩ := exists_span_of_candidate (mem_of_mem_sweepFrom hmem)
    exact ⟨v, hv, hvstart.symm.trans hlo, hvstop.symm.trans hhi⟩
  · obtain ⟨token, htoken, hne⟩ := exists_get_of_entry h he
    rw [hvalue] at htoken
    obtain ⟨short, hshortmem, hextent⟩ := exists_candidate hv htoken hne
    obtain ⟨item, hmem, hlo, hhi, -⟩ := hitem a ha
    have hlt := v.start_lt_stop
    have hshortlo : short.extent.lo = a.start := by rw [hextent, ← hstart]
    have hshorthi : short.extent.hi = v.stop := by rw [hextent]
    have hitemlo : item.extent.lo = a.start := congrArg Nat.cast hlo
    have hitemhi : item.extent.hi = a.stop := congrArg Nat.cast hhi
    -- what is kept is the item of the accepted span, or apart from it
    have hapart : ∀ y ∈ filtered node.value (getMapping t) node.detections,
        y = item ∨ y.extent.hi ≤ item.extent.lo ∨ item.extent.hi ≤ y.extent.lo := by
      intro y hy
      have hpairwise : (filtered node.value (getMapping t) node.detections).Pairwise
          fun x y => x.extent.hi ≤ y.extent.lo ∨ y.extent.hi ≤ x.extent.lo :=
        (pairwise_sweepFrom (pairwise_start_sortedCandidates _ _ _)).imp fun h => Or.inl h
      have : Std.Symm fun x y : Candidate =>
          x.extent.hi ≤ y.extent.lo ∨ y.extent.hi ≤ x.extent.lo := ⟨fun x y h => Or.symm h⟩
      by_cases heq : y = item
      · exact Or.inl heq
      · exact Or.inr (hpairwise.forall hy hmem heq)
    obtain hkept | hbound | ⟨y, hy, hfirst, hin⟩ :=
      mem_sweepFrom_or (pairwise_sortedCandidates _ _ _) hshortmem
    · obtain rfl | hbefore | hafter := hapart short hkept
      · omega
      · omega
      · omega
    · rw [hshortlo] at hbound
      omega
    · rw [Extent.ShortFirst] at hfirst
      obtain rfl | hbefore | hafter := hapart y hy
      · omega
      · omega
      · omega
  · obtain ⟨item, hmem, hlo, hhi, htoken⟩ := hitem a ha
    obtain ⟨v, hv, hvstart, hvstop, -, hget, -⟩ :=
      exists_span_of_candidate (mem_of_mem_sweepFrom hmem)
    have hvalue : v.finding.value = a.finding.value := by
      rw [ValidSpan.finding, ValidSpan.finding]
      dsimp only
      rw [← hvstart, ← hvstop, hlo, hhi]
    rw [hvalue, htoken] at hget
    exact (get_eq_tokenOf_iff h (hkeys _ (List.mem_map_of_mem ha))).mp hget

end Session

/-- **Preview offsets.** The records of a preview for a message select what they claim, and every
token of the message has one, if and only if each accepted span of the message is one of the valid
spans, no text of a shorter one at its start has a token in the session, and its text was recorded
last as what it is, to be restored or not. -/
theorem preview_selects_iff (randomBits : Fin (2 ^ 64)) (contents : List Text)
    (detections : List (ℤ × Detection)) (includeMessageIndex : Bool) :
    (runPreview randomBits contents detections includeMessageIndex).map (fun p => p.1.node) =
        previewNodes contents detections ∧
      ∀ p ∈ runPreview randomBits contents detections includeMessageIndex,
        Selects p.1.node.value p.1.output (locate 0 0 (p.1.issues.map Issue.patch)) p.2 ↔
          Selectable (sessionLedger (previewNodes contents detections)) p.1.node := by
  have hcalls : (runPreview randomBits contents detections includeMessageIndex).map Prod.fst =
      tokenizeCalls (initializeSession randomBits) (previewNodes contents detections) := by
    refine List.ext_getElem? fun i => ?_
    rw [runPreview, List.getElem?_map, List.getElem?_mapIdx, Option.map_map]
    exact Option.map_id'
  constructor
  · rw [← map_node_tokenizeCalls (previewNodes contents detections)
      (initializeSession randomBits), ← hcalls, List.map_map]
    rfl
  · intro p hp
    have hc : p.1 ∈ tokenizeCalls (initializeSession randomBits)
        (previewNodes contents detections) := hcalls ▸ List.mem_map_of_mem hp
    have hagrees := tokenizeCalls_agree (previewNodes contents detections)
      (refines_initializeSession randomBits) (List.prefix_refl _) p.1 hc
    obtain ⟨hrefines, hseed⟩ := refines_tokenizerAfter (previewNodes contents detections)
      (refines_initializeSession randomBits)
    have hpatches : p.1.issues.map Issue.patch =
        patches (sessionLedger (previewNodes contents detections)) randomBits p.1.node := by
      rw [hagrees.issues, List.map_map]
      rfl
    have houtput : p.1.output = weave p.1.node.value 0
        (patches (sessionLedger (previewNodes contents detections)) randomBits p.1.node) := by
      rw [output_of_mem_tokenizeCalls hc, hpatches]
    obtain ⟨i, hi, hrecords⟩ := List.mem_mapIdx.mp hp
    have hentities : p.2 = entitiesForText p.1.node.value p.1.output p.1.node.detections
        (getMapping (tokenizerAfter (initializeSession randomBits)
          (previewNodes contents detections))) (if includeMessageIndex then some i else none) := by
      rw [← hrecords]
    rw [hpatches, hentities, houtput]
    have hseed' : (tokenizerAfter (initializeSession randomBits)
        (previewNodes contents detections)).seed = randomBits := hseed
    rw [← hseed']
    constructor
    · intro hselects
      exact selectable_of_map_patch hrefines hagrees.keys
        (hselects.map_patch_filtered hrefines hagrees.keys)
    · intro hselectable
      exact selects_of_selectable hrefines hagrees.keys hselectable _

/-- A text in which a name is found twice, the second time as a secret. -/
def seenBothWays : List (ℤ × Detection) :=
  [(0, { entityType := "PERSON".toList, start := some 0, stop := some 3 }),
    (0, { entityType := "SECRET".toList, start := some 7, stop := some 10, reversible := false })]

/-- **A value that is seen both ways** is read with the token of the last one. -/
theorem not_preview_selects :
    ¬ ∀ p ∈ runPreview 0 ["ann or ann".toList] seenBothWays true,
      Selects p.1.node.value p.1.output (locate 0 0 (p.1.issues.map Issue.patch)) p.2 := by
  intro h
  have hselects := h _ (@List.mem_of_getElem? _ _ 0 _ rfl)
  have htoken := hselects.token _ (@List.mem_of_getElem? _ _ 0 _ rfl)
  exact absurd htoken (by decide)

end AnonReq.Debug
