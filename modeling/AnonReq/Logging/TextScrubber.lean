import AnonReq.Detection.Checksum
import AnonReq.Detection.RegexPatterns
import AnonReq.Foundation.Intervals
import AnonReq.Foundation.Redaction
import Mathlib.Data.Prod.Lex

/-!
# Scrubbing the texts of a log record

`_redact_text` of `logging_config.py`: the text is cut, secrets are substituted, and what the
recognizers find in the rest, and two filters accept, is replaced.

* `scannedText` is the text in which the recognizers look, `acceptedSpans` is what they find there.
* `sensitiveTexts` is what a text should not leave behind: the matches of the secret patterns, and
  those of the recognizers that pass their checks on their own.
* `Scrubber.Caught` is said of the matches of a text: one that prevails among all of them, and that
  the filters accept, overlaps some positions. `RegexDetector.detect` keeps one of two overlapping
  matches before the filters see it, so that a match may be lost to one they reject.
* `exists_core_of_infix_redactText`: what is left of a text is not caught.
-/

namespace AnonReq.Logging

open Detection Fusion RegexPatterns
open Regex (seqs alts opt atLeast)

/-! ### Patterns -/

/-- What the scrubber gets from its runtime and its configuration: the Unicode tables, `str.lower`,
the German patterns, which are none if the file cannot be read, and the validators. -/
structure Scrubber where
  unicode : Unicode
  digits : DigitTables
  lower : Text → Text
  germanPatterns : PatternTable
  checksums : ChecksumValidatorRegistry

variable (L : Scrubber)

/-- A class compiled with `re.IGNORECASE`, given by its characters. -/
def Scrubber.ignoreCase (chars : String) (c : Char) : Bool :=
  chars.toList.any fun k => L.unicode.sameCase k c

/-- The characters of `[A-Za-z0-9]`. -/
def alnumChars : String := "ABCDEFGHIJKLMNOPQRSTUVWXYZabcdefghijklmnopqrstuvwxyz0123456789"

/-- A literal compiled with `re.IGNORECASE`. -/
def Scrubber.keyword (chars : String) : Regex Char :=
  Regex.word L.unicode.sameCase chars.toList

/-- `_SECRET_PATTERNS` -/
def Scrubber.secretPatterns : List CompiledPattern :=
  [.ofRegex (seqs
    [boundary L.unicode, L.keyword "sk-", atLeast 8 (.one (L.ignoreCase alnumChars)),
      boundary L.unicode]),
   .ofRegex (seqs
    [boundary L.unicode, L.keyword "Bearer", atLeast 1 (spaceOr ""),
      atLeast 8 (.one (L.ignoreCase (alnumChars ++ "._-+/="))), boundary L.unicode])]

/-- `_KEY_VALUE_PATTERN` -/
def Scrubber.keyValuePattern : CompiledPattern :=
  .ofRegex (seqs
    [boundary L.unicode,
      alts
        [seqs [L.keyword "api", opt (oneOf "_-"), L.keyword "key"], L.keyword "secret",
          L.keyword "token"]
        (L.keyword "password"),
      atLeast 0 (spaceOr ""), oneOf ":=", atLeast 0 (spaceOr ""),
      atLeast 1 (.one fun c => !(Text.isSpace c || ",'\"".toList.contains c))])

/-- The first group of a match of `_KEY_VALUE_PATTERN`: no key has a space or a sign of the
separator in it. -/
def keyOfMatch (found : Text) : Text :=
  found.takeWhile fun c => !(Text.isSpace c || c == ':' || c == '=')

/-- `_REDACTED` -/
def redacted : Text := "[REDACTED]".toList

/-- `_TRUNCATED` -/
def truncated : Text := "[TRUNCATED]".toList

/-- `LOG_SCRUB_MAX_CHARS` -/
def logScrubMaxChars : ℕ := 4096

/-- The characters of a match. -/
def matchText (text : Text) (m : ℕ × ℕ) : Text := (text.take m.2).drop m.1

/-- `pattern.sub`, where the replacement depends on the characters of a match. -/
def substitute (pattern : CompiledPattern) (replace : Text → Text) (text : Text) : Text :=
  Redaction.weave text 0
    ((pattern.finditer text).map fun m => ⟨m.1, m.2, replace (matchText text m)⟩)

/-! ### Filters -/

/-- `_plausible_phone`. -/
def Scrubber.plausiblePhone (text : Text) (start stop : ℕ) : Bool :=
  let span := matchText text (start, stop)
  -- slices of timestamps, of UUIDs and of runs of digits
  if (span.filter L.digits.isDigit).length < 10 then false
  else if !span.any fun c => "+().-".toList.contains c || Text.isSpace c then false
  else if 0 < start && text[start - 1]?.any (":-_./".toList.contains ·) then false
  else !text[stop]?.any ("-_".toList.contains ·)

/-- `_CHECKSUM_ENTITY_TYPES` -/
def checksumEntityTypes : List (String × String) :=
  [("IBAN_CODE", "IBAN_DE"), ("IBAN_DE", "IBAN_DE"), ("TAX_ID_DE", "TAX_ID_DE"),
    ("PERSONAL_AUSWEIS", "PERSONAL_AUSWEIS"), ("KVNR", "KVNR")]

/-- `_checksum_accepts`. -/
def Scrubber.checksumAccepts (entityType : String) (value : Text) : Bool :=
  match checksumEntityTypes.lookup entityType with
  | none => true
  | some validatorId =>
    match L.checksums.get L.unicode validatorId with
    | none => true
    | some validate => validate value

/-- Neither filter of `_redact_text` rejects what is found from a position to another. -/
def Scrubber.passes (text : Text) (entityType : String) (start stop : ℕ) : Bool :=
  if entityType = "PHONE_NUMBER" && !L.plausiblePhone text start stop then false
  else L.checksumAccepts entityType (matchText text (start, stop))

/-! ### Redacting a text -/

/-- The text after the cut and the substitutions, in which the recognizers look. -/
def Scrubber.scannedText (value : Text) : Text :=
  let value := value.take logScrubMaxChars
  let withoutSecrets := L.secretPatterns.foldl
    (fun text pattern => substitute pattern (fun _ => redacted) text) value
  substitute L.keyValuePattern (fun found => keyOfMatch found ++ '=' :: redacted) withoutSecrets

/-- `_PII_DETECTOR` -/
def Scrubber.piiDetector : RegexDetector := ⟨patterns L.unicode⟩

/-- The patterns that run: the built-in ones and the German ones. -/
def Scrubber.table : PatternTable := L.piiDetector.table (some L.germanPatterns)

/-- The loop over the detections in a text: those that the filters accept. The detector raises
where the Luhn check does. -/
def Scrubber.acceptedSpans (text : Text) : Option (List (ℕ × ℕ)) :=
  (L.piiDetector.detect L.digits text (some L.germanPatterns)).map fun detections =>
    (detections.filter fun detection =>
      L.passes text detection.entityType detection.start.toNat detection.stop.toNat).map
      fun detection => (detection.start.toNat, detection.stop.toNat)

/-- The order of `sorted(spans)`. -/
def spanBefore (a b : ℕ × ℕ) : Prop := toLex a ≤ toLex b

instance : DecidableRel spanBefore := fun a b => inferInstanceAs (Decidable (toLex a ≤ toLex b))

/-- The spans, sorted and merged where they touch, with what replaces them. -/
def redactions (spans : List (ℕ × ℕ)) : List (Redaction.Patch Char) :=
  (Intervals.merge (spans.insertionSort spanBefore)).map fun range => ⟨range.1, range.2, redacted⟩

/-- `_redact_text`. Where there are no spans, the text is left as it is. -/
def Scrubber.redactText (value : Text) : Option Text :=
  let text := L.scannedText value
  (L.acceptedSpans text).map fun spans =>
    let result := Redaction.weave text 0 (redactions spans)
    if logScrubMaxChars < value.length then result ++ truncated else result

/-! ### What a text should not leave behind -/

/-- A match is accepted on its own: it passes the Luhn check and the filters. -/
def Scrubber.acceptsAlone (text : Text) (hit : Hit) : Bool :=
  acceptsHit L.digits text hit == some true && L.passes text hit.entityType hit.start hit.stop

/-- The characters of the matches of the secret patterns, and of the matches of the recognizers
that are accepted on their own, in the whole of a text. -/
def Scrubber.sensitiveTexts (value : Text) : List Text :=
  (L.secretPatterns.flatMap fun pattern => (pattern.finditer value).map (matchText value)) ++
    ((hits L.table value).filter (L.acceptsAlone value)).map
      fun hit => matchText value (hit.start, hit.stop)

/-- What takes the place of something. -/
def IsMarker (t : Text) : Prop := t = redacted ∨ t = truncated

/-- One of the characters from a position to another is one of an accepted match that prevails over
those it overlaps, and that the filters accept; or the Luhn check raises on a match. -/
def Scrubber.Caught (text : Text) (lo hi : ℕ) : Prop :=
  Raises L.digits L.table text ∨
    ∃ s, Prevails Span.extent spanRank (arrivals L.digits L.table text) s ∧
      L.passes text s.entityType s.start.toNat s.stop.toNat = true ∧
      Intervals.Meets lo hi (s.start.toNat, s.stop.toNat)

/-- Every overlap of accepted matches is resolved by the two. -/
def Scrubber.MatchesResolved (text : Text) : Prop :=
  Resolved Span.extent spanRank (arrivals L.digits L.table text)

/-! ### What is left of a text -/

instance : IsTrans (ℕ × ℕ) spanBefore := ⟨fun _ _ _ hab hbc => le_trans hab hbc⟩

instance : Std.Total spanBefore := ⟨fun a b => le_total (toLex a) (toLex b)⟩

theorem insertionSort_sorted (spans : List (ℕ × ℕ)) :
    (spans.insertionSort spanBefore).Pairwise fun r r' => r.1 ≤ r'.1 := by
  refine (List.pairwise_insertionSort spanBefore spans).imp fun {a b} hab => ?_
  obtain hlt | ⟨heq, -⟩ := Prod.Lex.le_iff.mp hab
  · exact Nat.le_of_lt hlt
  · exact Nat.le_of_eq heq

variable {L} {spans : List (ℕ × ℕ)}

/-- What is replaced are the matches that the detector selects and the filters accept. -/
theorem mem_acceptedSpans_iff {text : Text} (h : L.acceptedSpans text = some spans)
    (htext : text ≠ []) {span : ℕ × ℕ} :
    span ∈ spans ↔ ∃ s ∈ select Span.extent spanRank (arrivals L.digits L.table text),
      L.passes text s.entityType s.start.toNat s.stop.toNat = true ∧
        (s.start.toNat, s.stop.toNat) = span := by
  obtain ⟨detections, hdetect, rfl⟩ := Option.map_eq_some_iff.mp h
  simp only [List.mem_map, List.mem_filter, mem_detect_iff hdetect (Or.inl htext), and_assoc]
  rfl

theorem acceptedSpans_eq_none_iff {text : Text} :
    L.acceptedSpans text = none ↔ Raises L.digits L.table text :=
  Option.map_eq_none_iff.trans detect_eq_none_iff

theorem bounds_of_mem_acceptedSpans {text : Text} (h : L.acceptedSpans text = some spans) :
    ∀ span ∈ spans, span.1 ≤ span.2 ∧ span.2 ≤ text.length := by
  obtain ⟨detections, hdetect, rfl⟩ := Option.map_eq_some_iff.mp h
  intro span hspan
  obtain ⟨detection, hdetection, rfl⟩ := List.mem_map.mp hspan
  have hmem := mem_acceptedSpans_of_mem_detect hdetect (List.mem_of_mem_filter hdetection)
  obtain ⟨-, hle, hlength⟩ := Detection.bounds_of_mem_acceptedSpans hmem
  exact ⟨Int.toNat_le_toNat hle, Int.toNat_le.mpr hlength⟩

/-- What is caught is replaced. -/
theorem Scrubber.Caught.exists_meets {text : Text} {lo hi : ℕ} (h : L.Caught text lo hi)
    (hspans : L.acceptedSpans text = some spans) (htext : text ≠ []) :
    ∃ span ∈ spans, Intervals.Meets lo hi span := by
  obtain hraises | ⟨s, hs, hpasses, hmeets⟩ := h
  · exact nomatch (acceptedSpans_eq_none_iff.mpr hraises).symm.trans hspans
  · exact ⟨_, (mem_acceptedSpans_iff hspans htext).mpr
      ⟨s, hs.mem_select (sorted_arrivals _ _ _), hpasses, rfl⟩, hmeets⟩

/-- Where every overlap is resolved by the two matches, what is replaced is caught. -/
theorem Scrubber.MatchesResolved.caught {text : Text} (h : L.MatchesResolved text)
    (hspans : L.acceptedSpans text = some spans) (htext : text ≠ []) {lo hi : ℕ} {span : ℕ × ℕ}
    (hspan : span ∈ spans) (hmeets : Intervals.Meets lo hi span) :
    L.Caught text lo hi := by
  obtain ⟨s, hs, hpasses, rfl⟩ := (mem_acceptedSpans_iff hspans htext).mp hspan
  exact Or.inr ⟨s, h s (unbeaten_of_mem_select (sorted_arrivals _ _ _) hs), hpasses, hmeets⟩

/-- The spans that are replaced stand apart, from left to right. -/
theorem redactions_spec {text : Text} (h : L.acceptedSpans text = some spans) :
    (redactions spans).Pairwise (fun p q => p.stop ≤ q.start) ∧
      ∀ p ∈ redactions spans, p.start ≤ p.stop ∧ p.stop ≤ text.length ∧ p.token = redacted := by
  refine ⟨List.pairwise_map.mpr ((Intervals.merge_apart (insertionSort_sorted spans)).imp
    fun hlt => Nat.le_of_lt hlt), fun p hp => ?_⟩
  obtain ⟨range, hrange, rfl⟩ := List.mem_map.mp hp
  have hbounds : ∀ r ∈ spans.insertionSort spanBefore, r.1 ≤ r.2 ∧ r.2 ≤ text.length :=
    fun r hr => bounds_of_mem_acceptedSpans h r ((List.mem_insertionSort _).mp hr)
  have hrange := Intervals.forall_mem_merge (P := fun r => r.1 ≤ r.2 ∧ r.2 ≤ text.length)
    (fun r s hr hs => ⟨le_max_of_le_left hr.1, max_le hr.2 hs.2⟩) hbounds range hrange
  exact ⟨hrange.1, hrange.2, rfl⟩

/-- Spans that touch are merged, which makes no difference for what overlaps them. -/
theorem exists_meets_redactions {lo hi : ℕ} (h : lo < hi) :
    (∃ p ∈ redactions spans, Intervals.Meets lo hi (p.start, p.stop)) ↔
      ∃ span ∈ spans, Intervals.Meets lo hi span := by
  have hmerge := Intervals.exists_mem_merge (Intervals.additive_meets h)
    (insertionSort_sorted spans)
  simp only [List.mem_insertionSort] at hmerge
  rw [← hmerge, redactions]
  constructor
  · rintro ⟨p, hp, hmeets⟩
    obtain ⟨range, hrange, rfl⟩ := List.mem_map.mp hp
    exact ⟨range, hrange, hmeets⟩
  · rintro ⟨range, hrange, hmeets⟩
    exact ⟨_, List.mem_map_of_mem hrange, hmeets⟩

/-- **What is left of a text.** A text that is not made of markers occurs in what is returned only
if its core occurs, in the text in which the recognizers look, where it is not caught. -/
theorem exists_core_of_infix_redactText {value out x : Text} (h : L.redactText value = some out)
    (hx : Redaction.Foreign IsMarker x) (hwithin : x <:+: out) :
    ∃ w i, Redaction.Core IsMarker x w ∧ w <+: (L.scannedText value).drop i ∧
      ¬ L.Caught (L.scannedText value) i (i + w.length) := by
  obtain ⟨spans, hspans, hout⟩ := Option.map_eq_some_iff.mp h
  obtain ⟨hpairwise, hpatches⟩ := redactions_spec hspans
  -- the marker of the cut is one more patch, at the end
  obtain ⟨last, hweave, hlast⟩ : ∃ last : List (Redaction.Patch Char),
      out = Redaction.weave (L.scannedText value) 0 (redactions spans ++ last) ∧
        (last = [] ∨
          last = [⟨(L.scannedText value).length, (L.scannedText value).length, truncated⟩]) := by
    split_ifs at hout
    · exact ⟨_, hout.symm.trans (Redaction.weave_concat _ _ _ _).symm, Or.inr rfl⟩
    · exact ⟨[], hout.symm.trans (by rw [List.append_nil]), Or.inl rfl⟩
  have hends : ∀ p ∈ last, p.start = (L.scannedText value).length ∧ p.start = p.stop ∧
      p.token = truncated := by
    obtain rfl | rfl := hlast <;> simp
  have hpairwise' : (redactions spans ++ last).Pairwise fun p q => p.stop ≤ q.start := by
    refine List.pairwise_append.mpr ⟨hpairwise, ?_, fun p hp q hq => ?_⟩
    · obtain rfl | rfl := hlast <;> simp
    · rw [(hends q hq).1]
      exact (hpatches p hp).2.1
  obtain ⟨w, i, hcore, -, hprefix, hapart⟩ := Redaction.exists_core_of_infix_weave hx
    (Or.inl rfl)
    (List.forall_mem_append.mpr
      ⟨fun p hp => Or.inl (hpatches p hp).2.2, fun p hp => Or.inr (hends p hp).2.2⟩) hpairwise'
    (List.forall_mem_append.mpr ⟨fun p hp => (hpatches p hp).1, fun p hp => (hends p hp).2.1.le⟩)
    (fun p _ => Nat.zero_le _) (hweave ▸ hwithin)
  refine ⟨w, i, hcore, hprefix, fun hcaught => ?_⟩
  have hpos := List.length_pos_of_ne_nil hcore.1
  have htext : L.scannedText value ≠ [] := by
    intro hnil
    rw [hnil, List.drop_nil] at hprefix
    exact hcore.1 (List.prefix_nil.mp hprefix)
  obtain ⟨p, hp, hmeets⟩ := (exists_meets_redactions (by omega)).mpr
    (hcaught.exists_meets hspans htext)
  have := hapart p (List.mem_append_left _ hp)
  simp only [Intervals.Meets] at hmeets
  omega

/-- What occurs where nothing is replaced is left. -/
theorem infix_redactText {value out x : Text} (h : L.redactText value = some out) (hx : x ≠ [])
    (hresolved : L.MatchesResolved (L.scannedText value)) {i : ℕ}
    (hstart : x <+: (L.scannedText value).drop i)
    (hleft : ¬ L.Caught (L.scannedText value) i (i + x.length)) : x <:+: out := by
  obtain ⟨spans, hspans, hout⟩ := Option.map_eq_some_iff.mp h
  have hpos := List.length_pos_of_ne_nil hx
  have htext : L.scannedText value ≠ [] := by
    intro hnil
    rw [hnil, List.drop_nil] at hstart
    exact hx (List.prefix_nil.mp hstart)
  have hweave : x <:+: Redaction.weave (L.scannedText value) 0 (redactions spans) := by
    refine Redaction.infix_weave hx (Nat.zero_le i) hstart fun p hp => ?_
    by_contra hmeets
    obtain ⟨span, hspan, hmeets⟩ := (exists_meets_redactions (by omega)).mp
      ⟨p, hp, (by simp only [Intervals.Meets]; omega : Intervals.Meets i (i + x.length) _)⟩
    exact hleft (hresolved.caught hspans htext hspan hmeets)
  rw [← hout]
  split_ifs
  · exact hweave.trans (List.prefix_append _ _).isInfix
  · exact hweave

end AnonReq.Logging
