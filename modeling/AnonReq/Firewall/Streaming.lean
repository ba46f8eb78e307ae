import AnonReq.Firewall.Engine
import AnonReq.Foundation.Utf8
import AnonReq.Foundation.Window

/-!
# The firewall on a stream

`firewall/streaming.py`: the chunks of a stream are decoded one by one and joined to a buffer, of
which the last characters are kept and given to the rules.

* `mem_run_iff`: after every chunk the rules are given the end of what was decoded so far.
* `detects_iff`: a literal is detected if and only if after some chunk the decoded text ends within
  the window that begins with an occurrence.
* `detects_of_short`: chunks of whole characters that are short enough miss nothing.
-/

namespace AnonReq.Firewall

open Utf8

/-! ### The model -/

/-- `SlidingWindowDetector`. -/
structure SlidingWindowDetector where
  engine : FirewallRuleEngine
  windowSize : ℕ := 2048
  buffer : Text := []

namespace SlidingWindowDetector

/-- `SlidingWindowDetector.ingest`. -/
def ingest (d : SlidingWindowDetector) (chunk : Text) :
    List DetectionResult × SlidingWindowDetector :=
  let buffer := d.buffer ++ chunk
  let buffer :=
    if d.windowSize < buffer.length then buffer.drop (buffer.length - d.windowSize) else buffer
  (d.engine.evaluate buffer, { d with buffer := buffer })

/-- `StreamingFirewallDetector.process_chunk`. -/
def processChunk (d : SlidingWindowDetector) (chunk : List UInt8) :
    (List UInt8 × List DetectionResult) × SlidingWindowDetector :=
  let text := decodeReplace chunk
  let (results, d) := d.ingest text
  ((chunk, results), d)

/-- The results of the chunks of a stream, in their order. -/
def run : SlidingWindowDetector → List (List UInt8) → List (List DetectionResult)
  | _, [] => []
  | d, chunk :: chunks =>
    let ((_, results), d) := d.processChunk chunk
    results :: run d chunks

end SlidingWindowDetector

/-- What a pattern that lists literals finds in a text: at the first position at which one of them
stands, the first of them. -/
def searchLiterals (literals : List Text) (text : Text) : Option Text :=
  text.tails.findSome? fun s => literals.find? fun l => l.isPrefixOf s

/-- An engine whose only rule lists literals, which all reach its threshold. -/
structure LiteralRule where
  rule : FirewallRule
  categoryConfig : DetectionCategory → Option RuleCategoryConfig
  literals : List Text
  pattern_isSome : rule.pattern.isSome = true
  enabled : rule.enabled = true
  category_enabled :
    ((categoryConfig rule.category).map RuleCategoryConfig.enabled).getD true = true
  reaches : ∀ l ∈ literals,
    ((categoryConfig rule.category).map RuleCategoryConfig.threshold).getD (17 / 20) ≤
      matchScore l.length

namespace LiteralRule

/-- The engine. -/
def engine (r : LiteralRule) : FirewallRuleEngine :=
  .init [r.rule] r.categoryConfig fun _ => searchLiterals r.literals

/-- Some chunk of the stream has a result of the rule. -/
def Detects (r : LiteralRule) (windowSize : ℕ) (chunks : List (List UInt8)) : Prop :=
  ∃ results ∈ ({ engine := r.engine, windowSize } : SlidingWindowDetector).run chunks,
    ∃ result ∈ results, result.ruleId = some r.rule.ruleId

instance (r : LiteralRule) (windowSize : ℕ) (chunks : List (List UInt8)) :
    Decidable (r.Detects windowSize chunks) :=
  inferInstanceAs (Decidable (∃ results ∈ _, ∃ result ∈ results, _ = _))

end LiteralRule

/-- The text the detector reads: what the chunks are decoded to, one by one. -/
def decodedText (chunks : List (List UInt8)) : Text := chunks.flatMap decodeReplace

/-- After some chunk, the decoded text ends within the window that begins with an occurrence of one
of the literals, and not before the occurrence does. -/
def Seen (literals : List Text) (windowSize : ℕ) (chunks : List (List UInt8)) : Prop :=
  ∃ done chunk rest, chunks = done ++ chunk :: rest ∧
    ∃ l ∈ literals, ∃ pre post, decodedText (done ++ [chunk]) = pre ++ l ++ post ∧
      (l ++ post).length ≤ windowSize

/-! ### One rule -/

theorem searchLiterals_isSome_iff {literals : List Text} {text : Text} :
    (searchLiterals literals text).isSome ↔ ∃ l ∈ literals, l <:+: text := by
  simp only [searchLiterals, List.findSome?_isSome_iff, List.mem_tails, List.find?_isSome,
    List.isPrefixOf_iff_prefix]
  constructor
  · rintro ⟨s, hs, l, hl, hstarts⟩
    exact ⟨l, hl, hstarts.isInfix.trans hs.isInfix⟩
  · rintro ⟨l, hl, pre, post, rfl⟩
    exact ⟨l ++ post, ⟨pre, by simp⟩, l, hl, List.prefix_append l post⟩

theorem mem_of_searchLiterals {literals : List Text} {text l : Text}
    (h : searchLiterals literals text = some l) : l ∈ literals := by
  obtain ⟨s, -, hs⟩ := List.exists_of_findSome?_eq_some h
  exact List.mem_of_find?_eq_some hs

/-- A result names the rule that reports it. -/
theorem FirewallRuleEngine.ruleId_of_detect {engine : FirewallRuleEngine} {text : Text}
    {rule : FirewallRule} {result : DetectionResult} (h : engine.detect text rule = some result) :
    result.ruleId = some rule.ruleId := by
  rw [detect] at h
  split_ifs at h
  obtain ⟨found, -, hfound⟩ := Option.bind_eq_some_iff.mp h
  split_ifs at hfound
  obtain rfl := Option.some.inj hfound
  rfl

namespace LiteralRule

variable {r : LiteralRule}

theorem rules_engine (r : LiteralRule) : r.engine.rules = [r.rule] := List.mergeSort_singleton _

theorem detect_isSome_iff {text : Text} :
    (r.engine.detect text r.rule).isSome ↔ ∃ l ∈ r.literals, l <:+: text := by
  obtain ⟨pattern, hpattern⟩ := Option.isSome_iff_exists.mp r.pattern_isSome
  rw [FirewallRuleEngine.detect_isSome_iff, ← searchLiterals_isSome_iff,
    Option.isSome_iff_exists]
  constructor
  · rintro ⟨-, -, _, found, -, hfound, -⟩
    exact ⟨found, hfound⟩
  · rintro ⟨found, hfound⟩
    exact ⟨r.enabled, r.category_enabled, pattern, found, hpattern, hfound,
      r.reaches found (mem_of_searchLiterals hfound)⟩

/-- The engine reports the rule for the texts that contain one of the literals. -/
theorem exists_mem_evaluate_iff {text : Text} :
    (∃ result ∈ r.engine.evaluate text, result.ruleId = some r.rule.ruleId) ↔
      ∃ l ∈ r.literals, l <:+: text := by
  rw [← detect_isSome_iff, FirewallRuleEngine.evaluate, rules_engine]
  obtain hnone | ⟨result, hresult⟩ := Option.eq_none_or_eq_some (r.engine.detect text r.rule)
  · rw [List.filterMap_cons_none hnone, hnone]
    simp [FirewallRuleEngine.deduplicateByCategory, Dict.keepBest]
  · rw [List.filterMap_cons_some hresult, hresult]
    refine iff_of_true ⟨result, List.mem_singleton_self result, ?_⟩ rfl
    exact FirewallRuleEngine.ruleId_of_detect hresult

end LiteralRule

/-! ### The window -/

theorem decodedText_append (a b : List (List UInt8)) :
    decodedText (a ++ b) = decodedText a ++ decodedText b :=
  List.flatMap_append

namespace SlidingWindowDetector

/-- A chunk moves the window on. -/
theorem processChunk_eq (d : SlidingWindowDetector) (chunk : List UInt8) :
    d.processChunk chunk =
      ((chunk, d.engine.evaluate ((d.buffer ++ decodeReplace chunk).rtake d.windowSize)),
        { d with buffer := (d.buffer ++ decodeReplace chunk).rtake d.windowSize }) := by
  have hbuffer : ∀ buffer : Text, (if d.windowSize < buffer.length then
      buffer.drop (buffer.length - d.windowSize) else buffer) = buffer.rtake d.windowSize := by
    intro buffer
    split_ifs with hlong
    · rfl
    · exact (List.rtake_of_length_le (not_lt.mp hlong)).symm
  simp only [processChunk, ingest, hbuffer]

/-- **What the rules are given.** After every chunk it is the end of what was decoded so far. -/
theorem mem_run_iff {d : SlidingWindowDetector} {before : List (List UInt8)}
    (hbuffer : d.buffer = (decodedText before).rtake d.windowSize) {chunks : List (List UInt8)}
    {results : List DetectionResult} :
    results ∈ d.run chunks ↔ ∃ done chunk rest, chunks = done ++ chunk :: rest ∧
      results = d.engine.evaluate
        ((decodedText (before ++ (done ++ [chunk]))).rtake d.windowSize) := by
  induction chunks generalizing d before with
  | nil => simp [run]
  | cons chunk chunks ih =>
    have hmoved : (d.buffer ++ decodeReplace chunk).rtake d.windowSize =
        (decodedText (before ++ [chunk])).rtake d.windowSize := by
      rw [hbuffer, List.rtake_append_rtake, decodedText_append, decodedText, decodedText,
        List.flatMap_singleton]
    rw [run, processChunk_eq]
    dsimp only
    have hrest := ih
      (d := { d with buffer := (d.buffer ++ decodeReplace chunk).rtake d.windowSize }) hmoved
    rw [List.mem_cons, hrest, hmoved]
    constructor
    · rintro (rfl | ⟨done, last, rest, rfl, rfl⟩)
      · exact ⟨[], chunk, chunks, rfl, rfl⟩
      · exact ⟨chunk :: done, last, rest, rfl, by simp⟩
    · rintro ⟨done, last, rest, hsplit, rfl⟩
      obtain _ | ⟨first, done⟩ := done
      · obtain ⟨rfl, rfl⟩ := List.cons.inj hsplit
        exact Or.inl rfl
      · obtain ⟨rfl, rfl⟩ := List.cons.inj hsplit
        exact Or.inr ⟨done, last, rest, rfl, by simp⟩

end SlidingWindowDetector

/-- **A literal is detected** if and only if after some chunk the text decoded so far ends within
the window that begins with an occurrence of it. -/
theorem detects_iff (r : LiteralRule) (windowSize : ℕ) (chunks : List (List UInt8)) :
    r.Detects windowSize chunks ↔ Seen r.literals windowSize chunks := by
  have hstart : (decodedText []).rtake windowSize = [] := List.rtake_nil windowSize
  have hrun : ∀ results, results ∈
      ({ engine := r.engine, windowSize } : SlidingWindowDetector).run chunks ↔ _ := fun _ =>
    SlidingWindowDetector.mem_run_iff hstart.symm
  simp only [LiteralRule.Detects, hrun, List.nil_append]
  constructor
  · rintro ⟨_, ⟨done, chunk, rest, hsplit, rfl⟩, hresult⟩
    obtain ⟨l, hl, hwithin⟩ := LiteralRule.exists_mem_evaluate_iff.mp hresult
    exact ⟨done, chunk, rest, hsplit, l, hl, List.infix_rtake_iff.mp hwithin⟩
  · rintro ⟨done, chunk, rest, hsplit, l, hl, hocc⟩
    exact ⟨_, ⟨done, chunk, rest, hsplit, rfl⟩,
      LiteralRule.exists_mem_evaluate_iff.mpr ⟨l, hl, List.infix_rtake_iff.mpr hocc⟩⟩

/-! ### Whole characters -/

theorem decodedText_map_encode (texts : List Text) :
    decodedText (texts.map encode) = texts.flatten := by
  rw [decodedText, List.flatMap_map, List.flatten_eq_flatMap]
  exact List.flatMap_congr fun text _ => decodeReplace_encode text

/-- The part in which a position of a text lies. -/
theorem exists_part {texts : List Text} {n : ℕ} (hpos : 0 < n) (h : n ≤ texts.flatten.length) :
    ∃ done text rest, texts = done ++ text :: rest ∧ done.flatten.length < n ∧
      n ≤ (done ++ [text]).flatten.length := by
  induction texts generalizing n with
  | nil => exact absurd (h.trans_eq List.length_nil) (Nat.not_le.mpr hpos)
  | cons text texts ih =>
    obtain hle | hlt := Nat.lt_or_ge text.length n |>.symm
    · exact ⟨[], text, texts, rfl, hpos, by simpa using hle⟩
    · rw [List.flatten_cons, List.length_append] at h
      obtain ⟨done, last, rest, rfl, hdone, hlast⟩ :=
        ih (n := n - text.length) (by omega) (by omega)
      refine ⟨text :: done, last, rest, rfl, ?_, ?_⟩
      · rw [List.flatten_cons, List.length_append]
        omega
      · rw [List.cons_append, List.flatten_cons, List.length_append]
        omega

/-- **Short chunks of whole characters miss nothing**: it is enough that the window holds a chunk
and all but one character of the literal. -/
theorem detects_of_short {r : LiteralRule} {windowSize : ℕ} {texts : List Text} {l : Text}
    (hl : l ∈ r.literals) (hne : l ≠ []) (hocc : l <:+: texts.flatten)
    (hshort : ∀ text ∈ texts, text.length + l.length ≤ windowSize + 1) :
    r.Detects windowSize (texts.map encode) := by
  rw [detects_iff]
  -- the occurrence is looked for behind the chunk in which it ends
  obtain ⟨pre, post, hsplit⟩ := hocc
  have hpos : 0 < (pre ++ l).length := by
    have := List.length_pos_of_ne_nil hne
    rw [List.length_append]
    omega
  have htotal : (pre ++ l).length ≤ texts.flatten.length := by
    have hparts : (pre ++ l ++ post).length = (pre ++ l).length + post.length :=
      List.length_append
    rw [← hsplit, hparts]
    omega
  obtain ⟨done, text, rest, rfl, hdone, htext⟩ := exists_part hpos htotal
  have hwhole : (done ++ [text]).flatten ++ rest.flatten = pre ++ l ++ post := by
    rw [hsplit]
    simp
  obtain ⟨post', hpost'⟩ : pre ++ l <+: (done ++ [text]).flatten :=
    List.prefix_of_prefix_length_le ⟨post, rfl⟩ ⟨rest.flatten, hwhole⟩ htext
  refine ⟨done.map encode, encode text, rest.map encode, by simp, l, hl, pre, post', ?_, ?_⟩
  · rw [hpost', ← decodedText_map_encode]
    simp
  · have hlength := congrArg List.length hpost'
    have hchunk := hshort text (by simp)
    simp only [List.length_append, List.flatten_append, List.flatten_singleton] at hlength hdone ⊢
    omega

/-- A rule for one word with an accent. -/
def naiveRule : LiteralRule where
  rule := {
    ruleId := "naive"
    category := .promptInjection
    pattern := some "naïve".toList }
  categoryConfig := fun _ => none
  literals := ["naïve".toList]
  pattern_isSome := rfl
  enabled := rfl
  category_enabled := rfl
  reaches := List.forall_mem_singleton.mpr (by decide +kernel)

/-- The word over two chunks that divide no character. -/
theorem detects_of_short_naive :
    naiveRule.Detects 8 (["na".toList, "ïve!".toList].map encode) := by
  have hocc : "naïve".toList <:+: ["na".toList, "ïve!".toList].flatten :=
    ⟨[], "!".toList, by decide⟩
  exact detects_of_short (List.mem_singleton_self _) (by decide) hocc (by decide)

/-! ### What the window misses -/

/-- **The streaming firewall misses nothing that fits its window** exactly if the stream has no
such occurrence, or after some chunk the text decoded so far ends within the window that begins
with an occurrence. -/
theorem detects_fitting_iff (r : LiteralRule) (windowSize : ℕ) (chunks : List (List UInt8)) :
    ((∃ l ∈ r.literals, l.length ≤ windowSize ∧ l <:+: decodeReplace chunks.flatten) →
        r.Detects windowSize chunks) ↔
      (∀ l ∈ r.literals, l.length ≤ windowSize → ¬ l <:+: decodeReplace chunks.flatten) ∨
        Seen r.literals windowSize chunks := by
  rw [detects_iff, imp_iff_not_or]
  simp only [not_exists, not_and]

/-- **A character over two chunks** hides the word it belongs to. -/
theorem not_detects_fitting :
    ¬ ∀ (r : LiteralRule) (windowSize : ℕ) (text : Text) (chunks : List (List UInt8)),
      chunks.flatten = encode text →
      (∃ l ∈ r.literals, l.length ≤ windowSize ∧ l <:+: text) → r.Detects windowSize chunks := by
  intro hall
  have hdetects := hall naiveRule 2048 "naïve".toList [[0x6E, 0x61, 0xC3], [0xAF, 0x76, 0x65]]
    (by decide +kernel) ⟨"naïve".toList, List.mem_singleton_self _, by decide, List.infix_rfl⟩
  exact absurd hdetects (by decide +kernel)

end AnonReq.Firewall
