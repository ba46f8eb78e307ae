import Mathlib.Data.List.Sort
import Mathlib.Tactic.IntervalCases
import AnonReq.Foundation.Characters
import AnonReq.Foundation.Dict
import AnonReq.Foundation.Splitting

/-!
# The tokenizer

`tokenization/tokenizer.py` and the loop of `TokenizationStage.execute`
(`pipeline/tokenization.py`): detected spans are replaced by tokens `[TYPE_N]`, one token for each
value of a session.

* `nonOverlapping_pairwise`: the accepted spans of a text stand apart, from left to right.
* `tokenText_inj`: a token determines its type and its index.
-/

namespace AnonReq.Tokenization

/-! ### Spans -/

/-- A detection as the tokenizer reads it. A bound is `none` where the key is missing or its value
is not a number. -/
structure Detection where
  entityType : Text
  start : Option ℤ
  stop : Option ℤ
  reversible : Bool := true
  isProtected : Bool := false

/-- A span that lies within a text of the given length. -/
structure ValidSpan (length : ℕ) where
  entityType : Text
  start : ℕ
  stop : ℕ
  reversible : Bool
  isProtected : Bool
  start_lt_stop : start < stop
  stop_le : stop ≤ length

/-- The checks on a span; an invalid span is ignored. -/
def Detection.validate (length : ℕ) (d : Detection) : Option (ValidSpan length) :=
  match d.start, d.stop with
  | some start, some stop =>
    if h : ¬ (start < 0 ∨ stop < 0 ∨ stop ≤ start ∨ (length : ℤ) < stop) then
      some
        { entityType := d.entityType
          start := start.toNat
          stop := stop.toNat
          reversible := d.reversible
          isProtected := d.isProtected
          start_lt_stop := by omega
          stop_le := by omega }
    else none
  | _, _ => none

variable {length : ℕ}

/-- By start; of spans with one start the longest first. -/
def ValidSpan.before (a b : ValidSpan length) : Prop :=
  a.start < b.start ∨ (a.start = b.start ∧ b.stop ≤ a.stop)

instance : DecidableRel (@ValidSpan.before length) :=
  fun _ _ => inferInstanceAs (Decidable (_ ∨ _))

/-- The accepted spans, the last one first, after one more: a span that overlaps the last one is
merged into it. -/
def accept (accepted : List (ValidSpan length)) (span : ValidSpan length) :
    List (ValidSpan length) :=
  match accepted with
  | [] => [span]
  | last :: rest =>
    if span.start < last.stop then
      { last with
        stop := max last.stop span.stop
        reversible := last.reversible && span.reversible
        isProtected := last.isProtected || span.isProtected
        start_lt_stop := lt_of_lt_of_le last.start_lt_stop (le_max_left _ _)
        stop_le := max_le last.stop_le span.stop_le } :: rest
    else span :: last :: rest

/-- `_non_overlapping`. -/
def nonOverlapping (text : Text) (detections : List Detection) : List (ValidSpan text.length) :=
  (((detections.filterMap (Detection.validate text.length)).insertionSort
    ValidSpan.before).foldl accept []).reverse

/-! ### Tokens -/

/-- `[TYPE_N]`. -/
def tokenText (short : Text) (index : ℕ) : Text :=
  '[' :: short ++ '_' :: Nat.toDigits 10 index ++ [']']

/-- The session state of a `Tokenizer`. -/
structure Tokenizer where
  perTypeCounters : List (Text × ℕ)
  valueToToken : List ((Text × Bool) × Text)
  seed : ℕ

/-- `initialize_session`, with the random bits it draws. -/
def initializeSession (randomBits : Fin (2 ^ 64)) : Tokenizer := ⟨[], [], randomBits⟩

/-- `_token_for`: the token of a value, the session after it, and the mapping after it. -/
def tokenFor (t : Tokenizer) (originalValue entityType : Text) (reversible : Bool)
    (mapping : List (Text × Text)) : Text × Tokenizer × List (Text × Text) :=
  match Dict.get t.valueToToken (originalValue, reversible) with
  | some token => (token, t, mapping)
  | none =>
    let short := entityType.take 20
    let counter := (Dict.get t.perTypeCounters short).getD 0
    let token := tokenText short (t.seed + counter)
    (token,
      { t with
        valueToToken := Dict.set t.valueToToken (originalValue, reversible) token
        perTypeCounters := Dict.set t.perTypeCounters short (counter + 1) },
      if reversible then Dict.set mapping token originalValue else mapping)

/-- The pass of `tokenize` over the accepted spans, from the cursor on. -/
def replaceSpans (text : Text) : Tokenizer → ℕ → List (Text × Text) →
    List (ValidSpan text.length) → Text × Tokenizer × List (Text × Text)
  | t, cursor, mapping, [] => (text.drop cursor, t, mapping)
  | t, cursor, mapping, span :: spans =>
    let gap := (text.take span.start).drop cursor
    let value := (text.take span.stop).drop span.start
    let issued := tokenFor t value span.entityType span.reversible mapping
    let rest := replaceSpans text issued.2.1 span.stop issued.2.2 spans
    (gap ++ issued.1 ++ rest.1, rest.2)

/-- `tokenize`: the text with its tokens, the session after it, and the mapping of new tokens. -/
def tokenize (t : Tokenizer) (text : Text) (detections : List Detection) :
    Text × Tokenizer × List (Text × Text) :=
  if detections.isEmpty then (text, t, [])
  else replaceSpans text t 0 [] (nonOverlapping text detections)

/-- A text node with its detections. -/
structure Node where
  value : Text
  detections : List Detection

/-- The loop of `TokenizationStage.execute` over the text nodes: the tokenized texts, and the
mappings of all nodes merged. -/
def tokenizeNodes : Tokenizer → List (Text × Text) → List Node → List Text × List (Text × Text)
  | _, allMappings, [] => ([], allMappings)
  | t, allMappings, node :: nodes =>
    if node.detections.isEmpty then
      let rest := tokenizeNodes t allMappings nodes
      (node.value :: rest.1, rest.2)
    else
      let r := tokenize t node.value node.detections
      let rest := tokenizeNodes r.2.1 (Dict.update allMappings r.2.2) nodes
      (r.1 :: rest.1, rest.2)

/-- A session of `TokenizationStage` over the nodes of a request. -/
def tokenizeSession (randomBits : Fin (2 ^ 64)) (nodes : List Node) :
    List Text × List (Text × Text) :=
  tokenizeNodes (initializeSession randomBits) [] nodes

/-! ### The accepted spans -/

/-- A span that is placed after those accepted so far keeps them apart. -/
private theorem accept_pairwise {accepted : List (ValidSpan length)} {span : ValidSpan length}
    (h : accepted.Pairwise fun a b => b.stop ≤ a.start) :
    (accept accepted span).Pairwise fun a b => b.stop ≤ a.start := by
  cases accepted with
  | nil => exact List.pairwise_singleton _ _
  | cons last rest =>
    obtain ⟨hlast, hrest⟩ := List.pairwise_cons.mp h
    unfold accept
    dsimp only
    split_ifs with hoverlap
    · exact List.pairwise_cons.mpr ⟨hlast, hrest⟩
    · refine List.pairwise_cons.mpr ⟨fun b hb => ?_, h⟩
      obtain rfl | hb := List.mem_cons.mp hb
      · omega
      · have hb : b.stop ≤ last.start := hlast b hb
        have hlt := last.start_lt_stop
        omega

/-- **The accepted spans stand apart, from left to right.** -/
theorem nonOverlapping_pairwise (text : Text) (detections : List Detection) :
    (nonOverlapping text detections).Pairwise fun a b => a.stop ≤ b.start := by
  have hfold : ∀ (spans accepted : List (ValidSpan text.length)),
      accepted.Pairwise (fun a b => b.stop ≤ a.start) →
      (spans.foldl accept accepted).Pairwise fun a b => b.stop ≤ a.start := by
    intro spans
    induction spans with
    | nil => exact fun _ h => h
    | cons span spans ih => exact fun accepted h => ih _ (accept_pairwise h)
  exact List.pairwise_reverse.mpr (hfold _ [] List.Pairwise.nil)

/-! ### Reading a token -/

theorem toDigits_injective : Function.Injective (Nat.toDigits 10) := fun n m h => by
  have hvalue := congrArg (fun s => Nat.ofDigitChars 10 s 0) h
  simpa using hvalue

/-- **A token determines its type and its index.** -/
theorem tokenText_inj {short short' : Text} {index index' : ℕ}
    (h : tokenText short index = tokenText short' index') : short = short' ∧ index = index' := by
  have hbody := (List.append_inj' h rfl).1
  rw [List.cons_append, List.cons_append] at hbody
  obtain ⟨hshort, hdigits⟩ := Splitting.append_cons_inj_of_back
    Nat.underscore_not_in_toDigits Nat.underscore_not_in_toDigits (List.cons.inj hbody).2
  exact ⟨hshort, toDigits_injective hdigits⟩

theorem mem_tokenMarks_of_mem_toDigits {n : ℕ} {c : Char} (h : c ∈ Nat.toDigits 10 n) :
    c ∈ tokenMarks := by
  have hdigit : c.isDigit = true := Nat.isDigit_of_mem_toDigits (by omega) (by omega) h
  simp only [Char.isDigit, Bool.and_eq_true, decide_eq_true_eq, ge_iff_le,
    UInt32.le_iff_toNat_le] at hdigit
  have hlo : 48 ≤ c.toNat := hdigit.1
  have hhi : c.toNat ≤ 57 := hdigit.2
  rw [← Char.ofNat_toNat c]
  interval_cases c.toNat <;> decide

/-- Folding a token folds its type. -/
theorem foldText_tokenText (u : Unicode) (short : Text) (index : ℕ) :
    u.foldText (tokenText short index) = tokenText (u.foldText short) index := by
  have hopen : u.foldText ['['] = ['['] :=
    u.foldText_of_marks (List.forall_mem_singleton.mpr (by decide))
  have hrest : u.foldText ('_' :: Nat.toDigits 10 index ++ [']']) =
      '_' :: Nat.toDigits 10 index ++ [']'] := by
    refine u.foldText_of_marks fun c hc => ?_
    obtain hc | hc := List.mem_append.mp hc
    · obtain rfl | hc := List.mem_cons.mp hc
      · decide
      · exact mem_tokenMarks_of_mem_toDigits hc
    · obtain rfl := List.mem_singleton.mp hc
      decide
  have hsplit : ∀ s : Text, tokenText s index =
      ['['] ++ (s ++ ('_' :: Nat.toDigits 10 index ++ [']'])) := fun s => by simp [tokenText]
  rw [hsplit, hsplit, u.foldText_append, u.foldText_append, hopen, hrest]

end AnonReq.Tokenization
