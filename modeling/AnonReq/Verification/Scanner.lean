import AnonReq.Streaming.Reassembly
import AnonReq.Tokenization.Tokenizer

/-!
# Recognising tokens

`verification/scanner.py` and the residual scan of `RestorationStage` (`pipeline/restoration.py`):
what is left of the tokens in a restored response is counted. The tokens come from
`Tokenizer._token_for`, which cuts the name of an entity type to 20 characters and takes it as it
is; the patterns allow upper case letters and underscores.

* `isToken_iff`: what `TOKEN_PATTERN` matches in whole.
* `mem_positions_of_isToken`: the scanner counts a token wherever it stands.
* `recognised_iff`: a token is recognised, but for its bracket alone, exactly if the type that is
  left of its name is a type of the patterns. Its bracket alone never is.
-/

namespace AnonReq.Verification

open Pattern Streaming Tokenization

variable (u : Unicode)

/-! ### The scanner -/

/-- `TOKEN_PATTERN` of `verification/scanner.py`: `\[[A-Z][A-Z_]{0,49}_\d+\]`. -/
def scannerPattern : List (Item Char) :=
  [literal '[', { cls := Char.isUpper },
    { cls := fun c => c.isUpper || c == '_', least := 0, most := some 49 }, literal '_',
    { cls := u.isDecimal, most := none }, literal ']']

/-- `ScanResult`. -/
structure ScanResult where
  matchCount : ℕ := 0
  found : List Text := []
  positions : List (ℕ × ℕ) := []
deriving DecidableEq, Repr

/-- `ResponseScanner.scan`. -/
def scan (text : Text) : ScanResult :=
  if text.isEmpty then {}
  else
    let spans := findAll (scannerPattern u) 0 0 text
    if spans.isEmpty then {}
    else
      { matchCount := spans.length
        found := spans.map fun span => (text.take span.2).drop span.1
        positions := spans }

/-- `TOKEN_PATTERN` of `models/tokenization.py`, for the residual scan. -/
def residualPattern : List (Item Char) := scannerPattern u

/-- `TOKEN_PATTERN` of `tokenization/tokenizer.py`, without its groups. -/
def tokenizerPattern : List (Item Char) := scannerPattern u

/-- The patterns for complete tokens. -/
def tokenPatterns : List (List (Item Char)) :=
  [tokenPattern u, scannerPattern u, residualPattern u, tokenizerPattern u]

theorem eq_of_mem_tokenPatterns {pattern : List (Item Char)} (h : pattern ∈ tokenPatterns u) :
    pattern = tokenPattern u := by
  simpa [tokenPatterns, scannerPattern, residualPattern, tokenizerPattern, tokenPattern] using h

/-! ### The language of the patterns -/

/-- A type as the patterns have it: an upper case letter, and upper case letters and underscores
after it. -/
def TypeName (type : Text) : Prop :=
  ∃ c rest, type = c :: rest ∧ c.isUpper = true ∧ ∀ d ∈ rest, (d.isUpper || d == '_') = true

/-- The index of a token, and its closing bracket. -/
theorem matches_index_iff {part : Text} :
    Matches [literal '_', { cls := u.isDecimal, most := none }, literal ']'] part ↔
      ∃ digits, part = '_' :: digits ++ [']'] ∧ digits ≠ [] ∧
        ∀ c ∈ digits, u.isDecimal c = true := by
  have hclose : ∀ rest, Matches [literal ']'] rest ↔ rest = [']'] := fun rest => by
    rw [literal, matches_one_iff]
    simp [Matches]
  simp only [literal, matches_one_iff, beq_iff_eq]
  constructor
  · rintro ⟨_, _, rfl, rfl, digits, rest, rfl, ⟨hdigits, hsome, -⟩, hrest⟩
    obtain rfl := (hclose rest).mp hrest
    exact ⟨digits, rfl, List.ne_nil_of_length_pos hsome, hdigits⟩
  · rintro ⟨digits, rfl, hsome, hdigits⟩
    refine ⟨_, _, rfl, rfl, digits, [']'], rfl, ⟨hdigits, List.length_pos_iff.mpr hsome, ?_⟩,
      (hclose [']']).mpr rfl⟩
    exact fun m hm => absurd hm (Option.not_mem_none m)

/-- **What `TOKEN_PATTERN` matches in whole.** -/
theorem isToken_iff {part : Text} :
    IsToken u part ↔ ∃ type digits, part = '[' :: type ++ '_' :: digits ++ [']'] ∧
      TypeName type ∧ type.length ≤ 50 ∧ digits ≠ [] ∧ ∀ c ∈ digits, u.isDecimal c = true := by
  have hfirst : ∀ items rest, Matches ({ cls := Char.isUpper } :: items) rest ↔
      ∃ c more, rest = c :: more ∧ c.isUpper = true ∧ Matches items more :=
    fun _ _ => matches_one_iff
  rw [IsToken, tokenPattern, literal, matches_one_iff]
  simp only [hfirst, beq_iff_eq]
  constructor
  · rintro ⟨_, _, rfl, rfl, c, _, rfl, hc, name, rest, rfl, ⟨hname, -, hlength⟩, hrest⟩
    obtain ⟨digits, rfl, hsome, hdigits⟩ := (matches_index_iff u).mp hrest
    refine ⟨c :: name, digits, by simp, ⟨c, name, rfl, hc, hname⟩, ?_, hsome, hdigits⟩
    exact Nat.succ_le_succ (hlength 49 rfl)
  · rintro ⟨_, digits, rfl, ⟨c, name, rfl, hc, hname⟩, hlength, hsome, hdigits⟩
    refine ⟨_, _, rfl, rfl, c, name ++ '_' :: (digits ++ [']']), by simp, hc, name, _, rfl,
      ⟨hname, Nat.zero_le _, fun m hm => ?_⟩,
      (matches_index_iff u).mpr ⟨digits, rfl, hsome, hdigits⟩⟩
    obtain rfl := Option.some.inj hm
    exact Nat.le_of_succ_le_succ hlength

/-- A token has its only opening bracket in front and its only closing bracket at its end. -/
theorem exists_body_of_isToken (u : DecimalUnicode) {part : Text} (h : IsToken u.toUnicode part) :
    ∃ body, part = '[' :: body ++ [']'] ∧ '[' ∉ body ∧ ']' ∉ body := by
  obtain ⟨_, digits, rfl, ⟨c, name, rfl, hc, hname⟩, -, -, hdigits⟩ := (isToken_iff _).mp h
  have hmark : ∀ mark ∈ ['[', ']'], mark ∉ c :: name ++ '_' :: digits := by
    intro mark hmark hmem
    have hnot : mark.isUpper = false ∧ mark ≠ '_' ∧ u.isDecimal mark = false := by
      obtain rfl | hmark := List.mem_cons.mp hmark
      · exact ⟨rfl, by decide, u.isDecimal_eq _ (by decide)⟩
      · obtain rfl := List.mem_singleton.mp hmark
        exact ⟨rfl, by decide, u.isDecimal_eq _ (by decide)⟩
    simp only [List.cons_append, List.mem_cons, List.mem_append] at hmem
    obtain rfl | hmem | rfl | hmem := hmem
    · exact absurd hc (by simp [hnot.1])
    · exact absurd (hname mark hmem) (by simp [hnot.1, hnot.2.1])
    · exact hnot.2.1 rfl
    · exact absurd (hdigits mark hmem) (by simp [hnot.2.2])
  exact ⟨c :: name ++ '_' :: digits, by simp, hmark '[' (by decide), hmark ']' (by decide)⟩

/-- Two tokens at the front of one text are the same. -/
theorem eq_of_isToken_append (u : DecimalUnicode) {part part' rest rest' : Text}
    (h : IsToken u.toUnicode part) (h' : IsToken u.toUnicode part')
    (htext : part ++ rest = part' ++ rest') : part = part' := by
  obtain ⟨body, rfl, -, hclose⟩ := exists_body_of_isToken u h
  obtain ⟨body', rfl, -, hclose'⟩ := exists_body_of_isToken u h'
  have hbodies : body ++ ']' :: rest = body' ++ ']' :: rest' := by
    simpa using htext
  rw [(Splitting.append_cons_inj_of_front hclose hclose' hbodies).1]

/-- **A token is one match** where it begins, whatever stands after it. -/
theorem head_lengths_of_isToken (u : DecimalUnicode) {part : Text}
    (h : IsToken u.toUnicode part) (rest : Text) :
    (lengths (tokenPattern u.toUnicode) (part ++ rest)).head? = some part.length := by
  have hmem : part.length ∈ lengths (tokenPattern u.toUnicode) (part ++ rest) :=
    mem_lengths_iff.mpr ⟨by simp, by rwa [List.take_left]⟩
  obtain ⟨n, ns, hlengths⟩ := List.exists_cons_of_ne_nil (List.ne_nil_of_mem hmem)
  have hn : n ∈ lengths (tokenPattern u.toUnicode) (part ++ rest) :=
    hlengths ▸ List.mem_cons_self
  obtain ⟨hle, htoken⟩ := mem_lengths_iff.mp hn
  have hsplit : part ++ rest = (part ++ rest).take n ++ (part ++ rest).drop n :=
    (List.take_append_drop n _).symm
  have hsame := eq_of_isToken_append u h htoken hsplit
  rw [hlengths, List.head?_cons, hsame, List.length_take_of_le hle]

/-- No token runs into a text with an opening bracket in front. -/
theorem length_le_of_mem_lengths (u : DecimalUnicode) {b rest : Text} (hb : b ≠ []) {n : ℕ}
    (h : n ∈ lengths (tokenPattern u.toUnicode) (b ++ '[' :: rest)) : n ≤ b.length := by
  by_contra hlonger
  obtain ⟨k, rfl⟩ : ∃ k, n = b.length + (k + 1) := ⟨n - b.length - 1, by omega⟩
  obtain ⟨-, htoken⟩ := mem_lengths_iff.mp h
  rw [List.take_append, List.take_of_length_le (by omega)] at htoken
  obtain ⟨body, hbody, hopen, -⟩ := exists_body_of_isToken u htoken
  obtain ⟨c, b, rfl⟩ := List.exists_cons_of_ne_nil hb
  -- The bracket would stand inside the token.
  have htail : b ++ List.take (k + 1) ('[' :: rest) = body ++ [']'] := by
    rw [Nat.add_sub_cancel_left] at hbody
    exact (List.cons.inj hbody).2
  have hmem : '[' ∈ body ++ [']'] := htail ▸ by simp
  simp [hopen] at hmem

/-- **The scanner counts a token** wherever it stands. -/
theorem mem_positions_of_isToken (u : DecimalUnicode) {token : Text}
    (h : IsToken u.toUnicode token) (front back : Text) :
    (front.length, front.length + token.length) ∈
      (scan u.toUnicode (front ++ (token ++ back))).positions := by
  obtain ⟨body, htoken, -⟩ := exists_body_of_isToken u h
  have hmem : (0 + front.length, 0 + front.length + token.length) ∈
      findAll (scannerPattern u.toUnicode) 0 0 (front ++ (token ++ back)) := by
    refine mem_findAll (by simp [htoken]) (head_lengths_of_isToken u h back)
      (fun a b _ hb n hn => ?_) (Nat.zero_le _)
    rw [htoken] at hn
    exact length_le_of_mem_lengths u hb hn
  have hspans : (findAll (scannerPattern u.toUnicode) 0 0 (front ++ (token ++ back))).isEmpty =
      false := List.isEmpty_eq_false_iff.mpr (List.ne_nil_of_mem hmem)
  have htext : (front ++ (token ++ back)).isEmpty = false := by simp [htoken]
  simpa [scan, hspans, htext] using hmem

/-! ### Issued tokens -/

/-- The token `_token_for` issues for a value of an entity type that has none yet. -/
def issued (t : Tokenizer) (entityType : Text) : Text :=
  tokenText (entityType.take 20) (t.seed + (Dict.get t.perTypeCounters (entityType.take 20)).getD 0)

/-- A token is recognised everywhere: it is one match of every pattern for complete tokens, what
begins it is a partial token at the end of a buffer, from a number of characters on, no pattern
matches anywhere else in it, and the scanner counts it in every text. -/
structure Recognised (least : ℕ) (token : Text) : Prop where
  whole : ∀ pattern ∈ tokenPatterns u, (lengths pattern token).head? = some token.length
  frontier : ∀ start rest, token = start ++ rest → rest ≠ [] → least ≤ start.length →
    ∀ before, searchPartial u (before ++ start) = true
  alone : ∀ before part after, token = before ++ (part ++ after) → before ≠ [] →
    (∀ pattern ∈ tokenPatterns u, ¬ Matches pattern part) ∧
      ¬ (Matches (partialPattern u) part ∧ atEnd after = true)
  counted : ∀ front back, (front.length, front.length + token.length) ∈
    (scan u (front ++ (token ++ back))).positions

theorem isDecimal_of_mem_toDigits (u : DecimalUnicode) {n : ℕ} {c : Char}
    (h : c ∈ Nat.toDigits 10 n) : u.isDecimal c = true := by
  have hdigit : c.isDigit = true := Nat.isDigit_of_mem_toDigits (by omega) (by omega) h
  have hascii : c.toNat < 128 := by
    have hall : (tokenMarks.all fun c => decide (c.toNat < 128)) = true := by decide
    exact of_decide_eq_true (List.all_eq_true.mp hall c (mem_tokenMarks_of_mem_toDigits h))
  rw [u.isDecimal_eq c hascii, hdigit]

/-- The token of a type is a token of the patterns if the type is one of them. -/
theorem isToken_tokenText_iff (u : DecimalUnicode) {short : Text} {index : ℕ} :
    IsToken u.toUnicode (tokenText short index) ↔ TypeName short ∧ short.length ≤ 50 := by
  rw [isToken_iff]
  constructor
  · rintro ⟨type, digits, htoken, htype, hlength, -, hdigits⟩
    have hbody := (List.append_inj' htoken rfl).1
    rw [List.cons_append, List.cons_append] at hbody
    have hunderscore : '_' ∉ digits := fun hmem =>
      absurd (hdigits '_' hmem) (by simp [u.isDecimal_eq '_' (by decide)])
    obtain ⟨rfl, -⟩ := Splitting.append_cons_inj_of_back Nat.underscore_not_in_toDigits
      hunderscore (List.cons.inj hbody).2
    exact ⟨htype, hlength⟩
  · rintro ⟨htype, hlength⟩
    refine ⟨short, _, rfl, htype, hlength, ?_, fun c hc => isDecimal_of_mem_toDigits u hc⟩
    exact Nat.toDigits_ne_nil

/-- What begins with an opening bracket and a letter, and goes on as a token does, is a partial
token. -/
theorem matches_partialPattern {c : Char} {name mark digits : Text} (hc : c.isAlpha = true)
    (hname : ∀ d ∈ name, (d.isAlpha || d == '_') = true) (hlength : name.length ≤ 19)
    (hmark : mark = [] ∨ mark = ['_']) (hdigits : ∀ d ∈ digits, u.isDecimal d = true) :
    Matches (partialPattern u) ('[' :: c :: (name ++ (mark ++ digits))) := by
  refine matches_one_iff.mpr ⟨_, _, rfl, rfl, matches_one_iff.mpr ⟨c, _, rfl, hc, ?_⟩⟩
  refine ⟨name, _, rfl, ⟨hname, Nat.zero_le _, fun m hm => ?_⟩, mark, digits, rfl, ⟨?_,
    Nat.zero_le _, fun m hm => ?_⟩, digits, [], (List.append_nil _).symm, ⟨hdigits, Nat.zero_le _,
    fun m hm => absurd hm (Option.not_mem_none m)⟩, rfl⟩
  · exact Option.some.inj hm ▸ hlength
  · obtain rfl | rfl := hmark <;> simp
  · obtain rfl := Option.some.inj hm
    obtain rfl | rfl := hmark <;> simp

theorem isAlpha_of_isUpper {c : Char} (h : c.isUpper = true) : c.isAlpha = true :=
  Bool.or_eq_true_iff.mpr (Or.inl h)

/-- **What begins a token is recognised at the end of a buffer**, from two characters on. -/
theorem searchPartial_of_starts (u : DecimalUnicode) {short start rest : Text} {index : ℕ}
    (htype : TypeName short) (hlength : short.length ≤ 20)
    (htoken : tokenText short index = start ++ rest) (hrest : rest ≠ [])
    (hstart : 2 ≤ start.length) (before : Text) :
    searchPartial u.toUnicode (before ++ start) = true := by
  obtain ⟨c, name, rfl, hc, hname⟩ := htype
  have hletters : ∀ d ∈ name, (d.isAlpha || d == '_') = true := fun d hd => by
    obtain hupper | hunderscore := Bool.or_eq_true_iff.mp (hname d hd)
    · rw [isAlpha_of_isUpper hupper, Bool.true_or]
    · rw [hunderscore, Bool.or_true]
  have hname19 : name.length ≤ 19 := Nat.le_of_succ_le_succ hlength
  suffices h : Matches (partialPattern u.toUnicode) start from
    search_eq_true_iff.mpr ⟨before, start, [], (List.append_nil _).symm, h, rfl⟩
  have hsplit : ('[' :: c :: name) ++ ('_' :: Nat.toDigits 10 index ++ [']']) = start ++ rest := by
    rw [← htoken, tokenText]
    simp
  obtain ⟨more, rfl, hmore⟩ | ⟨more, hfront, -⟩ := List.append_eq_append_iff.mp hsplit
  · -- The type is there in whole, and perhaps the underscore and a part of the index.
    obtain ⟨last, x, rfl⟩ := List.eq_nil_or_concat' rest |>.resolve_left hrest
    rw [← List.append_assoc] at hmore
    have hindex : '_' :: Nat.toDigits 10 index = more ++ last := (List.append_inj' hmore rfl).1
    cases more with
    | nil =>
      simpa using matches_partialPattern u.toUnicode (isAlpha_of_isUpper hc) hletters hname19
        (Or.inl rfl) (List.forall_mem_nil _)
    | cons d more =>
      obtain ⟨rfl, hdigits⟩ := List.cons.inj hindex
      refine matches_partialPattern u.toUnicode (isAlpha_of_isUpper hc) hletters hname19
        (Or.inr rfl) fun d hd => isDecimal_of_mem_toDigits u (n := index) ?_
      rw [hdigits]
      exact List.mem_append_left _ hd
  · -- The type is cut.
    obtain ⟨d, e, start, rfl⟩ : ∃ d e s, start = d :: e :: s := by
      match start, hstart with
      | d :: e :: s, _ => exact ⟨d, e, s, rfl⟩
    obtain ⟨rfl, htail⟩ := List.cons.inj hfront
    obtain ⟨rfl, rfl⟩ := List.cons.inj htail
    have hstart19 : start.length ≤ 19 :=
      le_trans (List.prefix_append start more).length_le hname19
    simpa using matches_partialPattern u.toUnicode (isAlpha_of_isUpper hc)
      (fun d hd => hletters d (List.mem_append_left _ hd)) hstart19 (Or.inl rfl)
      (List.forall_mem_nil _)

theorem exists_cons_of_matches_bracket {items : List (Item Char)} {part : Text}
    (h : Matches (literal '[' :: items) part) : ∃ rest, part = '[' :: rest := by
  obtain ⟨c, rest, rfl, hc, -⟩ := matches_one_iff.mp h
  exact ⟨rest, by rw [beq_iff_eq.mp hc]⟩

/-- **When a token is recognised everywhere.** The opening bracket alone is no partial token, so
never in whole; but for the bracket, if and only if the first 20 characters of the entity type are
an upper case letter and upper case letters and underscores after it. -/
theorem recognised_iff (u : DecimalUnicode) (t : Tokenizer) (entityType : Text) :
    ¬ Recognised u.toUnicode 1 (issued t entityType) ∧
      (Recognised u.toUnicode 2 (issued t entityType) ↔ TypeName (entityType.take 20)) := by
  have hlength : (entityType.take 20).length ≤ 20 := by
    rw [List.length_take]
    omega
  refine ⟨fun h => ?_, fun h => ?_, fun htype => ?_⟩
  · have hbracket := h.frontier ['['] _ rfl (by simp) (by simp) []
    have hnone : searchPartial u.toUnicode ['['] = false := rfl
    exact absurd hbracket (by simp [hnone])
  · have hwhole := h.whole (tokenPattern u.toUnicode) List.mem_cons_self
    obtain ⟨-, htoken⟩ := mem_lengths_iff.mp (List.mem_of_mem_head? hwhole)
    rw [List.take_length] at htoken
    exact ((isToken_tokenText_iff u).mp htoken).1
  · have htoken : IsToken u.toUnicode (issued t entityType) :=
      (isToken_tokenText_iff u).mpr ⟨htype, by omega⟩
    refine ⟨fun pattern hpattern => ?_, fun start rest hsplit hrest hstart before => ?_,
      fun before part after hsplit hbefore => ?_, mem_positions_of_isToken u htoken⟩
    · rw [eq_of_mem_tokenPatterns _ hpattern]
      simpa using head_lengths_of_isToken u htoken []
    · exact searchPartial_of_starts u htype hlength hsplit hrest hstart before
    · -- A match elsewhere would need another opening bracket.
      obtain ⟨body, hbody, hopen, -⟩ := exists_body_of_isToken u htoken
      have hno : ∀ rest, part ≠ '[' :: rest := by
        rintro rest rfl
        obtain ⟨c, before, rfl⟩ := List.exists_cons_of_ne_nil hbefore
        have htail : body ++ [']'] = before ++ ('[' :: rest ++ after) :=
          (List.cons.inj (hbody.symm.trans hsplit)).2
        have hmem : '[' ∈ body ++ [']'] := htail ▸ by simp
        simp [hopen] at hmem
      refine ⟨fun pattern hpattern hmatches => ?_, fun hmatches => ?_⟩
      · rw [eq_of_mem_tokenPatterns _ hpattern] at hmatches
        obtain ⟨rest, hrest⟩ := exists_cons_of_matches_bracket hmatches
        exact hno rest hrest
      · obtain ⟨rest, hrest⟩ := exists_cons_of_matches_bracket hmatches.1
        exact hno rest hrest

/-- A session with the seed 7 and no tokens yet. -/
def sampleTokenizer : Tokenizer := initializeSession ⟨7, by decide⟩

/-- **A type with a digit**: its token is no match of any pattern. -/
theorem not_recognised :
    ¬ ∀ (u : DecimalUnicode) (t : Tokenizer) (entityType : Text),
      Recognised u.toUnicode 1 (issued t entityType) := by
  intro h
  have hwhole := (h .ascii sampleTokenizer "EMPLOYEE2".toList).whole (tokenPattern .ascii)
    List.mem_cons_self
  have hnone : (lengths (tokenPattern .ascii) (issued sampleTokenizer "EMPLOYEE2".toList)).head? =
      none := by decide
  exact absurd (hnone.symm.trans hwhole) (by simp)

end AnonReq.Verification
