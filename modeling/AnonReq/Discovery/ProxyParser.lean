import AnonReq.Detection.RegexPatterns
import AnonReq.Foundation.RegexMatch
import AnonReq.Foundation.Splitting

/-!
# Parsing proxy logs

`discovery/proxy_parser.py`: a line of a proxy log is read in the format of Squid, Zscaler or Palo
Alto, which is given or found out from the line, and a batch of lines up to so many entries.

* `parseBatch_eq_ok_iff`: when a batch gives the entries of its lines.
* `accepts_zscaler_of_paloAlto`: what is read in the format of Palo Alto is also read in that of
  Zscaler.
* `parses_iff`: batches, and the lines on which the format that is found out is the only one.
-/

namespace AnonReq.Discovery.ProxyParser

open Regex Detection.RegexPatterns

/-- `ProxyEntry`. -/
structure ProxyEntry (T : Type) where
  sourceIp : Text
  timestamp : T
  method : Text
  url : Text
  status : ℤ
  bytes : ℤ
  userId : Option Text := none
  contentType : Option Text := none
  userAgent : Option Text := none

/-- The `format` of a line. -/
inductive Format where
  | auto
  | squid
  | zscaler
  | paloAlto
  | other
deriving DecidableEq

/-- What `datetime.fromtimestamp(float(text), tz=UTC)` does: it returns, it raises `ValueError` or
`OSError`, or it raises `OverflowError`. -/
inductive FromTimestamp (T : Type) where
  | time (t : T)
  | caught
  | overflow

/-- The exception that leaves the parser. -/
inductive Raised where
  | overflow

/-- What the parser takes from its runtime. -/
structure ProxyRuntime (T : Type) where
  unicode : Unicode
  /-- `str.isdigit` of one character. -/
  isdigit : Char → Bool
  /-- `int(text)`, `none` where it raises `ValueError`. -/
  int : Text → Option ℤ
  fromtimestamp : Text → FromTimestamp T
  /-- `datetime.strptime` of a text in a format, read as UTC; `none` where it raises. -/
  strptime : Text → Text → Option T

namespace ProxyRuntime

variable {T : Type} (R : ProxyRuntime T)

/-! ### The formats -/

/-- `\s+` -/
def gap : Regex Char := atLeast 1 (.one Text.isSpace)

/-- `(\S+)` -/
def filled : Regex Char := atLeast 1 (.one fun c => !Text.isSpace c)

/-- `(\d+)` -/
def number : Regex Char := atLeast 1 (digit R.unicode)

/-- `_SQUID_RE`, by its groups and what stands between them. -/
def squidRe : List (Regex Char) :=
  [filled, gap, filled, gap, filled, gap, filled, literal "/", R.number, gap, R.number, gap, filled,
    gap, filled, gap, filled, gap, filled, gap, filled]

/-- `([^,]+)` -/
def cell : Regex Char := atLeast 1 (.one (· != ','))

/-- The first group of `_PALO_ALTO_RE`. -/
def paloAltoTime : Regex Char :=
  seqs [times 4 (digit R.unicode), literal "/", times 2 (digit R.unicode), literal "/",
    times 2 (digit R.unicode), gap, times 2 (digit R.unicode), literal ":",
    times 2 (digit R.unicode), literal ":", times 2 (digit R.unicode)]

/-- The other groups of `_PALO_ALTO_RE`. -/
def paloAltoCells : List (Regex Char) :=
  [cell, cell, cell, cell, cell, R.number, cell, atLeast 0 (.one (· != ',')), cell, R.number]

/-- `_PALO_ALTO_RE`, by its groups and the commas between them. -/
def paloAltoRe : List (Regex Char) :=
  R.paloAltoTime :: R.paloAltoCells.flatMap fun r => [literal ",", r]

/-- `re.match`, by the parts of the match. -/
def matchParts (rs : List (Regex Char)) (line : Text) : Option (List Text) :=
  (splits rs none line).head?

/-- A group, by the place of its part. -/
def group (parts : List Text) (i : ℕ) : Text := parts.getD i []

/-- A text, if there is something in it. -/
def filledText (text : Text) : Option Text := if text = [] then none else some text

/-- A text, if there is something in it and it is not `-`. -/
def unlessDash (text : Text) : Option Text := if text = [] ∨ text = ['-'] then none else some text

/-- `_parse_squid`. -/
def parseSquid (now : T) (line : Text) : Except Raised (Option (ProxyEntry T)) :=
  match matchParts R.squidRe line with
  | none => .ok none
  | some parts =>
    let entry (timestamp : T) : ProxyEntry T :=
      { sourceIp := group parts 4
        timestamp := timestamp
        method := R.unicode.upperText (group parts 12)
        url := group parts 14
        status := (R.int (group parts 8)).getD 0
        bytes := (R.int (group parts 10)).getD 0
        userId := unlessDash (group parts 16)
        contentType := unlessDash (group parts 20) }
    match R.fromtimestamp (group parts 0) with
    | .time t => .ok (some (entry t))
    | .caught => .ok (some (entry now))
    | .overflow => .error .overflow

/-- `_parse_zscaler_timestamp`. -/
def parseZscalerTimestamp (now : T) (text : Text) : T :=
  (R.strptime "%m/%d/%Y %H:%M:%S".toList text).getD now

/-- `_parse_zscaler`. -/
def parseZscaler (now : T) (line : Text) : Option (ProxyEntry T) :=
  let parts := line.splitOn ','
  if parts.length < 8 then none
  else
    let part (i : ℕ) : Text := Text.strip (parts.getD i [])
    let url := part 4
    some
      { sourceIp := part 0
        timestamp := R.parseZscalerTimestamp now (part 1)
        method :=
          if ¬ "rest.".toList <:+: url ∧ ¬ "v1/".toList <:+: url then "GET".toList
          else "POST".toList
        url := url
        status := (R.int (part 7)).getD 0
        bytes := (R.int (if 8 < parts.length then part 8 else "0".toList)).getD 0
        userId := filledText (part 2)
        contentType := filledText (if 9 < parts.length then part 9 else []) }

/-- `_parse_palo_alto`. -/
def parsePaloAlto (now : T) (line : Text) : Option (ProxyEntry T) :=
  (matchParts R.paloAltoRe line).map fun parts =>
    let url := group parts 14
    { sourceIp := group parts 8
      timestamp := (R.strptime "%Y/%m/%d %H:%M:%S".toList (group parts 0)).getD now
      method := if "v1/".toList <:+: url then "POST".toList else "GET".toList
      url := url
      status := if R.unicode.upperText (group parts 18) = "ALLOW".toList then 200 else 403
      bytes := (R.int (group parts 20)).getD 0
      userId := filledText (group parts 16) }

/-! ### Lines -/

/-- The line begins with a digit, with a point soon after it. -/
def digitAndPoint (line : Text) : Prop := line.head?.any R.isdigit ∧ '.' ∈ line.take 20

/-- The line begins with `20`, with a slash soon after it. -/
def yearAndSlash (line : Text) : Prop := "20".toList <+: line ∧ '/' ∈ line.take 11

instance (line : Text) : Decidable (R.digitAndPoint line) := inferInstanceAs (Decidable (_ ∧ _))

instance (line : Text) : Decidable (yearAndSlash line) := inferInstanceAs (Decidable (_ ∧ _))

/-- `_detect_format`. -/
def detectFormat (line : Text) : Format :=
  if R.digitAndPoint line then .squid
  else if yearAndSlash line then .paloAlto
  else if ',' ∈ line ∧ 6 ≤ (line.splitOn ',').length then .zscaler
  else .squid

/-- The format in which a stripped line is read. -/
def chosenFormat (format : Format) (stripped : Text) : Format :=
  if format = .auto then R.detectFormat stripped else format

/-- `parse_line`. -/
def parseLine (now : T) (format : Format) (line : Text) : Except Raised (Option (ProxyEntry T)) :=
  if line.strip = [] then .ok none
  else
    let stripped := line.strip
    match R.chosenFormat format stripped with
    | .squid => R.parseSquid now stripped
    | .zscaler => .ok (R.parseZscaler now stripped)
    | .paloAlto => .ok (R.parsePaloAlto now stripped)
    | _ => .ok none

/-- The lines of a batch that are left, each with the time at which it is read, where there are
`count` entries already. -/
def parseFrom (maxBatchSize : ℤ) (format : Format) :
    ℕ → List (T × Text) → Except Raised (List (ProxyEntry T))
  | _, [] => .ok []
  | count, (now, line) :: lines =>
    if maxBatchSize ≤ count then .ok []
    else if line.strip = [] then parseFrom maxBatchSize format count lines
    else do
      match ← R.parseLine now format line with
      | some entry => return entry :: (← parseFrom maxBatchSize format (count + 1) lines)
      | none => parseFrom maxBatchSize format count lines

/-- `parse_batch`. -/
def parseBatch (maxBatchSize : ℤ) (format : Format) (lines : List (T × Text)) :
    Except Raised (List (ProxyEntry T)) :=
  R.parseFrom maxBatchSize format 0 lines

/-! ### What is to hold -/

/-- The entry of a line, if it has one. -/
def entryOf (format : Format) (line : T × Text) : Option (ProxyEntry T) :=
  match R.parseLine line.1 format line.2 with
  | .ok entry => entry
  | .error _ => none

/-- The time of a line that is read in the format of Squid is out of range. -/
def Overflows (format : Format) (line : T × Text) : Prop :=
  line.2.strip ≠ [] ∧ R.chosenFormat format line.2.strip = .squid ∧
    ∃ parts ∈ matchParts R.squidRe line.2.strip, R.fromtimestamp (group parts 0) = .overflow

/-- The line is read in a format, and in no other of the three. -/
def Alone (now : T) (format : Format) (line : Text) : Prop :=
  format ∈ [Format.squid, .zscaler, .paloAlto] ∧
    (∃ entry, R.parseLine now format line = .ok (some entry)) ∧
    ∀ format' ∈ [Format.squid, .zscaler, .paloAlto], format' ≠ format →
      ∀ entry, R.parseLine now format' line ≠ .ok (some entry)

/-- The format of a line that is read in one format only is found out. -/
def Detected (format : Format) (stripped : Text) : Prop :=
  if format = .squid then
    R.digitAndPoint stripped ∨ ¬ yearAndSlash stripped ∧ (stripped.splitOn ',').length < 6
  else ¬ R.digitAndPoint stripped ∧ ¬ yearAndSlash stripped

instance (format : Format) (stripped : Text) : Decidable (R.Detected format stripped) :=
  inferInstanceAs (Decidable (if format = .squid then
    R.digitAndPoint stripped ∨ ¬ yearAndSlash stripped ∧ (stripped.splitOn ',').length < 6
  else ¬ R.digitAndPoint stripped ∧ ¬ yearAndSlash stripped))

variable {R}

/-! ### Batches -/

theorem parseSquid_cases (now : T) (line : Text) :
    (∃ parts ∈ matchParts R.squidRe line, R.fromtimestamp (group parts 0) = .overflow) ∧
        R.parseSquid now line = .error .overflow ∨
      (¬ ∃ parts ∈ matchParts R.squidRe line, R.fromtimestamp (group parts 0) = .overflow) ∧
        ∃ entry, R.parseSquid now line = .ok entry := by
  unfold parseSquid
  cases hparts : matchParts R.squidRe line with
  | none => exact Or.inr ⟨by simp, none, rfl⟩
  | some parts =>
    simp only [Option.mem_def, Option.some.injEq, exists_eq_left']
    cases R.fromtimestamp (group parts 0) with
    | time t => exact Or.inr ⟨by simp, _, rfl⟩
    | caught => exact Or.inr ⟨by simp, _, rfl⟩
    | overflow => exact Or.inl ⟨rfl, rfl⟩

/-- **What a line does**: it raises where its time is out of range, and else it has its entry. -/
theorem parseLine_cases (format : Format) (line : T × Text) :
    R.Overflows format line ∧ R.parseLine line.1 format line.2 = .error .overflow ∨
      ¬ R.Overflows format line ∧
        R.parseLine line.1 format line.2 = .ok (R.entryOf format line) := by
  have hentry : ∀ entry, R.parseLine line.1 format line.2 = .ok entry →
      R.parseLine line.1 format line.2 = .ok (R.entryOf format line) := by
    intro entry h
    rw [entryOf, h]
  by_cases hblank : line.2.strip = []
  · exact Or.inr ⟨fun h => h.1 hblank, hentry none (if_pos hblank)⟩
  have hline : R.parseLine line.1 format line.2 =
      match R.chosenFormat format line.2.strip with
      | .squid => R.parseSquid line.1 line.2.strip
      | .zscaler => .ok (R.parseZscaler line.1 line.2.strip)
      | .paloAlto => .ok (R.parsePaloAlto line.1 line.2.strip)
      | _ => .ok none := if_neg hblank
  cases hformat : R.chosenFormat format line.2.strip with
  | squid =>
    rw [hformat] at hline
    obtain ⟨hover, hsquid⟩ | ⟨hover, entry, hsquid⟩ :=
      @parseSquid_cases T R line.1 line.2.strip
    · exact Or.inl ⟨⟨hblank, hformat, hover⟩, hline.trans hsquid⟩
    · exact Or.inr ⟨fun h => hover h.2.2, hentry entry (hline.trans hsquid)⟩
  | zscaler =>
    rw [hformat] at hline
    exact Or.inr ⟨fun h => absurd (hformat.symm.trans h.2.1) (by decide), hentry _ hline⟩
  | paloAlto =>
    rw [hformat] at hline
    exact Or.inr ⟨fun h => absurd (hformat.symm.trans h.2.1) (by decide), hentry _ hline⟩
  | auto =>
    rw [hformat] at hline
    exact Or.inr ⟨fun h => absurd (hformat.symm.trans h.2.1) (by decide), hentry _ hline⟩
  | other =>
    rw [hformat] at hline
    exact Or.inr ⟨fun h => absurd (hformat.symm.trans h.2.1) (by decide), hentry _ hline⟩

section Batch

variable {maxBatchSize : ℤ} {format : Format}

/-- No line that is reached, with `count` entries from the start on, overflows. -/
def Clear (R : ProxyRuntime T) (maxBatchSize : ℤ) (format : Format) (count : ℕ)
    (lines : List (T × Text)) : Prop :=
  ∀ before line after, lines = before ++ line :: after →
    (count + (before.filterMap (R.entryOf format)).length : ℤ) < maxBatchSize →
    ¬ R.Overflows format line

theorem clear_cons_iff {count : ℕ} {line : T × Text} {lines : List (T × Text)} :
    Clear R maxBatchSize format count (line :: lines) ↔
      ((count : ℤ) < maxBatchSize → ¬ R.Overflows format line) ∧
        Clear R maxBatchSize format (count + (R.entryOf format line).toList.length) lines := by
  have hlength : ∀ before : List (T × Text),
      (((line :: before).filterMap (R.entryOf format)).length : ℤ) =
        (R.entryOf format line).toList.length + (before.filterMap (R.entryOf format)).length := by
    intro before
    rw [List.filterMap_cons]
    cases R.entryOf format line with
    | none => simp
    | some entry => simp [add_comm]
  constructor
  · intro h
    refine ⟨fun hcount => h [] line lines rfl (by simpa using hcount), ?_⟩
    rintro before other after rfl hcount
    refine h (line :: before) other after rfl ?_
    rw [hlength]
    push_cast at hcount
    omega
  · rintro ⟨hline, hlines⟩ before other after hsplit hcount
    cases before with
    | nil =>
      obtain ⟨rfl, rfl⟩ := List.cons.inj hsplit
      exact hline (by simpa using hcount)
    | cons first before =>
      obtain ⟨rfl, rfl⟩ := List.cons.inj hsplit
      refine hlines before other after rfl ?_
      rw [hlength] at hcount
      push_cast
      omega

/-- The rest of a batch. -/
theorem parseFrom_eq_ok_iff {count : ℕ} {lines : List (T × Text)} :
    R.parseFrom maxBatchSize format count lines =
        .ok ((lines.filterMap (R.entryOf format)).take (maxBatchSize - count).toNat) ↔
      Clear R maxBatchSize format count lines := by
  induction lines generalizing count with
  | nil =>
    refine iff_of_true (by simp [parseFrom]) ?_
    intro before line after h
    exact absurd h (by simp)
  | cons line lines ih =>
    rw [clear_cons_iff, parseFrom]
    by_cases hfull : maxBatchSize ≤ count
    · have hnone : (maxBatchSize - count).toNat = 0 := Int.toNat_eq_zero.mpr (by omega)
      rw [if_pos hfull, hnone, List.take_zero]
      refine iff_of_true rfl ⟨fun h => absurd hfull (not_le.mpr h), ?_⟩
      intro before other after _ hcount
      omega
    have hcount : (count : ℤ) < maxBatchSize := not_le.mp hfull
    have hrest : ∀ entries : List (ProxyEntry T), ∀ entry,
        (entry :: entries).take (maxBatchSize - count).toNat =
          entry :: entries.take (maxBatchSize - (count + 1 : ℕ)).toNat := by
      intro entries entry
      have hsize : (maxBatchSize - count).toNat = (maxBatchSize - (count + 1 : ℕ)).toNat + 1 := by
        omega
      rw [hsize, List.take_succ_cons]
    rw [if_neg hfull]
    by_cases hblank : line.2.strip = []
    · have hentry : R.entryOf format line = none := by rw [entryOf, parseLine, if_pos hblank]
      have hclear : ¬ R.Overflows format line := fun h => h.1 hblank
      rw [if_pos hblank, List.filterMap_cons_none hentry, ih, hentry]
      exact (and_iff_right fun _ => hclear).symm
    rw [if_neg hblank]
    obtain ⟨hover, hline⟩ | ⟨hclear, hline⟩ := @parseLine_cases T R format line
    · rw [hline]
      exact iff_of_false (fun h => nomatch h) fun h => h.1 hcount hover
    · rw [hline, and_iff_right fun _ => hclear]
      cases hentry : R.entryOf format line with
      | none =>
        rw [List.filterMap_cons_none hentry]
        exact ih
      | some entry =>
        rw [List.filterMap_cons_some hentry, hrest]
        have hone : count + (some entry).toList.length = count + 1 := rfl
        rw [hone, ← ih]
        show (R.parseFrom maxBatchSize format (count + 1) lines >>=
          fun entries => Except.ok (entry :: entries)) = _ ↔ _
        cases R.parseFrom maxBatchSize format (count + 1) lines with
        | error e => exact iff_of_false (by simp [bind, Except.bind]) (by simp)
        | ok entries => simp [bind, Except.bind]

/-- **A batch** gives the entries of its lines, up to its size, if and only if no line that is
reached overflows. -/
theorem parseBatch_eq_ok_iff {lines : List (T × Text)} :
    R.parseBatch maxBatchSize format lines =
        .ok ((lines.filterMap (R.entryOf format)).take maxBatchSize.toNat) ↔
      Clear R maxBatchSize format 0 lines := by
  have h := @parseFrom_eq_ok_iff T R maxBatchSize format 0 lines
  rwa [Nat.cast_zero, sub_zero] at h

end Batch

/-! ### Formats -/

theorem parseZscaler_isSome_iff {now : T} {line : Text} :
    (R.parseZscaler now line).isSome ↔ 8 ≤ (line.splitOn ',').length := by
  rw [parseZscaler]
  dsimp only
  by_cases h : (line.splitOn ',').length < 8
  · rw [if_pos h]
    exact iff_of_false Bool.false_ne_true (by omega)
  · rw [if_neg h]
    exact iff_of_true rfl (by omega)

/-- There is a comma before each cell but the first. -/
theorem length_le_count_comma {cells : List (Regex Char)} {parts : List Text}
    (h : List.Forall₂ (fun r part => ∃ before behind, Matches r before part behind)
      (cells.flatMap fun r => [literal ",", r]) parts) :
    cells.length ≤ parts.flatten.count ',' := by
  induction cells generalizing parts with
  | nil => exact Nat.zero_le _
  | cons cell cells ih =>
    rw [List.flatMap_cons, List.cons_append, List.singleton_append, List.forall₂_cons_left_iff] at h
    obtain ⟨comma, rest, ⟨before, behind, hcomma⟩, h, rfl⟩ := h
    obtain ⟨part, rest, -, hrest, rfl⟩ := List.forall₂_cons_left_iff.mp h
    have hword : comma = [','] := by
      have hchars : ",".toList = [','] := rfl
      rw [literal, hchars, matches_word_iff] at hcomma
      obtain ⟨c, rest', hc, hnil, rfl⟩ := List.forall₂_cons_left_iff.mp hcomma
      rw [List.forall₂_nil_left_iff.mp hnil, ← beq_iff_eq.mp hc]
    rw [hword, List.flatten_cons, List.flatten_cons, List.count_append, List.count_append,
      List.length_cons]
    have hrest := ih hrest
    have hone : List.count ',' [','] = 1 := rfl
    omega

/-- **A line of Palo Alto** has cells enough for Zscaler. -/
theorem accepts_zscaler_of_paloAlto {now : T} {line : Text}
    (h : (R.parsePaloAlto now line).isSome) : (R.parseZscaler now line).isSome := by
  rw [parsePaloAlto, Option.isSome_map] at h
  obtain ⟨parts, hparts⟩ := Option.isSome_iff_exists.mp h
  obtain ⟨rest, rfl, hall⟩ := exists_of_mem_splits (List.mem_of_mem_head? hparts)
  obtain ⟨first, parts, -, hcells, rfl⟩ := List.forall₂_cons_left_iff.mp hall
  have hcount := length_le_count_comma hcells
  have hcells : R.paloAltoCells.length = 10 := rfl
  rw [parseZscaler_isSome_iff, Splitting.length_splitOn, List.flatten_cons, List.count_append,
    List.count_append]
  omega

/-! ### Which format is found out -/

/-- A line in a format of its own. -/
theorem parseLine_of_format {now : T} {format : Format} {line : Text} (hblank : line.strip ≠ [])
    (hformat : format ≠ .auto) :
    R.parseLine now format line =
      match format with
      | .squid => R.parseSquid now line.strip
      | .zscaler => .ok (R.parseZscaler now line.strip)
      | .paloAlto => .ok (R.parsePaloAlto now line.strip)
      | _ => .ok none := by
  rw [parseLine, if_neg hblank]
  dsimp only
  rw [chosenFormat, if_neg hformat]
  cases format <;> rfl

theorem detectFormat_ne_auto (line : Text) : R.detectFormat line ≠ .auto := by
  unfold detectFormat
  split_ifs <;> decide

/-- A line whose format is found out is read in that format. -/
theorem parseLine_auto {now : T} {line : Text} (hblank : line.strip ≠ []) :
    R.parseLine now .auto line = R.parseLine now (R.detectFormat line.strip) line := by
  rw [parseLine, parseLine, if_neg hblank, if_neg hblank]
  dsimp only
  rw [chosenFormat, chosenFormat, if_pos rfl, if_neg (R.detectFormat_ne_auto line.strip)]

/-- Exactly the format that reads a line must be found out. -/
theorem parseLine_auto_eq_iff {now : T} {format : Format} {line : Text}
    (h : R.Alone now format line) :
    R.parseLine now .auto line = R.parseLine now format line ↔
      R.detectFormat line.strip = format := by
  obtain ⟨-, ⟨entry, hentry⟩, hothers⟩ := h
  have hblank : line.strip ≠ [] := fun hnil => by
    rw [parseLine, if_pos hnil] at hentry
    exact absurd (Except.ok.inj hentry) (Option.some_ne_none _).symm
  rw [parseLine_auto hblank]
  constructor
  · intro heq
    by_contra hne
    refine hothers (R.detectFormat line.strip) ?_ hne entry (heq.trans hentry)
    unfold detectFormat
    split_ifs <;> decide
  · intro heq
    rw [heq]

/-- **The format that is found out**, where it is the only one. -/
theorem parseLine_auto_eq_iff_detected {now : T} {format : Format} {line : Text}
    (h : R.Alone now format line) :
    R.parseLine now .auto line = R.parseLine now format line ↔
      R.Detected format line.strip := by
  rw [parseLine_auto_eq_iff h]
  obtain ⟨hformat, ⟨entry, hentry⟩, hothers⟩ := h
  have hblank : line.strip ≠ [] := fun hnil => by
    rw [parseLine, if_pos hnil] at hentry
    exact absurd (Except.ok.inj hentry) (Option.some_ne_none _).symm
  have hzscaler : (∃ entry, R.parseLine now .zscaler line = .ok (some entry)) ↔
      8 ≤ (line.strip.splitOn ',').length := by
    rw [parseLine_of_format hblank (by decide), ← @parseZscaler_isSome_iff T R now,
      Option.isSome_iff_exists]
    simp only [Except.ok.injEq]
  have hcomma : 6 ≤ (line.strip.splitOn ',').length → ',' ∈ line.strip := by
    rw [Splitting.length_splitOn]
    intro hcount
    exact List.count_pos_iff.mp (by omega)
  simp only [List.mem_cons, List.not_mem_nil, or_false] at hformat
  obtain rfl | rfl | rfl := hformat
  · -- fewer cells than Zscaler reads
    rw [Detected, if_pos rfl, detectFormat]
    by_cases hdigit : R.digitAndPoint line.strip
    · simp [hdigit]
    by_cases hyear : yearAndSlash line.strip
    · simp [hdigit, hyear]
    by_cases hcells : 6 ≤ (line.strip.splitOn ',').length
    · simp [hdigit, hyear, hcells, hcomma hcells]
    · simp [hdigit, hyear, hcells]
      omega
  · have hcells := hzscaler.mp ⟨entry, hentry⟩
    have hsix : 6 ≤ (line.strip.splitOn ',').length := by omega
    rw [Detected, if_neg (by decide), detectFormat]
    by_cases hdigit : R.digitAndPoint line.strip
    · simp [hdigit]
    by_cases hyear : yearAndSlash line.strip
    · simp [hdigit, hyear]
    · simp [hdigit, hyear, hsix, hcomma hsix]
  · -- what Palo Alto reads is read by Zscaler, too
    rw [parseLine_of_format hblank (by decide)] at hentry
    have hsome : (R.parsePaloAlto now line.strip).isSome := by
      rw [Except.ok.inj hentry]
      rfl
    obtain ⟨other, hother⟩ := hzscaler.mpr
      (parseZscaler_isSome_iff.mp (accepts_zscaler_of_paloAlto hsome))
    exact absurd hother (hothers .zscaler (by decide) (by decide) other)

/-- **Parsing.** A batch gives the entries of its lines, up to its size, if and only if no line that
is reached is read in the format of Squid with a time out of range; a line that is read in one
format only is read in that format if and only if its beginning and its commas lead to it. -/
theorem parses_iff (R : ProxyRuntime T) :
    (∀ (maxBatchSize : ℤ) (format : Format) (lines : List (T × Text)),
      R.parseBatch maxBatchSize format lines =
          .ok ((lines.filterMap (R.entryOf format)).take maxBatchSize.toNat) ↔
        Clear R maxBatchSize format 0 lines) ∧
    ∀ (now : T) (format : Format) (line : Text), R.Alone now format line →
      (R.parseLine now .auto line = R.parseLine now format line ↔
        R.Detected format line.strip) :=
  ⟨fun _ _ _ => parseBatch_eq_ok_iff, fun _ _ _ h => parseLine_auto_eq_iff_detected h⟩

/-! ### Some lines -/

theorem entryOf_eq_some_iff {format : Format} {line : T × Text} {entry : ProxyEntry T} :
    R.entryOf format line = some entry ↔
      R.parseLine line.1 format line.2 = .ok (some entry) := by
  rw [entryOf]
  cases R.parseLine line.1 format line.2 with
  | error e => exact iff_of_false (Option.some_ne_none _).symm (by simp)
  | ok result => rw [Except.ok.injEq]

/-- One of the formats has an entry, and the others have none. -/
theorem alone_of_entryOf {now : T} {format : Format} {line : Text}
    (hformat : format ∈ [Format.squid, .zscaler, .paloAlto])
    (hentry : (R.entryOf format (now, line)).isSome)
    (hothers : ∀ format' ∈ [Format.squid, .zscaler, .paloAlto], format' ≠ format →
      R.entryOf format' (now, line) = none) : R.Alone now format line := by
  obtain ⟨entry, hentry⟩ := Option.isSome_iff_exists.mp hentry
  refine ⟨hformat, ⟨entry, entryOf_eq_some_iff.mp hentry⟩, fun format' hmem hne entry' h => ?_⟩
  exact absurd ((entryOf_eq_some_iff.mpr h).symm.trans (hothers format' hmem hne))
    (Option.some_ne_none _)

/-- A decimal numeral. -/
def decimal (text : Text) : Option ℕ :=
  if text ≠ [] ∧ text.all Char.isDigit then
    some (text.foldl (fun n c => 10 * n + (c.toNat - '0'.toNat)) 0)
  else none

/-- A runtime for numerals and one number that is too large. -/
def plain : ProxyRuntime ℕ where
  unicode := Unicode.ascii
  isdigit := Char.isDigit
  int := fun text => (decimal text).map Int.ofNat
  fromtimestamp := fun text =>
    if text = "1e400".toList then .overflow
    else match decimal text with
      | some t => .time t
      | none => .caught
  strptime := fun _ _ => none

/-- A line of Squid. -/
def squidLine (time : String) : Text := (time ++ " 2 c T/200 5 GET u - H t").toList

/-- A line of Zscaler. -/
def zscalerLine (device : String) : Text := (device ++ ",t,u,d,http://a/,Allow,r,200").toList

theorem alone_squidLine : plain.Alone 0 .squid (squidLine "1") :=
  alone_of_entryOf (by decide) (by decide +kernel) (by decide +kernel)

theorem alone_zscalerLine : plain.Alone 0 .zscaler (zscalerLine "10.0.0.1") :=
  alone_of_entryOf (by decide) (by decide +kernel) (by decide +kernel)

theorem parses_squidLine :
    plain.parseLine 0 .auto (squidLine "1") = plain.parseLine 0 .squid (squidLine "1") :=
  ((parses_iff plain).2 0 .squid (squidLine "1") alone_squidLine).mpr (by decide +kernel)

/-- **A time that is too large** ends a batch with an exception, and a device with a point in its
address hides the format of Zscaler. -/
theorem not_parses :
    (plain.parseBatch 10 .auto [(0, squidLine "1e400")]).toOption.isNone ∧
      ¬ ∀ (R : ProxyRuntime ℕ) (now : ℕ) (format : Format) (line : Text),
        R.Alone now format line → R.parseLine now .auto line = R.parseLine now format line := by
  refine ⟨by decide +kernel, fun h => ?_⟩
  have hdetected := (parseLine_auto_eq_iff alone_zscalerLine).mp (h _ _ _ _ alone_zscalerLine)
  exact absurd hdetected (by decide +kernel)

end ProxyRuntime

end AnonReq.Discovery.ProxyParser
