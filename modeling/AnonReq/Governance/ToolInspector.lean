import Mathlib.Data.String.Basic
import AnonReq.Cache.Manager
import AnonReq.Detection.RegexPatterns
import AnonReq.Foundation.Glob
import AnonReq.Foundation.Json

/-!
# Inspecting tool results

`governance/tool_inspector.py`: the text of a tool result is analysed for personal data, and four
indicators are looked for in it. One of them reads the mappings of the session: it scans the keys
that start with `anonreq:{session_id}:` and reads them as texts. The mappings are stored as hashes,
at keys with the tenant before the session.

* `scanPages_eq_true_iff`: when the scan finds a value.
* `reportsStored_iff`: when a result is reported as one with a stored value.
* `reconstruction_iff`: reports are right exactly if, at the session's own keys, a text occurs when
  a stored original does. `not_flagsReconstructions`: a stored original that is not reported.
-/

namespace AnonReq.Governance

open Cache Detection Detection.RegexPatterns Regex

/-! ### The indicators in the text -/

section

variable (u : Unicode)

/-- A word, in any letter case. -/
def keyword (chars : String) : Regex Char := Regex.word u.sameCase chars.toList

/-- `\s+` -/
def spaces : Regex Char := atLeast 1 (spaceOr "")

/-- `(the\s+)?` -/
def optionalThe : Regex Char := opt (seqs [keyword u "the", spaces])

/-- One of some words. The last one is given apart. -/
def anyKeyword (words : List String) (last : String) : Regex Char :=
  alts (words.map (keyword u)) (keyword u last)

/-- `TOKEN_PATTERN` -/
def tokenPattern : Regex Char :=
  seqs
    [literal "[", .one isUpper, between 0 49 (.one fun c => isUpper c || c == '_'), literal "_",
      atLeast 1 (digit u), literal "]"]

/-- `RECONSTRUCTION_PROMPT_PATTERNS` -/
def reconstructionPromptPatterns : List (Regex Char) :=
  [seqs
    [keyword u "regenerate", spaces, optionalThe u,
      anyKeyword u ["email", "phone", "ssn", "address", "name"] "token"],
   seqs
    [keyword u "fill", spaces, anyKeyword u ["in"] "out", spaces, optionalThe u,
      alts [seqs [literal "[", .rep (.one fun c => c != '\n') 0 none false, literal "]"]]
        (keyword u "placeholder")],
   seqs
    [keyword u "reconstruct", spaces, optionalThe u, anyKeyword u ["original", "pii"] "data"],
   seqs
    [keyword u "reverse", spaces, optionalThe u, anyKeyword u ["anonymization"] "tokenization"],
   seqs [keyword u "undo", spaces, optionalThe u, anyKeyword u ["anonymization"] "replacement"],
   seqs
    [keyword u "put", spaces,
      alts [keyword u "back"] (seqs [keyword u "the", spaces, keyword u "original"])],
   seqs
    [keyword u "restore", spaces, optionalThe u, anyKeyword u ["original", "values"] "data"],
   seqs
    [keyword u "give", spaces, keyword u "me", spaces, keyword u "the", spaces,
      anyKeyword u ["real", "actual"] "original"]]

/-- `bracket_pattern` -/
def bracketPattern : Regex Char :=
  seqs
    [literal "[", atLeast 2 (.one fun c => isLetter c || Text.isSpace c || c == '_'), literal "]"]

/-- The texts of the matches, from left to right. -/
def matchTexts (r : Regex Char) (text : Text) : List Text :=
  (r.findAll none 0 0 text).map fun m => (text.drop m.1).take (m.2 - m.1)

/-- `m.group(1)` of a match of `TOKEN_PATTERN`: what stands before the last underscore. -/
def tokenType (token : Text) : Text := (token.reverse.dropWhile (· ≠ '_')).tail.reverse.tail

/-- A number, as Python writes it. -/
def decimal (n : ℕ) : Text := (Nat.repr n).toList

/-- An indicator: its description, and the confidence that it gives. -/
abbrev Indicator := Text × ℚ

/-- Indicator 1. -/
def tokenIndicator (text : Text) : Option Indicator :=
  let found := matchTexts (tokenPattern u) text
  if found.isEmpty then none
  else
    let types := (found.map tokenType).dedup.mergeSort fun s t => decide (s ≤ t)
    some
      ("Token patterns found: ".toList ++ decimal found.length ++ " matches (".toList ++
          List.intercalate ", ".toList types ++ ")".toList,
        1 / 2 + min ((found.length : ℚ) * (1 / 10)) (2 / 5))

/-- What indicator 2 reports. -/
def mappingIndicator : Text :=
  "Reconstructed value found in content matching token mapping".toList

/-- Indicator 3. -/
def promptIndicator (text : Text) : Option Indicator :=
  let found := (reconstructionPromptPatterns u).findSome? fun r => (matchTexts r text).head?
  found.map fun prompt =>
    ("Reconstruction prompt language detected: '".toList ++ prompt ++ "'".toList, 3 / 4)

/-- Indicator 4. -/
def bracketIndicator (text : Text) : Option Indicator :=
  let found := (matchTexts bracketPattern text).filter fun bracketed =>
    ¬bracketed.length ∈ (tokenPattern u).ends none bracketed
  if 3 ≤ found.length then
    some
      ("Suspicious bracket patterns: ".toList ++ decimal found.length ++
          " instances suggest token-like formatting".toList,
        2 / 5 + min ((found.length : ℚ) * (1 / 20)) (3 / 10))
  else none

end

/-! ### The indicator in the mappings -/

section

variable (k : Keyspace) (sessionId text : Text)

/-- What the keys start with that are read for a session. -/
def sessionPrefix : Text := "anonreq:".toList ++ sessionId ++ ":".toList

/-- The keys of a page, one after the other: whether a value is found, unless reading raises. -/
def readKeys : List Text → Except CacheError Bool
  | [] => .ok false
  | key :: keys =>
    if ¬(sessionPrefix sessionId).isPrefixOf key then readKeys keys
    else do
      match ← k.read key with
      | none => readKeys keys
      | some original => if original <:+: text then return true else readKeys keys

/-- The pages of a scan, up to its last one or to where it raises. An empty page ends the search,
and so does what is raised while a page is read. -/
def scanPages : List (List Text) → Bool
  | [] => false
  | page :: pages =>
    if page.isEmpty then false
    else
      match readKeys k sessionId text page with
      | .error _ => false
      | .ok true => true
      | .ok false => scanPages pages

end

/-- Indicator 2. The pages are those of a scan for the session. -/
def storedIndicator (text : Text) (sessionId : Option Text) (cache : Option Keyspace)
    (pages : List (List Text)) : Option Indicator :=
  match sessionId, cache with
  | some sessionId, some k =>
    if sessionId ≠ [] ∧ scanPages k sessionId text pages then some (mappingIndicator, 4 / 5)
    else none
  | _, _ => none

/-- `_detect_reconstruction_attempts`. -/
def detectReconstructionAttempts (u : Unicode) (text : Text) (sessionId : Option Text)
    (cache : Option Keyspace) (pages : List (List Text)) : Bool × ℚ × List Text :=
  let indicators :=
    [tokenIndicator u text, storedIndicator text sessionId cache pages, promptIndicator u text,
      bracketIndicator u text].reduceOption
  let confidence := (indicators.map Prod.snd).foldl max 0
  (decide (7 / 10 ≤ confidence), min confidence 1, indicators.map Prod.fst)

/-! ### Inspections -/

/-- The content of a tool result. -/
inductive ToolContent where
  | none
  | text (text : Text)
  | dict (fields : List (Text × Json))
  | other (value : Json)

/-- `ToolResult`, the fields that are inspected. -/
structure ToolResult where
  id : Text
  name : Text
  content : ToolContent

/-- What is done with a result. -/
inductive InspectionAction where
  | allow
  | suppress
  | alert
deriving DecidableEq

/-- `InspectionResult`. -/
structure InspectionResult where
  toolName : Text
  toolId : Text
  piiDetected : Bool := false
  piiEntityCount : ℕ := 0
  piiEntityTypes : List Text := []
  reconstructionAttempt : Bool := false
  reconstructionConfidence : ℚ := 0
  reconstructionIndicators : List Text := []
  action : InspectionAction := .allow

/-- `ToolResultInspector`, with what it rests on. -/
structure ToolResultInspector where
  unicode : Unicode
  /-- `json.dumps(content, default=str)`. -/
  dumps : List (Text × Json) → Text
  /-- `str(content)` of what is neither a text nor a dictionary. -/
  str : Json → Text
  /-- The `entity_type` of each thing that `analyze` finds, if it has one. `none`: it raises. -/
  analyze : Text → Option (List (Option Text))

/-- `_determine_action`. -/
def determineAction (piiDetected reconstructionAttempt : Bool) (reconstructionConfidence : ℚ) :
    InspectionAction :=
  if reconstructionAttempt ∧ 9 / 10 ≤ reconstructionConfidence then .suppress
  else if piiDetected then .alert
  else .allow

namespace ToolResultInspector

variable (I : ToolResultInspector)

/-- `_extract_text_content`. -/
def extractTextContent (result : ToolResult) : Text :=
  match result.content with
  | .none => []
  | .text text => text
  | .dict fields => I.dumps fields
  | .other value => I.str value

/-- `inspect(tool_result, session_id)`, with the key space as it is and the pages of the scan. -/
def inspect (k : Keyspace) (pages : List (List Text)) (result : ToolResult)
    (sessionId : Option Text) : InspectionResult :=
  let text := I.extractTextContent result
  let fresh : InspectionResult := { toolName := result.name, toolId := result.id }
  if text = [] then fresh
  else
    let found := (I.analyze text).getD []
    let piiDetected := !found.isEmpty
    let cache := if piiDetected then some k else none
    let (attempt, confidence, indicators) :=
      detectReconstructionAttempts I.unicode text sessionId cache pages
    { fresh with
      piiDetected
      piiEntityCount := found.length
      piiEntityTypes := (found.map (·.getD "UNKNOWN".toList)).eraseDups
      reconstructionAttempt := attempt
      reconstructionConfidence := confidence
      reconstructionIndicators := indicators
      action := determineAction piiDetected attempt confidence }

end ToolResultInspector

/-! ### What the scan finds -/

section

variable {k : Keyspace} {sessionId text : Text}

/-- What a key decides about the search: a value is found, or reading the key raises. -/
def verdict (k : Keyspace) (sessionId text key : Text) : Option Bool :=
  if sessionPrefix sessionId <+: key then
    match k.read key with
    | .error _ => some false
    | .ok none => none
    | .ok (some original) => if original <:+: text then some true else none
  else none

theorem verdict_eq_some_true_iff {key : Text} :
    verdict k sessionId text key = some true ↔
      sessionPrefix sessionId <+: key ∧
        ∃ value, Dict.get k key = some (.string value) ∧ value <:+: text := by
  rw [verdict]
  split_ifs with hstarts
  · rw [and_iff_right hstarts, Keyspace.read]
    rcases hget : Dict.get k key with _ | ⟨value⟩ | _ | _ <;> simp
  · simp [hstarts]

theorem verdict_eq_some_false_iff {key : Text} :
    verdict k sessionId text key = some false ↔
      sessionPrefix sessionId <+: key ∧ ∃ e, k.read key = .error e := by
  rw [verdict]
  split_ifs with hstarts
  · rw [and_iff_right hstarts]
    rcases hread : k.read key with e | _ | original
    · simp
    · simp
    · by_cases h : original <:+: text <;> simp [h]
  · simp [hstarts]

/-- The first key that decides does. -/
theorem readKeys_eq (keys : List Text) :
    readKeys k sessionId text keys =
      match keys.findSome? (verdict k sessionId text) with
      | none => .ok false
      | some true => .ok true
      | some false => .error .wrongType := by
  induction keys with
  | nil => rfl
  | cons key keys ih =>
    rw [readKeys, List.findSome?_cons, verdict]
    by_cases hstarts : sessionPrefix sessionId <+: key
    · rw [if_neg (by simpa using hstarts), if_pos hstarts, Keyspace.read]
      rcases hget : Dict.get k key with _ | ⟨value⟩ | _ | _
      · exact ih
      · by_cases h : value <:+: text
        · simp [h, bind, Except.bind, pure, Except.pure]
        · simpa [h, bind, Except.bind] using ih
      · rfl
      · rfl
    · rw [if_pos (by simpa using hstarts), if_neg hstarts]
      exact ih

theorem scanPages_eq (pages : List (List Text)) :
    scanPages k sessionId text pages =
      ((pages.takeWhile fun page => !page.isEmpty).flatten.findSome?
        (verdict k sessionId text) == some true) := by
  induction pages with
  | nil => rfl
  | cons page pages ih =>
    cases hpage : page.isEmpty with
    | true => simp [scanPages, hpage]
    | false =>
      rw [scanPages, hpage, if_neg Bool.false_ne_true, readKeys_eq,
        List.takeWhile_cons_of_pos (by simp [hpage]), List.flatten_cons, List.findSome?_append]
      rcases page.findSome? (verdict k sessionId text) with _ | _ | _
      · exact ih
      · rfl
      · rfl

/-- In the pages up to the first empty one, a key of the session holds a text that occurs, and the
keys of the session before it can be read. -/
def MeetsText (k : Keyspace) (sessionId text : Text) (pages : List (List Text)) : Prop :=
  ∃ before key after value,
    (pages.takeWhile fun page => !page.isEmpty).flatten = before ++ key :: after ∧
      sessionPrefix sessionId <+: key ∧ Dict.get k key = some (.string value) ∧ value <:+: text ∧
      ∀ passed ∈ before, sessionPrefix sessionId <+: passed → ∃ read, k.read passed = .ok read

/-- **The scan.** -/
theorem scanPages_eq_true_iff {pages : List (List Text)} :
    scanPages k sessionId text pages = true ↔ MeetsText k sessionId text pages := by
  rw [scanPages_eq, beq_iff_eq]
  constructor
  · intro h
    obtain ⟨before, key, after, hkeys, hkey, hbefore⟩ := List.findSome?_eq_some_iff.mp h
    obtain ⟨hstarts, value, hget, hinfix⟩ := verdict_eq_some_true_iff.mp hkey
    refine ⟨before, key, after, value, hkeys, hstarts, hget, hinfix, fun passed hpassed hp => ?_⟩
    rcases hread : k.read passed with e | read
    · have hfalse : verdict k sessionId text passed = some false :=
        verdict_eq_some_false_iff.mpr ⟨hp, e, hread⟩
      exact nomatch (hbefore passed hpassed).symm.trans hfalse
    · exact ⟨read, rfl⟩
  · rintro ⟨before, key, after, value, hkeys, hstarts, hget, hinfix, hbefore⟩
    have hkey := verdict_eq_some_true_iff.mpr ⟨hstarts, value, hget, hinfix⟩
    rw [hkeys, List.findSome?_append, List.findSome?_cons, hkey]
    -- Of the keys before it, one may have been found already, but none raises.
    rcases hfirst : before.findSome? (verdict k sessionId text) with _ | _ | _
    · rfl
    · obtain ⟨l, passed, l', hl, hpassed, -⟩ := List.findSome?_eq_some_iff.mp hfirst
      obtain ⟨hp, e, hread⟩ := verdict_eq_some_false_iff.mp hpassed
      obtain ⟨read, hok⟩ := hbefore passed (hl ▸ List.mem_append_right l List.mem_cons_self) hp
      exact nomatch hread.symm.trans hok
    · rfl

end

/-! ### What is reported -/

/-- An indicator of the text is none of the mappings. -/
theorem ne_mappingIndicator {front description : Text} (h : front <+: description)
    (hfront : ¬front <+: mappingIndicator) : description ≠ mappingIndicator :=
  fun heq => hfront (heq ▸ h)

section

variable (u : Unicode) (text : Text)

/-- The confidence that the text alone gives. -/
def textConfidence : ℚ :=
  ([tokenIndicator u text, promptIndicator u text, bracketIndicator u text].reduceOption.map
    Prod.snd).foldl max 0

variable {u text}

theorem ne_of_mem_tokenIndicator {i : Indicator} (h : i ∈ tokenIndicator u text) :
    i.1 ≠ mappingIndicator := by
  rw [tokenIndicator] at h
  split_ifs at h
  · exact nomatch h
  · rw [← Option.some.inj h]
    refine @ne_mappingIndicator "Token".toList _ ?_ (by decide)
    exact ⟨_, rfl⟩

theorem ne_of_mem_promptIndicator {i : Indicator} (h : i ∈ promptIndicator u text) :
    i.1 ≠ mappingIndicator := by
  obtain ⟨prompt, -, rfl⟩ := Option.map_eq_some_iff.mp h
  refine @ne_mappingIndicator "Reconstruction".toList _ ?_ (by decide)
  exact ⟨_, rfl⟩

theorem ne_of_mem_bracketIndicator {i : Indicator} (h : i ∈ bracketIndicator u text) :
    i.1 ≠ mappingIndicator := by
  rw [bracketIndicator] at h
  split_ifs at h
  · rw [← Option.some.inj h]
    refine @ne_mappingIndicator "Suspicious".toList _ ?_ (by decide)
    exact ⟨_, rfl⟩
  · exact nomatch h

end

theorem le_foldl_max_iff {α : Type*} [LinearOrder α] {threshold start : α} {xs : List α} :
    threshold ≤ xs.foldl max start ↔ threshold ≤ start ∨ ∃ x ∈ xs, threshold ≤ x := by
  induction xs generalizing start with
  | nil => simp
  | cons x xs ih => rw [List.foldl_cons, ih, le_max_iff, List.exists_mem_cons_iff, or_assoc]

section

variable {u : Unicode} {text : Text} {sessionId : Option Text} {cache : Option Keyspace}
  {pages : List (List Text)}

/-- The search of a session's mappings finds a value. -/
def FindsStored (sessionId : Option Text) (cache : Option Keyspace) (text : Text)
    (pages : List (List Text)) : Prop :=
  ∃ s ∈ sessionId, ∃ k ∈ cache, s ≠ [] ∧ MeetsText k s text pages

theorem storedIndicator_eq_some_iff {i : Indicator} :
    storedIndicator text sessionId cache pages = some i ↔
      i = (mappingIndicator, 4 / 5) ∧ FindsStored sessionId cache text pages := by
  rcases sessionId with _ | s
  · simp [storedIndicator, FindsStored]
  rcases cache with _ | k
  · simp [storedIndicator, FindsStored]
  rw [storedIndicator]
  simp only [FindsStored, Option.mem_some_iff, exists_eq_left', ← scanPages_eq_true_iff]
  split_ifs with h
  · simp [h, eq_comm]
  · simp [h]

/-- **The report.** -/
theorem mappingIndicator_mem_iff :
    mappingIndicator ∈ (detectReconstructionAttempts u text sessionId cache pages).2.2 ↔
      FindsStored sessionId cache text pages := by
  rw [detectReconstructionAttempts, List.mem_map]
  constructor
  · rintro ⟨i, hi, heq⟩
    rw [List.reduceOption_mem_iff] at hi
    simp only [List.mem_cons, List.not_mem_nil, or_false] at hi
    obtain htoken | hstored | hprompt | hbracket := hi
    · exact absurd heq (ne_of_mem_tokenIndicator htoken.symm)
    · exact (storedIndicator_eq_some_iff.mp hstored.symm).2
    · exact absurd heq (ne_of_mem_promptIndicator hprompt.symm)
    · exact absurd heq (ne_of_mem_bracketIndicator hbracket.symm)
  · intro h
    have hstored := storedIndicator_eq_some_iff.mpr ⟨rfl, h⟩
    refine ⟨(mappingIndicator, 4 / 5), List.reduceOption_mem_iff.mpr ?_, rfl⟩
    rw [← hstored]
    exact List.mem_cons_of_mem _ List.mem_cons_self

/-- **The verdict**: a value is found, or the text alone gives enough confidence. -/
theorem attempt_iff :
    (detectReconstructionAttempts u text sessionId cache pages).1 = true ↔
      FindsStored sessionId cache text pages ∨ 7 / 10 ≤ textConfidence u text := by
  have hstart : ¬(7 / 10 : ℚ) ≤ 0 := by norm_num
  have henough : (7 / 10 : ℚ) ≤ 4 / 5 := by norm_num
  rw [detectReconstructionAttempts, decide_eq_true_iff, textConfidence, le_foldl_max_iff,
    le_foldl_max_iff, or_iff_right hstart, or_iff_right hstart]
  simp only [List.mem_map, exists_exists_and_eq_and, List.reduceOption_mem_iff, List.mem_cons,
    List.not_mem_nil, or_false]
  constructor
  · rintro ⟨i, htoken | hstored | hprompt | hbracket, hi⟩
    · exact Or.inr ⟨i, Or.inl htoken, hi⟩
    · exact Or.inl (storedIndicator_eq_some_iff.mp hstored.symm).2
    · exact Or.inr ⟨i, Or.inr (Or.inl hprompt), hi⟩
    · exact Or.inr ⟨i, Or.inr (Or.inr hbracket), hi⟩
  · rintro (hfinds | ⟨i, htoken | hprompt | hbracket, hi⟩)
    · have hstored := storedIndicator_eq_some_iff.mpr ⟨rfl, hfinds⟩
      exact ⟨_, Or.inr (Or.inl hstored.symm), henough⟩
    · exact ⟨i, Or.inl htoken, hi⟩
    · exact ⟨i, Or.inr (Or.inr (Or.inl hprompt)), hi⟩
    · exact ⟨i, Or.inr (Or.inr (Or.inr hbracket)), hi⟩

end

namespace ToolResultInspector

variable (I : ToolResultInspector)

/-- Personal data is found in a text. -/
def FindsPii (text : Text) : Prop := ∃ found ∈ I.analyze text, found ≠ []

/-- The mappings of a session are searched for what stands in a result, and a text is found. -/
def Finds (k : Keyspace) (pages : List (List Text)) (result : ToolResult) (sessionId : Text) :
    Prop :=
  let text := I.extractTextContent result
  text ≠ [] ∧ I.FindsPii text ∧ sessionId ≠ [] ∧ MeetsText k sessionId text pages

/-- The text of a result is enough for a reconstruction attempt. -/
def Indicates (result : ToolResult) : Prop :=
  7 / 10 ≤ textConfidence I.unicode (I.extractTextContent result)

end ToolResultInspector

/-- A stored value is reported. -/
def InspectionResult.ReportsStored (r : InspectionResult) : Prop :=
  mappingIndicator ∈ r.reconstructionIndicators

section

variable {I : ToolResultInspector} {k : Keyspace} {pages : List (List Text)} {result : ToolResult}
  {sessionId : Text}

theorem findsStored_iff :
    FindsStored (some sessionId)
        (if !((I.analyze (I.extractTextContent result)).getD []).isEmpty then some k else none)
        (I.extractTextContent result) pages ↔
      I.FindsPii (I.extractTextContent result) ∧ sessionId ≠ [] ∧
        MeetsText k sessionId (I.extractTextContent result) pages := by
  rcases hfound : I.analyze (I.extractTextContent result) with _ | found
  · simp [FindsStored, ToolResultInspector.FindsPii, hfound]
  · cases found <;> simp [FindsStored, ToolResultInspector.FindsPii, hfound]

/-- When a result is reported as one with a stored value. -/
theorem reportsStored_iff :
    (I.inspect k pages result (some sessionId)).ReportsStored ↔
      I.Finds k pages result sessionId := by
  rw [ToolResultInspector.inspect, ToolResultInspector.Finds]
  split_ifs with htext
  · simp [InspectionResult.ReportsStored, htext]
  · rw [and_iff_right htext, ← findsStored_iff]
    exact mappingIndicator_mem_iff

/-- When a result counts as a reconstruction attempt. -/
theorem reconstructionAttempt_iff :
    (I.inspect k pages result (some sessionId)).reconstructionAttempt = true ↔
      I.Finds k pages result sessionId ∨ I.Indicates result := by
  rw [ToolResultInspector.inspect, ToolResultInspector.Finds, ToolResultInspector.Indicates]
  split_ifs with htext
  · have hzero : textConfidence I.unicode [] = 0 := by
      rfl
    rw [htext, hzero]
    norm_num
  · rw [and_iff_right htext, ← findsStored_iff]
    exact attempt_iff

end

/-! ### Stored values -/

/-- An original that is stored for a session occurs in a text. -/
def Occurs (c : MappingStore) (sessionId text : Text) : Prop :=
  ∃ o ∈ c.originals, o.sessionId = sessionId ∧ o.original <:+: text

/-- A key of a session holds no text. -/
def NoSessionText (sessionId key : Text) (value : Stored) : Prop :=
  sessionPrefix sessionId <+: key → ∀ text, value ≠ .string text

/-- The pages of a scan have the keys that match what the inspector looks for. -/
def IsScan (globMatch : Text → Text → Bool) (k : Keyspace) (sessionId : Text)
    (pages : List (List Text)) : Prop :=
  ∀ key, key ∈ pages.flatten ↔
    key ∈ k.map Prod.fst ∧ globMatch key (sessionPrefix sessionId ++ ['*']) = true

variable {N : Type*} (M : CacheManager N) (I : ToolResultInspector)

/-- In every run a result is reported if and only if an original of the session occurs in it. -/
def FlagsReconstructions (globMatch : Text → Text → Bool) (reported : InspectionResult → Prop) :
    Prop :=
  ∀ actions pages result sessionId,
    let c := Runs.exec (MappingStore.step M) .empty actions
    IsScan globMatch c.keyspace sessionId pages →
      (reported (I.inspect c.keyspace pages result (some sessionId)) ↔
        Occurs c sessionId (I.extractTextContent result))

/-- Where other clients write no texts at the keys of a session, nothing is found. -/
theorem not_finds_exec {actions : List (MappingStore.Action N)} {sessionId : Text}
    (h : ∀ a ∈ actions, MappingStore.Writes (NoSessionText sessionId) a) (pages : List (List Text))
    (result : ToolResult) :
    ¬I.Finds (Runs.exec (MappingStore.step M) .empty actions).keyspace pages result sessionId := by
  have hholds := MappingStore.holds_exec (M := M) (P := NoSessionText sessionId)
    (fun _ _ _ _ heq => nomatch heq) h
  rintro ⟨-, -, -, before, key, after, value, -, hstarts, hget, -⟩
  exact hholds key (.string value) hget hstarts value rfl

/-- **Reports are right** exactly if a text at the session's own keys occurs when a stored original
does. The mappings are no such texts: where other clients write none, reports are right exactly if
no original occurs. The same goes for attempts, which the text alone may be enough for. -/
theorem reconstruction_iff (actions : List (MappingStore.Action N)) (pages : List (List Text))
    (result : ToolResult) (sessionId : Text) :
    let c := Runs.exec (MappingStore.step M) .empty actions
    let r := I.inspect c.keyspace pages result (some sessionId)
    let occurs := Occurs c sessionId (I.extractTextContent result)
    let finds := I.Finds c.keyspace pages result sessionId
    ((r.ReportsStored ↔ occurs) ↔ (occurs ∧ finds) ∨ (¬occurs ∧ ¬finds)) ∧
      ((∀ a ∈ actions, MappingStore.Writes (NoSessionText sessionId) a) →
        ((r.ReportsStored ↔ occurs) ↔ ¬occurs)) ∧
      ((r.reconstructionAttempt = true ↔ occurs) ↔
        (occurs ∧ (finds ∨ I.Indicates result)) ∨ (¬occurs ∧ ¬finds ∧ ¬I.Indicates result)) := by
  intro c r occurs finds
  have hreports : r.ReportsStored ↔ finds := reportsStored_iff
  have hattempt : r.reconstructionAttempt = true ↔ finds ∨ I.Indicates result :=
    reconstructionAttempt_iff
  refine ⟨?_, fun hwrites => ?_, ?_⟩
  · rw [hreports]
    tauto
  · have hnone : ¬finds := not_finds_exec M I hwrites pages result
    rw [hreports]
    tauto
  · rw [hattempt]
    tauto

/-- **A stored address** in a result in which personal data is found. It is at the key
`anonreq:t:s`, and the scan looks for `anonreq:s:*`. -/
theorem not_flagsReconstructions :
    let M : CacheManager Unit := { encrypt := none }
    let I : ToolResultInspector := {
      unicode := .ascii
      dumps := fun _ => []
      str := fun _ => []
      analyze := fun _ => some [some "EMAIL_ADDRESS".toList] }
    ¬FlagsReconstructions M I Glob.fnmatch InspectionResult.ReportsStored ∧
      ¬FlagsReconstructions M I Glob.fnmatch fun r => r.reconstructionAttempt = true := by
  intro M I
  let address : Text := "jo@x.de".toList
  let store : MappingStore.Action Unit :=
    .storeMapping ['t'] ['s'] (fun _ => ()) [("[EMAIL_0]".toList, address)]
  let result : ToolResult := { id := [], name := [], content := .text address }
  let c := Runs.exec (MappingStore.step M) .empty [store]
  have hscan : IsScan Glob.fnmatch c.keyspace ['s'] [[]] := by
    have hkeys : c.keyspace.map Prod.fst = ["anonreq:t:s".toList] := rfl
    have hmatch : Glob.fnmatch "anonreq:t:s".toList (sessionPrefix ['s'] ++ ['*']) = false := by
      decide
    intro key
    rw [hkeys, List.mem_singleton]
    constructor
    · exact fun h => absurd h List.not_mem_nil
    · rintro ⟨rfl, h⟩
      exact absurd (hmatch.symm.trans h) Bool.false_ne_true
  have hoccurs : Occurs c ['s'] (I.extractTextContent result) :=
    ⟨⟨['t'], ['s'], "[EMAIL_0]".toList, address⟩, List.mem_singleton.mpr rfl, rfl,
      List.infix_rfl⟩
  have hfinds : ¬I.Finds c.keyspace [[]] result ['s'] := by
    rintro ⟨-, -, -, before, key, after, value, hkeys, -⟩
    exact List.append_ne_nil_of_right_ne_nil before (List.cons_ne_nil key after) hkeys.symm
  have hindicates : ¬I.Indicates result := by
    have hzero : textConfidence .ascii address = 0 := by rfl
    rw [ToolResultInspector.Indicates, ToolResultInspector.extractTextContent, hzero]
    norm_num
  refine ⟨fun h => ?_, fun h => ?_⟩
  · exact hfinds (reportsStored_iff.mp ((h [store] [[]] result ['s'] hscan).mpr hoccurs))
  · have hattempt := (h [store] [[]] result ['s'] hscan).mpr hoccurs
    exact (reconstructionAttempt_iff.mp hattempt).elim hfinds hindicates

end AnonReq.Governance
