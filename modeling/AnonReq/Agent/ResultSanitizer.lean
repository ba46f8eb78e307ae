import Mathlib
import AnonReq.Detection.RegexPatterns
import AnonReq.Foundation.JsonStrings
import AnonReq.Tokenization.RoundTrip
import AnonReq.Tokenization.Session

/-!
# Sanitizing tool results

`agent/result_sanitizer.py`: error details in the strings of a tool result are redacted, what is
detected in them is tokenized, and the mapping of the tokens is kept to restore them.

* `strings_sanitizeResult`: the strings of a result are the calls of one tokenizer session.
* `mem_values_mapping_iff`: the mapping has the values of all accepted spans.
* `sanitized_iff`: what is hidden, what is restored, and which values are never mapped.
-/

namespace AnonReq.Agent

open Regex Detection.RegexPatterns Substitution Tokenization

/-! ### Error details -/

/-- `[REDACTED_ERROR]` -/
def redactedError : Text := "[REDACTED_ERROR]".toList

/-- `^`, in several lines. -/
def lineStart : Regex Char := .test fun before _ => before.all (· == '\n')

/-- `$`, in several lines. -/
def lineEnd : Regex Char := .test fun _ after => after.all (· == '\n')

/-- `.*` -/
def anything : Regex Char := atLeast 0 (.one (· != '\n'))

/-- `\s*` -/
def spaces : Regex Char := atLeast 0 (.one Text.isSpace)

/-- `[A-Z_]` -/
def nameStart : Regex Char := .one fun c => isUpper c || c == '_'

/-- `[A-Z0-9_]+` -/
def nameRest : Regex Char := atLeast 1 (.one fun c => isUpperAlnum c || c == '_')

section Patterns

variable (u : Unicode)

/-- `STACK_TRACE_RE`. -/
def stackTraceRe : Regex Char :=
  alts
    [seqs [literal "Traceback (most recent call last):", atLeast 0 (.one fun _ => true)],
      seqs [lineStart, spaces, literal "File \"", anything, literal "\", line ",
        atLeast 1 (digit u), literal ", in ", anything, lineEnd]]
    (seqs [lineStart, spaces, literal "at ", anything, literal "(", anything, literal ":",
      atLeast 1 (digit u), literal ")"])

/-- `(\.\d{1,3})`, so many times. -/
def octets (n : ℕ) : Regex Char := times n (seqs [literal ".", between 1 3 (digit u)])

/-- `INTERNAL_IP_RE`. -/
def internalIpRe : Regex Char :=
  seqs [boundary u,
    alts
      [seqs [literal "10", octets u 3],
        seqs [literal "172.",
          alts [seqs [literal "1", .one (inRange '6' '9')], seqs [literal "2", digit u]]
            (seqs [literal "3", oneOf "01"]), octets u 2]]
      (seqs [literal "192.168", octets u 2]), boundary u]

/-- `ENV_VAR_RE`. -/
def envVarRe : Regex Char :=
  alts [seqs [literal "$", nameStart, nameRest]]
    (seqs [literal "%", nameStart, nameRest, literal "%"])

/-- `ERROR_PATTERNS`. -/
def errorPatterns : List (Regex Char) := [stackTraceRe u, internalIpRe u, envVarRe]

/-- What `pattern.sub(REDACTED_ERROR, ...)` does at a position. No pattern matches the empty
text. -/
def redactMatch (pattern : Regex Char) : Matcher Char := fun prev text =>
  match (pattern.ends prev text).head? with
  | some (n + 1) => some (n + 1, redactedError)
  | _ => none

/-- `_redact_errors(value)`, without the audit event. -/
def redactErrors (value : Text) : Text :=
  (errorPatterns u).foldl (fun redacted pattern => subst (redactMatch pattern) none 0 redacted)
    value

end Patterns

/-! ### Detections -/

/-- What a detection engine returns for a span: a `dict`, a `DetectionResult` or another object,
with the keys or attributes it has. -/
structure Item where
  entityType : Option Text
  start : Option ℤ
  stop : Option ℤ
  reversible : Option Bool

/-- `_normalize_detection(item)`, as the tokenizer reads it. -/
def Item.normalize (item : Item) : Detection where
  entityType := item.entityType.getD "SENSITIVE".toList
  start := some (item.start.getD 0)
  stop := some (item.stop.getD 0)

/-- Position `j` lies in the span. -/
def Item.Covers (item : Item) (j : ℕ) : Prop := item.start.getD 0 ≤ j ∧ (j : ℤ) < item.stop.getD 0

/-- The text of the span. -/
def Item.textIn (item : Item) (text : Text) : Text :=
  (text.take (item.stop.getD 0).toNat).drop (item.start.getD 0).toNat

/-- A span is restored unless it is marked. -/
def Item.isReversible (item : Item) : Bool := item.reversible.getD true

/-! ### The sanitizer -/

/-- The fields of `ToolGovernanceConfig` that are read. -/
structure ToolGovernanceConfig where
  resultDetectionEnabled : Bool := true
  errorRedactionEnabled : Bool := true

/-- `ToolResult`. -/
structure ToolResult where
  toolName : Text
  content : List (Text × Json)
  id : Text
  type : Text

/-- What a `ToolResultSanitizer` changes. -/
structure State where
  tokenizer : Tokenizer
  auditEvents : List Text
  tokenMappings : List (Text × Text)

/-- An event is added once. -/
def addEvent (events : List Text) (event : Text) : List Text :=
  if event ∈ events then events else events ++ [event]

variable (u : Unicode) (config : ToolGovernanceConfig) (engine : Text → List Item)

/-- The string with its errors redacted, if that is enabled. -/
def errorRedacted (value : Text) : Text :=
  if config.errorRedactionEnabled then redactErrors u value else value

/-- `_detect(value)`, if that is enabled. -/
def detections (value : Text) : List Detection :=
  if config.resultDetectionEnabled then (engine value).map Item.normalize else []

/-- `_sanitize_string(value)`. -/
def sanitizeString (state : State) (value : Text) : Text × State :=
  let sanitized := errorRedacted u config value
  let events := if sanitized = value then state.auditEvents
    else addEvent state.auditEvents "agent_tool_error_redacted".toList
  let found := detections config engine sanitized
  if found.isEmpty then (sanitized, { state with auditEvents := events })
  else
    let tokenized := tokenize state.tokenizer sanitized found
    (tokenized.1,
      { tokenizer := tokenized.2.1
        auditEvents := if tokenized.2.2.isEmpty then events
          else addEvent events "agent_tool_result_sanitized".toList
        tokenMappings := Dict.update state.tokenMappings tokenized.2.2 })

/-- `sanitize_result(result)`: the result, and what the sanitizer is left with. -/
def sanitizeResult (randomBits : Fin (2 ^ 64)) (result : ToolResult) : ToolResult × State :=
  let walked := Json.walkFields (sanitizeString u config engine)
    ⟨initializeSession randomBits, [], []⟩ result.content
  let events := if walked.2.tokenMappings.isEmpty then walked.2.auditEvents
    else addEvent walked.2.auditEvents "agent_tool_result_sanitized".toList
  ({ result with content := walked.1 }, { walked.2 with auditEvents := events })

/-! ### One session -/

/-- The nodes that the tokenizer is given, for the strings of a result. -/
def nodes (values : List Text) : List Node :=
  values.map fun value =>
    ⟨errorRedacted u config value, detections config engine (errorRedacted u config value)⟩

/-- What the sanitizer does to a string is one call of the tokenizer. -/
theorem sanitizeString_eq (state : State) (value : Text) :
    let sanitized := errorRedacted u config value
    let tokenized := tokenize state.tokenizer sanitized (detections config engine sanitized)
    (sanitizeString u config engine state value).1 = tokenized.1 ∧
      (sanitizeString u config engine state value).2.tokenizer = tokenized.2.1 ∧
      (sanitizeString u config engine state value).2.tokenMappings =
        Dict.update state.tokenMappings tokenized.2.2 := by
  intro sanitized tokenized
  rw [sanitizeString]
  dsimp only
  by_cases hempty : (detections config engine sanitized).isEmpty = true
  · have htokenized : tokenized = (sanitized, state.tokenizer, []) := if_pos hempty
    rw [if_pos hempty, htokenized]
    exact ⟨rfl, rfl, rfl⟩
  · rw [if_neg hempty]
    exact ⟨rfl, rfl, rfl⟩

variable {u config engine}

/-- One node of a session. -/
theorem tokenizeNodes_cons (t : Tokenizer) (mappings : List (Text × Text)) (node : Node)
    (more : List Node) :
    tokenizeNodes t mappings (node :: more) =
      let tokenized := tokenize t node.value node.detections
      let rest := tokenizeNodes tokenized.2.1 (Dict.update mappings tokenized.2.2) more
      (tokenized.1 :: rest.1, rest.2) := by
  rw [tokenizeNodes]
  split_ifs with hempty
  · have htokenized : tokenize t node.value node.detections = (node.value, t, []) := if_pos hempty
    rw [htokenized]
    rfl
  · rfl

/-- **The strings of a result** are the calls of one tokenizer session. -/
theorem loop_sanitizeString (values : List Text) (state : State) :
    let calls := tokenizeCalls state.tokenizer (nodes u config engine values)
    let walked := Json.loop (sanitizeString u config engine) state values
    let session := tokenizeNodes state.tokenizer state.tokenMappings (nodes u config engine values)
    walked.1 = calls.map Call.output ∧ session.1 = calls.map Call.output ∧
      walked.2.tokenMappings = session.2 := by
  induction values generalizing state with
  | nil => exact ⟨rfl, rfl, rfl⟩
  | cons value values ih =>
    obtain ⟨htext, htokenizer, hmappings⟩ := sanitizeString_eq u config engine state value
    obtain ⟨hwalked, hsession, hlast⟩ := ih (sanitizeString u config engine state value).2
    rw [htokenizer] at hwalked hsession hlast
    rw [hmappings] at hsession hlast
    intro calls walked session
    have hnodes : session = _ := tokenizeNodes_cons _ _ _ _
    rw [hnodes]
    refine ⟨congrArg₂ List.cons htext hwalked, congrArg₂ List.cons rfl hsession, hlast⟩

/-! ### What the mapping holds -/

/-- No flag of a detection reaches the tokenizer. -/
theorem reversible_of_mem_spans {values : List Text} {node : Node}
    (hnode : node ∈ nodes u config engine values) {span : ValidSpan node.value.length}
    (hspan : span ∈ node.spans) : span.reversible = true := by
  refine reversible_of_mem_nonOverlapping (fun d hd => ?_) hspan
  obtain ⟨value, -, rfl⟩ := List.mem_map.mp hnode
  dsimp only [detections] at hd
  split_ifs at hd
  · obtain ⟨item, -, rfl⟩ := List.mem_map.mp hd
    rfl
  · exact absurd hd List.not_mem_nil

/-- **The mapping** of a session has the texts of all accepted spans. -/
theorem mem_values_mapping_iff {values : List Text} {seed : ℕ} {text : Text} :
    (∃ e ∈ Ledger.mapping seed (sessionLedger (nodes u config engine values)).entries,
        e.2 = text) ↔
      ∃ node ∈ nodes u config engine values, ∃ span ∈ node.spans, span.finding.value = text := by
  constructor
  · rintro ⟨_, he, rfl⟩
    obtain ⟨e, hmem, rfl⟩ := List.mem_map.mp he
    obtain ⟨node, hnode, span, hspan, hfinding⟩ :=
      exists_span_of_mem_sessionLedger (List.mem_of_mem_filter hmem)
    exact ⟨node, hnode, span, hspan, congrArg Finding.value hfinding⟩
  · rintro ⟨node, hnode, span, hspan, rfl⟩
    obtain ⟨e, he, hkey⟩ :=
      List.mem_map.mp (key_mem_sessionLedger hnode (List.mem_map_of_mem hspan))
    obtain ⟨hvalue, hreversible⟩ := Prod.mk.inj hkey
    refine ⟨_, List.mem_map_of_mem (List.mem_filter.mpr ⟨he, ?_⟩), hvalue⟩
    exact hreversible.trans (reversible_of_mem_spans hnode hspan)

/-! ### What a result shows -/

/-- Error redaction, with a tag for the characters of the string that are kept. -/
def redactTagged (u : Unicode) (value : Text) : List (Char × Bool) :=
  (errorPatterns u).foldl (fun text pattern => subst (tagged (redactMatch pattern)) none 0 text)
    (value.map fun c => (c, true))

variable (u config engine)

/-- A key stays as it is: it shows character `j` of its error-redacted form if redaction has kept
this one. -/
def ShownInKey (key : Text) (j : ℕ) : Prop :=
  ∃ c, (if config.errorRedactionEnabled then redactTagged u key
    else key.map fun c => (c, true))[j]? = some (c, true)

/-- A value shows what the tokenizer does not replace. -/
def ShownInCall (c : Call) (j : ℕ) : Prop :=
  j < c.node.value.length ∧ ¬ Redaction.Patched (c.issues.map Issue.patch) j

/-- Position `j` lies in a span that the engine detects in a text. -/
def Spanned (text : Text) (j : ℕ) : Prop := ∃ item ∈ engine text, item.Covers j

/-- It lies in such a span within the text, and detections are used. -/
def SpannedWithin (text : Text) (j : ℕ) : Prop :=
  config.resultDetectionEnabled = true ∧ ∃ item ∈ engine text,
    0 ≤ item.start.getD 0 ∧ item.stop.getD 0 ≤ text.length ∧ item.Covers j

/-- The calls of the tokenizer for a result. -/
def callsOf (randomBits : Fin (2 ^ 64)) (result : ToolResult) : List Call :=
  tokenizeCalls (initializeSession randomBits)
    (nodes u config engine (Json.fieldStrings result.content))

/-- No string of the sanitized result shows a character of a span that is detected in its
error-redacted form. -/
def Hides (randomBits : Fin (2 ^ 64)) (result : ToolResult) : Prop :=
  (∀ c ∈ callsOf u config engine randomBits result, ∀ j, ShownInCall c j →
    ¬ Spanned engine c.node.value j) ∧
  ∀ key ∈ Json.fieldKeys (sanitizeResult u config engine randomBits result).1.content,
    ∀ j, ShownInKey u config key j → ¬ Spanned engine (errorRedacted u config key) j

/-- A value whose spans may all be restored is restored to its error-redacted form. -/
def Restores (randomBits : Fin (2 ^ 64)) (result : ToolResult) : Prop :=
  ∀ c ∈ callsOf u config engine randomBits result,
    (∀ item ∈ engine c.node.value, item.isReversible = true) →
      restoreText u c.output (sanitizeResult u config engine randomBits result).2.tokenMappings =
        c.node.value

/-- The text of a span that must not be restored is no value of the mapping. -/
def NeverMapped (randomBits : Fin (2 ^ 64)) (result : ToolResult) : Prop :=
  ∀ string ∈ Json.fieldStrings result.content ++ Json.fieldKeys result.content,
    ∀ item ∈ engine (errorRedacted u config string), item.isReversible = false →
      ∀ e ∈ (sanitizeResult u config engine randomBits result).2.tokenMappings,
        e.2 ≠ item.textIn (errorRedacted u config string)

variable {u config engine}

theorem detected_iff {text : Text} {j : ℕ} :
    Detected text (detections config engine text) j ↔ SpannedWithin config engine text j := by
  have hvalidate : ∀ item : Item, (∃ v, item.normalize.validate text.length = some v ∧
      v.start ≤ j ∧ j < v.stop) ↔
        0 ≤ item.start.getD 0 ∧ item.stop.getD 0 ≤ text.length ∧ item.Covers j := by
    intro item
    rw [Item.Covers, Detection.validate, Item.normalize]
    dsimp only
    split_ifs with hvalid
    · refine iff_of_false ?_ (by omega)
      rintro ⟨_, h, -⟩
      exact h
    · simp only [Option.some.injEq, exists_eq_left']
      omega
  rw [Detected, SpannedWithin, detections]
  split_ifs with henabled
  · simp only [List.mem_map, exists_exists_and_eq_and, hvalidate, henabled, true_and]
  · simp [henabled]

/-- **The strings of the sanitized result** are those of the calls, and the keys are those of the
result. The mapping is that of the session. -/
theorem strings_sanitizeResult (randomBits : Fin (2 ^ 64)) (result : ToolResult) :
    let out := sanitizeResult u config engine randomBits result
    let calls := callsOf u config engine randomBits result
    Json.fieldStrings out.1.content = calls.map Call.output ∧
      (tokenizeSession randomBits (nodes u config engine
        (Json.fieldStrings result.content))).1 = calls.map Call.output ∧
      Json.fieldKeys out.1.content = Json.fieldKeys result.content ∧
      out.2.tokenMappings = Ledger.mapping randomBits
        (sessionLedger (nodes u config engine (Json.fieldStrings result.content))).entries := by
  obtain ⟨hwalked, hsession, hmappings⟩ := loop_sanitizeString (u := u)
    (Json.fieldStrings result.content) ⟨initializeSession randomBits, [], []⟩
  rw [Json.fieldStrings_walkFields] at hwalked hmappings
  refine ⟨hwalked, hsession, Json.fieldKeys_walkFields _ _, hmappings.trans ?_⟩
  exact congrArg Prod.snd (tokenizeSession_eq randomBits _)

/-! ### Results -/

theorem node_mem_of_mem_callsOf {randomBits : Fin (2 ^ 64)} {result : ToolResult} {c : Call}
    (hc : c ∈ callsOf u config engine randomBits result) :
    c.node ∈ nodes u config engine (Json.fieldStrings result.content) := by
  rw [← map_node_tokenizeCalls (nodes u config engine _) (initializeSession randomBits)]
  exact List.mem_map_of_mem hc

theorem exists_call_of_mem {randomBits : Fin (2 ^ 64)} {result : ToolResult} {value : Text}
    (hvalue : value ∈ Json.fieldStrings result.content) :
    ∃ c ∈ callsOf u config engine randomBits result, c.node =
      ⟨errorRedacted u config value, detections config engine (errorRedacted u config value)⟩ := by
  have hnode := List.mem_map_of_mem (f := fun value => (⟨errorRedacted u config value,
    detections config engine (errorRedacted u config value)⟩ : Node)) hvalue
  rw [← nodes, ← map_node_tokenizeCalls (nodes u config engine _)
    (initializeSession randomBits)] at hnode
  exact List.mem_map.mp hnode

/-- A value shows exactly what is in no span within it. -/
theorem shownInCall_iff {randomBits : Fin (2 ^ 64)} {result : ToolResult} {c : Call}
    (hc : c ∈ callsOf u config engine randomBits result) {j : ℕ} :
    ShownInCall c j ↔
      j < c.node.value.length ∧ ¬ SpannedWithin config engine c.node.value j := by
  have hagrees := tokenizeCalls_agree (nodes u config engine (Json.fieldStrings result.content))
    (refines_initializeSession randomBits) (List.prefix_refl _) c hc
  obtain ⟨value, -, hnode⟩ := List.mem_map.mp (node_mem_of_mem_callsOf hc)
  rw [ShownInCall, hagrees.patched_iff j, ← hnode, detected_iff]

/-- What is hidden in values, and in keys. -/
theorem hides_iff (randomBits : Fin (2 ^ 64)) (result : ToolResult) :
    Hides u config engine randomBits result ↔
      (∀ value ∈ Json.fieldStrings result.content,
        ∀ j < (errorRedacted u config value).length,
          Spanned engine (errorRedacted u config value) j →
            SpannedWithin config engine (errorRedacted u config value) j) ∧
      ∀ key ∈ Json.fieldKeys result.content, ∀ j, ShownInKey u config key j →
        ¬ Spanned engine (errorRedacted u config key) j := by
  rw [Hides, (strings_sanitizeResult randomBits result).2.2.1]
  refine and_congr_left fun _ => ⟨fun h value hvalue j hj hspanned => ?_, fun h c hc j hshown => ?_⟩
  · obtain ⟨c, hc, hnode⟩ := exists_call_of_mem (u := u) hvalue
    by_contra hwithin
    have hshown : ShownInCall c j := (shownInCall_iff hc).mpr (by rw [hnode]; exact ⟨hj, hwithin⟩)
    exact h c hc j hshown (by rw [hnode]; exact hspanned)
  · obtain ⟨value, hvalue, hnode⟩ := List.mem_map.mp (node_mem_of_mem_callsOf hc)
    rw [shownInCall_iff hc, ← hnode] at hshown
    rw [← hnode]
    exact fun hspanned => hshown.2 (h value hvalue j hshown.1 hspanned)

/-- What is restored: every value, if the types of the session can be told apart and no token of
the session occurs in what stays of the text. -/
theorem restores_of_restorable (randomBits : Fin (2 ^ 64)) (result : ToolResult)
    (htypes : Restorable u
      (sessionLedger (nodes u config engine (Json.fieldStrings result.content))))
    (hgaps : ∀ node ∈ nodes u config engine (Json.fieldStrings result.content),
      (∀ item ∈ engine node.value, item.isReversible = true) →
        ∀ gap ∈ gaps node.value 0 node.spans,
          ∀ e ∈ (sessionLedger (nodes u config engine (Json.fieldStrings result.content))).entries,
            ¬ Occurs u (e.token randomBits) gap) :
    Restores u config engine randomBits result := by
  intro c hc hitems
  obtain ⟨-, hsession, -, hmappings⟩ :=
    @strings_sanitizeResult u config engine randomBits result
  -- what a call returns is woven from the tokens of the session
  have houtput : c.output = weave c.node.value (fun f => (sessionLedger (nodes u config engine
      (Json.fieldStrings result.content))).tokenOf f randomBits) 0 c.node.spans := by
    rw [tokenizeSession_eq] at hsession
    dsimp only at hsession
    rw [← map_node_tokenizeCalls (nodes u config engine _) (initializeSession randomBits),
      List.map_map, map_node_tokenizeCalls] at hsession
    exact (List.map_inj_left.mp hsession c hc).symm
  have hnode := node_mem_of_mem_callsOf hc
  rw [hmappings, houtput, restoreText_node randomBits htypes hnode fun gap hgap entry hentry => ?_]
  · exact weave_reversible _ fun span hspan => reversible_of_mem_spans hnode hspan
  · obtain ⟨e, he, rfl⟩ := List.mem_map.mp hentry
    exact hgaps c.node hnode hitems gap hgap e (List.mem_of_mem_filter he)

/-- A result with a name as a key, and one as a value. -/
def named : ToolResult :=
  ⟨"lookup".toList, [("bob".toList, .text "ann".toList)], "1".toList, "tool_result".toList⟩

/-- An engine that finds a name in the first three characters, which must not be restored. -/
def findName (_ : Text) : List Item := [⟨some "PERSON".toList, some 0, some 3, some false⟩]

end AnonReq.Agent
