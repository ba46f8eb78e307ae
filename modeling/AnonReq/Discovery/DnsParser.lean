import AnonReq.Detection.RegexPatterns
import AnonReq.Foundation.Json
import AnonReq.Foundation.Replace

/-!
# The DNS log parser

`discovery/dns_parser.py`: a line is a syslog line, a JSON document or a hostname, and a batch is
read line by line. What the parser takes from its runtime are parameters: `json.loads`, the
parsing of times, `str.lower`, `repr` and the Unicode tables. A line comes with what the clock
shows when it is read.

* `escapes_parseLine_iff`: a line raises something other than `DNSParseError` exactly if it is read
  as JSON and is not `WellTyped`.
* `parseBatch_eq`: a batch of other lines is read without an exception, up to the batch limit.
-/

namespace AnonReq.Discovery

open Regex (seqs opt atLeast times)
open Detection.RegexPatterns (literal isAlnum isWord digit)
open Substitution (replace)

/-! ### The runtime -/

/-- A `datetime`: whether it has a time zone, and the time. The time of one with a zone is an
instant, the time of one without is what it shows. -/
@[ext]
structure Timestamp (T : Type) where
  zoned : Bool
  time : T

/-- Why `json.loads` raises: `JSONDecodeError`, or `RecursionError`. -/
inductive LoadsError where
  | decode
  | recursion

/-- What the parser takes from its runtime. -/
structure LogRuntime (T : Type) where
  lower : LowerCase
  unicode : Unicode
  repr : Text → Text
  loads : Text → Except LoadsError Json
  /-- `datetime.fromisoformat`, `none` where it raises `ValueError`. -/
  fromisoformat : Text → Option (Timestamp T)
  /-- `datetime.strptime` of a syslog time in the year of the clock, read as UTC; `none` where it
  raises `ValueError`. -/
  strptime : T → Text → Option T
  /-- The empty text is no JSON. -/
  loads_nil : loads [] = .error .decode

/-! ### Lines -/

/-- `DNSEntry`. An address that JSON has given may be any document, and `None` is `null`. -/
structure DnsEntry (T : Type) where
  hostname : Text
  sourceIp : Json
  timestamp : Timestamp T
  queryType : Text := "A".toList
  responseIp : Json := .null
  raw : Option Text := none

/-- What reading a line raises: `DNSParseError`, `AttributeError` or `RecursionError`. -/
inductive LineError where
  | parse (message : Text)
  | attribute
  | recursion

/-- `_RAW_MAX_LINE_LENGTH`. -/
def rawMaxLineLength : ℕ := 4096

/-- `_DEFAULT_MAX_BATCH_SIZE`. -/
def defaultMaxBatchSize : ℤ := 10000

/-- `_HOSTNAME_RE`. A stripped text has no line break at its end, where `$` would match. -/
def hostnameRe : Regex Char :=
  let label := seqs
    [.one isAlnum, opt (seqs [atLeast 0 (.one fun c => isAlnum c || c == '-'), .one isAlnum])]
  seqs [label, atLeast 0 (seqs [literal ".", label]), .test fun _ after => after.isNone]

/-- `_HOSTNAME_RE.match`. -/
def matchesHostname (text : Text) : Bool := !(hostnameRe.ends none text).isEmpty

/-- `data.get(k, default)` of an object. -/
def getOr (data : Json) (k : String) (default : Json) : Json := (data.get k.toList).getD default

/-- The document is a text. -/
def IsText (document : Json) : Prop := ∃ s, document = .text s

theorem isText_text (s : Text) : IsText (.text s) := ⟨s, rfl⟩

variable {T : Type} (R : LogRuntime T)

namespace LogRuntime

/-- `_SYSLOG_RE`, its groups and what stands between them. -/
def syslogRe : List (Regex Char) :=
  let space := atLeast 1 (.one Text.isSpace)
  let word := atLeast 1 (.one fun c => !Text.isSpace c)
  let number := atLeast 1 (digit R.unicode)
  [seqs [times 3 (.one (isWord R.unicode)), space, number, space, number, literal ":", number,
      literal ":", number],
    seqs [space, word, space, word, literal ":", space],
    word, seqs [space, literal "query:", space],
    word, seqs [space, literal "IN", space],
    word]

/-- `_SYSLOG_RE.search(line)`, the groups: time, address, hostname and query type. -/
def searchSyslog (line : Text) : Option (Text × Text × Text × Text) :=
  match Regex.searchParts R.syslogRe none line with
  | some [ts, _, sourceIp, _, hostname, _, queryType] => some (ts, sourceIp, hostname, queryType)
  | _ => none

/-- `f"{message}{line[:100]!r}"`. -/
def shown (message : String) (line : Text) : Text := message.toList ++ R.repr (line.take 100)

/-- `_detect_format`. -/
def detectFormat (line : Text) : Except LineError Text :=
  if line.head? = some '{' then .ok "json".toList
  else if (R.searchSyslog line).isSome then .ok "syslog".toList
  else if line.contains '.' && matchesHostname line.strip then .ok "raw".toList
  else .error (.parse (R.shown "Unable to auto-detect format for line: " line))

/-- `_parse_syslog_timestamp`. -/
def parseSyslogTimestamp (now : T) (ts : Text) : Timestamp T := ⟨true, (R.strptime now ts).getD now⟩

/-- `_parse_syslog`. -/
def parseSyslog (now : T) (line : Text) : Except LineError (DnsEntry T) :=
  match R.searchSyslog line with
  | none => .error (.parse (R.shown "syslog format not matched: " line))
  | some (ts, sourceIp, hostname, queryType) =>
    .ok { hostname := R.lower.lower hostname
          sourceIp := .text sourceIp
          timestamp := R.parseSyslogTimestamp now ts
          queryType := R.unicode.upperText queryType
          raw := some line }

/-- `_parse_json_timestamp`. What is no text has no `replace`. -/
def parseJsonTimestamp (now : T) (ts : Json) : Except LineError (Timestamp T) :=
  if !ts.truthy then .ok ⟨true, now⟩
  else
    match ts with
    | .text s =>
      .ok ((R.fromisoformat (replace "Z".toList "+00:00".toList s)).getD ⟨true, now⟩)
    | _ => .error .attribute

/-- `_parse_json` of a document. What is no object has no `get`. -/
def parseDocument (now : T) (line : Text) (data : Json) : Except LineError (DnsEntry T) :=
  match data with
  | .object _ => do
    let hostname := getOr data "query" (.text [])
    let sourceIp := getOr data "src_ip" (.text [])
    let timestamp ← R.parseJsonTimestamp now (getOr data "timestamp" (.text []))
    let queryType := getOr data "qtype" (.text "A".toList)
    let responseIp := getOr data "response_ip" .null
    if !hostname.truthy || !sourceIp.truthy then
      .error (.parse "JSON missing required fields: query, src_ip".toList)
    else
      -- only a text has `lower` and `upper`
      match hostname, queryType with
      | .text hostname, .text queryType =>
        .ok { hostname := R.lower.lower hostname
              sourceIp := sourceIp
              timestamp := timestamp
              queryType := R.unicode.upperText queryType
              responseIp := responseIp
              raw := some line }
      | _, _ => .error .attribute
  | _ => .error .attribute

/-- `_parse_json`. -/
def parseJson (now : T) (line : Text) : Except LineError (DnsEntry T) :=
  match R.loads line with
  | .error .decode => .error (.parse "Invalid JSON".toList)
  | .error .recursion => .error .recursion
  | .ok data => R.parseDocument now line data

/-- `_parse_raw`. -/
def parseRaw (now : T) (line : Text) : Except LineError (DnsEntry T) :=
  let hostname := line.strip
  if hostname.isEmpty then .error (.parse "Empty raw format line".toList)
  else if !matchesHostname hostname || !hostname.contains '.' then
    .error (.parse (R.shown "Invalid hostname: " hostname))
  else
    .ok { hostname := R.lower.lower hostname
          sourceIp := .text "0.0.0.0".toList
          timestamp := ⟨true, now⟩
          queryType := "A".toList
          raw := some line }

/-- The format that a stripped line is read in. -/
def chooseFormat (stripped format : Text) : Except LineError Text :=
  if format = "auto".toList then R.detectFormat stripped else .ok format

/-- `parse_line`. -/
def parseLine (now : T) (line format : Text) : Except LineError (DnsEntry T) :=
  if line.isEmpty || rawMaxLineLength < line.length then
    .error (.parse "Empty or oversized log line".toList)
  else do
    let stripped := line.strip
    let format ← R.chooseFormat stripped format
    if format = "syslog".toList then R.parseSyslog now stripped
    else if format = "json".toList then R.parseJson now stripped
    else if format = "raw".toList then R.parseRaw now stripped
    else .error (.parse ("Unknown format: ".toList ++ format))

/-! ### What escapes -/

/-- Something other than `DNSParseError` is raised. -/
def Escapes {α : Type} : Except LineError α → Prop
  | .error (.parse _) => False
  | .error _ => True
  | .ok _ => False

/-- The fields of an object have the types that the parser takes for granted: a time is a text, if
it is given, and so are the hostname and the query type of an entry. -/
def FieldsTyped (data : Json) : Prop :=
  ((getOr data "timestamp" (.text [])).truthy → IsText (getOr data "timestamp" (.text []))) ∧
    ((getOr data "query" (.text [])).truthy → (getOr data "src_ip" (.text [])).truthy →
      IsText (getOr data "query" (.text [])) ∧ IsText (getOr data "qtype" (.text "A".toList)))

/-- A line is no JSON, or an object whose fields have the expected types. -/
def WellTyped (line : Text) : Prop :=
  match R.loads line with
  | .error .decode => True
  | .ok (.object fields) => FieldsTyped (.object fields)
  | _ => False

/-- The line is read as JSON. -/
def ReadAsJson (format line : Text) : Prop :=
  line ≠ [] ∧ line.length ≤ rawMaxLineLength ∧
    (format = "json".toList ∨ format = "auto".toList ∧ line.strip.head? = some '{')

/-- What reading a time may do. -/
theorem parseJsonTimestamp_cases (now : T) (ts : Json) :
    (∃ timestamp, R.parseJsonTimestamp now ts = .ok timestamp ∧ (ts.truthy → IsText ts)) ∨
      R.parseJsonTimestamp now ts = .error .attribute ∧ ¬(ts.truthy → IsText ts) := by
  by_cases htruthy : ts.truthy = true
  · by_cases htext : IsText ts
    · obtain ⟨s, rfl⟩ := htext
      exact Or.inl ⟨_, if_neg (by simp [htruthy]), fun _ => isText_text s⟩
    · refine Or.inr ⟨?_, fun h => htext (h htruthy)⟩
      simp only [parseJsonTimestamp, if_neg (by simp [htruthy] : ¬(!ts.truthy) = true)]
      split
      · exact absurd (isText_text _) htext
      · rfl
  · exact Or.inl ⟨⟨true, now⟩, if_pos (by simp [htruthy]), fun h => absurd h htruthy⟩

theorem escapes_parseDocument_iff {now : T} {line : Text} {fields : List (Text × Json)} :
    Escapes (R.parseDocument now line (.object fields)) ↔ ¬FieldsTyped (.object fields) := by
  rw [FieldsTyped]
  simp only [parseDocument]
  obtain ⟨timestamp, htime, htyped⟩ | ⟨htime, htyped⟩ :=
    R.parseJsonTimestamp_cases now (getOr (.object fields) "timestamp" (.text []))
  · rw [htime, and_iff_right htyped]
    simp only [bind, Except.bind]
    generalize getOr (.object fields) "query" (.text []) = hostname
    generalize getOr (.object fields) "src_ip" (.text []) = sourceIp
    generalize getOr (.object fields) "qtype" (.text "A".toList) = queryType
    split_ifs with hmissing
    · -- a line without the required fields is skipped, whatever their types are
      rw [Bool.or_eq_true, Bool.not_eq_true', Bool.not_eq_true'] at hmissing
      refine iff_of_false id (not_not_intro fun hhostname hsource => ?_)
      rw [hhostname, hsource] at hmissing
      exact absurd hmissing (by simp)
    · have hgiven : hostname.truthy = true ∧ sourceIp.truthy = true := by simpa using hmissing
      rw [forall_prop_of_true hgiven.1, forall_prop_of_true hgiven.2]
      by_cases htexts : IsText hostname ∧ IsText queryType
      · obtain ⟨⟨h, rfl⟩, q, rfl⟩ := htexts
        exact iff_of_false id (not_not_intro ⟨isText_text h, isText_text q⟩)
      · refine iff_of_true ?_ htexts
        split
        · exact absurd ⟨isText_text _, isText_text _⟩ htexts
        · trivial
  · rw [htime]
    exact iff_of_true trivial fun h => htyped h.1

theorem escapes_parseJson_iff {now : T} {line : Text} :
    Escapes (R.parseJson now line) ↔ ¬R.WellTyped line := by
  rw [parseJson, WellTyped]
  rcases R.loads line with (_ | _) | data
  · exact iff_of_false id (not_not_intro trivial)
  · exact iff_of_true trivial id
  · cases data with
    | object fields => exact R.escapes_parseDocument_iff
    | _ => exact iff_of_true trivial id

theorem not_escapes_parseSyslog (now : T) (line : Text) : ¬Escapes (R.parseSyslog now line) := by
  rw [parseSyslog]
  rcases R.searchSyslog line with _ | groups <;> exact id

theorem not_escapes_parseRaw (now : T) (line : Text) : ¬Escapes (R.parseRaw now line) := by
  simp only [parseRaw]
  split_ifs <;> exact id

/-- A format is chosen, or the line is skipped. It is JSON only where the line begins with a
brace. -/
theorem detectFormat_cases (line : Text) :
    (∃ message, R.detectFormat line = .error (.parse message) ∧ line.head? ≠ some '{') ∨
      ∃ format, R.detectFormat line = .ok format ∧
        (format = "json".toList ↔ line.head? = some '{') := by
  rw [detectFormat]
  split_ifs with hbrace hsyslog hraw
  · exact Or.inr ⟨_, rfl, iff_of_true rfl hbrace⟩
  · exact Or.inr ⟨_, rfl, iff_of_false (by decide) hbrace⟩
  · exact Or.inr ⟨_, rfl, iff_of_false (by decide) hbrace⟩
  · exact Or.inl ⟨_, rfl, hbrace⟩

/-- **What escapes.** A line raises something other than `DNSParseError` exactly if it is read as
JSON and does not have the expected types. -/
theorem escapes_parseLine_iff {now : T} {line format : Text} :
    Escapes (R.parseLine now line format) ↔ ReadAsJson format line ∧ ¬R.WellTyped line.strip := by
  have hread : ∀ chosen : Text, Escapes
      (if chosen = "syslog".toList then R.parseSyslog now line.strip
      else if chosen = "json".toList then R.parseJson now line.strip
      else if chosen = "raw".toList then R.parseRaw now line.strip
      else .error (.parse ("Unknown format: ".toList ++ chosen))) ↔
        chosen = "json".toList ∧ ¬R.WellTyped line.strip := by
    intro chosen
    split_ifs with hsyslog hjson hraw
    · exact iff_of_false (R.not_escapes_parseSyslog now _) fun h =>
        absurd (hsyslog.symm.trans h.1) (by decide)
    · rw [R.escapes_parseJson_iff, and_iff_right hjson]
    · exact iff_of_false (R.not_escapes_parseRaw now _) fun h => hjson h.1
    · exact iff_of_false id fun h => hjson h.1
  rw [parseLine, ReadAsJson]
  split_ifs with hsize
  · refine iff_of_false id fun h => ?_
    obtain ⟨⟨hne, hlength, -⟩, -⟩ := h
    rw [Bool.or_eq_true, List.isEmpty_iff, decide_eq_true_iff] at hsize
    exact hsize.elim hne (Nat.not_lt.mpr hlength)
  · have hsize : line ≠ [] ∧ line.length ≤ rawMaxLineLength := by simpa using hsize
    rw [and_iff_right hsize.1, and_iff_right hsize.2]
    by_cases hauto : format = "auto".toList
    · have hformat : format ≠ "json".toList := fun h => absurd (hauto.symm.trans h) (by decide)
      have hchoose : R.chooseFormat line.strip format = R.detectFormat line.strip := if_pos hauto
      simp only [hchoose, bind, Except.bind]
      rw [or_iff_right hformat, and_iff_right hauto]
      obtain ⟨message, hchosen, hbrace⟩ | ⟨chosen, hchosen, hbrace⟩ :=
        R.detectFormat_cases line.strip
      · rw [hchosen]
        exact iff_of_false id fun h => hbrace h.1
      · -- a line that begins with a brace is read as JSON, whatever else it looks like
        rw [hchosen, ← hbrace]
        exact hread chosen
    · have hchoose : R.chooseFormat line.strip format = .ok format := if_neg hauto
      simp only [hchoose, bind, Except.bind]
      rw [or_iff_left fun h => hauto h.1]
      exact hread format

/-! ### Batches -/

/-- The loop of `parse_batch`. -/
def parseLines (maxBatchSize : ℤ) (format : Text) :
    List (T × Text) → ℕ → List (DnsEntry T) → Except LineError (List (DnsEntry T))
  | [], _, entries => .ok entries
  | (now, line) :: lines, count, entries =>
    if maxBatchSize ≤ count then .ok entries
    else if line.isEmpty || line.strip.isEmpty then
      parseLines maxBatchSize format lines count entries
    else
      match R.parseLine now line format with
      | .ok entry => parseLines maxBatchSize format lines (count + 1) (entries ++ [entry])
      | .error (.parse _) => parseLines maxBatchSize format lines count entries
      | .error e => .error e

/-- `DNSParser(max_batch_size).parse_batch(lines, format)`. -/
def parseBatch (maxBatchSize : ℤ) (lines : List (T × Text)) (format : Text) :
    Except LineError (List (DnsEntry T)) :=
  R.parseLines maxBatchSize format lines 0 []

/-- What `parse_line` makes of a line that it accepts. -/
def accepted (format : Text) (line : T × Text) : Option (DnsEntry T) :=
  (R.parseLine line.1 line.2 format).toOption

/-- A blank line is not accepted. -/
theorem accepted_of_blank {format line : Text} (now : T) (h : line.strip = []) :
    R.accepted format (now, line) = none := by
  have hsyslog : R.searchSyslog [] = none := rfl
  have hdetect : ∃ message, R.detectFormat [] = .error (.parse message) := ⟨_, rfl⟩
  have hread : ∀ chosen : Text, ∃ e,
      (if chosen = "syslog".toList then R.parseSyslog now []
      else if chosen = "json".toList then R.parseJson now []
      else if chosen = "raw".toList then R.parseRaw now []
      else .error (.parse ("Unknown format: ".toList ++ chosen))) = .error e := by
    intro chosen
    split_ifs
    · exact ⟨_, by rw [parseSyslog, hsyslog]⟩
    · exact ⟨_, by rw [parseJson, R.loads_nil]⟩
    · exact ⟨_, rfl⟩
    · exact ⟨_, rfl⟩
  rw [accepted]
  simp only [parseLine, h]
  split_ifs
  · rfl
  · rw [chooseFormat]
    split_ifs
    · obtain ⟨message, hdetect⟩ := hdetect
      rw [hdetect]
      rfl
    · obtain ⟨e, hread⟩ := hread format
      simp only [bind, Except.bind]
      rw [hread]
      rfl

/-- The loop adds the entries of the lines that are accepted, as far as the limit goes. -/
theorem parseLines_eq (maxBatchSize : ℤ) {format : Text} {lines : List (T × Text)}
    (h : ∀ line ∈ lines, ReadAsJson format line.2 → R.WellTyped line.2.strip) (count : ℕ)
    (entries : List (DnsEntry T)) :
    R.parseLines maxBatchSize format lines count entries =
      .ok (entries ++
        (lines.filterMap (R.accepted format)).take (maxBatchSize - count).toNat) := by
  induction lines generalizing count entries with
  | nil => simp [parseLines]
  | cons first lines ih =>
    obtain ⟨now, line⟩ := first
    obtain ⟨hfirst, hrest⟩ := List.forall_mem_cons.mp h
    have hfirst : ¬Escapes (R.parseLine now line format) := fun hescapes =>
      (R.escapes_parseLine_iff.mp hescapes).2 (hfirst (R.escapes_parseLine_iff.mp hescapes).1)
    rw [parseLines]
    split_ifs with hlimit hblank
    · have hnone : (maxBatchSize - count).toNat = 0 := by omega
      rw [hnone, List.take_zero, List.append_nil]
    · -- the loop leaves a blank line out, and `parse_line` would not accept it
      have hstrip : line.strip = [] := by
        obtain hnil | hstrip := Bool.or_eq_true _ _ ▸ hblank
        · rw [List.isEmpty_iff.mp hnil]
          rfl
        · exact List.isEmpty_iff.mp hstrip
      rw [List.filterMap_cons_none (R.accepted_of_blank now hstrip)]
      exact ih hrest count entries
    · rcases hline : R.parseLine now line format with (_ | _ | _) | entry
      · have hnone : R.accepted format (now, line) = none := by rw [accepted, hline]; rfl
        rw [List.filterMap_cons_none hnone]
        exact ih hrest count entries
      · exact absurd (hline ▸ trivial : Escapes (R.parseLine now line format)) hfirst
      · exact absurd (hline ▸ trivial : Escapes (R.parseLine now line format)) hfirst
      · have hsome : R.accepted format (now, line) = some entry := by rw [accepted, hline]; rfl
        have hroom : (maxBatchSize - count).toNat = (maxBatchSize - (count + 1 : ℕ)).toNat + 1 := by
          omega
        rw [List.filterMap_cons_some hsome, hroom, List.take_succ_cons, List.append_cons]
        exact ih hrest (count + 1) (entries ++ [entry])

/-- **A batch** of lines that are typed as expected is read without an exception: what is returned
are the entries of the first lines that are accepted. -/
theorem parseBatch_eq {maxBatchSize : ℤ} {format : Text} {lines : List (T × Text)}
    (h : ∀ line ∈ lines, ReadAsJson format line.2 → R.WellTyped line.2.strip) :
    R.parseBatch maxBatchSize lines format =
      .ok ((lines.filterMap (R.accepted format)).take maxBatchSize.toNat) := by
  have hloop := R.parseLines_eq maxBatchSize h 0 []
  simpa [parseBatch] using hloop

end LogRuntime

end AnonReq.Discovery
