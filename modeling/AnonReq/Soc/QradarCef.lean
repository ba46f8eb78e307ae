import AnonReq.Foundation.Escaping
import AnonReq.Foundation.Replace
import AnonReq.Logging.LogValue
import AnonReq.Soc.Normalizer

/-!
# Events for QRadar

`soc/sinks/qradar_cef.py` and `scrubbed_normalized_event` of `soc/sinks/__init__.py`: an event is
scrubbed and written as one message in the Common Event Format, a header of fields with pipes
between them, and an extension of pairs. By the format the header has eight fields with the
extension, which the seventh pipe separates from the severity; here a space does, so that the header
has seven.

Only the values of the metadata are escaped, and trimmed. The name of the event has its pipes
replaced, and the other texts are written as they are. What is read back is what was written if
these texts need no escape where they stand, and no text has a line break.

* `Framed` says that a message is one line from which the eight fields and the pairs are read.
  `unframed_alert`: an alert and its message, which has six pipes.
* `FramedBySpace` says the same of the header with seven fields that the code writes.
* `sanitizeCefValue_eq`: the three replacements escape each special character once, and commute with
  the trimming.
* `pairsFrom_split`: the pairs are read back from the pieces of the extension.
* `framedBySpace_of_legible`: the message of every event whose unescaped texts are `Legible` is
  framed so; `framedBySpace_of_legible_noted` has each special character in a metadata value.
-/

namespace AnonReq.Soc

open Escaping Logging Substitution

/-! ### Formatting -/

/-- `QRadarCEFSink`, with what it rests on: the scrubber, and Python's texts for values. -/
structure QRadarCEFSink where
  scrubber : Scrubber
  /-- `str(value)` of what is no text. -/
  str : Output → Text
  /-- `str(key)` of what is no text. -/
  strKey : Value → Text
  /-- `str.capitalize`. -/
  capitalize : Text → Text
  sourceHost : Text

/-- `_SEVERITY_MAP`. -/
def severityMap : List (SeverityLevel × ℕ) :=
  [(.critical, 10), (.high, 8), (.medium, 6), (.low, 4), (.informational, 3)]

/-- `_SEVERITY_MAP.get(event.severity, 1)`. -/
def cefSeverity (severity : Text) : ℕ :=
  ((severityMap.find? fun entry => entry.1.value = severity).map Prod.snd).getD 1

/-- The dictionary that is scrubbed. In place of a `metadata` that is empty there is another empty
dictionary, from which the same comes. -/
def rawEvent (event : NormalizedEvent Value) : List (Value × Value) :=
  [(.str "severity".toList, .str event.severity),
    (.str "event_type".toList, .str event.eventType),
    (.str "tenant_id".toList, .str event.tenantId),
    (.str "session_id".toList, .str event.sessionId),
    (.str "timestamp".toList, .str event.timestamp),
    (.str "gateway_version".toList, .str event.gatewayVersion),
    (.str "appliance_instance_id".toList, .str event.applianceInstanceId),
    (.str "mitre_technique_id".toList, .str event.mitreTechniqueId),
    (.str "metadata".toList, event.metadata)]

/-- `scrubbed_normalized_event(event)`, where the dictionary that is scrubbed has this identity;
`none` where it raises. -/
def scrubbedNormalizedEvent (L : Scrubber) (heap : Heap) (identity : ℕ)
    (event : NormalizedEvent Value) : Option (List (Logging.Key × Output)) :=
  (L.scrubMapping (L.scrub heap maxDepth) [] (rawEvent event) [identity]).map Prod.fst

/-- `safe[key]`. -/
def valueAt (key : String) : List (Logging.Key × Output) → Option Output
  | [] => none
  | (.str text, value) :: safe => if text = key.toList then some value else valueAt key safe
  | (.raw _, _) :: safe => valueAt key safe

/-- `_to_cef_extension_key(key)`. -/
def QRadarCEFSink.toCefExtensionKey (sink : QRadarCEFSink) (key : Text) : Text :=
  match key.splitOn '_' with
  | [] => []
  | first :: parts => first ++ parts.flatMap sink.capitalize

/-- `_sanitize_cef_value(value)`. -/
def sanitizeCefValue (value : Text) : Text :=
  let result := replace "\\".toList "\\\\".toList value
  let result := replace "=".toList "\\=".toList result
  let result := replace "|".toList "\\|".toList result
  Text.strip result

/-- What is written of an event: the fields of the header that are not fixed, the pairs whose values
are written as they are, and those of the metadata. -/
structure CefFields where
  version : Text
  sigId : Text
  name : Text
  severity : ℕ
  fixed : List (Text × Text)
  metadata : List (Text × Text)
  deriving DecidableEq

namespace QRadarCEFSink

variable (sink : QRadarCEFSink)

/-- The text that a format string makes of a value. -/
def shown (value : Output) : Text :=
  match value with
  | .str text => text
  | value => sink.str value

/-- The loop over the metadata. -/
def metadataPairs : Output → List (Text × Text)
  | .mapping items => items.map fun item =>
      let key := match item.1 with
        | .str text => text
        | .raw key => sink.strKey key
      (sink.toCefExtensionKey key, sink.shown item.2)
  | _ => []

/-- What `format_event(event)` writes, `none` where it raises. -/
def cefFields (heap : Heap) (identity : ℕ) (event : NormalizedEvent Value) : Option CefFields := do
  let safe ← scrubbedNormalizedEvent sink.scrubber heap identity event
  let field key := (valueAt key safe).map sink.shown
  let mitreId ← field "mitre_technique_id"
  let eventType ← field "event_type"
  let tenantId ← field "tenant_id"
  let sessionId ← field "session_id"
  let gatewayVersion ← field "gateway_version"
  let applianceId ← field "appliance_instance_id"
  let sourceHost ← sink.scrubber.scrubLogValue heap (.str sink.sourceHost)
  let metadata ← valueAt "metadata" safe
  pure {
    version := gatewayVersion
    sigId := if mitreId.isEmpty then "0".toList else mitreId
    name := replace "|".toList "/".toList eventType
    severity := cefSeverity event.severity
    fixed :=
      [("tenantId".toList, tenantId), ("sessionId".toList, sessionId),
        ("gatewayVersion".toList, gatewayVersion), ("applianceId".toList, applianceId)] ++
      (if mitreId.isEmpty then [] else [("mitreTechniqueId".toList, mitreId)]) ++
      match sourceHost with
        | .str (c :: host) => [("src".toList, c :: host)]
        | _ => []
    metadata := sink.metadataPairs metadata }

end QRadarCEFSink

namespace CefFields

variable (fields : CefFields)

/-- The fields of the header in front of the severity. -/
def front : List Text :=
  ["CEF:0".toList, "AnonReq".toList, "Appliance".toList, fields.version, fields.sigId, fields.name]

/-- The seven fields of the header. -/
def header : List Text := fields.front ++ [Nat.toDigits 10 fields.severity]

/-- The pairs of the extension. The values of the metadata are trimmed. -/
def pairs : List (Text × Text) :=
  fields.fixed ++ fields.metadata.map fun pair => (pair.1, Text.strip pair.2)

/-- `extension_parts`. -/
def extensionParts : List Text :=
  (fields.fixed.map fun pair => pair.1 ++ '=' :: pair.2) ++
    fields.metadata.map fun pair => pair.1 ++ '=' :: sanitizeCefValue pair.2

/-- `cef_header`, followed by a space and the extension. -/
def render : Text :=
  List.intercalate "|".toList fields.header ++
    ' ' :: List.intercalate " ".toList fields.extensionParts

end CefFields

/-- `format_event(event)`. -/
def QRadarCEFSink.formatEvent (sink : QRadarCEFSink) (heap : Heap) (identity : ℕ)
    (event : NormalizedEvent Value) : Option Text :=
  (sink.cefFields heap identity event).map CefFields.render

/-! ### Reading -/

/-- The header of a message: fields that end at a pipe, in which a pipe and a backslash are
escaped. -/
def headerFormat : Format Char where
  escape := '\\'
  separator := '|'
  decode c := if c = '\\' ∨ c = '|' then some c else none
  separator_ne := by decide

/-- The extension of a message: between a key and its value is an equals sign, and line breaks can
be escaped. -/
def extensionFormat : Format Char where
  escape := '\\'
  separator := '='
  decode c :=
    if c = 'n' then some '\n' else if c = 'r' then some '\r'
    else if c = '\\' ∨ c = '=' ∨ c = '|' then some c else none
  separator_ne := by decide

/-- The pairs of an extension that begins with this key: what stands behind the last space of a
piece is the next key. -/
def pairsFrom : Text → List Text → List (Text × Text)
  | _, [] => []
  | key, [piece] =>
    [(unescape extensionFormat key, unescape extensionFormat piece)]
  | key, piece :: next :: pieces =>
    let value := (piece.rdropWhile (· ≠ ' ')).dropLast
    (unescape extensionFormat key, unescape extensionFormat value) ::
      pairsFrom (piece.rtakeWhile (· ≠ ' ')) (next :: pieces)

/-- The pairs of an extension. -/
def readExtension (extension : Text) : List (Text × Text) :=
  match split extensionFormat (extension.dropWhile (· = ' ')) with
  | [] => []
  | key :: pieces => pairsFrom key pieces

/-- A text without a line break. -/
def OneLine (text : Text) : Prop := ∀ c ∈ text, c ≠ '\r' ∧ c ≠ '\n'

/-- A message is a single line, from which the fields of the header and the pairs of the extension
are read. -/
def Framed (fields : CefFields) (message : Text) : Prop :=
  OneLine message ∧
    ∃ extension,
      readFields headerFormat 7 (split headerFormat message) =
        some (fields.header, extension) ∧
      readExtension extension = fields.pairs

/-- The message for an event is framed. -/
def QRadarCEFSink.FramesEvent (sink : QRadarCEFSink) (heap : Heap) (identity : ℕ)
    (event : NormalizedEvent Value) : Prop :=
  ∃ fields, sink.cefFields heap identity event = some fields ∧ Framed fields fields.render

/-- The same of a header of seven fields, the last of which ends at a space. -/
def FramedBySpace (fields : CefFields) (message : Text) : Prop :=
  OneLine message ∧
    ∃ rest,
      readFields headerFormat 6 (split headerFormat message) =
        some (fields.front, rest) ∧
      rest.takeWhile (· ≠ ' ') = Nat.toDigits 10 fields.severity ∧
      readExtension (rest.dropWhile (· ≠ ' ')) = fields.pairs

/-! ### Texts that need no escape -/

/-- A key that is read back: it stands for itself, and ends neither in the space before it nor in an
escape of the equals sign behind it. -/
structure LegibleKey (key : Text) : Prop where
  verbatim : Verbatim extensionFormat key
  last : key.getLast? ≠ some '\\'
  no_space : ' ' ∉ key

/-- What the code writes without an escape needs none, and no text has a line break. -/
structure Legible (fields : CefFields) : Prop where
  header : ∀ field ∈ [fields.version, fields.sigId, fields.name],
    Verbatim headerFormat field ∧ field.getLast? ≠ some '\\'
  fixed : ∀ pair ∈ fields.fixed, Verbatim extensionFormat pair.2
  keys : ∀ pair ∈ fields.metadata, LegibleKey pair.1
  one_line : ∀ text ∈ [fields.version, fields.sigId, fields.name], OneLine text
  one_line_pairs : ∀ pair ∈ fields.pairs, OneLine pair.1 ∧ OneLine pair.2

/-! ### The values of the metadata -/

/-- The characters that are escaped in a value. -/
def cefEscaper : Escaper extensionFormat where
  special c := c == '\\' || c == '=' || c == '|'
  separator := by decide
  escape := by decide
  decode c h := by
    obtain rfl | rfl | rfl : c = '\\' ∨ c = '=' ∨ c = '|' := by simpa [or_assoc] using h
    all_goals decide

/-- What is written for a character ends with it, behind an escape character or nothing. -/
theorem write_singleton (c : Char) :
    ∃ front : Text, (if cefEscaper.special c then ['\\', c] else [c]) = front ++ [c] ∧
      (Text.isSpace c = true → front = []) ∧ ∀ d ∈ front.head?, Text.isSpace d = false := by
  by_cases h : cefEscaper.special c = true
  · refine ⟨['\\'], if_pos h, fun hspace => ?_, fun d hd => ?_⟩
    · obtain rfl | rfl | rfl : c = '\\' ∨ c = '=' ∨ c = '|' := by
        simpa [cefEscaper, or_assoc] using h
      all_goals exact absurd hspace (by decide)
    · obtain rfl := Option.some.inj hd
      decide
  · exact ⟨[], if_neg h, fun _ => rfl, fun d hd => absurd hd (Option.not_mem_none d)⟩

theorem dropWhile_write (value : Text) :
    (cefEscaper.write value).dropWhile Text.isSpace =
      cefEscaper.write (value.dropWhile Text.isSpace) := by
  induction value with
  | nil => rfl
  | cons c value ih =>
    obtain ⟨front, hfront, hspace, hhead⟩ := write_singleton c
    have hcons : cefEscaper.write (c :: value) = front ++ c :: cefEscaper.write value := by
      rw [Escaper.write, List.flatMap_cons]
      exact (congrArg (· ++ cefEscaper.write value) hfront).trans (by simp)
    by_cases hc : Text.isSpace c = true
    · rw [hcons, hspace hc, List.nil_append, List.dropWhile_cons_of_pos hc, ih,
        List.dropWhile_cons_of_pos hc]
    · rw [List.dropWhile_cons_of_neg hc, hcons]
      cases front with
      | nil => rw [List.nil_append, List.dropWhile_cons_of_neg hc]
      | cons d front =>
        rw [List.cons_append, List.dropWhile_cons_of_neg (by simp [hhead d rfl])]

theorem rdropWhile_write (value : Text) :
    (cefEscaper.write value).rdropWhile Text.isSpace =
      cefEscaper.write (value.rdropWhile Text.isSpace) := by
  induction value using List.reverseRecOn with
  | nil => rfl
  | append_singleton value c ih =>
    obtain ⟨front, hfront, hspace, -⟩ := write_singleton c
    have hconcat : cefEscaper.write (value ++ [c]) = (cefEscaper.write value ++ front) ++ [c] := by
      rw [Escaper.write, List.flatMap_append, List.append_assoc, ← hfront]
      simp [Escaper.write, extensionFormat]
    rw [hconcat, List.rdropWhile_concat, List.rdropWhile_concat]
    split_ifs with hc
    · rw [hspace hc, List.append_nil, ih]
    · exact hconcat.symm

/-- **The three replacements and the trimming** come to the escapes of the trimmed value. -/
theorem sanitizeCefValue_eq (value : Text) :
    sanitizeCefValue value = cefEscaper.write value.strip := by
  have hreplaced : replace "|".toList "\\|".toList (replace "=".toList "\\=".toList
      (replace "\\".toList "\\\\".toList value)) = cefEscaper.write value := by
    have hreplace := fun c new text => @replace_singleton Char _ c new text
    rw [show "|".toList = ['|'] from rfl, show "=".toList = ['='] from rfl,
      show "\\".toList = ['\\'] from rfl, hreplace, hreplace, hreplace, List.flatMap_assoc,
      List.flatMap_assoc, Escaper.write]
    refine List.flatMap_congr fun c _ => ?_
    by_cases hescape : c = '\\'
    · subst hescape
      decide
    · by_cases hequals : c = '='
      · subst hequals
        decide
      · by_cases hpipe : c = '|'
        · subst hpipe
          decide
        · simp [cefEscaper, hescape, hequals, hpipe]
  rw [sanitizeCefValue, hreplaced, Text.strip, Text.strip, dropWhile_write, rdropWhile_write]

/-! ### Reading back -/

/-- A text from which a value is read, whether a space and more follows it or not. -/
structure Stands (written value : Text) : Prop where
  whole : split extensionFormat written = [written]
  before : ∀ rest, split extensionFormat (written ++ ' ' :: rest) =
    (written ++ [' ']).foldr glue (split extensionFormat rest)
  reads : unescape extensionFormat written = value

theorem stands_of_verbatim {value : Text} (h : Verbatim extensionFormat value) :
    Stands value value where
  whole := split_of_not_mem h.no_separator
  before rest := by
    -- an escape character in front of the space changes nothing
    have hspace : Verbatim extensionFormat (value ++ [' ']) := by
      refine ⟨fun hmem => ?_, List.isChain_append.mpr ⟨h.unchanged, List.isChain_singleton _, ?_⟩⟩
      · obtain hmem | hmem := List.mem_append.mp hmem
        · exact h.no_separator hmem
        · exact absurd (List.mem_singleton.mp hmem) (by decide)
      · rintro c - d hd -
        obtain rfl := Option.some.inj hd
        decide
    have hlast : (value ++ [' ']).getLast? ≠ some extensionFormat.escape := by
      rw [List.getLast?_concat]
      decide
    rw [← hspace.split_append hlast rest, List.append_assoc, List.singleton_append]
  reads := h.unescape

theorem stands_sanitizeCefValue (value : Text) : Stands (sanitizeCefValue value) value.strip := by
  rw [sanitizeCefValue_eq]
  have hspace : Verbatim extensionFormat [' '] :=
    ⟨by decide, List.isChain_singleton _⟩
  refine ⟨?_, fun rest => ?_, cefEscaper.unescape_write _⟩
  · have hsplit := cefEscaper.split_append value.strip []
    rw [List.append_nil] at hsplit
    exact hsplit.trans ((foldr_glue _ [] []).trans (by rw [List.append_nil]))
  · rw [cefEscaper.split_append, ← List.singleton_append, hspace.split_append (by decide),
      ← List.foldr_append]

/-- A pair with the text that is written for its value. -/
structure WrittenPair where
  key : Text
  written : Text
  value : Text

namespace WrittenPair

/-- The pairs behind the first one, each behind a space. -/
def renderTail (pairs : List WrittenPair) : Text :=
  pairs.flatMap fun pair => ' ' :: (pair.key ++ '=' :: pair.written)

/-- The pair is read back. -/
def Reads (pair : WrittenPair) : Prop := LegibleKey pair.key ∧ Stands pair.written pair.value

end WrittenPair

theorem LegibleKey.split_append {key : Text} (h : LegibleKey key) (rest : Text) :
    split extensionFormat (key ++ '=' :: rest) =
      key :: split extensionFormat rest := by
  rw [h.verbatim.split_append h.last]
  have hcut : split extensionFormat ('=' :: rest) =
      [] :: split extensionFormat rest := split_cons_separator rest
  rw [hcut, foldr_glue, List.append_nil]

/-- What stands in front of the last space of a piece, and behind it. -/
theorem value_and_key {written key : Text} (h : ' ' ∉ key) :
    ((written ++ ' ' :: key).rdropWhile (· ≠ ' ')).dropLast = written ∧
      (written ++ ' ' :: key).rtakeWhile (· ≠ ' ') = key := by
  have hkey : ∀ c ∈ key.reverse, decide (c ≠ ' ') = true := fun c hc =>
    decide_eq_true fun heq => h (heq ▸ List.mem_reverse.mp hc)
  have hreverse : (written ++ ' ' :: key).reverse = key.reverse ++ ' ' :: written.reverse := by simp
  rw [List.rdropWhile, List.rtakeWhile, hreverse, List.dropWhile_append_of_pos hkey,
    List.takeWhile_append_of_pos hkey, List.dropWhile_cons_of_neg (by simp),
    List.takeWhile_cons_of_neg (by simp)]
  simp

/-- **The pairs are read back**, from the value of the first one on. -/
theorem pairsFrom_split {key : Text} (hkey : LegibleKey key) {pairs : List WrittenPair}
    (hpairs : ∀ pair ∈ pairs, pair.Reads) {written value : Text} (h : Stands written value) :
    pairsFrom key (split extensionFormat (written ++ WrittenPair.renderTail pairs)) =
      (key, value) :: pairs.map fun pair => (pair.key, pair.value) := by
  induction pairs generalizing key written value with
  | nil =>
    rw [WrittenPair.renderTail, List.flatMap_nil, List.append_nil, h.whole, pairsFrom, h.reads,
      hkey.verbatim.unescape, List.map_nil]
  | cons pair pairs ih =>
    obtain ⟨⟨hnext, hstands⟩, hpairs⟩ := List.forall_mem_cons.mp hpairs
    have hrest := ih hnext hpairs hstands
    obtain ⟨piece, pieces, hpieces⟩ := @exists_splitFrom _ _ extensionFormat false
      (pair.written ++ WrittenPair.renderTail pairs)
    rw [split, hpieces] at hrest
    have htail : WrittenPair.renderTail (pair :: pairs) =
        ' ' :: (pair.key ++ '=' :: (pair.written ++ WrittenPair.renderTail pairs)) := by
      simp [WrittenPair.renderTail]
    obtain ⟨hvalue, hbehind⟩ := @value_and_key written pair.key hnext.no_space
    rw [htail, h.before, hnext.split_append, foldr_glue, split, hpieces,
      List.append_assoc, List.singleton_append, pairsFrom, hvalue, hbehind, h.reads,
      hkey.verbatim.unescape, hrest, List.map_cons]

/-- The pairs with what is written for them. -/
def CefFields.written (fields : CefFields) : List WrittenPair :=
  (fields.fixed.map fun pair => ⟨pair.1, pair.2, pair.2⟩) ++
    fields.metadata.map fun pair => ⟨pair.1, sanitizeCefValue pair.2, pair.2.strip⟩

/-- An extension of pairs is the first one, and the others each behind a space. -/
theorem intercalate_pairs (pair : WrittenPair) (pairs : List WrittenPair) :
    List.intercalate " ".toList
        ((pair :: pairs).map fun pair => pair.key ++ '=' :: pair.written) =
      pair.key ++ '=' :: (pair.written ++ WrittenPair.renderTail pairs) := by
  induction pairs generalizing pair with
  | nil => simp [List.intercalate, WrittenPair.renderTail]
  | cons next pairs ih =>
    have hnext := ih next
    rw [List.map_cons] at hnext
    rw [List.map_cons, List.map_cons, List.intercalate_cons_cons, hnext]
    simp [WrittenPair.renderTail]

theorem CefFields.extensionParts_eq (fields : CefFields) :
    fields.extensionParts = fields.written.map fun pair => pair.key ++ '=' :: pair.written := by
  simp [extensionParts, written, Function.comp_def]

theorem CefFields.pairs_eq (fields : CefFields) :
    fields.pairs = fields.written.map fun pair => (pair.key, pair.value) := by
  simp [pairs, written, Function.comp_def]

/-- **The extension** is read back. -/
theorem readExtension_intercalate {pair : WrittenPair} {pairs : List WrittenPair}
    (h : ∀ p ∈ pair :: pairs, p.Reads) :
    readExtension (' ' :: List.intercalate " ".toList
        ((pair :: pairs).map fun pair => pair.key ++ '=' :: pair.written)) =
      (pair :: pairs).map fun pair => (pair.key, pair.value) := by
  obtain ⟨⟨hkey, hstands⟩, hpairs⟩ := List.forall_mem_cons.mp h
  have hfront : ∀ rest : Text, (pair.key ++ '=' :: rest).dropWhile (· = ' ') =
      pair.key ++ '=' :: rest := by
    intro rest
    cases hpair : pair.key with
    | nil => rfl
    | cons c key =>
      have hc : c ≠ ' ' := fun heq => hkey.no_space (hpair ▸ heq ▸ List.mem_cons_self)
      exact List.dropWhile_cons_of_neg (by simpa using hc)
  rw [readExtension, List.dropWhile_cons_of_pos (by simp), intercalate_pairs, hfront,
    hkey.split_append]
  exact pairsFrom_split hkey hpairs hstands

/-- The fixed keys need no escape. -/
theorem fixed_of_cefFields {sink : QRadarCEFSink} {heap : Heap} {identity : ℕ}
    {event : NormalizedEvent Value} {fields : CefFields}
    (h : sink.cefFields heap identity event = some fields) :
    fields.fixed ≠ [] ∧ ∀ pair ∈ fields.fixed, LegibleKey pair.1 := by
  have hkeys : ∀ key ∈ ["tenantId", "sessionId", "gatewayVersion", "applianceId",
      "mitreTechniqueId", "src"], LegibleKey key.toList := by
    simp only [List.forall_mem_cons]
    refine ⟨?_, ?_, ?_, ?_, ?_, ?_, fun key hkey => absurd hkey List.not_mem_nil⟩ <;>
      exact ⟨⟨by decide, by decide⟩, by decide, by decide⟩
  simp only [QRadarCEFSink.cefFields, Option.bind_eq_bind, Option.bind_eq_some_iff] at h
  obtain ⟨safe, -, mitreId, -, eventType, -, tenantId, -, sessionId, -, gatewayVersion, -,
    applianceId, -, sourceHost, -, metadata, -, hfields⟩ := h
  obtain rfl := Option.some.inj hfields
  refine ⟨List.cons_ne_nil _ _, fun pair hpair => ?_⟩
  obtain hpair | hsource := List.mem_append.mp hpair
  · obtain hpair | hmitre := List.mem_append.mp hpair
    · simp only [List.mem_cons, List.not_mem_nil, or_false] at hpair
      obtain rfl | rfl | rfl | rfl := hpair
      all_goals exact hkeys _ (by simp)
    · split_ifs at hmitre
      · exact absurd hmitre List.not_mem_nil
      · obtain rfl := List.mem_singleton.mp hmitre
        exact hkeys "mitreTechniqueId" (by simp)
  · split at hsource
    · obtain rfl := List.mem_singleton.mp hsource
      exact hkeys "src" (by simp)
    · exact absurd hsource List.not_mem_nil

/-- The message as six fields with a pipe each, and what stands behind them. -/
theorem CefFields.render_eq (fields : CefFields) :
    fields.render =
      fields.front.flatMap (fun field => field ++ [headerFormat.separator]) ++
      (Nat.toDigits 10 fields.severity ++
        ' ' :: List.intercalate " ".toList fields.extensionParts) := by
  simp [render, header, front, headerFormat, List.intercalate]

theorem oneLine_sanitizeCefValue {value : Text} (h : OneLine value.strip) :
    OneLine (sanitizeCefValue value) := by
  rw [sanitizeCefValue_eq]
  intro c hc
  obtain ⟨d, hd, hc⟩ := List.mem_flatMap.mp hc
  split_ifs at hc
  · obtain rfl | hc := List.mem_cons.mp hc
    · decide
    · exact List.mem_singleton.mp hc ▸ h d hd
  · exact List.mem_singleton.mp hc ▸ h d hd

/-- The fields in front of the severity are three fixed ones, and three of the event. -/
theorem mem_front {fields : CefFields} {field : Text} (h : field ∈ fields.front) :
    field ∈ ["CEF:0".toList, "AnonReq".toList, "Appliance".toList] ∨
      field ∈ [fields.version, fields.sigId, fields.name] :=
  List.mem_append.mp h

theorem oneLine_render {fields : CefFields} (h : Legible fields) : OneLine fields.render := by
  have hfront : ∀ field ∈ fields.front, OneLine field := by
    intro field hfield
    obtain hfixed | hfield := mem_front hfield
    · have hconstant : ∀ field ∈ ["CEF:0".toList, "AnonReq".toList, "Appliance".toList],
          ∀ c ∈ field, c ≠ '\r' ∧ c ≠ '\n' := by
        decide
      exact hconstant field hfixed
    · exact h.one_line field hfield
  have hparts : ∀ part ∈ fields.extensionParts, OneLine part := by
    have hpart : ∀ {key value : Text}, OneLine key → OneLine value →
        OneLine (key ++ '=' :: value) := fun hkey hvalue =>
      List.forall_mem_append.mpr ⟨hkey, List.forall_mem_cons.mpr ⟨by decide, hvalue⟩⟩
    have hpairs := List.forall_mem_append.mp h.one_line_pairs
    refine List.forall_mem_append.mpr ⟨?_, ?_⟩
    · exact List.forall_mem_map.mpr fun pair hpair =>
        hpart (hpairs.1 pair hpair).1 (hpairs.1 pair hpair).2
    · refine List.forall_mem_map.mpr fun pair hpair => ?_
      have hmem := hpairs.2 _ (List.mem_map_of_mem hpair)
      exact hpart hmem.1 (oneLine_sanitizeCefValue hmem.2)
  have hdigits : OneLine (Nat.toDigits 10 fields.severity) := by
    intro c hc
    have hdigit : c.isDigit = true := Nat.isDigit_of_mem_toDigits (by decide) (by decide) hc
    constructor <;> rintro rfl <;> exact absurd hdigit (by decide)
  have hextension : OneLine (List.intercalate " ".toList fields.extensionParts) := by
    generalize fields.extensionParts = parts at hparts ⊢
    induction parts with
    | nil => exact fun c hc => absurd hc List.not_mem_nil
    | cons part parts ih =>
      obtain ⟨hpart, hparts⟩ := List.forall_mem_cons.mp hparts
      cases parts with
      | nil => simpa [List.intercalate] using hpart
      | cons next parts =>
        rw [List.intercalate_cons_cons]
        exact List.forall_mem_append.mpr
          ⟨List.forall_mem_append.mpr ⟨hpart, by decide⟩, ih hparts⟩
  rw [fields.render_eq]
  refine List.forall_mem_append.mpr ⟨fun c hc => ?_, List.forall_mem_append.mpr ⟨hdigits,
    List.forall_mem_cons.mpr ⟨by decide, hextension⟩⟩⟩
  obtain ⟨field, hfield, hc⟩ := List.mem_flatMap.mp hc
  obtain hc | hc := List.mem_append.mp hc
  · exact hfront field hfield c hc
  · rw [List.mem_singleton.mp hc]
    decide

/-- **The message is framed**, with a space behind the severity, if what is not escaped is
legible. -/
theorem framedBySpace_of_legible {sink : QRadarCEFSink} {heap : Heap} {identity : ℕ}
    {event : NormalizedEvent Value} {fields : CefFields}
    (h : sink.cefFields heap identity event = some fields) (hlegible : Legible fields) :
    FramedBySpace fields fields.render := by
  obtain ⟨hne, hkeys⟩ := fixed_of_cefFields h
  have hfront : ∀ field ∈ fields.front,
      Verbatim headerFormat field ∧ field.getLast? ≠ some headerFormat.escape := by
    intro field hfield
    obtain hfixed | hfield := mem_front hfield
    · have hconstant : ∀ field ∈ ["CEF:0".toList, "AnonReq".toList, "Appliance".toList],
          headerFormat.separator ∉ field ∧ (field.IsChain fun c d =>
            c = headerFormat.escape → headerFormat.decode d = none) ∧
            field.getLast? ≠ some headerFormat.escape := by
        decide
      obtain ⟨hseparator, hchain, hlast⟩ := hconstant field hfixed
      exact ⟨⟨hseparator, hchain⟩, hlast⟩
    · exact hlegible.header field hfield
  -- the severity ends at the space behind it
  have hdigits : ∀ c ∈ Nat.toDigits 10 fields.severity, decide (c ≠ ' ') = true := by
    intro c hc
    have hdigit : c.isDigit = true := Nat.isDigit_of_mem_toDigits (by decide) (by decide) hc
    refine decide_eq_true ?_
    rintro rfl
    exact absurd hdigit (by decide)
  have hreads : ∀ pair ∈ fields.written, pair.Reads := by
    refine List.forall_mem_append.mpr ⟨List.forall_mem_map.mpr fun pair hpair => ?_,
      List.forall_mem_map.mpr fun pair hpair => ?_⟩
    · exact ⟨hkeys pair hpair, stands_of_verbatim (hlegible.fixed pair hpair)⟩
    · exact ⟨hlegible.keys pair hpair, stands_sanitizeCefValue pair.2⟩
  refine ⟨oneLine_render hlegible, Nat.toDigits 10 fields.severity ++
    ' ' :: List.intercalate " ".toList fields.extensionParts, ?_, ?_, ?_⟩
  · rw [fields.render_eq]
    exact readFields_append hfront _
  · rw [List.takeWhile_append_of_pos hdigits, List.takeWhile_cons_of_neg (by simp),
      List.append_nil]
  · rw [List.dropWhile_append_of_pos hdigits, List.dropWhile_cons_of_neg (by simp),
      fields.extensionParts_eq, fields.pairs_eq]
    obtain ⟨first, pairs, hwritten⟩ : ∃ first pairs, fields.written = first :: pairs :=
      List.exists_cons_of_ne_nil fun hnil => hne (List.map_eq_nil_iff.mp
        (List.append_eq_nil_iff.mp hnil).1)
    rw [hwritten] at hreads ⊢
    exact readExtension_intercalate hreads

/-- A sink without a source host, whose scrubber could not read the German patterns. -/
def sampleSink : QRadarCEFSink where
  scrubber := { sampleScrubber with germanPatterns := [] }
  str _ := []
  strKey _ := []
  capitalize text := text
  sourceHost := []

/-- An alert without metadata. -/
def alert : NormalizedEvent Value where
  severity := "critical".toList
  eventType := "dlp_alert".toList
  tenantId := "t1".toList
  sessionId := "s1".toList
  timestamp := "2026".toList
  gatewayVersion := "1.5".toList
  applianceInstanceId := "a1".toList
  mitreTechniqueId := "T1048".toList
  metadata := .scalar .none

/-- A note, with each special character and a space at its end. -/
def noteHeap : Heap where
  object _ := .mapping [(.str "note".toList, .str "a|b=c\\ ".toList)]
  identity := id

/-- What is written of an alert with the note, whose type has a pipe. -/
def notedFields : CefFields where
  version := "1.5".toList
  sigId := "T1048".toList
  name := "dlp/alert".toList
  severity := 10
  fixed :=
    [("tenantId".toList, "t1".toList), ("sessionId".toList, "s1".toList),
      ("gatewayVersion".toList, "1.5".toList), ("applianceId".toList, "a1".toList),
      ("mitreTechniqueId".toList, "T1048".toList)]
  metadata := [("note".toList, "a|b=c\\ ".toList)]

theorem framedBySpace_of_legible_noted : FramedBySpace notedFields notedFields.render := by
  have hfields : sampleSink.cefFields noteHeap 1
      { alert with eventType := "dlp|alert".toList, metadata := .object 0 } = some notedFields := by
    decide +kernel
  refine framedBySpace_of_legible hfields ⟨?_, ?_, ?_, ?_, ?_⟩
  · have hheader : ∀ field ∈ [notedFields.version, notedFields.sigId, notedFields.name],
        headerFormat.separator ∉ field ∧ (field.IsChain fun c d =>
          c = headerFormat.escape → headerFormat.decode d = none) ∧ field.getLast? ≠ some '\\' := by
      decide
    exact fun field hfield =>
      ⟨⟨(hheader field hfield).1, (hheader field hfield).2.1⟩, (hheader field hfield).2.2⟩
  · have hfixed : ∀ pair ∈ notedFields.fixed, extensionFormat.separator ∉ pair.2 ∧
        pair.2.IsChain fun c d => c = extensionFormat.escape → extensionFormat.decode d = none := by
      decide
    exact fun pair hpair => ⟨(hfixed pair hpair).1, (hfixed pair hpair).2⟩
  · intro pair hpair
    obtain rfl := List.mem_singleton.mp hpair
    exact ⟨⟨by decide, by decide⟩, by decide, by decide⟩
  · unfold OneLine
    decide
  · unfold OneLine
    decide

/-- The message for an alert, which has six pipes, and is not framed. -/
theorem unframed_alert :
    sampleSink.formatEvent sampleHeap 0 alert = some
        ("CEF:0|AnonReq|Appliance|1.5|T1048|dlp_alert|10 tenantId=t1 sessionId=s1 " ++
          "gatewayVersion=1.5 applianceId=a1 mitreTechniqueId=T1048").toList ∧
      ¬ ∀ (sink : QRadarCEFSink) (heap : Heap) (identity : ℕ) (event : NormalizedEvent Value),
        sink.FramesEvent heap identity event := by
  have hformat : sampleSink.formatEvent sampleHeap 0 alert = some
      ("CEF:0|AnonReq|Appliance|1.5|T1048|dlp_alert|10 tenantId=t1 sessionId=s1 " ++
        "gatewayVersion=1.5 applianceId=a1 mitreTechniqueId=T1048").toList := by
    decide +kernel
  refine ⟨hformat, fun h => ?_⟩
  obtain ⟨fields, hfields, -, extension, hread, -⟩ := h sampleSink sampleHeap 0 alert
  rw [QRadarCEFSink.formatEvent, hfields, Option.map_some] at hformat
  rw [Option.some.inj hformat] at hread
  -- the seventh field would end at a seventh pipe
  have hnone : readFields headerFormat 7 (split headerFormat
      ("CEF:0|AnonReq|Appliance|1.5|T1048|dlp_alert|10 tenantId=t1 sessionId=s1 " ++
        "gatewayVersion=1.5 applianceId=a1 mitreTechniqueId=T1048").toList) = none := by
    decide +kernel
  exact nomatch hnone.symm.trans hread

end AnonReq.Soc
