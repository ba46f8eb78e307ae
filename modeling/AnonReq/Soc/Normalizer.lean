import AnonReq.Foundation.JsonKeys

/-!
# The event normalizer

`SOCNormalizer._normalize` of `soc/normalizer.py`, with the events of `soc/event.py` and the mapper
of `soc/mitre.py`. An event with a content field is dropped; the fields inside of what is
kept are not looked at.

* `normalize_cases`: which events are normalized.
* `carriesNoContent_iff`: no content field is left at any depth exactly if the event is dropped, is
  rejected for its severity, or has no such field inside.
* `not_carriesNoContent`: a prompt in a dictionary of the event.
-/

namespace AnonReq.Soc

/-! ### Events -/

/-- `SeverityLevel`. -/
inductive SeverityLevel where
  | informational
  | low
  | medium
  | high
  | critical
deriving DecidableEq

/-- `severity.value`. -/
def SeverityLevel.value : SeverityLevel → Text
  | .informational => "informational".toList
  | .low => "low".toList
  | .medium => "medium".toList
  | .high => "high".toList
  | .critical => "critical".toList

/-- `NormalizedEvent`, with metadata of some kind. A severity is a text, as a `StrEnum` is. -/
structure NormalizedEvent (μ : Type*) where
  severity : Text
  eventType : Text
  tenantId : Text
  sessionId : Text
  timestamp : Text
  gatewayVersion : Text
  applianceInstanceId : Text
  mitreTechniqueId : Text
  metadata : μ

/-- `RawSecurityEvent`. -/
structure RawSecurityEvent where
  sourceEngine : Text
  eventType : Text
  tenantId : Text
  sessionId : Text
  content : List (Text × Json)
  timestamp : Text

/-- `MappingEntry`. -/
structure MappingEntry where
  eventType : Text
  mitreId : Text
  framework : Text
  technique : Text

/-- `MITREMapper`, by its entries. -/
abbrev MITREMapper := List (Text × MappingEntry)

/-- `resolve(event_type)`. -/
def MITREMapper.resolve (mapper : MITREMapper) (eventType : Text) : Text :=
  match mapper.lookup eventType with
  | none => "TEMP:UNMAPPED".toList
  | some entry => entry.mitreId

/-! ### The normalizer -/

/-- `SOCNormalizer`, with what it takes from its configuration. -/
structure SOCNormalizer where
  /-- `str.lower`. -/
  lowerCase : LowerCase
  mitreMapper : MITREMapper
  gatewayVersion : Text
  applianceInstanceId : Text

/-- `STRIP_FIELDS`. -/
def stripFields : List Text :=
  ["content".toList, "prompt".toList, "response".toList, "raw_text".toList, "message".toList,
    "text".toList]

namespace SOCNormalizer

variable (n : SOCNormalizer)

/-- `key.lower() in STRIP_FIELDS`. -/
def isContentField (key : Text) : Bool := (n.lowerCase.lower key) ∈ stripFields

/-- `_strip_content_fields(content)`, with `_content_stripped`. -/
def stripContentFields (content : List (Text × Json)) : List (Text × Json) × Bool :=
  (content.filter fun entry => !n.isContentField entry.1,
    content.any fun entry => n.isContentField entry.1)

/-- `_parse_severity(severity_str)`, `none` where it raises. -/
def parseSeverity : Json → Option SeverityLevel
  | .text severity =>
    let mapping : List (Text × SeverityLevel) :=
      [("informational".toList, .informational), ("info".toList, .informational),
        ("low".toList, .low), ("medium".toList, .medium), ("high".toList, .high),
        ("critical".toList, .critical)]
    some ((mapping.lookup (n.lowerCase.lower severity)).getD .informational)
  | _ => none

/-- What becomes of an event: a normalized event, or the audit event for a dropped one, or an
exception that the loop logs. -/
inductive Outcome where
  | normalized (event : NormalizedEvent (List (Text × Json)))
  | stripFailure (eventType sourceEngine tenantId sessionId : Text)
  | attributeError

/-- `_normalize(raw)`. -/
def normalize (raw : RawSecurityEvent) : Outcome :=
  let stripped := n.stripContentFields raw.content
  if stripped.2 then
    .stripFailure raw.eventType raw.sourceEngine raw.tenantId raw.sessionId
  else
    let mitreId := n.mitreMapper.resolve raw.eventType
    match n.parseSeverity ((Dict.get raw.content "severity".toList).getD (.text [])) with
    | none => .attributeError
    | some severity => .normalized {
        severity := severity.value
        eventType := raw.eventType
        tenantId := raw.tenantId
        sessionId := raw.sessionId
        timestamp := raw.timestamp
        gatewayVersion := n.gatewayVersion
        applianceInstanceId := n.applianceInstanceId
        mitreTechniqueId := mitreId
        metadata := stripped.1 }

/-! ### What has to hold -/

/-- The event that is normalized has no content field at any depth, and has everything else. -/
def CarriesNoContent (raw : RawSecurityEvent) : Prop :=
  ∀ event, n.normalize raw = .normalized event →
    (∀ key ∈ Json.fieldKeys event.metadata, n.isContentField key = false) ∧
      event.metadata = Json.pruneFields n.isContentField raw.content

/-- The event has a content field of its own. -/
def HasContentField (raw : RawSecurityEvent) : Prop :=
  ∃ entry ∈ raw.content, n.isContentField entry.1 = true

/-- The severity of the event, if it has one, is a text. -/
def SeverityIsText (raw : RawSecurityEvent) : Prop :=
  ∀ severity, Dict.get raw.content "severity".toList = some severity →
    ∃ text, severity = .text text

variable {n}

theorem parseSeverity_isSome_iff {severity : Json} :
    (n.parseSeverity severity).isSome ↔ ∃ text, severity = .text text := by
  cases severity <;> simp [parseSeverity]

/-- **What is normalized.** An event is normalized, with its content as metadata, exactly if it has
no content field of its own and its severity is a text. -/
theorem normalize_cases (raw : RawSecurityEvent) :
    ((¬ n.HasContentField raw ∧ SeverityIsText raw) ∧
        ∃ event, n.normalize raw = .normalized event ∧ event.metadata = raw.content) ∨
      ¬ (¬ n.HasContentField raw ∧ SeverityIsText raw) ∧
        ∀ event, n.normalize raw ≠ .normalized event := by
  have hstripped : (n.stripContentFields raw.content).2 = true ↔ n.HasContentField raw :=
    List.any_eq_true
  have hseverity : SeverityIsText raw ↔
      (n.parseSeverity ((Dict.get raw.content "severity".toList).getD (.text []))).isSome := by
    rw [parseSeverity_isSome_iff, SeverityIsText]
    cases Dict.get raw.content "severity".toList <;> simp
  rw [normalize, hseverity]
  by_cases hcontent : n.HasContentField raw
  · rw [if_pos (hstripped.mpr hcontent)]
    exact Or.inr ⟨fun h => h.1 hcontent, by simp⟩
  · rw [if_neg fun h => hcontent (hstripped.mp h)]
    cases n.parseSeverity ((Dict.get raw.content "severity".toList).getD (.text [])) with
    | none => exact Or.inr ⟨fun h => absurd h.2 (by simp), by simp⟩
    | some severity =>
      refine Or.inl ⟨⟨hcontent, rfl⟩, _, rfl, List.filter_eq_self.mpr fun entry hentry => ?_⟩
      simpa using fun h : n.isContentField entry.1 = true => hcontent ⟨entry, hentry, h⟩

/-- **No content** leaves the normalizer exactly if the event is dropped or rejected, or has no
content field at any depth. -/
theorem carriesNoContent_iff (n : SOCNormalizer) (raw : RawSecurityEvent) :
    n.CarriesNoContent raw ↔
      n.HasContentField raw ∨ ¬ SeverityIsText raw ∨
        ∀ key ∈ Json.fieldKeys raw.content, n.isContentField key = false := by
  obtain ⟨⟨hcontent, hseverity⟩, event, hevent, hmetadata⟩ | ⟨hdropped, hnone⟩ :=
    normalize_cases (n := n) raw
  · rw [or_iff_right hcontent, or_iff_right (not_not_intro hseverity),
      ← Json.pruneFields_eq_self_iff]
    constructor
    · intro h
      exact (h event hevent).2.symm.trans hmetadata
    · intro h event' hevent'
      obtain rfl := Outcome.normalized.inj (hevent.symm.trans hevent')
      rw [hmetadata, h]
      exact ⟨Json.pruneFields_eq_self_iff.mp h, rfl⟩
  · have hvacuous : n.CarriesNoContent raw := fun event hevent => absurd hevent (hnone event)
    refine iff_of_true hvacuous ?_
    by_contra h
    rw [not_or, not_or, not_not] at h
    exact hdropped ⟨h.1, h.2.1⟩

end SOCNormalizer

/-- A normalizer without a mapping. -/
def plainNormalizer : SOCNormalizer where
  lowerCase := asciiLower
  mitreMapper := []
  gatewayVersion := "1.0".toList
  applianceInstanceId := "a".toList

/-- An event with a prompt in its details. -/
def detailedEvent : RawSecurityEvent where
  sourceEngine := "firewall".toList
  eventType := "prompt_injection".toList
  tenantId := "t".toList
  sessionId := "s".toList
  content := [("severity".toList, .text "high".toList),
    ("details".toList, .object [("Prompt".toList, .text "my secret".toList)])]
  timestamp := "2026-06-26T14:30:00Z".toList

/-- **A prompt inside** of an event is forwarded. -/
theorem not_carriesNoContent :
    ¬ ∀ (n : SOCNormalizer) (raw : RawSecurityEvent), n.CarriesNoContent raw := by
  intro h
  have hprompt := (h plainNormalizer detailedEvent _ rfl).1 "Prompt".toList
  exact absurd (hprompt (by decide +kernel)) (by decide +kernel)

end AnonReq.Soc
