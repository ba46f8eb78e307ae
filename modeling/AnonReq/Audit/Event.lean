import AnonReq.Audit.Timestamp
import AnonReq.Foundation.HashChain

/-!
# Audit events, their hash and their rows

`models/audit.py` and the row decoding of `services/audit_chain.py`.

* `Columns` are the columns that enter the hash. An event has them with a datetime, a stored
  row with what the database keeps for one.
* `computeEventHash` hashes the canonical JSON object of an event. The hash function is a
  parameter: an arbitrary function of that object. `canonical_injective` says that the object
  determines the hashed columns.
* `rowToEvent` is `_row_to_event`. `scheme` and `Row.toEntry` present the stored rows as the
  entries of a hash chain (`HashChain`).
-/

namespace AnonReq.Audit

/-! ### Events -/

/-- The columns that enter the hash, with timestamps of type `T`. -/
structure Columns (T : Type) where
  eventId : String
  prevHash : Option String := none
  timestamp : T
  tenantId : String
  requestId : Option String := none
  policyId : Option String := none
  decision : Option String := none
  provider : Option String := none
  latencyMs : Option ℤ := none
  eventType : String
  operatorId : Option String := none
  changeType : Option String := none
  prevValueHash : Option String := none
  newValueHash : Option String := none
  metadataJson : Option String := none
deriving DecidableEq

/-- The same columns with another timestamp. -/
def Columns.withTimestamp {T U : Type} (c : Columns T) (timestamp : U) : Columns U where
  eventId := c.eventId
  prevHash := c.prevHash
  timestamp := timestamp
  tenantId := c.tenantId
  requestId := c.requestId
  policyId := c.policyId
  decision := c.decision
  provider := c.provider
  latencyMs := c.latencyMs
  eventType := c.eventType
  operatorId := c.operatorId
  changeType := c.changeType
  prevValueHash := c.prevValueHash
  newValueHash := c.newValueHash
  metadataJson := c.metadataJson

/-- `AuditEvent`. An event that is not stored yet has the empty hash. -/
structure AuditEvent extends Columns DateTime where
  hash : String := ""
  retentionDays : ℤ := 2557
  rowId : Option ℕ := none
deriving DecidableEq

/-! ### The hash -/

/-- The values of the hashed JSON object. -/
inductive Json where
  | null
  | str (s : String)
  | num (n : ℤ)
deriving DecidableEq

namespace Json

/-- An optional text, `None` being `null`. -/
def ofText : Option String → Json
  | none => null
  | some s => str s

/-- An optional number. -/
def ofNumber : Option ℤ → Json
  | none => null
  | some n => num n

theorem ofText_injective : Function.Injective ofText := by
  rintro (_ | a) (_ | b) h <;> simp_all [ofText]

theorem ofNumber_injective : Function.Injective ofNumber := by
  rintro (_ | a) (_ | b) h <;> simp_all [ofNumber]

end Json

/-- The canonical JSON object of an event: the hashed columns, with their keys sorted. -/
def canonical (c : Columns DateTime) : List (String × Json) :=
  [("change_type", .ofText c.changeType),
   ("decision", .ofText c.decision),
   ("event_id", .str c.eventId),
   ("event_type", .str c.eventType),
   ("latency_ms", .ofNumber c.latencyMs),
   ("metadata_json", .ofText c.metadataJson),
   ("new_value_hash", .ofText c.newValueHash),
   ("operator_id", .ofText c.operatorId),
   ("policy_id", .ofText c.policyId),
   ("prev_hash", .ofText c.prevHash),
   ("prev_value_hash", .ofText c.prevValueHash),
   ("provider", .ofText c.provider),
   ("request_id", .ofText c.requestId),
   ("tenant_id", .str c.tenantId),
   ("timestamp", .str (String.ofList (isoformat 'T' c.timestamp)))]

/-- `compute_event_hash`, over an arbitrary hash function `H` of the canonical object. -/
def computeEventHash (H : List (String × Json) → String) (event : AuditEvent) : String :=
  H (canonical event.toColumns)

theorem isoformat_injective (sep : Char) : Function.Injective (isoformat sep) := by
  intro d d' h
  have hround := fromisoformat_isoformat sep d
  rw [h, fromisoformat_isoformat] at hround
  exact (Option.some.inj hround).symm

/-- The canonical object determines every hashed column. -/
theorem canonical_injective : Function.Injective canonical := by
  intro c c' h
  simp only [canonical, List.cons.injEq, Prod.mk.injEq, true_and, and_true, Json.str.injEq,
    Json.ofText_injective.eq_iff, Json.ofNumber_injective.eq_iff] at h
  obtain ⟨hchange, hdecision, hid, htype, hlatency, hmeta, hnew, hoperator, hpolicy, hprev, hold,
    hprovider, hrequest, htenant, htime⟩ := h
  have htime : c.timestamp = c'.timestamp := by
    refine isoformat_injective 'T' ?_
    rw [← String.toList_ofList (l := isoformat 'T' c.timestamp), htime, String.toList_ofList]
  cases c
  cases c'
  simp_all

/-! ### Rows -/

/-- A timestamp as the database gives it back: a datetime, or the text of one. -/
inductive StoredTimestamp where
  | native (d : DateTime)
  | text (s : String)
deriving DecidableEq

/-- A row of the table `audit_event`. -/
structure Row extends Columns StoredTimestamp where
  id : ℕ
  hash : String
  retentionDays : ℤ := 2557
deriving DecidableEq

/-- The datetime of a stored timestamp. A text without an offset is read as UTC. -/
def decodeTimestamp : StoredTimestamp → Except String DateTime
  | .native d => .ok d
  | .text s =>
    match fromisoformat s.toList with
    | none => .error ("Invalid isoformat string: '" ++ s ++ "'")
    | some d => .ok (if d.utcoffset.isNone then d.replaceUtc else d)

/-- `_row_to_event`. -/
def rowToEvent (row : Row) : Except String AuditEvent := do
  let timestamp ← decodeTimestamp row.timestamp
  return { row.toColumns.withTimestamp timestamp with
    hash := row.hash, retentionDays := row.retentionDays, rowId := some row.id }

/-- The supported databases. -/
inductive Dialect where
  | postgresql
  | sqlite
deriving DecidableEq

/-- What a database keeps of a datetime in UTC: PostgreSQL the instant, SQLite the text the
driver writes, with a space between date and time. -/
def Dialect.bind : Dialect → DateTime → StoredTimestamp
  | .postgresql, d => .native d
  | .sqlite, d => .text (String.ofList (isoformat ' ' d))

/-- A datetime in UTC comes back from either database. -/
theorem decodeTimestamp_bind (dialect : Dialect) {d : DateTime} (h : d.IsUtc) :
    decodeTimestamp (dialect.bind d) = .ok d := by
  cases dialect with
  | postgresql => rfl
  | sqlite =>
    have haware : d.utcoffset.isNone = false := by rw [h]; rfl
    simp only [Dialect.bind, decodeTimestamp, String.toList_ofList, fromisoformat_isoformat, haware,
      Bool.false_eq_true, if_false]

/-! ### Rows as entries of a hash chain -/

/-- Events are linked by `prev_hash` and sealed with their hash. -/
def scheme (H : List (String × Json) → String) : HashChain.Scheme (Columns DateTime) String where
  prev := Columns.prevHash
  digest c := H (canonical c)

/-- The entry a row stands for, when its timestamp can be read. -/
def Row.toEntry (row : Row) : Option (HashChain.Entry (Columns DateTime) String) :=
  (decodeTimestamp row.timestamp).toOption.map fun timestamp =>
    ⟨row.toColumns.withTimestamp timestamp, row.hash⟩

theorem Row.toEntry_eq_some_iff {row : Row} {e : HashChain.Entry (Columns DateTime) String} :
    row.toEntry = some e ↔
      ∃ event, rowToEvent row = .ok event ∧ event.toColumns = e.content ∧ row.hash = e.hash := by
  cases hts : decodeTimestamp row.timestamp with
  | error message => simp [toEntry, rowToEvent, hts, Except.toOption, bind, Except.bind]
  | ok d =>
    simp only [toEntry, rowToEvent, hts, Except.toOption, bind, Except.bind, pure, Except.pure,
      Option.map_some, Option.some.injEq, Except.ok.injEq, exists_eq_left']
    constructor
    · rintro rfl
      exact ⟨rfl, rfl⟩
    · rintro ⟨hcontent, hhash⟩
      exact HashChain.Entry.ext hcontent hhash

theorem Row.prevHash_of_toEntry {row : Row} {e : HashChain.Entry (Columns DateTime) String}
    (h : row.toEntry = some e) : row.prevHash = e.content.prevHash ∧ row.hash = e.hash := by
  obtain ⟨d, -, rfl⟩ := Option.map_eq_some_iff.mp h
  exact ⟨rfl, rfl⟩

end AnonReq.Audit
