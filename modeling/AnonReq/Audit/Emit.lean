import AnonReq.Audit.Sequential
import AnonReq.Foundation.Splitting

/-!
# Emitting the anonymization event of a request

`emit_anonymization_audit` of `pipeline/audit_emit.py` and `log_event` of
`services/audit_chain.py`: the write of one event with retries, under an event id derived from
tenant and request.

* `EmitSetting` are the calls of a run, `emitStep` is one write attempt of one of them, the late
  commit of an abandoned one, or a write by another part of the service; `emitRun` runs a
  schedule of these.
* `Owned` says of a row that it has the id of a request exactly when it is the event of that
  request. `anonymizationEventId_injective` is why a written event is such a row.
* `EmitInv` is the invariant, `EmitInv.step` its step lemma and `emitInv_run` the run lemma.
* `emitRun_exactly_once`: a call that returns leaves exactly one event of its request, any other
  call at most one, and no request's event is taken for another's.
-/

namespace AnonReq.Audit

universe u

/-! ### `log_event` -/

/-- The fields that `log_event` takes out of its keyword arguments, and the JSON text of the
others. -/
structure LogFields where
  eventId : Option String := none
  tenantId : Option String := none
  requestId : Option String := none
  operatorId : Option String := none
  provider : Option String := none
  decision : Option String := none
  latencyMs : Option ℤ := none
  metadataJson : String

/-- `str(value) if value else None`. -/
def textOrNone (value : Option String) : Option String :=
  value.filter fun s => decide (s ≠ "")

/-- The event that `log_event` builds at the time `now`; `fresh` is the id it draws when it is
given none. -/
def loggedEvent (retentionDays : ℤ) (now : UtcTime) (fresh : String) (eventType : String)
    (fields : LogFields) : AuditEvent where
  eventId := (textOrNone fields.eventId).getD fresh
  timestamp := now.val
  tenantId := fields.tenantId.getD "default"
  requestId := textOrNone fields.requestId
  decision := textOrNone fields.decision
  provider := textOrNone fields.provider
  latencyMs := fields.latencyMs
  eventType := eventType
  operatorId := textOrNone fields.operatorId
  metadataJson := some fields.metadataJson
  retentionDays := retentionDays

/-- `log_event`. -/
def logEvent (H : List (String × Json) → String) (retentionDays : ℤ) (db : Database)
    (now : UtcTime) (fresh : String) (eventType : String) (fields : LogFields) :
    Except String AuditEvent × Database :=
  storeEvent H db (loggedEvent retentionDays now fresh eventType fields)

/-! ### The calls -/

/-- The id of a request; none that is issued has a colon. -/
structure RequestId where
  text : String
  noColon : ':' ∉ text.toList

/-- The metadata of an anonymization event: counts by entity type, and what the context recorded
of the run. -/
structure EmitMetadata where
  entityCounts : List (String × ℕ) := []
  tokenCount : ℕ := 0
  locale : Option String := none
  model : Option String := none
  compliancePreset : Option String := none
  terminalState : Option String := none

/-- What `emit_anonymization_audit` reads of a `ProcessingContext`, and its argument
`attempts`. -/
structure EmitContext where
  tenantId : String
  requestId : RequestId
  hasAuditChain : Bool := true
  operatorId : Option String := none
  provider : Option String := none
  classificationAction : Option String := none
  processingOverheadMs : Option ℤ := none
  metadata : EmitMetadata := {}
  attempts : Option ℤ := none

/-- The calls `τ` of a run, the hash of the chain, the configuration, and the library functions
that the emission uses: `uuid5` in the namespace of the keys, as hex digits, and the JSON encoder
of the metadata. -/
structure EmitSetting (τ : Type u) where
  H : List (String × Json) → String
  retentionDays : ℤ := 2557
  auditWriteAttempts : ℤ := 3
  uuid5 : String → String
  dumps : EmitMetadata → String
  context : τ → EmitContext

section

variable {τ : Type u} {S : EmitSetting τ}

/-- The number of attempts of `_retry_policy`: at least one, at most five. -/
def EmitSetting.maxAttempts (S : EmitSetting τ) (ctx : EmitContext) : ℤ :=
  max 1 (min (ctx.attempts.getD S.auditWriteAttempts) 5)

/-- `anonymization_event_id`. -/
def EmitSetting.anonymizationEventId (S : EmitSetting τ) (tenantId : String)
    (requestId : RequestId) : String :=
  S.uuid5 ("anonymization:" ++ tenantId ++ ":" ++ requestId.text)

/-- The fields of the event of a call. The decision is the classification action, `unknown`
without a classification. -/
def EmitSetting.eventFields (S : EmitSetting τ) (ctx : EmitContext) : LogFields where
  eventId := some (S.anonymizationEventId ctx.tenantId ctx.requestId)
  tenantId := some ctx.tenantId
  requestId := some ctx.requestId.text
  operatorId := ctx.operatorId
  provider := ctx.provider
  decision := some (ctx.classificationAction.getD "unknown")
  latencyMs := ctx.processingOverheadMs
  metadataJson := S.dumps ctx.metadata

/-- The event of a call, written at the time `now`. -/
def EmitSetting.emitted (S : EmitSetting τ) (ctx : EmitContext) (now : UtcTime)
    (fresh : String) : AuditEvent :=
  loggedEvent S.retentionDays now fresh "anonymization" (S.eventFields ctx)

/-- The columns are those of the anonymization event of a request of a tenant. -/
def IsEventOf (tenantId : String) (requestId : RequestId) {T : Type} (c : Columns T) : Prop :=
  c.eventType = "anonymization" ∧ c.tenantId = tenantId ∧
    c.requestId = textOrNone (some requestId.text)

instance (tenantId : String) (requestId : RequestId) {T : Type} (c : Columns T) :
    Decidable (IsEventOf tenantId requestId c) := by
  unfold IsEventOf
  infer_instance

/-- The columns have the id of a request exactly when they are those of its event. -/
def EmitSetting.Owned (S : EmitSetting τ) {T : Type} (c : Columns T) : Prop :=
  ∀ tenantId requestId,
    c.eventId = S.anonymizationEventId tenantId requestId ↔ IsEventOf tenantId requestId c

/-- An event of another part of the service: of another type, under an id that is not that of
a request. -/
structure EmitSetting.Foreign (S : EmitSetting τ) (event : AuditEvent) : Prop where
  utc : event.timestamp.IsUtc
  eventType_ne : event.eventType ≠ "anonymization"
  eventId_ne : ∀ tenantId requestId,
    event.eventId ≠ S.anonymizationEventId tenantId requestId

/-! ### Event ids -/

/-- **Distinct requests have distinct event ids**, whatever colons the tenant ids have. -/
theorem anonymizationEventId_injective (hinj : Function.Injective S.uuid5) {tenantId tenantId' :
    String} {requestId requestId' : RequestId}
    (h : S.anonymizationEventId tenantId requestId =
      S.anonymizationEventId tenantId' requestId') :
    tenantId = tenantId' ∧ requestId = requestId' := by
  have hname := congrArg String.toList (hinj h)
  simp only [String.toList_append, List.append_assoc, List.append_cancel_left_eq] at hname
  obtain ⟨htenant, hrequest⟩ := Splitting.append_cons_inj_of_back requestId.noColon
    requestId'.noColon hname
  refine ⟨String.toList_injective htenant, ?_⟩
  cases requestId
  cases requestId'
  congr
  exact String.toList_injective hrequest

/-- The column of a request id determines it; the empty one is `NULL`. -/
theorem textOrNone_injective {s s' : String} (h : textOrNone (some s) = textOrNone (some s')) :
    s = s' := by
  by_cases hs : s = "" <;> by_cases hs' : s' = "" <;>
    simp_all [textOrNone, Option.filter]

/-- The event of a call has its id, and is owned by its request. -/
theorem owned_emitted (hinj : Function.Injective S.uuid5) (hhex : ∀ name, S.uuid5 name ≠ "")
    (ctx : EmitContext) (now : UtcTime) (fresh : String) :
    (S.emitted ctx now fresh).eventId = S.anonymizationEventId ctx.tenantId ctx.requestId ∧
      S.Owned (S.emitted ctx now fresh).toColumns := by
  have hid : (S.emitted ctx now fresh).eventId =
      S.anonymizationEventId ctx.tenantId ctx.requestId := by
    have hne : S.anonymizationEventId ctx.tenantId ctx.requestId ≠ "" := hhex _
    simp [EmitSetting.emitted, loggedEvent, EmitSetting.eventFields, textOrNone,
      Option.filter_some_pos, hne]
  refine ⟨hid, fun tenantId requestId => ?_⟩
  rw [hid]
  constructor
  · intro heq
    obtain ⟨rfl, rfl⟩ := anonymizationEventId_injective hinj heq
    exact ⟨rfl, rfl, rfl⟩
  · rintro ⟨-, htenant, hrequest⟩
    have htenant : ctx.tenantId = tenantId := htenant
    have hrequest : ctx.requestId.text = requestId.text := textOrNone_injective hrequest
    rw [EmitSetting.anonymizationEventId, EmitSetting.anonymizationEventId, htenant, hrequest]

/-- An event of another part of the service is owned by no request. -/
theorem EmitSetting.Foreign.owned {event : AuditEvent} (h : S.Foreign event) :
    S.Owned event.toColumns := fun tenantId requestId =>
  iff_of_false (h.eventId_ne tenantId requestId) fun hevent => h.eventType_ne hevent.1

/-! ### What a write does to the table -/

/-- A write that succeeds leaves a row with the id of its event. -/
theorem exists_row_of_storeEvent {H : List (String × Json) → String} {db db' : Database}
    {event stored : AuditEvent} (h : storeEvent H db event = (.ok stored, db')) :
    ∃ row ∈ db'.rows, row.eventId = event.eventId := by
  rw [storeEvent] at h
  split at h
  · cases h
  · split at h
    · cases h
    · split at h
      · rename_i row hrow
        obtain ⟨-, rfl⟩ := Prod.mk.inj h
        exact ⟨row, List.mem_of_find?_eq_some hrow, by simpa using List.find?_some hrow⟩
      · obtain ⟨-, rfl⟩ := Prod.mk.inj h
        exact ⟨_, List.mem_append_right _ List.mem_cons_self, rfl⟩

/-- A write keeps the rows there are. -/
theorem mem_rows_storeEvent {H : List (String × Json) → String} {db : Database} {row : Row}
    (h : row ∈ db.rows) (event : AuditEvent) : row ∈ (storeEvent H db event).2.rows := by
  obtain heq | ⟨latest, -, -, heq⟩ := storeEvent_cases H db event
  · rwa [heq]
  · rw [heq]
    exact List.mem_append_left _ h

/-- A write of an owned event leaves owned rows. -/
theorem owned_storeEvent {H : List (String × Json) → String} {db : Database}
    (h : ∀ row ∈ db.rows, S.Owned row.toColumns) {event : AuditEvent}
    (hevent : S.Owned event.toColumns) :
    ∀ row ∈ (storeEvent H db event).2.rows, S.Owned row.toColumns := by
  obtain heq | ⟨latest, -, -, heq⟩ := storeEvent_cases H db event
  · rwa [heq]
  · rw [heq]
    intro row hrow
    obtain hrow | hrow := List.mem_append.mp hrow
    · exact h row hrow
    · rw [List.mem_singleton.mp hrow]
      -- neither the link nor the form of the timestamp enters `Owned`
      exact hevent

/-! ### The steps -/

/-- How far a call has come: before the numbered attempt, or at its end. -/
inductive EmitStatus where
  | running (attempt : ℕ)
  | returned
  | raised
deriving DecidableEq

/-- The end of a write attempt. It fails with nothing committed; it is cancelled by the timeout,
its transaction being left behind; or `log_event` comes to its end. -/
inductive Outcome where
  | failed
  | cancelled
  | finished
deriving DecidableEq

/-- A step of a run. A transaction left behind may be committed at any later time, or never. -/
inductive EmitStep (S : EmitSetting τ) where
  | attempt (t : τ) (now : UtcTime) (fresh : String) (outcome : Outcome)
  | commit (i : ℕ)
  | store (event : { event : AuditEvent // S.Foreign event })

/-- The table, the events of the transactions left behind, and the calls. -/
structure EmitState (τ : Type u) where
  db : Database
  leftBehind : List AuditEvent := []
  status : τ → EmitStatus

/-- An empty table. A call without an audit chain returns at once. -/
def EmitSetting.initial (S : EmitSetting τ) (dialect : Dialect) : EmitState τ where
  db := { dialect := dialect }
  status t := if (S.context t).hasAuditChain then .running 1 else .returned

section

variable [DecidableEq τ]

namespace EmitState

/-- Set the status of a call. -/
def setStatus (s : EmitState τ) (t : τ) (status : EmitStatus) : EmitState τ :=
  { s with status := Function.update s.status t status }

/-- The `except` branch: the next attempt, or the error when there is none. -/
def retry (S : EmitSetting τ) (s : EmitState τ) (t : τ) (attempt : ℕ) : EmitState τ :=
  s.setStatus t (if attempt < S.maxAttempts (S.context t) then .running (attempt + 1) else .raised)

/-- An attempt of a call. -/
def tryWrite (S : EmitSetting τ) (s : EmitState τ) (t : τ) (attempt : ℕ) (now : UtcTime)
    (fresh : String) : Outcome → EmitState τ
  | .failed => s.retry S t attempt
  | .cancelled =>
    { s.retry S t attempt with
      leftBehind := s.leftBehind ++ [S.emitted (S.context t) now fresh] }
  | .finished =>
    match logEvent S.H S.retentionDays s.db now fresh "anonymization"
        (S.eventFields (S.context t)) with
    | (.ok _, db) => { s with db := db }.setStatus t .returned
    | (.error _, db) => { s with db := db }.retry S t attempt

end EmitState

/-- One step of a run. -/
def emitStep (S : EmitSetting τ) (s : EmitState τ) : EmitStep S → EmitState τ
  | .attempt t now fresh outcome =>
    match s.status t with
    | .running attempt => s.tryWrite S t attempt now fresh outcome
    | _ => s
  | .commit i =>
    match s.leftBehind[i]? with
    | none => s
    | some event =>
      { s with
        db := (storeEvent S.H s.db event).2
        leftBehind := s.leftBehind.eraseIdx i }
  | .store event => { s with db := (storeEvent S.H s.db event.val).2 }

/-- A run: the steps of a schedule, one after the other. -/
def emitRun (S : EmitSetting τ) (s : EmitState τ) (schedule : List (EmitStep S)) :
    EmitState τ :=
  schedule.foldl (emitStep S) s

end

/-! ### The invariant -/

/-- An event that a transaction left behind may still commit. -/
structure Writable (S : EmitSetting τ) (event : AuditEvent) : Prop where
  utc : event.timestamp.IsUtc
  owned : S.Owned event.toColumns

/-- The invariant of a run: that of the table, every row owned, and a row for every call that
has returned. -/
structure EmitInv (S : EmitSetting τ) (s : EmitState τ) : Prop where
  table : Inv S.H s.db
  owned : ∀ row ∈ s.db.rows, S.Owned row.toColumns
  leftBehind : ∀ event ∈ s.leftBehind, Writable S event
  written : ∀ t, (S.context t).hasAuditChain = true → s.status t = .returned →
    ∃ row ∈ s.db.rows,
      row.eventId = S.anonymizationEventId (S.context t).tenantId (S.context t).requestId

theorem emitInv_initial (S : EmitSetting τ) (dialect : Dialect) :
    EmitInv S (S.initial dialect) where
  table := inv_empty dialect
  owned _ hrow := absurd hrow List.not_mem_nil
  leftBehind _ hevent := absurd hevent List.not_mem_nil
  written t hchain hreturned := by
    simp [EmitSetting.initial, hchain] at hreturned

namespace EmitInv

variable {s : EmitState τ}

/-- A write of a writable event keeps the invariant. -/
theorem store (h : EmitInv S s) {event : AuditEvent} (hevent : Writable S event) :
    EmitInv S { s with db := (storeEvent S.H s.db event).2 } where
  table := h.table.storeEvent hevent.utc
  owned := owned_storeEvent h.owned hevent.owned
  leftBehind := h.leftBehind
  written t hchain hreturned := by
    obtain ⟨row, hrow, hid⟩ := h.written t hchain hreturned
    exact ⟨row, mem_rows_storeEvent hrow event, hid⟩

/-- Transactions may be left behind, and commit or vanish. -/
theorem setLeftBehind (h : EmitInv S s) {events : List AuditEvent}
    (hevents : ∀ event ∈ events, Writable S event) :
    EmitInv S { s with leftBehind := events } :=
  { h with leftBehind := hevents }

variable [DecidableEq τ]

/-- A call may take a status other than `returned`, and that too once its event is stored. -/
theorem setStatus (h : EmitInv S s) {t : τ} {status : EmitStatus}
    (hstatus : status = .returned → ∃ row ∈ s.db.rows,
      row.eventId = S.anonymizationEventId (S.context t).tenantId (S.context t).requestId) :
    EmitInv S (s.setStatus t status) where
  table := h.table
  owned := h.owned
  leftBehind := h.leftBehind
  written u hchain hreturned := by
    by_cases hu : u = t
    · subst hu
      exact hstatus (by simpa [EmitState.setStatus] using hreturned)
    · exact h.written u hchain (by simpa [EmitState.setStatus, hu] using hreturned)

theorem retry (h : EmitInv S s) (t : τ) (attempt : ℕ) : EmitInv S (s.retry S t attempt) :=
  h.setStatus fun hreturned => by
    split_ifs at hreturned

/-- An attempt keeps the invariant. -/
theorem tryWrite (hinj : Function.Injective S.uuid5) (hhex : ∀ name, S.uuid5 name ≠ "")
    (h : EmitInv S s) (t : τ) (attempt : ℕ) (now : UtcTime) (fresh : String)
    (outcome : Outcome) : EmitInv S (s.tryWrite S t attempt now fresh outcome) := by
  obtain ⟨hid, howned⟩ := owned_emitted hinj hhex (S.context t) now fresh
  have hwritable : Writable S (S.emitted (S.context t) now fresh) := ⟨now.property, howned⟩
  cases outcome with
  | failed => exact h.retry t attempt
  | cancelled =>
    refine (h.retry t attempt).setLeftBehind fun event hevent => ?_
    obtain hevent | hevent := List.mem_append.mp hevent
    · exact h.leftBehind event hevent
    · exact List.mem_singleton.mp hevent ▸ hwritable
  | finished =>
    have hstore := h.store hwritable
    have htry : s.tryWrite S t attempt now fresh .finished =
        match storeEvent S.H s.db (S.emitted (S.context t) now fresh) with
        | (.ok _, db) => { s with db := db }.setStatus t .returned
        | (.error _, db) => { s with db := db }.retry S t attempt := rfl
    rw [htry]
    rcases hlog : storeEvent S.H s.db (S.emitted (S.context t) now fresh) with
      ⟨message | stored, db⟩ <;> rw [hlog] at hstore
    · exact hstore.retry t attempt
    · refine hstore.setStatus fun _ => ?_
      rw [← hid]
      exact exists_row_of_storeEvent hlog

/-- **Step.** Every step keeps the invariant. -/
theorem step (hinj : Function.Injective S.uuid5) (hhex : ∀ name, S.uuid5 name ≠ "")
    (h : EmitInv S s) (a : EmitStep S) : EmitInv S (emitStep S s a) := by
  cases a with
  | attempt t now fresh outcome =>
    rw [emitStep]
    split
    · exact h.tryWrite hinj hhex t _ now fresh outcome
    · exact h
  | commit i =>
    rw [emitStep]
    split
    · exact h
    · rename_i event hevent
      have hmem : event ∈ s.leftBehind := List.mem_of_getElem? hevent
      exact (h.store (h.leftBehind event hmem)).setLeftBehind fun other hother =>
        h.leftBehind other (List.mem_of_mem_eraseIdx hother)
  | store event => exact h.store ⟨event.property.utc, event.property.owned⟩

end EmitInv

/-- **Run.** Every run keeps the invariant. -/
theorem emitInv_run [DecidableEq τ] (hinj : Function.Injective S.uuid5)
    (hhex : ∀ name, S.uuid5 name ≠ "") {s : EmitState τ} (h : EmitInv S s)
    (schedule : List (EmitStep S)) :
    EmitInv S (emitRun S s schedule) := by
  induction schedule generalizing s with
  | nil => exact h
  | cons a schedule ih => exact ih (h.step hinj hhex a)

/-! ### Exactly once -/

namespace EmitInv

variable {s : EmitState τ}

/-- At most one row is the event of a request. -/
theorem length_filter_le (h : EmitInv S s) (tenantId : String) (requestId : RequestId) :
    (s.db.rows.filter fun row => decide (IsEventOf tenantId requestId row.toColumns)).length ≤
      1 := by
  have hids : ∀ row ∈ s.db.rows, decide (IsEventOf tenantId requestId row.toColumns) = true ↔
      (row.eventId == S.anonymizationEventId tenantId requestId) = true := fun row hrow => by
    simp [h.owned row hrow tenantId requestId]
  rw [← List.countP_eq_length_filter, List.countP_congr hids]
  have hcount := List.nodup_iff_count_le_one.mp h.table.nodup
    (S.anonymizationEventId tenantId requestId)
  rwa [List.count, List.countP_map] at hcount

/-- A row under the id of a request is its only event, and one of the rows of its tenant. -/
theorem filter_eq_singleton (h : EmitInv S s) {tenantId : String} {requestId : RequestId}
    {row : Row} (hrow : row ∈ s.db.rows)
    (hid : row.eventId = S.anonymizationEventId tenantId requestId) :
    row ∈ tenantRows s.db.rows tenantId ∧
      (s.db.rows.filter fun row => decide (IsEventOf tenantId requestId row.toColumns)) =
        [row] := by
  have hevent : IsEventOf tenantId requestId row.toColumns :=
    (h.owned row hrow tenantId requestId).mp hid
  constructor
  · rw [tenantRows_of_increasing h.table.increasing]
    exact List.mem_filter.mpr ⟨hrow, decide_eq_true hevent.2.1⟩
  · have hmem : row ∈ s.db.rows.filter fun row =>
        decide (IsEventOf tenantId requestId row.toColumns) :=
      List.mem_filter.mpr ⟨hrow, decide_eq_true hevent⟩
    have hpos := List.length_pos_of_mem hmem
    have hle := h.length_filter_le tenantId requestId
    obtain ⟨only, honly⟩ := List.length_eq_one_iff.mp (Nat.le_antisymm hle hpos)
    rw [honly] at hmem ⊢
    rw [List.mem_singleton.mp hmem]

end EmitInv

/-- **Exactly once.** Let `uuid5` be injective, with hex digits as values. After every run of
emitting calls, over any tenants, with any ends of their attempts:

* a call that has returned, with an audit chain, has left exactly one anonymization event of its
  request, and that in the chain of its tenant;
* a call that has raised has left at most one, and so has every other call;
* the rows of every tenant are linked, and `verify_chain` reports them intact;
* calls under one event id have the same tenant and request, and a row under the event id of a
  call is an event of its request. -/
theorem emitRun_exactly_once [DecidableEq τ] (S : EmitSetting τ)
    (hinj : Function.Injective S.uuid5) (hhex : ∀ name, S.uuid5 name ≠ "") (dialect : Dialect)
    (schedule : List (EmitStep S)) :
    let s := emitRun S (S.initial dialect) schedule
    let events := fun t => s.db.rows.filter fun row =>
      decide (IsEventOf (S.context t).tenantId (S.context t).requestId row.toColumns)
    let eventId := fun t =>
      S.anonymizationEventId (S.context t).tenantId (S.context t).requestId
    (∀ t, (S.context t).hasAuditChain = true → s.status t = .returned →
      ∃ row ∈ tenantRows s.db.rows (S.context t).tenantId, events t = [row]) ∧
    (∀ t, (events t).length ≤ 1) ∧
    (∀ tenantId,
      (tenantRows s.db.rows tenantId).IsChain (fun a b => b.prevHash = some a.hash) ∧
      (∀ row ∈ (tenantRows s.db.rows tenantId).head?, row.prevHash = none) ∧
      (verifyChain S.H s.db.rows tenantId).map ChainVerificationResult.isIntact = .ok true) ∧
    (∀ t u, eventId t = eventId u → (S.context t).tenantId = (S.context u).tenantId ∧
      (S.context t).requestId = (S.context u).requestId) ∧
    ∀ t, ∀ row ∈ s.db.rows, row.eventId = eventId t →
      IsEventOf (S.context t).tenantId (S.context t).requestId row.toColumns := by
  intro s events eventId
  have hinv : EmitInv S s := emitInv_run hinj hhex (emitInv_initial S dialect) schedule
  refine ⟨fun t hchain hreturned => ?_, fun t => hinv.length_filter_le _ _, fun tenantId => ?_,
    fun t u heq => anonymizationEventId_injective hinj heq,
    fun t row hrow hid => (hinv.owned row hrow _ _).mp hid⟩
  · obtain ⟨row, hrow, hid⟩ := hinv.written t hchain hreturned
    obtain ⟨htenant, honly⟩ := hinv.filter_eq_singleton hrow hid
    exact ⟨row, htenant, honly⟩
  · obtain ⟨hlinked, hhead⟩ := (hinv.table.chained tenantId).linked
    refine ⟨hlinked, hhead, ?_⟩
    rw [hinv.table.verifyChain tenantId none]
    rfl

end

/-! ### A sample run -/

/-- `uuid5` on the name of one request, and an injective function elsewhere. -/
def sampleUuid5 (name : String) : String :=
  if name = "anonymization:acme:eu:req_0123456789abcdef01234567" then
    "79018de2cc5358c68d988408448fd616"
  else "0" ++ name

theorem sampleUuid5_injective : Function.Injective sampleUuid5 := by
  have hne : ∀ name, "79018de2cc5358c68d988408448fd616" ≠ "0" ++ name := fun name h => by
    have := congrArg (fun s => s.toList.head?) h
    simp at this
  intro name name' h
  simp only [sampleUuid5] at h
  split_ifs at h with hname hname' hname'
  · rw [hname, hname']
  · exact absurd h (hne name')
  · exact absurd h.symm (hne name)
  · exact String.toList_injective (by simpa using congrArg String.toList h)

theorem sampleUuid5_ne (name : String) : sampleUuid5 name ≠ "" := by
  intro h
  have hlist := congrArg String.toList h
  rw [sampleUuid5] at hlist
  split_ifs at hlist <;> simp at hlist

/-- Two callers emit the event of one request of a tenant whose id has a colon. -/
def sampleEmitSetting : EmitSetting Bool where
  H := sampleHash
  uuid5 := sampleUuid5
  dumps _ := "\x7b\x7d"
  context _ :=
    { tenantId := "acme:eu"
      requestId := ⟨"req_0123456789abcdef01234567", by decide⟩ }

/-- The first attempt is cancelled and commits late; its retry and the second caller succeed. -/
def sampleEmitSchedule : List (EmitStep sampleEmitSetting) :=
  [.attempt true ⟨sampleTime, rfl⟩ "f1" .cancelled, .commit 0,
    .attempt true ⟨sampleTime, rfl⟩ "f2" .finished,
    .attempt false ⟨sampleTime, rfl⟩ "f3" .finished]

theorem emitRun_exactly_once_sampleEmitSchedule :
    let s := emitRun sampleEmitSetting (sampleEmitSetting.initial .sqlite) sampleEmitSchedule
    ∃ row, s.db.rows.filter (fun row => decide (IsEventOf "acme:eu"
      (sampleEmitSetting.context true).requestId row.toColumns)) = [row] := by
  intro s
  obtain ⟨hreturned, -⟩ := emitRun_exactly_once sampleEmitSetting sampleUuid5_injective
    sampleUuid5_ne .sqlite sampleEmitSchedule
  obtain ⟨row, -, honly⟩ := hreturned true rfl (by decide +kernel)
  exact ⟨row, honly⟩

end AnonReq.Audit
