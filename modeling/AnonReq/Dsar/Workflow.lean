import AnonReq.Foundation.Runs

/-!
# The workflow of data subject requests

`dsar/workflow.py`: a request is submitted, verified and fulfilled. Each call reads or updates the
row of the request by its identifier alone, and any call of the database or of a service may fail.

* `Kept` says of a call that it keeps the lifecycle, `InOrder` that it comes when it is due and what
  it stores is stored.
* `kept_iff`: the two agree for a call in a state that calls in order lead to.
* `lifecycle_iff`: a run keeps the lifecycle if and only if all of its calls are in order.
* `not_lifecycle`: a request that was not verified is fulfilled.
-/

namespace AnonReq.Dsar

/-! ### Rows -/

/-- `DsarRequestType`. -/
inductive DsarRequestType where
  | erasure
  | restriction
  | rectification
  | portability
  | access
deriving DecidableEq

/-- The value of a request type. -/
def DsarRequestType.value : DsarRequestType → String
  | .erasure => "ERASURE"
  | .restriction => "RESTRICTION"
  | .rectification => "RECTIFICATION"
  | .portability => "PORTABILITY"
  | .access => "ACCESS"

/-- `SubjectStatus`. -/
inductive SubjectStatus where
  | active
  | deleted
  | processingRestricted
  | legalHold
deriving DecidableEq

/-- The status of a request. -/
inductive DsarStatus where
  | pendingVerification
  | processing
  | fulfilled
deriving DecidableEq

/-- `DsarRequest`: a row of `dsar_requests`. Times are counted from some day on. -/
structure DsarRequest where
  id : String
  tenantId : String
  subjectId : String
  requestType : DsarRequestType
  status : DsarStatus := .pendingVerification
  verifiedBy : Option String := none
  fulfilledBy : Option String := none
  verificationDetails : Option String := none
  result : Option SubjectStatus := none
  submittedAt : Option ℕ := none
  verifiedAt : Option ℕ := none
  fulfilledAt : Option ℕ := none
  notes : Option String := none

/-- `DsarResult`. -/
structure DsarResult where
  requestId : String
  subjectStatus : SubjectStatus
  summary : String
  fulfilledAt : ℕ

/-- The table `dsar_requests` by its primary key. -/
abbrev DsarTable := String → Option DsarRequest

/-! ### The calls -/

/-- What a call raises: `ValueError`, `RuntimeError`, or what a rollback raises. -/
inductive DsarError where
  | valueError (message : String)
  | runtimeError (message : String)
  | database (message : String)

/-- How a statement and its commit end: they are stored, or they fail and are rolled back, unless
the rollback fails as well. -/
inductive Write where
  | committed
  | failed (error : String) (rollbackError : Option String)

/-- A service that acts upon a subject. -/
inductive Service where
  | erase
  | restrict
deriving DecidableEq

/-- A subject is acted upon for a request. -/
structure Acted where
  requestId : String
  service : Service
  tenantId : String
  subjectId : String

/-- `DsarWorkflow`: which services it is given. -/
structure DsarWorkflow where
  hasErasureService : Bool
  hasRestrictionService : Bool
  hasLegalHoldManager : Bool

/-- What the environment does in a call of `fulfill_request`: whether the row can be read, what the
legal hold manager answers, if it does not raise, what the service raises, and how the update
ends. -/
structure FulfillFaults where
  readable : Bool := true
  holdAnswer : Option Bool := some false
  serviceError : Option String := none
  write : Write := .committed

/-- What a call leaves: the table, what was acted upon, and what is returned or raised. -/
structure Outcome (ρ : Type) where
  table : DsarTable
  acted : List Acted := []
  returned : Except DsarError ρ

/-- Store a row, unless its statement fails; the failure is raised as `error` says. -/
def store {ρ : Type} (write : Write) (before after : DsarTable) (returned : ρ)
    (error : String → DsarError) : Outcome ρ :=
  match write with
  | .committed => { table := after, returned := .ok returned }
  | .failed e none => { table := before, returned := .error (error e) }
  | .failed _ (some e) => { table := before, returned := .error (.database e) }

/-- `submit_request`, with the identifier it draws. A row with an identifier that is there cannot be
inserted. -/
def submitRequest (table : DsarTable) (request : DsarRequest) (now : ℕ) (write : Write) :
    Outcome DsarRequest :=
  let request := { request with
    status := .pendingVerification, submittedAt := some now, verifiedBy := none,
    fulfilledBy := none, result := none, verifiedAt := none, fulfilledAt := none }
  let write := if (table request.id).isSome then
    .failed "UNIQUE constraint failed: dsar_requests.id" none else write
  store write table (Function.update table request.id (some request)) request
    fun e => .runtimeError ("Failed to submit DSAR request: " ++ e)

/-- A row after `verify_request`. -/
def DsarRequest.verified (request : DsarRequest) (verifiedBy : String) (now : ℕ) : DsarRequest :=
  { request with status := .processing, verifiedBy := some verifiedBy, verifiedAt := some now }

/-- `verify_request`: the row is updated, whatever its status is. What is returned has no tenant and
no subject. -/
def verifyRequest (table : DsarTable) (id verifiedBy : String) (now : ℕ) (write : Write) :
    Outcome DsarRequest :=
  let returned : DsarRequest :=
    { id := id, tenantId := "", subjectId := "", requestType := .access, status := .processing
      verifiedBy := some verifiedBy, verifiedAt := some now }
  match table id with
  | some request =>
    store write table (Function.update table id (some (request.verified verifiedBy now))) returned
      fun _ => .valueError ("Failed to verify DSAR request: " ++ id)
  | none =>
    match write with
    | .committed =>
      { table := table, returned := .error (.valueError ("DSAR request not found: " ++ id)) }
    | .failed .. =>
      store write table table returned
        fun _ => .valueError ("Failed to verify DSAR request: " ++ id)

/-- A row after `_update_request_fulfillment`. -/
def DsarRequest.withFulfillment (request : DsarRequest) (subjectStatus : SubjectStatus)
    (fulfilledBy : String) (now : ℕ) : DsarRequest :=
  { request with
    status := .fulfilled, result := some subjectStatus, fulfilledBy := some fulfilledBy
    fulfilledAt := some now }

namespace DsarWorkflow

variable (W : DsarWorkflow)

/-- The subject is taken to be on hold: the manager is asked for an erasure, and a check that raises
counts for nothing. -/
def onHold (requestType : DsarRequestType) (holdAnswer : Option Bool) : Bool :=
  requestType = .erasure && W.hasLegalHoldManager && holdAnswer.getD false

/-- The service that is called for a request. -/
def service (requestType : DsarRequestType) (onHold : Bool) : Option Service :=
  match requestType with
  | .erasure => if W.hasErasureService && !onHold then some .erase else none
  | .restriction => if W.hasRestrictionService then some .restrict else none
  | _ => none

/-- The status of the subject, and the summary. -/
def subjectStatus (request : DsarRequest) (onHold : Bool) : SubjectStatus × String :=
  match request.requestType with
  | .erasure =>
    if onHold then (.legalHold, "Erasure blocked — subject is under Legal Hold")
    else (.deleted, "Subject " ++ request.subjectId ++ " data erased successfully")
  | .restriction =>
    (.processingRestricted, "Subject " ++ request.subjectId ++ " processing restricted")
  | requestType =>
    (.active, "Request type " ++ requestType.value ++ " fulfilled — no automated action")

/-- The error of a service. -/
def serviceFailure (id : String) (error : String) : Service → DsarError
  | .erase => .runtimeError ("Erasure failed for " ++ id ++ ": " ++ error)
  | .restrict => .runtimeError ("Restriction failed for " ++ id ++ ": " ++ error)

/-- The end of `fulfill_request`: the row is updated, and a failure of that is not raised unless the
rollback fails. -/
def finish (table : DsarTable) (request : DsarRequest) (id fulfilledBy : String) (now : ℕ)
    (status : SubjectStatus × String) (write : Write) : Outcome DsarResult :=
  let result : DsarResult :=
    { requestId := id, subjectStatus := status.1, summary := status.2, fulfilledAt := now }
  match write with
  | .committed =>
    { table := Function.update table id
        (some (request.withFulfillment status.1 fulfilledBy now))
      returned := .ok result }
  | .failed _ none => { table := table, returned := .ok result }
  | .failed _ (some e) => { table := table, returned := .error (.database e) }

/-- `fulfill_request`: the status of the row is not read. -/
def fulfillRequest (table : DsarTable) (id fulfilledBy : String) (now : ℕ)
    (faults : FulfillFaults) : Outcome DsarResult :=
  match if faults.readable then table id else none with
  | none =>
    { table := table, returned := .error (.valueError ("DSAR request not found: " ++ id)) }
  | some request =>
    let onHold := W.onHold request.requestType faults.holdAnswer
    let finished := finish table request id fulfilledBy now (subjectStatus request onHold)
      faults.write
    match W.service request.requestType onHold with
    | none => finished
    | some service =>
      let acted : List Acted := [⟨id, service, request.tenantId, request.subjectId⟩]
      match faults.serviceError with
      | some e =>
        { table := table, acted := acted, returned := .error (serviceFailure id e service) }
      | none => { finished with acted := acted }

end DsarWorkflow

/-- A call, with what the environment does in it. -/
inductive DsarCall where
  | submit (request : DsarRequest) (now : ℕ) (write : Write)
  | verify (id verifiedBy : String) (now : ℕ) (write : Write)
  | fulfill (id fulfilledBy : String) (now : ℕ) (faults : FulfillFaults)

/-- The table, and the requests that a call of `verify_request` returned for. -/
structure DsarState where
  table : DsarTable
  verified : List String

/-- The empty table. -/
def DsarState.init : DsarState := ⟨fun _ => none, []⟩

variable (W : DsarWorkflow)

/-- One call. -/
def step (s : DsarState) : DsarCall → DsarState
  | .submit request now write => { s with table := (submitRequest s.table request now write).table }
  | .verify id verifiedBy now write =>
    let outcome := verifyRequest s.table id verifiedBy now write
    { table := outcome.table
      verified := match outcome.returned with
        | .ok _ => id :: s.verified
        | .error _ => s.verified }
  | .fulfill id fulfilledBy now faults =>
    { s with table := (W.fulfillRequest s.table id fulfilledBy now faults).table }

/-! ### The lifecycle -/

/-- The moves of the status of a request. -/
inductive Moves : Option DsarStatus → Option DsarStatus → Prop
  | stays (status : Option DsarStatus) : Moves status status
  | submitted : Moves none (some .pendingVerification)
  | verified : Moves (some .pendingVerification) (some .processing)
  | fulfilled : Moves (some .processing) (some .fulfilled)

/-- The status of a request in a table. -/
def status (table : DsarTable) (id : String) : Option DsarStatus :=
  (table id).map DsarRequest.status

/-- What a call of `fulfill_request` keeps: only a verified request is acted upon, a fulfilled one
is not fulfilled again, what is returned is stored, and where the call raises the row is
unchanged. -/
structure KeepsFulfillment (s : DsarState) (id : String) (outcome : Outcome DsarResult) : Prop where
  verified : ∀ act ∈ outcome.acted, act.requestId ∈ s.verified
  once : status s.table id = some .fulfilled → ∃ e, outcome.returned = .error e
  stored : ∀ result, outcome.returned = .ok result →
    ∃ row, outcome.table id = some row ∧ row.status = .fulfilled ∧
      row.result = some result.subjectStatus
  unchanged : ∀ e, outcome.returned = .error e → outcome.table id = s.table id

/-- **The lifecycle.** A call moves each status at most one step forward. -/
structure Kept (s : DsarState) (call : DsarCall) : Prop where
  moves : ∀ id, Moves (status s.table id) (status (step W s call).table id)
  fulfillment : ∀ id fulfilledBy now faults, call = .fulfill id fulfilledBy now faults →
    KeepsFulfillment s id (W.fulfillRequest s.table id fulfilledBy now faults)

/-- The service that is called for a row. -/
def calledService (row : DsarRequest) (faults : FulfillFaults) : Option Service :=
  W.service row.requestType (W.onHold row.requestType faults.holdAnswer)

/-- A service is called, and fails. -/
def ServiceFails (row : DsarRequest) (faults : FulfillFaults) : Prop :=
  (calledService W row faults).isSome = true ∧ faults.serviceError.isSome = true

/-- The update fails, and its rollback does not. -/
def Write.Swallowed (write : Write) : Prop := ∃ e, write = .failed e none

/-- The update fails, and so does its rollback. -/
def Write.Surfaces (write : Write) : Prop := ∃ e e', write = .failed e (some e')

/-- A call in its order. A request that is verified is not fulfilled. A request that is fulfilled is
being processed and its update is not swallowed, or the call raises: a service fails, of a request
that was verified, or only a rollback does. -/
def InOrder (s : DsarState) : DsarCall → Prop
  | .submit .. => True
  | .verify id _ _ write => write = .committed → status s.table id ≠ some .fulfilled
  | .fulfill id _ _ faults => faults.readable = true → ∀ row, s.table id = some row →
    match row.status with
    | .pendingVerification => calledService W row faults = none ∧ faults.write.Surfaces
    | .processing => ServiceFails W row faults ∨ ¬ faults.write.Swallowed
    | .fulfilled => ServiceFails W row faults ∨ faults.write.Surfaces

/-- Before it is verified a request is pending, and after that it is not. -/
structure Inv (s : DsarState) : Prop where
  pending : ∀ id, status s.table id = some .pendingVerification → id ∉ s.verified
  verified : ∀ id st, status s.table id = some st → st ≠ .pendingVerification → id ∈ s.verified
  present : ∀ id ∈ s.verified, (s.table id).isSome = true

/-! ### What a call does -/

variable {W} {s : DsarState}

theorem status_update (table : DsarTable) (id : String) (row : DsarRequest) (id' : String) :
    status (Function.update table id (some row)) id' =
      if id' = id then some row.status else status table id' := by
  unfold status
  rw [Function.update_apply]
  split_ifs <;> rfl

/-- A write that fails leaves the table as it is, and raises. -/
theorem store_cases {ρ : Type} (write : Write) (before after : DsarTable) (returned : ρ)
    (error : String → DsarError) :
    (write = .committed ∧ (store write before after returned error).table = after ∧
        (store write before after returned error).returned = .ok returned) ∨
      write ≠ .committed ∧ (store write before after returned error).table = before ∧
        ∃ e, (store write before after returned error).returned = .error e := by
  match write with
  | .committed => exact Or.inl ⟨rfl, rfl, rfl⟩
  | .failed e none => exact Or.inr ⟨(fun h => by cases h), rfl, _, rfl⟩
  | .failed e (some e') => exact Or.inr ⟨(fun h => by cases h), rfl, _, rfl⟩

/-- **Submitting** adds a pending row, or changes nothing. -/
theorem submitRequest_cases (table : DsarTable) (request : DsarRequest) (now : ℕ) (write : Write) :
    (submitRequest table request now write).table = table ∨
      status table request.id = none ∧ ∃ row : DsarRequest, row.status = .pendingVerification ∧
        (submitRequest table request now write).table =
          Function.update table request.id (some row) := by
  unfold submitRequest
  dsimp only
  by_cases hthere : (table request.id).isSome = true
  · rw [if_pos hthere]
    exact Or.inl rfl
  · rw [if_neg hthere]
    obtain ⟨-, htable, -⟩ | ⟨-, htable, -⟩ := store_cases write table
      (Function.update table request.id (some { request with
        status := .pendingVerification, submittedAt := some now, verifiedBy := none,
        fulfilledBy := none, result := none, verifiedAt := none, fulfilledAt := none }))
      { request with
        status := .pendingVerification, submittedAt := some now, verifiedBy := none,
        fulfilledBy := none, result := none, verifiedAt := none, fulfilledAt := none }
      (fun e => DsarError.runtimeError ("Failed to submit DSAR request: " ++ e))
    · refine Or.inr ⟨?_, _, rfl, htable⟩
      rw [status, Option.not_isSome_iff_eq_none.mp hthere, Option.map_none]
    · exact Or.inl htable

/-- **Verifying** sets the row of a request to processing if it is stored, and returns then. -/
theorem verifyRequest_cases (table : DsarTable) (id verifiedBy : String) (now : ℕ)
    (write : Write) :
    (∃ e, (verifyRequest table id verifiedBy now write).returned = .error e) ∧
        (verifyRequest table id verifiedBy now write).table = table ∧
        (write = .committed → table id = none) ∨
      write = .committed ∧ ∃ row, table id = some row ∧
        (∃ r, (verifyRequest table id verifiedBy now write).returned = .ok r) ∧
        (verifyRequest table id verifiedBy now write).table =
          Function.update table id (some (row.verified verifiedBy now)) := by
  unfold verifyRequest
  dsimp only
  cases hrow : table id with
  | none =>
    cases write with
    | committed => exact Or.inl ⟨⟨_, rfl⟩, rfl, fun _ => rfl⟩
    | failed e e' =>
      obtain ⟨h, -⟩ | ⟨-, htable, hreturned⟩ := store_cases (.failed e e') table table
        { id := id, tenantId := "", subjectId := "", requestType := .access, status := .processing
          verifiedBy := some verifiedBy, verifiedAt := some now : DsarRequest }
        (fun _ => DsarError.valueError ("Failed to verify DSAR request: " ++ id))
      · cases h
      · exact Or.inl ⟨hreturned, htable, fun _ => rfl⟩
  | some row =>
    obtain ⟨hwrite, htable, hreturned⟩ | ⟨hwrite, htable, hreturned⟩ := store_cases write table
      (Function.update table id (some (row.verified verifiedBy now)))
      { id := id, tenantId := "", subjectId := "", requestType := .access, status := .processing
        verifiedBy := some verifiedBy, verifiedAt := some now : DsarRequest }
      (fun _ => DsarError.valueError ("Failed to verify DSAR request: " ++ id))
    · exact Or.inr ⟨hwrite, row, rfl, ⟨_, hreturned⟩, htable⟩
    · exact Or.inl ⟨hreturned, htable, fun h => absurd h hwrite⟩

variable {faults : FulfillFaults}

/-- A row that cannot be read or is not there is not found. -/
theorem fulfillRequest_of_unread {table : DsarTable} {id : String}
    (h : faults.readable = true → table id = none) (fulfilledBy : String) (now : ℕ) :
    W.fulfillRequest table id fulfilledBy now faults =
      { table := table, returned := .error (.valueError ("DSAR request not found: " ++ id)) } := by
  unfold DsarWorkflow.fulfillRequest
  have hrow : (if faults.readable = true then table id else none) = none := by
    split_ifs with hread
    · exact h hread
    · rfl
  rw [hrow]

/-- How the end of `fulfill_request` depends on the update. -/
theorem finish_cases (table : DsarTable) (row : DsarRequest) (id fulfilledBy : String) (now : ℕ)
    (st : SubjectStatus × String) (write : Write) :
    let out := DsarWorkflow.finish table row id fulfilledBy now st write
    out.acted = [] ∧ ((write.Surfaces ∧ out.table = table ∧ ∃ e, out.returned = .error e) ∨
      (write = .committed ∧ ∃ result : DsarResult, out.returned = .ok result ∧
        out.table = Function.update table id
          (some (row.withFulfillment result.subjectStatus fulfilledBy now))) ∨
      write.Swallowed ∧ out.table = table ∧ ∃ result, out.returned = .ok result) := by
  match write with
  | .committed => exact ⟨rfl, Or.inr (Or.inl ⟨rfl, _, rfl, rfl⟩)⟩
  | .failed e none => exact ⟨rfl, Or.inr (Or.inr ⟨⟨e, rfl⟩, rfl, _, rfl⟩)⟩
  | .failed e (some e') => exact ⟨rfl, Or.inl ⟨⟨e, e', rfl⟩, rfl, _, rfl⟩⟩

/-- **Fulfilling** a row that is read: it raises and changes nothing, or its update is stored, or
its update is swallowed. It acts for this request, if a service is called. -/
theorem fulfillRequest_cases {table : DsarTable} {id : String} {row : DsarRequest}
    (hread : faults.readable = true) (hrow : table id = some row) (fulfilledBy : String) (now : ℕ) :
    let out := W.fulfillRequest table id fulfilledBy now faults
    (∀ act ∈ out.acted, act.requestId = id) ∧
    (out.acted = [] ↔ calledService W row faults = none) ∧
    (((ServiceFails W row faults ∨ faults.write.Surfaces) ∧ out.table = table ∧
        ∃ e, out.returned = .error e) ∨
      (¬ ServiceFails W row faults ∧ faults.write = .committed ∧
        ∃ result : DsarResult, out.returned = .ok result ∧
          out.table = Function.update table id
            (some (row.withFulfillment result.subjectStatus fulfilledBy now))) ∨
      ¬ ServiceFails W row faults ∧ faults.write.Swallowed ∧ out.table = table ∧
        ∃ result, out.returned = .ok result) := by
  have hfinish := finish_cases table row id fulfilledBy now
    (DsarWorkflow.subjectStatus row (W.onHold row.requestType faults.holdAnswer)) faults.write
  have hcalled : calledService W row faults =
      W.service row.requestType (W.onHold row.requestType faults.holdAnswer) := rfl
  unfold ServiceFails DsarWorkflow.fulfillRequest
  rw [if_pos hread, hrow, hcalled]
  dsimp only at hfinish ⊢
  generalize DsarWorkflow.finish table row id fulfilledBy now _ faults.write = finished at hfinish ⊢
  obtain ⟨hnone, hfinish⟩ := hfinish
  have hacted : ∀ act ∈ finished.acted, act.requestId = id := fun act hact => by
    rw [hnone] at hact
    cases hact
  cases W.service row.requestType (W.onHold row.requestType faults.holdAnswer) with
  | none =>
    have hnot : ¬ ((none : Option Service).isSome = true ∧ faults.serviceError.isSome = true) :=
      fun h => Bool.false_ne_true h.1
    dsimp only
    obtain ⟨hwrite, htable, hreturned⟩ | ⟨hwrite, hreturned⟩ | ⟨hwrite, htable, hreturned⟩ :=
      hfinish
    · exact ⟨hacted, by simp [hnone], Or.inl ⟨Or.inr hwrite, htable, hreturned⟩⟩
    · exact ⟨hacted, by simp [hnone], Or.inr (Or.inl ⟨hnot, hwrite, hreturned⟩)⟩
    · exact ⟨hacted, by simp [hnone], Or.inr (Or.inr ⟨hnot, hwrite, htable, hreturned⟩)⟩
  | some service =>
    have hacts : ∀ act ∈ [Acted.mk id service row.tenantId row.subjectId], act.requestId = id :=
      List.forall_mem_singleton.mpr rfl
    cases herror : faults.serviceError with
    | some e => exact ⟨hacts, by simp, Or.inl ⟨Or.inl ⟨rfl, rfl⟩, rfl, _, rfl⟩⟩
    | none =>
      have hnot : ¬ ((some service).isSome = true ∧ (none : Option String).isSome = true) :=
        fun h => Bool.false_ne_true h.2
      refine ⟨hacts, by simp, ?_⟩
      obtain ⟨hwrite, htable, hreturned⟩ | ⟨hwrite, hreturned⟩ | ⟨hwrite, htable, hreturned⟩ :=
        hfinish
      · exact Or.inl ⟨Or.inr hwrite, htable, hreturned⟩
      · exact Or.inr (Or.inl ⟨hnot, hwrite, hreturned⟩)
      · exact Or.inr (Or.inr ⟨hnot, hwrite, htable, hreturned⟩)

/-- What `fulfill_request` acts upon: the subject of the row that it reads, by the service that is
called for it. -/
theorem mem_acted_iff {table : DsarTable} {id fulfilledBy : String} {now : ℕ} {act : Acted} :
    act ∈ (W.fulfillRequest table id fulfilledBy now faults).acted ↔
      faults.readable = true ∧ ∃ row, table id = some row ∧ ∃ service,
        calledService W row faults = some service ∧
          act = ⟨id, service, row.tenantId, row.subjectId⟩ := by
  by_cases hunread : faults.readable = true → table id = none
  · rw [fulfillRequest_of_unread hunread]
    refine iff_of_false List.not_mem_nil fun ⟨hread, row, hrow, _⟩ => ?_
    rw [hunread hread] at hrow
    cases hrow
  · obtain ⟨hread, hsome⟩ := Classical.not_imp.mp hunread
    obtain ⟨row, hrow⟩ := Option.ne_none_iff_exists'.mp hsome
    obtain ⟨hidle, -⟩ := finish_cases table row id fulfilledBy now
      (DsarWorkflow.subjectStatus row (W.onHold row.requestType faults.holdAnswer)) faults.write
    have hcalled : calledService W row faults =
        W.service row.requestType (W.onHold row.requestType faults.holdAnswer) := rfl
    simp only [hread, hrow, Option.some.injEq, exists_eq_left', true_and, hcalled]
    unfold DsarWorkflow.fulfillRequest
    rw [if_pos hread, hrow]
    dsimp only at hidle ⊢
    cases W.service row.requestType (W.onHold row.requestType faults.holdAnswer) with
    | none => simp [hidle]
    | some service => cases faults.serviceError <;> simp

theorem Write.not_swallowed_of_surfaces {write : Write} (h : write.Surfaces) :
    ¬ write.Swallowed := by
  obtain ⟨e, e', rfl⟩ := h
  rintro ⟨e'', h⟩
  cases h

theorem Write.not_surfaces_committed : ¬ Write.committed.Surfaces := by
  rintro ⟨e, e', h⟩
  cases h

theorem Write.not_swallowed_committed : ¬ Write.committed.Swallowed := by
  rintro ⟨e, h⟩
  cases h

/-! ### Calls in order -/

/-- A call other than a fulfillment keeps the lifecycle if it moves the statuses. -/
theorem kept_of_moves {call : DsarCall}
    (hmoves : ∀ id, Moves (status s.table id) (status (step W s call).table id))
    (hcall : ∀ id fulfilledBy now faults, call ≠ .fulfill id fulfilledBy now faults) :
    Kept W s call :=
  ⟨hmoves, fun id fulfilledBy now faults h => absurd h (hcall id fulfilledBy now faults)⟩

theorem kept_submit (request : DsarRequest) (now : ℕ) (write : Write) :
    Kept W s (.submit request now write) := by
  refine kept_of_moves (fun id => ?_) fun _ _ _ _ h => by cases h
  have htable : (step W s (.submit request now write)).table =
      (submitRequest s.table request now write).table := rfl
  rw [htable]
  obtain h | ⟨hnone, row, hrow, h⟩ := submitRequest_cases s.table request now write
  · rw [h]
    exact Moves.stays _
  · rw [h, status_update]
    split_ifs with hid
    · rw [hid, hnone, hrow]
      exact Moves.submitted
    · exact Moves.stays _

theorem kept_verify_iff {id verifiedBy : String} {now : ℕ} {write : Write} :
    Kept W s (.verify id verifiedBy now write) ↔
      (write = .committed → status s.table id ≠ some .fulfilled) := by
  have htable : (step W s (.verify id verifiedBy now write)).table =
      (verifyRequest s.table id verifiedBy now write).table := rfl
  obtain ⟨-, hsame, hmissing⟩ | ⟨hwrite, row, hrow, -, hupdate⟩ :=
    verifyRequest_cases s.table id verifiedBy now write
  · refine iff_of_true (kept_of_moves (fun id => ?_) fun _ _ _ _ h => by cases h)
      fun hcommitted => ?_
    · rw [htable, hsame]
      exact Moves.stays _
    · rw [status, hmissing hcommitted]
      exact fun h => by cases h
  · have hstatus : status s.table id = some row.status := by rw [status, hrow, Option.map_some]
    constructor
    · intro hkept _ hfulfilled
      have hmove := hkept.moves id
      rw [htable, hupdate, status_update, if_pos rfl, hfulfilled] at hmove
      cases hmove
    · intro h
      have hopen := h hwrite
      refine kept_of_moves (fun id' => ?_) fun _ _ _ _ h => by cases h
      rw [htable, hupdate, status_update]
      split_ifs with hid
      · rw [hid]
        rw [hstatus] at hopen ⊢
        have hnext : (row.verified verifiedBy now).status = .processing := rfl
        rw [hnext]
        cases hst : row.status with
        | pendingVerification => exact Moves.verified
        | processing => exact Moves.stays _
        | fulfilled => exact absurd (congrArg some hst) hopen
      · exact Moves.stays _

/-- A call of `fulfill_request` that changes no row keeps the lifecycle if its results do. -/
theorem kept_fulfill_iff {id fulfilledBy : String} {now : ℕ} :
    Kept W s (.fulfill id fulfilledBy now faults) ↔
      (∀ id', Moves (status s.table id')
        (status (W.fulfillRequest s.table id fulfilledBy now faults).table id')) ∧
      KeepsFulfillment s id (W.fulfillRequest s.table id fulfilledBy now faults) := by
  constructor
  · exact fun h => ⟨h.moves, h.fulfillment id fulfilledBy now faults rfl⟩
  · rintro ⟨hmoves, hkeeps⟩
    exact ⟨hmoves, fun _ _ _ _ h => by cases h; exact hkeeps⟩

/-- A call that raises and changes no row keeps the lifecycle if what it acts upon is verified. -/
theorem keepsFulfillment_of_error {id : String} {outcome : Outcome DsarResult}
    (hacted : ∀ act ∈ outcome.acted, act.requestId ∈ s.verified) (htable : outcome.table = s.table)
    (herror : ∃ e, outcome.returned = .error e) :
    (∀ id', Moves (status s.table id') (status outcome.table id')) ∧
      KeepsFulfillment s id outcome := by
  obtain ⟨e, he⟩ := herror
  refine ⟨fun id' => htable ▸ Moves.stays _, hacted, fun _ => ⟨e, he⟩, fun result hok => ?_,
    fun _ _ => by rw [htable]⟩
  rw [he] at hok
  cases hok

/-- **A fulfillment in order** keeps the lifecycle. -/
theorem kept_fulfill_of_inOrder (hI : Inv s) {id fulfilledBy : String} {now : ℕ}
    (h : InOrder W s (.fulfill id fulfilledBy now faults)) :
    Kept W s (.fulfill id fulfilledBy now faults) := by
  rw [kept_fulfill_iff]
  by_cases hunread : faults.readable = true → s.table id = none
  · rw [fulfillRequest_of_unread hunread]
    exact keepsFulfillment_of_error (fun _ hact => absurd hact List.not_mem_nil) rfl ⟨_, rfl⟩
  · obtain ⟨hread, hsome⟩ := Classical.not_imp.mp hunread
    obtain ⟨row, hrow⟩ := Option.ne_none_iff_exists'.mp hsome
    have hstatus : status s.table id = some row.status := by rw [status, hrow, Option.map_some]
    have horder := h hread row hrow
    obtain ⟨hacts, hnone, hcases⟩ := fulfillRequest_cases (W := W) hread hrow fulfilledBy now
    have hverified : ∀ act ∈ (W.fulfillRequest s.table id fulfilledBy now faults).acted,
        act.requestId ∈ s.verified := by
      intro act hact
      rw [hacts act hact]
      cases hst : row.status with
      | pendingVerification =>
        rw [hst] at horder
        rw [hnone.mpr horder.1] at hact
        cases hact
      | processing => exact hI.verified id _ hstatus (by rw [hst]; exact fun h => by cases h)
      | fulfilled => exact hI.verified id _ hstatus (by rw [hst]; exact fun h => by cases h)
    obtain ⟨-, htable, herror⟩ | ⟨hworks, hwrite, result, hok, htable⟩ | ⟨hworks, hwrite, -⟩ :=
      hcases
    · exact keepsFulfillment_of_error hverified htable herror
    · have hprocessing : row.status = .processing := by
        rw [hwrite] at horder
        cases hst : row.status with
        | pendingVerification =>
          rw [hst] at horder
          exact absurd horder.2 Write.not_surfaces_committed
        | processing => rfl
        | fulfilled =>
          rw [hst] at horder
          exact absurd horder (not_or.mpr ⟨hworks, Write.not_surfaces_committed⟩)
      refine ⟨fun id' => ?_, hverified, fun hfulfilled => ?_, fun result' hok' => ?_,
        fun e he => ?_⟩
      · rw [htable, status_update]
        split_ifs with hid
        · rw [hid, hstatus, hprocessing]
          exact Moves.fulfilled
        · exact Moves.stays _
      · rw [hstatus, hprocessing] at hfulfilled
        cases hfulfilled
      · obtain rfl := Except.ok.inj (hok.symm.trans hok')
        rw [htable]
        exact ⟨_, Function.update_self .., rfl, rfl⟩
      · rw [hok] at he
        cases he
    · cases hst : row.status with
      | pendingVerification =>
        rw [hst] at horder
        exact absurd hwrite (Write.not_swallowed_of_surfaces horder.2)
      | processing =>
        rw [hst] at horder
        exact absurd horder (not_or.mpr ⟨hworks, not_not.mpr hwrite⟩)
      | fulfilled =>
        rw [hst] at horder
        exact absurd hwrite (Write.not_swallowed_of_surfaces (horder.resolve_left hworks))

/-- **A fulfillment that keeps the lifecycle** is in order. -/
theorem inOrder_of_kept_fulfill (hI : Inv s) {id fulfilledBy : String} {now : ℕ}
    (h : Kept W s (.fulfill id fulfilledBy now faults)) :
    InOrder W s (.fulfill id fulfilledBy now faults) := by
  intro hread row hrow
  obtain ⟨hmoves, hkeeps⟩ := kept_fulfill_iff.mp h
  have hstatus : status s.table id = some row.status := by rw [status, hrow, Option.map_some]
  obtain ⟨hacts, hnone, hcases⟩ := fulfillRequest_cases (W := W) hread hrow fulfilledBy now
  -- what is returned is stored, so a swallowed update leaves a fulfilled row as it is
  have hswallowed : ∀ result : DsarResult,
      (W.fulfillRequest s.table id fulfilledBy now faults).table = s.table →
      (W.fulfillRequest s.table id fulfilledBy now faults).returned = .ok result →
        row.status = .fulfilled := by
    intro result htable hok
    obtain ⟨row', hrow', hfulfilled, -⟩ := hkeeps.stored result hok
    rw [htable, hrow] at hrow'
    exact Option.some.inj hrow' ▸ hfulfilled
  cases hst : row.status with
  | pendingVerification =>
    rw [hst] at hstatus
    have hidle : calledService W row faults = none := by
      refine hnone.mp (List.eq_nil_iff_forall_not_mem.mpr fun act hact => ?_)
      exact hI.pending id hstatus (hacts act hact ▸ hkeeps.verified act hact)
    refine ⟨hidle, ?_⟩
    obtain ⟨hfails, -⟩ | ⟨-, -, result, hok, htable⟩ | ⟨-, -, htable, result, hok⟩ := hcases
    · refine hfails.resolve_left fun hfails => ?_
      rw [ServiceFails, hidle] at hfails
      exact Bool.false_ne_true hfails.1
    · have hmove := hmoves id
      rw [htable, status_update, if_pos rfl, hstatus] at hmove
      cases hmove
    · rw [hswallowed result htable hok] at hst
      cases hst
  | processing =>
    by_contra hbad
    obtain ⟨hworks, hbad⟩ := not_or.mp hbad
    have hswallow : faults.write.Swallowed := not_not.mp hbad
    obtain ⟨hfails, -⟩ | ⟨-, hwrite, -⟩ | ⟨-, -, htable, result, hok⟩ := hcases
    · exact Write.not_swallowed_of_surfaces (hfails.resolve_left hworks) hswallow
    · rw [hwrite] at hswallow
      exact Write.not_swallowed_committed hswallow
    · rw [hswallowed result htable hok] at hst
      cases hst
  | fulfilled =>
    rw [hst] at hstatus
    obtain ⟨e, he⟩ := hkeeps.once hstatus
    obtain ⟨hfails, -⟩ | ⟨-, -, result, hok, -⟩ | ⟨-, -, -, result, hok⟩ := hcases
    · exact hfails
    · rw [hok] at he
      cases he
    · rw [hok] at he
      cases he

/-- **One call.** In a state that calls in order lead to, a call keeps the lifecycle if and only if
it is in order. -/
theorem kept_iff (hI : Inv s) (call : DsarCall) : Kept W s call ↔ InOrder W s call := by
  cases call with
  | submit request now write => exact iff_of_true (kept_submit request now write) trivial
  | verify id verifiedBy now write => exact kept_verify_iff
  | fulfill id fulfilledBy now faults =>
    exact ⟨inOrder_of_kept_fulfill hI, kept_fulfill_of_inOrder hI⟩

theorem inv_init : Inv DsarState.init where
  pending _ h := by cases h
  verified _ _ h := by cases h
  present _ h := by cases h

/-- The invariant after the row of one request is replaced. -/
theorem Inv.update (hI : Inv s) {id : String} {row : DsarRequest} {verified : List String}
    (hpending : row.status = .pendingVerification → id ∉ verified)
    (hverified : row.status ≠ .pendingVerification → id ∈ verified)
    (hother : ∀ id' ≠ id, (id' ∈ verified ↔ id' ∈ s.verified)) :
    Inv ⟨Function.update s.table id (some row), verified⟩ := by
  refine ⟨fun id' hst => ?_, fun id' st hst hne => ?_, fun id' hmem => ?_⟩
  · rw [status_update] at hst
    split_ifs at hst with hid
    · exact hid ▸ hpending (Option.some.inj hst)
    · exact mt (hother id' hid).mp (hI.pending id' hst)
  · rw [status_update] at hst
    split_ifs at hst with hid
    · exact hid ▸ hverified (Option.some.inj hst ▸ hne)
    · exact (hother id' hid).mpr (hI.verified id' st hst hne)
  · by_cases hid : id' = id
    · simp [hid]
    · simpa [hid] using hI.present id' ((hother id' hid).mp hmem)

/-- **The invariant.** Calls that keep the lifecycle keep it. -/
theorem inv_step (hI : Inv s) {call : DsarCall} (hkept : Kept W s call) :
    Inv (step W s call) := by
  cases call with
  | submit request now write =>
    rw [step]
    obtain h | ⟨hnone, row, hrow, h⟩ := submitRequest_cases s.table request now write
    · rw [h]
      exact hI
    · rw [h]
      refine hI.update (fun _ hmem => ?_) (fun hne => absurd hrow hne) fun _ _ => Iff.rfl
      obtain ⟨row', hrow'⟩ := Option.isSome_iff_exists.mp (hI.present _ hmem)
      rw [status, hrow'] at hnone
      cases hnone
  | verify id verifiedBy now write =>
    obtain ⟨⟨e, he⟩, hsame, -⟩ | ⟨-, row, hrow, ⟨r, hr⟩, hupdate⟩ :=
      verifyRequest_cases s.table id verifiedBy now write
    · rw [step, hsame, he]
      exact hI
    · rw [step, hupdate, hr]
      refine hI.update (fun h => by cases h) (fun _ => List.mem_cons_self) fun id' hid => ?_
      simp [hid]
  | fulfill id fulfilledBy now faults =>
    have hmoves := hkept.moves id
    rw [step] at hmoves ⊢
    by_cases hunread : faults.readable = true → s.table id = none
    · rw [fulfillRequest_of_unread hunread]
      exact hI
    · obtain ⟨hread, hsome⟩ := Classical.not_imp.mp hunread
      obtain ⟨row, hrow⟩ := Option.ne_none_iff_exists'.mp hsome
      have hstatus : status s.table id = some row.status := by rw [status, hrow, Option.map_some]
      obtain ⟨-, -, ⟨-, htable, -⟩ | ⟨-, -, result, -, htable⟩ | ⟨-, -, htable, -⟩⟩ :=
        fulfillRequest_cases (W := W) hread hrow fulfilledBy now
      · rw [htable]
        exact hI
      · rw [htable] at hmoves ⊢
        dsimp only at hmoves
        have hnext : (row.withFulfillment result.subjectStatus fulfilledBy now).status =
          .fulfilled := rfl
        rw [status_update, if_pos rfl, hstatus, hnext] at hmoves
        refine hI.update (fun h => by cases h) (fun _ => ?_) fun _ _ => Iff.rfl
        refine hI.verified id _ hstatus fun hpending => ?_
        rw [hpending] at hmoves
        cases hmoves
      · rw [htable]
        exact hI

/-! ### Runs -/

/-- **Every run.** From the empty table, all calls of a run keep the lifecycle if and only if all of
them are in order. -/
theorem lifecycle_iff (W : DsarWorkflow) (calls : List DsarCall) :
    Runs.Along (step W) (Kept W) .init calls ↔ Runs.Along (step W) (InOrder W) .init calls :=
  Runs.along_congr (I := Inv) (fun _ _ hI hkept => inv_step hI hkept)
    (fun _ call hI => kept_iff hI call) inv_init

/-- A request for erasure. -/
def erasureRequest : DsarRequest where
  id := "dsar_1"
  tenantId := "acme"
  subjectId := "user-1"
  requestType := .erasure

/-- **Unverified.** A request that is submitted and fulfilled at once is erased without having been
verified. -/
theorem not_lifecycle :
    ¬ ∀ (W : DsarWorkflow) (calls : List DsarCall),
      Runs.Along (step W) (Kept W) .init calls := by
  intro h
  have hrun := h ⟨true, true, true⟩
    [.submit erasureRequest 0 .committed, .fulfill "dsar_1" "compliance" 1 {}]
  have hfulfilled := hrun.2.1.fulfillment "dsar_1" "compliance" 1 {} rfl
  have hverified := hfulfilled.verified ⟨"dsar_1", .erase, "acme", "user-1"⟩
    (List.mem_singleton_self _)
  exact absurd hverified List.not_mem_nil

end AnonReq.Dsar
