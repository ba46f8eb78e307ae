import AnonReq.Audit.Timestamp
import AnonReq.Foundation.Characters
import AnonReq.Foundation.Dict
import AnonReq.Foundation.Runs

/-!
# Cases of data subject requests

`services/dsar.py`: a case is created, processed or rejected, and each call adds an entry to the
trail of the case. The case, the index of its tenant and the trail are written one after the other,
and any write may fail, whether or not it is carried out.

* The store holds cases and trails by the identifier of the case; an identifier that names none has
  none. A stored text is taken to be what it is read as.
* `CloseStep` says of a call that it leaves closed cases as they are, and the trails true.
* `HoldsKept` says of a run that a case with a legal hold is never later reported as deleted.
* `MayStep` says of a call that it does not write a closed case, unless to what it is.
* `closedOnce_iff`: a run has the first two properties if and only if its calls have the third.
* `not_closedOnce`: an erasure under a legal hold is processed again without one.
-/

namespace AnonReq.Dsar.Cases

open AnonReq.Audit (UtcTime isoformat)

/-! ### The store -/

/-- `DSARRequest`. -/
structure DSARRequest where
  requestId : Text
  requestType : Text
  tenantId : Text
  subjectId : Text
  requestedBy : Text
  status : Text := "pending".toList
  createdAt : UtcTime
  completedAt : Option UtcTime := none
  processedBy : Option Text := none
  notes : Option Text := none
  result : Option Text := none
  legalHold : Bool := false

/-- `VALID_REQUEST_TYPES`. -/
def validRequestTypes : List Text :=
  ["access".toList, "erasure".toList, "rectification".toList, "portability".toList,
    "restriction".toList]

/-- An entry of a trail. -/
structure AuditEntry where
  timestamp : Text
  action : Text
  description : Text
deriving DecidableEq

/-- The cases, the members of the tenants' indexes, and the trails. -/
structure DSARState where
  cases : List (Text × DSARRequest) := []
  members : List (Text × Text) := []
  trails : List (Text × List AuditEntry) := []

/-- `get_audit_trail`. -/
def DSARState.trail (s : DSARState) (requestId : Text) : List AuditEntry :=
  (Dict.get s.trails requestId).getD []

/-- The writes of a call. -/
inductive Write where
  | case
  | member
  | trail
deriving DecidableEq

/-- A write that fails, and whether it is carried out. -/
structure Fault where
  write : Write
  carriedOut : Bool
deriving DecidableEq

/-- What a call raises. -/
inductive Raised where
  | validationError
  | valueError (message : Text)
  | writeError

/-- A computation that changes the store, and leaves it as it is then where it raises. -/
abbrev Run (α : Type) := Except (Raised × DSARState) α

/-- A write. -/
def send (fault : Option Fault) (write : Write) (effect : DSARState → DSARState) (s : DSARState) :
    Run DSARState :=
  if fault = some ⟨write, true⟩ then .error (.writeError, effect s)
  else if fault = some ⟨write, false⟩ then .error (.writeError, s)
  else .ok (effect s)

/-- The store with a case. -/
def DSARState.withCase (s : DSARState) (req : DSARRequest) : DSARState :=
  { s with cases := Dict.set s.cases req.requestId req }

/-- The store with a case in the index of its tenant. -/
def DSARState.withMember (s : DSARState) (req : DSARRequest) : DSARState :=
  { s with members := s.members.insert (req.tenantId, req.requestId) }

/-- The store with an entry at the end of a trail. -/
def DSARState.withEntry (s : DSARState) (requestId : Text) (entry : AuditEntry) : DSARState :=
  { s with trails := Dict.set s.trails requestId (s.trail requestId ++ [entry]) }

/-- `_append_audit`. -/
def appendAudit (fault : Option Fault) (requestId : Text) (entry : AuditEntry) (s : DSARState) :
    Run DSARState :=
  send fault .trail (fun s => s.withEntry requestId entry) s

/-- `_save_and_audit`. -/
def saveAndAudit (fault : Option Fault) (req : DSARRequest) (entry : AuditEntry) (s : DSARState) :
    Run DSARState :=
  send fault .case (fun s => s.withCase req) s >>= appendAudit fault req.requestId entry

/-! ### Calls -/

/-- The arguments of `create_request`, with the identifier it draws. -/
structure Creation where
  requestId : Text
  requestType : Text
  tenantId : Text
  subjectId : Text
  requestedBy : Text
  notes : Option Text := none

/-- What the calls that close a case have in common: the type they are for, if any, and what they
write. -/
structure Closing where
  requestId : Text
  requestType : Option Text
  status : Text
  processedBy : Option Text
  result : Text
  legalHold : Option Bool
  action : Text
  description : Text

/-- `process_erasure`. -/
def processErasure (requestId processedBy : Text) (legalHold : Bool) : Closing where
  requestId := requestId
  requestType := some "erasure".toList
  status := "completed".toList
  processedBy := some processedBy
  result := if legalHold then "legal_hold".toList else "deleted".toList
  legalHold := some legalHold
  action := "erasure_processed".toList
  description := "Erasure processed by ".toList ++ processedBy ++ ", result: ".toList ++
    if legalHold then "legal_hold".toList else "deleted".toList

/-- `process_rectification`. -/
def processRectification (requestId processedBy : Text) : Closing where
  requestId := requestId
  requestType := some "rectification".toList
  status := "completed".toList
  processedBy := some processedBy
  result := "rectified".toList
  legalHold := none
  action := "rectification_processed".toList
  description := "Rectification processed by ".toList ++ processedBy

/-- `process_portability`. -/
def processPortability (requestId processedBy : Text) : Closing where
  requestId := requestId
  requestType := some "portability".toList
  status := "completed".toList
  processedBy := some processedBy
  result := "data_exported".toList
  legalHold := none
  action := "portability_processed".toList
  description := "Portability processed by ".toList ++ processedBy

/-- `process_restriction`. -/
def processRestriction (requestId processedBy : Text) (legalHold : Bool) : Closing where
  requestId := requestId
  requestType := some "restriction".toList
  status := "completed".toList
  processedBy := some processedBy
  result := if legalHold then "legal_hold".toList else "processing_restricted".toList
  legalHold := some legalHold
  action := "restriction_processed".toList
  description := "Restriction processed by ".toList ++ processedBy ++ ", result: ".toList ++
    if legalHold then "legal_hold".toList else "processing_restricted".toList

/-- `reject_request`. -/
def rejectRequest (requestId reason : Text) : Closing where
  requestId := requestId
  requestType := none
  status := "rejected".toList
  processedBy := none
  result := reason
  legalHold := none
  action := "rejected".toList
  description := "DSAR rejected: ".toList ++ reason

/-- A call of the service. -/
inductive Call where
  | createRequest (c : Creation)
  | processErasure (requestId processedBy : Text) (legalHold : Bool := false)
  | processRectification (requestId processedBy : Text)
  | processPortability (requestId processedBy : Text)
  | processRestriction (requestId processedBy : Text) (legalHold : Bool := false)
  | rejectRequest (requestId reason : Text)

/-- A call, the time it reads for the case and the one for the trail, and the write of it that
fails. -/
structure Action where
  call : Call
  now : UtcTime
  logged : UtcTime
  fault : Option Fault := none

/-- An entry of `_append_audit`. -/
def Action.entry (a : Action) (action description : Text) : AuditEntry :=
  ⟨isoformat 'T' a.logged.val, action, description⟩

/-- The case of `create_request`. -/
def Creation.request (c : Creation) (now : UtcTime) : DSARRequest where
  requestId := c.requestId
  requestType := c.requestType
  tenantId := c.tenantId
  subjectId := c.subjectId
  requestedBy := c.requestedBy
  createdAt := now
  notes := c.notes

/-- The entry of `create_request`. -/
def Creation.entry (c : Creation) (a : Action) : AuditEntry :=
  a.entry "created".toList
    ("DSAR ".toList ++ c.requestType ++ " created by ".toList ++ c.requestedBy)

/-- `create_request`. -/
def Creation.run (c : Creation) (a : Action) (s : DSARState) : Run (DSARRequest × DSARState) :=
  if c.requestType ∈ validRequestTypes then do
    let req := c.request a.now
    let s ← send a.fault .case (fun s => s.withCase req) s
    let s ← send a.fault .member (fun s => s.withMember req) s
    let s ← appendAudit a.fault req.requestId (c.entry a) s
    return (req, s)
  else .error (.validationError, s)

/-- The call is for cases of this type. -/
def Closing.Accepts (c : Closing) (req : DSARRequest) : Prop :=
  c.requestType = none ∨ c.requestType = some req.requestType

instance (c : Closing) (req : DSARRequest) : Decidable (c.Accepts req) :=
  inferInstanceAs (Decidable (c.requestType = none ∨ c.requestType = some req.requestType))

/-- The case that is written. -/
def Closing.close (c : Closing) (now : UtcTime) (req : DSARRequest) : DSARRequest :=
  { req with
    status := c.status
    completedAt := some now
    processedBy := c.processedBy.or req.processedBy
    result := some c.result
    legalHold := c.legalHold.getD req.legalHold }

/-- The calls that close a case. -/
def Closing.run (c : Closing) (a : Action) (s : DSARState) : Run (DSARRequest × DSARState) :=
  match Dict.get s.cases c.requestId with
  | none => .error (.valueError ("DSAR request not found: ".toList ++ c.requestId), s)
  | some req =>
    if c.Accepts req then do
      let req := c.close a.now req
      let s ← saveAndAudit a.fault req (a.entry c.action c.description) s
      return (req, s)
    else .error (.valueError ("Cannot process ".toList ++ c.requestType.getD [] ++ " for ".toList ++
      req.requestType ++ " request".toList), s)

/-- The closing of a call, or the creation. -/
def Call.kind : Call → Creation ⊕ Closing
  | .createRequest c => .inl c
  | .processErasure requestId processedBy legalHold =>
    .inr (Cases.processErasure requestId processedBy legalHold)
  | .processRectification requestId processedBy =>
    .inr (Cases.processRectification requestId processedBy)
  | .processPortability requestId processedBy =>
    .inr (Cases.processPortability requestId processedBy)
  | .processRestriction requestId processedBy legalHold =>
    .inr (Cases.processRestriction requestId processedBy legalHold)
  | .rejectRequest requestId reason => .inr (Cases.rejectRequest requestId reason)

/-- A call. -/
def Action.run (a : Action) (s : DSARState) : Run (DSARRequest × DSARState) :=
  match a.call.kind with
  | .inl c => c.run a s
  | .inr c => c.run a s

/-- The store after a call. -/
def step (s : DSARState) (a : Action) : DSARState :=
  match a.run s with
  | .ok (_, s) => s
  | .error (_, s) => s

/-! ### What a call does -/

/-- A case to write, and the entry for it. -/
structure Change where
  request : DSARRequest
  entry : AuditEntry

/-- What a call is to write: nothing if it finds no case, or not one for it. -/
def Action.change (a : Action) (s : DSARState) : Option Change :=
  match a.call.kind with
  | .inl c =>
    if c.requestType ∈ validRequestTypes then some ⟨c.request a.now, c.entry a⟩ else none
  | .inr c =>
    match Dict.get s.cases c.requestId with
    | none => none
    | some req =>
      if c.Accepts req then some ⟨c.close a.now req, a.entry c.action c.description⟩ else none

/-- The call has returned. -/
def Action.Returns (a : Action) (s : DSARState) : Prop := ∃ req s', a.run s = .ok (req, s')

/-- The case is written, if the call comes to it. -/
def Action.Stores (a : Action) : Prop := a.fault ≠ some ⟨.case, false⟩

/-- What a call does to the cases and to the trails. -/
inductive Effect (s : DSARState) (a : Action) : Prop where
  /-- Nothing is written. -/
  | refused (change : a.change s = none ∨ ¬ a.Stores) (cases : (step s a).cases = s.cases)
      (trails : (step s a).trails = s.trails) (raised : ¬ a.Returns s)
  /-- The case is written, the trail not. -/
  | stored (ch : Change) (change : a.change s = some ch) (stores : a.Stores)
      (cases : (step s a).cases = Dict.set s.cases ch.request.requestId ch.request)
      (trails : (step s a).trails = s.trails) (raised : ¬ a.Returns s)
  /-- The case is written, and the entry for it. -/
  | audited (ch : Change) (change : a.change s = some ch) (stores : a.Stores)
      (cases : (step s a).cases = Dict.set s.cases ch.request.requestId ch.request)
      (trails : (step s a).trails = Dict.set s.trails ch.request.requestId
        (s.trail ch.request.requestId ++ [ch.entry]))
      (reply : ∀ req s', a.run s = .ok (req, s') → req = ch.request)

/-- A write is carried out, and may raise then, or it is not carried out and raises. -/
theorem send_cases (fault : Option Fault) (write : Write) (effect : DSARState → DSARState)
    (s : DSARState) :
    (fault ≠ some ⟨write, false⟩ ∧ (send fault write effect s = .ok (effect s) ∨
        send fault write effect s = .error (.writeError, effect s))) ∨
      (fault = some ⟨write, false⟩ ∧ send fault write effect s = .error (.writeError, s)) := by
  rw [send]
  split_ifs with hdone hlost
  · exact Or.inl ⟨by simp [hdone], Or.inr rfl⟩
  · exact Or.inr ⟨hlost, rfl⟩
  · exact Or.inl ⟨hlost, Or.inl rfl⟩

variable {s s' : DSARState}

/-- A call that raises leaves the store that it raises with. -/
theorem step_of_error {a : Action} {raised : Raised} (h : a.run s = .error (raised, s')) :
    step s a = s' ∧ ¬ a.Returns s := by
  refine ⟨by rw [step, h], fun ⟨req, s'', hok⟩ => ?_⟩
  rw [h] at hok
  cases hok

variable {s : DSARState}

/-- A call that comes to its writes: the case, whatever stands between, and the trail. -/
theorem Effect.of_writes {a : Action} (ch : Change) (between : DSARState → Run DSARState)
    (hchange : a.change s = some ch)
    (hrun : a.run s = (send a.fault .case (fun s => s.withCase ch.request) s >>= fun s =>
      between s >>= fun s => appendAudit a.fault ch.request.requestId ch.entry s >>= fun s =>
        .ok (ch.request, s)))
    (hbetween : ∀ s, ∃ s', (between s = .ok s' ∨ ∃ raised, between s = .error (raised, s')) ∧
      s'.cases = s.cases ∧ s'.trails = s.trails) : Effect s a := by
  obtain ⟨hstores, hsend | hsend⟩ | ⟨hlost, hsend⟩ :=
    send_cases a.fault .case (fun s => s.withCase ch.request) s
  · obtain ⟨s', hs' | ⟨raised, hs'⟩, hcases, htrails⟩ := hbetween (s.withCase ch.request)
    · have htrail : ∀ id, s'.trail id = s.trail id := fun id => by
        rw [DSARState.trail, htrails]
        rfl
      obtain ⟨-, hsend' | hsend'⟩ | ⟨-, hsend'⟩ := send_cases a.fault .trail
        (fun s => s.withEntry ch.request.requestId ch.entry) s'
      · have hok : a.run s =
            .ok (ch.request, s'.withEntry ch.request.requestId ch.entry) := by
          simp [hrun, hsend, hs', appendAudit, hsend', bind, Except.bind]
        have hstep : step s a = s'.withEntry ch.request.requestId ch.entry := by rw [step, hok]
        refine .audited ch hchange hstores (by rw [hstep]; exact hcases) ?_ fun req s'' h => ?_
        · rw [hstep, DSARState.withEntry, htrail, htrails]
          rfl
        · rw [hok] at h
          exact congrArg Prod.fst (Except.ok.inj h).symm
      · have herror : a.run s =
            .error (.writeError, s'.withEntry ch.request.requestId ch.entry) := by
          simp [hrun, hsend, hs', appendAudit, hsend', bind, Except.bind]
        obtain ⟨hstep, hraised⟩ := step_of_error herror
        refine .audited ch hchange hstores (by rw [hstep]; exact hcases) ?_ fun req s'' h =>
          absurd ⟨req, s'', h⟩ hraised
        rw [hstep, DSARState.withEntry, htrail, htrails]
        rfl
      · have herror : a.run s = .error (.writeError, s') := by
          simp [hrun, hsend, hs', appendAudit, hsend', bind, Except.bind]
        obtain ⟨hstep, hraised⟩ := step_of_error herror
        exact .stored ch hchange hstores (hstep ▸ hcases) (hstep ▸ htrails) hraised
    · have herror : a.run s = .error (raised, s') := by
        simp [hrun, hsend, hs', bind, Except.bind]
      obtain ⟨hstep, hraised⟩ := step_of_error herror
      exact .stored ch hchange hstores (hstep ▸ hcases) (hstep ▸ htrails) hraised
  · have herror : a.run s = .error (.writeError, s.withCase ch.request) := by
      simp [hrun, hsend, bind, Except.bind]
    obtain ⟨hstep, hraised⟩ := step_of_error herror
    exact .stored ch hchange hstores (by rw [hstep]; rfl) (by rw [hstep]; rfl) hraised
  · have herror : a.run s = .error (.writeError, s) := by
      simp [hrun, hsend, bind, Except.bind]
    obtain ⟨hstep, hraised⟩ := step_of_error herror
    exact .refused (Or.inr fun hstores => hstores hlost) (by rw [hstep]) (by rw [hstep]) hraised

/-- A call that is refused before its writes. -/
theorem Effect.of_refused {a : Action} (raised : Raised) (hchange : a.change s = none)
    (hrun : a.run s = .error (raised, s)) : Effect s a := by
  obtain ⟨hstep, hraised⟩ := step_of_error hrun
  exact .refused (Or.inl hchange) (by rw [hstep]) (by rw [hstep]) hraised

/-- **Inversion.** Every call has one of these effects. -/
theorem effect (s : DSARState) (a : Action) : Effect s a := by
  cases hkind : a.call.kind with
  | inl c =>
    by_cases htype : c.requestType ∈ validRequestTypes
    · refine .of_writes ⟨c.request a.now, c.entry a⟩
        (send a.fault .member fun s => s.withMember (c.request a.now)) ?_ ?_ fun s => ?_
      · simp only [Action.change, hkind, if_pos htype]
      · simp only [Action.run, hkind, Creation.run, if_pos htype]
        rfl
      · obtain ⟨-, hsend | hsend⟩ | ⟨-, hsend⟩ :=
          send_cases a.fault .member (fun s => s.withMember (c.request a.now)) s
        · exact ⟨_, Or.inl hsend, rfl, rfl⟩
        · exact ⟨_, Or.inr ⟨_, hsend⟩, rfl, rfl⟩
        · exact ⟨_, Or.inr ⟨_, hsend⟩, rfl, rfl⟩
    · refine .of_refused .validationError ?_ ?_
      · simp only [Action.change, hkind, if_neg htype]
      · simp only [Action.run, hkind, Creation.run, if_neg htype]
  | inr c =>
    cases hget : Dict.get s.cases c.requestId with
    | none =>
      refine .of_refused (.valueError ("DSAR request not found: ".toList ++ c.requestId)) ?_ ?_
      · simp only [Action.change, hkind, hget]
      · simp only [Action.run, hkind, Closing.run, hget]
    | some req =>
      by_cases haccepts : c.Accepts req
      · refine .of_writes ⟨c.close a.now req, a.entry c.action c.description⟩ Except.ok ?_ ?_
          fun s => ⟨s, Or.inl rfl, rfl, rfl⟩
        · simp only [Action.change, hkind, hget, if_pos haccepts]
        · simp only [Action.run, hkind, Closing.run, hget, if_pos haccepts, saveAndAudit]
          rw [bind_assoc]
          rfl
      · refine .of_refused (.valueError ("Cannot process ".toList ++ c.requestType.getD [] ++
          " for ".toList ++ req.requestType ++ " request".toList)) ?_ ?_
        · simp only [Action.change, hkind, hget, if_neg haccepts]
        · simp only [Action.run, hkind, Closing.run, hget, if_neg haccepts]

/-! ### Closed cases -/

/-- What is known of the closing of a case: its status, its result, who processed it and when. -/
def DSARRequest.closing (req : DSARRequest) :
    Text × Option Text × Option Text × Option UtcTime :=
  (req.status, req.result, req.processedBy, req.completedAt)

/-- What is stored of the closing of a case. -/
def DSARState.closing (s : DSARState) (requestId : Text) :
    Option (Text × Option Text × Option Text × Option UtcTime) :=
  (Dict.get s.cases requestId).map DSARRequest.closing

/-- The status is completed or rejected. -/
def DSARRequest.IsClosed (req : DSARRequest) : Prop :=
  req.status = "completed".toList ∨ req.status = "rejected".toList

/-- The stored case is completed or rejected. -/
def DSARState.Closed (s : DSARState) (requestId : Text) : Prop :=
  ∃ req, Dict.get s.cases requestId = some req ∧ req.IsClosed

/-- A call leaves closed cases as they are, and the trails true. -/
structure CloseStep (s : DSARState) (a : Action) : Prop where
  /-- A closed case keeps its status, its result, who processed it and when. -/
  kept : ∀ requestId, s.Closed requestId → (step s a).closing requestId = s.closing requestId
  /-- A call that returns has added one entry to the trail of its case, its own. -/
  audited : ∀ req s', a.run s = .ok (req, s') → ∃ ch, a.change s = some ch ∧ req = ch.request ∧
    (step s a).trail req.requestId = s.trail req.requestId ++ [ch.entry]
  /-- A trail changes by an entry only, for a change that is stored. -/
  recorded : ∀ requestId, (step s a).trail requestId = s.trail requestId ∨
    ∃ ch, a.change s = some ch ∧ ch.request.requestId = requestId ∧
      (step s a).trail requestId = s.trail requestId ++ [ch.entry] ∧
      Dict.get (step s a).cases requestId = some ch.request

/-- A case on which a legal hold was recorded is never later reported as deleted. -/
def HoldsKept (actions : List Action) : Prop :=
  ∀ before later, before ++ later <+: actions → ∀ requestId req req',
    Dict.get (Runs.exec step {} before).cases requestId = some req → req.legalHold = true →
      Dict.get (Runs.exec step {} (before ++ later)).cases requestId = some req' →
        req'.result ≠ some "deleted".toList

/-- The closing writes to a case what is written there. -/
def Closing.Repeats (c : Closing) (now : UtcTime) (req : DSARRequest) : Prop :=
  req.status = c.status ∧ req.result = some c.result ∧
    (c.processedBy = none ∨ req.processedBy = c.processedBy) ∧ req.completedAt = some now

/-- A call does not write a closed case, unless to what it is: a new case has not the identifier of
a closed one, and a case that a call is for is not closed, if its write is carried out. -/
def MayStep (s : DSARState) (a : Action) : Prop :=
  match a.call.kind with
  | .inl c => c.requestType ∈ validRequestTypes → a.Stores → ¬ s.Closed c.requestId
  | .inr c => ∀ req, Dict.get s.cases c.requestId = some req → c.Accepts req → a.Stores →
    req.IsClosed → c.Repeats a.now req

/-! ### Closed cases stay as they are -/

/-- The invariant of runs: a case is stored under its identifier, and one with a legal hold is
completed with it. -/
def Consistent (s : DSARState) : Prop :=
  ∀ requestId req, Dict.get s.cases requestId = some req → req.requestId = requestId ∧
    (req.legalHold = true → req.status = "completed".toList ∧
      req.result = some "legal_hold".toList)

theorem consistent_initial : Consistent {} := by
  intro requestId req hget
  cases hget

/-- A closing repeats what is stored exactly when it leaves the closing of the case as it is. -/
theorem Closing.repeats_iff (c : Closing) (now : UtcTime) (req : DSARRequest) :
    c.Repeats now req ↔ req.closing = (c.close now req).closing := by
  have hby : (c.processedBy = none ∨ req.processedBy = c.processedBy) ↔
      req.processedBy = c.processedBy.or req.processedBy := by
    cases c.processedBy <;> simp
  simp only [Closing.Repeats, DSARRequest.closing, Closing.close, hby, Prod.mk.injEq]

/-- A call that has nothing to write is in order. -/
theorem mayStep_of_refused {a : Action} (h : a.change s = none ∨ ¬ a.Stores) : MayStep s a := by
  rw [MayStep]
  cases hkind : a.call.kind with
  | inl c =>
    intro htype hstores
    have hchange : a.change s ≠ none := by simp [Action.change, hkind, htype]
    exact absurd hstores (h.resolve_left hchange)
  | inr c =>
    intro req hget haccepts hstores
    have hchange : a.change s ≠ none := by simp [Action.change, hkind, hget, haccepts]
    exact absurd hstores (h.resolve_left hchange)

/-- A call that has a case to write is in order exactly when it leaves the case, if it is closed, as
it is. -/
theorem mayStep_iff_of_change {a : Action} {ch : Change} (h : Consistent s)
    (hchange : a.change s = some ch) (hstores : a.Stores) :
    MayStep s a ↔ (s.Closed ch.request.requestId →
      s.closing ch.request.requestId = some ch.request.closing) := by
  rw [MayStep]
  cases hkind : a.call.kind with
  | inl c =>
    simp only [Action.change, hkind] at hchange
    obtain ⟨htype, hch⟩ := Option.ite_none_right_eq_some.mp hchange
    obtain rfl := Option.some.inj hch
    have hid : (c.request a.now).requestId = c.requestId := rfl
    simp only [htype, hstores, true_implies, hid]
    refine imp_congr_right fun ⟨req, hget, hclosed⟩ => ?_
    simp only [false_iff, DSARState.closing, hget, Option.map_some, Option.some.injEq]
    intro heq
    have hstatus : req.status = "pending".toList := congrArg Prod.fst heq
    obtain hclosed | hclosed := hclosed <;> exact absurd (hstatus.symm.trans hclosed) (by decide)
  | inr c =>
    simp only [Action.change, hkind] at hchange
    cases hget : Dict.get s.cases c.requestId with
    | none =>
      rw [hget] at hchange
      cases hchange
    | some req =>
      rw [hget] at hchange
      obtain ⟨haccepts, hch⟩ := Option.ite_none_right_eq_some.mp hchange
      obtain rfl := Option.some.inj hch
      have hid : (c.close a.now req).requestId = c.requestId := (h _ _ hget).1
      have hclosed : s.Closed c.requestId ↔ req.IsClosed := by simp [DSARState.Closed, hget]
      simp [hid, hclosed, haccepts, hstores, DSARState.closing, hget, Closing.repeats_iff]

/-- What a written case changes in what is stored of closings. -/
theorem closing_of_cases {req : DSARRequest} (h : s'.cases = Dict.set s.cases req.requestId req)
    (requestId : Text) :
    s'.closing requestId =
      if req.requestId = requestId then some req.closing else s.closing requestId := by
  rw [DSARState.closing, h, Dict.get_set]
  split <;> rfl

theorem closing_congr (h : s'.cases = s.cases) (requestId : Text) :
    s'.closing requestId = s.closing requestId := by
  rw [DSARState.closing, h, DSARState.closing]

/-- A call leaves closed cases as they are exactly when it is in order. -/
theorem kept_iff_mayStep (h : Consistent s) (a : Action) :
    (∀ requestId, s.Closed requestId → (step s a).closing requestId = s.closing requestId) ↔
      MayStep s a := by
  have hwritten : ∀ ch, a.change s = some ch → a.Stores →
      (step s a).cases = Dict.set s.cases ch.request.requestId ch.request →
      ((∀ requestId, s.Closed requestId → (step s a).closing requestId = s.closing requestId) ↔
        MayStep s a) := by
    intro ch hchange hstores hcases
    rw [mayStep_iff_of_change h hchange hstores]
    simp only [closing_of_cases hcases]
    constructor
    · intro hkept hclosed
      simpa using (hkept ch.request.requestId hclosed).symm
    · intro hkept requestId hclosed
      split_ifs with hid
      · subst hid
        exact (hkept hclosed).symm
      · rfl
  cases effect s a with
  | refused hrefused hcases _ _ =>
    exact iff_of_true (fun requestId _ => closing_congr hcases requestId)
      (mayStep_of_refused hrefused)
  | stored ch hchange hstores hcases _ _ => exact hwritten ch hchange hstores hcases
  | audited ch hchange hstores hcases _ _ => exact hwritten ch hchange hstores hcases

/-! ### Trails are true -/

/-- What a written trail changes. -/
theorem trail_of_trails {requestId : Text} {entries : List AuditEntry}
    (h : s'.trails = Dict.set s.trails requestId entries) (requestId' : Text) :
    s'.trail requestId' = if requestId = requestId' then entries else s.trail requestId' := by
  rw [DSARState.trail, h, Dict.get_set]
  split <;> rfl

theorem trail_congr (h : s'.trails = s.trails) (requestId : Text) :
    s'.trail requestId = s.trail requestId := by
  rw [DSARState.trail, h, DSARState.trail]

/-- A call that returns has added its entry. -/
theorem audited_step {a : Action} {req : DSARRequest} (hok : a.run s = .ok (req, s')) :
    ∃ ch, a.change s = some ch ∧ req = ch.request ∧
      (step s a).trail req.requestId = s.trail req.requestId ++ [ch.entry] := by
  cases effect s a with
  | refused _ _ _ hraised => exact absurd ⟨req, s', hok⟩ hraised
  | stored _ _ _ _ _ hraised => exact absurd ⟨req, s', hok⟩ hraised
  | audited ch hchange _ _ htrails hreply =>
    obtain rfl := hreply req s' hok
    exact ⟨ch, hchange, rfl, by rw [trail_of_trails htrails, if_pos rfl]⟩

/-- A call adds nothing but the entry of a change that is stored. -/
theorem recorded_step (s : DSARState) (a : Action) (requestId : Text) :
    (step s a).trail requestId = s.trail requestId ∨
      ∃ ch, a.change s = some ch ∧ ch.request.requestId = requestId ∧
        (step s a).trail requestId = s.trail requestId ++ [ch.entry] ∧
        Dict.get (step s a).cases requestId = some ch.request := by
  cases effect s a with
  | refused _ _ htrails _ => exact Or.inl (trail_congr htrails requestId)
  | stored _ _ _ _ htrails _ => exact Or.inl (trail_congr htrails requestId)
  | audited ch hchange _ hcases htrails _ =>
    rw [trail_of_trails htrails, hcases, Dict.get_set]
    split_ifs with hid
    · subst hid
      exact Or.inr ⟨ch, hchange, rfl, rfl, rfl⟩
    · exact Or.inl rfl

/-- A call leaves closed cases as they are, and the trails true, exactly when it is in order. -/
theorem closeStep_iff (h : Consistent s) (a : Action) : CloseStep s a ↔ MayStep s a := by
  rw [← kept_iff_mayStep h]
  exact ⟨CloseStep.kept, fun hkept => ⟨hkept, fun _ _ => audited_step, recorded_step s a⟩⟩

/-! ### Legal holds -/

/-- A call that records a legal hold completes the case with it. -/
theorem Call.hold_of_kind {call : Call} {c : Closing} (h : call.kind = .inr c)
    (hhold : c.legalHold = some true) :
    c.status = "completed".toList ∧ c.result = "legal_hold".toList := by
  cases call with
  | createRequest c => cases h
  | processErasure requestId processedBy legalHold =>
    obtain rfl := Sum.inr.inj h
    obtain rfl := Option.some.inj hhold
    exact ⟨rfl, rfl⟩
  | processRectification requestId processedBy =>
    obtain rfl := Sum.inr.inj h
    cases hhold
  | processPortability requestId processedBy =>
    obtain rfl := Sum.inr.inj h
    cases hhold
  | processRestriction requestId processedBy legalHold =>
    obtain rfl := Sum.inr.inj h
    obtain rfl := Option.some.inj hhold
    exact ⟨rfl, rfl⟩
  | rejectRequest requestId reason =>
    obtain rfl := Sum.inr.inj h
    cases hhold

/-- A case that a call has to write in order is completed with a legal hold if it has one. -/
theorem hold_of_change {a : Action} {ch : Change} (h : Consistent s)
    (hchange : a.change s = some ch)
    (hkept : s.Closed ch.request.requestId →
      s.closing ch.request.requestId = some ch.request.closing)
    (hhold : ch.request.legalHold = true) :
    ch.request.status = "completed".toList ∧ ch.request.result = some "legal_hold".toList := by
  cases hkind : a.call.kind with
  | inl c =>
    simp only [Action.change, hkind] at hchange
    obtain ⟨-, hch⟩ := Option.ite_none_right_eq_some.mp hchange
    obtain rfl := Option.some.inj hch
    cases hhold
  | inr c =>
    simp only [Action.change, hkind] at hchange
    cases hget : Dict.get s.cases c.requestId with
    | none =>
      rw [hget] at hchange
      cases hchange
    | some req =>
      rw [hget] at hchange
      obtain ⟨-, hch⟩ := Option.ite_none_right_eq_some.mp hchange
      obtain rfl := Option.some.inj hch
      obtain ⟨hid, hheld⟩ := h _ _ hget
      cases hc : c.legalHold with
      | some held =>
        have hheld : held = true := by simpa [Closing.close, hc] using hhold
        obtain ⟨hstatus, hresult⟩ := Call.hold_of_kind hkind (hheld ▸ hc)
        exact ⟨hstatus, congrArg some hresult⟩
      | none =>
        -- the hold was there before, so the case is closed
        have hbefore : req.legalHold = true := by simpa [Closing.close, hc] using hhold
        obtain ⟨hstatus, hresult⟩ := hheld hbefore
        have hget' : Dict.get s.cases (c.close a.now req).requestId = some req := hid ▸ hget
        have hsame := hkept ⟨req, hget', Or.inl hstatus⟩
        rw [DSARState.closing, hget', Option.map_some, Option.some.injEq] at hsame
        have hstatus' : req.status = c.status := congrArg Prod.fst hsame
        have hresult' : req.result = some c.result := congrArg (fun closing => closing.2.1) hsame
        exact ⟨hstatus'.symm.trans hstatus, hresult'.symm.trans hresult⟩

/-- **Step.** A call that leaves closed cases as they are keeps the invariant. -/
theorem Consistent.step {a : Action} (h : Consistent s) (hclose : CloseStep s a) :
    Consistent (step s a) := by
  have hwritten : ∀ ch, a.change s = some ch → a.Stores →
      (Cases.step s a).cases = Dict.set s.cases ch.request.requestId ch.request →
      Consistent (Cases.step s a) := by
    intro ch hchange hstores hcases requestId req hget
    rw [hcases, Dict.get_set] at hget
    split_ifs at hget with hid
    · obtain rfl := Option.some.inj hget
      have hkept := (mayStep_iff_of_change h hchange hstores).mp ((closeStep_iff h a).mp hclose)
      exact ⟨hid, hold_of_change h hchange hkept⟩
    · exact h requestId req hget
  cases effect s a with
  | refused _ hcases _ _ =>
    intro requestId req hget
    exact h requestId req (hcases ▸ hget)
  | stored ch hchange hstores hcases _ _ => exact hwritten ch hchange hstores hcases
  | audited ch hchange hstores hcases _ _ => exact hwritten ch hchange hstores hcases

/-- What is stored of a closing says whether the case is closed. -/
theorem closed_congr {requestId : Text} (h : s'.closing requestId = s.closing requestId)
    (hclosed : s.Closed requestId) :
    s'.Closed requestId := by
  obtain ⟨req, hget, hclosed⟩ := hclosed
  rw [DSARState.closing, DSARState.closing, hget, Option.map_some] at h
  obtain ⟨req', hget', hsame⟩ := Option.map_eq_some_iff.mp h
  have hstatus : req'.status = req.status := congrArg Prod.fst hsame
  exact ⟨req', hget', by rwa [DSARRequest.IsClosed, hstatus]⟩

/-- **A closed case stays as it is**, at every later moment of a run whose calls leave closed cases
as they are. -/
theorem closing_exec {actions : List Action} {requestId : Text}
    (h : Runs.Along step CloseStep s actions) (hclosed : s.Closed requestId) :
    (Runs.exec step s actions).closing requestId = s.closing requestId := by
  refine (h.exec_of_step (I := fun next : DSARState => next.Closed requestId ∧
    next.closing requestId = s.closing requestId) (fun next a hnext ha => ?_) ⟨hclosed, rfl⟩).2
  have hkept := ha.kept requestId hnext.1
  exact ⟨closed_congr hkept hnext.1, hkept.trans hnext.2⟩

/-- The entry that a call on a case owes to its trail: its own if it returns. -/
def Action.owed (a : Action) (s : DSARState) (requestId : Text) : List AuditEntry :=
  match a.run s with
  | .ok (req, _) =>
    if req.requestId = requestId then ((a.change s).map Change.entry).toList else []
  | .error _ => []

/-- The entries that the calls of a run owe to the trail of a case, in their order. -/
def owed (requestId : Text) : DSARState → List Action → List AuditEntry
  | _, [] => []
  | s, a :: actions => a.owed s requestId ++ owed requestId (step s a) actions

/-- A call adds at most one entry to a trail, and the one it owes. -/
theorem trail_step (s : DSARState) (a : Action) (requestId : Text) :
    ∃ added, (step s a).trail requestId = s.trail requestId ++ added ∧
      (a.owed s requestId).Sublist added := by
  by_cases howed : a.owed s requestId = []
  · obtain hsame | ⟨ch, -, -, htrail, -⟩ := recorded_step s a requestId
    · exact ⟨[], by rw [hsame, List.append_nil], howed ▸ List.Sublist.refl []⟩
    · exact ⟨[ch.entry], htrail, howed ▸ List.nil_sublist _⟩
  · rw [Action.owed] at howed ⊢
    cases hrun : a.run s with
    | error raised => simp [hrun] at howed
    | ok result =>
      obtain ⟨ch, hchange, -, htrail⟩ := audited_step hrun
      rw [hrun] at howed
      by_cases hid : result.1.requestId = requestId
      · subst hid
        exact ⟨[ch.entry], htrail, by simp [hchange]⟩
      · simp [hid] at howed

/-- **Trails are complete.** In every run the trail of a case grows by entries among which are
those of the calls on it that returned, each once and in their order. -/
theorem owed_sublist_trail (s : DSARState) (actions : List Action) (requestId : Text) :
    ∃ added, (Runs.exec step s actions).trail requestId = s.trail requestId ++ added ∧
      (owed requestId s actions).Sublist added := by
  induction actions generalizing s with
  | nil => exact ⟨[], (List.append_nil _).symm, List.Sublist.refl []⟩
  | cons a actions ih =>
    obtain ⟨first, hfirst, howed⟩ := trail_step s a requestId
    obtain ⟨rest, hrest, hsub⟩ := ih (step s a)
    refine ⟨first ++ rest, ?_, howed.append hsub⟩
    rw [← List.append_assoc, ← hfirst, ← hrest]
    rfl

/-- **A case with a legal hold is never later reported as deleted**, in a run whose calls leave
closed cases as they are. -/
theorem holdsKept {actions : List Action} (h : Runs.Along step CloseStep {} actions) :
    HoldsKept actions := by
  intro before later hprefix requestId req req' hget hhold hget' hdeleted
  obtain ⟨rest, rfl⟩ := hprefix
  obtain ⟨hrun, -⟩ := Runs.along_append.mp h
  obtain ⟨hbefore, hlater⟩ := Runs.along_append.mp hrun
  have hconsistent : Consistent (Runs.exec step {} before) :=
    hbefore.exec_of_step (fun _ _ hs ha => hs.step ha) consistent_initial
  obtain ⟨hstatus, hresult⟩ := (hconsistent requestId req hget).2 hhold
  have hsame := closing_exec hlater ⟨req, hget, Or.inl hstatus⟩
  have happend : Runs.exec step {} (before ++ later) =
      Runs.exec step (Runs.exec step {} before) later := List.foldl_append
  rw [DSARState.closing, ← happend, hget', DSARState.closing, hget] at hsame
  have hresult' : req'.result = req.result :=
    congrArg (fun closing => closing.2.1) (Option.some.inj hsame)
  rw [hresult, hdeleted] at hresult'
  exact absurd (Option.some.inj hresult') (by decide)

/-- **Cases are closed once.** The calls of a run leave closed cases as they are and the trails
true, and no case with a legal hold is later reported as deleted, if and only if no call writes a
closed case, unless to what it is. -/
theorem closedOnce_iff (actions : List Action) :
    (Runs.Along step CloseStep {} actions ∧ HoldsKept actions) ↔
      Runs.Along step MayStep {} actions := by
  have hiff : Runs.Along step CloseStep {} actions ↔ Runs.Along step MayStep {} actions :=
    Runs.along_congr (I := Consistent) (fun _ _ h hclose => h.step hclose)
      (fun _ a h => closeStep_iff h a) consistent_initial
  rw [← hiff]
  exact and_iff_left_of_imp holdsKept

/-! ### An erasure under a legal hold -/

/-- A moment of New Year's Day. -/
def sampleTime : UtcTime :=
  ⟨{ year := 2025, month := 1, day := 1, hour := 0, minute := 0, second := 0, microsecond := 0,
     utcoffset := some 0,
     valid := ⟨by decide, by decide, by decide, by simp, by simp⟩ }, rfl⟩

/-- An erasure is asked for, processed under a legal hold, and processed again without one. -/
def sampleActions : List Action :=
  [⟨.createRequest ⟨"r".toList, "erasure".toList, "acme".toList, "jo".toList, "jo".toList, none⟩,
      sampleTime, sampleTime, none⟩,
    ⟨.processErasure "r".toList "alice".toList true, sampleTime, sampleTime, none⟩,
    ⟨.processErasure "r".toList "bob".toList, sampleTime, sampleTime, none⟩]

/-- The case is completed with a legal hold, then reported as deleted. -/
theorem not_closedOnce :
    ¬ Runs.Along step CloseStep {} sampleActions ∧ ¬ HoldsKept sampleActions := by
  constructor
  · rintro ⟨-, -, hlast, -⟩
    have hkept := hlast.kept "r".toList ⟨_, rfl, Or.inl rfl⟩
    have hresult := congrArg (fun closing => closing.2.1) (Option.some.inj hkept)
    exact absurd (Option.some.inj hresult) (by decide)
  · intro h
    exact h (sampleActions.take 2) (sampleActions.drop 2) (List.prefix_refl _) "r".toList _ _ rfl
      rfl rfl rfl

end AnonReq.Dsar.Cases
