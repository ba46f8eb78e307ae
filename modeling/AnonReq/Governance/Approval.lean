import AnonReq.Audit.Timestamp
import AnonReq.Foundation.Dict
import AnonReq.Foundation.Runs

/-!
# Approval of tool calls

`ApprovalManager` of `governance/approval.py`, for one approval token: `get_approval_status`,
`approve_approval`, `deny_approval` and `cleanup_expired`, interleaved at the reads and writes of
the stored hash.

* `Hash` is a hash of the store; the empty one is a key that does not exist.
* `step` is one move of one call: it fetches the hash, or goes on with what it has fetched and
  writes. A step may also be the store dropping the key at the end of its lifetime.
* `FinalStep` says of a step that decisions are final across it, `MayWrite` that no write of it
  comes too late.
* `finalRun_iff`: decisions are final in a run if and only if none of its writes comes too late.
* `not_finalRun`: two operators decide on one pending record.
-/

namespace AnonReq.Governance

open AnonReq.Audit (DateTime UtcTime fromisoformat isoformat)

universe u

/-! ### Hashes of the store -/

/-- A hash of the store. -/
structure Hash where
  fields : List (String × String)
  nodup : (fields.map Prod.fst).Nodup
deriving DecidableEq

namespace Hash

/-- The hash of a key that does not exist. -/
def empty : Hash := ⟨[], List.nodup_nil⟩

/-- `raw.get(field)`. -/
def get (h : Hash) (field : String) : Option String := Dict.get h.fields field

/-- `raw[field] = value`. -/
def set (h : Hash) (field value : String) : Hash :=
  ⟨Dict.set h.fields field value, Dict.nodup_keys_set h.nodup field value⟩

/-- `HSET` with the fields of a mapping. -/
def hset (h mapping : Hash) : Hash :=
  ⟨Dict.update h.fields mapping.fields, Dict.nodup_keys_update h.nodup mapping.fields⟩

theorem get_empty (field : String) : empty.get field = none := rfl

theorem get_set (h : Hash) (field value field' : String) :
    (h.set field value).get field' = if field = field' then some value else h.get field' :=
  Dict.get_set h.fields field value field'

theorem get_hset (h mapping : Hash) (field : String) :
    (h.hset mapping).get field = (mapping.get field).or (h.get field) :=
  Dict.get_update mapping.nodup h.fields field

/-- After `HSET` with a field the key exists. -/
theorem hset_ne_empty (h : Hash) {mapping : Hash} {field value : String}
    (hget : mapping.get field = some value) : h.hset mapping ≠ empty := by
  intro heq
  have hread := get_hset h mapping field
  rw [heq, hget] at hread
  simp [get_empty] at hread

end Hash

/-! ### Records -/

/-- `ApprovalStatus`. -/
inductive ApprovalStatus where
  | pending
  | approved
  | denied
  | expired
deriving DecidableEq

/-- The value of a status. -/
def ApprovalStatus.value : ApprovalStatus → String
  | .pending => "pending"
  | .approved => "approved"
  | .denied => "denied"
  | .expired => "expired"

/-- `ApprovalRecord`. The tool call is its JSON text. -/
structure ApprovalRecord where
  token : String
  toolCall : String
  contextId : String
  tenantId : String := "default"
  status : ApprovalStatus := .pending
  createdAt : DateTime
  expiresAt : DateTime
  decidedBy : Option String := none
  decidedAt : Option DateTime := none
  approvalNote : Option String := none

/-- The text of `isoformat()`. -/
def iso (d : DateTime) : String := String.ofList (isoformat 'T' d)

/-- `to_dict`. -/
def ApprovalRecord.toDict (record : ApprovalRecord) : Hash where
  fields :=
    [("token", record.token),
     ("tool_call", record.toolCall),
     ("context_id", record.contextId),
     ("tenant_id", record.tenantId),
     ("status", record.status.value),
     ("created_at", iso record.createdAt),
     ("expires_at", iso record.expiresAt),
     ("decided_by", record.decidedBy.getD ""),
     ("decided_at", (record.decidedAt.map iso).getD ""),
     ("approval_note", record.approvalNote.getD "")]
  nodup := by
    simp only [List.map_cons, List.map_nil]
    decide

/-! ### The operations, on a hash that was fetched -/

/-- What the operations raise. -/
inductive Raised where
  | httpException (statusCode : ℕ) (detail : String)
  | valueError
  | typeError
deriving DecidableEq

/-- `now > expires_at`; a naive datetime does not compare to one in UTC. -/
def isPast (expiresAt : DateTime) (now : UtcTime) : Except Raised Bool :=
  if expiresAt.utcoffset = none then .error .typeError
  else .ok (decide (expiresAt.instant < now.val.instant))

/-- The record is pending and past its `expires_at`, in `get_approval_status`. -/
def isExpired (raw : Hash) (now : UtcTime) : Except Raised Bool :=
  let expiresAt := (raw.get "expires_at").getD ""
  if expiresAt = "" then .ok false
  else
    match fromisoformat expiresAt.toList with
    | none => .error .valueError
    | some expiresAt =>
      (isPast expiresAt now).map fun past =>
        past && decide (raw.get "status" = some ApprovalStatus.pending.value)

/-- The same in `cleanup_expired`, which skips a record whose `expires_at` it cannot read. -/
def isCleanable (raw : Hash) (now : UtcTime) : Except Raised Bool :=
  match isExpired raw now with
  | .error .valueError => .ok false
  | result => result

/-- What an operation sends to the store, after its `HGETALL`. -/
inductive Write where
  | none
  | hset (mapping : Hash)
  | delete

/-- The reply of an operation. -/
inductive Reply where
  | fields (reply : List (String × Option String))
  | count (deleted : ℕ)
deriving DecidableEq

/-- `value or None`. -/
def orNone (value : Option String) : Option String := value.filter fun s => decide (s ≠ "")

/-- The reply of `get_approval_status`, with the status it reports. -/
def statusReply (token : String) (raw : Hash) (status : String) : Reply :=
  .fields
    [("approval_token", some token),
     ("status", some status),
     ("created_at", some ((raw.get "created_at").getD "")),
     ("expires_at", some ((raw.get "expires_at").getD "")),
     ("decided_by", orNone (raw.get "decided_by")),
     ("decided_at", orNone (raw.get "decided_at"))]

/-- `get_approval_status`. -/
def getApprovalStatus (token : String) (raw : Hash) (now : UtcTime) :
    Write × Except Raised Reply :=
  if raw = .empty then
    (.none, .ok (.fields [("approval_token", some token), ("status", some "not_found")]))
  else
    match isExpired raw now with
    | .error raised => (.none, .error raised)
    | .ok true =>
      (.hset (Hash.empty.set "status" ApprovalStatus.expired.value),
        .ok (statusReply token raw ApprovalStatus.expired.value))
    | .ok false => (.none, .ok (statusReply token raw ((raw.get "status").getD "unknown")))

/-- The two ways to resolve a record: `approve_approval` and `deny_approval`. -/
structure Resolution where
  status : ApprovalStatus
  /-- The reply has the tool call. -/
  withToolCall : Bool

def approveApproval : Resolution := ⟨.approved, true⟩

def denyApproval : Resolution := ⟨.denied, false⟩

/-- The reply of a resolution. -/
def Resolution.reply (resolution : Resolution) (decidedBy note : String) (raw : Hash)
    (now : UtcTime) : List (String × Option String) :=
  [("status", some resolution.status.value),
   ("decided_by", some decidedBy),
   ("decided_at", some (iso now.val)),
   ("approval_note", some note)] ++
  if resolution.withToolCall then
    [("tool_call", some ((raw.get "tool_call").getD "\x7b\x7d"))]
  else []

/-- Resolve a pending record. -/
def Resolution.resolve (resolution : Resolution) (decidedBy note : String) (raw : Hash)
    (now : UtcTime) : Write × Except Raised Reply :=
  if raw = .empty then
    (.none, .error (.httpException 404 "Approval token not found"))
  else
    let currentStatus := (raw.get "status").getD ""
    if currentStatus ≠ ApprovalStatus.pending.value then
      (.none, .error (.httpException 409 ("Approval token already resolved: " ++ currentStatus)))
    else
      (.hset ((((raw.set "status" resolution.status.value).set "decided_by" decidedBy).set
          "decided_at" (iso now.val)).set "approval_note" note),
        .ok (.fields (resolution.reply decidedBy note raw now)))

/-- A resolution answers with an error and no write, or writes to a record it saw pending. -/
theorem Resolution.resolve_cases (resolution : Resolution) (decidedBy note : String) (raw : Hash)
    (now : UtcTime) :
    (∃ raised, resolution.resolve decidedBy note raw now = (.none, .error raised)) ∨
      raw.get "status" = some ApprovalStatus.pending.value ∧
        ∃ mapping reply,
          resolution.resolve decidedBy note raw now = (.hset mapping, .ok (.fields reply)) ∧
          mapping.get "status" = some resolution.status.value := by
  simp only [resolve]
  split_ifs with hempty hstatus
  · exact Or.inl ⟨_, rfl⟩
  · exact Or.inl ⟨_, rfl⟩
  · refine Or.inr ⟨?_, _, _, rfl, by simp [Hash.get_set]⟩
    rcases hget : raw.get "status" with _ | status
    · simp [hget, ApprovalStatus.value] at hstatus
    · simpa [hget] using hstatus

/-- An expired record is pending. -/
theorem pending_of_isExpired {raw : Hash} {now : UtcTime} (h : isExpired raw now = .ok true) :
    raw.get "status" = some ApprovalStatus.pending.value := by
  simp only [isExpired] at h
  split_ifs at h
  · simp at h
  · split at h
    · cases h
    · rename_i expiresAt _
      rcases hpast : isPast expiresAt now with raised | past
      · simp [hpast, Except.map] at h
      · simp only [hpast, Except.map, Except.ok.injEq, Bool.and_eq_true, decide_eq_true_eq] at h
        exact h.2

/-- A status query writes nothing, or the status `expired` over a record it saw pending. -/
theorem getApprovalStatus_cases (token : String) (raw : Hash) (now : UtcTime) :
    (getApprovalStatus token raw now).1 = .none ∨
      raw.get "status" = some ApprovalStatus.pending.value ∧
        (getApprovalStatus token raw now).1 =
          .hset (Hash.empty.set "status" ApprovalStatus.expired.value) := by
  rw [getApprovalStatus]
  split_ifs with hempty
  · exact Or.inl rfl
  · rcases hexpired : isExpired raw now with raised | expired
    · exact Or.inl rfl
    · cases expired with
      | false => exact Or.inl rfl
      | true =>
        exact Or.inr ⟨pending_of_isExpired hexpired, rfl⟩

/-! ### The calls -/

/-- A call on the token. -/
inductive Call where
  | getApprovalStatus
  | approve (decidedBy note : String)
  | deny (decidedBy note : String)
  | cleanupExpired

/-- The calls `τ` of a run, on a token whose record is stored when it starts. -/
structure ApprovalSetting (τ : Type u) where
  token : String
  record : ApprovalRecord
  call : τ → Call

/-- How far a call has come. A cleanup takes the time when it starts, and may come to the key
several times in its scan. -/
inductive Phase where
  | idle
  | fetched (raw : Hash)
  | scanning (now : UtcTime) (deleted : ℕ)
  | visiting (now : UtcTime) (deleted : ℕ) (raw : Hash)
  | finished (reply : Except Raised Reply)

/-- The hash under the key of the token, and the calls. -/
structure ApprovalState (τ : Type u) where
  store : Hash
  phase : τ → Phase := fun _ => .idle

/-- A step of a run: a move of a call, at a time; the end of the scan of a cleanup; the end of
the lifetime of the key. -/
inductive Action (τ : Type u) where
  | move (t : τ) (now : UtcTime)
  | stop (t : τ)
  | lapse

namespace ApprovalSetting

variable {τ : Type u} (S : ApprovalSetting τ)

/-- The record is stored, and no call has started. -/
def initial : ApprovalState τ where
  store := S.record.toDict

/-- How a call goes on after its `HGETALL`. -/
def conclude (t : τ) (raw : Hash) (now : UtcTime) : Write × Except Raised Reply :=
  match S.call t with
  | .getApprovalStatus => getApprovalStatus S.token raw now
  | .approve decidedBy note => approveApproval.resolve decidedBy note raw now
  | .deny decidedBy note => denyApproval.resolve decidedBy note raw now
  | .cleanupExpired => (.none, .ok (.count 0))

/-- A move of a call: what it sends to the store, and how far it has come then. -/
def next (store : Hash) (t : τ) (now : UtcTime) : Phase → Write × Phase
  | .idle =>
    match S.call t with
    | .cleanupExpired => (.none, .scanning now 0)
    | _ => (.none, .fetched store)
  | .fetched raw => ((S.conclude t raw now).1, .finished (S.conclude t raw now).2)
  | .scanning start deleted => (.none, .visiting start deleted store)
  | .visiting start deleted raw =>
    if raw = .empty then (.none, .scanning start deleted)
    else
      match isCleanable raw start with
      | .error raised => (.none, .finished (.error raised))
      | .ok true => (.delete, .scanning start (deleted + 1))
      | .ok false => (.none, .scanning start deleted)
  | .finished reply => (.none, .finished reply)

end ApprovalSetting

/-- The store after a write. -/
def Hash.apply (h : Hash) : Write → Hash
  | .none => h
  | .hset mapping => h.hset mapping
  | .delete => .empty

section

variable {τ : Type u} [DecidableEq τ] (S : ApprovalSetting τ)

/-- One step of a run. -/
def step (s : ApprovalState τ) : Action τ → ApprovalState τ
  | .move t now =>
    { store := s.store.apply (S.next s.store t now (s.phase t)).1
      phase := Function.update s.phase t (S.next s.store t now (s.phase t)).2 }
  | .stop t =>
    match s.phase t with
    | .scanning _ deleted =>
      { s with phase := Function.update s.phase t (.finished (.ok (.count deleted))) }
    | _ => s
  | .lapse => { s with store := .empty }

/-- The call approves. -/
def Call.IsApprove (call : Call) : Prop := ∃ decidedBy note, call = .approve decidedBy note

/-- The call approves or denies. -/
def Call.IsDecision (call : Call) : Prop :=
  call.IsApprove ∨ ∃ decidedBy note, call = .deny decidedBy note

/-- The call has approved or denied. -/
def Succeeded (s : ApprovalState τ) (t : τ) : Prop :=
  (S.call t).IsDecision ∧ ∃ reply, s.phase t = .finished (.ok (.fields reply))

/-- A human has decided. -/
def Decided (h : Hash) : Prop :=
  ∃ status : ApprovalStatus, (status = .approved ∨ status = .denied) ∧
    h.get "status" = some status.value

/-- Decisions are final across a step. -/
structure FinalStep (s : ApprovalState τ) (a : Action τ) : Prop where
  /-- At most one decision has succeeded after it. -/
  atMostOne : ∀ t u, Succeeded S (step S s a) t → Succeeded S (step S s a) u → t = u
  /-- A decided status stays, until the key is dropped at the end of its lifetime. -/
  kept : a ≠ .lapse → ∀ status : ApprovalStatus, status = .approved ∨ status = .denied →
    s.store.get "status" = some status.value →
      (step S s a).store.get "status" = some status.value
  /-- An approval that succeeds in it does so before `expires_at`. -/
  timely : ∀ t now, a = .move t now → (S.call t).IsApprove → ¬ Succeeded S s t →
    Succeeded S (step S s a) t → now.val.instant < S.record.expiresAt.instant
  /-- A record that is gone stays so. -/
  notWrittenBack : s.store = .empty → (step S s a).store = .empty

/-- A write of the step does not come too late: the record is still there and not decided, and
an approval is before `expires_at`. A deletion only needs that the record is not decided. -/
def MayWrite (s : ApprovalState τ) : Action τ → Prop
  | .move t now =>
    match (S.next s.store t now (s.phase t)).1 with
    | .none => True
    | .hset _ => s.store ≠ .empty ∧ ¬ Decided s.store ∧
      ((S.call t).IsApprove → now.val.instant < S.record.expiresAt.instant)
    | .delete => ¬ Decided s.store
  | .stop _ => True
  | .lapse => True

end

/-! ### What a step does -/

section

variable {τ : Type u} [DecidableEq τ] {S : ApprovalSetting τ} {s : ApprovalState τ}
  {a : Action τ}

/-- What a step does to the store and to the decisions that have succeeded, and what `MayWrite`
asks of it. -/
inductive Effect (S : ApprovalSetting τ) (s : ApprovalState τ) (a : Action τ) : Prop where
  /-- Nothing is written. -/
  | quiet (may : MayWrite S s a)
      (store : (step S s a).store = s.store ∨ a = .lapse)
      (succeeded : ∀ u, Succeeded S (step S s a) u ↔ Succeeded S s u)
  /-- A call that fetched a pending record decides. -/
  | decision (t : τ) (now : UtcTime) (raw mapping : Hash) (status : ApprovalStatus)
      (move : a = .move t now) (fetched : s.phase t = .fetched raw)
      (pending : raw.get "status" = some ApprovalStatus.pending.value)
      (decided : status = .approved ∨ status = .denied)
      (written : mapping.get "status" = some status.value)
      (may : MayWrite S s a ↔ s.store ≠ .empty ∧ ¬ Decided s.store ∧
        ((S.call t).IsApprove → now.val.instant < S.record.expiresAt.instant))
      (store : (step S s a).store = s.store.hset mapping)
      (succeeded : ∀ u, Succeeded S (step S s a) u ↔ u = t ∨ Succeeded S s u)
  /-- A status query that fetched a pending record marks it as expired. -/
  | expiry (move : a ≠ .lapse)
      (may : MayWrite S s a ↔ s.store ≠ .empty ∧ ¬ Decided s.store)
      (store : (step S s a).store =
        s.store.hset (Hash.empty.set "status" ApprovalStatus.expired.value))
      (succeeded : ∀ u, Succeeded S (step S s a) u ↔ Succeeded S s u)
  /-- A cleanup deletes the record. -/
  | deletion (move : a ≠ .lapse)
      (may : MayWrite S s a ↔ ¬ Decided s.store)
      (store : (step S s a).store = .empty)
      (succeeded : ∀ u, Succeeded S (step S s a) u ↔ Succeeded S s u)

/-- The phase is the end of a call that returned fields. -/
def Phase.IsReply (phase : Phase) : Prop := ∃ reply, phase = .finished (.ok (.fields reply))

/-- A call that does not come to a reply of a decision changes nothing in what has succeeded. -/
theorem succeeded_update_iff {store : Hash} {t : τ} {phase : Phase}
    (hbefore : ¬ (s.phase t).IsReply) (hafter : (S.call t).IsDecision → ¬ phase.IsReply) (u : τ) :
    Succeeded S { store := store, phase := Function.update s.phase t phase } u ↔
      Succeeded S s u := by
  by_cases hu : u = t
  · subst hu
    refine iff_of_false (fun h => ?_) fun h => hbefore h.2
    exact hafter h.1 (by simpa [Phase.IsReply] using h.2)
  · simp [Succeeded, hu]

/-- A decision that comes to a reply has succeeded. -/
theorem succeeded_update_reply_iff {store : Hash} {t : τ} (hdecision : (S.call t).IsDecision)
    (reply : List (String × Option String)) (u : τ) :
    Succeeded S { store := store, phase :=
        Function.update s.phase t (.finished (.ok (.fields reply))) } u ↔
      u = t ∨ Succeeded S s u := by
  by_cases hu : u = t
  · subst hu
    exact iff_of_true ⟨hdecision, reply, by simp⟩ (Or.inl rfl)
  · simp [Succeeded, hu]

theorem Call.not_isDecision_getApprovalStatus : ¬ Call.getApprovalStatus.IsDecision := by
  simp [Call.IsDecision, Call.IsApprove]

/-- A move that writes nothing and comes to no reply of a decision. -/
theorem Effect.of_none {t : τ} {now : UtcTime} (phase : Phase)
    (hnext : S.next s.store t now (s.phase t) = (.none, phase))
    (hbefore : ¬ (s.phase t).IsReply) (hafter : (S.call t).IsDecision → ¬ phase.IsReply) :
    Effect S s (.move t now) := by
  have hstep : step S s (.move t now) =
      { store := s.store, phase := Function.update s.phase t phase } := by
    rw [step, hnext]
    rfl
  refine .quiet (by simp [MayWrite, hnext]) (Or.inl (by rw [hstep])) fun u => ?_
  rw [hstep]
  exact succeeded_update_iff hbefore hafter u

/-- The last move of a decision. -/
theorem Effect.of_resolve {t : τ} {now : UtcTime} {raw : Hash} (resolution : Resolution)
    (decidedBy note : String) (hphase : s.phase t = .fetched raw)
    (hconclude : S.conclude t raw now = resolution.resolve decidedBy note raw now)
    (hdecision : (S.call t).IsDecision)
    (hstatus : resolution.status = .approved ∨ resolution.status = .denied) :
    Effect S s (.move t now) := by
  have hbefore : ¬ (s.phase t).IsReply := by simp [Phase.IsReply, hphase]
  obtain ⟨raised, hraised⟩ | ⟨hpending, mapping, reply, hresolved, hwritten⟩ :=
    resolution.resolve_cases decidedBy note raw now
  · refine .of_none (.finished (.error raised)) ?_ hbefore fun _ => ?_
    · rw [hphase, ApprovalSetting.next, hconclude, hraised]
    · simp [Phase.IsReply]
  · have hnext : S.next s.store t now (s.phase t) =
        (.hset mapping, .finished (.ok (.fields reply))) := by
      rw [hphase, ApprovalSetting.next, hconclude, hresolved]
    have hstep : step S s (.move t now) =
        { store := s.store.hset mapping
          phase := Function.update s.phase t (.finished (.ok (.fields reply))) } := by
      rw [step, hnext]
      rfl
    refine .decision t now raw mapping resolution.status rfl hphase hpending hstatus hwritten
      (by simp [MayWrite, hnext]) (by rw [hstep]) fun u => ?_
    rw [hstep]
    exact succeeded_update_reply_iff hdecision reply u

/-- The last move of a status query. -/
theorem Effect.of_getApprovalStatus {t : τ} {now : UtcTime} {raw : Hash}
    (hphase : s.phase t = .fetched raw) (hcall : S.call t = .getApprovalStatus) :
    Effect S s (.move t now) := by
  have hbefore : ¬ (s.phase t).IsReply := by simp [Phase.IsReply, hphase]
  have hafter : (S.call t).IsDecision → ∀ phase : Phase, ¬ phase.IsReply := fun h =>
    absurd (hcall ▸ h) Call.not_isDecision_getApprovalStatus
  have hconclude : S.conclude t raw now = getApprovalStatus S.token raw now := by
    simp [ApprovalSetting.conclude, hcall]
  obtain hnone | ⟨-, hexpired⟩ := getApprovalStatus_cases S.token raw now
  · refine .of_none (.finished (getApprovalStatus S.token raw now).2) ?_ hbefore
      fun h => hafter h _
    rw [hphase, ApprovalSetting.next, hconclude, hnone]
  · have hnext : S.next s.store t now (s.phase t) =
        (.hset (Hash.empty.set "status" ApprovalStatus.expired.value),
          .finished (getApprovalStatus S.token raw now).2) := by
      rw [hphase, ApprovalSetting.next, hconclude, hexpired]
    have happrove : ¬ (S.call t).IsApprove := fun h =>
      Call.not_isDecision_getApprovalStatus (hcall ▸ Or.inl h)
    refine .expiry (by simp) (by simp [MayWrite, hnext, happrove]) (by rw [step, hnext]; rfl)
      fun u => ?_
    rw [step, hnext]
    exact succeeded_update_iff hbefore (fun h => hafter h _) u

/-- A cleanup goes on with what it fetched. -/
theorem Effect.of_visiting {t : τ} {now start : UtcTime} {deleted : ℕ} {raw : Hash}
    (hphase : s.phase t = .visiting start deleted raw) : Effect S s (.move t now) := by
  have hbefore : ¬ (s.phase t).IsReply := by simp [Phase.IsReply, hphase]
  by_cases hempty : raw = .empty
  · refine .of_none (.scanning start deleted) ?_ hbefore (by simp [Phase.IsReply])
    rw [hphase, ApprovalSetting.next, if_pos hempty]
  rcases hclean : isCleanable raw start with raised | _ | _
  · refine .of_none (.finished (.error raised)) ?_ hbefore (by simp [Phase.IsReply])
    rw [hphase, ApprovalSetting.next, if_neg hempty, hclean]
  · refine .of_none (.scanning start deleted) ?_ hbefore (by simp [Phase.IsReply])
    rw [hphase, ApprovalSetting.next, if_neg hempty, hclean]
  · have hnext : S.next s.store t now (s.phase t) =
        (.delete, .scanning start (deleted + 1)) := by
      rw [hphase, ApprovalSetting.next, if_neg hempty, hclean]
    refine .deletion (by simp) (by simp [MayWrite, hnext]) (by rw [step, hnext]; rfl) fun u => ?_
    rw [step, hnext]
    exact succeeded_update_iff hbefore (by simp [Phase.IsReply]) u

/-- **Inversion.** Every step has one of these effects. -/
theorem effect (S : ApprovalSetting τ) (s : ApprovalState τ) (a : Action τ) : Effect S s a := by
  cases a with
  | lapse => exact .quiet trivial (Or.inr rfl) fun u => Iff.rfl
  | stop t =>
    rcases hphase : s.phase t with _ | raw | ⟨now, deleted⟩ | ⟨now, deleted, raw⟩ | reply
    case scanning =>
      have hstep : step S s (.stop t) =
          { store := s.store
            phase := Function.update s.phase t (.finished (.ok (.count deleted))) } := by
        simp [step, hphase]
      refine .quiet trivial (Or.inl (by rw [hstep])) fun u => ?_
      rw [hstep]
      exact succeeded_update_iff (by simp [Phase.IsReply, hphase]) (by simp [Phase.IsReply]) u
    all_goals
      have hstep : step S s (.stop t) = s := by simp [step, hphase]
      exact .quiet trivial (Or.inl (by rw [hstep])) fun u => by rw [hstep]
  | move t now =>
    rcases hphase : s.phase t with _ | raw | ⟨start, deleted⟩ | ⟨start, deleted, raw⟩ | reply
    case idle =>
      have hbefore : ¬ (s.phase t).IsReply := by simp [Phase.IsReply, hphase]
      cases hcall : S.call t with
      | cleanupExpired =>
        refine .of_none (.scanning now 0) ?_ hbefore (by simp [Phase.IsReply])
        simp [hphase, ApprovalSetting.next, hcall]
      | _ =>
        refine .of_none (.fetched s.store) ?_ hbefore (by simp [Phase.IsReply])
        simp [hphase, ApprovalSetting.next, hcall]
    case fetched =>
      cases hcall : S.call t with
      | getApprovalStatus => exact .of_getApprovalStatus hphase hcall
      | approve decidedBy note =>
        refine .of_resolve approveApproval decidedBy note hphase ?_ ?_ (Or.inl rfl)
        · simp only [ApprovalSetting.conclude, hcall]
        · exact hcall ▸ Or.inl ⟨decidedBy, note, rfl⟩
      | deny decidedBy note =>
        refine .of_resolve denyApproval decidedBy note hphase ?_ ?_ (Or.inr rfl)
        · simp only [ApprovalSetting.conclude, hcall]
        · exact hcall ▸ Or.inr ⟨decidedBy, note, rfl⟩
      | cleanupExpired =>
        refine .of_none (.finished (.ok (.count 0))) ?_ ?_ ?_
        · simp [hphase, ApprovalSetting.next, ApprovalSetting.conclude, hcall]
        · simp [Phase.IsReply, hphase]
        · simp [Phase.IsReply]
    case scanning =>
      refine .of_none (.visiting start deleted s.store) ?_ ?_ (by simp [Phase.IsReply])
      · rw [hphase, ApprovalSetting.next]
      · simp [Phase.IsReply, hphase]
    case visiting => exact .of_visiting hphase
    case finished =>
      -- nothing moves any more
      have hsame : Function.update s.phase t (.finished reply) = s.phase := by
        rw [← hphase, Function.update_eq_self]
      have hstep : step S s (.move t now) = s := by
        rw [step, hphase, ApprovalSetting.next, hsame]
        rfl
      refine .quiet (by simp [MayWrite, hphase, ApprovalSetting.next])
        (Or.inl (by rw [hstep])) fun u => by rw [hstep]

/-- What a call has fetched after a step it had fetched before, or it is what is stored. -/
theorem fetched_step {t : τ} {raw : Hash} (h : (step S s a).phase t = .fetched raw) :
    s.phase t = .fetched raw ∨ raw = s.store := by
  cases a with
  | lapse => exact Or.inl h
  | stop u =>
    rw [step] at h
    split at h
    · by_cases hu : t = u
      · subst hu
        simp at h
      · exact Or.inl (by simpa [hu] using h)
    · exact Or.inl h
  | move u now =>
    by_cases hu : t = u
    · subst hu
      have hnext : (S.next s.store t now (s.phase t)).2 = .fetched raw := by
        simpa [step] using h
      rcases hphase : s.phase t with _ | raw' | ⟨start, deleted⟩ | ⟨start, deleted, raw'⟩ | reply
      all_goals
        rw [hphase, ApprovalSetting.next] at hnext
      case idle =>
        split at hnext
        · cases hnext
        · exact Or.inr (Phase.fetched.inj hnext).symm
      case visiting =>
        split_ifs at hnext
        split at hnext <;> cases hnext
      all_goals cases hnext
    · exact Or.inl (by simpa [step, hu] using h)

/-! ### Decisions are final -/

/-- The invariant of runs in which decisions are final. -/
structure Consistent (S : ApprovalSetting τ) (s : ApprovalState τ) : Prop where
  /-- At most one decision has succeeded. -/
  atMostOne : ∀ t u, Succeeded S s t → Succeeded S s u → t = u
  /-- After a decision the record is decided, or gone. -/
  settled : (∃ t, Succeeded S s t) → s.store = .empty ∨ Decided s.store
  /-- A record that is decided was so from the start, or by a call of the run; in the first case
  nobody has fetched it pending. -/
  covered : Decided s.store → (∃ t, Succeeded S s t) ∨
    ∀ t raw, s.phase t = .fetched raw → raw.get "status" ≠ some ApprovalStatus.pending.value

theorem not_decided_empty : ¬ Decided Hash.empty := by
  rintro ⟨status, -, hget⟩
  exact nomatch (Hash.get_empty _).symm.trans hget

/-- A decided record is not pending. -/
theorem Decided.ne_pending {h : Hash} (hdecided : Decided h) :
    h.get "status" ≠ some ApprovalStatus.pending.value := by
  obtain ⟨status, rfl | rfl, hget⟩ := hdecided <;> simp [hget, ApprovalStatus.value]

/-- A hash that gets a decided status is decided. -/
theorem decided_hset {h mapping : Hash} {status : ApprovalStatus}
    (hstatus : status = .approved ∨ status = .denied)
    (hget : mapping.get "status" = some status.value) : Decided (h.hset mapping) :=
  ⟨status, hstatus, by rw [Hash.get_hset, hget, Option.some_or]⟩

/-- A hash that is marked as expired is not decided. -/
theorem not_decided_hset_expired (h : Hash) :
    ¬ Decided (h.hset (Hash.empty.set "status" ApprovalStatus.expired.value)) := by
  rintro ⟨status, hstatus, hget⟩
  rw [Hash.get_hset, Hash.get_set, if_pos rfl, Option.some_or] at hget
  obtain rfl | rfl := hstatus <;> simp [ApprovalStatus.value] at hget

omit [DecidableEq τ] in
theorem consistent_initial (S : ApprovalSetting τ) : Consistent S S.initial where
  atMostOne t _ ht := absurd ht.2 (by simp [ApprovalSetting.initial])
  settled := fun ⟨t, ht⟩ => absurd ht.2 (by simp [ApprovalSetting.initial])
  covered _ := Or.inr fun t raw h => by simp [ApprovalSetting.initial] at h

/-- A record that is decided or gone stays so across a step that keeps decisions. -/
theorem FinalStep.settled (hfinal : FinalStep S s a) (h : s.store = .empty ∨ Decided s.store) :
    (step S s a).store = .empty ∨ Decided (step S s a).store := by
  obtain hempty | ⟨status, hstatus, hget⟩ := h
  · exact Or.inl (hfinal.notWrittenBack hempty)
  · by_cases ha : a = .lapse
    · subst ha
      exact Or.inl rfl
    · exact Or.inr ⟨status, hstatus, hfinal.kept ha status hstatus hget⟩

/-- **Step.** A step that keeps decisions final keeps the invariant. -/
theorem Consistent.step (h : Consistent S s) (hfinal : FinalStep S s a) :
    Consistent S (step S s a) := by
  refine ⟨hfinal.atMostOne, fun ⟨u, hu⟩ => ?_, fun hdecided => ?_⟩
  · cases effect S s a with
    | decision t now raw mapping status _ _ _ hstatus hwritten _ hstore _ =>
      rw [hstore]
      exact Or.inr (decided_hset hstatus hwritten)
    | quiet _ _ hsucceeded => exact hfinal.settled (h.settled ⟨u, (hsucceeded u).mp hu⟩)
    | expiry _ _ _ hsucceeded => exact hfinal.settled (h.settled ⟨u, (hsucceeded u).mp hu⟩)
    | deletion _ _ _ hsucceeded => exact hfinal.settled (h.settled ⟨u, (hsucceeded u).mp hu⟩)
  · cases effect S s a with
    | quiet _ hstore hsucceeded =>
      obtain hstore | rfl := hstore
      · rw [hstore] at hdecided
        obtain ⟨u, hu⟩ | hfetched := h.covered hdecided
        · exact Or.inl ⟨u, (hsucceeded u).mpr hu⟩
        · refine Or.inr fun u raw hraw => ?_
          obtain hraw | rfl := fetched_step hraw
          · exact hfetched u raw hraw
          · exact hdecided.ne_pending
      · exact absurd hdecided not_decided_empty
    | decision t _ _ _ _ _ _ _ _ _ _ _ hsucceeded =>
      exact Or.inl ⟨t, (hsucceeded t).mpr (Or.inl rfl)⟩
    | expiry _ _ hstore _ => exact absurd (hstore ▸ hdecided) (not_decided_hset_expired _)
    | deletion _ _ hstore _ => exact absurd (hstore ▸ hdecided) not_decided_empty

/-- A step keeps decisions final if its write does not come too late. -/
theorem Consistent.finalStep_of_mayWrite (h : Consistent S s) (hmay : MayWrite S s a) :
    FinalStep S s a := by
  cases effect S s a with
  | quiet _ hstore hsucceeded =>
    refine ⟨fun t u ht hu => h.atMostOne t u ((hsucceeded t).mp ht) ((hsucceeded u).mp hu),
      fun hne status _ hget => ?_, fun t now _ _ hbefore hafter => ?_, fun hempty => ?_⟩
    · rwa [hstore.resolve_right hne]
    · exact absurd ((hsucceeded t).mp hafter) hbefore
    · obtain hstore | rfl := hstore
      · exact hstore.trans hempty
      · rfl
  | decision t now _ _ _ hmove _ _ _ _ hwrite _ hsucceeded =>
    obtain ⟨hstored, hundecided, htime⟩ := hwrite.mp hmay
    have hnone : ∀ u, ¬ Succeeded S s u := fun u hu =>
      (h.settled ⟨u, hu⟩).elim hstored hundecided
    have honly : ∀ u, Succeeded S (Governance.step S s a) u → u = t := fun u hu =>
      ((hsucceeded u).mp hu).resolve_right (hnone u)
    refine ⟨fun u v hu hv => (honly u hu).trans (honly v hv).symm,
      fun _ status hstatus hget => absurd ⟨status, hstatus, hget⟩ hundecided,
      fun u now' hmove' happrove _ hu => ?_, fun hempty => absurd hempty hstored⟩
    obtain rfl := honly u hu
    obtain ⟨-, rfl⟩ := Action.move.inj (hmove.symm.trans hmove')
    exact htime happrove
  | expiry _ hwrite _ hsucceeded =>
    obtain ⟨hstored, hundecided⟩ := hwrite.mp hmay
    exact ⟨fun t u ht hu => h.atMostOne t u ((hsucceeded t).mp ht) ((hsucceeded u).mp hu),
      fun _ status hstatus hget => absurd ⟨status, hstatus, hget⟩ hundecided,
      fun t _ _ _ hbefore hafter => absurd ((hsucceeded t).mp hafter) hbefore,
      fun hempty => absurd hempty hstored⟩
  | deletion _ hwrite hstore hsucceeded =>
    have hundecided := hwrite.mp hmay
    exact ⟨fun t u ht hu => h.atMostOne t u ((hsucceeded t).mp ht) ((hsucceeded u).mp hu),
      fun _ status hstatus hget => absurd ⟨status, hstatus, hget⟩ hundecided,
      fun t _ _ _ hbefore hafter => absurd ((hsucceeded t).mp hafter) hbefore, fun _ => hstore⟩

/-- A step that keeps decisions final does not write too late. -/
theorem Consistent.mayWrite_of_finalStep (h : Consistent S s) (hfinal : FinalStep S s a) :
    MayWrite S s a := by
  cases effect S s a with
  | quiet hmay _ _ => exact hmay
  | decision t now raw mapping status hmove hfetched hpending _ hwritten hwrite hstore
      hsucceeded =>
    have hafter : Succeeded S (Governance.step S s a) t := (hsucceeded t).mpr (Or.inl rfl)
    have hbefore : ¬ Succeeded S s t := fun ⟨_, reply, hreply⟩ => by simp [hfetched] at hreply
    refine hwrite.mpr ⟨fun hempty => ?_, fun hdecided => ?_,
      fun happrove => hfinal.timely t now hmove happrove hbefore hafter⟩
    · exact Hash.hset_ne_empty s.store hwritten (hstore.symm.trans (hfinal.notWrittenBack hempty))
    · obtain ⟨u, hu⟩ | hnone := h.covered hdecided
      · obtain rfl := hfinal.atMostOne u t ((hsucceeded u).mpr (Or.inr hu)) hafter
        exact hbefore hu
      · exact hnone t raw hfetched hpending
  | expiry hmove hwrite hstore _ =>
    have hexpired : (Hash.empty.set "status" ApprovalStatus.expired.value).get "status" =
        some ApprovalStatus.expired.value := rfl
    refine hwrite.mpr ⟨fun hempty => ?_, fun ⟨status, hstatus, hget⟩ => ?_⟩
    · exact Hash.hset_ne_empty s.store hexpired (hstore.symm.trans (hfinal.notWrittenBack hempty))
    · have hkept := hfinal.kept hmove status hstatus hget
      exact not_decided_hset_expired s.store ⟨status, hstatus, hstore ▸ hkept⟩
  | deletion hmove hwrite hstore _ =>
    refine hwrite.mpr fun ⟨status, hstatus, hget⟩ => ?_
    have hkept := hfinal.kept hmove status hstatus hget
    exact not_decided_empty ⟨status, hstatus, hstore ▸ hkept⟩

/-- **Decisions are final exactly when no write comes too late.** A run of calls on a token, in
any order of their reads and writes and at any times, keeps decisions final across each of its
steps if and only if each of its writes finds the record still there and not decided, an approval
moreover before `expires_at`, and each deletion finds it not decided. -/
theorem finalRun_iff (S : ApprovalSetting τ) (actions : List (Action τ)) :
    Runs.Along (step S) (FinalStep S) S.initial actions ↔
      Runs.Along (step S) (MayWrite S) S.initial actions :=
  Runs.along_congr (I := Consistent S) (fun _ _ h hfinal => h.step hfinal)
    (fun _ _ h => ⟨h.mayWrite_of_finalStep, h.finalStep_of_mayWrite⟩) (consistent_initial S)

end

/-! ### Two operators -/

/-- A time on New Year's Day. -/
def sampleTime (minute : Fin 60) : UtcTime :=
  ⟨{ year := 2025, month := 1, day := 1, hour := 0, minute := minute, second := 0,
     microsecond := 0, utcoffset := some 0,
     valid := ⟨by decide +revert, by decide +revert, by decide +revert, by simp, by simp⟩ }, rfl⟩

/-- A pending record, and two operators: one approves, one denies. -/
def sampleApproval : ApprovalSetting Bool where
  token := "t"
  record :=
    { token := "t", toolCall := "\x7b\x7d", contextId := "c"
      createdAt := (sampleTime 0).val, expiresAt := (sampleTime 5).val }
  call operator := if operator then .approve "alice" "" else .deny "bob" ""

/-- Both operators fetch the record before either writes. -/
def sampleActions : List (Action Bool) :=
  [.move true (sampleTime 1), .move false (sampleTime 1), .move true (sampleTime 2),
    .move false (sampleTime 2)]

/-- Two operators decide on one record: the approval is overwritten by a denial, and both have
succeeded. -/
theorem not_finalRun :
    ¬ Runs.Along (step sampleApproval) (FinalStep sampleApproval) sampleApproval.initial
      sampleActions := by
  rintro ⟨-, -, -, hlast, -⟩
  have hboth := hlast.atMostOne true false ⟨Or.inl ⟨_, _, rfl⟩, _, rfl⟩
    ⟨Or.inr ⟨_, _, rfl⟩, _, rfl⟩
  cases hboth

end AnonReq.Governance
