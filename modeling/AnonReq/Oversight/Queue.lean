import AnonReq.Foundation.Characters
import AnonReq.Foundation.Dict
import AnonReq.Foundation.Runs
import Mathlib.Data.List.Sort
import Mathlib.Data.Rat.Defs

/-!
# The approval queue

`create_approval_request`, `approve_request`, `reject_request` and `list_pending_approvals` of
`services/oversight.py`, interleaved at the commands they send to the store.

* The store is the hash `anonreq:oversight:approvals`, from ids to requests. A stored text is
  taken to be the request it is read as; a risk score that is infinite or not a number is written
  as null, which is not read back.
* `step` is one command of one call, or the hash being dropped at the end of its lifetime.
* `FinalStep` says of a step that decisions are final across it, `MayStep` that it neither
  replaces nor drops a decided request.
* `queue_iff`: when decisions are final in a run, and when a listing is exact.
* `not_queue`: two operators decide on one request, and the decided request is listed.
-/

namespace AnonReq.Oversight

universe u

variable {T : Type}

/-! ### Requests -/

/-- `ApprovalRequest`. A risk score without a number is infinite or not a number; the metadata are
their JSON text. -/
structure ApprovalRequest (T : Type) where
  id : Text
  tenantId : Text
  requestType : Text
  description : Text
  status : Text := "pending".toList
  riskScore : Option ℚ := some 0
  operatorId : Option Text := none
  decidedBy : Option Text := none
  decidedAt : Option T := none
  createdAt : T
  metadata : Text := "\x7b\x7d".toList
deriving DecidableEq

/-- The hash of requests. -/
abbrev Store (T : Type) := List (Text × ApprovalRequest T)

/-- What the operations raise. -/
inductive Raised where
  | valueError (message : Text)
  | validationError
deriving DecidableEq

/-- `ApprovalRequest(**json.loads(value))`. -/
def load (value : ApprovalRequest T) : Except Raised (ApprovalRequest T) :=
  if value.riskScore = none then .error .validationError else .ok value

theorem load_eq_ok_iff {value req : ApprovalRequest T} :
    load value = .ok req ↔ value.riskScore ≠ none ∧ req = value := by
  rw [load]
  split_ifs with hscore
  · simp [hscore]
  · simp [hscore, eq_comm]

/-- All requests are read if each can be. -/
theorem mapM_load_eq_ok_iff {store : Store T} {requests : List (ApprovalRequest T)} :
    (store.mapM fun e => load e.2) = .ok requests ↔
      (∀ e ∈ store, e.2.riskScore ≠ none) ∧ requests = store.map Prod.snd := by
  rw [Runs.mapM_eq_ok_iff]
  induction store generalizing requests with
  | nil => simp
  | cons e store ih =>
    rw [List.forall₂_cons_left_iff]
    rw [List.forall_mem_cons, List.map_cons]
    constructor
    · rintro ⟨req, rest, hload, hrest, rfl⟩
      obtain ⟨hscore, rfl⟩ := load_eq_ok_iff.mp hload
      obtain ⟨hscores, rfl⟩ := ih.mp hrest
      exact ⟨⟨hscore, hscores⟩, rfl⟩
    · rintro ⟨⟨hscore, hscores⟩, rfl⟩
      exact ⟨e.2, _, load_eq_ok_iff.mpr ⟨hscore, rfl⟩, ih.mpr ⟨hscores, rfl⟩, rfl⟩

/-- The arguments of `create_approval_request`, with the id it draws. -/
structure Creation where
  id : Text
  tenantId : Text
  requestType : Text
  description : Text
  riskScore : Option ℚ := some 0
  metadata : Text := "\x7b\x7d".toList

/-- The request of `create_approval_request`. -/
def Creation.request (c : Creation) (now : T) : ApprovalRequest T where
  id := c.id
  tenantId := c.tenantId
  requestType := c.requestType
  description := c.description
  status := "pending".toList
  riskScore := c.riskScore
  createdAt := now
  metadata := c.metadata

/-! ### Decisions -/

/-- What an operator decides. -/
inductive Verdict where
  | approved
  | rejected

/-- The status that a verdict writes. -/
def Verdict.value : Verdict → Text
  | .approved => "approved".toList
  | .rejected => "rejected".toList

/-- What `approve_request` and `reject_request` have in common. -/
structure Decision where
  approvalId : Text
  operatorId : Text
  verdict : Verdict

/-- `approve_request`. -/
def approveRequest (approvalId operatorId : Text) : Decision := ⟨approvalId, operatorId, .approved⟩

/-- `reject_request`. -/
def rejectRequest (approvalId operatorId : Text) : Decision := ⟨approvalId, operatorId, .rejected⟩

/-- The first part of a decision: the request must be there and pending. -/
def Decision.fetch (d : Decision) (store : Store T) : Except Raised (ApprovalRequest T) :=
  match Dict.get store d.approvalId with
  | none => .error (.valueError ("Approval request not found: ".toList ++ d.approvalId))
  | some raw =>
    match load raw with
    | .error raised => .error raised
    | .ok req =>
      if req.status = "pending".toList then .ok req
      else .error (.valueError
        ("Approval request ".toList ++ d.approvalId ++ " already ".toList ++ req.status))

/-- The request that a decision writes. -/
def Decision.decide (d : Decision) (req : ApprovalRequest T) (now : T) : ApprovalRequest T :=
  { req with status := d.verdict.value, decidedBy := some d.operatorId, decidedAt := some now }

/-! ### Decided requests -/

/-- The stored request is not pending. -/
def Settled (store : Store T) (id : Text) : Prop :=
  ∃ req, Dict.get store id = some req ∧ req.status ≠ "pending".toList

/-- What is stored of a decision. -/
def outcome (store : Store T) (id : Text) : Option (Text × Option Text × Option T) :=
  (Dict.get store id).map fun req => (req.status, req.decidedBy, req.decidedAt)

theorem Verdict.value_ne_pending (verdict : Verdict) : verdict.value ≠ "pending".toList := by
  cases verdict <;> decide

theorem not_settled_nil (id : Text) : ¬ Settled ([] : Store T) id := by
  rintro ⟨req, hget, -⟩
  cases hget

/-- Storing a request settles it unless it is pending, and nothing else. -/
theorem settled_set_iff {store : Store T} {id id' : Text} {req : ApprovalRequest T} :
    Settled (Dict.set store id req) id' ↔
      if id = id' then req.status ≠ "pending".toList else Settled store id' := by
  rw [Settled, Dict.get_set]
  split
  · simp
  · rfl

/-- What is stored of a request says whether it is settled. -/
theorem settled_congr {store store' : Store T} {id : Text}
    (h : outcome store' id = outcome store id) : Settled store' id ↔ Settled store id := by
  have hiff : ∀ store : Store T, Settled store id ↔
      ∃ status, (outcome store id).map Prod.fst = some status ∧ status ≠ "pending".toList := by
    intro store
    simp [Settled, outcome]
  rw [hiff, hiff, h]

theorem outcome_set_of_ne {store : Store T} {id id' : Text} {req : ApprovalRequest T}
    (hne : id ≠ id') : outcome (Dict.set store id req) id' = outcome store id' := by
  rw [outcome, Dict.get_set, if_neg hne, outcome]

/-! ### States -/

/-- What a call returns. -/
inductive Reply (T : Type) where
  | request (req : ApprovalRequest T)
  | requests (results : List (ApprovalRequest T))

/-- How far a call has come. -/
inductive Phase (T : Type) where
  | idle
  /-- The request is stored, the lifetime of the hash not yet set. -/
  | created (req : ApprovalRequest T)
  /-- A decision has fetched a pending request. -/
  | fetched (d : Decision) (req : ApprovalRequest T)
  /-- A decision has returned. -/
  | decided (d : Decision) (req : ApprovalRequest T)
  | finished (reply : Except Raised (Reply T))

/-- The store, and how far each call has come. -/
structure QueueState (τ : Type u) (T : Type) where
  store : Store T
  phase : τ → Phase T

/-- The store is empty and no call has begun. -/
def QueueState.initial {τ : Type u} : QueueState τ T where
  store := []
  phase _ := .idle

section

variable {τ : Type u} {s : QueueState τ T}

/-- The call has returned from a decision on the request. -/
def Returned (s : QueueState τ T) (t : τ) (id : Text) : Prop :=
  ∃ d req, s.phase t = .decided d req ∧ d.approvalId = id

/-- A call that does not come to the end of a decision changes nothing in what has returned. -/
theorem returned_update_iff [DecidableEq τ] {store : Store T} {t : τ} {phase : Phase T}
    (hbefore : ∀ id, ¬ Returned s t id) (hafter : ∀ d req, phase ≠ .decided d req) (u : τ)
    (id : Text) :
    Returned { store := store, phase := Function.update s.phase t phase } u id ↔
      Returned s u id := by
  by_cases hu : u = t
  · subst hu
    refine iff_of_false (fun ⟨d, req, hphase, _⟩ => ?_) (hbefore id)
    exact hafter d req (by simpa using hphase)
  · simp [Returned, hu]

/-- The invariant of runs in which decisions are final. -/
structure Consistent (s : QueueState τ T) : Prop where
  /-- At most one decision of each request has returned. -/
  atMostOne : ∀ t u id, Returned s t id → Returned s u id → t = u
  /-- The requests that are decided are those of which a decision has returned. -/
  settled_iff : ∀ id, Settled s.store id ↔ ∃ t, Returned s t id

theorem consistent_initial : Consistent (QueueState.initial : QueueState τ T) where
  atMostOne t u id h _ := by simp [Returned, QueueState.initial] at h
  settled_iff id := by simp [Returned, QueueState.initial, Settled, Dict.get]

/-- What is stored stays if nothing but requests that are not decided is replaced. -/
theorem Consistent.kept (h : Consistent s) {id : Text} (hopen : ¬ Settled s.store id)
    {store : Store T} (hstore : ∀ id', id' ≠ id → outcome store id' = outcome s.store id') (t : τ)
    (id' : Text) (ht : Returned s t id') : outcome store id' = outcome s.store id' := by
  refine hstore id' fun hid => hopen ?_
  exact hid ▸ (h.settled_iff id').mpr ⟨t, ht⟩

end

/-! ### The listing -/

/-- The request is of the tenant, or no tenant is given. -/
def OfTenant (tenantId : Option Text) (req : ApprovalRequest T) : Prop :=
  tenantId = none ∨ tenantId = some req.tenantId

instance (tenantId : Option Text) : DecidablePred (OfTenant (T := T) tenantId) := fun req =>
  inferInstanceAs (Decidable (tenantId = none ∨ tenantId = some req.tenantId))

/-- The stored requests of a tenant that are pending. -/
def pendingOf (store : Store T) (tenantId : Option Text) : List (ApprovalRequest T) :=
  (store.map Prod.snd).filter fun req => OfTenant tenantId req ∧ req.status = "pending".toList

/-- The tenant's requests are its pending ones exactly when all of them are pending. -/
theorem perm_pendingOf_iff (store : Store T) (tenantId : Option Text) :
    ((store.map Prod.snd).filter fun req => OfTenant tenantId req).Perm
        (pendingOf store tenantId) ↔
      ∀ e ∈ store, OfTenant tenantId e.2 → e.2.status = "pending".toList := by
  have hfilter : pendingOf store tenantId =
      ((store.map Prod.snd).filter fun req => OfTenant tenantId req).filter
        fun req => req.status = "pending".toList := by
    rw [pendingOf, List.filter_filter]
    exact List.filter_congr fun req _ => by simp [Bool.and_comm]
  have hall : (∀ req ∈ (store.map Prod.snd).filter fun req => OfTenant tenantId req,
      decide (req.status = "pending".toList) = true) ↔
        ∀ e ∈ store, OfTenant tenantId e.2 → e.2.status = "pending".toList := by
    constructor
    · intro h e he htenant
      exact of_decide_eq_true
        (h e.2 (List.mem_filter.mpr ⟨List.mem_map_of_mem he, decide_eq_true htenant⟩))
    · intro h req hreq
      obtain ⟨hmem, htenant⟩ := List.mem_filter.mp hreq
      obtain ⟨e, he, rfl⟩ := List.mem_map.mp hmem
      exact decide_eq_true (h e he (of_decide_eq_true htenant))
  rw [← hall, hfilter]
  refine ⟨fun hperm => List.length_filter_eq_length_iff.mp hperm.length_eq.symm, fun h => ?_⟩
  rw [List.filter_eq_self.mpr h]

section

variable [LinearOrder T]

/-- `list_pending_approvals`. -/
def listPendingApprovals (store : Store T) (tenantId : Option Text) :
    Except Raised (List (ApprovalRequest T)) :=
  (store.mapM fun e => load e.2).map fun requests =>
    (requests.filter fun req => OfTenant tenantId req).mergeSort
      fun a b => b.createdAt ≤ a.createdAt

/-- The listing returns exactly the tenant's pending requests, newest first. -/
def ListsPending (store : Store T) (tenantId : Option Text) : Prop :=
  ∃ results, listPendingApprovals store tenantId = .ok results ∧
    results.Perm (pendingOf store tenantId) ∧
    results.Pairwise fun a b => b.createdAt ≤ a.createdAt

/-- A listing succeeds if every stored request can be read. -/
theorem listPendingApprovals_eq_ok_iff {store : Store T} {tenantId : Option Text}
    {results : List (ApprovalRequest T)} :
    listPendingApprovals store tenantId = .ok results ↔
      (∀ e ∈ store, e.2.riskScore ≠ none) ∧
        results = ((store.map Prod.snd).filter fun req => OfTenant tenantId req).mergeSort
          fun a b => b.createdAt ≤ a.createdAt := by
  rw [listPendingApprovals, Runs.map_eq_ok_iff]
  simp only [mapM_load_eq_ok_iff]
  constructor
  · rintro ⟨_, ⟨hscores, rfl⟩, rfl⟩
    exact ⟨hscores, rfl⟩
  · rintro ⟨hscores, rfl⟩
    exact ⟨_, ⟨hscores, rfl⟩, rfl⟩

/-- **A listing is exact exactly when every stored request can be read and none of the tenant's is
decided.** -/
theorem listsPending_iff (store : Store T) (tenantId : Option Text) :
    ListsPending store tenantId ↔ (∀ e ∈ store, e.2.riskScore ≠ none) ∧
      ∀ e ∈ store, OfTenant tenantId e.2 → e.2.status = "pending".toList := by
  rw [← perm_pendingOf_iff, ListsPending]
  simp only [listPendingApprovals_eq_ok_iff]
  constructor
  · rintro ⟨_, ⟨hscores, rfl⟩, hperm, -⟩
    exact ⟨hscores, (List.mergeSort_perm _ _).symm.trans hperm⟩
  · rintro ⟨hscores, hperm⟩
    refine ⟨_, ⟨hscores, rfl⟩, (List.mergeSort_perm _ _).trans hperm, ?_⟩
    simpa using List.pairwise_mergeSort' (fun a b : ApprovalRequest T => b.createdAt ≤ a.createdAt)
      ((store.map Prod.snd).filter fun req => OfTenant tenantId req)

end

/-! ### Calls -/

/-- A call of the service. -/
inductive Call where
  | create (c : Creation)
  | decide (d : Decision)
  | list (tenantId : Option Text)

section

variable [LinearOrder T]

/-- The next command of a call, and how far the call has come then. -/
def Call.next (call : Call) (store : Store T) (now : T) : Phase T → Store T × Phase T
  | .idle =>
    match call with
    | .create c => (Dict.set store c.id (c.request now), .created (c.request now))
    | .decide d =>
      match d.fetch store with
      | .error raised => (store, .finished (.error raised))
      | .ok req => (store, .fetched d req)
    | .list tenantId =>
      (store, .finished ((listPendingApprovals store tenantId).map Reply.requests))
  | .created req => (store, .finished (.ok (.request req)))
  | .fetched d req =>
    (Dict.set store d.approvalId (d.decide req now), .decided d (d.decide req now))
  | .decided d req => (store, .decided d req)
  | .finished reply => (store, .finished reply)

/-- A step: a command of a call at a time, or the end of the lifetime of the hash. -/
inductive Action (τ : Type u) (T : Type) where
  | move (t : τ) (now : T)
  | lapse

variable {τ : Type u} [DecidableEq τ] (call : τ → Call)

/-- One step of a run. -/
def step (s : QueueState τ T) : Action τ T → QueueState τ T
  | .move t now =>
    { store := ((call t).next s.store now (s.phase t)).1
      phase := Function.update s.phase t ((call t).next s.store now (s.phase t)).2 }
  | .lapse => { s with store := [] }

/-- Decisions are final across a step. -/
structure FinalStep (s : QueueState τ T) (a : Action τ T) : Prop where
  /-- At most one decision of each request has returned after it. -/
  atMostOne : ∀ t u id, Returned (step call s a) t id → Returned (step call s a) u id → t = u
  /-- What is stored of a request stays once a decision of it has returned. -/
  kept : ∀ t id, Returned s t id → outcome (step call s a).store id = outcome s.store id

/-- A step neither replaces nor drops a decided request: a decision finds its request not decided
when it writes, a new request has not the id of a decided one, and the hash is not dropped while it
holds one. -/
def MayStep (s : QueueState τ T) : Action τ T → Prop
  | .move t _ =>
    match s.phase t with
    | .idle =>
      match call t with
      | .create c => ¬ Settled s.store c.id
      | .decide _ => True
      | .list _ => True
    | .created _ => True
    | .fetched d _ => ¬ Settled s.store d.approvalId
    | .decided _ _ => True
    | .finished _ => True
  | .lapse => ∀ id, ¬ Settled s.store id

end

/-! ### What a step does -/

section

variable [LinearOrder T] {τ : Type u} [DecidableEq τ] {call : τ → Call} {s : QueueState τ T}
  {a : Action τ T}

/-- What a step does to the store and to the decisions that have returned, and what `MayStep` asks
of it. -/
inductive Effect (call : τ → Call) (s : QueueState τ T) (a : Action τ T) : Prop where
  /-- Nothing is written. -/
  | quiet (may : MayStep call s a) (store : (step call s a).store = s.store)
      (returned : ∀ u id, Returned (step call s a) u id ↔ Returned s u id)
  /-- A pending request is stored. -/
  | creation (c : Creation) (now : T) (may : MayStep call s a ↔ ¬ Settled s.store c.id)
      (store : (step call s a).store = Dict.set s.store c.id (c.request now))
      (returned : ∀ u id, Returned (step call s a) u id ↔ Returned s u id)
  /-- A decision is stored and returns. -/
  | decision (t : τ) (d : Decision) (req : ApprovalRequest T) (now : T)
      (before : ∀ id, ¬ Returned s t id)
      (may : MayStep call s a ↔ ¬ Settled s.store d.approvalId)
      (store : (step call s a).store = Dict.set s.store d.approvalId (d.decide req now))
      (returned : ∀ u id, Returned (step call s a) u id ↔
        (u = t ∧ id = d.approvalId) ∨ Returned s u id)
  /-- The hash is dropped. -/
  | lapse (may : MayStep call s a ↔ ∀ id, ¬ Settled s.store id) (store : (step call s a).store = [])
      (returned : ∀ u id, Returned (step call s a) u id ↔ Returned s u id)

/-- A move that writes nothing and is not the end of a decision. -/
theorem Effect.of_quiet {t : τ} {now : T} (phase : Phase T)
    (hnext : (call t).next s.store now (s.phase t) = (s.store, phase))
    (hmay : MayStep call s (.move t now)) (hbefore : ∀ id, ¬ Returned s t id)
    (hafter : ∀ d req, phase ≠ .decided d req) : Effect call s (.move t now) := by
  refine .quiet hmay (by rw [step, hnext]) fun u id => ?_
  rw [step, hnext]
  exact returned_update_iff hbefore hafter u id

/-- **Inversion.** Every step has one of these effects. -/
theorem effect (call : τ → Call) (s : QueueState τ T) (a : Action τ T) : Effect call s a := by
  cases a with
  | lapse => exact .lapse Iff.rfl rfl fun u id => Iff.rfl
  | move t now =>
    cases hphase : s.phase t with
    | idle =>
      have hbefore : ∀ id, ¬ Returned s t id := by simp [Returned, hphase]
      cases hcall : call t with
      | create c =>
        have hnext : (call t).next s.store now (s.phase t) =
            (Dict.set s.store c.id (c.request now), .created (c.request now)) := by
          rw [hphase, hcall, Call.next]
        refine .creation c now (by simp [MayStep, hphase, hcall]) (by rw [step, hnext])
          fun u id => ?_
        rw [step, hnext]
        exact returned_update_iff hbefore (by simp) u id
      | decide d =>
        have hmay : MayStep call s (.move t now) := by simp [MayStep, hphase, hcall]
        cases hfetch : d.fetch s.store with
        | error raised =>
          refine .of_quiet (.finished (.error raised)) ?_ hmay hbefore (by simp)
          simp only [hphase, hcall, Call.next, hfetch]
        | ok req =>
          refine .of_quiet (.fetched d req) ?_ hmay hbefore (by simp)
          simp only [hphase, hcall, Call.next, hfetch]
      | list tenantId =>
        refine .of_quiet (.finished ((listPendingApprovals s.store tenantId).map Reply.requests)) ?_
          (by simp [MayStep, hphase, hcall]) hbefore (by simp)
        rw [hphase, hcall, Call.next]
    | created req =>
      refine .of_quiet (.finished (.ok (.request req))) ?_ (by simp [MayStep, hphase])
        (by simp [Returned, hphase]) (by simp)
      rw [hphase, Call.next]
    | fetched d req =>
      have hbefore : ∀ id, ¬ Returned s t id := by simp [Returned, hphase]
      have hnext : (call t).next s.store now (s.phase t) =
          (Dict.set s.store d.approvalId (d.decide req now), .decided d (d.decide req now)) := by
        rw [hphase, Call.next]
      refine .decision t d req now hbefore (by simp [MayStep, hphase]) (by rw [step, hnext])
        fun u id => ?_
      rw [step, hnext]
      by_cases hu : u = t
      · subst hu
        rw [or_iff_left (hbefore id), Returned]
        simp only [Function.update_self, true_and]
        constructor
        · rintro ⟨_, _, heq, rfl⟩
          cases heq
          rfl
        · rintro rfl
          exact ⟨d, d.decide req now, rfl, rfl⟩
      · simp [Returned, hu]
    | decided d req =>
      -- nothing moves any more
      have hstep : step call s (.move t now) = s := by
        rw [step, hphase, Call.next, ← hphase, Function.update_eq_self]
      exact .quiet (by simp [MayStep, hphase]) (by rw [hstep]) fun u id => by rw [hstep]
    | finished reply =>
      refine .of_quiet (.finished reply) ?_ (by simp [MayStep, hphase])
        (by simp [Returned, hphase]) (by simp)
      rw [hphase, Call.next]

/-! ### Decisions are final -/

/-- **Step.** A step that keeps decisions final keeps the invariant. -/
theorem Consistent.step (h : Consistent s) (hfinal : FinalStep call s a) :
    Consistent (step call s a) := by
  refine ⟨hfinal.atMostOne, fun id => ?_⟩
  cases effect call s a with
  | quiet _ hstore hreturned => simp only [hstore, hreturned, h.settled_iff]
  | creation c now _ hstore hreturned =>
    simp only [hreturned, ← h.settled_iff, hstore, settled_set_iff]
    by_cases hid : c.id = id
    · have hopen : ¬ Settled s.store id := fun hsettled => by
        obtain ⟨t, ht⟩ := (h.settled_iff id).mp hsettled
        have hnow := (settled_congr (hfinal.kept t id ht)).mpr hsettled
        rw [hstore, settled_set_iff, if_pos hid] at hnow
        exact hnow rfl
      simp [hid, hopen, Creation.request]
    · rw [if_neg hid]
  | decision t d req now _ _ hstore hreturned =>
    simp only [hreturned, hstore, settled_set_iff, exists_or, ← h.settled_iff]
    by_cases hid : d.approvalId = id
    · subst hid
      rw [if_pos rfl]
      exact iff_of_true d.verdict.value_ne_pending (Or.inl ⟨t, rfl, rfl⟩)
    · simp [hid, Ne.symm hid]
  | lapse _ hstore hreturned =>
    simp only [hreturned, ← h.settled_iff, hstore]
    refine iff_of_false (not_settled_nil id) fun hsettled => ?_
    obtain ⟨t, ht⟩ := (h.settled_iff id).mp hsettled
    have hnow := (settled_congr (hfinal.kept t id ht)).mpr hsettled
    rw [hstore] at hnow
    exact not_settled_nil id hnow

/-- A step that neither replaces nor drops a decided request keeps decisions final. -/
theorem Consistent.finalStep_of_mayStep (h : Consistent s) (hmay : MayStep call s a) :
    FinalStep call s a := by
  cases effect call s a with
  | quiet _ hstore hreturned =>
    refine ⟨fun t u id ht hu => ?_, fun t id _ => by rw [hstore]⟩
    exact h.atMostOne t u id ((hreturned t id).mp ht) ((hreturned u id).mp hu)
  | creation c now hiff hstore hreturned =>
    refine ⟨fun t u id ht hu => ?_, ?_⟩
    · exact h.atMostOne t u id ((hreturned t id).mp ht) ((hreturned u id).mp hu)
    · rw [hstore]
      exact h.kept (hiff.mp hmay) fun id' hid => outcome_set_of_ne hid.symm
  | decision t d req now _ hiff hstore hreturned =>
    have hnone : ∀ u, ¬ Returned s u d.approvalId := fun u hu =>
      hiff.mp hmay ((h.settled_iff d.approvalId).mpr ⟨u, hu⟩)
    refine ⟨fun u v id hu hv => ?_, ?_⟩
    · obtain ⟨rfl, rfl⟩ | hu := (hreturned u id).mp hu <;>
        obtain ⟨rfl, hid⟩ | hv := (hreturned v _).mp hv
      · rfl
      · exact absurd hv (hnone v)
      · exact absurd (hid ▸ hu) (hnone u)
      · exact h.atMostOne u v id hu hv
    · rw [hstore]
      exact h.kept (hiff.mp hmay) fun id' hid => outcome_set_of_ne hid.symm
  | lapse hiff hstore hreturned =>
    refine ⟨fun t u id ht hu => ?_, fun t id ht => ?_⟩
    · exact h.atMostOne t u id ((hreturned t id).mp ht) ((hreturned u id).mp hu)
    · exact absurd ((h.settled_iff id).mpr ⟨t, ht⟩) (hiff.mp hmay id)

/-- A step that keeps decisions final neither replaces nor drops a decided request. -/
theorem Consistent.mayStep_of_finalStep (h : Consistent s) (hfinal : FinalStep call s a) :
    MayStep call s a := by
  have hstays : ∀ id, Settled s.store id → Settled (Oversight.step call s a).store id := by
    intro id hsettled
    obtain ⟨t, ht⟩ := (h.settled_iff id).mp hsettled
    exact (settled_congr (hfinal.kept t id ht)).mpr hsettled
  cases effect call s a with
  | quiet hmay _ _ => exact hmay
  | creation c now hiff hstore _ =>
    refine hiff.mpr fun hsettled => ?_
    have hnow := hstays c.id hsettled
    rw [hstore, settled_set_iff, if_pos rfl] at hnow
    exact hnow rfl
  | decision t d req now hbefore hiff _ hreturned =>
    refine hiff.mpr fun hsettled => ?_
    obtain ⟨u, hu⟩ := (h.settled_iff d.approvalId).mp hsettled
    have hsame := hfinal.atMostOne u t d.approvalId ((hreturned u _).mpr (Or.inr hu))
      ((hreturned t _).mpr (Or.inl ⟨rfl, rfl⟩))
    exact hbefore d.approvalId (hsame ▸ hu)
  | lapse hiff hstore _ =>
    refine hiff.mpr fun id hsettled => ?_
    have hnow := hstays id hsettled
    rw [hstore] at hnow
    exact not_settled_nil id hnow

/-- **Decisions are final exactly when no decided request is replaced or dropped.** -/
theorem finalQueue_iff (call : τ → Call) (actions : List (Action τ T)) :
    Runs.Along (step call) (FinalStep call) .initial actions ↔
      Runs.Along (step call) (MayStep call) .initial actions :=
  Runs.along_congr (I := Consistent) (fun _ _ h hfinal => h.step hfinal)
    (fun _ _ h => ⟨h.mayStep_of_finalStep, h.finalStep_of_mayStep⟩) consistent_initial

end

/-! ### The listing is exact -/

/-- **The queue.** Decisions are final in a run if and only if no step of it replaces or drops a
decided request, and a listing run alone is exact if and only if every stored request can be read
and none of the tenant's is decided. -/
theorem queue_iff {T : Type} [LinearOrder T] {τ : Type u} [DecidableEq τ] (call : τ → Call)
    (actions : List (Action τ T)) (store : Store T) (tenantId : Option Text) :
    (Runs.Along (step call) (FinalStep call) .initial actions ↔
        Runs.Along (step call) (MayStep call) .initial actions) ∧
      (ListsPending store tenantId ↔ (∀ e ∈ store, e.2.riskScore ≠ none) ∧
        ∀ e ∈ store, OfTenant tenantId e.2 → e.2.status = "pending".toList) :=
  ⟨finalQueue_iff call actions, listsPending_iff store tenantId⟩

/-! ### Two operators -/

/-- A request for the review of a model, and two operators: one approves, one rejects. -/
def sampleCall : Option Bool → Call
  | none => .create { id := "r".toList, tenantId := "acme".toList, requestType := "review".toList,
                      description := [] }
  | some true => .decide (approveRequest "r".toList "alice".toList)
  | some false => .decide (rejectRequest "r".toList "bob".toList)

/-- Both operators fetch the request before either writes. -/
def sampleActions : List (Action (Option Bool) ℕ) :=
  [.move none 0, .move (some true) 1, .move (some false) 1, .move (some true) 2,
    .move (some false) 3]

/-- The approval is overwritten by the rejection, and both have returned; the listing still names
the request. -/
theorem not_queue :
    ¬ Runs.Along (step sampleCall) (FinalStep sampleCall) .initial sampleActions ∧
      ¬ ListsPending (Runs.exec (step sampleCall) .initial sampleActions).store
        (some "acme".toList) := by
  constructor
  · rintro ⟨-, -, -, -, hlast, -⟩
    have hboth := hlast.atMostOne (some true) (some false) "r".toList ⟨_, _, rfl, rfl⟩
      ⟨_, _, rfl, rfl⟩
    cases hboth
  · rw [listsPending_iff]
    rintro ⟨-, hpending⟩
    have hrejected := hpending ("r".toList, (rejectRequest "r".toList "bob".toList).decide
      (Creation.request ⟨"r".toList, "acme".toList, "review".toList, [], some 0, "\x7b\x7d".toList⟩
        0) 3) (by decide) (Or.inr rfl)
    exact absurd hrejected (by decide)

end AnonReq.Oversight
