import AnonReq.Breach.Notifications
import AnonReq.Foundation.Transactions
import Mathlib.Data.List.ReduceOption

/-!
# Breach notifications on one session

`send_breach_notifications` of `breach/notifications.py` on the session that all of its inserts
share: after an insert that fails, the session rejects every other one, as nothing rolls it back.

* `stored_foldl_notify`: which recipients of a loop get a row.
* `Notified` says that every recipient whose own insert would succeed gets a row, and that the count
  and the flag are those of the rows.
* `notified_iff`: the exact condition.
* `not_notified`: the first of two inserts fails.
-/

namespace AnonReq.Breach

open BreachNotifier (getRegulatorContact notification)
open Transactions (committed AllCommitted Marked)

/-! ### The session -/

/-- A recipient of a notification. -/
structure Recipient where
  targetType : String
  targetId : String
  vars : List (String × String)
  storedFor : Option String

/-- How the inserts end, each on its own: for the recipients by their number, and for the queue. -/
structure Inserts where
  own : ℕ → Turn
  queue : Turn

/-- The session: the row that is committed for each recipient so far, if any, the rows of the
regulator queue, whether a statement has failed, and the count of the notifications. -/
structure Session where
  stored : List (Option Row) := []
  queue : List Row := []
  poisoned : Bool := false
  notificationsSent : ℕ := 0

/-- What `send_breach_notifications` leaves and returns. -/
structure Sent where
  session : Session
  regulatorQueued : Bool

variable (N : BreachNotifier) (incident : Incident) (inserts : Inserts) (now : ℤ)

namespace Session

/-- `_send_notification`, in which nothing is rolled back. -/
def sendNotification (s : Session) (r : Recipient) : Bool × Session :=
  match N.render incident.framework incident.region r.vars with
  | none => (false, { s with stored := s.stored ++ [none] })
  | some rendered =>
    let turn := inserts.own s.stored.length
    if s.poisoned then (false, { s with stored := s.stored ++ [none] })
    else if turn.committed then
      let row := notification turn.id incident r.targetType r.targetId rendered now r.storedFor
      (true, { s with stored := s.stored ++ [some row] })
    else (false, { s with stored := s.stored ++ [none], poisoned := true })

/-- A notification that is counted if it is sent. -/
def notify (s : Session) (r : Recipient) : Session :=
  let (result, s) := s.sendNotification N incident inserts now r
  if result then { s with notificationsSent := s.notificationsSent + 1 } else s

/-- `_queue_regulator_notification`, in which nothing is rolled back. -/
def queueRegulatorNotification (s : Session) (regulatorName : String) : Session :=
  if s.poisoned then s
  else if inserts.queue.committed then
    let row : Row :=
      { columns :=
          [("id", .text inserts.queue.id), ("regulator_id", .text regulatorName),
            ("notification_id", .text incident.breachId), ("status", .text "pending"),
            ("priority", .number 1), ("created_at", .datetime now)] }
    { s with queue := s.queue ++ [row] }
  else { s with poisoned := true }

/-- The notification of a contact of a tenant. -/
def tenantRecipient (date tenantId contact : String) : Recipient where
  targetType := "tenant"
  targetId := contact
  vars := Dict.set (Dict.set (BreachNotifier.allVariables incident date) "recipient_name"
    ("Tenant " ++ tenantId)) "tenant_name" tenantId
  storedFor := some tenantId

/-- The notification of the regulator. -/
def regulatorRecipient (date contact : String) : Recipient where
  targetType := "regulator"
  targetId := contact
  vars := BreachNotifier.allVariables incident date
  storedFor := none

/-- `send_breach_notifications`. -/
def sendBreachNotifications (date : String) : Sent :=
  let s : Session := {}
  let (regulatorQueued, s) :=
    match getRegulatorContact incident.framework incident.region with
    | none => (false, s)
    | some (name, contact) =>
      let (result, sent) :=
        s.sendNotification N incident inserts now (regulatorRecipient incident date contact)
      let sent := if result then { sent with notificationsSent := sent.notificationsSent + 1 }
        else sent
      (result, sent.queueRegulatorNotification incident inserts now name)
  let s := incident.affectedTenants.foldl (fun s tenantId =>
    (N.getTenantContacts tenantId).foldl (fun s contact =>
      s.notify N incident inserts now (tenantRecipient incident date tenantId contact)) s) s
  { session := s, regulatorQueued := regulatorQueued }

end Session

/-! ### Recipients and their inserts -/

/-- The regulator, if there is one. -/
def regulators (date : String) : List Recipient :=
  (getRegulatorContact incident.framework incident.region).toList.map fun regulator =>
    Session.regulatorRecipient incident date regulator.2

/-- The contacts of the affected tenants. -/
def tenantRecipients (date : String) : List Recipient :=
  incident.affectedTenants.flatMap fun tenantId =>
    (N.getTenantContacts tenantId).map (Session.tenantRecipient incident date tenantId)

/-- The recipients, in order. -/
def recipients (date : String) : List Recipient :=
  regulators incident date ++ tenantRecipients N incident date

/-- The insert for a recipient with a number: none if nothing can be rendered, else whether it would
succeed on its own. -/
def attempt (i : ℕ) (r : Recipient) : Option Bool :=
  (N.render incident.framework incident.region r.vars).map fun _ => (inserts.own i).committed

/-- The inserts for recipients that are numbered from some number on. -/
def attempts : ℕ → List Recipient → List (Option Bool)
  | _, [] => []
  | n, r :: rs => attempt N incident inserts n r :: attempts (n + 1) rs

/-- The row of a recipient names its contact. -/
def Matches (stored : Option Row) (r : Recipient) : Prop :=
  ∀ row ∈ stored, row.get "target_id" = .text r.targetId

variable {N incident inserts now} {s : Session} {r : Recipient}

theorem getElem?_attempts {n : ℕ} {rs : List Recipient} {i : ℕ} :
    (attempts N incident inserts n rs)[i]? = rs[i]?.map (attempt N incident inserts (n + i)) := by
  induction rs generalizing n i with
  | nil => rfl
  | cons r rs ih =>
    cases i with
    | zero => rfl
    | succ i =>
      rw [attempts, List.getElem?_cons_succ, List.getElem?_cons_succ, ih,
        show n + 1 + i = n + (i + 1) by omega]

/-- **One notification**: nothing is issued or it is rejected, or its insert fails, or it is
committed. -/
theorem notify_cases (s : Session) (r : Recipient) :
    ((attempt N incident inserts s.stored.length r = none ∨ s.poisoned = true) ∧
        s.notify N incident inserts now r = { s with stored := s.stored ++ [none] }) ∨
      (attempt N incident inserts s.stored.length r = some false ∧ s.poisoned = false ∧
        s.notify N incident inserts now r =
          { s with stored := s.stored ++ [none], poisoned := true }) ∨
      (attempt N incident inserts s.stored.length r = some true ∧ s.poisoned = false ∧
        ∃ row : Row, Matches (some row) r ∧ s.notify N incident inserts now r =
          { s with stored := s.stored ++ [some row]
                   notificationsSent := s.notificationsSent + 1 }) := by
  unfold Session.notify Session.sendNotification attempt
  cases N.render incident.framework incident.region r.vars with
  | none => exact Or.inl ⟨Or.inl rfl, rfl⟩ -- without a template nothing is issued
  | some rendered =>
    cases hpoisoned : s.poisoned with
    | true => exact Or.inl ⟨Or.inr rfl, by simp⟩
    | false =>
      cases hcommitted : (inserts.own s.stored.length).committed with
      | false => exact Or.inr (Or.inl ⟨rfl, rfl, by simp [hcommitted]⟩)
      | true =>
        refine Or.inr (Or.inr ⟨rfl, rfl,
          notification (inserts.own s.stored.length).id incident r.targetType r.targetId rendered
            now r.storedFor, ?_, by simp [hcommitted]⟩)
        intro row hrow
        rw [← Option.some.inj hrow]
        rfl

/-! ### A loop over recipients -/

/-- What is kept while recipients are notified: the count is that of the rows, and each row is its
recipient's. -/
structure Tally (rs : List Recipient) (s : Session) : Prop where
  sent : s.notificationsSent = s.stored.reduceOption.length
  rows : List.Forall₂ Matches s.stored rs

theorem Tally.notify {rs : List Recipient} (h : Tally rs s) (r : Recipient) :
    Tally (rs ++ [r]) (s.notify N incident inserts now r) := by
  have hrows : ∀ o : Option Row, Matches o r → List.Forall₂ Matches (s.stored ++ [o]) (rs ++ [r]) :=
    fun o ho => List.rel_append h.rows (List.Forall₂.cons ho List.Forall₂.nil)
  have hnone : Matches none r := fun row hrow => by cases hrow
  obtain ⟨-, heq⟩ | ⟨-, -, heq⟩ | ⟨-, -, row, hrow, heq⟩ :=
    @notify_cases N incident inserts now s r
  · rw [heq]
    exact ⟨by simp [h.sent, List.reduceOption_append], hrows none hnone⟩
  · rw [heq]
    exact ⟨by simp [h.sent, List.reduceOption_append], hrows none hnone⟩
  · rw [heq]
    exact ⟨by simp [h.sent, List.reduceOption_append], hrows (some row) hrow⟩

/-- **Which recipients get a row**: those whose inserts are committed in a session that is spoiled
by the first failure. -/
theorem stored_foldl_notify (rs : List Recipient) (s : Session) :
    (rs.foldl (Session.notify N incident inserts now) s).stored.map Option.isSome =
      s.stored.map Option.isSome ++
        committed s.poisoned (attempts N incident inserts s.stored.length rs) := by
  induction rs generalizing s with
  | nil => exact (List.append_nil _).symm
  | cons r rs ih =>
    rw [List.foldl_cons, ih, attempts]
    obtain ⟨hskipped, heq⟩ | ⟨hattempt, hpoisoned, heq⟩ | ⟨hattempt, hpoisoned, row, -, heq⟩ :=
      @notify_cases N incident inserts now s r
    · -- nothing is stored, and whether the session rejects the rest does not change
      have hcommitted : ∀ rest, committed s.poisoned
          (attempt N incident inserts s.stored.length r :: rest) =
            false :: committed s.poisoned rest := by
        intro rest
        obtain hnone | hpoisoned := hskipped
        · rw [hnone, committed]
        · rw [hpoisoned]
          cases attempt N incident inserts s.stored.length r <;> rfl
      rw [heq, hcommitted]
      simp
    · rw [heq, hattempt, hpoisoned]
      simp [committed]
    · rw [heq, hattempt, hpoisoned]
      simp [committed]

/-- A loop over recipients queues nothing. -/
theorem queue_foldl_notify (rs : List Recipient) (s : Session) :
    (rs.foldl (Session.notify N incident inserts now) s).queue = s.queue := by
  induction rs generalizing s with
  | nil => rfl
  | cons r rs ih =>
    rw [List.foldl_cons, ih]
    obtain ⟨-, heq⟩ | ⟨-, -, heq⟩ | ⟨-, -, row, -, heq⟩ := @notify_cases N incident inserts now s r
    · rw [heq]
    · rw [heq]
    · rw [heq]

theorem Tally.foldl {rs rs' : List Recipient} (h : Tally rs s) :
    Tally (rs ++ rs') (rs'.foldl (Session.notify N incident inserts now) s) := by
  induction rs' generalizing rs s with
  | nil =>
    rw [List.append_nil]
    exact h
  | cons r rs' ih =>
    rw [List.foldl_cons, ← List.singleton_append, ← List.append_assoc]
    exact ih (h.notify r)

/-! ### The regulator -/

variable (N incident inserts)

/-- The regulator's notification or its queue entry fails. -/
def regulatorSpoils (date : String) : Bool :=
  match getRegulatorContact incident.framework incident.region with
  | none => false
  | some regulator =>
    attempt N incident inserts 0 (Session.regulatorRecipient incident date regulator.2) ==
      some false || !inserts.queue.committed

/-- The session after the regulator, and the flag. -/
def regulatorPart (now : ℤ) (date : String) : Bool × Session :=
  match getRegulatorContact incident.framework incident.region with
  | none => (false, {})
  | some (name, contact) =>
    (({} : Session).sendNotification N incident inserts now
        (Session.regulatorRecipient incident date contact) |>.1,
      (({} : Session).notify N incident inserts now
        (Session.regulatorRecipient incident date contact)).queueRegulatorNotification incident
          inserts now name)

variable {N incident inserts}

/-- The nested loops go through the recipients in order. -/
theorem sendBreachNotifications_eq (N : BreachNotifier) (incident : Incident) (inserts : Inserts)
    (now : ℤ) (date : String) :
    Session.sendBreachNotifications N incident inserts now date =
      { session := (tenantRecipients N incident date).foldl (Session.notify N incident inserts now)
          (regulatorPart N incident inserts now date).2
        regulatorQueued := (regulatorPart N incident inserts now date).1 } := by
  unfold Session.sendBreachNotifications regulatorPart tenantRecipients
  rw [List.foldl_flatMap]
  simp only [List.foldl_map]
  cases getRegulatorContact incident.framework incident.region <;> rfl

/-- When `_send_notification` returns true. -/
theorem fst_sendNotification_iff :
    (s.sendNotification N incident inserts now r).1 = true ↔
      s.poisoned = false ∧ attempt N incident inserts s.stored.length r = some true := by
  unfold Session.sendNotification attempt
  cases N.render incident.framework incident.region r.vars with
  | none => simp
  | some rendered =>
    cases hpoisoned : s.poisoned with
    | true => simp
    | false => cases hcommitted : (inserts.own s.stored.length).committed <;> simp [hcommitted]

/-- The queue entry of a regulator is committed where its notification is, and not where that cannot
be rendered. -/
def QueueSound (N : BreachNotifier) (incident : Incident) (inserts : Inserts) (date : String) :
    Prop :=
  ∀ regulator ∈ getRegulatorContact incident.framework incident.region,
    let own := attempt N incident inserts 0 (Session.regulatorRecipient incident date regulator.2)
    (own = some true → inserts.queue.committed = true) ∧
      (own = none → inserts.queue.committed = false)

/-- A first notification and a queue entry after it. -/
theorem queue_notify_spec (inserts : Inserts) (now : ℤ) (r : Recipient) (name : String) :
    let own := attempt N incident inserts 0 r
    let t := (({} : Session).notify N incident inserts now r).queueRegulatorNotification incident
      inserts now name
    t.stored.map Option.isSome = committed false [own] ∧
      t.poisoned = (own == some false || !inserts.queue.committed) ∧ Tally [r] t ∧
      ((own = some true ↔ t.queue ≠ []) ↔
        (own = some true → inserts.queue.committed = true) ∧
          (own = none → inserts.queue.committed = false)) := by
  intro own t
  have htally : Tally ([] : List Recipient) {} := ⟨rfl, List.Forall₂.nil⟩
  have hnotified := @Tally.notify N incident inserts now {} _ htally r
  have hstored := @stored_foldl_notify N incident inserts now [r] {}
  -- the queue entry is no row, and it is not counted
  have hqueue : ∀ s : Session,
      (s.queueRegulatorNotification incident inserts now name).stored = s.stored ∧
        (s.queueRegulatorNotification incident inserts now name).notificationsSent =
          s.notificationsSent := by
    intro s
    unfold Session.queueRegulatorNotification
    split_ifs <;> exact ⟨rfl, rfl⟩
  obtain ⟨hsame, hsent⟩ := hqueue (({} : Session).notify N incident inserts now r)
  have hflags : t.poisoned = (own == some false || !inserts.queue.committed) ∧
      ((own = some true ↔ t.queue ≠ []) ↔
        (own = some true → inserts.queue.committed = true) ∧
          (own = none → inserts.queue.committed = false)) := by
    unfold own t Session.queueRegulatorNotification
    obtain ⟨hskipped, heq⟩ | ⟨hattempt, -, heq⟩ | ⟨hattempt, -, row, -, heq⟩ :=
      @notify_cases N incident inserts now {} r
    · have hnone : attempt N incident inserts 0 r = none :=
        hskipped.resolve_right Bool.false_ne_true
      rw [heq, hnone]
      cases inserts.queue.committed <;> simp
    · have hfalse : attempt N incident inserts 0 r = some false := hattempt
      rw [heq, hfalse]
      simp
    · have htrue : attempt N incident inserts 0 r = some true := hattempt
      rw [heq, htrue]
      cases inserts.queue.committed <;> simp
  refine ⟨hsame ▸ hstored, hflags.1, ⟨?_, ?_⟩, hflags.2⟩
  · rw [hsame, hsent]
    exact hnotified.sent
  · rw [hsame]
    exact hnotified.rows

/-- **The regulator's part.** -/
theorem regulatorPart_spec (N : BreachNotifier) (incident : Incident) (inserts : Inserts) (now : ℤ)
    (date : String) :
    let part := regulatorPart N incident inserts now date
    part.2.stored.map Option.isSome =
        committed false (attempts N incident inserts 0 (regulators incident date)) ∧
      part.2.poisoned = regulatorSpoils N incident inserts date ∧
      Tally (regulators incident date) part.2 ∧
      ((part.1 = true ↔ part.2.queue ≠ []) ↔ QueueSound N incident inserts date) := by
  unfold regulatorPart regulatorSpoils QueueSound regulators
  cases getRegulatorContact incident.framework incident.region with
  | none => exact ⟨rfl, rfl, ⟨rfl, List.Forall₂.nil⟩, by simp⟩
  | some regulator =>
    obtain ⟨hstored, hpoisoned, htally, hqueue⟩ := @queue_notify_spec N incident inserts now
      (Session.regulatorRecipient incident date regulator.2) regulator.1
    refine ⟨hstored, hpoisoned, htally, ?_⟩
    dsimp only
    rw [fst_sendNotification_iff]
    simp only [Option.mem_def, Option.some.injEq, forall_eq']
    refine Iff.trans ?_ hqueue
    exact iff_congr (and_iff_right trivial) Iff.rfl

/-! ### What is delivered -/

/-- **Delivered independently and counted honestly.** A recipient whose own insert would succeed
gets a row, the count is that of the rows, and the flag tells of the regulator queue. -/
structure Notified (N : BreachNotifier) (incident : Incident) (inserts : Inserts) (date : String)
    (sent : Sent) : Prop where
  delivered : ∀ (i : ℕ) (r : Recipient), (recipients N incident date)[i]? = some r →
    attempt N incident inserts i r = some true →
      ∃ row : Row, sent.session.stored[i]? = some (some row) ∧
        row.get "target_id" = .text r.targetId
  counted : sent.session.notificationsSent = sent.session.stored.reduceOption.length
  queued : sent.regulatorQueued = true ↔ sent.session.queue ≠ []

/-- No insert that fails stands before that of a contact of a tenant that would succeed, and the
queue entry of the regulator is as it should be. -/
structure Unspoiled (N : BreachNotifier) (incident : Incident) (inserts : Inserts) (date : String) :
    Prop where
  regulator : regulatorSpoils N incident inserts date = true →
    some true ∉ attempts N incident inserts (regulators incident date).length
      (tenantRecipients N incident date)
  tenants : (attempts N incident inserts (regulators incident date).length
    (tenantRecipients N incident date)).Pairwise fun a b => a = some false → b ≠ some true
  queue : QueueSound N incident inserts date

/-- The inserts for all recipients. -/
theorem attempts_append {n : ℕ} (rs rs' : List Recipient) :
    attempts N incident inserts n (rs ++ rs') =
      attempts N incident inserts n rs ++ attempts N incident inserts (n + rs.length) rs' := by
  induction rs generalizing n with
  | nil => rfl
  | cons r rs ih =>
    rw [List.cons_append, attempts, attempts, ih, List.cons_append, List.length_cons,
      show n + 1 + rs.length = n + (rs.length + 1) by omega]

/-- The row of a recipient is there if and only if something is stored for its number. -/
theorem exists_row_iff {rs : List Recipient} {s : Session} (h : Tally rs s) {i : ℕ} {r : Recipient}
    (hr : rs[i]? = some r) :
    (∃ row : Row, s.stored[i]? = some (some row) ∧ row.get "target_id" = .text r.targetId) ↔
      (s.stored.map Option.isSome)[i]? = some true := by
  rw [List.getElem?_map]
  constructor
  · rintro ⟨row, hrow, -⟩
    rw [hrow]
    rfl
  · intro hsome
    obtain ⟨o, ho, hisSome⟩ := Option.map_eq_some_iff.mp hsome
    obtain ⟨row, rfl⟩ := Option.isSome_iff_exists.mp hisSome
    obtain ⟨hi, hrow⟩ := List.getElem?_eq_some_iff.mp ho
    obtain ⟨hi', rfl⟩ := List.getElem?_eq_some_iff.mp hr
    have hmatches : Matches s.stored[i] rs[i] := h.rows.get hi hi'
    exact ⟨row, ho, hmatches row hrow⟩

/-- **Delivery** to every recipient whose own insert would succeed: the regulator's is the first,
and those of the tenants are committed in a session that the regulator may have spoiled. -/
theorem delivered_iff (N : BreachNotifier) (incident : Incident) (inserts : Inserts) (now : ℤ)
    (date : String) :
    (∀ (i : ℕ) (r : Recipient), (recipients N incident date)[i]? = some r →
      attempt N incident inserts i r = some true →
        ∃ row : Row, ((tenantRecipients N incident date).foldl
            (Session.notify N incident inserts now)
            (regulatorPart N incident inserts now date).2).stored[i]? = some (some row) ∧
          row.get "target_id" = .text r.targetId) ↔
      AllCommitted (regulatorSpoils N incident inserts date)
        (attempts N incident inserts (regulators incident date).length
          (tenantRecipients N incident date)) := by
  obtain ⟨hfirst, hpoisoned, htally, -⟩ := regulatorPart_spec N incident inserts now date
  have hall := @Tally.foldl N incident inserts now _ _ (tenantRecipients N incident date) htally
  have hstored := @stored_foldl_notify N incident inserts now (tenantRecipients N incident date)
    (regulatorPart N incident inserts now date).2
  have hlength : (regulatorPart N incident inserts now date).2.stored.length =
      (regulators incident date).length := htally.rows.length_eq
  rw [hfirst, hlength, hpoisoned] at hstored
  -- one insert alone cannot be silenced
  have hfirstMarked : Marked (attempts N incident inserts 0 (regulators incident date))
      (committed false (attempts N incident inserts 0 (regulators incident date))) := by
    refine Transactions.allCommitted_false_iff.mpr ?_
    unfold regulators
    cases getRegulatorContact incident.framework incident.region with
    | none => exact List.Pairwise.nil
    | some regulator => exact List.pairwise_singleton _ _
  have happend := Transactions.marked_append_iff
    (b := attempts N incident inserts (regulators incident date).length
      (tenantRecipients N incident date))
    (d := committed (regulatorSpoils N incident inserts date)
      (attempts N incident inserts (regulators incident date).length
        (tenantRecipients N incident date)))
    (@Transactions.length_committed false
      (attempts N incident inserts 0 (regulators incident date))).symm
  -- the rows of the regulator and those of the tenants are judged apart
  have hattempts := @attempts_append N incident inserts 0 (regulators incident date)
    (tenantRecipients N incident date)
  rw [Nat.zero_add] at hattempts
  rw [← hattempts, ← hstored] at happend
  refine Iff.trans ?_ (happend.trans (and_iff_right hfirstMarked))
  constructor
  · intro h i hi
    rw [getElem?_attempts, Nat.zero_add] at hi
    obtain ⟨r, hr, hattempt⟩ := Option.map_eq_some_iff.mp hi
    exact (exists_row_iff hall hr).mp (h i r hr hattempt)
  · intro h i r hr hattempt
    refine (exists_row_iff hall hr).mpr (h i ?_)
    rw [getElem?_attempts, Nat.zero_add]
    exact Option.map_eq_some_iff.mpr ⟨r, hr, hattempt⟩

/-- **Notifications are delivered and counted** as they should be if and only if no failure stands
before an insert that would succeed, and the queue entry is as it should be: for every list of
tenants and contacts and every pattern of failing inserts. -/
theorem notified_iff (N : BreachNotifier) (incident : Incident) (inserts : Inserts) (now : ℤ)
    (date : String) :
    Notified N incident inserts date
        (Session.sendBreachNotifications N incident inserts now date) ↔
      Unspoiled N incident inserts date := by
  obtain ⟨-, -, htally, hqueue⟩ := regulatorPart_spec N incident inserts now date
  have hdelivered := (delivered_iff N incident inserts now date).trans
    Transactions.allCommitted_iff
  rw [sendBreachNotifications_eq]
  constructor
  · intro h
    obtain ⟨hregulator, htenants⟩ := hdelivered.mp h.delivered
    refine ⟨hregulator, htenants, hqueue.mp ?_⟩
    have hqueued := h.queued
    rwa [queue_foldl_notify] at hqueued
  · intro h
    refine ⟨hdelivered.mpr ⟨h.regulator, h.tenants⟩, htally.foldl.sent, ?_⟩
    dsimp only
    rw [queue_foldl_notify]
    exact hqueue.mpr h.queue

/-- A breach with two affected tenants. -/
def twoTenants : Incident where
  breachId := "br_1"
  framework := "gdpr"
  description := "lost laptop"
  affectedTenants := ["acme", "globex"]

/-- A notifier without a governance service, whose templates render to nothing. -/
def plainNotifier : BreachNotifier where
  render _ _ _ := some ⟨"tpl", "", ""⟩

/-- Of three notifications the insert of the second fails. -/
def secondFails : Inserts where
  own i := { id := toString i, committed := i != 1 }
  queue := { id := "rq" }

/-- **One failure silences the rest.** The insert for the contact of the first tenant fails, and the
second tenant, whose insert would succeed, gets no row. -/
theorem not_notified :
    ¬ ∀ (N : BreachNotifier) (incident : Incident) (inserts : Inserts) (now : ℤ) (date : String),
      Notified N incident inserts date
        (Session.sendBreachNotifications N incident inserts now date) := by
  intro h
  obtain ⟨row, hrow, -⟩ := (h plainNotifier twoTenants secondFails 0 "").delivered 2 _ rfl rfl
  have hnone : (Session.sendBreachNotifications plainNotifier twoTenants secondFails 0
      "").session.stored[2]? = some none := rfl
  rw [hnone] at hrow
  cases hrow

end AnonReq.Breach
