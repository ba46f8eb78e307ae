import AnonReq.Dsar.Workflow
import Mathlib.Algebra.Order.Ring.Int

/-!
# Legal holds and the two ways to delete

`retention/legal_hold.py`, `retention/tiers.py` and the erasures of `dsar/workflow.py`: holds are
activated and released, expired lineage rows are purged, and subjects are erased on request, while
the clock advances and statements fail.

* `isOnHold_of_held`: the query finds every hold of a tenant or a record, unless it fails.
* `Kept` says of a step that it deletes nothing on hold and purges what is expired otherwise;
  `Harmless` that nothing on hold is in its way.
* `kept_iff`, `holds_kept_iff`: the two agree, for a step and for a run.
* `not_holds_kept`: a purge deletes a row of a tenant on hold.
-/

namespace AnonReq.Retention

open Dsar

/-! ### Holds -/

/-- The scope of a hold. -/
inductive HoldScope where
  | tenant
  | record
deriving DecidableEq

/-- `LegalHoldRecord`: a row of `legal_hold`. Times are in microseconds, counted from some day
on. -/
structure LegalHoldRecord where
  id : String
  tenantId : String
  scope : HoldScope := .tenant
  recordId : Option String := none
  reason : String := ""
  activatedBy : String := ""
  activatedAt : ℕ
  expiresAt : Option ℕ := none
  releasedAt : Option ℕ := none
  releasedBy : Option String := none
deriving DecidableEq

namespace LegalHoldRecord

/-- The hold is not released and has not expired. -/
def IsActive (hold : LegalHoldRecord) (now : ℕ) : Prop :=
  hold.releasedAt = none ∧ ∀ e ∈ hold.expiresAt, now < e

instance (hold : LegalHoldRecord) (now : ℕ) : Decidable (hold.IsActive now) :=
  inferInstanceAs (Decidable (_ ∧ _))

end LegalHoldRecord

/-- The record is given and not empty. -/
def isGiven (recordId : Option String) : Bool := recordId.any fun r => r != ""

/-- `activate_hold`, with the identifier it draws. -/
def activateHold (holds : List LegalHoldRecord) (hold : LegalHoldRecord) (now : ℕ)
    (write : Write) : Except DsarError LegalHoldRecord × List LegalHoldRecord :=
  let hold := { hold with activatedAt := now, releasedAt := none, releasedBy := none }
  if hold.scope = .record ∧ isGiven hold.recordId = false then
    (.error (.valueError "record_id is required when scope='record'"), holds)
  else
    match write with
    | .committed => (.ok hold, holds ++ [hold])
    | .failed e none => (.error (.runtimeError ("Failed to activate legal hold: " ++ e)), holds)
    | .failed _ (some e) => (.error (.database e), holds)

/-- `release_hold`; the hold may not be found because the query fails. -/
def releaseHold (holds : List LegalHoldRecord) (holdId releasedBy : String) (now : ℕ)
    (readable : Bool) (write : Write) : Except DsarError Unit × List LegalHoldRecord :=
  if readable && holds.any fun hold => hold.id == holdId then
    match write with
    | .committed =>
      (.ok (), holds.map fun hold =>
        if hold.id = holdId then
          { hold with releasedAt := some now, releasedBy := some releasedBy }
        else hold)
    | .failed e none => (.error (.runtimeError ("Failed to release legal hold: " ++ e)), holds)
    | .failed _ (some e) => (.error (.database e), holds)
  else (.error (.valueError ("Hold not found: " ++ holdId)), holds)

/-- `is_on_hold`: whether the query counts a hold; one that fails counts none. -/
def isOnHold (holds : List LegalHoldRecord) (now : ℕ) (tenantId : String)
    (recordId : Option String) (fails : Bool) : Bool :=
  !fails && holds.any fun hold =>
    (hold.tenantId == tenantId || isGiven recordId && hold.recordId == recordId) &&
      decide (hold.IsActive now)

/-- A hold that is active covers the tenant, or the record of the tenant. -/
def Held (holds : List LegalHoldRecord) (now : ℕ) (tenantId recordId : String) : Prop :=
  ∃ hold ∈ holds, hold.IsActive now ∧ hold.tenantId = tenantId ∧
    (hold.scope = .tenant ∨ hold.scope = .record ∧ hold.recordId = some recordId)

/-- **The query** finds every hold of a tenant and of its records, unless it fails. -/
theorem isOnHold_of_held {holds : List LegalHoldRecord} {now : ℕ} {tenantId recordId : String}
    (h : Held holds now tenantId recordId) (asked : Option String) :
    isOnHold holds now tenantId asked false = true := by
  obtain ⟨hold, hmem, hactive, htenant, -⟩ := h
  have hany : holds.any (fun hold =>
      (hold.tenantId == tenantId || isGiven asked && hold.recordId == asked) &&
        decide (hold.IsActive now)) = true :=
    List.any_eq_true.mpr ⟨hold, hmem, by simp [htenant, hactive]⟩
  rw [isOnHold, hany]
  rfl

/-! ### Retention -/

/-- A row of `data_lineage`. -/
structure LineageRow where
  id : String
  tenantId : String
  requestTimestamp : Option ℤ
deriving DecidableEq

/-- `request_timestamp < :cutoff`, which no missing timestamp is. -/
def LineageRow.IsExpired (row : LineageRow) (cutoff : ℤ) : Prop :=
  ∃ t, row.requestTimestamp = some t ∧ t < cutoff

instance (row : LineageRow) (cutoff : ℤ) : Decidable (row.IsExpired cutoff) :=
  match h : row.requestTimestamp with
  | none => isFalse fun ⟨t, ht, _⟩ => by rw [h] at ht; cases ht
  | some t =>
    if hlt : t < cutoff then isTrue ⟨t, h, hlt⟩
    else isFalse fun ⟨t', ht', hlt'⟩ => hlt (Option.some.inj (h.symm.trans ht') ▸ hlt')

/-- The `duration_days` of `RETENTION_TIERS`. -/
def retentionTiers : List (String × Option ℤ) :=
  [("postgresql", some 90), ("minio_worm", some 2555), ("valkey", none), ("legal_hold", none)]

/-- `RetentionManager`. -/
structure RetentionManager where
  config : List (String × Option ℤ) := retentionTiers
  hasLegalHoldManager : Bool

/-- What a purge returns. -/
structure PurgeResult where
  tier : String
  deletedCount : ℕ
  skippedLegalHold : ℕ
  dryRun : Bool

/-- What a purge raises. -/
inductive PurgeError where
  | unknownTier (tier : String)
  | noDuration
  | database (error : String)

/-- What fails in a purge: the query for holds, the query for the count, or the deletion. -/
structure PurgeFaults where
  holdCheckFails : Bool := false
  countFails : Bool := false
  write : Write := .committed

namespace RetentionManager

variable (M : RetentionManager)

/-- The tiers that nothing is done for. -/
def idleTiers : List String := ["valkey", "minio_worm", "legal_hold"]

/-- The time before which rows are expired, for a number of days. -/
def cutoff (now : ℕ) (days : ℤ) : ℤ := now - days * 86400000000

/-- `purge_expired`: what is returned, and the rows after it. Holds are counted and no row is kept
for them. -/
def purgeExpired (holds : List LegalHoldRecord) (lineage : List LineageRow) (now : ℕ)
    (tier : String) (dryRun : Bool) (faults : PurgeFaults) :
    Except PurgeError PurgeResult × List LineageRow :=
  match M.config.lookup tier with
  | none => (.error (.unknownTier tier), lineage)
  | some durationDays =>
    if tier ∈ idleTiers then (.ok ⟨tier, 0, 0, dryRun⟩, lineage)
    else
      match durationDays with
      | none => (.error .noDuration, lineage)
      | some days =>
        let onHold := M.hasLegalHoldManager && isOnHold holds now "*" none faults.holdCheckFails
        let skipped := if onHold then 1 else 0
        let expired := lineage.filter fun row => row.IsExpired (cutoff now days)
        if dryRun then
          let estimated := if faults.countFails then 0 else expired.length
          (.ok ⟨"postgresql", estimated, skipped, true⟩, lineage)
        else
          match faults.write with
          | .committed =>
            (.ok ⟨"postgresql", expired.length, skipped, false⟩,
              lineage.filter fun row => ¬ row.IsExpired (cutoff now days))
          | .failed _ none => (.ok ⟨"postgresql", 0, skipped, false⟩, lineage)
          | .failed _ (some e) => (.error (.database e), lineage)

/-- The time before which a purge deletes, if it deletes. -/
def deletesBefore (now : ℕ) (tier : String) (dryRun : Bool) (faults : PurgeFaults) : Option ℤ :=
  match M.config.lookup tier, dryRun, faults.write with
  | some (some days), false, .committed =>
    if tier ∈ idleTiers then none else some (cutoff now days)
  | _, _, _ => none

/-- What is left after a purge. -/
theorem purgeExpired_snd (holds : List LegalHoldRecord) (lineage : List LineageRow) (now : ℕ)
    (tier : String) (dryRun : Bool) (faults : PurgeFaults) :
    (M.purgeExpired holds lineage now tier dryRun faults).2 =
      match M.deletesBefore now tier dryRun faults with
      | some c => lineage.filter fun row => ¬ row.IsExpired c
      | none => lineage := by
  unfold purgeExpired deletesBefore
  cases M.config.lookup tier with
  | none => rfl
  | some durationDays =>
    cases durationDays with
    | none => dsimp only; split_ifs <;> rfl
    | some days =>
      cases dryRun with
      | true => simp only [if_true]; split_ifs <;> rfl
      | false =>
        simp only [Bool.false_eq_true, if_false]
        cases faults.write with
        | committed => dsimp only; split_ifs <;> rfl
        | failed e rollback => cases rollback <;> dsimp only <;> split_ifs <;> rfl

end RetentionManager

/-! ### Runs -/

/-- The clock, the holds, the lineage rows and the requests. -/
structure RetentionState where
  now : ℕ
  holds : List LegalHoldRecord
  lineage : List LineageRow
  requests : DsarTable

/-- One step of a run. In a fulfillment the legal hold manager answers as its query does. -/
inductive Action where
  | advance (elapsed : ℕ)
  | activate (hold : LegalHoldRecord) (write : Write)
  | release (holdId releasedBy : String) (readable : Bool) (write : Write)
  | purge (tier : String) (dryRun : Bool) (faults : PurgeFaults)
  | fulfill (id fulfilledBy : String) (faults : FulfillFaults) (holdCheckFails : Bool)

variable (M : RetentionManager) (W : DsarWorkflow)

/-- A fulfillment in a state. -/
def fulfillIn (s : RetentionState) (id fulfilledBy : String) (faults : FulfillFaults)
    (holdCheckFails : Bool) : Outcome DsarResult :=
  W.fulfillRequest s.requests id fulfilledBy s.now
    { faults with
      holdAnswer := (s.requests id).map fun row =>
        isOnHold s.holds s.now row.tenantId (some row.subjectId) holdCheckFails }

/-- One step. -/
def step (s : RetentionState) : Action → RetentionState
  | .advance elapsed => { s with now := s.now + elapsed }
  | .activate hold write => { s with holds := (activateHold s.holds hold s.now write).2 }
  | .release holdId releasedBy readable write =>
    { s with holds := (releaseHold s.holds holdId releasedBy s.now readable write).2 }
  | .purge tier dryRun faults =>
    { s with lineage := (M.purgeExpired s.holds s.lineage s.now tier dryRun faults).2 }
  | .fulfill id fulfilledBy faults holdCheckFails =>
    { s with requests := (fulfillIn W s id fulfilledBy faults holdCheckFails).table }

/-- What a step acts upon. -/
def acted (s : RetentionState) : Action → List Acted
  | .fulfill id fulfilledBy faults holdCheckFails =>
    (fulfillIn W s id fulfilledBy faults holdCheckFails).acted
  | _ => []

/-- The turn of one tier in a scheduled purge: the time since the one before, and what fails. -/
structure TierTurn where
  elapsed : ℕ := 0
  faults : PurgeFaults := {}

/-- `run_scheduled_purge`: the tiers with a duration, one after the other. -/
def runScheduledPurge : List (String × Option ℤ) → List TierTurn → RetentionState →
    Except PurgeError (List PurgeResult) × RetentionState
  | [], _, s => (.ok [], s)
  | (_, none) :: tiers, turns, s => runScheduledPurge tiers turns s
  | (tier, some _) :: tiers, turns, s =>
    let turn := turns.headD {}
    let s := { s with now := s.now + turn.elapsed }
    match M.purgeExpired s.holds s.lineage s.now tier false turn.faults with
    | (.error e, lineage) => (.error e, { s with lineage := lineage })
    | (.ok result, lineage) =>
      let (rest, s) := runScheduledPurge tiers turns.tail { s with lineage := lineage }
      (rest.map (result :: ·), s)

/-- The steps of a scheduled purge. -/
def scheduledActions : List (String × Option ℤ) → List TierTurn → RetentionState → List Action
  | [], _, _ => []
  | (_, none) :: tiers, turns, s => scheduledActions tiers turns s
  | (tier, some _) :: tiers, turns, s =>
    let turn := turns.headD {}
    let s := { s with now := s.now + turn.elapsed }
    .advance turn.elapsed :: .purge tier false turn.faults ::
      match M.purgeExpired s.holds s.lineage s.now tier false turn.faults with
      | (.error _, _) => []
      | (.ok _, lineage) => scheduledActions tiers turns.tail { s with lineage := lineage }

/-- A call of a run: one step, or a scheduled purge. -/
inductive RetentionCall where
  | act (action : Action)
  | scheduledPurge (turns : List TierTurn)

/-- The steps of a call. -/
def RetentionCall.actions (s : RetentionState) : RetentionCall → List Action
  | .act action => [action]
  | .scheduledPurge turns => scheduledActions M M.config turns s

/-- The steps of the calls of a run. -/
def runActions (s : RetentionState) : List RetentionCall → List Action
  | [] => []
  | call :: calls =>
    let actions := call.actions M s
    actions ++ runActions (Runs.exec (step M W) s actions) calls

/-! ### What is kept -/

/-- **Holds are kept.** A step removes no lineage row and erases no subject on hold, and a purge
that deletes leaves no expired row that is not on hold. -/
structure Kept (s : RetentionState) (action : Action) : Prop where
  purged : ∀ row ∈ s.lineage, row ∉ (step M W s action).lineage →
    ¬ Held s.holds s.now row.tenantId row.id
  erased : ∀ act ∈ acted W s action, act.service = .erase →
    ¬ Held s.holds s.now act.tenantId act.subjectId
  resumed : ∀ tier dryRun faults cutoff, action = .purge tier dryRun faults →
    M.deletesBefore s.now tier dryRun faults = some cutoff →
      ∀ row ∈ s.lineage, row.IsExpired cutoff → ¬ Held s.holds s.now row.tenantId row.id →
        row ∉ (step M W s action).lineage

/-- Nothing on hold is in the way of a step: no expired row where a purge deletes, and no subject of
an erasure where the legal hold manager is missing or its query fails. -/
def Harmless (s : RetentionState) : Action → Prop
  | .purge tier dryRun faults => ∀ cutoff, M.deletesBefore s.now tier dryRun faults = some cutoff →
    ∀ row ∈ s.lineage, row.IsExpired cutoff → ¬ Held s.holds s.now row.tenantId row.id
  | .fulfill id _ faults holdCheckFails => ∀ row, faults.readable = true →
    s.requests id = some row → row.requestType = .erasure → W.hasErasureService = true →
      (W.hasLegalHoldManager = true → holdCheckFails = true) →
        ¬ Held s.holds s.now row.tenantId row.subjectId
  | _ => True

variable {M W} {s : RetentionState}

theorem kept_of_unchanged {action : Action}
    (hlineage : (step M W s action).lineage = s.lineage) (hacted : acted W s action = [])
    (hpurge : ∀ tier dryRun faults, action ≠ .purge tier dryRun faults) : Kept M W s action where
  purged row hrow hgone := absurd (hlineage ▸ hrow) hgone
  erased act hact := by
    rw [hacted] at hact
    cases hact
  resumed tier dryRun faults _ haction := absurd haction (hpurge tier dryRun faults)

/-- **A purge** deletes what is expired, on hold or not. -/
theorem kept_purge_iff {tier : String} {dryRun : Bool} {faults : PurgeFaults} :
    Kept M W s (.purge tier dryRun faults) ↔ Harmless M W s (.purge tier dryRun faults) := by
  have hstep : (step M W s (.purge tier dryRun faults)).lineage =
      match M.deletesBefore s.now tier dryRun faults with
      | some c => s.lineage.filter fun row => ¬ row.IsExpired c
      | none => s.lineage := M.purgeExpired_snd s.holds s.lineage s.now tier dryRun faults
  constructor
  · intro h cutoff hcutoff row hrow hexpired
    refine h.purged row hrow fun hmem => ?_
    rw [hstep, hcutoff] at hmem
    exact absurd hexpired (by simpa using (List.mem_filter.mp hmem).2)
  · intro h
    refine ⟨fun row hrow hgone => ?_, fun act hact => absurd hact List.not_mem_nil, ?_⟩
    · rw [hstep] at hgone
      cases hcutoff : M.deletesBefore s.now tier dryRun faults with
      | none =>
        rw [hcutoff] at hgone
        exact absurd hrow hgone
      | some cutoff =>
        rw [hcutoff] at hgone
        refine h cutoff hcutoff row hrow (not_not.mp fun hexpired => hgone ?_)
        exact List.mem_filter.mpr ⟨hrow, by simpa using hexpired⟩
    · rintro tier' dryRun' faults' cutoff haction hcutoff row - hexpired - hmem
      cases haction
      rw [hstep, hcutoff] at hmem
      exact absurd hexpired (by simpa using (List.mem_filter.mp hmem).2)

/-- The erasure service is called for a request for erasure, unless the manager says that its
subject is on hold. -/
theorem calledService_eq_erase_iff {row : DsarRequest} {faults : FulfillFaults} :
    calledService W row faults = some .erase ↔
      row.requestType = .erasure ∧ W.hasErasureService = true ∧
        (W.hasLegalHoldManager = true → faults.holdAnswer.getD false = false) := by
  unfold calledService DsarWorkflow.service DsarWorkflow.onHold
  cases row.requestType with
  | erasure =>
    cases W.hasErasureService <;> cases W.hasLegalHoldManager <;> simp
  | restriction => cases W.hasRestrictionService <;> simp
  | rectification => simp
  | portability => simp
  | access => simp

/-- **A fulfillment** erases a subject on hold where the hold is not looked up. -/
theorem kept_fulfill_iff {id fulfilledBy : String} {faults : FulfillFaults}
    {holdCheckFails : Bool} :
    Kept M W s (.fulfill id fulfilledBy faults holdCheckFails) ↔
      Harmless M W s (.fulfill id fulfilledBy faults holdCheckFails) := by
  constructor
  · intro h row hread hrow htype hservice hunchecked
    refine h.erased ⟨id, .erase, row.tenantId, row.subjectId⟩ (mem_acted_iff.mpr ?_) rfl
    refine ⟨hread, row, hrow, .erase, calledService_eq_erase_iff.mpr ⟨htype, hservice, ?_⟩, rfl⟩
    intro hmanager
    rw [hrow, hunchecked hmanager]
    rfl
  · intro h
    refine ⟨fun row hrow hgone => absurd hrow hgone, fun act hact herase hheld => ?_, ?_⟩
    · obtain ⟨hread, row, hrow, service, hcalled, rfl⟩ := mem_acted_iff.mp hact
      obtain rfl : service = .erase := herase
      obtain ⟨htype, hservice, hanswer⟩ := calledService_eq_erase_iff.mp hcalled
      refine h row hread hrow htype hservice (fun hmanager => ?_) hheld
      -- a query that does not fail finds the hold, and nothing is erased
      by_contra hfails
      have hno := hanswer hmanager
      rw [hrow, Bool.eq_false_iff.mpr hfails, Option.map_some, Option.getD_some,
        isOnHold_of_held hheld] at hno
      cases hno
    · intro tier dryRun faults cutoff haction
      cases haction

/-- **One step** keeps the holds if and only if nothing on hold is in its way. -/
theorem kept_iff (s : RetentionState) (action : Action) :
    Kept M W s action ↔ Harmless M W s action := by
  cases action with
  | advance elapsed =>
    exact iff_of_true (kept_of_unchanged rfl rfl fun _ _ _ h => by cases h) trivial
  | activate hold write =>
    exact iff_of_true (kept_of_unchanged rfl rfl fun _ _ _ h => by cases h) trivial
  | release holdId releasedBy readable write =>
    exact iff_of_true (kept_of_unchanged rfl rfl fun _ _ _ h => by cases h) trivial
  | purge tier dryRun faults => exact kept_purge_iff
  | fulfill id fulfilledBy faults holdCheckFails => exact kept_fulfill_iff

/-- **Every run** keeps the holds if and only if nothing on hold is in the way of any of its
steps. -/
theorem holds_kept_iff (M : RetentionManager) (W : DsarWorkflow) (s : RetentionState)
    (calls : List RetentionCall) :
    Runs.Along (step M W) (Kept M W) s (runActions M W s calls) ↔
      Runs.Along (step M W) (Harmless M W) s (runActions M W s calls) :=
  Runs.along_congr (I := fun _ => True) (fun _ _ _ _ => trivial)
    (fun s action _ => kept_iff s action) trivial

/-- A state with a row that is older than ninety days. -/
def agedState : RetentionState where
  now := 100 * 86400000000
  holds := []
  lineage := [⟨"lin_1", "acme", some 0⟩]
  requests _ := none

/-- A hold of a tenant. -/
def tenantHold : LegalHoldRecord where
  id := "hold_1"
  tenantId := "acme"
  reason := "litigation"
  activatedBy := "counsel"
  activatedAt := 0

/-- **Purged on hold.** A tenant is put on hold, and the scheduled purge deletes its row. -/
theorem not_holds_kept :
    ¬ ∀ (M : RetentionManager) (W : DsarWorkflow) (s : RetentionState)
      (calls : List RetentionCall),
      Runs.Along (step M W) (Kept M W) s (runActions M W s calls) := by
  intro h
  have hrun := h ⟨retentionTiers, true⟩ ⟨true, true, true⟩ agedState
    [.act (.activate tenantHold .committed), .scheduledPurge []]
  have hpurge := hrun.2.2.1.purged ⟨"lin_1", "acme", some 0⟩ (List.mem_singleton_self _)
    (by decide +kernel)
  exact hpurge ⟨{ tenantHold with activatedAt := 100 * 86400000000 }, List.mem_singleton_self _,
    ⟨rfl, fun e he => by cases he⟩, rfl, Or.inl rfl⟩

end AnonReq.Retention
