import AnonReq.Retention.LegalHold
import Mathlib.Data.Fintype.EquivFin

/-!
# The queries for legal holds

`is_on_hold`, `list_active_holds` and `get_records_on_hold` of `retention/legal_hold.py` read one
table with predicates of their own. Each is compared with the holds that are active and cover the
tenant or the record, in every table.

* `recordQueryExact_iff`: asking for a record counts holds of the tenant on other records, and holds
  of other tenants that name the record.
* `tenantQueryExact_iff`: asking for a tenant counts the holds of its records.
* `holdListExact_iff`: the list of active holds has those that have expired.
* `recordListExact_iff`: the list of records has none that only the hold of the tenant covers.
* `queries_exact_iff` assembles the four.
* `not_queries_exact`: a record with the same name on hold for another tenant.
-/

namespace AnonReq.Retention

open Dsar

variable {holds : List LegalHoldRecord} {now : ℕ} {tenantId recordId : String}

/-! ### The lists -/

/-- The tenant filter of a list; without a tenant, or with an empty one, there is none. -/
def InTenant (tenantId : Option String) (hold : LegalHoldRecord) : Prop :=
  isGiven tenantId = true → tenantId = some hold.tenantId

instance (tenantId : Option String) (hold : LegalHoldRecord) :
    Decidable (InTenant tenantId hold) :=
  inferInstanceAs (Decidable (_ → _))

/-- The order `activated_at DESC`. -/
def newerFirst (a b : LegalHoldRecord) : Prop := b.activatedAt ≤ a.activatedAt

instance : DecidableRel newerFirst := fun a b =>
  inferInstanceAs (Decidable (b.activatedAt ≤ a.activatedAt))

/-- `list_active_holds`: the holds that are not released. A query that fails lists none. -/
def listActiveHolds (holds : List LegalHoldRecord) (tenantId : Option String) (fails : Bool) :
    List LegalHoldRecord :=
  if fails then []
  else
    (holds.filter fun hold => InTenant tenantId hold ∧ hold.releasedAt = none).insertionSort
      newerFirst

/-- `get_records_on_hold`: what the active holds of the records of a tenant name, where it is not
empty. A query that fails lists none. -/
def getRecordsOnHold (holds : List LegalHoldRecord) (now : ℕ) (tenantId : String) (fails : Bool) :
    List String :=
  if fails then []
  else
    (holds.filter fun hold =>
      hold.tenantId = tenantId ∧ hold.scope = .record ∧ hold.IsActive now).filterMap fun hold =>
        hold.recordId.filter fun r => r != ""

/-! ### What the queries should say -/

/-- A hold that is active covers the tenant. -/
def TenantHeld (holds : List LegalHoldRecord) (now : ℕ) (tenantId : String) : Prop :=
  ∃ hold ∈ holds, hold.IsActive now ∧ hold.tenantId = tenantId ∧ hold.scope = .tenant

/-- `is_on_hold(tenant_id, record_id)` says whether the record of the tenant is held. -/
def RecordQueryExact (holds : List LegalHoldRecord) (now : ℕ) (tenantId recordId : String) : Prop :=
  isOnHold holds now tenantId (some recordId) false = true ↔ Held holds now tenantId recordId

/-- `is_on_hold(tenant_id)` says whether the tenant is held. -/
def TenantQueryExact (holds : List LegalHoldRecord) (now : ℕ) (tenantId : String) : Prop :=
  isOnHold holds now tenantId none false = true ↔ TenantHeld holds now tenantId

/-- `list_active_holds` lists the active holds, each as often as it is there. -/
def HoldListExact (holds : List LegalHoldRecord) (now : ℕ) (tenantId : Option String) : Prop :=
  (listActiveHolds holds tenantId false).Perm
    (holds.filter fun hold => InTenant tenantId hold ∧ hold.IsActive now)

/-- `get_records_on_hold` lists the records of the tenant that are held. -/
def RecordListExact (holds : List LegalHoldRecord) (now : ℕ) (tenantId : String) : Prop :=
  ∀ recordId, recordId ≠ "" →
    (recordId ∈ getRecordsOnHold holds now tenantId false ↔ Held holds now tenantId recordId)

/-- A hold of the tenant that is for another record, or one of another tenant that names the
record. -/
def Stray (hold : LegalHoldRecord) (tenantId recordId : String) : Prop :=
  (hold.tenantId = tenantId ∧ hold.scope = .record ∧ hold.recordId ≠ some recordId) ∨
    (hold.tenantId ≠ tenantId ∧ recordId ≠ "" ∧ hold.recordId = some recordId)

/-! ### The queries one by one -/

/-- What a query counts. -/
theorem isOnHold_iff {asked : Option String} :
    isOnHold holds now tenantId asked false = true ↔
      ∃ hold ∈ holds, hold.IsActive now ∧
        (hold.tenantId = tenantId ∨ isGiven asked = true ∧ hold.recordId = asked) := by
  simp only [isOnHold, Bool.not_false, Bool.true_and, List.any_eq_true, Bool.and_eq_true,
    Bool.or_eq_true, beq_iff_eq, decide_eq_true_eq]
  exact exists_congr fun hold => and_congr_right fun _ => and_comm

/-- **Asking for a record** is exact if and only if no stray hold is active that stands alone. -/
theorem recordQueryExact_iff :
    RecordQueryExact holds now tenantId recordId ↔
      ∀ hold ∈ holds, hold.IsActive now → Stray hold tenantId recordId →
        Held holds now tenantId recordId := by
  have hgiven : isGiven (some recordId) = true ↔ recordId ≠ "" := by simp [isGiven]
  rw [RecordQueryExact, isOnHold_iff, hgiven]
  constructor
  · intro h hold hmem hactive hstray
    refine h.mp ⟨hold, hmem, hactive, ?_⟩
    exact hstray.imp (fun hown => hown.1) fun hother => hother.2
  · refine fun h => ⟨?_, fun hheld => ?_⟩
    · rintro ⟨hold, hmem, hactive, hcounted⟩
      by_cases hstray : Stray hold tenantId recordId
      · exact h hold hmem hactive hstray
      -- a hold that is counted and not stray is one of the tenant that covers the record
      · have htenant : hold.tenantId = tenantId := by
          by_contra hne
          exact hcounted.elim hne fun hnamed => hstray (Or.inr ⟨hne, hnamed⟩)
        refine ⟨hold, hmem, hactive, htenant, ?_⟩
        cases hscope : hold.scope with
        | tenant => exact Or.inl rfl
        | record =>
          refine Or.inr ⟨rfl, ?_⟩
          by_contra hne
          exact hstray (Or.inl ⟨htenant, hscope, hne⟩)
    · obtain ⟨hold, hmem, hactive, htenant, -⟩ := hheld
      exact ⟨hold, hmem, hactive, Or.inl htenant⟩

/-- **Asking for a tenant** is exact if and only if no hold of a record of the tenant is active
without one of the tenant. -/
theorem tenantQueryExact_iff :
    TenantQueryExact holds now tenantId ↔
      ∀ hold ∈ holds, hold.IsActive now → hold.tenantId = tenantId → hold.scope = .record →
        TenantHeld holds now tenantId := by
  rw [TenantQueryExact, isOnHold_iff]
  constructor
  · exact fun h hold hmem hactive htenant _ => h.mp ⟨hold, hmem, hactive, Or.inl htenant⟩
  · refine fun h => ⟨?_, fun hheld => ?_⟩
    · rintro ⟨hold, hmem, hactive, htenant | ⟨hgiven, -⟩⟩
      · cases hscope : hold.scope with
        | tenant => exact ⟨hold, hmem, hactive, htenant, hscope⟩
        | record => exact h hold hmem hactive htenant hscope
      · cases hgiven
    · obtain ⟨hold, hmem, hactive, htenant, -⟩ := hheld
      exact ⟨hold, hmem, hactive, Or.inl htenant⟩

/-- **The list of holds** is exact if and only if none of them has expired before it is released. -/
theorem holdListExact_iff {tenant : Option String} :
    HoldListExact holds now tenant ↔
      ∀ hold ∈ holds, InTenant tenant hold → hold.releasedAt = none →
        ∀ e ∈ hold.expiresAt, now < e := by
  rw [HoldListExact, listActiveHolds, if_neg Bool.false_ne_true]
  constructor
  · intro h hold hmem htenant hreleased
    have hlisted : hold ∈ (holds.filter fun hold =>
        InTenant tenant hold ∧ hold.releasedAt = none).insertionSort newerFirst := by
      rw [List.mem_insertionSort, List.mem_filter]
      exact ⟨hmem, decide_eq_true ⟨htenant, hreleased⟩⟩
    exact (of_decide_eq_true (List.mem_filter.mp (h.mem_iff.mp hlisted)).2).2.2
  · intro h
    have hfilters : (holds.filter fun hold => InTenant tenant hold ∧ hold.releasedAt = none) =
        holds.filter fun hold => InTenant tenant hold ∧ hold.IsActive now := by
      refine List.filter_congr fun hold hmem => decide_eq_decide.mpr ?_
      exact and_congr_right fun htenant =>
        ⟨fun hreleased => ⟨hreleased, h hold hmem htenant hreleased⟩, fun hactive => hactive.1⟩
    rw [hfilters]
    exact List.perm_insertionSort newerFirst _

/-- What the list of records has. -/
theorem mem_getRecordsOnHold_iff (hgiven : recordId ≠ "") :
    recordId ∈ getRecordsOnHold holds now tenantId false ↔
      ∃ hold ∈ holds, hold.IsActive now ∧ hold.tenantId = tenantId ∧ hold.scope = .record ∧
        hold.recordId = some recordId := by
  rw [getRecordsOnHold, if_neg Bool.false_ne_true, List.mem_filterMap]
  constructor
  · rintro ⟨hold, hmem, hfilter⟩
    obtain ⟨hmem, hkept⟩ := List.mem_filter.mp hmem
    obtain ⟨htenant, hscope, hactive⟩ := of_decide_eq_true hkept
    exact ⟨hold, hmem, hactive, htenant, hscope, (Option.filter_eq_some_iff.mp hfilter).1⟩
  · rintro ⟨hold, hmem, hactive, htenant, hscope, hrecord⟩
    refine ⟨hold, List.mem_filter.mpr ⟨hmem, decide_eq_true ⟨htenant, hscope, hactive⟩⟩, ?_⟩
    exact Option.filter_eq_some_iff.mpr ⟨hrecord, bne_iff_ne.mpr hgiven⟩

/-- There are more strings than a list has. -/
theorem exists_string_not_mem (strings : List String) : ∃ s, s ∉ strings := by
  have hinfinite : Infinite String :=
    Infinite.of_injective String.ofList fun a b h => String.ofList_injective h
  obtain ⟨s, hs⟩ := Infinite.exists_notMem_finset strings.toFinset
  exact ⟨s, fun h => hs (List.mem_toFinset.mpr h)⟩

/-- **The list of records** is exact if and only if the tenant as a whole is not held. -/
theorem recordListExact_iff :
    RecordListExact holds now tenantId ↔ ¬ TenantHeld holds now tenantId := by
  constructor
  · rintro h ⟨hold, hmem, hactive, htenant, hscope⟩
    -- a record that no hold names is held and not listed
    obtain ⟨r, hr⟩ := exists_string_not_mem ("" :: getRecordsOnHold holds now tenantId false)
    rw [List.mem_cons, not_or] at hr
    exact hr.2 ((h r hr.1).mpr ⟨hold, hmem, hactive, htenant, Or.inl hscope⟩)
  · intro hfree r hgiven
    rw [mem_getRecordsOnHold_iff hgiven]
    constructor
    · rintro ⟨hold, hmem, hactive, htenant, hrecord⟩
      exact ⟨hold, hmem, hactive, htenant, Or.inr hrecord⟩
    · rintro ⟨hold, hmem, hactive, htenant, hscope | hrecord⟩
      · exact absurd ⟨hold, hmem, hactive, htenant, hscope⟩ hfree
      · exact ⟨hold, hmem, hactive, htenant, hrecord⟩

/-! ### All queries -/

/-- The queries for a tenant and a record, and the lists, are exact. -/
structure QueriesExact (holds : List LegalHoldRecord) (now : ℕ) (tenantId recordId : String) :
    Prop where
  record : RecordQueryExact holds now tenantId recordId
  tenant : TenantQueryExact holds now tenantId
  holdsOfAll : HoldListExact holds now none
  holdsOfTenant : HoldListExact holds now (some tenantId)
  records : RecordListExact holds now tenantId

/-- **The queries are exact** each under its own condition, in every table and at every time. -/
theorem queries_exact_iff (holds : List LegalHoldRecord) (now : ℕ) (tenantId recordId : String)
    (tenant : Option String) :
    (RecordQueryExact holds now tenantId recordId ↔
      ∀ hold ∈ holds, hold.IsActive now → Stray hold tenantId recordId →
        Held holds now tenantId recordId) ∧
    (TenantQueryExact holds now tenantId ↔
      ∀ hold ∈ holds, hold.IsActive now → hold.tenantId = tenantId → hold.scope = .record →
        TenantHeld holds now tenantId) ∧
    (HoldListExact holds now tenant ↔
      ∀ hold ∈ holds, InTenant tenant hold → hold.releasedAt = none →
        ∀ e ∈ hold.expiresAt, now < e) ∧
    (RecordListExact holds now tenantId ↔ ¬ TenantHeld holds now tenantId) :=
  ⟨recordQueryExact_iff, tenantQueryExact_iff, holdListExact_iff, recordListExact_iff⟩

/-- A hold of one record. -/
def recordHold : LegalHoldRecord where
  id := "hold_1"
  tenantId := "globex"
  scope := .record
  recordId := some "rec_1"
  reason := "litigation"
  activatedBy := "counsel"
  activatedAt := 0

/-- **One name, two tenants.** A record of one tenant is put on hold, and the record of the same
name of a tenant without holds is said to be on hold. -/
theorem not_queries_exact :
    ¬ ∀ (holds : List LegalHoldRecord) (now : ℕ) (tenantId recordId : String),
      QueriesExact holds now tenantId recordId := by
  intro h
  have hrecord := (h (activateHold [] recordHold 0 .committed).2 1 "acme" "rec_1").record
  obtain ⟨hold, hmem, -, htenant, -⟩ := hrecord.mp (by decide)
  rw [List.mem_singleton.mp hmem] at htenant
  exact absurd htenant (by decide)

end AnonReq.Retention
