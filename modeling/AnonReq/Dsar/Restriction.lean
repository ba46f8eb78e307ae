import AnonReq.Dsar.Workflow
import AnonReq.Foundation.Characters

/-!
# Restricted subjects

`DataRestrictionService` of `dsar/restriction.py`: a table of restrictions with a cache in front of
it, both by the identifier of the subject alone. Cache entries expire, and any call may fail.

* `Faithful` says of a call that it answers what the table holds, and that restricting a subject or
  removing its restriction leaves the subjects of other tenants alone.
* `Safe` says that the table is read where it must be, that no entry is read that the table does not
  bear out, and that what changes an answer concerns one tenant only.
* `restrictions_faithful_iff`: a run is faithful if and only if all of its calls are safe.
* `borneOut_exec`: entries are borne out as long as no removal leaves one behind.
* `not_restrictions_faithful`: the table cannot be read.
-/

namespace AnonReq.Dsar

/-! ### The service -/

/-- A row of `subject_restriction`. -/
structure RestrictionRow where
  tenantId : String
  subjectId : String
  restrictedAt : ℕ
  restrictedBy : String := "dsar_workflow"

/-- The table, and the subjects whose cache entry has not expired. -/
structure Restrictions where
  rows : List RestrictionRow
  cached : List String

/-- What fails in a check: the read of the cache, or the query. -/
structure CheckFaults where
  cacheReads : Bool := true
  tableReads : Bool := true

/-- How a write to the cache ends: where it fails it may have been carried out. -/
inductive CacheWrite where
  | done
  | failed (carriedOut : Bool)

/-- The write is carried out. -/
def CacheWrite.carriedOut : CacheWrite → Bool
  | .done => true
  | .failed carriedOut => carriedOut

namespace Restrictions

/-- The table has a restriction of a subject. -/
def Holds (s : Restrictions) (subjectId : String) : Prop :=
  ∃ row ∈ s.rows, row.subjectId = subjectId

instance (s : Restrictions) (subjectId : String) : Decidable (s.Holds subjectId) :=
  inferInstanceAs (Decidable (∃ row ∈ s.rows, _))

/-- `is_subject_restricted`. -/
def isSubjectRestricted (s : Restrictions) (subjectId : String) (faults : CheckFaults) : Bool :=
  (faults.cacheReads && s.cached.contains subjectId) ||
    (faults.tableReads && decide (s.Holds subjectId))

/-- `restrict_subject`. -/
def restrictSubject (s : Restrictions) (row : RestrictionRow) (check : CheckFaults) (write : Write)
    (cacheWrite : CacheWrite) : Except DsarError Bool × Restrictions :=
  if s.isSubjectRestricted row.subjectId check then (.ok false, s)
  else
    match write with
    | .committed =>
      (.ok true,
        { rows := s.rows ++ [row]
          cached := if cacheWrite.carriedOut then row.subjectId :: s.cached else s.cached })
    | .failed e none => (.error (.runtimeError ("Failed to restrict subject: " ++ e)), s)
    | .failed _ (some e) => (.error (.database e), s)

/-- The cache entry of a subject is deleted, or has expired. -/
def uncache (s : Restrictions) (subjectId : String) : Restrictions :=
  { s with cached := s.cached.filter fun x => x != subjectId }

/-- `remove_restriction`. -/
def removeRestriction (s : Restrictions) (subjectId : String) (write : Write)
    (cacheWrite : CacheWrite) : Except DsarError Bool × Restrictions :=
  let uncached : Restrictions → Restrictions := fun s =>
    if cacheWrite.carriedOut then s.uncache subjectId else s
  match write with
  | .committed =>
    (.ok (decide (s.Holds subjectId)),
      uncached { s with rows := s.rows.filter fun row => row.subjectId != subjectId })
  | .failed _ none => (.ok false, uncached s)
  | .failed _ (some e) => (.error (.database e), s)

end Restrictions

/-- A call for a subject of a tenant, or the expiry of a cache entry. Only a restriction is told the
tenant. -/
inductive RestrictionCall where
  | restrict (row : RestrictionRow) (check : CheckFaults) (write : Write) (cacheWrite : CacheWrite)
  | remove (tenantId subjectId : String) (write : Write) (cacheWrite : CacheWrite)
  | check (tenantId subjectId : String) (faults : CheckFaults)
  | expire (subjectId : String)

namespace Restrictions

/-- One call. -/
def step (s : Restrictions) : RestrictionCall → Restrictions
  | .restrict row check write cacheWrite => (s.restrictSubject row check write cacheWrite).2
  | .remove _ subjectId write cacheWrite => (s.removeRestriction subjectId write cacheWrite).2
  | .check .. => s
  | .expire subjectId => s.uncache subjectId

/-- What a check answers when nothing fails. -/
def Answers (s : Restrictions) (subjectId : String) : Prop :=
  s.isSubjectRestricted subjectId {} = true

variable (population : String → String → Prop)

/-- A tenant other than the given one has a subject with the identifier. -/
def Shared (tenantId subjectId : String) : Prop :=
  ∃ other, other ≠ tenantId ∧ population other subjectId

/-- **The restrictions are what they claim to be.** A check says whether the table holds a
restriction of the subject, and what is done for a tenant does not change the answer for a subject
of another tenant. -/
def Faithful (s : Restrictions) : RestrictionCall → Prop
  | .check _ subjectId faults =>
    (s.isSubjectRestricted subjectId faults = false → ¬ s.Holds subjectId) ∧
      (s.isSubjectRestricted subjectId faults = true → s.Holds subjectId)
  | .restrict row check write cacheWrite =>
    ∀ other, other ≠ row.tenantId → population other row.subjectId →
      ((s.step (.restrict row check write cacheWrite)).Answers row.subjectId ↔
        s.Answers row.subjectId)
  | .remove tenantId subjectId write cacheWrite =>
    ∀ other, other ≠ tenantId → population other subjectId →
      ((s.step (.remove tenantId subjectId write cacheWrite)).Answers subjectId ↔
        s.Answers subjectId)
  | .expire _ => True

/-- An entry that is read is borne out by the table, and the table is read where it holds a
restriction that no entry tells of. No other tenant has the subject that is restricted, unless it is
restricted already or cannot be stored; and none has the subject whose restriction is removed,
unless nothing told of it or something still does. -/
def Safe (s : Restrictions) : RestrictionCall → Prop
  | .check _ subjectId faults =>
    (faults.cacheReads = true → subjectId ∈ s.cached → s.Holds subjectId) ∧
      (faults.tableReads = false → s.Holds subjectId →
        faults.cacheReads = true ∧ subjectId ∈ s.cached)
  | .restrict row _ write _ =>
    Shared population row.tenantId row.subjectId →
      write = .committed → row.subjectId ∈ s.cached ∨ s.Holds row.subjectId
  | .remove tenantId subjectId write cacheWrite =>
    Shared population tenantId subjectId → ¬ write.Surfaces →
      (subjectId ∈ s.cached → cacheWrite.carriedOut = true →
        s.Holds subjectId ∧ write ≠ .committed) ∧
      (s.Holds subjectId → write = .committed →
        subjectId ∈ s.cached ∧ cacheWrite.carriedOut = false)
  | .expire _ => True

/-! ### Answers -/

variable {population} {s : Restrictions} {subjectId : String}

theorem isSubjectRestricted_iff {faults : CheckFaults} :
    s.isSubjectRestricted subjectId faults = true ↔
      (faults.cacheReads = true ∧ subjectId ∈ s.cached) ∨
        (faults.tableReads = true ∧ s.Holds subjectId) := by
  simp [isSubjectRestricted]

theorem answers_iff : s.Answers subjectId ↔ subjectId ∈ s.cached ∨ s.Holds subjectId := by
  rw [Answers, isSubjectRestricted_iff]
  simp

theorem mem_cached_uncache_iff {other : String} :
    other ∈ (s.uncache subjectId).cached ↔ other ∈ s.cached ∧ other ≠ subjectId := by
  simp [uncache]

theorem not_holds_filter (cached : List String) :
    ¬ Holds ⟨s.rows.filter fun row => row.subjectId != subjectId, cached⟩ subjectId := by
  rintro ⟨row, hrow, rfl⟩
  simpa using (List.mem_filter.mp hrow).2

/-- **A check** is faithful if and only if what it reads is borne out, and it reads enough. -/
theorem faithful_check_iff {tenantId : String} {faults : CheckFaults} :
    s.Faithful population (.check tenantId subjectId faults) ↔
      s.Safe population (.check tenantId subjectId faults) := by
  rw [Faithful, Safe, ← Bool.not_eq_true, isSubjectRestricted_iff]
  constructor
  · rintro ⟨hfalse, htrue⟩
    refine ⟨fun hreads hmem => htrue (Or.inl ⟨hreads, hmem⟩), fun hreads hholds => ?_⟩
    by_contra hnot
    refine hfalse (fun h => ?_) hholds
    -- the answer is yes for the cache alone, as the table is not read
    obtain h | h := h
    · exact hnot h
    · rw [hreads] at h
      cases h.1
  · rintro ⟨hborne, hreads⟩
    refine ⟨fun hnot hholds => hnot ?_, fun h => h.elim (fun h => hborne h.1 h.2) fun h => h.2⟩
    cases htable : faults.tableReads with
    | true => exact Or.inr ⟨rfl, hholds⟩
    | false => exact Or.inl (hreads htable hholds)

/-- What restricting a subject does to the answer. -/
theorem answers_restrict_iff {row : RestrictionRow} {check : CheckFaults} {write : Write}
    {cacheWrite : CacheWrite} :
    (s.step (.restrict row check write cacheWrite)).Answers row.subjectId ↔
      s.Answers row.subjectId ∨ write = .committed := by
  have hstep : s.step (.restrict row check write cacheWrite) =
      (s.restrictSubject row check write cacheWrite).2 := rfl
  rw [hstep]
  unfold restrictSubject
  by_cases hrestricted : s.isSubjectRestricted row.subjectId check = true
  · rw [if_pos hrestricted]
    have hanswers : s.Answers row.subjectId := by
      rw [answers_iff]
      exact (isSubjectRestricted_iff.mp hrestricted).imp (fun h => h.2) fun h => h.2
    exact iff_of_true hanswers (Or.inl hanswers)
  · rw [if_neg hrestricted]
    match write with
    | .committed =>
      refine iff_of_true (answers_iff.mpr (Or.inr ⟨row, ?_, rfl⟩)) (Or.inr rfl)
      exact List.mem_append_right _ (List.mem_singleton_self row)
    | .failed e none => simp
    | .failed e (some e') => simp

/-- What removing a restriction does to the answer. -/
theorem answers_remove_iff {tenantId : String} {write : Write} {cacheWrite : CacheWrite} :
    (s.step (.remove tenantId subjectId write cacheWrite)).Answers subjectId ↔
      (subjectId ∈ s.cached ∧ (cacheWrite.carriedOut = false ∨ write.Surfaces)) ∨
        (s.Holds subjectId ∧ write ≠ .committed) := by
  have hstep : s.step (.remove tenantId subjectId write cacheWrite) =
      (s.removeRestriction subjectId write cacheWrite).2 := rfl
  rw [hstep, answers_iff]
  unfold removeRestriction
  match write with
  | .committed =>
    have hnot := Write.not_surfaces_committed
    cases hcarried : cacheWrite.carriedOut with
    | true =>
      have hgone := @not_holds_filter s subjectId (s.cached.filter fun x => x != subjectId)
      simp [uncache, hnot, hgone]
    | false =>
      have hgone := @not_holds_filter s subjectId s.cached
      simp [hgone]
  | .failed e none =>
    have hnot : ¬ (Write.failed e none).Surfaces := fun ⟨e', e'', h⟩ => by cases h
    have hholds : (s.uncache subjectId).Holds subjectId ↔ s.Holds subjectId := Iff.rfl
    cases hcarried : cacheWrite.carriedOut with
    | true => simp [mem_cached_uncache_iff, hnot, hholds]
    | false => simp
  | .failed e (some e') =>
    have hsurfaces : (Write.failed e (some e')).Surfaces := ⟨e, e', rfl⟩
    simp [hsurfaces]

/-- When an answer that has two grounds, each of which may be taken away, stays the same. -/
theorem remove_keeps_iff {cached holds uncached removed : Prop} :
    ((cached ∧ ¬ uncached) ∨ (holds ∧ ¬ removed) ↔ cached ∨ holds) ↔
      (cached → uncached → holds ∧ ¬ removed) ∧ (holds → removed → cached ∧ ¬ uncached) := by
  by_cases hcached : cached
  · by_cases hholds : holds
    · by_cases huncached : uncached <;> simp [hcached, hholds, huncached]
    · by_cases huncached : uncached <;> simp [hcached, hholds, huncached]
  · simp [hcached]

/-! ### Runs -/

/-- **One call** is faithful if and only if it is safe. -/
theorem faithful_iff (s : Restrictions) (call : RestrictionCall) :
    s.Faithful population call ↔ s.Safe population call := by
  cases call with
  | check tenantId subjectId faults => exact faithful_check_iff
  | expire subjectId => exact Iff.rfl
  | restrict row check write cacheWrite =>
    rw [Faithful, Safe, answers_restrict_iff, ← answers_iff]
    constructor
    · rintro h ⟨other, hne, hmem⟩ hwrite
      exact (h other hne hmem).mp (Or.inr hwrite)
    · intro h other hne hmem
      exact ⟨fun hanswer => hanswer.elim id fun hwrite => h ⟨other, hne, hmem⟩ hwrite, Or.inl⟩
  | remove tenantId subjectId write cacheWrite =>
    rw [Faithful, Safe, answers_remove_iff, answers_iff]
    by_cases hsurfaces : write.Surfaces
    · have hnot : write ≠ .committed := fun h => Write.not_surfaces_committed (h ▸ hsurfaces)
      simp [hsurfaces, hnot]
    · have hcarried : cacheWrite.carriedOut = false ↔ ¬ cacheWrite.carriedOut = true :=
        (Bool.not_eq_true _).symm.to_iff
      simp only [hsurfaces, or_false, not_false_eq_true, true_imp_iff, hcarried]
      constructor
      · rintro h ⟨other, hne, hmem⟩
        exact remove_keeps_iff.mp (h other hne hmem)
      · intro h other hne hmem
        exact remove_keeps_iff.mpr (h ⟨other, hne, hmem⟩)

/-- **Every run** is faithful if and only if all of its calls are safe, from any table and any
cache, for every population. -/
theorem restrictions_faithful_iff (population : String → String → Prop) (s : Restrictions)
    (calls : List RestrictionCall) :
    Runs.Along step (Faithful population) s calls ↔ Runs.Along step (Safe population) s calls :=
  Runs.along_congr (I := fun _ => True) (fun _ _ _ _ => trivial)
    (fun s call _ => faithful_iff s call) trivial

/-! ### Entries without a restriction -/

/-- Every cache entry tells of a restriction in the table. -/
def BorneOut (s : Restrictions) : Prop := ∀ subjectId ∈ s.cached, s.Holds subjectId

/-- A removal that empties the table deletes the cache entry as well. -/
def CleansUp : Restrictions → RestrictionCall → Prop
  | s, .remove _ subjectId write cacheWrite =>
    write = .committed → subjectId ∈ s.cached → cacheWrite.carriedOut = true
  | _, _ => True

/-- What a deleted row was for is not what is left in the cache. -/
theorem holds_filter {other : String} {cached : List String} (hne : other ≠ subjectId)
    (h : s.Holds other) :
    Holds ⟨s.rows.filter fun row => row.subjectId != subjectId, cached⟩ other := by
  obtain ⟨row, hrow, rfl⟩ := h
  exact ⟨row, List.mem_filter.mpr ⟨hrow, bne_iff_ne.mpr hne⟩, rfl⟩

theorem borneOut_uncache (h : s.BorneOut) (subjectId : String) : (s.uncache subjectId).BorneOut :=
  fun _ hmem => h _ (mem_cached_uncache_iff.mp hmem).1

/-- A restriction is stored before its entry is written. -/
theorem borneOut_restrictSubject (h : s.BorneOut) (row : RestrictionRow) (check : CheckFaults)
    (write : Write) (cacheWrite : CacheWrite) :
    (s.restrictSubject row check write cacheWrite).2.BorneOut := by
  unfold restrictSubject
  by_cases hrestricted : s.isSubjectRestricted row.subjectId check = true
  · rw [if_pos hrestricted]
    exact h
  · rw [if_neg hrestricted]
    match write with
    | .committed =>
      have hrow : ∀ other, other ∈ s.cached ∨ other = row.subjectId →
          ∃ r ∈ s.rows ++ [row], r.subjectId = other := by
        rintro other (hmem | rfl)
        · obtain ⟨r, hr, hsubject⟩ := h other hmem
          exact ⟨r, List.mem_append_left _ hr, hsubject⟩
        · exact ⟨row, List.mem_append_right _ (List.mem_singleton_self row), rfl⟩
      intro other hmem
      refine hrow other ?_
      dsimp only at hmem
      split_ifs at hmem
      · exact (List.mem_cons.mp hmem).symm
      · exact Or.inl hmem
    | .failed e none => exact h
    | .failed e (some e') => exact h

theorem borneOut_removeRestriction (h : s.BorneOut) {subjectId : String} {write : Write}
    {cacheWrite : CacheWrite}
    (hclean : write = .committed → subjectId ∈ s.cached → cacheWrite.carriedOut = true) :
    (s.removeRestriction subjectId write cacheWrite).2.BorneOut := by
  unfold removeRestriction
  match write with
  | .committed =>
    intro other hmem
    dsimp only at hmem ⊢
    -- an entry that is left is one of another subject
    have hleft : other ∈ s.cached ∧ other ≠ subjectId := by
      split_ifs at hmem with hcarried
      · exact mem_cached_uncache_iff.mp hmem
      · exact ⟨hmem, fun heq => hcarried (hclean rfl (heq ▸ hmem))⟩
    split_ifs
    · exact holds_filter hleft.2 (h other hleft.1)
    · exact holds_filter hleft.2 (h other hleft.1)
  | .failed e none =>
    dsimp only
    split_ifs
    · exact borneOut_uncache h subjectId
    · exact h
  | .failed e (some e') => exact h

/-- **One call** leaves the entries borne out, unless it is a removal that leaves one behind. -/
theorem borneOut_step {call : RestrictionCall} (h : s.BorneOut) (hclean : s.CleansUp call) :
    (s.step call).BorneOut := by
  cases call with
  | check tenantId subjectId faults => exact h
  | expire subjectId => exact borneOut_uncache h subjectId
  | restrict row check write cacheWrite =>
    exact borneOut_restrictSubject h row check write cacheWrite
  | remove tenantId subjectId write cacheWrite => exact borneOut_removeRestriction h hclean

/-- **In every run** whose removals leave no entry behind, the entries are borne out. -/
theorem borneOut_exec {calls : List RestrictionCall} (h : s.BorneOut)
    (hclean : Runs.Along step CleansUp s calls) : (Runs.exec step s calls).BorneOut :=
  hclean.exec_of_step (fun _ _ hborne hcall => borneOut_step hborne hcall) h

/-- A restriction that is checked after its entry has expired, and removed. -/
theorem borneOut_exec_removed :
    (Runs.exec step ⟨[], []⟩
      [.restrict { tenantId := "acme", subjectId := "bob", restrictedAt := 0 } {} .committed .done,
        .expire "bob", .check "acme" "bob" {}, .remove "acme" "bob" .committed .done]).BorneOut :=
  borneOut_exec (fun _ hmem => absurd hmem List.not_mem_nil)
    ⟨trivial, trivial, trivial, fun _ _ => rfl, trivial⟩

/-! ### A run that is not faithful -/

/-- **Not restricted.** A subject is restricted and checked after its cache entry has expired, while
the table cannot be read. -/
theorem not_restrictions_faithful :
    ¬ ∀ (population : String → String → Prop) (calls : List RestrictionCall),
      Runs.Along step (Faithful population) ⟨[], []⟩ calls := by
  intro h
  have hrun := h (fun _ _ => False)
    [.restrict { tenantId := "acme", subjectId := "bob", restrictedAt := 0 } {} .committed .done,
      .expire "bob", .check "acme" "bob" { tableReads := false }]
  exact hrun.2.2.1.1 (by decide) (by decide)

end Restrictions

end AnonReq.Dsar
