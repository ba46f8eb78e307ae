import AnonReq.Audit.Sequential

/-!
# Concurrent `store_event` transactions

The `store_event` transactions of one tenant on PostgreSQL at READ COMMITTED, one statement a
step. `SELECT … ORDER BY id DESC LIMIT 1 FOR UPDATE` works on the rows committed when it starts,
waits while another transaction holds the lock of the row it selected, and then returns that
same row; an empty result locks nothing. A row is in the table from its `INSERT` on, and visible
to others from the `COMMIT` on.

* `step` is one statement of one transaction, `none` when it has to wait or is finished; `exec`
  runs a schedule.
* `SeesAll` says of the transaction about to insert that its `SELECT` saw every row of the
  tenant that is in the table.
* `exec_chained`: a schedule all of whose steps meet `SeesAll` keeps the rows chained.
* `exec_forks`: two transactions that both start on an empty table do not meet it; they insert
  two first rows.
-/

namespace AnonReq.Audit

universe u

/-! ### Transactions -/

/-- The transactions `τ` of one tenant and what each has to store. -/
structure Setting (τ : Type u) where
  H : List (String × Json) → String
  tenantId : String
  event : τ → AuditEvent
  tenant_eq : ∀ t, (event t).tenantId = tenantId
  utc : ∀ t, (event t).timestamp.IsUtc

/-- How far a transaction has come. `seen` are the rows of the tenant that its `SELECT` saw, in
id order; the last of them is the row it selected. -/
inductive Phase where
  | idle
  | waiting (seen : List Row)
  | selected (seen : List Row) (latest : Option AuditEvent)
  | checked (seen : List Row) (latest : Option AuditEvent)
  | inserted (row : Row)
  | finished
  | aborted

/-- The database: the committed rows, the rows of open transactions, the `id` sequence, the
owners of the row locks; and the transactions. -/
structure State (τ : Type u) where
  committed : List Row
  pending : List (τ × Row) := []
  nextId : ℕ
  locks : ℕ → Option τ := fun _ => none
  phase : τ → Phase := fun _ => .idle

namespace State

variable {τ : Type u} [DecidableEq τ]

/-- No transaction has started. -/
def initial (db : Database) : State τ where
  committed := db.rows
  nextId := db.nextId

/-- Every row in the table, committed or not. -/
def table (s : State τ) : List Row := s.committed ++ s.pending.map Prod.snd

/-- Set the phase of a transaction. -/
def setPhase (s : State τ) (t : τ) (phase : Phase) : State τ :=
  { s with phase := Function.update s.phase t phase }

/-- End a transaction and release its locks. -/
def finish (s : State τ) (t : τ) (phase : Phase) : State τ :=
  { s.setPhase t phase with locks := fun id => if s.locks id = some t then none else s.locks id }

/-- The `SELECT` returns: the row is turned into an event, which may raise. -/
def select (s : State τ) (t : τ) (seen : List Row) : State τ :=
  match lastEvent seen with
  | .error _ => s.finish t .aborted
  | .ok latest => s.setPhase t (.selected seen latest)

/-- Take the lock of the selected row, if there is a row; `none` while it is held. -/
def acquire (s : State τ) (t : τ) (seen : List Row) : Option (State τ) :=
  match seen.getLast? with
  | none => some (s.select t seen)
  | some row =>
    if s.locks row.id = none then
      some ({ s with locks := Function.update s.locks row.id (some t) }.select t seen)
    else none

end State

section

variable {τ : Type u} [DecidableEq τ]

/-- One statement of transaction `t`. -/
def step (S : Setting τ) (s : State τ) (t : τ) : Option (State τ) :=
  match s.phase t with
  | .idle =>
    let seen := tenantRows s.committed S.tenantId
    match s.acquire t seen with
    | some s' => some s'
    | none => some (s.setPhase t (.waiting seen))
  | .waiting seen => s.acquire t seen
  | .selected seen latest =>
    match findStored s.committed (S.event t).eventId with
    | some _ => some (s.finish t .finished)
    | none => some (s.setPhase t (.checked seen latest))
  | .checked _ latest =>
    if (findStored s.committed (S.event t).eventId).isSome then
      -- the unique constraint on `event_id`
      some { s.finish t .aborted with nextId := s.nextId + 1 }
    else if s.pending.any fun p => decide (p.2.eventId = (S.event t).eventId) then
      none
    else
      let row := newRow .postgresql s.nextId (linkEvent S.H (S.event t) latest)
      some { s.setPhase t (.inserted row) with
        pending := s.pending ++ [(t, row)], nextId := s.nextId + 1 }
  | .inserted row =>
    some { s.finish t .finished with
      committed := s.committed ++ [row]
      pending := s.pending.filter fun p => decide (p.1 ≠ t) }
  | .finished => none
  | .aborted => none

/-- Run a schedule; `none` if it lets a transaction move that cannot. -/
def exec (S : Setting τ) : State τ → List τ → Option (State τ)
  | s, [] => some s
  | s, t :: schedule => (step S s t).bind fun s' => exec S s' schedule

/-- If transaction `t` is about to insert, every row of the tenant in the table was seen by its
`SELECT`: none was in flight then and none was inserted since. -/
def SeesAll (S : Setting τ) (s : State τ) (t : τ) : Prop :=
  ∀ seen latest, s.phase t = .checked seen latest →
    ∀ row ∈ s.table, row.tenantId = S.tenantId → row ∈ seen

/-- Every step of a schedule meets `SeesAll`. -/
def AllSeeAll (S : Setting τ) : State τ → List τ → Prop
  | _, [] => True
  | s, t :: schedule => SeesAll S s t ∧ ∀ s', step S s t = some s' → AllSeeAll S s' schedule

instance (S : Setting τ) (s : State τ) (t : τ) : Decidable (SeesAll S s t) :=
  match hphase : s.phase t with
  | .checked seen latest =>
    decidable_of_iff (∀ row ∈ s.table, row.tenantId = S.tenantId → row ∈ seen)
      ⟨fun h seen' latest' heq => by
        rw [hphase] at heq
        cases heq
        exact h, fun h => h seen latest hphase⟩
  | .idle | .waiting _ | .selected _ _ | .inserted _ | .finished | .aborted =>
    isTrue fun seen latest heq => by
      rw [hphase] at heq
      cases heq

instance (S : Setting τ) : (s : State τ) → (schedule : List τ) →
    Decidable (AllSeeAll S s schedule)
  | _, [] => isTrue trivial
  | s, t :: schedule =>
    have : ∀ s', Decidable (AllSeeAll S s' schedule) := fun s' =>
      instDecidableAllSeeAll S s' schedule
    inferInstanceAs (Decidable (SeesAll S s t ∧ ∀ s' ∈ step S s t, AllSeeAll S s' schedule))

/-! ### The invariant -/

/-- What holds of a transaction in each phase. -/
def PhaseOk (S : Setting τ) (s : State τ) (t : τ) : Phase → Prop
  | .idle | .finished | .aborted => True
  | .waiting seen => seen <+: tenantRows s.committed S.tenantId
  | .selected seen latest | .checked seen latest =>
    seen <+: tenantRows s.committed S.tenantId ∧ lastEvent seen = .ok latest
  | .inserted row => s.pending = [(t, row)]

/-- The phase is that of an open transaction that has inserted its row. -/
def Phase.isInserted : Phase → Bool
  | .inserted _ => true
  | _ => false

/-- The invariant of schedules that meet `SeesAll`: at most one row is uncommitted, and the rows
in the table are chained. -/
structure Consistent (S : Setting τ) (s : State τ) : Prop where
  increasing : Increasing s.table
  below : ∀ row ∈ s.table, row.id < s.nextId
  chained : Chained S.H (tenantRows s.table S.tenantId)
  pending : s.pending = [] ∨
    ∃ t row, s.pending = [(t, row)] ∧ s.phase t = .inserted row ∧ row.tenantId = S.tenantId
  phases : ∀ t, PhaseOk S s t (s.phase t)

variable {S : Setting τ} {s s' : State τ} {t : τ}

omit [DecidableEq τ] in
theorem consistent_initial {db : Database} (h : Inv S.H db) :
    Consistent S (State.initial db : State τ) where
  increasing := by simpa [State.table, State.initial] using h.increasing
  below := by simpa [State.table, State.initial] using h.below
  chained := by simpa [State.table, State.initial] using h.chained S.tenantId
  pending := Or.inl rfl
  phases := fun _ => trivial

omit [DecidableEq τ] in
theorem Consistent.increasing_committed (h : Consistent S s) : Increasing s.committed :=
  (List.pairwise_append.mp h.increasing).1

omit [DecidableEq τ] in
/-- What holds of a transaction that has not inserted survives further commits. -/
theorem PhaseOk.mono {phase : Phase} (h : PhaseOk S s t phase)
    (hrows : tenantRows s.committed S.tenantId <+: tenantRows s'.committed S.tenantId)
    (hpending : phase.isInserted = true → s'.pending = s.pending) : PhaseOk S s' t phase := by
  cases phase with
  | idle | finished | aborted => trivial
  | waiting seen => exact List.IsPrefix.trans h hrows
  | selected seen latest | checked seen latest => exact ⟨h.1.trans hrows, h.2⟩
  | inserted row => exact (hpending rfl).trans h

/-- One transaction changes its phase, the others keep theirs. -/
theorem phaseOk_update {phases : τ → Phase} {phase : Phase} (ht : PhaseOk S s t phase)
    (hother : ∀ t', t' ≠ t → PhaseOk S s t' (phases t')) (t' : τ) :
    PhaseOk S s t' (Function.update phases t phase t') := by
  by_cases heq : t' = t
  · rw [heq, Function.update_self]
    exact ht
  · rw [Function.update_of_ne heq]
    exact hother t' heq

/-- A step that neither inserts nor commits. -/
theorem Consistent.update (h : Consistent S s) (phase : Phase) (hphase : PhaseOk S s t phase)
    (hold : (s.phase t).isInserted = false) {nextId : ℕ} (hid : s.nextId ≤ nextId)
    (locks : ℕ → Option τ) :
    Consistent S { s with
      nextId := nextId, locks := locks, phase := Function.update s.phase t phase } where
  increasing := h.increasing
  below := fun row hrow => Nat.lt_of_lt_of_le (h.below row hrow) hid
  chained := h.chained
  pending := by
    refine h.pending.imp id fun ⟨t', row, hpending, hphase', htenant⟩ =>
      ⟨t', row, hpending, ?_, htenant⟩
    have hne : t' ≠ t := fun heq => by
      rw [← heq, hphase'] at hold
      cases hold
    exact (Function.update_of_ne hne phase s.phase).trans hphase'
  phases := phaseOk_update (hphase.mono (List.prefix_refl _) fun _ => rfl) fun t' _ =>
    (h.phases t').mono (List.prefix_refl _) fun _ => rfl

theorem Consistent.setPhase (h : Consistent S s) (phase : Phase) (hphase : PhaseOk S s t phase)
    (hold : (s.phase t).isInserted = false) : Consistent S (s.setPhase t phase) :=
  h.update phase hphase hold (Nat.le_refl s.nextId) s.locks

theorem Consistent.finish (h : Consistent S s) (phase : Phase) (hphase : PhaseOk S s t phase)
    (hold : (s.phase t).isInserted = false) : Consistent S (s.finish t phase) :=
  h.update phase hphase hold (Nat.le_refl s.nextId) _

/-- A prefix of an increasing list that holds all of its members is the list. -/
private theorem eq_of_prefix_of_subset {rows seen : List Row} (hinc : Increasing rows)
    (hfront : seen <+: rows) (hall : ∀ row ∈ rows, row ∈ seen) : seen = rows := by
  obtain ⟨rest, rfl⟩ := hfront
  rcases rest with _ | ⟨row, rest⟩
  · exact (List.append_nil seen).symm
  · have hseen : row ∈ seen := hall row (by simp)
    have hlt := (List.pairwise_append.mp hinc).2.2 row hseen row List.mem_cons_self
    exact absurd hlt (Nat.lt_irrefl row.id)

omit [DecidableEq τ] in
/-- A transaction that saw every row of the tenant saw the committed ones, and there are no
others. -/
theorem Consistent.of_seesAll (h : Consistent S s) {seen : List Row}
    (hfront : seen <+: tenantRows s.committed S.tenantId)
    (hall : ∀ row ∈ s.table, row.tenantId = S.tenantId → row ∈ seen) :
    s.pending = [] ∧ seen = tenantRows s.committed S.tenantId := by
  rw [tenantRows_of_increasing h.increasing_committed] at hfront ⊢
  have hsub : ∀ row ∈ seen, row ∈ s.committed := fun row hrow =>
    (List.mem_filter.mp (hfront.subset hrow)).1
  refine ⟨h.pending.resolve_right fun ⟨t', row, hpending, _, htenant⟩ => ?_,
    eq_of_prefix_of_subset (h.increasing_committed.filter _) hfront fun row hrow => ?_⟩
  · -- an uncommitted row was seen, so it would be committed too
    have hrow : row ∈ s.table := by simp [State.table, hpending]
    have hlt := (List.pairwise_append.mp h.increasing).2.2 row (hsub row (hall row hrow htenant))
      row (by simp [hpending])
    exact absurd hlt (Nat.lt_irrefl row.id)
  · obtain ⟨hmem, htenant⟩ := List.mem_filter.mp hrow
    exact hall row (List.mem_append_left _ hmem) (of_decide_eq_true htenant)

/-- The `INSERT` of a transaction that saw every row. -/
theorem Consistent.insert (h : Consistent S s) {seen : List Row} {latest : Option AuditEvent}
    (hphase : s.phase t = .checked seen latest) (hsees : SeesAll S s t) :
    Consistent S { s.setPhase t
        (.inserted (newRow .postgresql s.nextId (linkEvent S.H (S.event t) latest))) with
      pending := s.pending ++
        [(t, newRow .postgresql s.nextId (linkEvent S.H (S.event t) latest))]
      nextId := s.nextId + 1 } := by
  have hok := h.phases t
  rw [hphase] at hok
  obtain ⟨hnone, hseen⟩ := h.of_seesAll hok.1 (hsees seen latest hphase)
  have htable : s.table = s.committed := by simp [State.table, hnone]
  have hbelow : ∀ row ∈ s.committed, row.id < s.nextId := fun row hrow =>
    h.below row (htable ▸ hrow)
  obtain ⟨row, hrow⟩ : ∃ row,
      row = newRow .postgresql s.nextId (linkEvent S.H (S.event t) latest) := ⟨_, rfl⟩
  have hid : row.id = s.nextId := hrow ▸ rfl
  have htenant : row.tenantId = S.tenantId := hrow ▸ S.tenant_eq t
  have hincreasing : Increasing (s.committed ++ [row]) :=
    List.pairwise_append.mpr ⟨h.increasing_committed, List.pairwise_singleton _ _,
      fun a ha b hb => List.mem_singleton.mp hb ▸ hid ▸ hbelow a ha⟩
  have hchained : Chained S.H (tenantRows (s.committed ++ [row]) S.tenantId) := by
    rw [← htenant, tenantRows_concat_of_eq hincreasing, htenant, hrow]
    exact (htable ▸ h.chained).concat .postgresql s.nextId (S.utc t)
      (hseen ▸ hash_of_lastEvent hok.2)
  rw [← hrow, hnone, List.nil_append]
  refine ⟨hincreasing, fun a ha => ?_, hchained,
    Or.inr ⟨t, row, rfl, Function.update_self .., htenant⟩,
    phaseOk_update rfl fun t' _ => (h.phases t').mono (List.prefix_refl _) fun hinserted => ?_⟩
  · rcases List.mem_append.mp ha with ha | ha
    · exact Nat.lt_succ_of_lt (hbelow a ha)
    · have heq : a = row := by simpa using ha
      rw [heq, hid]
      exact Nat.lt_succ_self s.nextId
  · -- no other transaction has a row in the table
    have hother := h.phases t'
    rcases hp : s.phase t' with _ | _ | _ | _ | row' <;> rw [hp] at hother hinserted
    case inserted =>
      rw [PhaseOk, hnone] at hother
      cases hother
    all_goals cases hinserted

/-- The `COMMIT` of an inserted row. -/
theorem Consistent.commit (h : Consistent S s) {row : Row} (hphase : s.phase t = .inserted row) :
    Consistent S { s.finish t .finished with
      committed := s.committed ++ [row]
      pending := s.pending.filter fun p => decide (p.1 ≠ t) } := by
  have hpending : s.pending = [(t, row)] := by
    have hok := h.phases t
    rwa [hphase] at hok
  have htable : s.table = s.committed ++ [row] := by simp [State.table, hpending]
  have hsame : ({ s.finish t .finished with
      committed := s.committed ++ [row], pending := [] } : State τ).table = s.table := by
    simp [State.table, hpending]
  have hnone : (s.pending.filter fun p => decide (p.1 ≠ t)) = [] := by simp [hpending]
  have hgrow : tenantRows s.committed S.tenantId <+:
      tenantRows (s.committed ++ [row]) S.tenantId := by
    rw [tenantRows_of_increasing h.increasing_committed,
      tenantRows_of_increasing (htable ▸ h.increasing), List.filter_append]
    exact List.prefix_append _ _
  rw [hnone]
  refine ⟨hsame ▸ h.increasing, fun a ha => h.below a (hsame ▸ ha), hsame ▸ h.chained, Or.inl rfl,
    phaseOk_update trivial fun t' hne => (h.phases t').mono hgrow fun hinserted => ?_⟩
  have hother := h.phases t'
  rcases hp : s.phase t' with _ | _ | _ | _ | row' <;> rw [hp] at hother hinserted
  case inserted =>
    rw [PhaseOk, hpending, List.cons.injEq, Prod.mk.injEq] at hother
    exact absurd hother.1.1.symm hne
  all_goals cases hinserted

/-- The `SELECT` of a transaction, once it has its lock. -/
theorem Consistent.select (h : Consistent S s) {seen : List Row}
    (hseen : seen <+: tenantRows s.committed S.tenantId) (hold : (s.phase t).isInserted = false) :
    Consistent S (s.select t seen) := by
  rw [State.select]
  rcases hlast : lastEvent seen with message | latest
  · exact h.finish .aborted trivial hold
  · exact h.setPhase (.selected seen latest) ⟨hseen, hlast⟩ hold

theorem Consistent.acquire (h : Consistent S s) {seen : List Row}
    (hseen : seen <+: tenantRows s.committed S.tenantId) (hold : (s.phase t).isInserted = false)
    (hacquire : s.acquire t seen = some s') : Consistent S s' := by
  rw [State.acquire] at hacquire
  rcases hlast : seen.getLast? with _ | row
  · rw [hlast] at hacquire
    obtain rfl := Option.some.inj hacquire
    exact h.select hseen hold
  · rw [hlast] at hacquire
    simp only [Option.ite_none_right_eq_some, Option.some.injEq] at hacquire
    obtain ⟨-, rfl⟩ := hacquire
    have hlocked : Consistent S
        { s with locks := Function.update s.locks row.id (some t) } :=
      ⟨h.increasing, h.below, h.chained, h.pending, h.phases⟩
    exact hlocked.select hseen hold

/-- **Step.** A step that meets `SeesAll` keeps the invariant. -/
theorem Consistent.step (h : Consistent S s) (hsees : SeesAll S s t)
    (hstep : step S s t = some s') : Consistent S s' := by
  rw [Audit.step] at hstep
  rcases hphase : s.phase t with _ | seen | ⟨seen, latest⟩ | ⟨seen, latest⟩ | row | _ | _
  all_goals
    have hok := h.phases t
    rw [hphase] at hok
    simp only [hphase] at hstep
  case idle =>
    have hold : (s.phase t).isInserted = false := by rw [hphase]; rfl
    rcases hacquire : s.acquire t (tenantRows s.committed S.tenantId) with _ | s''
    · rw [hacquire] at hstep
      obtain rfl := Option.some.inj hstep
      exact h.setPhase (.waiting _) (List.prefix_refl _) hold
    · rw [hacquire] at hstep
      obtain rfl := Option.some.inj hstep
      exact h.acquire (List.prefix_refl _) hold hacquire
  case waiting => exact h.acquire hok (by rw [hphase]; rfl) hstep
  case selected =>
    have hold : (s.phase t).isInserted = false := by rw [hphase]; rfl
    rcases hfound : findStored s.committed (S.event t).eventId with _ | row
    · rw [hfound] at hstep
      obtain rfl := Option.some.inj hstep
      exact h.setPhase (.checked seen latest) hok hold
    · rw [hfound] at hstep
      obtain rfl := Option.some.inj hstep
      exact h.finish .finished trivial hold
  case checked =>
    split_ifs at hstep
    · obtain rfl := Option.some.inj hstep
      exact h.update .aborted trivial (by rw [hphase]; rfl) (Nat.le_succ s.nextId) _
    · obtain rfl := Option.some.inj hstep
      exact h.insert hphase hsees
  case inserted =>
    obtain rfl := Option.some.inj hstep
    exact h.commit hphase
  case finished => cases hstep
  case aborted => cases hstep

theorem Consistent.exec {schedule : List τ} (h : Consistent S s)
    (hsees : AllSeeAll S s schedule) (hexec : exec S s schedule = some s') :
    Consistent S s' := by
  induction schedule generalizing s with
  | nil =>
    obtain rfl := Option.some.inj hexec
    exact h
  | cons t schedule ih =>
    obtain ⟨s₁, hstep, hrest⟩ := Option.bind_eq_some_iff.mp hexec
    exact ih (h.step hsees.1 hstep) (hsees.2 s₁ hstep) hrest

omit [DecidableEq τ] in
/-- The committed rows of the tenant are a front part of its rows in the table. -/
theorem Consistent.chained_committed (h : Consistent S s) :
    Chained S.H (tenantRows s.committed S.tenantId) := by
  refine h.chained.of_prefix ?_
  rw [tenantRows_of_increasing h.increasing_committed, tenantRows_of_increasing h.increasing,
    State.table, List.filter_append]
  exact List.prefix_append _ _

/-- **Chain under concurrency.** Start from a table with the invariant of `store_event` and let
the transactions of a tenant run in any order in which every transaction that inserts has seen
all rows of the tenant in the table. Then the committed rows of the tenant form one chain in id
order, and `verify_chain` reports it intact. -/
theorem exec_chained (S : Setting τ) {db : Database} (hdb : Inv S.H db) (schedule : List τ)
    (hsees : AllSeeAll S (State.initial db) schedule) {s' : State τ}
    (hexec : exec S (State.initial db) schedule = some s') :
    (tenantRows s'.committed S.tenantId).IsChain (fun a b => b.prevHash = some a.hash) ∧
    (∀ row ∈ (tenantRows s'.committed S.tenantId).head?, row.prevHash = none) ∧
    verifyChain S.H s'.committed S.tenantId = .ok
      { isIntact := true, checkedCount := (tenantRows s'.committed S.tenantId).length } := by
  have hchained := ((consistent_initial hdb).exec hsees hexec).chained_committed
  exact ⟨hchained.linked.1, hchained.linked.2, hchained.verifyLoop_suffix (List.suffix_refl _)⟩

end

/-! ### Two transactions -/

/-- Two transactions of one tenant, with an event each. -/
def sampleSetting : Setting Bool where
  H := sampleHash
  tenantId := "acme"
  event t := if t then sampleEvent "e1" "acme" else sampleEvent "e2" "acme"
  tenant_eq := by decide
  utc t := by cases t <;> rfl

/-- One transaction after the other: the second reads the row of the first. -/
theorem exec_chained_sampleSetting :
    ∃ s' : State Bool,
      exec sampleSetting (State.initial { dialect := .postgresql })
        [true, true, true, true, false, false, false, false] = some s' ∧
      verifyChain sampleHash s'.committed "acme" = .ok
        { isIntact := true, checkedCount := (tenantRows s'.committed "acme").length } := by
  have hsees : AllSeeAll sampleSetting (State.initial { dialect := .postgresql })
      [true, true, true, true, false, false, false, false] := by
    decide +kernel
  have hexec : (exec sampleSetting (State.initial { dialect := .postgresql })
      [true, true, true, true, false, false, false, false]).isSome = true := by
    decide +kernel
  obtain ⟨s', hs'⟩ := Option.isSome_iff_exists.mp hexec
  exact ⟨s', hs', (exec_chained sampleSetting (inv_empty .postgresql)
    [true, true, true, true, false, false, false, false] hsees hs').2.2⟩

/-- The row of a first event. -/
def sampleFirst (id : ℕ) (eventId : String) : Row :=
  newRow .postgresql id (linkEvent sampleHash (sampleEvent eventId "acme") none)

/-- Both transactions select from the empty table, so there is no row to lock. Both then insert
a first row, and the chain is broken at the second. -/
theorem exec_forks :
    ∃ s' : State Bool,
      exec sampleSetting (State.initial { dialect := .postgresql })
        [true, false, true, true, true, false, false, false] = some s' ∧
      (∀ t, s'.phase t = .finished) ∧
      s'.committed = [sampleFirst 1 "e1", sampleFirst 2 "e2"] ∧
      verifyChain sampleHash s'.committed "acme" =
        .ok { isIntact := false, brokenAt := some 2, checkedCount := 1 } := by
  have hincreasing : Increasing [sampleFirst 1 "e1", sampleFirst 2 "e2"] :=
    List.pairwise_pair.mpr (by decide)
  have hverify : verifyChain sampleHash [sampleFirst 1 "e1", sampleFirst 2 "e2"] "acme" =
      .ok { isIntact := false, brokenAt := some 2, checkedCount := 1 } := by
    rw [verifyChain, tenantRowsFrom, tenantRows_of_increasing hincreasing]
    simp [verifyLoop, sampleFirst, sampleEvent, newRow, linkEvent, rowToEvent, decodeTimestamp,
      Dialect.bind, Columns.withTimestamp, computeEventHash, bind, Except.bind, pure, Except.pure]
  have hexec : ∃ s' : State Bool,
      exec sampleSetting (State.initial { dialect := .postgresql })
        [true, false, true, true, true, false, false, false] = some s' ∧
      (∀ t, s'.phase t = .finished) ∧
      s'.committed = [sampleFirst 1 "e1", sampleFirst 2 "e2"] := by
    simp [exec, step, State.initial, State.acquire, State.select, State.finish, State.setPhase,
      sampleSetting, sampleEvent, sampleFirst, tenantRows, orderById, lastEvent, findStored,
      newRow, linkEvent, Columns.withTimestamp, Function.update]
  obtain ⟨s', hexec, hphase, hrows⟩ := hexec
  exact ⟨s', hexec, hphase, hrows, by rw [hrows, hverify]⟩

end AnonReq.Audit
