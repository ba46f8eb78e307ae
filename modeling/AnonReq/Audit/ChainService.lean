import AnonReq.Audit.Event

/-!
# The audit chain service

`AuditChainService` of `services/audit_chain.py`: `store_event` links an event to the newest
event of its tenant and inserts it; `verify_chain` walks the rows of a tenant in id order.

* `storeEvent` returns the result of the call and the table after it. `storeEvent_of_stored` is
  a retry, `storeEvent_cases` says what becomes of the table.
* `verifyLoop` is the loop of `verify_chain`. `verifyLoop_of_verified` and
  `verified_of_verifyLoop` say that it reports an intact chain exactly when every row can be
  read and the entries are `Verified` in the sense of `HashChain`.
-/

namespace AnonReq.Audit

open HashChain

/-! ### The table -/

/-- The table `audit_event`: its rows and the next value of the `id` sequence. -/
structure Database where
  dialect : Dialect
  rows : List Row := []
  nextId : ℕ := 1

/-- `ORDER BY id ASC`. -/
def orderById (rows : List Row) : List Row :=
  rows.mergeSort fun a b => decide (a.id ≤ b.id)

/-- `SELECT * … WHERE tenant_id = :tenant_id ORDER BY id ASC`. -/
def tenantRows (rows : List Row) (tenantId : String) : List Row :=
  orderById (rows.filter fun row => decide (row.tenantId = tenantId))

/-- `SELECT * … WHERE tenant_id = :tenant_id AND id >= :from_id ORDER BY id ASC`; without the
second condition when `from_id` is absent. -/
def tenantRowsFrom (rows : List Row) (tenantId : String) : Option ℤ → List Row
  | none => tenantRows rows tenantId
  | some fromId => orderById
      (rows.filter fun row => decide (row.tenantId = tenantId ∧ fromId ≤ row.id))

/-- The row an event becomes. -/
def newRow (dialect : Dialect) (id : ℕ) (event : AuditEvent) : Row :=
  { event.toColumns.withTimestamp (dialect.bind event.timestamp) with
    id := id, hash := event.hash, retentionDays := event.retentionDays }

/-- `INSERT INTO audit_event …`. -/
def Database.insert (db : Database) (event : AuditEvent) : Database :=
  { db with
    rows := db.rows ++ [newRow db.dialect db.nextId event]
    nextId := db.nextId + 1 }

/-! ### `store_event` -/

/-- The event of the last row, if there is a row. -/
def lastEvent (rows : List Row) : Except String (Option AuditEvent) :=
  match rows.getLast? with
  | none => .ok none
  | some row => (rowToEvent row).map some

/-- `_get_latest_event_in_session`: the last row of the tenant in id order. -/
def getLatestEvent (rows : List Row) (tenantId : String) : Except String (Option AuditEvent) :=
  lastEvent (tenantRows rows tenantId)

/-- `SELECT hash, prev_hash … WHERE event_id = :event_id`. -/
def findStored (rows : List Row) (eventId : String) : Option Row :=
  rows.find? fun row => decide (row.eventId = eventId)

/-- Set `prev_hash` to the hash of the latest event, then the hash. -/
def linkEvent (H : List (String × Json) → String) (event : AuditEvent)
    (latest : Option AuditEvent) : AuditEvent :=
  let linked := { event with prevHash := latest.map AuditEvent.hash }
  { linked with hash := computeEventHash H linked }

/-- `store_event`: its result (an error is the text of the `ValueError`) and the table. -/
def storeEvent (H : List (String × Json) → String) (db : Database) (event : AuditEvent) :
    Except String AuditEvent × Database :=
  if event.hash ≠ "" then
    (.error "Event already has a hash; cannot re-store", db)
  else
    match getLatestEvent db.rows event.tenantId with
    | .error message => (.error message, db)
    | .ok latest =>
      match findStored db.rows event.eventId with
      | some row => (.ok { event with hash := row.hash, prevHash := row.prevHash }, db)
      | none =>
        let stored := linkEvent H event latest
        (.ok stored, db.insert stored)

/-! ### `verify_chain` -/

/-- `ChainVerificationResult`. -/
structure ChainVerificationResult where
  isIntact : Bool
  brokenAt : Option ℕ := none
  checkedCount : ℕ := 0
deriving DecidableEq

/-- The loop of `verify_chain`. A previous hash is compared once there is one, that is from the
second row on. -/
def verifyLoop (H : List (String × Json) → String) :
    List Row → ℕ → Option String → Except String ChainVerificationResult
  | [], checked, _ => .ok { isIntact := true, checkedCount := checked }
  | row :: rest, checked, previousExpectedHash =>
    match rowToEvent row with
    | .error message => .error message
    | .ok event =>
      let expected := computeEventHash H event
      if row.hash ≠ expected then
        .ok { isIntact := false, brokenAt := some row.id, checkedCount := checked }
      else if previousExpectedHash ≠ none ∧ row.prevHash ≠ previousExpectedHash then
        .ok { isIntact := false, brokenAt := some row.id, checkedCount := checked }
      else
        verifyLoop H rest (checked + 1) (some expected)

/-- `verify_chain`. -/
def verifyChain (H : List (String × Json) → String) (rows : List Row) (tenantId : String)
    (fromId : Option ℤ := none) : Except String ChainVerificationResult :=
  verifyLoop H (tenantRowsFrom rows tenantId fromId) 0 none

/-! ### Rows and entries -/

/-- The rows can be read, as the entries `l`. -/
def Reads (rows : List Row) (l : List (Entry (Columns DateTime) String)) : Prop :=
  rows.map Row.toEntry = l.map some

theorem reads_nil : Reads [] [] := rfl

variable {l : List (Entry (Columns DateTime) String)} {rows : List Row}

theorem reads_cons_iff {row : Row} {e : Entry (Columns DateTime) String} :
    Reads (row :: rows) (e :: l) ↔ row.toEntry = some e ∧ Reads rows l := by
  simp [Reads]

theorem Reads.append {rows rows' : List Row} {l l' : List (Entry (Columns DateTime) String)}
    (h : Reads rows l) (h' : Reads rows' l') : Reads (rows ++ rows') (l ++ l') := by
  rw [Reads, List.map_append, List.map_append, h, h']

theorem Reads.length_eq (h : Reads rows l) : rows.length = l.length := by
  simpa using congrArg List.length h

theorem Reads.getElem? (h : Reads rows l) (i : ℕ) : rows[i]?.map Row.toEntry = l[i]?.map some := by
  rw [← List.getElem?_map, ← List.getElem?_map, h]

/-- The entries of the last rows are the last entries. -/
theorem Reads.of_suffix {rows part : List Row} (h : Reads rows l) (hp : part <:+ rows) :
    ∃ l', Reads part l' ∧ l' <:+ l := by
  obtain ⟨front, rfl⟩ := hp
  rw [Reads, List.map_append] at h
  obtain ⟨l₁, l₂, rfl, -, h₂⟩ := List.map_eq_append_iff.mp h.symm
  exact ⟨l₂, h₂.symm, List.suffix_append l₁ l₂⟩

/-! ### What `verify_chain` checks -/

variable {H : List (String × Json) → String}

/-- **Completeness of the verifier.** Verified entries are reported intact, and counted. -/
theorem verifyLoop_of_verified :
    ∀ {l : List (Entry (Columns DateTime) String)} {checked : ℕ} {previous : Option String},
      Reads rows l → (scheme H).Verified l →
      (previous ≠ none → ∀ e ∈ l.head?, e.content.prevHash = previous) →
      verifyLoop H rows checked previous =
        .ok { isIntact := true, checkedCount := checked + rows.length } := by
  induction rows with
  | nil => intro l checked previous _ _ _; rfl
  | cons row rows ih =>
    intro l checked previous hreads hverified hprev
    obtain ⟨e, l, rfl⟩ : ∃ e l', l = e :: l' := by
      refine List.exists_cons_of_ne_nil fun hnil => ?_
      simp [Reads, hnil] at hreads
    obtain ⟨he, hreads⟩ := reads_cons_iff.mp hreads
    obtain ⟨event, hevent, hcontent, hhash⟩ := Row.toEntry_eq_some_iff.mp he
    have hseal : row.hash = computeEventHash H event := by
      rw [hhash, computeEventHash, hcontent]
      exact hverified.isSealed e List.mem_cons_self
    have hlink : ¬ (previous ≠ none ∧ row.prevHash ≠ previous) := by
      rintro ⟨hsome, hne⟩
      rw [(Row.prevHash_of_toEntry he).1] at hne
      exact hne (hprev hsome e rfl)
    have htail : (scheme H).Verified l := hverified.of_isInfix (List.suffix_cons e l).isInfix
    rw [verifyLoop, hevent]
    simp only [ne_eq, hseal, not_true_eq_false, if_false]
    rw [if_neg hlink, ih hreads htail fun _ a ha => ?_, List.length_cons]
    · rw [Nat.add_assoc, Nat.add_comm 1]
    · have hfollows : (scheme H).Follows e a :=
        (List.isChain_cons.mp hverified.linked).1 a ha
      rw [← hseal, hhash]
      exact hfollows

/-- **Soundness of the verifier.** If a chain is reported intact every row can be read and the
entries are verified; the first of them links to the previous hash, if there is one. -/
theorem verified_of_verifyLoop :
    ∀ {checked : ℕ} {previous : Option String} {result : ChainVerificationResult},
      verifyLoop H rows checked previous = .ok result → result.isIntact = true →
      ∃ l, Reads rows l ∧ (scheme H).Verified l ∧
        (previous ≠ none → ∀ e ∈ l.head?, e.content.prevHash = previous) := by
  induction rows with
  | nil =>
    intro checked previous result _ _
    exact ⟨[], reads_nil, Scheme.chain_nil.toVerified, fun _ e he => by simp at he⟩
  | cons row rows ih =>
    intro checked previous result hloop hintact
    rw [verifyLoop] at hloop
    rcases hevent : rowToEvent row with message | event
    · simp [hevent] at hloop
    · rw [hevent] at hloop
      simp only at hloop
      split_ifs at hloop with hseal hlink
      · obtain rfl := Except.ok.inj hloop
        simp at hintact
      · obtain rfl := Except.ok.inj hloop
        simp at hintact
      · obtain ⟨l, hreads, hverified, hhead⟩ := ih hloop hintact
        have he : row.toEntry = some ⟨event.toColumns, row.hash⟩ :=
          Row.toEntry_eq_some_iff.mpr ⟨event, hevent, rfl, rfl⟩
        have hseal : row.hash = computeEventHash H event := not_not.mp hseal
        refine ⟨_, reads_cons_iff.mpr ⟨he, hreads⟩, ⟨fun a ha => ?_, ?_⟩, fun hsome a ha => ?_⟩
        · rcases List.mem_cons.mp ha with rfl | ha
          · exact hseal
          · exact hverified.isSealed a ha
        · refine List.isChain_cons.mpr ⟨fun a ha => ?_, hverified.linked⟩
          refine (hhead (Option.some_ne_none _) a ha).trans ?_
          rw [hseal]
        · obtain rfl : (⟨event.toColumns, row.hash⟩ : Entry _ _) = a := by simpa using ha
          rw [← (Row.prevHash_of_toEntry he).1]
          by_contra hne
          exact hlink ⟨hsome, hne⟩

/-- The verifier returns a result when every row can be read. -/
theorem exists_verifyLoop_eq_ok :
    ∀ {l : List (Entry (Columns DateTime) String)} {checked : ℕ} {previous : Option String},
      Reads rows l → ∃ result, verifyLoop H rows checked previous = .ok result := by
  induction rows with
  | nil => intro l checked previous _; exact ⟨_, rfl⟩
  | cons row rows ih =>
    intro l checked previous hreads
    obtain ⟨e, l, rfl⟩ : ∃ e l', l = e :: l' := by
      refine List.exists_cons_of_ne_nil fun hnil => ?_
      simp [Reads, hnil] at hreads
    obtain ⟨he, hreads⟩ := reads_cons_iff.mp hreads
    obtain ⟨event, hevent, -, -⟩ := Row.toEntry_eq_some_iff.mp he
    rw [verifyLoop, hevent]
    simp only
    split_ifs
    · exact ⟨_, rfl⟩
    · exact ⟨_, rfl⟩
    · exact ih hreads

/-! ### The two ways to store an event -/

theorem findStored_eq_none_iff {eventId : String} :
    findStored rows eventId = none ↔ eventId ∉ rows.map fun row => row.eventId := by
  simp [findStored]

/-- A retry returns the hashes of the stored row and changes nothing. -/
theorem storeEvent_of_stored {db : Database} {event : AuditEvent} {latest : Option AuditEvent}
    {row : Row} (hhash : event.hash = "")
    (hlatest : getLatestEvent db.rows event.tenantId = .ok latest)
    (hrow : findStored db.rows event.eventId = some row) :
    storeEvent H db event =
      (.ok { event with hash := row.hash, prevHash := row.prevHash }, db) := by
  simp [storeEvent, hhash, hlatest, hrow]

/-- `store_event` leaves the table alone or inserts the linked event. -/
theorem storeEvent_cases (H : List (String × Json) → String) (db : Database)
    (event : AuditEvent) :
    (storeEvent H db event).2 = db ∨
      ∃ latest, getLatestEvent db.rows event.tenantId = .ok latest ∧
        findStored db.rows event.eventId = none ∧
        (storeEvent H db event).2 = db.insert (linkEvent H event latest) := by
  rw [storeEvent]
  split_ifs
  · exact Or.inl rfl
  · rcases hlatest : getLatestEvent db.rows event.tenantId with message | latest
    · exact Or.inl rfl
    · rcases hrow : findStored db.rows event.eventId with _ | row
      · exact Or.inr ⟨latest, rfl, rfl, rfl⟩
      · exact Or.inl rfl

end AnonReq.Audit
