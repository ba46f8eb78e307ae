import AnonReq.Audit.ChainService
import Mathlib.Data.List.Nodup

/-!
# Sequential runs of `store_event`

The invariant of the audit table under a sequence of `store_event` calls, over any tenants and
with any retries.

* `Chained` says that rows can be read and are the entries of a chain; `Chained.concat` that
  linking an event to the last row extends it, `Chained.verifyLoop_suffix` that the verifier
  accepts every final part of it.
* `Inv` is the table invariant, `Inv.storeEvent` its step lemma and `inv_run` the run lemma.
* `run_sequential_invariant` reads the properties of the service off it.
-/

namespace AnonReq.Audit

open HashChain

variable {H : List (String × Json) → String}

/-! ### Chained rows -/

/-- The rows can be read, and their entries form a chain. -/
def Chained (H : List (String × Json) → String) (rows : List Row) : Prop :=
  ∃ l, Reads rows l ∧ (scheme H).Chain l

theorem chained_nil : Chained H [] := ⟨[], reads_nil, Scheme.chain_nil⟩

/-- The row of an event with a timestamp in UTC reads back as the event. -/
theorem toEntry_newRow (dialect : Dialect) (id : ℕ) {event : AuditEvent}
    (hutc : event.timestamp.IsUtc) :
    (newRow dialect id event).toEntry = some ⟨event.toColumns, event.hash⟩ := by
  have hdecode : decodeTimestamp (newRow dialect id event).timestamp = .ok event.timestamp :=
    decodeTimestamp_bind dialect hutc
  rw [Row.toEntry, hdecode]
  rfl

variable {rows : List Row}

/-- Linking an event to the last row extends the chain. -/
theorem Chained.concat (h : Chained H rows) (dialect : Dialect) (id : ℕ) {event : AuditEvent}
    (hutc : event.timestamp.IsUtc) {latest : Option AuditEvent}
    (hlatest : latest.map AuditEvent.hash = rows.getLast?.map Row.hash) :
    Chained H (rows ++ [newRow dialect id (linkEvent H event latest)]) := by
  obtain ⟨l, hreads, hchain⟩ := h
  have hlast : rows.getLast?.map Row.hash = l.getLast?.map Entry.hash := by
    rcases List.eq_nil_or_concat rows with rfl | ⟨rows, row, rfl⟩
    · rw [List.eq_nil_of_length_eq_zero hreads.length_eq.symm]
      rfl
    · rw [List.concat_eq_append, Reads, List.map_append] at hreads
      obtain ⟨l, last, rfl, -, hlast⟩ := List.map_eq_append_iff.mp hreads.symm
      obtain ⟨e, rfl, he⟩ := List.map_eq_singleton_iff.mp hlast
      simp [(Row.prevHash_of_toEntry he.symm).2]
  have hsealed : (scheme H).Sealed
      ⟨(linkEvent H event latest).toColumns, (linkEvent H event latest).hash⟩ := rfl
  have hprev : (scheme H).prev (linkEvent H event latest).toColumns =
      l.getLast?.map Entry.hash := hlatest.trans hlast
  refine ⟨l ++ [⟨(linkEvent H event latest).toColumns, (linkEvent H event latest).hash⟩],
    hreads.append ?_, hchain.concat hsealed hprev⟩
  have hlinked : (linkEvent H event latest).timestamp.IsUtc := hutc
  rw [Reads, List.map_singleton, List.map_singleton, toEntry_newRow dialect id hlinked]

/-- The first rows of a chain are chained. -/
theorem Chained.of_prefix {rows part : List Row} (h : Chained H rows) (hp : part <+: rows) :
    Chained H part := by
  obtain ⟨l, hreads, hchain⟩ := h
  obtain ⟨rest, rfl⟩ := hp
  rw [Reads, List.map_append] at hreads
  obtain ⟨l₁, l₂, rfl, h₁, -⟩ := List.map_eq_append_iff.mp hreads.symm
  exact ⟨l₁, h₁.symm, hchain.of_prefix (List.prefix_append l₁ l₂)⟩

/-- The rows of a chain are linked, and the first has no previous hash. -/
theorem Chained.linked (h : Chained H rows) :
    rows.IsChain (fun a b => b.prevHash = some a.hash) ∧
      ∀ row ∈ rows.head?, row.prevHash = none := by
  obtain ⟨l, hreads, hchain⟩ := h
  have hentry : ∀ i, (rows[i]?).map Row.toEntry = (l[i]?).map some := hreads.getElem?
  refine ⟨List.isChain_iff_getElem.mpr fun i hi => ?_, fun row hrow => ?_⟩
  · have hil : i + 1 < l.length := hreads.length_eq ▸ hi
    have ha := hentry i
    have hb := hentry (i + 1)
    rw [List.getElem?_eq_getElem (by omega), List.getElem?_eq_getElem (by omega)] at ha hb
    have ha := Row.prevHash_of_toEntry (Option.some.inj ha)
    have hb := Row.prevHash_of_toEntry (Option.some.inj hb)
    rw [hb.1, ha.2]
    exact List.isChain_iff_getElem.mp hchain.linked i hil
  · have hzero := hentry 0
    rw [← List.head?_eq_getElem?, ← List.head?_eq_getElem?, Option.mem_def.mp hrow] at hzero
    obtain ⟨e, he, heq⟩ := Option.map_eq_some_iff.mp hzero.symm
    rw [(Row.prevHash_of_toEntry heq.symm).1]
    exact hchain.root e he

/-- The verifier accepts every final part of a chain. -/
theorem Chained.verifyLoop_suffix {rows part : List Row} (h : Chained H rows)
    (hp : part <:+ rows) :
    verifyLoop H part 0 none = .ok { isIntact := true, checkedCount := part.length } := by
  obtain ⟨l, hreads, hchain⟩ := h
  obtain ⟨l', hreads', hsuffix⟩ := hreads.of_suffix hp
  have hverified : (scheme H).Verified l' := hchain.toVerified.of_isInfix hsuffix.isInfix
  rw [verifyLoop_of_verified hreads' hverified fun hne => absurd rfl hne, Nat.zero_add]

/-! ### Rows in id order -/

/-- The ids increase along the rows. -/
def Increasing (rows : List Row) : Prop := rows.Pairwise fun a b => a.id < b.id

theorem orderById_of_increasing (h : Increasing rows) : orderById rows = rows :=
  List.mergeSort_of_pairwise (h.imp fun hlt => decide_eq_true (Nat.le_of_lt hlt))

theorem tenantRows_of_increasing (h : Increasing rows) (tenantId : String) :
    tenantRows rows tenantId = rows.filter fun row => decide (row.tenantId = tenantId) :=
  orderById_of_increasing (h.filter _)

/-- A further row of the tenant comes last. -/
theorem tenantRows_concat_of_eq {row : Row} (h : Increasing (rows ++ [row])) :
    tenantRows (rows ++ [row]) row.tenantId = tenantRows rows row.tenantId ++ [row] := by
  rw [tenantRows_of_increasing h, tenantRows_of_increasing (List.pairwise_append.mp h).1,
    List.filter_append, List.filter_cons_of_pos (by simp), List.filter_nil]

/-- A further row of another tenant changes nothing. -/
theorem tenantRows_concat_of_ne {row : Row} {tenantId : String} (h : Increasing (rows ++ [row]))
    (hne : row.tenantId ≠ tenantId) :
    tenantRows (rows ++ [row]) tenantId = tenantRows rows tenantId := by
  rw [tenantRows_of_increasing h, tenantRows_of_increasing (List.pairwise_append.mp h).1,
    List.filter_append, List.filter_cons_of_neg (by simpa using hne), List.filter_nil,
    List.append_nil]

/-- The rows from an id on are a final part of the rows. -/
theorem filter_fromId_suffix (h : Increasing rows) (fromId : ℤ) :
    (rows.filter fun row => decide (fromId ≤ row.id)) <:+ rows := by
  induction rows with
  | nil => exact List.suffix_refl []
  | cons row rows ih =>
    obtain ⟨hlt, htail⟩ := List.pairwise_cons.mp h
    by_cases hrow : fromId ≤ row.id
    · have hall : ∀ a ∈ row :: rows, decide (fromId ≤ (a.id : ℤ)) = true := by
        intro a ha
        rcases List.mem_cons.mp ha with rfl | ha
        · exact decide_eq_true hrow
        · have := hlt a ha
          exact decide_eq_true (by omega)
      rw [List.filter_eq_self.mpr hall]
    · rw [List.filter_cons_of_neg (by simpa using hrow)]
      exact (ih htail).trans (List.suffix_cons row rows)

/-- `verify_chain` looks at a final part of the rows of the tenant: those from `from_id` on. -/
theorem tenantRowsFrom_suffix (h : Increasing rows) (tenantId : String) (fromId : Option ℤ) :
    tenantRowsFrom rows tenantId fromId <:+ tenantRows rows tenantId ∧
      (tenantRowsFrom rows tenantId fromId).length =
        rows.countP fun row => decide (row.tenantId = tenantId ∧ ∀ f ∈ fromId, f ≤ row.id) := by
  rw [tenantRows_of_increasing h, List.countP_eq_length_filter]
  cases fromId with
  | none =>
    rw [tenantRowsFrom, tenantRows_of_increasing h]
    exact ⟨List.suffix_refl _, by simp⟩
  | some fromId =>
    rw [tenantRowsFrom, orderById_of_increasing (h.filter _)]
    refine ⟨?_, by simp⟩
    have hsuffix := filter_fromId_suffix (h.filter fun row => decide (row.tenantId = tenantId))
      fromId
    rw [List.filter_filter] at hsuffix
    have hboth : (fun row : Row => decide (row.tenantId = tenantId ∧ fromId ≤ row.id)) =
        fun row => decide (fromId ≤ row.id) && decide (row.tenantId = tenantId) := by
      funext row
      rw [Bool.decide_and, Bool.and_comm]
    rw [hboth]
    exact hsuffix

/-! ### The table invariant -/

/-- The invariant of the audit table. -/
structure Inv (H : List (String × Json) → String) (db : Database) : Prop where
  nodup : (db.rows.map fun row => row.eventId).Nodup
  increasing : Increasing db.rows
  below : ∀ row ∈ db.rows, row.id < db.nextId
  chained : ∀ tenantId, Chained H (tenantRows db.rows tenantId)

theorem inv_empty (dialect : Dialect) : Inv H { dialect := dialect } where
  nodup := List.nodup_nil
  increasing := List.Pairwise.nil
  below := fun _ h => absurd h List.not_mem_nil
  chained := fun tenantId => by
    rw [tenantRows_of_increasing List.Pairwise.nil]
    exact chained_nil

/-- A row that is read carries the hash column over. -/
theorem hash_of_rowToEvent {row : Row} {event : AuditEvent} (h : rowToEvent row = .ok event) :
    event.hash = row.hash := by
  simp only [rowToEvent, bind, Except.bind, pure, Except.pure] at h
  split at h
  · cases h
  · obtain rfl := Except.ok.inj h
    rfl

/-- The last event has the hash of the last row. -/
theorem hash_of_lastEvent {latest : Option AuditEvent} (h : lastEvent rows = .ok latest) :
    latest.map AuditEvent.hash = rows.getLast?.map Row.hash := by
  rw [lastEvent] at h
  rcases hlast : rows.getLast? with _ | row
  · rw [hlast] at h
    obtain rfl := Except.ok.inj h
    rfl
  · rw [hlast] at h
    rcases hrow : rowToEvent row with message | event
    · simp [hrow, Except.map] at h
    · simp only [hrow, Except.map, Except.ok.injEq] at h
      subst h
      rw [Option.map_some, Option.map_some, hash_of_rowToEvent hrow]

/-- The last event of a chain can be read. -/
theorem Chained.exists_lastEvent (h : Chained H rows) : ∃ latest, lastEvent rows = .ok latest := by
  rw [lastEvent]
  rcases hlast : rows.getLast? with _ | row
  · exact ⟨none, rfl⟩
  · obtain ⟨l, hreads, -⟩ := h
    have hmem : row.toEntry ∈ l.map some :=
      hreads ▸ List.mem_map_of_mem (List.mem_of_getLast? hlast)
    obtain ⟨e, -, he⟩ := List.mem_map.mp hmem
    obtain ⟨event, hevent, -, -⟩ := Row.toEntry_eq_some_iff.mp he.symm
    exact ⟨some event, by simp [hevent, Except.map]⟩

/-- Inserting a linked event keeps the invariant. -/
theorem Inv.insert {db : Database} (h : Inv H db) {event : AuditEvent}
    (hutc : event.timestamp.IsUtc) {latest : Option AuditEvent}
    (hlatest : getLatestEvent db.rows event.tenantId = .ok latest)
    (hfresh : findStored db.rows event.eventId = none) :
    Inv H (db.insert (linkEvent H event latest)) := by
  have hbelow : ∀ row ∈ db.rows, row.id <
      (newRow db.dialect db.nextId (linkEvent H event latest)).id := h.below
  have hincreasing : Increasing (db.insert (linkEvent H event latest)).rows :=
    List.pairwise_append.mpr ⟨h.increasing, List.pairwise_singleton _ _,
      fun a ha b hb => List.mem_singleton.mp hb ▸ hbelow a ha⟩
  refine ⟨?_, hincreasing, fun row hrow => ?_, fun tenantId => ?_⟩
  · have hnew : event.eventId ∉ db.rows.map fun row => row.eventId :=
      findStored_eq_none_iff.mp hfresh
    rw [Database.insert, List.map_append]
    exact h.nodup.append (List.nodup_singleton _) fun a ha hb =>
      hnew (by rwa [List.mem_singleton.mp hb] at ha)
  · rcases List.mem_append.mp hrow with hrow | hrow
    · exact Nat.lt_succ_of_lt (h.below row hrow)
    · rw [List.mem_singleton.mp hrow]
      exact Nat.lt_succ_self db.nextId
  · by_cases htenant : event.tenantId = tenantId
    · -- the tenant of the event: its chain grows by the linked row
      subst htenant
      have hgrow : tenantRows (db.insert (linkEvent H event latest)).rows event.tenantId =
          tenantRows db.rows event.tenantId ++
            [newRow db.dialect db.nextId (linkEvent H event latest)] :=
        tenantRows_concat_of_eq hincreasing
      rw [hgrow]
      exact (h.chained _).concat db.dialect db.nextId hutc (hash_of_lastEvent hlatest)
    · have hsame : tenantRows (db.insert (linkEvent H event latest)).rows tenantId =
          tenantRows db.rows tenantId := tenantRows_concat_of_ne hincreasing htenant
      rw [hsame]
      exact h.chained tenantId

/-- **Step.** `store_event` keeps the invariant. -/
theorem Inv.storeEvent {db : Database} (h : Inv H db) {event : AuditEvent}
    (hutc : event.timestamp.IsUtc) : Inv H (storeEvent H db event).2 := by
  rcases storeEvent_cases H db event with heq | ⟨latest, hlatest, hfresh, heq⟩
  · rw [heq]
    exact h
  · rw [heq]
    exact h.insert hutc hlatest hfresh

/-- The verifier reports a table with the invariant intact, and counts the rows it looked
at. -/
theorem Inv.verifyChain {db : Database} (h : Inv H db) (tenantId : String)
    (fromId : Option ℤ) :
    verifyChain H db.rows tenantId fromId =
      .ok { isIntact := true, checkedCount := db.rows.countP fun row =>
        decide (row.tenantId = tenantId ∧ ∀ f ∈ fromId, f ≤ row.id) } := by
  obtain ⟨hsuffix, hcount⟩ := tenantRowsFrom_suffix h.increasing tenantId fromId
  rw [Audit.verifyChain, (h.chained tenantId).verifyLoop_suffix hsuffix, hcount]

/-- A sequence of `store_event` calls; a call that raises leaves the table as it is. -/
def run (H : List (String × Json) → String) (db : Database) (events : List AuditEvent) :
    Database :=
  events.foldl (fun db event => (storeEvent H db event).2) db

theorem inv_run {db : Database} (h : Inv H db) {events : List AuditEvent}
    (hutc : ∀ event ∈ events, event.timestamp.IsUtc) : Inv H (run H db events) := by
  induction events generalizing db with
  | nil => exact h
  | cons event events ih =>
    exact ih (h.storeEvent (hutc event List.mem_cons_self)) fun e he =>
      hutc e (List.mem_cons_of_mem event he)

/-- Event ids being unique, the row found for a stored id is that row. -/
theorem findStored_of_mem (h : (rows.map fun row => row.eventId).Nodup) {row : Row}
    (hrow : row ∈ rows) : findStored rows row.eventId = some row := by
  rcases hfound : findStored rows row.eventId with _ | found
  · exact absurd (List.mem_map_of_mem hrow) (findStored_eq_none_iff.mp hfound)
  · have hmem : found ∈ rows := List.mem_of_find?_eq_some hfound
    have hid : found.eventId = row.eventId := by
      simpa using List.find?_some hfound
    rw [List.inj_on_of_nodup_map h hmem hrow hid]

/-- **Sequential invariant.** After every sequence of `store_event` calls with timestamps in
UTC, from an empty table:

* every event id is stored once;
* the rows of every tenant are linked in id order, from a first row without a previous hash;
* `verify_chain` reports every tenant intact, from every id on, with the number of its rows;
* a retry returns the hashes of the stored row and leaves the table as it is. -/
theorem run_sequential_invariant (H : List (String × Json) → String) (dialect : Dialect)
    (events : List AuditEvent) (hutc : ∀ event ∈ events, event.timestamp.IsUtc) :
    ((run H { dialect := dialect } events).rows.map fun row => row.eventId).Nodup ∧
    (∀ tenantId,
      (tenantRows (run H { dialect := dialect } events).rows tenantId).IsChain
        (fun a b => b.prevHash = some a.hash) ∧
      ∀ row ∈ (tenantRows (run H { dialect := dialect } events).rows tenantId).head?,
        row.prevHash = none) ∧
    (∀ tenantId fromId,
      verifyChain H (run H { dialect := dialect } events).rows tenantId fromId =
        .ok { isIntact := true, checkedCount :=
          (run H { dialect := dialect } events).rows.countP fun row =>
            decide (row.tenantId = tenantId ∧ ∀ f ∈ fromId, f ≤ row.id) }) ∧
    ∀ event : AuditEvent, event.hash = "" →
      ∀ row ∈ (run H { dialect := dialect } events).rows, row.eventId = event.eventId →
        storeEvent H (run H { dialect := dialect } events) event =
          (.ok { event with hash := row.hash, prevHash := row.prevHash },
            run H { dialect := dialect } events) := by
  have hinv : Inv H (run H { dialect := dialect } events) := inv_run (inv_empty dialect) hutc
  refine ⟨hinv.nodup, fun tenantId => (hinv.chained tenantId).linked, hinv.verifyChain,
    fun event hhash row hrow hid => ?_⟩
  obtain ⟨latest, hlatest⟩ := (hinv.chained event.tenantId).exists_lastEvent
  exact storeEvent_of_stored hhash hlatest (hid ▸ findStored_of_mem hinv.nodup hrow)

/-! ### A sample run -/

/-- A date in UTC, with a fraction of a second. -/
def sampleTime : DateTime where
  year := 2024
  month := 2
  day := 29
  hour := 23
  minute := 59
  second := 59
  microsecond := 70
  utcoffset := some 0
  valid := by decide

/-- An event of a tenant, not stored yet. -/
def sampleEvent (eventId tenantId : String) : AuditEvent where
  eventId := eventId
  timestamp := sampleTime
  tenantId := tenantId
  eventType := "config_change"

/-- A hash function that keeps the texts of the canonical object. -/
def sampleHash (data : List (String × Json)) : String :=
  String.join (data.map fun p =>
    match p.2 with
    | .str s => p.1 ++ s
    | _ => p.1)

/-- Two tenants, interleaved, and one retry. -/
def sampleEvents : List AuditEvent :=
  [sampleEvent "e1" "acme", sampleEvent "e2" "globex", sampleEvent "e3" "acme",
    sampleEvent "e1" "acme"]

theorem run_sequential_invariant_sampleEvents :
    ((run sampleHash { dialect := .sqlite } sampleEvents).rows.map fun row =>
      row.eventId).Nodup ∧
    verifyChain sampleHash (run sampleHash { dialect := .sqlite } sampleEvents).rows "acme" =
      .ok { isIntact := true, checkedCount :=
        (run sampleHash { dialect := .sqlite } sampleEvents).rows.countP fun row =>
          decide (row.tenantId = "acme" ∧ ∀ f ∈ (none : Option ℤ), f ≤ row.id) } := by
  have hutc : ∀ event ∈ sampleEvents, event.timestamp.IsUtc := by
    simp [sampleEvents, sampleEvent, DateTime.IsUtc, sampleTime]
  obtain ⟨hnodup, -, hverify, -⟩ :=
    run_sequential_invariant sampleHash .sqlite sampleEvents hutc
  exact ⟨hnodup, hverify "acme" none⟩

end AnonReq.Audit
