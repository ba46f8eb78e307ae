import AnonReq.Audit.Sequential
import AnonReq.Foundation.Keyset
import AnonReq.Foundation.Runs
import Mathlib.Data.List.Sort
import Mathlib.Data.PNat.Basic
import Mathlib.Data.Prod.Lex

/-!
# Pages of audit events

`get_events` of `services/audit_chain.py` and `iter_filtered_events` of `services/audit_export.py`:
the matching events page by page, each page starting behind the last event of the page before.
Rows may be inserted between two pages.

* `AuditTable` is a table as the service leaves it: no id twice, every timestamp one the driver
  wrote for a datetime in UTC.
* `iterFilteredEvents_eq`: the loop ends, and returns the pages of `Keyset`.
* `iterFilteredEvents_exact_iff`: it returns every matching event once, in the requested order, if
  and only if a sort by timestamp is requested or the timestamps do not go back in id order at the
  end of a full page.
* `not_exact`: without a sort an event is lost.
-/

namespace AnonReq.Audit

/-! ### The order of timestamps -/

/-- What the database compares: an instant, or a text character by character. -/
def StoredTimestamp.key : StoredTimestamp → List ℤ
  | .native d => [d.instant]
  | .text s => s.toList.map fun c => (c.toNat : ℤ)

/-! ### `get_events` -/

/-- The values of `sort` the service accepts, next to none. -/
inductive EventSort where
  | timestampAsc
  | timestampDesc
deriving DecidableEq

/-- The filters of `get_events`. -/
structure EventFilters where
  tenantId : Option String := none
  eventType : Option String := none
  operatorId : Option String := none
  dateFrom : Option DateTime := none
  dateTo : Option DateTime := none
  entityType : Option String := none
  sort : Option EventSort := none
  maxRowId : Option ℕ := none

/-- A cursor: the timestamp and the id of the last event of a page. -/
abbrev Cursor := DateTime × ℕ

/-- `_cursor_clause`, for the bound timestamp and id of the cursor. -/
def cursorClause (sort : Option EventSort) (cursorTimestamp : List ℤ) (cursorId : ℕ) (row : Row) :
    Bool :=
  match sort with
  | some .timestampAsc =>
    decide (cursorTimestamp < row.timestamp.key ∨
      row.timestamp.key = cursorTimestamp ∧ cursorId < row.id)
  | _ =>
    decide (row.timestamp.key < cursorTimestamp ∨
      row.timestamp.key = cursorTimestamp ∧ row.id < cursorId)

/-- `_order_by`: the row `a` may stand before the row `b`. -/
def orderBy (sort : Option EventSort) (a b : Row) : Bool :=
  match sort with
  | some .timestampAsc =>
    decide (a.timestamp.key < b.timestamp.key ∨ a.timestamp.key = b.timestamp.key ∧ a.id ≤ b.id)
  | some .timestampDesc =>
    decide (b.timestamp.key < a.timestamp.key ∨ b.timestamp.key = a.timestamp.key ∧ b.id ≤ a.id)
  | none => decide (b.id ≤ a.id)

/-- What the database says of the metadata of a row and an entity type. -/
abbrev EntityTypeClause := Option String → String → Bool

/-- The part of `_event_where` that does not depend on the cursor. -/
def eventWhere (dialect : Dialect) (entityTypeClause : EntityTypeClause) (filters : EventFilters)
    (row : Row) : Bool :=
  filters.tenantId.all (fun t => decide (row.tenantId = t)) &&
    filters.eventType.all (fun t => decide (row.eventType = t)) &&
    filters.operatorId.all (fun o => decide (row.operatorId = some o)) &&
    filters.dateFrom.all (fun d => decide ((dialect.bind d).key ≤ row.timestamp.key)) &&
    filters.dateTo.all (fun d => decide (row.timestamp.key ≤ (dialect.bind d).key)) &&
    filters.entityType.all (fun t => entityTypeClause row.metadataJson t) &&
    filters.maxRowId.all fun m => decide (row.id ≤ m)

/-- The cursor part of `_event_where`. -/
def cursorWhere (dialect : Dialect) (sort : Option EventSort) (cursor : Option Cursor)
    (row : Row) : Bool :=
  cursor.all fun c => cursorClause sort (dialect.bind c.1).key c.2 row

/-- `get_events`. -/
def getEvents (dialect : Dialect) (entityTypeClause : EntityTypeClause) (rows : List Row)
    (filters : EventFilters) (limit offset : ℕ) (cursor : Option Cursor) :
    Except String (List AuditEvent) :=
  let selected := rows.filter fun row =>
    eventWhere dialect entityTypeClause filters row && cursorWhere dialect filters.sort cursor row
  (((selected.mergeSort (orderBy filters.sort)).drop offset).take limit).mapM rowToEvent

/-! ### `iter_filtered_events` -/

/-- `iter_filtered_events`, over what the service returns for the `i`-th page and a cursor; `none`
where the loop runs out of fuel. -/
def iterFilteredEvents (getPage : ℕ → Option Cursor → Except String (List AuditEvent))
    (page : ℕ) : ℕ → ℕ → Option Cursor → Option (Except String (List AuditEvent))
  | 0, _, _ => none
  | fuel + 1, i, cursor =>
    match getPage i cursor with
    | .error message => some (.error message)
    | .ok batch =>
      match batch.getLast? with
      | none => some (.ok [])
      | some last =>
        match last.rowId with
        | none => some (.ok batch)
        | some lastId =>
          if batch.length < page then some (.ok batch)
          else if cursor = some (last.timestamp, lastId) then some (.ok batch)
          else
            (iterFilteredEvents getPage page fuel (i + 1) (some (last.timestamp, lastId))).map
              fun rest => rest.map fun events => batch ++ events

/-! ### Tables -/

/-- The timestamp of a row is one the driver wrote for a datetime in UTC. -/
def Stamped (dialect : Dialect) (row : Row) : Prop :=
  ∃ d : DateTime, d.IsUtc ∧ row.timestamp = dialect.bind d

/-- A table as the service leaves it. -/
structure AuditTable where
  dialect : Dialect
  rows : List Row
  nodup : (rows.map Row.id).Nodup
  stamped : ∀ row ∈ rows, Stamped dialect row

/-- The rows after the inserts before the pages up to the `i`-th. -/
def AuditTable.rowsAt (table : AuditTable) {maxRowId : ℕ}
    (inserts : ℕ → List { row : Row // maxRowId < row.id }) (i : ℕ) : List Row :=
  table.rows ++ (List.range i).flatMap fun j => (inserts j).map Subtype.val

/-- The matching rows, in the requested order. -/
def AuditTable.matching (table : AuditTable) (entityTypeClause : EntityTypeClause)
    (filters : EventFilters) : List Row :=
  (table.rows.filter (eventWhere table.dialect entityTypeClause filters)).mergeSort
    (orderBy filters.sort)

/-! ### The two orders -/

/-- The place of a row in the order by timestamp and id. -/
def Row.rank (row : Row) : List ℤ ×ₗ ℕ := toLex (row.timestamp.key, row.id)

/-- What a cursor at the row `b` selects. -/
def afterRow (sort : Option EventSort) (b row : Row) : Bool :=
  cursorClause sort b.timestamp.key b.id row

/-- The cursor clause moves on in the order by timestamp and id. -/
theorem afterRow_iff {sort : Option EventSort} {b row : Row} : afterRow sort b row = true ↔
    if sort = some .timestampAsc then b.rank < row.rank else row.rank < b.rank := by
  have hcomm : row.timestamp.key = b.timestamp.key ↔ b.timestamp.key = row.timestamp.key := eq_comm
  rcases sort with _ | sort
  · simp [afterRow, cursorClause, Row.rank, Prod.Lex.toLex_lt_toLex]
  · rcases sort with _ | _
    · simp [afterRow, cursorClause, Row.rank, Prod.Lex.toLex_lt_toLex, hcomm]
    · simp [afterRow, cursorClause, Row.rank, Prod.Lex.toLex_lt_toLex]

theorem afterRow_irrefl (sort : Option EventSort) (row : Row) : afterRow sort row row = false := by
  rw [← Bool.not_eq_true, afterRow_iff]
  split_ifs <;> exact lt_irrefl _

theorem afterRow_trans (sort : Option EventSort) (a b c : Row) (hab : afterRow sort a b = true)
    (hbc : afterRow sort b c = true) : afterRow sort a c = true := by
  rw [afterRow_iff] at hab hbc ⊢
  split_ifs at hab hbc ⊢
  · exact hab.trans hbc
  · exact hbc.trans hab

/-- What `ORDER BY` compares. -/
theorem orderBy_iff {sort : Option EventSort} {a b : Row} : orderBy sort a b = true ↔
    match sort with
    | some .timestampAsc => a.rank ≤ b.rank
    | some .timestampDesc => b.rank ≤ a.rank
    | none => b.id ≤ a.id := by
  rcases sort with _ | sort
  · simp [orderBy]
  · rcases sort with _ | _ <;> simp [orderBy, Row.rank, Prod.Lex.toLex_le_toLex]

theorem orderBy_total (sort : Option EventSort) (a b : Row) :
    (orderBy sort a b || orderBy sort b a) = true := by
  rw [Bool.or_eq_true, orderBy_iff, orderBy_iff]
  rcases sort with _ | sort
  · exact le_total _ _
  · rcases sort with _ | _ <;> exact le_total _ _

theorem orderBy_trans (sort : Option EventSort) (a b c : Row) (hab : orderBy sort a b = true)
    (hbc : orderBy sort b c = true) : orderBy sort a c = true := by
  rw [orderBy_iff] at hab hbc ⊢
  rcases sort with _ | sort
  · exact hbc.trans hab
  · rcases sort with _ | _
    · exact hab.trans hbc
    · exact hbc.trans hab

/-- Rows that may stand either way have the same id. -/
theorem id_eq_of_orderBy {sort : Option EventSort} {a b : Row} (hab : orderBy sort a b = true)
    (hba : orderBy sort b a = true) : a.id = b.id := by
  rw [orderBy_iff] at hab hba
  rcases sort with _ | sort
  · exact le_antisymm hba hab
  · have hrank : a.rank = b.rank := by
      rcases sort with _ | _
      · exact le_antisymm hab hba
      · exact le_antisymm hba hab
    exact congrArg (fun r => (ofLex r).2) hrank

/-- Rows without a common id are sorted the same before and after a selection. -/
theorem mergeSort_filter {rows : List Row} (hnodup : (rows.map Row.id).Nodup)
    (sort : Option EventSort) (p : Row → Bool) :
    (rows.filter p).mergeSort (orderBy sort) = (rows.mergeSort (orderBy sort)).filter p := by
  have hsorted (l : List Row) :
      (l.mergeSort (orderBy sort)).Pairwise fun a b => orderBy sort a b = true :=
    List.pairwise_mergeSort (orderBy_trans sort) (orderBy_total sort) l
  refine List.Perm.eq_of_pairwise (fun a b ha hb hab hba => ?_) (hsorted _)
    ((hsorted rows).filter p) ?_
  · have ha := (List.mem_filter.mp (List.mem_mergeSort.mp ha)).1
    have hb := List.mem_mergeSort.mp (List.mem_filter.mp hb).1
    exact List.inj_on_of_nodup_map hnodup ha hb (id_eq_of_orderBy hab hba)
  · exact (List.mergeSort_perm _ _).trans ((List.mergeSort_perm rows _).filter p).symm

/-! ### The events of the rows -/

/-- A row with a timestamp the driver wrote is read, and its event leads the cursor back to it. -/
theorem Stamped.exists_event {dialect : Dialect} {row : Row} (h : Stamped dialect row) :
    ∃ event, rowToEvent row = .ok event ∧ event.rowId = some row.id ∧
      dialect.bind event.timestamp = row.timestamp := by
  obtain ⟨d, hutc, hrow⟩ := h
  have hdecode : decodeTimestamp row.timestamp = .ok d := by
    rw [hrow, decodeTimestamp_bind dialect hutc]
  refine ⟨_, by simp only [rowToEvent, hdecode, bind, Except.bind, pure, Except.pure]; rfl, rfl, ?_⟩
  exact hrow.symm

/-- Reading rows that can all be read. -/
theorem mapM_eq_ok {rows : List Row} {f : Row → AuditEvent}
    (h : ∀ row ∈ rows, rowToEvent row = .ok (f row)) : rows.mapM rowToEvent = .ok (rows.map f) :=
  Runs.mapM_eq_ok_iff.mpr (List.forall₂_map_right_iff.mpr (List.forall₂_same.mpr h))

namespace AuditTable

variable {table : AuditTable} {entityTypeClause : EntityTypeClause} {filters : EventFilters}
  {maxRowId : ℕ} {inserts : ℕ → List { row : Row // maxRowId < row.id }}

/-- What the service returns for a page of a bounded query. -/
def page (table : AuditTable) (entityTypeClause : EntityTypeClause) (filters : EventFilters)
    (inserts : ℕ → List { row : Row // maxRowId < row.id }) (limit i : ℕ)
    (cursor : Option Cursor) : Except String (List AuditEvent) :=
  getEvents table.dialect entityTypeClause (table.rowsAt inserts i)
    { filters with maxRowId := some maxRowId } limit 0 cursor

/-- The matching rows of a bounded query. -/
def bounded (table : AuditTable) (entityTypeClause : EntityTypeClause) (filters : EventFilters)
    (maxRowId : ℕ) : List Row :=
  table.matching entityTypeClause { filters with maxRowId := some maxRowId }

/-- Rows inserted above the bound match nothing. -/
theorem filter_rowsAt (i : ℕ) (p : Row → Bool) :
    ((table.rowsAt inserts i).filter fun row => eventWhere table.dialect entityTypeClause
        { filters with maxRowId := some maxRowId } row && p row) =
      table.rows.filter fun row => eventWhere table.dialect entityTypeClause
        { filters with maxRowId := some maxRowId } row && p row := by
  rw [rowsAt, List.filter_append]
  refine (congrArg _ (List.filter_eq_nil_iff.mpr fun row hrow => ?_)).trans (List.append_nil _)
  obtain ⟨j, -, hrow⟩ := List.mem_flatMap.mp hrow
  obtain ⟨inserted, -, rfl⟩ := List.mem_map.mp hrow
  have hlt : ¬ inserted.val.id ≤ maxRowId := Nat.not_le.mpr inserted.property
  simp [eventWhere, hlt]

/-- A page is the first of the matching rows that the cursor selects. -/
theorem page_eq {p : Row → Bool} {limit i : ℕ} {cursor : Option Cursor}
    (hcursor : ∀ row ∈ table.bounded entityTypeClause filters maxRowId,
      cursorWhere table.dialect filters.sort cursor row = p row) :
    table.page entityTypeClause filters inserts limit i cursor =
      (((table.bounded entityTypeClause filters maxRowId).filter p).take limit).mapM
        rowToEvent := by
  have hselected : ((table.rowsAt inserts i).filter fun row => eventWhere table.dialect
      entityTypeClause { filters with maxRowId := some maxRowId } row &&
        cursorWhere table.dialect filters.sort cursor row) =
      (table.rows.filter (eventWhere table.dialect entityTypeClause
        { filters with maxRowId := some maxRowId })).filter
          (cursorWhere table.dialect filters.sort cursor) := by
    rw [filter_rowsAt, List.filter_filter]
    simp only [Bool.and_comm]
  have hnodup : ((table.rows.filter (eventWhere table.dialect entityTypeClause
      { filters with maxRowId := some maxRowId })).map Row.id).Nodup :=
    table.nodup.sublist (List.filter_sublist.map Row.id)
  have hsorted : ((table.rows.filter (eventWhere table.dialect entityTypeClause
      { filters with maxRowId := some maxRowId })).filter
        (cursorWhere table.dialect filters.sort cursor)).mergeSort (orderBy filters.sort) =
      (table.bounded entityTypeClause filters maxRowId).filter p := by
    rw [mergeSort_filter hnodup]
    exact List.filter_congr hcursor
  simp only [page, getEvents, List.drop_zero, hselected, hsorted]

theorem mem_bounded {row : Row} (h : row ∈ table.bounded entityTypeClause filters maxRowId) :
    row ∈ table.rows :=
  (List.mem_filter.mp (List.mem_mergeSort.mp h)).1

theorem length_bounded_le :
    (table.bounded entityTypeClause filters maxRowId).length ≤ table.rows.length :=
  (List.mergeSort_perm _ _).length_eq.trans_le (List.length_filter_le _ _)

theorem nodup_bounded : (table.bounded entityTypeClause filters maxRowId).Nodup := by
  have hrows : table.rows.Nodup := List.Nodup.of_map Row.id table.nodup
  exact (List.mergeSort_perm _ _).nodup_iff.mpr (hrows.filter _)

/-- The events of the rows of a table. -/
theorem exists_events (table : AuditTable) : ∃ f : Row → AuditEvent, ∀ row ∈ table.rows,
    rowToEvent row = .ok (f row) ∧ (f row).rowId = some row.id ∧
      table.dialect.bind (f row).timestamp = row.timestamp := by
  have : Nonempty AuditEvent := ⟨{
    eventId := "", tenantId := "", eventType := ""
    timestamp := ⟨{ year := 1, month := 1, day := 1 }, by decide⟩ }⟩
  choose! f hf using fun row hrow => (table.stamped row hrow).exists_event
  exact ⟨f, hf⟩

/-- **The loop.** With enough fuel the loop ends, and returns the events of the pages. -/
theorem iterFilteredEvents_eq {f : Row → AuditEvent}
    (hf : ∀ row ∈ table.rows, rowToEvent row = .ok (f row) ∧ (f row).rowId = some row.id ∧
      table.dialect.bind (f row).timestamp = row.timestamp)
    {limit : ℕ} {p : Row → Bool} (hp : Keyset.Closed (afterRow filters.sort) p) {fuel i : ℕ}
    {cursor : Option Cursor}
    (hcursor : ∀ row ∈ table.bounded entityTypeClause filters maxRowId,
      cursorWhere table.dialect filters.sort cursor row = p row)
    (hfuel : ((table.bounded entityTypeClause filters maxRowId).filter p).length < fuel) :
    iterFilteredEvents (table.page entityTypeClause filters inserts limit) limit fuel i cursor =
      some (.ok ((Keyset.pages (afterRow filters.sort) limit
        (table.bounded entityTypeClause filters maxRowId) fuel
          ((table.bounded entityTypeClause filters maxRowId).filter p)).map f)) := by
  induction fuel generalizing p i cursor with
  | zero => exact absurd hfuel (Nat.not_lt_zero _)
  | succ fuel ih =>
    have hrow : ∀ row ∈ ((table.bounded entityTypeClause filters maxRowId).filter p).take limit,
        row ∈ table.bounded entityTypeClause filters maxRowId ∧ p row = true :=
      fun row h => List.mem_filter.mp (List.mem_of_mem_take h)
    have hpage : table.page entityTypeClause filters inserts limit i cursor =
        .ok ((((table.bounded entityTypeClause filters maxRowId).filter p).take limit).map f) := by
      rw [page_eq hcursor]
      exact mapM_eq_ok fun row h => (hf row (mem_bounded (hrow row h).1)).1
    rw [iterFilteredEvents, hpage, Keyset.pages]
    simp only [List.getLast?_map, List.length_map]
    rcases hlast : (((table.bounded entityTypeClause filters maxRowId).filter p).take
        limit).getLast? with _ | last
    · rfl
    · obtain ⟨hmem, hselected⟩ := hrow last (List.mem_of_getLast? hlast)
      obtain ⟨-, hid, hstamp⟩ := hf last (mem_bounded hmem)
      simp only [Option.map_some, hid]
      split_ifs with hshort hrepeat
      · rfl
      -- the cursor never stands still: it does not select its own row
      · have hnot := hcursor last hmem
        rw [hrepeat, cursorWhere, Option.all_some, hstamp, hselected] at hnot
        exact absurd (hnot.symm.trans (afterRow_irrefl filters.sort last)) (by decide)
      · have hlength := Keyset.length_filter_after_lt (afterRow_irrefl filters.sort) hp
          (List.mem_filter.mpr ⟨hmem, hselected⟩)
        have hnext : ∀ row ∈ table.bounded entityTypeClause filters maxRowId,
            cursorWhere table.dialect filters.sort (some ((f last).timestamp, last.id)) row =
              afterRow filters.sort last row := by
          intro row _
          rw [cursorWhere, Option.all_some, hstamp]
          rfl
        rw [ih (Keyset.closed_after (afterRow_trans filters.sort) last) hnext (by omega)]
        simp only [Option.map_some, Except.map, List.map_append]

/-! ### Exactness -/

/-- At the end of every full page the timestamps do not go back in id order: no row with a smaller
id than the last row of the page has a later timestamp, and none with a greater id an earlier
one. -/
def InIdOrder (limit : ℕ) (rows : List Row) : Prop :=
  ∀ k, 0 < k → ∀ b, rows[k * limit - 1]? = some b → ∀ row ∈ rows,
    (row.id < b.id → row.timestamp.key ≤ b.timestamp.key) ∧
      (b.id < row.id → b.timestamp.key ≤ row.timestamp.key)

theorem pairwise_bounded : (table.bounded entityTypeClause filters maxRowId).Pairwise
    fun a b => orderBy filters.sort a b = true ∧ a.id ≠ b.id := by
  have hsorted : (table.bounded entityTypeClause filters maxRowId).Pairwise
      fun a b => orderBy filters.sort a b = true :=
    List.pairwise_mergeSort (orderBy_trans filters.sort) (orderBy_total filters.sort) _
  have hids : ((table.bounded entityTypeClause filters maxRowId).map Row.id).Nodup :=
    ((List.mergeSort_perm _ _).map Row.id).nodup_iff.mpr
      (table.nodup.sublist (List.filter_sublist.map Row.id))
  exact hsorted.and (List.pairwise_map.mp hids)

/-- With a sort by timestamp the cursor clause is the order of the rows. -/
theorem pairwise_afterRow (h : filters.sort ≠ none) :
    (table.bounded entityTypeClause filters maxRowId).Pairwise
      fun a b => afterRow filters.sort a b = true := by
  refine pairwise_bounded.imp fun {a b} hab => ?_
  obtain ⟨horder, hid⟩ := hab
  have hrank : a.rank ≠ b.rank := fun heq => hid (congrArg (fun r => (ofLex r).2) heq)
  rw [orderBy_iff] at horder
  rw [afterRow_iff]
  rcases hsort : filters.sort with _ | sort
  · exact absurd hsort h
  · rw [hsort] at horder
    rcases sort with _ | _
    · rw [if_pos rfl]
      exact lt_of_le_of_ne horder hrank
    · rw [if_neg (by decide)]
      exact lt_of_le_of_ne horder hrank.symm

/-- Without a sort the cursors follow the rows if and only if the timestamps do not go back. -/
theorem follows_iff_inIdOrder {limit : ℕ} (hlimit : 0 < limit) (h : filters.sort = none) :
    Keyset.Follows (afterRow filters.sort) limit
        (table.bounded entityTypeClause filters maxRowId) 0 ↔
      InIdOrder limit (table.bounded entityTypeClause filters maxRowId) := by
  have hids : (table.bounded entityTypeClause filters maxRowId).Pairwise
      fun a b => b.id < a.id := by
    refine pairwise_bounded.imp fun {a b} hab => ?_
    have horder := orderBy_iff.mp hab.1
    rw [h] at horder
    exact lt_of_le_of_ne horder (Ne.symm hab.2)
  refine forall₂_congr fun k hk => forall₂_congr fun b hb => ?_
  obtain ⟨n, hn⟩ : ∃ n, k * limit = n + 1 :=
    ⟨k * limit - 1, by have := Nat.mul_pos hk hlimit; omega⟩
  rw [hn, Nat.add_sub_cancel] at hb
  obtain ⟨hfront, hback⟩ := Keyset.of_pairwise hids hb
  have hafter (row : Row) : afterRow filters.sort b row = true ↔
      row.timestamp.key < b.timestamp.key ∨
        row.timestamp.key = b.timestamp.key ∧ row.id < b.id := by
    rw [h]
    exact decide_eq_true_iff
  rw [hn, Keyset.filter_eq_drop_iff nodup_bounded]
  constructor
  · rintro ⟨hnone, hall⟩ row hrow
    rw [← List.take_append_drop (n + 1) (table.bounded entityTypeClause filters maxRowId),
      List.mem_append] at hrow
    rcases hrow with hrow | hrow
    · have hge : b.id ≤ row.id := by rcases hfront row hrow with rfl | hlt <;> omega
      have hnot := hnone row hrow
      rw [← Bool.not_eq_true, hafter, not_or, not_lt] at hnot
      exact ⟨fun hlt => absurd hlt (Nat.not_lt.mpr hge), fun _ => hnot.1⟩
    · have hlt := hback row hrow
      refine ⟨fun _ => ?_, fun hgt => absurd hgt (Nat.not_lt.mpr hlt.le)⟩
      rcases (hafter row).mp (hall row hrow) with hkey | ⟨hkey, -⟩
      · exact hkey.le
      · exact hkey.le
  · intro horder
    refine ⟨fun row hrow => ?_, fun row hrow => ?_⟩
    · have hmem := List.mem_of_mem_take hrow
      rw [← Bool.not_eq_true, hafter, not_or, not_lt]
      rcases hfront row hrow with rfl | hlt
      · exact ⟨le_rfl, fun hboth => lt_irrefl _ hboth.2⟩
      · exact ⟨(horder row hmem).2 hlt, fun hboth => lt_asymm hlt hboth.2⟩
    · have hlt := hback row hrow
      have hle := (horder row (List.mem_of_mem_drop hrow)).1 hlt
      refine (hafter row).mpr ?_
      rcases hle.lt_or_eq with hkey | hkey
      · exact Or.inl hkey
      · exact Or.inr ⟨hkey, hlt⟩

/-- Rows of the table with the same events are the same rows. -/
theorem eq_of_map_event_eq {f : Row → AuditEvent}
    (hf : ∀ row ∈ table.rows, rowToEvent row = .ok (f row) ∧ (f row).rowId = some row.id ∧
      table.dialect.bind (f row).timestamp = row.timestamp)
    {l l' : List Row} (hl : ∀ row ∈ l, row ∈ table.rows) (hl' : ∀ row ∈ l', row ∈ table.rows)
    (h : l.map f = l'.map f) : l = l' := by
  induction l generalizing l' with
  | nil => exact (List.map_eq_nil_iff.mp h.symm).symm
  | cons row l ih =>
    obtain ⟨row', l'', rfl, hrow, hrest⟩ := List.map_eq_cons_iff.mp h.symm
    obtain ⟨hmem, hl⟩ := List.forall_mem_cons.mp hl
    obtain ⟨hmem', hl'⟩ := List.forall_mem_cons.mp hl'
    have hid : row.id = row'.id := by
      have hids := congrArg AuditEvent.rowId hrow
      rw [(hf row hmem).2.1, (hf row' hmem').2.1] at hids
      exact (Option.some.inj hids).symm
    rw [List.inj_on_of_nodup_map table.nodup hmem hmem' hid, ih hl hl' hrest.symm]

/-- **Exactness.** Whatever rows are inserted above the bound while the pages are read, the loop
ends, and returns every matching event once and in the requested order if and only if a sort by
timestamp is requested, or the timestamps do not go back in id order at the end of a full page. -/
theorem iterFilteredEvents_exact_iff (table : AuditTable) (entityTypeClause : EntityTypeClause)
    (filters : EventFilters) (maxRowId : ℕ)
    (inserts : ℕ → List { row : Row // maxRowId < row.id }) (limit : ℕ+) (fuel : ℕ) :
    ∃ events, iterFilteredEvents (table.page entityTypeClause filters inserts limit) limit
        (table.rows.length + 1 + fuel) 0 none = some (.ok events) ∧
      ((table.bounded entityTypeClause filters maxRowId).mapM rowToEvent = .ok events ↔
        filters.sort ≠ none ∨
          InIdOrder limit (table.bounded entityTypeClause filters maxRowId)) := by
  obtain ⟨f, hf⟩ := table.exists_events
  have hlength : (table.bounded entityTypeClause filters maxRowId).length <
      table.rows.length + 1 + fuel := by
    have hle : (table.bounded entityTypeClause filters maxRowId).length ≤ table.rows.length :=
      length_bounded_le
    omega
  have hall : (table.bounded entityTypeClause filters maxRowId).filter (fun _ => true) =
      table.bounded entityTypeClause filters maxRowId := List.filter_true _
  have hclosed : Keyset.Closed (afterRow filters.sort) (fun _ => true) := fun _ _ _ _ => rfl
  have hcursor : ∀ row ∈ table.bounded entityTypeClause filters maxRowId,
      cursorWhere table.dialect filters.sort none row = true := fun _ _ => rfl
  have hloop : iterFilteredEvents (table.page entityTypeClause filters inserts limit) limit
      (table.rows.length + 1 + fuel) 0 none = _ :=
    iterFilteredEvents_eq hf hclosed hcursor (hall.symm ▸ hlength)
  rw [hall] at hloop
  refine ⟨_, hloop, ?_⟩
  have hevents : (table.bounded entityTypeClause filters maxRowId).mapM rowToEvent =
      .ok ((table.bounded entityTypeClause filters maxRowId).map f) :=
    mapM_eq_ok fun row hrow => (hf row (mem_bounded hrow)).1
  have hpages : Keyset.pages (afterRow filters.sort) limit
      (table.bounded entityTypeClause filters maxRowId) (table.rows.length + 1 + fuel)
        (table.bounded entityTypeClause filters maxRowId) =
          table.bounded entityTypeClause filters maxRowId ↔
        filters.sort ≠ none ∨
          InIdOrder limit (table.bounded entityTypeClause filters maxRowId) := by
    rw [Keyset.pages_eq_self_iff limit.pos nodup_bounded (afterRow_trans filters.sort) hlength]
    by_cases hsort : filters.sort = none
    · rw [follows_iff_inIdOrder limit.pos hsort]
      exact (or_iff_right (not_not.mpr hsort)).symm
    · exact iff_of_true (Keyset.follows_of_pairwise limit.pos nodup_bounded
        (afterRow_irrefl filters.sort) (afterRow_trans filters.sort) (pairwise_afterRow hsort) 0)
        (Or.inl hsort)
  rw [hevents, ← hpages]
  constructor
  · intro h
    refine (eq_of_map_event_eq hf (fun row hrow => mem_bounded hrow) (fun row hrow => ?_)
      (Except.ok.inj h)).symm
    exact mem_bounded (Keyset.mem_of_mem_pages (fun _ => id) hrow)
  · intro h
    rw [h]

/-- Nine and ten o'clock of a day. -/
def nine : DateTime :=
  ⟨{ year := 2026, month := 1, day := 1, hour := 9, utcoffset := some 0 }, by decide⟩

@[inherit_doc nine]
def ten : DateTime :=
  ⟨{ year := 2026, month := 1, day := 1, hour := 10, utcoffset := some 0 }, by decide⟩

/-- The row of an event of a tenant. -/
def sampleRow (id : ℕ) (timestamp : DateTime) : Row where
  id := id
  hash := ""
  eventId := ""
  tenantId := "acme"
  eventType := "anonymization"
  timestamp := .native timestamp

/-- A table whose second row has an earlier timestamp than the first. -/
def steppedBack : AuditTable where
  dialect := .postgresql
  rows := [sampleRow 1 ten, sampleRow 2 nine]
  nodup := by decide
  stamped row hrow := by
    rcases List.mem_pair.mp hrow with rfl | rfl
    · exact ⟨ten, rfl, rfl⟩
    · exact ⟨nine, rfl, rfl⟩

/-- Without a sort, the first row is lost: the cursor at the second one does not select it. -/
theorem not_exact :
    (iterFilteredEvents (steppedBack.page (fun _ _ => true) {}
        (fun _ => [] : ℕ → List { row : Row // 2 < row.id }) 1) 1 3 0 none).map
          (fun result => result.map fun events => events.map AuditEvent.rowId) =
            some (.ok [some 2]) ∧
      ((steppedBack.bounded (fun _ _ => true) {} 2).mapM rowToEvent).map
        (fun events => events.map AuditEvent.rowId) = .ok [some 2, some 1] := by
  constructor
  · simp [iterFilteredEvents, page, getEvents, rowsAt, steppedBack, eventWhere, cursorWhere,
      cursorClause, orderBy, sampleRow, List.mergeSort, List.MergeSort.Internal.splitInTwo]
    decide +kernel
  · simp [bounded, matching, steppedBack, eventWhere, orderBy, sampleRow, List.mergeSort,
      List.MergeSort.Internal.splitInTwo]
    decide +kernel

end AuditTable

end AnonReq.Audit
