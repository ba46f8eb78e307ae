import AnonReq.Breach.Notifications
import AnonReq.Foundation.Characters
import AnonReq.Foundation.Paging
import Mathlib.Data.Int.ConditionallyCompleteOrder
import Mathlib.Data.List.Perm.Basic
import Mathlib.Data.List.Sort
import Mathlib.Order.ConditionallyCompleteLattice.Basic

/-!
# The eDiscovery export

`ediscovery/export.py`: the rows of a tenant in a range of dates are read from three tables, and a
page of them is exported. Each call queries the tables anew; a query whose rows have one time may
return them in any order, and one that fails counts as empty.

* `Complete` says of the calls for one page after the other that they give every record of the
  tenant once, and report what fails; `Exportable` that the database lets them.
* `complete_iff`: the two agree, for every database, tenant, range and page size.
* `not_complete_export`: a tenant without a governance service exports nothing.
-/

namespace AnonReq.Ediscovery

open Breach Paging

/-! ### Queries -/

/-- A table that is exported. -/
inductive Source where
  | lineage
  | dsar
  | breach
deriving DecidableEq

namespace Source

/-- The tables, in the order in which they are exported. -/
def all : List Source := [lineage, dsar, breach]

/-- The column that is compared with the tenant. -/
def tenantColumn : Source → String
  | lineage => "tenant_id"
  | dsar => "tenant_id"
  | breach => "target_id"

/-- The column that is compared with the dates, and that orders the rows. -/
def timeColumn : Source → String
  | lineage => "request_timestamp"
  | dsar => "submitted_at"
  | breach => "created_at"

/-- The type of its records. -/
def type : Source → String
  | lineage => "lineage"
  | dsar => "dsar"
  | breach => "breach"

/-- The time of a row. -/
def time (source : Source) (row : Row) : WithTop ℤ := row.time source.timeColumn

end Source

/-- A range of dates. -/
structure DateRange where
  dateFrom : Option ℤ := none
  dateTo : Option ℤ := none

/-- The time is in the range, which a missing one is not if there is a bound. -/
def DateRange.Contains (range : DateRange) (t : WithTop ℤ) : Prop :=
  (∀ b ∈ range.dateFrom, t ≠ ⊤ ∧ (b : WithTop ℤ) ≤ t) ∧ ∀ b ∈ range.dateTo, t ≤ b

instance (range : DateRange) (t : WithTop ℤ) : Decidable (range.Contains t) :=
  inferInstanceAs (Decidable (_ ∧ _))

/-- `DEFAULT_LIMIT`. -/
def defaultLimit : ℕ := 50

/-- `MAX_LIMIT`. -/
def maxLimit : ℕ := 1000

/-- What the statements of one call meet: the rows of each table, in the order in which they are
found, and whether a query fails. -/
structure Session where
  scan : Source → List Row
  fails : Source → Bool := fun _ => false

/-- The `WHERE` of the statements. -/
def Selects (tenantId : String) (range : DateRange) (source : Source) (row : Row) : Prop :=
  row.get source.tenantColumn = .text tenantId ∧ range.Contains (source.time row)

instance (tenantId : String) (range : DateRange) (source : Source) (row : Row) :
    Decidable (Selects tenantId range source row) :=
  inferInstanceAs (Decidable (_ ∧ _))

/-- The rows of a statement: those selected, the latest first. -/
def selected (tenantId : String) (range : DateRange) (source : Source) (rows : List Row) :
    List Row :=
  (rows.filter fun row => Selects tenantId range source row).insertionSort
    (Order.Preimage source.time (· ≥ ·))

/-- A query, with its `LIMIT` and `OFFSET` if it has them. One that fails returns no rows. -/
def query (session : Session) (tenantId : String) (range : DateRange) (source : Source)
    (window : Option (ℕ × ℕ)) : List Row :=
  if session.fails source then []
  else
    let rows := selected tenantId range source (session.scan source)
    match window with
    | none => rows
    | some (skip, limit) => page rows skip limit

/-- `_query_lineage`. -/
def queryLineage (session : Session) (tenantId : String) (range : DateRange)
    (skip limit : ℕ) : List Row :=
  query session tenantId range .lineage (some (skip, min limit maxLimit))

/-- `_query_dsar`. -/
def queryDsar (session : Session) (tenantId : String) (range : DateRange) : List Row :=
  query session tenantId range .dsar none

/-- `_query_breach_notifications`. -/
def queryBreachNotifications (session : Session) (tenantId : String) (range : DateRange) :
    List Row :=
  query session tenantId range .breach none

/-! ### Records -/

/-- A consolidated record. -/
structure ExportRecord where
  id : Value
  source : List (String × Value)
  tenantId : String
  type : String
  metadata : List (String × Value) := []
deriving DecidableEq

/-- The columns of a lineage row that are exported. -/
def lineageFields : List String :=
  ["session_id", "tenant_id", "provider", "model", "entity_types", "entity_count",
    "policies_applied", "classification_action", "processing_time_ms", "request_timestamp",
    "response_timestamp", "cache_hit", "success", "error_type"]

/-- The fields of a lineage record. -/
def lineageSource (row : Row) : List (String × Value) :=
  lineageFields.filterMap fun field =>
    match Dict.get row.columns field with
    | none | some .null => none
    | some value => some (field, value)

/-- The entity types of a lineage record. -/
def rowTypeSet (source : List (String × Value)) : List String :=
  match (Dict.get source "entity_types").getD (.text "") with
  | .text rowTypes =>
    ((rowTypes.toList.splitOn ',').map Text.strip).filterMap fun t =>
      if t = [] then none else some (String.ofList t)
  | _ => []

section

variable (isoformat : ℤ → String)

/-- The text of a time, or of whatever is in its place. -/
def timeText : Value → String
  | .datetime t => isoformat t
  | .text s => s
  | .null => "None"
  | .number n => toString n
  | .flag b => if b then "True" else "False"

/-- The record of a row. -/
def record (tenantId : String) : Source → Row → ExportRecord
  | .lineage, row =>
    { id := row.get "id", source := lineageSource row, tenantId := tenantId, type := "lineage" }
  | .dsar, row =>
    let submittedAt := Value.text (timeText isoformat (row.get "submitted_at"))
    { id := row.get "id"
      source :=
        [("id", row.get "id"), ("tenant_id", .text tenantId), ("subject_id", row.get "subject_id"),
          ("request_type", row.get "request_type"), ("status", row.get "status"),
          ("submitted_at", submittedAt), ("notes", row.get "notes")]
      tenantId := tenantId
      type := "dsar"
      metadata :=
        [("request_type", row.get "request_type"), ("status", row.get "status"),
          ("subject_id", row.get "subject_id"), ("submitted_at", submittedAt),
          ("notes", row.get "notes")] }
  | .breach, row =>
    let createdAt := Value.text (timeText isoformat (row.get "created_at"))
    { id := row.get "id"
      source :=
        [("id", row.get "id"), ("tenant_id", .text tenantId), ("breach_id", row.get "breach_id"),
          ("target_type", row.get "target_type"), ("target_id", row.get "target_id"),
          ("channel", row.get "channel"), ("template_id", row.get "template_id"),
          ("rendered_subject", row.get "rendered_subject"),
          ("rendered_body", row.get "rendered_body"), ("status", row.get "status"),
          ("created_at", createdAt)]
      tenantId := tenantId
      type := "breach"
      metadata :=
        [("breach_id", row.get "breach_id"), ("target_type", row.get "target_type"),
          ("channel", row.get "channel"), ("status", row.get "status"),
          ("created_at", createdAt)] }

/-- `_collect_records`: what it returns or raises. -/
def collectRecords (session : Session) (tenantId : String) (range : DateRange)
    (entityTypes : List String) : Except String (List ExportRecord) :=
  let lineage := ((queryLineage session tenantId range 0 maxLimit).map
    (record isoformat tenantId .lineage)).filter fun r =>
      entityTypes.isEmpty || (rowTypeSet r.source).any entityTypes.contains
  let dsar := (queryDsar session tenantId range).map (record isoformat tenantId .dsar)
  let breach := (queryBreachNotifications session tenantId range).map
    (record isoformat tenantId .breach)
  .ok (lineage ++ dsar ++ breach)

end

/-! ### Exports -/

/-- `ExportFormat`. -/
inductive ExportFormat where
  | jsonl
  | pdf
  | edrmXml
deriving DecidableEq

/-- `_format_meta`. -/
def formatMeta : ExportFormat → String × String
  | .jsonl => ("application/jsonl", ".jsonl")
  | .pdf => ("application/pdf", ".pdf")
  | .edrmXml => ("application/xml", ".xml")

/-- The arguments of `export`. A format that is none comes with its text. -/
structure ExportRequest where
  tenantId : String
  range : DateRange := {}
  entityTypes : List String := []
  caseReference : Option String := none
  exportFormat : ExportFormat ⊕ String := .inl .jsonl
  skip : ℤ := 0
  limit : ℤ := defaultLimit

/-- `EDRMMetadata`. -/
structure EDRMMetadata where
  caseId : String
  caseName : String
  matter : String
  customer : String
  requestId : String
  requestName : String
  requestType : String := "PRODUCTION"
  notes : String := ""

/-- What is serialized. -/
structure ExportContent where
  records : List ExportRecord
  metadata : EDRMMetadata
  title : String

/-- `eDiscoveryExportResult`. -/
structure ExportResult where
  format : ExportFormat
  content : ExportContent
  contentType : String
  fileExtension : String
  filename : String
  recordCount : ℕ

/-- What `export` raises. -/
inductive ExportError where
  | valueError (message : String)
  | runtimeError (message : String)

/-- The limit and the skip that a page is cut with. -/
def ExportRequest.window (request : ExportRequest) : ℕ × ℕ :=
  let limit := if request.limit < 1 then defaultLimit else request.limit.toNat
  (if request.skip < 0 then 0 else request.skip.toNat, min limit maxLimit)

/-- `export`, with the time as it is written into names. -/
def runExport (isoformat : ℤ → String) (session : Session) (stamp : String)
    (request : ExportRequest) : Except ExportError ExportResult :=
  match request.exportFormat with
  | .inr other => .error (.valueError ("Unsupported export format: " ++ other))
  | .inl format =>
    let (skip, limit) := request.window
    match collectRecords isoformat session request.tenantId request.range request.entityTypes with
    | .error exc => .error (.runtimeError ("eDiscovery export failed: " ++ exc))
    | .ok allRecords =>
      let records := page allRecords skip limit
      let caseReference := request.caseReference.getD ""
      let title := "eDiscovery Export - " ++ request.tenantId
      let metadata : EDRMMetadata :=
        { caseId := caseReference, caseName := title, matter := caseReference
          customer := request.tenantId, requestId := "export_" ++ stamp
          requestName := "Export for " ++ request.tenantId }
      let (contentType, ext) := formatMeta format
      .ok
        { format := format
          content := { records := records, metadata := metadata, title := title }
          contentType := contentType
          fileExtension := ext
          filename := "ediscovery_" ++ request.tenantId ++ "_" ++ stamp ++ ext
          recordCount := records.length }

/-! ### All pages -/

/-- The tables. Each has a primary key. -/
structure Database where
  rows : Source → List Row
  key : ∀ source, ((rows source).map (Row.get · "id")).Nodup

/-- All rows are found, in some order. -/
def Database.Scans (D : Database) (scan : Source → List Row) : Prop :=
  ∀ source, (scan source).Perm (D.rows source)

/-- The row is a record of the tenant: it names the tenant, or it is a notification that was stored
for the tenant. -/
def Owns (tenantId : String) : Source → Row → Prop
  | .lineage, row => row.get "tenant_id" = .text tenantId
  | .dsar, row => row.get "tenant_id" = .text tenantId
  | .breach, row => row.storedFor = some tenantId ∨ row.storedFor = none ∧
      row.get "target_type" = .text "tenant" ∧ row.get "target_id" = .text tenantId

instance (tenantId : String) (source : Source) (row : Row) : Decidable (Owns tenantId source row) :=
  match source with
  | .lineage => inferInstanceAs (Decidable (_ = _))
  | .dsar => inferInstanceAs (Decidable (_ = _))
  | .breach => inferInstanceAs (Decidable (_ ∨ _))

/-- The rows of the tables, table by table. -/
def entries (rows : Source → List Row) : List (Source × Row) :=
  Source.all.flatMap fun source => (rows source).map (Prod.mk source)

/-- The table and the time of a row. -/
def tag (entry : Source × Row) : Source × WithTop ℤ := (entry.1, entry.1.time entry.2)

namespace Database

variable (D : Database) (tenantId : String) (range : DateRange)

/-- The rows of the tenant in the range. -/
def expected : List (Source × Row) :=
  entries fun source => (D.rows source).filter fun row =>
    Owns tenantId source row ∧ range.Contains (source.time row)

/-- The records of the tenant in the range. -/
def records (isoformat : ℤ → String) : List ExportRecord :=
  (D.expected tenantId range).map fun entry => record isoformat tenantId entry.1 entry.2

/-- The tables and the times of the rows that are selected, the latest first. -/
def timeline : List (Source × WithTop ℤ) :=
  Source.all.flatMap fun source =>
    ((((D.rows source).filter fun row => Selects tenantId range source row).map
      source.time).insertionSort (· ≥ ·)).map (Prod.mk source)

end Database

/-- The request for a page: the skip is a multiple of the limit. -/
def pageRequest (tenantId : String) (range : DateRange) (limit : ℤ) (k : ℕ) : ExportRequest where
  tenantId := tenantId
  range := range
  skip := k * limit
  limit := limit

/-- What the call for a page returns. -/
def fetch (isoformat : ℤ → String) (stamp : ℕ → String) (session : ℕ → Session)
    (tenantId : String) (range : DateRange) (limit : ℤ) (k : ℕ) :
    Except ExportError (List ExportRecord) :=
  (runExport isoformat (session k) (stamp k) (pageRequest tenantId range limit k)).map fun result =>
    result.content.records

/-- The call is made: the pages before it are not empty. -/
def Made {ε ρ : Type} (calls : ℕ → Except ε (List ρ)) (k : ℕ) : Prop :=
  ∀ j < k, ∃ page, calls j = .ok page ∧ page ≠ []

/-- Calls give the expected records: a query that fails is reported, and if none fails in a call
that is made, the pages up to the first empty one have the records, once each. -/
structure Delivers {ε ρ : Type} (calls : ℕ → Except ε (List ρ)) (fails : ℕ → Source → Bool)
    (records : List ρ) : Prop where
  reported : ∀ k, Made calls k → (∃ source, fails k source = true) → ∃ e, calls k = .error e
  delivered : (∀ k, Made calls k → ∀ source, fails k source = false) →
    ∃ (pages : ℕ → List ρ) (m : ℕ), (∀ k < m, calls k = .ok (pages k) ∧ pages k ≠ []) ∧
      calls m = .ok [] ∧ ((List.range m).flatMap pages).Perm records

/-- **Complete.** In whatever order the rows are found, the calls for one page after the other give
every record of the tenant in the range once, and nothing else, and report a query that fails. -/
def Complete (isoformat : ℤ → String) (stamp : ℕ → String) (D : Database) (tenantId : String)
    (range : DateRange) (limit : ℤ) (fails : ℕ → Source → Bool) : Prop :=
  ∀ scan : ℕ → Source → List Row, (∀ k, D.Scans (scan k)) →
    Delivers (fetch isoformat stamp (fun k => ⟨scan k, fails k⟩) tenantId range limit) fails
      (D.records tenantId range isoformat)

/-- The database lets the export be complete: there are no more than a thousand lineage rows; the
notifications of the tenant name it as their target; the limit is positive; the rows of one table
and time are on one page; those on a page are the tenant's, and no others are; and no query fails
in the calls up to the first that skips them all. -/
structure Exportable (D : Database) (tenantId : String) (range : DateRange) (limit : ℤ)
    (fails : ℕ → Source → Bool) : Prop where
  fits : ((D.rows .lineage).filter fun row => Selects tenantId range .lineage row).length ≤ maxLimit
  addressed : ∀ source, ∀ row ∈ D.rows source, Owns tenantId source row →
    range.Contains (source.time row) → row.get source.tenantColumn = .text tenantId
  positive : D.timeline tenantId range ≠ [] → 0 < limit
  undivided : Undivided limit.toNat (min limit.toNat maxLimit) (D.timeline tenantId range)
  owned : ∀ source, ∀ row ∈ D.rows source, Selects tenantId range source row →
    ∀ i : ℕ, (D.timeline tenantId range)[i]? = some (source, source.time row) →
      (Owns tenantId source row ↔
        (pageOf limit.toNat (min limit.toNat maxLimit) i).isSome = true)
  answered : ∀ k : ℕ, (∀ j < k, (j : ℤ) * limit < (D.timeline tenantId range).length) →
    ∀ source, fails k source = false

/-! ### Entries -/

theorem mem_entries_iff {rows : Source → List Row} {entry : Source × Row} :
    entry ∈ entries rows ↔ entry.2 ∈ rows entry.1 := by
  obtain ⟨source, row⟩ := entry
  cases source <;> simp [entries, Source.all]

theorem filter_entries (rows : Source → List Row) (source : Source) :
    (entries rows).filter (fun entry => entry.1 = source) = (rows source).map (Prod.mk source) := by
  cases source <;> simp [entries, Source.all, List.filter_map, Function.comp_def]

theorem entries_perm {rows rows' : Source → List Row}
    (h : ∀ source, (rows source).Perm (rows' source)) : (entries rows).Perm (entries rows') :=
  List.Perm.flatMap_left _ fun source _ => (h source).map _

theorem perm_of_entries_perm {rows rows' : Source → List Row}
    (h : (entries rows).Perm (entries rows')) (source : Source) :
    (rows source).Perm (rows' source) := by
  have hfilter := h.filter fun entry => entry.1 = source
  rw [filter_entries, filter_entries] at hfilter
  have hsnd := hfilter.map Prod.snd
  rwa [List.map_map, List.map_map, show Prod.snd ∘ Prod.mk source = (id : Row → Row) from rfl,
    List.map_id, List.map_id] at hsnd

/-- A list with the tags of entries is the entries of rows with the same times. -/
theorem exists_entries {rows : Source → List Row} {l : List (Source × Row)}
    (h : l.map tag = (entries rows).map tag) :
    ∃ rows', l = entries rows' ∧
      ∀ source, (rows' source).map source.time = (rows source).map source.time := by
  have hpart : ∀ (source : Source) (part : List (Source × Row)),
      part.map tag = ((rows source).map (Prod.mk source)).map tag →
        part = (part.map Prod.snd).map (Prod.mk source) ∧
          (part.map Prod.snd).map source.time = (rows source).map source.time := by
    intro source part hpart
    have hsource : ∀ entry ∈ part, entry.1 = source := by
      intro entry hentry
      have hmem : tag entry ∈ ((rows source).map (Prod.mk source)).map tag :=
        hpart ▸ List.mem_map_of_mem hentry
      obtain ⟨entry', hentry', htag⟩ := List.mem_map.mp hmem
      obtain ⟨row, -, rfl⟩ := List.mem_map.mp hentry'
      exact (congrArg Prod.fst htag).symm
    constructor
    · rw [List.map_map]
      conv_lhs => rw [← List.map_id part]
      exact List.map_congr_left fun entry hentry => Prod.ext (hsource entry hentry) rfl
    · have htimes := congrArg (List.map Prod.snd) hpart
      rw [List.map_map, List.map_map, List.map_map] at htimes
      rw [List.map_map]
      refine Eq.trans (List.map_congr_left fun entry hentry => ?_) htimes
      rw [Function.comp_apply, Function.comp_apply, tag, hsource entry hentry]
  simp only [entries, Source.all, List.flatMap_cons, List.flatMap_nil, List.append_nil,
    List.map_append] at h
  obtain ⟨lineage, rest, rfl, hlineage, hrest⟩ := List.map_eq_append_iff.mp h
  obtain ⟨dsar, breach, rfl, hdsar, hbreach⟩ := List.map_eq_append_iff.mp hrest
  refine ⟨fun source => match source with
    | .lineage => lineage.map Prod.snd
    | .dsar => dsar.map Prod.snd
    | .breach => breach.map Prod.snd, ?_, fun source => ?_⟩
  · simp only [entries, Source.all, List.flatMap_cons, List.flatMap_nil, List.append_nil]
    rw [← (hpart _ _ hlineage).1, ← (hpart _ _ hdsar).1, ← (hpart _ _ hbreach).1]
  · cases source with
    | lineage => exact (hpart _ _ hlineage).2
    | dsar => exact (hpart _ _ hdsar).2
    | breach => exact (hpart _ _ hbreach).2

/-! ### Selections -/

variable {D : Database} {tenantId : String} {range : DateRange}

theorem perm_selected {source : Source} (rows : List Row) :
    (selected tenantId range source rows).Perm
      (rows.filter fun row => Selects tenantId range source row) :=
  List.perm_insertionSort _ _

theorem mem_selected_iff {source : Source} {rows : List Row} {row : Row} :
    row ∈ selected tenantId range source rows ↔ row ∈ rows ∧ Selects tenantId range source row := by
  rw [(perm_selected rows).mem_iff, List.mem_filter, decide_eq_true_iff]

/-- The times of the rows selected do not depend on the order in which they are found. -/
theorem map_time_selected (source : Source) (rows : List Row) :
    (selected tenantId range source rows).map source.time =
      ((rows.filter fun row => Selects tenantId range source row).map
        source.time).insertionSort (· ≥ ·) :=
  List.map_insertionSort _ _ _ _ fun _ _ _ _ => Iff.rfl

/-- The rows that are selected, table by table. -/
def selection (tenantId : String) (range : DateRange) (rows : Source → List Row) :
    List (Source × Row) :=
  entries fun source => selected tenantId range source (rows source)

theorem map_tag_selection :
    (selection tenantId range D.rows).map tag = D.timeline tenantId range := by
  unfold selection entries Database.timeline
  rw [List.map_flatMap]
  refine List.flatMap_congr fun source _ => ?_
  rw [← map_time_selected, List.map_map, List.map_map]
  rfl

/-- What a call finds is an arrangement of the rows selected. -/
theorem isArrangement_selection {scan : Source → List Row} (hscan : D.Scans scan) :
    IsArrangement tag (selection tenantId range D.rows) (selection tenantId range scan) := by
  have hfilter : ∀ source, ((scan source).filter fun row => Selects tenantId range source row).Perm
      ((D.rows source).filter fun row => Selects tenantId range source row) :=
    fun source => (hscan source).filter _
  refine ⟨entries_perm fun source => ?_, ?_⟩
  · exact (perm_selected _).trans ((hfilter source).trans (perm_selected _).symm)
  · unfold selection entries
    rw [List.map_flatMap, List.map_flatMap]
    refine List.flatMap_congr fun source _ => ?_
    have htimes : (selected tenantId range source (scan source)).map source.time =
        (selected tenantId range source (D.rows source)).map source.time := by
      rw [map_time_selected, map_time_selected]
      refine List.Perm.eq_of_pairwise' (r := (· ≥ ·)) (List.pairwise_insertionSort _ _)
        (List.pairwise_insertionSort _ _) ?_
      exact (List.perm_insertionSort _ _).trans
        (((hfilter source).map _).trans (List.perm_insertionSort _ _).symm)
    have htags := congrArg (List.map (Prod.mk source)) htimes
    rw [List.map_map, List.map_map] at htags ⊢
    exact htags

/-- Every arrangement of the rows selected is what some call finds. -/
theorem exists_scan {l : List (Source × Row)}
    (h : IsArrangement tag (selection tenantId range D.rows) l) :
    ∃ scan, D.Scans scan ∧ selection tenantId range scan = l := by
  obtain ⟨rows, rfl, htimes⟩ := exists_entries h.2
  have hperm := perm_of_entries_perm h.1
  let rest : Source → List Row := fun source =>
    (D.rows source).filter fun row => !decide (Selects tenantId range source row)
  refine ⟨fun source => rows source ++ rest source, fun source => ?_, ?_⟩
  · exact (((hperm source).trans (perm_selected _)).append_right _).trans
      (List.filter_append_perm _ _)
  · refine congrArg entries (funext fun source => ?_)
    have hfilter : ((rows source ++ rest source).filter
        fun row => Selects tenantId range source row) = rows source := by
      rw [List.filter_append, List.filter_eq_self.mpr, List.filter_eq_nil_iff.mpr, List.append_nil]
      · intro row hrow
        simpa using (List.mem_filter.mp hrow).2
      · intro row hrow
        exact decide_eq_true (mem_selected_iff.mp ((hperm source).mem_iff.mp hrow)).2
    rw [selected, hfilter]
    refine List.Pairwise.insertionSort_eq ?_
    have hsorted : ((rows source).map source.time).Pairwise (· ≥ ·) := by
      rw [htimes, map_time_selected]
      exact List.pairwise_insertionSort _ _
    have hrows := List.pairwise_map.mp hsorted
    exact hrows

/-! ### Calls -/

/-- The rows that a call collects. -/
def collected (tenantId : String) (range : DateRange) (session : Session) : List (Source × Row) :=
  entries fun source =>
    match source with
    | .lineage => queryLineage session tenantId range 0 maxLimit
    | .dsar => queryDsar session tenantId range
    | .breach => queryBreachNotifications session tenantId range

/-- The size of a page. -/
def pageSize (limit : ℤ) : ℕ := min (if limit < 1 then defaultLimit else limit.toNat) maxLimit

theorem pageSize_pos (limit : ℤ) : 0 < pageSize limit := by
  unfold pageSize defaultLimit maxLimit
  split_ifs <;> omega

theorem pageSize_of_pos {limit : ℤ} (h : 0 < limit) :
    pageSize limit = min limit.toNat maxLimit := by
  rw [pageSize, if_neg (by omega)]

theorem window_pageRequest (tenantId : String) (range : DateRange) (limit : ℤ) (k : ℕ) :
    (pageRequest tenantId range limit k).window = (((k : ℤ) * limit).toNat, pageSize limit) := by
  refine Prod.ext ?_ rfl
  by_cases h : (k : ℤ) * limit < 0
  · exact (if_pos h).trans (Int.toNat_of_nonpos h.le).symm
  · exact if_neg h

/-- **A call** returns a page of the records that it collects. It raises nothing. -/
theorem fetch_eq (isoformat : ℤ → String) (stamp : ℕ → String) (session : ℕ → Session)
    (tenantId : String) (range : DateRange) (limit : ℤ) (k : ℕ) :
    fetch isoformat stamp session tenantId range limit k =
      .ok ((page (collected tenantId range (session k)) ((k : ℤ) * limit).toNat
        (pageSize limit)).map fun entry => record isoformat tenantId entry.1 entry.2) := by
  have hrecords : collectRecords isoformat (session k) tenantId range [] =
      .ok ((collected tenantId range (session k)).map fun entry =>
        record isoformat tenantId entry.1 entry.2) := by
    simp [collectRecords, collected, entries, Source.all, Function.comp_def]
  unfold fetch runExport
  rw [map_page]
  simp only [window_pageRequest]
  simp only [pageRequest, hrecords, Except.map]

theorem collected_of_answered {session : Session} (h : ∀ source, session.fails source = false) :
    collected tenantId range session = entries fun source =>
      if source = .lineage then (selected tenantId range source (session.scan source)).take maxLimit
      else selected tenantId range source (session.scan source) := by
  refine congrArg entries (funext fun source => ?_)
  cases source <;>
    simp [queryLineage, queryDsar, queryBreachNotifications, query, h, page]

/-- With at most a thousand lineage rows, a call collects all rows that are selected. -/
theorem collected_eq {scan : Source → List Row} {fails : Source → Bool}
    (hscan : D.Scans scan) (hfails : ∀ source, fails source = false)
    (hfits : ((D.rows .lineage).filter fun row =>
      Selects tenantId range .lineage row).length ≤ maxLimit) :
    collected tenantId range ⟨scan, fails⟩ = selection tenantId range scan := by
  rw [collected_of_answered hfails]
  refine congrArg entries (funext fun source => ?_)
  split_ifs with hsource
  · subst hsource
    refine List.take_of_length_le ?_
    rw [(perm_selected _).length_eq, ((hscan .lineage).filter _).length_eq]
    exact hfits
  · rfl

/-! ### Rows and records -/

theorem type_injective : Function.Injective Source.type := by
  intro source source' h
  cases source <;> cases source' <;> first | rfl | exact absurd h (by decide)

theorem type_record (isoformat : ℤ → String) (tenantId : String) (source : Source) (row : Row) :
    (record isoformat tenantId source row).type = source.type := by
  cases source <;> rfl

theorem id_record (isoformat : ℤ → String) (tenantId : String) (source : Source) (row : Row) :
    (record isoformat tenantId source row).id = row.get "id" := by
  cases source <;> rfl

/-- Different rows of the database have different records. -/
theorem record_injOn (D : Database) (isoformat : ℤ → String) (tenantId : String) :
    Set.InjOn (fun entry : Source × Row => record isoformat tenantId entry.1 entry.2)
      {entry | entry.2 ∈ D.rows entry.1} := by
  rintro ⟨source, row⟩ hrow ⟨source', row'⟩ hrow' heq
  have htype := congrArg ExportRecord.type heq
  have hid := congrArg ExportRecord.id heq
  rw [type_record, type_record] at htype
  rw [id_record, id_record] at hid
  obtain rfl : source = source' := type_injective htype
  exact Prod.ext rfl (List.inj_on_of_nodup_map (D.key source) hrow hrow' hid)

theorem nodup_entries {rows : Source → List Row} (h : ∀ source, (rows source).Nodup) :
    (entries rows).Nodup := by
  refine List.nodup_flatMap.mpr ⟨fun source _ => ?_, ?_⟩
  · exact (h source).map fun _ _ heq => congrArg Prod.snd heq
  · have hall : Source.all.Nodup := by decide
    refine hall.imp fun hne entry hentry hentry' => hne ?_
    obtain ⟨row, -, rfl⟩ := List.mem_map.mp hentry
    obtain ⟨row', -, heq⟩ := List.mem_map.mp hentry'
    exact (congrArg Prod.fst heq).symm

theorem nodup_rows (D : Database) (source : Source) : (D.rows source).Nodup :=
  (D.key source).of_map

theorem nodup_expected : (D.expected tenantId range).Nodup :=
  nodup_entries fun source => (nodup_rows D source).filter _

theorem nodup_selection : (selection tenantId range D.rows).Nodup :=
  nodup_entries fun source => (perm_selected _).nodup_iff.mpr ((nodup_rows D source).filter _)

theorem mem_expected {entry : Source × Row} : entry ∈ D.expected tenantId range ↔
    entry.2 ∈ D.rows entry.1 ∧ Owns tenantId entry.1 entry.2 ∧
      range.Contains (entry.1.time entry.2) := by
  rw [Database.expected, mem_entries_iff, List.mem_filter, decide_eq_true_iff]

theorem mem_selection {entry : Source × Row} : entry ∈ selection tenantId range D.rows ↔
    entry.2 ∈ D.rows entry.1 ∧ Selects tenantId range entry.1 entry.2 := by
  rw [selection, mem_entries_iff, mem_selected_iff]

theorem mem_collected {session : Session} {entry : Source × Row}
    (h : entry ∈ collected tenantId range session) :
    entry.2 ∈ session.scan entry.1 ∧ Selects tenantId range entry.1 entry.2 := by
  obtain ⟨source, row⟩ := entry
  have hquery : ∀ window, row ∈ query session tenantId range source window →
      row ∈ session.scan source ∧ Selects tenantId range source row := by
    intro window hrow
    unfold query at hrow
    split_ifs at hrow with hfails
    · exact absurd hrow List.not_mem_nil
    · cases window with
      | none => exact mem_selected_iff.mp hrow
      | some window => exact mem_selected_iff.mp (List.mem_of_mem_drop (List.mem_of_mem_take hrow))
  have hrow := mem_entries_iff.mp h
  cases source with
  | lineage => exact hquery _ hrow
  | dsar => exact hquery _ hrow
  | breach => exact hquery _ hrow

/-- Where the notifications name their tenant, the rows of the tenant are selected. -/
theorem expected_subset (h : ∀ source, ∀ row ∈ D.rows source, Owns tenantId source row →
    range.Contains (source.time row) → row.get source.tenantColumn = .text tenantId) :
    D.expected tenantId range ⊆ selection tenantId range D.rows := by
  rintro ⟨source, row⟩ hmem
  obtain ⟨hrow, howns, hrange⟩ := mem_expected.mp hmem
  exact mem_selection.mpr ⟨hrow, h source row hrow howns hrange, hrange⟩

/-- A row that is selected is expected if and only if it is the tenant's. -/
theorem mem_expected_iff_owns {source : Source} {row : Row} (hrow : row ∈ D.rows source)
    (hselects : Selects tenantId range source row) :
    (source, row) ∈ D.expected tenantId range ↔ Owns tenantId source row := by
  rw [mem_expected]
  exact ⟨fun hexpected => hexpected.2.1, fun howns => ⟨hrow, howns, hselects.2⟩⟩

/-! ### What is needed -/

variable {isoformat : ℤ → String} {stamp : ℕ → String} {limit : ℤ}
  {fails : ℕ → Source → Bool}

theorem toNat_skip (hlimit : 0 < limit) (k : ℕ) : ((k : ℤ) * limit).toNat = k * limit.toNat := by
  rw [Int.toNat_mul (Int.natCast_nonneg k) hlimit.le, Int.toNat_natCast]

theorem toNat_skip_of_nonpos (hlimit : ¬ 0 < limit) (k : ℕ) : ((k : ℤ) * limit).toNat = 0 :=
  Int.toNat_of_nonpos (Int.mul_nonpos_of_nonneg_of_nonpos (Int.natCast_nonneg k) (not_lt.mp hlimit))

/-- In calls that give the expected records no query fails, and the pages have the rows of the
tenant. -/
theorem Delivers.pages {scan : ℕ → Source → List Row} (hscan : ∀ k, D.Scans (scan k))
    (h : Delivers (fetch isoformat stamp (fun k => ⟨scan k, fails k⟩) tenantId range limit) fails
      (D.records tenantId range isoformat)) :
    (∀ k, Made (fetch isoformat stamp (fun k => ⟨scan k, fails k⟩) tenantId range limit) k →
      ∀ source, fails k source = false) ∧
    ∃ m : ℕ,
      (∀ k < m, page (collected tenantId range ⟨scan k, fun _ => false⟩) ((k : ℤ) * limit).toNat
        (pageSize limit) ≠ []) ∧
      page (collected tenantId range ⟨scan m, fun _ => false⟩) ((m : ℤ) * limit).toNat
        (pageSize limit) = [] ∧
      ((List.range m).flatMap fun k => page (collected tenantId range ⟨scan k, fun _ => false⟩)
        ((k : ℤ) * limit).toNat (pageSize limit)).Perm (D.expected tenantId range) := by
  have hanswered : ∀ k, Made (fetch isoformat stamp (fun k => ⟨scan k, fails k⟩) tenantId range
      limit) k → ∀ source, fails k source = false := by
    intro k hmade source
    by_contra hfails
    obtain ⟨e, he⟩ := h.reported k hmade ⟨source, by simpa using hfails⟩
    rw [fetch_eq] at he
    cases he
  refine ⟨hanswered, ?_⟩
  obtain ⟨pages, m, hpages, hend, hperm⟩ := h.delivered hanswered
  have hmade : ∀ k ≤ m, Made (fetch isoformat stamp (fun k => ⟨scan k, fails k⟩) tenantId range
      limit) k := fun k hk j hj => ⟨pages j, hpages j (lt_of_lt_of_le hj hk)⟩
  have hfetch : ∀ k ≤ m, fetch isoformat stamp (fun k => ⟨scan k, fails k⟩) tenantId range limit k =
      .ok ((page (collected tenantId range ⟨scan k, fun _ => false⟩) ((k : ℤ) * limit).toNat
        (pageSize limit)).map fun entry => record isoformat tenantId entry.1 entry.2) := by
    intro k hk
    rw [fetch_eq, funext (hanswered k (hmade k hk))]
  have hsame : ∀ k < m, pages k = (page (collected tenantId range ⟨scan k, fun _ => false⟩)
      ((k : ℤ) * limit).toNat (pageSize limit)).map
        fun entry => record isoformat tenantId entry.1 entry.2 :=
    fun k hk => Except.ok.inj ((hpages k hk).1.symm.trans (hfetch k hk.le))
  refine ⟨m, fun k hk hnil => ?_, ?_, ?_⟩
  · refine (hpages k hk).2 ?_
    rw [hsame k hk, hnil, List.map_nil]
  · exact List.map_eq_nil_iff.mp (Except.ok.inj ((hfetch m le_rfl).symm.trans hend))
  · refine perm_of_perm_map ((record_injOn D isoformat tenantId).mono ?_) ?_
    · rintro entry (hentry | hentry)
      · obtain ⟨k, -, hk⟩ := List.mem_flatMap.mp hentry
        have hmem := mem_collected (List.mem_of_mem_drop (List.mem_of_mem_take hk))
        exact (hscan k entry.1).mem_iff.mp hmem.1
      · exact (mem_expected.mp hentry).1
    · rw [List.map_flatMap]
      refine (List.Perm.of_eq (List.flatMap_congr fun k hk => ?_)).trans hperm
      exact (hsame k (List.mem_range.mp hk)).symm

/-- The rows of the tenant are among those that a call collects. -/
theorem subperm_of_complete (h : Complete isoformat stamp D tenantId range limit fails) :
    (D.expected tenantId range).Subperm
      (collected tenantId range ⟨D.rows, fun _ => false⟩) := by
  have hself : ∀ _ : ℕ, D.Scans D.rows := fun _ _ => List.Perm.refl _
  obtain ⟨-, m, hpages, hend, hperm⟩ := (h _ hself).pages hself
  refine (hperm.symm.subperm).trans (List.Sublist.subperm ?_)
  by_cases hlimit : 0 < limit
  · have hsize : pageSize limit ≤ limit.toNat := by
      rw [pageSize_of_pos hlimit]
      exact min_le_left _ _
    simp only [toNat_skip hlimit]
    exact pages_sublist hsize _ m
  · rw [page_eq_nil_iff (pageSize_pos limit), toNat_skip_of_nonpos hlimit] at hend
    rw [List.length_eq_zero_iff.mp (Nat.le_zero.mp hend)]
    simp [page]

theorem fits_of_complete (h : Complete isoformat stamp D tenantId range limit fails) :
    ((D.rows .lineage).filter fun row => Selects tenantId range .lineage row).length ≤
      maxLimit := by
  have hlength := ((subperm_of_complete h).filter fun entry => entry.1 = .lineage).length_le
  rw [collected_of_answered fun _ => rfl, Database.expected, filter_entries, filter_entries,
    List.length_map, List.length_map, if_pos rfl] at hlength
  exact hlength.trans (List.length_take_le _ _)

theorem addressed_of_complete (h : Complete isoformat stamp D tenantId range limit fails)
    {source : Source} {row : Row} (hrow : row ∈ D.rows source) (howns : Owns tenantId source row)
    (hrange : range.Contains (source.time row)) :
    row.get source.tenantColumn = .text tenantId := by
  have hmem : (source, row) ∈ D.expected tenantId range := mem_expected.mpr ⟨hrow, howns, hrange⟩
  exact (mem_collected ((subperm_of_complete h).subset hmem)).2.1

theorem length_selection :
    (selection tenantId range D.rows).length = (D.timeline tenantId range).length := by
  rw [← map_tag_selection, List.length_map]

/-- With at most a thousand lineage rows, a call collects an arrangement of the rows selected. -/
theorem length_collected {scan : Source → List Row} {fails : Source → Bool}
    (hscan : D.Scans scan) (hfails : ∀ source, fails source = false)
    (hfits : ((D.rows .lineage).filter fun row =>
      Selects tenantId range .lineage row).length ≤ maxLimit) :
    (collected tenantId range ⟨scan, fails⟩).length = (D.timeline tenantId range).length := by
  rw [collected_eq hscan hfails hfits, (isArrangement_selection hscan).1.length_eq,
    length_selection]

theorem positive_of_complete (h : Complete isoformat stamp D tenantId range limit fails)
    (hne : D.timeline tenantId range ≠ []) : 0 < limit := by
  have hself : ∀ _ : ℕ, D.Scans D.rows := fun _ _ => List.Perm.refl _
  obtain ⟨-, m, -, hend, -⟩ := (h _ hself).pages hself
  by_contra hlimit
  rw [page_eq_nil_iff (pageSize_pos limit), toNat_skip_of_nonpos hlimit,
    length_collected (hself 0) (fun _ => rfl) (fits_of_complete h)] at hend
  exact hne (List.length_eq_zero_iff.mp (Nat.le_zero.mp hend))

/-- The number of the pages that are not empty. -/
theorem eq_of_pages {n step m m' : ℕ} (h : ∀ k < m, k * step < n) (hend : n ≤ m * step)
    (h' : ∀ k < m', k * step < n) (hend' : n ≤ m' * step) : m = m' := by
  obtain hlt | heq | hlt := lt_trichotomy m m'
  · exact absurd (h' m hlt) (not_lt.mpr hend)
  · exact heq
  · exact absurd (h m' hlt) (not_lt.mpr hend')

/-- However the rows are arranged, the pages have the rows of the tenant. -/
theorem perm_pages_of_complete (h : Complete isoformat stamp D tenantId range limit fails)
    (hlimit : 0 < limit) :
    ∃ m, (selection tenantId range D.rows).length ≤ m * limit.toNat ∧
      ∀ lists : ℕ → List (Source × Row),
        (∀ k, IsArrangement tag (selection tenantId range D.rows) (lists k)) →
          (Paging.pages lists limit.toNat (min limit.toNat maxLimit) m).Perm
            (D.expected tenantId range) := by
  have hcount : ∀ (scan : ℕ → Source → List Row) (hscan : ∀ k, D.Scans (scan k)), ∃ m,
      (∀ k < m, k * limit.toNat < (selection tenantId range D.rows).length) ∧
      (selection tenantId range D.rows).length ≤ m * limit.toNat ∧
      (Paging.pages (fun k => selection tenantId range (scan k)) limit.toNat
        (min limit.toNat maxLimit) m).Perm (D.expected tenantId range) := by
    intro scan hscan
    obtain ⟨-, m, hpages, hend, hperm⟩ := (h scan hscan).pages hscan
    have hlength : ∀ k, (collected tenantId range ⟨scan k, fun _ => false⟩).length =
        (selection tenantId range D.rows).length := fun k => by
      rw [length_collected (hscan k) (fun _ => rfl) (fits_of_complete h), length_selection]
    refine ⟨m, fun k hk => ?_, ?_, ?_⟩
    · have hne := hpages k hk
      rwa [ne_eq, page_eq_nil_iff (pageSize_pos limit), hlength, toNat_skip hlimit,
        not_le] at hne
    · rwa [page_eq_nil_iff (pageSize_pos limit), hlength, toNat_skip hlimit] at hend
    · simpa only [Paging.pages, toNat_skip hlimit, pageSize_of_pos hlimit,
        collected_eq (hscan _) (fun _ => rfl) (fits_of_complete h)] using hperm
  have hself : ∀ _ : ℕ, D.Scans D.rows := fun _ _ => List.Perm.refl _
  obtain ⟨m, hm, hend, -⟩ := hcount _ hself
  refine ⟨m, hend, fun lists hlists => ?_⟩
  choose scan hscan hselection using fun k => exists_scan (hlists k)
  obtain ⟨m', hm', hend', hperm⟩ := hcount scan hscan
  rw [eq_of_pages hm hend hm' hend']
  simpa only [hselection] using hperm

/-- A property of the numbers below a bound, each by the smaller ones. -/
theorem forall_lt_of_step {P Q : ℕ → Prop} (hstep : ∀ j, (∀ i < j, P i) → (∀ i ≤ j, Q i) → P j)
    {k : ℕ} (hk : ∀ j < k, Q j) : ∀ j < k, P j := by
  intro j
  induction j using Nat.strong_induction_on with
  | _ j ih =>
    intro hj
    exact hstep j (fun i hi => ih i hi (hi.trans hj)) fun i hi => hk i (hi.trans_lt hj)

/-- **Needed.** Where the export is complete, the database lets it be. -/
theorem exportable_of_complete (h : Complete isoformat stamp D tenantId range limit fails) :
    Exportable D tenantId range limit fails := by
  have hself : ∀ _ : ℕ, D.Scans D.rows := fun _ _ => List.Perm.refl _
  have hfits := fits_of_complete h
  have hsub : D.expected tenantId range ⊆ selection tenantId range D.rows :=
    expected_subset fun source row => addressed_of_complete h
  have hpaged : Undivided limit.toNat (min limit.toNat maxLimit) (D.timeline tenantId range) ∧
      Owned limit.toNat (min limit.toNat maxLimit) tag (selection tenantId range D.rows)
        (D.expected tenantId range) := by
    by_cases hempty : D.timeline tenantId range = []
    · have hnil : selection tenantId range D.rows = [] :=
        List.length_eq_zero_iff.mp (by rw [length_selection, hempty]; rfl)
      rw [hempty, hnil]
      exact ⟨fun i j κ hi => by simp at hi, fun entry hentry => absurd hentry List.not_mem_nil⟩
    · obtain ⟨m, hm, hperm⟩ := perm_pages_of_complete h (positive_of_complete h hempty)
      rw [← map_tag_selection]
      exact (perm_pages_iff (min_le_left _ _) nodup_selection nodup_expected hsub hm).mp hperm
  refine ⟨hfits, fun source row hrow howns hrange => addressed_of_complete h hrow howns hrange,
    positive_of_complete h, hpaged.1, fun source row hrow hselects i hi => ?_, ?_⟩
  · rw [← hpaged.2 (source, row) (mem_selection.mpr ⟨hrow, hselects⟩) i
      (map_tag_selection ▸ hi), mem_expected_iff_owns hrow hselects]
  · -- the calls that are made are those before which the rows are not yet skipped
    have hanswered := ((h _ hself).pages hself).1
    have hmade : ∀ k : ℕ, (∀ j < k, (j : ℤ) * limit < (D.timeline tenantId range).length) →
        Made (fetch isoformat stamp (fun k => ⟨D.rows, fails k⟩) tenantId range limit) k := by
      intro k hk
      refine forall_lt_of_step (fun j hbefore hskips => ?_) hk
      refine ⟨_, fetch_eq .., fun hnil => ?_⟩
      rw [List.map_eq_nil_iff, page_eq_nil_iff (pageSize_pos limit),
        length_collected (hself 0) (hanswered j hbefore) hfits] at hnil
      have hpos := hskips 0 (Nat.zero_le j)
      have hskip := hskips j le_rfl
      rw [Int.natCast_zero, Int.zero_mul] at hpos
      omega
    exact fun k hk => hanswered k (hmade k hk)

/-! ### What is enough -/

/-- **Enough.** Where the database lets it be, the export is complete. -/
theorem complete_of_exportable (h : Exportable D tenantId range limit fails) :
    Complete isoformat stamp D tenantId range limit fails := by
  intro scan hscan
  have hmade : ∀ k : ℕ,
      Made (fetch isoformat stamp (fun k => ⟨scan k, fails k⟩) tenantId range limit) k →
        ∀ j < k, (j : ℤ) * limit < (D.timeline tenantId range).length := by
    intro k hk
    refine forall_lt_of_step (fun j hbefore hpages => ?_) hk
    obtain ⟨records, hrecords, hne⟩ := hpages j le_rfl
    rw [fetch_eq] at hrecords
    obtain rfl := Except.ok.inj hrecords
    rw [ne_eq, List.map_eq_nil_iff, page_eq_nil_iff (pageSize_pos limit),
      length_collected (hscan j) (h.answered j hbefore) h.fits, not_le] at hne
    exact lt_of_le_of_lt (Int.self_le_toNat _) (Int.ofNat_lt.mpr hne)
  refine ⟨fun k hk ⟨source, hfails⟩ => ?_, fun _ => ?_⟩
  · rw [h.answered k (hmade k hk) source] at hfails
    cases hfails
  · have hsub := expected_subset h.addressed
    by_cases hempty : D.timeline tenantId range = []
    · have hnil : selection tenantId range D.rows = [] :=
        List.length_eq_zero_iff.mp (by rw [length_selection, hempty]; rfl)
      have hnone : D.expected tenantId range = [] :=
        List.eq_nil_of_subset_nil (hnil ▸ hsub)
      refine ⟨fun _ => [], 0, fun k hk => absurd hk (Nat.not_lt_zero k), ?_, ?_⟩
      · rw [fetch_eq, Except.ok.injEq, List.map_eq_nil_iff, page_eq_nil_iff (pageSize_pos limit),
          length_collected (hscan 0) (h.answered 0 fun j hj => absurd hj (Nat.not_lt_zero j))
            h.fits, hempty]
        exact Nat.zero_le _
      · rw [Database.records, hnone]
        exact List.Perm.refl _
    · have hlimit := h.positive hempty
      have hstep : 0 < limit.toNat := Int.pos_iff_toNat_pos.mp hlimit
      have hexists : ∃ m, (D.timeline tenantId range).length ≤ m * limit.toNat :=
        ⟨_, Nat.le_mul_of_pos_right _ hstep⟩
      let m := Nat.find hexists
      have hend : (D.timeline tenantId range).length ≤ m * limit.toNat := Nat.find_spec hexists
      have hbefore : ∀ k < m, k * limit.toNat < (D.timeline tenantId range).length :=
        fun k hk => not_le.mp (Nat.find_min hexists hk)
      have hanswered : ∀ k ≤ m, ∀ source, fails k source = false := by
        refine fun k hk => h.answered k fun j hj => ?_
        have hlt := hbefore j (lt_of_lt_of_le hj hk)
        rw [← toNat_skip hlimit] at hlt
        exact lt_of_le_of_lt (Int.self_le_toNat _) (Int.ofNat_lt.mpr hlt)
      have hfetch : ∀ k ≤ m, fetch isoformat stamp (fun k => ⟨scan k, fails k⟩) tenantId range
          limit k = .ok ((page (selection tenantId range (scan k)) (k * limit.toNat)
            (min limit.toNat maxLimit)).map
              fun entry => record isoformat tenantId entry.1 entry.2) := by
        intro k hk
        rw [fetch_eq, collected_eq (hscan k) (hanswered k hk) h.fits, toNat_skip hlimit,
          pageSize_of_pos hlimit]
      have hlength : ∀ k, (selection tenantId range (scan k)).length =
          (D.timeline tenantId range).length := fun k => by
        rw [(isArrangement_selection (hscan k)).1.length_eq, length_selection]
      have hsize : 0 < min limit.toNat maxLimit := lt_min hstep (by decide)
      have howned : Owned limit.toNat (min limit.toNat maxLimit) tag
          (selection tenantId range D.rows) (D.expected tenantId range) := by
        rintro ⟨source, row⟩ hmem i hi
        obtain ⟨hrow, hselects⟩ := mem_selection.mp hmem
        rw [← h.owned source row hrow hselects i (map_tag_selection ▸ hi)]
        exact mem_expected_iff_owns hrow hselects
      have hperm := perm_pages (min_le_left _ _) nodup_selection nodup_expected hsub
        (map_tag_selection (D := D) ▸ h.undivided) howned
        (fun k => isArrangement_selection (hscan k)) (length_selection.trans_le hend)
      refine ⟨fun k => (page (selection tenantId range (scan k)) (k * limit.toNat)
        (min limit.toNat maxLimit)).map fun entry => record isoformat tenantId entry.1 entry.2,
        m, fun k hk => ⟨hfetch k hk.le, fun hnil => ?_⟩, ?_, ?_⟩
      · rw [List.map_eq_nil_iff, page_eq_nil_iff hsize, hlength] at hnil
        exact absurd (hbefore k hk) (not_lt.mpr hnil)
      · rw [hfetch m le_rfl, (page_eq_nil_iff hsize).mpr ((hlength m).trans_le hend), List.map_nil]
      · have hmap := hperm.map fun entry => record isoformat tenantId entry.1 entry.2
        rwa [Paging.pages, List.map_flatMap] at hmap

/-- **The export.** For every database, tenant, range and page size, the export is complete if and
only if the database lets it be. -/
theorem complete_iff (isoformat : ℤ → String) (stamp : ℕ → String) (D : Database)
    (tenantId : String) (range : DateRange) (limit : ℤ) (fails : ℕ → Source → Bool) :
    Complete isoformat stamp D tenantId range limit fails ↔
      Exportable D tenantId range limit fails :=
  ⟨exportable_of_complete, complete_of_exportable⟩

/-! ### Notifications -/

/-- A notifier without a governance service. -/
def plainNotifier : BreachNotifier where
  render framework region _ := some
    { templateId := framework ++ "-" ++ region ++ "-en", subject := "Data breach", body := "" }

/-- A breach that affects one tenant, of a framework without a regulator. -/
def exampleIncident : Incident where
  breachId := "breach_1"
  framework := "ccpa"
  description := "lost laptop"
  affectedTenants := ["acme"]

/-- The database after the notifications of the breach are sent. -/
def notifiedDatabase : Database where
  rows
    | .breach =>
      (plainNotifier.sendBreachNotifications exampleIncident "2026-01-01" 0 []
        [⟨"notif_1", true⟩]).1
    | _ => []
  key source := by
    cases source with
    | breach => exact (plainNotifier.extends_sendBreachNotifications ..).key List.nodup_nil
    | _ => exact List.nodup_nil

/-- **Unknown contact.** The notification of a tenant is stored, and its export is empty. -/
theorem not_complete_export :
    ¬ ∀ (isoformat : ℤ → String) (stamp : ℕ → String) (D : Database) (tenantId : String)
      (range : DateRange) (limit : ℤ) (fails : ℕ → Source → Bool),
      Complete isoformat stamp D tenantId range limit fails := by
  intro h
  have hcomplete := h toString (fun _ => "20260101_000000") notifiedDatabase "acme" {} 50
    fun _ _ => false
  have hrow : BreachNotifier.notification "notif_1" exampleIncident "tenant"
      "compliance@acme.example.com" ⟨"ccpa-eu-en", "Data breach", ""⟩ 0 (some "acme") ∈
        notifiedDatabase.rows .breach := by
    decide +kernel
  have htarget := addressed_of_complete hcomplete hrow (Or.inl rfl) ⟨by simp, by simp⟩
  exact absurd htarget (by decide)

end AnonReq.Ediscovery
