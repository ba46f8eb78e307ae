import AnonReq.Foundation.Csv
import AnonReq.Foundation.JsonWriter

/-!
# The export of anonymization events as CSV

`services/audit_export.py` and `_csv_stream` of `api/v1/admin/anonymization_events.py` write the
rows, and one more row where the stream fails; `web/src/lib/csv-export.ts` reads them, drops that
row and reports the failure.

* `inspectExportCsv_eq`: what is reported, by the first row that looks like the one of a failure.
* `export_recognised_iff`: the report is right unless a record looks like this row, or the writer
  leaves   a carriage return without quotes.
* `not_recognised_error`: a record that looks like this row.
-/

namespace AnonReq.Audit.CsvExport

open Csv

/-! ### The rows of an export -/

/-- The columns. -/
inductive Field where
  | requestId
  | timestamp
  | tenantId
  | model
  | locale
  | decision
  | tokenCount
  | entityTypes
deriving DecidableEq

/-- The name of a column. -/
def Field.name : Field → Text
  | requestId => "request_id".toList
  | timestamp => "timestamp".toList
  | tenantId => "tenant_id".toList
  | model => "model".toList
  | locale => "locale".toList
  | decision => "decision".toList
  | tokenCount => "token_count".toList
  | entityTypes => "entity_types".toList

/-- `ANONYMIZATION_EVENT_FIELDS`. -/
def anonymizationEventFields : List Field :=
  [.requestId, .timestamp, .tenantId, .model, .locale, .decision, .tokenCount, .entityTypes]

/-- `_FORMULA_LEAD`. -/
def formulaLead : List Char :=
  ['=', '+', '-', '@', '\t', '\r', '\n', '|', '\uff1d', '\uff0b', '\uff0d', '\uff20']

/-- `escape_csv_formula(text)`. -/
def escapeCsvFormula (text : Text) : Text :=
  if text.head?.any formulaLead.contains ||
      (text.dropWhile (· == ' ')).head?.any formulaLead.contains then '\x27' :: text
  else text

/-- What of `anonymization_event_record` is exported: entity types with their counts. -/
structure Record where
  requestId : Option Text
  timestamp : Option Text
  tenantId : Option Text
  model : Option Text
  locale : Option Text
  decision : Option Text
  tokenCount : Option ℤ
  entityTypes : List (Text × ℤ)

/-- The separators `(",", ":")`, with `ensure_ascii=False`. -/
def compact : Json.Style := ⟨[','], [':'], Json.escapeControl⟩

/-- One entry of `entity_types`. -/
def entityType (entry : Text × ℤ) : AnonReq.Json :=
  .object [("type".toList, .text entry.1), ("count".toList, .int entry.2)]

/-- The text or `None` that a record has for a column, where it has a text. -/
def Record.text (record : Record) : Field → Option Text
  | .requestId => record.requestId
  | .timestamp => record.timestamp
  | .tenantId => record.tenantId
  | .model => record.model
  | .locale => record.locale
  | .decision => record.decision
  | _ => none

/-- What is written for a column: of a missing value nothing. -/
def rendered (record : Record) : Field → Text
  | .tokenCount => (record.tokenCount.map Json.decimal).getD []
  | .entityTypes => AnonReq.Json.dumps compact (.list (record.entityTypes.map entityType))
  | field => (record.text field).getD []

/-- `anonymization_event_csv_row(record)`, in the order of the columns. -/
def anonymizationEventCsvRow (record : Record) : List Text :=
  anonymizationEventFields.map fun field => escapeCsvFormula (rendered record field)

/-- `csv_error_trailer(fieldnames)`. -/
def csvErrorTrailer : List Text :=
  anonymizationEventFields.map fun field =>
    if field = .requestId then escapeCsvFormula "#error".toList
    else if field = .decision then "export_failed".toList
    else []

/-- The row with the names. -/
def header : List Text := anonymizationEventFields.map Field.name

/-- The `csv` module with `QUOTE_MINIMAL` and the line feed as line terminator: newer versions put a
cell into quotes for a carriage return too. -/
def csvWriter (quotesReturn : Bool) : Quoting where
  special c := c == ',' || c == '"' || c == '\n' || (quotesReturn && c == '\r')
  comma := rfl
  quote := rfl
  lineFeed := rfl

/-- The records whose rows are written: all, or those before the failure. -/
def written (records : List Record) : Option ℕ → List Record
  | none => records
  | some n => records.take n

/-- The row behind them, if the stream fails. -/
def trailers : Option ℕ → List (List Text)
  | none => []
  | some _ => [csvErrorTrailer]

/-- `_csv_stream`, which fails behind so many rows or not at all. -/
def csvStream (quotesReturn : Bool) (records : List Record) (failsAfter : Option ℕ) : Text :=
  writeRows (csvWriter quotesReturn) [header] ++
    (writeRows (csvWriter quotesReturn)
        ((written records failsAfter).map anonymizationEventCsvRow) ++
      writeRows (csvWriter quotesReturn) (trailers failsAfter))

/-! ### The inspection -/

/-- `ExportInspection`. -/
structure ExportInspection where
  csv : Text
  failed : Bool
  dataRows : ℕ

/-- `isFailureRow(row, requestIndex, decisionIndex)`, where a missing column is no index. -/
def isFailureRow (requestIndex decisionIndex : Option ℕ) (row : List Text) : Bool :=
  let requestId := (requestIndex.bind fun i => row[i]?).getD []
  let decision := (decisionIndex.bind fun i => row[i]?).getD []
  (if requestId.head? = some '\x27' then requestId.tail else requestId) == "#error".toList &&
    decision == "export_failed".toList

/-- `parseCsv(text)`, which skips a byte order mark. -/
def parseCsv (text : Text) : List (List Text) :=
  Csv.read (if text.head? = some '\ufeff' then text.tail else text)

/-- The characters for which `csvCell` writes quotes. -/
def csvCell : Quoting where
  special c := ['"', ',', '\n', '\r'].contains c
  comma := rfl
  quote := rfl
  lineFeed := rfl

/-- `serializeCsv(rows)`. -/
def serializeCsv (rows : List (List Text)) : Text :=
  ['\n'].intercalate (rows.map (writeRow csvCell)) ++ ['\n']

/-- `inspectExportCsv(text)`. -/
def inspectExportCsv (text : Text) : ExportInspection :=
  match parseCsv text with
  | [] => ⟨text, false, 0⟩
  | names :: rows =>
    let fails := isFailureRow (names.idxOf? "request_id".toList) (names.idxOf? "decision".toList)
    match rows.findIdx? fails with
    | none => ⟨if text.getLast? = some '\n' then text else text ++ ['\n'], false, rows.length⟩
    | some i => ⟨serializeCsv (names :: rows.take i), true, i⟩

/-! ### What is reported -/

/-- The inspection reports a failure exactly if there was one, and as many rows as there were
records, and returns a text with their cells. -/
def Recognised (quotesReturn : Bool) (records : List Record) (failsAfter : Option ℕ) : Prop :=
  let inspection := inspectExportCsv (csvStream quotesReturn records failsAfter)
  inspection.failed = failsAfter.isSome ∧
    inspection.dataRows = (written records failsAfter).length ∧
    parseCsv inspection.csv =
      header :: (written records failsAfter).map anonymizationEventCsvRow

/-- A record whose row looks like the one of a failure. -/
def Record.LooksFailed (record : Record) : Prop :=
  (record.requestId = some "#error".toList ∨ record.requestId = some "\x27#error".toList) ∧
    record.decision = some "export_failed".toList

/-- A text with a carriage return has another character for which the writer quotes it. -/
def Record.Quoted (quotesReturn : Bool) (record : Record) : Prop :=
  ∀ field text, record.text field = some text → '\r' ∈ text →
    text.any (csvWriter quotesReturn).special = true

/-- A failure row of the export's columns. -/
def isTrailer (row : List Text) : Bool := isFailureRow (some 0) (some 5) row

theorem indices_header : header.idxOf? "request_id".toList = some 0 ∧
    header.idxOf? "decision".toList = some 5 := by decide

/-- Lines that are joined, with a line feed at the end, are rows with a line feed behind each. -/
theorem serializeCsv_eq {rows : List (List Text)} (h : rows ≠ []) :
    serializeCsv rows = writeRows csvCell rows := by
  rw [serializeCsv, writeRows]
  induction rows with
  | nil => exact absurd rfl h
  | cons row rows ih =>
    cases rows with
    | nil => simp
    | cons next rows =>
      have hnext := ih (List.cons_ne_nil next rows)
      rw [List.map_cons, List.map_cons, List.intercalate_cons_cons, List.flatMap_cons, ← hnext,
        List.map_cons]
      simp

/-- **An inspection** of a text with these rows below the header: the first one that looks like a
failure decides. -/
theorem inspectExportCsv_eq {text : Text} {rows : List (List Text)}
    (htext : parseCsv text = header :: rows) (hline : text.getLast? = some '\n') :
    inspectExportCsv text =
      match rows.findIdx? isTrailer with
      | none => ⟨text, false, rows.length⟩
      | some i => ⟨serializeCsv (header :: rows.take i), true, i⟩ := by
  rw [inspectExportCsv, htext]
  dsimp only
  rw [indices_header.1, indices_header.2, if_pos hline]
  rfl

/-! ### The cells of a record -/

/-- A formula gets an apostrophe, and nothing else changes. -/
theorem escapeCsvFormula_cases (text : Text) :
    escapeCsvFormula text = text ∨ escapeCsvFormula text = '\x27' :: text := by
  rw [escapeCsvFormula]
  split_ifs
  · exact Or.inr rfl
  · exact Or.inl rfl

theorem mem_escapeCsvFormula {text : Text} {c : Char} (hc : c ≠ '\x27') :
    c ∈ escapeCsvFormula text ↔ c ∈ text := by
  obtain h | h := escapeCsvFormula_cases text
  · rw [h]
  · rw [h, List.mem_cons]
    exact or_iff_right hc

theorem any_escapeCsvFormula (quotesReturn : Bool) (text : Text) :
    (escapeCsvFormula text).any (csvWriter quotesReturn).special =
      text.any (csvWriter quotesReturn).special := by
  obtain h | h := escapeCsvFormula_cases text
  · rw [h]
  · have hplain : (csvWriter quotesReturn).special '\x27' = false := by cases quotesReturn <;> rfl
    rw [h, List.any_cons, hplain, Bool.false_or]

/-- When the cell of a text is read back. -/
theorem kept_escapeCsvFormula_iff (quotesReturn : Bool) (text : Text) :
    kept (csvWriter quotesReturn) (escapeCsvFormula text) = escapeCsvFormula text ↔
      ('\r' ∈ text → text.any (csvWriter quotesReturn).special = true) := by
  rw [kept_eq_iff, mem_escapeCsvFormula (by decide), any_escapeCsvFormula]

/-- An integer is written without a carriage return. -/
theorem not_mem_decimal (n : ℤ) : '\r' ∉ Json.decimal n := by
  have hdigits : '\r' ∉ Nat.toDigits 10 n.natAbs := fun h =>
    absurd (Nat.isDigit_of_mem_toDigits (by decide) (by decide) h) (by decide)
  rw [Json.decimal]
  split_ifs
  · exact fun h => (List.mem_cons.mp h).elim (by decide) hdigits
  · exact hdigits

/-- The entity types are a list without a carriage return or with quotes. -/
theorem rendered_entityTypes (record : Record) :
    '[' ∈ rendered record .entityTypes ∧
      ('\r' ∈ rendered record .entityTypes → '"' ∈ rendered record .entityTypes) := by
  rw [rendered, Json.dumps]
  refine ⟨List.mem_cons_self, fun hreturn => ?_⟩
  cases hentries : record.entityTypes with
  | nil =>
    rw [hentries] at hreturn
    exact absurd hreturn (by decide)
  | cons entry entries =>
    rw [List.map_cons, Json.dumpsItems]
    cases entries with
    | nil => simp [Json.dumpsItems, entityType, Json.dumps, Json.dumpsFields, Json.quoted]
    | cons next entries =>
      rw [List.map_cons, Json.dumpsItems, List.intercalate_cons_cons]
      simp [entityType, Json.dumps, Json.dumpsFields, Json.quoted]

/-- What is written for a column is read back exactly if its carriage returns are quoted. -/
theorem kept_rendered_iff (quotesReturn : Bool) (record : Record) (field : Field) :
    ('\r' ∈ rendered record field →
        (rendered record field).any (csvWriter quotesReturn).special = true) ↔
      ∀ text, record.text field = some text → '\r' ∈ text →
        text.any (csvWriter quotesReturn).special = true := by
  have htext (value : Option Text) :
      ('\r' ∈ value.getD [] → (value.getD []).any (csvWriter quotesReturn).special = true) ↔
        ∀ text, value = some text → '\r' ∈ text →
          text.any (csvWriter quotesReturn).special = true := by
    cases value with
    | none => simp
    | some text => simp
  cases field with
  | tokenCount =>
    have hcount : '\r' ∉ rendered record .tokenCount := by
      rw [rendered]
      cases record.tokenCount with
      | none => exact List.not_mem_nil
      | some n => exact not_mem_decimal n
    exact ⟨fun _ _ h => absurd h (by simp [Record.text]), fun _ h => absurd h hcount⟩
  | entityTypes =>
    refine ⟨fun _ _ h => absurd h (by simp [Record.text]), fun _ h => ?_⟩
    exact List.any_eq_true.mpr
      ⟨'"', (rendered_entityTypes record).2 h, (csvWriter quotesReturn).quote⟩
  | _ => exact htext _

/-- The cells of a record are read back exactly if carriage returns are quoted. -/
theorem kept_row_iff (quotesReturn : Bool) (record : Record) :
    (∀ cell ∈ anonymizationEventCsvRow record, kept (csvWriter quotesReturn) cell = cell) ↔
      record.Quoted quotesReturn := by
  rw [anonymizationEventCsvRow, List.forall_mem_map, Record.Quoted]
  refine ⟨fun h field => ?_, fun h field _ => ?_⟩
  · have hfield : field ∈ anonymizationEventFields := by cases field <;> decide
    exact (kept_rendered_iff quotesReturn record field).mp
      ((kept_escapeCsvFormula_iff quotesReturn _).mp (h field hfield))
  · exact (kept_escapeCsvFormula_iff quotesReturn _).mpr
      ((kept_rendered_iff quotesReturn record field).mpr (h field))

/-- Which records look like a failure. -/
theorem isTrailer_row_iff (record : Record) :
    isTrailer (anonymizationEventCsvRow record) = true ↔ record.LooksFailed := by
  have hrow : isTrailer (anonymizationEventCsvRow record) = true ↔
      (if (escapeCsvFormula (record.requestId.getD [])).head? = some '\x27' then
          (escapeCsvFormula (record.requestId.getD [])).tail
        else escapeCsvFormula (record.requestId.getD [])) = "#error".toList ∧
      escapeCsvFormula (record.decision.getD []) = "export_failed".toList := by
    rw [isTrailer, isFailureRow, Bool.and_eq_true, beq_iff_eq, beq_iff_eq]
    rfl
  have hget {value : Option Text} {text : Text} (h : value.getD [] = text) (hne : text ≠ []) :
      value = some text := by
    cases value with
    | none => exact absurd h.symm hne
    | some value => exact congrArg some h
  rw [hrow]
  constructor
  · rintro ⟨hrequest, hdecision⟩
    refine ⟨?_, ?_⟩
    · obtain h | h := escapeCsvFormula_cases (record.requestId.getD [])
      · rw [h] at hrequest
        split_ifs at hrequest with hquote
        · refine Or.inr (hget ?_ (by decide))
          obtain ⟨rest, hrest⟩ := List.head?_eq_some_iff.mp hquote
          rw [hrest] at hrequest ⊢
          exact congrArg _ hrequest
        · exact Or.inl (hget hrequest (by decide))
      · rw [h, List.head?_cons, if_pos rfl, List.tail_cons] at hrequest
        exact Or.inl (hget hrequest (by decide))
    · obtain h | h := escapeCsvFormula_cases (record.decision.getD [])
      · exact hget (h.symm.trans hdecision) (by decide)
      · exact absurd (List.cons.inj (h.symm.trans hdecision)).1 (by decide)
  · rintro ⟨hrequest | hrequest, hdecision⟩ <;> rw [hrequest, hdecision] <;> decide

/-! ### The inspection of an export -/

/-- What is read of the row of a record has a character. -/
theorem any_map_kept (quotesReturn : Bool) (record : Record) :
    (((anonymizationEventCsvRow record).map (kept (csvWriter quotesReturn))).any
      fun cell => !cell.isEmpty) = true := by
  have hmem : escapeCsvFormula (rendered record .entityTypes) ∈ anonymizationEventCsvRow record :=
    List.mem_map_of_mem (by decide)
  have hbracket : '[' ∈ kept (csvWriter quotesReturn)
      (escapeCsvFormula (rendered record .entityTypes)) :=
    mem_kept _ ((mem_escapeCsvFormula (by decide)).mpr (rendered_entityTypes record).1) (by decide)
  rw [List.any_map, List.any_eq_true]
  refine ⟨_, hmem, ?_⟩
  rw [Function.comp_apply, List.isEmpty_eq_false_iff.mpr (List.ne_nil_of_mem hbracket)]
  rfl

/-- A text that begins with the header has no byte order mark. -/
theorem parseCsv_writeRows {Q : Quoting} (hhead : (writeRow Q header).head? = some 'r')
    (rows : List (List Text)) :
    parseCsv (writeRows Q (header :: rows)) = Csv.read (writeRows Q (header :: rows)) := by
  have hr : (writeRows Q (header :: rows)).head? = some 'r' := by
    rw [writeRows, List.flatMap_cons, List.append_assoc, List.head?_append, hhead]
    rfl
  rw [parseCsv, hr, if_neg (by decide)]

theorem csvStream_eq (quotesReturn : Bool) (records : List Record) (failsAfter : Option ℕ) :
    csvStream quotesReturn records failsAfter =
      writeRows (csvWriter quotesReturn) (header ::
        ((written records failsAfter).map anonymizationEventCsvRow ++ trailers failsAfter)) := by
  simp only [csvStream, writeRows, List.flatMap_append, List.flatMap_cons, List.flatMap_nil,
    List.append_nil]

theorem eq_of_mem_trailers {failsAfter : Option ℕ} {row : List Text}
    (h : row ∈ trailers failsAfter) : row = csvErrorTrailer := by
  cases failsAfter with
  | none => exact absurd h List.not_mem_nil
  | some n => exact List.mem_singleton.mp h

/-- The row of a failure is read back. -/
theorem map_kept_trailers (quotesReturn : Bool) (failsAfter : Option ℕ) :
    (trailers failsAfter).map (List.map (kept (csvWriter quotesReturn))) = trailers failsAfter := by
  have htrailer : csvErrorTrailer.map (kept (csvWriter quotesReturn)) = csvErrorTrailer := by
    cases quotesReturn <;> decide
  cases failsAfter with
  | none => rfl
  | some n => exact congrArg (fun row => [row]) htrailer

/-- What is read of the row of a record. -/
def readCells (quotesReturn : Bool) (record : Record) : List Text :=
  (anonymizationEventCsvRow record).map (kept (csvWriter quotesReturn))

/-- The rows that are read of an export. -/
theorem parseCsv_csvStream (quotesReturn : Bool) (records : List Record) (failsAfter : Option ℕ) :
    parseCsv (csvStream quotesReturn records failsAfter) =
      header :: ((written records failsAfter).map (readCells quotesReturn) ++
        trailers failsAfter) := by
  have hrows : ∀ row ∈ header :: ((written records failsAfter).map anonymizationEventCsvRow ++
      trailers failsAfter), row ≠ [] := by
    intro row hrow
    obtain rfl | hrow := List.mem_cons.mp hrow
    · decide
    obtain hrow | hrow := List.mem_append.mp hrow
    · obtain ⟨record, -, rfl⟩ := List.mem_map.mp hrow
      exact List.cons_ne_nil _ _
    · rw [eq_of_mem_trailers hrow]
      decide
  have hheader : header.map (kept (csvWriter quotesReturn)) = header := by
    cases quotesReturn <;> decide
  rw [csvStream_eq, parseCsv_writeRows (by cases quotesReturn <;> decide), read_rows _ hrows,
    List.map_cons, hheader, List.map_append, List.map_map, map_kept_trailers,
    List.filter_eq_self.mpr]
  · rfl
  · intro row hrow
    obtain rfl | hrow := List.mem_cons.mp hrow
    · decide
    obtain hrow | hrow := List.mem_append.mp hrow
    · obtain ⟨record, -, rfl⟩ := List.mem_map.mp hrow
      exact any_map_kept quotesReturn record
    · rw [eq_of_mem_trailers hrow]
      decide

/-- Rows that were read are read again after they were written. -/
theorem parseCsv_serializeCsv {rows : List (List Text)}
    (hrows : ∀ row ∈ rows, (row.any fun cell => !cell.isEmpty) = true) :
    parseCsv (serializeCsv (header :: rows)) = header :: rows := by
  rw [serializeCsv_eq (List.cons_ne_nil _ _), parseCsv_writeRows (by decide)]
  refine read_writeRows csvCell ?_ fun row _ cell _ => (kept_eq_iff csvCell cell).mpr fun h => ?_
  · exact List.forall_mem_cons.mpr ⟨by decide, hrows⟩
  · exact List.any_eq_true.mpr ⟨'\r', h, rfl⟩

/-- An export ends with a line feed. -/
theorem getLast?_csvStream (quotesReturn : Bool) (records : List Record) (failsAfter : Option ℕ) :
    (csvStream quotesReturn records failsAfter).getLast? = some '\n' := by
  have hlast (Q : Quoting) (row : List Text) (rows : List (List Text)) :
      (writeRows Q (row :: rows)).getLast? = some '\n' := by
    induction rows generalizing row with
    | nil => simp [writeRows]
    | cons next rows ih =>
      have hsplit : writeRows Q (row :: next :: rows) =
          writeRow Q row ++ ['\n'] ++ writeRows Q (next :: rows) := List.flatMap_cons
      rw [hsplit, List.getLast?_append, ih]
      rfl
  rw [csvStream_eq, hlast]

/-- **An inspection** of an export finds the first row that looks like a failure. -/
theorem inspectExportCsv_csvStream (quotesReturn : Bool) (records : List Record)
    (failsAfter : Option ℕ) :
    inspectExportCsv (csvStream quotesReturn records failsAfter) =
      match ((written records failsAfter).map (readCells quotesReturn) ++
          trailers failsAfter).findIdx? isTrailer with
      | none => ⟨csvStream quotesReturn records failsAfter, false,
          ((written records failsAfter).map (readCells quotesReturn) ++
            trailers failsAfter).length⟩
      | some i => ⟨serializeCsv (header :: ((written records failsAfter).map
          (readCells quotesReturn) ++ trailers failsAfter).take i), true, i⟩ :=
  inspectExportCsv_eq (parseCsv_csvStream quotesReturn records failsAfter)
    (getLast?_csvStream quotesReturn records failsAfter)

/-! ### When the report is right -/

/-- A row that is read in full is the one that was written. -/
theorem readCells_eq_iff (quotesReturn : Bool) (record : Record) :
    readCells quotesReturn record = anonymizationEventCsvRow record ↔
      record.Quoted quotesReturn := by
  rw [← kept_row_iff, readCells]
  exact ⟨fun h => List.map_inj_left.mp (h.trans (List.map_id _).symm),
    fun h => (List.map_congr_left h).trans (List.map_id _)⟩

/-- Where no row looks like a failure, only the one behind them is found. -/
theorem findIdx?_rows {rows : List (List Text)} (hrows : ∀ row ∈ rows, isTrailer row = false)
    (failsAfter : Option ℕ) :
    (rows ++ trailers failsAfter).findIdx? isTrailer = failsAfter.map fun _ => rows.length := by
  have hnone : rows.findIdx? isTrailer = none := List.findIdx?_eq_none_iff.mpr hrows
  rw [List.findIdx?_append, hnone, Option.none_or]
  cases failsAfter with
  | none => rfl
  | some n =>
    have htrailer : isTrailer csvErrorTrailer = true := by decide
    rw [trailers, List.findIdx?_cons, htrailer, if_pos rfl, Option.map_some, Nat.zero_add,
      Option.map_some]

/-- Where the reported number of rows is right, no row looks like a failure. -/
theorem isTrailer_eq_false_of_dataRows {quotesReturn : Bool} {records : List Record}
    {failsAfter : Option ℕ}
    (h : (inspectExportCsv (csvStream quotesReturn records failsAfter)).dataRows =
      (written records failsAfter).length) :
    ∀ row ∈ (written records failsAfter).map (readCells quotesReturn), isTrailer row = false := by
  rw [inspectExportCsv_csvStream, List.findIdx?_append] at h
  cases hfind : ((written records failsAfter).map (readCells quotesReturn)).findIdx? isTrailer with
  | none => exact List.findIdx?_eq_none_iff.mp hfind
  | some i =>
    rw [hfind, Option.some_or] at h
    obtain ⟨hi, -⟩ := List.findIdx?_eq_some_iff_getElem.mp hfind
    exact absurd h (by rw [List.length_map] at hi; exact hi.ne)

/-- **The inspection** of an export, complete or not, reports what happened exactly if no record
that was written looks like a failure, and none has a text with a carriage return that the writer
does not quote. -/
theorem export_recognised_iff (quotesReturn : Bool) (records : List Record)
    (failsAfter : Option ℕ) :
    Recognised quotesReturn records failsAfter ↔
      ∀ record ∈ written records failsAfter,
        ¬ record.LooksFailed ∧ record.Quoted quotesReturn := by
  have hany : ∀ row ∈ (written records failsAfter).map (readCells quotesReturn),
      (row.any fun cell => !cell.isEmpty) = true := by
    intro row hrow
    obtain ⟨record, -, rfl⟩ := List.mem_map.mp hrow
    exact any_map_kept quotesReturn record
  -- what an inspection returns when no row that is read looks like a failure
  have hplain (h : ∀ row ∈ (written records failsAfter).map (readCells quotesReturn),
      isTrailer row = false) :
      Recognised quotesReturn records failsAfter ↔
        (written records failsAfter).map (readCells quotesReturn) =
          (written records failsAfter).map anonymizationEventCsvRow := by
    have hcells := parseCsv_csvStream quotesReturn records failsAfter
    have hinspect := inspectExportCsv_csvStream quotesReturn records failsAfter
    rw [findIdx?_rows h failsAfter] at hinspect
    rw [Recognised, hinspect]
    cases failsAfter with
    | none =>
      rw [trailers, List.append_nil] at hcells
      simp [trailers, hcells]
    | some n =>
      simp [trailers, parseCsv_serializeCsv hany]
  constructor
  · intro hrecognised
    have hrows := isTrailer_eq_false_of_dataRows hrecognised.2.1
    have hsame := (hplain hrows).mp hrecognised
    intro record hrecord
    have hread : readCells quotesReturn record = anonymizationEventCsvRow record :=
      List.map_inj_left.mp hsame record hrecord
    have hrow := hrows _ (List.mem_map_of_mem hrecord)
    rw [hread] at hrow
    exact ⟨fun h => Bool.false_ne_true (hrow.symm.trans ((isTrailer_row_iff record).mpr h)),
      (readCells_eq_iff quotesReturn record).mp hread⟩
  · intro hrecords
    have hread : ∀ record ∈ written records failsAfter,
        readCells quotesReturn record = anonymizationEventCsvRow record := fun record hrecord =>
      (readCells_eq_iff quotesReturn record).mpr (hrecords record hrecord).2
    refine (hplain fun row hrow => ?_).mpr (List.map_congr_left hread)
    obtain ⟨record, hrecord, rfl⟩ := List.mem_map.mp hrow
    rw [hread record hrecord, Bool.eq_false_iff]
    exact fun h => (hrecords record hrecord).1 ((isTrailer_row_iff record).mp h)

/-- A stream without a failure whose one record looks like one: the inspection drops it. -/
theorem not_recognised_error :
    ¬ Recognised true [⟨some "#error".toList, some [], some [], none, none,
      some "export_failed".toList, none, []⟩] none := by
  rintro ⟨hfailed, -⟩
  exact absurd hfailed (by decide)

end AnonReq.Audit.CsvExport
