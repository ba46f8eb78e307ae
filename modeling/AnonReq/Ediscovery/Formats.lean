import Mathlib
import AnonReq.Audit.Timestamp
import AnonReq.Ediscovery.Export
import AnonReq.Foundation.JsonRoundTrip
import AnonReq.Foundation.Words
import AnonReq.Foundation.Xml

/-!
# The formats of an export

`ediscovery/formats.py`: consolidated records are written as lines of JSON, as an XML document and
as the cells of a table. Their keys are any texts and their values any JSON.

* `JsonlSound` and `PdfSound` say what lines and cells keep; `JsonlOk` and `PdfOk` are the
  conditions under which they do.
* `jsonlSound_iff`, `pdfSound_iff`: a format is sound if and only if its condition holds.
-/

namespace AnonReq.Ediscovery.Formats

open Audit Json

/-! ### Records -/

/-- A consolidated record. Its values are JSON, and its keys are different. -/
structure ConsolidatedRecord (shown : Text → Text) where
  id : Json
  source : List (Text × Json)
  tenantId : Text
  type : Text
  metadata : List (Text × Json)
  id_valid : id.Valid shown
  source_valid : (Json.object source).Valid shown
  metadata_valid : (Json.object metadata).Valid shown

variable {shown : Text → Text}

/-- The record as a dictionary. -/
def ConsolidatedRecord.toJson (r : ConsolidatedRecord shown) : Json :=
  .object [("id".toList, r.id), ("source".toList, .object r.source),
    ("tenant_id".toList, .text r.tenantId), ("type".toList, .text r.type),
    ("metadata".toList, .object r.metadata)]

/-- What is known of Python's texts: `str.capitalize`, and `repr` of a text. -/
structure Python where
  capitalize : Text → Text
  repr : Text → Text

variable (P : Python)

namespace Python

mutual

/-- `repr(value)`. -/
def reprJson : Json → Text
  | .null => "None".toList
  | .bool true => "True".toList
  | .bool false => "False".toList
  | .int n => decimal n
  | .float shown => shown
  | .text s => P.repr s
  | .list items => '[' :: (", ".toList.intercalate (reprItems items) ++ [']'])
  | .object fields => '{' :: (", ".toList.intercalate (reprFields fields) ++ ['}'])

def reprItems : List Json → List Text
  | [] => []
  | item :: items => reprJson item :: reprItems items

def reprFields : List (Text × Json) → List Text
  | [] => []
  | (k, value) :: fields => (P.repr k ++ ": ".toList ++ reprJson value) :: reprFields fields

end

/-- `str(value)`. -/
def str : Json → Text
  | .text s => s
  | value => P.reprJson value

end Python

/-! ### Lines of JSON -/

/-- The header line. -/
def header (now : UtcTime) (metadata : EDRMMetadata) : Text :=
  "# Export: ".toList ++ metadata.caseName.toList ++ " | ".toList ++
    metadata.requestName.toList ++ " | ".toList ++ isoformat 'T' now.val

/-- `to_jsonl`. -/
def toJsonl (now : UtcTime) (records : List (ConsolidatedRecord shown))
    (metadata : Option EDRMMetadata) : Text :=
  let lines := (metadata.map (header now)).toList ++ records.map fun r => dumps standard r.toJson
  if lines = [] then [] else ['\n'].intercalate lines ++ ['\n']

/-! ### XML -/

/-- `_xml_tag`. -/
def xmlTag (key : Text) : Text :=
  (Text.words (Text.strip (key.map fun c => if c = '.' ∨ c = '_' then ' ' else c))).flatMap
    P.capitalize

/-- An element of `xml.etree.ElementTree`; `null` is no text. -/
structure Element where
  tag : Text
  attrib : List (Text × Text)
  text : Json
  children : List Element

/-- `SubElement(parent, tag).text = text`. -/
def leaf (tag : Text) (text : Json) : Element := ⟨tag, [], text, []⟩

/-- An element with children. -/
def part (tag : String) (children : List Element) : Element := ⟨tag.toList, [], .null, children⟩

/-- `value is None`. -/
def isNull : Json → Bool
  | .null => true
  | _ => false

/-- The fields that have a value. -/
def valued (fields : List (Text × Json)) : List (Text × Json) := fields.filter fun f => !isNull f.2

/-- The elements for the fields that have a value. -/
def fieldElements (fields : List (Text × Json)) : List Element :=
  (valued fields).map fun f => leaf (xmlTag P f.1) (.text (P.str f.2))

/-- The tenant of a record, the one of its source if it has one. What is no text raises: it cannot
be hashed, or not be sorted, or not be written. -/
def ConsolidatedRecord.custodian (r : ConsolidatedRecord shown) : Option Text :=
  match (Dict.get r.source "tenant_id".toList).getD (.text []) with
  | .text (c :: tid) => some (c :: tid)
  | value => if value.truthy then none else some r.tenantId

/-- `sorted(custodians)`. -/
def custodians (records : List (ConsolidatedRecord shown)) : Option (List Text) :=
  (records.mapM ConsolidatedRecord.custodian).map fun tids =>
    (tids.filter (· ≠ [])).dedup.mergeSort fun a b => decide (a ≤ b)

/-- The element of a record. -/
def document (r : ConsolidatedRecord shown) (idx : ℕ) : Element :=
  part "Document" (leaf "DocID".toList (.text (decimal idx)) :: leaf "RecordID".toList r.id ::
    (fieldElements P r.source ++
      if r.metadata.isEmpty then [] else [part "Metadata" (fieldElements P r.metadata)]))

/-- The elements for the case and the request. -/
def head (metadata : Option EDRMMetadata) : List Element :=
  let field (tag : String) (text : String) : Element := leaf tag.toList (.text text.toList)
  match metadata with
  | some m =>
    [part "Case" [field "CaseID" m.caseId, field "CaseName" m.caseName, field "Matter" m.matter,
        field "Customer" m.customer],
      part "Request" [field "RequestID" m.requestId, field "RequestName" m.requestName,
        field "RequestType" m.requestType, field "Notes" m.notes]]
  | none =>
    [part "Case" [field "CaseID" "", field "CaseName" "eDiscovery Export"],
      part "Request" [field "RequestID" "", field "RequestName" "Export",
        field "RequestType" "PRODUCTION"]]

/-- The element of a custodian. -/
def custodian (cid : Text) : Element :=
  part "Custodian" [leaf "CustodianID".toList (.text cid), leaf "CustodianName".toList (.text cid)]

/-- The tree that `to_edrm_xml` builds for the custodians. -/
def tree (tids : List Text) (records : List (ConsolidatedRecord shown))
    (metadata : Option EDRMMetadata) : Element :=
  ⟨"EDRM".toList, [("xmlns".toList, "http://edrm.net/ns/v1".toList)], .null,
    head metadata ++ [part "Custodians" (tids.map custodian),
      part "Documents" ((records.zipIdx 1).map fun r => document P r.1 r.2)]⟩

/-- The namespace of a tag in braces, and the name in it. -/
def namespaceOf : Text → Option (Text × Text)
  | '{' :: rest => Splitting.rcut '}' rest
  | _ => none

mutual

/-- The namespaces of the tags, in the order of the tree. -/
def Element.uris : Element → List Text
  | ⟨tag, _, _, children⟩ => ((namespaceOf tag).map Prod.fst).toList ++ Element.urisAll children

def Element.urisAll : List Element → List Text
  | [] => []
  | e :: elements => e.uris ++ Element.urisAll elements

end

/-- `"ns%d"`. -/
def nsPrefix (i : ℕ) : Text := 'n' :: 's' :: Nat.toDigits 10 i

/-- The name that is written for a tag. A tag in braces that do not end raises. The namespaces that
have a name of their own have a dot, which no tag has. -/
def qname (namespaces : List Text) : Text → Option Text
  | '{' :: rest => (Splitting.rcut '}' rest).map fun parts =>
      nsPrefix (namespaces.idxOf parts.1) ++ ':' :: parts.2
  | tag => some tag

/-- The text that is written, if it can be. -/
def writtenText (text : Json) : Option Text :=
  if text.truthy then
    match text with
    | .text s => some s
    | _ => none
  else some []

mutual

/-- An element as it is written. -/
def Element.resolve (namespaces : List Text) : Element → Option Xml.Element
  | ⟨tag, attrib, text, children⟩ => do
    let name ← qname namespaces tag
    let text ← writtenText text
    let children ← Element.resolveAll namespaces children
    return ⟨name, attrib, text, children⟩

def Element.resolveAll (namespaces : List Text) : List Element → Option (List Xml.Element)
  | [] => some []
  | e :: elements => do
    let e ← e.resolve namespaces
    let elements ← Element.resolveAll namespaces elements
    return e :: elements

end

/-- The declarations of the namespaces, sorted by their prefixes. -/
def declarations (namespaces : List Text) : List (Text × Text) :=
  (namespaces.zipIdx.map fun ns => ("xmlns:".toList ++ nsPrefix ns.2, ns.1)).mergeSort
    fun a b => decide (a.1 ≤ b.1)

/-- The namespaces of a tree. -/
def Element.namespaces (root : Element) : List Text := root.uris.eraseDups

/-- The element that `tostring` writes. -/
def Element.written (root : Element) : Option Xml.Element :=
  Element.resolve root.namespaces
    { root with attrib := declarations root.namespaces ++ root.attrib }

/-- `to_edrm_xml`; `none` where it raises. -/
def toEdrmXml (records : List (ConsolidatedRecord shown)) (metadata : Option EDRMMetadata) :
    Option Text := do
  let tids ← custodians records
  let root ← (tree P tids records metadata).written
  return Xml.writeDocument root

/-! ### Tables -/

/-- `_get_nested`; `null` is also what is missing. -/
def getNested (record : Json) (key : Text) : Json :=
  (key.splitOn '.').foldl (fun current part => (current.get part).getD .null) record

/-- The preferred columns. -/
def preferred : List String :=
  ["id", "source.tenant_id", "source.provider", "source.entity_types", "source.request_timestamp",
    "metadata.request_type", "source.cache_hit"]

/-- The keys of a dictionary. -/
def keys : Json → List Text
  | .object fields => fields.map Prod.fst
  | _ => []

/-- `key.split(".")[-1]`. -/
def display (key : Text) : Text := (key.splitOn '.').getLastD []

/-- The columns for a record, each with the key of the field that it is selected for. -/
def selected (record : Json) : List (Text × Text) :=
  let available := (preferred.map String.toList).filterMap fun key =>
    match getNested record key with
    | .null => none
    | _ => some (key, display key)
  if available = [] then (keys record).map fun k => (k, k) else available

/-- `_select_pdf_columns`. -/
def selectPdfColumns (record : Json) : List Text := (selected record).map Prod.snd

/-- The text of a cell. -/
def cellText : Json → Text
  | .null => []
  | value => (P.str value).take 40

/-- The rows of the table in `to_pdf_summary`. -/
def pdfRows (records : List (ConsolidatedRecord shown)) : List (List Text) :=
  match records with
  | [] => []
  | first :: _ =>
    let keys := selectPdfColumns first.toJson
    records.map fun r => keys.map fun key => cellText P (getNested r.toJson key)

/-! ### What lines of JSON keep -/

/-- The lines of a text that ends with one. -/
def linesOf (text : Text) : List Text := (text.splitOn '\n').dropLast

/-- The line is a comment. -/
def isComment (line : Text) : Bool := line.head? = some '#'

/-- The lines that are no comments are read as the records in order, and one line at most is a
comment. -/
structure JsonlSound (now : UtcTime) (records : List (ConsolidatedRecord shown))
    (metadata : Option EDRMMetadata) : Prop where
  read : ((linesOf (toJsonl now records metadata)).filter fun line => !isComment line).map
    (loads shown) = records.map fun r => some r.toJson
  comments : ((linesOf (toJsonl now records metadata)).filter isComment).length ≤ 1

/-- The names in the header line have no line break. -/
def JsonlOk (metadata : Option EDRMMetadata) : Prop :=
  ∀ m ∈ metadata, '\n' ∉ m.caseName.toList ∧ '\n' ∉ m.requestName.toList

theorem linesOf_intercalate {lines : List Text} (hne : lines ≠ []) :
    linesOf (['\n'].intercalate lines ++ ['\n']) = lines.flatMap fun line => line.splitOn '\n' := by
  have hbreak (line rest : Text) : linesOf (line ++ '\n' :: rest) =
      line.splitOn '\n' ++ linesOf rest := by
    rw [linesOf, List.splitOn_append_cons_self,
      List.dropLast_append_of_ne_nil (List.splitOn_ne_nil '\n' rest), linesOf]
  induction lines with
  | nil => exact absurd rfl hne
  | cons line more ih =>
    cases more with
    | nil =>
      rw [List.intercalate_singleton, hbreak]
      rfl
    | cons next more =>
      rw [List.intercalate_cons_cons, List.append_assoc, List.append_assoc, List.singleton_append,
        hbreak, ih (List.cons_ne_nil next more)]
      rfl

theorem ConsolidatedRecord.valid (r : ConsolidatedRecord shown) : r.toJson.Valid shown :=
  ⟨by simp, r.id_valid, r.source_valid, trivial, trivial, r.metadata_valid, trivial⟩

/-- A record is a line, which is no comment and is read as the record. -/
theorem splitOn_dumps (r : ConsolidatedRecord shown) :
    (dumps standard r.toJson).splitOn '\n' = [dumps standard r.toJson] :=
  List.splitOn_eq_singleton (not_mem_dumps r.toJson r.valid)

/-- The lines of the text: those of the header, and the records. -/
theorem linesOf_toJsonl (now : UtcTime) (records : List (ConsolidatedRecord shown))
    (metadata : Option EDRMMetadata) : linesOf (toJsonl now records metadata) =
      (metadata.map (header now)).toList.flatMap (fun line => line.splitOn '\n') ++
        records.map fun r => dumps standard r.toJson := by
  have hrecords : (records.map fun r => dumps standard r.toJson).flatMap
      (fun line => line.splitOn '\n') = records.map fun r => dumps standard r.toJson := by
    rw [List.flatMap_map]
    simp only [splitOn_dumps]
    exact List.map_eq_flatMap.symm
  unfold toJsonl
  dsimp only
  split_ifs with hempty
  · obtain ⟨hheader, hnone⟩ := List.append_eq_nil_iff.mp hempty
    rw [hheader, hnone]
    rfl
  · rw [linesOf_intercalate hempty, List.flatMap_append, hrecords]

/-- The lines of the records: none is a comment, and each is read as its record. -/
theorem filter_records (records : List (ConsolidatedRecord shown)) :
    ((records.map fun r => dumps standard r.toJson).filter fun line => !isComment line) =
        records.map (fun r => dumps standard r.toJson) ∧
      (records.map fun r => dumps standard r.toJson).filter isComment = [] ∧
      (records.map fun r => dumps standard r.toJson).map (loads shown) =
        records.map fun r => some r.toJson := by
  have hcomment (r : ConsolidatedRecord shown) : isComment (dumps standard r.toJson) = false := rfl
  refine ⟨?_, ?_, ?_⟩
  · refine List.filter_eq_self.mpr fun line hline => ?_
    obtain ⟨r, -, rfl⟩ := List.mem_map.mp hline
    rw [hcomment]
    rfl
  · refine List.filter_eq_nil_iff.mpr fun line hline => ?_
    obtain ⟨r, -, rfl⟩ := List.mem_map.mp hline
    rw [hcomment]
    decide
  · rw [List.map_map]
    exact List.map_congr_left fun r _ => loads_dumps r.valid

theorem not_mem_isoformat (now : UtcTime) : '\n' ∉ isoformat 'T' now.val := by
  have hpad (w n : ℕ) : '\n' ∉ Decimal.pad w n := fun h =>
    absurd (Decimal.isDigit_of_mem_pad h) (by decide)
  have hfraction (n : ℕ) : '\n' ∉ isoFraction n := by
    unfold isoFraction
    split_ifs
    · exact List.not_mem_nil
    · rw [List.mem_cons, not_or]
      exact ⟨by decide, hpad 6 n⟩
  have hoffset : '\n' ∉ isoOffset now.val.utcoffset := by
    rw [now.property]
    decide
  simp only [isoformat, List.mem_append, List.mem_cons, hpad, hfraction, hoffset, false_or,
    or_false]
  decide

/-- The offset of a time in UTC is the end of its text. -/
theorem exists_isoformat (now : UtcTime) :
    ∃ front, isoformat 'T' now.val = front ++ ":00".toList := by
  have hoffset : isoOffset now.val.utcoffset = "+00".toList ++ ":00".toList := by
    rw [now.property]
    decide
  rw [isoformat, hoffset]
  simp only [← List.append_assoc, ← List.cons_append]
  exact ⟨_, rfl⟩

/-- **A header with a line break** has a second line that is no JSON. -/
theorem exists_line_of_break {now : UtcTime} {m : EDRMMetadata} (h : '\n' ∈ header now m) :
    ∃ first middle front, (header now m).splitOn '\n' =
      ('#' :: first) :: (middle ++ [front ++ ":00".toList]) := by
  obtain ⟨⟨a, b⟩, hcut⟩ := Option.ne_none_iff_exists'.mp fun hnone =>
    Splitting.rcut_eq_none_iff.mp hnone h
  obtain ⟨htext, hb⟩ := Splitting.rcut_eq_some_iff.mp hcut
  have hlines : (header now m).splitOn '\n' = a.splitOn '\n' ++ [b] := by
    rw [htext, List.splitOn_append_cons_self, List.splitOn_eq_singleton hb]
  -- the first line begins like the header
  obtain ⟨first, middle, hfirst⟩ : ∃ first middle, a.splitOn '\n' = ('#' :: first) :: middle := by
    obtain ⟨rest, hheader⟩ : ∃ rest, header now m = '#' :: rest := ⟨_, rfl⟩
    cases a with
    | nil =>
      rw [hheader, List.nil_append] at htext
      cases (List.cons.inj htext).1
    | cons c a =>
      rw [hheader, List.cons_append] at htext
      obtain ⟨first, middle, hsplit⟩ := List.exists_cons_of_ne_nil (List.splitOn_ne_nil '\n' a)
      rw [← (List.cons.inj htext).1, List.splitOn_cons_eq_if_modifyHead, if_neg (by decide), hsplit]
      exact ⟨first, middle, rfl⟩
  -- the last line ends like the header
  obtain ⟨front, hfront⟩ : ∃ front, b = front ++ ":00".toList := by
    obtain ⟨stamp, hstamp⟩ := exists_isoformat now
    have hsuffix : ":00".toList <:+ a ++ '\n' :: b := by
      rw [← htext]
      refine (List.suffix_append stamp _).trans ?_
      rw [← hstamp]
      exact List.suffix_append _ _
    obtain hlong | hshort := List.suffix_or_suffix_of_suffix hsuffix (List.suffix_append a _)
    · obtain ⟨front, hfront⟩ := hlong
      cases front with
      | nil => cases (List.cons.inj hfront).1
      | cons c front => exact ⟨front, (List.cons.inj hfront).2.symm⟩
    · exact absurd (hshort.subset List.mem_cons_self) (by decide)
  exact ⟨first, middle, front, by rw [hlines, hfirst, hfront]; rfl⟩

theorem not_mem_header_iff {now : UtcTime} {m : EDRMMetadata} :
    '\n' ∉ header now m ↔ '\n' ∉ m.caseName.toList ∧ '\n' ∉ m.requestName.toList := by
  have hstamp := not_mem_isoformat now
  have hexport : '\n' ∉ "# Export: ".toList := by decide
  have hbar : '\n' ∉ " | ".toList := by decide
  change '\n' ∉ "# Export: ".toList ++ m.caseName.toList ++ " | ".toList ++
    m.requestName.toList ++ " | ".toList ++ isoformat 'T' now.val ↔ _
  simp only [List.mem_append, hstamp, hexport, hbar, or_false, false_or, not_or]

theorem jsonlSound_iff (now : UtcTime) (records : List (ConsolidatedRecord shown))
    (metadata : Option EDRMMetadata) :
    JsonlSound now records metadata ↔ JsonlOk metadata := by
  obtain ⟨hdata, hcomments, hread⟩ := filter_records records
  have hlines := linesOf_toJsonl now records metadata
  cases metadata with
  | none =>
    rw [Option.map_none, Option.toList_none, List.flatMap_nil, List.nil_append] at hlines
    refine iff_of_true ⟨?_, ?_⟩ fun m hm => by cases hm
    · rw [hlines, hdata, hread]
    · rw [hlines, hcomments]
      exact Nat.zero_le 1
  | some m =>
    rw [Option.map_some, Option.toList_some, List.flatMap_singleton] at hlines
    have hok : JsonlOk (some m) ↔ '\n' ∉ header now m := by
      rw [not_mem_header_iff]
      exact ⟨fun h => h m rfl, fun h m' hm' => Option.some.inj hm' ▸ h⟩
    rw [hok]
    constructor
    · intro h hbreak
      obtain ⟨first, middle, front, hheader⟩ := exists_line_of_break hbreak
      have hlast : loads shown (front ++ ":00".toList) = none :=
        loads_eq_none_of_trail front (by decide) (by decide) (by decide) (by decide)
      rw [hheader] at hlines
      by_cases hcomment : isComment (front ++ ":00".toList) = true
      · have hone := h.comments
        rw [hlines] at hone
        have hfirst : isComment ('#' :: first) = true := rfl
        simp only [List.filter_append, List.filter_cons_of_pos hfirst,
          List.filter_cons_of_pos hcomment, List.cons_append, List.length_cons,
          List.length_append] at hone
        omega
      · have hread := h.read
        rw [hlines] at hread
        have hmem : none ∈ records.map fun r => some r.toJson := by
          rw [← hread, ← hlast]
          refine List.mem_map_of_mem (List.mem_filter.mpr ⟨?_, ?_⟩)
          · simp
          · rw [Bool.eq_false_iff.mpr hcomment]
            rfl
        obtain ⟨r, -, hr⟩ := List.mem_map.mp hmem
        cases hr
    · intro hline
      have hcomment : isComment (header now m) = true := rfl
      rw [List.splitOn_eq_singleton hline, List.singleton_append] at hlines
      constructor
      · rw [hlines, List.filter_cons_of_neg (by rw [hcomment]; decide), hdata, hread]
      · rw [hlines, List.filter_cons_of_pos hcomment, hcomments]
        exact Nat.le_refl 1

/-! ### What cells keep -/

/-- Every cell has the value of the field that its column is selected for. -/
def PdfSound (records : List (ConsolidatedRecord shown)) : Prop :=
  ∀ first ∈ records.head?, pdfRows P records = records.map fun r =>
    (selected first.toJson).map fun column => cellText P (getNested r.toJson column.1)

/-- The value of a field. -/
def fieldOf (fields : List (Text × Json)) (name : String) : Json :=
  ((Json.object fields).get name.toList).getD .null

/-- A column that is selected for a field of the source or the metadata: for the tenant, that of the
record is that of its source in every record; for any other, the field is empty in every record. -/
def PdfOk (records : List (ConsolidatedRecord shown)) : Prop :=
  ∀ first ∈ records.head?, ∀ r ∈ records,
    (fieldOf first.source "tenant_id" ≠ .null →
      r.tenantId.take 40 = cellText P (fieldOf r.source "tenant_id")) ∧
    (∀ name ∈ ["provider", "entity_types", "request_timestamp", "cache_hit"],
      fieldOf first.source name ≠ .null → [] = cellText P (fieldOf r.source name)) ∧
    (fieldOf first.metadata "request_type" ≠ .null →
      [] = cellText P (fieldOf r.metadata "request_type"))

theorem forall_selected_iff {record : Json} {Q : Text → Text → Prop} (hQ : ∀ k, Q k k) :
    (∀ column ∈ selected record, Q column.1 column.2) ↔ ∀ key ∈ preferred,
      getNested record key.toList ≠ .null → Q key.toList (display key.toList) := by
  have havailable (column : Text × Text) :
      column ∈ (preferred.map String.toList).filterMap (fun key =>
        match getNested record key with
        | .null => none
        | _ => some (key, display key)) ↔
      ∃ key ∈ preferred, getNested record key.toList ≠ .null ∧
        column = (key.toList, display key.toList) := by
    rw [List.mem_filterMap]
    constructor
    · rintro ⟨_, hkey, hcolumn⟩
      obtain ⟨key, hpreferred, rfl⟩ := List.mem_map.mp hkey
      split at hcolumn
      · cases hcolumn
      · rename_i hnull
        exact ⟨key, hpreferred, hnull, (Option.some.inj hcolumn).symm⟩
    · rintro ⟨key, hpreferred, hnull, rfl⟩
      refine ⟨key.toList, List.mem_map_of_mem hpreferred, ?_⟩
      split
      · rename_i hvalue
        exact absurd hvalue hnull
      · rfl
  unfold selected
  dsimp only
  split_ifs with hempty
  · refine iff_of_true (fun column hcolumn => ?_) fun key hkey hnull => ?_
    · obtain ⟨k, -, rfl⟩ := List.mem_map.mp hcolumn
      exact hQ k
    · have hmem := (havailable _).mpr ⟨key, hkey, hnull, rfl⟩
      rw [hempty] at hmem
      exact absurd hmem List.not_mem_nil
  · constructor
    · intro h key hkey hnull
      exact h (key.toList, display key.toList) ((havailable _).mpr ⟨key, hkey, hnull, rfl⟩)
    · intro h column hcolumn
      obtain ⟨key, hkey, hnull, rfl⟩ := (havailable column).mp hcolumn
      exact h key hkey hnull

/-- The columns for one record and the cells of another. -/
theorem forall_cells_iff (first r : ConsolidatedRecord shown) :
    (∀ column ∈ selected first.toJson, cellText P (getNested r.toJson column.2) =
        cellText P (getNested r.toJson column.1)) ↔
      (fieldOf first.source "tenant_id" ≠ .null →
        r.tenantId.take 40 = cellText P (fieldOf r.source "tenant_id")) ∧
      (∀ name ∈ ["provider", "entity_types", "request_timestamp", "cache_hit"],
        fieldOf first.source name ≠ .null → [] = cellText P (fieldOf r.source name)) ∧
      (fieldOf first.metadata "request_type" ≠ .null →
        [] = cellText P (fieldOf r.metadata "request_type")) := by
  have htenant (r : ConsolidatedRecord shown) :
      getNested r.toJson "source.tenant_id".toList = fieldOf r.source "tenant_id" := rfl
  have hprovider (r : ConsolidatedRecord shown) :
      getNested r.toJson "source.provider".toList = fieldOf r.source "provider" := rfl
  have hentities (r : ConsolidatedRecord shown) :
      getNested r.toJson "source.entity_types".toList = fieldOf r.source "entity_types" := rfl
  have htimestamp (r : ConsolidatedRecord shown) : getNested r.toJson
      "source.request_timestamp".toList = fieldOf r.source "request_timestamp" := rfl
  have hrequest (r : ConsolidatedRecord shown) : getNested r.toJson
      "metadata.request_type".toList = fieldOf r.metadata "request_type" := rfl
  have hcache (r : ConsolidatedRecord shown) :
      getNested r.toJson "source.cache_hit".toList = fieldOf r.source "cache_hit" := rfl
  rw [forall_selected_iff (Q := fun key column => cellText P (getNested r.toJson column) =
    cellText P (getNested r.toJson key)) fun _ => rfl]
  simp only [preferred, List.forall_mem_cons, htenant, hprovider, hentities, htimestamp, hrequest,
    hcache]
  constructor
  · rintro ⟨-, htenant, hprovider, hentities, htimestamp, hrequest, hcache, -⟩
    exact ⟨htenant, ⟨hprovider, hentities, htimestamp, hcache, fun _ h => by cases h⟩, hrequest⟩
  · rintro ⟨htenant, ⟨hprovider, hentities, htimestamp, hcache, -⟩, hrequest⟩
    exact ⟨fun _ => rfl, htenant, hprovider, hentities, htimestamp, hrequest, hcache,
      fun _ h => by cases h⟩

theorem pdfSound_iff (records : List (ConsolidatedRecord shown)) :
    PdfSound P records ↔ PdfOk P records := by
  cases records with
  | nil => exact iff_of_true (fun _ h => by cases h) fun _ h => by cases h
  | cons first rest =>
    have hrows : pdfRows P (first :: rest) = (first :: rest).map fun r =>
        (selected first.toJson).map fun column => cellText P (getNested r.toJson column.2) := by
      rw [pdfRows]
      dsimp only [selectPdfColumns]
      simp only [List.map_map, Function.comp_def]
    have hfirst (Q : ConsolidatedRecord shown → Prop) :
        (∀ first' ∈ (first :: rest).head?, Q first') ↔ Q first :=
      ⟨fun h => h first rfl, fun h _ hmem => Option.some.inj hmem ▸ h⟩
    rw [PdfSound, PdfOk, hfirst, hfirst, hrows, List.map_inj_left]
    refine forall₂_congr fun r _ => ?_
    rw [List.map_inj_left]
    exact forall_cells_iff P first r

end AnonReq.Ediscovery.Formats
