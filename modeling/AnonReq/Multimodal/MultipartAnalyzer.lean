import AnonReq.Foundation.Utf8
import AnonReq.Multimodal.JsonAnalyzer

/-!
# The analyzer of multipart bodies

`multimodal/multipart_analyzer.py`: the parts of a body are taken one after the other. A form field
is given to the JSON analyzer or, unless it looks binary, to the text engine; of a file only the
name is kept. What the multipart library reports of a body, and the two engines, are parameters.

* `getElem_processParts_iff`: what is offered for a part, if no engine raises before it.
* `inspects_iff`: every text part of a body is offered to an engine exactly if it is a form field
  that is JSON or does not look binary.
-/

namespace AnonReq.Multimodal

open Utf8

/-! ### The model -/

/-- `_BINARY_TYPES`. -/
def binaryTypes : List Text :=
  ["image/png".toList, "image/jpeg".toList, "image/gif".toList, "image/webp".toList,
    "application/octet-stream".toList, "application/pdf".toList, "audio/mpeg".toList,
    "audio/wav".toList, "video/mp4".toList]

/-- A part as the multipart library reports it: a form field or a file, with its names, its declared
type and its bytes. -/
inductive ReportedPart where
  | field (fieldName : Option (List UInt8)) (contentType : Option Text)
      (value : Option (List UInt8))
  | file (fieldName fileName : Option (List UInt8)) (contentType : Option Text)
      (data : List UInt8)

/-- `kind` of a part. -/
inductive PartKind where
  | field
  | file
deriving DecidableEq

/-- `_ParsedPart`. -/
structure ParsedPart where
  kind : PartKind
  fieldName : Text
  contentType : Text
  data : List UInt8
  fileName : Text := []

/-- `declared or default`. -/
def orDefault (declared : Option Text) (default : Text) : Text :=
  match declared with
  | none => default
  | some t => if t.isEmpty then default else t

/-- `on_field` and `on_file`. -/
def ReportedPart.parsed : ReportedPart → ParsedPart
  | .field fieldName contentType value =>
    { kind := .field
      fieldName := (fieldName.map decodeReplace).getD "unknown".toList
      contentType := orDefault contentType "text/plain".toList
      data := value.getD [] }
  | .file fieldName fileName contentType data =>
    { kind := .file
      fieldName := (fieldName.map decodeReplace).getD "unknown".toList
      contentType := orDefault contentType "application/octet-stream".toList
      data := data
      fileName := (fileName.map decodeReplace).getD [] }

/-- A byte of `_is_binary_content` that counts as text. -/
def isTextByte (b : UInt8) : Bool := (32 ≤ b && b ≤ 126) || [9, 10, 13].contains b

/-- `_is_binary_content`: less than seven tenths of the first bytes count as text. -/
def isBinaryContent (data : List UInt8) : Bool :=
  let sample := data.take 1024
  !data.isEmpty && decide (10 * sample.countP isTextByte < 7 * sample.length)

/-- What is given to an engine. -/
inductive Offered where
  | json (data : List UInt8)
  | text (text : Text)
deriving DecidableEq

/-- `MultipartAnalyzer`: its engines return entities or raise. -/
structure MultipartAnalyzer where
  jsonAnalyzer : List UInt8 → Except Text (List Entity)
  textEngine : Option (Text → Except Text (List Entity)) := none

namespace MultipartAnalyzer

variable (a : MultipartAnalyzer)

/-- `_process_field`: what is offered, and the entities after it. -/
def processField (part : ParsedPart) (entities : List Entity) :
    List Offered × Except Text (List Entity) :=
  let named (entity : Entity) := Dict.set entity "part_name".toList (.text part.fieldName)
  if part.contentType = applicationJson then
    ([.json part.data], (a.jsonAnalyzer part.data).map fun found => entities ++ found.map named)
  else if part.contentType ∈ binaryTypes ∨ isBinaryContent part.data = true then ([], .ok entities)
  else
    match a.textEngine with
    | none => ([], .ok entities)
    | some analyzeText =>
      let text := decodeReplace part.data
      ([.text text], (analyzeText text).map fun detections => entities ++ detections.map fun d =>
        Dict.set (named d) "content_type".toList (.text part.contentType))

/-- `_process_file`. -/
def processFile (part : ParsedPart) (entities : List Entity) : List Entity :=
  if part.contentType ∈ binaryTypes then entities
  else if part.fileName.isEmpty then entities
  else entities ++ [[
    ("entity_type".toList, .text "FILENAME".toList),
    ("value".toList, .text part.fileName),
    ("score".toList, .float "0.5".toList),
    ("part_name".toList, .text part.fieldName),
    ("content_type".toList, .text part.contentType)]]

/-- One part. -/
def processPart (part : ParsedPart) (entities : List Entity) :
    List Offered × Except Text (List Entity) :=
  match part.kind with
  | .field => a.processField part entities
  | .file => ([], .ok (processFile part entities))

/-- The loop of `analyze`: what is offered for each part, up to one where an engine raises. -/
def processParts : List ParsedPart → List Entity → List (List Offered) × Except Text (List Entity)
  | [], entities => ([], .ok entities)
  | part :: parts, entities =>
    match a.processPart part entities with
    | (offered, .error e) => ([offered], .error e)
    | (offered, .ok entities) =>
      let (rest, result) := processParts parts entities
      (offered :: rest, result)

/-- `analyze`: what is offered for each part, and the result. `parse` is what the multipart library
reports of a body, or the error it raises. -/
def analyze (parse : List UInt8 → Text → Except Text (List ReportedPart)) (body : List UInt8)
    (contentTypeHeader : Text) : List (List Offered) × UnifiedDetectionResult :=
  match parse body contentTypeHeader with
  | .error e => ([], { error := some e })
  | .ok reported =>
    match a.processParts (reported.map ReportedPart.parsed) [] with
    | (offered, .error e) => (offered, { error := some e })
    | (offered, .ok entities) => (offered, { entities := entities })

end MultipartAnalyzer

/-! ### What is inspected -/

/-- The bytes of a part. -/
def ReportedPart.data (part : ReportedPart) : List UInt8 := part.parsed.data

/-- The declared type of a part. -/
def ReportedPart.declaredType : ReportedPart → Option Text
  | .field _ contentType _ => contentType
  | .file _ _ contentType _ => contentType

/-- The part is text: its bytes encode a text, and it is not declared to be of a binary type. -/
def ReportedPart.IsText (part : ReportedPart) : Prop :=
  (∃ text, part.data = encode text) ∧ ∀ t ∈ part.declaredType, t ∉ binaryTypes

/-- All of the data is given to an engine, as it is or decoded. -/
def Covers (offered : List Offered) (data : List UInt8) : Prop :=
  .json data ∈ offered ∨ .text (decodeReplace data) ∈ offered

namespace MultipartAnalyzer

variable (a : MultipartAnalyzer)

/-- A body that cannot be parsed is reported as an error, and every text part of one that can be is
offered to an engine. -/
def Inspects (parse : List UInt8 → Text → Except Text (List ReportedPart)) (body : List UInt8)
    (contentTypeHeader : Text) : Prop :=
  (∀ e, parse body contentTypeHeader = .error e →
    (a.analyze parse body contentTypeHeader).2.error = some e) ∧
  ∀ reported, parse body contentTypeHeader = .ok reported → ∀ (i : ℕ) part,
    reported[i]? = some part → part.IsText →
      ∃ offered, (a.analyze parse body contentTypeHeader).1[i]? = some offered ∧
        Covers offered part.data

/-- A field that is JSON, or does not look binary while there is a text engine. -/
def Takes (part : ReportedPart) : Prop :=
  part.parsed.kind = .field ∧ (part.parsed.contentType = applicationJson ∨
    isBinaryContent part.data = false ∧ a.textEngine.isSome = true)

/-- The engine a part is given to raises. -/
def Raises (part : ParsedPart) : Prop :=
  part.kind = .field ∧
    (part.contentType = applicationJson ∧ (∃ e, a.jsonAnalyzer part.data = .error e) ∨
      part.contentType ≠ applicationJson ∧ part.contentType ∉ binaryTypes ∧
        isBinaryContent part.data = false ∧ ∃ analyzeText ∈ a.textEngine,
          ∃ e, analyzeText (decodeReplace part.data) = .error e)

/-- What is offered for a part, whatever was found before it. -/
def offers (part : ParsedPart) : List Offered := (a.processPart part []).1

variable {a}

/-- What is offered for a field that is not JSON. -/
theorem offers_field {part : ParsedPart} (hkind : part.kind = .field)
    (htype : part.contentType ≠ applicationJson) :
    a.offers part = if part.contentType ∈ binaryTypes ∨ isBinaryContent part.data = true then []
      else (a.textEngine.map fun _ => Offered.text (decodeReplace part.data)).toList := by
  unfold offers processPart
  rw [hkind]
  dsimp only
  unfold processField
  dsimp only
  rw [if_neg htype]
  split_ifs
  · rfl
  · cases a.textEngine <;> rfl

theorem processPart_fst (part : ParsedPart) (entities : List Entity) :
    (a.processPart part entities).1 = a.offers part := by
  unfold offers processPart
  split
  · unfold processField
    dsimp only
    split_ifs
    · rfl
    · rfl
    · cases a.textEngine <;> rfl
  · rfl

theorem map_eq_error_iff {ε α β : Type*} {f : α → β} {x : Except ε α} {e : ε} :
    x.map f = .error e ↔ x = .error e := by
  cases x <;> simp [Except.map]

/-- A part raises with its engine, whatever was found before it. -/
theorem processPart_error_iff (part : ParsedPart) (entities : List Entity) :
    (∃ e, (a.processPart part entities).2 = .error e) ↔ a.Raises part := by
  unfold processPart Raises
  split
  · rename_i hkind
    rw [hkind]
    unfold processField
    dsimp only
    split_ifs with hjson hbinary
    · simp [hjson, map_eq_error_iff]
    · refine iff_of_false (by simp) ?_
      rintro ⟨-, ⟨h, -⟩ | ⟨-, htype, hcontent, -⟩⟩
      · exact hjson h
      · exact hbinary.elim htype (by simp [hcontent])
    · obtain ⟨htype, hcontent⟩ := not_or.mp hbinary
      cases a.textEngine with
      | none => simp [hjson]
      | some analyzeText => simp [hjson, htype, hcontent, map_eq_error_iff]
  · rename_i hkind
    simp [hkind]

/-- **What is offered for a part**: what the part itself calls for, if no engine raises before. -/
theorem getElem_processParts_iff {parts : List ParsedPart} {entities : List Entity} {i : ℕ}
    {offered : List Offered} :
    (a.processParts parts entities).1[i]? = some offered ↔
      (∃ part, parts[i]? = some part ∧ offered = a.offers part) ∧
        ∀ j < i, ∀ part, parts[j]? = some part → ¬ a.Raises part := by
  induction parts generalizing entities i with
  | nil => simp [processParts]
  | cons part parts ih =>
    have hfst := processPart_fst (a := a) part entities
    have hraises := processPart_error_iff (a := a) part entities
    unfold processParts
    generalize hresult : a.processPart part entities = result at hfst hraises
    obtain ⟨first, e | entities'⟩ := result
    -- an engine raises, and no part after this one is processed
    · obtain rfl : first = a.offers part := hfst
      have hpart : a.Raises part := hraises.mp ⟨e, rfl⟩
      obtain _ | i := i
      · simp [eq_comm]
      · refine iff_of_false (by simp) fun h => ?_
        exact h.2 0 (Nat.succ_pos i) part rfl hpart
    · obtain rfl : first = a.offers part := hfst
      have hpart : ¬ a.Raises part := fun h => by
        obtain ⟨e, he⟩ := hraises.mpr h
        exact absurd he (by simp)
      obtain _ | i := i
      · simp [eq_comm]
      · have hstep := @ih entities' i
        rw [List.getElem?_cons_succ, hstep, List.getElem?_cons_succ]
        refine and_congr_right fun _ => ⟨fun h j hj earlier hearlier => ?_, fun h j hj earlier
          hearlier => h (j + 1) (Nat.succ_lt_succ hj) earlier hearlier⟩
        obtain _ | j := j
        · obtain rfl := Option.some.inj hearlier
          exact hpart
        · exact h j (Nat.lt_of_succ_lt_succ hj) earlier hearlier

/-- The type of a text part is not a binary one, unless it is a file without a declared type. -/
theorem contentType_not_mem {part : ReportedPart} (h : part.IsText)
    (hkind : part.parsed.kind = .field) : part.parsed.contentType ∉ binaryTypes := by
  obtain ⟨fieldName, contentType, value⟩ | ⟨fieldName, fileName, contentType, data⟩ := part
  · change orDefault contentType "text/plain".toList ∉ binaryTypes
    have hdeclared : ∀ t ∈ contentType, t ∉ binaryTypes := h.2
    obtain _ | t := contentType
    · decide
    · rw [orDefault]
      split_ifs with hempty
      · decide
      · exact hdeclared t rfl
  · exact PartKind.noConfusion (show PartKind.file = .field from hkind)

/-- A text part is covered exactly if it is one that an engine takes. -/
theorem covers_offers_iff {part : ReportedPart} (h : part.IsText) :
    Covers (a.offers part.parsed) part.data ↔ a.Takes part := by
  have hdata : part.parsed.data = part.data := rfl
  unfold Takes
  obtain hkind | hkind : part.parsed.kind = .field ∨ part.parsed.kind = .file := by
    cases part.parsed.kind <;> simp
  · rw [and_iff_right hkind]
    by_cases hjson : part.parsed.contentType = applicationJson
    · refine iff_of_true (Or.inl ?_) (Or.inl hjson)
      unfold offers processPart
      rw [hkind]
      dsimp only
      unfold processField
      dsimp only
      rw [if_pos hjson]
      exact List.mem_singleton_self _
    · rw [or_iff_right hjson, Covers, offers_field hkind hjson, hdata]
      have htype := contentType_not_mem h hkind
      cases hcontent : isBinaryContent part.data with
      | true => simp
      | false =>
        rw [if_neg (by simp [htype])]
        cases a.textEngine <;> simp
  · refine iff_of_false ?_ fun htakes => ?_
    · unfold offers processPart
      rw [hkind]
      simp [Covers]
    · rw [hkind] at htakes
      exact absurd htakes.1 (by decide)

/-- **Every text part is inspected** exactly if it is a form field that is JSON, or that does not
look binary where there is a text engine, and no engine raises before it. -/
theorem inspects_iff (a : MultipartAnalyzer)
    (parse : List UInt8 → Text → Except Text (List ReportedPart)) (body : List UInt8)
    (contentTypeHeader : Text) :
    a.Inspects parse body contentTypeHeader ↔
      ∀ reported, parse body contentTypeHeader = .ok reported → ∀ (i : ℕ) part,
        reported[i]? = some part → part.IsText →
          a.Takes part ∧ ∀ j < i, ∀ earlier, reported[j]? = some earlier →
            ¬ a.Raises earlier.parsed := by
  have herror : ∀ e, parse body contentTypeHeader = .error e →
      (a.analyze parse body contentTypeHeader).2.error = some e := by
    intro e he
    rw [analyze, he]
  rw [Inspects, and_iff_right herror]
  refine forall₂_congr fun reported hreported => forall₃_congr fun i part hpart =>
    forall_congr' fun htext => ?_
  have hoffered : (a.analyze parse body contentTypeHeader).1 =
      (a.processParts (reported.map ReportedPart.parsed) []).1 := by
    rw [analyze, hreported]
    dsimp only
    generalize a.processParts (reported.map ReportedPart.parsed) [] = result
    obtain ⟨offered, e | entities⟩ := result <;> rfl
  have hparsed : ∀ (j : ℕ) p, (reported.map ReportedPart.parsed)[j]? = some p ↔
      ∃ earlier, reported[j]? = some earlier ∧ earlier.parsed = p := by
    intro j p
    rw [List.getElem?_map, Option.map_eq_some_iff]
  simp only [hoffered, getElem_processParts_iff, hparsed]
  constructor
  · rintro ⟨offered, ⟨⟨p, ⟨part', hpart', rfl⟩, rfl⟩, hraises⟩, hcovers⟩
    obtain rfl := Option.some.inj (hpart'.symm.trans hpart)
    exact ⟨(covers_offers_iff htext).mp hcovers, fun j hj earlier hearlier =>
      hraises j hj _ ⟨earlier, hearlier, rfl⟩⟩
  · rintro ⟨htakes, hraises⟩
    refine ⟨_, ⟨⟨_, ⟨part, hpart, rfl⟩, rfl⟩, ?_⟩, (covers_offers_iff htext).mpr htakes⟩
    rintro j hj _ ⟨earlier, hearlier, rfl⟩
    exact hraises j hj earlier hearlier

/-- An analyzer whose engines find nothing. -/
def sampleAnalyzer : MultipartAnalyzer where
  jsonAnalyzer _ := .ok []
  textEngine := some fun _ => .ok []

/-- A form field of plain text in Chinese. -/
def greeting : ReportedPart :=
  .field (some (encode "name".toList)) (some "text/plain".toList) (some (encode "你好".toList))

/-- **A text in another script** is not offered to an engine. -/
theorem not_inspects :
    ¬ ∀ (a : MultipartAnalyzer) (parse : List UInt8 → Text → Except Text (List ReportedPart))
      (body : List UInt8) (contentTypeHeader : Text),
      a.Inspects parse body contentTypeHeader := by
  intro hall
  have htext : greeting.IsText := by
    refine ⟨⟨"你好".toList, rfl⟩, fun t ht => ?_⟩
    obtain rfl : "text/plain".toList = t := Option.some.inj ht
    decide
  obtain ⟨offered, hoffered, hcovers⟩ :=
    (hall sampleAnalyzer (fun _ _ => .ok [greeting]) [] []).2 [greeting] rfl 0 greeting rfl htext
  have hnone : (sampleAnalyzer.analyze (fun _ _ => .ok [greeting]) [] []).1 = [[]] := by
    decide +kernel
  rw [hnone] at hoffered
  obtain rfl : [] = offered := Option.some.inj hoffered
  exact hcovers.elim List.not_mem_nil List.not_mem_nil

end MultipartAnalyzer

end AnonReq.Multimodal
