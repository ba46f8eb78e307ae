import AnonReq.Detection.RegexPatterns
import AnonReq.Detection.Stage
import AnonReq.Pipeline.LockStep
import AnonReq.Tokenization.JsonTokens

/-!
# The arguments of tool calls

The arguments of a tool call are a text, which is meant to be JSON. `DetectionStage`
(`pipeline/detection.py`) with the patterns of `detection/regex_patterns.py` looks for data in the
text as it stands, and `TokenizationStage` puts tokens into it; `Restorer.restore_response`
(`tokenization/restorer.py`) puts values into the arguments of a response. Neither looks at the
document that the text stands for.

* `exists_sent`: the arguments that are sent are JSON exactly if what the patterns found in them
  stood inside of strings.
* `keepsResponses_iff`: the arguments of responses stay JSON exactly if the mapped values can stand
  inside of strings.
-/

namespace AnonReq.Pipeline

open JsonText
open Detection (NodeHits Span DigitTables RegexDetector maskOnFormat)
open Detection.RegexPatterns (patterns)
open Tokenization (PlainText PlainUnicode Spared TokenMapping Counts restoreText nonOverlapping
  strip_ne_nil_of_isJson)

universe u v

variable {Λ : Type u} {β : Type v}

/-! ### Detection with the built-in patterns -/

/-- What the tokenization reads of a detection. -/
def readDetection (d : Span) : Tokenization.Detection where
  entityType := d.entityType.toList
  start := some d.start
  stop := some d.stop
  reversible := d.reversible.getD true
  isProtected := d.isProtected

/-- A detection, with the index of its node. -/
def nodeDetection (d : Span) : NodeDetection := ⟨d.nodeIndex.getD 0, readDetection d⟩

section Patterns

variable (tables : DigitTables) (stage : Detection.DetectionStage)

/-- What the built-in patterns find in a text. The Luhn check of a card number may raise. -/
def patternHits (text : Text) : Except EngineFailure NodeHits :=
  match (RegexDetector.mk (patterns stage.unicode)).detect tables text none with
  | none => .error (.recorded (.abort 500 (name "Detection stage failed")))
  | some results => .ok { value := text, regexResults := results }

/-- The detections of `DetectionStage`, where the built-in patterns are its only detector. -/
def detectPatterns (nodes : List TextNode) : Except EngineFailure (List NodeDetection) :=
  (nodes.mapM fun node => patternHits tables stage node.value).map fun hits =>
    (stage.execute hits).map nodeDetection

/-- The detections in a text alone. -/
def patternDetections (text : Text) : List Tokenization.Detection :=
  match patternHits tables stage text with
  | .error _ => []
  | .ok hits => (stage.final hits).map fun d => readDetection (stage.tagNode 0 d)

/-- What the tokenization replaces in a text. -/
def patternSpans (text : Text) : List (Tokenization.ValidSpan text.length) :=
  nonOverlapping text (patternDetections tables stage text)

/-- The data of a request behind the detection: its nodes are those of the extraction, and the
detections are those of the built-in patterns. -/
structure Detected (data : RequestData Λ) : Prop where
  textNodes : data.textNodes = extract data.originalRequest
  passed : blockedByClassification data = false
  detected : ∃ detections, detectPatterns tables stage data.textNodes = .ok detections ∧
    data.detections = some detections

end Patterns

variable {tables : DigitTables} {stage : Detection.DetectionStage}

/-! ### The types of the patterns -/

/-- The types of the built-in patterns, and those that stand for a type that is masked on format,
are plain. -/
theorem plainText_types (stage : Detection.DetectionStage) {entityType : String}
    (h : entityType ∈ (patterns stage.unicode).map Prod.fst ++ maskOnFormat.map Prod.snd) :
    PlainText entityType.toList := by
  have hkeys : (patterns stage.unicode).map Prod.fst =
      ["EMAIL_ADDRESS", "PHONE_NUMBER", "CREDIT_CARD", "IBAN_CODE", "IP_ADDRESS", "URL",
        "US_SSN"] := rfl
  have hall : (["EMAIL_ADDRESS", "PHONE_NUMBER", "CREDIT_CARD", "IBAN_CODE", "IP_ADDRESS", "URL",
      "US_SSN"] ++ maskOnFormat.map Prod.snd).all (fun t => t.toList.all isPlain) = true := by
    decide
  rw [hkeys] at h
  exact List.all_eq_true.mp (List.all_eq_true.mp hall entityType h)

/-- What the patterns find has one of these types. -/
theorem plainText_of_mem_patternDetections {text : Text} {d : Tokenization.Detection}
    (hd : d ∈ patternDetections tables stage text) : PlainText d.entityType := by
  rw [patternDetections] at hd
  split at hd
  · exact absurd hd List.not_mem_nil
  · next hits hhits =>
    obtain ⟨f, hf, rfl⟩ := List.mem_map.mp hd
    change PlainText f.entityType.toList
    refine plainText_types stage (List.mem_append.mpr ?_)
    refine (stage.entityType_of_mem_final hf).imp (fun hdetected => ?_) id
    obtain ⟨found, hfound, htype⟩ := hdetected
    rw [patternHits] at hhits
    split at hhits
    · cases hhits
    · next results hresults =>
      obtain rfl := Except.ok.inj hhits
      rw [NodeHits.detections, List.append_nil, List.append_nil, List.append_nil] at hfound
      have haccepted := Detection.mem_acceptedSpans_of_mem_detect hresults hfound
      obtain ⟨hit, hhit, hspan⟩ := List.mem_map.mp haccepted
      obtain ⟨entry, hentry, hmatch⟩ := List.mem_flatMap.mp (List.mem_of_mem_filter hhit)
      obtain ⟨m, -, rfl⟩ := List.mem_map.mp hmatch
      rw [htype, ← hspan]
      exact List.mem_map_of_mem hentry

/-! ### The nodes and their detections -/

/-- Boosting, and the index of the node, are not seen by the tokenization. -/
theorem map_readDetection_boostDetections (b : Detection.ContextBooster) (final : List Span)
    (i : ℕ) (text : Text) :
    (Detection.boostDetections b (final.map (stage.tagNode i)) text).map readDetection =
      final.map fun d => readDetection (stage.tagNode 0 d) := by
  rw [Detection.DetectionStage.map_boostDetections_of_keeps fun _ _ _ => rfl, List.map_map]
  rfl

/-- **Node by node.** The nodes that are tokenized have the detections in their texts. -/
theorem detectedNodes_eq {data : RequestData Λ} (h : Detected tables stage data) :
    detectedNodes data = data.textNodes.map fun node =>
      ⟨node.value, patternDetections tables stage node.value⟩ := by
  obtain ⟨detections, hdetect, hdata⟩ := h.detected
  obtain ⟨hits, hhits, rfl⟩ := Runs.map_eq_ok_iff.mp hdetect
  have hforall := Runs.mapM_eq_ok_iff.mp hhits
  have hnode : ∀ p ∈ data.textNodes.zipIdx,
      (⟨p.1.value, ((data.detections.getD []).filter fun d =>
        decide (d.nodeIndex = p.2)).map NodeDetection.detection⟩ : Tokenization.Node) =
        ⟨p.1.value, patternDetections tables stage p.1.value⟩ := by
    intro p hp
    obtain ⟨hlt, hget⟩ := List.getElem?_eq_some_iff.mp (List.mem_zipIdx_iff_getElem?.mp hp)
    have hlength : p.2 < hits.length := hforall.length_eq ▸ hlt
    have hfound := hforall.get hlt hlength
    rw [List.get_eq_getElem, List.get_eq_getElem, hget] at hfound
    -- every detection carries the index of its node, so the default is never taken
    have hindex : ∀ d ∈ stage.execute hits,
        decide (d.nodeIndex.getD 0 = p.2) = (d.nodeIndex == some p.2) := by
      intro d hd
      obtain ⟨i, hi⟩ := stage.exists_nodeIndex_of_mem_execute hd
      rw [hi, Option.getD_some, Option.some_beq_some, beq_eq_decide]
    rw [hdata, Option.getD_some, List.filter_map, List.map_map]
    have hfilter : (stage.execute hits).filter
        ((fun d => decide (d.nodeIndex = p.2)) ∘ nodeDetection) =
        (stage.execute hits).filter fun d => d.nodeIndex == some p.2 :=
      List.filter_congr hindex
    rw [hfilter, stage.filter_execute (List.getElem?_eq_getElem hlength), patternDetections, hfound]
    exact congrArg _ (map_readDetection_boostDetections _ _ _ _)
  rw [detectedNodes, List.map_congr_left hnode]
  conv_rhs => rw [← List.zipIdx_map_fst 0 data.textNodes, List.map_map]
  rfl

/-! ### The body that is sent -/

section Sent

variable {data : RequestData Λ} (h : Detected tables stage data) (randomBits : Fin (2 ^ 64))

include h

/-- **The arguments that are sent** are JSON exactly if what the patterns found in them stood inside
of strings. -/
theorem exists_sent : ∃ transformed mapping,
    tokenized randomBits data = some (transformed, mapping) ∧
      ∀ (place : Place) (text : Text),
        data.originalRequest.readPath place.keys = some (.text text) → Text.strip text ≠ [] →
        ∃ sent, transformed.readPath place.keys = some (.text sent) ∧
          (IsJson sent ↔ Spared text (patternSpans tables stage text)) := by
  have hnodes := detectedNodes_eq h
  have hnode : ∀ (place : Place) (text : Text),
      data.originalRequest.readPath place.keys = some (.text text) → Text.strip text ≠ [] →
      ∃ (i : ℕ) (node : TextNode), data.textNodes[i]? = some node ∧ node.path = place.path ∧
        node.value = text := by
    intro place text hread hblank
    have hmem : (⟨place.path, place.role data.originalRequest, text⟩ : TextNode) ∈
        data.textNodes :=
      h.textNodes ▸ mem_extract_iff.mpr ⟨place, rfl, rfl, hread, hblank⟩
    obtain ⟨i, hi⟩ := List.mem_iff_getElem?.mp hmem
    exact ⟨i, _, hi, rfl, rfl⟩
  rw [tokenized]
  split_ifs with hempty
  · -- nothing was found, and the request is sent as it is
    refine ⟨_, _, rfl, fun place text hread hblank => ⟨text, hread, ?_⟩⟩
    obtain ⟨i, node, hi, -, rfl⟩ := hnode place text hread hblank
    have hnone : patternDetections tables stage node.value = [] := by
      have hget := congrArg (fun nodes : List Tokenization.Node => nodes[i]?) hnodes
      rw [detectedNodes, List.isEmpty_iff.mp hempty] at hget
      simp only [List.getElem?_map, List.getElem?_zipIdx, hi, Option.map_some,
        List.filter_nil, List.map_nil, Option.some.injEq, Tokenization.Node.mk.injEq,
        true_and] at hget
      exact hget.symm
    rw [patternSpans, hnone]
    exact ⟨fun hjson => ⟨by simpa [Tokenization.firstGap, Tokenization.laterGaps,
      nonOverlapping] using hjson, trivial⟩, fun hspared => by
        simpa [Tokenization.firstGap, Tokenization.laterGaps, nonOverlapping] using hspared.isJson⟩
  · -- every node is written back, with its tokens
    let session := Tokenization.tokenizeSession randomBits (detectedNodes data)
    let flags := (detectedNodes data).map fun node => !node.detections.isEmpty
    have hlength : data.textNodes.length ≤ (session.1.zip flags).length := by
      simp only [session, flags, Tokenization.tokenizeSession_eq, List.length_zip, List.length_map,
        hnodes, min_self, le_refl]
    have hfst : (data.textNodes.zip (session.1.zip flags)).map Prod.fst =
        extract data.originalRequest := (List.map_fst_zip hlength).trans h.textNodes
    have hplain : ∀ node ∈ detectedNodes data, ∀ d ∈ node.detections, PlainText d.entityType := by
      rw [hnodes]
      intro node hnode d hd
      obtain ⟨textNode, -, rfl⟩ := List.mem_map.mp hnode
      exact plainText_of_mem_patternDetections hd
    obtain ⟨transformed, hwritten, hvalues, -⟩ := exists_writeBack hfst
    refine ⟨transformed, session.2, Option.map_eq_some_iff.mpr ⟨transformed, hwritten, rfl⟩,
      fun place text hread hblank => ?_⟩
    obtain ⟨i, node, hi, hpath, rfl⟩ := hnode place text hread hblank
    have hget : (detectedNodes data)[i]? =
        some ⟨node.value, patternDetections tables stage node.value⟩ := by
      rw [hnodes, List.getElem?_map, hi]
      rfl
    obtain ⟨sent, hsent, hiff⟩ :=
      Tokenization.isJson_tokenizeSession_iff randomBits hplain hget
    have hflag : flags[i]? = some (!(patternDetections tables stage node.value).isEmpty) := by
      simp only [flags, List.getElem?_map, hget, Option.map_some]
    have hmem : (node, sent, !(patternDetections tables stage node.value).isEmpty) ∈
        data.textNodes.zip (session.1.zip flags) :=
      List.mem_of_getElem? (List.getElem?_zip_eq_some.mpr
        ⟨hi, List.getElem?_zip_eq_some.mpr ⟨hsent, hflag⟩⟩)
    exact ⟨sent, hvalues _ hmem place hpath, hiff⟩

end Sent

/-- **Requests.** The arguments that are JSON are so in the body that the tokenization makes. -/
def KeepsArguments (randomBits : Fin (2 ^ 64))
    (storeMapping : Text → Text → List (Text × Text) → Option StageError) (β : Type v)
    (ctx : ChatContext Λ) : Prop :=
  ∃ transformed, ((tokenizationStage randomBits storeMapping : ChatStage Λ β).execute
      ctx).data.transformedRequest = some transformed ∧
    ∀ i j text, ctx.data.originalRequest.readPath (Place.arguments i j).keys = some (.text text) →
      IsJson text → ∃ sent,
        transformed.readPath (Place.arguments i j).keys = some (.text sent) ∧ IsJson sent

theorem keepsArguments_iff {ctx : ChatContext Λ} (h : Detected tables stage ctx.data)
    (randomBits : Fin (2 ^ 64))
    (storeMapping : Text → Text → List (Text × Text) → Option StageError) :
    KeepsArguments randomBits storeMapping β ctx ↔
      ∀ i j text,
        ctx.data.originalRequest.readPath (Place.arguments i j).keys = some (.text text) →
        IsJson text → Spared text (patternSpans tables stage text) := by
  obtain ⟨transformed, mapping, htokenized, hsent⟩ := exists_sent h randomBits
  have hdata : ((tokenizationStage randomBits storeMapping : ChatStage Λ β).execute
      ctx).data.transformedRequest = some transformed := by
    rw [tokenizationStage_execute, if_neg (h.passed ▸ Bool.false_ne_true), htokenized]
    dsimp only
    rcases storeError storeMapping ctx.data mapping with _ | error
    · rfl
    · rcases error <;> rfl
  rw [KeepsArguments, hdata]
  constructor
  · rintro ⟨_, heq, hkeeps⟩ i j text hread hjson
    obtain rfl := Option.some.inj heq
    obtain ⟨sent, hreadSent, hiff⟩ := hsent _ text hread (strip_ne_nil_of_isJson hjson)
    obtain ⟨sent', hreadSent', hjsonSent⟩ := hkeeps i j text hread hjson
    obtain rfl := Json.text.inj (Option.some.inj (hreadSent.symm.trans hreadSent'))
    exact hiff.mp hjsonSent
  · intro hspared
    refine ⟨transformed, rfl, fun i j text hread hjson => ?_⟩
    obtain ⟨sent, hreadSent, hiff⟩ := hsent _ text hread (strip_ne_nil_of_isJson hjson)
    exact ⟨sent, hreadSent, hiff.mpr (hspared i j text hread hjson)⟩

/-! ### Responses -/

mutual

/-- `_restore_once`. -/
def restoreOnce (u : Unicode) (mapping : List (Text × Text)) : Json → Json
  | .text s => .text (restoreText u s mapping)
  | .object fields => .object (restoreFields u mapping fields)
  | .list items => .list (restoreItems u mapping items)
  | value => value

/-- The values of fields, each restored. -/
def restoreFields (u : Unicode) (mapping : List (Text × Text)) : Fields → Fields
  | [] => []
  | (k, value) :: fields => (k, restoreOnce u mapping value) :: restoreFields u mapping fields

/-- Items, each restored. -/
def restoreItems (u : Unicode) (mapping : List (Text × Text)) : List Json → List Json
  | [] => []
  | item :: items => restoreOnce u mapping item :: restoreItems u mapping items

end

/-- `Restorer.restore_response`. -/
def restoreResponse (u : Unicode) (response : Fields) (mapping : List (Text × Text)) : Fields :=
  if mapping.isEmpty then response else restoreFields u mapping response

/-- The arguments of a tool call of a response, key by key. -/
def responseArguments (i j : ℕ) : List Key :=
  [.name (name "choices"), .index i, .name (name "message"), .name (name "tool_calls"), .index j,
    .name (name "function"), .name (name "arguments")]

section Restored

variable (u : Unicode) (mapping : List (Text × Text))

theorem lookup_restoreFields (fields : Fields) (k : Text) :
    (restoreFields u mapping fields).lookup k =
      (fields.lookup k).map (restoreOnce u mapping) := by
  induction fields with
  | nil => rfl
  | cons field fields ih =>
    rw [restoreFields, List.lookup_cons, List.lookup_cons, ih]
    cases k == field.1 <;> rfl

theorem getElem?_restoreItems (items : List Json) (i : ℕ) :
    (restoreItems u mapping items)[i]? = items[i]?.map (restoreOnce u mapping) := by
  induction items generalizing i with
  | nil => rfl
  | cons item items ih =>
    cases i with
    | zero => rfl
    | succ i => exact ih i

/-- **What is read from a restored document** is what was read, restored. -/
theorem readPath_restoreOnce (document : Json) (keys : List Key) :
    (restoreOnce u mapping document).readPath keys =
      (document.readPath keys).map (restoreOnce u mapping) := by
  have hchild : ∀ document key, (restoreOnce u mapping document).child key =
      (Json.child document key).map (restoreOnce u mapping) := by
    intro document key
    cases key with
    | name k =>
      cases document with
      | object fields => exact lookup_restoreFields u mapping fields k
      | _ => rfl
    | index i =>
      cases document with
      | list items => exact getElem?_restoreItems u mapping items i
      | _ => rfl
  induction keys generalizing document with
  | nil => rfl
  | cons key keys ih =>
    rw [Json.readPath, Json.readPath, hchild, Option.bind_map, Option.map_bind]
    exact congrArg _ (funext fun inner => ih inner)

theorem restoreText_nil (text : Text) : restoreText u text [] = text := rfl

/-- A text of a restored response is the text of the response, restored. -/
theorem readPath_restoreResponse {response : Fields} {key : Key} {keys : List Key} {text : Text}
    (h : (Json.object response).readPath (key :: keys) = some (.text text)) :
    (Json.object (restoreResponse u response mapping)).readPath (key :: keys) =
      some (.text (restoreText u text mapping)) := by
  rw [restoreResponse]
  split_ifs with hempty
  · rw [List.isEmpty_iff.mp hempty, restoreText_nil, h]
  · have hread := readPath_restoreOnce u mapping (.object response) (key :: keys)
    rw [h] at hread
    exact hread

end Restored

/-- **Responses.** The arguments that are JSON are so in the restored response. -/
def KeepsResponses (u : Unicode) (mapping : List (Text × Text)) : Prop :=
  ∀ (response : Fields) i j text,
    (Json.object response).readPath (responseArguments i j) = some (.text text) → IsJson text →
    ∃ restored, (Json.object (restoreResponse u response mapping)).readPath
        (responseArguments i j) = some (.text restored) ∧ IsJson restored

/-- A response with one tool call. -/
def callResponse (text : Text) : Fields :=
  [(name "choices", .list [.object [(name "message", .object [(name "tool_calls",
    .list [.object [(name "function", .object [(name "arguments", .text text)])]])])]])]

theorem readPath_callResponse (text : Text) :
    (Json.object (callResponse text)).readPath (responseArguments 0 0) = some (.text text) := rfl

theorem keepsResponses_iff {u : PlainUnicode} {mapping : List (Text × Text)}
    (htokens : TokenMapping mapping) :
    KeepsResponses u.toUnicode mapping ↔ ∀ e, Counts u.toUnicode mapping e → Enclosed e.2 := by
  rw [← Tokenization.isJson_restoreText_iff htokens]
  constructor
  · intro hkeeps text hjson
    have hread := readPath_callResponse text
    obtain ⟨restored, hrestored, hjsonRestored⟩ :=
      hkeeps (callResponse text) 0 0 text hread hjson
    rw [responseArguments, readPath_restoreResponse u.toUnicode mapping hread] at hrestored
    exact Json.text.inj (Option.some.inj hrestored) ▸ hjsonRestored
  · intro hkeeps response i j text hread hjson
    exact ⟨_, readPath_restoreResponse u.toUnicode mapping hread, hkeeps text hjson⟩

/-! ### Both ways -/

/-- **The arguments of tool calls.** They stay JSON in a request exactly if what the patterns find
in them stands inside of strings, and in every response exactly if the mapped values can stand
inside of strings. -/
theorem keepsJson_iff {ctx : ChatContext Λ} (h : Detected tables stage ctx.data)
    (randomBits : Fin (2 ^ 64))
    (storeMapping : Text → Text → List (Text × Text) → Option StageError)
    {u : PlainUnicode} {mapping : List (Text × Text)} (htokens : TokenMapping mapping) :
    (KeepsArguments randomBits storeMapping β ctx ↔
      ∀ i j text,
        ctx.data.originalRequest.readPath (Place.arguments i j).keys = some (.text text) →
        IsJson text → Spared text (patternSpans tables stage text)) ∧
    (KeepsResponses u.toUnicode mapping ↔
      ∀ e, Counts u.toUnicode mapping e → Enclosed e.2) :=
  ⟨keepsArguments_iff h randomBits storeMapping, keepsResponses_iff htokens⟩

/-- A stage without exclusions, validators and boosted words. -/
def sampleStage : Detection.DetectionStage where
  unicode := .ascii
  booster := ⟨fun _ => [], 15 / 100, 50, []⟩

/-- A request with one tool call. -/
def callRequest (text : Text) : Json :=
  .object [(name "messages", .list [.object [(name "role", .text (name "assistant")),
    (name "tool_calls", .list [.object [(name "function",
      .object [(name "arguments", .text text)])]])]])]

/-- The request, behind the detection. -/
def callContext (text : Text) : ChatContext Unit where
  data :=
    { contextId := name "c"
      originalRequest := callRequest text
      textNodes := extract (callRequest text)
      detections := (detectPatterns .ascii sampleStage (extract (callRequest text))).toOption }
  errors := []

theorem detected_callContext (text : Text)
    (h : (detectPatterns .ascii sampleStage (extract (callRequest text))).toOption.isSome = true) :
    Detected .ascii sampleStage (callContext text).data := by
  refine ⟨rfl, rfl, ?_⟩
  cases hdetect : detectPatterns .ascii sampleStage (extract (callRequest text)) with
  | error failure =>
    rw [hdetect] at h
    exact absurd h Bool.false_ne_true
  | ok detections =>
    refine ⟨detections, hdetect, ?_⟩
    rw [callContext, hdetect]
    rfl

theorem eq_of_readPath_callRequest {text found : Text} {i j : ℕ}
    (h : (callRequest text).readPath (Place.arguments i j).keys = some (.text found)) :
    found = text := by
  cases i with
  | zero =>
    cases j with
    | zero => exact (Json.text.inj (Option.some.inj h)).symm
    | succ j => cases h
  | succ i => cases h

/-- Arguments with a mail address. -/
def mailArguments : Text := name "\x7b\"to\":\"ann@b.io\"\x7d"

/-- The tokens of a name. -/
def nameMapping (value : String) : List (Text × Text) := [(name "[PERSON_1]", name value)]

theorem tokenMapping_nameMapping (value : String) : TokenMapping (nameMapping value) :=
  fun e he => ⟨name "PERSON", 1, by decide, by decide, List.mem_singleton.mp he ▸ rfl⟩

theorem keepsJson_mailArguments :
    KeepsArguments 0 (fun _ _ _ => none) PUnit (callContext mailArguments) ∧
      KeepsResponses .ascii (nameMapping "Ann") := by
  obtain ⟨hrequest, hresponse⟩ := keepsJson_iff (β := PUnit)
    (detected_callContext mailArguments (by decide +kernel)) 0 (fun _ _ _ => none)
    (u := .ascii) (tokenMapping_nameMapping "Ann")
  refine ⟨hrequest.mpr fun i j text hread _ => ?_, hresponse.mpr ?_⟩
  · obtain rfl := eq_of_readPath_callRequest hread
    decide +kernel
  · rintro e ⟨front, back, hsplit, -⟩
    have he : e ∈ nameMapping "Ann" := hsplit ▸ List.mem_append_right front List.mem_cons_self
    obtain rfl := List.mem_singleton.mp he
    decide

/-- Arguments with a link, which the pattern for links does not tell from what follows it. -/
def linkArguments : Text := name "\x7b\"url\":\"https://a.io\"\x7d"

/-- **Arguments are not kept.** A link at the end of a string takes the quote with it, and a value
with a quote in it ends its string. -/
theorem not_keepsJson :
    (¬ ∀ ctx : ChatContext Unit, Detected .ascii sampleStage ctx.data →
      KeepsArguments 0 (fun _ _ _ => none) PUnit ctx) ∧
    ¬ ∀ mapping, TokenMapping mapping → KeepsResponses .ascii mapping := by
  refine ⟨fun hkeeps => ?_, fun hkeeps => ?_⟩
  · have hdetected := detected_callContext linkArguments (by decide +kernel)
    have hspared := (keepsArguments_iff hdetected 0 _).mp (hkeeps _ hdetected) 0 0 linkArguments
      rfl (by decide)
    exact absurd hspared (by decide +kernel)
  · have htokens := tokenMapping_nameMapping "Ann \"Bo\" Lee"
    have hvalues := (keepsResponses_iff (u := .ascii) htokens).mp (hkeeps _ htokens)
    have henclosed := hvalues _ ⟨[], [], rfl, List.forall_mem_nil _⟩
    exact absurd henclosed (by decide)

end AnonReq.Pipeline
