import AnonReq.Pipeline.LockStep
import AnonReq.Pipeline.ToolGovernance
import AnonReq.Tokenization.RoundTrip
import AnonReq.Tokenization.Session

/-!
# What is sent of a chat request

The stages in front of the provider, from end to end: a request that none of them stops is sent
with tokens for what was detected in it, and the mapping they have stored restores it.

* `tokenized_spec`: what the tokenization makes of the texts of a request, and of the rest of it.
* `SentFor` says what is sent for a request, what is stored, and what can be restored from both.
* `sent_of_passes`: every request that passes is sent so, whatever the engines and the gates do.
-/

namespace AnonReq.Pipeline

open Tokenization

universe u v

variable {Λ : Type u} {β : Type v}

/-! ### The texts -/

/-- A node with the detections that were made in it. -/
def detectedNode (data : RequestData Λ) (i : ℕ) (node : TextNode) : Node :=
  ⟨node.value, ((data.detections.getD []).filter fun d => decide (d.nodeIndex = i)).map
    NodeDetection.detection⟩

/-- The text of a node as it is sent: tokens in the place of the accepted spans. -/
def sentText (randomBits : Fin (2 ^ 64)) (nodes : List Node) (node : Node) : Text :=
  weave node.value (fun f => (sessionLedger nodes).tokenOf f randomBits) 0 node.spans

/-- The mapping of a session. -/
def sessionMapping (randomBits : Fin (2 ^ 64)) (nodes : List Node) : List (Text × Text) :=
  Ledger.mapping randomBits (sessionLedger nodes).entries

theorem getElem?_detectedNodes (data : RequestData Λ) (i : ℕ) :
    (detectedNodes data)[i]? = data.textNodes[i]?.map (detectedNode data i) := by
  rw [detectedNodes, List.getElem?_map, List.getElem?_zipIdx, Option.map_map, Nat.zero_add]
  rfl

theorem spans_eq_nil {node : Node} (h : node.detections = []) : node.spans = [] := by
  rw [Node.spans, h]
  rfl

/-- **Without detections** the texts stay, and there is nothing to restore. -/
theorem sentText_of_isEmpty {data : RequestData Λ} (h : (data.detections.getD []).isEmpty = true)
    (randomBits : Fin (2 ^ 64)) :
    (∀ i node, sentText randomBits (detectedNodes data) (detectedNode data i node) = node.value) ∧
      sessionMapping randomBits (detectedNodes data) = [] := by
  have hnone : ∀ i node, (detectedNode data i node).detections = [] := fun i node => by
    rw [detectedNode, List.isEmpty_iff.mp h]
    rfl
  refine ⟨fun i node => ?_, ?_⟩
  · rw [sentText, spans_eq_nil (hnone i node), weave, List.drop_zero]
    rfl
  · have hfindings : (detectedNodes data).flatMap Node.findings = [] := by
      refine List.flatMap_eq_nil_iff.mpr fun node hnode => ?_
      obtain ⟨i, hi⟩ := List.mem_iff_getElem?.mp hnode
      rw [getElem?_detectedNodes] at hi
      obtain ⟨text, -, rfl⟩ := Option.map_eq_some_iff.mp hi
      rw [Node.findings, spans_eq_nil (hnone i text), List.map_nil]
    rw [sessionMapping, sessionLedger, hfindings]
    rfl

/-- **The tokenization** replaces the text of each node, leaves alone what branches off from the
nodes, and makes the mapping of the session. -/
theorem tokenized_spec {randomBits : Fin (2 ^ 64)} {data : RequestData Λ}
    (hnodes : data.textNodes = extract data.originalRequest) {transformed : Json}
    {mapping : List (Text × Text)} (h : tokenized randomBits data = some (transformed, mapping)) :
    mapping = sessionMapping randomBits (detectedNodes data) ∧
      (∀ i node, data.textNodes[i]? = some node → ∀ place : Place, node.path = place.path →
        transformed.readPath place.keys = some (.text
          (sentText randomBits (detectedNodes data) (detectedNode data i node)))) ∧
      ∀ keys, (∀ node ∈ data.textNodes, ∀ place : Place, node.path = place.path →
        Json.Forks place.keys keys) →
          transformed.readPath keys = data.originalRequest.readPath keys := by
  rw [tokenized] at h
  split_ifs at h with hempty
  · -- nothing was detected, and the request is sent as it is
    obtain ⟨rfl, rfl⟩ := Prod.mk.inj (Option.some.inj h)
    obtain ⟨htext, hmapping⟩ := sentText_of_isEmpty hempty randomBits
    refine ⟨hmapping.symm, fun i node hnode place hpath => ?_, fun keys _ => rfl⟩
    obtain ⟨place', hpath', -, hread, -⟩ :=
      mem_extract_iff.mp (hnodes ▸ List.mem_of_getElem? hnode)
    have hkeys : place.keys = place'.keys := Option.some.inj
      (by rw [← place.parsePath_path, ← place'.parsePath_path, ← hpath, ← hpath'])
    rw [htext, hkeys, hread]
  · obtain ⟨written, hwritten, heq⟩ := Option.map_eq_some_iff.mp h
    obtain ⟨rfl, rfl⟩ := Prod.mk.inj heq
    rw [tokenizeSession_eq] at hwritten ⊢
    set texts := (detectedNodes data).map (sentText randomBits (detectedNodes data)) with htexts
    set flags := (detectedNodes data).map fun node => !node.detections.isEmpty with hflags
    have hlength : (detectedNodes data).length = data.textNodes.length := by
      rw [detectedNodes, List.length_map, List.length_zipIdx]
    have hfst : (data.textNodes.zip (texts.zip flags)).map Prod.fst =
        extract data.originalRequest := by
      rw [← hnodes]
      refine List.map_fst_zip ?_
      rw [List.length_zip, htexts, hflags, List.length_map, List.length_map, hlength, min_self]
    obtain ⟨written', hwritten', hvalues, hframe⟩ := exists_writeBack hfst
    obtain rfl : written' = written := Option.some.inj (hwritten'.symm.trans hwritten)
    refine ⟨rfl, fun i node hnode place hpath => ?_, fun keys hkeys =>
      hframe keys fun write hwrite => hkeys write.1 (List.of_mem_zip hwrite).1⟩
    have hdetected : (detectedNodes data)[i]? = some (detectedNode data i node) := by
      rw [getElem?_detectedNodes, hnode, Option.map_some]
    refine hvalues (node, sentText randomBits (detectedNodes data) (detectedNode data i node),
      !(detectedNode data i node).detections.isEmpty) ?_ place hpath
    refine List.mem_of_getElem? (i := i) ?_
    rw [List.getElem?_zip_eq_some, List.getElem?_zip_eq_some, htexts, hflags, List.getElem?_map,
      List.getElem?_map, hdetected]
    exact ⟨hnode, rfl, rfl⟩

/-! ### The body that is sent -/

/-- What is sent for a request, and what is known when it is. The detections are those that the
stages ended with. -/
structure SentFor (storeMapping : Text → Text → List (Text × Text) → Option StageError)
    (randomBits : Fin (2 ^ 64)) (request : Json) (sent : RequestData Λ) (transformed : Json) :
    Prop where
  /-- Every text that is not blank has tokens in the place of its accepted spans. -/
  replaced : ∀ i node, (extract request)[i]? = some node → ∀ place : Place,
    node.path = place.path → transformed.readPath place.keys = some (.text
      (sentText randomBits (detectedNodes sent) (detectedNode sent i node)))
  /-- The accepted spans cover every detected character, and no other. -/
  covers : ∀ node ∈ detectedNodes sent, ∀ j,
    Covered node.spans j ↔ Detected node.value node.detections j
  /-- Whatever branches off from these texts is sent as it is. -/
  frame : ∀ keys, (∀ node ∈ extract request, ∀ place : Place, node.path = place.path →
    Json.Forks place.keys keys) → transformed.readPath keys = request.readPath keys
  /-- The mapping is known, and stored unless it is empty. -/
  mapping : sent.tokenMappings = some (sessionMapping randomBits (detectedNodes sent))
  stored : sessionMapping randomBits (detectedNodes sent) ≠ [] → storeMapping sent.tenantId
    sent.contextId (sessionMapping randomBits (detectedNodes sent)) = none
  /-- It restores what is sent of a text, up to the findings that must not be restored, if the
  types of the session can be told apart and no token occurs in what was not detected. -/
  restores : ∀ u, Restorable u (sessionLedger (detectedNodes sent)) →
    (∀ node ∈ detectedNodes sent, ∀ gap ∈ gaps node.value 0 node.spans,
      ∀ entry ∈ sessionMapping randomBits (detectedNodes sent), ¬ Occurs u entry.1 gap) →
    ∀ node ∈ detectedNodes sent, (∀ span ∈ node.spans, span.reversible = true) →
      restoreText u (sentText randomBits (detectedNodes sent) node)
        (sessionMapping randomBits (detectedNodes sent)) = node.value

section

variable (β) (engines : Engines Λ) (appState : Option (AppState Λ)) (randomBits : Fin (2 ^ 64))
  (request : ChatRequest) (info : RequestInfo)

/-- No stage in front of the provider stops the request. -/
def Passes : Prop :=
  firstFailure (buildPreProviderPipeline engines appState randomBits : List (ChatStage Λ β))
    (newProcessingContext Λ request info) = none

/-- The data of the request behind these stages. -/
def sentData : RequestData Λ :=
  (appliedAll (buildPreProviderPipeline engines appState randomBits : List (ChatStage Λ β))
    (newProcessingContext Λ request info)).data

variable {β engines appState randomBits request info}

/-- A request that passes is tokenized as the gates leave it, with the nodes and the body of the
client. -/
theorem exists_tokenized_of_passes (h : Passes β engines appState randomBits request info) :
    ∃ gated, Framed (newProcessingContext Λ request info).data gated ∧ ∃ transformed mapping,
      tokenized randomBits gated = some (transformed, mapping) ∧
        storeError engines.storeMapping gated mapping = none ∧
          sentData β engines appState randomBits request info =
            { gated with
              transformedRequest := some transformed, tokenMappings := some mapping } := by
  simp only [Passes, buildPreProviderPipeline_eq, lastStages, firstFailure_append,
    Option.or_eq_none_iff, Option.map_eq_none_iff] at h
  obtain ⟨hprepare, -, hseal⟩ := h
  have hframed := framed_appliedAll (proper_prepareStages (β := β) engines)
    (newProcessingContext Λ request info)
  have hkept := kept_gateStages (β := β) engines appState
    (appliedAll (prepareStages engines : List (ChatStage Λ β))
      (newProcessingContext Λ request info))
  -- the gates leave the recorded action alone, so that the tokenization is not skipped
  obtain ⟨transformed, mapping, htokenized, hstore, hsealed⟩ := tokenized_of_sealStages
    ((blockedByClassification_congr hkept.action).trans
      (classified_prepareStages hprepare).not_blocked) hseal
  refine ⟨_, hframed.trans hkept.framed, transformed, mapping, htokenized, hstore, ?_⟩
  simp only [sentData, buildPreProviderPipeline_eq, lastStages, appliedAll, List.foldl_append]
  exact hsealed

/-- **What is sent.** Whatever the engines and the gates do, a request that passes is sent with
tokens for exactly what was detected in its texts, with everything else as the client sent it, and
after its mapping was stored. -/
theorem sent_of_passes (h : Passes β engines appState randomBits request info) :
    ∃ transformed,
      (sentData β engines appState randomBits request info).transformedRequest =
        some transformed ∧
      SentFor engines.storeMapping randomBits request.modelDump
        (sentData β engines appState randomBits request info) transformed := by
  obtain ⟨gated, hframed, transformed, mapping, htokenized, hstore, hsent⟩ :=
    exists_tokenized_of_passes h
  have hrequest : gated.originalRequest = request.modelDump := hframed.originalRequest
  have htexts : gated.textNodes = extract request.modelDump := hframed.textNodes
  obtain ⟨rfl, hreplaced, hframe⟩ := tokenized_spec (htexts.trans (hrequest ▸ rfl)) htokenized
  rw [hrequest] at hframe
  rw [htexts] at hreplaced hframe
  rw [hsent]
  refine ⟨transformed, rfl, hreplaced, fun node _ j => covered_nonOverlapping_iff, hframe, rfl,
    fun hne => (if_neg fun hempty => hne (List.isEmpty_iff.mp hempty)).symm.trans hstore,
    fun u htypes hgaps node hnode hrev => ?_⟩
  exact (restoreText_node randomBits htypes hnode (hgaps node hnode)).trans
    (weave_reversible _ hrev)

end

/-- Engines that find a phone number. -/
def phoneEngines : Engines Unit :=
  { sampleEngines with
    detect := fun _ _ => .ok
      [⟨0, { entityType := name "PHONE", start := some 5, stop := some 13 }⟩] }

/-- The number is sent as a token, whose index is the seed of the session. -/
theorem sent_of_passes_phone :
    ∃ transformed,
      (sentData Empty phoneEngines none 7 sampleTextRequest ⟨[], [], none, none, []⟩
        ).transformedRequest = some transformed ∧
      transformed.readPath (Place.content 0).keys = some (.text (name "Call [PHONE_7]")) := by
  have hpasses : Passes Empty phoneEngines none 7 sampleTextRequest ⟨[], [], none, none, []⟩ := rfl
  obtain ⟨transformed, hsent, h⟩ := sent_of_passes hpasses
  exact ⟨transformed, hsent, (h.replaced 0 _ rfl (.content 0) rfl).trans
    (congrArg (some ∘ Json.text) (by decide +kernel))⟩

end AnonReq.Pipeline
