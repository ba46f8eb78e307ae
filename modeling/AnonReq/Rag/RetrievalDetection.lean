import AnonReq.Foundation.Numbering
import AnonReq.Rag.Restoration

/-!
# Detection at retrieval time

`rag/detection.py`: the detection engine is run on each retrieved chunk, and a value that has no
token yet gets one, numbered by the size of the mapping. The texts of the chunks stay as they are.

* `exists_retrievalTimeDetect`: what the call returns, in terms of the entities that are reported.
* `retrieval_sound_iff`: no token is bound anew, every value has a token and no text has a value, if
  and only if no numbered token is there already, and no text has a value.
-/

namespace AnonReq.Rag

open Numbering Runs Tokenization

/-! ### The model -/

/-- How the detection fails: an entity that is no dictionary has no `get`, or the engine raises. -/
inductive DetectFailure
  | attributeError
  | engine (message : String)
deriving DecidableEq

/-- An entity of a detection result: an object with attributes, or a dictionary. -/
inductive Entity
  | object (text type : Option Text)
  | dict (text entityType : Option Text)
deriving DecidableEq

namespace Entity

/-- `getattr(entity, "text", "") or entity.get("text", "")`. -/
def text : Entity → Except DetectFailure Text
  | object text _ => if (text.getD []).isEmpty then .error .attributeError else .ok (text.getD [])
  | dict text _ => .ok (text.getD [])

/-- `getattr(entity, "type", "") or entity.get("entity_type", "")`. -/
def type : Entity → Except DetectFailure Text
  | object _ type => if (type.getD []).isEmpty then .error .attributeError else .ok (type.getD [])
  | dict _ entityType => .ok (entityType.getD [])

end Entity

/-- What is read of an entity. -/
structure Report where
  text : Text
  entityType : Text
deriving DecidableEq

/-- `entity_text` and `entity_type`. -/
def Entity.read (entity : Entity) : Except DetectFailure Report := do
  let text ← entity.text
  let entityType ← entity.type
  return { text, entityType }

/-- A retrieved chunk, as far as it is read and written. -/
structure Chunk where
  text : Option Text
  entityCount : Option ℕ := none
  entityTypes : Option (List Text) := none
deriving DecidableEq

/-- `detect` of a detection engine: the entities, if the result has any. -/
abbrev DetectionEngine := Text → Except DetectFailure (Option (List Entity))

/-- The engines of a call, where a tokenization engine need only be there; and the order in which
a set of texts is listed. -/
structure Engines where
  detection : Option DetectionEngine
  tokenization : Bool
  listing : List Text → List Text

/-- `mappings[token] = value`. -/
def TokenMapping.set (mappings : TokenMapping) (token value : Text) : TokenMapping :=
  ⟨Dict.set mappings.entries token value, Dict.nodup_keys_set mappings.keys_nodup token value⟩

/-- The body of the loop over the entities, once an entity has been read. -/
def note (tokenization : Bool) (updatedMappings : TokenMapping) (entity : Report) : TokenMapping :=
  if entity.text.isEmpty then updatedMappings
  else
    let alreadyMapped := updatedMappings.entries.any fun e => e.2 == entity.text
    if !alreadyMapped && tokenization then
      let token := tokenText entity.entityType updatedMappings.entries.length
      updatedMappings.set token entity.text
    else updatedMappings

/-- The body of the loop over the entities. -/
def noteEntity (tokenization : Bool) (updatedMappings : TokenMapping) (entity : Entity) :
    Except DetectFailure TokenMapping := do
  let entity ← entity.read
  return note tokenization updatedMappings entity

/-- The body of the loop over the chunks. -/
def inspect (engines : Engines) (updatedMappings : TokenMapping) (chunk : Chunk) :
    Except DetectFailure (Chunk × TokenMapping) :=
  let text := chunk.text.getD []
  match engines.detection with
  | none => .ok (chunk, updatedMappings)
  | some detect =>
    if text.isEmpty then .ok (chunk, updatedMappings)
    else do
      let detectionResult ← detect text
      let detectedEntities := detectionResult.getD []
      let updatedMappings ←
        detectedEntities.foldlM (noteEntity engines.tokenization) updatedMappings
      let types ← detectedEntities.mapM Entity.type
      let chunk :=
        { chunk with
          entityCount := some detectedEntities.length
          entityTypes := some (engines.listing types.dedup) }
      return (chunk, updatedMappings)

/-- The loop over the chunks. -/
def inspectAll (engines : Engines) :
    TokenMapping → List Chunk → Except DetectFailure (List Chunk × TokenMapping)
  | updatedMappings, [] => .ok ([], updatedMappings)
  | updatedMappings, chunk :: chunks => do
    let (chunk, updatedMappings) ← inspect engines updatedMappings chunk
    let (chunks, updatedMappings) ← inspectAll engines updatedMappings chunks
    return (chunk :: chunks, updatedMappings)

/-- `retrieval_time_detect`. -/
def retrievalTimeDetect (engines : Engines) (chunks : List Chunk)
    (existingMappings : Option TokenMapping) : Except DetectFailure (List Chunk × TokenMapping) :=
  inspectAll engines (existingMappings.getD .empty) chunks

/-! ### What is reported -/

/-- The entities that are reported for a chunk. -/
def reportsOf (detection : Option DetectionEngine) (chunk : Chunk) :
    Except DetectFailure (List Report) :=
  match detection with
  | none => .ok []
  | some detect =>
    if (chunk.text.getD []).isEmpty then .ok []
    else do
      let detectionResult ← detect (chunk.text.getD [])
      (detectionResult.getD []).mapM Entity.read

/-- The entities that are reported for the chunks, in their order. -/
def reports (detection : Option DetectionEngine) :
    List Chunk → Except DetectFailure (List Report)
  | [] => .ok []
  | chunk :: chunks => do
    let first ← reportsOf detection chunk
    let rest ← reports detection chunks
    return first ++ rest

variable {engines : Engines} {chunk : Chunk} {chunks : List Chunk}

theorem read_eq_ok {entity : Entity} {report : Report} (h : entity.read = .ok report) :
    entity.type = .ok report.entityType := by
  obtain ⟨text, -, h⟩ := bind_eq_ok_iff.mp h
  obtain ⟨type, htype, h⟩ := bind_eq_ok_iff.mp h
  rw [htype, ← Except.ok.inj h]

/-- The entities can be read first and noted afterwards. -/
theorem foldlM_noteEntity {tokenization : Bool} {entities : List Entity} {found : List Report}
    (h : entities.mapM Entity.read = .ok found) (mappings : TokenMapping) :
    entities.foldlM (noteEntity tokenization) mappings =
      .ok (exec (note tokenization) mappings found) := by
  rw [mapM_eq_ok_iff] at h
  induction h generalizing mappings with
  | nil => rfl
  | cons hread _ ih =>
    rw [List.foldlM_cons, noteEntity, hread]
    exact ih _

/-- The types of the entities that can be read. -/
theorem mapM_type {entities : List Entity} {found : List Report}
    (h : entities.mapM Entity.read = .ok found) :
    entities.mapM Entity.type = .ok (found.map (·.entityType)) := by
  rw [mapM_eq_ok_iff] at h ⊢
  rw [List.forall₂_map_right_iff]
  exact h.imp fun _ _ => read_eq_ok

/-- **One chunk**: its entities are noted, and its text stays as it is. -/
theorem exists_inspect {found : List Report} (h : reportsOf engines.detection chunk = .ok found)
    (mappings : TokenMapping) :
    ∃ chunk', inspect engines mappings chunk =
        .ok (chunk', exec (note engines.tokenization) mappings found) ∧
      chunk'.text = chunk.text := by
  unfold reportsOf at h
  unfold inspect
  split at h
  · obtain rfl := Except.ok.inj h
    exact ⟨chunk, rfl, rfl⟩
  · dsimp only
    split_ifs at h ⊢ with hempty
    · obtain rfl := Except.ok.inj h
      exact ⟨chunk, rfl, rfl⟩
    · obtain ⟨result, hresult, h⟩ := bind_eq_ok_iff.mp h
      exact ⟨_, bind_eq_ok_iff.mpr ⟨result, hresult, bind_eq_ok_iff.mpr
        ⟨_, foldlM_noteEntity h mappings, bind_eq_ok_iff.mpr ⟨_, mapM_type h, rfl⟩⟩⟩, rfl⟩

/-- **The call returns** the mapping with all entities noted, and the texts as they were. -/
theorem exists_inspectAll {found : List Report} (h : reports engines.detection chunks = .ok found)
    (mappings : TokenMapping) :
    ∃ chunks', inspectAll engines mappings chunks =
        .ok (chunks', exec (note engines.tokenization) mappings found) ∧
      chunks'.map Chunk.text = chunks.map Chunk.text := by
  induction chunks generalizing found mappings with
  | nil =>
    obtain rfl := Except.ok.inj h
    exact ⟨[], rfl, rfl⟩
  | cons chunk chunks ih =>
    obtain ⟨first, hfirst, h⟩ := bind_eq_ok_iff.mp h
    obtain ⟨rest, hrest, h⟩ := bind_eq_ok_iff.mp h
    obtain rfl := Except.ok.inj h
    obtain ⟨chunk', hchunk', htext⟩ := exists_inspect hfirst mappings
    obtain ⟨chunks', hchunks', htexts⟩ := ih hrest (exec (note engines.tokenization) mappings first)
    refine ⟨chunk' :: chunks', ?_, by rw [List.map_cons, htext, htexts, List.map_cons]⟩
    have happend : exec (note engines.tokenization) mappings (first ++ rest) =
        exec (note engines.tokenization) (exec (note engines.tokenization) mappings first) rest :=
      List.foldl_append
    rw [happend]
    exact bind_eq_ok_iff.mpr ⟨_, hchunk', bind_eq_ok_iff.mpr ⟨_, hchunks', rfl⟩⟩

theorem exists_retrievalTimeDetect {found : List Report}
    (h : reports engines.detection chunks = .ok found) (existing : Option TokenMapping) :
    ∃ chunks', retrievalTimeDetect engines chunks existing =
        .ok (chunks', exec (note engines.tokenization) (existing.getD .empty) found) ∧
      chunks'.map Chunk.text = chunks.map Chunk.text :=
  exists_inspectAll h _

/-! ### Noting entities -/

/-- The name that an entity gets with a number. -/
def nameOf (entity : Report) (number : ℕ) : Text := tokenText entity.entityType number

/-- The entities with a value. -/
def valued (found : List Report) : List Report := found.filter fun entity => !entity.text.isEmpty

variable {mappings : TokenMapping} {found : List Report}

theorem mem_valued {entity : Report} :
    entity ∈ valued found ↔ entity ∈ found ∧ entity.text ≠ [] := by
  rw [valued, List.mem_filter, Bool.not_eq_true', List.isEmpty_eq_false_iff]

/-- Without a tokenization engine nothing is noted. -/
theorem note_false (mappings : TokenMapping) (entity : Report) :
    note false mappings entity = mappings := by
  unfold note
  simp

/-- With a tokenization engine an entity with a value is entered. -/
theorem entries_note_true {entity : Report} (h : entity.text ≠ []) :
    (note true mappings entity).entries = enter nameOf Report.text mappings.entries entity := by
  have hany : (mappings.entries.any fun e => e.2 == entity.text) =
      decide (entity.text ∈ mappings.entries.map Prod.snd) := by
    rw [Bool.eq_iff_iff, List.any_eq_true, decide_eq_true_iff, List.mem_map]
    simp only [beq_iff_eq]
  unfold note enter
  rw [if_neg (by simpa using h)]
  dsimp only
  rw [hany]
  by_cases hmem : entity.text ∈ mappings.entries.map Prod.snd
  · rw [if_pos hmem, if_neg (by simp [hmem])]
  · rw [if_neg hmem, if_pos (by simp [hmem])]
    rfl

theorem note_true_of_nil {entity : Report} (h : entity.text = []) :
    note true mappings entity = mappings := by
  unfold note
  rw [if_pos (by rw [h]; rfl)]

/-- No step of a call changes the value of a token. -/
def NeverRebinds (tokenization : Bool) : TokenMapping → List Report → Prop :=
  Along (note tokenization) fun mappings entity =>
    Extends mappings.entries (note tokenization mappings entity).entries

theorem neverRebinds_false (mappings : TokenMapping) (found : List Report) :
    NeverRebinds false mappings found :=
  along_of_forall fun mappings entity _ => by
    rw [note_false]
    exact Extends.refl _

/-- **A call enters the entities with a value**, step by step. -/
theorem neverRebinds_true_iff :
    NeverRebinds true mappings found ↔
      Along (enter nameOf Report.text)
        (fun d entity => Extends d (enter nameOf Report.text d entity)) mappings.entries
        (valued found) := by
  induction found generalizing mappings with
  | nil => exact Iff.rfl
  | cons entity found ih =>
    rw [NeverRebinds, Along]
    by_cases hempty : entity.text = []
    · have hskip : valued (entity :: found) = valued found :=
        List.filter_cons_of_neg (by simp [hempty])
      rw [note_true_of_nil hempty, hskip, and_iff_right (Extends.refl _)]
      exact ih
    · have hkeep : valued (entity :: found) = entity :: valued found :=
        List.filter_cons_of_pos (by simpa using hempty)
      rw [hkeep, Along, ← entries_note_true hempty]
      exact and_congr_right fun _ => ih

theorem entries_exec_note_true : (exec (note true) mappings found).entries =
    exec (enter nameOf Report.text) mappings.entries (valued found) := by
  induction found generalizing mappings with
  | nil => rfl
  | cons entity found ih =>
    by_cases hempty : entity.text = []
    · have hskip : valued (entity :: found) = valued found :=
        List.filter_cons_of_neg (by simp [hempty])
      rw [exec, List.foldl_cons, note_true_of_nil hempty, hskip]
      exact ih
    · have hkeep : valued (entity :: found) = entity :: valued found :=
        List.filter_cons_of_pos (by simpa using hempty)
      rw [exec, List.foldl_cons, hkeep, exec, List.foldl_cons, ← entries_note_true hempty]
      exact ih

theorem exec_note_false : exec (note false) mappings found = mappings := by
  induction found with
  | nil => rfl
  | cons entity found ih =>
    rw [exec, List.foldl_cons, note_false]
    exact ih

/-! ### Sound tokens -/

/-- **A sound call**, of the entities that were reported and of what is returned. -/
structure Sound (tokenization : Bool) (existing : TokenMapping) (found : List Report)
    (returned : List Chunk × TokenMapping) : Prop where
  neverRebinds : NeverRebinds tokenization existing found
  extends_existing : Extends existing.entries returned.2.entries
  /-- A new token has its value for itself. -/
  alone : ∀ token value, Dict.get returned.2.entries token = some value →
    Dict.get existing.entries token = none →
      ∀ token', Dict.get returned.2.entries token' = some value → token' = token
  complete : ∀ entity ∈ found, entity.text ≠ [] →
    ∃ token, Dict.get returned.2.entries token = some entity.text
  /-- No text has a value that was detected. -/
  clean : ∀ chunk ∈ returned.1, ∀ entity ∈ found, entity.text ≠ [] →
    ¬ entity.text <:+: chunk.text.getD []

/-- The tokens for the values that have none: of the type of the first entity with the value, and
numbered from the size of the mapping on. -/
def newTokens (existing : TokenMapping) (found : List Report) : List Text :=
  names nameOf Report.text existing.entries (valued found)

/-- **When calls are sound**: no new token is there already, and no value is in a text. Without a
tokenization engine the values have tokens already. -/
structure Fits (tokenization : Bool) (existing : TokenMapping) (chunks : List Chunk)
    (found : List Report) : Prop where
  free : tokenization = true →
    ∀ token ∈ newTokens existing found, token ∉ existing.entries.map Prod.fst
  known : tokenization = false → ∀ entity ∈ found, entity.text ≠ [] →
    entity.text ∈ existing.entries.map Prod.snd
  absent : ∀ chunk ∈ chunks, ∀ entity ∈ found, entity.text ≠ [] →
    ¬ entity.text <:+: chunk.text.getD []

theorem nameOf_inj (entity entity' : Report) (m n : ℕ) (h : nameOf entity m = nameOf entity' n) :
    m = n :=
  (tokenText_inj h).2

/-- The condition on the texts is one on the chunks that are returned. -/
theorem forall_chunks_iff {chunks' : List Chunk} {P : Text → Prop}
    (h : chunks'.map Chunk.text = chunks.map Chunk.text) :
    (∀ chunk ∈ chunks', P (chunk.text.getD [])) ↔ ∀ chunk ∈ chunks, P (chunk.text.getD []) := by
  have hmap : ∀ chunks : List Chunk, (∀ chunk ∈ chunks, P (chunk.text.getD [])) ↔
      ∀ text ∈ chunks.map Chunk.text, P (text.getD []) := fun chunks => by
    rw [List.forall_mem_map]
  rw [hmap chunks', h, ← hmap chunks]

/-- What is returned with a tokenization engine, if no token is bound anew. -/
theorem grown_exec_note_true (existing : TokenMapping) (h : NeverRebinds true existing found) :
    Grown existing.entries (exec (note true) existing found).entries ∧
      ∀ entity ∈ valued found,
        entity.text ∈ (exec (note true) existing found).entries.map Prod.snd := by
  rw [entries_exec_note_true]
  exact exec_enter_spec existing.keys_nodup (neverRebinds_true_iff.mp h)

/-- **One call** is sound if and only if its input fits. -/
theorem sound_iff_fits {tokenization : Bool} (existing : TokenMapping) {chunks' : List Chunk}
    (htexts : chunks'.map Chunk.text = chunks.map Chunk.text) :
    Sound tokenization existing found (chunks', exec (note tokenization) existing found) ↔
      Fits tokenization existing chunks found := by
  have hclean : (∀ chunk ∈ chunks', ∀ entity ∈ found, entity.text ≠ [] →
      ¬ entity.text <:+: chunk.text.getD []) ↔
      ∀ chunk ∈ chunks, ∀ entity ∈ found, entity.text ≠ [] →
        ¬ entity.text <:+: chunk.text.getD [] :=
    forall_chunks_iff (P := fun text => ∀ entity ∈ found, entity.text ≠ [] →
      ¬ entity.text <:+: text) htexts
  constructor
  · intro h
    refine ⟨?_, ?_, hclean.mp h.clean⟩
    · rintro rfl
      exact (along_enter_iff nameOf_inj).mp (neverRebinds_true_iff.mp h.neverRebinds)
    · rintro rfl entity hentity hne
      obtain ⟨token, htoken⟩ := h.complete entity hentity hne
      rw [exec_note_false] at htoken
      exact List.mem_map.mpr ⟨_, Dict.mem_of_get_eq_some htoken, rfl⟩
  · intro h
    cases tokenization with
    | false =>
      -- nothing is noted, so that nothing is new
      refine ⟨neverRebinds_false existing found, ?_, ?_, ?_, hclean.mpr h.absent⟩
      · rw [exec_note_false]
        exact Extends.refl _
      · rw [exec_note_false]
        exact fun token value hvalue hnone => absurd (hvalue.symm.trans hnone)
          (Option.some_ne_none value)
      · intro entity hentity hne
        rw [exec_note_false]
        obtain ⟨⟨token, value⟩, he, hvalue⟩ := List.mem_map.mp (h.known rfl entity hentity hne)
        obtain rfl : value = entity.text := hvalue
        exact ⟨token, (Dict.get_eq_some_iff existing.keys_nodup).mpr he⟩
    | true =>
      have hnever : NeverRebinds true existing found :=
        neverRebinds_true_iff.mpr ((along_enter_iff nameOf_inj).mpr (h.free rfl))
      obtain ⟨hgrown, hvalues⟩ := grown_exec_note_true existing hnever
      refine ⟨hnever, hgrown.extends_start, ?_, ?_, hclean.mpr h.absent⟩
      · -- a new token is the only one with its value
        intro token value hvalue hnone token' hvalue'
        have hsame := hgrown.alone (token, value) (Dict.mem_of_get_eq_some hvalue)
          (Dict.get_eq_none_iff.mp hnone) (token', value) (Dict.mem_of_get_eq_some hvalue') rfl
        exact congrArg Prod.fst hsame
      · intro entity hentity hne
        obtain ⟨⟨token, value⟩, he, hvalue⟩ :=
          List.mem_map.mp (hvalues entity (mem_valued.mpr ⟨hentity, hne⟩))
        obtain rfl : value = entity.text := hvalue
        exact ⟨token, (Dict.get_eq_some_iff hgrown.keys_nodup).mpr he⟩

/-- **Retrieval-time tokenization** is sound exactly where no numbered token is there already and
no chunk has a value in its text: the texts are not rewritten. -/
theorem retrieval_sound_iff (engines : Engines) (chunks : List Chunk)
    (existing : Option TokenMapping) :
    (∀ found, reports engines.detection chunks = .ok found →
      ∀ returned, retrievalTimeDetect engines chunks existing = .ok returned →
        Sound engines.tokenization (existing.getD .empty) found returned) ↔
      ∀ found, reports engines.detection chunks = .ok found →
        Fits engines.tokenization (existing.getD .empty) chunks found := by
  refine forall₂_congr fun found hfound => ?_
  obtain ⟨chunks', hreturned, htexts⟩ := exists_retrievalTimeDetect hfound existing
  rw [← sound_iff_fits (existing.getD .empty) htexts, hreturned]
  constructor
  · exact fun h => h _ rfl
  · intro h returned hok
    exact Except.ok.inj hok ▸ h

/-- One address that has a token, and an engine that finds another. -/
def sampleMapping : TokenMapping :=
  ⟨[("[EMAIL_1]".toList, "ann@x".toList)], List.nodup_singleton _⟩

/-- An engine that finds one address in every text. -/
def sampleEngines : Engines where
  detection := some fun _ => .ok (some [.dict (some "bob@y".toList) (some "EMAIL".toList)])
  tokenization := true
  listing := id

/-- **A token is bound anew**: the mapping was numbered from another start. -/
theorem not_retrieval_sound : ¬ ∀ (engines : Engines) (chunks : List Chunk)
    (existing : Option TokenMapping), ∀ found, reports engines.detection chunks = .ok found →
      ∀ returned, retrievalTimeDetect engines chunks existing = .ok returned →
        Sound engines.tokenization (existing.getD .empty) found returned := by
  intro hall
  have hfound : reports sampleEngines.detection [{ text := some "to bob@y".toList }] =
      .ok [⟨"bob@y".toList, "EMAIL".toList⟩] := rfl
  obtain ⟨chunks', hreturned, -⟩ := exists_retrievalTimeDetect hfound (some sampleMapping)
  have hsound := hall sampleEngines _ (some sampleMapping) _ hfound _ hreturned
  have hkept := hsound.extends_existing "[EMAIL_1]".toList "ann@x".toList (by decide)
  have hlost : Dict.get (exec (note true) sampleMapping
      [⟨"bob@y".toList, "EMAIL".toList⟩]).entries "[EMAIL_1]".toList = some "bob@y".toList := by
    decide
  exact absurd (Option.some.inj (hkept.symm.trans hlost)) (by decide)

end AnonReq.Rag
