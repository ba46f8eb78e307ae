import Mathlib
import AnonReq.Foundation.Json
import AnonReq.Foundation.Pattern

/-!
# The analyzer of JSON documents

`multimodal/json_analyzer.py`: a document is walked down to a depth, and each string the walk meets
is given to the detection engine. A string under a key with a sensitive name is given to it twice,
and its second findings have a higher score.

* `exists_mem_walkNode_iff`: the strings that are met are those down to the depth, and one step
  deeper those under a sensitive name.
* `mem_of_analyzeStrings`: what the engine finds in a string is among the entities.
-/

namespace AnonReq.Multimodal

/-! ### The model -/

/-- The type of JSON. -/
def applicationJson : Text := "application/json".toList

/-- An entity, as the engines report them: a dictionary. -/
abbrev Entity := List (Text × Json)

/-- `UnifiedDetectionResult`: the entities, and the error of `analyzer_metadata`. -/
structure UnifiedDetectionResult where
  entities : List Entity := []
  error : Option Text := none

/-- What ends an analysis. -/
inductive Raised where
  /-- The detection engine raises. -/
  | engine (error : Text)
  /-- `RecursionError`, of a document that is nested too deep for the parser. -/
  | recursion
  /-- `AttributeError`, of a value that is no dictionary. -/
  | attribute
  /-- `TypeError`, of a value that cannot be iterated over. -/
  | type

/-- What `json.loads` raises: a `ValueError` with its text, or a `RecursionError`. -/
inductive LoadsError where
  | invalid (error : Text)
  | recursion

/-- What the analyzers use of the library: `str.lower`, the JSON parser and writer, and the score
`min(score + 0.15, 1.0)`. What was written is read back. -/
structure Library where
  lowerCase : LowerCase
  loads : Text → Except LoadsError Json
  /-- `json.dumps` of a dictionary with a text under `"text"`. -/
  dumpsText : Text → Text
  boost : Json → Json
  loads_dumpsText : ∀ s, loads (dumpsText s) = .ok (.object [("text".toList, .text s)])

/-- `SENSITIVE_KEY_PATTERNS`; a dot is any character but a line feed. -/
def sensitiveKeyPatterns : List Text :=
  ["ssn".toList, "social.security".toList, "password".toList, "secret".toList, "token".toList,
    "api.key".toList, "credit.card".toList, "bank.account".toList, "pin".toList, "cvv".toList,
    "passport".toList, "license.number".toList, "medical.record".toList, "dob".toList]

/-- A pattern of `SENSITIVE_KEY_PATTERNS` as `re.compile` reads it. -/
def keyPattern (pattern : Text) : List (Pattern.Item Char) :=
  pattern.map fun c => if c = '.' then { cls := (· != '\n') } else { cls := (· == c) }

/-- A string that the walk meets: the keys that lead to it, itself, and whether it is met for its
sensitive name. -/
structure Visit where
  place : List Key
  value : Text
  isSensitive : Bool

/-- The path of a place, as it is written into an entity. -/
def jsonPath (place : List Key) : Text :=
  "$".toList ++ place.flatMap fun key =>
    match key with
    | .name k => '.' :: k
    | .index i => '[' :: (toString i).toList ++ [']']

/-- `JsonAnalyzer`. -/
structure JsonAnalyzer where
  detectionEngine : Option (Text → Except Text (List Entity)) := none
  maxDepth : ℕ := 50

/-- What is given to `analyze`: a text, or a document that was parsed before. -/
inductive JsonData where
  | raw (text : Text)
  | parsed (document : Json)

variable (R : Library)

/-- `_is_sensitive_key`. -/
def isSensitiveKey (key : Text) : Bool :=
  let lowered := (R.lowerCase.lower key).map fun c => if c = '_' then '.' else c
  sensitiveKeyPatterns.any fun pattern =>
    Pattern.search (keyPattern pattern) (fun _ => true) lowered

/-- The second visit of a field: a string under a sensitive name. -/
def sensitiveVisit (place : List Key) (key : Text) (value : Json) : List Visit :=
  match value with
  | .text s => if isSensitiveKey R key then [⟨place ++ [.name key], s, true⟩] else []
  | _ => []

/-- The strings that `_walk_node` gives to `_analyze_string`, in their order; the number is that of
the levels which are left, down to none beyond `max_depth`. -/
def walkNode : ℕ → Json → List Key → List Visit
  | 0, _, _ => []
  | n + 1, .object fields, place =>
    fields.flatMap fun field =>
      walkNode n field.2 (place ++ [.name field.1]) ++ sensitiveVisit R place field.1 field.2
  | n + 1, .list items, place =>
    items.zipIdx.flatMap fun item => walkNode n item.1 (place ++ [.index item.2])
  | _ + 1, .text s, place => [⟨place, s, false⟩]
  | _ + 1, _, _ => []

/-- The entity of a detection, with its path, and with a higher score under a sensitive name. -/
def entityOf (visit : Visit) (det : Entity) : Entity :=
  let item := Dict.set det "json_path".toList (.text (jsonPath visit.place))
  if visit.isSensitive then
    let score := (Dict.get item "score".toList).getD (.float "0.0".toList)
    Dict.set (Dict.set item "score".toList (R.boost score)) "sensitive_key_boosted".toList
      (.bool true)
  else item

namespace JsonAnalyzer

variable (a : JsonAnalyzer)

/-- `_analyze_string` for one string after the other. -/
def analyzeStrings : List Visit → List Entity → Except Raised (List Entity)
  | [], entities => .ok entities
  | visit :: visits, entities =>
    match a.detectionEngine with
    | none => analyzeStrings visits entities
    | some analyzeText =>
      match analyzeText visit.value with
      | .error e => .error (.engine e)
      | .ok detections => analyzeStrings visits (entities ++ detections.map (entityOf R visit))

/-- What is given to the engine of a parsed document. -/
def offered (document : Json) : List Visit :=
  if a.detectionEngine.isSome then walkNode R (a.maxDepth + 1) document [] else []

/-- `analyze`. -/
def analyze (data : JsonData) : Except Raised UnifiedDetectionResult :=
  let walked (document : Json) : Except Raised UnifiedDetectionResult :=
    (a.analyzeStrings R (walkNode R (a.maxDepth + 1) document []) []).map fun entities =>
      { entities := entities }
  match data with
  | .raw text =>
    match R.loads text with
    | .error (.invalid e) => .ok { error := some e }
    | .error .recursion => .error .recursion
    | .ok document => walked document
  | .parsed document => walked document

end JsonAnalyzer

/-! ### What the walk meets -/

/-- A string leaf of a document, with the keys that lead to it. -/
inductive Leaf : Json → List Key → Text → Prop
  | text (s : Text) : Leaf (.text s) [] s
  | field {fields : List (Text × Json)} {k : Text} {value : Json} {keys : List Key} {s : Text} :
    (k, value) ∈ fields → Leaf value keys s → Leaf (.object fields) (.name k :: keys) s
  | item {items : List Json} {i : ℕ} {value : Json} {keys : List Key} {s : Text} :
    items[i]? = some value → Leaf value keys s → Leaf (.list items) (.index i :: keys) s

/-- The last of the keys is a sensitive name. -/
def EndsSensitive (keys : List Key) : Prop :=
  ∃ k, keys.getLast? = some (.name k) ∧ isSensitiveKey R k = true

/-- A walk of this many levels meets what stands at the keys. -/
def Meets (n : ℕ) (isSensitive : Bool) (keys : List Key) : Prop :=
  if isSensitive then keys.length ≤ n ∧ EndsSensitive R keys else keys.length < n

/-- What a walk of this many levels gets to: what is less deep, and just as deep what has a
sensitive name. -/
def Reached (n : ℕ) (keys : List Key) : Prop :=
  keys.length < n ∨ keys.length = n ∧ EndsSensitive R keys

variable {R}

theorem endsSensitive_cons {key : Key} {keys : List Key} :
    EndsSensitive R (key :: keys) ↔
      keys = [] ∧ (∃ k, key = .name k ∧ isSensitiveKey R k = true) ∨ EndsSensitive R keys := by
  unfold EndsSensitive
  cases keys with
  | nil => simp
  | cons key' keys => simp [List.getLast?_cons_cons]

theorem not_endsSensitive_nil : ¬ EndsSensitive R [] := fun ⟨_, h, _⟩ => by cases h

theorem meets_cons {n : ℕ} {isSensitive : Bool} {key : Key} {keys : List Key} :
    Meets R (n + 1) isSensitive (key :: keys) ↔ Meets R n isSensitive keys ∨
      isSensitive = true ∧ keys = [] ∧ ∃ k, key = .name k ∧ isSensitiveKey R k = true := by
  unfold Meets
  cases isSensitive with
  | false => simp
  | true =>
    simp only [if_true, endsSensitive_cons, List.length_cons, true_and]
    constructor
    · rintro ⟨hlength, ⟨rfl, hname⟩ | hends⟩
      · exact Or.inr ⟨rfl, hname⟩
      · exact Or.inl ⟨by omega, hends⟩
    · rintro (⟨hlength, hends⟩ | ⟨rfl, hname⟩)
      · exact ⟨by omega, Or.inr hends⟩
      · exact ⟨by simp, Or.inl ⟨rfl, hname⟩⟩

theorem exists_meets_iff {n : ℕ} {keys : List Key} :
    (∃ isSensitive, Meets R n isSensitive keys) ↔ Reached R n keys := by
  unfold Meets Reached
  constructor
  · rintro ⟨_ | _, h⟩
    · exact Or.inl h
    · obtain hlt | heq := Nat.lt_or_eq_of_le h.1
      · exact Or.inl hlt
      · exact Or.inr ⟨heq, h.2⟩
  · rintro (h | ⟨h, hends⟩)
    · exact ⟨false, h⟩
    · exact ⟨true, h.le, hends⟩

theorem mem_sensitiveVisit_iff {place : List Key} {k : Text} {value : Json} {visit : Visit} :
    visit ∈ sensitiveVisit R place k value ↔ isSensitiveKey R k = true ∧
      visit.place = place ++ [.name k] ∧ value = .text visit.value ∧ visit.isSensitive = true := by
  obtain ⟨place', s, isSensitive⟩ := visit
  unfold sensitiveVisit
  split
  · split_ifs with h
    · simp [h, eq_comm]
    · simp [h]
  · rename_i hvalue
    simpa using fun _ _ h => absurd h (hvalue s)

/-- The visits of a walk are the leaves that it meets. -/
theorem mem_walkNode_iff {n : ℕ} {node : Json} {place : List Key} {visit : Visit} :
    visit ∈ walkNode R n node place ↔ ∃ keys, visit.place = place ++ keys ∧
      Leaf node keys visit.value ∧ Meets R n visit.isSensitive keys := by
  induction n generalizing node place with
  | zero =>
    refine ⟨fun h => absurd h List.not_mem_nil, ?_⟩
    rintro ⟨keys, -, -, h⟩
    unfold Meets at h
    split_ifs at h
    · obtain rfl : keys = [] := List.length_eq_zero_iff.mp (Nat.le_zero.mp h.1)
      exact absurd h.2 not_endsSensitive_nil
    · exact absurd h (Nat.not_lt_zero _)
  | succ n ih =>
    cases node with
    | object fields =>
      simp only [walkNode, List.mem_flatMap, List.mem_append, ih, mem_sensitiveVisit_iff]
      constructor
      · rintro ⟨⟨k, value⟩, hfield, ⟨keys, hplace, hleaf, hmeets⟩ |
          ⟨hsensitive, hplace, hvalue, hflag⟩⟩
        · exact ⟨.name k :: keys, by simpa using hplace, Leaf.field hfield hleaf,
            meets_cons.mpr (Or.inl hmeets)⟩
        · obtain rfl : value = .text visit.value := hvalue
          have hleaf : Leaf (.text visit.value) [] visit.value := Leaf.text _
          exact ⟨[.name k], hplace, Leaf.field hfield hleaf,
            meets_cons.mpr (Or.inr ⟨hflag, rfl, k, rfl, hsensitive⟩)⟩
      · rintro ⟨keys, hplace, hleaf, hmeets⟩
        cases hleaf with
        | @field _ k value keys _ hfield hleaf =>
          obtain hmeets | ⟨hflag, rfl, k', hk, hsensitive⟩ := meets_cons.mp hmeets
          · exact ⟨(k, value), hfield, Or.inl ⟨keys, by simpa using hplace, hleaf, hmeets⟩⟩
          · obtain rfl : k = k' := Key.name.inj hk
            cases hleaf
            exact ⟨(k, .text visit.value), hfield, Or.inr ⟨hsensitive, hplace, rfl, hflag⟩⟩
    | list items =>
      simp only [walkNode, List.mem_flatMap, ih]
      constructor
      · rintro ⟨⟨value, i⟩, hitem, keys, hplace, hleaf, hmeets⟩
        exact ⟨.index i :: keys, by simpa using hplace,
          Leaf.item (List.mem_zipIdx_iff_getElem?.mp hitem) hleaf,
          meets_cons.mpr (Or.inl hmeets)⟩
      · rintro ⟨keys, hplace, hleaf, hmeets⟩
        cases hleaf with
        | @item _ i value keys _ hitem hleaf =>
          obtain hmeets | ⟨-, -, k, hk, -⟩ := meets_cons.mp hmeets
          · exact ⟨(value, i), List.mem_zipIdx_iff_getElem?.mpr hitem, keys, by simpa using hplace,
              hleaf, hmeets⟩
          · cases hk
    | text s =>
      obtain ⟨place', s', isSensitive⟩ := visit
      simp only [walkNode, List.mem_singleton, Visit.mk.injEq]
      constructor
      · rintro ⟨rfl, rfl, rfl⟩
        exact ⟨[], (List.append_nil _).symm, Leaf.text _, Nat.succ_pos n⟩
      · rintro ⟨keys, hplace, hleaf, hmeets⟩
        cases hleaf
        cases isSensitive with
        | false => exact ⟨by simpa using hplace, rfl, rfl⟩
        | true => exact absurd hmeets.2 not_endsSensitive_nil
    | _ =>
      refine ⟨fun h => absurd h List.not_mem_nil, ?_⟩
      rintro ⟨keys, -, hleaf, -⟩
      cases hleaf

/-- **What is met.** The strings that a walk meets are the leaves that it gets to. -/
theorem exists_mem_walkNode_iff {n : ℕ} {node : Json} {keys : List Key} {s : Text} :
    (∃ visit ∈ walkNode R n node [], visit.place = keys ∧ visit.value = s) ↔
      Leaf node keys s ∧ Reached R n keys := by
  constructor
  · rintro ⟨visit, hvisit, rfl, rfl⟩
    obtain ⟨keys, hplace, hleaf, hmeets⟩ := mem_walkNode_iff.mp hvisit
    obtain rfl : visit.place = keys := hplace
    exact ⟨hleaf, exists_meets_iff.mp ⟨_, hmeets⟩⟩
  · rintro ⟨hleaf, hreached⟩
    obtain ⟨isSensitive, hmeets⟩ := exists_meets_iff.mpr hreached
    exact ⟨⟨keys, s, isSensitive⟩, mem_walkNode_iff.mpr ⟨keys, rfl, hleaf, hmeets⟩, rfl, rfl⟩

namespace JsonAnalyzer

variable {a : JsonAnalyzer}

theorem exists_mem_offered_iff {document : Json} {keys : List Key} {s : Text} :
    (∃ visit ∈ a.offered R document, visit.place = keys ∧ visit.value = s) ↔
      a.detectionEngine.isSome = true ∧ Leaf document keys s ∧ Reached R (a.maxDepth + 1) keys := by
  unfold offered
  split_ifs with h
  · rw [exists_mem_walkNode_iff]
    simp [h]
  · simp [h]

/-- **What is found.** If the strings are analyzed, what the engine finds in one is among the
entities, and so is what was there before. -/
theorem mem_of_analyzeStrings {visits : List Visit} {entities found : List Entity}
    (h : a.analyzeStrings R visits entities = .ok found) :
    (∀ entity ∈ entities, entity ∈ found) ∧
      ∀ analyzeText ∈ a.detectionEngine, ∀ visit ∈ visits,
        ∃ detections, analyzeText visit.value = .ok detections ∧
          ∀ det ∈ detections, entityOf R visit det ∈ found := by
  induction visits generalizing entities with
  | nil =>
    obtain rfl := Except.ok.inj h
    exact ⟨fun _ => id, fun _ _ _ hvisit => absurd hvisit List.not_mem_nil⟩
  | cons visit visits ih =>
    rw [analyzeStrings] at h
    split at h
    · rename_i hengine
      obtain ⟨hbefore, -⟩ := ih h
      exact ⟨hbefore, fun _ hsome => by rw [hengine] at hsome; cases hsome⟩
    · rename_i analyzeText hengine
      split at h
      · cases h
      · rename_i detections hdetections
        obtain ⟨hbefore, hrest⟩ := ih h
        refine ⟨fun entity hentity => hbefore entity (List.mem_append_left _ hentity), ?_⟩
        intro analyzeText' hsome visit' hvisit'
        obtain rfl := Option.some.inj (hengine.symm.trans hsome)
        obtain rfl | hvisit' := List.mem_cons.mp hvisit'
        · exact ⟨detections, hdetections, fun det hdet =>
            hbefore _ (List.mem_append_right _ (List.mem_map_of_mem hdet))⟩
        · exact hrest _ hsome visit' hvisit'

end JsonAnalyzer

end AnonReq.Multimodal
