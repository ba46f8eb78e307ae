import AnonReq.Foundation.Redaction
import AnonReq.Foundation.Runs
import AnonReq.Tokenization.Tokenizer
import AnonReq.Voice.Detector

/-!
# Voice streams as text

`TextSanitizer` of `voice/sanitizer.py`, and `process_stream` of `voice/pipeline.py` in text mode:
the transcript of each chunk, with the entities that the detector returned for the chunk replaced.

* `sanitizeText` replaces from right to left, at the positions that an entity has in the window.
* `Tokenized` says of a step that the characters of entities are replaced, and no others.
* `Placed` says of a step that the entities stand apart, and where they would stand if the window
  began with the transcript.
* `tokenized_of_placed`: frames are tokenized in streams all of whose steps are so.
* `not_tokenized`: an entity in the second chunk of the window.
-/

namespace AnonReq.Voice

open Redaction (Redacted)
open Tokenization (tokenText)

/-! ### The sanitizer -/

/-- `[A-Za-z]`. -/
def isLetter (c : Char) : Bool := ('A' ≤ c && c ≤ 'Z') || ('a' ≤ c && c ≤ 'z')

/-- `_normalize_type`. -/
def normalizeType (D : DetectorSetting) (entityType : Text) : Text :=
  let normalized := ((D.upper entityType).filter isLetter).take 20
  if normalized = [] then "PII".toList else normalized

/-- A replacement of the characters from a position to another. -/
structure Replacement where
  start : ℤ
  stop : ℤ
  token : Text
deriving DecidableEq

/-- The first loop of `sanitize_text`: the replacements, and the counters after it. -/
def replacements (D : DetectorSetting) :
    List (Text × ℕ) → List Entity → List Replacement × List (Text × ℕ)
  | counters, [] => ([], counters)
  | counters, entity :: rest =>
    if entity.stop ≤ entity.start then replacements D counters rest
    else
      let entityType := normalizeType D entity.entityType
      let count := (Dict.get counters entityType).getD 0 + 1
      let (more, counters) := replacements D (Dict.set counters entityType count) rest
      ({ start := entity.start, stop := entity.stop, token := tokenText entityType count } :: more,
        counters)

/-- `sanitized[:start] + token + sanitized[end:]`. -/
def Replacement.apply (sanitized : Text) (r : Replacement) : Text :=
  sanitized.take (Text.bound sanitized.length r.start) ++ r.token ++
    sanitized.drop (Text.bound sanitized.length r.stop)

/-- `sanitize_text`: the text, and the counters after it. -/
def sanitizeText (D : DetectorSetting) (counters : List (Text × ℕ)) (text : Text)
    (entities : List Entity) : Text × List (Text × ℕ) :=
  let sorted := entities.mergeSort fun a b => decide (a.start ≤ b.start)
  let (replaced, counters) := replacements D counters sorted
  let fromRight := replaced.mergeSort fun a b => decide (b.start ≤ a.start)
  (fromRight.foldl Replacement.apply text, counters)

/-! ### Streams -/

/-- The state of a stream: that of the detector, and the counters of the sanitizer. -/
structure TextState where
  detector : DetectorState := {}
  counters : List (Text × ℕ) := []

section

variable (V : VoiceSetting)

/-- The frame that is yielded for a chunk, and the state after it. -/
def processText (s : TextState) (a : Arrival) : Text × TextState :=
  let (entities, detector) := V.detectIn s.detector a
  let (output, counters) := sanitizeText V.toDetectorSetting s.counters a.transcript entities
  (output, { detector, counters })

/-- One step of a stream. -/
def textStep (s : TextState) (a : Arrival) : TextState := (processText V s a).2

/-- The token of an entity type with a number. -/
def IsPlaceholder (token : Text) : Prop := ∃ entityType count, token = tokenText entityType count

/-- Character `j` of the transcript belongs to a returned entity; the transcript stands in the
window after the texts that the window held before. -/
def InEntity (s : TextState) (a : Arrival) (j : ℕ) : Prop :=
  let before := (windowText s.detector.windowBuffer).length
  ∃ entity ∈ (V.detectIn s.detector a).1,
    entity.start ≤ (before + j : ℕ) ∧ ((before + j : ℕ) : ℤ) < entity.stop

instance (s : TextState) (a : Arrival) (j : ℕ) : Decidable (InEntity V s a j) :=
  inferInstanceAs (Decidable (∃ entity ∈ (V.detectIn s.detector a).1, _ ∧ _))

/-- The frame is the transcript with exactly the characters of returned entities replaced. -/
def Tokenized (s : TextState) (a : Arrival) : Prop :=
  Redacted (InEntity V s a) IsPlaceholder 0 a.transcript (processText V s a).1

/-- The returned entities stand apart. Each begins in the transcript, and has the same characters
of it whether its positions count from the beginning of the transcript or of the window. -/
structure Placed (s : TextState) (a : Arrival) : Prop where
  apart : (V.detectIn s.detector a).1.Pairwise fun e e' => e.stop ≤ e'.start ∨ e'.stop ≤ e.start
  starts : ∀ entity ∈ (V.detectIn s.detector a).1,
    0 ≤ entity.start ∧ entity.start < a.transcript.length
  same : ∀ entity ∈ (V.detectIn s.detector a).1, ∀ j < a.transcript.length,
    (entity.start ≤ (j : ℤ) ∧ (j : ℤ) < entity.stop) ↔
      let before := (windowText s.detector.windowBuffer).length
      entity.start ≤ (before + j : ℕ) ∧ ((before + j : ℕ) : ℤ) < entity.stop

end

/-! ### Replacing from right to left -/

/-- The replacements are those of the entities, in their order, each by a placeholder. -/
theorem replacements_spec (D : DetectorSetting) (counters : List (Text × ℕ))
    {entities : List Entity} (hne : ∀ entity ∈ entities, entity.start < entity.stop) :
    (replacements D counters entities).1.map (fun r => (r.start, r.stop)) =
        entities.map (fun entity => (entity.start, entity.stop)) ∧
      ∀ r ∈ (replacements D counters entities).1, IsPlaceholder r.token := by
  induction entities generalizing counters with
  | nil => exact ⟨rfl, fun _ h => absurd h List.not_mem_nil⟩
  | cons entity rest ih =>
    rw [replacements, if_neg (Int.not_le_of_gt (hne entity List.mem_cons_self))]
    have hrest := fun counters => ih counters fun e he => hne e (List.mem_cons_of_mem entity he)
    refine ⟨congrArg (_ :: ·) (hrest _).1, fun r hr => ?_⟩
    obtain rfl | hr := List.mem_cons.mp hr
    · exact ⟨_, _, rfl⟩
    · exact (hrest _).2 r hr

/-- The patch of a replacement. -/
def Replacement.patch (r : Replacement) : Redaction.Patch Char :=
  ⟨r.start.toNat, r.stop.toNat, r.token⟩

theorem Replacement.apply_eq_splice {r : Replacement} (hstart : 0 ≤ r.start)
    (hstop : r.start < r.stop) (text : Text) :
    Replacement.apply text r = Redaction.splice r.patch text := by
  have hbound : ∀ {i : ℤ}, 0 ≤ i → Text.bound text.length i = min i.toNat text.length := by
    intro i hi
    rw [Text.bound, if_neg (Int.not_lt_of_ge hi), Nat.min_comm]
  rw [Replacement.apply, hbound hstart, hbound (Int.le_of_lt (Int.lt_of_le_of_lt hstart hstop)),
    ← List.take_eq_take_min, ← List.drop_eq_drop_min]
  rfl

/-- Replacements in the order of their starts are sorted from the right by reversing them. -/
theorem mergeSort_eq_reverse {replaced : List Replacement}
    (h : replaced.Pairwise fun r r' => r.start < r'.start) :
    replaced.mergeSort (fun a b => decide (b.start ≤ a.start)) = replaced.reverse := by
  have htrans : IsTrans Replacement fun a b => b.start ≤ a.start :=
    ⟨fun _ _ _ hab hbc => Int.le_trans hbc hab⟩
  have htotal : Std.Total fun a b : Replacement => b.start ≤ a.start :=
    ⟨fun _ _ => Int.le_total _ _⟩
  have hsorted := List.pairwise_mergeSort' (fun a b : Replacement => b.start ≤ a.start) replaced
  have hreverse : replaced.reverse.Pairwise fun a b => b.start ≤ a.start :=
    List.pairwise_reverse.mpr (h.imp Int.le_of_lt)
  have hstarts : (replaced.map Replacement.start).Nodup :=
    List.pairwise_map.mpr (h.imp fun hlt => Int.ne_of_lt hlt)
  refine List.Perm.eq_of_pairwise (fun a b ha hb hab hba => ?_) hsorted hreverse
    ((List.mergeSort_perm _ _).trans (List.reverse_perm _).symm)
  exact List.inj_on_of_nodup_map hstarts (List.mem_mergeSort.mp ha) (List.mem_reverse.mp hb)
    (Int.le_antisymm hba hab)

/-- Entities that stand apart do so from left to right when they are sorted by their starts. -/
theorem sorted_pairwise {entities : List Entity}
    (hne : ∀ entity ∈ entities, entity.start < entity.stop)
    (hapart : entities.Pairwise fun e e' => e.stop ≤ e'.start ∨ e'.stop ≤ e.start) :
    (entities.mergeSort fun a b => decide (a.start ≤ b.start)).Pairwise
      fun e e' => e.stop ≤ e'.start := by
  have htrans : IsTrans Entity fun a b => a.start ≤ b.start := ⟨fun _ _ _ => Int.le_trans⟩
  have htotal : Std.Total fun a b : Entity => a.start ≤ b.start := ⟨fun _ _ => Int.le_total _ _⟩
  have hsorted := List.pairwise_mergeSort' (fun a b : Entity => a.start ≤ b.start) entities
  have happart : (entities.mergeSort fun a b => decide (a.start ≤ b.start)).Pairwise
      fun e e' => e.stop ≤ e'.start ∨ e'.stop ≤ e.start :=
    hapart.perm (List.mergeSort_perm _ _).symm fun h => h.symm
  refine (hsorted.and happart).imp_of_mem fun {e e'} he he' h => ?_
  have hnonempty := hne e' (List.mem_mergeSort.mp he')
  exact h.2.resolve_right fun hback =>
    absurd (Int.lt_of_lt_of_le hnonempty hback) (Int.not_lt_of_ge h.1)

/-- **The sanitizer.** Entities that stand apart and begin in the text are replaced by
placeholders, and nothing else changes. -/
theorem redacted_sanitizeText (D : DetectorSetting) (counters : List (Text × ℕ)) {text : Text}
    {entities : List Entity} (hne : ∀ entity ∈ entities, entity.start < entity.stop)
    (hapart : entities.Pairwise fun e e' => e.stop ≤ e'.start ∨ e'.stop ≤ e.start)
    (hstarts : ∀ entity ∈ entities, 0 ≤ entity.start ∧ entity.start < text.length) :
    Redacted (fun j => ∃ entity ∈ entities, entity.start ≤ (j : ℤ) ∧ (j : ℤ) < entity.stop)
      IsPlaceholder 0 text (sanitizeText D counters text entities).1 := by
  have hnesorted : ∀ entity ∈ entities.mergeSort fun a b => decide (a.start ≤ b.start),
      entity.start < entity.stop := fun entity h => hne entity (List.mem_mergeSort.mp h)
  obtain ⟨hspans, htokens⟩ := replacements_spec D counters hnesorted
  rw [sanitizeText]
  simp only
  generalize (replacements D counters
    (entities.mergeSort fun a b => decide (a.start ≤ b.start))).1 = replaced at hspans htokens ⊢
  -- the replacements have the spans of the entities
  have hmem : ∀ r ∈ replaced, ∃ entity ∈ entities, r.start = entity.start ∧
      r.stop = entity.stop := by
    intro r hr
    have hspan := List.mem_map_of_mem (f := fun r : Replacement => (r.start, r.stop)) hr
    rw [hspans, List.mem_map] at hspan
    obtain ⟨entity, hentity, heq⟩ := hspan
    exact ⟨entity, List.mem_mergeSort.mp hentity, (Prod.mk.inj heq).1.symm,
      (Prod.mk.inj heq).2.symm⟩
  have hmem' : ∀ entity ∈ entities, ∃ r ∈ replaced, r.start = entity.start ∧
      r.stop = entity.stop := by
    intro entity hentity
    have hsorted : entity ∈ entities.mergeSort fun a b => decide (a.start ≤ b.start) :=
      List.mem_mergeSort.mpr hentity
    have hspan := List.mem_map_of_mem (f := fun entity : Entity => (entity.start, entity.stop))
      hsorted
    rw [← hspans, List.mem_map] at hspan
    obtain ⟨r, hr, heq⟩ := hspan
    exact ⟨r, hr, (Prod.mk.inj heq).1, (Prod.mk.inj heq).2⟩
  have hpairwise : replaced.Pairwise fun r r' => r.stop ≤ r'.start := by
    have hmap : (replaced.map fun r => (r.start, r.stop)).Pairwise fun p q => p.2 ≤ q.1 := by
      rw [hspans]
      exact List.pairwise_map.mpr (sorted_pairwise hne hapart)
    exact List.pairwise_map.mp hmap
  have hvalid : ∀ r ∈ replaced, 0 ≤ r.start ∧ r.start < r.stop ∧ r.start < text.length := by
    intro r hr
    obtain ⟨entity, hentity, hstart, hstop⟩ := hmem r hr
    rw [hstart, hstop]
    exact ⟨(hstarts entity hentity).1, hne entity hentity, (hstarts entity hentity).2⟩
  have hstrict : replaced.Pairwise fun r r' => r.start < r'.start :=
    hpairwise.imp_of_mem fun {r r'} hr _ h => Int.lt_of_lt_of_le (hvalid r hr).2.1 h
  have hpatches : Redaction.Apart text.length (replaced.map Replacement.patch) := by
    refine ⟨List.pairwise_map.mpr (hpairwise.imp fun h => Int.toNat_le_toNat h), ?_, ?_⟩
    all_goals
      intro p hp
      obtain ⟨r, hr, rfl⟩ := List.mem_map.mp hp
      have := hvalid r hr
      simp only [Replacement.patch]
      omega
  have hfold : (replaced.mergeSort fun a b => decide (b.start ≤ a.start)).foldl
      Replacement.apply text = (replaced.map Replacement.patch).foldr Redaction.splice text := by
    rw [mergeSort_eq_reverse hstrict, List.foldl_reverse, List.foldr_map]
    exact List.foldr_ext _ _ text fun r hr rest =>
      Replacement.apply_eq_splice (hvalid r hr).1 (hvalid r hr).2.1 rest
  rw [hfold]
  refine (Redaction.redacted_foldr_splice hpatches ?_).congr fun j _ => ?_
  · intro p hp
    obtain ⟨r, hr, rfl⟩ := List.mem_map.mp hp
    exact htokens r hr
  · constructor
    · rintro ⟨p, hp, hstart, hstop⟩
      obtain ⟨r, hr, rfl⟩ := List.mem_map.mp hp
      obtain ⟨entity, hentity, heq, heq'⟩ := hmem r hr
      have := hvalid r hr
      simp only [Replacement.patch] at hstart hstop
      exact ⟨entity, hentity, by omega, by omega⟩
    · rintro ⟨entity, hentity, hstart, hstop⟩
      obtain ⟨r, hr, heq, heq'⟩ := hmem' entity hentity
      refine ⟨r.patch, List.mem_map_of_mem hr, ?_, ?_⟩
      all_goals
        simp only [Replacement.patch]
        omega

/-! ### Frames -/

section

variable {V : VoiceSetting} {s : TextState} {a : Arrival}

/-- **Step.** The frame of a chunk whose entities are placed is tokenized. -/
theorem Placed.tokenized (h : Placed V s a) : Tokenized V s a := by
  have hframe := redacted_sanitizeText V.toDetectorSetting s.counters
    (fun entity hentity => (interval_of_mem_processChunk hentity).1) h.apart h.starts
  refine hframe.congr fun j hj => ?_
  rw [Nat.zero_add]
  refine exists_congr fun entity => and_congr_right fun hentity => ?_
  exact h.same entity hentity j hj

/-- A window that holds nothing before the chunk places every entity in the same way in both. -/
theorem placed_of_window_nil (hwindow : s.detector.windowBuffer = [])
    (hapart : (V.detectIn s.detector a).1.Pairwise fun e e' =>
      e.stop ≤ e'.start ∨ e'.stop ≤ e.start)
    (hstarts : ∀ entity ∈ (V.detectIn s.detector a).1,
      0 ≤ entity.start ∧ entity.start < a.transcript.length) : Placed V s a where
  apart := hapart
  starts := hstarts
  same entity _ j _ := by
    rw [hwindow]
    simp [windowText]

/-- **Voice text is tokenized where the entity stands.** In every stream of chunks, with any
transcripts, timestamps and detection engine, in which the returned entities are placed, each frame
is the transcript of its chunk with exactly the characters of entities replaced by placeholders. -/
theorem tokenized_of_placed (V : VoiceSetting) (arrivals : List Arrival)
    (h : Runs.Along (textStep V) (Placed V) {} arrivals) :
    Runs.Along (textStep V) (Tokenized V) {} arrivals :=
  h.imp fun _ _ => Placed.tokenized

end

/-! ### Two chunks in a window -/

/-- The name in the first chunk of the window. -/
theorem tokenized_of_placed_sample :
    Runs.Along (textStep sampleVoice) (Tokenized sampleVoice) {}
      [sampleArrival 0 "I am Bob."] := by
  refine tokenized_of_placed sampleVoice _ ⟨placed_of_window_nil rfl ?_ ?_, trivial⟩
  · decide +kernel
  · decide +kernel

/-- A name in the second chunk of the window is not replaced in the frame of that chunk. -/
theorem not_tokenized :
    ¬ Runs.Along (textStep sampleVoice) (Tokenized sampleVoice) {}
      [sampleArrival 0 "Hi.", sampleArrival 1000 "I am Bob."] := by
  rintro ⟨-, htokenized, -⟩
  let s := textStep sampleVoice {} (sampleArrival 0 "Hi.")
  let a := sampleArrival 1000 "I am Bob."
  have hout : (processText sampleVoice s a).1 = "I am Bob[PERSON_1]".toList := by decide +kernel
  have hframe : Redacted (InEntity sampleVoice s a) IsPlaceholder 0 "I am Bob.".toList
      "I am Bob[PERSON_1]".toList := hout ▸ htokenized
  -- the five characters before the name are kept, and then the name stands in the frame
  have hbefore : ∀ j < 5, ¬ InEntity sampleVoice s a j := by decide +kernel
  obtain ⟨_, heq, hframe⟩ := hframe.of_cons (hbefore 0 (by decide))
  obtain rfl := (List.cons.inj heq).2
  obtain ⟨_, heq, hframe⟩ := hframe.of_cons (hbefore 1 (by decide))
  obtain rfl := (List.cons.inj heq).2
  obtain ⟨_, heq, hframe⟩ := hframe.of_cons (hbefore 2 (by decide))
  obtain rfl := (List.cons.inj heq).2
  obtain ⟨_, heq, hframe⟩ := hframe.of_cons (hbefore 3 (by decide))
  obtain rfl := (List.cons.inj heq).2
  obtain ⟨_, heq, hframe⟩ := hframe.of_cons (hbefore 4 (by decide))
  obtain rfl := (List.cons.inj heq).2
  obtain ⟨_, ⟨entityType, count, rfl⟩, hprefix⟩ := hframe.exists_placeholder (by decide +kernel)
  exact absurd (List.cons_prefix_cons.mp hprefix).1 (by decide)

end AnonReq.Voice
