import AnonReq.Foundation.Intervals
import AnonReq.Foundation.Runs
import AnonReq.Voice.Detector
import Mathlib.Tactic.Linarith

/-!
# Voice streams as audio

`AudioSanitizer` of `voice/sanitizer.py`, and `process_stream` of `voice/pipeline.py` in audio mode:
the samples of each chunk, with the intervals of the entities that the detector returned for the
chunk muted or covered by a sine wave.

* `sanitize` reads the times of an interval, which are times of the stream, as times of the chunk.
* `Masked` says of a step that the samples spoken in an interval are replaced, and no others.
* `Aligned` says of a step that no sample is in an interval in one of the two readings only, unless
  it is the mask already.
* `sampleAt_sanitize`: the samples of a frame. `masked_iff`: frames are masked exactly in streams
  all of whose steps are aligned.
* `not_masked`: an entity in the second chunk of a stream.
-/

namespace AnonReq.Voice

/-! ### Samples -/

/-- The two bytes of sample `i`. -/
def sampleAt (data : List UInt8) (i : ℕ) : Option UInt8 × Option UInt8 :=
  (data[2 * i]?, data[2 * i + 1]?)

/-- The number of whole samples. -/
def sampleCount (data : List UInt8) : ℕ := data.length / 2

/-- `int(ms * sample_rate / 1000)`. The quotient in floating point has the same whole part up to
numbers of samples that no chunk has. -/
def wholeSamples (sampleRate ms : ℤ) : ℤ := (ms * sampleRate).tdiv 1000

/-- The samples of `_range_to_bytes`, whose bounds are these times two. -/
def rangeToSamples (data : List UInt8) (sampleRate startMs endMs : ℤ) : ℕ × ℕ :=
  let startSample := max 0 (min (sampleCount data : ℤ) (wholeSamples sampleRate startMs))
  let endSample := max startSample (min (sampleCount data : ℤ) (wholeSamples sampleRate endMs))
  (startSample.toNat, endSample.toNat)

/-- `mute_frame`. -/
def muteFrame (data : List UInt8) (sampleRate startMs endMs : ℤ) : List UInt8 :=
  let (startSample, endSample) := rangeToSamples data sampleRate startMs endMs
  let startByte := startSample * 2
  let endByte := endSample * 2
  if startByte ≥ endByte then data
  else data.take startByte ++ List.replicate (endByte - startByte) 0 ++ data.drop endByte

/-- `sanitized[offset : offset + 2] = sample`, for sample `i`. -/
def setSample (data : List UInt8) (i : ℕ) (sample : UInt8 × UInt8) : List UInt8 :=
  data.take (i * 2) ++ [sample.1, sample.2] ++ data.drop (i * 2 + 2)

/-- `beep_frame`. -/
def VoiceSetting.beepFrame (V : VoiceSetting) (data : List UInt8)
    (sampleRate startMs endMs : ℤ) : List UInt8 :=
  let (startSample, endSample) := rangeToSamples data sampleRate startMs endMs
  if startSample * 2 ≥ endSample * 2 then data
  else
    (List.range (endSample - startSample)).foldl
      (fun sanitized k => setSample sanitized (startSample + k) (V.tone sampleRate k)) data

/-! ### Ranges -/

/-- The order of pairs. -/
def beforePair (a b : ℤ × ℤ) : Bool := decide (a.1 < b.1 ∨ a.1 = b.1 ∧ a.2 ≤ b.2)

/-- The ranges of the entities, sorted. -/
def sortedRanges (entities : List Entity) : List (ℤ × ℤ) :=
  ((entities.filter fun entity => decide (entity.audioEndMs > entity.audioStartMs)).map
    fun entity => (entity.audioStartMs, entity.audioEndMs)).mergeSort beforePair

/-- `_merge_ranges`. -/
def mergeRanges (entities : List Entity) : List (ℤ × ℤ) := Intervals.merge (sortedRanges entities)

/-- `sanitize`. -/
def VoiceSetting.sanitize (V : VoiceSetting) (data : List UInt8) (entities : List Entity)
    (method : String) (sampleRate : ℤ) : List UInt8 :=
  (mergeRanges entities).foldl
    (fun sanitized range =>
      if method = "beep" then V.beepFrame sanitized sampleRate range.1 range.2
      else muteFrame sanitized sampleRate range.1 range.2) data

/-! ### Streams -/

section

variable (V : VoiceSetting) (method : String)

/-- One step of a stream: the state of the detector. -/
def audioStep (s : DetectorState) (a : Arrival) : DetectorState := (V.detectIn s a).2

/-- The frame that is yielded for a chunk. -/
def audioFrame (s : DetectorState) (a : Arrival) : List UInt8 :=
  V.sanitize a.chunk.data (V.detectIn s a).1 method a.chunk.sampleRate

/-- Sample `k` of the mask. -/
def maskSample (sampleRate : ℤ) (k : ℕ) : Option UInt8 × Option UInt8 :=
  if method = "beep" then (some (V.tone sampleRate k).1, some (V.tone sampleRate k).2)
  else (some 0, some 0)

/-- A sample of the mask. -/
def IsMask (sampleRate : ℤ) (sample : Option UInt8 × Option UInt8) : Prop :=
  ∃ k, sample = maskSample V method sampleRate k

/-- Sample `i` of a chunk is spoken in the interval of a returned entity; both are counted in
thousandths of a sample from the time zero of the stream. -/
def InInterval (s : DetectorState) (a : Arrival) (i : ℕ) : Prop :=
  ∃ entity ∈ (V.detectIn s a).1,
    entity.audioStartMs * a.chunk.sampleRate ≤
        a.chunk.timestampMs * a.chunk.sampleRate + 1000 * i ∧
      a.chunk.timestampMs * a.chunk.sampleRate + 1000 * i <
        entity.audioEndMs * a.chunk.sampleRate

/-- The samples in an interval are replaced by the mask, the others are unchanged. -/
def Masked (s : DetectorState) (a : Arrival) : Prop :=
  ∀ i < sampleCount a.chunk.data,
    (InInterval V s a i → IsMask V method a.chunk.sampleRate
      (sampleAt (audioFrame V method s a) i)) ∧
    (¬ InInterval V s a i → sampleAt (audioFrame V method s a) i = sampleAt a.chunk.data i)

instance (s : DetectorState) (a : Arrival) (i : ℕ) : Decidable (InInterval V s a i) :=
  inferInstanceAs (Decidable (∃ entity ∈ (V.detectIn s a).1, _ ∧ _))

/-- Sample `i` of a chunk is in the interval of a returned entity if the times of the interval are
taken for times of the chunk, in whole samples. -/
def InChunkInterval (s : DetectorState) (a : Arrival) (i : ℕ) : Prop :=
  ∃ entity ∈ (V.detectIn s a).1,
    wholeSamples a.chunk.sampleRate entity.audioStartMs ≤ i ∧
      (i : ℤ) < wholeSamples a.chunk.sampleRate entity.audioEndMs

/-- Which sample of the mask goes to sample `i` of a chunk with these ranges. -/
def maskIndex (sampleRate : ℤ) (ranges : List (ℤ × ℤ)) (i : ℕ) : Option ℕ :=
  ranges.foldl
    (fun found range =>
      if Intervals.Covers (wholeSamples sampleRate) (i : ℤ) range then
        some (i - (wholeSamples sampleRate range.1).toNat)
      else found) none

/-- No sample is in an interval in one of the two readings of its times only, unless the sample is
that of the mask already. -/
structure Aligned (s : DetectorState) (a : Arrival) : Prop where
  missed : ∀ i < sampleCount a.chunk.data, InInterval V s a i → ¬ InChunkInterval V s a i →
    IsMask V method a.chunk.sampleRate (sampleAt a.chunk.data i)
  extra : ∀ i < sampleCount a.chunk.data, InChunkInterval V s a i → ¬ InInterval V s a i →
    ∀ k ∈ maskIndex a.chunk.sampleRate (mergeRanges (V.detectIn s a).1) i,
      sampleAt a.chunk.data i = maskSample V method a.chunk.sampleRate k

end

/-! ### The samples of a frame -/

variable {data : List UInt8}

theorem length_setSample {i : ℕ} (hi : i < sampleCount data) (sample : UInt8 × UInt8) :
    (setSample data i sample).length = data.length := by
  rw [sampleCount] at hi
  simp only [setSample, List.length_append, List.length_take, List.length_drop, List.length_cons,
    List.length_nil]
  omega

/-- What the samples are after one of them has been set. -/
theorem sampleAt_setSample {i : ℕ} (hi : i < sampleCount data) (sample : UInt8 × UInt8) (j : ℕ) :
    sampleAt (setSample data i sample) j =
      if j = i then (some sample.1, some sample.2) else sampleAt data j := by
  rw [sampleCount] at hi
  have hfront : (data.take (i * 2)).length = i * 2 := by
    rw [List.length_take]
    omega
  have hbyte : ∀ b, (setSample data i sample)[b]? =
      if b < i * 2 then data[b]?
      else if b = i * 2 then some sample.1
      else if b = i * 2 + 1 then some sample.2
      else data[b]? := by
    intro b
    rw [setSample, List.append_assoc]
    split_ifs with hb hb' hb''
    · rw [List.getElem?_append_left (by omega), List.getElem?_take_of_lt hb]
    · rw [List.getElem?_append_right (by omega), hfront, hb', Nat.sub_self]
      rfl
    · rw [List.getElem?_append_right (by omega), hfront, hb'', Nat.add_sub_cancel_left]
      rfl
    · rw [List.getElem?_append_right (by omega), hfront,
        List.getElem?_append_right (by rw [List.length_cons, List.length_singleton]; omega),
        List.getElem?_drop]
      congr 1
      simp only [List.length_cons, List.length_nil]
      omega
  rw [sampleAt, hbyte, hbyte, sampleAt]
  split_ifs <;> first | rfl | omega

/-- The samples of a range are those from one time to another, in whole samples. -/
theorem mem_rangeToSamples {i : ℕ} (hi : i < sampleCount data) (sampleRate startMs endMs : ℤ) :
    ((rangeToSamples data sampleRate startMs endMs).1 ≤ i ∧
        i < (rangeToSamples data sampleRate startMs endMs).2) ↔
      Intervals.Covers (wholeSamples sampleRate) (i : ℤ) (startMs, endMs) := by
  simp only [rangeToSamples, Intervals.Covers]
  omega

theorem rangeToSamples_le (data : List UInt8) (sampleRate startMs endMs : ℤ) :
    (rangeToSamples data sampleRate startMs endMs).1 ≤
        (rangeToSamples data sampleRate startMs endMs).2 ∧
      (rangeToSamples data sampleRate startMs endMs).2 ≤ sampleCount data := by
  simp only [rangeToSamples]
  omega

/-- A range that holds a sample of the chunk begins with its first time. -/
theorem fst_rangeToSamples {i : ℕ} (hi : i < sampleCount data) {sampleRate startMs endMs : ℤ}
    (h : Intervals.Covers (wholeSamples sampleRate) (i : ℤ) (startMs, endMs)) :
    (rangeToSamples data sampleRate startMs endMs).1 = (wholeSamples sampleRate startMs).toNat := by
  simp only [Intervals.Covers] at h
  simp only [rangeToSamples]
  omega

/-- The samples of a muted frame. -/
theorem sampleAt_muteFrame (sampleRate startMs endMs : ℤ) (i : ℕ) :
    sampleAt (muteFrame data sampleRate startMs endMs) i =
      if (rangeToSamples data sampleRate startMs endMs).1 ≤ i ∧
          i < (rangeToSamples data sampleRate startMs endMs).2 then (some 0, some 0)
      else sampleAt data i := by
  obtain ⟨hle, hcount⟩ := rangeToSamples_le data sampleRate startMs endMs
  rw [muteFrame]
  generalize rangeToSamples data sampleRate startMs endMs = r at hle hcount ⊢
  obtain ⟨start, stop⟩ := r
  dsimp only at hle hcount ⊢
  rw [sampleCount] at hcount
  split_ifs with hempty hin hin
  · omega
  · rfl
  -- a byte is in the range of bytes if its sample is in the range of samples
  all_goals
    have hfront : (data.take (start * 2)).length = start * 2 := by
      rw [List.length_take]
      omega
    have hbyte : ∀ b, (data.take (start * 2) ++ List.replicate (stop * 2 - start * 2) 0 ++
        data.drop (stop * 2))[b]? =
          if start * 2 ≤ b ∧ b < stop * 2 then some 0 else data[b]? := by
      intro b
      rw [List.append_assoc]
      split_ifs with hb
      · rw [List.getElem?_append_right (by omega), List.getElem?_append_left
          (by rw [List.length_replicate]; omega), List.getElem?_replicate_of_lt (by omega)]
      · obtain hbefore | hafter : b < start * 2 ∨ stop * 2 ≤ b := by omega
        · rw [List.getElem?_append_left (by omega), List.getElem?_take_of_lt hbefore]
        · rw [List.getElem?_append_right (by omega), List.getElem?_append_right
            (by rw [List.length_replicate]; omega), List.getElem?_drop]
          congr 1
          rw [List.length_replicate]
          omega
    rw [sampleAt, hbyte, hbyte]
  · rw [if_pos (by omega), if_pos (by omega)]
  · rw [if_neg (by omega), if_neg (by omega), sampleAt]

theorem length_muteFrame (data : List UInt8) (sampleRate startMs endMs : ℤ) :
    (muteFrame data sampleRate startMs endMs).length = data.length := by
  obtain ⟨hle, hcount⟩ := rangeToSamples_le data sampleRate startMs endMs
  rw [sampleCount] at hcount
  rw [muteFrame]
  dsimp only
  split_ifs with hempty
  · rfl
  · simp only [List.length_append, List.length_take, List.length_replicate, List.length_drop]
    omega

/-- The loop of `beep_frame`: so many samples from the first one on are set. -/
theorem foldl_setSample {start n : ℕ} (hcount : start + n ≤ sampleCount data)
    (tone : ℕ → UInt8 × UInt8) :
    let beeped := (List.range n).foldl (fun d k => setSample d (start + k) (tone k)) data
    beeped.length = data.length ∧
      ∀ i, sampleAt beeped i =
        if start ≤ i ∧ i < start + n then (some (tone (i - start)).1, some (tone (i - start)).2)
        else sampleAt data i := by
  induction n with
  | zero => exact ⟨rfl, fun i => (if_neg (by omega)).symm⟩
  | succ n ih =>
    obtain ⟨hlength, hsamples⟩ := ih (by omega)
    rw [List.range_succ, List.foldl_append]
    dsimp only [List.foldl_cons, List.foldl_nil]
    have hlast : start + n < sampleCount
        ((List.range n).foldl (fun d k => setSample d (start + k) (tone k)) data) := by
      rw [sampleCount, hlength]
      rw [sampleCount] at hcount
      omega
    refine ⟨(length_setSample hlast (tone n)).trans hlength, fun i => ?_⟩
    rw [sampleAt_setSample hlast, hsamples]
    by_cases hi : i = start + n
    · rw [if_pos hi, if_pos (by omega), hi, Nat.add_sub_cancel_left]
    · rw [if_neg hi]
      exact if_congr (by omega) rfl rfl

variable (V : VoiceSetting) (method : String)

/-- One round of the loop of `sanitize`: the samples of the range become those of the mask. -/
theorem maskFrame_spec (data : List UInt8) (sampleRate : ℤ) (range : ℤ × ℤ) :
    let masked :=
      if method = "beep" then V.beepFrame data sampleRate range.1 range.2
      else muteFrame data sampleRate range.1 range.2
    masked.length = data.length ∧
      ∀ i < sampleCount data, sampleAt masked i =
        if Intervals.Covers (wholeSamples sampleRate) (i : ℤ) range then
          maskSample V method sampleRate (i - (wholeSamples sampleRate range.1).toNat)
        else sampleAt data i := by
  obtain ⟨startMs, endMs⟩ := range
  obtain ⟨hle, hcount⟩ := rangeToSamples_le data sampleRate startMs endMs
  by_cases hmethod : method = "beep"
  · -- an empty range is a loop without rounds
    have hbeep : V.beepFrame data sampleRate startMs endMs =
        (List.range ((rangeToSamples data sampleRate startMs endMs).2 -
            (rangeToSamples data sampleRate startMs endMs).1)).foldl
          (fun d k => setSample d ((rangeToSamples data sampleRate startMs endMs).1 + k)
            (V.tone sampleRate k)) data := by
      rw [VoiceSetting.beepFrame]
      dsimp only
      split_ifs with hempty
      · rw [Nat.sub_eq_zero_of_le (by omega)]
        rfl
      · rfl
    obtain ⟨hlength, hsamples⟩ := foldl_setSample
      (by omega : (rangeToSamples data sampleRate startMs endMs).1 +
        ((rangeToSamples data sampleRate startMs endMs).2 -
          (rangeToSamples data sampleRate startMs endMs).1) ≤ sampleCount data)
      (V.tone sampleRate)
    rw [← hbeep] at hlength hsamples
    simp only [if_pos hmethod]
    refine ⟨hlength, fun i hi => ?_⟩
    rw [hsamples, Nat.add_sub_cancel' hle]
    refine ite_congr (propext (mem_rangeToSamples hi sampleRate startMs endMs)) (fun h => ?_)
      fun _ => rfl
    rw [maskSample, if_pos hmethod, fst_rangeToSamples hi h]
  · simp only [if_neg hmethod]
    refine ⟨length_muteFrame data sampleRate startMs endMs, fun i hi => ?_⟩
    rw [sampleAt_muteFrame, maskSample, if_neg hmethod]
    exact if_congr (mem_rangeToSamples hi sampleRate startMs endMs) rfl rfl

/-- **The samples of a frame.** Those in a range are samples of the mask, the others are
unchanged. -/
theorem sampleAt_sanitize (data : List UInt8) (entities : List Entity) (sampleRate : ℤ) {i : ℕ}
    (hi : i < sampleCount data) :
    sampleAt (V.sanitize data entities method sampleRate) i =
      (maskIndex sampleRate (mergeRanges entities) i).elim (sampleAt data i)
        (maskSample V method sampleRate) := by
  -- the rounds done so far have given the sample that has been found
  have hloop : ∀ (ranges : List (ℤ × ℤ)) (found : Option ℕ) (masked : List UInt8),
      masked.length = data.length →
      sampleAt masked i = found.elim (sampleAt data i) (maskSample V method sampleRate) →
      sampleAt (ranges.foldl
          (fun sanitized range =>
            if method = "beep" then V.beepFrame sanitized sampleRate range.1 range.2
            else muteFrame sanitized sampleRate range.1 range.2) masked) i =
        (ranges.foldl
          (fun found range =>
            if Intervals.Covers (wholeSamples sampleRate) (i : ℤ) range then
              some (i - (wholeSamples sampleRate range.1).toNat)
            else found) found).elim (sampleAt data i) (maskSample V method sampleRate) := by
    intro ranges
    induction ranges with
    | nil => exact fun found masked _ hsample => hsample
    | cons range ranges ih =>
      intro found masked hlength hsample
      obtain ⟨hlength', hsamples⟩ := maskFrame_spec V method masked sampleRate range
      refine ih _ _ (hlength'.trans hlength) ?_
      rw [hsamples i (by rwa [sampleCount, hlength]), hsample]
      dsimp only
      split_ifs <;> rfl
  exact hloop (mergeRanges entities) none data rfl rfl

/-! ### The two readings of an interval -/

omit V method

/-- A sample goes to the mask if and only if it is in one of the ranges. -/
theorem maskIndex_isSome_iff {sampleRate : ℤ} {ranges : List (ℤ × ℤ)} {i : ℕ} :
    (maskIndex sampleRate ranges i).isSome ↔
      ∃ range ∈ ranges, Intervals.Covers (wholeSamples sampleRate) (i : ℤ) range := by
  have hloop : ∀ found : Option ℕ,
      (ranges.foldl
        (fun found range =>
          if Intervals.Covers (wholeSamples sampleRate) (i : ℤ) range then
            some (i - (wholeSamples sampleRate range.1).toNat)
          else found) found).isSome ↔
        found.isSome ∨ ∃ range ∈ ranges,
          Intervals.Covers (wholeSamples sampleRate) (i : ℤ) range := by
    induction ranges with
    | nil => simp
    | cons range ranges ih =>
      intro found
      rw [List.foldl_cons, ih, List.exists_mem_cons_iff]
      split_ifs with hcovers
      · simp [hcovers]
      · simp [hcovers]
  rw [maskIndex, hloop]
  simp

theorem wholeSamples_mono {sampleRate : ℤ} (h : 0 ≤ sampleRate) {startMs endMs : ℤ}
    (hle : startMs ≤ endMs) : wholeSamples sampleRate startMs ≤ wholeSamples sampleRate endMs :=
  Int.tdiv_le_tdiv (by decide) (Int.mul_le_mul_of_nonneg_right hle h)

/-- At a negative rate no range holds a sample. -/
theorem not_covers_of_neg {sampleRate : ℤ} (h : sampleRate < 0) {range : ℤ × ℤ}
    (hrange : range.1 < range.2) (i : ℤ) :
    ¬ Intervals.Covers (wholeSamples sampleRate) i range := by
  rintro ⟨hlo, hhi⟩
  have hle : wholeSamples sampleRate range.2 ≤ wholeSamples sampleRate range.1 :=
    Int.tdiv_le_tdiv (by decide)
      (Int.mul_le_mul_of_nonpos_right (Int.le_of_lt hrange) (Int.le_of_lt h))
  omega

/-- The ranges of entities that have intervals, up to their order. -/
theorem mem_sortedRanges {entities : List Entity}
    (h : ∀ entity ∈ entities, entity.audioStartMs < entity.audioEndMs) {range : ℤ × ℤ} :
    range ∈ sortedRanges entities ↔
      ∃ entity ∈ entities, (entity.audioStartMs, entity.audioEndMs) = range := by
  have hall : (entities.filter fun entity =>
      decide (entity.audioEndMs > entity.audioStartMs)) = entities :=
    List.filter_eq_self.mpr fun entity hentity => decide_eq_true (h entity hentity)
  rw [sortedRanges, hall, List.mem_mergeSort, List.mem_map]

theorem sortedRanges_sorted (entities : List Entity) :
    (sortedRanges entities).Pairwise fun range range' => range.1 ≤ range'.1 := by
  have htrans : ∀ a b c, beforePair a b = true → beforePair b c = true → beforePair a c = true := by
    intro a b c hab hbc
    simp only [beforePair, decide_eq_true_eq] at *
    omega
  have htotal : ∀ a b, (beforePair a b || beforePair b a) = true := by
    intro a b
    simp only [beforePair, Bool.or_eq_true, decide_eq_true_eq]
    omega
  refine (List.pairwise_mergeSort htrans htotal _).imp fun {a b} hab => ?_
  simp only [beforePair, decide_eq_true_eq] at hab
  omega

/-- **Merging.** The merged ranges hold the samples that the ranges of the entities hold. -/
theorem covered_iff {entities : List Entity}
    (h : ∀ entity ∈ entities, entity.audioStartMs < entity.audioEndMs) (sampleRate : ℤ) (i : ℕ) :
    (∃ range ∈ mergeRanges entities,
        Intervals.Covers (wholeSamples sampleRate) (i : ℤ) range) ↔
      ∃ entity ∈ entities, wholeSamples sampleRate entity.audioStartMs ≤ i ∧
        (i : ℤ) < wholeSamples sampleRate entity.audioEndMs := by
  have hranges : (∃ range ∈ sortedRanges entities,
      Intervals.Covers (wholeSamples sampleRate) (i : ℤ) range) ↔
        ∃ entity ∈ entities, wholeSamples sampleRate entity.audioStartMs ≤ i ∧
          (i : ℤ) < wholeSamples sampleRate entity.audioEndMs := by
    constructor
    · rintro ⟨range, hrange, hcovers⟩
      obtain ⟨entity, hentity, rfl⟩ := (mem_sortedRanges h).mp hrange
      exact ⟨entity, hentity, hcovers⟩
    · rintro ⟨entity, hentity, hcovers⟩
      exact ⟨_, (mem_sortedRanges h).mpr ⟨entity, hentity, rfl⟩, hcovers⟩
  rw [← hranges]
  -- at a negative rate the samples run backwards, and neither side holds
  obtain hneg | hnonneg := lt_or_ge sampleRate 0
  · have hlt : ∀ range ∈ sortedRanges entities, range.1 < range.2 := by
      intro range hrange
      obtain ⟨entity, hentity, rfl⟩ := (mem_sortedRanges h).mp hrange
      exact h entity hentity
    refine iff_of_false ?_ ?_
    · rintro ⟨range, hrange, hcovers⟩
      exact not_covers_of_neg hneg (Intervals.forall_mem_merge
        (fun _ _ hlast _ => lt_max_of_lt_left hlast) hlt range hrange) i hcovers
    · rintro ⟨range, hrange, hcovers⟩
      exact not_covers_of_neg hneg (hlt range hrange) i hcovers
  · have hmono : Monotone (wholeSamples sampleRate) := fun _ _ => wholeSamples_mono hnonneg
    exact Intervals.exists_mem_merge (Intervals.additive_covers hmono _)
      (sortedRanges_sorted entities)

/-- A sample goes to the mask if and only if it is in an interval that is read in the chunk. -/
theorem maskIndex_isSome_iff_inChunkInterval (V : VoiceSetting) (s : DetectorState) (a : Arrival)
    (i : ℕ) :
    (maskIndex a.chunk.sampleRate (mergeRanges (V.detectIn s a).1) i).isSome ↔
      InChunkInterval V s a i := by
  rw [maskIndex_isSome_iff, covered_iff]
  · rfl
  · exact fun entity hentity => (interval_of_mem_processChunk hentity).2

/-! ### Masked frames -/

/-- A frame is masked if and only if the readings agree, or the samples are the mask's already. -/
theorem masked_step_iff (V : VoiceSetting) (method : String) (s : DetectorState) (a : Arrival) :
    Masked V method s a ↔ Aligned V method s a := by
  have hsample : ∀ i < sampleCount a.chunk.data, sampleAt (audioFrame V method s a) i =
      (maskIndex a.chunk.sampleRate (mergeRanges (V.detectIn s a).1) i).elim
        (sampleAt a.chunk.data i) (maskSample V method a.chunk.sampleRate) := fun i hi =>
    sampleAt_sanitize V method a.chunk.data (V.detectIn s a).1 a.chunk.sampleRate hi
  constructor
  · intro h
    refine ⟨fun i hi hin hout => ?_, fun i hi hin hout k hk => ?_⟩
    · -- no range has the sample, and the frame has the one of the chunk
      rw [← maskIndex_isSome_iff_inChunkInterval, Option.not_isSome_iff_eq_none] at hout
      have hmask := (h i hi).1 hin
      rwa [hsample i hi, hout] at hmask
    · have hsame := (h i hi).2 hout
      rw [hsample i hi, Option.mem_def.mp hk] at hsame
      exact hsame.symm
  · intro h i hi
    rw [hsample i hi]
    rcases hfound : maskIndex a.chunk.sampleRate (mergeRanges (V.detectIn s a).1) i with _ | k
    · have hout : ¬ InChunkInterval V s a i := by
        rw [← maskIndex_isSome_iff_inChunkInterval, hfound]
        exact Bool.false_ne_true
      exact ⟨fun hin => h.missed i hi hin hout, fun _ => rfl⟩
    · have hin : InChunkInterval V s a i := by
        rw [← maskIndex_isSome_iff_inChunkInterval, hfound]
        rfl
      exact ⟨fun _ => ⟨k, rfl⟩, fun hout => (h.extra i hi hin hout k hfound).symm⟩

/-- **Masked streams.** Every frame of a stream is masked if and only if every step is aligned. -/
theorem masked_iff (V : VoiceSetting) (method : String) (arrivals : List Arrival) :
    Runs.Along (audioStep V) (Masked V method) {} arrivals ↔
      Runs.Along (audioStep V) (Aligned V method) {} arrivals :=
  Runs.along_congr (I := fun _ => True) (fun _ _ _ _ => trivial)
    (fun s a _ => masked_step_iff V method s a) trivial

/-- The samples of an entity in the second chunk of a stream are not replaced. -/
theorem not_masked :
    ¬ Runs.Along (audioStep sampleVoice) (Masked sampleVoice "mute") {}
      [sampleArrival 0 "Hi.", sampleArrival 1000 "I am Bob."] := by
  rintro ⟨-, hmasked, -⟩
  -- the name is spoken from 1505 to 1938, which is after the end of a chunk of a second
  let s := audioStep sampleVoice {} (sampleArrival 0 "Hi.")
  let a := sampleArrival 1000 "I am Bob."
  have hin : InInterval sampleVoice s a 6 := by decide +kernel
  have hframe : sampleAt (audioFrame sampleVoice "mute" s a) 6 = (some 1, some 1) := by
    decide +kernel
  obtain ⟨k, hk⟩ := (hmasked 6 (by decide)).1 hin
  have hsilence : (some 1, some 1) = maskSample sampleVoice "mute" a.chunk.sampleRate k :=
    hframe.symm.trans hk
  rw [maskSample, if_neg (by decide)] at hsilence
  exact absurd hsilence (by decide)

end AnonReq.Voice
