import AnonReq.Foundation.Overlap
import AnonReq.Foundation.Words
import Mathlib.Data.List.Chain
import Mathlib.Data.List.Sort

/-!
# The transcript buffer

`TranscriptBuffer` of `voice/transcript_buffer.py` keeps the newest segments of a transcript in the
order of their times. Segments overlap: `assembleContiguous` adds each one without the words that
the piece added before it ends with.

* `words_assembleContiguous`: the words that are assembled are the pieces of overlapping windows.
* `assembles_iff`: segments that are windows of distinct words are assembled to these words if and
  only if the windows are flush.
* `not_assembles`: each of three windows overlaps the other two.
-/

namespace AnonReq.Voice

open Overlap (Window Chained Flush reach)

/-! ### Segments -/

/-- `TranscriptSegment`: a text that is stripped and not empty. The metadata is never set. -/
structure TranscriptSegment where
  text : Text
  timestampMs : ℤ
  sequence : ℕ
  spoken : text ≠ [] ∧ text.strip = text
deriving DecidableEq

/-- The order of the keys `(timestamp_ms, sequence)`. -/
def before (a b : TranscriptSegment) : Prop :=
  a.timestampMs < b.timestampMs ∨ (a.timestampMs = b.timestampMs ∧ a.sequence ≤ b.sequence)

instance : DecidableRel before := fun a b =>
  inferInstanceAs (Decidable (a.timestampMs < b.timestampMs ∨
    (a.timestampMs = b.timestampMs ∧ a.sequence ≤ b.sequence)))

instance : Std.Total before := ⟨fun a b => by unfold before; omega⟩

instance : IsTrans TranscriptSegment before := ⟨fun a b c hab hbc => by unfold before at *; omega⟩

theorem TranscriptSegment.words_ne_nil (s : TranscriptSegment) : s.text.words ≠ [] :=
  Text.words_ne_nil (by rw [s.spoken.2]; exact s.spoken.1)

/-! ### The buffer -/

/-- `TranscriptBuffer`: at most `maxChunks` segments, in order. -/
structure TranscriptBuffer where
  maxChunks : ℕ
  windowMs : ℤ
  overlapMs : ℤ
  segments : List TranscriptSegment
  nextSequence : ℕ
  ordered : segments.Pairwise before
  bounded : segments.length ≤ maxChunks

namespace TranscriptBuffer

/-- `add_chunk`. Nothing is dropped while there are at most `maxChunks` segments. -/
def addChunk (b : TranscriptBuffer) (text : Text) (timestampMs : ℤ) : TranscriptBuffer :=
  if h : text.strip = [] then b
  else
    let segment : TranscriptSegment :=
      { text := text.strip, timestampMs, sequence := b.nextSequence
        spoken := ⟨h, Text.strip_strip text⟩ }
    let segments := (b.segments ++ [segment]).insertionSort before
    { b with
      segments := segments.drop (segments.length - b.maxChunks)
      nextSequence := b.nextSequence + 1
      ordered := (List.pairwise_insertionSort before _).drop
      bounded := by rw [List.length_drop]; omega }

end TranscriptBuffer

/-! ### Assembly -/

/-- `_merge_overlap`. -/
def mergeOverlap (previous current : Text) : Text :=
  let previousWords := previous.words
  let currentWords := current.words
  let maxOverlap := min previousWords.length currentWords.length
  match Overlap.overlap previousWords currentWords maxOverlap with
  | 0 => current
  | size => Text.joinWords (currentWords.drop size)

/-- The loop of `assemble_contiguous`, with the parts so far. -/
def assembleLoop : List Text → List TranscriptSegment → List Text
  | parts, [] => parts
  | parts, segment :: rest =>
    match parts.getLast? with
    | none => assembleLoop (parts ++ [segment.text]) rest
    | some previous => assembleLoop (parts ++ [mergeOverlap previous segment.text]) rest

/-- `assemble_contiguous`. -/
def TranscriptBuffer.assembleContiguous (b : TranscriptBuffer) : Text :=
  let parts := assembleLoop [] (b.segments.insertionSort before)
  (Text.joinWords (parts.filter fun part => !part.isEmpty)).strip

/-- The words of a part are what is new in the segment. -/
theorem words_mergeOverlap (previous current : Text) :
    (mergeOverlap previous current).words = Overlap.fresh previous.words current.words := by
  rw [mergeOverlap, Overlap.fresh]
  split
  · next hnone => rw [hnone, List.drop_zero]
  · exact Text.words_joinWords_of_subset fun w hw => List.mem_of_mem_drop hw

/-- The words of the parts are the pieces of the segments, each after the one before it. -/
theorem words_assembleLoop (parts : List Text) (segments : List TranscriptSegment) :
    (assembleLoop parts segments).flatMap Text.words =
      parts.flatMap Text.words ++
        (Overlap.pieces (parts.getLast?.getD []).words (segments.map (·.text.words))).flatten := by
  induction segments generalizing parts with
  | nil => exact (List.append_nil _).symm
  | cons segment rest ih =>
    -- the part that is added last is what the next segment is merged with
    have hpart : ∀ part : Text,
        part.words = Overlap.fresh (parts.getLast?.getD []).words segment.text.words →
        (assembleLoop (parts ++ [part]) rest).flatMap Text.words =
          parts.flatMap Text.words ++ (Overlap.pieces (parts.getLast?.getD []).words
            ((segment :: rest).map (·.text.words))).flatten := by
      intro part hwords
      rw [ih, List.flatMap_append, List.flatMap_singleton, List.getLast?_concat, Option.getD_some,
        hwords, List.append_assoc]
      rfl
    rw [assembleLoop]
    split
    · next hnone =>
      refine hpart _ ?_
      rw [hnone]
      exact (Overlap.fresh_nil _).symm
    · next previous hsome =>
      refine hpart _ ?_
      rw [hsome]
      exact words_mergeOverlap previous segment.text

/-- **The words that are assembled** are the pieces of the segments in their order. -/
theorem words_assembleContiguous (b : TranscriptBuffer) :
    b.assembleContiguous.words =
      (Overlap.pieces [] (b.segments.map (·.text.words))).flatten := by
  have hempty : ∀ parts : List Text, (parts.filter fun part => !part.isEmpty).flatMap Text.words =
      parts.flatMap Text.words := by
    intro parts
    induction parts with
    | nil => rfl
    | cons part parts ih =>
      cases part with
      | nil => exact ih
      | cons c part => rw [List.filter_cons_of_pos rfl, List.flatMap_cons, ih, List.flatMap_cons]
  rw [TranscriptBuffer.assembleContiguous, b.ordered.insertionSort_eq, Text.words_strip,
    Text.words_joinWords, hempty, words_assembleLoop]
  rfl

/-! ### Windows of a sequence of words -/

/-- The segments of a buffer are windows of a sequence of words, in order, each starting at or
before the end of the one before it, and all of them cover the sequence. -/
structure Transcribes (b : TranscriptBuffer) (spoken : List Text) (windows : List Window) :
    Prop where
  texts : b.segments.map (·.text.words) = windows.map fun w => w.of spoken
  within : ∀ w ∈ windows, w.lo ≤ w.hi ∧ w.hi ≤ spoken.length
  inOrder : windows.Pairwise fun v w => v.lo ≤ w.lo
  contiguous : windows.IsChain fun v w => w.lo ≤ v.hi
  covers : ∀ i < spoken.length, ∃ w ∈ windows, w.lo ≤ i ∧ i < w.hi

namespace Transcribes

variable {b : TranscriptBuffer} {spoken : List Text} {windows : List Window}

/-- No window is empty, as every segment has a word. -/
theorem lo_lt_hi (h : Transcribes b spoken windows) {w : Window} (hw : w ∈ windows) :
    w.lo < w.hi := by
  have hmem : w.of spoken ∈ b.segments.map (·.text.words) := by
    rw [h.texts]
    exact List.mem_map_of_mem hw
  obtain ⟨s, -, hs⟩ := List.mem_map.mp hmem
  have hlength : (w.of spoken).length ≠ 0 :=
    fun hzero => s.words_ne_nil (hs.trans (List.length_eq_zero_iff.mp hzero))
  rw [Overlap.length_of (h.within w hw).2] at hlength
  omega

/-- The first window starts where the words start. -/
theorem lo_eq_zero (h : Transcribes b spoken windows) {w : Window} {rest : List Window}
    (heq : windows = w :: rest) : w.lo = 0 := by
  have hw : w ∈ windows := heq ▸ List.mem_cons_self
  have hlt := h.lo_lt_hi hw
  obtain ⟨v, hv, hlo, -⟩ := h.covers 0 (by have := (h.within w hw).2; omega)
  have horder := h.inOrder
  rw [heq] at hv horder
  obtain rfl | hv := List.mem_cons.mp hv
  · exact Nat.le_zero.mp hlo
  · have hle := (List.pairwise_cons.mp horder).1 v hv
    omega

theorem chained (h : Transcribes b spoken windows) : Chained spoken.length 0 windows := by
  have hlast : ∀ (d : ℕ) (ws : List Window), (∀ w ∈ ws, w ∈ windows) → (∀ w ∈ ws.head?, w.lo ≤ d) →
      ws.IsChain (fun v w => w.lo ≤ v.hi) → Chained spoken.length d ws := by
    intro d ws
    induction ws generalizing d with
    | nil => exact fun _ _ _ => trivial
    | cons w rest ih =>
      intro hmem hstart hchain
      have hw := hmem w List.mem_cons_self
      refine ⟨hstart w rfl, h.lo_lt_hi hw, (h.within w hw).2, ih w.hi ?_ ?_ ?_⟩
      · exact fun v hv => hmem v (List.mem_cons_of_mem w hv)
      · exact (List.isChain_cons.mp hchain).1
      · exact (List.isChain_cons.mp hchain).2
  refine hlast 0 windows (fun _ hw => hw) (fun w hw => ?_) h.contiguous
  obtain ⟨rest, hrest⟩ := List.head?_eq_some_iff.mp hw
  exact Nat.le_of_eq (h.lo_eq_zero hrest)

/-- Where the windows are flush, the last one ends where the words end. -/
theorem reach_eq (h : Transcribes b spoken windows) (hflush : Flush 0 0 windows) :
    reach 0 windows = spoken.length := by
  refine Nat.le_antisymm (Overlap.reach_le (Nat.zero_le _) h.chained) ?_
  cases hlength : spoken.length with
  | zero => exact Nat.zero_le _
  | succ n =>
    obtain ⟨w, hw, -, hlt⟩ := h.covers n (by omega)
    exact hlt.trans_le (hflush.le_reach.2 w hw)

end Transcribes

/-- **The assembled transcript.** Windows of distinct words are assembled to these words, each once
and in order, if and only if no window reaches back beyond the end of the one two before it, and
none ends before the one before it. -/
theorem assembles_iff {b : TranscriptBuffer} {spoken : List Text} {windows : List Window}
    (h : Transcribes b spoken windows) (hdistinct : spoken.Nodup) :
    b.assembleContiguous.words = spoken ↔ Flush 0 0 windows := by
  have hiff := Overlap.flatten_pieces_iff hdistinct (Nat.le_refl 0) (Nat.zero_le _) h.chained
  rw [words_assembleContiguous, h.texts]
  exact hiff.trans (and_iff_left_of_imp h.reach_eq)

/-- A buffer with the default configuration and nothing in it. -/
def emptyBuffer : TranscriptBuffer where
  maxChunks := 100
  windowMs := 500
  overlapMs := 125
  segments := []
  nextSequence := 1
  ordered := List.Pairwise.nil
  bounded := Nat.zero_le _

/-- Three windows that arrive out of order, each with a word of the one before it. -/
def greetingBuffer : TranscriptBuffer :=
  ((emptyBuffer.addChunk "world again".toList 200).addChunk "hello world".toList 100).addChunk
    "again soon".toList 300

theorem transcribes_greeting :
    Transcribes greetingBuffer
      ["hello".toList, "world".toList, "again".toList, "soon".toList] [⟨0, 2⟩, ⟨1, 3⟩, ⟨2, 4⟩] where
  texts := by decide
  within := by decide
  inOrder := by decide
  contiguous := by simp
  covers := by decide

theorem assembles_greeting :
    greetingBuffer.assembleContiguous.words =
      ["hello".toList, "world".toList, "again".toList, "soon".toList] :=
  (assembles_iff transcribes_greeting (by decide)).mpr (by decide)

/-- Three windows of three words, each with two words of the one before it. -/
def crowdedBuffer : TranscriptBuffer :=
  ((emptyBuffer.addChunk "call me now".toList 0).addChunk "me now please".toList 250).addChunk
    "now please thanks".toList 500

theorem transcribes_crowded :
    Transcribes crowdedBuffer
      ["call".toList, "me".toList, "now".toList, "please".toList, "thanks".toList]
      [⟨0, 3⟩, ⟨1, 4⟩, ⟨2, 5⟩] where
  texts := by decide
  within := by decide
  inOrder := by decide
  contiguous := by simp
  covers := by decide

/-- The second window adds one word, and the third is compared with nothing else. -/
theorem not_assembles :
    ¬ ∀ (b : TranscriptBuffer) (spoken : List Text) (windows : List Window),
      Transcribes b spoken windows → spoken.Nodup → b.assembleContiguous.words = spoken := by
  intro h
  exact absurd (h _ _ _ transcribes_crowded (by decide)) (by decide)

end AnonReq.Voice
