import AnonReq.Foundation.RegexSplit

/-!
# Chunks of a document

`rag/ingest.py`: a document is split at paragraphs, at sentences or at a number of words, and a
chunk that has too many words is split at the number of words once more.

* `parts_words`: what a boundary takes is space, so that the parts of a text have its words.
* `chunkByTokenCount_spec`: the windows of a text have its words, and none has too many.
* `chunk_conserves_words`: the chunks of a text have its words in their order, none is empty, and
  none has too many words.
-/

namespace AnonReq.Rag

open Regex Text

/-! ### The model -/

/-- `_SENTENCE_BOUNDARY`. -/
def sentenceBoundary : Regex Char :=
  seqs [.test fun before _ => before.any fun c => ".!?".toList.contains c,
    atLeast 1 (.one isSpace),
    .test fun _ after => after.any fun c => c.isUpper || "\"'(".toList.contains c]

/-- `_PARAGRAPH_BOUNDARY`. -/
def paragraphBoundary : Regex Char :=
  seqs [.one fun c => c == '\n', atLeast 0 (.one isSpace), .one fun c => c == '\n']

/-- `range(0, length, step)`, or the text of its `ValueError`. -/
def rangeTo (length : ℕ) (step : ℤ) : Except String (List ℕ) :=
  if step = 0 then .error "range() arg 3 must not be zero"
  else if step < 0 then .ok []
  else .ok (List.range' 0 ((length + step.toNat - 1) / step.toNat) step.toNat)

/-- The parts of a text between the matches of a boundary: what is left of them when they are
stripped. -/
def parts (boundary : Regex Char) (text : Text) : List Text :=
  ((boundary.split none 0 text.strip).filter fun p => !(strip p).isEmpty).map strip

/-- `DocumentChunker`. -/
structure DocumentChunker where
  maxChunkSize : ℤ := 500

namespace DocumentChunker

/-- `chunk_by_paragraphs`. -/
def chunkByParagraphs (text : Text) : List Text := parts paragraphBoundary text

/-- `chunk_by_sentences`. -/
def chunkBySentences (text : Text) : List Text := parts sentenceBoundary text

variable (chunker : DocumentChunker)

/-- `chunk_by_token_count`. -/
def chunkByTokenCount (text : Text) : Except String (List Text) := do
  let starts ← rangeTo text.words.length chunker.maxChunkSize
  return starts.map fun i => joinWords ((text.words.drop i).take chunker.maxChunkSize.toNat)

/-- `_split_oversized`. -/
def splitOversized (text : Text) : Except String (List Text) :=
  if (text.words.length : ℤ) ≤ chunker.maxChunkSize then .ok [text]
  else chunker.chunkByTokenCount text

/-- The loop of `chunk`: `result.extend(self._split_oversized(chunk))`. -/
def extendAll : List Text → Except String (List Text)
  | [] => .ok []
  | chunk :: chunks => do
    let pieces ← chunker.splitOversized chunk
    let result ← extendAll chunks
    return pieces ++ result

/-- The branches of `chunk`; another method is taken for paragraphs. -/
def chunkBy (text : Text) (method : String) : Except String (List Text) :=
  if method = "paragraph" then .ok (chunkByParagraphs text)
  else if method = "sentence" then .ok (chunkBySentences text)
  else if method = "token_count" then chunker.chunkByTokenCount text
  else .ok (chunkByParagraphs text)

/-- `DocumentChunker.chunk`. -/
def chunk (text : Text) (method : String := "paragraph") : Except String (List Text) :=
  if text.isEmpty || text.strip.isEmpty then .ok []
  else do
    let chunks ← chunker.chunkBy text method
    chunker.extendAll chunks

end DocumentChunker

/-! ### Parts -/

theorem within_sentenceBoundary : sentenceBoundary.Within isSpace :=
  ⟨trivial, fun _ hc => hc, trivial, trivial⟩

theorem within_paragraphBoundary : paragraphBoundary.Within isSpace := by
  have hline : ∀ c : Char, (c == '\n') = true → isSpace c = true := fun c hc => by
    rw [beq_iff_eq.mp hc]
    decide
  exact ⟨hline, fun _ hc => hc, hline, trivial⟩

/-- A part that is left out has no words. -/
theorem flatMap_words_map_strip (pieces : List Text) :
    ((pieces.filter fun p => !p.strip.isEmpty).map strip).flatMap words = pieces.flatMap words := by
  induction pieces with
  | nil => rfl
  | cons p pieces ih =>
    by_cases hp : p.strip = []
    · have hnone : p.words = [] := by rw [← words_strip, hp]; rfl
      rw [List.filter_cons_of_neg (by simp [hp]), ih, List.flatMap_cons, hnone, List.nil_append]
    · rw [List.filter_cons_of_pos (by simpa using hp), List.map_cons, List.flatMap_cons, ih,
        words_strip, List.flatMap_cons]

/-- **The parts of a text have its words**, if the boundary takes space only. -/
theorem parts_words {boundary : Regex Char} (h : boundary.Within isSpace) (text : Text) :
    (parts boundary text).flatMap words = text.words := by
  have hparted := (parted_split h none 0 text.strip).words_eq
  rw [List.drop_zero] at hparted
  rw [parts, flatMap_words_map_strip, ← words_strip text]
  exact hparted

theorem ne_nil_of_mem_parts {boundary : Regex Char} {text p : Text} (h : p ∈ parts boundary text) :
    p ≠ [] := by
  obtain ⟨q, hq, rfl⟩ := List.mem_map.mp h
  simpa using (List.mem_filter.mp hq).2

/-! ### Windows -/

/-- Windows one after the other are one long window. -/
theorem flatMap_windows {α : Type*} (l : List α) (size start count : ℕ) :
    ((List.range' start count size).flatMap fun i => (l.drop i).take size) =
      (l.drop start).take (count * size) := by
  induction count generalizing start with
  | zero => rw [Nat.zero_mul, List.take_zero, List.range'_zero, List.flatMap_nil]
  | succ count ih =>
    rw [List.range'_succ, List.flatMap_cons, ih, Nat.succ_mul, Nat.add_comm (count * size),
      List.take_add, List.drop_drop]

/-- The windows of a list begin within it. -/
theorem lt_of_mem_range' {length size i : ℕ} (hsize : 1 ≤ size)
    (hi : i ∈ List.range' 0 ((length + size - 1) / size) size) : i < length := by
  obtain ⟨k, hk, rfl⟩ := List.mem_range'.mp hi
  have hle := (Nat.le_div_iff_mul_le hsize).mp hk
  rw [Nat.succ_mul, Nat.mul_comm] at hle
  omega

/-- There are enough windows. -/
theorem le_windows (length : ℕ) {size : ℕ} (hsize : 1 ≤ size) :
    length ≤ (length + size - 1) / size * size := by
  have hdiv := Nat.div_add_mod (length + size - 1) size
  have hmod := Nat.mod_lt (length + size - 1) hsize
  rw [Nat.mul_comm] at hdiv
  omega

namespace DocumentChunker

/-- The chunks have the words of a text; none is empty, and none has too many words. -/
structure Chunked (chunker : DocumentChunker) (expected : List Text) (chunks : List Text) :
    Prop where
  words_eq : chunks.flatMap words = expected
  ne_nil : ∀ c ∈ chunks, c ≠ []
  length_le : ∀ c ∈ chunks, (c.words.length : ℤ) ≤ chunker.maxChunkSize

variable {chunker : DocumentChunker}

theorem Chunked.append {expected expected' chunks chunks' : List Text}
    (h : chunker.Chunked expected chunks) (h' : chunker.Chunked expected' chunks') :
    chunker.Chunked (expected ++ expected') (chunks ++ chunks') where
  words_eq := by rw [List.flatMap_append, h.words_eq, h'.words_eq]
  ne_nil c hc := (List.mem_append.mp hc).elim (h.ne_nil c) (h'.ne_nil c)
  length_le c hc := (List.mem_append.mp hc).elim (h.length_le c) (h'.length_le c)

/-- **Windows of words.** -/
theorem chunkByTokenCount_spec (hsize : 1 ≤ chunker.maxChunkSize) (text : Text) :
    ∃ chunks, chunker.chunkByTokenCount text = .ok chunks ∧
      chunker.Chunked text.words chunks := by
  obtain ⟨size, hmax⟩ := Int.eq_ofNat_of_zero_le (by omega : 0 ≤ chunker.maxChunkSize)
  have hpos : 1 ≤ size := by omega
  have hstarts : rangeTo text.words.length chunker.maxChunkSize =
      .ok (List.range' 0 ((text.words.length + size - 1) / size) size) := by
    rw [rangeTo, if_neg (by omega), if_neg (by omega), hmax, Int.toNat_natCast]
  refine ⟨_, by rw [chunkByTokenCount, hstarts]; rfl, ?_⟩
  rw [hmax, Int.toNat_natCast]
  -- the words of a window are the words it was joined from
  have hwindow : ∀ i, (joinWords ((text.words.drop i).take size)).words =
      (text.words.drop i).take size := fun i =>
    words_joinWords_of_subset fun w hw => List.mem_of_mem_drop (List.mem_of_mem_take hw)
  refine ⟨?_, List.forall_mem_map.mpr fun i hi hnil => ?_, List.forall_mem_map.mpr fun i _ => ?_⟩
  · rw [List.flatMap_map, List.flatMap_congr fun i _ => hwindow i, flatMap_windows, List.drop_zero]
    exact List.take_of_length_le (le_windows _ hpos)
  · -- a window begins before the end of the text, so that it has a word
    have hlt := lt_of_mem_range' hpos hi
    have hlength := congrArg List.length (hwindow i)
    rw [hnil, List.length_take, List.length_drop] at hlength
    have hzero : (words []).length = 0 := rfl
    omega
  · rw [hwindow, List.length_take, hmax]
    omega

theorem splitOversized_spec (hsize : 1 ≤ chunker.maxChunkSize) {text : Text} (htext : text ≠ []) :
    ∃ chunks, chunker.splitOversized text = .ok chunks ∧ chunker.Chunked text.words chunks := by
  by_cases hlength : (text.words.length : ℤ) ≤ chunker.maxChunkSize
  · refine ⟨[text], by rw [splitOversized, if_pos hlength], ?_⟩
    exact ⟨List.flatMap_singleton _ _, List.forall_mem_singleton.mpr htext,
      List.forall_mem_singleton.mpr hlength⟩
  · obtain ⟨chunks, hchunks, hchunked⟩ := chunkByTokenCount_spec hsize text
    exact ⟨chunks, by rw [splitOversized, if_neg hlength, hchunks], hchunked⟩

theorem extendAll_spec (hsize : 1 ≤ chunker.maxChunkSize) {chunks : List Text}
    (hchunks : ∀ c ∈ chunks, c ≠ []) :
    ∃ result, chunker.extendAll chunks = .ok result ∧
      chunker.Chunked (chunks.flatMap words) result := by
  induction chunks with
  | nil =>
    exact ⟨[], rfl, rfl, fun _ hc => absurd hc List.not_mem_nil,
      fun _ hc => absurd hc List.not_mem_nil⟩
  | cons c chunks ih =>
    obtain ⟨hc, hrest⟩ := List.forall_mem_cons.mp hchunks
    obtain ⟨pieces, hpieces, hsplit⟩ := splitOversized_spec hsize hc
    obtain ⟨result, hresult, hall⟩ := ih hrest
    exact ⟨pieces ++ result, by rw [extendAll, hpieces, hresult]; rfl, hsplit.append hall⟩

/-- **Whatever the method**, the first splitter has the words of the text and no empty chunk. -/
theorem chunkBy_spec (hsize : 1 ≤ chunker.maxChunkSize) (text : Text) (method : String) :
    ∃ chunks, chunker.chunkBy text method = .ok chunks ∧ chunks.flatMap words = text.words ∧
      ∀ c ∈ chunks, c ≠ [] := by
  have hparagraphs := parts_words within_paragraphBoundary text
  have hsentences := parts_words within_sentenceBoundary text
  unfold chunkBy
  split_ifs
  · exact ⟨_, rfl, hparagraphs, fun c hc => ne_nil_of_mem_parts hc⟩
  · exact ⟨_, rfl, hsentences, fun c hc => ne_nil_of_mem_parts hc⟩
  · obtain ⟨chunks, hchunks, hchunked⟩ := chunkByTokenCount_spec hsize text
    exact ⟨chunks, hchunks, hchunked.words_eq, hchunked.ne_nil⟩
  · exact ⟨_, rfl, hparagraphs, fun c hc => ne_nil_of_mem_parts hc⟩

/-! ### The chunks of a document -/

/-- **Chunks conserve words.** Whatever the method, the chunks of a text have its words in their
order, none of them is empty, and none has more words than it may. -/
theorem chunk_conserves_words (hsize : 1 ≤ chunker.maxChunkSize) (text : Text) (method : String) :
    ∃ chunks, chunker.chunk text method = .ok chunks ∧
      chunks.flatMap words = text.words ∧
      ∀ c ∈ chunks, c ≠ [] ∧ (c.words.length : ℤ) ≤ chunker.maxChunkSize := by
  by_cases hblank : (text.isEmpty || text.strip.isEmpty) = true
  · refine ⟨[], by rw [chunk, if_pos hblank], ?_, fun c hc => absurd hc List.not_mem_nil⟩
    have hstrip : text.strip = [] := by
      obtain htext | hstrip := Bool.or_eq_true_iff.mp hblank
      · rw [List.isEmpty_iff.mp htext]
        rfl
      · exact List.isEmpty_iff.mp hstrip
    rw [← words_strip, hstrip]
    rfl
  · obtain ⟨chunks, hchunks, hwords, hne⟩ := chunkBy_spec hsize text method
    obtain ⟨result, hresult, hchunked⟩ := extendAll_spec hsize hne
    refine ⟨result, ?_, hwords ▸ hchunked.words_eq, fun c hc =>
      ⟨hchunked.ne_nil c hc, hchunked.length_le c hc⟩⟩
    rw [chunk, if_neg hblank, hchunks]
    exact hresult

theorem chunk_conserves_words_pairs :
    ∃ chunks, chunk ⟨2⟩ "One two three. Four!\n \nFive".toList "sentence" = .ok chunks ∧
      chunks.flatMap words = words "One two three. Four!\n \nFive".toList ∧
      ∀ c ∈ chunks, c ≠ [] ∧ (c.words.length : ℤ) ≤ 2 :=
  have hsize : 1 ≤ (⟨2⟩ : DocumentChunker).maxChunkSize := by decide
  chunk_conserves_words hsize "One two three. Four!\n \nFive".toList "sentence"

end DocumentChunker

end AnonReq.Rag
