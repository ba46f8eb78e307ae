import AnonReq.Providers.StreamChunks
import AnonReq.Streaming.EventOrder

/-!
# Streams with several choices

The chunks of a completion with several choices, from `_parse_chunk` (`providers/openai.py`) through
`stream_generator` (`routing/chat.py`) to the frames of `SSEEmitter.emit`. The events do not say
which choice they belong to, one buffer holds the text of all, the first finish ends the stream, and
every frame is one of choice 0.

* `contents_streamGenerator_emissions`: the contents up to the first finish are what the buffer
  gives out, restored.
* `separated_iff`: two choices are never kept separate; where every cut of the text is clean, a
  single one is exactly if no tool call of it puts anything into its contents.
* `not_separated`: two choices arrive as one text, which ends with the first of them.
-/

namespace AnonReq.Streaming

open Providers Providers.OpenAIAdapter
open Providers.OpenAIAdapter.ChoiceChunk
  (deltaEvents eventTexts_deltaEvents map_toStreamEvent_deltas)

/-! ### What a client has to get -/

/-- Where the index of the choice stands in a payload. -/
def choicePath : List Key := [.name "choices".toList, .index 0, .name "index".toList]

/-- The choice of a frame, if it is the frame of one. -/
def Frame.choice (frame : Frame) : Option ℤ :=
  match frame.payload.bind fun payload => payload.readPath choicePath with
  | some (.int index) => some index
  | _ => none

/-- The frame carries a reason to finish. -/
def Frame.isFinish : Frame → Bool
  | .finish _ => true
  | _ => false

/-- The text of the content frames of one choice. -/
def contentsOf (i : ℕ) (frames : List Frame) : Text :=
  contents (frames.filter fun frame => frame.choice = some (i : ℤ))

variable {toInt : Json → Option ℤ}

/-- The choices of some chunks. -/
def choicesOf (chunks : List (Chunk toInt)) : List (ChoiceChunk toInt) :=
  chunks.flatMap Chunk.choices

/-- The chunks of one choice. -/
def ofChoice (i : ℕ) (chunks : List (Chunk toInt)) : List (ChoiceChunk toInt) :=
  (choicesOf chunks).filter fun c => c.index = i

/-- The text of one choice. -/
def choiceText (i : ℕ) (chunks : List (Chunk toInt)) : Text :=
  (ofChoice i chunks).flatMap ChoiceChunk.text

/-- The chunks interleave `n` choices, each of which ends with its own finish. -/
structure Interleaves (n : ℕ) (chunks : List (Chunk toInt)) : Prop where
  index_lt : ∀ c ∈ choicesOf chunks, c.index < n
  ends : ∀ i < n, ∃ deltas last, ofChoice i chunks = deltas ++ [last] ∧ last.Finishes ∧
    ∀ c ∈ deltas, ¬ c.Finishes

/-- The events of the provider as they arrive while the client is there. -/
structure Arrives (events : List ProviderEvent) (arrivals : List Arrival) : Prop where
  events_eq : arrivals.map Arrival.event = events.map ProviderEvent.toStreamEvent
  connected : ∀ a ∈ arrivals, a.disconnected = false

/-- Each choice has its own text, restored and complete before its own finish, which the stream
waits for. -/
def Separated (u : Unicode) (lookup : List (Text × Text)) (n : ℕ) (chunks : List (Chunk toInt))
    (frames : List Frame) : Prop :=
  ∀ i < n, ∃ before finish after, frames = before ++ finish :: after ∧
    finish.isFinish = true ∧ finish.choice = some (i : ℤ) ∧
    contentsOf i before = restoreText u lookup (choiceText i chunks) ∧ contentsOf i after = []

/-! ### What the generator gives -/

variable {u : Unicode} {dumpJson : ToolCallDelta → Text} {lookup : List (Text × Text)}

/-- Every frame of a choice is one of choice 0. -/
theorem choice_eq_zero {frame : Frame} {i : ℤ} (h : frame.choice = some i) : i = 0 := by
  cases frame with
  | content text => exact (Option.some.inj h).symm
  | finish reason => exact (Option.some.inj h).symm
  | error message type => exact absurd h (Option.some_ne_none _).symm
  | empty => exact (Option.some.inj h).symm
  | done => exact absurd h (Option.some_ne_none _).symm

/-- So all contents are those of choice 0. -/
theorem contentsOf_zero (frames : List Frame) : contentsOf 0 frames = contents frames := by
  induction frames with
  | nil => rfl
  | cons frame frames ih =>
    unfold contentsOf at ih ⊢
    have hsplit : ∀ rest, contents (frame :: rest) = contents [frame] ++ contents rest :=
      fun rest => contents_append [frame] rest
    by_cases hchoice : frame.choice = some ((0 : ℕ) : ℤ)
    · rw [List.filter_cons_of_pos (by simpa using hchoice), hsplit, ih, ← hsplit]
    · have hempty : contents [frame] = [] := by
        cases frame with
        | content text => exact absurd rfl hchoice
        | finish reason => rfl
        | error message type => rfl
        | empty => rfl
        | done => rfl
      rw [List.filter_cons_of_neg (by simpa using hchoice), ih, hsplit, hempty, List.nil_append]

/-- What the buffer gives out while events arrive, and what is left in it. -/
def emissions (u : Unicode) (dumpJson : ToolCallDelta → Text) :
    TailBuffer → List Arrival → List Text
  | b, [] => [b.activeBuffer]
  | b, a :: arrivals =>
    (b.ingest u dumpJson a.event a.clock).1 ++
      emissions u dumpJson (b.ingest u dumpJson a.event a.clock).2 arrivals

/-- The frames of some chunks of the buffer. -/
theorem contents_chunkFrames_eq (chunks : List Text) :
    contents (chunkFrames u lookup chunks) = chunks.flatMap (restoreText u lookup) := by
  induction chunks with
  | nil => rfl
  | cons chunk chunks ih =>
    have hsplit : chunkFrames u lookup (chunk :: chunks) =
        chunkFrames u lookup [chunk] ++ chunkFrames u lookup chunks :=
      List.filterMap_append (l := [chunk])
    rw [hsplit, contents_append, contents_chunkFrames, ih, List.flatMap_cons]

/-- One event of a stream that goes on. -/
theorem forward_cons {a : Arrival} (h : a.IsStreamed) (ending : Ending) (b : TailBuffer)
    (rest : List Arrival) :
    forward u dumpJson lookup ending b (a :: rest) =
      (chunkFrames u lookup (b.ingest u dumpJson a.event a.clock).1 ++
          (forward u dumpJson lookup ending (b.ingest u dumpJson a.event a.clock).2 rest).1,
        (forward u dumpJson lookup ending (b.ingest u dumpJson a.event a.clock).2 rest).2) := by
  obtain ⟨hconnected, htype | htype | htype | htype⟩ := h
  · simp only [forward, hconnected, htype, Bool.false_eq_true, if_false]
  · simp only [forward, hconnected, htype, Bool.false_eq_true, if_false]
  · simp only [forward, hconnected, htype, Bool.false_eq_true, if_false]
  · simp only [forward, hconnected, htype, Bool.false_eq_true, if_false]

/-- **A run.** The contents are what the buffer gives out, restored piece by piece, and the frames
end with those of the first finish. -/
theorem forward_finish {arrivals after : List Arrival} {finishing : Arrival} {ending : Ending}
    (hevents : ∀ a ∈ arrivals, a.IsStreamed) (hfinish : finishing.event.eventType = .finish)
    (hconnected : finishing.disconnected = false) (b : TailBuffer) :
    ∃ frames, forward u dumpJson lookup ending b (arrivals ++ finishing :: after) =
        (frames ++ [emit finishing.event], .finish) ∧
      contents frames = (emissions u dumpJson b arrivals).flatMap (restoreText u lookup) := by
  induction arrivals generalizing b with
  | nil =>
    refine ⟨remainingFrames u lookup b, ?_, ?_⟩
    · simp only [List.nil_append, forward, hconnected, hfinish, Bool.false_eq_true, if_false]
    · rw [contents_remainingFrames, emissions, List.flatMap_singleton]
  | cons a arrivals ih =>
    obtain ⟨ha, hevents⟩ := List.forall_mem_cons.mp hevents
    obtain ⟨frames, hrun, hcontents⟩ := ih hevents (b.ingest u dumpJson a.event a.clock).2
    refine ⟨chunkFrames u lookup (b.ingest u dumpJson a.event a.clock).1 ++ frames, ?_, ?_⟩
    · rw [List.cons_append, forward_cons ha, hrun, List.append_assoc]
    · rw [contents_append, contents_chunkFrames_eq, hcontents, emissions, List.flatMap_append]

/-- **A stream up to its first finish**: the contents, the finish, and the closing. -/
theorem contents_streamGenerator_emissions (u : Unicode) (dumpJson : ToolCallDelta → Text)
    (mapping : SessionMapping) (started : ℚ) {arrivals after : List Arrival} {finishing : Arrival}
    (ending : Ending) (audited : Bool) (hevents : ∀ a ∈ arrivals, a.IsStreamed)
    (hfinish : finishing.event.eventType = .finish) (hconnected : finishing.disconnected = false) :
    ∃ frames closing,
      streamGenerator u dumpJson mapping started (arrivals ++ finishing :: after) ending audited =
        frames ++ emit finishing.event :: closing ∧
      contents frames = (emissions u dumpJson (TailBuffer.create started) arrivals).flatMap
        (restoreText u (coreTable u mapping)) ∧
      contents closing = [] := by
  obtain ⟨frames, hrun, hcontents⟩ := @forward_finish u dumpJson (coreTable u mapping) arrivals
    after finishing ending hevents hfinish hconnected (TailBuffer.create started)
  refine ⟨frames, if audited then [.done] else [errorFrame "audit_error".toList], ?_, hcontents, ?_⟩
  · rw [streamGenerator, hrun, List.append_assoc]
    rfl
  · split_ifs <;> rfl

/-- What the tool calls among some arrivals put into the contents. -/
def callTexts (u : Unicode) (dumpJson : ToolCallDelta → Text) (lookup : List (Text × Text))
    (arrivals : List Arrival) : List Text :=
  (arrivals.filter fun a => a.event.eventType = .toolCallDelta).map fun a =>
    restoreText u lookup (TailBuffer.formatNonTextDelta dumpJson a.event)

/-- **Tool calls among the text.** What the buffer gives out are the pieces of the text, with the
texts of the tool calls somewhere between them. -/
theorem emissions_spec {arrivals : List Arrival} (hevents : ∀ a ∈ arrivals, a.IsStreamed)
    {b : TailBuffer} (hstate : b.state ≠ .terminated) :
    List.Sublist ((pieces u b (texts arrivals)).flatMap (restoreText u lookup))
        ((emissions u dumpJson b arrivals).flatMap (restoreText u lookup)) ∧
      ((emissions u dumpJson b arrivals).flatMap (restoreText u lookup)).length =
        ((pieces u b (texts arrivals)).flatMap (restoreText u lookup)).length +
          (callTexts u dumpJson lookup arrivals).flatten.length := by
  induction arrivals generalizing b with
  | nil => exact ⟨List.Sublist.refl _, rfl⟩
  | cons a arrivals ih =>
    obtain ⟨⟨hconnected, htype⟩, hevents⟩ := List.forall_mem_cons.mp hevents
    by_cases htext : a.event.eventType = .textDelta
    · have htexts : texts (a :: arrivals) = a :: texts arrivals :=
        List.filter_cons_of_pos (by simp [htext])
      have hcalls : callTexts u dumpJson lookup (a :: arrivals) =
          callTexts u dumpJson lookup arrivals := by simp [callTexts, htext]
      obtain ⟨hcollecting, -⟩ := TailBuffer.ingest_textDelta (u := u) dumpJson a.clock
        hstate htext (rfl : b.extended a.event = _)
      obtain ⟨hsub, hlength⟩ := ih hevents (b := (b.ingest u dumpJson a.event a.clock).2)
        (by rw [hcollecting]; decide)
      rw [htexts, hcalls, pieces_cons dumpJson hstate htext, emissions, List.flatMap_append,
        List.flatMap_append, List.length_append, List.length_append, hlength, Nat.add_assoc]
      exact ⟨hsub.append_left _, rfl⟩
    · have htexts : texts (a :: arrivals) = texts arrivals :=
        List.filter_cons_of_neg (by simp [htext])
      obtain ⟨hsub, hlength⟩ := ih hevents hstate
      rw [htexts, emissions]
      by_cases hcall : a.event.eventType = .toolCallDelta
      · -- the text of the call is given out at once, and the buffer stays as it is
        have hingest : (b.ingest u dumpJson a.event a.clock).1.flatMap (restoreText u lookup) =
            restoreText u lookup (TailBuffer.formatNonTextDelta dumpJson a.event) ∧
              (b.ingest u dumpJson a.event a.clock).2 = b := by
          rw [TailBuffer.ingest, if_neg hstate, if_pos htext]
          dsimp only
          refine ⟨?_, rfl⟩
          split_ifs with hempty
          · rw [List.isEmpty_iff.mp hempty]
            rfl
          · exact List.flatMap_singleton _ _
        have hcalls : callTexts u dumpJson lookup (a :: arrivals) =
            restoreText u lookup (TailBuffer.formatNonTextDelta dumpJson a.event) ::
              callTexts u dumpJson lookup arrivals := by simp [callTexts, hcall]
        rw [hcalls, List.flatMap_append, hingest.1, hingest.2, List.flatten_cons,
          List.length_append, List.length_append, hlength]
        exact ⟨hsub.trans (List.sublist_append_right _ _), by omega⟩
      · have hcalls : callTexts u dumpJson lookup (a :: arrivals) =
            callTexts u dumpJson lookup arrivals := by simp [callTexts, hcall]
        rw [ingest_silent ((htype.resolve_left htext).resolve_left hcall), List.nil_append, hcalls]
        exact ⟨hsub, hlength⟩

/-! ### The events of the choices -/

/-- The events that are no finish. -/
def StreamEvent.IsDelta (event : StreamEvent) : Prop :=
  event.eventType = .textDelta ∨ event.eventType = .toolCallDelta ∨ event.eventType = .start

theorem isDelta_of_mem_deltaEvents {c : ChoiceChunk toInt} {event : StreamEvent}
    (h : event ∈ deltaEvents c) : event.IsDelta := by
  unfold deltaEvents at h
  obtain h | h := List.mem_append.mp h
  · obtain h | h := List.mem_append.mp h
    · split_ifs at h
      · exact Or.inr (Or.inr (List.mem_singleton.mp h ▸ rfl))
      · exact absurd h List.not_mem_nil
    · by_cases htext : c.text = []
      · exact absurd (if_neg (not_not.mpr htext) ▸ h) List.not_mem_nil
      · exact Or.inl (List.mem_singleton.mp (if_pos htext ▸ h) ▸ rfl)
  · obtain ⟨toolCall, -, rfl⟩ := List.mem_map.mp h
    exact Or.inr (Or.inl rfl)

/-- The tool calls of a chunk among its events. -/
theorem mem_deltaEvents_toolCall_iff {c : ChoiceChunk toInt} {event : StreamEvent} :
    event ∈ deltaEvents c ∧ event.eventType = .toolCallDelta ↔
      ∃ call ∈ c.calls, { eventType := .toolCallDelta, toolCall := some call } = event := by
  unfold deltaEvents
  rw [List.mem_append, List.mem_append, List.mem_map]
  constructor
  · rintro ⟨(h | h) | h, htype⟩
    · split_ifs at h
      · rw [List.mem_singleton.mp h] at htype
        exact absurd htype (by decide)
      · exact absurd h List.not_mem_nil
    · by_cases htext : c.text = []
      · exact absurd (if_neg (not_not.mpr htext) ▸ h) List.not_mem_nil
      · obtain rfl := List.mem_singleton.mp (if_pos htext ▸ h)
        exact absurd htype (by simp)
    · exact h
  · rintro ⟨call, hcall, rfl⟩
    exact ⟨Or.inr ⟨call, hcall, rfl⟩, rfl⟩

theorem textOf_texts (arrivals : List Arrival) :
    textOf (texts arrivals) = eventTexts (arrivals.map Arrival.event) := by
  rw [textOf, texts, eventTexts, List.filter_map, List.flatMap_map]
  rfl

theorem eventTexts_flatMap (choices : List (ChoiceChunk toInt)) :
    eventTexts (choices.flatMap deltaEvents) = choices.flatMap ChoiceChunk.text := by
  induction choices with
  | nil => rfl
  | cons c choices ih =>
    rw [List.flatMap_cons, eventTexts_append, eventTexts_deltaEvents, ih, List.flatMap_cons]

/-- What the stream reads of the events of some chunks. -/
theorem map_toStreamEvent_eventsOf (chunks : List (Chunk toInt)) :
    (eventsOf (parseChunk toInt) (chunks.map Chunk.data)).1.map ProviderEvent.toStreamEvent =
      (choicesOf chunks).flatMap fun c =>
        deltaEvents c ++ if c.Finishes then [c.finish.toStreamEvent] else [] := by
  have hchoice : ∀ (data : Json) (c : ChoiceChunk toInt),
      (c.events data).map ProviderEvent.toStreamEvent =
        deltaEvents c ++ if c.Finishes then [c.finish.toStreamEvent] else [] := by
    intro data c
    rw [ChoiceChunk.events, List.map_append, map_toStreamEvent_deltas]
    split_ifs <;> rfl
  rw [eventsOf_parseChunk, choicesOf, List.map_flatMap, List.flatMap_assoc]
  simp only [List.map_flatMap, hchoice]

/-! ### One choice and several -/

/-- The arrivals before the first finish. -/
def beforeFinish (arrivals : List Arrival) : List Arrival :=
  arrivals.takeWhile fun a => a.event.eventType ≠ .finish

/-- What the buffer gives out of some arrivals, restored piece by piece, is the restored text. -/
def RestoresText (u : Unicode) (dumpJson : ToolCallDelta → Text) (lookup : List (Text × Text))
    (b : TailBuffer) (arrivals : List Arrival) (text : Text) : Prop :=
  (emissions u dumpJson b arrivals).flatMap (restoreText u lookup) = restoreText u lookup text

variable {chunks : List (Chunk toInt)} {arrivals : List Arrival}

theorem arrivals_eq_nil (h : Interleaves 0 chunks)
    (harrives : Arrives (eventsOf (parseChunk toInt) (chunks.map Chunk.data)).1 arrivals) :
    arrivals = [] ∧ choicesOf chunks = [] := by
  have hnone : choicesOf chunks = [] := by
    refine List.eq_nil_iff_forall_not_mem.mpr fun c hc => ?_
    exact absurd (h.index_lt c hc) (Nat.not_lt_zero _)
  have hevents := harrives.events_eq
  rw [map_toStreamEvent_eventsOf, hnone] at hevents
  exact ⟨List.map_eq_nil_iff.mp hevents, hnone⟩

theorem ofChoice_zero (h : Interleaves 1 chunks) : ofChoice 0 chunks = choicesOf chunks :=
  List.filter_eq_self.mpr fun c hc => decide_eq_true (Nat.lt_one_iff.mp (h.index_lt c hc))

/-- **The events of a single choice**: its deltas, and one finish at the end. -/
theorem arrivals_eq_append (h : Interleaves 1 chunks)
    (harrives : Arrives (eventsOf (parseChunk toInt) (chunks.map Chunk.data)).1 arrivals) :
    ∃ finishing, arrivals = beforeFinish arrivals ++ [finishing] ∧
      finishing.event.eventType = .finish ∧ finishing.disconnected = false ∧
      (beforeFinish arrivals).map Arrival.event = (choicesOf chunks).flatMap deltaEvents := by
  obtain ⟨deltas, last, hsplit, hlast, hdeltas⟩ := h.ends 0 Nat.one_pos
  rw [ofChoice_zero h] at hsplit
  -- only the last of the chunks finishes the choice
  have hevents : arrivals.map Arrival.event =
      (choicesOf chunks).flatMap deltaEvents ++ [last.finish.toStreamEvent] := by
    have hfront : (deltas.flatMap fun c =>
        deltaEvents c ++ if c.Finishes then [c.finish.toStreamEvent] else []) =
          deltas.flatMap deltaEvents := by
      refine List.flatMap_congr fun c hc => ?_
      rw [if_neg (hdeltas c hc), List.append_nil]
    rw [harrives.events_eq, map_toStreamEvent_eventsOf, hsplit, List.flatMap_append, hfront,
      List.flatMap_append, List.flatMap_singleton, List.flatMap_singleton, if_pos hlast,
      List.append_assoc]
  obtain ⟨front, rest, rfl, hfront, hrest⟩ := List.map_eq_append_iff.mp hevents
  obtain ⟨finishing, rfl, hfinish⟩ := List.map_eq_singleton_iff.mp hrest
  have htype : finishing.event.eventType = .finish := by rw [hfinish]; rfl
  have hbefore : beforeFinish (front ++ [finishing]) = front := by
    have hnot : ∀ a ∈ front, a.event.eventType ≠ .finish := by
      intro a ha
      obtain ⟨c, -, hc⟩ := List.mem_flatMap.mp (hfront ▸ List.mem_map_of_mem ha)
      obtain htype | htype | htype := isDelta_of_mem_deltaEvents hc <;> rw [htype] <;> decide
    rw [beforeFinish, List.takeWhile_append_of_pos fun a ha => decide_eq_true (hnot a ha),
      List.takeWhile_cons_of_neg (by simp [htype]), List.append_nil]
  rw [hbefore]
  exact ⟨finishing, rfl, htype,
    harrives.connected finishing (List.mem_append_right _ List.mem_cons_self), hfront⟩

theorem isStreamed_of_mem_beforeFinish (hconnected : ∀ a ∈ arrivals, a.disconnected = false)
    (hevents : (beforeFinish arrivals).map Arrival.event = (choicesOf chunks).flatMap deltaEvents) :
    ∀ a ∈ beforeFinish arrivals, a.IsStreamed := by
  intro a ha
  obtain ⟨c, -, hc⟩ := List.mem_flatMap.mp (hevents ▸ List.mem_map_of_mem ha)
  refine ⟨hconnected a ((List.takeWhile_prefix _).subset ha), ?_⟩
  obtain htype | htype | htype := isDelta_of_mem_deltaEvents hc
  · exact Or.inl htype
  · exact Or.inr (Or.inl htype)
  · exact Or.inr (Or.inr (Or.inl htype))

theorem textOf_beforeFinish (h : Interleaves 1 chunks)
    (hevents : (beforeFinish arrivals).map Arrival.event = (choicesOf chunks).flatMap deltaEvents) :
    textOf (texts (beforeFinish arrivals)) = choiceText 0 chunks := by
  rw [textOf_texts, hevents, eventTexts_flatMap, choiceText, ofChoice_zero h]

/-- **A choice other than the first is never delivered.** -/
theorem le_one_of_separated {n : ℕ} {frames : List Frame} (h : Separated u lookup n chunks frames) :
    n ≤ 1 := by
  by_contra hn
  obtain ⟨before, finish, after, -, -, hchoice, -⟩ := h 1 (not_le.mp hn)
  exact absurd (choice_eq_zero hchoice) (by decide)

theorem contents_of_isFinish {frame : Frame} (h : frame.isFinish = true) :
    contents [frame] = [] := by
  cases frame with
  | finish reason => rfl
  | content text => exact absurd h Bool.false_ne_true
  | error message type => exact absurd h Bool.false_ne_true
  | empty => exact absurd h Bool.false_ne_true
  | done => exact absurd h Bool.false_ne_true

/-- A single choice has all the contents. -/
theorem contents_of_separated {frames : List Frame} (h : Separated u lookup 1 chunks frames) :
    contents frames = restoreText u lookup (choiceText 0 chunks) := by
  obtain ⟨before, finish, after, rfl, hfinish, -, hbefore, hafter⟩ := h 0 Nat.one_pos
  rw [contentsOf_zero] at hbefore hafter
  rw [List.append_cons, contents_append, contents_append, contents_of_isFinish hfinish, hbefore,
    hafter, List.append_nil, List.append_nil]

/-- **One choice.** -/
theorem separated_one_iff {mapping : SessionMapping} {started : ℚ} {ending : Ending}
    {audited : Bool} (h : Interleaves 1 chunks)
    (harrives : Arrives (eventsOf (parseChunk toInt) (chunks.map Chunk.data)).1 arrivals) :
    Separated u (coreTable u mapping) 1 chunks
        (streamGenerator u dumpJson mapping started arrivals ending audited) ↔
      RestoresText u dumpJson (coreTable u mapping) (TailBuffer.create started)
        (beforeFinish arrivals) (choiceText 0 chunks) := by
  obtain ⟨finishing, hsplit, hfinish, hconnected, hevents⟩ := arrivals_eq_append h harrives
  obtain ⟨frames, closing, hframes, hcontents, hclosing⟩ :=
    @contents_streamGenerator_emissions u dumpJson mapping started (beforeFinish arrivals) []
      finishing ending audited (isStreamed_of_mem_beforeFinish harrives.connected hevents) hfinish
      hconnected
  rw [← hsplit] at hframes
  constructor
  · -- the contents of all frames are those of choice 0
    intro hseparated
    have htotal := contents_of_separated hseparated
    rw [hframes, List.append_cons, contents_append, contents_append, contents_emit_finish hfinish,
      hclosing, hcontents, List.append_nil, List.append_nil] at htotal
    exact htotal
  · intro hrestores i hi
    obtain rfl := Nat.lt_one_iff.mp hi
    refine ⟨frames, emit finishing.event, closing, hframes, ?_, ?_, ?_, ?_⟩
    · simp [emit, hfinish, Frame.isFinish]
    · simp only [emit, hfinish]
      rfl
    · rw [contentsOf_zero, hcontents]
      exact hrestores
    · rw [contentsOf_zero, hclosing]

/-- If every cut is clean, the text of a single choice is restored exactly if nothing is left of the
texts of its tool calls. -/
theorem restoresText_iff {started : ℚ} (h : Interleaves 1 chunks)
    (harrives : Arrives (eventsOf (parseChunk toInt) (chunks.map Chunk.data)).1 arrivals)
    (hcuts : CutsSafe u dumpJson lookup (TailBuffer.create started)
      (texts (beforeFinish arrivals))) :
    RestoresText u dumpJson lookup (TailBuffer.create started) (beforeFinish arrivals)
        (choiceText 0 chunks) ↔
      ∀ c ∈ choicesOf chunks, ∀ call ∈ c.calls, restoreText u lookup (dumpJson call) = [] := by
  obtain ⟨-, -, -, -, hevents⟩ := arrivals_eq_append h harrives
  have hstreamed := isStreamed_of_mem_beforeFinish harrives.connected hevents
  have hstate : (TailBuffer.create started).state ≠ .terminated := by simp [TailBuffer.create]
  obtain ⟨hsub, hlength⟩ := @emissions_spec u dumpJson lookup _ hstreamed
    (TailBuffer.create started) hstate
  have hpieces : (pieces u (TailBuffer.create started) (texts (beforeFinish arrivals))).flatMap
      (restoreText u lookup) = restoreText u lookup (choiceText 0 chunks) := by
    rw [flatMap_restoreText_pieces (isText_of_mem_texts hstreamed) hstate hcuts,
      textOf_beforeFinish h hevents]
    rfl
  rw [hpieces] at hsub hlength
  -- the restored text is part of what is given out, so that its length decides
  have hempty : RestoresText u dumpJson lookup (TailBuffer.create started) (beforeFinish arrivals)
      (choiceText 0 chunks) ↔
        (callTexts u dumpJson lookup (beforeFinish arrivals)).flatten = [] := by
    rw [← List.length_eq_zero_iff]
    constructor
    · intro hrestores
      rw [hrestores] at hlength
      omega
    · intro hnone
      exact (hsub.eq_of_length (by omega)).symm
  have hmem : ∀ event, (∃ a ∈ beforeFinish arrivals, a.event = event) ↔
      ∃ c ∈ choicesOf chunks, event ∈ deltaEvents c := by
    intro event
    rw [← List.mem_map, hevents, List.mem_flatMap]
  rw [hempty, List.flatten_eq_nil_iff]
  constructor
  · intro hall c hc call hcall
    obtain ⟨hdelta, htype⟩ := mem_deltaEvents_toolCall_iff.mpr ⟨call, hcall, rfl⟩
    obtain ⟨a, ha, hevent⟩ := (hmem _).mpr ⟨c, hc, hdelta⟩
    have hnil := hall _ (List.mem_map_of_mem
      (List.mem_filter.mpr ⟨ha, decide_eq_true (hevent ▸ htype)⟩))
    rw [hevent] at hnil
    exact hnil
  · intro hall text htext
    obtain ⟨a, ha, rfl⟩ := List.mem_map.mp htext
    obtain ⟨ha, htype⟩ := List.mem_filter.mp ha
    obtain ⟨c, hc, hdelta⟩ := (hmem a.event).mp ⟨a, ha, rfl⟩
    obtain ⟨call, hcall, hevent⟩ :=
      mem_deltaEvents_toolCall_iff.mp ⟨hdelta, of_decide_eq_true htype⟩
    rw [← hevent]
    exact hall c hc call hcall

/-- **Streams with several choices.** Two choices are never kept separate. Where every cut of its
text is clean, a single one is, exactly if nothing is left of the JSON of its tool calls when it is
restored, as this goes into the contents as well. -/
theorem separated_iff (u : Unicode) (dumpJson : ToolCallDelta → Text) (mapping : SessionMapping)
    (started : ℚ) {n : ℕ} {chunks : List (Chunk toInt)} {arrivals : List Arrival}
    (ending : Ending) (audited : Bool) (h : Interleaves n chunks)
    (harrives : Arrives (eventsOf (parseChunk toInt) (chunks.map Chunk.data)).1 arrivals) :
    (1 < n → ¬ Separated u (coreTable u mapping) n chunks
        (streamGenerator u dumpJson mapping started arrivals ending audited)) ∧
      (n ≤ 1 → CutsSafe u dumpJson (coreTable u mapping) (TailBuffer.create started)
          (texts (beforeFinish arrivals)) →
        (Separated u (coreTable u mapping) n chunks
            (streamGenerator u dumpJson mapping started arrivals ending audited) ↔
          ∀ c ∈ choicesOf chunks, ∀ call ∈ c.calls,
            restoreText u (coreTable u mapping) (dumpJson call) = [])) := by
  refine ⟨fun hn hseparated => absurd (le_one_of_separated hseparated) (not_le.mpr hn),
    fun hn hcuts => ?_⟩
  obtain rfl | rfl := Nat.le_one_iff_eq_zero_or_eq_one.mp hn
  · obtain ⟨-, hnone⟩ := arrivals_eq_nil h harrives
    exact iff_of_true (fun i hi => absurd hi (Nat.not_lt_zero i))
      fun c hc => absurd (hnone ▸ hc) List.not_mem_nil
  · exact (separated_one_iff h harrives).trans (restoresText_iff h harrives hcuts)

/-- A single choice. -/
def singleChunks : List (Chunk fun _ => none) :=
  [oneChoice (deltaChoice 0 earlyText none), oneChoice (stopChoice 0)]

theorem interleaves_singleChunks : Interleaves 1 singleChunks where
  index_lt := by decide
  ends i hi := by
    obtain rfl := Nat.lt_one_iff.mp hi
    exact ⟨[deltaChoice 0 earlyText none], stopChoice 0, rfl, by decide, by decide⟩

set_option maxRecDepth 4000 in
theorem separated_singleChunks :
    Separated .ascii (coreTable .ascii mailMapping) 1 singleChunks
      (streamGenerator .ascii (fun _ => []) mailMapping 1 [textArrival earlyText, finishArrival]
        .exhausted true) := by
  obtain ⟨-, hone⟩ := @separated_iff _ .ascii (fun _ => []) mailMapping 1 1 singleChunks
    [textArrival earlyText, finishArrival] .exhausted true interleaves_singleChunks
    ⟨by decide +kernel, by decide⟩
  exact (hone le_rfl ⟨fun _ _ => by decide +kernel, trivial⟩).mpr (by decide)

/-- Two choices whose chunks alternate. -/
def twoChunks : List (Chunk fun _ => none) :=
  [oneChoice (deltaChoice 0 "Hi".toList none), oneChoice (deltaChoice 1 "Yo".toList none),
    oneChoice (stopChoice 0), oneChoice (stopChoice 1)]

/-- The events of the two choices. -/
def twoArrivals : List Arrival :=
  [textArrival "Hi".toList, textArrival "Yo".toList, finishArrival, finishArrival]

/-- **Two choices** arrive as one text of choice 0, and its finish is the end of both. -/
theorem not_separated :
    streamGenerator .ascii (fun _ => []) mailMapping 1 twoArrivals .exhausted true =
      [.content "HiYo".toList, .finish "stop".toList, .done] ∧
    ¬ ∀ (toInt : Json → Option ℤ) (u : Unicode) (dumpJson : ToolCallDelta → Text)
      (mapping : SessionMapping) (started : ℚ) (n : ℕ) (chunks : List (Chunk toInt))
      (arrivals : List Arrival) (ending : Ending) (audited : Bool), Interleaves n chunks →
      Arrives (eventsOf (parseChunk toInt) (chunks.map Chunk.data)).1 arrivals →
      Separated u (coreTable u mapping) n chunks
        (streamGenerator u dumpJson mapping started arrivals ending audited) := by
  constructor
  · decide +kernel
  · intro h
    have hinterleaves : Interleaves 2 twoChunks := by
      refine ⟨by decide, fun i hi => ?_⟩
      obtain rfl | rfl : i = 0 ∨ i = 1 := by omega
      · exact ⟨[deltaChoice 0 "Hi".toList none], stopChoice 0, rfl, by decide, by decide⟩
      · exact ⟨[deltaChoice 1 "Yo".toList none], stopChoice 1, rfl, by decide, by decide⟩
    have hseparated := h _ .ascii (fun _ => []) mailMapping 1 2 twoChunks twoArrivals .exhausted
      true hinterleaves ⟨by decide +kernel, by decide⟩
    exact absurd (le_one_of_separated hseparated) (by decide)

end AnonReq.Streaming
