import AnonReq.Foundation.Runs
import AnonReq.Streaming.Generator

/-!
# Reassembled text

The calls on one `TailBuffer` (`streaming/tail_buffer.py`), in any order. What the buffer gives back
for the text events and on `flush_remaining` is, in one piece, the text it was given. Its chunks end
where 128 characters were left, and a token may stand there.

* `reassembles`: after any calls, nothing is lost, duplicated or reordered, and the buffer is short
  or waits for the end of a token.
* `keepsTokens_iff`: a run splits no token exactly if no token stands across a place at which the
  buffer is cut.
* `not_keepsTokens`: a token across a cut is split.
-/

namespace AnonReq.Streaming

open Pattern

/-! ### Calls -/

/-- A call on a tail buffer. -/
inductive Call where
  | ingest (event : StreamEvent) (clock : Readings)
  | flushRemaining
  | terminate

/-- The text a call brings. -/
def Call.delta : Call → Text
  | .ingest event _ => if event.eventType = .textDelta then event.text else []
  | _ => []

/-- The texts that the calls bring before the buffer is terminated, in one piece. -/
def received : List Call → Text
  | [] => []
  | .terminate :: _ => []
  | c :: calls => c.delta ++ received calls

variable (u : Unicode) (dumpJson : ToolCallDelta → Text)

/-- What a call gives back of the text, and the buffer after it. The payloads of other events pass
by the buffer. -/
def TailBuffer.answer (b : TailBuffer) : Call → List Text × TailBuffer
  | .ingest event clock =>
    let ingested := b.ingest u dumpJson event clock
    (if event.eventType = .textDelta then ingested.1 else [], ingested.2)
  | .flushRemaining => ([b.flushRemaining.1], b.flushRemaining.2)
  | .terminate => ([], b.terminate)

/-- What calls give back, in their order, and the buffer after them. -/
def TailBuffer.answers : TailBuffer → List Call → List Text × TailBuffer
  | b, [] => ([], b)
  | b, c :: calls =>
    let first := b.answer u dumpJson c
    let rest := first.2.answers calls
    (first.1 ++ rest.1, rest.2)

/-- The buffer holds no more than the tail window, or ends in the beginning of a token. -/
def TailBuffer.Bounded (b : TailBuffer) : Prop :=
  b.activeBuffer.length ≤ tailWindowChars ∨
    (b.activeBuffer.length < maxBufferChars ∧ searchPartial u b.activeBuffer = true)

namespace TailBuffer

/-! ### Nothing is lost -/

/-- A terminated buffer gives back what it holds, and takes nothing in. -/
theorem flatten_answer_terminated {b : TailBuffer} (hstate : b.state = .terminated) (c : Call) :
    (b.answer u dumpJson c).2.state = .terminated ∧
      (b.answer u dumpJson c).1.flatten ++ (b.answer u dumpJson c).2.activeBuffer =
        b.activeBuffer := by
  cases c with
  | ingest event clock => simp [answer, ingest, hstate]
  | flushRemaining => simp [answer, flushRemaining, hstate]
  | terminate => simp [answer, terminate]

/-- An open buffer gives back, or holds, what it held and what the call brings. -/
theorem flatten_answer {b : TailBuffer} (hstate : b.state ≠ .terminated) (c : Call) :
    (b.answer u dumpJson c).1.flatten ++ (b.answer u dumpJson c).2.activeBuffer =
      b.activeBuffer ++ c.delta := by
  cases c with
  | ingest event clock =>
    by_cases htype : event.eventType = .textDelta
    · simpa only [answer, Call.delta, htype, if_true] using
        flatten_ingest_textDelta (u := u) dumpJson clock hstate htype
    · simp [answer, Call.delta, ingest, hstate, htype]
  | flushRemaining => simp [answer, Call.delta, flushRemaining]
  | terminate => simp [answer, Call.delta, terminate]

/-- An open buffer is terminated by `terminate` only. -/
theorem state_answer {b : TailBuffer} (hstate : b.state ≠ .terminated) {c : Call}
    (hc : c ≠ .terminate) : (b.answer u dumpJson c).2.state ≠ .terminated := by
  cases c with
  | ingest event clock =>
    by_cases htype : event.eventType = .textDelta
    · have hcollecting := (ingest_textDelta (u := u) dumpJson clock hstate htype rfl).1
      exact fun h => absurd (hcollecting.symm.trans h) (by decide)
    · simp [answer, ingest, hstate, htype]
  | flushRemaining => exact hstate
  | terminate => exact absurd rfl hc

theorem flatten_answers_terminated {b : TailBuffer} (hstate : b.state = .terminated)
    (calls : List Call) :
    (b.answers u dumpJson calls).1.flatten ++ (b.answers u dumpJson calls).2.activeBuffer =
      b.activeBuffer := by
  induction calls generalizing b with
  | nil => rfl
  | cons c calls ih =>
    obtain ⟨hnext, htext⟩ := flatten_answer_terminated u dumpJson hstate c
    simp only [answers]
    rw [List.flatten_append, List.append_assoc, ih hnext, htext]

/-- **A run.** From an open buffer, the texts given back and the buffer at the end are the buffer
at the beginning and what was received. -/
theorem flatten_answers {b : TailBuffer} (hstate : b.state ≠ .terminated) (calls : List Call) :
    (b.answers u dumpJson calls).1.flatten ++ (b.answers u dumpJson calls).2.activeBuffer =
      b.activeBuffer ++ received calls := by
  induction calls generalizing b with
  | nil => simp [answers, received]
  | cons c calls ih =>
    by_cases hc : c = .terminate
    · subst hc
      simpa [answers, answer, received, terminate] using
        flatten_answers_terminated u dumpJson (b := b.terminate) rfl calls
    · have hreceived : received (c :: calls) = c.delta ++ received calls := by
        cases c with
        | terminate => exact absurd rfl hc
        | ingest event clock => rfl
        | flushRemaining => rfl
      simp only [answers]
      rw [List.flatten_append, List.append_assoc, ih (state_answer u dumpJson hstate hc),
        ← List.append_assoc, flatten_answer u dumpJson hstate c, hreceived, List.append_assoc]

/-! ### The bound -/

theorem tailRegion_suffix (b : TailBuffer) : b.tailRegion <:+ b.activeBuffer := by
  unfold tailRegion
  split_ifs
  · exact List.drop_suffix _ _
  · exact List.suffix_refl _

theorem length_flush_le (b : TailBuffer) (now : ℚ) :
    (b.flush now).2.activeBuffer.length ≤ tailWindowChars := by
  by_cases hlength : b.activeBuffer.length ≤ tailWindowChars
  · rw [flush_of_le hlength]
    exact hlength
  · rw [flush_of_lt (not_le.mp hlength)]
    simp only [List.length_drop, safeEnd]
    omega

/-- After `_match`, a buffer that was not flushed waits for the end of a token. -/
theorem bounded_match (b : TailBuffer) (clock : Readings) : (b.match_ u clock).2.Bounded u := by
  by_cases hflush : b.flushes u clock.checked = true
  · rw [match_eq_flush hflush]
    exact Or.inl (length_flush_le b clock.flushed)
  · rw [match_eq_wait (Bool.not_eq_true _ ▸ hflush)]
    simp only [flushes, Bool.or_eq_true, decide_eq_true_eq, Bool.not_eq_true', not_or,
      Bool.not_eq_false] at hflush
    obtain ⟨⟨⟨-, hsize⟩, -⟩, hpartial⟩ := hflush
    exact Or.inr ⟨not_le.mp hsize, search_of_suffix b.tailRegion_suffix hpartial⟩

theorem bounded_answer {b : TailBuffer} (h : b.Bounded u) (c : Call) :
    (b.answer u dumpJson c).2.Bounded u := by
  cases c with
  | ingest event clock =>
    simp only [answer, ingest]
    by_cases hstate : b.state = .terminated
    · rw [if_pos hstate]
      exact h
    · rw [if_neg hstate]
      by_cases htype : event.eventType = .textDelta
      · rw [if_neg (not_not.mpr htype)]
        exact bounded_match u _ clock
      · rw [if_pos htype]
        exact h
  | flushRemaining => exact Or.inl (Nat.zero_le _)
  | terminate => exact h

theorem bounded_answers {b : TailBuffer} (h : b.Bounded u) (calls : List Call) :
    (b.answers u dumpJson calls).2.Bounded u := by
  induction calls generalizing b with
  | nil => exact h
  | cons c calls ih => exact ih (bounded_answer u dumpJson h c)

end TailBuffer

/-- **Lossless, ordered and bounded.** After any calls on a new buffer, the texts it has given back
and the text `flush_remaining` would give back are in one piece what it has received, and the
buffer is bounded. -/
theorem reassembles (u : Unicode) (dumpJson : ToolCallDelta → Text) (started : ℚ)
    (calls : List Call) :
    ((TailBuffer.create started).answers u dumpJson calls).1.flatten ++
        ((TailBuffer.create started).answers u dumpJson calls).2.flushRemaining.1 =
      received calls ∧
    ((TailBuffer.create started).answers u dumpJson calls).2.Bounded u := by
  have hopen : (TailBuffer.create started).state ≠ .terminated := by
    simp [TailBuffer.create]
  exact ⟨TailBuffer.flatten_answers u dumpJson hopen calls,
    TailBuffer.bounded_answers u dumpJson (Or.inl (Nat.zero_le _)) calls⟩

/-! ### Boundaries -/

/-- A text event, with the clock when it is ingested. -/
structure TextEvent where
  event : StreamEvent
  clock : Readings
  isText : event.eventType = .textDelta

/-- The call that ingests a text event. -/
def TextEvent.call (e : TextEvent) : Call := .ingest e.event e.clock

/-- `TOKEN_PATTERN` matches the text in whole. -/
def IsToken (part : Text) : Prop := Matches (tokenPattern u) part

/-- A token of the text begins before a position and ends after it. -/
def TokenAcross (text : Text) (position : ℕ) : Prop :=
  ∃ front token back, text = front ++ token ++ back ∧ IsToken u token ∧
    front.length < position ∧ position < (front ++ token).length

/-- The positions at which chunks end. The last of them is where `flush_remaining` goes on. -/
def boundaries (chunks : List Text) : List ℕ :=
  chunks.inits.map fun emitted => emitted.flatten.length

/-- Ingested text events split no token of their text. -/
def KeepsTokens (started : ℚ) (events : List TextEvent) : Prop :=
  ∀ position ∈ boundaries
      ((TailBuffer.create started).answers u dumpJson (events.map TextEvent.call)).1,
    ¬ TokenAcross u (received (events.map TextEvent.call)) position

/-- A text event makes the buffer emit: a trigger fires, and there is more than the tail window. -/
def TailBuffer.CutBy (b : TailBuffer) (e : TextEvent) : Prop :=
  (b.extended e.event).flushes u e.clock.checked = true ∧
    tailWindowChars < (b.extended e.event).activeBuffer.length

namespace TailBuffer

theorem received_cons_call (e : TextEvent) (calls : List Call) :
    received (e.call :: calls) = e.event.text ++ received calls := by
  simp [received, TextEvent.call, Call.delta, e.isText]

theorem received_append_call (before : List TextEvent) (e : TextEvent) :
    received ((before ++ [e]).map TextEvent.call) =
      received (before.map TextEvent.call) ++ e.event.text := by
  induction before with
  | nil => simp [received_cons_call, received]
  | cons d before ih =>
    rw [List.cons_append, List.map_cons, received_cons_call, ih, List.map_cons, received_cons_call,
      List.append_assoc]

/-- What a text event does to an open buffer. -/
theorem answer_call {b : TailBuffer} (hstate : b.state ≠ .terminated) (e : TextEvent) :
    (b.answer u dumpJson e.call).2.state ≠ .terminated ∧
      ((¬ b.CutBy u e ∧ (b.answer u dumpJson e.call).1 = [] ∧
          (b.answer u dumpJson e.call).2.activeBuffer = b.activeBuffer ++ e.event.text) ∨
        (b.CutBy u e ∧ ∃ chunk, (b.answer u dumpJson e.call).1 = [chunk] ∧
          chunk ++ (b.answer u dumpJson e.call).2.activeBuffer =
            b.activeBuffer ++ e.event.text ∧
          (b.answer u dumpJson e.call).2.activeBuffer.length = tailWindowChars)) := by
  have hcall : b.answer u dumpJson e.call = b.ingest u dumpJson e.event e.clock := by
    simp [TextEvent.call, answer, e.isText]
  obtain ⟨hcollecting, hstep⟩ := ingest_textDelta (u := u) dumpJson e.clock hstate e.isText
    (rfl : b.extended e.event = _)
  rw [hcall]
  refine ⟨by simp [hcollecting], ?_⟩
  obtain ⟨hchunks, hbuffer⟩ | ⟨hflush, hlength, hchunks, hbuffer⟩ := hstep
  · refine Or.inl ⟨fun hcut => ?_, hchunks, hbuffer⟩
    -- A trigger on a longer buffer would have emitted.
    have hmatch : b.ingest u dumpJson e.event e.clock = (b.extended e.event).match_ u e.clock := by
      simp [ingest, hstate, e.isText, extended]
    rw [hmatch, match_eq_flush hcut.1, flush_of_lt hcut.2] at hchunks
    exact List.cons_ne_nil _ _ hchunks
  · refine Or.inr ⟨⟨hflush, hlength⟩, _, hchunks, ?_, ?_⟩
    · rw [hbuffer, List.take_append_drop]
      rfl
    · rw [hbuffer, List.length_drop, safeEnd]
      omega

theorem mem_boundaries_cons {chunk : Text} {chunks : List Text} {position : ℕ} :
    position ∈ boundaries (chunk :: chunks) ↔
      position = 0 ∨ ∃ later ∈ boundaries chunks, position = chunk.length + later := by
  simp [boundaries, eq_comm]

/-- **Where chunks end.** From an open buffer, a chunk ends at the beginning and, at every text
event that makes the buffer emit, 128 characters before the end of what was received. -/
theorem mem_boundaries_iff {b : TailBuffer} (hstate : b.state ≠ .terminated)
    {events : List TextEvent} {position : ℕ} :
    position ∈ boundaries (b.answers u dumpJson (events.map TextEvent.call)).1 ↔
      position = 0 ∨ ∃ before e after, events = before ++ e :: after ∧
        (b.answers u dumpJson (before.map TextEvent.call)).2.CutBy u e ∧
        position + tailWindowChars =
          (b.activeBuffer ++ received ((before ++ [e]).map TextEvent.call)).length := by
  induction events generalizing b position with
  | nil => simp [answers, boundaries]
  | cons e events ih =>
    obtain ⟨hnext, hstep⟩ := answer_call u dumpJson hstate e
    -- The events at which the buffer emits are the first one, or later ones.
    have hsplit : (∃ before e' after, e :: events = before ++ e' :: after ∧
          (b.answers u dumpJson (before.map TextEvent.call)).2.CutBy u e' ∧
          position + tailWindowChars =
            (b.activeBuffer ++ received ((before ++ [e']).map TextEvent.call)).length) ↔
        (b.CutBy u e ∧ position + tailWindowChars = (b.activeBuffer ++ e.event.text).length) ∨
        ∃ before e' after, events = before ++ e' :: after ∧
          ((b.answer u dumpJson e.call).2.answers u dumpJson
            (before.map TextEvent.call)).2.CutBy u e' ∧
          position + tailWindowChars = (b.activeBuffer ++ e.event.text ++
            received ((before ++ [e']).map TextEvent.call)).length := by
      constructor
      · rintro ⟨_ | ⟨d, before⟩, e', after, hevents, hcut, hposition⟩
        · obtain ⟨rfl, rfl⟩ := List.cons.inj hevents
          exact Or.inl ⟨hcut, by simpa [received_cons_call, received] using hposition⟩
        · obtain ⟨rfl, rfl⟩ := List.cons.inj hevents
          refine Or.inr ⟨before, e', after, rfl, hcut, ?_⟩
          simpa [received_cons_call, add_assoc] using hposition
      · rintro (⟨hcut, hposition⟩ | ⟨before, e', after, rfl, hcut, hposition⟩)
        · exact ⟨[], e, events, rfl, hcut, by simpa [received_cons_call, received] using hposition⟩
        · refine ⟨e :: before, e', after, rfl, hcut, ?_⟩
          simpa [received_cons_call, add_assoc] using hposition
    rw [hsplit]
    simp only [List.map_cons, answers]
    obtain ⟨hnot, hchunks, hbuffer⟩ | ⟨hcut, chunk, hchunks, htext, hlength⟩ := hstep
    · rw [hchunks, List.nil_append, ih hnext, hbuffer]
      simp [hnot]
    · rw [hchunks, List.singleton_append, mem_boundaries_cons]
      have htotal : chunk.length + tailWindowChars =
          (b.activeBuffer ++ e.event.text).length := by
        rw [← htext, List.length_append, hlength]
      have hlonger : ∀ rest : Text, (b.activeBuffer ++ e.event.text ++ rest).length =
          chunk.length + ((b.answer u dumpJson e.call).2.activeBuffer ++ rest).length := by
        intro rest
        rw [← htext, List.append_assoc, List.length_append]
      refine or_congr_right ⟨?_, ?_⟩
      · rintro ⟨later, hlater, rfl⟩
        obtain rfl | ⟨before, e', after, hevents, hlater, hposition⟩ := (ih hnext).mp hlater
        · exact Or.inl ⟨hcut, htotal⟩
        · refine Or.inr ⟨before, e', after, hevents, hlater, ?_⟩
          rw [add_assoc, hposition, hlonger]
      · rintro (⟨-, hposition⟩ | ⟨before, e', after, hevents, hlater, hposition⟩)
        · exact ⟨0, (ih hnext).mpr (Or.inl rfl), by omega⟩
        · rw [hlonger, List.length_append, hlength] at hposition
          refine ⟨position - chunk.length, (ih hnext).mpr (Or.inr
            ⟨before, e', after, hevents, hlater, ?_⟩), by omega⟩
          rw [List.length_append, hlength]
          omega

end TailBuffer

/-- **Where a run splits a token.** Ingested text events split no token of their text if and only
if, whenever one of them makes the buffer emit, no token stands across the place 128 characters
before the end of what has been received. -/
theorem keepsTokens_iff (u : Unicode) (dumpJson : ToolCallDelta → Text) (started : ℚ)
    (events : List TextEvent) :
    KeepsTokens u dumpJson started events ↔
      ∀ before e after, events = before ++ e :: after →
        ((TailBuffer.create started).answers u dumpJson
          (before.map TextEvent.call)).2.CutBy u e →
        ¬ TokenAcross u (received (events.map TextEvent.call))
          ((received ((before ++ [e]).map TextEvent.call)).length - tailWindowChars) := by
  have hopen : (TailBuffer.create started).state ≠ .terminated := by
    simp [TailBuffer.create]
  constructor
  · intro hkeeps before e after hevents hcut
    have hlonger : tailWindowChars < (received ((before ++ [e]).map TextEvent.call)).length := by
      have hpending := congrArg List.length
        (TailBuffer.flatten_answers u dumpJson hopen (before.map TextEvent.call))
      have hcreate : (TailBuffer.create started).activeBuffer = [] := rfl
      have hlength := hcut.2
      rw [hcreate, List.nil_append, List.length_append] at hpending
      rw [TailBuffer.extended, List.length_append] at hlength
      rw [TailBuffer.received_append_call, List.length_append]
      omega
    refine hkeeps _ ((TailBuffer.mem_boundaries_iff u dumpJson hopen).mpr
      (Or.inr ⟨before, e, after, hevents, hcut, ?_⟩))
    rw [TailBuffer.create, List.nil_append]
    omega
  · intro hcuts position hposition
    obtain rfl | ⟨before, e, after, hevents, hcut, htotal⟩ :=
      (TailBuffer.mem_boundaries_iff u dumpJson hopen).mp hposition
    · rintro ⟨front, token, back, -, -, hfront, -⟩
      exact Nat.not_lt_zero _ hfront
    · have hplace : position =
          (received ((before ++ [e]).map TextEvent.call)).length - tailWindowChars := by
        rw [TailBuffer.create, List.nil_append] at htotal
        omega
      exact hplace ▸ hcuts before e after hevents hcut

/-- One event with a token that lies across the cut. -/
def cutEvent : TextEvent where
  event := (textArrival cutText).event
  clock := ⟨1, 1⟩
  isText := rfl

/-- **A token across a cut** is emitted in two parts. -/
theorem not_keepsTokens :
    ¬ ∀ (u : Unicode) (dumpJson : ToolCallDelta → Text) (started : ℚ) (events : List TextEvent),
      KeepsTokens u dumpJson started events := by
  intro hkeeps
  refine hkeeps .ascii (fun _ => []) 1 [cutEvent] 9 (by decide +kernel) ?_
  refine ⟨List.replicate 5 ' ', "[EMAIL_1]".toList, List.replicate 123 ' ', by decide, ?_,
    by decide, by decide⟩
  have hlength : 9 ∈ lengths (tokenPattern .ascii) "[EMAIL_1]".toList := by decide
  exact (mem_lengths_iff.mp hlength).2

end AnonReq.Streaming
