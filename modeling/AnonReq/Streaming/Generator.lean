import AnonReq.Streaming.Restoration
import AnonReq.Streaming.TailBuffer

/-!
# The stream generator

`stream_generator` (`routing/chat.py`) with the frames of `streaming/emitter.py`: the events of a
provider pass through the tail buffer, and every chunk it emits is restored by itself.

A cut is clean for the restorer (`SafeCut`) if at every position before it the pattern finds the
same match with and without the text after it, and no match runs over it.

* `contents_forward_pieces`: from any state, the contents are the restored pieces into which the
  buffer cuts the text. `contents_forward`: if every cut is clean, they are the restored text.
* `contents_streamGenerator`: so the contents of a stream do not depend on how its text is cut into
  events.
* `not_contents_streamGenerator`: a token across a cut is not restored.
-/

namespace AnonReq.Streaming

open Substitution

/-! ### Frames -/

/-- What a `data:` line carries. -/
inductive Frame where
  | content (text : Text)
  | finish (reason : Text)
  | error (message type : Text)
  | empty
  | done
deriving DecidableEq, Repr

/-- `SSEEmitter.emit` of an event. -/
def emit (event : StreamEvent) : Frame :=
  match event.eventType with
  | .textDelta => .content event.text
  | .finish => .finish ((event.finishReason.getD .stop).value.map Char.toLower)
  | .error => .error ((Dict.get event.metadata "message".toList).getD "stream error".toList)
      ((Dict.get event.metadata "type".toList).getD "provider_error".toList)
  | _ => .empty

/-- `_error_frame`. -/
def errorFrame (errorType : Text) : Frame :=
  emit
    { eventType := .error
      metadata := [("message".toList, "stream error".toList), ("type".toList, errorType)] }

/-- The text of the content frames. -/
def contents (frames : List Frame) : Text :=
  frames.flatMap fun frame =>
    match frame with
    | .content text => text
    | _ => []

/-! ### The generator -/

/-- The terminal state of a stream. -/
inductive TerminalState where
  | finish
  | providerError
  | clientDisconnect
deriving DecidableEq, Repr

/-- An event of the provider, with what `is_disconnected` says then and the clock. -/
structure Arrival where
  event : StreamEvent
  disconnected : Bool := false
  clock : Readings

/-- How the events of the provider end. -/
inductive Ending where
  | exhausted
  | raised
deriving DecidableEq, Repr

variable (u : Unicode) (dumpJson : ToolCallDelta → Text) (lookup : List (Text × Text))

/-- The frame for what is left in the buffer. -/
def remainingFrames (b : TailBuffer) : List Frame :=
  let remaining := b.flushRemaining.1
  if remaining.isEmpty then [] else [.content (restoreText u lookup remaining)]

/-- The frames for the chunks of one event. -/
def chunkFrames (chunks : List Text) : List Frame :=
  chunks.filterMap fun chunk =>
    let restored := restoreText u lookup chunk
    if restored.isEmpty then none else some (.content restored)

/-- The loop over the events of the provider. -/
def forward (ending : Ending) : TailBuffer → List Arrival → List Frame × TerminalState
  | b, [] =>
    match ending with
    | .raised => ([errorFrame "provider_error".toList], .providerError)
    | .exhausted =>
      (if b.flushRemaining.1.isEmpty then []
        else
          remainingFrames u lookup b ++ [emit { eventType := .finish, finishReason := some .stop }],
        .finish)
  | b, a :: arrivals =>
    if a.disconnected then ([], .clientDisconnect)
    else
      match a.event.eventType with
      | .reasoningDelta => forward ending b arrivals
      | .finish => (remainingFrames u lookup b ++ [emit a.event], .finish)
      | .error => ([errorFrame "provider_error".toList], .providerError)
      | _ =>
        let ingested := b.ingest u dumpJson a.event a.clock
        let rest := forward ending ingested.2 arrivals
        (chunkFrames u lookup ingested.1 ++ rest.1, rest.2)

/-- `stream_generator`, for a session with the given mapping; `audited` is the outcome of the
cleanup. -/
def streamGenerator (mapping : SessionMapping) (started : ℚ) (arrivals : List Arrival)
    (ending : Ending) (audited : Bool) : List Frame :=
  let streamed :=
    forward u dumpJson (coreTable u mapping) ending (TailBuffer.create started) arrivals
  streamed.1 ++
    if streamed.2 = .clientDisconnect then []
    else if audited then [.done] else [errorFrame "audit_error".toList]

/-! ### Clean cuts -/

/-- Restoring the text before and the text after a cut apart finds what restoring them together
finds. -/
def SafeCut (before after : Text) : Prop :=
  CleanCut (findCore u lookup) none 0 before after ∧
    findCore u lookup (lastOf none before) after = findCore u lookup none after

instance (before after : Text) : Decidable (SafeCut u lookup before after) :=
  inferInstanceAs (Decidable (_ ∧ _))

/-- The text of some arrivals. -/
def textOf (arrivals : List Arrival) : Text := arrivals.flatMap fun a => a.event.text

/-- The buffer as it is when a text event is matched. -/
def TailBuffer.extended (b : TailBuffer) (event : StreamEvent) : TailBuffer :=
  { b with activeBuffer := b.activeBuffer ++ event.text, state := .matching }

/-- Wherever the buffer is cut while the text events arrive, the cut is clean. -/
def CutsSafe : TailBuffer → List Arrival → Prop
  | _, [] => True
  | b, a :: arrivals =>
    let b' := b.extended a.event
    (b'.flushes u a.clock.checked = true → tailWindowChars < b'.activeBuffer.length →
      SafeCut u lookup (b'.activeBuffer.take b'.safeEnd)
        (b'.activeBuffer.drop b'.safeEnd ++ textOf arrivals)) ∧
    CutsSafe (b.ingest u dumpJson a.event a.clock).2 arrivals

/-- The pieces into which the buffer cuts the text of the events: at each trigger what stands before
the tail window, and what is left at the end. -/
def pieces : TailBuffer → List Arrival → List Text
  | b, [] => [b.activeBuffer]
  | b, a :: arrivals =>
    let b' := b.extended a.event
    let rest := pieces (b'.match_ u a.clock).2 arrivals
    if b'.flushes u a.clock.checked = true ∧ tailWindowChars < b'.activeBuffer.length then
      b'.activeBuffer.take b'.safeEnd :: rest
    else rest

variable {u dumpJson lookup}

/-- At a clean cut, the two parts can be restored apart. -/
theorem restoreText_append {before after : Text} (h : SafeCut u lookup before after) :
    restoreText u lookup (before ++ after) =
      restoreText u lookup before ++ restoreText u lookup after := by
  rw [restoreText_eq_subst, restoreText_eq_subst, restoreText_eq_subst, subst_append h.1,
    subst_eq_of_prev h.2]

theorem contents_append (a b : List Frame) : contents (a ++ b) = contents a ++ contents b :=
  List.flatMap_append

theorem contents_chunkFrames (chunk : Text) :
    contents (chunkFrames u lookup [chunk]) = restoreText u lookup chunk := by
  by_cases hempty : (restoreText u lookup chunk).isEmpty = true
  · simp [chunkFrames, contents, List.isEmpty_iff.mp hempty]
  · have hne : restoreText u lookup chunk ≠ [] := by simpa using hempty
    simp [chunkFrames, contents, hne]

theorem contents_remainingFrames (b : TailBuffer) :
    contents (remainingFrames u lookup b) = restoreText u lookup b.activeBuffer := by
  have hremaining : b.flushRemaining.1 = b.activeBuffer := rfl
  unfold remainingFrames
  rw [hremaining]
  by_cases hempty : b.activeBuffer.isEmpty = true
  · simp [contents, List.isEmpty_iff.mp hempty, restoreText]
  · simp [contents, hempty]

theorem contents_emit_finish {event : StreamEvent} (h : event.eventType = .finish) :
    contents [emit event] = [] := by
  simp [contents, emit, h]

/-- The events after the text: the end of the stream, or a finish event. -/
def Finishes (ending : Ending) (rest : List Arrival) : Prop :=
  (rest = [] ∧ ending = .exhausted) ∨
    ∃ a more, rest = a :: more ∧ a.event.eventType = .finish ∧ a.disconnected = false

/-- A text event that reaches the client. -/
def Arrival.IsText (a : Arrival) : Prop := a.event.eventType = .textDelta ∧ a.disconnected = false

instance (a : Arrival) : Decidable a.IsText := inferInstanceAs (Decidable (_ ∧ _))

theorem contents_forward_finish {ending : Ending} {rest : List Arrival} (h : Finishes ending rest)
    (b : TailBuffer) :
    contents (forward u dumpJson lookup ending b rest).1 = restoreText u lookup b.activeBuffer := by
  obtain ⟨rfl, rfl⟩ | ⟨a, more, rfl, htype, hconnected⟩ := h
  · have hremaining : b.flushRemaining.1 = b.activeBuffer := rfl
    by_cases hempty : b.activeBuffer.isEmpty = true
    · simp [forward, hremaining, contents, List.isEmpty_iff.mp hempty, restoreText]
    · simp only [forward, hremaining, hempty, Bool.false_eq_true, if_false]
      rw [contents_append, contents_remainingFrames, contents_emit_finish rfl, List.append_nil]
  · simp only [forward, hconnected, htype, Bool.false_eq_true, if_false]
    rw [contents_append, contents_remainingFrames, contents_emit_finish htype, List.append_nil]

theorem ingest_eq_match {b : TailBuffer} (hstate : b.state ≠ .terminated) {a : Arrival}
    (htype : a.event.eventType = .textDelta) :
    b.ingest u dumpJson a.event a.clock = (b.extended a.event).match_ u a.clock := by
  rw [TailBuffer.ingest, if_neg hstate, if_neg (not_not.mpr htype)]
  rfl

/-- What a text event does, read off the pieces. -/
theorem pieces_cons (dumpJson : ToolCallDelta → Text) {b : TailBuffer}
    (hstate : b.state ≠ .terminated) {a : Arrival} (htype : a.event.eventType = .textDelta)
    (arrivals : List Arrival) :
    pieces u b (a :: arrivals) = (b.ingest u dumpJson a.event a.clock).1 ++
      pieces u (b.ingest u dumpJson a.event a.clock).2 arrivals := by
  rw [ingest_eq_match hstate htype, pieces]
  by_cases hflush : (b.extended a.event).flushes u a.clock.checked = true
  · rw [TailBuffer.match_eq_flush hflush]
    by_cases hlength : (b.extended a.event).activeBuffer.length ≤ tailWindowChars
    · rw [if_neg fun h => absurd hlength (not_le.mpr h.2), TailBuffer.flush_of_le hlength]
      rfl
    · rw [if_pos ⟨hflush, not_le.mp hlength⟩, TailBuffer.flush_of_lt (not_le.mp hlength)]
      rfl
  · rw [if_neg fun h => hflush h.1, TailBuffer.match_eq_wait (Bool.not_eq_true _ ▸ hflush)]
    rfl

/-- **A run.** From any state of the buffer, the contents are the restored pieces. -/
theorem contents_forward_pieces {ending : Ending} {arrivals rest : List Arrival}
    (htext : ∀ a ∈ arrivals, a.IsText) (hrest : Finishes ending rest) {b : TailBuffer}
    (hstate : b.state ≠ .terminated) :
    contents (forward u dumpJson lookup ending b (arrivals ++ rest)).1 =
      (pieces u b arrivals).flatMap (restoreText u lookup) := by
  induction arrivals generalizing b with
  | nil =>
    rw [List.nil_append, contents_forward_finish hrest, pieces, List.flatMap_singleton]
  | cons a arrivals ih =>
    obtain ⟨⟨htype, hconnected⟩, harrivals⟩ := List.forall_mem_cons.mp htext
    obtain ⟨hcollecting, hstep⟩ := TailBuffer.ingest_textDelta (u := u) dumpJson a.clock
      hstate htype (rfl : b.extended a.event = _)
    have hforward : contents (forward u dumpJson lookup ending b (a :: arrivals ++ rest)).1 =
        contents (chunkFrames u lookup (b.ingest u dumpJson a.event a.clock).1) ++
          (pieces u (b.ingest u dumpJson a.event a.clock).2 arrivals).flatMap
            (restoreText u lookup) := by
      rw [← ih harrivals (by rw [hcollecting]; decide), ← contents_append]
      simp only [List.cons_append, forward, hconnected, htype, Bool.false_eq_true, if_false]
    rw [hforward, pieces_cons dumpJson hstate htype, List.flatMap_append]
    congr 1
    obtain ⟨hchunks, -⟩ | ⟨-, -, hchunks, -⟩ := hstep
    · rw [hchunks]
      rfl
    · rw [hchunks, contents_chunkFrames, List.flatMap_singleton]

/-- If every cut is clean, the pieces can be restored apart. -/
theorem flatMap_restoreText_pieces {arrivals : List Arrival} (htext : ∀ a ∈ arrivals, a.IsText)
    {b : TailBuffer} (hstate : b.state ≠ .terminated)
    (hcuts : CutsSafe u dumpJson lookup b arrivals) :
    (pieces u b arrivals).flatMap (restoreText u lookup) =
      restoreText u lookup (b.activeBuffer ++ textOf arrivals) := by
  induction arrivals generalizing b with
  | nil => rw [pieces, List.flatMap_singleton, textOf, List.flatMap_nil, List.append_nil]
  | cons a arrivals ih =>
    obtain ⟨⟨htype, -⟩, harrivals⟩ := List.forall_mem_cons.mp htext
    obtain ⟨hcut, hcuts⟩ := hcuts
    obtain ⟨hcollecting, hstep⟩ := TailBuffer.ingest_textDelta (u := u) dumpJson a.clock
      hstate htype (rfl : b.extended a.event = _)
    have htotal : b.activeBuffer ++ textOf (a :: arrivals) =
        (b.extended a.event).activeBuffer ++ textOf arrivals := by
      simp [textOf, TailBuffer.extended]
    rw [pieces_cons dumpJson hstate htype, List.flatMap_append,
      ih harrivals (by rw [hcollecting]; decide) hcuts, htotal]
    obtain ⟨hchunks, hbuffer⟩ | ⟨hflush, hlength, hchunks, hbuffer⟩ := hstep
    · rw [hchunks, hbuffer]
      rfl
    · rw [hchunks, hbuffer, List.flatMap_singleton, ← restoreText_append (hcut hflush hlength),
        ← List.append_assoc, List.take_append_drop]

/-- From any state of the buffer, if every cut is clean, the contents are the restored text of the
buffer and of the events. -/
theorem contents_forward {ending : Ending} {arrivals rest : List Arrival}
    (htext : ∀ a ∈ arrivals, a.IsText) (hrest : Finishes ending rest) {b : TailBuffer}
    (hstate : b.state ≠ .terminated) (hcuts : CutsSafe u dumpJson lookup b arrivals) :
    contents (forward u dumpJson lookup ending b (arrivals ++ rest)).1 =
      restoreText u lookup (b.activeBuffer ++ textOf arrivals) := by
  rw [contents_forward_pieces htext hrest hstate, flatMap_restoreText_pieces htext hstate hcuts]

/-- **The contents of a stream** are the restored text, however the text is cut into events and
whatever triggers the emissions, if every cut that is made is clean. -/
theorem contents_streamGenerator (u : Unicode) (dumpJson : ToolCallDelta → Text)
    (mapping : SessionMapping) (started : ℚ) {arrivals rest : List Arrival} {ending : Ending}
    (audited : Bool) (htext : ∀ a ∈ arrivals, a.IsText) (hrest : Finishes ending rest)
    (hcuts : CutsSafe u dumpJson (coreTable u mapping) (TailBuffer.create started) arrivals) :
    contents (streamGenerator u dumpJson mapping started (arrivals ++ rest) ending audited) =
      restoreText u (coreTable u mapping) (textOf arrivals) := by
  have hclosing : ∀ state : TerminalState, contents
      (if state = .clientDisconnect then []
        else if audited then [.done] else [errorFrame "audit_error".toList]) = [] := by
    intro state
    split_ifs <;> rfl
  have hrun := contents_forward htext hrest (b := TailBuffer.create started)
    (by simp [TailBuffer.create]) hcuts
  unfold streamGenerator
  dsimp only
  rw [contents_append, hclosing, List.append_nil, hrun]
  rfl

/-- A mapping with one mail address. -/
def mailMapping : SessionMapping where
  entries := [("[EMAIL_1]".toList, "ann@x".toList)]
  core_ne_nil := by decide

/-- One text event. -/
def textArrival (text : Text) : Arrival where
  event := { eventType := .textDelta, deltaText := some text }
  clock := ⟨1, 1⟩

/-- The end of the text. -/
def finishArrival : Arrival where
  event := { eventType := .finish, finishReason := some .stop }
  clock := ⟨1, 1⟩

/-- A token, and text enough after it for the buffer to be cut behind it. -/
def earlyText : Text := "Hi [EMAIL_1] and ".toList ++ List.replicate 128 '.'

set_option maxRecDepth 4000 in
theorem contents_streamGenerator_earlyText :
    contents (streamGenerator .ascii (fun _ => []) mailMapping 1
        ([textArrival earlyText] ++ [finishArrival]) .exhausted true) =
      restoreText .ascii (coreTable .ascii mailMapping) (textOf [textArrival earlyText]) :=
  contents_streamGenerator .ascii (fun _ => []) mailMapping 1 true
    (by decide) (Or.inr ⟨finishArrival, [], rfl, rfl, rfl⟩)
    ⟨fun _ _ => by decide +kernel, trivial⟩

/-- A token that lies across the cut. -/
def cutText : Text := List.replicate 5 ' ' ++ "[EMAIL_1]".toList ++ List.replicate 123 ' '

/-- **A token across a cut** is emitted in two parts, neither of which is restored. -/
theorem not_contents_streamGenerator :
    ¬ ∀ (u : Unicode) (dumpJson : ToolCallDelta → Text) (mapping : SessionMapping) (started : ℚ)
      (arrivals rest : List Arrival) (ending : Ending) (audited : Bool),
      (∀ a ∈ arrivals, a.IsText) → Finishes ending rest →
      contents (streamGenerator u dumpJson mapping started (arrivals ++ rest) ending audited) =
        restoreText u (coreTable u mapping) (textOf arrivals) := by
  intro hindependent
  have hcut := hindependent .ascii (fun _ => []) mailMapping 1 [textArrival cutText]
    [finishArrival] .exhausted true (by decide) (Or.inr ⟨finishArrival, [], rfl, rfl, rfl⟩)
  have hstreamed : contents (streamGenerator .ascii (fun _ => []) mailMapping 1
      ([textArrival cutText] ++ [finishArrival]) .exhausted true) = cutText := by decide +kernel
  have hlength : (restoreText .ascii (coreTable .ascii mailMapping)
      (textOf [textArrival cutText])).length < cutText.length := by decide +kernel
  rw [hstreamed] at hcut
  rw [← hcut] at hlength
  exact absurd hlength (lt_irrefl _)

end AnonReq.Streaming
