import AnonReq.Foundation.Coroutine
import AnonReq.Streaming.Generator

/-!
# How a stream ends

`stream_generator` (`routing/chat.py`) with its `try` blocks, and `SessionCleanup.cleanup`
(`streaming/cleanup.py`): at every call that may fail and wherever the generator is suspended, it
goes on, fails, or is cancelled or closed, while the client may disconnect.

* `Protocol` is what a stream keeps: one cleanup, and the closing frame last, after the audit write
  and not after a disconnect that was noticed.
* `triple_runStream`: what the trace of a run looks like, `protocol_run`: every run keeps the
  protocol.
* `not_protocol_run`: a disconnect after the last poll is not noticed, and without an audit chain
  nothing is written.
-/

namespace AnonReq.Streaming

open Coroutine Program

/-! ### The model -/

/-- What happens while the generator is suspended. -/
inductive Happening where
  | disconnect
deriving DecidableEq

/-- What the generator and the cleanup do. -/
inductive Act where
  | frame (f : Frame)
  | disconnectSeen
  | cleanup (terminalState : TerminalState)
  | mappingDeleted
  | auditWritten
deriving DecidableEq

/-- The variables of `stream_generator`, the `_cleaned` of its `SessionCleanup`, and what it notes
in the processing context. -/
structure StreamState where
  tailBuffer : TailBuffer
  terminalState : TerminalState := .finish
  cleaned : Bool := false
  sessionCleaned : Bool := false
  contextState : Option TerminalState := none
  streamFinished : Bool := false

/-- The trace of a stream. -/
abbrev StreamTrace := List (Entry Happening Act)

/-- A part of the generator. -/
abbrev Stream := Program Happening Act StreamState

/-- What a stream is created with: the mapping of its session, and whether audit events are
chained. -/
structure StreamSetting where
  unicode : Unicode
  dumpJson : ToolCallDelta → Text
  mapping : SessionMapping
  hasAuditChain : Bool

variable (S : StreamSetting)

/-- `emit_anonymization_audit`. -/
def emitAudit : Stream Unit :=
  if S.hasAuditChain then do
    suspend
    act .auditWritten
  else pure ()

/-- Whether a program fails. -/
def failsIn (m : Stream Unit) : Stream Bool :=
  catchFailure (do m; pure false) (pure true)

/-- `SessionCleanup.cleanup`; its log entries do not fail. -/
def cleanup (terminalState : TerminalState) : Stream Unit := do
  act (.cleanup terminalState)
  let s ← get
  if s.sessionCleaned then pure ()
  else do
    modify fun s => { s with sessionCleaned := true, contextState := some terminalState }
    ensure
      (catchFailure
        (do
          suspend
          act .mappingDeleted)
        (pure ()))
      (do
        let auditError ← failsIn (emitAudit S)
        if auditError then fail else pure ())

/-- `yield`. -/
def yieldFrame (f : Frame) : Stream Unit := do
  act (.frame f)
  suspend

/-- `restore_text`, which may fail. -/
def restored (text : Text) : Stream Text := do
  suspend
  pure (restoreText S.unicode (coreTable S.unicode S.mapping) text)

/-- `request.is_disconnected()`. -/
def isDisconnected : Stream Bool := do
  suspend
  let trace ← history
  if .env .disconnect ∈ trace then do
    act .disconnectSeen
    pure true
  else pure false

/-- What is left in the buffer is restored and sent, with the frames that follow it if there is
something left. -/
def yieldRemaining (following : List Frame) : Stream Unit := do
  let s ← get
  let remaining := s.tailBuffer.flushRemaining
  modify fun s => { s with tailBuffer := remaining.2 }
  if remaining.1.isEmpty then pure ()
  else do
    let text ← restored S remaining.1
    yieldFrame (.content text)
    following.forM yieldFrame

/-- The chunks of one event are restored and sent. -/
def yieldChunks : List Text → Stream Unit
  | [] => pure ()
  | chunk :: chunks => do
    let text ← restored S chunk
    if text.isEmpty then yieldChunks chunks
    else do
      yieldFrame (.content text)
      yieldChunks chunks

/-- The loop over the events of the provider, with the clock at each. -/
def forwardEvents : List (StreamEvent × Readings) → Stream Unit
  | [] => do
    suspend
    yieldRemaining S [emit { eventType := .finish, finishReason := some .stop }]
  | (event, clock) :: arrivals => do
    suspend
    let disconnected ← isDisconnected
    if disconnected then modify fun s => { s with terminalState := .clientDisconnect }
    else
      match event.eventType with
      | .reasoningDelta => forwardEvents arrivals
      | .finish => do
        yieldRemaining S []
        yieldFrame (emit event)
        modify fun s => { s with streamFinished := true }
      | .error => do
        modify fun s => { s with terminalState := .providerError }
        yieldFrame (errorFrame "provider_error".toList)
      | _ => do
        suspend
        let s ← get
        let ingested := s.tailBuffer.ingest S.unicode S.dumpJson event clock
        modify fun s => { s with tailBuffer := ingested.2 }
        yieldChunks S ingested.1
        forwardEvents arrivals

/-- The frame after the cleanup. -/
def closingFrame (auditFailed : Bool) : Frame :=
  if auditFailed then errorFrame "audit_error".toList else .done

/-- What comes after the events: the cleanup, and the closing frame. -/
def close : Stream Unit := do
  modify fun s =>
    { s with
      tailBuffer := s.tailBuffer.terminate
      contextState := some s.terminalState
      cleaned := true }
  let s ← get
  let auditFailed ← failsIn (cleanup S s.terminalState)
  if s.terminalState = .clientDisconnect then pure () else yieldFrame (closingFrame auditFailed)

/-- The `finally` block. -/
def release : Stream Unit := do
  modify fun s =>
    { s with
      tailBuffer := s.tailBuffer.terminate
      contextState := some (s.contextState.getD s.terminalState) }
  let s ← get
  if s.cleaned then pure ()
  else catchFailure (cleanup S (s.contextState.getD s.terminalState)) (pure ())

/-- `stream_generator`. -/
def runStream (arrivals : List (StreamEvent × Readings)) : Stream Unit :=
  ensure
    (do
      suspend
      catchFailure (forwardEvents S arrivals)
        (do
          modify fun s => { s with terminalState := .providerError }
          yieldFrame (errorFrame "provider_error".toList))
      close S)
    (release S)

/-! ### What a trace looks like -/

/-- An entry from before the cleanup: no closing frame. -/
def IsEarly : Entry Happening Act → Prop
  | .env _ => True
  | .act (.frame f) => f ≠ .done
  | .act .disconnectSeen => True
  | _ => False

/-- An entry from the cleanup: no frame. -/
def IsSilent : Entry Happening Act → Prop
  | .env _ => True
  | .act .mappingDeleted => True
  | .act .auditWritten => True
  | _ => False

/-- The cleanup has begun, and no frame came after it. -/
def CleanedUp (t : StreamTrace) : Prop :=
  ∃ before terminalState after, t = before ++ .act (.cleanup terminalState) :: after ∧
    (∀ e ∈ before, IsEarly e) ∧ ∀ e ∈ after, IsSilent e

/-- A closing frame may be sent: the audit event is written, if it is to be, and no disconnect was
noticed. -/
def MayClose (t : StreamTrace) : Prop :=
  (S.hasAuditChain = true → .act .auditWritten ∈ t) ∧ .act .disconnectSeen ∉ t

/-- One frame came after the cleanup. -/
def Closed (t : StreamTrace) : Prop :=
  ∃ before f, ∃ occurs : List Happening,
    t = before ++ .act (.frame f) :: occurs.map Entry.env ∧ CleanedUp before ∧
      (f = .done → MayClose S before)

/-- Before the cleanup; `cleaned` and `terminal_state` have these values, and where a disconnect was
noticed there is a reason. -/
structure Opened (cleaned : Bool) (terminalState : TerminalState) (reason : Prop) (s : StreamState)
    (t : StreamTrace) : Prop where
  early : ∀ e ∈ t, IsEarly e
  sessionCleaned : s.sessionCleaned = false
  cleaned : s.cleaned = cleaned
  terminalState : s.terminalState = terminalState
  noticed : .act .disconnectSeen ∈ t → reason

/-- In the cleanup. -/
structure Closing (cleaned : Bool) (terminalState : TerminalState) (reason : Prop) (s : StreamState)
    (t : StreamTrace) : Prop where
  cleanedUp : CleanedUp t
  cleaned : s.cleaned = cleaned
  terminalState : s.terminalState = terminalState
  noticed : .act .disconnectSeen ∈ t → reason

/-- While the events are read, until a disconnect is noticed. -/
def Reading (s : StreamState) (t : StreamTrace) : Prop :=
  Opened false s.terminalState False s t

variable {S} {c : Bool} {ts : TerminalState} {K : Prop} {s : StreamState} {t : StreamTrace}

theorem CleanedUp.append (h : CleanedUp t) {entries : StreamTrace}
    (hentries : ∀ e ∈ entries, IsSilent e) : CleanedUp (t ++ entries) := by
  obtain ⟨before, ts, after, rfl, hbefore, hafter⟩ := h
  refine ⟨before, ts, after ++ entries, by simp, hbefore, fun e he => ?_⟩
  obtain he | he := List.mem_append.mp he
  · exact hafter e he
  · exact hentries e he

/-- What happens outside is early and silent, and no disconnect is noticed by it. -/
theorem exists_of_mem_env {occurs : List Happening} {e : Entry Happening Act}
    (h : e ∈ occurs.map Entry.env) : ∃ happening, e = .env happening := by
  obtain ⟨happening, -, rfl⟩ := List.mem_map.mp h
  exact ⟨happening, rfl⟩

theorem Opened.append (h : Opened c ts K s t) {entries : StreamTrace}
    (hearly : ∀ e ∈ entries, IsEarly e) (hseen : .act .disconnectSeen ∈ entries → K) :
    Opened c ts K s (t ++ entries) where
  early e he := (List.mem_append.mp he).elim (h.early e) (hearly e)
  sessionCleaned := h.sessionCleaned
  cleaned := h.cleaned
  terminalState := h.terminalState
  noticed he := (List.mem_append.mp he).elim h.noticed hseen

theorem Opened.append_env (h : Opened c ts K s t) (occurs : List Happening) :
    Opened c ts K s (t ++ occurs.map Entry.env) := by
  refine h.append (fun e he => ?_) fun he => ?_
  · obtain ⟨happening, rfl⟩ := exists_of_mem_env he
    exact trivial
  · obtain ⟨happening, he⟩ := exists_of_mem_env he
    cases he

theorem Opened.append_frame (h : Opened c ts K s t) {f : Frame} (hf : f ≠ .done) :
    Opened c ts K s (t ++ [.act (.frame f)]) :=
  h.append (List.forall_mem_singleton.mpr hf) fun he => by
    cases List.mem_singleton.mp he

theorem Closing.append (h : Closing c ts K s t) {entries : StreamTrace}
    (hsilent : ∀ e ∈ entries, IsSilent e) : Closing c ts K s (t ++ entries) where
  cleanedUp := h.cleanedUp.append hsilent
  cleaned := h.cleaned
  terminalState := h.terminalState
  noticed he := (List.mem_append.mp he).elim h.noticed fun he => (hsilent _ he).elim

theorem Closing.append_env (h : Closing c ts K s t) (occurs : List Happening) :
    Closing c ts K s (t ++ occurs.map Entry.env) :=
  h.append fun e he => by
    obtain ⟨happening, rfl⟩ := exists_of_mem_env he
    exact trivial

/-! ### The cleanup -/

/-- Whether a program fails, from what holds where it returns and where it ends. -/
theorem triple_failsIn {P Q R : StreamState → StreamTrace → Prop} {m : Stream Unit}
    (h : Triple P m (fun _ => Q) fun _ => R) :
    Triple P (failsIn m) (fun failed s t => if failed then R s t else Q s t) fun _ => R := by
  refine Triple.catchFailure (R := R) ?_ (Triple.pure fun s t hR => hR)
  refine Triple.bind (h.mono (fun _ _ => id) (fun _ _ _ => id) fun e s t hR => ?_) fun _ =>
    Triple.pure fun s t hQ => hQ
  split_ifs <;> exact hR

theorem triple_emitAudit :
    Triple (Closing c ts K) (emitAudit S)
      (fun _ s t => Closing c ts K s t ∧ (S.hasAuditChain = true → .act .auditWritten ∈ t))
      fun _ => Closing c ts K := by
  unfold emitAudit
  split_ifs with hchain
  · refine Triple.bind (Triple.suspend_keeps fun s t occurs h => h.append_env occurs) fun _ =>
      Triple.act fun s t h => ⟨h.append (List.forall_mem_singleton.mpr trivial), fun _ => ?_⟩
    exact List.mem_append_right _ (List.mem_singleton_self _)
  · exact Triple.pure fun s t h => ⟨h, fun hc => absurd hc hchain⟩

/-- **The cleanup** returns after the audit event is written, if it is to be. -/
theorem triple_cleanup (terminalState : TerminalState) :
    Triple (Opened c ts K) (cleanup S terminalState)
      (fun _ s t => Closing c ts K s t ∧ (S.hasAuditChain = true → .act .auditWritten ∈ t))
      fun _ => Closing c ts K := by
  have hbegin : Triple (Opened c ts K) (act (.cleanup terminalState))
      (fun _ s t => Closing c ts K s t ∧ s.sessionCleaned = false) fun _ => Closing c ts K := by
    refine Triple.act fun s t h => ⟨⟨?_, h.cleaned, h.terminalState, fun he => ?_⟩,
      h.sessionCleaned⟩
    · exact ⟨t, terminalState, [], rfl, h.early, fun _ he => absurd he List.not_mem_nil⟩
    · obtain he | he := List.mem_append.mp he
      · exact h.noticed he
      · cases List.mem_singleton.mp he
  have hget : Triple (fun s t => Closing c ts K s t ∧ s.sessionCleaned = false) get
      (fun (b : StreamState) s t => Closing c ts K s t ∧ b.sessionCleaned = false)
      fun _ => Closing c ts K := Triple.get fun s t h => h
  have hdelete : Triple (Closing c ts K)
      (catchFailure (suspend >>= fun _ => act .mappingDeleted) (pure ()) : Stream Unit)
      (fun _ => Closing c ts K) fun _ => Closing c ts K := by
    refine Triple.catchFailure (R := Closing c ts K) ?_ (Triple.pure fun s t h => h)
    simp only [ite_self]
    exact Triple.bind (Triple.suspend_keeps fun s t occurs h => h.append_env occurs) fun _ =>
      Triple.act fun s t h => h.append (List.forall_mem_singleton.mpr trivial)
  have haudit : Triple (Closing c ts K)
      (failsIn (emitAudit S) >>= fun auditError => if auditError then fail else pure ())
      (fun _ s t => Closing c ts K s t ∧ (S.hasAuditChain = true → .act .auditWritten ∈ t))
      fun _ => Closing c ts K := by
    refine Triple.bind (triple_failsIn triple_emitAudit) fun auditError => ?_
    cases auditError with
    | true => exact Triple.fail fun s t h => h
    | false => exact Triple.pure fun s t h => h
  have hmark : Triple (Closing c ts K)
      (modify fun s => { s with sessionCleaned := true, contextState := some terminalState })
      (fun _ => Closing c ts K) fun _ => Closing c ts K :=
    Triple.modify fun s t h => ⟨h.cleanedUp, h.cleaned, h.terminalState, h.noticed⟩
  refine Triple.bind hbegin fun _ => Triple.bind hget fun b => ?_
  by_cases hb : b.sessionCleaned = true
  · rw [if_pos hb]
    exact fun w hw => absurd (hb.symm.trans hw.2) (by decide)
  · rw [if_neg hb]
    refine Triple.bind (hmark.mono (fun s t h => h.1) (fun _ _ _ => id) fun _ _ _ => id) fun _ => ?_
    exact Triple.ensure hdelete (fun _ => haudit)
      (fun _ _ => haudit.mono (fun _ _ => id) (fun _ _ _ h => h.1) fun _ _ _ => id) fun _ _ => id

/-! ### The events -/

/-- A part of the loop that notices no disconnect. -/
def KeepsReading {β : Type} (m : Stream β) : Prop :=
  Triple Reading m (fun _ => Reading) fun _ => Reading

theorem keepsReading_suspend : KeepsReading suspend :=
  Triple.suspend_keeps fun _ _ occurs h => h.append_env occurs

theorem keepsReading_yieldFrame {f : Frame} (hf : f ≠ .done) : KeepsReading (yieldFrame f) :=
  Triple.bind (Triple.act fun _ _ h => h.append_frame hf) fun _ => keepsReading_suspend

theorem keepsReading_restored (text : Text) : KeepsReading (restored S text) :=
  Triple.bind keepsReading_suspend fun _ => Triple.pure fun _ _ h => h

theorem keepsReading_modify {f : StreamState → StreamState}
    (hcleaned : ∀ s, (f s).cleaned = s.cleaned)
    (hsession : ∀ s, (f s).sessionCleaned = s.sessionCleaned) :
    KeepsReading (modify f) :=
  Triple.modify fun s _ h =>
    ⟨h.early, (hsession s).trans h.sessionCleaned, (hcleaned s).trans h.cleaned, rfl, h.noticed⟩

theorem keepsReading_forM {frames : List Frame} (h : .done ∉ frames) :
    KeepsReading (frames.forM yieldFrame) := by
  induction frames with
  | nil => exact Triple.pure fun s t h => h
  | cons f frames ih =>
    obtain ⟨hf, hframes⟩ := not_or.mp (mt List.mem_cons.mpr h)
    exact Triple.bind (keepsReading_yieldFrame (Ne.symm hf)) fun _ => ih hframes

theorem keepsReading_yieldRemaining {following : List Frame} (h : .done ∉ following) :
    KeepsReading (yieldRemaining S following) := by
  refine Triple.bind (Triple.get fun s t h => h) fun s => ?_
  refine Triple.bind (keepsReading_modify (fun _ => rfl) fun _ => rfl) fun _ => ?_
  split_ifs
  · exact Triple.pure fun s t h => h
  · exact Triple.bind (keepsReading_restored _) fun _ =>
      Triple.bind (keepsReading_yieldFrame (by simp)) fun _ => keepsReading_forM h

theorem keepsReading_yieldChunks (chunks : List Text) : KeepsReading (yieldChunks S chunks) := by
  induction chunks with
  | nil => exact Triple.pure fun s t h => h
  | cons chunk chunks ih =>
    refine Triple.bind (keepsReading_restored _) fun text => ?_
    split_ifs
    · exact ih
    · exact Triple.bind (keepsReading_yieldFrame (by simp)) fun _ => ih

/-- After a disconnect was noticed it is the terminal state. -/
def Stopped (s : StreamState) (t : StreamTrace) : Prop :=
  Opened false s.terminalState (s.terminalState = .clientDisconnect) s t

theorem Reading.stopped (h : Reading s t) : Stopped s t where
  early := h.early
  sessionCleaned := h.sessionCleaned
  cleaned := h.cleaned
  terminalState := rfl
  noticed he := (h.noticed he).elim

/-- A poll either notices a disconnect or notices none. -/
theorem triple_isDisconnected :
    Triple Reading isDisconnected
      (fun disconnected s t =>
        if disconnected then Opened false s.terminalState True s t else Reading s t)
      fun _ => Reading := by
  refine Triple.bind keepsReading_suspend fun _ => Triple.bind
    (Triple.history fun s t h => h) fun trace => ?_
  split_ifs
  · refine Triple.bind (Triple.act fun s t h => ?_) fun _ => Triple.pure fun s t h => h
    exact Opened.append ⟨h.early, h.sessionCleaned, h.cleaned, rfl, fun _ => trivial⟩
      (List.forall_mem_singleton.mpr trivial) fun _ => trivial
  · exact Triple.pure fun s t h => h

/-- **The loop** over the events stops when a disconnect is noticed. -/
theorem triple_forwardEvents (arrivals : List (StreamEvent × Readings)) :
    Triple Reading (forwardEvents S arrivals) (fun _ => Stopped) fun _ => Reading := by
  have hstop : ∀ {m : Stream Unit}, KeepsReading m →
      Triple Reading m (fun _ => Stopped) fun _ => Reading := fun h =>
    h.mono (fun _ _ => id) (fun _ _ _ => Reading.stopped) fun _ _ _ => id
  induction arrivals with
  | nil =>
    exact hstop (Triple.bind keepsReading_suspend fun _ =>
      keepsReading_yieldRemaining (by simp [emit]))
  | cons arrival arrivals ih =>
    obtain ⟨event, clock⟩ := arrival
    refine Triple.bind keepsReading_suspend fun _ => Triple.bind triple_isDisconnected
      fun disconnected => ?_
    cases disconnected with
    | true =>
      simp only [if_true]
      exact Triple.modify fun _ _ h =>
        ⟨h.early, h.sessionCleaned, h.cleaned, rfl, fun _ => rfl⟩
    | false =>
      have hingest : Triple Reading
          (suspend >>= fun _ => get >>= fun s =>
            modify (fun s' => { s' with
              tailBuffer := (s.tailBuffer.ingest S.unicode S.dumpJson event clock).2 }) >>= fun _ =>
            yieldChunks S (s.tailBuffer.ingest S.unicode S.dumpJson event clock).1 >>= fun _ =>
            forwardEvents S arrivals) (fun _ => Stopped) fun _ => Reading :=
        Triple.bind keepsReading_suspend fun _ => Triple.bind (Triple.get fun s t h => h) fun s =>
          Triple.bind (keepsReading_modify (fun _ => rfl) fun _ => rfl) fun _ =>
            Triple.bind (keepsReading_yieldChunks _) fun _ => ih
      simp only [Bool.false_eq_true, if_false]
      split
      · exact ih
      · rename_i htype
        refine hstop (Triple.bind (keepsReading_yieldRemaining (by simp)) fun _ =>
          Triple.bind (keepsReading_yieldFrame ?_) fun _ =>
            keepsReading_modify (fun _ => rfl) fun _ => rfl)
        simp [emit, htype]
      · exact hstop (Triple.bind (keepsReading_modify (fun _ => rfl) fun _ => rfl) fun _ =>
          keepsReading_yieldFrame (by simp [errorFrame, emit]))
      · exact hingest

/-! ### The end -/

/-- The cleanup has run, and at most one frame came after it. -/
def Ended (S : StreamSetting) (t : StreamTrace) : Prop := CleanedUp t ∨ Closed S t

theorem ended_append_env (h : Ended S t) (occurs : List Happening) :
    Ended S (t ++ occurs.map Entry.env) := by
  obtain h | ⟨before, f, occurs', rfl, hbefore, hf⟩ := h
  · refine Or.inl (h.append fun e he => ?_)
    obtain ⟨happening, rfl⟩ := exists_of_mem_env he
    exact trivial
  · exact Or.inr ⟨before, f, occurs' ++ occurs, by simp, hbefore, hf⟩

/-- `cleaned` is set, and the cleanup has run. -/
def Finished (S : StreamSetting) (s : StreamState) (t : StreamTrace) : Prop :=
  s.cleaned = true ∧ Ended S t

theorem Closing.finished (h : Closing true ts K s t) : Finished S s t :=
  ⟨h.cleaned, Or.inl h.cleanedUp⟩

theorem triple_yieldClosing {auditFailed : Bool} (hts : ts ≠ .clientDisconnect) :
    Triple
      (fun s t => Closing true ts (ts = .clientDisconnect) s t ∧
        (auditFailed = false → S.hasAuditChain = true → .act .auditWritten ∈ t))
      (yieldFrame (closingFrame auditFailed)) (fun _ => Finished S) fun _ => Finished S := by
  have hact : Triple
      (fun s t => Closing true ts (ts = .clientDisconnect) s t ∧
        (auditFailed = false → S.hasAuditChain = true → .act .auditWritten ∈ t))
      (act (.frame (closingFrame auditFailed))) (fun _ => Finished S) fun _ => Finished S := by
    refine Triple.act fun s t ⟨h, hwritten⟩ => ⟨h.cleaned, Or.inr ⟨t, _, [], rfl, h.cleanedUp, ?_⟩⟩
    intro hdone
    cases auditFailed with
    | true => simp [closingFrame, errorFrame, emit] at hdone
    | false => exact ⟨hwritten rfl, fun he => hts (h.noticed he)⟩
  exact Triple.bind hact fun _ => Triple.suspend_keeps fun _ _ occurs h =>
    ⟨h.1, ended_append_env h.2 occurs⟩

/-- **The end of the `try` block.** The cleanup runs, and the closing frame comes after it. -/
theorem triple_close : Triple Stopped (close S) (fun _ => Finished S) fun _ => Finished S := by
  have hmark : Triple Stopped
      (modify fun s =>
        { s with
          tailBuffer := s.tailBuffer.terminate
          contextState := some s.terminalState
          cleaned := true })
      (fun _ s t => Opened true s.terminalState (s.terminalState = .clientDisconnect) s t)
      fun _ => Finished S :=
    Triple.modify fun _ _ h => ⟨h.early, h.sessionCleaned, rfl, rfl, h.noticed⟩
  have hget : Triple
      (fun s t => Opened true s.terminalState (s.terminalState = .clientDisconnect) s t) get
      (fun (b : StreamState) s t =>
        Opened true b.terminalState (b.terminalState = .clientDisconnect) s t)
      fun _ => Finished S := Triple.get fun _ _ h => h
  refine Triple.bind hmark fun _ => Triple.bind hget fun b => ?_
  have hcleanup :
      Triple (Opened true b.terminalState (b.terminalState = .clientDisconnect))
        (failsIn (cleanup S b.terminalState)) _ _ :=
    triple_failsIn (triple_cleanup b.terminalState)
  refine Triple.bind (hcleanup.mono (fun _ _ => id) (fun _ _ _ => id)
    fun _ _ _ h => h.finished) fun auditFailed => ?_
  have hpost : ∀ s t, (if auditFailed = true then
        Closing true b.terminalState (b.terminalState = .clientDisconnect) s t
      else Closing true b.terminalState (b.terminalState = .clientDisconnect) s t ∧
        (S.hasAuditChain = true → .act .auditWritten ∈ t)) →
      Closing true b.terminalState (b.terminalState = .clientDisconnect) s t ∧
        (auditFailed = false → S.hasAuditChain = true → .act .auditWritten ∈ t) := by
    intro s t h
    cases auditFailed with
    | true => exact ⟨h, fun hfalse => by cases hfalse⟩
    | false => exact ⟨h.1, fun _ => h.2⟩
  by_cases hts : b.terminalState = .clientDisconnect
  · rw [if_pos hts]
    exact Triple.pure fun s t h => (hpost s t h).1.finished
  · rw [if_neg hts]
    exact (triple_yieldClosing hts).mono hpost (fun _ _ _ => id) fun _ _ _ => id

/-- What the `try` block ends with: the cleanup is still to come, or it has run. -/
def Pending (S : StreamSetting) (s : StreamState) (t : StreamTrace) : Prop :=
  Opened false s.terminalState True s t ∨ Finished S s t

theorem Opened.pending (h : Opened false s.terminalState K s t) : Pending S s t :=
  Or.inl ⟨h.early, h.sessionCleaned, h.cleaned, rfl, fun _ => trivial⟩

/-- **The `finally` block** runs the cleanup if it is still to come. -/
theorem triple_release :
    Triple (Pending S) (release S) (fun _ _ t => Ended S t) fun _ _ t => Ended S t := by
  have hmark : Triple (Pending S)
      (modify fun s =>
        { s with
          tailBuffer := s.tailBuffer.terminate
          contextState := some (s.contextState.getD s.terminalState) })
      (fun _ => Pending S) fun _ _ t => Ended S t := by
    refine Triple.modify fun s t h => h.imp (fun h => ?_) fun h => h
    exact ⟨h.early, h.sessionCleaned, h.cleaned, rfl, h.noticed⟩
  have hget : Triple (Pending S) get
      (fun (b : StreamState) s t => Pending S s t ∧ b.cleaned = s.cleaned)
      fun _ _ t => Ended S t := Triple.get fun _ _ h => ⟨h, rfl⟩
  refine Triple.bind hmark fun _ => Triple.bind hget fun b => ?_
  split_ifs with hb
  · refine Triple.pure fun s t h => ?_
    obtain ⟨hopened | hfinished, hcleaned⟩ := h
    · rw [hopened.cleaned, hb] at hcleaned
      cases hcleaned
    · exact hfinished.2
  · have hcleanup : ∀ ts, Triple (Opened false ts True)
        (catchFailure (cleanup S (b.contextState.getD b.terminalState)) (pure ()))
        (fun _ _ t => Ended S t) fun _ _ t => Ended S t := by
      intro ts
      refine Triple.catchFailure (R := fun _ t => Ended S t) ?_ (Triple.pure fun _ _ h => h)
      refine (triple_cleanup _).mono (fun _ _ => id) (fun _ _ _ h => Or.inl h.1.cleanedUp)
        fun e s t h => ?_
      split_ifs
      · exact Or.inl h.cleanedUp
      · exact Or.inl h.cleanedUp
    refine (Triple.of_exists hcleanup).mono (fun s t h => ?_) (fun _ _ _ => id) fun _ _ _ => id
    obtain ⟨hopened | hfinished, hcleaned⟩ := h
    · exact ⟨s.terminalState, hopened⟩
    · exact absurd (hcleaned.trans hfinished.1) hb

/-- **A stream.** When it has ended the cleanup has run; while it is suspended it may still be to
come. -/
theorem triple_runStream (arrivals : List (StreamEvent × Readings)) :
    Triple Reading (runStream S arrivals) (fun _ _ t => Ended S t)
      fun e _ t => Ended S t ∨ e = .paused ∧ ∀ x ∈ t, IsEarly x := by
  have hhandler : Triple Reading
      (modify (fun s => { s with terminalState := .providerError }) >>= fun _ =>
        yieldFrame (errorFrame "provider_error".toList) : Stream Unit)
      (fun _ => Stopped) fun _ => Pending S := by
    have hkeeps : KeepsReading
        (modify (fun s => { s with terminalState := .providerError }) >>= fun _ =>
          yieldFrame (errorFrame "provider_error".toList) : Stream Unit) :=
      Triple.bind (keepsReading_modify (fun _ => rfl) fun _ => rfl) fun _ =>
        keepsReading_yieldFrame (by simp [errorFrame, emit])
    exact hkeeps.mono (fun _ _ => id) (fun _ _ _ => Reading.stopped) fun _ _ _ => Opened.pending
  have hforward : Triple Reading
      (catchFailure (forwardEvents S arrivals)
        (modify (fun s => { s with terminalState := .providerError }) >>= fun _ =>
          yieldFrame (errorFrame "provider_error".toList)))
      (fun _ => Stopped) fun _ => Pending S := by
    refine Triple.catchFailure ((triple_forwardEvents arrivals).mono (fun _ _ => id)
      (fun _ _ _ => id) fun e s t h => ?_) hhandler
    split_ifs
    · exact h
    · exact h.pending
  have hbody := Triple.bind (keepsReading_suspend.mono (fun _ _ => id) (fun _ _ _ => id)
    fun _ _ _ => Opened.pending) fun _ =>
      Triple.bind hforward fun _ => (triple_close (S := S)).mono (fun _ _ => id)
        (fun _ _ _ => id) fun _ _ _ => Or.inr
  refine Triple.ensure hbody (fun _ => ?_) (fun e he => ?_) fun s t h => ?_
  · exact triple_release.mono (fun _ _ => Or.inr) (fun _ _ _ => id) fun _ _ _ => Or.inl
  · exact triple_release.mono (fun _ _ => id) (fun _ _ _ => Or.inl) fun _ _ _ => Or.inl
  · obtain h | h := h
    · exact Or.inr ⟨rfl, h.early⟩
    · exact Or.inl h.2

/-! ### The protocol -/

/-- An entry is a call of `cleanup`. -/
def isCleanup : Entry Happening Act → Bool
  | .act (.cleanup _) => true
  | _ => false

/-- The closing frame. -/
def doneEntry : Entry Happening Act := .act (.frame .done)

/-- What a stream keeps: one cleanup when it has ended and no second one, at most one closing frame,
which is sent only when the trace before it is ready for it, and no frame after it. -/
structure Protocol (ready : StreamTrace → Prop) (ended : Prop) (t : StreamTrace) : Prop where
  cleanup_le : t.countP isCleanup ≤ 1
  cleanup_eq : ended → t.countP isCleanup = 1
  done_le : t.count doneEntry ≤ 1
  done_ready : ∀ before after, t = before ++ doneEntry :: after → ready before
  done_last : ∀ before after f, t = before ++ doneEntry :: after → .act (.frame f) ∉ after

/-- The audit event is written, and the client has not disconnected. -/
def AuditedAndConnected (t : StreamTrace) : Prop :=
  .act .auditWritten ∈ t ∧ .env .disconnect ∉ t

/-- A run of the generator. -/
def run (S : StreamSetting) (started : ℚ) (arrivals : List (StreamEvent × Readings))
    (script : List (Suspension Happening)) : Except Exit Unit × StreamTrace :=
  let result := runStream S arrivals
    { state := { tailBuffer := TailBuffer.create started }, script := script }
  (result.1, result.2.trace)

/-- A run keeps the protocol; it has ended unless it is suspended. -/
def Keeps (ready : StreamTrace → Prop) (r : Except Exit Unit × StreamTrace) : Prop :=
  Protocol ready (r.1 ≠ .error .paused) r.2

theorem countP_of_early (h : ∀ e ∈ t, IsEarly e) : t.countP isCleanup = 0 := by
  refine List.countP_eq_zero.mpr fun e he => ?_
  have hearly := h e he
  unfold isCleanup
  split
  · exact hearly.elim
  · exact Bool.false_ne_true

theorem countP_of_silent (h : ∀ e ∈ t, IsSilent e) : t.countP isCleanup = 0 := by
  refine List.countP_eq_zero.mpr fun e he => ?_
  have hsilent := h e he
  unfold isCleanup
  split
  · exact hsilent.elim
  · exact Bool.false_ne_true

theorem done_not_mem_of_early (h : ∀ e ∈ t, IsEarly e) : doneEntry ∉ t := fun he =>
  h _ he rfl

theorem CleanedUp.countP (h : CleanedUp t) : t.countP isCleanup = 1 := by
  obtain ⟨before, ts, after, rfl, hbefore, hafter⟩ := h
  rw [List.countP_append, List.countP_cons_of_pos rfl, countP_of_early hbefore,
    countP_of_silent hafter]

theorem CleanedUp.done_not_mem (h : CleanedUp t) : doneEntry ∉ t := by
  obtain ⟨before, ts, after, rfl, hbefore, hafter⟩ := h
  rintro he
  obtain he | he := List.mem_append.mp he
  · exact done_not_mem_of_early hbefore he
  · obtain he | he := List.mem_cons.mp he
    · cases he
    · exact hafter _ he

/-- A trace without a closing frame keeps what is asked of one. -/
theorem protocol_of_not_mem {ready : StreamTrace → Prop} {ended : Prop} (h : doneEntry ∉ t)
    (hle : t.countP isCleanup ≤ 1) (heq : ended → t.countP isCleanup = 1) :
    Protocol ready ended t where
  cleanup_le := hle
  cleanup_eq := heq
  done_le := by simp [List.count_eq_zero_of_not_mem h]
  done_ready before after ht := absurd (by simp [ht]) h
  done_last before after f ht := absurd (by simp [ht]) h

theorem Closed.protocol {ended : Prop} (h : Closed S t) : Protocol (MayClose S) ended t := by
  obtain ⟨before, f, occurs, rfl, hcleaned, hmay⟩ := h
  have henv : ∀ e ∈ occurs.map Entry.env, IsSilent (e : Entry Happening Act) := fun e he => by
    obtain ⟨happening, rfl⟩ := exists_of_mem_env he
    exact trivial
  have hcount : List.countP isCleanup
      (before ++ Entry.act (.frame f) :: occurs.map Entry.env) = 1 := by
    rw [List.countP_append, hcleaned.countP, List.countP_cons_of_neg Bool.false_ne_true,
      countP_of_silent henv]
  have hdone : doneEntry ∉ occurs.map (Entry.env : Happening → Entry Happening Act) :=
    fun he => (henv _ he).elim
  by_cases hf : f = .done
  · subst hf
    refine ⟨hcount.le, fun _ => hcount, ?_, fun front back ht => ?_, fun front back f ht he => ?_⟩
    · have hone : (before ++ doneEntry :: occurs.map Entry.env).count doneEntry = 1 := by
        rw [List.count_append, List.count_cons_self, List.count_eq_zero_of_not_mem
          hcleaned.done_not_mem, List.count_eq_zero_of_not_mem hdone]
      exact hone.le
    · obtain ⟨rfl, -, -⟩ :=
        (List.append_cons_inj_of_notMem hcleaned.done_not_mem hdone).mp ht
      exact hmay rfl
    · obtain ⟨-, -, rfl⟩ :=
        (List.append_cons_inj_of_notMem hcleaned.done_not_mem hdone).mp ht
      exact (henv _ he).elim
  · refine protocol_of_not_mem (fun he => ?_) hcount.le fun _ => hcount
    obtain he | he := List.mem_append.mp he
    · exact hcleaned.done_not_mem he
    · obtain he | he := List.mem_cons.mp he
      · exact hf (Act.frame.inj (Entry.act.inj he)).symm
      · exact hdone he

/-- **Every run.** Whatever the events are and wherever the stream fails, is cancelled or loses its
client, it keeps the protocol: the closing frame comes after the audit write, if there is an audit
chain, and not after a disconnect that was noticed. -/
theorem protocol_run (S : StreamSetting) (started : ℚ) (arrivals : List (StreamEvent × Readings))
    (script : List (Suspension Happening)) :
    Keeps (MayClose S) (run S started arrivals script) := by
  have hrun := triple_runStream (S := S) arrivals
    { state := { tailBuffer := TailBuffer.create started }, script := script }
    ⟨fun _ he => absurd he List.not_mem_nil, rfl, rfl, rfl, fun he => absurd he List.not_mem_nil⟩
  have hended : ∀ {t : StreamTrace} {ended : Prop}, Ended S t → Protocol (MayClose S) ended t := by
    rintro t ended (h | h)
    · exact protocol_of_not_mem h.done_not_mem h.countP.le fun _ => h.countP
    · exact h.protocol
  unfold Keeps run
  dsimp only
  generalize runStream S arrivals _ = result at hrun ⊢
  obtain ⟨result, w⟩ := result
  cases result with
  | ok _ => exact hended hrun
  | error e =>
    obtain h | ⟨rfl, hearly⟩ := hrun
    · exact hended h
    · have hnone := countP_of_early hearly
      exact protocol_of_not_mem (done_not_mem_of_early hearly) (hnone.le.trans (Nat.zero_le 1))
        fun h => absurd rfl h

/-! ### A disconnect after the last poll -/

/-- A stream with this audit chain, or without one. -/
def plainSetting (hasAuditChain : Bool) : StreamSetting where
  unicode := .ascii
  dumpJson _ := []
  mapping := { entries := [], core_ne_nil := fun _ h => absurd h List.not_mem_nil }
  hasAuditChain := hasAuditChain

/-- One event, the finish event. -/
def finishEvents : List (StreamEvent × Readings) :=
  [({ eventType := .finish, finishReason := some .stop }, ⟨1, 1⟩)]

/-- A suspension at which nothing happens. -/
def quiet : Suspension Happening := { occurs := [] }

/-- The suspensions up to the audit write: the start of the session, the event, the poll, the frame,
and the deletion of the mapping. -/
def beforeAudit : List (Suspension Happening) := List.replicate 5 quiet

/-- A run in which the client disconnects while the audit event is written. -/
def lateRun : Except Exit Unit × StreamTrace :=
  run (plainSetting true) 0 finishEvents
    (beforeAudit ++ [{ occurs := [.disconnect] }, quiet])

/-- A run without an audit chain. -/
def unauditedRun : Except Exit Unit × StreamTrace :=
  run (plainSetting false) 0 finishEvents (beforeAudit ++ [quiet])

/-- **Late and unaudited.** A client that disconnects while the audit event is written still gets
the closing frame, and without an audit chain it is sent without an audit write. -/
theorem not_protocol_run :
    ¬ Keeps AuditedAndConnected lateRun ∧ ¬ Keeps AuditedAndConnected unauditedRun := by
  have hlate : lateRun.2 =
      [.act (.frame (.finish "stop".toList)), .act (.cleanup .finish), .act .mappingDeleted,
        .env .disconnect, .act .auditWritten] ++ doneEntry :: [] := by decide +kernel
  have hunaudited : unauditedRun.2 =
      [.act (.frame (.finish "stop".toList)), .act (.cleanup .finish), .act .mappingDeleted] ++
        doneEntry :: [] := by decide +kernel
  constructor
  · intro h
    exact (h.done_ready _ _ hlate).2 (by decide)
  · intro h
    exact absurd (h.done_ready _ _ hunaudited).1 (by decide)

end AnonReq.Streaming
