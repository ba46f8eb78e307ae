import Mathlib.Data.List.Range
import AnonReq.Foundation.Delivery
import AnonReq.Foundation.Runs

/-!
# The buffer of a sink

`SinkBuffer` of `soc/buffer.py` and the part of `asyncio.Queue` that it uses. `put` has no
suspension point, so it is one step; the retry loop is suspended in `get`, in `send_event` and in
`sleep`, and each of its steps leads from one of these to the next. Any of the steps may come
between any two others.

* `line` shows a buffer as a line of deliveries, in which each step is one or two moves.
* `Accounted` is the invariant, `accounted_step` its step lemma.
* `conserved_run`: in every run no exception leaves a step, and all events are accounted for.
-/

namespace AnonReq.Soc

variable {ε : Type*}

/-! ### The queue -/

/-- What the methods of the queue raise. -/
inductive QueueError where
  | full
  | empty
  | valueError
deriving DecidableEq

/-- `asyncio.Queue`. A `maxsize` that is not positive sets no limit. -/
structure Queue (α : Type*) where
  maxsize : ℤ
  items : List α
  unfinishedTasks : ℕ

namespace Queue

variable {α : Type*}

/-- `full()`. -/
def full (q : Queue α) : Bool := 0 < q.maxsize && q.maxsize ≤ q.items.length

/-- `put_nowait(item)`. -/
def putNowait (q : Queue α) (item : α) : Except QueueError (Queue α) :=
  if q.full then .error .full
  else .ok { q with items := q.items ++ [item], unfinishedTasks := q.unfinishedTasks + 1 }

/-- `get_nowait()`. -/
def getNowait (q : Queue α) : Except QueueError (α × Queue α) :=
  match q.items with
  | [] => .error .empty
  | item :: items => .ok (item, { q with items := items })

/-- `task_done()`. -/
def taskDone (q : Queue α) : Except QueueError (Queue α) :=
  if q.unfinishedTasks = 0 then .error .valueError
  else .ok { q with unfinishedTasks := q.unfinishedTasks - 1 }

end Queue

/-! ### The buffer -/

/-- Where the retry loop is suspended. -/
inductive LoopState (ε : Type*) where
  | getting
  | sending (entry : ℕ × ε) (attempt : ℕ)
  | sleeping (entry : ℕ × ε) (attempt : ℕ)

/-- `SinkBuffer`, with what has become of the entries that have left it: `forwarded` are those that
`send_event` has returned true for, `dropped` those that are counted as dropped after the last
attempt, and `evicted` those that `put` has taken out. -/
structure SinkBuffer (ε : Type*) where
  maxRetries : ℤ
  queue : Queue (ℕ × ε)
  counter : ℕ
  overflowEmitted : Bool
  overflowTotal : ℕ
  loop : LoopState ε
  forwarded : List (ℕ × ε)
  dropped : List (ℕ × ε)
  evicted : List (ℕ × ε)

namespace SinkBuffer

/-- `SinkBuffer(sink, maxsize, backoff)`, started. -/
def create (maxsize maxRetries : ℤ) : SinkBuffer ε where
  maxRetries := maxRetries
  queue := { maxsize := maxsize, items := [], unfinishedTasks := 0 }
  counter := 0
  overflowEmitted := false
  overflowTotal := 0
  loop := .getting
  forwarded := []
  dropped := []
  evicted := []

/-- `put(event)`. -/
def put (s : SinkBuffer ε) (event : ε) : Except QueueError (SinkBuffer ε) :=
  let seq := s.counter
  let s := { s with counter := s.counter + 1 }
  match s.queue.putNowait (seq, event) with
  | .ok queue => .ok { s with queue := queue, overflowEmitted := false }
  | .error _ => do
    let (oldest, queue) ← s.queue.getNowait
    let queue ← queue.taskDone
    let s := { s with
      overflowTotal := s.overflowTotal + 1
      overflowEmitted := true
      evicted := s.evicted ++ [oldest] }
    match queue.putNowait (seq, event) with
    | .ok queue => pure { s with queue := queue }
    -- still full after the eviction: the event itself is dropped
    | .error _ => pure { s with queue := queue }

/-- What follows the attempts in the body of the loop: the next entry is waited for. -/
def finish (s : SinkBuffer ε) : Except QueueError (SinkBuffer ε) := do
  let queue ← s.queue.taskDone
  pure { s with queue := queue, loop := .getting }

/-- What follows an attempt that did not deliver: the next one after a delay, or none. -/
def retry (s : SinkBuffer ε) (entry : ℕ × ε) (attempt : ℕ) : Except QueueError (SinkBuffer ε) :=
  if attempt < s.maxRetries then .ok { s with loop := .sleeping entry attempt }
  else { s with dropped := s.dropped ++ [entry] }.finish

/-- The attempts with an entry begin. Without any, it is dropped at once. -/
def attempts (s : SinkBuffer ε) (entry : ℕ × ε) : Except QueueError (SinkBuffer ε) :=
  if 0 < s.maxRetries + 1 then .ok { s with loop := .sending entry 0 }
  else { s with dropped := s.dropped ++ [entry] }.finish

/-- What can happen to a buffer that is not stopped: an event is put; `get` returns; `send_event`
returns true; it returns false or raises; `sleep` returns. -/
inductive Action (ε : Type*) where
  | put (event : ε)
  | get
  | delivered
  | failed
  | wake

/-- One step. What the loop is not suspended in does not return. -/
def step (s : SinkBuffer ε) : Action ε → Except QueueError (SinkBuffer ε)
  | .put event => s.put event
  | .get =>
    match s.loop, s.queue.getNowait with
    | .getting, .ok (entry, queue) => { s with queue := queue }.attempts entry
    | _, _ => .ok s
  | .delivered =>
    match s.loop with
    | .sending entry _ => { s with forwarded := s.forwarded ++ [entry] }.finish
    | _ => .ok s
  | .failed =>
    match s.loop with
    | .sending entry attempt => s.retry entry attempt
    | _ => .ok s
  | .wake =>
    match s.loop with
    | .sleeping entry attempt => .ok { s with loop := .sending entry (attempt + 1) }
    | _ => .ok s

/-- The entry that the loop has taken from the queue. -/
def inFlight (s : SinkBuffer ε) : List (ℕ × ε) :=
  match s.loop with
  | .getting => []
  | .sending entry _ | .sleeping entry _ => [entry]

/-! ### What has to hold -/

/-- The events put by a run. -/
def puts (actions : List (Action ε)) : List ε :=
  actions.filterMap fun
    | .put event => some event
    | _ => none

/-- The entries of events that are put one after the other. -/
def entries (events : List ε) : List (ℕ × ε) := events.zipIdx.map Prod.swap

/-- A buffer as a line of deliveries. -/
def line (s : SinkBuffer ε) : Delivery.Line (ℕ × ε) where
  queued := s.queue.items
  inFlight := s.inFlight
  delivered := s.forwarded
  lost := s.dropped
  evicted := s.evicted

/-- After a run that puts these events, each of them is in one place and stands there once, nothing
else is there, and the forwarded ones stand in the order of the puts. -/
structure Conserved (events : List ε) (s : SinkBuffer ε) : Prop where
  place : ∀ entry ∈ entries events, ∃! place, entry ∈ s.line.contents place
  once : ∀ place, (s.line.contents place).Nodup
  only : ∀ place, ∀ entry ∈ s.line.contents place, entry ∈ entries events
  bounded : 0 < s.queue.maxsize → s.queue.items.length ≤ s.queue.maxsize
  overflow : s.overflowTotal = s.evicted.length
  ordered : s.forwarded.Sublist (entries events)

/-- A step evicts nothing but the oldest entry of the queue. -/
def EvictsOldest (s s' : SinkBuffer ε) : Prop :=
  s'.evicted = s.evicted ∨ ∃ oldest rest, s.queue.items = oldest :: rest ∧
    s'.evicted = s.evicted ++ [oldest] ∧ ∀ entry ∈ rest, oldest.1 < entry.1

/-! ### Numbered entries -/

theorem entries_concat (events : List ε) (event : ε) :
    entries (events ++ [event]) = entries events ++ [(events.length, event)] := by
  simp [entries, List.zipIdx_append]

/-- The entries stand in the order of their numbers. -/
theorem pairwise_entries (events : List ε) :
    (entries events).Pairwise fun entry later => entry.1 < later.1 := by
  have hnumbers : (entries events).map Prod.fst = List.range' 0 events.length := by
    rw [entries, List.map_map]
    exact List.zipIdx_map_snd 0 events
  have hpairwise : ((entries events).map Prod.fst).Pairwise (· < ·) := by
    rw [hnumbers]
    exact List.pairwise_lt_range'
  exact List.pairwise_map.mp hpairwise

theorem nodup_entries (events : List ε) : (entries events).Nodup :=
  (pairwise_entries events).imp fun h heq => absurd (congrArg Prod.fst heq) h.ne

/-! ### The invariant -/

/-- After a run that puts these events, all of them are accounted for. -/
structure Accounted (events : List ε) (s : SinkBuffer ε) : Prop where
  tallies : Delivery.Tallies (entries events) s.line
  counter : s.counter = events.length
  unfinished : s.queue.unfinishedTasks = s.inFlight.length + s.queue.items.length
  bounded : 0 < s.queue.maxsize → s.queue.items.length ≤ s.queue.maxsize
  overflow : s.overflowTotal = s.evicted.length

theorem accounted_create (maxsize maxRetries : ℤ) :
    Accounted ([] : List ε) (create maxsize maxRetries) where
  tallies := ⟨List.Perm.refl _, List.Sublist.refl _⟩
  counter := rfl
  unfinished := rfl
  bounded := Int.le_of_lt
  overflow := rfl

variable {events : List ε} {s : SinkBuffer ε}

/-- After the last attempt with the entry in flight, the entry is settled. -/
theorem accounted_finish {settled : SinkBuffer ε} {entry : ℕ × ε} (h : Accounted events s)
    (hflight : s.inFlight = [entry])
    (hsettled : settled = { s with forwarded := s.forwarded ++ [entry] } ∨
      settled = { s with dropped := s.dropped ++ [entry] }) :
    ∃ s', settled.finish = .ok s' ∧ Accounted events s' ∧ s'.evicted = s.evicted := by
  have hunfinished : s.queue.unfinishedTasks = s.queue.items.length + 1 := by
    rw [h.unfinished, hflight, List.length_singleton, Nat.add_comm]
  have hqueue : settled.queue = s.queue := by
    obtain rfl | rfl := hsettled <;> rfl
  have hdone : settled.queue.taskDone =
      .ok { s.queue with unfinishedTasks := s.queue.items.length } := by
    rw [hqueue, Queue.taskDone, if_neg (by omega), hunfinished, Nat.add_sub_cancel]
  have hfinish : settled.finish = .ok { settled with
      queue := { s.queue with unfinishedTasks := s.queue.items.length }, loop := .getting } := by
    rw [finish, hdone]
    rfl
  refine ⟨_, hfinish, ?_, ?_⟩
  · have hmove : Delivery.Move s.line [] { settled with
        queue := { s.queue with unfinishedTasks := s.queue.items.length }
        loop := .getting : SinkBuffer ε }.line := by
      obtain rfl | rfl := hsettled
      · exact Delivery.Move.deliver s.line hflight
      · exact Delivery.Move.lose s.line hflight
    have htallies := h.tallies.move hmove
    rw [List.append_nil] at htallies
    obtain rfl | rfl := hsettled
    · exact ⟨htallies, h.counter, (Nat.zero_add _).symm, h.bounded, h.overflow⟩
    · exact ⟨htallies, h.counter, (Nat.zero_add _).symm, h.bounded, h.overflow⟩
  · obtain rfl | rfl := hsettled <;> rfl

/-- An attempt that did not deliver leads to a delay or to the end of the attempts. -/
theorem accounted_retry {entry : ℕ × ε} (h : Accounted events s) (hflight : s.inFlight = [entry])
    (attempt : ℕ) :
    ∃ s', s.retry entry attempt = .ok s' ∧ Accounted events s' ∧ s'.evicted = s.evicted := by
  rw [retry]
  split_ifs with hleft
  · obtain ⟨htallies, hcounter, hunfinished, hbounded, hoverflow⟩ := h
    rw [line, hflight] at htallies
    rw [hflight] at hunfinished
    exact ⟨_, rfl, ⟨htallies, hcounter, hunfinished, hbounded, hoverflow⟩, rfl⟩
  · exact accounted_finish h hflight (Or.inr rfl)

/-- An entry that is taken from the queue is in flight, or dropped without an attempt. -/
theorem accounted_attempts {entry : ℕ × ε} {rest : List (ℕ × ε)} (h : Accounted events s)
    (hloop : s.loop = .getting) (hitems : s.queue.items = entry :: rest) :
    ∃ s', { s with queue := { s.queue with items := rest } }.attempts entry = .ok s' ∧
      Accounted events s' ∧ s'.evicted = s.evicted := by
  have hfree : s.inFlight = [] := by rw [inFlight, hloop]
  have htallies := h.tallies.move (Delivery.Move.take s.line hitems hfree)
  rw [List.append_nil] at htallies
  have hunfinished := h.unfinished
  rw [hfree, hitems, List.length_nil, List.length_cons, Nat.zero_add, Nat.add_comm] at hunfinished
  have hbounded : 0 < s.queue.maxsize → rest.length ≤ s.queue.maxsize := by
    intro hpos
    have hlength := h.bounded hpos
    rw [hitems, List.length_cons] at hlength
    omega
  -- with the entry in flight all is accounted for, whether or not an attempt is made
  have htaken : Accounted events { s with
      queue := { s.queue with items := rest }, loop := .sending entry 0 } :=
    ⟨htallies, h.counter, hunfinished, hbounded, h.overflow⟩
  rw [attempts]
  split_ifs with hleft
  · exact ⟨_, rfl, htaken, rfl⟩
  · obtain ⟨s', hfinish, haccounted, hevicted⟩ := accounted_finish htaken rfl (Or.inr rfl)
    exact ⟨s', hfinish, haccounted, hevicted⟩

/-- Putting an event into a queue with room. -/
theorem put_of_not_full (hfull : ¬ s.queue.full = true) (event : ε) :
    s.put event = .ok { s with
      counter := s.counter + 1
      queue := { s.queue with
        items := s.queue.items ++ [(s.counter, event)]
        unfinishedTasks := s.queue.unfinishedTasks + 1 }
      overflowEmitted := false } := by
  simp [put, Queue.putNowait, hfull]

/-- Putting an event into a full queue: the front is evicted, after which there is room. -/
theorem put_of_full (h : Accounted events s) (hfull : s.queue.full = true) (event : ε) :
    ∃ oldest rest, s.queue.items = oldest :: rest ∧ (rest.length : ℤ) + 1 = s.queue.maxsize ∧
      s.put event = .ok { s with
        counter := s.counter + 1
        queue := { s.queue with
          items := rest ++ [(s.counter, event)]
          unfinishedTasks := s.inFlight.length + rest.length + 1 }
        overflowTotal := s.overflowTotal + 1
        overflowEmitted := true
        evicted := s.evicted ++ [oldest] } := by
  obtain ⟨hpos, hle⟩ : 0 < s.queue.maxsize ∧ s.queue.maxsize ≤ s.queue.items.length := by
    simpa [Queue.full] using hfull
  obtain ⟨oldest, rest, hitems⟩ : ∃ oldest rest, s.queue.items = oldest :: rest := by
    cases hitems : s.queue.items with
    | nil =>
      rw [hitems, List.length_nil] at hle
      omega
    | cons oldest rest => exact ⟨oldest, rest, rfl⟩
  have hlength : (rest.length : ℤ) + 1 = s.queue.maxsize := by
    have hbounded := h.bounded hpos
    rw [hitems, List.length_cons] at hle hbounded
    omega
  have hunfinished : s.queue.unfinishedTasks = s.inFlight.length + rest.length + 1 := by
    rw [h.unfinished, hitems, List.length_cons, Nat.add_assoc]
  refine ⟨oldest, rest, hitems, hlength, ?_⟩
  have hfirst : s.queue.putNowait (s.counter, event) = .error .full := if_pos hfull
  have hget : s.queue.getNowait = .ok (oldest, { s.queue with items := rest }) := by
    rw [Queue.getNowait, hitems]
  have hdone : Queue.taskDone { s.queue with items := rest } = .ok { s.queue with
      items := rest, unfinishedTasks := s.inFlight.length + rest.length } := by
    rw [Queue.taskDone, if_neg (by dsimp only; omega)]
    simp only [hunfinished, Nat.add_sub_cancel]
  have hroom : Queue.full { s.queue with
      items := rest, unfinishedTasks := s.inFlight.length + rest.length } = false := by
    simp only [Queue.full, Bool.and_eq_false_iff, decide_eq_false_iff_not]
    omega
  have hsecond : Queue.putNowait { s.queue with
      items := rest, unfinishedTasks := s.inFlight.length + rest.length } (s.counter, event) =
        .ok { s.queue with
          items := rest ++ [(s.counter, event)]
          unfinishedTasks := s.inFlight.length + rest.length + 1 } := by
    rw [Queue.putNowait, hroom]
    rfl
  simp only [put, hfirst, hget, hdone, hsecond, bind, Except.bind, pure, Except.pure]

/-- **Putting.** The event comes to the end of the queue, and a full queue loses its front. -/
theorem accounted_put (h : Accounted events s) (event : ε) :
    ∃ s', s.put event = .ok s' ∧ Accounted (events ++ [event]) s' ∧ EvictsOldest s s' := by
  have hcounter : s.counter + 1 = (events ++ [event]).length := by
    rw [h.counter, List.length_append, List.length_singleton]
  have hentries : entries (events ++ [event]) = entries events ++ [(s.counter, event)] := by
    rw [entries_concat, h.counter]
  by_cases hfull : s.queue.full = true
  · obtain ⟨oldest, rest, hitems, hlength, hput⟩ := put_of_full h hfull event
    have htallies := (h.tallies.move (Delivery.Move.evict s.line hitems)).move
      (Delivery.Move.put _ (s.counter, event))
    rw [List.append_nil, ← hentries] at htallies
    refine ⟨_, hput, ⟨htallies, hcounter, ?_, fun _ => ?_, ?_⟩,
      Or.inr ⟨oldest, rest, hitems, rfl, ?_⟩⟩
    · dsimp only [inFlight]
      rw [List.length_append, List.length_singleton, Nat.add_assoc]
    · dsimp only
      rw [List.length_append, List.length_singleton]
      omega
    · dsimp only
      rw [List.length_append, List.length_singleton, h.overflow]
    · -- the entries that are left have been numbered after the one that is evicted
      have hpairwise := (pairwise_entries events).sublist h.tallies.order
      rw [List.pairwise_append, line, hitems] at hpairwise
      exact (List.pairwise_cons.mp hpairwise.2.1).1
  · have htallies := h.tallies.move (Delivery.Move.put s.line (s.counter, event))
    rw [← hentries] at htallies
    refine ⟨_, put_of_not_full hfull event, ⟨htallies, hcounter, ?_, fun hpos => ?_, h.overflow⟩,
      Or.inl rfl⟩
    · dsimp only [inFlight]
      rw [List.length_append, List.length_singleton, h.unfinished, Nat.add_assoc]
      rfl
    · have hroom : ¬ (s.queue.maxsize ≤ s.queue.items.length) := fun hle =>
        hfull (by simp [Queue.full, hpos, hle])
      dsimp only
      rw [List.length_append, List.length_singleton]
      omega

/-- **A step.** It does not raise, keeps the accounts, and evicts only the front of the queue. -/
theorem accounted_step (h : Accounted events s) (action : Action ε) :
    ∃ s', s.step action = .ok s' ∧ Accounted (events ++ puts [action]) s' ∧ EvictsOldest s s' := by
  have hkept : ∀ s', Accounted events s' → Accounted (events ++ []) s' := fun s' h =>
    (List.append_nil events).symm ▸ h
  -- an action that does not fit where the loop is suspended changes nothing
  have hstay : ∃ s', Except.ok s = .ok (ε := QueueError) s' ∧ Accounted (events ++ []) s' ∧
      EvictsOldest s s' := ⟨s, rfl, hkept s h, Or.inl rfl⟩
  cases action with
  | put event => exact accounted_put h event
  | get =>
    rw [step]
    split
    next entry queue hloop hget =>
      obtain ⟨rest, hitems, rfl⟩ : ∃ rest, s.queue.items = entry :: rest ∧
          queue = { s.queue with items := rest } := by
        rw [Queue.getNowait] at hget
        cases hitems : s.queue.items with
        | nil => rw [hitems] at hget; exact absurd hget (by simp)
        | cons first rest =>
          rw [hitems] at hget
          obtain ⟨rfl, rfl⟩ := Prod.mk.inj (Except.ok.inj hget)
          exact ⟨rest, rfl, rfl⟩
      obtain ⟨s', hs', haccounted, hevicted⟩ := accounted_attempts h hloop hitems
      exact ⟨s', hs', hkept s' haccounted, Or.inl hevicted⟩
    next => exact hstay
  | delivered =>
    rw [step]
    split
    next entry attempt hloop =>
      obtain ⟨s', hs', haccounted, hevicted⟩ :=
        accounted_finish h (by rw [inFlight, hloop]) (Or.inl rfl)
      exact ⟨s', hs', hkept s' haccounted, Or.inl hevicted⟩
    next => exact hstay
  | failed =>
    rw [step]
    split
    next entry attempt hloop =>
      obtain ⟨s', hs', haccounted, hevicted⟩ :=
        accounted_retry h (by rw [inFlight, hloop]) attempt
      exact ⟨s', hs', hkept s' haccounted, Or.inl hevicted⟩
    next => exact hstay
  | wake =>
    rw [step]
    split
    next entry attempt hloop =>
      have hflight : s.inFlight = [entry] := by rw [inFlight, hloop]
      obtain ⟨htallies, hcounter, hunfinished, hbounded, hoverflow⟩ := h
      rw [line, hflight] at htallies
      rw [hflight] at hunfinished
      exact ⟨_, rfl, hkept _ ⟨htallies, hcounter, hunfinished, hbounded, hoverflow⟩, Or.inl rfl⟩
    next => exact hstay

theorem puts_append (actions more : List (Action ε)) :
    puts (actions ++ more) = puts actions ++ puts more := List.filterMap_append

/-- A run keeps the accounts. -/
theorem accounted_run (h : Accounted events s) (actions : List (Action ε)) :
    ∃ s', actions.foldlM step s = .ok s' ∧ Accounted (events ++ puts actions) s' := by
  induction actions generalizing events s with
  | nil => exact ⟨s, rfl, (List.append_nil events).symm ▸ h⟩
  | cons action actions ih =>
    obtain ⟨next, hnext, haccounted, -⟩ := accounted_step h action
    obtain ⟨s', hs', hrest⟩ := ih haccounted
    refine ⟨s', ?_, ?_⟩
    · rw [List.foldlM_cons, hnext]
      exact hs'
    · have hputs : puts (action :: actions) = puts [action] ++ puts actions :=
        puts_append [action] actions
      rwa [hputs, ← List.append_assoc]

theorem Accounted.conserved (h : Accounted events s) : Conserved events s where
  place := fun _ hentry => h.tallies.existsUnique_place (nodup_entries events) hentry
  once := h.tallies.nodup_contents (nodup_entries events)
  only := fun _ _ hentry => h.tallies.mem_of_mem_contents hentry
  bounded := h.bounded
  overflow := h.overflow
  ordered := by
    have horder := h.tallies.order
    rw [List.append_assoc] at horder
    exact (List.sublist_append_left _ _).trans horder

/-- **Every run**, whatever the order of its steps: no step raises, all events are accounted for,
and the next step evicts nothing but the oldest event of the queue. -/
theorem conserved_run (maxsize maxRetries : ℤ) (actions : List (Action ε)) :
    ∃ s, actions.foldlM step (create maxsize maxRetries) = .ok s ∧
      Conserved (puts actions) s ∧
      ∀ action, ∃ s', s.step action = .ok s' ∧ EvictsOldest s s' := by
  obtain ⟨s, hrun, haccounted⟩ := accounted_run (accounted_create maxsize maxRetries) actions
  rw [List.nil_append] at haccounted
  refine ⟨s, hrun, haccounted.conserved, fun action => ?_⟩
  obtain ⟨s', hs', -, hevicts⟩ := accounted_step haccounted action
  exact ⟨s', hs', hevicts⟩

end SinkBuffer

end AnonReq.Soc
