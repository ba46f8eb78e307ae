import AnonReq.Audit.Timestamp
import AnonReq.Foundation.Characters
import AnonReq.Foundation.Runs
import Mathlib.Data.List.Infix
import Mathlib.Data.List.Nodup

/-!
# Lifecycle stages

`LifecycleService` of `services/lifecycle.py`: the calls of `transition`, of any number and for any
tenants, interleaved at the reads and writes of the cache.

* `step` is one move of one call: it reads a key, or goes on with what it has read and writes,
  and any write may fail. The state of a tenant and the history are two keys.
* `Reliable` says of a run that the history of each tenant is a path of `validTransitions` whenever
  no call is running, with each call that has returned in it once, and that the calls of a tenant
  leave the others alone.
* `Sound` says of a step that its write comes in time: the key still holds what the call has read.
* `reliable_of_sound`: runs of such steps are reliable.
* `not_reliable`: two calls of one tenant read its state before either writes it.
-/

namespace AnonReq.Lifecycle

open AnonReq.Audit (DateTime UtcTime fromisoformat isoformat)

universe u

/-! ### Stages -/

/-- `LifecycleStage`. -/
inductive LifecycleStage where
  | design
  | review
  | testing
  | production
  | retired
deriving DecidableEq

/-- The value of a stage. -/
def LifecycleStage.value : LifecycleStage → String
  | .design => "design"
  | .review => "review"
  | .testing => "testing"
  | .production => "production"
  | .retired => "retired"

/-- `VALID_TRANSITIONS`. -/
def validTransitions : LifecycleStage → List LifecycleStage
  | .design => [.review]
  | .review => [.testing, .design]
  | .testing => [.production, .review]
  | .production => [.review, .retired]
  | .retired => [.design]

/-- What the methods raise. -/
inductive Raised where
  | valueError (message : String)
  | typeError
  | attributeError
  /-- The error of the cache at a write that fails. -/
  | writeFailed
deriving DecidableEq

/-- `LifecycleStage(value)`. -/
def lifecycleStage (value : String) : Except Raised LifecycleStage :=
  match [LifecycleStage.design, .review, .testing, .production, .retired].find?
      fun stage => stage.value = value with
  | some stage => .ok stage
  | none => .error (.valueError ("'" ++ value ++ "' is not a valid LifecycleStage"))

theorem lifecycleStage_value (stage : LifecycleStage) :
    lifecycleStage stage.value = .ok stage := by
  cases stage <;> rfl

theorem LifecycleStage.value_ne_empty (stage : LifecycleStage) : stage.value ≠ "" := by
  cases stage <;> decide

/-! ### Transitions and their entries in the history -/

/-- `LifecycleTransition`. -/
structure LifecycleTransition where
  fromStage : Option LifecycleStage
  toStage : LifecycleStage
  approvedBy : String
  notes : Option String := none
  timestamp : DateTime
deriving DecidableEq

/-- `LifecycleState`. -/
structure LifecycleState where
  tenantId : Text
  currentStage : LifecycleStage
  transitions : List LifecycleTransition := []
  version : ℕ := 1
  createdAt : DateTime
  updatedAt : DateTime
deriving DecidableEq

/-- An object in the stored history. -/
structure Entry where
  fromStage : Option String
  toStage : String
  approvedBy : String
  notes : Option String
  timestamp : String
deriving DecidableEq

/-- What `transition` appends to the history. -/
def LifecycleTransition.entry (made : LifecycleTransition) : Entry where
  fromStage := made.fromStage.map LifecycleStage.value
  toStage := made.toStage.value
  approvedBy := made.approvedBy
  notes := made.notes
  timestamp := String.ofList (isoformat 'T' made.timestamp)

/-- `datetime.fromisoformat(text)`. -/
def readTimestamp (text : String) : Except Raised DateTime :=
  match fromisoformat text.toList with
  | some timestamp => .ok timestamp
  | none => .error (.valueError ("Invalid isoformat string: '" ++ text ++ "'"))

/-- The `from_stage` of an object of the history. -/
def Entry.readFromStage (entry : Entry) : Except Raised (Option LifecycleStage) :=
  match entry.fromStage.filter fun value => decide (value ≠ "") with
  | some value => (lifecycleStage value).map some
  | none => .ok none

/-- What `get_transition_history` makes of an object of the history. -/
def Entry.transition (entry : Entry) : Except Raised LifecycleTransition := do
  let fromStage ← entry.readFromStage
  let toStage ← lifecycleStage entry.toStage
  let timestamp ← readTimestamp entry.timestamp
  return { fromStage, toStage, approvedBy := entry.approvedBy, notes := entry.notes, timestamp }

/-- **Round trip.** What is appended to the history is read back as it was. -/
theorem transition_entry (made : LifecycleTransition) : made.entry.transition = .ok made := by
  have hfrom : made.entry.readFromStage = .ok made.fromStage := by
    rw [Entry.readFromStage, LifecycleTransition.entry]
    rcases made.fromStage with _ | stage
    · rfl
    · simp only [Option.map_some, Option.filter, decide_eq_true stage.value_ne_empty, if_pos]
      rw [lifecycleStage_value]
      rfl
  have htime : readTimestamp made.entry.timestamp = .ok made.timestamp := by
    rw [readTimestamp, LifecycleTransition.entry, String.toList_ofList,
      Audit.fromisoformat_isoformat]
  have hto : lifecycleStage made.entry.toStage = .ok made.toStage := lifecycleStage_value _
  rw [Entry.transition, hfrom, hto, htime]
  rfl

theorem entry_injective : Function.Injective LifecycleTransition.entry := by
  intro made other h
  have hread := congrArg Entry.transition h
  rw [transition_entry, transition_entry] at hread
  exact Except.ok.inj hread

/-! ### The cache -/

/-- What a key of the cache holds: the JSON text of a state, or of a list of entries. -/
inductive Stored where
  | state (state : LifecycleState)
  | history (entries : List Entry)
deriving DecidableEq

/-- The cache; a key that does not exist holds nothing. -/
abbrev Cache := Text → Option Stored

/-- `_state_key`. -/
def stateKey (tenantId : Text) : Text := "anonreq:lifecycle:".toList ++ tenantId

/-- `_transitions_key`. -/
def transitionsKey (tenantId : Text) : Text := "anonreq:lifecycle:transitions:".toList ++ tenantId

theorem stateKey_injective : Function.Injective stateKey := fun _ _ h => List.append_cancel_left h

theorem transitionsKey_injective : Function.Injective transitionsKey :=
  fun _ _ h => List.append_cancel_left h

/-- **Keys.** The state of a tenant shares its key with the history of another if and only if its
identifier is the other's after `transitions:`. -/
theorem stateKey_eq_transitionsKey_iff {tenantId other : Text} :
    stateKey tenantId = transitionsKey other ↔ tenantId = "transitions:".toList ++ other := by
  have hprefix : "anonreq:lifecycle:transitions:".toList =
      "anonreq:lifecycle:".toList ++ "transitions:".toList := by decide
  have hkey : transitionsKey other = stateKey ("transitions:".toList ++ other) :=
    (congrArg (fun front => front ++ other) hprefix).trans
      (List.append_assoc "anonreq:lifecycle:".toList "transitions:".toList other)
  rw [hkey, stateKey_injective.eq_iff]

theorem stateKey_ne_transitionsKey (tenantId : Text) :
    stateKey tenantId ≠ transitionsKey tenantId := by
  rw [Ne, stateKey_eq_transitionsKey_iff]
  intro h
  have hlength := congrArg List.length h
  have hmark : "transitions:".toList.length = 12 := rfl
  rw [List.length_append, hmark] at hlength
  omega

/-- `get_state`. -/
def getState (cache : Cache) (tenantId : Text) : Except Raised (Option LifecycleState) :=
  match cache (stateKey tenantId) with
  | none => .ok none
  | some (.state state) => .ok (some state)
  | some (.history _) => .error .typeError

/-- The stage of a tenant with this state. -/
def stageOf (state : Option LifecycleState) : LifecycleStage :=
  (state.map LifecycleState.currentStage).getD .design

/-- `get_transition_history`. -/
def getTransitionHistory (cache : Cache) (tenantId : Text) :
    Except Raised (List LifecycleTransition) :=
  match cache (transitionsKey tenantId) with
  | none => .ok []
  | some (.history entries) => entries.mapM Entry.transition
  | some (.state _) => .error .attributeError

/-! ### A call of `transition` -/

/-- The arguments of `transition`. -/
structure Call where
  tenantId : Text
  toStage : LifecycleStage
  approvedBy : String := "system"
  notes : Option String := none

/-- A list of strings as it stands in a message. -/
def listText (values : List String) : String :=
  "[" ++ ", ".intercalate (values.map fun value => "'" ++ value ++ "'") ++ "]"

/-- The transition from the stage that is current, and the new state. -/
def makeTransition (call : Call) (currentStage : LifecycleStage) (version : ℕ)
    (transitions : List LifecycleTransition) (now : UtcTime) :
    Except Raised (LifecycleState × LifecycleTransition) :=
  if currentStage = call.toStage then
    .error (.valueError ("Cannot transition: already at " ++ call.toStage.value))
  else
    let allowed := validTransitions currentStage
    if call.toStage ∉ allowed then
      .error (.valueError ("Cannot transition from " ++ currentStage.value ++ " to " ++
        call.toStage.value ++ ". Allowed: " ++ listText (allowed.map LifecycleStage.value)))
    else
      let made : LifecycleTransition :=
        { fromStage := some currentStage, toStage := call.toStage, approvedBy := call.approvedBy
          notes := call.notes, timestamp := now.val }
      .ok
        ({ tenantId := call.tenantId
           currentStage := call.toStage
           transitions := transitions ++ [made]
           version := version + 1
           createdAt :=
             if version = 0 then now.val
             else (transitions.head?.map LifecycleTransition.timestamp).getD now.val
           updatedAt := now.val }, made)

/-- What a call makes of the state that it has read. -/
def advance (call : Call) (raw : Option Stored) (now : UtcTime) :
    Except Raised (LifecycleState × LifecycleTransition) :=
  match raw with
  | none => makeTransition call .design 0 [] now
  | some (.state state) =>
    makeTransition call state.currentStage state.version state.transitions now
  | some (.history _) => .error .typeError

/-- The history that a call has read, with its own entry at the end. -/
def appendEntry (raw : Option Stored) (made : LifecycleTransition) : Except Raised (List Entry) :=
  match raw with
  | none => .ok [made.entry]
  | some (.history entries) => .ok (entries ++ [made.entry])
  | some (.state _) => .error .attributeError

/-- How far a call has come. -/
inductive Phase where
  | idle
  /-- It has read the state. -/
  | fetched (raw : Option Stored)
  /-- It has written the state. -/
  | written (state : LifecycleState) (made : LifecycleTransition)
  /-- It has read the history too. -/
  | listed (state : LifecycleState) (made : LifecycleTransition) (raw : Option Stored)
  /-- It has raised, after it has written a state or before. -/
  | raised (made : Option LifecycleTransition) (error : Raised)
  /-- It has returned the state. -/
  | returned (state : LifecycleState) (made : LifecycleTransition)

/-- The transition of the state that a call has written. -/
def Phase.made : Phase → Option LifecycleTransition
  | .idle | .fetched _ => none
  | .written _ made | .listed _ made _ | .returned _ made => some made
  | .raised made _ => made

/-- The call has returned. -/
def Phase.Returned (phase : Phase) : Prop := ∃ state made, phase = .returned state made

/-- The call is running. -/
def Phase.Running : Phase → Prop
  | .fetched _ | .written _ _ | .listed _ _ _ => True
  | .idle | .raised _ _ | .returned _ _ => False

/-- The next move of a call: what it writes, and how far it is then. -/
def next (cache : Cache) (call : Call) (now : UtcTime) (succeeds : Bool) :
    Phase → Option (Text × Stored) × Phase
  | .idle => (none, .fetched (cache (stateKey call.tenantId)))
  | .fetched raw =>
    match advance call raw now with
    | .error error => (none, .raised none error)
    | .ok (state, made) =>
      if succeeds then (some (stateKey call.tenantId, .state state), .written state made)
      else (none, .raised none .writeFailed)
  | .written state made => (none, .listed state made (cache (transitionsKey call.tenantId)))
  | .listed state made raw =>
    match appendEntry raw made with
    | .error error => (none, .raised (some made) error)
    | .ok entries =>
      if succeeds then
        (some (transitionsKey call.tenantId, .history entries), .returned state made)
      else (none, .raised (some made) .writeFailed)
  | .raised made error => (none, .raised made error)
  | .returned state made => (none, .returned state made)

/-! ### Runs -/

/-- The calls of a run, and the tenants of the system, who may have no call. -/
structure LifecycleSetting (τ : Type u) where
  call : τ → Call
  tenants : Set Text
  tenant_mem : ∀ t, (call t).tenantId ∈ tenants

/-- The cache, and how far each call has come. -/
structure ServiceState (τ : Type u) where
  cache : Cache
  phase : τ → Phase

/-- A move of a call at a time; a write in it succeeds or fails. -/
structure Action (τ : Type u) where
  call : τ
  now : UtcTime
  succeeds : Bool := true

/-- Nothing is stored and no call has begun. -/
def initial (τ : Type u) : ServiceState τ := ⟨fun _ => none, fun _ => .idle⟩

/-- The cache after a write. -/
def Cache.write (cache : Cache) : Option (Text × Stored) → Cache
  | none => cache
  | some (key, value) => Function.update cache key (some value)

section

variable {τ : Type u} [DecidableEq τ] (S : LifecycleSetting τ)

/-- One step of a run. -/
def step (s : ServiceState τ) (a : Action τ) : ServiceState τ :=
  let result := next s.cache (S.call a.call) a.now a.succeeds (s.phase a.call)
  { cache := s.cache.write result.1
    phase := Function.update s.phase a.call result.2 }

/-! ### What is expected of a run -/

/-- The transitions lead from a stage to a stage, each of them a valid one. -/
def IsPath (start : LifecycleStage) : List LifecycleTransition → LifecycleStage → Prop
  | [], stop => start = stop
  | made :: rest, stop =>
    made.fromStage = some start ∧ made.toStage ∈ validTransitions start ∧
      IsPath made.toStage rest stop

/-- The transitions of a tenant with this state. -/
def transitionsOf (state : Option LifecycleState) : List LifecycleTransition :=
  (state.map LifecycleState.transitions).getD []

/-- The version of a tenant with this state. -/
def versionOf (state : Option LifecycleState) : ℕ := (state.map LifecycleState.version).getD 0

/-- What is read for a tenant is a valid history of its calls. -/
structure ValidHistory (s : ServiceState τ) (tenantId : Text) (state : Option LifecycleState) :
    Prop where
  read : getState s.cache tenantId = .ok state
  path : IsPath .design (transitionsOf state) (stageOf state)
  version : versionOf state = (transitionsOf state).length
  history : getTransitionHistory s.cache tenantId = .ok (transitionsOf state)
  /-- The transitions are those of calls of the tenant in some order, no call twice, and with
  every call that has returned. -/
  calls : ∃ order : List τ, order.Nodup ∧ (∀ t ∈ order, (S.call t).tenantId = tenantId) ∧
    (∀ t, (S.call t).tenantId = tenantId → (s.phase t).Returned → t ∈ order) ∧
    order.map (fun t => (s.phase t).made) = (transitionsOf state).map some

/-- The call of the step changes nothing that is read for another tenant. -/
def Isolated (s : ServiceState τ) (a : Action τ) : Prop :=
  ∀ other ∈ S.tenants, other ≠ (S.call a.call).tenantId →
    getState (step S s a).cache other = getState s.cache other ∧
      getTransitionHistory (step S s a).cache other = getTransitionHistory s.cache other

/-- At every moment of the run when no call is running, each tenant has a valid history, and the
calls leave other tenants alone. -/
def Reliable (actions : List (Action τ)) : Prop :=
  Runs.Along (step S) (Isolated S) (initial τ) actions ∧
    ∀ before, before <+: actions →
      (∀ t, ¬ ((Runs.exec (step S) (initial τ) before).phase t).Running) →
        ∀ tenantId ∈ S.tenants,
          ∃ state, ValidHistory S (Runs.exec (step S) (initial τ) before) tenantId state

/-- The entries that a key holds. -/
def entriesOf : Option Stored → List Entry
  | some (.history entries) => entries
  | _ => []

/-- The write of the step comes in time. A call writes the state while the key still holds what it
has read. It writes the history while the key still holds what it has read, when its transition is
the one of the stored transitions that comes next, and this write does not fail. Neither key is a
key of another tenant. -/
def Sound (s : ServiceState τ) (a : Action τ) : Prop :=
  let tenantId := (S.call a.call).tenantId
  match s.phase a.call with
  | .fetched raw =>
    (∃ result, advance (S.call a.call) raw a.now = .ok result) → a.succeeds = true →
      s.cache (stateKey tenantId) = raw ∧ ∀ other ∈ S.tenants, stateKey tenantId ≠
        transitionsKey other
  | .listed _ made raw =>
    a.succeeds = true ∧ s.cache (transitionsKey tenantId) = raw ∧
      (∃ state, s.cache (stateKey tenantId) = some (.state state) ∧
        entriesOf raw ++ [made.entry] <+: state.transitions.map LifecycleTransition.entry) ∧
      ∀ other ∈ S.tenants, stateKey other ≠ transitionsKey tenantId
  | _ => True

end

/-! ### What a step does -/

/-- How much of its work a call has done: a call that raises after it has written the state is not
counted. -/
inductive Progress where
  | before
  | writing (made : LifecycleTransition)
  | done (made : LifecycleTransition)

/-- How much of its work a call has done in a phase. -/
def Phase.progress : Phase → Progress
  | .idle | .fetched _ | .raised _ _ => .before
  | .written _ made | .listed _ made _ => .writing made
  | .returned _ made => .done made

variable {made : LifecycleTransition}

theorem Phase.running_of_writing {phase : Phase} (h : phase.progress = .writing made) :
    phase.Running := by
  cases phase with
  | written state made => trivial
  | listed state made raw => trivial
  | _ => cases h

theorem Phase.made_of_done {phase : Phase} (h : phase.progress = .done made) :
    phase.made = some made := by
  cases phase <;> cases h
  rfl

theorem Phase.done_of_returned {phase : Phase} (h : phase.Returned) :
    ∃ made, phase.progress = .done made := by
  obtain ⟨state, made, rfl⟩ := h
  exact ⟨made, rfl⟩

section

variable {τ : Type u} [DecidableEq τ] {S : LifecycleSetting τ} {s : ServiceState τ}
  {a : Action τ}

/-- The state that a call has fetched, as it goes on with it. -/
theorem advance_cases {call : Call} {raw : Option Stored} {now : UtcTime} {state : LifecycleState}
    (h : advance call raw now = .ok (state, made)) :
    ∃ before : Option LifecycleState, raw = before.map Stored.state ∧
      made.fromStage = some (stageOf before) ∧
      made.toStage ∈ validTransitions (stageOf before) ∧
      state.currentStage = made.toStage ∧
      state.transitions = transitionsOf before ++ [made] ∧
      state.version = versionOf before + 1 := by
  have hmake : ∀ {stage version transitions},
      makeTransition call stage version transitions now = .ok (state, made) →
        made.fromStage = some stage ∧ made.toStage ∈ validTransitions stage ∧
          state.currentStage = made.toStage ∧ state.transitions = transitions ++ [made] ∧
          state.version = version + 1 := by
    intro stage version transitions h
    simp only [makeTransition] at h
    split_ifs at h with hsame hallowed
    all_goals
      obtain ⟨rfl, rfl⟩ := Prod.mk.inj (Except.ok.inj h)
      exact ⟨rfl, hallowed, rfl, rfl, rfl⟩
  rcases raw with _ | before | entries
  · exact ⟨none, rfl, hmake h⟩
  · exact ⟨some before, rfl, hmake h⟩
  · cases h

/-- What a step does to the cache and to the progress of the calls. -/
inductive Effect (S : LifecycleSetting τ) (s : ServiceState τ) (a : Action τ) : Prop where
  /-- Nothing is written, and no call has come further. -/
  | quiet (cache : (step S s a).cache = s.cache)
      (progress : ((step S s a).phase a.call).progress = (s.phase a.call).progress)
  /-- The state is written. -/
  | state (raw : Option Stored) (state : LifecycleState) (made : LifecycleTransition)
      (before : s.phase a.call = .fetched raw) (succeeds : a.succeeds = true)
      (result : advance (S.call a.call) raw a.now = .ok (state, made))
      (cache : (step S s a).cache = Function.update s.cache
        (stateKey (S.call a.call).tenantId) (some (.state state)))
      (progress : ((step S s a).phase a.call).progress = .writing made)
  /-- The history is written. -/
  | history (state : LifecycleState) (made : LifecycleTransition) (raw : Option Stored)
      (entries : List Entry) (before : s.phase a.call = .listed state made raw)
      (result : appendEntry raw made = .ok entries)
      (cache : (step S s a).cache = Function.update s.cache
        (transitionsKey (S.call a.call).tenantId) (some (.history entries)))
      (progress : ((step S s a).phase a.call).progress = .done made)
  /-- The call raises after it has written the state. -/
  | stranded (state : LifecycleState) (made : LifecycleTransition) (raw : Option Stored)
      (before : s.phase a.call = .listed state made raw) (cache : (step S s a).cache = s.cache)
      (unwritten : a.succeeds = false ∨ ∃ error, appendEntry raw made = .error error)

theorem phase_step_of_ne {t : τ} (h : t ≠ a.call) : (step S s a).phase t = s.phase t := by
  simp only [step]
  exact Function.update_of_ne h _ _

/-- **Inversion of steps.** -/
theorem effect (S : LifecycleSetting τ) (s : ServiceState τ) (a : Action τ) : Effect S s a := by
  have hcache : (step S s a).cache =
      s.cache.write (next s.cache (S.call a.call) a.now a.succeeds (s.phase a.call)).1 := rfl
  have hphase : (step S s a).phase a.call =
      (next s.cache (S.call a.call) a.now a.succeeds (s.phase a.call)).2 := by
    simp only [step]
    exact Function.update_self _ _ _
  rcases hbefore : s.phase a.call with _ | raw | ⟨state, made⟩ | ⟨state, made, raw⟩ |
    ⟨made, error⟩ | ⟨state, made⟩
  all_goals rw [hbefore, next] at hcache hphase
  case fetched =>
    rcases hresult : advance (S.call a.call) raw a.now with error | ⟨state, made⟩
    · rw [hresult] at hcache hphase
      exact .quiet hcache (by rw [hphase, hbefore]; rfl)
    · rw [hresult] at hcache hphase
      rcases hsucceeds : a.succeeds with _ | _
      · rw [hsucceeds] at hcache hphase
        exact .quiet hcache (by rw [hphase, hbefore]; rfl)
      · rw [hsucceeds] at hcache hphase
        exact .state raw state made hbefore hsucceeds hresult hcache (by rw [hphase]; rfl)
  case listed =>
    rcases hresult : appendEntry raw made with error | entries
    · rw [hresult] at hcache
      exact .stranded state made raw hbefore hcache (Or.inr ⟨error, hresult⟩)
    · rw [hresult] at hcache hphase
      rcases hsucceeds : a.succeeds with _ | _
      · rw [hsucceeds] at hcache
        exact .stranded state made raw hbefore hcache (Or.inl hsucceeds)
      · rw [hsucceeds] at hcache hphase
        exact .history state made raw entries hbefore hresult hcache (by rw [hphase]; rfl)
  case raised | returned => exact .quiet hcache (by rw [hphase, hbefore])
  all_goals exact .quiet hcache (by rw [hphase, hbefore]; rfl)

/-- A step whose write comes in time writes to no key of another tenant. -/
theorem Sound.cache_eq (hsound : Sound S s a) {other : Text} (hmem : other ∈ S.tenants)
    (hother : other ≠ (S.call a.call).tenantId) :
    (step S s a).cache (stateKey other) = s.cache (stateKey other) ∧
      (step S s a).cache (transitionsKey other) = s.cache (transitionsKey other) := by
  cases effect S s a with
  | quiet hcache _ => simp only [hcache, and_self]
  | stranded _ _ _ _ hcache _ => simp only [hcache, and_self]
  | state raw state made hbefore hsucceeds hresult hcache _ =>
    simp only [Sound, hbefore] at hsound
    obtain ⟨-, hapart⟩ := hsound ⟨_, hresult⟩ hsucceeds
    rw [hcache]
    exact ⟨Function.update_of_ne (stateKey_injective.ne hother) _ _,
      Function.update_of_ne (hapart other hmem).symm _ _⟩
  | history state made raw entries hbefore _ hcache _ =>
    simp only [Sound, hbefore] at hsound
    obtain ⟨-, -, -, hapart⟩ := hsound
    rw [hcache]
    exact ⟨Function.update_of_ne (hapart other hmem) _ _,
      Function.update_of_ne (transitionsKey_injective.ne hother) _ _⟩

/-- **Step.** A step whose write comes in time leaves other tenants alone. -/
theorem Sound.isolated (hsound : Sound S s a) : Isolated S s a := by
  intro other hmem hother
  obtain ⟨hstate, hhistory⟩ := hsound.cache_eq hmem hother
  rw [getState, getState, getTransitionHistory, getTransitionHistory, hstate, hhistory]
  exact ⟨rfl, rfl⟩

/-! ### The invariant -/

theorem isPath_append {start stop : LifecycleStage} {transitions : List LifecycleTransition}
    (hpath : IsPath start transitions stop) (hfrom : made.fromStage = some stop)
    (hto : made.toStage ∈ validTransitions stop) :
    IsPath start (transitions ++ [made]) made.toStage := by
  induction transitions generalizing start with
  | nil =>
    obtain rfl := hpath
    exact ⟨hfrom, hto, rfl⟩
  | cons first rest ih => exact ⟨hpath.1, hpath.2.1, ih hpath.2.2⟩

/-- The invariant for a tenant. Its stored transitions are those that the history has and the
rest; the first were made by the calls that are done, the rest by those that still have to write
the history. -/
structure Tracked (S : LifecycleSetting τ) (s : ServiceState τ) (tenantId : Text)
    (done writing : List τ) (recorded rest : List LifecycleTransition) : Prop where
  state : ∃ state : Option LifecycleState,
    s.cache (stateKey tenantId) = state.map Stored.state ∧
      transitionsOf state = recorded ++ rest ∧ IsPath .design (recorded ++ rest) (stageOf state) ∧
      versionOf state = (recorded ++ rest).length
  entries : entriesOf (s.cache (transitionsKey tenantId)) =
    recorded.map LifecycleTransition.entry
  kind : ∀ state, s.cache (transitionsKey tenantId) ≠ some (.state state)
  done_progress : done.map (fun t => (s.phase t).progress) = recorded.map Progress.done
  writing_progress : (writing.map fun t => (s.phase t).progress).Perm (rest.map Progress.writing)
  done_nodup : done.Nodup
  writing_nodup : writing.Nodup
  tenant_done : ∀ t ∈ done, (S.call t).tenantId = tenantId
  tenant_writing : ∀ t ∈ writing, (S.call t).tenantId = tenantId
  complete : ∀ t, (S.call t).tenantId = tenantId →
    (s.phase t).progress = .before ∨ t ∈ done ∨ t ∈ writing

variable {tenantId : Text} {done writing : List τ} {recorded rest : List LifecycleTransition}

omit [DecidableEq τ] in
theorem Tracked.progress_of_done (h : Tracked S s tenantId done writing recorded rest) {t : τ}
    (ht : t ∈ done) : ∃ made, (s.phase t).progress = .done made := by
  have hmem := List.mem_map_of_mem (f := fun t => (s.phase t).progress) ht
  rw [h.done_progress, List.mem_map] at hmem
  obtain ⟨made, -, hmade⟩ := hmem
  exact ⟨made, hmade.symm⟩

omit [DecidableEq τ] in
theorem Tracked.progress_of_writing (h : Tracked S s tenantId done writing recorded rest) {t : τ}
    (ht : t ∈ writing) : ∃ made, (s.phase t).progress = .writing made := by
  have hmem := List.mem_map_of_mem (f := fun t => (s.phase t).progress) ht
  rw [h.writing_progress.mem_iff, List.mem_map] at hmem
  obtain ⟨made, -, hmade⟩ := hmem
  exact ⟨made, hmade.symm⟩

omit [DecidableEq τ] in
/-- The invariant depends on the two keys of the tenant and on the progress of its calls. -/
theorem Tracked.congr (h : Tracked S s tenantId done writing recorded rest)
    {s' : ServiceState τ} (hstate : s'.cache (stateKey tenantId) = s.cache (stateKey tenantId))
    (hhistory : s'.cache (transitionsKey tenantId) = s.cache (transitionsKey tenantId))
    (hprogress : ∀ t, (S.call t).tenantId = tenantId →
      (s'.phase t).progress = (s.phase t).progress) :
    Tracked S s' tenantId done writing recorded rest where
  state := hstate ▸ h.state
  entries := hhistory ▸ h.entries
  kind := hhistory ▸ h.kind
  done_progress := by
    rw [← h.done_progress]
    exact List.map_congr_left fun t ht => hprogress t (h.tenant_done t ht)
  writing_progress := by
    have heq : (writing.map fun t => (s'.phase t).progress) =
        writing.map fun t => (s.phase t).progress :=
      List.map_congr_left fun t ht => hprogress t (h.tenant_writing t ht)
    rw [heq]
    exact h.writing_progress
  done_nodup := h.done_nodup
  writing_nodup := h.writing_nodup
  tenant_done := h.tenant_done
  tenant_writing := h.tenant_writing
  complete t ht := by
    rw [hprogress t ht]
    exact h.complete t ht

/-- The progress of the other calls is the same after a step. -/
theorem map_progress_step {calls : List τ} (h : a.call ∉ calls) :
    calls.map (fun t => ((step S s a).phase t).progress) =
      calls.map fun t => (s.phase t).progress :=
  List.map_congr_left fun t ht => by
    rw [phase_step_of_ne fun heq => h (heq ▸ ht)]

/-- A state that is written in time adds a transition that the history still lacks. -/
theorem Tracked.state_step (h : Tracked S s (S.call a.call).tenantId done writing recorded rest)
    {raw : Option Stored} {state : LifecycleState} (hbefore : s.phase a.call = .fetched raw)
    (hstored : s.cache (stateKey (S.call a.call).tenantId) = raw)
    (hresult : advance (S.call a.call) raw a.now = .ok (state, made))
    (hcache : (step S s a).cache = Function.update s.cache
      (stateKey (S.call a.call).tenantId) (some (.state state)))
    (hprogress : ((step S s a).phase a.call).progress = .writing made) :
    Tracked S (step S s a) (S.call a.call).tenantId done (a.call :: writing) recorded
      (rest ++ [made]) := by
  have hnew : a.call ∉ done ∧ a.call ∉ writing := by
    constructor
    · intro hmem
      obtain ⟨made, hmade⟩ := h.progress_of_done hmem
      rw [hbefore] at hmade
      cases hmade
    · intro hmem
      obtain ⟨made, hmade⟩ := h.progress_of_writing hmem
      rw [hbefore] at hmade
      cases hmade
  have hhistory : (step S s a).cache (transitionsKey (S.call a.call).tenantId) =
      s.cache (transitionsKey (S.call a.call).tenantId) := by
    rw [hcache]
    exact Function.update_of_ne (stateKey_ne_transitionsKey _).symm _ _
  obtain ⟨before, rfl, hfrom, hto, hstage, htransitions, hversion⟩ := advance_cases hresult
  obtain ⟨before', hread, hall, hpath, hlength⟩ := h.state
  obtain rfl : before = before' := by
    refine Option.map_injective (fun _ _ hinj => Stored.state.inj hinj) (hstored.symm.trans hread)
  refine ⟨⟨some state, ?_, ?_, ?_, ?_⟩, hhistory ▸ h.entries, hhistory ▸ h.kind, ?_, ?_,
    h.done_nodup, List.nodup_cons.mpr ⟨hnew.2, h.writing_nodup⟩, h.tenant_done, ?_,
    fun t ht => ?_⟩
  · rw [hcache]
    exact Function.update_self _ _ _
  · rw [← List.append_assoc, ← hall]
    exact htransitions
  · rw [← List.append_assoc]
    have hstop := isPath_append hpath hfrom hto
    rwa [← hstage] at hstop
  · rw [← List.append_assoc, List.length_append, ← hlength]
    exact hversion
  · rw [map_progress_step hnew.1]
    exact h.done_progress
  · rw [List.map_cons, map_progress_step hnew.2, hprogress, List.map_append]
    exact (h.writing_progress.cons _).trans (List.perm_append_singleton _ _).symm
  · intro t ht
    obtain rfl | ht := List.mem_cons.mp ht
    · rfl
    · exact h.tenant_writing t ht
  · by_cases heq : t = a.call
    · exact Or.inr (Or.inr (heq ▸ List.mem_cons_self))
    · rw [phase_step_of_ne heq]
      exact (h.complete t ht).imp_right (Or.imp_right (List.mem_cons_of_mem _))

/-- A history that is written in time has one more of the stored transitions. -/
theorem Tracked.history_step (h : Tracked S s (S.call a.call).tenantId done writing recorded rest)
    {state : LifecycleState} {raw : Option Stored} {entries : List Entry}
    (hbefore : s.phase a.call = .listed state made raw) (hsound : Sound S s a)
    (hresult : appendEntry raw made = .ok entries)
    (hcache : (step S s a).cache = Function.update s.cache
      (transitionsKey (S.call a.call).tenantId) (some (.history entries)))
    (hprogress : ((step S s a).phase a.call).progress = .done made) :
    ∃ rest', Tracked S (step S s a) (S.call a.call).tenantId (done ++ [a.call])
      (writing.erase a.call) (recorded ++ [made]) rest' := by
  simp only [Sound, hbefore] at hsound
  obtain ⟨-, hstored, ⟨stored, hstate, hnext⟩, -⟩ := hsound
  have hentries : entries = entriesOf raw ++ [made.entry] := by
    rcases raw with _ | stored | entries'
    · exact (Except.ok.inj hresult).symm
    · cases hresult
    · exact (Except.ok.inj hresult).symm
  rw [← hstored, h.entries] at hentries hnext
  -- the call is one of those that still write, and its transition comes first in the rest
  have hwriting : (s.phase a.call).progress = .writing made := by
    rw [hbefore]
    rfl
  have hnotDone : a.call ∉ done := by
    intro hmem
    obtain ⟨made', hmade'⟩ := h.progress_of_done hmem
    rw [hwriting] at hmade'
    cases hmade'
  have hmem : a.call ∈ writing := by
    obtain hnone | hdone | hmem := h.complete a.call rfl
    · rw [hwriting] at hnone
      cases hnone
    · exact absurd hdone hnotDone
    · exact hmem
  obtain ⟨state', hread, hall, hpath, hlength⟩ := h.state
  have hrest : ∃ rest', rest = made :: rest' := by
    rw [hstate] at hread
    rcases state' with _ | state'
    · cases hread
    obtain rfl : stored = state' := Stored.state.inj (Option.some.inj hread)
    have hall' : stored.transitions = recorded ++ rest := hall
    rw [hall', List.map_append, List.prefix_append_right_inj] at hnext
    rcases rest with _ | ⟨first, rest'⟩
    · exact absurd hnext (by simp)
    · rw [List.map_cons, List.cons_prefix_cons] at hnext
      exact ⟨rest', by rw [entry_injective hnext.1]⟩
  obtain ⟨rest', rfl⟩ := hrest
  have hkey : (step S s a).cache (stateKey (S.call a.call).tenantId) =
      s.cache (stateKey (S.call a.call).tenantId) := by
    rw [hcache]
    exact Function.update_of_ne (stateKey_ne_transitionsKey _) _ _
  have hself : (step S s a).cache (transitionsKey (S.call a.call).tenantId) =
      some (.history entries) := by
    rw [hcache]
    exact Function.update_self _ _ _
  have hsame : recorded ++ [made] ++ rest' = recorded ++ made :: rest' := by simp
  refine ⟨rest', ⟨state', hkey.trans hread, ?_, ?_, ?_⟩, ?_, ?_, ?_, ?_, ?_,
    h.writing_nodup.erase _, ?_, fun t ht => h.tenant_writing t (List.mem_of_mem_erase ht),
    fun t ht => ?_⟩
  · rw [hsame]
    exact hall
  · rw [hsame]
    exact hpath
  · rw [hsame]
    exact hlength
  · rw [hself, entriesOf, hentries, List.map_append]
    rfl
  · intro stored' hstored'
    rw [hself] at hstored'
    cases hstored'
  · rw [List.map_append, map_progress_step hnotDone, h.done_progress, List.map_append]
    simp only [List.map_cons, List.map_nil, hprogress]
  · rw [map_progress_step fun hmem' => (h.writing_nodup.mem_erase_iff.mp hmem').1 rfl]
    refine List.Perm.cons_inv (a := Progress.writing made) ?_
    have hperm := ((List.perm_cons_erase hmem).map fun t => (s.phase t).progress).symm
    rw [List.map_cons, hwriting] at hperm
    exact hperm.trans h.writing_progress
  · rw [List.nodup_append]
    refine ⟨h.done_nodup, List.nodup_singleton _, fun t ht u hu heq => ?_⟩
    rw [List.mem_singleton.mp hu] at heq
    exact hnotDone (heq ▸ ht)
  · intro t ht
    obtain ht | ht := List.mem_append.mp ht
    · exact h.tenant_done t ht
    · rw [List.mem_singleton.mp ht]
  · by_cases heq : t = a.call
    · exact Or.inr (Or.inl (List.mem_append_right _ (List.mem_singleton.mpr heq)))
    · rw [phase_step_of_ne heq, List.mem_append, List.mem_erase_of_ne heq]
      exact (h.complete t ht).imp_right (Or.imp_left Or.inl)

/-- The invariant of runs whose writes come in time. -/
def Inv (S : LifecycleSetting τ) (s : ServiceState τ) : Prop :=
  ∀ tenantId ∈ S.tenants, ∃ done writing recorded rest,
    Tracked S s tenantId done writing recorded rest

/-- **Step.** A step whose write comes in time keeps the invariant. -/
theorem Inv.step (hinv : Inv S s) (hsound : Sound S s a) : Inv S (step S s a) := by
  intro tenantId hmem
  obtain ⟨done, writing, recorded, rest, h⟩ := hinv tenantId hmem
  by_cases hother : tenantId = (S.call a.call).tenantId
  · subst hother
    cases effect S s a with
    | quiet hcache hprogress =>
      refine ⟨done, writing, recorded, rest, h.congr (by rw [hcache]) (by rw [hcache])
        fun t _ => ?_⟩
      by_cases heq : t = a.call
      · rw [heq, hprogress]
      · rw [phase_step_of_ne heq]
    | state raw state made hbefore hsucceeds hresult hcache hprogress =>
      have hstored := hsound
      simp only [Sound, hbefore] at hstored
      exact ⟨_, _, _, _, h.state_step hbefore (hstored ⟨_, hresult⟩ hsucceeds).1 hresult hcache
        hprogress⟩
    | history state made raw entries hbefore hresult hcache hprogress =>
      obtain ⟨rest', hstep⟩ := h.history_step hbefore hsound hresult hcache hprogress
      exact ⟨_, _, _, _, hstep⟩
    | stranded state made raw hbefore _ hunwritten =>
      simp only [Sound, hbefore] at hsound
      obtain ⟨hsucceeds, hstored, -, -⟩ := hsound
      obtain hfails | ⟨error, herror⟩ := hunwritten
      · rw [hsucceeds] at hfails
        cases hfails
      · rcases raw with _ | stored | entries
        · cases herror
        · exact absurd hstored (h.kind stored)
        · cases herror
  · obtain ⟨hstate, hhistory⟩ := hsound.cache_eq hmem hother
    refine ⟨done, writing, recorded, rest, h.congr hstate hhistory fun t ht => ?_⟩
    rw [phase_step_of_ne fun heq => hother (by rw [← ht, heq])]

omit [DecidableEq τ] in
theorem inv_initial (S : LifecycleSetting τ) : Inv S (initial τ) := fun _ _ =>
  ⟨[], [], [], [],
    { state := ⟨none, rfl, rfl, rfl, rfl⟩
      entries := rfl
      kind := fun _ => by simp [initial]
      done_progress := rfl
      writing_progress := List.Perm.refl _
      done_nodup := List.nodup_nil
      writing_nodup := List.nodup_nil
      tenant_done := fun _ h => absurd h List.not_mem_nil
      tenant_writing := fun _ h => absurd h List.not_mem_nil
      complete := fun _ _ => Or.inl rfl }⟩

omit [DecidableEq τ] in
/-- When no call is running the invariant gives a valid history. -/
theorem Tracked.validHistory (h : Tracked S s tenantId done writing recorded rest)
    (hquiet : ∀ t, ¬ (s.phase t).Running) : ∃ state, ValidHistory S s tenantId state := by
  obtain rfl : writing = [] := by
    refine List.eq_nil_iff_forall_not_mem.mpr fun t ht => ?_
    obtain ⟨made, hmade⟩ := h.progress_of_writing ht
    exact hquiet t (Phase.running_of_writing hmade)
  obtain rfl : rest = [] := List.map_eq_nil_iff.mp h.writing_progress.symm.eq_nil
  obtain ⟨state, hread, hall, hpath, hlength⟩ := h.state
  rw [List.append_nil] at hall hpath hlength
  refine ⟨state, ?_, hall ▸ hpath, hall ▸ hlength, ?_, done, h.done_nodup, h.tenant_done,
    fun t ht hreturned => ?_, ?_⟩
  · rw [getState, hread]
    rcases state with _ | state <;> rfl
  · rw [hall, getTransitionHistory]
    have hentries := h.entries
    rcases hstored : s.cache (transitionsKey tenantId) with _ | stored | entries
    · rw [hstored] at hentries
      rw [List.map_eq_nil_iff.mp hentries.symm]
    · exact absurd hstored (h.kind stored)
    · rw [hstored, entriesOf] at hentries
      rw [Runs.mapM_eq_ok_iff, hentries, List.forall₂_map_left_iff]
      exact List.forall₂_same.mpr fun made _ => transition_entry made
  · obtain ⟨made, hdone⟩ := Phase.done_of_returned hreturned
    obtain hbefore | hmem | hmem := h.complete t ht
    · rw [hdone] at hbefore
      cases hbefore
    · exact hmem
    · exact absurd hmem List.not_mem_nil
  · rw [hall]
    have hmade := congrArg (List.map fun
      | Progress.done made => some made
      | _ => none) h.done_progress
    rw [List.map_map, List.map_map] at hmade
    refine Eq.trans (List.map_congr_left fun t ht => ?_) hmade
    obtain ⟨made, hdone⟩ := h.progress_of_done ht
    rw [Phase.made_of_done hdone, Function.comp_apply, hdone]

/-- **Lifecycle history is a valid path.** In a run of calls of any number, for any tenants and in
any order of their reads and writes, whose writes all come in time, each tenant has a valid history
at every moment when no call is running, and no call changes what is read for another tenant. -/
theorem reliable_of_sound (S : LifecycleSetting τ) (actions : List (Action τ))
    (hsound : Runs.Along (step S) (Sound S) (initial τ) actions) : Reliable S actions := by
  refine ⟨hsound.imp fun _ _ => Sound.isolated, fun before hbefore hquiet tenantId hmem => ?_⟩
  obtain ⟨more, rfl⟩ := hbefore
  have hinv := (Runs.along_append.mp hsound).1.exec_of_step (I := Inv S)
    (fun _ _ hinv hsound => hinv.step hsound) (inv_initial S)
  obtain ⟨done, writing, recorded, rest, h⟩ := hinv tenantId hmem
  exact h.validHistory hquiet

end

/-! ### Two calls of one tenant -/

/-- Noon on New Year's Day. -/
def sampleNow : UtcTime :=
  ⟨{ year := 2025, month := 1, day := 1, hour := 12, minute := 0, second := 0
     microsecond := 0, utcoffset := some 0
     valid := ⟨by decide, by decide, by decide, by decide, by simp⟩ }, rfl⟩

/-- Two operators send the one tenant to review. -/
def sampleSetting : LifecycleSetting Bool where
  call operator :=
    { tenantId := "acme".toList, toStage := .review
      approvedBy := if operator then "alice" else "bob" }
  tenants := {"acme".toList}
  tenant_mem _ := rfl

/-- A move of an operator's call. -/
def sampleMove (operator : Bool) : Action Bool := { call := operator, now := sampleNow }

/-- One of the operators runs alone. -/
theorem reliable_of_sound_sample :
    Reliable sampleSetting (List.replicate 4 (sampleMove true)) := by
  have hapart : ∀ tenantId ∈ sampleSetting.tenants, ∀ other ∈ sampleSetting.tenants,
      stateKey tenantId ≠ transitionsKey other := by
    rintro _ rfl _ rfl
    exact stateKey_ne_transitionsKey _
  exact reliable_of_sound sampleSetting _
    ⟨trivial, fun _ _ => ⟨rfl, hapart _ rfl⟩, trivial,
      ⟨rfl, rfl, ⟨_, rfl, List.prefix_refl _⟩, fun other hother => hapart other hother _ rfl⟩,
      trivial⟩

/-- Both operators read the state before either writes it: both calls return, and the state has
one transition. -/
theorem not_reliable :
    ¬ Reliable sampleSetting ([true, false, true, false, true, false, true, false].map sampleMove)
    := by
  intro h
  obtain ⟨state, hvalid⟩ := h.2 _ (List.prefix_refl _)
    (fun operator hrunning => by cases operator <;> exact hrunning) _ rfl
  have hread : (getState (Runs.exec (step sampleSetting) (initial Bool)
      ([true, false, true, false, true, false, true, false].map sampleMove)).cache
        "acme".toList).map (fun state => (transitionsOf state).length) = .ok 1 := rfl
  rw [hvalid.read] at hread
  have hone : (transitionsOf state).length = 1 := Except.ok.inj hread
  obtain ⟨order, -, -, hreturned, horder⟩ := hvalid.calls
  have hlength := congrArg List.length horder
  rw [List.length_map, List.length_map, hone, List.length_eq_one_iff] at hlength
  obtain ⟨operator, rfl⟩ := hlength
  have hboth : ∀ other, other = operator := fun other =>
    List.mem_singleton.mp (hreturned other rfl (by cases other <;> exact ⟨_, _, rfl⟩))
  exact Bool.false_ne_true ((hboth false).trans (hboth true).symm)

end AnonReq.Lifecycle
