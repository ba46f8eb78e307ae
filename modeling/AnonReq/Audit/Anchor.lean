import AnonReq.Audit.Sequential
import AnonReq.Foundation.Runs
import Mathlib.Algebra.Order.Ring.Int
import Mathlib.Data.List.MinMax

/-!
# Daily anchors

`ChainAnchorService` of `services/chain_anchor.py`: an anchor of a day is the hash of the joined
hashes of the events with that date, in id order.

* `step` runs `store_event` and the two transactions of `run_daily_anchor`, of any number of calls
  and in any order.
* `Certifies` says of a run that each anchored day is verified at every moment, and of a tampered
  table that the day is not.
* `OnTime` says of a step that it stores no event of a day that is anchored, and no anchor that
  newer events have made stale.
* `certifies_iff`: anchors certify their day exactly in runs whose steps are on time, against
  tampering that changes the joined text; `verifyAnchor_of_length`: other hashes of the right
  length do.
* `not_certifies`: an event from just before midnight is stored after the anchor.
-/

namespace AnonReq.Audit.Anchor

universe u

/-! ### Joined texts -/

/-- **Unique decoding.** A joined text determines the texts, if they have one length. -/
theorem join_injective {n : ℕ} (hn : 0 < n) {hashes others : List String}
    (hhashes : ∀ hash ∈ hashes, hash.length = n) (hothers : ∀ hash ∈ others, hash.length = n)
    (h : String.join hashes = String.join others) : hashes = others := by
  have hlength := congrArg String.length h
  induction hashes generalizing others with
  | nil =>
    rcases others with _ | ⟨other, others⟩
    · rfl
    · have hother := hothers other List.mem_cons_self
      rw [String.join_cons, String.length_append, hother, String.join_nil, String.length_empty]
        at hlength
      omega
  | cons hash hashes ih =>
    have hhash := hhashes hash List.mem_cons_self
    rcases others with _ | ⟨other, others⟩
    · rw [String.join_cons, String.length_append, hhash, String.join_nil, String.length_empty]
        at hlength
      omega
    · rw [String.join_cons, String.join_cons] at h
      have hlist := congrArg String.toList h
      rw [String.toList_append, String.toList_append] at hlist
      obtain ⟨hfirst, hrest⟩ := List.append_inj hlist <| by
        rw [String.length_toList, String.length_toList, hhash, hothers other List.mem_cons_self]
      have hrest := String.toList_inj.mp hrest
      rw [String.toList_inj.mp hfirst, ih (fun a ha => hhashes a (List.mem_cons_of_mem hash ha))
        (fun a ha => hothers a (List.mem_cons_of_mem other ha)) hrest
        (congrArg String.length hrest)]

/-- Further texts that are not empty change the joined text. -/
theorem join_append_eq_iff {hashes more : List String} (hmore : ∀ hash ∈ more, hash ≠ "") :
    String.join (hashes ++ more) = String.join hashes ↔ more = [] := by
  rw [String.join_append, String.append_eq_left_iff]
  rcases more with _ | ⟨hash, more⟩
  · simp
  · have hhash := hmore hash List.mem_cons_self
    simp [String.join_cons, hhash]

/-! ### Days -/

/-- `DATE(timestamp)`: the date in UTC of a stored timestamp. -/
def storedDay (timestamp : StoredTimestamp) : Option ℤ :=
  (decodeTimestamp timestamp).toOption.map utcDay

/-- `SELECT hash … WHERE DATE(timestamp) = :anchor_date ORDER BY id ASC`. -/
def dayHashes (rows : List Row) (anchorDate : ℤ) : List String :=
  (orderById (rows.filter fun row => decide (storedDay row.timestamp = some anchorDate))).map
    Row.hash

theorem mem_dayHashes {rows : List Row} {anchorDate : ℤ} {hash : String}
    (h : hash ∈ dayHashes rows anchorDate) : ∃ row ∈ rows, row.hash = hash := by
  obtain ⟨row, hrow, rfl⟩ := List.mem_map.mp h
  exact ⟨row, List.mem_of_mem_filter (List.mem_mergeSort.mp hrow), rfl⟩

/-- A further row comes last among those of its day, and changes no other day. -/
theorem dayHashes_concat {rows : List Row} {row : Row} (h : Increasing (rows ++ [row]))
    (anchorDate : ℤ) :
    dayHashes (rows ++ [row]) anchorDate = dayHashes rows anchorDate ++
      if storedDay row.timestamp = some anchorDate then [row.hash] else [] := by
  rw [dayHashes, dayHashes, orderById_of_increasing (h.filter _),
    orderById_of_increasing ((List.pairwise_append.mp h).1.filter _), List.filter_append,
    List.map_append]
  by_cases hday : storedDay row.timestamp = some anchorDate
  · rw [if_pos hday, List.filter_cons_of_pos (by simpa using hday)]
    rfl
  · rw [if_neg hday, List.filter_cons_of_neg (by simpa using hday)]
    rfl

/-! ### The service -/

/-- `DailyAnchor`, a row of the table `audit_anchor`. -/
structure DailyAnchor where
  anchorDate : ℤ
  dailyRootHash : String
  signature : String
  eventCount : ℕ
  createdAt : UtcTime
deriving DecidableEq

/-- What `compute_daily_anchor` raises: no events found for the date. -/
inductive NoEvents where
  | valueError (anchorDate : ℤ)
deriving DecidableEq

/-- The hash functions, the key of the service, and the calls of `run_daily_anchor` with their
dates. -/
structure AnchorSetting (τ : Type u) where
  H : List (String × Json) → String
  hash_ne : ∀ data, H data ≠ ""
  sha384 : String → String
  sha384_injective : Function.Injective sha384
  hmac : String → String → String
  signingKey : Option String := none
  date : τ → ℤ

namespace AnchorSetting

variable {τ : Type u} (S : AnchorSetting τ)

/-- `_sign_hash`. -/
def signHash (hashValue : String) : String :=
  match S.signingKey.filter fun key => decide (key ≠ "") with
  | none => ""
  | some key => S.hmac key hashValue

/-- The root hash of the hashes of a day. -/
def rootHash (hashes : List String) : String := S.sha384 (String.join hashes)

/-- `compute_daily_anchor`. -/
def computeDailyAnchor (rows : List Row) (anchorDate : ℤ) (now : UtcTime) :
    Except NoEvents DailyAnchor :=
  let hashes := dayHashes rows anchorDate
  if hashes = [] then .error (.valueError anchorDate)
  else
    let dailyRootHash := S.rootHash hashes
    .ok
      { anchorDate, dailyRootHash, signature := S.signHash dailyRootHash
        eventCount := hashes.length, createdAt := now }

end AnchorSetting

/-- Instants are compared by this instance. -/
local instance instPreorderInt : Preorder ℤ := Int.instLinearOrder.toPreorder

/-- `SELECT … WHERE anchor_date = :anchor_date ORDER BY created_at DESC LIMIT 1`. Of anchors with
one time it is the first. -/
def latestAnchor (anchors : List DailyAnchor) (anchorDate : ℤ) : Option DailyAnchor :=
  (anchors.filter fun anchor => decide (anchor.anchorDate = anchorDate)).argmax
    fun anchor => anchor.createdAt.val.instant

/-- `verify_anchor`. -/
def AnchorSetting.verifyAnchor {τ : Type u} (S : AnchorSetting τ) (rows : List Row)
    (anchors : List DailyAnchor) (anchorDate : ℤ) : Bool :=
  match latestAnchor anchors anchorDate with
  | none => false
  | some row =>
    let hashes := dayHashes rows anchorDate
    if hashes = [] then false
    else if S.rootHash hashes ≠ row.dailyRootHash then false
    else if S.signHash row.dailyRootHash ≠ row.signature then false
    else true

/-! ### Runs -/

/-- How far a call of `run_daily_anchor` has come. -/
inductive Phase where
  | idle
  /-- It has computed the anchor, and not stored it yet. -/
  | computed (anchor : DailyAnchor)
  | raised (error : NoEvents)
  | returned (anchor : DailyAnchor)

/-- The two tables, and how far each call has come. -/
structure AnchorState (τ : Type u) where
  db : Database
  anchors : List DailyAnchor := []
  phase : τ → Phase := fun _ => .idle

/-- A step of a run: a call of `store_event`, or one transaction of a call of `run_daily_anchor`. -/
inductive Action (τ : Type u) where
  | store (event : AuditEvent)
  | move (t : τ) (now : UtcTime)

/-- Empty tables. -/
def initial (τ : Type u) (dialect : Dialect) : AnchorState τ where
  db := { dialect }

section

variable {τ : Type u} [DecidableEq τ] (S : AnchorSetting τ)

/-- One step of a run. -/
def step (s : AnchorState τ) : Action τ → AnchorState τ
  | .store event => { s with db := (storeEvent S.H s.db event).2 }
  | .move t now =>
    match s.phase t with
    | .idle =>
      match S.computeDailyAnchor s.db.rows (S.date t) now with
      | .error error => { s with phase := Function.update s.phase t (.raised error) }
      | .ok anchor => { s with phase := Function.update s.phase t (.computed anchor) }
    | .computed anchor =>
      { s with
        anchors := s.anchors ++ [anchor]
        phase := Function.update s.phase t (.returned anchor) }
    | .raised _ => s
    | .returned _ => s

/-! ### What is expected of a run -/

/-- The day has an anchor. -/
def Anchored (s : AnchorState τ) (anchorDate : ℤ) : Prop :=
  ∃ anchor ∈ s.anchors, anchor.anchorDate = anchorDate

instance (s : AnchorState τ) (anchorDate : ℤ) : Decidable (Anchored s anchorDate) :=
  inferInstanceAs (Decidable (∃ anchor ∈ s.anchors, anchor.anchorDate = anchorDate))

/-- Every day that has an anchor is verified. -/
def Verified (s : AnchorState τ) : Prop :=
  ∀ anchorDate, Anchored s anchorDate → S.verifyAnchor s.db.rows s.anchors anchorDate = true

/-- Every day with an anchor is verified at every moment of the run; and not verified after it, if
the table is then replaced by one with other hashes of that day. -/
def Certifies (dialect : Dialect) (actions : List (Action τ)) (anchorDate : ℤ)
    (tampered : List Row) : Prop :=
  let last := Runs.exec (step S) (initial τ dialect) actions
  (∀ before, before <+: actions → Verified S (Runs.exec (step S) (initial τ dialect) before)) ∧
    (Anchored last anchorDate →
      dayHashes tampered anchorDate ≠ dayHashes last.db.rows anchorDate →
        S.verifyAnchor tampered last.anchors anchorDate = false)

/-- `store_event` is going to insert the event. -/
def Inserts (db : Database) (event : AuditEvent) : Prop :=
  event.hash = "" ∧ (∃ latest, getLatestEvent db.rows event.tenantId = .ok latest) ∧
    findStored db.rows event.eventId = none

instance (db : Database) (event : AuditEvent) : Decidable (Inserts db event) :=
  decidable_of_iff (event.hash = "" ∧
      (getLatestEvent db.rows event.tenantId).toOption.isSome = true ∧
      findStored db.rows event.eventId = none) <| by
    refine and_congr_right fun _ => and_congr_left fun _ => ?_
    rcases getLatestEvent db.rows event.tenantId with message | latest <;>
      simp [Except.toOption]

/-- An event is inserted before its day has an anchor. An anchor that is going to be the latest of
its day is stored while the day still has as many events as it counts. -/
def OnTime (s : AnchorState τ) : Action τ → Prop
  | .store event =>
    Inserts s.db event → ∀ anchorDate,
      storedDay (s.db.dialect.bind event.timestamp) = some anchorDate → ¬ Anchored s anchorDate
  | .move t _ =>
    match s.phase t with
    | .computed anchor =>
      (∀ other ∈ latestAnchor s.anchors anchor.anchorDate,
        other.createdAt.val.instant < anchor.createdAt.val.instant) →
          (dayHashes s.db.rows anchor.anchorDate).length = anchor.eventCount
    | _ => True

end

/-! ### What the steps do -/

theorem storeEvent_snd_of_inserts {H : List (String × Json) → String} {db : Database}
    {event : AuditEvent} (h : Inserts db event) :
    ∃ latest, (storeEvent H db event).2 = db.insert (linkEvent H event latest) := by
  obtain ⟨hhash, ⟨latest, hlatest⟩, hfresh⟩ := h
  exact ⟨latest, by simp [storeEvent, hhash, hlatest, hfresh]⟩

theorem storeEvent_snd_of_not_inserts {H : List (String × Json) → String} {db : Database}
    {event : AuditEvent} (h : ¬ Inserts db event) : (storeEvent H db event).2 = db := by
  rw [storeEvent]
  split_ifs with hhash
  · rfl
  · rcases hlatest : getLatestEvent db.rows event.tenantId with message | latest
    · rfl
    · rcases hfresh : findStored db.rows event.eventId with _ | row
      · exact absurd ⟨Decidable.not_not.mp hhash, ⟨latest, hlatest⟩, hfresh⟩ h
      · rfl

theorem latestAnchor_eq_none_iff {anchors : List DailyAnchor} {anchorDate : ℤ} :
    latestAnchor anchors anchorDate = none ↔
      ¬ ∃ anchor ∈ anchors, anchor.anchorDate = anchorDate := by
  simp [latestAnchor, List.argmax_eq_none, List.filter_eq_nil_iff]

/-- A further anchor is the latest of its day if it is newer than the latest so far. -/
theorem latestAnchor_concat (anchors : List DailyAnchor) (anchor : DailyAnchor) (anchorDate : ℤ) :
    (anchor.anchorDate = anchorDate ∧
      (∀ other ∈ latestAnchor anchors anchorDate,
        other.createdAt.val.instant < anchor.createdAt.val.instant) ∧
      latestAnchor (anchors ++ [anchor]) anchorDate = some anchor) ∨
    (¬ (anchor.anchorDate = anchorDate ∧ ∀ other ∈ latestAnchor anchors anchorDate,
        other.createdAt.val.instant < anchor.createdAt.val.instant) ∧
      latestAnchor (anchors ++ [anchor]) anchorDate = latestAnchor anchors anchorDate) := by
  by_cases hdate : anchor.anchorDate = anchorDate
  · have hconcat : latestAnchor (anchors ++ [anchor]) anchorDate =
        Option.casesOn (latestAnchor anchors anchorDate) (some anchor) fun other =>
          if other.createdAt.val.instant < anchor.createdAt.val.instant then some anchor
          else some other := by
      rw [latestAnchor, List.filter_append, List.filter_cons_of_pos (by simpa using hdate),
        List.filter_nil, List.argmax_concat]
      rfl
    rcases hlatest : latestAnchor anchors anchorDate with _ | other
    · rw [hlatest] at hconcat
      exact Or.inl ⟨hdate, by simp, hconcat⟩
    · rw [hlatest] at hconcat
      by_cases hnewer : other.createdAt.val.instant < anchor.createdAt.val.instant
      · refine Or.inl ⟨hdate, fun a ha => ?_, hconcat.trans (if_pos hnewer)⟩
        obtain rfl : other = a := Option.some.inj ha
        exact hnewer
      · exact Or.inr ⟨fun h => hnewer (h.2 other rfl), hconcat.trans (if_neg hnewer)⟩
  · refine Or.inr ⟨fun h => hdate h.1, ?_⟩
    rw [latestAnchor, latestAnchor, List.filter_append,
      List.filter_cons_of_neg (by simpa using hdate), List.filter_nil, List.append_nil]

/-! ### Anchors and the hashes they cover -/

section

variable {τ : Type u} {S : AnchorSetting τ}

/-- The anchor is the one of these hashes. -/
structure Covers (S : AnchorSetting τ) (hashes : List String) (anchor : DailyAnchor) : Prop where
  ne_nil : hashes ≠ []
  hash_ne : ∀ hash ∈ hashes, hash ≠ ""
  root : anchor.dailyRootHash = S.rootHash hashes
  signature : anchor.signature = S.signHash anchor.dailyRootHash
  count : anchor.eventCount = hashes.length

/-- **What is verified.** The day is verified if and only if the joined text of its hashes is that
of the hashes that the latest anchor covers. -/
theorem verifyAnchor_iff {rows : List Row} {anchors : List DailyAnchor} {anchorDate : ℤ}
    {anchor : DailyAnchor} {hashes : List String}
    (hlatest : latestAnchor anchors anchorDate = some anchor) (hcovers : Covers S hashes anchor) :
    S.verifyAnchor rows anchors anchorDate = true ↔
      String.join (dayHashes rows anchorDate) = String.join hashes := by
  have hroot : S.rootHash (dayHashes rows anchorDate) = anchor.dailyRootHash ↔
      String.join (dayHashes rows anchorDate) = String.join hashes := by
    rw [hcovers.root]
    exact S.sha384_injective.eq_iff
  have hjoin : String.join hashes ≠ "" := by
    intro h
    rw [← String.join_nil, ← List.nil_append hashes, join_append_eq_iff hcovers.hash_ne] at h
    exact hcovers.ne_nil h
  rw [AnchorSetting.verifyAnchor, hlatest]
  by_cases hnil : dayHashes rows anchorDate = []
  · rw [hnil, String.join_nil]
    exact ⟨fun h => absurd h (by simp), fun h => absurd h.symm hjoin⟩
  · simp only [if_neg hnil, ← hcovers.signature, hroot, ne_eq, not_true_eq_false, if_false, ite_not]
    split_ifs with h
    · exact ⟨fun _ => h, fun _ => rfl⟩
    · exact ⟨False.elim, fun hjoined => absurd hjoined h⟩

theorem computeDailyAnchor_eq_ok {rows : List Row} {anchorDate : ℤ} {now : UtcTime}
    {anchor : DailyAnchor} (hne : ∀ row ∈ rows, row.hash ≠ "")
    (h : S.computeDailyAnchor rows anchorDate now = .ok anchor) :
    anchor.anchorDate = anchorDate ∧ Covers S (dayHashes rows anchorDate) anchor := by
  simp only [AnchorSetting.computeDailyAnchor] at h
  split_ifs at h with hnil
  obtain rfl := Except.ok.inj h
  refine ⟨rfl, hnil, fun hash hhash => ?_, rfl, rfl, rfl⟩
  obtain ⟨row, hrow, rfl⟩ := mem_dayHashes hhash
  exact hne row hrow

/-! ### The invariant -/

/-- The tables themselves, whether steps are on time or not: ids increase, every row has a hash
of `H`, and an anchor that waits to be stored covers the first hashes of its day. -/
structure Grown (S : AnchorSetting τ) (s : AnchorState τ) : Prop where
  increasing : Increasing s.db.rows
  below : ∀ row ∈ s.db.rows, row.id < s.db.nextId
  hashed : ∀ row ∈ s.db.rows, ∃ data, row.hash = S.H data
  computed : ∀ t anchor, s.phase t = .computed anchor →
    ∃ hashes, hashes <+: dayHashes s.db.rows anchor.anchorDate ∧ Covers S hashes anchor

/-- The invariant of runs whose steps are on time: the latest anchor of a day covers its hashes. -/
structure Inv (S : AnchorSetting τ) (s : AnchorState τ) : Prop extends Grown S s where
  latest : ∀ anchorDate, ∀ anchor ∈ latestAnchor s.anchors anchorDate,
    Covers S (dayHashes s.db.rows anchorDate) anchor

theorem Grown.hash_ne {s : AnchorState τ} (h : Grown S s) {row : Row} (hrow : row ∈ s.db.rows) :
    row.hash ≠ "" := by
  obtain ⟨data, hdata⟩ := h.hashed row hrow
  exact hdata ▸ S.hash_ne data

theorem inv_initial (S : AnchorSetting τ) (dialect : Dialect) : Inv S (initial τ dialect) where
  increasing := List.Pairwise.nil
  below _ h := absurd h List.not_mem_nil
  hashed _ h := absurd h List.not_mem_nil
  computed _ _ h := by cases h
  latest _ _ h := by cases h

/-- Under the invariant every anchored day is verified. -/
theorem Inv.verified {s : AnchorState τ} (h : Inv S s) : Verified S s := by
  intro anchorDate hanchored
  rcases hlatest : latestAnchor s.anchors anchorDate with _ | anchor
  · exact absurd hanchored (latestAnchor_eq_none_iff.mp hlatest)
  · exact (verifyAnchor_iff hlatest (h.latest anchorDate anchor hlatest)).mpr rfl

/-- What inserting an event does to the hashes of a day. -/
theorem Grown.dayHashes_insert {s : AnchorState τ} (h : Grown S s) (event : AuditEvent)
    (anchorDate : ℤ) :
    dayHashes (s.db.insert event).rows anchorDate = dayHashes s.db.rows anchorDate ++
      if storedDay (s.db.dialect.bind event.timestamp) = some anchorDate then [event.hash]
      else [] := by
  have hincreasing : Increasing (s.db.rows ++ [newRow s.db.dialect s.db.nextId event]) :=
    List.pairwise_append.mpr ⟨h.increasing, List.pairwise_singleton _ _, fun a ha b hb => by
      rw [List.mem_singleton.mp hb]
      exact h.below a ha⟩
  exact dayHashes_concat hincreasing anchorDate

theorem Grown.insert {s : AnchorState τ} (h : Grown S s) {event : AuditEvent}
    (hhash : ∃ data, event.hash = S.H data) : Grown S { s with db := s.db.insert event } where
  increasing := List.pairwise_append.mpr ⟨h.increasing, List.pairwise_singleton _ _,
    fun a ha b hb => by
      rw [List.mem_singleton.mp hb]
      exact h.below a ha⟩
  below row hrow := by
    obtain hrow | hrow := List.mem_append.mp hrow
    · exact Nat.lt_succ_of_lt (h.below row hrow)
    · rw [List.mem_singleton.mp hrow]
      exact Nat.lt_succ_self _
  hashed row hrow := by
    obtain hrow | hrow := List.mem_append.mp hrow
    · exact h.hashed row hrow
    · rw [List.mem_singleton.mp hrow]
      exact hhash
  computed t anchor hphase := by
    obtain ⟨hashes, hprefix, hcovers⟩ := h.computed t anchor hphase
    refine ⟨hashes, hprefix.trans ?_, hcovers⟩
    rw [h.dayHashes_insert]
    exact List.prefix_append _ _

variable [DecidableEq τ] {s : AnchorState τ} {a : Action τ}

/-- What a step does, and what `OnTime` asks of it. -/
inductive Effect (S : AnchorSetting τ) (s : AnchorState τ) (a : Action τ) : Prop where
  /-- Neither table changes. -/
  | quiet (onTime : OnTime s a) (db : (step S s a).db = s.db)
      (anchors : (step S s a).anchors = s.anchors)
  /-- An event is inserted. -/
  | inserted (event : AuditEvent) (hash : ∃ data, event.hash = S.H data)
      (onTime : OnTime s a ↔ ∀ anchorDate,
        storedDay (s.db.dialect.bind event.timestamp) = some anchorDate → ¬ Anchored s anchorDate)
      (result : step S s a = { s with db := s.db.insert event })
  /-- An anchor is stored. -/
  | stored (t : τ) (anchor : DailyAnchor) (phase : s.phase t = .computed anchor)
      (onTime : OnTime s a ↔ ((∀ other ∈ latestAnchor s.anchors anchor.anchorDate,
        other.createdAt.val.instant < anchor.createdAt.val.instant) →
          (dayHashes s.db.rows anchor.anchorDate).length = anchor.eventCount))
      (db : (step S s a).db = s.db) (anchors : (step S s a).anchors = s.anchors ++ [anchor])

/-- **Inversion of steps.** -/
theorem effect (S : AnchorSetting τ) (s : AnchorState τ) (a : Action τ) : Effect S s a := by
  rcases a with event | ⟨t, now⟩
  · by_cases hinserts : Inserts s.db event
    · obtain ⟨latest, hstore⟩ := storeEvent_snd_of_inserts (H := S.H) hinserts
      refine .inserted (linkEvent S.H event latest) ⟨_, rfl⟩ ?_ ?_
      · exact ⟨fun h => h hinserts, fun h _ => h⟩
      · rw [step, hstore]
    · refine .quiet (fun h => absurd h hinserts) ?_ rfl
      exact storeEvent_snd_of_not_inserts hinserts
  · rcases hphase : s.phase t with _ | anchor | error | anchor
    · have honTime : OnTime s (.move t now) := by simp [OnTime, hphase]
      rcases hresult : S.computeDailyAnchor s.db.rows (S.date t) now with error | anchor
      · exact .quiet honTime (by simp [step, hphase, hresult]) (by simp [step, hphase, hresult])
      · exact .quiet honTime (by simp [step, hphase, hresult]) (by simp [step, hphase, hresult])
    · exact .stored t anchor hphase (by simp [OnTime, hphase]) (by simp [step, hphase])
        (by simp [step, hphase])
    all_goals
      exact .quiet (by simp [OnTime, hphase]) (by simp [step, hphase]) (by simp [step, hphase])

/-- An anchor that waits after a step was computed in it, or waited before. -/
theorem phase_step {t : τ} {anchor : DailyAnchor} (h : (step S s a).phase t = .computed anchor) :
    s.phase t = .computed anchor ∨
      ∃ now, S.computeDailyAnchor s.db.rows (S.date t) now = .ok anchor := by
  rcases a with event | ⟨u, now⟩
  · exact Or.inl h
  · rcases hphase : s.phase u with _ | other | error | other
    · rcases hresult : S.computeDailyAnchor s.db.rows (S.date u) now with error | other
      all_goals
        simp only [step, hphase, hresult] at h
        by_cases hu : t = u
        · subst hu
          rw [Function.update_self] at h
          first
          | cases h
            exact Or.inr ⟨now, hresult⟩
          | cases h
        · rw [Function.update_of_ne hu] at h
          exact Or.inl h
    · simp only [step, hphase] at h
      by_cases hu : t = u
      · subst hu
        rw [Function.update_self] at h
        cases h
      · rw [Function.update_of_ne hu] at h
        exact Or.inl h
    all_goals
      simp only [step, hphase] at h
      exact Or.inl h

/-- **Step.** Every step keeps the tables as they should be. -/
theorem Grown.step (h : Grown S s) : Grown S (step S s a) := by
  have hsame : (Anchor.step S s a).db = s.db → Grown S (Anchor.step S s a) := by
    intro hdb
    refine ⟨hdb ▸ h.increasing, hdb ▸ h.below, hdb ▸ h.hashed, fun t anchor hphase => ?_⟩
    rw [hdb]
    obtain hphase | ⟨now, hresult⟩ := phase_step hphase
    · exact h.computed t anchor hphase
    · obtain ⟨hdate, hcovers⟩ := computeDailyAnchor_eq_ok (fun _ => h.hash_ne) hresult
      exact ⟨_, hdate ▸ List.prefix_refl _, hcovers⟩
  cases effect S s a with
  | quiet _ hdb _ => exact hsame hdb
  | inserted event hhash _ hresult => exact hresult ▸ h.insert hhash
  | stored _ _ _ _ hdb _ => exact hsame hdb

/-- **Step.** A step on time keeps the invariant. -/
theorem Inv.step (h : Inv S s) (honTime : OnTime s a) : Inv S (step S s a) := by
  refine ⟨h.toGrown.step, fun anchorDate anchor hanchor => ?_⟩
  cases effect S s a with
  | quiet _ hdb hanchors =>
    rw [hdb]
    exact h.latest anchorDate anchor (hanchors ▸ hanchor)
  | inserted event hhash hiff hresult =>
    rw [hresult] at hanchor ⊢
    have hanchored : Anchored s anchorDate := by
      by_contra hnot
      exact absurd hanchor (by simp [latestAnchor_eq_none_iff.mpr hnot])
    rw [h.dayHashes_insert, if_neg fun hday => hiff.mp honTime anchorDate hday hanchored,
      List.append_nil]
    exact h.latest anchorDate anchor hanchor
  | stored t new hphase hiff hdb hanchors =>
    rw [hanchors] at hanchor
    rw [hdb]
    obtain ⟨rfl, hnewer, heq⟩ | ⟨-, heq⟩ := latestAnchor_concat s.anchors new anchorDate
    · rw [heq] at hanchor
      obtain rfl : new = anchor := Option.some.inj hanchor
      obtain ⟨hashes, hprefix, hcovers⟩ := h.computed t new hphase
      have hall := hprefix.eq_of_length (hcovers.count.symm.trans (hiff.mp honTime hnewer).symm)
      exact hall ▸ hcovers
    · rw [heq] at hanchor
      exact h.latest anchorDate anchor hanchor

/-- **Late steps.** A step after which every anchored day is verified was on time. -/
theorem Inv.onTime_of_verified (h : Inv S s) (hverified : Verified S (Anchor.step S s a)) :
    OnTime s a := by
  cases effect S s a with
  | quiet honTime _ _ => exact honTime
  | inserted event hhash hiff hresult =>
    refine hiff.mpr fun anchorDate hday hanchored => ?_
    rw [hresult] at hverified
    rcases hlatest : latestAnchor s.anchors anchorDate with _ | anchor
    · exact latestAnchor_eq_none_iff.mp hlatest hanchored
    · have hjoin := (verifyAnchor_iff hlatest (h.latest anchorDate anchor hlatest)).mp
        (hverified anchorDate hanchored)
      obtain ⟨data, hdata⟩ := hhash
      rw [h.dayHashes_insert, if_pos hday, join_append_eq_iff fun hash hmem => by
        rw [List.mem_singleton.mp hmem, hdata]
        exact S.hash_ne data] at hjoin
      exact List.cons_ne_nil _ _ hjoin
  | stored t new hphase hiff hdb hanchors =>
    refine hiff.mpr fun hnewer => ?_
    obtain ⟨-, -, heq⟩ | ⟨hnot, -⟩ := latestAnchor_concat s.anchors new new.anchorDate
    · obtain ⟨hashes, ⟨more, hmore⟩, hcovers⟩ := h.computed t new hphase
      have hstored : Anchored (Anchor.step S s a) new.anchorDate :=
        ⟨new, by rw [hanchors]; simp, rfl⟩
      rw [← hanchors] at heq
      have hjoin := (verifyAnchor_iff heq hcovers).mp (hverified _ hstored)
      have hmore_ne : ∀ hash ∈ more, hash ≠ "" := by
        intro hash hmem
        have hday : hash ∈ dayHashes s.db.rows new.anchorDate :=
          hmore ▸ List.mem_append_right _ hmem
        obtain ⟨row, hrow, rfl⟩ := mem_dayHashes hday
        exact h.hash_ne hrow
      rw [hdb, ← hmore, join_append_eq_iff hmore_ne] at hjoin
      rw [← hmore, hjoin, List.append_nil, hcovers.count]
    · exact absurd ⟨rfl, hnewer⟩ hnot

/-- **Runs.** Every anchored day is verified at every moment of a run if and only if every step
is on time. -/
theorem verified_iff (S : AnchorSetting τ) (dialect : Dialect) (actions : List (Action τ)) :
    (∀ before, before <+: actions →
        Verified S (Runs.exec (Anchor.step S) (initial τ dialect) before)) ↔
      Runs.Along (Anchor.step S) OnTime (initial τ dialect) actions := by
  rw [Runs.forall_prefix_iff, and_iff_right (inv_initial S dialect).verified]
  exact (Runs.along_congr (I := Inv S) (fun s a h honTime => h.step honTime)
    (fun s a h => ⟨fun honTime => (h.step honTime).verified, h.onTime_of_verified⟩)
    (inv_initial S dialect)).symm

/-- **Daily anchors certify their day.** For every run of `store_event` and `run_daily_anchor`,
with events of any tenants and dates, and every table put in place of the one at its end: each
anchored day is verified at every moment, and an anchored day with other hashes is not verified
after it, if and only if every step is on time and the other hashes give another joined text. -/
theorem certifies_iff (S : AnchorSetting τ) (dialect : Dialect) (actions : List (Action τ))
    (anchorDate : ℤ) (tampered : List Row) :
    Certifies S dialect actions anchorDate tampered ↔
      Runs.Along (Anchor.step S) OnTime (initial τ dialect) actions ∧
        (Anchored (Runs.exec (Anchor.step S) (initial τ dialect) actions) anchorDate →
          let rows := (Runs.exec (Anchor.step S) (initial τ dialect) actions).db.rows
          dayHashes tampered anchorDate ≠ dayHashes rows anchorDate →
            String.join (dayHashes tampered anchorDate) ≠
              String.join (dayHashes rows anchorDate)) := by
  rw [Certifies]
  simp only
  rw [verified_iff]
  refine and_congr_right fun honTime => ?_
  have hinv := honTime.exec_of_step (I := Inv S) (fun s a h honTime => h.step honTime)
    (inv_initial S dialect)
  refine forall_congr' fun hanchored => forall_congr' fun _ => ?_
  rcases hlatest : latestAnchor (Runs.exec (Anchor.step S) (initial τ dialect) actions).anchors
    anchorDate with _ | anchor
  · exact absurd hanchored (latestAnchor_eq_none_iff.mp hlatest)
  · rw [← Bool.not_eq_true,
      verifyAnchor_iff hlatest (hinv.latest anchorDate anchor hlatest)]

/-- **Tamper evidence.** After a run whose steps are on time, any other hashes of an anchored day
are detected, as long as they have the length of the hashes of `H`. -/
theorem verifyAnchor_of_length {n : ℕ} (hn : 0 < n) (hH : ∀ data, (S.H data).length = n)
    {dialect : Dialect} {actions : List (Action τ)} {anchorDate : ℤ} {tampered : List Row}
    (honTime : Runs.Along (Anchor.step S) OnTime (initial τ dialect) actions)
    (hanchored : Anchored (Runs.exec (Anchor.step S) (initial τ dialect) actions) anchorDate)
    (hlength : ∀ hash ∈ dayHashes tampered anchorDate, hash.length = n)
    (hne : dayHashes tampered anchorDate ≠
      dayHashes (Runs.exec (Anchor.step S) (initial τ dialect) actions).db.rows anchorDate) :
    S.verifyAnchor tampered (Runs.exec (Anchor.step S) (initial τ dialect) actions).anchors
      anchorDate = false := by
  have hinv := honTime.exec_of_step (I := Inv S) (fun s a h honTime => h.step honTime)
    (inv_initial S dialect)
  rcases hlatest : latestAnchor (Runs.exec (Anchor.step S) (initial τ dialect) actions).anchors
    anchorDate with _ | anchor
  · exact absurd hanchored (latestAnchor_eq_none_iff.mp hlatest)
  · rw [← Bool.not_eq_true, verifyAnchor_iff hlatest (hinv.latest anchorDate anchor hlatest)]
    intro hjoin
    refine hne (join_injective hn hlength (fun hash hmem => ?_) hjoin)
    obtain ⟨row, hrow, rfl⟩ := mem_dayHashes hmem
    obtain ⟨data, hdata⟩ := hinv.hashed row hrow
    rw [hdata, hH]

end

/-! ### Around midnight -/

/-- Five seconds after the midnight that follows `sampleTime`. -/
def sampleMorning : UtcTime :=
  ⟨{ year := 2024, month := 3, day := 1, hour := 0, minute := 0, second := 5, microsecond := 0
     utcoffset := some 0, valid := by decide }, rfl⟩

/-- One call of `run_daily_anchor`, for the day of `sampleTime`. -/
def sampleSetting : AnchorSetting Unit where
  H data := "#" ++ sampleHash data
  hash_ne data h := by simp [String.append_eq_empty_iff] at h
  sha384 := id
  sha384_injective := Function.injective_id
  hmac key text := key ++ text
  date _ := utcDay sampleTime

/-- Two events of the last second of the day: one is stored before the anchor, one after it. -/
def sampleActions : List (Action Unit) :=
  [.store (sampleEvent "e1" "acme"), .move () sampleMorning, .move () sampleMorning,
    .store (sampleEvent "e2" "acme")]

/-- An event is stored, and the anchor of its day afterwards. -/
def anchoredActions : List (Action Unit) :=
  [.store (sampleEvent "e1" "acme"), .move () sampleMorning, .move () sampleMorning]

/-- The same call, with a hash of one character. -/
def shortSetting : AnchorSetting Unit :=
  { sampleSetting with H := fun _ => "#", hash_ne := fun _ => by decide }

/-- An event whose hash is changed after the anchor of its day. -/
theorem verifyAnchor_of_length_replaced :
    shortSetting.verifyAnchor
      ((Runs.exec (step shortSetting) (initial Unit .sqlite) anchoredActions).db.rows.map
        fun row => { row with hash := "?" })
      (Runs.exec (step shortSetting) (initial Unit .sqlite) anchoredActions).anchors
      (utcDay sampleTime) = false := by
  let computed := Runs.exec (step shortSetting) (initial Unit .sqlite) (anchoredActions.take 2)
  have hcount : (match computed.phase () with
      | .computed anchor => decide
        ((dayHashes computed.db.rows anchor.anchorDate).length = anchor.eventCount)
      | _ => true) = true := by decide +kernel
  have hstored : OnTime computed (.move () sampleMorning) := by
    cases hphase : computed.phase () with
    | computed anchor =>
      rw [hphase] at hcount
      simp only [OnTime, hphase]
      exact fun _ => of_decide_eq_true hcount
    | idle | raised error | returned anchor => simp only [OnTime, hphase]
  refine verifyAnchor_of_length (n := 1) one_pos (fun _ => (by decide : "#".length = 1))
    ⟨fun _ day _ hanchored => ?_, trivial, hstored, trivial⟩ (by decide +kernel)
    (fun hash hmem => ?_) (by decide +kernel)
  · obtain ⟨anchor, hanchor, -⟩ := hanchored
    cases hanchor
  · obtain ⟨row, hrow, rfl⟩ := mem_dayHashes hmem
    obtain ⟨row', -, rfl⟩ := List.mem_map.mp hrow
    exact (by decide : "?".length = 1)

/-- An event that is stored after the anchor of its day makes the verification fail, with no
tampering. -/
theorem not_certifies :
    ¬ Certifies sampleSetting .sqlite sampleActions (utcDay sampleTime)
      (Runs.exec (step sampleSetting) (initial Unit .sqlite) sampleActions).db.rows := by
  intro h
  obtain ⟨-, -, -, hlate, -⟩ := (verified_iff sampleSetting .sqlite sampleActions).mp h.1
  exact hlate (by decide +kernel) (utcDay sampleTime) (by decide +kernel) (by decide +kernel)

end AnonReq.Audit.Anchor
