import AnonReq.Dsar.Workflow
import AnonReq.Foundation.Glob

/-!
# Erasing a subject

`DataErasureService` of `dsar/erasure.py`, and the requests for erasure that `dsar/workflow.py`
fulfills with it. Keys are looked for by two patterns that the subject's identifier is written into;
what is found is deleted call by call, and any call may fail.

* `mem_keys_eraseSubjectData_iff`: what is left after an erasure.
* `Honest` says of a fulfillment that only keys of the subject are deleted, and that the subject is
  reported to be deleted only if nothing failed and no key of the subject is left.
* `honest_iff`: the exact condition.
* `matched_iff_own`: the patterns find the keys of the subject if its identifier is plain.
* `not_honest`: the identifier is a star.
-/

namespace AnonReq.Dsar

/-! ### The store -/

/-- A call in a scan and the deletion after it: the keys that it visits, and, where one of the two
raises, the keys that are deleted all the same. -/
structure Turn where
  visited : List Text
  fails : Option (List Text) := none

/-- Some call of a scan raises. -/
def Broken (turns : List Turn) : Prop := ∃ turn ∈ turns, turn.fails.isSome = true

/-- A text without characters that have a meaning in patterns. -/
def Literal (text : Text) : Prop := Glob.Plain text ∧ '\\' ∉ text

/-- The store: which keys a pattern matches, and the calls of a scan for a pattern. A star between
literal texts matches anything, and a scan that does not fail visits every key that is there. -/
structure Valkey where
  globMatch : Text → Text → Bool
  turns : Text → List Text → List Turn
  globMatch_star : ∀ front back key, Literal front → Literal back →
    (globMatch (front ++ '*' :: back) key = true ↔ ∃ middle, key = front ++ middle ++ back)
  turns_complete : ∀ pattern keys, ¬ Broken (turns pattern keys) →
    ∀ key ∈ keys, ∃ turn ∈ turns pattern keys, key ∈ turn.visited

variable (V : Valkey)

/-- The pattern of the keys in front of which the subject stands. -/
def subjectPattern (subjectId : Text) : Text :=
  "anonreq:subject:".toList ++ subjectId ++ ":*".toList

/-- The pattern of the keys that end with the subject. -/
def sessionPattern (subjectId : Text) : Text := "anonreq:*:".toList ++ subjectId

/-- What a scan leaves: the keys, whether any was deleted, and whether it raised. -/
structure Swept where
  keys : List Text
  erased : Bool
  failed : Bool

/-- The loop of a scan. -/
def sweep (pattern : Text) : List Turn → List Text → Bool → Swept
  | [], keys, erased => ⟨keys, erased, false⟩
  | turn :: turns, keys, erased =>
    let found := turn.visited.filter fun key => key ∈ keys && V.globMatch pattern key
    match turn.fails with
    | some deleted => ⟨keys.filter fun key => !(key ∈ found && key ∈ deleted), erased, true⟩
    | none => sweep pattern turns (keys.filter fun key => !found.contains key)
        (erased || !found.isEmpty)

/-- The scans for the two patterns. Where one raises, nothing more is done. -/
def scans (subjectId : Text) (keys : List Text) : Swept :=
  let first := sweep V (subjectPattern subjectId) (V.turns (subjectPattern subjectId) keys) keys
    false
  if first.failed then first
  else
    sweep V (sessionPattern subjectId) (V.turns (sessionPattern subjectId) first.keys) first.keys
      first.erased

/-- What an erasure leaves: the keys, and what is returned or raised. -/
structure Erasure where
  keys : List Text
  returned : Except String Bool

/-- `erase_subject_data`, where the erasure is recorded if there is a database session. What a scan
raises is logged. -/
def eraseSubjectData (subjectId : Text) (keys : List Text) (record : Option Write) : Erasure :=
  let swept := scans V subjectId keys
  match record with
  | none => ⟨swept.keys, .ok swept.erased⟩
  | some .committed => ⟨swept.keys, .ok true⟩
  | some (.failed _ none) => ⟨swept.keys, .ok swept.erased⟩
  | some (.failed _ (some e)) => ⟨swept.keys, .error e⟩

/-! ### What a scan deletes -/

variable {V}

/-- The keys that a scan reaches before it raises. -/
def reach : List Turn → List Text
  | [] => []
  | turn :: turns =>
    match turn.fails with
    | some deleted => turn.visited.filter (· ∈ deleted)
    | none => turn.visited ++ reach turns

variable {keys : List Text}

theorem failed_sweep_iff {pattern : Text} {turns : List Turn} {erased : Bool} :
    (sweep V pattern turns keys erased).failed = true ↔ Broken turns := by
  induction turns generalizing keys erased with
  | nil => simp [sweep, Broken]
  | cons turn turns ih =>
    rw [sweep, Broken]
    cases hfails : turn.fails with
    | some deleted => exact iff_of_true rfl ⟨turn, List.mem_cons_self, by rw [hfails]; rfl⟩
    | none =>
      refine ih.trans ⟨?_, ?_⟩
      · rintro ⟨t, ht, hsome⟩
        exact ⟨t, List.mem_cons_of_mem turn ht, hsome⟩
      · rintro ⟨t, ht, hsome⟩
        obtain rfl | ht := List.mem_cons.mp ht
        · rw [hfails] at hsome
          cases hsome
        · exact ⟨t, ht, hsome⟩

/-- A scan deletes the keys that it reaches and that its pattern matches. -/
theorem keys_sweep (pattern : Text) (turns : List Turn) (keys : List Text) (erased : Bool) :
    (sweep V pattern turns keys erased).keys =
      keys.filter fun key => !(V.globMatch pattern key && decide (key ∈ reach turns)) := by
  induction turns generalizing keys erased with
  | nil => simp [sweep, reach]
  | cons turn turns ih =>
    rw [sweep, reach]
    cases turn.fails with
    | some deleted =>
      refine List.filter_congr fun key hkey => ?_
      simp only [List.mem_filter, hkey, decide_true, Bool.true_and]
      by_cases hmatch : V.globMatch pattern key = true <;> simp [hmatch]
    | none =>
      dsimp only
      rw [ih, List.filter_filter]
      refine List.filter_congr fun key hkey => ?_
      simp only [List.contains_eq_mem, List.mem_filter, hkey, List.mem_append]
      by_cases hmatch : V.globMatch pattern key = true
      · by_cases hvisited : key ∈ turn.visited <;> simp [hmatch, hvisited]
      · simp [hmatch]

/-- A scan that does not raise reaches every key. -/
theorem mem_reach {turns : List Turn} (h : ¬ Broken turns) {key : Text} :
    key ∈ reach turns ↔ ∃ turn ∈ turns, key ∈ turn.visited := by
  induction turns with
  | nil => simp [reach]
  | cons turn turns ih =>
    have hfails : turn.fails = none := by
      by_contra hsome
      exact h ⟨turn, List.mem_cons_self, Option.isSome_iff_ne_none.mpr hsome⟩
    have hrest : ¬ Broken turns := fun ⟨t, ht, hsome⟩ => h ⟨t, List.mem_cons_of_mem turn ht, hsome⟩
    rw [reach, hfails]
    simp only [List.mem_append, ih hrest, List.exists_mem_cons_iff]

variable (V)

/-- The keys that the second scan starts with. -/
def remaining (subjectId : Text) (keys : List Text) : List Text :=
  keys.filter fun key => !V.globMatch (subjectPattern subjectId) key

/-- Some call of the two scans raises. -/
def Fails (subjectId : Text) (keys : List Text) : Prop :=
  Broken (V.turns (subjectPattern subjectId) keys) ∨
    Broken (V.turns (sessionPattern subjectId) (remaining V subjectId keys))

/-- One of the patterns matches a key. -/
def Matched (subjectId key : Text) : Prop :=
  V.globMatch (subjectPattern subjectId) key = true ∨
    V.globMatch (sessionPattern subjectId) key = true

/-- A scan reaches a key that its pattern matches. -/
def Touched (subjectId : Text) (keys : List Text) (key : Text) : Prop :=
  (V.globMatch (subjectPattern subjectId) key = true ∧
      key ∈ reach (V.turns (subjectPattern subjectId) keys)) ∨
    (¬ Broken (V.turns (subjectPattern subjectId) keys) ∧
      V.globMatch (sessionPattern subjectId) key = true ∧
        key ∈ reach (V.turns (sessionPattern subjectId) (remaining V subjectId keys)))

variable {V} {subjectId : Text}

/-- The first scan, if it does not raise, leaves what its pattern does not match. -/
theorem keys_first_sweep {erased : Bool} (h : ¬ Broken (V.turns (subjectPattern subjectId) keys)) :
    (sweep V (subjectPattern subjectId) (V.turns (subjectPattern subjectId) keys) keys
      erased).keys = remaining V subjectId keys := by
  rw [keys_sweep, remaining]
  refine List.filter_congr fun key hkey => ?_
  rw [decide_eq_true ((mem_reach h).mpr (V.turns_complete _ _ h key hkey)), Bool.and_true]

/-- **What is left after an erasure.** -/
theorem mem_keys_eraseSubjectData_iff {record : Option Write} {key : Text} :
    key ∈ (eraseSubjectData V subjectId keys record).keys ↔
      key ∈ keys ∧ ¬ Touched V subjectId keys key := by
  have hscans :
      (eraseSubjectData V subjectId keys record).keys = (scans V subjectId keys).keys := by
    unfold eraseSubjectData
    rcases record with - | - | ⟨e, - | e'⟩ <;> rfl
  rw [hscans, scans, Touched]
  by_cases hbroken : Broken (V.turns (subjectPattern subjectId) keys)
  · rw [if_pos (failed_sweep_iff.mpr hbroken), keys_sweep, List.mem_filter]
    simp [hbroken, imp_iff_not_or]
  · rw [if_neg (mt failed_sweep_iff.mp hbroken), keys_first_sweep hbroken, keys_sweep,
      List.mem_filter]
    -- a key that the first pattern matches is reached in the first scan
    have hreach : key ∈ keys → key ∈ reach (V.turns (subjectPattern subjectId) keys) := fun hkey =>
      (mem_reach hbroken).mpr (V.turns_complete _ _ hbroken key hkey)
    have hremaining : key ∈ remaining V subjectId keys ↔
        key ∈ keys ∧ ¬ V.globMatch (subjectPattern subjectId) key = true := by
      simp [remaining]
    rw [hremaining]
    constructor
    · rintro ⟨⟨hkey, hfirst⟩, hsecond⟩
      refine ⟨hkey, ?_⟩
      rintro (⟨hmatch, -⟩ | ⟨-, hmatch, hmem⟩)
      · exact hfirst hmatch
      · rw [hmatch, decide_eq_true hmem] at hsecond
        cases hsecond
    · rintro ⟨hkey, htouched⟩
      refine ⟨⟨hkey, fun hmatch => htouched (Or.inl ⟨hmatch, hreach hkey⟩)⟩, ?_⟩
      by_contra hsecond
      rw [Bool.not_eq_true, Bool.not_eq_false', Bool.and_eq_true, decide_eq_true_eq] at hsecond
      exact htouched (Or.inr ⟨hbroken, hsecond⟩)

/-- Where no call raises, what one of the patterns matches is deleted. -/
theorem touched_iff_matched (h : ¬ Fails V subjectId keys) {key : Text} (hkey : key ∈ keys) :
    Touched V subjectId keys key ↔ Matched V subjectId key := by
  obtain ⟨hfirst, hsecond⟩ := not_or.mp h
  constructor
  · exact Or.imp (fun htouched => htouched.1) fun htouched => htouched.2.1
  · intro hmatched
    by_cases hmatch : V.globMatch (subjectPattern subjectId) key = true
    · exact Or.inl ⟨hmatch, (mem_reach hfirst).mpr (V.turns_complete _ _ hfirst key hkey)⟩
    · have hleft : key ∈ remaining V subjectId keys := by simp [remaining, hkey, hmatch]
      exact Or.inr ⟨hfirst, hmatched.resolve_left hmatch,
        (mem_reach hsecond).mpr (V.turns_complete _ _ hsecond key hleft)⟩

/-! ### The keys of a subject -/

/-- A key of a subject: `anonreq:subject:<subject_id>:...` or `anonreq:<...>:<subject_id>`. -/
def Own (subjectId key : Text) : Prop :=
  (∃ rest, key = "anonreq:subject:".toList ++ subjectId ++ ":".toList ++ rest) ∨
    ∃ middle, key = "anonreq:".toList ++ middle ++ (":".toList ++ subjectId)

theorem Literal.append {a b : Text} (ha : Literal a) (hb : Literal b) : Literal (a ++ b) := by
  refine ⟨fun c hc => (List.mem_append.mp hc).elim (ha.1 c) (hb.1 c), fun hmem => ?_⟩
  exact (List.mem_append.mp hmem).elim ha.2 hb.2

/-- **The patterns find the keys of a subject** if its identifier is literal. -/
theorem matched_iff_own (h : Literal subjectId) (key : Text) :
    Matched V subjectId key ↔ Own subjectId key := by
  have hsubject : Literal "anonreq:subject:".toList :=
    ⟨List.forall_iff_forall_mem.mp (by decide), by decide⟩
  have hfront : Literal "anonreq:".toList :=
    ⟨List.forall_iff_forall_mem.mp (by decide), by decide⟩
  have hcolon : Literal ":".toList := ⟨List.forall_iff_forall_mem.mp (by decide), by decide⟩
  have hnil : Literal [] := ⟨fun c hc => absurd hc List.not_mem_nil, List.not_mem_nil⟩
  -- each pattern is a star between literal texts
  have hstar : ":*".toList = ":".toList ++ ['*'] := by decide
  have hsubjectPattern : subjectPattern subjectId =
      ("anonreq:subject:".toList ++ subjectId ++ ":".toList) ++ ['*'] :=
    (congrArg ("anonreq:subject:".toList ++ subjectId ++ ·) hstar).trans
      (List.append_assoc _ _ _).symm
  have hfirst := V.globMatch_star ("anonreq:subject:".toList ++ subjectId ++ ":".toList) [] key
    ((hsubject.append h).append hcolon) hnil
  have hstars : "anonreq:*:".toList = "anonreq:".toList ++ '*' :: ":".toList := by decide
  have hsessionPattern : sessionPattern subjectId =
      "anonreq:".toList ++ '*' :: (":".toList ++ subjectId) :=
    (congrArg (· ++ subjectId) hstars).trans (List.append_assoc _ _ _)
  have hsecond := V.globMatch_star "anonreq:".toList (":".toList ++ subjectId) key hfront
    (hcolon.append h)
  rw [← hsubjectPattern] at hfirst
  rw [← hsessionPattern] at hsecond
  simp only [List.append_nil] at hfirst
  exact or_congr hfirst hsecond

/-! ### Requests for erasure -/

variable (V) (W : DsarWorkflow)

/-- `fulfill_request` with the erasure service: what is returned or raised, and the keys after
it. -/
def DsarWorkflow.fulfillErasure (table : DsarTable) (id fulfilledBy : String) (now : ℕ)
    (faults : FulfillFaults) (record : Write) (keys : List Text) : Outcome DsarResult × List Text :=
  match if faults.readable then table id else none with
  | none => (W.fulfillRequest table id fulfilledBy now faults, keys)
  | some row =>
    if calledService W row faults = some .erase then
      let erasure := eraseSubjectData V row.subjectId.toList keys (some record)
      let serviceError := match erasure.returned with
        | .ok _ => none
        | .error e => some e
      (W.fulfillRequest table id fulfilledBy now { faults with serviceError := serviceError },
        erasure.keys)
    else (W.fulfillRequest table id fulfilledBy now faults, keys)

/-- The subject is reported to be deleted. -/
def Reported (outcome : Outcome DsarResult) : Prop :=
  ∃ result, outcome.returned = .ok result ∧ result.subjectStatus = .deleted

/-- Only keys of the subject are deleted. -/
def DeletesOwn (subjectId : Text) (keys : List Text) (record : Option Write) : Prop :=
  ∀ key ∈ keys, key ∉ (eraseSubjectData V subjectId keys record).keys → Own subjectId key

/-- A subject is reported to be deleted only if no key of it is left and no call failed. -/
def HonestReport (table : DsarTable) (id fulfilledBy : String) (now : ℕ) (faults : FulfillFaults)
    (record : Write) (keys : List Text) : Prop :=
  ∀ row, table id = some row →
    Reported (W.fulfillErasure V table id fulfilledBy now faults record keys).1 →
      (∀ key ∈ (W.fulfillErasure V table id fulfilledBy now faults record keys).2,
        ¬ Own row.subjectId.toList key) ∧
      (calledService W row faults = some .erase → ¬ Fails V row.subjectId.toList keys)

/-- Where the erasure service is called and nothing raises after it, no call of the scans fails and
every key of the subject is matched. Where a request for erasure is fulfilled without the service,
there is no key of the subject. -/
def SoundFulfillment (row : DsarRequest) (faults : FulfillFaults) (record : Write)
    (keys : List Text) : Prop :=
  faults.readable = true → row.requestType = .erasure →
    W.onHold row.requestType faults.holdAnswer = false → ¬ faults.write.Surfaces →
      if W.hasErasureService then
        ¬ record.Surfaces → ¬ Fails V row.subjectId.toList keys ∧
          ∀ key ∈ keys, Own row.subjectId.toList key → Matched V row.subjectId.toList key
      else ∀ key ∈ keys, ¬ Own row.subjectId.toList key

variable {V W}

theorem reported_finish_iff {table : DsarTable} {row : DsarRequest} {id fulfilledBy : String}
    {now : ℕ} {st : SubjectStatus × String} {write : Write} :
    Reported (DsarWorkflow.finish table row id fulfilledBy now st write) ↔
      ¬ write.Surfaces ∧ st.1 = .deleted := by
  match write with
  | .committed =>
    refine ⟨fun ⟨result, hresult, hst⟩ => ⟨Write.not_surfaces_committed, ?_⟩,
      fun h => ⟨_, rfl, h.2⟩⟩
    cases hresult
    exact hst
  | .failed e none =>
    have hnot : ¬ (Write.failed e none).Surfaces := by
      rintro ⟨e', e'', h⟩
      cases h
    refine ⟨fun ⟨result, hresult, hst⟩ => ⟨hnot, ?_⟩, fun h => ⟨_, rfl, h.2⟩⟩
    cases hresult
    exact hst
  | .failed e (some e') =>
    refine iff_of_false (fun ⟨result, hresult, _⟩ => ?_) fun h => h.1 ⟨e, e', rfl⟩
    cases hresult

variable {faults : FulfillFaults}

/-- When a request is reported to be deleted. -/
theorem reported_fulfillRequest_iff {table : DsarTable} {id fulfilledBy : String} {now : ℕ}
    {row : DsarRequest} (hread : faults.readable = true) (hrow : table id = some row) :
    Reported (W.fulfillRequest table id fulfilledBy now faults) ↔
      row.requestType = .erasure ∧ W.onHold row.requestType faults.holdAnswer = false ∧
        ¬ ServiceFails W row faults ∧ ¬ faults.write.Surfaces := by
  have hstatus : (DsarWorkflow.subjectStatus row
      (W.onHold row.requestType faults.holdAnswer)).1 = .deleted ↔
        row.requestType = .erasure ∧ W.onHold row.requestType faults.holdAnswer = false := by
    unfold DsarWorkflow.subjectStatus
    cases row.requestType with
    | erasure => cases W.onHold .erasure faults.holdAnswer <;> simp
    | restriction => simp
    | rectification => simp
    | portability => simp
    | access => simp
  -- which services have acted makes no difference to the report
  have hfinish : ∀ acted : List Acted,
      Reported { DsarWorkflow.finish table row id fulfilledBy now (DsarWorkflow.subjectStatus row
        (W.onHold row.requestType faults.holdAnswer)) faults.write with acted := acted } ↔
      ¬ faults.write.Surfaces ∧ row.requestType = .erasure ∧
        W.onHold row.requestType faults.holdAnswer = false := fun acted =>
    reported_finish_iff.trans (and_congr_right' hstatus)
  unfold ServiceFails calledService DsarWorkflow.fulfillRequest
  rw [if_pos hread, hrow]
  dsimp only
  cases W.service row.requestType (W.onHold row.requestType faults.holdAnswer) with
  | none =>
    refine (hfinish []).trans ?_
    simp only [Option.isSome_none, Bool.false_eq_true, false_and, not_false_eq_true, true_and]
    exact ⟨fun h => ⟨h.2.1, h.2.2, h.1⟩, fun h => ⟨h.2.2, h.1, h.2.1⟩⟩
  | some service =>
    cases faults.serviceError with
    | some e =>
      refine iff_of_false (fun ⟨result, hresult, _⟩ => ?_) fun h => h.2.2.1 ⟨rfl, rfl⟩
      cases hresult
    | none =>
      refine (hfinish _).trans ?_
      simp only [Option.isSome_none, Bool.false_eq_true, and_false, not_false_eq_true, true_and]
      exact ⟨fun h => ⟨h.2.1, h.2.2, h.1⟩, fun h => ⟨h.2.2, h.1, h.2.1⟩⟩

/-- The service that is called for an erasure that is not blocked. -/
theorem calledService_of_erasure {row : DsarRequest} (htype : row.requestType = .erasure)
    (hfree : W.onHold row.requestType faults.holdAnswer = false) :
    calledService W row faults = if W.hasErasureService then some .erase else none := by
  rw [calledService, hfree, htype, DsarWorkflow.service]
  cases W.hasErasureService <;> rfl

/-- The erasure service is called for nothing else. -/
theorem erasure_of_calledService {row : DsarRequest}
    (h : calledService W row faults = some .erase) :
    row.requestType = .erasure ∧ W.onHold row.requestType faults.holdAnswer = false ∧
      W.hasErasureService = true := by
  unfold calledService DsarWorkflow.service at h
  cases htype : row.requestType with
  | erasure =>
    rw [htype] at h
    cases hservice : W.hasErasureService <;> cases hhold : W.onHold .erasure faults.holdAnswer <;>
      simp [hservice, hhold] at h ⊢
  | restriction =>
    rw [htype] at h
    cases hservice : W.hasRestrictionService <;> simp [hservice] at h
  | rectification | portability | access =>
    rw [htype] at h
    cases h

/-- An erasure raises if and only if the rollback of its record does. -/
theorem raises_eraseSubjectData_iff {subjectId : Text} {keys : List Text} {record : Write} :
    (∃ e, (eraseSubjectData V subjectId keys (some record)).returned = .error e) ↔
      record.Surfaces := by
  unfold eraseSubjectData
  match record with
  | .committed =>
    exact iff_of_false (fun ⟨e, he⟩ => by cases he) Write.not_surfaces_committed
  | .failed e none =>
    exact iff_of_false (fun ⟨e, he⟩ => by cases he) fun ⟨e', e'', h⟩ => by cases h
  | .failed e (some e') => exact iff_of_true ⟨e', rfl⟩ ⟨e, e', rfl⟩

/-- **Only keys of the subject are deleted** if and only if those that the scans reach are. -/
theorem deletesOwn_iff {record : Option Write} :
    DeletesOwn V subjectId keys record ↔
      ∀ key ∈ keys, Touched V subjectId keys key → Own subjectId key := by
  refine forall₂_congr fun key hkey => imp_congr_left ?_
  rw [mem_keys_eraseSubjectData_iff, not_and, not_not]
  exact ⟨fun h => h hkey, fun h _ => h⟩

/-- Nothing else is deleted if the identifier is literal, whatever fails. -/
theorem deletesOwn_of_literal {subjectId : Text} (h : Literal subjectId) (keys : List Text)
    (record : Option Write) : DeletesOwn V subjectId keys record :=
  deletesOwn_iff.mpr fun key _ htouched => (matched_iff_own h key).mp
    (htouched.imp (fun hfirst => hfirst.1) fun hsecond => hsecond.2.1)

/-- Where no call raises, no key of the subject is left if and only if the patterns match all. -/
theorem none_left_iff {record : Option Write} (h : ¬ Fails V subjectId keys) :
    (∀ key ∈ (eraseSubjectData V subjectId keys record).keys, ¬ Own subjectId key) ↔
      ∀ key ∈ keys, Own subjectId key → Matched V subjectId key := by
  constructor
  · intro hleft key hkey hown
    by_contra hmatch
    refine hleft key (mem_keys_eraseSubjectData_iff.mpr ⟨hkey, fun htouched => ?_⟩) hown
    exact hmatch ((touched_iff_matched h hkey).mp htouched)
  · intro hmatch key hleft hown
    obtain ⟨hkey, htouched⟩ := mem_keys_eraseSubjectData_iff.mp hleft
    exact htouched ((touched_iff_matched h hkey).mpr (hmatch key hkey hown))

/-- When a request that the erasure service is called for is reported to be deleted. -/
theorem reported_erasure_iff {table : DsarTable} {id fulfilledBy : String} {now : ℕ}
    {row : DsarRequest} (hread : faults.readable = true) (hrow : table id = some row)
    (hcalled : calledService W row faults = some .erase) (serviceError : Option String) :
    Reported (W.fulfillRequest table id fulfilledBy now
        { faults with serviceError := serviceError }) ↔
      serviceError = none ∧ ¬ faults.write.Surfaces := by
  obtain ⟨htype, hfree, -⟩ := erasure_of_calledService hcalled
  have hsame : calledService W row { faults with serviceError := serviceError } =
      calledService W row faults := rfl
  have hread' : { faults with serviceError := serviceError : FulfillFaults }.readable = true :=
    hread
  refine (reported_fulfillRequest_iff hread' hrow).trans ?_
  rw [ServiceFails, hsame, hcalled]
  simp [htype, htype ▸ hfree]

/-- What the service raises. -/
theorem error_eraseSubjectData_iff {record : Write} :
    (match (eraseSubjectData V subjectId keys (some record)).returned with
      | .ok _ => none
      | .error e => some e) = none ↔ ¬ record.Surfaces := by
  rw [← @raises_eraseSubjectData_iff V subjectId keys record]
  cases (eraseSubjectData V subjectId keys (some record)).returned <;> simp

/-- **A report is honest** under the conditions of `SoundFulfillment`. -/
theorem honestReport_iff {table : DsarTable} {id fulfilledBy : String} {now : ℕ} {record : Write} :
    HonestReport V W table id fulfilledBy now faults record keys ↔
      ∀ row, table id = some row → SoundFulfillment V W row faults record keys := by
  refine forall₂_congr fun row hrow => ?_
  unfold SoundFulfillment DsarWorkflow.fulfillErasure
  by_cases hread : faults.readable = true
  swap
  · -- a row that is not read is not found
    rw [if_neg hread]
    dsimp only
    rw [fulfillRequest_of_unread fun h => absurd h hread]
    refine iff_of_true (fun ⟨result, hresult, _⟩ => ?_) fun h => absurd h hread
    cases hresult
  rw [if_pos hread, hrow]
  dsimp only
  by_cases hcalled : calledService W row faults = some .erase
  · obtain ⟨htype, hfree, hservice⟩ := erasure_of_calledService hcalled
    rw [if_pos hcalled]
    dsimp only
    rw [reported_erasure_iff hread hrow hcalled, error_eraseSubjectData_iff, if_pos hservice]
    constructor
    · intro h _ _ _ hwrite hrecord
      obtain ⟨hleft, hfails⟩ := h ⟨hrecord, hwrite⟩
      exact ⟨hfails hcalled, (none_left_iff (hfails hcalled)).mp hleft⟩
    · rintro h ⟨hrecord, hwrite⟩
      obtain ⟨hfails, hmatch⟩ := h hread htype hfree hwrite hrecord
      exact ⟨(none_left_iff hfails).mpr hmatch, fun _ => hfails⟩
  · -- without the service a request for erasure is fulfilled all the same, and nothing is deleted
    have hnoService : row.requestType = .erasure →
        W.onHold row.requestType faults.holdAnswer = false → ¬ W.hasErasureService = true := by
      intro htype hfree hservice
      exact hcalled (by rw [calledService_of_erasure htype hfree, if_pos hservice])
    rw [if_neg hcalled]
    dsimp only
    rw [reported_fulfillRequest_iff hread hrow]
    constructor
    · intro h _ htype hfree hwrite
      have hservice := hnoService htype hfree
      have hidle : ¬ ServiceFails W row faults := by
        intro hfails
        rw [ServiceFails, calledService_of_erasure htype hfree, if_neg hservice] at hfails
        cases hfails.1
      rw [if_neg hservice]
      exact (h ⟨htype, hfree, hidle, hwrite⟩).1
    · rintro h ⟨htype, hfree, -, hwrite⟩
      have hnone := h hread htype hfree hwrite
      rw [if_neg (hnoService htype hfree)] at hnone
      exact ⟨hnone, fun h => absurd h hcalled⟩

/-- **Erasure is exact and honest** exactly under these conditions: the keys that the scans reach
are keys of the subject, and what `SoundFulfillment` says of a request. -/
theorem honest_iff (V : Valkey) (W : DsarWorkflow) (table : DsarTable) (id fulfilledBy : String)
    (now : ℕ) (faults : FulfillFaults) (record : Write) (keys : List Text) (subjectId : Text)
    (session : Option Write) :
    (DeletesOwn V subjectId keys session ↔
      ∀ key ∈ keys, Touched V subjectId keys key → Own subjectId key) ∧
    (HonestReport V W table id fulfilledBy now faults record keys ↔
      ∀ row, table id = some row → SoundFulfillment V W row faults record keys) :=
  ⟨deletesOwn_iff, honestReport_iff⟩

/-! ### Runs that are not honest -/

/-- A store whose patterns are shell patterns, and whose scans take one call that may raise. -/
def singleCall (fails : Option (List Text)) : Valkey where
  globMatch pattern key := Glob.fnmatch key pattern
  turns _ keys := [{ visited := keys, fails := fails }]
  globMatch_star _ _ _ hfront hback := Glob.fnmatch_between_iff hfront.1 hback.1
  turns_complete _ _ _ _ hkey := ⟨_, List.mem_singleton_self _, hkey⟩

/-- A request for the erasure of a subject. -/
def requestFor (subjectId : String) : DsarRequest where
  id := "dsar_1"
  tenantId := "acme"
  subjectId := subjectId
  requestType := .erasure
  status := .processing

/-- A key of the subject `bob`. -/
def bobsKey : Text := "anonreq:subject:bob:1".toList

/-- A scan for `bob` that raises. -/
theorem deletesOwn_of_literal_bob :
    DeletesOwn (singleCall (some [bobsKey])) "bob".toList [bobsKey] none :=
  deletesOwn_of_literal ⟨List.forall_iff_forall_mem.mp (by decide), by decide⟩ _ _

/-- **Neither exact nor honest.** For the identifier `*` the key of another subject is deleted, and
where the scan raises a subject is reported to be deleted whose key is there. -/
theorem not_honest :
    (¬ ∀ (V : Valkey) (subjectId : Text) (keys : List Text) (session : Option Write),
      DeletesOwn V subjectId keys session) ∧
    ¬ ∀ (V : Valkey) (W : DsarWorkflow) (table : DsarTable) (id fulfilledBy : String) (now : ℕ)
      (faults : FulfillFaults) (record : Write) (keys : List Text),
      HonestReport V W table id fulfilledBy now faults record keys := by
  constructor
  · intro h
    obtain ⟨rest, hrest⟩ | ⟨middle, hmiddle⟩ :=
      h (singleCall none) "*".toList [bobsKey] none bobsKey (List.mem_singleton_self _)
        (by decide +kernel)
    · have hstar : '*' ∈ bobsKey := by rw [hrest]; simp
      exact absurd hstar (by decide)
    · have hstar : '*' ∈ bobsKey := by rw [hmiddle]; simp
      exact absurd hstar (by decide)
  · intro h
    have hreport := h (singleCall (some [])) ⟨true, false, false⟩
      (fun _ => some (requestFor "bob")) "dsar_1" "officer" 0 {} .committed [bobsKey] _ rfl
      ⟨_, rfl, rfl⟩
    exact hreport.2 rfl (Or.inl ⟨_, List.mem_singleton_self _, rfl⟩)

end AnonReq.Dsar
