import AnonReq.Foundation.Runs
import Mathlib.Data.Finset.Card
import Mathlib.Data.List.Infix
import Mathlib.Data.List.TakeDrop
import Mathlib.Data.Rat.Defs

/-!
# The dead letters of breach events

`services/breach_detector.py`: a breach event that the webhook does not take goes into a list of
its tenant, which is cut to its newest entries and whose entries are acknowledged or sent again. The
commands of the calls run one by one, in any order, and the store carries them out.

* `Accounted` says what has become of every event.
* `accounted_exec`: it is so in every run, and the list is bounded.
-/

namespace AnonReq.Breach

universe u

/-- `BreachEvent`. Times are in microseconds, counted from some day on. -/
structure BreachEvent where
  id : String
  sloName : String
  target : ℚ
  currentValue : ℚ
  windowType : String
  windowKey : String
  tenantId : String
  detectedAt : ℤ
  acknowledged : Bool := false
deriving DecidableEq

/-- A call on the list: `_fire_webhook`, `ack_dlq_entry`, `retry_dlq`. -/
inductive DlqCall where
  | fire (event : BreachEvent)
  | ack (eventId : String)
  | retry

/-- `BreachDetector`, with the calls `τ` on the list of one tenant. -/
structure BreachDetector (τ : Type u) where
  webhookUrl : String
  retryMax : ℤ := 3
  dlqMaxEntries : ℤ := 1000
  call : τ → DlqCall

/-- How far a call has come. -/
inductive DlqPhase where
  | posting (attempt : ℕ)
  | trimming
  | reading
  | retrying (rest : List BreachEvent)
  | removing (raw : BreachEvent) (rest : List BreachEvent)
  | finished

/-- The list, with its newest entry first; what was ever pushed, delivered and acknowledged; and how
far the calls have come. -/
structure DlqState (τ : Type u) where
  entries : List BreachEvent := []
  pushed : List BreachEvent := []
  delivered : List BreachEvent := []
  acked : List BreachEvent := []
  phase : τ → DlqPhase

/-- `LTRIM key 0 stop`. -/
def ltrim (entries : List BreachEvent) (stop : ℤ) : List BreachEvent :=
  entries.take ((if stop < 0 then stop + entries.length else stop) + 1).toNat

namespace BreachDetector

variable {τ : Type u} (D : BreachDetector τ)

/-- No call has started. -/
def initial : DlqState τ where
  phase t :=
    match D.call t with
    | .fire _ => .posting 0
    | _ => .reading

/-- The next command of a call. `accepted` is the answer of the webhook, if it goes there. -/
def step [DecidableEq τ] (s : DlqState τ) : τ × Bool → DlqState τ
  | (t, accepted) =>
    let go := Function.update s.phase t
    match s.phase t, D.call t with
    | .posting attempt, .fire event =>
      if D.webhookUrl = "" ∨ D.retryMax ≤ attempt then
        { s with entries := event :: s.entries, pushed := event :: s.pushed, phase := go .trimming }
      else if accepted then { s with delivered := event :: s.delivered, phase := go .finished }
      else { s with phase := go (.posting (attempt + 1)) }
    | .trimming, _ =>
      { s with entries := ltrim s.entries (D.dlqMaxEntries - 1), phase := go .finished }
    | .reading, .ack eventId =>
      match s.entries.find? fun raw => raw.id = eventId with
      | some raw => { s with acked := raw :: s.acked, phase := go (.removing raw []) }
      | none => { s with phase := go .finished }
    | .reading, .retry => { s with phase := go (.retrying s.entries) }
    | .retrying (raw :: rest), _ =>
      if D.webhookUrl ≠ "" ∧ accepted then
        { s with delivered := raw :: s.delivered, phase := go (.removing raw rest) }
      else { s with phase := go (.retrying rest) }
    | .removing raw rest, _ =>
      { s with entries := s.entries.filter (· ≠ raw), phase := go (.retrying rest) }
    | .retrying [], _ => { s with phase := go .finished }
    | _, _ => s

/-- Every event is accounted for. -/
structure Accounted (s : DlqState τ) : Prop where
  /-- An event is delivered or pushed, unless it is still being posted. -/
  fired : ∀ t event, D.call t = .fire event → event ∈ s.delivered ∨ event ∈ s.pushed ∨
    ∃ attempt, s.phase t = .posting attempt
  /-- What is pushed stays, until it is delivered or acknowledged, or enough is pushed after it. -/
  kept : ∀ event ∈ s.pushed, event ∈ s.entries ∨ event ∈ s.delivered ∨ event ∈ s.acked ∨
    D.dlqMaxEntries ≤ s.pushed.idxOf event

/-- The invariant of the runs. -/
structure DlqInv (s : DlqState τ) : Prop extends D.Accounted s where
  /-- What stands in front of an entry was pushed after it. -/
  order : ∀ event ∈ s.entries, s.entries.idxOf event ≤ s.pushed.idxOf event
  removing : ∀ t raw rest, s.phase t = .removing raw rest → raw ∈ s.delivered ∨ raw ∈ s.acked
  /-- Each call between its two commands may have made the list longer by one. -/
  pending : 1 ≤ D.dlqMaxEntries → ∃ calls : Finset τ, (∀ t ∈ calls, s.phase t = .trimming) ∧
    (s.entries.length : ℤ) ≤ D.dlqMaxEntries + calls.card

variable {D} {s : DlqState τ}

/-- The list is cut behind its newest entries. -/
theorem DlqInv.trim (h : D.DlqInv s) :
    (1 ≤ D.dlqMaxEntries →
      ((ltrim s.entries (D.dlqMaxEntries - 1)).length : ℤ) ≤ D.dlqMaxEntries) ∧
    D.DlqInv { s with entries := ltrim s.entries (D.dlqMaxEntries - 1) } := by
  have hlength : 1 ≤ D.dlqMaxEntries →
      ((ltrim s.entries (D.dlqMaxEntries - 1)).length : ℤ) ≤ D.dlqMaxEntries := fun hmax => by
    rw [ltrim, List.length_take, if_neg (by omega)]
    omega
  refine ⟨hlength, ⟨h.fired, fun event hevent => ?_⟩, fun event hmem => ?_, h.removing,
    fun hmax => ⟨∅, by simp, by simpa using hlength hmax⟩⟩
  · obtain hmem | hgone := h.kept event hevent
    · by_cases hmax : D.dlqMaxEntries ≤ s.pushed.idxOf event
      · exact Or.inr (Or.inr (Or.inr hmax))
      · have horder := h.order event hmem
        refine Or.inl ((List.mem_take_iff_idxOf_lt hmem).mpr ?_)
        rw [if_neg (by omega)]
        omega
    · exact Or.inr hgone
  · exact ((List.take_prefix _ _).idxOf_eq_of_mem hmem).trans_le
      (h.order event (List.mem_of_mem_take hmem))

/-- What an entry is removed for does not move the others back. -/
theorem idxOf_filter_le {event raw : BreachEvent} (hne : event ≠ raw) (entries : List BreachEvent) :
    (entries.filter (· ≠ raw)).idxOf event ≤ entries.idxOf event := by
  induction entries with
  | nil => exact le_rfl
  | cons first entries ih => grind

/-- A settled entry is removed. -/
theorem DlqInv.remove (h : D.DlqInv s) {raw : BreachEvent}
    (hsettled : raw ∈ s.delivered ∨ raw ∈ s.acked) :
    D.DlqInv { s with entries := s.entries.filter (· ≠ raw) } := by
  refine ⟨⟨h.fired, fun event hevent => ?_⟩, fun event hmem => ?_, h.removing, ?_⟩
  · by_cases heq : event = raw
    · exact Or.inr ((heq ▸ hsettled : event ∈ s.delivered ∨ event ∈ s.acked).imp_right Or.inl)
    · exact (h.kept event hevent).imp_left fun hmem =>
        List.mem_filter.mpr ⟨hmem, by simpa using heq⟩
  · obtain ⟨hmem, hne⟩ := List.mem_filter.mp hmem
    exact (idxOf_filter_le (of_decide_eq_true hne) s.entries).trans (h.order event hmem)
  · intro hmax
    obtain ⟨calls, hcalls, hlength⟩ := h.pending hmax
    have hle : (s.entries.filter (· ≠ raw)).length ≤ s.entries.length := List.length_filter_le ..
    exact ⟨calls, hcalls, by dsimp only; omega⟩

variable [DecidableEq τ]

/-- A call moves on, and leaves the list alone. -/
theorem DlqInv.move (h : D.DlqInv s) {t : τ} {phase : DlqPhase} {delivered acked : List BreachEvent}
    (hdelivered : s.delivered ⊆ delivered) (hacked : s.acked ⊆ acked)
    (hposting : (∀ attempt, s.phase t ≠ .posting attempt) ∨ (∃ attempt, phase = .posting attempt) ∨
      ∀ event, D.call t = .fire event → event ∈ delivered)
    (htrimming : s.phase t ≠ .trimming ∨
      (1 ≤ D.dlqMaxEntries → (s.entries.length : ℤ) ≤ D.dlqMaxEntries))
    (hremoving : ∀ raw rest, phase = .removing raw rest → raw ∈ delivered ∨ raw ∈ acked) :
    D.DlqInv { s with delivered, acked, phase := Function.update s.phase t phase } := by
  refine ⟨⟨fun u event hcall => ?_, fun event hevent => ?_⟩, h.order, fun u raw rest hphase => ?_,
    fun hmax => ?_⟩
  · have hold := (h.fired u event hcall).imp_left (hdelivered ·)
    by_cases hu : u = t
    · subst hu
      simp only [Function.update_self]
      obtain hpast | hnew | hnew := hposting
      · exact hold.imp_right fun hold => Or.inl (hold.resolve_right fun ⟨n, hn⟩ => hpast n hn)
      · exact Or.inr (Or.inr hnew)
      · exact Or.inl (hnew event hcall)
    · simpa [hu] using hold
  · exact (h.kept event hevent).imp_right fun hgone =>
      hgone.imp (hdelivered ·) fun hgone => hgone.imp_left (hacked ·)
  · by_cases hu : u = t
    · subst hu
      exact hremoving raw rest (by simpa using hphase)
    · exact (h.removing u raw rest (by simpa [hu] using hphase)).imp (hdelivered ·) (hacked ·)
  · obtain hother | hlength := htrimming
    · obtain ⟨calls, hcalls, hlength⟩ := h.pending hmax
      refine ⟨calls, fun u hu => ?_, hlength⟩
      have hne : u ≠ t := fun heq => hother (heq ▸ hcalls u hu)
      simpa [hne] using hcalls u hu
    · exact ⟨∅, by simp, by simpa using hlength hmax⟩

/-- An event that was not taken is pushed. -/
theorem DlqInv.push (h : D.DlqInv s) {t : τ} {event : BreachEvent} {attempt : ℕ}
    (hcall : D.call t = .fire event) (hphase : s.phase t = .posting attempt) :
    D.DlqInv { s with
      entries := event :: s.entries, pushed := event :: s.pushed
      phase := Function.update s.phase t .trimming } := by
  refine ⟨⟨fun u other hother => ?_, fun other hmem => ?_⟩, fun other hmem => ?_,
    fun u raw rest hu => ?_, fun hmax => ?_⟩
  · by_cases hu : u = t
    · obtain rfl := DlqCall.fire.inj (hcall.symm.trans (hu ▸ hother))
      exact Or.inr (Or.inl List.mem_cons_self)
    · simpa [hu] using (h.fired u other hother).imp_right (Or.imp_left (List.mem_cons_of_mem event))
  · by_cases heq : event = other
    · exact Or.inl (heq ▸ List.mem_cons_self)
    · refine (h.kept other ((List.mem_cons.mp hmem).resolve_left (Ne.symm heq))).imp
        (List.mem_cons_of_mem _) (Or.imp_right (Or.imp_right fun hle => ?_))
      rw [List.idxOf_cons_ne _ heq]
      omega
  · by_cases heq : event = other
    · simp [heq]
    · have hold := h.order other ((List.mem_cons.mp hmem).resolve_left (Ne.symm heq))
      rw [List.idxOf_cons_ne _ heq, List.idxOf_cons_ne _ heq]
      omega
  · by_cases heq : u = t
    · simp [heq] at hu
    · exact h.removing u raw rest (by simpa [heq] using hu)
  · obtain ⟨calls, hcalls, hlength⟩ := h.pending hmax
    have ht : t ∉ calls := fun hmem => by simp [hcalls t hmem] at hphase
    refine ⟨insert t calls, fun u hu => ?_, ?_⟩
    · obtain rfl | hu := Finset.mem_insert.mp hu
      · exact Function.update_self ..
      · simpa [ne_of_mem_of_not_mem hu ht] using hcalls u hu
    · rw [Finset.card_insert_of_notMem ht, List.length_cons]
      omega

/-- **One command.** -/
theorem DlqInv.step (h : D.DlqInv s) (a : τ × Bool) : D.DlqInv (D.step s a) := by
  obtain ⟨t, accepted⟩ := a
  have hsame := List.Subset.refl s.delivered
  have hsame' := List.Subset.refl s.acked
  simp only [BreachDetector.step]
  split
  · rename_i attempt event hphase hcall
    split_ifs
    · exact h.push hcall hphase
    · refine h.move (List.subset_cons_self _ _) hsame' (Or.inr (Or.inr fun other hother => ?_))
        (by simp [hphase]) nofun
      exact DlqCall.fire.inj (hother.symm.trans hcall) ▸ List.mem_cons_self
    · exact h.move hsame hsame' (Or.inr (Or.inl ⟨_, rfl⟩)) (by simp [hphase]) nofun
  · rename_i hphase
    obtain ⟨hlength, htrimmed⟩ := h.trim
    exact htrimmed.move hsame hsame' (by simp [hphase]) (Or.inr hlength) nofun
  · rename_i eventId hphase hcall
    split
    · exact h.move hsame (List.subset_cons_self _ _) (by simp [hphase]) (by simp [hphase]) (by simp)
    · exact h.move hsame hsame' (by simp [hphase]) (by simp [hphase]) nofun
  · rename_i hphase hcall
    exact h.move hsame hsame' (by simp [hphase]) (by simp [hphase]) nofun
  · rename_i raw rest hphase
    split_ifs
    · exact h.move (List.subset_cons_self _ _) hsame' (by simp [hphase]) (by simp [hphase])
        (by simp)
    · exact h.move hsame hsame' (by simp [hphase]) (by simp [hphase]) nofun
  · rename_i raw rest hphase
    exact (h.remove (h.removing t raw rest hphase)).move hsame hsame' (by simp [hphase])
      (by simp [hphase]) nofun
  · rename_i hphase
    exact h.move hsame hsame' (by simp [hphase]) (by simp [hphase]) nofun
  · exact h

/-- **Every run.** Each event is accounted for, and between the calls the list has at most its
size, if that is not zero. -/
theorem accounted_exec (D : BreachDetector τ) (actions : List (τ × Bool)) :
    let s := Runs.exec D.step D.initial actions
    D.Accounted s ∧ (1 ≤ D.dlqMaxEntries → (∀ t, s.phase t ≠ .trimming) →
      (s.entries.length : ℤ) ≤ D.dlqMaxEntries) := by
  have hinitial : D.DlqInv D.initial := by
    refine ⟨⟨fun t event hcall => Or.inr (Or.inr ⟨0, ?_⟩), nofun⟩, nofun,
      fun t raw rest hphase => ?_, fun hmax => ⟨∅, by simp, ?_⟩⟩
    · simp only [initial, hcall]
    · simp only [initial] at hphase
      split at hphase <;> cases hphase
    · simp only [initial, List.length_nil, Finset.card_empty]
      omega
  have hsteps : Runs.Along D.step (fun _ _ => True) D.initial actions :=
    Runs.along_of_forall fun _ _ _ => trivial
  have h := hsteps.exec_of_step (I := D.DlqInv) (fun _ a hs _ => hs.step a) hinitial
  refine ⟨h.toAccounted, fun hmax hnone => ?_⟩
  obtain ⟨calls, hcalls, hlength⟩ := h.pending hmax
  have hempty : calls = ∅ := Finset.eq_empty_of_forall_notMem fun t ht => hnone t (hcalls t ht)
  simpa [hempty] using hlength

end BreachDetector

end AnonReq.Breach
