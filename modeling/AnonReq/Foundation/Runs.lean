import Mathlib.Data.List.Forall2
import Mathlib.Data.List.ReduceOption

/-!
# Runs of a transition function

A run takes the actions of a list one after the other. `Along step P s actions` says that every
step of the run has the property `P`, of the state before it and the action.

* `Along.exec_of_step`: an invariant that such steps keep holds at the end of the run.
* `along_append`: a run in two parts. `along_and`: two properties of its steps.
* `forall_prefix_iff`: properties at every moment of a run.
* `along_congr`: under an invariant, equivalent step properties hold along the same runs.
* `foldlM_ok_of_step`: invariants of runs whose steps may fail.
* `foldlM_cases`: where a step fails on the bad actions only, a run fails if and only if it has a
  bad action.
* `mapM_eq_ok_iff`, `mapM_eq_some_map`: what a run that maps each item gives if it succeeds.
  `mapM_eq_ite`: when it does, if each item decides about it.
  `mem_of_collect`, `exists_collect`: such a run that keeps what there is.
* `exists_thread`, `thread_of_forall₂`: a run that makes something of each item and hands a state
  on.
-/

namespace Runs

universe u v

variable {σ : Type u} {α : Type v} (step : σ → α → σ)

/-- The state after a run. -/
def exec (s : σ) (actions : List α) : σ := actions.foldl step s

/-- Every step of the run has the property. -/
def Along (P : σ → α → Prop) : σ → List α → Prop
  | _, [] => True
  | s, a :: actions => P s a ∧ Along P (step s a) actions

variable {step} {P Q : σ → α → Prop} {I : σ → Prop} {actions : List α}

/-- **Invariants.** What the steps of a run keep holds at its end. -/
theorem Along.exec_of_step (hstep : ∀ s a, I s → P s a → I (step s a)) {s : σ}
    (h : Along step P s actions) (hs : I s) : I (exec step s actions) := by
  induction actions generalizing s with
  | nil => exact hs
  | cons a actions ih => exact ih h.2 (hstep s a hs h.1)

/-- A run has a property in two parts. -/
theorem along_append {s : σ} {actions more : List α} :
    Along step P s (actions ++ more) ↔
      Along step P s actions ∧ Along step P (exec step s actions) more := by
  induction actions generalizing s with
  | nil => exact (and_iff_right trivial).symm
  | cons a actions ih =>
    rw [List.cons_append, Along, Along, ih, and_assoc]
    rfl

theorem Along.imp (h : ∀ s a, P s a → Q s a) {s : σ} (hP : Along step P s actions) :
    Along step Q s actions := by
  induction actions generalizing s with
  | nil => trivial
  | cons a actions ih => exact ⟨h s a hP.1, ih hP.2⟩

/-- Two step properties hold along a run if and only if each does. -/
theorem along_and {s : σ} :
    Along step (fun s a => P s a ∧ Q s a) s actions ↔
      Along step P s actions ∧ Along step Q s actions := by
  induction actions generalizing s with
  | nil => exact (and_iff_right trivial).symm
  | cons a actions ih =>
    rw [Along, Along, Along, ih]
    exact and_and_and_comm

/-- A property of the actions holds along every run of them. -/
theorem along_of_forall {s : σ} (h : ∀ s, ∀ a ∈ actions, P s a) : Along step P s actions := by
  induction actions generalizing s with
  | nil => trivial
  | cons a actions ih =>
    exact ⟨h s a List.mem_cons_self, ih fun s b hb => h s b (List.mem_cons_of_mem a hb)⟩

/-- A property holds at every moment of a run if and only if it holds at the start and after each
step. -/
theorem forall_prefix_iff {Q : σ → Prop} {s : σ} :
    (∀ before, before <+: actions → Q (exec step s before)) ↔
      Q s ∧ Along step (fun s a => Q (step s a)) s actions := by
  induction actions generalizing s with
  | nil =>
    refine ⟨fun h => ⟨h [] (List.prefix_refl []), trivial⟩, fun h before hbefore => ?_⟩
    rw [List.prefix_nil.mp hbefore]
    exact h.1
  | cons a actions ih =>
    have hrest : (∀ before, before <+: actions → Q (exec step (step s a) before)) ↔
        Along step (fun s a => Q (step s a)) s (a :: actions) := ih
    rw [← hrest]
    constructor
    · intro h
      exact ⟨h [] List.nil_prefix, fun before hbefore =>
        h (a :: before) ((List.prefix_cons_inj a).mpr hbefore)⟩
    · rintro ⟨hs, h⟩ before hbefore
      obtain rfl | ⟨rest, rfl, hrest⟩ := List.prefix_cons_iff.mp hbefore
      · exact hs
      · exact h rest hrest

/-- **Equivalent step properties.** It is enough that they are equivalent under an invariant
which the steps with the first property keep. -/
theorem along_congr (hstep : ∀ s a, I s → P s a → I (step s a))
    (hiff : ∀ s a, I s → (P s a ↔ Q s a)) {s : σ} (hs : I s) :
    Along step P s actions ↔ Along step Q s actions := by
  induction actions generalizing s with
  | nil => exact Iff.rfl
  | cons a actions ih =>
    rw [Along, Along, hiff s a hs]
    refine and_congr_right fun hQ => ih (hstep s a hs ((hiff s a hs).mpr hQ))

/-! ### Runs that may fail -/

variable {ε : Type*}

/-- A composed computation returns what its second part returns on the first part's value. -/
theorem bind_eq_ok_iff {τ : Type u} {x : Except ε σ} {f : σ → Except ε τ} {b : τ} :
    (x >>= f) = .ok b ↔ ∃ a, x = .ok a ∧ f a = .ok b := by
  cases x <;> simp [bind, Except.bind]

/-- A composed computation fails where a part of it does. -/
theorem bind_eq_error_iff {τ : Type u} {x : Except ε σ} {f : σ → Except ε τ} {e : ε} :
    (x >>= f) = .error e ↔ x = .error e ∨ ∃ a, x = .ok a ∧ f a = .error e := by
  cases x <;> simp [bind, Except.bind]

/-- A mapped computation returns what the function gives on its value. -/
theorem map_eq_ok_iff {τ : Type*} {x : Except ε σ} {f : σ → τ} {b : τ} :
    x.map f = .ok b ↔ ∃ a, x = .ok a ∧ f a = b := by
  cases x <;> simp [Except.map]

/-- **Invariants of runs that may fail.** What the steps keep when they succeed holds at the end
of every run that succeeds. -/
theorem foldlM_ok_of_step {f : σ → α → Except ε σ}
    (hstep : ∀ s, ∀ a ∈ actions, ∀ s', I s → f s a = .ok s' → I s') {s s' : σ} (hs : I s)
    (h : actions.foldlM f s = .ok s') : I s' := by
  induction actions generalizing s with
  | nil => exact Except.ok.inj h ▸ hs
  | cons a actions ih =>
    rw [List.foldlM_cons] at h
    obtain ⟨next, hnext, h⟩ := bind_eq_ok_iff.mp h
    exact ih (fun s b hb => hstep s b (List.mem_cons_of_mem a hb))
      (hstep s a List.mem_cons_self next hs hnext) h

/-- **Runs that fail on bad actions.** A run whose steps fail on the bad actions, and keep the
invariant on the others, fails if it has a bad action and keeps the invariant if it has none. -/
theorem foldlM_cases {f : σ → α → Except ε σ} {J : ε → Prop} {Bad : α → Prop}
    (hstep : ∀ s, I s → ∀ a ∈ actions,
      (Bad a ∧ ∃ e, f s a = .error e ∧ J e) ∨ ¬ Bad a ∧ ∃ s', f s a = .ok s' ∧ I s')
    {s : σ} (hs : I s) :
    ((∃ a ∈ actions, Bad a) ∧ ∃ e, actions.foldlM f s = .error e ∧ J e) ∨
      (¬ ∃ a ∈ actions, Bad a) ∧ ∃ s', actions.foldlM f s = .ok s' ∧ I s' := by
  induction actions generalizing s with
  | nil => exact Or.inr ⟨by simp, s, rfl, hs⟩
  | cons a actions ih =>
    rw [List.foldlM_cons, List.exists_mem_cons_iff]
    obtain ⟨hbad, e, he, hJ⟩ | ⟨hgood, next, hnext, hI⟩ := hstep s hs a List.mem_cons_self
    · exact Or.inl ⟨Or.inl hbad, e, by rw [he]; rfl, hJ⟩
    · have hrun : (f s a >>= fun s => actions.foldlM f s) = actions.foldlM f next := by
        rw [hnext]
        rfl
      rw [hrun, or_iff_right hgood]
      exact ih (fun s hs b hb => hstep s hs b (List.mem_cons_of_mem a hb)) hI

variable {γ : Type u} {f : α → Except ε γ}

/-- **Mapping.** Mapping each item of a list succeeds with the results that the items succeed
with. -/
theorem mapM_eq_ok_iff {items : List α} {results : List γ} :
    items.mapM f = .ok results ↔ List.Forall₂ (fun item result => f item = .ok result) items results
    := by
  induction items generalizing results with
  | nil =>
    rw [List.mapM_nil, List.forall₂_nil_left_iff]
    exact ⟨fun h => (Except.ok.inj h).symm, fun h => h ▸ rfl⟩
  | cons item items ih =>
    rw [List.mapM_cons, List.forall₂_cons_left_iff, bind_eq_ok_iff]
    refine exists_congr fun result => ?_
    rw [bind_eq_ok_iff]
    constructor
    · rintro ⟨hitem, rest, hrest, h⟩
      exact ⟨rest, hitem, ih.mp hrest, (Except.ok.inj h).symm⟩
    · rintro ⟨rest, hitem, hrest, rfl⟩
      exact ⟨hitem, rest, ih.mpr hrest, rfl⟩

/-- Mapping fails where it does on an item. -/
theorem exists_of_mapM_eq_error {items : List α} {e : ε} (h : items.mapM f = .error e) :
    ∃ item ∈ items, f item = .error e := by
  induction items with
  | nil => cases h
  | cons item items ih =>
    rw [List.mapM_cons] at h
    obtain hitem | ⟨result, -, h⟩ := bind_eq_error_iff.mp h
    · exact ⟨item, List.mem_cons_self, hitem⟩
    · obtain hrest | ⟨rest, -, h⟩ := bind_eq_error_iff.mp h
      · obtain ⟨other, hother, he⟩ := ih hrest
        exact ⟨other, List.mem_cons_of_mem item hother, he⟩
      · cases h

theorem exists_of_mapM_eq_ok {items : List α} {results : List γ} (h : items.mapM f = .ok results) :
    ∀ item ∈ items, ∃ result, f item = .ok result := by
  have hforall := mapM_eq_ok_iff.mp h
  clear h
  induction hforall with
  | nil => exact fun _ hitem => absurd hitem List.not_mem_nil
  | cons hitem _ ih => exact List.forall_mem_cons.mpr ⟨⟨_, hitem⟩, ih⟩

/-- Where mapping succeeds, its results are those of the items that succeed. -/
theorem filterMap_toOption_of_mapM {items : List α} {results : List γ}
    (h : items.mapM f = .ok results) :
    items.filterMap (fun item => (f item).toOption) = results := by
  have hforall := mapM_eq_ok_iff.mp h
  clear h
  induction hforall with
  | nil => rfl
  | cons hitem _ ih =>
    rw [List.filterMap_cons, hitem, ih]
    rfl

/-- Mapping each item of a list, where each gives something. -/
theorem mapM_eq_some_map {f : α → Option γ} {g : α → γ} {items : List α}
    (h : ∀ item ∈ items, f item = some (g item)) : items.mapM f = some (items.map g) := by
  induction items with
  | nil => rfl
  | cons item items ih =>
    obtain ⟨hitem, hrest⟩ := List.forall_mem_cons.mp h
    rw [List.mapM_cons, hitem, ih hrest]
    rfl

/-- Mapping each item of a list, where some items give nothing. -/
theorem mapM_eq_ite {f : α → Option γ} {P : α → Prop} [DecidablePred P] {g : α → γ} {items : List α}
    (h : ∀ item ∈ items, f item = if P item then some (g item) else none) :
    items.mapM f = if ∀ item ∈ items, P item then some (items.map g) else none := by
  induction items with
  | nil => rfl
  | cons item items ih =>
    obtain ⟨hitem, hrest⟩ := List.forall_mem_cons.mp h
    rw [List.mapM_cons, hitem, ih hrest]
    by_cases hP : P item
    · by_cases hall : ∀ other ∈ items, P other
      · rw [if_pos hP, if_pos hall, if_pos (List.forall_mem_cons.mpr ⟨hP, hall⟩)]
        rfl
      · rw [if_pos hP, if_neg hall, if_neg (mt (fun h => (List.forall_mem_cons.mp h).2) hall)]
        rfl
    · rw [if_neg hP, if_neg (mt (fun h => (List.forall_mem_cons.mp h).1) hP)]
      rfl

/-- Mapping succeeds if every item gives something. -/
theorem exists_mapM_eq_some {f : α → Option γ} {items : List α}
    (h : ∀ item ∈ items, (f item).isSome) : ∃ results, items.mapM f = some results := by
  induction items with
  | nil => exact ⟨[], rfl⟩
  | cons item items ih =>
    obtain ⟨hitem, hrest⟩ := List.forall_mem_cons.mp h
    obtain ⟨result, hresult⟩ := Option.isSome_iff_exists.mp hitem
    obtain ⟨rest, hrest⟩ := ih hrest
    exact ⟨result :: rest, by rw [List.mapM_cons, hresult, hrest]; rfl⟩

theorem isSome_of_mapM {f : α → Option γ} {items : List α} {results : List γ}
    (h : items.mapM f = some results) : ∀ item ∈ items, (f item).isSome := by
  induction items generalizing results with
  | nil => exact fun _ hitem => absurd hitem List.not_mem_nil
  | cons item items ih =>
    rw [List.mapM_cons] at h
    obtain ⟨result, hresult, h⟩ := Option.bind_eq_some_iff.mp h
    obtain ⟨rest, hrest, -⟩ := Option.bind_eq_some_iff.mp h
    exact List.forall_mem_cons.mpr ⟨Option.isSome_iff_exists.mpr ⟨result, hresult⟩, ih hrest⟩

/-- Mapping in two passes. -/
theorem mapM_mapM {β γ : Type u} {f : α → Option β} {g : β → Option γ} {items : List α}
    {results : List β} (h : items.mapM f = some results) :
    results.mapM g = items.mapM fun item => (f item).bind g := by
  induction items generalizing results with
  | nil =>
    obtain rfl := Option.some.inj h
    rfl
  | cons item items ih =>
    rw [List.mapM_cons] at h
    obtain ⟨result, hresult, h⟩ := Option.bind_eq_some_iff.mp h
    obtain ⟨rest, hrest, h⟩ := Option.bind_eq_some_iff.mp h
    obtain rfl := Option.some.inj h
    rw [List.mapM_cons, List.mapM_cons, ih hrest, hresult]
    rfl

/-- Map each item of a list, and keep what there is. -/
def collect {γ : Type u} (f : α → Except ε (Option γ)) (items : List α) : Except ε (List γ) :=
  (items.mapM f).map List.reduceOption

/-- What an item gives is among the results. -/
theorem mem_of_collect {f : α → Except ε (Option γ)} {items : List α} {results : List γ}
    (h : collect f items = .ok results) {item : α} (hitem : item ∈ items) :
    ∃ found, f item = .ok found ∧ ∀ x ∈ found, x ∈ results := by
  obtain ⟨founds, hfounds, rfl⟩ := map_eq_ok_iff.mp h
  have hforall := mapM_eq_ok_iff.mp hfounds
  obtain ⟨i, hi, rfl⟩ := List.mem_iff_getElem.mp hitem
  have hlength : i < founds.length := hforall.length_eq ▸ hi
  refine ⟨founds[i], hforall.get hi hlength, fun x hx => ?_⟩
  exact List.reduceOption_mem_iff.mpr (Option.mem_def.mp hx ▸ List.getElem_mem hlength)

/-- If every item succeeds, mapping succeeds. -/
theorem exists_mapM {items : List α} (h : ∀ item ∈ items, ∃ result, f item = .ok result) :
    ∃ results, items.mapM f = .ok results := by
  induction items with
  | nil => exact ⟨[], rfl⟩
  | cons item items ih =>
    obtain ⟨result, hresult⟩ := h item List.mem_cons_self
    obtain ⟨results, hresults⟩ := ih fun other hother => h other (List.mem_cons_of_mem item hother)
    exact ⟨result :: results,
      mapM_eq_ok_iff.mpr (List.Forall₂.cons hresult (mapM_eq_ok_iff.mp hresults))⟩

/-- If every item gives something or nothing, what they give are the results. -/
theorem exists_collect {f : α → Except ε (Option γ)} {P : α → Option γ → Prop} {items : List α}
    (h : ∀ item ∈ items, ∃ found, f item = .ok found ∧ P item found) :
    ∃ results, collect f items = .ok results ∧
      ∀ item ∈ items, ∃ found, P item found ∧ ∀ x ∈ found, x ∈ results := by
  obtain ⟨founds, hfounds⟩ : ∃ founds, items.mapM f = .ok founds :=
    exists_mapM fun item hitem => (h item hitem).imp fun _ hfound => hfound.1
  have hcollect : collect f items = .ok founds.reduceOption :=
    map_eq_ok_iff.mpr ⟨founds, hfounds, rfl⟩
  refine ⟨founds.reduceOption, hcollect, fun item hitem => ?_⟩
  obtain ⟨found, hfound, hmem⟩ := mem_of_collect hcollect hitem
  obtain ⟨found', hfound', hP⟩ := h item hitem
  obtain rfl := Except.ok.inj (hfound.symm.trans hfound')
  exact ⟨found, hP, hmem⟩

/-! ### Threads -/

variable {β δ : Type*}

/-- Make something of each item in turn. A state is handed on, and something is drawn for each. -/
def thread (f : σ → δ → α → Except ε β × σ) : σ → (ℕ → δ) → List α → Except ε (List β) × σ
  | s, _, [] => (.ok [], s)
  | s, draws, item :: items =>
    match f s (draws 0) item with
    | (.error e, s) => (.error e, s)
    | (.ok result, s) =>
      match thread f s (fun i => draws (i + 1)) items with
      | (.error e, s) => (.error e, s)
      | (.ok results, s) => (.ok (result :: results), s)

variable {f : σ → δ → α → Except ε β × σ}

theorem thread_cons {s s' s'' : σ} {draws : ℕ → δ} {item : α} {items : List α} {result : β}
    {results : List β} (hitem : f s (draws 0) item = (.ok result, s'))
    (hitems : thread f s' (fun i => draws (i + 1)) items = (.ok results, s'')) :
    thread f s draws (item :: items) = (.ok (result :: results), s'') := by
  rw [thread, hitem]
  dsimp only
  rw [hitems]

/-- If something is made of every item in a state with an invariant, and the invariant is kept,
something is made of all of them. -/
theorem exists_thread {R : α → β → Prop}
    (hstep : ∀ s draw item, I s → ∃ result s', f s draw item = (.ok result, s') ∧
      R item result ∧ I s') {s : σ} (hs : I s) (draws : ℕ → δ) (items : List α) :
    ∃ results s', thread f s draws items = (.ok results, s') ∧
      List.Forall₂ R items results ∧ I s' := by
  induction items generalizing s draws with
  | nil => exact ⟨[], s, rfl, List.Forall₂.nil, hs⟩
  | cons item items ih =>
    obtain ⟨result, s', hitem, hR, hs'⟩ := hstep s (draws 0) item hs
    obtain ⟨results, s'', hitems, hresults, hs''⟩ := ih hs' fun i => draws (i + 1)
    exact ⟨result :: results, s'', thread_cons hitem hitems, hresults.cons hR, hs''⟩

/-- **The results are determined** by the items, where those of the single items are. -/
theorem thread_of_forall₂ {Q : β → α → Prop}
    (hstep : ∀ s draw result item, I s → Q result item →
      ∃ s', f s draw item = (.ok result, s') ∧ I s')
    {results : List β} {items : List α} (hQ : List.Forall₂ Q results items) {s : σ} (hs : I s)
    (draws : ℕ → δ) : ∃ s', thread f s draws items = (.ok results, s') ∧ I s' := by
  induction hQ generalizing s draws with
  | nil => exact ⟨s, rfl, hs⟩
  | @cons result item results items hitem _ ih =>
    obtain ⟨s', hitem, hs'⟩ := hstep s (draws 0) result item hs hitem
    obtain ⟨s'', hitems, hs''⟩ := ih hs' fun i => draws (i + 1)
    exact ⟨s'', thread_cons hitem hitems, hs''⟩

end Runs
