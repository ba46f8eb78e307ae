import Mathlib.Data.List.Range
import Mathlib.Data.List.Nodup

/-!
# The fail-secure pipeline manager

`PipelineManager.run` of `pipeline/manager.py`: a main loop that stops at the first
failing stage, and a `finally` block that runs the guaranteed stages the main loop did not
reach. A stage reads and writes a shared `ProcessingContext`; it records errors through
`fail_secure` and may, in addition, raise.

* `invoke` is `_invoke`, `mainLoop` the body of the `try`, `finallyLoop` the body of the
  `finally`, `run` their composition. The state carries a ghost `trace`: the indices of the
  stages whose `execute` was called, in order.
* `firstFailure` is the specification: the index of the first stage that fails when the
  stages are executed one after the other.
* `run_fail_secure` compares the two: the trace and the errors of every run that returns are
  those the first failure determines.
* `run_errors_iff`, `mem_trace_run`, `stopped_iff`: what a failure means for any run.
* `run_of_step`: what every stage keeps, a run keeps.
* `firstFailure_of_inStep`: two lists of stages in lock step fail at the same stage.

A `BaseException` (a cancellation) is not caught by `_invoke`; it leaves `run` after the
`finally` block. It is part of the model, so that the guard on `pending` means something.
-/

namespace AnonReq.Pipeline

universe u v w

variable {σ : Type u} {ε : Type v} {β : Type w}

/-! ### The context and the stages -/

/-- The shared context: the recorded `errors`, and in `data` every other field. -/
structure ProcessingContext (σ : Type u) (ε : Type v) where
  data : σ
  errors : List ε

namespace ProcessingContext

/-- `has_errors`: some error has been recorded. -/
def hasErrors (ctx : ProcessingContext σ ε) : Bool := decide (0 < ctx.errors.length)

/-- `fail_secure`: record an error. -/
def failSecure (ctx : ProcessingContext σ ε) (error : ε) : ProcessingContext σ ε :=
  { ctx with errors := ctx.errors ++ [error] }

theorem hasErrors_eq_false_iff {ctx : ProcessingContext σ ε} :
    ctx.hasErrors = false ↔ ctx.errors = [] := by
  simp [hasErrors, List.length_pos_iff]

end ProcessingContext

/-- How a call of `execute` ends: it returns the context, or it raises an `Exception`, or it
raises a `BaseException` that is not an `Exception`. -/
inductive Ending (ε : Type v) (β : Type w) where
  | returned
  | exception (error : ε)
  | baseException (error : β)

/-- What a call of `execute` does to the context: the other fields it leaves, the errors it
passes to `fail_secure`, in order, and how it ends. -/
structure Outcome (σ : Type u) (ε : Type v) (β : Type w) where
  data : σ
  recorded : List ε
  ending : Ending ε β

/-- A registered stage. -/
structure PipelineStage (σ : Type u) (ε : Type v) (β : Type w) where
  guaranteed : Bool
  execute : ProcessingContext σ ε → Outcome σ ε β

/-- What `_invoke` does: it hands back the context and perhaps the error of the stage, or a
`BaseException` passes through it. The context object is mutated in either case. -/
inductive Invoked (σ : Type u) (ε : Type v) (β : Type w) where
  | done (ctx : ProcessingContext σ ε) (error : Option ε)
  | propagated (ctx : ProcessingContext σ ε) (error : β)

/-- `_invoke`. Errors already on the context belong to an earlier stage: only an error added
by this call, or an exception, counts as a failure. -/
def invoke (ctx : ProcessingContext σ ε) (stage : PipelineStage σ ε β) : Invoked σ ε β :=
  let priorErrors := ctx.errors.length
  let out := stage.execute ctx
  let ctx' : ProcessingContext σ ε := ⟨out.data, ctx.errors ++ out.recorded⟩
  match out.ending with
  | .baseException error => .propagated ctx' error
  | .exception error => .done (ctx'.failSecure error) (some error)
  | .returned =>
    if priorErrors < ctx'.errors.length then .done ctx' ctx'.errors.getLast?
    else .done ctx' none

/-! ### The two loops -/

/-- The local variables of `run`. `trace` is a ghost: the stages executed so far. -/
structure RunState (σ : Type u) (ε : Type v) where
  ctx : ProcessingContext σ ε
  surfaced : Option (List ε)
  ran : List ℕ
  trace : List ℕ

/-- The main loop, over the stages with their indices. The second component is the
`BaseException` that ended it, if one did. -/
def mainLoop : List (PipelineStage σ ε β × ℕ) → RunState σ ε → RunState σ ε × Option β
  | [], s => (s, none)
  | (stage, index) :: rest, s =>
    if s.ctx.hasErrors then
      ({ s with surfaced := some s.ctx.errors }, none)
    else
      match invoke s.ctx stage with
      | .propagated ctx error => ({ s with ctx := ctx, trace := s.trace ++ [index] }, some error)
      | .done ctx (some _) =>
        (⟨ctx, some ctx.errors, s.ran ++ [index], s.trace ++ [index]⟩, none)
      | .done ctx none =>
        mainLoop rest ⟨ctx, s.surfaced, s.ran ++ [index], s.trace ++ [index]⟩

/-- The loop of the `finally` block. `pending` is the exception in flight when the block is
entered. `_invoke` turns every `Exception` into an error, so only a `BaseException` leaves. -/
def finallyLoop (pending : Option β) :
    List (PipelineStage σ ε β × ℕ) → RunState σ ε → RunState σ ε × Option β
  | [], s => (s, none)
  | (stage, index) :: rest, s =>
    if index ∈ s.ran ∨ stage.guaranteed = false then
      finallyLoop pending rest s
    else
      match invoke s.ctx stage with
      | .propagated ctx error => ({ s with ctx := ctx, trace := s.trace ++ [index] }, some error)
      | .done ctx error =>
        let surfaced :=
          if error.isSome ∧ s.surfaced.isNone ∧ pending.isNone then some ctx.errors
          else s.surfaced
        finallyLoop pending rest ⟨ctx, surfaced, s.ran, s.trace ++ [index]⟩

/-- `PipelineManager.run`, with the trace of the executed stages. -/
def run (stages : List (PipelineStage σ ε β)) (ctx : ProcessingContext σ ε) :
    Except β (ProcessingContext σ ε) × List ℕ :=
  let main := mainLoop stages.zipIdx ⟨ctx, none, [], []⟩
  let final := finallyLoop main.2 stages.zipIdx main.1
  match final.2, main.2, final.1.surfaced with
  | some error, _, _ => (.error error, final.1.trace)
  | none, some error, _ => (.error error, final.1.trace)
  | none, none, some errors => (.ok { final.1.ctx with errors := errors }, final.1.trace)
  | none, none, none => (.ok final.1.ctx, final.1.trace)

/-! ### The first failure -/

/-- A stage fails on a context when it records an error or raises an exception. -/
def fails (stage : PipelineStage σ ε β) (ctx : ProcessingContext σ ε) : Bool :=
  match (stage.execute ctx).ending with
  | .returned => !(stage.execute ctx).recorded.isEmpty
  | _ => true

/-- The context after one stage: the errors it recorded, then the exception it raised. -/
def applied (stage : PipelineStage σ ε β) (ctx : ProcessingContext σ ε) :
    ProcessingContext σ ε :=
  let out := stage.execute ctx
  ⟨out.data, ctx.errors ++ out.recorded ++
    match out.ending with
    | .exception error => [error]
    | _ => []⟩

/-- The index of the first stage that fails, the stages being executed in order. -/
def firstFailure : List (PipelineStage σ ε β) → ProcessingContext σ ε → Option ℕ
  | [], _ => none
  | stage :: rest, ctx =>
    if fails stage ctx then some 0 else (firstFailure rest (applied stage ctx)).map (· + 1)

/-- The context after all the stages of a list, in order. -/
def appliedAll (stages : List (PipelineStage σ ε β)) (ctx : ProcessingContext σ ε) :
    ProcessingContext σ ε :=
  stages.foldl (fun ctx stage => applied stage ctx) ctx

/-! ### One call of `_invoke` -/

variable {ctx : ProcessingContext σ ε} {stage : PipelineStage σ ε β}

/-- A stage that does not fail leaves the errors as they are and is no failure to
`_invoke`. -/
theorem invoke_of_not_fails (h : fails stage ctx = false) :
    invoke ctx stage = .done (applied stage ctx) none ∧
      (applied stage ctx).errors = ctx.errors := by
  rw [fails] at h
  cases hend : (stage.execute ctx).ending with
  | returned =>
    have hrec : (stage.execute ctx).recorded = [] := by simpa [hend] using h
    simp [invoke, applied, hend, hrec]
  | exception error => simp [hend] at h
  | baseException error => simp [hend] at h

/-- A stage that fails is reported with an error, unless a `BaseException` passes through. -/
theorem invoke_of_fails (h : fails stage ctx = true) :
    (∃ error, invoke ctx stage = .done (applied stage ctx) (some error)) ∨
      ∃ error, invoke ctx stage = .propagated (applied stage ctx) error := by
  rw [fails] at h
  cases hend : (stage.execute ctx).ending with
  | returned =>
    have hrec : (stage.execute ctx).recorded ≠ [] := by simpa [hend] using h
    obtain ⟨errors, error, heq⟩ := (List.eq_nil_or_concat (stage.execute ctx).recorded).resolve_left
      hrec
    have hlt : ctx.errors.length < ctx.errors.length + errors.length + 1 := by omega
    refine Or.inl ⟨error, ?_⟩
    simp [invoke, applied, hend, heq, ← List.append_assoc, hlt]
  | exception error =>
    exact Or.inl ⟨error, by simp [invoke, applied, hend, ProcessingContext.failSecure]⟩
  | baseException error => exact Or.inr ⟨error, by simp [invoke, applied, hend]⟩

/-! ### The main loop -/

variable {stages : List (PipelineStage σ ε β)}

/-- With no failing stage the main loop executes every stage and leaves the errors empty. -/
theorem mainLoop_of_firstFailure_none :
    ∀ {s : RunState σ ε} (m : ℕ), s.ctx.errors = [] → s.surfaced = none →
      firstFailure stages s.ctx = none →
      mainLoop (stages.zipIdx m) s =
          (⟨appliedAll stages s.ctx, none, s.ran ++ List.range' m stages.length,
            s.trace ++ List.range' m stages.length⟩, none) ∧
        (appliedAll stages s.ctx).errors = [] := by
  induction stages with
  | nil =>
    rintro ⟨ctx, surfaced, ran, trace⟩ m herr rfl -
    simpa [mainLoop, appliedAll] using herr
  | cons stage rest ih =>
    intro s m herr hsur hff
    have hnf : fails stage s.ctx = false := by
      by_contra hf
      simp [firstFailure, Bool.not_eq_false _ ▸ hf] at hff
    have hrest : firstFailure rest (applied stage s.ctx) = none := by
      simpa [firstFailure, hnf] using hff
    obtain ⟨hinv, heq⟩ := invoke_of_not_fails hnf
    have hgo := @ih ⟨applied stage s.ctx, s.surfaced, s.ran ++ [m], s.trace ++ [m]⟩ (m + 1)
      (heq.trans herr) hsur hrest
    have hno : s.ctx.hasErrors = false := ProcessingContext.hasErrors_eq_false_iff.mpr herr
    rw [List.zipIdx_cons, mainLoop, hno]
    simp only [Bool.false_eq_true, if_false, hinv]
    refine ⟨hgo.1.trans ?_, hgo.2⟩
    simp [appliedAll, List.range'_succ]

/-- With a first failure at `k` the main loop executes the stages `0 … k`, takes the snapshot
of the errors there and stops; or a `BaseException` passes through. -/
theorem mainLoop_of_firstFailure_some :
    ∀ {s : RunState σ ε} (m : ℕ) {k : ℕ}, s.ctx.errors = [] →
      firstFailure stages s.ctx = some k →
      (mainLoop (stages.zipIdx m) s).2 ≠ none ∨
        mainLoop (stages.zipIdx m) s =
          (⟨appliedAll (stages.take (k + 1)) s.ctx,
            some (appliedAll (stages.take (k + 1)) s.ctx).errors,
            s.ran ++ List.range' m (k + 1), s.trace ++ List.range' m (k + 1)⟩, none) := by
  induction stages with
  | nil => intro s m k _ hff; simp [firstFailure] at hff
  | cons stage rest ih =>
    intro s m k herr hff
    have hno : s.ctx.hasErrors = false := ProcessingContext.hasErrors_eq_false_iff.mpr herr
    rw [List.zipIdx_cons, mainLoop, hno]
    simp only [Bool.false_eq_true, if_false]
    by_cases hf : fails stage s.ctx = true
    · -- the failing stage is this one
      obtain rfl : k = 0 := by simpa [firstFailure, hf, eq_comm] using hff
      rcases invoke_of_fails hf with ⟨error, hinv⟩ | ⟨error, hinv⟩
      · refine Or.inr ?_
        simp [hinv, appliedAll]
      · exact Or.inl (by simp [hinv])
    · rw [Bool.not_eq_true] at hf
      obtain ⟨j, hj, rfl⟩ : ∃ j, firstFailure rest (applied stage s.ctx) = some j ∧ j + 1 = k := by
        simpa [firstFailure, hf] using hff
      obtain ⟨hinv, heq⟩ := invoke_of_not_fails hf
      rw [hinv]
      refine (@ih ⟨applied stage s.ctx, s.surfaced, s.ran ++ [m], s.trace ++ [m]⟩ (m + 1) j
        (heq.trans herr) hj).imp id fun h => h.trans ?_
      simp [appliedAll, List.range'_succ]

/-! ### The `finally` block -/

/-- The indices of the guaranteed stages that the main loop did not run. -/
def guaranteedNotRan (ran : List ℕ) (stages : List (PipelineStage σ ε β × ℕ)) : List ℕ :=
  (stages.filter fun p => decide (p.2 ∉ ran) && p.1.guaranteed).map (·.2)

/-- The `finally` block executes the guaranteed stages not yet run, in order, and never
replaces a snapshot that was taken; or a `BaseException` passes through. -/
theorem finallyLoop_spec (stages : List (PipelineStage σ ε β × ℕ)) {errors : List ε} :
    ∀ {s : RunState σ ε}, s.surfaced = some errors →
      (finallyLoop none stages s).2 ≠ none ∨
        ((finallyLoop none stages s).2 = none ∧
          (finallyLoop none stages s).1.surfaced = some errors ∧
          (finallyLoop none stages s).1.trace = s.trace ++ guaranteedNotRan s.ran stages) := by
  induction stages with
  | nil => intro s hsur; simp [finallyLoop, guaranteedNotRan, hsur]
  | cons p rest ih =>
    obtain ⟨stage, index⟩ := p
    intro s hsur
    by_cases hskip : index ∈ s.ran ∨ stage.guaranteed = false
    · have hdrop : guaranteedNotRan s.ran ((stage, index) :: rest) =
          guaranteedNotRan s.ran rest := by
        rcases hskip with h | h <;> simp [guaranteedNotRan, h]
      rw [finallyLoop, if_pos hskip, hdrop]
      exact ih hsur
    · have hkeep : guaranteedNotRan s.ran ((stage, index) :: rest) =
          index :: guaranteedNotRan s.ran rest := by
        simp only [not_or, Bool.not_eq_false] at hskip
        simp [guaranteedNotRan, hskip.1, hskip.2]
      rw [finallyLoop, if_neg hskip]
      cases hinv : invoke s.ctx stage with
      | propagated ctx error => exact Or.inl (by simp)
      | done ctx error =>
        have hstay : (if error.isSome ∧ s.surfaced.isNone ∧ (none : Option β).isNone then
            some ctx.errors else s.surfaced) = some errors := by simp [hsur]
        refine (@ih ⟨ctx, _, s.ran, s.trace ++ [index]⟩ hstay).imp id fun h => ?_
        refine ⟨h.1, h.2.1, h.2.2.trans ?_⟩
        rw [hkeep, List.append_assoc, List.singleton_append]

/-- When every stage was run by the main loop the `finally` block does nothing. -/
theorem finallyLoop_of_forall_mem {pending : Option β}
    {stages : List (PipelineStage σ ε β × ℕ)} {s : RunState σ ε}
    (h : ∀ p ∈ stages, p.2 ∈ s.ran) : finallyLoop pending stages s = (s, none) := by
  induction stages with
  | nil => rfl
  | cons p rest ih =>
    rw [finallyLoop, if_pos (Or.inl (h p List.mem_cons_self))]
    exact ih fun q hq => h q (List.mem_cons_of_mem _ hq)

/-! ### Runs -/

/-- Stage `i` is registered and marked `guaranteed`. -/
def guaranteedAt (stages : List (PipelineStage σ ε β)) (i : ℕ) : Prop :=
  ∃ stage, stages[i]? = some stage ∧ stage.guaranteed = true

/-- The registered stages raise no `BaseException`. -/
def NoBaseException (stages : List (PipelineStage σ ε β)) : Prop :=
  ∀ stage ∈ stages, ∀ ctx error, (stage.execute ctx).ending ≠ .baseException error

/-- The guaranteed stages left to the `finally` block after a failure at `k`. -/
def guaranteedAfter (stages : List (PipelineStage σ ε β)) (k : ℕ) : List ℕ :=
  guaranteedNotRan (List.range (k + 1)) stages.zipIdx

theorem mem_guaranteedAfter {k i : ℕ} :
    i ∈ guaranteedAfter stages k ↔ k < i ∧ guaranteedAt stages i := by
  simp only [guaranteedAfter, guaranteedNotRan, guaranteedAt, List.mem_map, List.mem_filter,
    Bool.and_eq_true, decide_eq_true_eq, List.mem_range, Prod.exists,
    List.mk_mem_zipIdx_iff_getElem?]
  constructor
  · rintro ⟨stage, j, ⟨hget, hj, hg⟩, rfl⟩
    exact ⟨by omega, stage, hget, hg⟩
  · rintro ⟨hki, stage, hget, hg⟩
    exact ⟨stage, i, ⟨hget, by omega, hg⟩, rfl⟩

theorem pairwise_guaranteedAfter (stages : List (PipelineStage σ ε β)) (k : ℕ) :
    (guaranteedAfter stages k).Pairwise (· < ·) := by
  have hidx : (stages.zipIdx.map (·.2)).Pairwise (· < ·) := by
    rw [List.zipIdx_map_snd]
    exact List.pairwise_lt_range'
  exact hidx.sublist ((List.filter_sublist).map _)

/-- A run in which no stage fails executes all stages once, in order, and returns the context
they leave, without errors. -/
theorem run_of_firstFailure_none (herr : ctx.errors = []) (hff : firstFailure stages ctx = none) :
    run stages ctx = (.ok (appliedAll stages ctx), List.range stages.length) ∧
      (appliedAll stages ctx).errors = [] := by
  obtain ⟨hmain, hnil⟩ := mainLoop_of_firstFailure_none (s := ⟨ctx, none, [], []⟩) 0 herr rfl hff
  refine ⟨?_, hnil⟩
  rw [List.nil_append, ← List.range_eq_range'] at hmain
  have hfin : finallyLoop (none : Option β) stages.zipIdx
      ⟨appliedAll stages ctx, none, List.range stages.length, List.range stages.length⟩ =
      (⟨appliedAll stages ctx, none, List.range stages.length, List.range stages.length⟩,
        none) := by
    refine finallyLoop_of_forall_mem fun p hp => List.mem_range.mpr ?_
    exact (List.getElem?_eq_some_iff.mp (List.mk_mem_zipIdx_iff_getElem?.mp hp)).1
  simp only [run, hmain, hfin]

/-- A run that returns and in which stage `k` is the first to fail executes the stages
`0 … k`, then the guaranteed stages after `k`, and returns the errors as they stood when the
failure of `k` was detected. -/
theorem run_of_firstFailure_some {ctx ctx' : ProcessingContext σ ε} {k : ℕ} (herr : ctx.errors = [])
    (hff : firstFailure stages ctx = some k) (hok : (run stages ctx).1 = .ok ctx') :
    (run stages ctx).2 = List.range (k + 1) ++ guaranteedAfter stages k ∧
      ctx'.errors = (appliedAll (stages.take (k + 1)) ctx).errors := by
  rcases mainLoop_of_firstFailure_some (s := ⟨ctx, none, [], []⟩) 0 herr hff with hmain | hmain
  · -- a `BaseException` left the main loop: the run cannot return
    obtain ⟨b, hb⟩ := Option.ne_none_iff_exists'.mp hmain
    simp only [run, hb] at hok
    split at hok <;> simp_all
  · rw [List.nil_append, ← List.range_eq_range'] at hmain
    rcases finallyLoop_spec stages.zipIdx (s := ⟨appliedAll (stages.take (k + 1)) ctx,
      some (appliedAll (stages.take (k + 1)) ctx).errors, List.range (k + 1),
      List.range (k + 1)⟩) rfl with hfin | ⟨hnone, hsur, htrace⟩
    · -- one left the `finally` block
      obtain ⟨b, hb⟩ := Option.ne_none_iff_exists'.mp hfin
      simp only [run, hmain, hb, reduceCtorEq] at hok
    · simp only [run, hmain, hnone, hsur, Except.ok.injEq] at hok ⊢
      exact ⟨htrace, by rw [← hok]⟩

/-- `_invoke` lets nothing through when the stage raises no `BaseException`. -/
theorem invoke_eq_done (h : ∀ error, (stage.execute ctx).ending ≠ .baseException error) :
    ∃ ctx' error, invoke ctx stage = .done ctx' error := by
  cases hend : (stage.execute ctx).ending with
  | returned =>
    simp only [invoke, hend]
    -- whether the stage recorded an error decides which error is reported, not the shape
    split_ifs <;> exact ⟨_, _, rfl⟩
  | exception error =>
    simp only [invoke, hend]
    exact ⟨_, _, rfl⟩
  | baseException error => exact absurd hend (h error)

private theorem mainLoop_returns {stages : List (PipelineStage σ ε β × ℕ)} :
    ∀ {s : RunState σ ε},
      (∀ p ∈ stages, ∀ ctx error, (p.1.execute ctx).ending ≠ .baseException error) →
      (mainLoop stages s).2 = none := by
  induction stages with
  | nil => intro s _; rfl
  | cons p rest ih =>
    intro s h
    obtain ⟨stage, index⟩ := p
    obtain ⟨ctx', error, hinv⟩ := invoke_eq_done fun b => h _ List.mem_cons_self s.ctx b
    have hrest := fun q hq => h q (List.mem_cons_of_mem _ hq)
    rw [mainLoop]
    split_ifs
    · rfl
    · rw [hinv]
      cases error with
      | none => exact ih hrest
      | some e => rfl

private theorem finallyLoop_returns (pending : Option β)
    {stages : List (PipelineStage σ ε β × ℕ)} :
    ∀ {s : RunState σ ε},
      (∀ p ∈ stages, ∀ ctx error, (p.1.execute ctx).ending ≠ .baseException error) →
      (finallyLoop pending stages s).2 = none := by
  induction stages with
  | nil => intro s _; rfl
  | cons p rest ih =>
    intro s h
    obtain ⟨stage, index⟩ := p
    obtain ⟨ctx', error, hinv⟩ := invoke_eq_done fun b => h _ List.mem_cons_self s.ctx b
    have hrest := fun q hq => h q (List.mem_cons_of_mem _ hq)
    rw [finallyLoop]
    split_ifs
    · exact ih hrest
    · rw [hinv]
      exact ih hrest

/-- Without a `BaseException` every run returns a context. -/
theorem run_returns (ctx : ProcessingContext σ ε) (h : NoBaseException stages) :
    ∃ ctx', (run stages ctx).1 = .ok ctx' := by
  have hidx : ∀ p ∈ stages.zipIdx, ∀ ctx error,
      (p.1.execute ctx).ending ≠ .baseException error := fun p hp =>
    h p.1 (List.mem_of_getElem? (List.mk_mem_zipIdx_iff_getElem?.mp hp))
  have hmain := mainLoop_returns (s := ⟨ctx, none, [], []⟩) hidx
  have hfin := finallyLoop_returns none
    (s := (mainLoop stages.zipIdx ⟨ctx, none, [], []⟩).1) hidx
  simp only [run, hmain, hfin]
  split <;> simp_all

/-! ### After a failure -/

/-- The first failure of two lists of stages, one after the other. -/
theorem firstFailure_append (front back : List (PipelineStage σ ε β))
    (ctx : ProcessingContext σ ε) :
    firstFailure (front ++ back) ctx =
      (firstFailure front ctx).or
        ((firstFailure back (appliedAll front ctx)).map (· + front.length)) := by
  induction front generalizing ctx with
  | nil => simp [firstFailure, appliedAll]
  | cons stage front ih =>
    rw [List.cons_append, firstFailure, firstFailure]
    split_ifs
    · rfl
    · have hall : appliedAll (stage :: front) ctx = appliedAll front (applied stage ctx) := rfl
      rw [ih, hall]
      rcases firstFailure front (applied stage ctx) with _ | k
      · rcases firstFailure back (appliedAll front (applied stage ctx)) with _ | k <;>
          simp [Nat.add_assoc]
      · rfl

/-- What every stage keeps, whether it fails or not, all of them keep. -/
theorem appliedAll_of_step {I : σ → Prop}
    (hstep : ∀ stage ∈ stages, ∀ ctx, I ctx.data → I (stage.execute ctx).data) (hI : I ctx.data) :
    I (appliedAll stages ctx).data := by
  induction stages generalizing ctx with
  | nil => exact hI
  | cons stage rest ih =>
    obtain ⟨hstage, hrest⟩ := List.forall_mem_cons.mp hstep
    have happlied : I (applied stage ctx).data := hstage ctx hI
    exact ih hrest happlied

theorem firstFailure_lt_length {k : ℕ} (h : firstFailure stages ctx = some k) :
    k < stages.length := by
  induction stages generalizing ctx k with
  | nil => simp [firstFailure] at h
  | cons stage rest ih =>
    rw [firstFailure] at h
    split_ifs at h
    · obtain rfl := Option.some.inj h
      exact Nat.succ_pos _
    · obtain ⟨j, hj, rfl⟩ := Option.map_eq_some_iff.mp h
      exact Nat.succ_lt_succ (ih hj)

/-- A stage that fails without a `BaseException` leaves an error. -/
theorem applied_errors_ne_nil (h : fails stage ctx = true)
    (hbase : ∀ error, (stage.execute ctx).ending ≠ .baseException error) :
    (applied stage ctx).errors ≠ [] := by
  rw [fails] at h
  cases hend : (stage.execute ctx).ending with
  | returned =>
    have hrec : (stage.execute ctx).recorded ≠ [] := by simpa [hend] using h
    simp [applied, hend, hrec]
  | exception error => simp [applied, hend]
  | baseException error => exact absurd hend (hbase error)

/-- The stages up to the first failure leave an error. -/
theorem appliedAll_errors_ne_nil (hbase : NoBaseException stages) {k : ℕ}
    (hff : firstFailure stages ctx = some k) :
    (appliedAll (stages.take (k + 1)) ctx).errors ≠ [] := by
  induction stages generalizing ctx k with
  | nil => simp [firstFailure] at hff
  | cons stage rest ih =>
    rw [List.take_succ_cons, appliedAll, List.foldl_cons, ← appliedAll]
    by_cases hf : fails stage ctx = true
    · obtain rfl : k = 0 := by simpa [firstFailure, hf, eq_comm] using hff
      exact applied_errors_ne_nil hf (hbase stage List.mem_cons_self ctx)
    · rw [Bool.not_eq_true] at hf
      obtain ⟨j, hj, rfl⟩ : ∃ j, firstFailure rest (applied stage ctx) = some j ∧ j + 1 = k := by
        simpa [firstFailure, hf] using hff
      exact ih (fun s hs => hbase s (List.mem_cons_of_mem stage hs)) hj

/-- **Errors of a run.** A run over stages without a `BaseException` returns errors if and only
if some stage fails. -/
theorem run_errors_iff (hbase : NoBaseException stages) (herr : ctx.errors = []) :
    (∃ ctx', (run stages ctx).1 = .ok ctx' ∧ ctx'.errors ≠ []) ↔
      firstFailure stages ctx ≠ none := by
  obtain ⟨ctx', hok⟩ := run_returns ctx hbase
  have honly : (∃ ctx', (run stages ctx).1 = .ok ctx' ∧ ctx'.errors ≠ []) ↔
      ctx'.errors ≠ [] := by simp [hok]
  rw [honly]
  rcases hff : firstFailure stages ctx with _ | k
  · obtain ⟨hrun, hnil⟩ := run_of_firstFailure_none herr hff
    rw [hrun] at hok
    obtain rfl := Except.ok.inj hok
    simp [hnil]
  · have herrors := (run_of_firstFailure_some herr hff hok).2
    rw [herrors]
    exact iff_of_true (appliedAll_errors_ne_nil hbase hff) (Option.some_ne_none k)

/-- The main loop executes no stage after the first failure. -/
theorem mem_trace_mainLoop :
    ∀ {s : RunState σ ε} (m : ℕ) {k : ℕ}, s.ctx.errors = [] →
      firstFailure stages s.ctx = some k →
      ∀ i ∈ (mainLoop (stages.zipIdx m) s).1.trace, i ∈ s.trace ∨ i ≤ m + k := by
  induction stages with
  | nil => intro s m k _ hff; simp [firstFailure] at hff
  | cons stage rest ih =>
    intro s m k herr hff i hi
    have hno : s.ctx.hasErrors = false := ProcessingContext.hasErrors_eq_false_iff.mpr herr
    rw [List.zipIdx_cons, mainLoop, hno] at hi
    simp only [Bool.false_eq_true, if_false] at hi
    by_cases hf : fails stage s.ctx = true
    · -- the failing stage is this one, and the last to be executed
      have hlast : i ∈ s.trace ++ [m] := by
        rcases invoke_of_fails hf with ⟨error, hinv⟩ | ⟨error, hinv⟩ <;> simpa [hinv] using hi
      obtain hi | hi := List.mem_append.mp hlast
      · exact Or.inl hi
      · obtain rfl := List.mem_singleton.mp hi
        exact Or.inr (Nat.le_add_right i k)
    · rw [Bool.not_eq_true] at hf
      obtain ⟨j, hj, rfl⟩ : ∃ j, firstFailure rest (applied stage s.ctx) = some j ∧ j + 1 = k := by
        simpa [firstFailure, hf] using hff
      obtain ⟨hinv, heq⟩ := invoke_of_not_fails hf
      rw [hinv] at hi
      obtain hi | hi := @ih ⟨applied stage s.ctx, s.surfaced, s.ran ++ [m], s.trace ++ [m]⟩ (m + 1)
        j (heq.trans herr) hj i hi
      · obtain hi | hi := List.mem_append.mp hi
        · exact Or.inl hi
        · obtain rfl := List.mem_singleton.mp hi
          exact Or.inr (by omega)
      · exact Or.inr (by omega)

/-- The `finally` block executes guaranteed stages only. -/
theorem mem_trace_finallyLoop (pending : Option β) (stages : List (PipelineStage σ ε β × ℕ)) :
    ∀ {s : RunState σ ε}, ∀ i ∈ (finallyLoop pending stages s).1.trace,
      i ∈ s.trace ∨ ∃ p ∈ stages, p.2 = i ∧ p.1.guaranteed = true := by
  induction stages with
  | nil => exact fun i hi => Or.inl hi
  | cons p rest ih =>
    obtain ⟨stage, index⟩ := p
    intro s i hi
    have hrest : (∃ p ∈ rest, p.2 = i ∧ p.1.guaranteed = true) →
        ∃ p ∈ (stage, index) :: rest, p.2 = i ∧ p.1.guaranteed = true :=
      fun ⟨p, hp, h⟩ => ⟨p, List.mem_cons_of_mem _ hp, h⟩
    rw [finallyLoop] at hi
    split_ifs at hi with hskip
    · exact (ih i hi).imp id hrest
    · have hguaranteed : stage.guaranteed = true := by simpa using (not_or.mp hskip).2
      have hthis : i ∈ s.trace ++ [index] →
          i ∈ s.trace ∨ ∃ p ∈ (stage, index) :: rest, p.2 = i ∧ p.1.guaranteed = true := by
        intro h
        obtain h | h := List.mem_append.mp h
        · exact Or.inl h
        · exact Or.inr ⟨_, List.mem_cons_self, (List.mem_singleton.mp h).symm, hguaranteed⟩
      cases hinv : invoke s.ctx stage with
      | propagated ctx error =>
        rw [hinv] at hi
        exact hthis hi
      | done ctx error =>
        rw [hinv] at hi
        obtain hi | hi := ih i hi
        · exact hthis hi
        · exact Or.inr (hrest hi)

/-- **After a failure.** Whether a run returns or not, only guaranteed stages are executed after
the first failure. -/
theorem mem_trace_run (herr : ctx.errors = []) {k : ℕ} (hff : firstFailure stages ctx = some k)
    {i : ℕ} (hi : i ∈ (run stages ctx).2) :
    i ≤ k ∨ guaranteedAt stages i := by
  have hfinal : (run stages ctx).2 = (finallyLoop (mainLoop stages.zipIdx ⟨ctx, none, [], []⟩).2
      stages.zipIdx (mainLoop stages.zipIdx ⟨ctx, none, [], []⟩).1).1.trace := by
    rw [run]
    dsimp only
    split <;> rfl
  rw [hfinal] at hi
  obtain hi | ⟨⟨stage, index⟩, hp, rfl, hguaranteed⟩ := mem_trace_finallyLoop _ _ i hi
  · obtain hi | hi := mem_trace_mainLoop (s := ⟨ctx, none, [], []⟩) 0 herr hff i hi
    · exact absurd hi List.not_mem_nil
    · exact Or.inl (by omega)
  · exact Or.inr ⟨stage, List.mk_mem_zipIdx_iff_getElem?.mp hp, hguaranteed⟩

/-- **Stopped runs.** A run records an error in its first stages, and never executes a stage that
comes later and is not guaranteed, if and only if one of the first stages fails. -/
theorem stopped_iff {n i : ℕ} (hbase : NoBaseException (stages.take n)) (hni : n ≤ i)
    (hi : ¬ guaranteedAt stages i) (herr : ctx.errors = []) :
    ((∃ stopped, (run (stages.take n) ctx).1 = .ok stopped ∧ stopped.errors ≠ []) ∧
        i ∉ (run stages ctx).2) ↔ firstFailure (stages.take n) ctx ≠ none := by
  rw [run_errors_iff hbase herr, and_iff_left_iff_imp]
  intro hfailure hexecuted
  obtain ⟨k, hk⟩ := Option.ne_none_iff_exists'.mp hfailure
  have hlt : k < n := (firstFailure_lt_length hk).trans_le (List.length_take_le n stages)
  have hstages : firstFailure stages ctx = some k := by
    rw [← List.take_append_drop n stages, firstFailure_append, hk]
    rfl
  obtain hle | hguaranteed := mem_trace_run herr hstages hexecuted
  · omega
  · exact hi hguaranteed

/-! ### Invariants of a run -/

/-- `_invoke` leaves the context that the stage leaves. -/
theorem invoke_eq_applied (ctx : ProcessingContext σ ε) (stage : PipelineStage σ ε β) :
    (∃ error, invoke ctx stage = .done (applied stage ctx) error) ∨
      ∃ error, invoke ctx stage = .propagated (applied stage ctx) error := by
  by_cases hf : fails stage ctx = true
  · exact (invoke_of_fails hf).imp (fun ⟨error, h⟩ => ⟨some error, h⟩) id
  · rw [Bool.not_eq_true] at hf
    exact Or.inl ⟨none, (invoke_of_not_fails hf).1⟩

private theorem mainLoop_of_step {I : σ → Prop} {stages : List (PipelineStage σ ε β × ℕ)}
    (hstep : ∀ p ∈ stages, ∀ ctx, I ctx.data → I (p.1.execute ctx).data) {s : RunState σ ε}
    (hI : I s.ctx.data) : I (mainLoop stages s).1.ctx.data := by
  induction stages generalizing s with
  | nil => exact hI
  | cons p rest ih =>
    obtain ⟨stage, index⟩ := p
    obtain ⟨hstage, hrest⟩ := List.forall_mem_cons.mp hstep
    have happlied : I (applied stage s.ctx).data := hstage s.ctx hI
    rw [mainLoop]
    split_ifs
    · exact hI
    · obtain ⟨error, hinv⟩ | ⟨error, hinv⟩ := invoke_eq_applied s.ctx stage
      · rw [hinv]
        rcases error with _ | error
        · exact ih hrest happlied
        · exact happlied
      · rw [hinv]
        exact happlied

private theorem finallyLoop_of_step {I : σ → Prop} (pending : Option β)
    {stages : List (PipelineStage σ ε β × ℕ)}
    (hstep : ∀ p ∈ stages, ∀ ctx, I ctx.data → I (p.1.execute ctx).data) {s : RunState σ ε}
    (hI : I s.ctx.data) : I (finallyLoop pending stages s).1.ctx.data := by
  induction stages generalizing s with
  | nil => exact hI
  | cons p rest ih =>
    obtain ⟨stage, index⟩ := p
    obtain ⟨hstage, hrest⟩ := List.forall_mem_cons.mp hstep
    have happlied : I (applied stage s.ctx).data := hstage s.ctx hI
    rw [finallyLoop]
    split_ifs
    · exact ih hrest hI
    · obtain ⟨error, hinv⟩ | ⟨error, hinv⟩ := invoke_eq_applied s.ctx stage
      · rw [hinv]
        exact ih hrest happlied
      · rw [hinv]
        exact happlied

/-- **Invariants of a run.** What every stage keeps, whether it fails or not, holds of the context
that a run returns. -/
theorem run_of_step {I : σ → Prop}
    (hstep : ∀ stage ∈ stages, ∀ ctx, I ctx.data → I (stage.execute ctx).data)
    {ctx ctx' : ProcessingContext σ ε} (hI : I ctx.data) (hok : (run stages ctx).1 = .ok ctx') :
    I ctx'.data := by
  have hidx : ∀ p ∈ stages.zipIdx, ∀ ctx, I ctx.data → I (p.1.execute ctx).data := fun p hp =>
    hstep p.1 (List.mem_of_getElem? (List.mk_mem_zipIdx_iff_getElem?.mp hp))
  have hfinal := finallyLoop_of_step (mainLoop stages.zipIdx ⟨ctx, none, [], []⟩).2 hidx
    (mainLoop_of_step (s := ⟨ctx, none, [], []⟩) hidx hI)
  rw [run] at hok
  dsimp only at hok
  -- only the recorded errors may be replaced by the snapshot
  split at hok
  · cases hok
  · cases hok
  · exact Except.ok.inj hok ▸ hfinal
  · exact Except.ok.inj hok ▸ hfinal

/-! ### Lists of stages in lock step -/

/-- The context after the stages of a list that are executed: those up to the first failure. -/
def executed : List (PipelineStage σ ε β) → ProcessingContext σ ε → ProcessingContext σ ε
  | [], ctx => ctx
  | stage :: rest, ctx =>
    if fails stage ctx then applied stage ctx else executed rest (applied stage ctx)

theorem executed_append (front back : List (PipelineStage σ ε β))
    (ctx : ProcessingContext σ ε) :
    executed (front ++ back) ctx =
      if firstFailure front ctx = none then executed back (appliedAll front ctx)
      else executed front ctx := by
  induction front generalizing ctx with
  | nil => rfl
  | cons stage front ih =>
    have hall : appliedAll (stage :: front) ctx = appliedAll front (applied stage ctx) := rfl
    rw [List.cons_append, executed, firstFailure, executed, hall, ih]
    split_ifs <;> simp_all

theorem executed_of_firstFailure_none (h : firstFailure stages ctx = none) :
    executed stages ctx = appliedAll stages ctx := by
  have hexecuted := executed_append stages [] ctx
  rw [List.append_nil, if_pos h] at hexecuted
  exact hexecuted

/-- What every stage keeps, whether it fails or not, holds after those that are executed. -/
theorem executed_of_step {I : σ → Prop}
    (hstep : ∀ stage ∈ stages, ∀ ctx, I ctx.data → I (stage.execute ctx).data) (hI : I ctx.data) :
    I (executed stages ctx).data := by
  induction stages generalizing ctx with
  | nil => exact hI
  | cons stage rest ih =>
    obtain ⟨hstage, hrest⟩ := List.forall_mem_cons.mp hstep
    rw [executed]
    split_ifs
    · exact hstage ctx hI
    · have happlied : I (applied stage ctx).data := hstage ctx hI
      exact ih hrest happlied

/-- Two stages in lock step: on related contexts both fail or none, and the contexts are related
afterwards. -/
def InStep {τ : Type*} (R : σ → τ → Prop) (s : PipelineStage σ ε β) (t : PipelineStage τ ε β) :
    Prop :=
  ∀ ctx ctx', R ctx.data ctx'.data →
    fails s ctx = fails t ctx' ∧ R (applied s ctx).data (applied t ctx').data

/-- Stages whose calls record the same errors, end the same way and leave related data are in lock
step. -/
theorem inStep_of_execute {τ : Type*} {R : σ → τ → Prop} {s : PipelineStage σ ε β}
    {t : PipelineStage τ ε β} (h : ∀ ctx ctx', R ctx.data ctx'.data →
      R (s.execute ctx).data (t.execute ctx').data ∧
        (t.execute ctx').recorded = (s.execute ctx).recorded ∧
        (t.execute ctx').ending = (s.execute ctx).ending) : InStep R s t := by
  intro ctx ctx' hR
  obtain ⟨hdata, hrecorded, hending⟩ := h ctx ctx' hR
  exact ⟨by rw [fails, fails, hrecorded, hending], hdata⟩

/-- **Lock step.** Two lists of stages in lock step fail at the same stage, and leave related
contexts. -/
theorem firstFailure_of_inStep {τ : Type*} {R : σ → τ → Prop} {stages' : List (PipelineStage τ ε β)}
    (h : List.Forall₂ (InStep R) stages stages') {ctx' : ProcessingContext τ ε}
    (hR : R ctx.data ctx'.data) :
    firstFailure stages ctx = firstFailure stages' ctx' ∧
      R (executed stages ctx).data (executed stages' ctx').data := by
  induction h generalizing ctx ctx' with
  | nil => exact ⟨rfl, hR⟩
  | cons hs _ ih =>
    obtain ⟨hfails, happlied⟩ := hs ctx ctx' hR
    rw [firstFailure, firstFailure, executed, executed, ← hfails]
    split_ifs
    · exact ⟨rfl, happlied⟩
    · obtain ⟨hrest, hafter⟩ := ih happlied
      exact ⟨by rw [hrest], hafter⟩

/-- **Fail-secure execution.** Every run over stages that raise only `Exception`s returns;
and in every run that returns:

* if stage `k` is the first to fail, only guaranteed stages are executed after it, every
  guaranteed stage is executed exactly once, in registration order, and the returned errors
  are the list as it stood when the failure of `k` was detected;
* if no stage fails, all stages are executed once, in order, and no error is returned. -/
theorem run_fail_secure (stages : List (PipelineStage σ ε β)) (data : σ) :
    (NoBaseException stages → ∃ ctx', (run stages ⟨data, []⟩).1 = .ok ctx') ∧
    ∀ ctx', (run stages ⟨data, []⟩).1 = .ok ctx' →
      (∀ k, firstFailure stages ⟨data, []⟩ = some k →
        (∃ rest, (run stages ⟨data, []⟩).2 = List.range (k + 1) ++ rest ∧
          ∀ i ∈ rest, guaranteedAt stages i) ∧
        (∀ i, guaranteedAt stages i → (run stages ⟨data, []⟩).2.count i = 1) ∧
        (run stages ⟨data, []⟩).2.Pairwise (· < ·) ∧
        ctx'.errors = (appliedAll (stages.take (k + 1)) ⟨data, []⟩).errors) ∧
      (firstFailure stages ⟨data, []⟩ = none →
        (run stages ⟨data, []⟩).2 = List.range stages.length ∧ ctx'.errors = []) := by
  refine ⟨run_returns _, fun ctx' hok => ⟨fun k hk => ?_, fun hk => ?_⟩⟩
  · obtain ⟨htrace, herr⟩ := run_of_firstFailure_some rfl hk hok
    have hsorted : (List.range (k + 1) ++ guaranteedAfter stages k).Pairwise (· < ·) := by
      refine List.pairwise_append.mpr
        ⟨List.pairwise_lt_range, pairwise_guaranteedAfter stages k, fun i hi j hj => ?_⟩
      have hkj := (mem_guaranteedAfter.mp hj).1
      have hik := List.mem_range.mp hi
      omega
    rw [htrace]
    refine ⟨⟨_, rfl, fun i hi => (mem_guaranteedAfter.mp hi).2⟩, fun i hi => ?_, hsorted, herr⟩
    refine List.count_eq_one_of_mem (hsorted.imp fun h => Nat.ne_of_lt h) ?_
    rcases Nat.lt_or_ge k i with hlt | hge
    · exact List.mem_append_right _ (mem_guaranteedAfter.mpr ⟨hlt, hi⟩)
    · exact List.mem_append_left _ (List.mem_range.mpr (by omega))
  · obtain ⟨hrun, hnil⟩ := run_of_firstFailure_none rfl hk
    rw [hrun] at hok ⊢
    obtain rfl : appliedAll stages ⟨data, []⟩ = ctx' := by simpa using hok
    exact ⟨rfl, hnil⟩

end AnonReq.Pipeline
