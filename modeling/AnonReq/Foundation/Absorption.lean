import Mathlib.Data.List.Basic

/-!
# Folds that absorb

Steps that commute, and of which a second one with the same value changes nothing: the result of a
fold depends on which values there are, not on their order or on how often each occurs.

* `Absorbing.foldl_of_mem`: a value that was used changes nothing any more.
* `Absorbing.foldl_eq_of_mem_iff`: two lists with the same values.
-/

namespace Absorption

variable {σ α : Type*} {step : σ → α → σ}

/-- Steps commute and can be repeated. -/
structure Absorbing (step : σ → α → σ) : Prop where
  comm : ∀ s a b, step (step s a) b = step (step s b) a
  idem : ∀ s a, step (step s a) a = step s a

namespace Absorbing

/-- A step behind a fold can as well be made before it. -/
theorem step_foldl (h : Absorbing step) (l : List α) (s : σ) (a : α) :
    step (l.foldl step s) a = l.foldl step (step s a) := by
  induction l generalizing s with
  | nil => rfl
  | cons b l ih => rw [List.foldl_cons, List.foldl_cons, ih, h.comm]

/-- **A value** that was used changes nothing any more. -/
theorem foldl_of_mem (h : Absorbing step) {l : List α} {a : α} (ha : a ∈ l) (s : σ) :
    step (l.foldl step s) a = l.foldl step s := by
  induction l generalizing s with
  | nil => exact absurd ha List.not_mem_nil
  | cons b l ih =>
    rw [List.foldl_cons]
    obtain rfl | ha := List.mem_cons.mp ha
    · rw [h.step_foldl, h.idem]
    · exact ih ha (step s b)

/-- Values that were used change nothing any more. -/
theorem foldl_of_subset (h : Absorbing step) {l l' : List α} (hsub : ∀ a ∈ l', a ∈ l) (s : σ) :
    l'.foldl step (l.foldl step s) = l.foldl step s := by
  induction l' with
  | nil => rfl
  | cons a l' ih =>
    rw [List.foldl_cons, h.foldl_of_mem (hsub a List.mem_cons_self)]
    exact ih fun b hb => hsub b (List.mem_cons_of_mem a hb)

theorem foldl_comm (h : Absorbing step) (l l' : List α) (s : σ) :
    l'.foldl step (l.foldl step s) = l.foldl step (l'.foldl step s) := by
  induction l' generalizing s with
  | nil => rfl
  | cons a l' ih => rw [List.foldl_cons, List.foldl_cons, h.step_foldl, ih]

/-- **The order** and the repetition of the values do not matter. -/
theorem foldl_eq_of_mem_iff (h : Absorbing step) {l l' : List α} (hmem : ∀ a, a ∈ l' ↔ a ∈ l)
    (s : σ) : l'.foldl step s = l.foldl step s :=
  calc l'.foldl step s
      = l.foldl step (l'.foldl step s) :=
        (h.foldl_of_subset (fun a ha => (hmem a).mpr ha) s).symm
    _ = l'.foldl step (l.foldl step s) := (h.foldl_comm l l' s).symm
    _ = l.foldl step s := h.foldl_of_subset (fun a ha => (hmem a).mp ha) s

end Absorbing

end Absorption
