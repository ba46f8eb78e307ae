import Mathlib.Data.List.Basic
import Mathlib.Order.MinMax

/-!
# Merging intervals

Half-open intervals, given by their bounds and sorted by the first one, are merged where one begins
no later than those before it end.

* `exists_mem_merge`: one of the merged intervals has a property if and only if one of the intervals
  has it, for properties that an interval has from its parts.
* `additive_covers`: such as to cover a point, also if a monotone function maps the bounds to
  another scale. `additive_meets`: such as to meet an interval.
* `merge_apart`: the merged intervals stand apart, in order.
* `forall_mem_merge`: they have what the intervals have and keep when two are joined.
-/

namespace Intervals

variable {α β : Type*} [LinearOrder α] [LinearOrder β]

/-- The intervals merged from a last one on. -/
def mergeFrom (last : α × α) : List (α × α) → List (α × α)
  | [] => [last]
  | r :: rest =>
    if last.2 < r.1 then last :: mergeFrom r rest else mergeFrom (last.1, max last.2 r.2) rest

/-- The intervals, merged from left to right. -/
def merge : List (α × α) → List (α × α)
  | [] => []
  | first :: rest => mergeFrom first rest

/-- A property that an interval made of two that meet has if and only if one of them has it. -/
def Additive (P : α × α → Prop) : Prop :=
  ∀ last r : α × α, last.1 ≤ r.1 → r.1 ≤ last.2 → (P (last.1, max last.2 r.2) ↔ P last ∨ P r)

variable {ranges : List (α × α)}

theorem exists_mem_mergeFrom {P : α × α → Prop} (hP : Additive P) {last : α × α}
    (hsorted : (last :: ranges).Pairwise fun r r' => r.1 ≤ r'.1) :
    (∃ r ∈ mergeFrom last ranges, P r) ↔ ∃ r ∈ last :: ranges, P r := by
  induction ranges generalizing last with
  | nil => exact Iff.rfl
  | cons r rest ih =>
    obtain ⟨hlast, hrest⟩ := List.pairwise_cons.mp hsorted
    rw [mergeFrom]
    split_ifs with hgap
    · rw [List.exists_mem_cons_iff, List.exists_mem_cons_iff, ih hrest]
    · -- the interval that is extended begins where it began
      have hmerged : ((last.1, max last.2 r.2) :: rest).Pairwise fun r r' => r.1 ≤ r'.1 :=
        List.pairwise_cons.mpr
          ⟨fun r' hr' => hlast r' (List.mem_cons_of_mem r hr'), (List.pairwise_cons.mp hrest).2⟩
      rw [ih hmerged, List.exists_mem_cons_iff, List.exists_mem_cons_iff,
        List.exists_mem_cons_iff, hP last r (hlast r List.mem_cons_self) (not_lt.mp hgap),
        or_assoc]

/-- **Merging.** One of the merged intervals has an additive property if and only if one of the
intervals has it. -/
theorem exists_mem_merge {P : α × α → Prop} (hP : Additive P)
    (hsorted : ranges.Pairwise fun r r' => r.1 ≤ r'.1) :
    (∃ r ∈ merge ranges, P r) ↔ ∃ r ∈ ranges, P r :=
  match ranges with
  | [] => Iff.rfl
  | _ :: _ => exists_mem_mergeFrom hP hsorted

/-- A point lies in an interval whose bounds are mapped to its scale. -/
def Covers (f : α → β) (x : β) (r : α × α) : Prop := f r.1 ≤ x ∧ x < f r.2

instance (f : α → β) (x : β) (r : α × α) : Decidable (Covers f x r) :=
  inferInstanceAs (Decidable (_ ∧ _))

theorem additive_covers {f : α → β} (hf : Monotone f) (x : β) : Additive (Covers f x) := by
  intro last r hle hmeet
  rw [Covers, hf.map_max, lt_max_iff]
  constructor
  · rintro ⟨hlo, hlast | hr⟩
    · exact Or.inl ⟨hlo, hlast⟩
    · obtain hlast | hlast := lt_or_ge x (f last.2)
      · exact Or.inl ⟨hlo, hlast⟩
      · exact Or.inr ⟨(hf hmeet).trans hlast, hr⟩
  · rintro (⟨hlo, hhi⟩ | ⟨hlo, hhi⟩)
    · exact ⟨hlo, Or.inl hhi⟩
    · exact ⟨(hf hle).trans hlo, Or.inr hhi⟩

/-- An interval meets the one between two bounds. -/
def Meets (lo hi : α) (r : α × α) : Prop := r.1 < hi ∧ lo < r.2

theorem additive_meets {lo hi : α} (h : lo < hi) : Additive (Meets lo hi) := by
  intro last r hle hmeet
  rw [Meets, lt_max_iff]
  constructor
  · rintro ⟨hhi, hlast | hr⟩
    · exact Or.inl ⟨hhi, hlast⟩
    · obtain hlast | hlast := lt_or_ge lo last.2
      · exact Or.inl ⟨hhi, hlast⟩
      · exact Or.inr ⟨(hmeet.trans hlast).trans_lt h, hr⟩
  · rintro (⟨hhi, hlo⟩ | ⟨hhi, hlo⟩)
    · exact ⟨hhi, Or.inl hlo⟩
    · exact ⟨hle.trans_lt hhi, Or.inr hlo⟩

theorem forall_mem_mergeFrom {P : α × α → Prop}
    (hP : ∀ last r : α × α, P last → P r → P (last.1, max last.2 r.2)) {last : α × α}
    (h : ∀ r ∈ last :: ranges, P r) : ∀ r ∈ mergeFrom last ranges, P r := by
  induction ranges generalizing last with
  | nil => exact h
  | cons r rest ih =>
    obtain ⟨hlast, hrest⟩ := List.forall_mem_cons.mp h
    rw [mergeFrom]
    split_ifs with hgap
    · exact List.forall_mem_cons.mpr ⟨hlast, ih hrest⟩
    · obtain ⟨hr, hrest⟩ := List.forall_mem_cons.mp hrest
      exact ih (List.forall_mem_cons.mpr ⟨hP last r hlast hr, hrest⟩)

/-- What the intervals have, and keep when two of them are joined, the merged intervals have. -/
theorem forall_mem_merge {P : α × α → Prop}
    (hP : ∀ last r : α × α, P last → P r → P (last.1, max last.2 r.2)) (h : ∀ r ∈ ranges, P r) :
    ∀ r ∈ merge ranges, P r :=
  match ranges with
  | [] => h
  | _ :: _ => forall_mem_mergeFrom hP h

theorem mergeFrom_apart {last : α × α}
    (hsorted : (last :: ranges).Pairwise fun r r' => r.1 ≤ r'.1) :
    (∀ r ∈ mergeFrom last ranges, last.1 ≤ r.1) ∧
      (mergeFrom last ranges).Pairwise fun r r' => r.2 < r'.1 := by
  induction ranges generalizing last with
  | nil => exact ⟨fun r hr => (List.mem_singleton.mp hr) ▸ le_refl _, List.pairwise_singleton _ _⟩
  | cons r rest ih =>
    obtain ⟨hlast, hrest⟩ := List.pairwise_cons.mp hsorted
    have hle := hlast r List.mem_cons_self
    rw [mergeFrom]
    split_ifs with hgap
    · obtain ⟨hstarts, hapart⟩ := ih hrest
      refine ⟨List.forall_mem_cons.mpr ⟨le_refl _, fun r' hr' => hle.trans (hstarts r' hr')⟩, ?_⟩
      exact List.pairwise_cons.mpr ⟨fun r' hr' => hgap.trans_le (hstarts r' hr'), hapart⟩
    · exact ih (List.pairwise_cons.mpr
        ⟨fun r' hr' => hlast r' (List.mem_cons_of_mem r hr'), (List.pairwise_cons.mp hrest).2⟩)

/-- The merged intervals stand apart, in order. -/
theorem merge_apart (hsorted : ranges.Pairwise fun r r' => r.1 ≤ r'.1) :
    (merge ranges).Pairwise fun r r' => r.2 < r'.1 :=
  match ranges with
  | [] => List.Pairwise.nil
  | _ :: _ => (mergeFrom_apart hsorted).2

end Intervals
