import Mathlib.Data.List.Sort
import AnonReq.Foundation.Selection

/-!
# Keeping the first of overlapping things

Things with an extent arrive in the order of their starting points, of those with one start the
longest first. One of them is kept if it begins no earlier than the one kept last has ended.

* `mem_sweepFrom_or`: what is not kept begins before the bound, or in something that is kept and
  comes before it. So a thing lies in a kept one if whatever begins before it and reaches into it
  goes on to its end (`Clear`, `exists_mem_sweepFrom_of_clear`).
* `pairwise_sweepFrom`: what is kept stands apart.
* `Mosaic.map_sweepFrom`: what is kept if, of things with one start, the shortest comes first.
* `eq_or_of_mem_sweepFrom`, `pairwise_insertionSort`: of things with one extent, the first one is
  kept, also if they have been sorted.
-/

namespace Fusion

/-- An extent that begins before this one and reaches into it goes on to its end. -/
def Clear (extents : Set Extent) (e : Extent) : Prop :=
  ∀ g ∈ extents, g.lo < e.lo → e.lo < g.hi → e.hi ≤ g.hi

variable {σ : Type*} (extent : σ → Extent)

/-- What is kept of things from a bound on. -/
def sweepFrom (bound : ℤ) : List σ → List σ
  | [] => []
  | x :: xs =>
    if (extent x).lo < bound then sweepFrom bound xs else x :: sweepFrom (extent x).hi xs

variable {extent} {bound : ℤ} {x : σ} {xs : List σ}

theorem sweepFrom_cons_of_lt (h : (extent x).lo < bound) :
    sweepFrom extent bound (x :: xs) = sweepFrom extent bound xs := by
  rw [sweepFrom, if_pos h]

theorem sweepFrom_cons_of_le (h : bound ≤ (extent x).lo) :
    sweepFrom extent bound (x :: xs) = x :: sweepFrom extent (extent x).hi xs := by
  rw [sweepFrom, if_neg (not_lt.mpr h)]

theorem mem_of_mem_sweepFrom {y : σ} (h : y ∈ sweepFrom extent bound xs) : y ∈ xs := by
  induction xs generalizing bound with
  | nil => exact absurd h List.not_mem_nil
  | cons x xs ih =>
    rw [sweepFrom] at h
    split_ifs at h
    · exact List.mem_cons_of_mem x (ih h)
    · obtain rfl | h := List.mem_cons.mp h
      · exact List.mem_cons_self
      · exact List.mem_cons_of_mem x (ih h)

/-- What is kept begins at the bound or after it. -/
theorem le_of_mem_sweepFrom (hstart : xs.Pairwise fun a b => (extent a).lo ≤ (extent b).lo) {y : σ}
    (h : y ∈ sweepFrom extent bound xs) : bound ≤ (extent y).lo := by
  induction xs generalizing bound with
  | nil => exact absurd h List.not_mem_nil
  | cons x xs ih =>
    obtain ⟨hbefore, hstart⟩ := List.pairwise_cons.mp hstart
    rw [sweepFrom] at h
    split_ifs at h with hlt
    · exact ih hstart h
    · obtain rfl | h := List.mem_cons.mp h
      · exact not_lt.mp hlt
      · exact le_trans (not_lt.mp hlt) (hbefore y (mem_of_mem_sweepFrom h))

/-- What is kept stands apart. -/
theorem pairwise_sweepFrom (hstart : xs.Pairwise fun a b => (extent a).lo ≤ (extent b).lo) :
    (sweepFrom extent bound xs).Pairwise fun a b => (extent a).hi ≤ (extent b).lo := by
  induction xs generalizing bound with
  | nil => exact List.Pairwise.nil
  | cons x xs ih =>
    obtain ⟨-, hstart⟩ := List.pairwise_cons.mp hstart
    rw [sweepFrom]
    split_ifs
    · exact ih hstart
    · exact List.pairwise_cons.mpr ⟨fun y hy => le_of_mem_sweepFrom hstart hy, ih hstart⟩

theorem eq_of_mem_sweepFrom (hstart : xs.Pairwise fun a b => (extent a).lo ≤ (extent b).lo) {y : σ}
    (hx : x ∈ sweepFrom extent bound xs) (hy : y ∈ sweepFrom extent bound xs)
    (hmeets : (extent x).Meets (extent y)) : x = y := by
  by_contra hne
  have hapart : (sweepFrom extent bound xs).Pairwise fun a b => ¬ (extent a).Meets (extent b) :=
    (pairwise_sweepFrom hstart).imp fun hle => fun ⟨_, hlt⟩ => not_lt.mpr hle hlt
  have : Std.Symm fun a b => ¬ (extent a).Meets (extent b) := ⟨fun a b h hm => h hm.symm⟩
  exact hapart.forall hx hy hne hmeets

/-- What is not kept begins before the bound, or in something that is kept and comes before it. -/
theorem mem_sweepFrom_or {R : σ → σ → Prop} (hsorted : xs.Pairwise R) (hx : x ∈ xs) :
    x ∈ sweepFrom extent bound xs ∨ (extent x).lo < bound ∨
      ∃ y ∈ sweepFrom extent bound xs, R y x ∧ (extent x).lo < (extent y).hi := by
  induction xs generalizing bound with
  | nil => exact absurd hx List.not_mem_nil
  | cons z xs ih =>
    obtain ⟨hz, hsorted⟩ := List.pairwise_cons.mp hsorted
    rw [sweepFrom]
    obtain rfl | hx := List.mem_cons.mp hx
    · split_ifs with hlt
      · exact Or.inr (Or.inl hlt)
      · exact Or.inl List.mem_cons_self
    · split_ifs with hlt
      · exact ih hsorted hx
      · have hrest : x ∈ sweepFrom extent (extent z).hi xs ∨ _ := ih hsorted hx
        obtain hmem | hblocked | ⟨y, hy, hfirst, hin⟩ := hrest
        · exact Or.inl (List.mem_cons_of_mem z hmem)
        · exact Or.inr (Or.inr ⟨z, List.mem_cons_self, hz x hx, hblocked⟩)
        · exact Or.inr (Or.inr ⟨y, List.mem_cons_of_mem z hy, hfirst, hin⟩)

/-- **A clear extent lies in one that is kept.** -/
theorem exists_mem_sweepFrom_of_clear
    (hsorted : xs.Pairwise fun a b => (extent a).Before (extent b)) (hx : x ∈ xs)
    (hbound : bound ≤ (extent x).lo) (hclear : Clear {e | ∃ y ∈ xs, extent y = e} (extent x)) :
    ∃ y ∈ sweepFrom extent bound xs,
      (extent y).lo ≤ (extent x).lo ∧ (extent x).hi ≤ (extent y).hi := by
  obtain hkept | hblocked | ⟨y, hy, hfirst, hin⟩ := mem_sweepFrom_or hsorted hx
  · exact ⟨x, hkept, le_rfl, le_rfl⟩
  · exact absurd hblocked (not_lt.mpr hbound)
  · refine ⟨y, hy, hfirst.lo_le, ?_⟩
    obtain hlt | hsame := lt_or_eq_of_le hfirst.lo_le
    · exact hclear (extent y) ⟨y, mem_of_mem_sweepFrom hy, rfl⟩ hlt hin
    · exact hfirst.hi_le hsame.symm

/-- **Of things with one extent, the first one is kept**: it stands in a relation to the others in
which, of two things with one extent, the earlier one stands to the later one. -/
theorem eq_or_of_mem_sweepFrom {R : σ → σ → Prop}
    (hstart : xs.Pairwise fun a b => (extent a).lo ≤ (extent b).lo)
    (horder : xs.Pairwise fun a b => extent a = extent b → R a b) {y : σ}
    (hx : x ∈ sweepFrom extent bound xs) (hpos : (extent x).lo < (extent x).hi) (hy : y ∈ xs)
    (hextent : extent x = extent y) : x = y ∨ R x y := by
  induction xs generalizing bound with
  | nil => exact absurd hy List.not_mem_nil
  | cons z xs ih =>
    obtain ⟨-, hstart'⟩ := List.pairwise_cons.mp hstart
    obtain ⟨hz, horder⟩ := List.pairwise_cons.mp horder
    have hbound := le_of_mem_sweepFrom hstart hx
    rw [sweepFrom] at hx
    split_ifs at hx with hlt
    · obtain rfl | hy := List.mem_cons.mp hy
      · exact absurd hlt (not_lt.mpr (hextent ▸ hbound))
      · exact ih hstart' horder hx hy
    · obtain rfl | hx := List.mem_cons.mp hx
      · exact (List.mem_cons.mp hy).imp Eq.symm fun hy => hz y hy hextent
      · have hafter := le_of_mem_sweepFrom hstart' hx
        obtain rfl | hy := List.mem_cons.mp hy
        · exact absurd hpos (not_lt.mpr (hextent ▸ hafter))
        · exact ih hstart' horder hx hy

/-- **Sorting by insertion is stable**: things that the order does not tell apart stay as they
stand to each other. -/
theorem pairwise_insertionSort {before R : σ → σ → Prop} [DecidableRel before]
    (h : xs.Pairwise R) : (xs.insertionSort before).Pairwise fun a b => before b a → R a b := by
  have hinsert : ∀ (x : σ) (ys : List σ), (∀ y ∈ ys, R x y) →
      ys.Pairwise (fun a b => before b a → R a b) →
      (ys.orderedInsert before x).Pairwise fun a b => before b a → R a b := by
    intro x ys hx hys
    induction ys with
    | nil => exact List.pairwise_singleton _ _
    | cons y ys ih =>
      obtain ⟨hy, hys'⟩ := List.pairwise_cons.mp hys
      rw [List.orderedInsert_cons]
      split_ifs with hbefore
      · exact List.pairwise_cons.mpr ⟨fun z hz _ => hx z hz, hys⟩
      · refine List.pairwise_cons.mpr ⟨fun z hz => ?_, ih (fun z hz => hx z ?_) hys'⟩
        · obtain rfl | hz := (List.mem_orderedInsert before).mp hz
          · exact fun h => absurd h hbefore
          · exact hy z hz
        · exact List.mem_cons_of_mem y hz
  induction xs with
  | nil => exact List.Pairwise.nil
  | cons x xs ih =>
    obtain ⟨hx, hxs⟩ := List.pairwise_cons.mp h
    exact hinsert x _ (fun y hy => hx y ((List.mem_insertionSort before).mp hy)) (ih hxs)

/-! ### The shortest first -/

/-- By the start; of extents with one start the shortest first. -/
def Extent.ShortFirst (a b : Extent) : Prop := a.lo < b.lo ∨ a.lo = b.lo ∧ a.hi ≤ b.hi

instance (a b : Extent) : Decidable (a.ShortFirst b) := inferInstanceAs (Decidable (_ ∨ _))

/-- Extents that stand apart, each one of some things, where each of the things lies in one of them
or before the bound, and none that begins where one of them does is shorter. -/
structure Mosaic (extent : σ → Extent) (bound : ℤ) (xs : List σ) (tiles : List Extent) : Prop where
  apart : tiles.Pairwise fun s t => s.hi ≤ t.lo
  bound_le : ∀ t ∈ tiles, bound ≤ t.lo
  mem : ∀ t ∈ tiles, ∃ x ∈ xs, extent x = t
  inside : ∀ x ∈ xs, (extent x).hi ≤ bound ∨
    ∃ t ∈ tiles, t.lo ≤ (extent x).lo ∧ (extent x).hi ≤ t.hi
  shortest : ∀ x ∈ xs, ∀ t ∈ tiles, (extent x).lo = t.lo → t.hi ≤ (extent x).hi

/-- **The shortest first.** What is kept are the tiles. -/
theorem Mosaic.map_sweepFrom {tiles : List Extent} (h : Mosaic extent bound xs tiles)
    (hsorted : xs.Pairwise fun a b => (extent a).ShortFirst (extent b))
    (hpos : ∀ x ∈ xs, (extent x).lo < (extent x).hi) :
    (sweepFrom extent bound xs).map extent = tiles := by
  induction xs generalizing bound tiles with
  | nil =>
    refine (List.eq_nil_iff_forall_not_mem.mpr fun t ht => ?_).symm
    obtain ⟨x, hx, -⟩ := h.mem t ht
    exact List.not_mem_nil hx
  | cons x xs ih =>
    obtain ⟨hfirst, hsorted⟩ := List.pairwise_cons.mp hsorted
    obtain ⟨hx, hpos⟩ := List.forall_mem_cons.mp hpos
    obtain ⟨hxinside, hinside⟩ := List.forall_mem_cons.mp h.inside
    obtain ⟨-, hshortest⟩ := List.forall_mem_cons.mp h.shortest
    obtain hlt | hle := lt_or_ge (extent x).lo bound
    · -- what begins before the bound is no tile
      rw [sweepFrom_cons_of_lt hlt]
      refine ih ⟨h.apart, h.bound_le, fun t ht => ?_, hinside, hshortest⟩ hsorted hpos
      obtain ⟨y, hy, rfl⟩ := h.mem t ht
      obtain rfl | hy := List.mem_cons.mp hy
      · exact absurd hlt (not_lt.mpr (h.bound_le _ ht))
      · exact ⟨y, hy, rfl⟩
    · obtain hbefore | ⟨t, ht, hlo, hhi⟩ := hxinside
      · exact absurd hx (not_lt.mpr (hbefore.trans hle))
      · cases tiles with
        | nil => exact absurd ht List.not_mem_nil
        | cons s tiles =>
          obtain ⟨hs, hapart⟩ := List.pairwise_cons.mp h.apart
          obtain ⟨y, hy, hys⟩ := h.mem s List.mem_cons_self
          have hspos : s.lo < s.hi := by
            rw [← hys]
            obtain rfl | hy := List.mem_cons.mp hy
            · exact hx
            · exact hpos y hy
          have hxs : (extent x).lo ≤ s.lo := by
            rw [← hys]
            obtain rfl | hy := List.mem_cons.mp hy
            · exact le_rfl
            · exact (hfirst y hy).elim le_of_lt fun h => h.1.le
          -- the first thing lies in the first tile, and is no shorter
          obtain rfl | ht := List.mem_cons.mp ht
          · have hlong := h.shortest x List.mem_cons_self t List.mem_cons_self
              (le_antisymm hxs hlo)
            obtain rfl : extent x = t :=
              Extent.ext (le_antisymm hxs hlo) (le_antisymm hhi hlong)
            rw [sweepFrom_cons_of_le hle, List.map_cons]
            refine congrArg (extent x :: ·) (ih ⟨hapart, hs, fun t htail => ?_, fun z hz => ?_,
              fun z hz t ht => hshortest z hz t (List.mem_cons_of_mem _ ht)⟩ hsorted hpos)
            · obtain ⟨z, hz, rfl⟩ := h.mem t (List.mem_cons_of_mem _ htail)
              obtain rfl | hz := List.mem_cons.mp hz
              · exact absurd (hs _ htail) (not_le.mpr hx)
              · exact ⟨z, hz, rfl⟩
            · obtain hbefore | ⟨t, ht, hin⟩ := hinside z hz
              · exact Or.inl (hbefore.trans (hle.trans hx.le))
              · obtain rfl | ht := List.mem_cons.mp ht
                · exact Or.inl hin.2
                · exact Or.inr ⟨t, ht, hin⟩
          · exact absurd (hs t ht) (not_le.mpr (hlo.trans_lt (hxs.trans_lt hspos)))

end Fusion
