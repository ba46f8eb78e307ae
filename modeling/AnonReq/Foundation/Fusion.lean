import Mathlib.Data.Int.Order.Basic
import Mathlib.Data.List.Pairwise
import Mathlib.Data.List.Basic

/-!
# Fusing overlapping intervals

Intervals arrive one after the other. An arrival fuses with everything accepted so far that it
overlaps; whatever it does not overlap stays as it is. Accepted things are of any type with an
extent, and are fused by any operation whose extent is the union.

* `gather_disjoint`: arrivals in the order of their starting points leave pairwise disjoint
  extents, and an arrival then overlaps at most one of them (`Settled.meets_unique`).
* `gather_covers_iff`: nothing is lost and nothing is added; the accepted extents cover exactly
  the positions that the arrivals cover.
* `Cluster` keeps the arrivals apart instead of fusing them: `map_fold_clusters` recovers any
  other way of fusing from it.
-/

namespace Fusion

/-- The positions from `lo` up to, and without, `hi`. -/
@[ext]
structure Extent where
  lo : ℤ
  hi : ℤ
deriving DecidableEq

namespace Extent

/-- Position `p` lies in the extent. -/
def Covers (e : Extent) (p : ℤ) : Prop := e.lo ≤ p ∧ p < e.hi

/-- Each extent begins before the other ends. -/
def Meets (a b : Extent) : Prop := a.lo < b.hi ∧ b.lo < a.hi

/-- The least extent around both. -/
def union (a b : Extent) : Extent := ⟨min a.lo b.lo, max a.hi b.hi⟩

instance (a b : Extent) : Decidable (a.Meets b) := inferInstanceAs (Decidable (_ ∧ _))

instance (e : Extent) (p : ℤ) : Decidable (e.Covers p) := inferInstanceAs (Decidable (_ ∧ _))

theorem Meets.symm {a b : Extent} (h : a.Meets b) : b.Meets a := ⟨h.2, h.1⟩

theorem Meets.of_covers {a b : Extent} {p : ℤ} (ha : a.Covers p) (hb : b.Covers p) :
    a.Meets b :=
  ⟨lt_of_le_of_lt ha.1 hb.2, lt_of_le_of_lt hb.1 ha.2⟩

@[simp] theorem union_lo (a b : Extent) : (a.union b).lo = min a.lo b.lo := rfl

@[simp] theorem union_hi (a b : Extent) : (a.union b).hi = max a.hi b.hi := rfl

theorem Covers.union_left {a : Extent} {p : ℤ} (h : a.Covers p) (b : Extent) :
    (a.union b).Covers p :=
  ⟨le_trans (min_le_left _ _) h.1, lt_of_lt_of_le h.2 (le_max_left _ _)⟩

theorem Covers.union_right {b : Extent} {p : ℤ} (h : b.Covers p) (a : Extent) :
    (a.union b).Covers p :=
  ⟨le_trans (min_le_right _ _) h.1, lt_of_lt_of_le h.2 (le_max_right _ _)⟩

/-- Overlapping extents leave no gap between them. -/
theorem covers_union_iff {a b : Extent} (h : a.Meets b) (hlo : b.lo ≤ a.lo) (p : ℤ) :
    (a.union b).Covers p ↔ a.Covers p ∨ b.Covers p := by
  refine ⟨fun hp => ?_, fun hp => hp.elim (·.union_left b) (·.union_right a)⟩
  obtain ⟨h₁, h₂⟩ := h
  simp only [Covers, union_lo, union_hi] at hp ⊢
  omega

end Extent

section Arrivals

variable {σ τ : Type*} (extent : σ → Extent) (fuse : σ → σ → σ)

/-- What is accepted after `x` has arrived: the part it does not overlap, and `x` fused with the
part it overlaps. -/
def arrive (acc : List σ) (x : σ) : List σ :=
  acc.filter (fun a => decide ¬ (extent x).Meets (extent a)) ++
    [(acc.filter fun a => decide ((extent x).Meets (extent a))).foldl fuse x]

/-- What is accepted after all of `xs` have arrived, in this order. -/
def gather (xs : List σ) : List σ := xs.foldl (arrive extent fuse) []

/-- Accepted things are pairwise disjoint, and none begins after `bound`. -/
structure Settled (bound : ℤ) (acc : List σ) : Prop where
  disjoint : acc.Pairwise fun a b => ¬ (extent a).Meets (extent b)
  lo_le : ∀ a ∈ acc, (extent a).lo ≤ bound

variable {extent fuse} {acc : List σ} {bound : ℤ} {x : σ}

theorem Settled.nil : Settled extent bound [] :=
  ⟨List.Pairwise.nil, fun _ h => absurd h List.not_mem_nil⟩

theorem Settled.mono (h : Settled extent bound acc) {bound' : ℤ} (hb : bound ≤ bound') :
    Settled extent bound' acc :=
  ⟨h.disjoint, fun a ha => le_trans (h.lo_le a ha) hb⟩

/-- Two disjoint accepted things that cover one position are the same. -/
theorem eq_of_covers (h : acc.Pairwise fun a b => ¬ (extent a).Meets (extent b)) {a b : σ}
    (ha : a ∈ acc) (hb : b ∈ acc) {p : ℤ} (hap : (extent a).Covers p)
    (hbp : (extent b).Covers p) : a = b := by
  by_contra hne
  have : Std.Symm fun a b : σ => ¬ (extent a).Meets (extent b) :=
    ⟨fun _ _ hn hm => hn hm.symm⟩
  exact h.forall ha hb hne (Extent.Meets.of_covers hap hbp)

/-- Two disjoint extents that begin no later than `x` are not both met by `x`. -/
theorem not_meets_of_disjoint {a b x : Extent} (hab : ¬ a.Meets b) (ha : a.lo ≤ x.lo)
    (hb : b.lo ≤ x.lo) (hx : x.Meets a) : ¬ x.Meets b := by
  simp only [Extent.Meets] at *
  omega

/-- **An arrival overlaps at most one accepted thing**: it overlaps none of them, or it splits
the accepted list around the only one. -/
theorem Settled.meets_unique (h : Settled extent (extent x).lo acc) :
    (∀ a ∈ acc, ¬ (extent x).Meets (extent a)) ∨
    ∃ pre a post, acc = pre ++ a :: post ∧ (extent x).Meets (extent a) ∧
      (∀ b ∈ pre, ¬ (extent x).Meets (extent b)) ∧
      ∀ b ∈ post, ¬ (extent x).Meets (extent b) := by
  by_cases hnone : ∀ a ∈ acc, ¬ (extent x).Meets (extent a)
  · exact Or.inl hnone
  · right
    push Not at hnone
    obtain ⟨a, ha, hxa⟩ := hnone
    obtain ⟨pre, post, rfl⟩ := List.append_of_mem ha
    obtain ⟨-, hpost, hcross⟩ := List.pairwise_append.mp h.disjoint
    have hlo : ∀ b ∈ pre ++ a :: post, (extent b).lo ≤ (extent x).lo := h.lo_le
    refine ⟨pre, a, post, rfl, hxa, fun b hb => ?_, fun b hb => ?_⟩
    · have hba : ¬ (extent b).Meets (extent a) := hcross b hb a List.mem_cons_self
      exact not_meets_of_disjoint (fun hm => hba hm.symm) (hlo a ha)
        (hlo b (List.mem_append_left _ hb)) hxa
    · have hab : ¬ (extent a).Meets (extent b) := List.rel_of_pairwise_cons hpost hb
      exact not_meets_of_disjoint hab (hlo a ha)
        (hlo b (List.mem_append_right _ (List.mem_cons_of_mem _ hb))) hxa

/-- An arrival that overlaps nothing is appended. -/
theorem arrive_of_none (h : ∀ a ∈ acc, ¬ (extent x).Meets (extent a)) :
    arrive extent fuse acc x = acc ++ [x] := by
  have hkeep : acc.filter (fun a => decide ¬ (extent x).Meets (extent a)) = acc :=
    List.filter_eq_self.mpr fun a ha => decide_eq_true (h a ha)
  have hmet : acc.filter (fun a => decide ((extent x).Meets (extent a))) = [] :=
    List.filter_eq_nil_iff.mpr fun a ha => by simpa using h a ha
  rw [arrive, hkeep, hmet, List.foldl_nil]

/-- An arrival that overlaps exactly one accepted thing takes it out and appends the fusion. -/
theorem arrive_of_one {pre post : List σ} {a : σ} (ha : (extent x).Meets (extent a))
    (hpre : ∀ b ∈ pre, ¬ (extent x).Meets (extent b))
    (hpost : ∀ b ∈ post, ¬ (extent x).Meets (extent b)) :
    arrive extent fuse (pre ++ a :: post) x = pre ++ post ++ [fuse x a] := by
  have hkeep : ∀ l : List σ, (∀ b ∈ l, ¬ (extent x).Meets (extent b)) →
      l.filter (fun a => decide ¬ (extent x).Meets (extent a)) = l :=
    fun l hl => List.filter_eq_self.mpr fun b hb => decide_eq_true (hl b hb)
  have hmet : ∀ l : List σ, (∀ b ∈ l, ¬ (extent x).Meets (extent b)) →
      l.filter (fun a => decide ((extent x).Meets (extent a))) = [] :=
    fun l hl => List.filter_eq_nil_iff.mpr fun b hb => by simpa using hl b hb
  rw [arrive, List.filter_append, List.filter_append, List.filter_cons_of_neg (by simpa using ha),
    List.filter_cons_of_pos (by simpa using ha), hkeep pre hpre, hkeep post hpost, hmet pre hpre,
    hmet post hpost, List.nil_append, List.foldl_cons, List.foldl_nil]

section Union

variable (hfuse : ∀ x a, extent (fuse x a) = (extent x).union (extent a))

include hfuse

/-- Extents that begin no later than the arrival stay pairwise disjoint. -/
theorem Settled.arrive (h : Settled extent (extent x).lo acc) :
    Settled extent (extent x).lo (arrive extent fuse acc x) := by
  obtain hnone | ⟨pre, a, post, rfl, hxa, hpre, hpost⟩ := h.meets_unique
  · rw [arrive_of_none hnone]
    refine ⟨List.pairwise_append.mpr ⟨h.disjoint, List.pairwise_singleton _ _, ?_⟩, ?_⟩
    · intro b hb y hy
      obtain rfl := List.mem_singleton.mp hy
      exact fun hm => hnone b hb hm.symm
    · intro b hb
      obtain hb | hb := List.mem_append.mp hb
      · exact h.lo_le b hb
      · rw [List.mem_singleton.mp hb]
  · rw [arrive_of_one hxa hpre hpost]
    have hrest : (pre ++ post).Sublist (pre ++ a :: post) :=
      (List.sublist_cons_self a post).append_left pre
    have hapart : ∀ b ∈ pre ++ post,
        ¬ (extent x).Meets (extent b) ∧ ¬ (extent a).Meets (extent b) := by
      obtain ⟨-, htail, hcross⟩ := List.pairwise_append.mp h.disjoint
      intro b hb
      obtain hb | hb := List.mem_append.mp hb
      · exact ⟨hpre b hb, fun hm => hcross b hb a List.mem_cons_self hm.symm⟩
      · exact ⟨hpost b hb, List.rel_of_pairwise_cons htail hb⟩
    have halo : (extent a).lo ≤ (extent x).lo :=
      h.lo_le a (List.mem_append_right _ List.mem_cons_self)
    refine ⟨List.pairwise_append.mpr ⟨h.disjoint.sublist hrest, List.pairwise_singleton _ _, ?_⟩,
      ?_⟩
    · intro b hb y hy
      obtain rfl := List.mem_singleton.mp hy
      obtain ⟨hxb, hab⟩ := hapart b hb
      have hblo : (extent b).lo ≤ (extent x).lo := h.lo_le b (hrest.mem hb)
      rw [hfuse]
      simp only [Extent.Meets, Extent.union_lo, Extent.union_hi] at hxa hxb hab ⊢
      omega
    · intro b hb
      obtain hb | hb := List.mem_append.mp hb
      · exact h.lo_le b (hrest.mem hb)
      · rw [List.mem_singleton.mp hb, hfuse, Extent.union_lo]
        exact min_le_left _ _

/-- An arrival adds the positions it covers, and no other. -/
theorem arrive_covers_iff (h : Settled extent (extent x).lo acc) (p : ℤ) :
    (∃ b ∈ arrive extent fuse acc x, (extent b).Covers p) ↔
      (∃ b ∈ acc, (extent b).Covers p) ∨ (extent x).Covers p := by
  obtain hnone | ⟨pre, a, post, rfl, hxa, hpre, hpost⟩ := h.meets_unique
  · rw [arrive_of_none hnone]
    simp [List.mem_append, or_and_right, exists_or]
  · have halo : (extent a).lo ≤ (extent x).lo :=
      h.lo_le a (List.mem_append_right _ List.mem_cons_self)
    have hunion : (extent (fuse x a)).Covers p ↔ (extent x).Covers p ∨ (extent a).Covers p := by
      rw [hfuse]
      exact Extent.covers_union_iff hxa halo p
    rw [arrive_of_one hxa hpre hpost]
    simp only [List.mem_append, List.mem_cons, List.not_mem_nil, or_false, or_and_right, exists_or,
      exists_eq_left, hunion]
    simp only [or_assoc, or_comm, or_left_comm]

private theorem pairwise_foldl {xs : List σ}
    (hsorted : xs.Pairwise fun a b => (extent a).lo ≤ (extent b).lo)
    (hacc : ∀ x ∈ xs, Settled extent (extent x).lo acc)
    (hdisjoint : acc.Pairwise fun a b => ¬ (extent a).Meets (extent b)) :
    (xs.foldl (Fusion.arrive extent fuse) acc).Pairwise
      fun a b => ¬ (extent a).Meets (extent b) := by
  induction xs generalizing acc with
  | nil => exact hdisjoint
  | cons x xs ih =>
    obtain ⟨hx, -⟩ := List.pairwise_cons.mp hsorted
    have hstep := (hacc x List.mem_cons_self).arrive hfuse
    exact ih hsorted.of_cons (fun y hy => hstep.mono (hx y hy)) hstep.disjoint

private theorem foldl_covers_iff {xs : List σ}
    (hsorted : xs.Pairwise fun a b => (extent a).lo ≤ (extent b).lo)
    (hacc : ∀ x ∈ xs, Settled extent (extent x).lo acc) (p : ℤ) :
    (∃ b ∈ xs.foldl (Fusion.arrive extent fuse) acc, (extent b).Covers p) ↔
      (∃ b ∈ acc, (extent b).Covers p) ∨ ∃ x ∈ xs, (extent x).Covers p := by
  induction xs generalizing acc with
  | nil => simp
  | cons x xs ih =>
    obtain ⟨hx, -⟩ := List.pairwise_cons.mp hsorted
    have hstep := (hacc x List.mem_cons_self).arrive hfuse
    rw [List.foldl_cons, ih hsorted.of_cons fun y hy => hstep.mono (hx y hy),
      arrive_covers_iff hfuse (hacc x List.mem_cons_self)]
    simp only [List.mem_cons, or_and_right, exists_or, exists_eq_left, or_assoc]

/-- **Arrivals in the order of their starting points leave pairwise disjoint extents.** -/
theorem gather_disjoint {xs : List σ}
    (hsorted : xs.Pairwise fun a b => (extent a).lo ≤ (extent b).lo) :
    (gather extent fuse xs).Pairwise fun a b => ¬ (extent a).Meets (extent b) :=
  pairwise_foldl hfuse hsorted (fun _ _ => Settled.nil) List.Pairwise.nil

/-- **Nothing is lost and nothing is added**: the accepted extents cover exactly the positions
that the arrivals cover. -/
theorem gather_covers_iff {xs : List σ}
    (hsorted : xs.Pairwise fun a b => (extent a).lo ≤ (extent b).lo) (p : ℤ) :
    (∃ b ∈ gather extent fuse xs, (extent b).Covers p) ↔ ∃ x ∈ xs, (extent x).Covers p := by
  rw [gather, foldl_covers_iff hfuse hsorted fun _ _ => Settled.nil]
  simp

end Union

/-! ### Ways of fusing -/

section Map

variable {extent' : τ → Extent} {fuse' : τ → τ → τ} {φ : σ → τ}
  (hextent : ∀ a, extent' (φ a) = extent a) (hφ : ∀ x a, φ (fuse x a) = fuse' (φ x) (φ a))

include hextent hφ

theorem map_arrive (acc : List σ) (x : σ) :
    (arrive extent fuse acc x).map φ = arrive extent' fuse' (acc.map φ) (φ x) := by
  have hfold : ∀ (l : List σ) (y : σ), φ (l.foldl fuse y) = (l.map φ).foldl fuse' (φ y) := by
    intro l
    induction l with
    | nil => exact fun _ => rfl
    | cons a l ih =>
      intro y
      rw [List.foldl_cons, ih, hφ, List.map_cons, List.foldl_cons]
  simp only [arrive, List.map_append, List.map_cons, List.map_nil, hfold, List.filter_map,
    Function.comp_def, hextent]

/-- A map that respects extents and fusion carries what is gathered to what is gathered. -/
theorem map_gather (xs : List σ) :
    (gather extent fuse xs).map φ = gather extent' fuse' (xs.map φ) := by
  have hfold : ∀ (xs acc : List σ), (xs.foldl (arrive extent fuse) acc).map φ =
      (xs.map φ).foldl (arrive extent' fuse') (acc.map φ) := by
    intro xs
    induction xs with
    | nil => exact fun _ => rfl
    | cons x xs ih =>
      intro acc
      rw [List.foldl_cons, ih, map_arrive hextent hφ, List.map_cons, List.foldl_cons]
  exact hfold xs []

end Map

end Arrivals

/-! ### Clusters -/

/-- Arrivals fused with one another, still apart. -/
inductive Cluster (α : Type*) where
  | single (x : α)
  | fuse (latest earlier : Cluster α)

namespace Cluster

variable {α σ : Type*} (extent : α → Extent)

/-- The arrivals of a cluster. -/
def members : Cluster α → List α
  | single x => [x]
  | fuse latest earlier => latest.members ++ earlier.members

/-- The least extent around all arrivals of a cluster. -/
def hull : Cluster α → Extent
  | single x => extent x
  | fuse latest earlier => (latest.hull).union earlier.hull

/-- A cluster in which the arrivals are fused by `f`. -/
def fold (f : σ → σ → σ) (single' : α → σ) : Cluster α → σ
  | single x => single' x
  | fuse latest earlier => f (latest.fold f single') (earlier.fold f single')

/-- The clusters that are left after all of `xs` have arrived. -/
def clusters (xs : List α) : List (Cluster α) := gather (hull extent) fuse (xs.map single)

/-- The hull covers what a member covers. -/
theorem hull_covers {c : Cluster α} {x : α} (hx : x ∈ c.members) {p : ℤ}
    (hp : (extent x).Covers p) : (c.hull extent).Covers p := by
  induction c with
  | single y =>
    obtain rfl := List.mem_singleton.mp hx
    exact hp
  | fuse latest earlier ihl ihe =>
    obtain hx | hx := List.mem_append.mp hx
    · exact (ihl hx).union_left _
    · exact (ihe hx).union_right _

theorem mem_members_foldl_fuse {l : List (Cluster α)} {c : Cluster α} {x : α} :
    x ∈ (l.foldl fuse c).members ↔ x ∈ c.members ∨ ∃ b ∈ l, x ∈ b.members := by
  induction l generalizing c with
  | nil => simp
  | cons b l ih =>
    rw [List.foldl_cons, ih]
    simp [members, or_assoc]

theorem mem_members_arrive {acc : List (Cluster α)} {c : Cluster α} {x : α} :
    (∃ b ∈ arrive (hull extent) fuse acc c, x ∈ b.members) ↔
      (∃ b ∈ acc, x ∈ b.members) ∨ x ∈ c.members := by
  simp only [arrive, List.mem_append, List.mem_filter, List.mem_singleton, decide_eq_true_eq,
    or_and_right, exists_or, exists_eq_left, mem_members_foldl_fuse]
  constructor
  · rintro (⟨b, ⟨hb, -⟩, hx⟩ | hx | ⟨b, ⟨hb, -⟩, hx⟩)
    · exact Or.inl ⟨b, hb, hx⟩
    · exact Or.inr hx
    · exact Or.inl ⟨b, hb, hx⟩
  · rintro (⟨b, hb, hx⟩ | hx)
    · by_cases hm : (c.hull extent).Meets (b.hull extent)
      · exact Or.inr (Or.inr ⟨b, ⟨hb, hm⟩, hx⟩)
      · exact Or.inl ⟨b, ⟨hb, hm⟩, hx⟩
    · exact Or.inr (Or.inl hx)

/-- Every arrival is in a cluster, and nothing else is. -/
theorem mem_members_clusters {xs : List α} {x : α} :
    (∃ c ∈ clusters extent xs, x ∈ c.members) ↔ x ∈ xs := by
  have hfold : ∀ (xs : List α) (acc : List (Cluster α)),
      (∃ c ∈ (xs.map single).foldl (arrive (hull extent) fuse) acc, x ∈ c.members) ↔
        (∃ c ∈ acc, x ∈ c.members) ∨ x ∈ xs := by
    intro xs
    induction xs with
    | nil => simp
    | cons y xs ih =>
      intro acc
      rw [List.map_cons, List.foldl_cons, ih, mem_members_arrive]
      simp [members, or_assoc]
  simpa [clusters, gather] using hfold xs []

/-- The clusters of sorted arrivals are pairwise disjoint. -/
theorem clusters_disjoint {xs : List α}
    (hsorted : xs.Pairwise fun a b => (extent a).lo ≤ (extent b).lo) :
    (clusters extent xs).Pairwise fun a b => ¬ (a.hull extent).Meets (b.hull extent) :=
  gather_disjoint (fun _ _ => rfl) (List.pairwise_map.mpr hsorted)

/-- The clusters of sorted arrivals cover what the arrivals cover. -/
theorem clusters_cover_iff {xs : List α}
    (hsorted : xs.Pairwise fun a b => (extent a).lo ≤ (extent b).lo) (p : ℤ) :
    (∃ c ∈ clusters extent xs, (c.hull extent).Covers p) ↔ ∃ x ∈ xs, (extent x).Covers p := by
  have hsingles : (xs.map single).Pairwise fun a b => (hull extent a).lo ≤ (hull extent b).lo :=
    List.pairwise_map.mpr hsorted
  rw [clusters, gather_covers_iff (fun _ _ => rfl) hsingles]
  simp [hull]

section Fold

variable {extent} {extent' : σ → Extent} {f : σ → σ → σ} {single' : α → σ}
  (hsingle : ∀ x, extent' (single' x) = extent x)
  (hfuse : ∀ x a, extent' (f x a) = (extent' x).union (extent' a))

include hsingle hfuse

/-- A fold of a cluster has the hull as its extent. -/
theorem extent_fold (c : Cluster α) : extent' (c.fold f single') = c.hull extent := by
  induction c with
  | single x => exact hsingle x
  | fuse latest earlier ihl ihe => simp only [fold, hull, hfuse, ihl, ihe]

/-- **Every other way of fusing is a fold over the clusters.** -/
theorem map_fold_clusters (xs : List α) :
    (clusters extent xs).map (fold f single') = gather extent' f (xs.map single') := by
  rw [clusters, map_gather (extent_fold hsingle hfuse) fun _ _ => rfl, List.map_map]
  rfl

end Fold

end Cluster

end Fusion
