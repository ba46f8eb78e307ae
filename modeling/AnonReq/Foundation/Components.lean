import AnonReq.Foundation.Fusion

/-!
# Connected components of overlapping intervals

Arrivals that cover something are linked if a chain of overlapping arrivals leads from one to the
other. The clusters of arrivals that come in the order of their starting points are the connected
components of this relation, and the members of a cluster are the arrivals within its hull.

* `Formed.linked`: the arrivals of one cluster are linked with one another.
* `mem_members_iff_within`: an arrival is in the cluster within whose hull it lies.
* `within_iff_linked`: the arrivals within the hull of a cluster are those linked with one of them.
-/

namespace Fusion

/-- All of `a` lies in `b`. -/
def Extent.Within (a b : Extent) : Prop := b.lo ≤ a.lo ∧ a.hi ≤ b.hi

variable {α : Type*} (extent : α → Extent)

/-- A chain of arrivals, each of which overlaps the next, leads from one to the other. -/
def Linked (xs : List α) : α → α → Prop :=
  Relation.ReflTransGen fun a b => a ∈ xs ∧ b ∈ xs ∧ (extent a).Meets (extent b)

variable {extent} {xs ys : List α}

theorem Linked.symm {a b : α} (h : Linked extent xs a b) : Linked extent xs b a := by
  induction h with
  | refl => exact Relation.ReflTransGen.refl
  | tail _ hstep ih => exact Relation.ReflTransGen.head ⟨hstep.2.1, hstep.1, hstep.2.2.symm⟩ ih

theorem Linked.mono (hsub : ∀ a ∈ xs, a ∈ ys) {a b : α} (h : Linked extent xs a b) :
    Linked extent ys a b := by
  induction h with
  | refl => exact Relation.ReflTransGen.refl
  | tail _ hstep ih => exact ih.tail ⟨hsub _ hstep.1, hsub _ hstep.2.1, hstep.2.2⟩

namespace Cluster

/-! ### How clusters are formed -/

variable (extent) in
/-- Every fusion in the cluster is one of overlapping parts, the earlier of which begins first. -/
inductive Formed : Cluster α → Prop where
  | single (x : α) : Formed (single x)
  | fuse {latest earlier : Cluster α} (hlatest : Formed latest) (hearlier : Formed earlier)
      (hmeets : (latest.hull extent).Meets (earlier.hull extent))
      (hlo : (earlier.hull extent).lo ≤ (latest.hull extent).lo) : Formed (fuse latest earlier)

/-- An arrival keeps clusters formed. -/
theorem Formed.arrive {acc : List (Cluster α)} {x : Cluster α}
    (hsettled : Settled (hull extent) (x.hull extent).lo acc) (hx : Formed extent x)
    (hacc : ∀ c ∈ acc, Formed extent c) :
    ∀ c ∈ arrive (hull extent) Cluster.fuse acc x, Formed extent c := by
  intro c hc
  obtain hnone | ⟨pre, a, post, rfl, hxa, hpre, hpost⟩ := hsettled.meets_unique
  · rw [arrive_of_none hnone] at hc
    obtain hc | hc := List.mem_append.mp hc
    · exact hacc c hc
    · exact List.mem_singleton.mp hc ▸ hx
  · rw [arrive_of_one hxa hpre hpost] at hc
    have ha : a ∈ pre ++ a :: post := List.mem_append_right _ List.mem_cons_self
    obtain hc | hc := List.mem_append.mp hc
    · exact hacc c (((List.sublist_cons_self a post).append_left pre).mem hc)
    · rw [List.mem_singleton.mp hc]
      exact .fuse hx (hacc a ha) hxa (hsettled.lo_le a ha)

/-- The clusters of sorted arrivals are formed of overlapping parts. -/
theorem formed_of_mem_clusters
    (hsorted : xs.Pairwise fun a b => (extent a).lo ≤ (extent b).lo) {c : Cluster α}
    (hc : c ∈ clusters extent xs) : Formed extent c := by
  have hfold : ∀ (xs : List α) (acc : List (Cluster α)),
      xs.Pairwise (fun a b => (extent a).lo ≤ (extent b).lo) →
      (∀ x ∈ xs, Settled (hull extent) (extent x).lo acc) → (∀ c ∈ acc, Formed extent c) →
      ∀ c ∈ (xs.map Cluster.single).foldl (Fusion.arrive (hull extent) Cluster.fuse) acc,
        Formed extent c := by
    intro xs
    induction xs with
    | nil => exact fun acc _ _ hacc => hacc
    | cons x xs ih =>
      intro acc hsorted hsettled hacc
      obtain ⟨hx, hrest⟩ := List.pairwise_cons.mp hsorted
      have hxsettled : Settled (hull extent) ((single x).hull extent).lo acc :=
        hsettled x List.mem_cons_self
      exact ih _ hrest (fun y hy => (hxsettled.arrive fun _ _ => rfl).mono (hx y hy))
        (Formed.arrive hxsettled (.single x) hacc)
  exact hfold xs [] hsorted (fun _ _ => Settled.nil) (fun c hc => absurd hc List.not_mem_nil) c hc

/-! ### Members and hull -/

theorem within_hull {c : Cluster α} {x : α} (hx : x ∈ c.members) :
    (extent x).Within (c.hull extent) := by
  induction c with
  | single y => exact List.mem_singleton.mp hx ▸ ⟨le_refl _, le_refl _⟩
  | fuse latest earlier ihl ihe =>
    obtain hx | hx := List.mem_append.mp hx
    · exact ⟨le_trans (min_le_left _ _) (ihl hx).1, le_trans (ihl hx).2 (le_max_left _ _)⟩
    · exact ⟨le_trans (min_le_right _ _) (ihe hx).1, le_trans (ihe hx).2 (le_max_right _ _)⟩

variable (extent) in
/-- The hull begins where a member begins. -/
theorem exists_mem_lo (c : Cluster α) : ∃ x ∈ c.members, (extent x).lo = (c.hull extent).lo := by
  induction c with
  | single x => exact ⟨x, List.mem_singleton_self x, rfl⟩
  | fuse latest earlier ihl ihe =>
    obtain hlo | hlo := le_total (latest.hull extent).lo (earlier.hull extent).lo
    · obtain ⟨x, hx, hxlo⟩ := ihl
      exact ⟨x, List.mem_append_left _ hx, hxlo.trans (min_eq_left hlo).symm⟩
    · obtain ⟨x, hx, hxlo⟩ := ihe
      exact ⟨x, List.mem_append_right _ hx, hxlo.trans (min_eq_right hlo).symm⟩

variable (extent) in
/-- The hull ends where a member ends. -/
theorem exists_mem_hi (c : Cluster α) : ∃ x ∈ c.members, (extent x).hi = (c.hull extent).hi := by
  induction c with
  | single x => exact ⟨x, List.mem_singleton_self x, rfl⟩
  | fuse latest earlier ihl ihe =>
    obtain hhi | hhi := le_total (earlier.hull extent).hi (latest.hull extent).hi
    · obtain ⟨x, hx, hxhi⟩ := ihl
      exact ⟨x, List.mem_append_left _ hx, hxhi.trans (max_eq_left hhi).symm⟩
    · obtain ⟨x, hx, hxhi⟩ := ihe
      exact ⟨x, List.mem_append_right _ hx, hxhi.trans (max_eq_right hhi).symm⟩

/-- **The hull leaves no gap**: it covers what the members cover. -/
theorem Formed.hull_covers_iff {c : Cluster α} (h : Formed extent c) (p : ℤ) :
    (c.hull extent).Covers p ↔ ∃ x ∈ c.members, (extent x).Covers p := by
  induction h with
  | single x => simp [hull, members]
  | fuse _ _ hmeets hlo ihl ihe =>
    rw [hull, Extent.covers_union_iff hmeets hlo, ihl, ihe]
    simp only [members, List.mem_append, or_and_right, exists_or]

/-! ### Components -/

/-- **The arrivals of one cluster are linked**, if each of them covers something. -/
theorem Formed.linked {c : Cluster α} (h : Formed extent c)
    (hpos : ∀ x ∈ c.members, (extent x).lo < (extent x).hi) :
    ∀ x ∈ c.members, ∀ y ∈ c.members, Linked extent c.members x y := by
  induction h with
  | single x =>
    intro y hy z hz
    rw [List.mem_singleton.mp hy, List.mem_singleton.mp hz]
    exact Relation.ReflTransGen.refl
  | @fuse latest earlier hlatest hearlier hmeets hlo ihl ihe =>
    have hposl : ∀ x ∈ latest.members, (extent x).lo < (extent x).hi :=
      fun x hx => hpos x (List.mem_append_left _ hx)
    have hpose : ∀ x ∈ earlier.members, (extent x).lo < (extent x).hi :=
      fun x hx => hpos x (List.mem_append_right _ hx)
    -- The latest part begins inside the earlier one, so two members overlap there.
    obtain ⟨x, hx, hxlo⟩ := exists_mem_lo extent latest
    have hcovers : (earlier.hull extent).Covers (latest.hull extent).lo := ⟨hlo, hmeets.1⟩
    obtain ⟨y, hy, hycovers⟩ := (hearlier.hull_covers_iff _).mp hcovers
    have hxy : (extent x).Meets (extent y) :=
      Extent.Meets.of_covers ⟨le_refl _, hposl x hx⟩ (hxlo ▸ hycovers)
    have hbridge : Linked extent (latest.members ++ earlier.members) x y :=
      Relation.ReflTransGen.single
        ⟨List.mem_append_left _ hx, List.mem_append_right _ hy, hxy⟩
    have hleft : ∀ a ∈ latest.members, ∀ b ∈ latest.members,
        Linked extent (latest.members ++ earlier.members) a b :=
      fun a ha b hb => (ihl hposl a ha b hb).mono fun _ => List.mem_append_left _
    have hright : ∀ a ∈ earlier.members, ∀ b ∈ earlier.members,
        Linked extent (latest.members ++ earlier.members) a b :=
      fun a ha b hb => (ihe hpose a ha b hb).mono fun _ => List.mem_append_right _
    intro a ha b hb
    obtain ha | ha := List.mem_append.mp ha
    · obtain hb | hb := List.mem_append.mp hb
      · exact hleft a ha b hb
      · exact ((hleft a ha x hx).trans hbridge).trans (hright y hy b hb)
    · obtain hb | hb := List.mem_append.mp hb
      · exact ((hright a ha y hy).trans hbridge.symm).trans (hleft x hx b hb)
      · exact hright a ha b hb

section Sorted

variable (hsorted : xs.Pairwise fun a b => (extent a).lo ≤ (extent b).lo)
  (hpos : ∀ x ∈ xs, (extent x).lo < (extent x).hi)

include hsorted hpos

/-- **An arrival is in the cluster within whose hull it lies.** -/
theorem mem_members_iff_within {c : Cluster α} (hc : c ∈ clusters extent xs) {x : α}
    (hx : x ∈ xs) : x ∈ c.members ↔ (extent x).Within (c.hull extent) := by
  refine ⟨within_hull, fun hwithin => ?_⟩
  obtain ⟨c', hc', hx'⟩ := (mem_members_clusters extent).mpr hx
  have hcovers : (extent x).Covers (extent x).lo := ⟨le_refl _, hpos x hx⟩
  have hhull : (c.hull extent).Covers (extent x).lo :=
    ⟨hwithin.1, lt_of_lt_of_le (hpos x hx) hwithin.2⟩
  exact eq_of_covers (clusters_disjoint extent hsorted) hc hc' hhull
    (hull_covers extent hx' hcovers) ▸ hx'

/-- An arrival that overlaps a member of a cluster is a member of it. -/
theorem mem_members_of_meets {c : Cluster α} (hc : c ∈ clusters extent xs) {x y : α}
    (hx : x ∈ c.members) (hy : y ∈ xs) (hmeets : (extent x).Meets (extent y)) :
    y ∈ c.members := by
  obtain ⟨c', hc', hy'⟩ := (mem_members_clusters extent).mpr hy
  have hxpos := hpos x ((mem_members_clusters extent).mp ⟨c, hc, hx⟩)
  have hypos := hpos y hy
  -- The later of the two starting points lies in both.
  have hxp : (extent x).Covers (max (extent x).lo (extent y).lo) :=
    ⟨le_max_left _ _, max_lt hxpos hmeets.2⟩
  have hyp : (extent y).Covers (max (extent x).lo (extent y).lo) :=
    ⟨le_max_right _ _, max_lt hmeets.1 hypos⟩
  exact eq_of_covers (clusters_disjoint extent hsorted) hc hc' (hull_covers extent hx hxp)
    (hull_covers extent hy' hyp) ▸ hy'

/-- **Clusters are connected components.** The arrivals within the hull of a cluster are those that
are linked with one of them. -/
theorem within_iff_linked {c : Cluster α} (hc : c ∈ clusters extent xs) {x y : α}
    (hx : x ∈ c.members) (hy : y ∈ xs) :
    (extent y).Within (c.hull extent) ↔ Linked extent xs x y := by
  rw [← mem_members_iff_within hsorted hpos hc hy]
  constructor
  · intro hymem
    have hmem : ∀ z ∈ c.members, z ∈ xs := fun z hz =>
      (mem_members_clusters extent).mp ⟨c, hc, hz⟩
    exact ((formed_of_mem_clusters hsorted hc).linked (fun z hz => hpos z (hmem z hz)) x hx y
      hymem).mono hmem
  · intro hlinked
    induction hlinked with
    | refl => exact hx
    | tail _ hstep ih =>
      exact mem_members_of_meets hsorted hpos hc (ih hstep.1) hstep.2.1 hstep.2.2

end Sorted

end Cluster

end Fusion
