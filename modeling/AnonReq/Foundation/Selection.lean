import Mathlib.Data.List.Induction
import AnonReq.Foundation.Fusion

/-!
# Keeping one of two overlapping things

Things with an extent arrive in the order of their starting points, of those with one start the
longest first. An arrival that overlaps nothing kept so far is kept. If it overlaps something, one
of the two stays: the one that contains the other, otherwise the one of higher rank.

* `select_disjoint`: what is kept is pairwise disjoint.
* `select_covers_iff`: what is kept covers what all things cover if and only if the things can be
  tiled (`Tiling`): some of them, each the longest that begins where it begins, are disjoint and
  cover everything, and nothing that begins in one of them and ends after it is of higher rank.
* `Prevails.mem_select`: a thing is kept that displaces all it overlaps among those before it, and
  that none after it displaces. `unbeaten_of_mem_select`: what is kept overlaps no other thing that
  prevails.
-/

namespace Fusion

/-- The order of arrival: by start; of those with one start the longest first. -/
def Extent.Before (a b : Extent) : Prop := a.lo < b.lo ∨ (a.lo = b.lo ∧ b.hi ≤ a.hi)

theorem Extent.Before.lo_le {a b : Extent} (h : a.Before b) : a.lo ≤ b.lo :=
  h.elim le_of_lt fun h => le_of_eq h.1

theorem Extent.Before.hi_le {a b : Extent} (h : a.Before b) (hlo : b.lo = a.lo) : b.hi ≤ a.hi :=
  h.elim (fun hlt => absurd hlt (hlo ▸ lt_irrefl _)) And.right

/-- An extent that begins in another overlaps it. -/
theorem Extent.meets_of_covers_lo {a b : Extent} (h : a.Covers b.lo) (hpos : b.lo < b.hi) :
    b.Meets a :=
  ⟨h.2, lt_of_le_of_lt h.1 hpos⟩

variable {σ : Type*} (extent : σ → Extent) (rank : σ → ℕ)

/-- Of two overlapping things, the one that stays. -/
def prefer (accepted x : σ) : σ :=
  let contains (a b : σ) : Prop := (extent a).lo ≤ (extent b).lo ∧ (extent b).hi ≤ (extent a).hi
  if contains x accepted ∧ ¬ contains accepted x then x
  else if contains accepted x ∧ ¬ contains x accepted then accepted
  else if rank accepted < rank x then x
  else accepted

/-- What is kept after `x` has arrived. -/
def keep : List σ → σ → List σ
  | [], x => [x]
  | accepted :: kept, x =>
    if (extent x).Meets (extent accepted) then prefer extent rank accepted x :: kept
    else accepted :: keep kept x

/-- What is kept after all of `xs` have arrived. -/
def select (xs : List σ) : List σ := xs.foldl (keep extent rank) []

/-- An arrival takes the place of an accepted thing. -/
def Displaces (x a : σ) : Prop :=
  (extent x = extent a ∨ (extent a).hi < (extent x).hi) ∧ rank a < rank x

instance (x a : σ) : Decidable (Displaces extent rank x a) := inferInstanceAs (Decidable (_ ∧ _))

/-- Some of the things are tiles. -/
structure Tiling (xs : List σ) (tile : σ → Prop) : Prop where
  mem : ∀ t, tile t → t ∈ xs
  /-- A tile covers something. -/
  pos : ∀ t, tile t → (extent t).lo < (extent t).hi
  /-- Tiles that overlap have the same extent. -/
  disjoint : ∀ t t', tile t → tile t' → (extent t).Meets (extent t') → extent t = extent t'
  /-- The tiles cover everything. -/
  covers : ∀ x ∈ xs, ∀ p, (extent x).Covers p → ∃ t, tile t ∧ (extent t).Covers p
  /-- A tile is the longest thing that begins where it begins. -/
  longest : ∀ t, tile t → ∀ x ∈ xs, (extent x).lo = (extent t).lo → (extent x).hi ≤ (extent t).hi
  /-- Nothing that begins in a tile and ends after it is of higher rank. -/
  rank_le : ∀ t, tile t → ∀ x ∈ xs, (extent t).Covers (extent x).lo →
    (extent t).hi < (extent x).hi → rank x ≤ rank t

variable {extent rank} {kept xs : List σ} {x : σ}

/-- Tilings do not depend on the order of the things. -/
theorem Tiling.of_mem_iff {ys : List σ} {tile : σ → Prop} (h : Tiling extent rank xs tile)
    (hmem : ∀ a, a ∈ ys ↔ a ∈ xs) : Tiling extent rank ys tile where
  mem t ht := (hmem t).mpr (h.mem t ht)
  pos := h.pos
  disjoint := h.disjoint
  covers a ha := h.covers a ((hmem a).mp ha)
  longest t ht a ha := h.longest t ht a ((hmem a).mp ha)
  rank_le t ht a ha := h.rank_le t ht a ((hmem a).mp ha)

/-! ### One arrival -/

theorem prefer_eq {a : σ} (hbefore : (extent a).Before (extent x)) :
    prefer extent rank a x = if Displaces extent rank x a then x else a := by
  have hlo : (extent a).lo ≤ (extent x).lo := hbefore.lo_le
  have hhi : (extent x).lo ≤ (extent a).lo → (extent x).hi ≤ (extent a).hi := fun h =>
    hbefore.elim (fun hlt => absurd h (not_le.mpr hlt)) fun h => h.2
  have hsame : extent x = extent a ↔ (extent x).lo ≤ (extent a).lo ∧
      (extent a).hi ≤ (extent x).hi := by
    constructor
    · intro h
      rw [h]
      exact ⟨le_refl _, le_refl _⟩
    · intro h
      exact Extent.ext (le_antisymm h.1 hlo) (le_antisymm (hhi h.1) h.2)
  have hdisplaces : Displaces extent rank x a ↔
      (((extent x).lo ≤ (extent a).lo ∧ (extent a).hi ≤ (extent x).hi) ∨
        (extent a).hi < (extent x).hi) ∧ rank a < rank x := by
    rw [Displaces, hsame]
  simp only [prefer, hdisplaces]
  by_cases hcontains : (extent x).hi ≤ (extent a).hi
  · by_cases hequal : (extent x).lo ≤ (extent a).lo ∧ (extent a).hi ≤ (extent x).hi
    · simp [hequal, hlo, hcontains]
    · simp [hequal, hlo, hcontains, not_lt.mpr hcontains]
  · have hnot : ¬ (extent x).lo ≤ (extent a).lo := fun h => hcontains (hhi h)
    simp [hnot, hcontains, not_le.mp hcontains]

theorem keep_of_none (h : ∀ a ∈ kept, ¬ (extent x).Meets (extent a)) :
    keep extent rank kept x = kept ++ [x] := by
  induction kept with
  | nil => rfl
  | cons a kept ih =>
    obtain ⟨ha, hkept⟩ := List.forall_mem_cons.mp h
    rw [keep, if_neg ha, ih hkept, List.cons_append]

theorem keep_of_one {pre post : List σ} {a : σ} (ha : (extent x).Meets (extent a))
    (hpre : ∀ b ∈ pre, ¬ (extent x).Meets (extent b)) :
    keep extent rank (pre ++ a :: post) x = pre ++ prefer extent rank a x :: post := by
  induction pre with
  | nil => rw [List.nil_append, keep, if_pos ha, List.nil_append]
  | cons b pre ih =>
    obtain ⟨hb, hpre⟩ := List.forall_mem_cons.mp hpre
    rw [List.cons_append, keep, if_neg hb, ih hpre, List.cons_append]

variable (rank) in
/-- **What an arrival does.** It overlaps nothing and is appended; or it overlaps one thing, in
whose place it comes if it displaces it. -/
theorem keep_cases (hsettled : Settled extent (extent x).lo kept)
    (hbefore : ∀ a ∈ kept, (extent a).Before (extent x)) :
    ((∀ a ∈ kept, ¬ (extent x).Meets (extent a)) ∧ keep extent rank kept x = kept ++ [x]) ∨
      ∃ pre a post, kept = pre ++ a :: post ∧ (extent x).Meets (extent a) ∧
        (∀ b ∈ pre ++ post, ¬ (extent x).Meets (extent b)) ∧
        keep extent rank kept x =
          pre ++ (if Displaces extent rank x a then x else a) :: post := by
  obtain hnone | ⟨pre, a, post, rfl, ha, hpre, hpost⟩ := hsettled.meets_unique
  · exact Or.inl ⟨hnone, keep_of_none hnone⟩
  · refine Or.inr ⟨pre, a, post, rfl, ha, fun b hb => ?_, ?_⟩
    · exact (List.mem_append.mp hb).elim (hpre b) (hpost b)
    · rw [keep_of_one ha hpre,
        prefer_eq (hbefore a (List.mem_append_right _ List.mem_cons_self))]

theorem mem_keep {y : σ} (hsettled : Settled extent (extent x).lo kept)
    (hbefore : ∀ a ∈ kept, (extent a).Before (extent x)) (hy : y ∈ keep extent rank kept x) :
    y ∈ kept ∨ y = x := by
  obtain ⟨-, hkeep⟩ | ⟨pre, a, post, rfl, -, -, hkeep⟩ := keep_cases rank hsettled hbefore
  · rw [hkeep] at hy
    simpa using hy
  · rw [hkeep] at hy
    simp only [List.mem_append, List.mem_cons] at hy ⊢
    split_ifs at hy <;> tauto

/-- What is kept stays pairwise disjoint. -/
theorem Settled.keep (hsettled : Settled extent (extent x).lo kept)
    (hbefore : ∀ a ∈ kept, (extent a).Before (extent x)) :
    Settled extent (extent x).lo (keep extent rank kept x) := by
  refine ⟨?_, fun y hy => ?_⟩
  · obtain ⟨hnone, hkeep⟩ | ⟨pre, a, post, rfl, -, hothers, hkeep⟩ :=
      keep_cases rank hsettled hbefore
    · rw [hkeep]
      refine List.pairwise_append.mpr ⟨hsettled.disjoint, List.pairwise_singleton _ _, ?_⟩
      intro b hb y hy
      obtain rfl := List.mem_singleton.mp hy
      exact fun hm => hnone b hb hm.symm
    · rw [hkeep]
      by_cases hdisplaces : Displaces extent rank x a
      · rw [if_pos hdisplaces]
        obtain ⟨hpre, hpost, hcross⟩ := List.pairwise_append.mp hsettled.disjoint
        refine List.pairwise_append.mpr ⟨hpre, List.pairwise_cons.mpr ⟨fun b hb => ?_,
          (List.pairwise_cons.mp hpost).2⟩, fun b hb y hy => ?_⟩
        · exact hothers b (List.mem_append_right _ hb)
        · obtain rfl | hy := List.mem_cons.mp hy
          · exact fun hm => hothers b (List.mem_append_left _ hb) hm.symm
          · exact hcross b hb y (List.mem_cons_of_mem _ hy)
      · rw [if_neg hdisplaces]
        exact hsettled.disjoint
  · obtain hy | rfl := mem_keep hsettled hbefore hy
    · exact hsettled.lo_le y hy
    · exact le_refl _

/-- A position before the arrival that is not covered stays so. -/
theorem exists_covers_of_keep (hsettled : Settled extent (extent x).lo kept)
    (hbefore : ∀ a ∈ kept, (extent a).Before (extent x)) {p : ℤ} (hp : p < (extent x).lo)
    (h : ∃ b ∈ keep extent rank kept x, (extent b).Covers p) :
    ∃ b ∈ kept, (extent b).Covers p := by
  obtain ⟨b, hb, hcovers⟩ := h
  obtain hb | rfl := mem_keep hsettled hbefore hb
  · exact ⟨b, hb, hcovers⟩
  · exact absurd hcovers.1 (not_le.mpr hp)

/-! ### Runs -/

theorem select_concat (xs : List σ) (x : σ) :
    select extent rank (xs ++ [x]) = keep extent rank (select extent rank xs) x := by
  rw [select, List.foldl_append, List.foldl_cons, List.foldl_nil, select]

/-- What is kept is pairwise disjoint, and has arrived. -/
private theorem select_invariant (hsorted : xs.Pairwise fun a b => (extent a).Before (extent b)) :
    (select extent rank xs).Pairwise (fun a b => ¬ (extent a).Meets (extent b)) ∧
      ∀ a ∈ select extent rank xs, a ∈ xs := by
  induction xs using List.reverseRecOn with
  | nil => exact ⟨List.Pairwise.nil, fun a ha => ha⟩
  | append_singleton xs x ih =>
    obtain ⟨hxs, -, hlast⟩ := List.pairwise_append.mp hsorted
    obtain ⟨hdisjoint, hsubset⟩ := ih hxs
    have hbefore : ∀ a ∈ select extent rank xs, (extent a).Before (extent x) :=
      fun a ha => hlast a (hsubset a ha) x (List.mem_singleton_self x)
    have hsettled : Settled extent (extent x).lo (select extent rank xs) :=
      ⟨hdisjoint, fun a ha => (hbefore a ha).lo_le⟩
    rw [select_concat]
    refine ⟨(hsettled.keep hbefore).disjoint, fun y hy => ?_⟩
    obtain hy | rfl := mem_keep hsettled hbefore hy
    · exact List.mem_append_left _ (hsubset y hy)
    · exact List.mem_append_right _ (List.mem_singleton_self y)

/-- **What is kept is pairwise disjoint.** -/
theorem select_disjoint (hsorted : xs.Pairwise fun a b => (extent a).Before (extent b)) :
    (select extent rank xs).Pairwise fun a b => ¬ (extent a).Meets (extent b) :=
  (select_invariant hsorted).1

theorem mem_of_mem_select (hsorted : xs.Pairwise fun a b => (extent a).Before (extent b)) {a : σ}
    (ha : a ∈ select extent rank xs) : a ∈ xs :=
  (select_invariant hsorted).2 a ha

variable (rank) in
/-- What has been kept before an arrival: it begins no later, and comes before the arrival. -/
theorem settled_select {arrived rest : List σ}
    (hsorted : (arrived ++ x :: rest).Pairwise fun a b => (extent a).Before (extent b)) :
    Settled extent (extent x).lo (select extent rank arrived) ∧
      (∀ a ∈ arrived, (extent a).Before (extent x)) ∧
      ∀ a ∈ select extent rank arrived, (extent a).Before (extent x) := by
  obtain ⟨harrived, -, hlater⟩ := List.pairwise_append.mp hsorted
  have hbefore : ∀ a ∈ arrived, (extent a).Before (extent x) :=
    fun a ha => hlater a ha x List.mem_cons_self
  have hkept : ∀ a ∈ select extent rank arrived, (extent a).Before (extent x) :=
    fun a ha => hbefore a (mem_of_mem_select harrived ha)
  exact ⟨⟨select_disjoint harrived, fun a ha => (hkept a ha).lo_le⟩,
    hbefore, hkept⟩

variable (rank) in
/-- What is not covered before later things arrive is not covered at the end. -/
theorem exists_covers_of_select_append {arrived rest : List σ} {p : ℤ}
    (hsorted : (arrived ++ rest).Pairwise fun a b => (extent a).Before (extent b))
    (hrest : ∀ y ∈ rest, p < (extent y).lo)
    (h : ∃ b ∈ select extent rank (arrived ++ rest), (extent b).Covers p) :
    ∃ b ∈ select extent rank arrived, (extent b).Covers p := by
  induction rest using List.reverseRecOn with
  | nil => rwa [List.append_nil] at h
  | append_singleton rest y ih =>
    rw [← List.append_assoc] at h hsorted
    obtain ⟨hsettled, -, hbefore⟩ := settled_select rank hsorted
    rw [select_concat] at h
    refine ih (List.pairwise_append.mp hsorted).1
      (fun z hz => hrest z (List.mem_append_left _ hz)) ?_
    exact exists_covers_of_keep hsettled hbefore
      (hrest y (List.mem_append_right _ (List.mem_singleton_self y))) h

/-! ### What prevails -/

/-- A thing that displaces what it overlaps of the things before it, and that none of the things
after it displaces. The things it meets are judged by their extents and ranks alone, whether or not
they are kept themselves. -/
def Prevails (extent : σ → Extent) (rank : σ → ℕ) (xs : List σ) (t : σ) : Prop :=
  ∃ before after, xs = before ++ t :: after ∧
    (∀ y ∈ before, (extent t).Meets (extent y) → Displaces extent rank t y) ∧
    ∀ y ∈ after, (extent y).Meets (extent t) → ¬ Displaces extent rank y t

/-- One of the things that overlaps no other one that prevails. -/
def Unbeaten (extent : σ → Extent) (rank : σ → ℕ) (xs : List σ) (s : σ) : Prop :=
  s ∈ xs ∧ ∀ t, Prevails extent rank xs t → (extent t).Meets (extent s) → t = s

/-- Every overlap is resolved by the two things alone: what overlaps no other thing that prevails,
prevails. There is no chain, in which a thing is kept because the one that it would lose to has lost
to a third. -/
def Resolved (extent : σ → Extent) (rank : σ → ℕ) (xs : List σ) : Prop :=
  ∀ s, Unbeaten extent rank xs s → Prevails extent rank xs s

/-- What is kept stays if the arrival does not displace it. -/
theorem mem_keep_of_not_displaces (hsettled : Settled extent (extent x).lo kept)
    (hbefore : ∀ a ∈ kept, (extent a).Before (extent x)) {t : σ} (ht : t ∈ kept)
    (hstays : (extent x).Meets (extent t) → ¬ Displaces extent rank x t) :
    t ∈ keep extent rank kept x := by
  obtain ⟨-, hkeep⟩ | ⟨pre, a, post, rfl, hmeets, -, hkeep⟩ := keep_cases rank hsettled hbefore
  · exact hkeep ▸ List.mem_append_left _ ht
  · rw [hkeep, List.mem_append, List.mem_cons]
    obtain hpre | rfl | hpost := (List.mem_append.trans (or_congr_right List.mem_cons)).mp ht
    · exact Or.inl hpre
    · exact Or.inr (Or.inl (if_neg (hstays hmeets)).symm)
    · exact Or.inr (Or.inr hpost)

/-- An arrival that displaces whatever it overlaps is kept. -/
theorem mem_keep_self (hsettled : Settled extent (extent x).lo kept)
    (hbefore : ∀ a ∈ kept, (extent a).Before (extent x))
    (henters : ∀ a ∈ kept, (extent x).Meets (extent a) → Displaces extent rank x a) :
    x ∈ keep extent rank kept x := by
  obtain ⟨-, hkeep⟩ | ⟨pre, a, post, rfl, hmeets, -, hkeep⟩ := keep_cases rank hsettled hbefore
  · exact hkeep ▸ List.mem_append_right _ List.mem_cons_self
  · rw [hkeep, if_pos (henters a (List.mem_append_right _ List.mem_cons_self) hmeets)]
    exact List.mem_append_right _ List.mem_cons_self

/-- **What prevails is kept.** -/
theorem Prevails.mem_select (hsorted : xs.Pairwise fun a b => (extent a).Before (extent b)) {t : σ}
    (h : Prevails extent rank xs t) : t ∈ select extent rank xs := by
  obtain ⟨before, after, rfl, hbefore, hafter⟩ := h
  -- by induction on what arrives after it, from the last arrival back
  induction after using List.reverseRecOn with
  | nil =>
    obtain ⟨hsettled, -, hkept⟩ := settled_select rank hsorted
    rw [select_concat]
    refine mem_keep_self hsettled hkept fun a ha => hbefore a ?_
    exact mem_of_mem_select (List.pairwise_append.mp hsorted).1 ha
  | append_singleton after x ih =>
    rw [← List.cons_append, ← List.append_assoc] at hsorted ⊢
    obtain ⟨hsettled, -, hkept⟩ := settled_select rank hsorted
    obtain ⟨hlater, hx⟩ := List.forall_mem_append.mp hafter
    have ht := ih (List.pairwise_append.mp hsorted).1 hlater
    rw [select_concat]
    exact mem_keep_of_not_displaces hsettled hkept ht (hx x List.mem_cons_self)

/-- **What is kept** overlaps no other thing that prevails. -/
theorem unbeaten_of_mem_select (hsorted : xs.Pairwise fun a b => (extent a).Before (extent b))
    {s : σ} (hs : s ∈ select extent rank xs) : Unbeaten extent rank xs s := by
  refine ⟨mem_of_mem_select hsorted hs, fun t ht hmeets => ?_⟩
  by_contra hne
  have : Std.Symm fun a b : σ => ¬ (extent a).Meets (extent b) :=
    ⟨fun _ _ hn hm => hn hm.symm⟩
  exact (select_disjoint hsorted).forall (ht.mem_select hsorted) hs hne hmeets

/-! ### From covering to tiles -/

/-- An arrival displaces nothing that it overlaps in part. -/
def SafeArrival (extent : σ → Extent) (rank : σ → ℕ) (kept : List σ) (x : σ) : Prop :=
  ∀ a ∈ kept, (extent x).Meets (extent a) → (extent a).hi < (extent x).hi → rank x ≤ rank a

/-- Where everything is covered at the end, every arrival was safe: what a displaced thing covered
before the arrival would be lost. -/
theorem safeArrival_of_covers {arrived rest : List σ}
    (hsorted : (arrived ++ x :: rest).Pairwise fun a b => (extent a).Before (extent b))
    (hcovers : ∀ y ∈ arrived ++ x :: rest, ∀ p, (extent y).Covers p →
      ∃ b ∈ select extent rank (arrived ++ x :: rest), (extent b).Covers p) :
    SafeArrival extent rank (select extent rank arrived) x := by
  intro a ha hmeets hpartial
  by_contra hrank
  obtain ⟨hsettled, -, hbefore⟩ := settled_select rank hsorted
  have hlo : (extent a).lo < (extent x).lo :=
    (hbefore a ha).resolve_right fun h => absurd h.2 (not_le.mpr hpartial)
  have hacovers : (extent a).Covers (extent a).lo := ⟨le_refl _, lt_trans hlo hmeets.1⟩
  have harrived : a ∈ arrived := mem_of_mem_select (List.pairwise_append.mp hsorted).1 ha
  have hsorted' : ((arrived ++ [x]) ++ rest).Pairwise fun a b => (extent a).Before (extent b) := by
    simpa using hsorted
  have hlater : ∀ y ∈ rest, (extent a).lo < (extent y).lo := by
    intro y hy
    have hxy : (extent x).Before (extent y) :=
      (List.pairwise_append.mp hsorted').2.2 x (by simp) y hy
    exact lt_of_lt_of_le hlo (hxy.lo_le)
  obtain ⟨b, hb, hbcovers⟩ := exists_covers_of_select_append rank hsorted' hlater <| by
    have hend := hcovers a (List.mem_append_left _ harrived) _ hacovers
    simpa using hend
  rw [select_concat] at hb
  obtain ⟨hnone, -⟩ | ⟨pre, a', post, hkept, hmeets', hothers, hkeep⟩ :=
    keep_cases rank hsettled hbefore
  · exact hnone a ha hmeets
  · have hsame : a' = a := by
      have ha' : a ∈ pre ++ a' :: post := hkept ▸ ha
      rw [List.mem_append, List.mem_cons] at ha'
      obtain ha' | rfl | ha' := ha'
      · exact absurd hmeets (hothers a (List.mem_append_left _ ha'))
      · rfl
      · exact absurd hmeets (hothers a (List.mem_append_right _ ha'))
    subst hsame
    rw [hkeep, if_pos ⟨Or.inr hpartial, Nat.lt_of_not_le hrank⟩] at hb
    have hdisjoint := hsettled.disjoint
    rw [hkept] at hdisjoint
    obtain ⟨-, hpost, hcross⟩ := List.pairwise_append.mp hdisjoint
    have hmeet := Extent.Meets.of_covers hbcovers hacovers
    rw [List.mem_append, List.mem_cons] at hb
    obtain hb | rfl | hb := hb
    · exact hcross b hb a' List.mem_cons_self hmeet
    · exact absurd hbcovers.1 (not_le.mpr hlo)
    · exact (List.pairwise_cons.mp hpost).1 b hb hmeet.symm

/-- **What a safe arrival does.** It overlaps nothing and is appended; or it overlaps something,
and the extents of what is kept stay the same, with ranks that grow. -/
theorem SafeArrival.cases (hsafe : SafeArrival extent rank kept x)
    (hsettled : Settled extent (extent x).lo kept)
    (hbefore : ∀ a ∈ kept, (extent a).Before (extent x)) :
    ((∀ a ∈ kept, ¬ (extent x).Meets (extent a)) ∧ keep extent rank kept x = kept ++ [x]) ∨
      (∃ a ∈ kept, (extent x).Meets (extent a)) ∧
      (∀ s ∈ keep extent rank kept x, ∃ a ∈ kept, extent a = extent s ∧ rank a ≤ rank s ∧
        (extent x = extent s → (extent x).lo < (extent x).hi → rank x ≤ rank s)) ∧
      ∀ a ∈ kept, ∃ s ∈ keep extent rank kept x, extent s = extent a := by
  obtain hnone | ⟨pre, a, post, rfl, hmeets, hothers, hkeep⟩ :=
    keep_cases rank hsettled hbefore
  · exact Or.inl hnone
  · have ha : a ∈ pre ++ a :: post := List.mem_append_right _ List.mem_cons_self
    have hplace : ∀ b ∈ pre ++ a :: post, b ∈ pre ++ post ∨ b = a := by
      intro b hb
      simp only [List.mem_append, List.mem_cons] at hb ⊢
      tauto
    have hrest : ∀ b ∈ pre ++ post, b ∈ pre ++ a :: post :=
      fun b hb => ((List.sublist_cons_self a post).append_left pre).mem hb
    have hself : ∀ b ∈ pre ++ post, extent x = extent b → (extent x).lo < (extent x).hi →
        rank x ≤ rank b := by
      intro b hb hsame hpos
      exact absurd (hsame ▸ ⟨hpos, hpos⟩) (hothers b hb)
    refine Or.inr ⟨⟨a, ha, hmeets⟩, ?_⟩
    rw [hkeep]
    by_cases hdisplaces : Displaces extent rank x a
    · -- A safe arrival displaces only what has its extent.
      have hsame : extent x = extent a := hdisplaces.1.resolve_right fun hpartial =>
        absurd (hsafe a ha hmeets hpartial) (Nat.not_le.mpr hdisplaces.2)
      rw [if_pos hdisplaces]
      refine ⟨fun s hs => ?_, fun b hb => ?_⟩
      · have hs : s ∈ pre ++ post ∨ s = x := by
          simp only [List.mem_append, List.mem_cons] at hs ⊢
          tauto
        obtain hs | rfl := hs
        · exact ⟨s, hrest s hs, rfl, Nat.le_refl _, hself s hs⟩
        · exact ⟨a, ha, hsame.symm, Nat.le_of_lt hdisplaces.2, fun _ _ => Nat.le_refl _⟩
      · obtain hb | rfl := hplace b hb
        · refine ⟨b, ?_, rfl⟩
          simp only [List.mem_append, List.mem_cons] at hb ⊢
          tauto
        · exact ⟨x, List.mem_append_right _ List.mem_cons_self, hsame⟩
    · rw [if_neg hdisplaces]
      refine ⟨fun s hs => ⟨s, hs, rfl, Nat.le_refl _, ?_⟩, fun b hb => ⟨b, hb, rfl⟩⟩
      obtain hs | rfl := hplace s hs
      · exact hself s hs
      · exact fun hsame _ => Nat.le_of_not_lt fun hlt => hdisplaces ⟨Or.inl hsame, hlt⟩

/-- What safe arrivals keep: a thing that covers something is reached, and what is kept is the
longest that begins there and of no lower rank than what begins in it and ends after it. -/
structure Greedy (extent : σ → Extent) (rank : σ → ℕ) (arrived kept : List σ) : Prop where
  reached : ∀ y ∈ arrived, (extent y).lo < (extent y).hi →
    ∃ s ∈ kept, (extent s).Covers (extent y).lo
  longest : ∀ s ∈ kept, (extent s).lo < (extent s).hi → ∀ y ∈ arrived,
    (extent y).lo = (extent s).lo → (extent y).hi ≤ (extent s).hi
  rank_le : ∀ s ∈ kept, ∀ y ∈ arrived, (extent s).Covers (extent y).lo →
    (extent s).hi < (extent y).hi → rank y ≤ rank s

theorem Greedy.keep {arrived : List σ} (h : Greedy extent rank arrived kept)
    (hsafe : SafeArrival extent rank kept x) (hsettled : Settled extent (extent x).lo kept)
    (harrived : ∀ a ∈ arrived, (extent a).Before (extent x))
    (hbefore : ∀ a ∈ kept, (extent a).Before (extent x)) :
    Greedy extent rank (arrived ++ [x]) (keep extent rank kept x) := by
  obtain ⟨hnone, hkeep⟩ | ⟨⟨a, ha, hmeets⟩, hsource, hstays⟩ := hsafe.cases hsettled hbefore
  · rw [hkeep]
    have hnew : (extent x).lo < (extent x).hi → ∀ y ∈ arrived, (extent y).lo = (extent x).lo →
        (extent y).hi ≤ (extent x).hi := by
      intro hpos y hy hlo
      by_contra hlonger
      obtain ⟨s, hs, hcovers⟩ := h.reached y hy (by omega)
      exact hnone s hs (Extent.meets_of_covers_lo (hlo ▸ hcovers) hpos)
    refine ⟨fun y hy hpos => ?_, fun s hs hpos y hy hlo => ?_, fun s hs y hy hcovers hhi => ?_⟩
    · obtain hy | hy := List.mem_append.mp hy
      · obtain ⟨s, hs, hcovers⟩ := h.reached y hy hpos
        exact ⟨s, List.mem_append_left _ hs, hcovers⟩
      · obtain rfl := List.mem_singleton.mp hy
        exact ⟨y, List.mem_append_right _ (List.mem_singleton_self y), le_refl _, hpos⟩
    · obtain hold | hnew' := List.mem_append.mp hs
      · obtain hy | hy := List.mem_append.mp hy
        · exact h.longest s hold hpos y hy hlo
        · obtain rfl := List.mem_singleton.mp hy
          exact (hbefore s hold).hi_le hlo
      · obtain rfl := List.mem_singleton.mp hnew'
        obtain hy | hy := List.mem_append.mp hy
        · exact hnew hpos y hy hlo
        · obtain rfl := List.mem_singleton.mp hy
          exact le_refl _
    · obtain hold | hnew' := List.mem_append.mp hs
      · obtain hy | hy := List.mem_append.mp hy
        · exact h.rank_le s hold y hy hcovers hhi
        · obtain rfl := List.mem_singleton.mp hy
          exact absurd (Extent.meets_of_covers_lo hcovers (lt_trans hcovers.2 hhi)) (hnone s hold)
      · obtain rfl := List.mem_singleton.mp hnew'
        obtain hy | hy := List.mem_append.mp hy
        · have hlo := le_antisymm (harrived y hy).lo_le hcovers.1
          have hle := hnew (lt_of_le_of_lt hcovers.1 hcovers.2) y hy hlo
          exact absurd hhi (not_lt.mpr hle)
        · obtain rfl := List.mem_singleton.mp hy
          exact Nat.le_refl _
  · refine ⟨fun y hy hpos => ?_, fun s hs hpos y hy hlo => ?_, fun s hs y hy hcovers hhi => ?_⟩
    · obtain ⟨s, hs, hcovers⟩ : ∃ s ∈ kept, (extent s).Covers (extent y).lo := by
        obtain hy | hy := List.mem_append.mp hy
        · exact h.reached y hy hpos
        · obtain rfl := List.mem_singleton.mp hy
          exact ⟨a, ha, (hbefore a ha).lo_le, hmeets.1⟩
      obtain ⟨s', hs', hextent⟩ := hstays s hs
      exact ⟨s', hs', hextent ▸ hcovers⟩
    · obtain ⟨b, hb, hextent, -⟩ := hsource s hs
      rw [← hextent] at hpos hlo ⊢
      obtain hy | hy := List.mem_append.mp hy
      · exact h.longest b hb hpos y hy hlo
      · obtain rfl := List.mem_singleton.mp hy
        exact (hbefore b hb).hi_le hlo
    · obtain ⟨b, hb, hextent, hrank, -⟩ := hsource s hs
      rw [← hextent] at hcovers hhi
      refine Nat.le_trans ?_ hrank
      obtain hy | hy := List.mem_append.mp hy
      · exact h.rank_le b hb y hy hcovers hhi
      · obtain rfl := List.mem_singleton.mp hy
        exact hsafe b hb (Extent.meets_of_covers_lo hcovers (lt_trans hcovers.2 hhi)) hhi

/-- **Where everything is covered at the end**, what is kept tiles the things. -/
theorem tiling_of_covers (hsorted : xs.Pairwise fun a b => (extent a).Before (extent b))
    (hcovers : ∀ x ∈ xs, ∀ p, (extent x).Covers p →
      ∃ b ∈ select extent rank xs, (extent b).Covers p) :
    Tiling extent rank xs fun t => t ∈ select extent rank xs ∧ (extent t).lo < (extent t).hi := by
  have hgreedy : ∀ arrived rest, xs = arrived ++ rest →
      Greedy extent rank arrived (select extent rank arrived) := by
    intro arrived
    induction arrived using List.reverseRecOn with
    | nil =>
      exact fun rest _ => ⟨fun y hy => absurd hy List.not_mem_nil,
        fun s hs => absurd hs List.not_mem_nil, fun s hs => absurd hs List.not_mem_nil⟩
    | append_singleton arrived x ih =>
      rintro rest rfl
      rw [List.append_assoc, List.singleton_append] at hsorted hcovers ih
      obtain ⟨hsettled, harrived, hbefore⟩ := settled_select rank hsorted
      rw [select_concat]
      exact (ih (x :: rest) rfl).keep (safeArrival_of_covers hsorted hcovers) hsettled harrived
        hbefore
  have hall := hgreedy xs [] (List.append_nil xs).symm
  refine ⟨fun t ht => mem_of_mem_select hsorted ht.1, fun t ht => ht.2,
    fun t t' ht ht' hmeets => ?_, fun x hx p hp => ?_,
    fun t ht x hx hlo => hall.longest t ht.1 ht.2 x hx hlo,
    fun t ht x hx hlo hhi => hall.rank_le t ht.1 x hx hlo hhi⟩
  · have hp : (extent t).Covers (max (extent t).lo (extent t').lo) :=
      ⟨le_max_left _ _, max_lt ht.2 hmeets.2⟩
    have hp' : (extent t').Covers (max (extent t).lo (extent t').lo) :=
      ⟨le_max_right _ _, max_lt hmeets.1 ht'.2⟩
    rw [eq_of_covers (select_disjoint hsorted) ht.1 ht'.1 hp hp']
  · obtain ⟨b, hb, hbcovers⟩ := hcovers x hx p hp
    exact ⟨b, ⟨hb, lt_of_le_of_lt hbcovers.1 hbcovers.2⟩, hbcovers⟩

/-! ### From tiles to covering -/

/-- What arrivals keep where the things can be tiled: tiles, each of which is kept with the highest
rank of its extent once it has arrived. -/
structure TilesKept (extent : σ → Extent) (rank : σ → ℕ) (tile : σ → Prop)
    (arrived kept : List σ) : Prop where
  tile_of_kept : ∀ s ∈ kept, (extent s).lo < (extent s).hi → ∃ t, tile t ∧ extent t = extent s
  rank_le : ∀ s ∈ kept, (extent s).lo < (extent s).hi → ∀ y ∈ arrived, extent y = extent s →
    rank y ≤ rank s
  kept_of_tile : ∀ t, tile t → ∀ y ∈ arrived, extent y = extent t →
    ∃ s ∈ kept, extent s = extent t

section Tiling

variable {tile : σ → Prop} {arrived rest : List σ}
  (htiling : Tiling extent rank (arrived ++ x :: rest) tile)
  (hsorted : (arrived ++ x :: rest).Pairwise fun a b => (extent a).Before (extent b))
  (h : TilesKept extent rank tile arrived (select extent rank arrived))

include htiling hsorted

/-- A tile that comes before an arrival has arrived. -/
theorem mem_arrived_of_tile {t : σ} (ht : tile t) (hnot : ¬ (extent x).Before (extent t)) :
    t ∈ arrived := by
  obtain hmem | hmem := List.mem_append.mp (htiling.mem t ht)
  · exact hmem
  · obtain rfl | hmem := List.mem_cons.mp hmem
    · exact absurd (Or.inr ⟨rfl, le_refl _⟩) hnot
    · have hlater := (List.pairwise_append.mp hsorted).2.1
      exact absurd (List.rel_of_pairwise_cons hlater hmem) hnot

include h

theorem safeArrival_of_tiling : SafeArrival extent rank (select extent rank arrived) x := by
  intro a ha hmeets hpartial
  obtain ⟨-, -, hbefore⟩ := settled_select rank hsorted
  have hlo := (hbefore a ha).lo_le
  have hpos : (extent a).lo < (extent a).hi := lt_of_le_of_lt hlo hmeets.1
  obtain ⟨t, ht, hextent⟩ := h.tile_of_kept a ha hpos
  have hx : x ∈ arrived ++ x :: rest := List.mem_append_right _ List.mem_cons_self
  have hrank : rank x ≤ rank t :=
    htiling.rank_le t ht x hx (hextent ▸ ⟨hlo, hmeets.1⟩) (hextent ▸ hpartial)
  have harrived : t ∈ arrived := by
    refine mem_arrived_of_tile htiling hsorted ht fun hfirst => ?_
    -- The arrival would begin with the tile and be longer.
    have hsame : (extent t).lo = (extent x).lo :=
      le_antisymm (hextent ▸ hlo) hfirst.lo_le
    have hle := htiling.longest t ht x hx hsame.symm
    exact absurd hle (not_le.mpr (hextent ▸ hpartial))
  exact Nat.le_trans hrank (h.rank_le a ha hpos t harrived hextent)

/-- An arrival that covers something and overlaps nothing has the extent of a tile. -/
theorem exists_tile_of_none (hpos : (extent x).lo < (extent x).hi)
    (hnone : ∀ a ∈ select extent rank arrived, ¬ (extent x).Meets (extent a)) :
    ∃ t, tile t ∧ extent t = extent x := by
  have hx : x ∈ arrived ++ x :: rest := List.mem_append_right _ List.mem_cons_self
  obtain ⟨t, ht, hcovers⟩ := htiling.covers x hx (extent x).lo ⟨le_refl _, hpos⟩
  refine ⟨t, ht, ?_⟩
  by_contra hne
  have harrived : t ∈ arrived := by
    refine mem_arrived_of_tile htiling hsorted ht fun hfirst => hne ?_
    have hsame : (extent x).lo = (extent t).lo := le_antisymm hfirst.lo_le hcovers.1
    exact Extent.ext hsame.symm
      (le_antisymm (hfirst.hi_le hsame.symm) (htiling.longest t ht x hx hsame))
  obtain ⟨s, hs, hextent⟩ := h.kept_of_tile t ht t harrived rfl
  exact hnone s hs (hextent ▸ Extent.meets_of_covers_lo hcovers hpos)

theorem tilesKept_concat :
    TilesKept extent rank tile (arrived ++ [x]) (select extent rank (arrived ++ [x])) := by
  obtain ⟨hsettled, -, hbefore⟩ := settled_select rank hsorted
  have hsafe := safeArrival_of_tiling htiling hsorted h
  rw [select_concat]
  obtain ⟨hnone, hkeep⟩ | ⟨⟨a, ha, hmeets⟩, hsource, hstays⟩ := hsafe.cases hsettled hbefore
  · rw [hkeep]
    have hself : ∀ s ∈ select extent rank arrived, (extent s).lo < (extent s).hi →
        extent x ≠ extent s := by
      intro s hs hpos hsame
      refine hnone s hs ?_
      rw [hsame]
      exact ⟨hpos, hpos⟩
    refine ⟨fun s hs hpos => ?_, fun s hs hpos y hy hextent => ?_, fun t ht y hy hextent => ?_⟩
    · obtain hold | hlast := List.mem_append.mp hs
      · exact h.tile_of_kept s hold hpos
      · obtain rfl := List.mem_singleton.mp hlast
        exact exists_tile_of_none htiling hsorted h hpos hnone
    · obtain hold | hlast := List.mem_append.mp hs
      · obtain hy | hy := List.mem_append.mp hy
        · exact h.rank_le s hold hpos y hy hextent
        · obtain rfl := List.mem_singleton.mp hy
          exact absurd hextent (hself s hold hpos)
      · obtain rfl := List.mem_singleton.mp hlast
        obtain hy | hy := List.mem_append.mp hy
        · obtain ⟨t, ht, htile⟩ := exists_tile_of_none htiling hsorted h hpos hnone
          obtain ⟨s', hs', hsame⟩ := h.kept_of_tile t ht y hy (hextent.trans htile.symm)
          exact absurd (htile.symm.trans hsame.symm) (hself s' hs' (by rwa [hsame, htile]))
        · obtain rfl := List.mem_singleton.mp hy
          exact Nat.le_refl _
    · obtain hy | hy := List.mem_append.mp hy
      · obtain ⟨s, hs, hsame⟩ := h.kept_of_tile t ht y hy hextent
        exact ⟨s, List.mem_append_left _ hs, hsame⟩
      · obtain rfl := List.mem_singleton.mp hy
        exact ⟨y, List.mem_append_right _ (List.mem_singleton_self y), hextent⟩
  · refine ⟨fun s hs hpos => ?_, fun s hs hpos y hy hextent => ?_, fun t ht y hy hextent => ?_⟩
    · obtain ⟨b, hb, hsame, -⟩ := hsource s hs
      rw [← hsame] at hpos ⊢
      exact h.tile_of_kept b hb hpos
    · obtain ⟨b, hb, hsame, hrank, hself⟩ := hsource s hs
      obtain hy | hy := List.mem_append.mp hy
      · exact Nat.le_trans (h.rank_le b hb (hsame ▸ hpos) y hy (hextent.trans hsame.symm)) hrank
      · obtain rfl := List.mem_singleton.mp hy
        exact hself hextent (hextent ▸ hpos)
    · obtain hy | hy := List.mem_append.mp hy
      · obtain ⟨b, hb, hsame⟩ := h.kept_of_tile t ht y hy hextent
        obtain ⟨s, hs, hextent'⟩ := hstays b hb
        exact ⟨s, hs, hextent'.trans hsame⟩
      · -- What the arrival overlaps is a tile, and so the tile with its extent.
        obtain rfl := List.mem_singleton.mp hy
        have hapos : (extent a).lo < (extent a).hi :=
          lt_of_le_of_lt (hbefore a ha).lo_le hmeets.1
        obtain ⟨t', ht', hsame⟩ := h.tile_of_kept a ha hapos
        have htiles : extent t = extent t' :=
          htiling.disjoint t t' ht ht' (hextent ▸ hsame.symm ▸ hmeets)
        obtain ⟨s, hs, hextent'⟩ := hstays a ha
        exact ⟨s, hs, hextent'.trans (hsame.symm.trans htiles.symm)⟩

end Tiling

/-- **Where the things can be tiled**, what is kept covers them. -/
theorem covers_of_tiling {tile : σ → Prop} (htiling : Tiling extent rank xs tile)
    (hsorted : xs.Pairwise fun a b => (extent a).Before (extent b)) :
    ∀ x ∈ xs, ∀ p, (extent x).Covers p → ∃ b ∈ select extent rank xs, (extent b).Covers p := by
  have hkept : ∀ arrived rest, xs = arrived ++ rest →
      TilesKept extent rank tile arrived (select extent rank arrived) := by
    intro arrived
    induction arrived using List.reverseRecOn with
    | nil =>
      exact fun rest _ => ⟨fun s hs => absurd hs List.not_mem_nil,
        fun s hs => absurd hs List.not_mem_nil, fun t _ y hy => absurd hy List.not_mem_nil⟩
    | append_singleton arrived x ih =>
      rintro rest rfl
      rw [List.append_assoc, List.singleton_append] at htiling hsorted ih
      exact tilesKept_concat htiling hsorted (ih (x :: rest) rfl)
  intro x hx p hp
  obtain ⟨t, ht, hcovers⟩ := htiling.covers x hx p hp
  obtain ⟨s, hs, hextent⟩ :=
    (hkept xs [] (List.append_nil xs).symm).kept_of_tile t ht t (htiling.mem t ht) rfl
  exact ⟨s, hs, hextent ▸ hcovers⟩

/-- **When nothing is lost.** What is kept covers what all things cover if and only if the things
can be tiled. -/
theorem select_covers_iff (hsorted : xs.Pairwise fun a b => (extent a).Before (extent b)) :
    (∀ x ∈ xs, ∀ p, (extent x).Covers p →
      ∃ b ∈ select extent rank xs, (extent b).Covers p) ↔ ∃ tile, Tiling extent rank xs tile :=
  ⟨fun h => ⟨_, tiling_of_covers hsorted h⟩, fun ⟨_, htiling⟩ => covers_of_tiling htiling hsorted⟩

end Fusion
