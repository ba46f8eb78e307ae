import Mathlib.Data.List.FinRange
import Mathlib.GroupTheory.Perm.Basic
import Mathlib.Logic.Equiv.Fin.Basic

/-!
# Pages of a list that is arranged anew for each page

The pages of a list begin at the multiples of `step` and have at most `size` items. Each page is
read from an arrangement of its own: the items are the same, and so are their keys at each position,
but items with one key may have changed places.

* `mem_page_iff`: an item is on a page if its position is.
* `perm_pages_iff`: the pages have the expected items, once each and however they are arranged, if
  and only if items with one key are on one page, and the expected items are those on a page.
-/

namespace Paging

variable {α β : Type*} {size step : ℕ}

/-- At most `size` items of a list after the first `skip`. -/
def page (l : List α) (skip size : ℕ) : List α := (l.drop skip).take size

/-- The first `m` pages, each of a list of its own. -/
def pages (lists : ℕ → List α) (step size m : ℕ) : List α :=
  (List.range m).flatMap fun k => page (lists k) (k * step) size

/-- The page that a position is on, if it is on one. -/
def pageOf (step size i : ℕ) : Option ℕ := if i % step < size then some (i / step) else none

theorem pageOf_eq_some_iff (hsize : size ≤ step) {i k : ℕ} :
    pageOf step size i = some k ↔ k * step ≤ i ∧ i < k * step + size := by
  unfold pageOf
  have hdiv := Nat.div_add_mod i step
  constructor
  · intro h
    split_ifs at h with hmod
    obtain rfl := Option.some.inj h
    rw [Nat.mul_comm]
    omega
  · rintro ⟨hle, hlt⟩
    have hk : i / step = k :=
      Nat.div_eq_of_lt_le hle (by rw [Nat.succ_mul]; omega)
    rw [hk, Nat.mul_comm] at hdiv
    rw [if_pos (by omega), hk]

/-- **Pages.** An item is on a page if and only if its position is. -/
theorem mem_page_iff (hsize : size ≤ step) {l : List α} {k : ℕ} {a : α} :
    a ∈ page l (k * step) size ↔ ∃ i, l[i]? = some a ∧ pageOf step size i = some k := by
  simp only [page, List.mem_iff_getElem?, List.getElem?_take, List.getElem?_drop,
    pageOf_eq_some_iff hsize]
  constructor
  · rintro ⟨i, h⟩
    split_ifs at h with hi
    exact ⟨_, h, by omega, by omega⟩
  · rintro ⟨i, h, hle, hlt⟩
    refine ⟨i - k * step, ?_⟩
    rw [if_pos (by omega), Nat.add_sub_cancel' hle, h]

/-- A page is empty if and only if the list ends before it. -/
theorem page_eq_nil_iff (hsize : 0 < size) {l : List α} {skip : ℕ} :
    page l skip size = [] ↔ l.length ≤ skip := by
  rw [page, List.take_eq_nil_iff, List.drop_eq_nil_iff, or_iff_right hsize.ne']

theorem map_page {γ : Type*} (f : α → γ) (l : List α) (skip size : ℕ) :
    (page l skip size).map f = page (l.map f) skip size := by
  rw [page, page, List.map_take, List.map_drop]

theorem mem_pages_iff (hsize : size ≤ step) {lists : ℕ → List α} {m : ℕ} {a : α} :
    a ∈ pages lists step size m ↔
      ∃ k < m, ∃ i, (lists k)[i]? = some a ∧ pageOf step size i = some k := by
  simp only [pages, List.mem_flatMap, List.mem_range, mem_page_iff hsize]

/-- The pages of one list are some of its items, in their order. -/
theorem pages_sublist (hsize : size ≤ step) (l : List α) (m : ℕ) :
    (pages (fun _ => l) step size m).Sublist l := by
  have hstarts : ∀ m, (pages (fun _ => l) step size m).Sublist (l.take (m * step)) := by
    intro m
    induction m with
    | zero => simp [pages]
    | succ m ih =>
      have hsucc : pages (fun _ => l) step size (m + 1) =
          pages (fun _ => l) step size m ++ page l (m * step) size := by
        simp [pages, List.range_succ]
      rw [hsucc, Nat.succ_mul, List.take_add]
      exact ih.append (List.take_sublist_take_left hsize)
  exact (hstarts m).trans (List.take_sublist _ _)

/-- Where a map is one to one on two lists, they have the same items if their images have. -/
theorem perm_of_perm_map {f : α → β} {l l' : List α}
    (hinj : Set.InjOn f {a | a ∈ l ∨ a ∈ l'}) (h : (l.map f).Perm (l'.map f)) : l.Perm l' := by
  cases l with
  | nil => rw [List.map_eq_nil_iff.mp (List.nil_perm.mp h)]
  | cons a l =>
    have : Nonempty α := ⟨a⟩
    have hinverse := hinj.leftInvOn_invFunOn
    have hback := h.map (Function.invFunOn f {b | b ∈ a :: l ∨ b ∈ l'})
    rw [List.map_map, List.map_map] at hback
    have hid : ∀ l'' : List α, (∀ b ∈ l'', b ∈ a :: l ∨ b ∈ l') →
        l''.map (Function.invFunOn f {b | b ∈ a :: l ∨ b ∈ l'} ∘ f) = l'' := by
      intro l'' hl''
      conv_rhs => rw [← List.map_id l'']
      exact List.map_congr_left fun b hb => hinverse (hl'' b hb)
    rwa [hid _ fun _ => Or.inl, hid _ fun _ => Or.inr] at hback

/-! ### Arrangements -/

variable {f : α → β} {keys : List β} {base expected : List α}

/-- A list is an arrangement of the items if it has the same items and the same keys. -/
def IsArrangement (f : α → β) (base l : List α) : Prop := l.Perm base ∧ l.map f = base.map f

/-- Two items with one key change places. -/
def swapped (l : List α) (i j : Fin l.length) : List α := List.ofFn (l.get ∘ Equiv.swap i j)

theorem IsArrangement.swapped {l : List α} (h : IsArrangement f base l) {i j : Fin l.length}
    (hkey : f (l.get i) = f (l.get j)) : IsArrangement f base (swapped l i j) := by
  refine ⟨((Equiv.Perm.ofFn_comp_perm (Equiv.swap i j) l.get).trans ?_).trans h.1, ?_⟩
  · rw [List.ofFn_get]
  · rw [← h.2]
    conv_rhs => rw [← List.ofFn_get l]
    rw [Paging.swapped, List.map_ofFn, List.map_ofFn]
    congr 1
    funext n
    simp only [Function.comp_apply, Equiv.swap_apply_def]
    split_ifs with hi hj
    · rw [hi, hkey]
    · rw [hj, hkey]
    · rfl

theorem getElem?_swapped (l : List α) (i j : Fin l.length) :
    (swapped l i j)[(j : ℕ)]? = some (l.get i) := by
  rw [swapped, List.getElem?_ofFn]
  simp

/-- Items with one key are on one page, or on none. -/
def Undivided (step size : ℕ) (keys : List β) : Prop :=
  ∀ i j κ, keys[i]? = some κ → keys[j]? = some κ → pageOf step size i = pageOf step size j

/-- The items at the positions of a key are expected if and only if the positions are on a page. -/
def Owned (step size : ℕ) (f : α → β) (base expected : List α) : Prop :=
  ∀ a ∈ base, ∀ i, (base.map f)[i]? = some (f a) →
    (a ∈ expected ↔ (pageOf step size i).isSome = true)

/-- An item of the base is in every arrangement, at a position with its key. -/
theorem IsArrangement.exists_getElem? {l : List α} (h : IsArrangement f base l) {a : α}
    (ha : a ∈ base) : ∃ i : ℕ, l[i]? = some a ∧ (base.map f)[i]? = some (f a) := by
  obtain ⟨i, hi⟩ := List.mem_iff_getElem?.mp (h.1.mem_iff.mpr ha)
  exact ⟨i, hi, by rw [← h.2, List.getElem?_map, hi, Option.map_some]⟩

/-- The item at a position of an arrangement is an item of the base, with the key of that
position. -/
theorem IsArrangement.key_of_getElem? {l : List α} (h : IsArrangement f base l) {a : α} {i : ℕ}
    (hi : l[i]? = some a) : a ∈ base ∧ (base.map f)[i]? = some (f a) :=
  ⟨h.1.mem_iff.mp (List.mem_of_getElem? hi), by rw [← h.2, List.getElem?_map, hi, Option.map_some]⟩

/-- **Undivided keys.** The pages have the expected items, once each. -/
theorem perm_pages (hsize : size ≤ step) (hbase : base.Nodup) (hexpected : expected.Nodup)
    (hsub : expected ⊆ base) (hundivided : Undivided step size (base.map f))
    (howned : Owned step size f base expected) {lists : ℕ → List α}
    (hlists : ∀ k, IsArrangement f base (lists k)) {m : ℕ} (hm : base.length ≤ m * step) :
    (pages lists step size m).Perm expected := by
  have hnodup : (pages lists step size m).Nodup := by
    refine List.nodup_flatMap.mpr ⟨fun k _ => ?_, ?_⟩
    · exact ((hlists k).1.nodup_iff.mpr hbase).sublist
        ((List.take_sublist _ _).trans (List.drop_sublist _ _))
    · refine List.nodup_range.pairwise_of_forall_ne fun k _ k' _ hne a hk hk' => hne ?_
      obtain ⟨i, hi, hpage⟩ := (mem_page_iff hsize).mp hk
      obtain ⟨j, hj, hpage'⟩ := (mem_page_iff hsize).mp hk'
      have hsame := hundivided i j _ ((hlists k).key_of_getElem? hi).2
        ((hlists k').key_of_getElem? hj).2
      exact Option.some.inj (hpage.symm.trans (hsame.trans hpage'))
  refine (List.perm_ext_iff_of_nodup hnodup hexpected).mpr fun a => ?_
  rw [mem_pages_iff hsize]
  constructor
  · rintro ⟨k, -, i, hi, hpage⟩
    obtain ⟨ha, hkey⟩ := (hlists k).key_of_getElem? hi
    exact (howned a ha i hkey).mpr (by rw [hpage]; rfl)
  · intro ha
    obtain ⟨i, hi, hkey⟩ := (hlists 0).exists_getElem? (hsub ha)
    obtain ⟨k, hk⟩ := Option.isSome_iff_exists.mp ((howned a (hsub ha) i hkey).mp ha)
    obtain ⟨j, hj, hkey'⟩ := (hlists k).exists_getElem? (hsub ha)
    refine ⟨k, ?_, j, hj, (hundivided j i _ hkey' hkey).trans hk⟩
    have hlt : i < base.length := by
      rw [← (hlists 0).1.length_eq]
      exact (List.getElem?_eq_some_iff.mp hi).1
    have hle := ((pageOf_eq_some_iff hsize).mp hk).1
    exact Nat.lt_of_mul_lt_mul_right (lt_of_le_of_lt hle (lt_of_lt_of_le hlt hm))

/-- In one arrangement, the expected items are those whose positions are on a page. -/
theorem mem_expected_iff (hsize : size ≤ step) (hbase : base.Nodup) {m : ℕ}
    (hm : base.length ≤ m * step) {l : List α} (hl : IsArrangement f base l)
    (hpages : (pages (fun _ => l) step size m).Perm expected) {a : α} {i : ℕ}
    (hi : l[i]? = some a) : a ∈ expected ↔ (pageOf step size i).isSome = true := by
  obtain ⟨hlt, hget⟩ := List.getElem?_eq_some_iff.mp hi
  rw [← hpages.mem_iff, mem_pages_iff hsize]
  constructor
  · rintro ⟨k, -, j, hj, hpage⟩
    obtain rfl : j = i :=
      (List.getElem?_inj (List.getElem?_eq_some_iff.mp hj).1 (hl.1.nodup_iff.mpr hbase)).mp
        (hj.trans hi.symm)
    rw [hpage]
    rfl
  · intro hsome
    obtain ⟨k, hk⟩ := Option.isSome_iff_exists.mp hsome
    refine ⟨k, ?_, i, hi, hk⟩
    have hle := ((pageOf_eq_some_iff hsize).mp hk).1
    rw [hl.1.length_eq] at hlt
    exact Nat.lt_of_mul_lt_mul_right (lt_of_le_of_lt hle (lt_of_lt_of_le hlt hm))

/-- Items with one key are not on two pages: from the first page on, they could change places. -/
theorem page_le_of_perm_pages (hsize : size ≤ step) (hexpected : expected.Nodup) {m : ℕ}
    (hm : base.length ≤ m * step)
    (h : ∀ lists : ℕ → List α, (∀ k, IsArrangement f base (lists k)) →
      (pages lists step size m).Perm expected)
    {i j : Fin base.length} (hkey : f (base.get i) = f (base.get j)) {k k' : ℕ}
    (hi : pageOf step size i = some k) (hj : pageOf step size j = some k') : k' ≤ k := by
  by_contra hlt
  have hlt : k < k' := not_le.mp hlt
  have hbase : IsArrangement f base base := ⟨List.Perm.refl _, rfl⟩
  let lists : ℕ → List α := fun n => if n ≤ k then base else swapped base i j
  have hlists : ∀ n, IsArrangement f base (lists n) := by
    intro n
    dsimp only [lists]
    split_ifs
    · exact hbase
    · exact hbase.swapped hkey
  have hnodup : (pages lists step size m).Nodup := (h lists hlists).nodup_iff.mpr hexpected
  -- the first item is on its page, and afterwards at the position of the second
  have hfirst : base.get i ∈ page (lists k) (k * step) size := by
    refine (mem_page_iff hsize).mpr ⟨i, ?_, hi⟩
    dsimp only [lists]
    rw [if_pos le_rfl, List.getElem?_eq_getElem i.isLt]
    rfl
  have hsecond : base.get i ∈ page (lists k') (k' * step) size := by
    refine (mem_page_iff hsize).mpr ⟨j, ?_, hj⟩
    dsimp only [lists]
    rw [if_neg (not_le.mpr hlt), getElem?_swapped]
  have hk' : k' < m := by
    have hle := ((pageOf_eq_some_iff hsize).mp hj).1
    exact Nat.lt_of_mul_lt_mul_right (lt_of_le_of_lt hle (lt_of_lt_of_le j.isLt hm))
  have hdisjoint := List.pairwise_iff_getElem.mp (List.nodup_flatMap.mp hnodup).2 k k'
    (by simpa using hlt.trans hk') (by simpa using hk') hlt
  rw [List.getElem_range, List.getElem_range] at hdisjoint
  exact hdisjoint hfirst hsecond

/-- **Pages.** However the items are arranged, the pages have the expected items, once each, if and
only if items with one key are on one page, and the expected items are those on a page. -/
theorem perm_pages_iff (hsize : size ≤ step) (hbase : base.Nodup) (hexpected : expected.Nodup)
    (hsub : expected ⊆ base) {m : ℕ} (hm : base.length ≤ m * step) :
    (∀ lists : ℕ → List α, (∀ k, IsArrangement f base (lists k)) →
      (pages lists step size m).Perm expected) ↔
      Undivided step size (base.map f) ∧ Owned step size f base expected := by
  refine ⟨fun h => ?_, fun h lists hlists =>
    perm_pages hsize hbase hexpected hsub h.1 h.2 hlists hm⟩
  have hone : ∀ l, IsArrangement f base l → ∀ a i, l[i]? = some a →
      (a ∈ expected ↔ (pageOf step size i).isSome = true) := fun l hl a i hi =>
    mem_expected_iff hsize hbase hm hl (h _ fun _ => hl) hi
  have hself : IsArrangement f base base := ⟨List.Perm.refl _, rfl⟩
  have hundivided : Undivided step size (base.map f) := by
    intro i j κ hi hj
    rw [List.getElem?_map, Option.map_eq_some_iff] at hi hj
    obtain ⟨a, hi, ha⟩ := hi
    obtain ⟨b, hj, hb⟩ := hj
    obtain ⟨hilt, rfl⟩ := List.getElem?_eq_some_iff.mp hi
    obtain ⟨hjlt, rfl⟩ := List.getElem?_eq_some_iff.mp hj
    have hkey : f (base.get ⟨i, hilt⟩) = f (base.get ⟨j, hjlt⟩) := ha.trans hb.symm
    have hsome := (hone base hself _ i hi).symm.trans
      (hone _ (hself.swapped hkey) _ j (getElem?_swapped base ⟨i, hilt⟩ ⟨j, hjlt⟩))
    cases hpi : pageOf step size i with
    | none =>
      rw [hpi, Option.isSome_none] at hsome
      exact (Option.not_isSome_iff_eq_none.mp fun hpj => Bool.false_ne_true (hsome.mpr hpj)).symm
    | some k =>
      rw [hpi, Option.isSome_some] at hsome
      obtain ⟨k', hpj⟩ := Option.isSome_iff_exists.mp (hsome.mp rfl)
      have hle := page_le_of_perm_pages hsize hexpected hm h hkey hpi hpj
      have hge := page_le_of_perm_pages hsize hexpected hm h hkey.symm hpj hpi
      rw [hpj, le_antisymm hge hle]
  refine ⟨hundivided, fun a ha i hi => ?_⟩
  obtain ⟨j, hj, hkey⟩ := hself.exists_getElem? ha
  rw [hone base hself a j hj, hundivided i j _ hi hkey]

end Paging
