import Mathlib.Data.List.Nodup
import Mathlib.Data.List.TakeDrop

/-!
# Keyset pagination

Pages of a list of rows: the next page is read from the rows that come after the last row of the
page before, where `after b r` is what the query says of a cursor at the row `b`.

* `pages` reads page after page until a page is not full.
* `length_filter_after_lt`: a cursor leaves fewer rows than the one before it, so enough fuel is
  the number of the rows.
* `pages_eq_self_iff`: the pages are the rows themselves if and only if the cursor at the last row
  of every full page selects what stands behind that row in the list.
-/

namespace Keyset

variable {α : Type*} {after : α → α → Bool} {page : ℕ} {rows : List α}

/-- The rows read page by page, starting from those a cursor has left. -/
def pages (after : α → α → Bool) (page : ℕ) (rows : List α) : ℕ → List α → List α
  | 0, _ => []
  | fuel + 1, rest =>
    match (rest.take page).getLast? with
    | none => []
    | some last =>
      if (rest.take page).length < page then rest.take page
      else rest.take page ++ pages after page rows fuel (rows.filter (after last))

/-- The rows a cursor selects stay selected along it: what comes after a selected row is
selected. -/
def Closed (after : α → α → Bool) (p : α → Bool) : Prop :=
  ∀ x y, p x = true → after x y = true → p y = true

theorem closed_after (htrans : ∀ x y z, after x y = true → after y z = true → after x z = true)
    (b : α) : Closed after (after b) :=
  fun x y hx hy => htrans b x y hx hy

/-- A cursor leaves fewer rows than the one before it. -/
theorem length_filter_after_lt (hirrefl : ∀ x, after x x = false) {p : α → Bool}
    (hp : Closed after p) {last : α} (hmem : last ∈ rows.filter p) :
    (rows.filter (after last)).length < (rows.filter p).length := by
  have hsub : rows.filter (after last) = (rows.filter p).filter (after last) := by
    rw [List.filter_filter]
    refine List.filter_congr fun x _ => (Bool.eq_iff_iff.mpr ?_).symm
    rw [Bool.and_eq_true]
    exact and_iff_left_of_imp (hp last x (List.mem_filter.mp hmem).2)
  rw [hsub, List.length_filter_lt_length_iff_exists]
  exact ⟨last, hmem, by rw [hirrefl]; exact Bool.false_ne_true⟩

/-- Only selected rows are read. -/
theorem of_mem_pages (htrans : ∀ x y z, after x y = true → after y z = true → after x z = true)
    {p : α → Bool} (hp : Closed after p) {fuel : ℕ} {x : α}
    (hx : x ∈ pages after page rows fuel (rows.filter p)) : p x = true := by
  induction fuel generalizing p with
  | zero => exact absurd hx List.not_mem_nil
  | succ fuel ih =>
    have hbatch : ∀ y ∈ (rows.filter p).take page, p y = true :=
      fun y hy => (List.mem_filter.mp (List.mem_of_mem_take hy)).2
    rw [pages] at hx
    rcases hlast : ((rows.filter p).take page).getLast? with _ | last
    · rw [hlast] at hx
      exact absurd hx List.not_mem_nil
    · simp only [hlast] at hx
      have hplast := hbatch last (List.mem_of_getLast? hlast)
      split_ifs at hx
      · exact hbatch x hx
      · rcases List.mem_append.mp hx with hx | hx
        · exact hbatch x hx
        · exact hp last x hplast (ih (closed_after htrans last) hx)

/-- Only rows are read. -/
theorem mem_of_mem_pages {fuel : ℕ} {rest : List α} (hrest : ∀ x ∈ rest, x ∈ rows) {x : α}
    (hx : x ∈ pages after page rows fuel rest) : x ∈ rows := by
  induction fuel generalizing rest with
  | zero => exact absurd hx List.not_mem_nil
  | succ fuel ih =>
    rw [pages] at hx
    rcases hlast : (rest.take page).getLast? with _ | last
    · rw [hlast] at hx
      exact absurd hx List.not_mem_nil
    · simp only [hlast] at hx
      split_ifs at hx
      · exact hrest x (List.mem_of_mem_take hx)
      · rcases List.mem_append.mp hx with hx | hx
        · exact hrest x (List.mem_of_mem_take hx)
        · exact ih (fun y hy => (List.mem_filter.mp hy).1) hx

/-- The first selected row is read first. -/
theorem head?_pages (hpage : 0 < page) {fuel : ℕ} {x : α} {rest : List α} :
    (pages after page rows (fuel + 1) (x :: rest)).head? = some x := by
  obtain ⟨n, rfl⟩ := Nat.exists_eq_add_of_lt hpage
  have htake : (x :: rest).take (0 + n + 1) = x :: rest.take (0 + n) := List.take_succ_cons
  rw [pages, htake, List.getLast?_cons]
  simp only
  split_ifs <;> rfl

/-- If the pages after a cursor are the rows behind its row, the cursor selects these rows. -/
theorem filter_after_eq_drop (hpage : 0 < page) (hnodup : rows.Nodup)
    (htrans : ∀ x y z, after x y = true → after y z = true → after x z = true) {fuel n : ℕ} {b : α}
    (h : pages after page rows (fuel + 1) (rows.filter (after b)) = rows.drop n) :
    rows.filter (after b) = rows.drop n := by
  have hsplit : rows.filter (after b) =
      (rows.take n).filter (after b) ++ (rows.drop n).filter (after b) := by
    rw [← List.filter_append, List.take_append_drop]
  have hdrop : (rows.drop n).filter (after b) = rows.drop n :=
    List.filter_eq_self.mpr fun x hx => of_mem_pages htrans (closed_after htrans b) (h ▸ hx)
  -- a row before the cursor would be the first row of the next page
  have htake : (rows.take n).filter (after b) = [] := by
    by_contra hne
    obtain ⟨y, rest, hy⟩ := List.exists_cons_of_ne_nil hne
    rw [hsplit, hy, List.cons_append] at h
    have hhead : (rows.drop n).head? = some y := h ▸ head?_pages hpage
    have hmem : y ∈ rows.take n :=
      (List.mem_filter.mp (hy ▸ List.mem_cons_self : y ∈ (rows.take n).filter (after b))).1
    have hdisjoint := (List.nodup_append.mp ((List.take_append_drop n rows).symm ▸ hnodup)).2.2
    exact hdisjoint y hmem y (List.mem_of_head? hhead) rfl
  rw [hsplit, htake, hdrop, List.nil_append]

/-- The cursor at the last row of every full page selects what stands behind that row. -/
def Follows (after : α → α → Bool) (page : ℕ) (rows : List α) (j : ℕ) : Prop :=
  ∀ k, j < k → ∀ b, rows[k * page - 1]? = some b → rows.filter (after b) = rows.drop (k * page)

/-- From a page on, the pages are the remaining rows if and only if the cursors follow the list
from there on. -/
theorem pages_drop_iff (hpage : 0 < page) (hnodup : rows.Nodup)
    (htrans : ∀ x y z, after x y = true → after y z = true → after x z = true) {fuel j : ℕ}
    (hfuel : (rows.drop (j * page)).length < fuel) :
    pages after page rows fuel (rows.drop (j * page)) = rows.drop (j * page) ↔
      Follows after page rows j := by
  induction fuel generalizing j with
  | zero => exact absurd hfuel (Nat.not_lt_zero _)
  | succ fuel ih =>
    have hnext : (j + 1) * page = j * page + page := Nat.succ_mul j page
    have hlater (k : ℕ) (hk : j < k) : (j + 1) * page ≤ k * page := Nat.mul_le_mul_right page hk
    have hlength : (rows.drop (j * page)).length = rows.length - j * page := List.length_drop
    have htake : ((rows.drop (j * page)).take page).length =
        min page (rows.length - j * page) := by rw [List.length_take, hlength]
    by_cases hfull : (j + 1) * page ≤ rows.length
    · obtain ⟨last, hlast⟩ : ∃ last, rows[(j + 1) * page - 1]? = some last :=
        ⟨_, List.getElem?_eq_getElem (by omega)⟩
      have hgetLast : ((rows.drop (j * page)).take page).getLast? = some last := by
        rw [List.getLast?_eq_getElem?, htake, List.getElem?_take, if_pos (by omega),
          List.getElem?_drop]
        rw [← hlast]
        congr 1
        omega
      have hrest : rows.drop (j * page) =
          (rows.drop (j * page)).take page ++ rows.drop ((j + 1) * page) := by
        rw [hnext, ← List.drop_drop, List.take_append_drop]
      obtain ⟨fuel, rfl⟩ : ∃ n, fuel = n + 1 := ⟨fuel - 1, by omega⟩
      have hstep : pages after page rows (fuel + 1 + 1) (rows.drop (j * page)) =
          rows.drop (j * page) ↔
            pages after page rows (fuel + 1) (rows.filter (after last)) =
              rows.drop ((j + 1) * page) := by
        rw [pages, hgetLast]
        simp only [htake]
        rw [if_neg (by omega)]
        refine Iff.trans (b := (rows.drop (j * page)).take page ++
          pages after page rows (fuel + 1) (rows.filter (after last)) =
            (rows.drop (j * page)).take page ++ rows.drop ((j + 1) * page)) ?_
          (List.append_right_inj _)
        rw [← hrest]
      rw [hstep]
      constructor
      · intro h
        have hfilter := filter_after_eq_drop hpage hnodup htrans h
        rw [hfilter] at h
        have hfollows := (ih (by rw [List.length_drop]; omega)).mp h
        intro k hk b hb
        rcases Nat.lt_or_ge (j + 1) k with hlt | hge
        · exact hfollows k hlt b hb
        · obtain rfl : k = j + 1 := by omega
          obtain rfl := Option.some.inj (hlast.symm.trans hb)
          exact hfilter
      · intro h
        rw [h (j + 1) (Nat.lt_succ_self j) last hlast]
        refine (ih (by rw [List.length_drop]; omega)).mpr fun k hk => ?_
        exact h k (by omega)
    -- no full page is left: the rows are read and no cursor is used
    · refine iff_of_true ?_ fun k hk b hb => ?_
      · have htakeAll : (rows.drop (j * page)).take page = rows.drop (j * page) :=
          List.take_of_length_le (by omega)
        rw [pages, htakeAll]
        rcases hlast : (rows.drop (j * page)).getLast? with _ | last
        · exact (List.getLast?_eq_none_iff.mp hlast).symm
        · simp only
          rw [if_pos (by omega)]
      · have hle := hlater k hk
        rw [List.getElem?_eq_none (by omega)] at hb
        exact absurd hb (Option.some_ne_none b).symm

/-- **Exactness.** The pages are the rows, each once and in their order, if and only if the cursor
at the last row of every full page selects what stands behind that row. -/
theorem pages_eq_self_iff (hpage : 0 < page) (hnodup : rows.Nodup)
    (htrans : ∀ x y z, after x y = true → after y z = true → after x z = true) {fuel : ℕ}
    (hfuel : rows.length < fuel) :
    pages after page rows fuel rows = rows ↔ Follows after page rows 0 := by
  have h : pages after page rows fuel (rows.drop (0 * page)) = rows.drop (0 * page) ↔
      Follows after page rows 0 := pages_drop_iff hpage hnodup htrans (by simpa using hfuel)
  simpa using h

/-! ### When the cursors follow the list -/

/-- The rows before and behind a row of a sorted list. -/
theorem of_pairwise {R : α → α → Prop} (h : rows.Pairwise R) {n : ℕ} {b : α}
    (hb : rows[n]? = some b) :
    (∀ x ∈ rows.take (n + 1), x = b ∨ R x b) ∧ ∀ x ∈ rows.drop (n + 1), R b x := by
  obtain ⟨hn, rfl⟩ := List.getElem?_eq_some_iff.mp hb
  have hsplit : rows = rows.take n ++ rows[n] :: rows.drop (n + 1) := by
    rw [← List.drop_eq_getElem_cons hn, List.take_append_drop]
  rw [hsplit] at h
  obtain ⟨-, hback, hcross⟩ := List.pairwise_append.mp h
  refine ⟨fun x hx => ?_, (List.pairwise_cons.mp hback).1⟩
  rw [List.take_add_one, List.getElem?_eq_getElem hn, List.mem_append] at hx
  rcases hx with hx | hx
  · exact Or.inr (hcross x hx _ List.mem_cons_self)
  · exact Or.inl (by simpa using hx)

/-- A cursor selects what stands behind a position if and only if it selects nothing before it and
everything behind it. -/
theorem filter_eq_drop_iff (hnodup : rows.Nodup) {p : α → Bool} {n : ℕ} :
    rows.filter p = rows.drop n ↔
      (∀ x ∈ rows.take n, p x = false) ∧ ∀ x ∈ rows.drop n, p x = true := by
  have hsplit : rows.filter p = (rows.take n).filter p ++ (rows.drop n).filter p := by
    rw [← List.filter_append, List.take_append_drop]
  constructor
  · intro h
    refine ⟨fun x hx => ?_, fun x hx => (List.mem_filter.mp (h ▸ hx)).2⟩
    rw [← Bool.not_eq_true]
    intro hp
    have hmem : x ∈ rows.drop n := h ▸ List.mem_filter.mpr ⟨List.mem_of_mem_take hx, hp⟩
    have hdisjoint := (List.nodup_append.mp ((List.take_append_drop n rows).symm ▸ hnodup)).2.2
    exact hdisjoint x hx x hmem rfl
  · rintro ⟨hfront, hback⟩
    rw [hsplit, List.filter_eq_self.mpr hback, List.filter_eq_nil_iff.mpr fun x hx => ?_,
      List.nil_append]
    rw [hfront x hx]
    exact Bool.false_ne_true

/-- Cursors that select by the order of the list follow it. -/
theorem follows_of_pairwise (hpage : 0 < page) (hnodup : rows.Nodup)
    (hirrefl : ∀ x, after x x = false)
    (htrans : ∀ x y z, after x y = true → after y z = true → after x z = true)
    (h : rows.Pairwise fun a b => after a b = true) (j : ℕ) : Follows after page rows j := by
  intro k hk b hb
  obtain ⟨n, hn⟩ : ∃ n, k * page = n + 1 :=
    ⟨k * page - 1, by have := Nat.mul_pos (Nat.zero_lt_of_lt hk) hpage; omega⟩
  rw [hn, Nat.add_sub_cancel] at hb
  obtain ⟨hfront, hback⟩ := of_pairwise h hb
  rw [hn, filter_eq_drop_iff hnodup]
  refine ⟨fun x hx => ?_, hback⟩
  rcases hfront x hx with rfl | hbefore
  · exact hirrefl x
  · rw [← Bool.not_eq_true]
    intro hafter
    have hself := htrans x b x hbefore hafter
    rw [hirrefl] at hself
    exact Bool.false_ne_true hself

end Keyset
