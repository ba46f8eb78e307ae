import AnonReq.Foundation.Dict
import Mathlib.Data.List.MinMax

/-!
# The best entry of every key

A loop over items that keeps, for every key of a dictionary, the best item seen: an item replaces
the one that is kept only if it is strictly better.

* `get_keepBest`: what is kept for a key is the first of the best items of that key.
* `mem_values_keepBest`: the values of the dictionary are what is kept for the keys.
* `argmax_eq_some_iff`: the first of the best items, by the items before and after it.
* `argmax_filterMap`: the best image is the image of the best item.
-/

namespace Dict

variable {κ α β : Type*} [DecidableEq κ] [LinearOrder β]

/-- One turn of the loop. -/
def keep (key : α → κ) (score : α → β) (d : List (κ × α)) (x : α) : List (κ × α) :=
  match get d (key x) with
  | none => set d (key x) x
  | some kept => if score kept < score x then set d (key x) x else d

/-- The loop. -/
def keepBest (key : α → κ) (score : α → β) (d : List (κ × α)) (items : List α) : List (κ × α) :=
  items.foldl (keep key score) d

variable {key : α → κ} {score : α → β}

theorem get_keep (d : List (κ × α)) (x : α) (k : κ) :
    get (keep key score d x) k =
      if key x = k then List.argAux (fun b c => score c < score b) (get d k) x else get d k := by
  rw [keep]
  by_cases hk : key x = k
  · subst hk
    rcases hkept : get d (key x) with _ | kept
    · simp only [if_true, get_set, List.argAux]
    · simp only [if_true, List.argAux]
      split_ifs
      · rw [get_set, if_pos rfl]
      · exact hkept
  · rw [if_neg hk]
    rcases get d (key x) with _ | kept
    · simp only [get_set, if_neg hk]
    · simp only
      split_ifs
      · rw [get_set, if_neg hk]
      · rfl

/-- What is kept for a key is the first of the best items of that key, the one that was there
before coming first. -/
theorem get_keepBest (d : List (κ × α)) (items : List α) (k : κ) :
    get (keepBest key score d items) k =
      List.argmax score ((get d k).toList ++ items.filter fun x => key x = k) := by
  have hfold : get (keepBest key score d items) k = (items.filter fun x => key x = k).foldl
      (List.argAux fun b c => score c < score b) (get d k) := by
    induction items generalizing d with
    | nil => rfl
    | cons x items ih =>
      rw [keepBest, List.foldl_cons]
      refine (ih _).trans ?_
      rw [get_keep]
      by_cases hk : key x = k
      · simp only [List.filter_cons, hk, decide_true, if_true, List.foldl_cons]
      · simp only [List.filter_cons, hk, decide_false, Bool.false_eq_true, if_false]
  rw [hfold]
  rcases get d k with _ | kept <;> rfl

/-- Among items no better than the first one, the first one is kept. -/
theorem argmax_cons_eq_self {a : α} {items : List α} (h : ∀ x ∈ items, score x ≤ score a) :
    List.argmax score (a :: items) = some a := by
  rw [List.argmax_cons]
  rcases hbest : List.argmax score items with _ | best
  · rfl
  · exact if_neg (not_lt_of_ge (h best (List.argmax_mem (Option.mem_def.mpr hbest))))

/-- The item is the first of the best ones: those before it are worse, those after it no better. -/
def FirstBest (score : α → β) (x : α) (items : List α) : Prop :=
  ∃ front back, items = front ++ x :: back ∧ (∀ y ∈ front, score y < score x) ∧
    ∀ y ∈ back, score y ≤ score x

/-- `List.argmax` finds the first of the best items. -/
theorem argmax_eq_some_iff {items : List α} {x : α} :
    List.argmax score items = some x ↔ FirstBest score x items := by
  constructor
  · intro h
    induction items with
    | nil => exact absurd h (Option.some_ne_none x).symm
    | cons a items ih =>
      rw [List.argmax_cons] at h
      rcases hbest : List.argmax score items with _ | best
      · obtain rfl := List.argmax_eq_none.mp hbest
        obtain rfl : a = x := Option.some.inj (by rwa [hbest] at h)
        exact ⟨[], [], rfl, by simp, by simp⟩
      · simp only [hbest] at h
        split_ifs at h with hlt
        · obtain rfl := Option.some.inj h
          obtain ⟨front, back, rfl, hfront, hback⟩ := ih hbest
          exact ⟨a :: front, back, rfl, List.forall_mem_cons.mpr ⟨hlt, hfront⟩, hback⟩
        · obtain rfl := Option.some.inj h
          refine ⟨[], items, rfl, by simp, fun y hy => ?_⟩
          exact (List.le_of_mem_argmax hy (Option.mem_def.mpr hbest)).trans (not_lt.mp hlt)
  · rintro ⟨front, back, rfl, hfront, hback⟩
    induction front with
    | nil => exact argmax_cons_eq_self hback
    | cons a front ih =>
      obtain ⟨ha, hfront⟩ := List.forall_mem_cons.mp hfront
      rw [List.cons_append, List.argmax_cons, ih hfront]
      exact if_pos ha

/-- The best image is the image of the best item, for images as good as what they come from. -/
theorem argmax_filterMap {γ : Type*} {g : α → Option γ} {score' : γ → β}
    (h : ∀ x y, g x = some y → score' y = score x) (items : List α) :
    List.argmax score' (items.filterMap g) =
      (List.argmax score (items.filter fun x => (g x).isSome)).bind g := by
  induction items with
  | nil => rfl
  | cons x items ih =>
    rcases hx : g x with _ | y
    · simp only [List.filterMap_cons, hx, List.filter_cons, Option.isSome_none, Bool.false_eq_true,
        if_false, ih]
    · simp only [List.filterMap_cons, hx, List.filter_cons, Option.isSome_some, if_true,
        List.argmax_cons, ih]
      rcases hbest : List.argmax score (items.filter fun x => (g x).isSome) with _ | best
      · exact hx.symm
      · have hmem := List.argmax_mem (Option.mem_def.mpr hbest)
        obtain ⟨z, hz⟩ := Option.isSome_iff_exists.mp (List.mem_filter.mp hmem).2
        simp only [Option.bind_some, hz, h x y hx, h best z hz]
        split_ifs
        · exact hz.symm
        · exact hx.symm

/-! ### The values -/

theorem nodup_keys_keepBest {d : List (κ × α)} (h : (d.map Prod.fst).Nodup) (items : List α) :
    ((keepBest key score d items).map Prod.fst).Nodup := by
  induction items generalizing d with
  | nil => exact h
  | cons x items ih =>
    refine ih ?_
    rw [keep]
    split
    · exact nodup_keys_set h _ _
    · split_ifs
      · exact nodup_keys_set h _ _
      · exact h

/-- Every entry stands under the key of its value. -/
def Keyed (key : α → κ) (d : List (κ × α)) : Prop := ∀ e ∈ d, e.1 = key e.2

theorem Keyed.set {d : List (κ × α)} (h : Keyed key d) (x : α) : Keyed key (set d (key x) x) := by
  induction d with
  | nil => exact fun e he => by rw [List.mem_singleton.mp he]
  | cons e d ih =>
    obtain ⟨he, hd⟩ := List.forall_mem_cons.mp h
    rw [Dict.set]
    split_ifs
    · exact List.forall_mem_cons.mpr ⟨rfl, hd⟩
    · exact List.forall_mem_cons.mpr ⟨he, ih hd⟩

theorem Keyed.keepBest {d : List (κ × α)} (h : Keyed key d) (items : List α) :
    Keyed key (keepBest key score d items) := by
  induction items generalizing d with
  | nil => exact h
  | cons x items ih =>
    refine ih ?_
    rw [keep]
    split
    · exact h.set x
    · split_ifs
      · exact h.set x
      · exact h

omit [DecidableEq κ] in
/-- The entries are recovered from the values. -/
theorem Keyed.map_values {d : List (κ × α)} (h : Keyed key d) :
    (d.map Prod.snd).map (fun x => (key x, x)) = d := by
  rw [List.map_map]
  nth_rewrite 2 [← List.map_id d]
  exact List.map_congr_left fun e he => Prod.ext (h e he).symm rfl

/-- The values of a dictionary are what is read from it. -/
theorem mem_values_iff {d : List (κ × α)} (h : (d.map Prod.fst).Nodup) {x : α} :
    x ∈ d.map Prod.snd ↔ ∃ k, get d k = some x := by
  simp only [get_eq_some_iff h, List.mem_map, Prod.exists, exists_eq_right]

/-- The values that are kept in the end are the best items of their keys. -/
theorem mem_values_keepBest {d : List (κ × α)} (h : (d.map Prod.fst).Nodup) {items : List α}
    {x : α} : x ∈ (keepBest key score d items).map Prod.snd ↔
      ∃ k, List.argmax score ((get d k).toList ++ items.filter fun y => key y = k) = some x := by
  simp only [mem_values_iff (nodup_keys_keepBest h items), get_keepBest]

end Dict
