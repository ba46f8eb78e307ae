import AnonReq.Foundation.Dict
import Mathlib.Order.Lattice

/-!
# Grouping by key

Items are put into a dictionary one after the other: the first item of a key begins a group, and
every item is added to the group of its key.

* `get_groups`: a group is made of the items of its key, in their order.
* `foldlM_insertM`: a loop whose additions may fail makes the groups, if none of them does.
* `perm_map_groups`: what is made of the groups does not depend on the order of the items, if what
  is made of each group does not.
* `get_foldl_upsert`: where each item makes or changes an entry, the items of its key make it.
* `exists_foldl_least`, `foldl_least_eq_of_perm`: a loop that keeps the least item ends with one of
  them, whatever their order is.
-/

namespace Grouping

variable {α κ ν : Type*} [DecidableEq κ] (key : α → κ) (start : α → ν) (add : ν → α → ν)

/-- One item. -/
def insert (d : List (κ × ν)) (a : α) : List (κ × ν) :=
  Dict.set d (key a) (add ((Dict.get d (key a)).getD (start a)) a)

/-- One item, where the addition may fail. -/
def insertM (add? : ν → α → Option ν) (d : List (κ × ν)) (a : α) : Option (List (κ × ν)) :=
  (add? ((Dict.get d (key a)).getD (start a)) a).map (Dict.set d (key a))

/-- The groups of some items. -/
def groups (items : List α) : List (κ × ν) := items.foldl (insert key start add) []

/-- One group, from its items. -/
def summary (items : List α) : Option ν := items.head?.map fun a => items.foldl add (start a)

variable {key start add}

theorem groups_concat (items : List α) (a : α) :
    groups key start add (items ++ [a]) = insert key start add (groups key start add items) a := by
  rw [groups, List.foldl_append]
  rfl

theorem summary_concat (items : List α) (a : α) :
    summary start add (items ++ [a]) = some (add ((summary start add items).getD (start a)) a) := by
  cases items with
  | nil => rfl
  | cons first items => simp [summary]

/-- **A group** is made of the items of its key. -/
theorem get_groups (items : List α) (k : κ) :
    Dict.get (groups key start add items) k =
      summary start add (items.filter fun a => key a = k) := by
  induction items using List.reverseRecOn with
  | nil => rfl
  | append_singleton items a ih =>
    rw [groups_concat, insert, Dict.get_set, List.filter_append]
    split_ifs with hk
    · rw [hk, ih, List.filter_cons_of_pos (by simpa using hk), List.filter_nil, summary_concat]
    · rw [List.filter_cons_of_neg (by simpa using hk), List.filter_nil, List.append_nil, ih]

theorem nodup_keys_groups (items : List α) :
    ((groups key start add items).map Prod.fst).Nodup := by
  induction items using List.reverseRecOn with
  | nil => exact List.nodup_nil
  | append_singleton items a ih =>
    rw [groups_concat]
    exact Dict.nodup_keys_set ih _ _

/-- **No addition fails** where the groups keep a property. -/
theorem foldlM_insertM {add? : ν → α → Option ν} {P : ν → Prop} {items : List α}
    (hstart : ∀ a ∈ items, P (start a))
    (hadd : ∀ a ∈ items, ∀ v, P v → add? v a = some (add v a) ∧ P (add v a)) :
    items.foldlM (insertM key start add?) [] = some (groups key start add items) ∧
      ∀ e ∈ groups key start add items, P e.2 := by
  induction items using List.reverseRecOn with
  | nil => exact ⟨rfl, fun e he => absurd he List.not_mem_nil⟩
  | append_singleton items a ih =>
    have ha : a ∈ items ++ [a] := List.mem_append_right items (List.mem_singleton_self a)
    obtain ⟨hfold, hall⟩ := ih (fun b hb => hstart b (List.mem_append_left [a] hb))
      fun b hb => hadd b (List.mem_append_left [a] hb)
    have hbefore : P ((Dict.get (groups key start add items) (key a)).getD (start a)) := by
      rcases hget : Dict.get (groups key start add items) (key a) with _ | v
      · exact hstart a ha
      · exact hall _ (Dict.mem_of_get_eq_some hget)
    obtain ⟨hsome, hafter⟩ := hadd a ha _ hbefore
    refine ⟨?_, fun e he => ?_⟩
    · rw [List.foldlM_append, hfold, groups_concat]
      simp [insertM, insert, hsome]
    · rw [groups_concat] at he
      obtain rfl | he := Dict.mem_of_mem_set he
      · exact hafter
      · exact hall e he

/-- **The order of the items** makes no difference to what is made of the groups, if it makes none
to what is made of each. -/
theorem perm_map_groups {ρ : Type*} {f : κ → ν → ρ} {items items' : List α}
    (h : ∀ k, (summary start add (items.filter fun a => key a = k)).map (f k) =
      (summary start add (items'.filter fun a => key a = k)).map (f k)) :
    ((groups key start add items).map fun e => f e.1 e.2).Perm
      ((groups key start add items').map fun e => f e.1 e.2) := by
  refine Dict.perm_map_of_get (nodup_keys_groups items) (nodup_keys_groups items') fun k => ?_
  rw [get_groups, get_groups]
  exact h k

/-! ### Items that change the entry of their key -/

section

variable (key? : α → Option κ) (see : Option ν → α → ν)

/-- One item, which makes or changes the entry of its key, if it has one. -/
def upsert (d : List (κ × ν)) (a : α) : List (κ × ν) :=
  match key? a with
  | none => d
  | some k => Dict.set d k (see (Dict.get d k) a)

variable {key? see}

/-- **An entry** is made by the items of its key. -/
theorem get_foldl_upsert (items : List α) (d : List (κ × ν)) (k : κ) :
    Dict.get (items.foldl (upsert key? see) d) k =
      (items.filter fun a => key? a = some k).foldl (fun v a => some (see v a)) (Dict.get d k) := by
  induction items generalizing d with
  | nil => rfl
  | cons a items ih =>
    rw [List.foldl_cons, ih, upsert]
    cases hkey : key? a with
    | none =>
      rw [List.filter_cons_of_neg (by simp [hkey])]
    | some k' =>
      rw [Dict.get_set]
      split_ifs with hk
      · subst hk
        rw [List.filter_cons_of_pos (by simp [hkey]), List.foldl_cons]
      · rw [List.filter_cons_of_neg (by simpa [hkey] using hk)]

/-- What the items make of entries is kept, with the keys. -/
theorem foldl_upsert_induction {P : κ → ν → Prop}
    (hnew : ∀ a k, key? a = some k → P k (see none a))
    (hold : ∀ a k v, key? a = some k → P k v → P k (see (some v) a)) (items : List α)
    {d : List (κ × ν)} (hd : ∀ e ∈ d, P e.1 e.2) (hnodup : (d.map Prod.fst).Nodup) :
    (∀ e ∈ items.foldl (upsert key? see) d, P e.1 e.2) ∧
      ((items.foldl (upsert key? see) d).map Prod.fst).Nodup := by
  induction items generalizing d with
  | nil => exact ⟨hd, hnodup⟩
  | cons a items ih =>
    rw [List.foldl_cons, upsert]
    cases hkey : key? a with
    | none => exact ih hd hnodup
    | some k =>
      refine ih (fun e he => ?_) (Dict.nodup_keys_set hnodup _ _)
      obtain rfl | he := Dict.mem_of_mem_set he
      · cases hget : Dict.get d k with
        | none => exact hnew a k hkey
        | some v => exact hold a k v hkey (hd _ (Dict.mem_of_get_eq_some hget))
      · exact hd e he

end

/-- The values of a dictionary that say their own keys. -/
theorem filter_values {name : ν → κ} {d : List (κ × ν)} (hname : ∀ e ∈ d, name e.2 = e.1)
    (hnodup : (d.map Prod.fst).Nodup) (k : κ) :
    (d.map Prod.snd).filter (fun v => name v = k) = (Dict.get d k).toList := by
  induction d with
  | nil => rfl
  | cons e d ih =>
    obtain ⟨he, hd⟩ := List.forall_mem_cons.mp hname
    obtain ⟨hnotin, hnodup⟩ := List.nodup_cons.mp hnodup
    rw [List.map_cons, Dict.get]
    split_ifs with hk
    · have hnone : Dict.get d k = none := Dict.get_eq_none_iff.mpr (hk ▸ hnotin)
      rw [List.filter_cons_of_pos (by simp [he, hk]), ih hd hnodup, hnone]
      rfl
    · rw [List.filter_cons_of_neg (by simpa [he] using hk), ih hd hnodup]

/-! ### The least item -/

/-- **The least item** is what remains of a loop that keeps the lesser one. -/
theorem exists_foldl_least {σ τ : Type*} [LinearOrder τ] (time : σ → τ) (first : σ)
    (items : List σ) :
    items.foldl (fun least s => if time s < time least then s else least) first ∈ first :: items ∧
      ∀ s ∈ first :: items,
        time (items.foldl (fun least s => if time s < time least then s else least) first) ≤
          time s := by
  induction items generalizing first with
  | nil => simp
  | cons next items ih =>
    rw [List.foldl_cons]
    split_ifs with hlt
    · obtain ⟨hmem, hle⟩ := ih next
      refine ⟨List.mem_cons_of_mem first hmem, List.forall_mem_cons.mpr ⟨?_, hle⟩⟩
      exact le_trans (hle next List.mem_cons_self) (le_of_lt hlt)
    · obtain ⟨hmem, hle⟩ := ih first
      obtain ⟨hfirst, hle⟩ := List.forall_mem_cons.mp hle
      refine ⟨?_, List.forall_mem_cons.mpr ⟨hfirst, List.forall_mem_cons.mpr ⟨?_, hle⟩⟩⟩
      · obtain hfound | hfound := List.mem_cons.mp hmem
        · exact List.mem_cons.mpr (Or.inl hfound)
        · exact List.mem_cons_of_mem first (List.mem_cons_of_mem next hfound)
      · exact le_trans hfirst (not_lt.mp hlt)

/-- **The order** in which the least item is looked for makes no difference, where the items differ
in what they are compared by. -/
theorem foldl_least_eq_of_perm {σ τ : Type*} [LinearOrder τ] {time : σ → τ} {items items' : List σ}
    (hperm : items.Perm items')
    (hinj : ∀ a ∈ items, ∀ b ∈ items, time a = time b → a = b) {first first' : σ}
    (hfirst : first ∈ items) (hfirst' : first' ∈ items') :
    items.foldl (fun least s => if time s < time least then s else least) first =
      items'.foldl (fun least s => if time s < time least then s else least) first' := by
  obtain ⟨hmem, hle⟩ := exists_foldl_least time first items
  obtain ⟨hmem', hle'⟩ := exists_foldl_least time first' items'
  have hitems : ∀ {s}, s ∈ first :: items → s ∈ items := fun hs =>
    (List.mem_cons.mp hs).elim (fun h => h ▸ hfirst) id
  have hitems' : ∀ {s}, s ∈ first' :: items' → s ∈ items := fun hs =>
    hperm.mem_iff.mpr ((List.mem_cons.mp hs).elim (fun h => h ▸ hfirst') id)
  refine hinj _ (hitems hmem) _ (hitems' hmem') (le_antisymm ?_ ?_)
  · exact hle _ (List.mem_cons_of_mem first (hitems' hmem'))
  · exact hle' _ (List.mem_cons_of_mem first' (hperm.mem_iff.mp (hitems hmem)))

end Grouping
