import Mathlib.Data.List.Induction
import Mathlib.Data.List.Nodup

/-!
# Dictionaries in insertion order

A dictionary as the list of its entries. Setting a key that is present replaces the value in
place; any other key is appended.

* `get_set`, `get_erase`: what is read after a key has been set or erased.
* `get_update`: what is read after an update with distinct keys.
* `ofList_eq_self`: entries with distinct keys are kept as they are.
* `mem_ofList_iff`: of the entries for one key the last counts.
* `perm_map_of_get`: what is made of the entries, whatever their order.
* `Rel.update`: updates of dictionaries with related values.
* `ofList_mapKeys`: renaming the keys one to one commutes with building a dictionary.
-/

namespace Dict

variable {κ ν : Type*} [DecidableEq κ]

/-- `d.get(k)`. -/
def get : List (κ × ν) → κ → Option ν
  | [], _ => none
  | e :: d, k => if e.1 = k then some e.2 else get d k

/-- `d[k] = v`. -/
def set : List (κ × ν) → κ → ν → List (κ × ν)
  | [], k, v => [(k, v)]
  | e :: d, k, v => if e.1 = k then (k, v) :: d else e :: set d k v

/-- `d.update(entries)`. -/
def update (d entries : List (κ × ν)) : List (κ × ν) := entries.foldl (fun d e => set d e.1 e.2) d

/-- `d.pop(k, None)`, by what is left. -/
def erase (d : List (κ × ν)) (k : κ) : List (κ × ν) := d.filter fun e => e.1 ≠ k

/-- The dictionary with the given entries, of which the last for a key counts. -/
def ofList (entries : List (κ × ν)) : List (κ × ν) := update [] entries

theorem get_set (d : List (κ × ν)) (k : κ) (v : ν) (k' : κ) :
    get (set d k v) k' = if k = k' then some v else get d k' := by
  induction d with
  | nil => rfl
  | cons e d ih =>
    rw [set, get]
    by_cases he : e.1 = k
    · rw [if_pos he, get, he]
      split_ifs <;> rfl
    · rw [if_neg he, get, ih]
      by_cases h : k = k'
      · rw [if_pos h, if_pos h, if_neg (h ▸ he)]
      · rw [if_neg h, if_neg h]

theorem get_erase (d : List (κ × ν)) (k k' : κ) :
    get (erase d k) k' = if k = k' then none else get d k' := by
  induction d with
  | nil => exact (ite_self none).symm
  | cons e d ih =>
    by_cases he : e.1 = k
    · have hfilter : erase (e :: d) k = erase d k := List.filter_cons_of_neg (by simpa using he)
      rw [hfilter, ih, get, he]
      split_ifs <;> rfl
    · have hfilter : erase (e :: d) k = e :: erase d k :=
        List.filter_cons_of_pos (by simpa using he)
      rw [hfilter, get, ih, get]
      by_cases h : k = k'
      · rw [if_pos h, if_pos h, if_neg (h ▸ he)]
      · rw [if_neg h, if_neg h]

/-- Of two assignments to one key the last counts. -/
theorem set_set (d : List (κ × ν)) (k : κ) (v v' : ν) : set (set d k v) k v' = set d k v' := by
  induction d with
  | nil => exact if_pos rfl
  | cons e d ih =>
    by_cases he : e.1 = k
    · rw [set, if_pos he, set, if_pos rfl, set, if_pos he]
    · rw [set, if_neg he, set, if_neg he, ih, set, if_neg he]

variable {d : List (κ × ν)}

/-- Assigning what is there changes nothing. -/
theorem set_eq_self {k : κ} {v : ν} (h : get d k = some v) : set d k v = d := by
  induction d with
  | nil => exact absurd h (Option.some_ne_none v).symm
  | cons e d ih =>
    rw [get] at h
    by_cases he : e.1 = k
    · rw [if_pos he] at h
      rw [set, if_pos he, ← he, ← Option.some.inj h]
    · rw [if_neg he] at h
      rw [set, if_neg he, ih h]

/-- Assignments to different keys commute, if the key assigned to last was there. -/
theorem set_comm {k k' : κ} (hne : k ≠ k') (h : k' ∈ d.map Prod.fst) (v v' : ν) :
    set (set d k v) k' v' = set (set d k' v') k v := by
  induction d with
  | nil => exact absurd h List.not_mem_nil
  | cons e d ih =>
    by_cases hlast : e.1 = k'
    · have hfirst : e.1 ≠ k := fun heq => hne (heq.symm.trans hlast)
      rw [set, if_neg hfirst, set, if_pos hlast, set, if_pos hlast, set, if_neg (Ne.symm hne)]
    · have h : k' ∈ d.map Prod.fst := (List.mem_cons.mp h).resolve_left (Ne.symm hlast)
      rw [set, set, if_neg hlast]
      by_cases hfirst : e.1 = k
      · rw [if_pos hfirst, set, if_neg hne, set, if_pos hfirst]
      · rw [if_neg hfirst, set, if_neg hlast, set, if_neg hfirst, ih h]

/-- A new key is appended. -/
theorem set_of_not_mem {k : κ} (h : k ∉ d.map Prod.fst) (v : ν) : set d k v = d ++ [(k, v)] := by
  induction d with
  | nil => rfl
  | cons e d ih =>
    obtain ⟨he, hd⟩ := not_or.mp (mt List.mem_cons.mpr h)
    rw [set, if_neg (Ne.symm he), ih hd, List.cons_append]

/-- Entries with new, distinct keys are appended. -/
theorem update_of_nodup {d entries : List (κ × ν)}
    (h : ((d ++ entries).map Prod.fst).Nodup) : update d entries = d ++ entries := by
  induction entries generalizing d with
  | nil => exact (List.append_nil d).symm
  | cons e entries ih =>
    have hd : d ++ e :: entries = (d ++ [e]) ++ entries := List.append_cons d e entries
    have hnew : e.1 ∉ d.map Prod.fst := by
      rw [List.map_append, List.map_cons] at h
      exact fun hmem => (List.nodup_append.mp h).2.2 e.1 hmem e.1 List.mem_cons_self rfl
    rw [update, List.foldl_cons, set_of_not_mem hnew, hd]
    exact ih (hd ▸ h)

variable {entries : List (κ × ν)}

/-- Entries with distinct keys are kept as they are. -/
theorem ofList_eq_self (h : (entries.map Prod.fst).Nodup) : ofList entries = entries :=
  update_of_nodup (by simpa using h)

/-- In a dictionary with distinct keys every entry is the one that is read. -/
theorem get_eq_some_iff (h : (d.map Prod.fst).Nodup) {k : κ} {v : ν} :
    get d k = some v ↔ (k, v) ∈ d := by
  induction d with
  | nil => simp [get]
  | cons e d ih =>
    obtain ⟨hnew, hd⟩ := List.nodup_cons.mp h
    rw [get, List.mem_cons]
    by_cases hk : e.1 = k
    · have hnot : (k, v) ∉ d := fun hmem => hnew (hk ▸ List.mem_map_of_mem hmem)
      rw [if_pos hk, Option.some.injEq, Prod.ext_iff]
      simp [hk, hnot, eq_comm]
    · have hne : (k, v) ≠ e := fun h' => hk (congrArg Prod.fst h').symm
      rw [if_neg hk, ih hd]
      simp [hne]

/-- What is read does not depend on the order of the entries. -/
theorem get_eq_of_perm {d d' : List (κ × ν)} (h : (d.map Prod.fst).Nodup) (hperm : d.Perm d')
    (k : κ) : get d k = get d' k := by
  have h' : (d'.map Prod.fst).Nodup := (hperm.map Prod.fst).nodup h
  refine Option.ext fun v => ?_
  rw [get_eq_some_iff h, get_eq_some_iff h', hperm.mem_iff]

/-- What is read is an entry. -/
theorem mem_of_get_eq_some {k : κ} {v : ν} (h : get d k = some v) : (k, v) ∈ d := by
  induction d with
  | nil => exact absurd h (Option.some_ne_none v).symm
  | cons e d ih =>
    rw [get] at h
    split_ifs at h with he
    · rw [← he, ← Option.some.inj h]
      exact List.mem_cons_self
    · exact List.mem_cons_of_mem e (ih h)

/-- Reading a dictionary whose values were mapped. -/
theorem get_mapValues {μ : Type*} (f : ν → μ) (d : List (κ × ν)) (k : κ) :
    get (d.map fun e => (e.1, f e.2)) k = (get d k).map f := by
  induction d with
  | nil => rfl
  | cons e d ih =>
    rw [List.map_cons, get, get, ih]
    split_ifs <;> rfl

theorem get_eq_none_iff {k : κ} : get d k = none ↔ k ∉ d.map Prod.fst := by
  induction d with
  | nil => simp [get]
  | cons e d ih =>
    rw [get, List.map_cons, List.mem_cons, not_or]
    by_cases hk : e.1 = k
    · simp [hk]
    · simp [hk, ih, Ne.symm hk]

/-- A key that is set is a key that is there after. -/
theorem mem_keys_set {k : κ} {v : ν} {k' : κ} :
    k' ∈ (set d k v).map Prod.fst ↔ k' = k ∨ k' ∈ d.map Prod.fst := by
  rw [← not_iff_not, ← get_eq_none_iff, get_set, not_or, ← get_eq_none_iff]
  by_cases h : k = k'
  · simp [h]
  · simp [h, Ne.symm h]

theorem mem_of_mem_set {k : κ} {v : ν} {e : κ × ν} (h : e ∈ set d k v) : e = (k, v) ∨ e ∈ d := by
  induction d with
  | nil => exact Or.inl (List.mem_singleton.mp h)
  | cons first d ih =>
    rw [set] at h
    split_ifs at h
    · exact (List.mem_cons.mp h).imp_right (List.mem_cons_of_mem first)
    · obtain rfl | hrest := List.mem_cons.mp h
      · exact Or.inr List.mem_cons_self
      · exact (ih hrest).imp_right (List.mem_cons_of_mem first)

/-- What is in a dictionary after an update was there, or is one of the entries. -/
theorem mem_of_mem_update {d entries : List (κ × ν)} {e : κ × ν} (h : e ∈ update d entries) :
    e ∈ d ∨ e ∈ entries := by
  induction entries generalizing d with
  | nil => exact Or.inl h
  | cons first entries ih =>
    obtain hset | hrest := ih (d := set d first.1 first.2) h
    · exact (mem_of_mem_set hset).symm.imp_right fun heq => List.mem_cons.mpr (Or.inl heq)
    · exact Or.inr (List.mem_cons_of_mem first hrest)

/-- What is in a dictionary is one of the entries it was built from. -/
theorem mem_of_mem_ofList {e : κ × ν} (h : e ∈ ofList entries) : e ∈ entries :=
  (mem_of_mem_update h).resolve_left List.not_mem_nil

/-- The keys after an update. -/
theorem mem_keys_update {d entries : List (κ × ν)} {k : κ} :
    k ∈ (update d entries).map Prod.fst ↔ k ∈ d.map Prod.fst ∨ k ∈ entries.map Prod.fst := by
  induction entries generalizing d with
  | nil => simp [update]
  | cons e entries ih =>
    have hcons : update d (e :: entries) = update (set d e.1 e.2) entries := rfl
    rw [hcons, ih, mem_keys_set, List.map_cons, List.mem_cons]
    simp only [or_assoc, or_left_comm]

theorem mem_keys_ofList {k : κ} : k ∈ (ofList entries).map Prod.fst ↔ k ∈ entries.map Prod.fst := by
  rw [ofList, mem_keys_update]
  simp

theorem nodup_keys_set (h : (d.map Prod.fst).Nodup) (k : κ) (v : ν) :
    ((set d k v).map Prod.fst).Nodup := by
  by_cases hk : k ∈ d.map Prod.fst
  · have hkeys : (set d k v).map Prod.fst = d.map Prod.fst := by
      clear h
      induction d with
      | nil => exact absurd hk List.not_mem_nil
      | cons e d ih =>
        rw [set]
        split_ifs with he
        · rw [List.map_cons, List.map_cons, he]
        · have hmem := (List.mem_cons.mp hk).resolve_left (Ne.symm he)
          rw [List.map_cons, List.map_cons, ih hmem]
    rw [hkeys]
    exact h
  · rw [set_of_not_mem hk, List.map_append]
    refine List.nodup_append.mpr ⟨h, List.nodup_singleton k, fun a ha b hb => ?_⟩
    obtain rfl : b = k := List.mem_singleton.mp hb
    exact fun heq => hk (heq ▸ ha)

theorem nodup_keys_update (h : (d.map Prod.fst).Nodup) (entries : List (κ × ν)) :
    ((update d entries).map Prod.fst).Nodup := by
  induction entries generalizing d with
  | nil => exact h
  | cons e entries ih => exact ih (nodup_keys_set h e.1 e.2)

theorem nodup_keys_ofList (entries : List (κ × ν)) : ((ofList entries).map Prod.fst).Nodup :=
  nodup_keys_update (d := []) List.nodup_nil entries

/-- After a key has been set, it has its new value and the other entries are there. -/
theorem mem_set_iff (h : (d.map Prod.fst).Nodup) {k : κ} {v : ν} {e : κ × ν} :
    e ∈ set d k v ↔ e = (k, v) ∨ (e ∈ d ∧ e.1 ≠ k) := by
  obtain ⟨k', v'⟩ := e
  rw [← get_eq_some_iff (nodup_keys_set h k v), get_set, ← get_eq_some_iff h]
  by_cases hk : k = k'
  · simp [hk, eq_comm]
  · simp [hk, Ne.symm hk]

/-- **The last entry for a key counts.** -/
theorem mem_ofList_iff {e : κ × ν} :
    e ∈ ofList entries ↔
      ∃ before after, entries = before ++ e :: after ∧ e.1 ∉ after.map Prod.fst := by
  induction entries using List.reverseRecOn with
  | nil => simp [ofList, update]
  | append_singleton entries last ih =>
    have hlast : ofList (entries ++ [last]) = set (ofList entries) last.1 last.2 := by
      rw [ofList, update, List.foldl_append]
      rfl
    rw [hlast, mem_set_iff (nodup_keys_ofList entries), ih]
    constructor
    · rintro (rfl | ⟨⟨before, after, rfl, hafter⟩, hne⟩)
      · exact ⟨entries, [], rfl, List.not_mem_nil⟩
      · exact ⟨before, after ++ [last], by simp, by simpa [hne] using hafter⟩
    · rintro ⟨before, after, hsplit, hafter⟩
      obtain rfl | ⟨after, final, rfl⟩ := after.eq_nil_or_concat
      · exact Or.inl (List.append_inj' hsplit rfl |>.2 |> List.singleton_inj.mp).symm
      · have hsplit : entries ++ [last] = (before ++ e :: after) ++ [final] := by
          simpa using hsplit
        obtain ⟨rfl, heq⟩ := List.append_inj' hsplit rfl
        obtain rfl := List.singleton_inj.mp heq
        simp only [List.concat_eq_append, List.map_append, List.mem_append, not_or] at hafter
        exact Or.inr ⟨⟨before, after, rfl, hafter.1⟩, by simpa using hafter.2⟩

/-- After an update a key has its new value, and without one its old. -/
theorem get_update (h : (entries.map Prod.fst).Nodup) (d : List (κ × ν)) (k : κ) :
    get (update d entries) k = (get entries k).or (get d k) := by
  induction entries generalizing d with
  | nil => rfl
  | cons e entries ih =>
    obtain ⟨hnew, hrest⟩ := List.nodup_cons.mp h
    have hcons : update d (e :: entries) = update (set d e.1 e.2) entries := rfl
    rw [hcons, ih hrest, get_set, get]
    split_ifs with he
    · rw [get_eq_none_iff.mpr (he ▸ hnew), Option.none_or, Option.some_or]
    · rfl

/-- What is made of the entries does not depend on their order: two dictionaries that give the same
for every key give the same. -/
theorem perm_map_of_get {ρ : Type*} {f : κ → ν → ρ} {d d' : List (κ × ν)}
    (hd : (d.map Prod.fst).Nodup) (hd' : (d'.map Prod.fst).Nodup)
    (h : ∀ k, (get d k).map (f k) = (get d' k).map (f k)) :
    (d.map fun e => f e.1 e.2).Perm (d'.map fun e => f e.1 e.2) := by
  let entry (e : κ × ν) : κ × ρ := (e.1, f e.1 e.2)
  have hmem : ∀ d : List (κ × ν), (d.map Prod.fst).Nodup → ∀ k r,
      (k, r) ∈ d.map entry ↔ (get d k).map (f k) = some r := by
    intro d hd k r
    rw [Option.map_eq_some_iff, List.mem_map]
    constructor
    · rintro ⟨⟨k', v⟩, hmem, heq⟩
      obtain ⟨rfl, rfl⟩ := Prod.mk.inj heq
      exact ⟨v, (get_eq_some_iff hd).mpr hmem, rfl⟩
    · rintro ⟨v, hget, rfl⟩
      exact ⟨(k, v), (get_eq_some_iff hd).mp hget, rfl⟩
  have hnodup : ∀ d : List (κ × ν), (d.map Prod.fst).Nodup → (d.map entry).Nodup := by
    intro d hd
    refine List.Nodup.of_map Prod.fst ?_
    rw [List.map_map]
    exact hd
  have hperm : (d.map entry).Perm (d'.map entry) := by
    rw [List.perm_ext_iff_of_nodup (hnodup d hd) (hnodup d' hd')]
    rintro ⟨k, r⟩
    rw [hmem d hd, hmem d' hd', h]
  have hvalues := hperm.map Prod.snd
  rw [List.map_map, List.map_map] at hvalues
  exact hvalues

/-! ### Related values -/

section Related

variable {ν' : Type*} {R : ν → ν' → Prop}

/-- Dictionaries with the same keys in the same order, whose values are related. -/
def Rel (R : ν → ν' → Prop) : List (κ × ν) → List (κ × ν') → Prop :=
  List.Forall₂ fun e e' => e.1 = e'.1 ∧ R e.2 e'.2

theorem Rel.set {d' : List (κ × ν')} (h : Rel R d d') (k : κ) {v : ν} {v' : ν'} (hv : R v v') :
    Rel R (set d k v) (set d' k v') := by
  induction h with
  | nil => exact List.Forall₂.cons ⟨rfl, hv⟩ List.Forall₂.nil
  | @cons e e' d d' he hd ih =>
    rw [Dict.set, Dict.set, ← he.1]
    split_ifs
    · exact List.Forall₂.cons ⟨rfl, hv⟩ hd
    · exact List.Forall₂.cons he ih

/-- **Updates.** Related entries keep related dictionaries related. -/
theorem Rel.update {d' : List (κ × ν')} (h : Rel R d d') {entries' : List (κ × ν')}
    (hentries : Rel R entries entries') :
    Rel R (update d entries) (update d' entries') := by
  induction hentries generalizing d d' with
  | nil => exact h
  | @cons e e' entries entries' he _ ih =>
    have hset : Rel R (Dict.set d e.1 e.2) (Dict.set d' e'.1 e'.2) := he.1 ▸ h.set e.1 he.2
    exact ih hset

end Related

/-! ### Renaming keys -/

section MapKeys

variable {κ' : Type*}

/-- The dictionary with its keys renamed. -/
def mapKeys (f : κ → κ') (d : List (κ × ν)) : List (κ' × ν) := d.map fun e => (f e.1, e.2)

omit [DecidableEq κ] in
theorem keys_mapKeys (f : κ → κ') (d : List (κ × ν)) :
    (mapKeys f d).map Prod.fst = (d.map Prod.fst).map f := by
  rw [mapKeys, List.map_map, List.map_map]
  rfl

variable [DecidableEq κ'] {f : κ → κ'} (hf : Function.Injective f)

include hf

theorem get_mapKeys (d : List (κ × ν)) (k : κ) : get (mapKeys f d) (f k) = get d k := by
  induction d with
  | nil => rfl
  | cons e d ih =>
    have ih : get (d.map fun e => (f e.1, e.2)) (f k) = get d k := ih
    simp only [mapKeys, List.map_cons, get, ih, hf.eq_iff]

theorem set_mapKeys (d : List (κ × ν)) (k : κ) (v : ν) :
    set (mapKeys f d) (f k) v = mapKeys f (set d k v) := by
  induction d with
  | nil => rfl
  | cons e d ih =>
    have ih : set (d.map fun e => (f e.1, e.2)) (f k) v = mapKeys f (set d k v) := ih
    simp only [mapKeys, List.map_cons, set, hf.eq_iff, ih]
    split_ifs <;> rfl

/-- Renaming the keys one to one commutes with building a dictionary. -/
theorem ofList_mapKeys (entries : List (κ × ν)) :
    ofList (mapKeys f entries) = mapKeys f (ofList entries) := by
  have hupdate : ∀ entries d : List (κ × ν),
      update (mapKeys f d) (mapKeys f entries) = mapKeys f (update d entries) := by
    intro entries
    induction entries with
    | nil => exact fun _ => rfl
    | cons e entries ih =>
      intro d
      have hcons : update (mapKeys f d) (mapKeys f (e :: entries)) =
          update (set (mapKeys f d) (f e.1) e.2) (mapKeys f entries) := rfl
      rw [hcons, set_mapKeys hf, ih]
      rfl
  exact hupdate entries []

end MapKeys

end Dict
