import AnonReq.Foundation.Dict
import AnonReq.Foundation.Runs

/-!
# Names numbered by the size of a dictionary

Items are entered into a dictionary one after the other. An item whose value is there already is
passed over; any other gets a name which is made of the item and the size of the dictionary.

* `Extends` says that no key changes its value.
* `along_enter_iff`: no step changes the value of a key if and only if no name is a key of the
  dictionary that was there at the start (`Free`).
* `exec_enter_spec`: then the keys that are there at the end have the value of every item, and a
  new key has its value for itself.
-/

namespace Numbering

open Runs

variable {κ ν ρ : Type*}

/-! ### Names -/

section

variable [DecidableEq ν] (name : ρ → ℕ → κ) (value : ρ → ν)

/-- The items whose values are not known, the first one for each value. -/
def fresh (known : List ν) : List ρ → List ρ
  | [] => []
  | item :: items =>
    if value item ∈ known then fresh known items
    else item :: fresh (known ++ [value item]) items

/-- The names of the fresh items, numbered from the size of the dictionary on. -/
def names (d : List (κ × ν)) (items : List ρ) : List κ :=
  (fresh value (d.map Prod.snd) items).mapIdx fun i item => name item (d.length + i)

/-- No name of a fresh item is a key already. -/
def Free (d : List (κ × ν)) (items : List ρ) : Prop :=
  ∀ k ∈ names name value d items, k ∉ d.map Prod.fst

variable {name value} {d : List (κ × ν)} {item : ρ} {items : List ρ}

theorem names_cons_of_mem (h : value item ∈ d.map Prod.snd) :
    names name value d (item :: items) = names name value d items := by
  rw [names, fresh, if_pos h, names]

/-- After a name of its own has been appended for an item, the other names are what they were. -/
theorem names_cons_of_not_mem (h : value item ∉ d.map Prod.snd) :
    names name value d (item :: items) = name item d.length ::
      names name value (d ++ [(name item d.length, value item)]) items := by
  rw [names, fresh, if_neg h, List.mapIdx_cons, names, List.map_append, List.length_append]
  refine congrArg₂ List.cons rfl ?_
  refine congrArg (fun f => List.mapIdx f _) (funext₂ fun i item => ?_)
  rw [List.length_singleton, Nat.add_assoc, Nat.add_comm 1 i]

/-- Names have numbers from the size of the dictionary on. -/
theorem exists_of_mem_names {k : κ} (h : k ∈ names name value d items) :
    ∃ item' i, k = name item' (d.length + i) := by
  obtain ⟨i, hi, rfl⟩ := List.mem_mapIdx.mp h
  exact ⟨_, i, rfl⟩

theorem free_cons_of_mem (h : value item ∈ d.map Prod.snd) :
    Free name value d (item :: items) ↔ Free name value d items := by
  rw [Free, names_cons_of_mem h, Free]

/-- **The next names.** The number tells the name that was appended from those that come. -/
theorem free_cons_of_not_mem (hname : ∀ item item' m n, name item m = name item' n → m = n)
    (h : value item ∉ d.map Prod.snd) :
    Free name value d (item :: items) ↔ name item d.length ∉ d.map Prod.fst ∧
      Free name value (d ++ [(name item d.length, value item)]) items := by
  rw [Free, names_cons_of_not_mem h, List.forall_mem_cons, Free]
  refine and_congr_right fun _ => forall₂_congr fun k hk => ?_
  obtain ⟨item', i, rfl⟩ := exists_of_mem_names hk
  rw [List.map_append, List.mem_append, not_or, iff_self_and]
  intro _ hmem
  rw [List.length_append, List.map_singleton, List.mem_singleton] at hmem
  have hnumber := hname _ _ _ _ hmem
  rw [List.length_singleton] at hnumber
  omega

end

/-! ### Extended dictionaries -/

variable [DecidableEq κ]

/-- No key of `d` has another value in `d'`. -/
def Extends (d d' : List (κ × ν)) : Prop := ∀ k v, Dict.get d k = some v → Dict.get d' k = some v

theorem Extends.refl (d : List (κ × ν)) : Extends d d := fun _ _ h => h

theorem Extends.trans {d d' d'' : List (κ × ν)} (h : Extends d d') (h' : Extends d' d'') :
    Extends d d'' :=
  fun k v hk => h' k v (h k v hk)

/-- A value that a dictionary does not have may be set for a key if and only if the key is new. -/
theorem extends_set_iff {d : List (κ × ν)} {k : κ} {v : ν} (hv : v ∉ d.map Prod.snd) :
    Extends d (Dict.set d k v) ↔ k ∉ d.map Prod.fst := by
  constructor
  · intro h hk
    obtain ⟨w, hw⟩ := Option.ne_none_iff_exists'.mp fun hnone => Dict.get_eq_none_iff.mp hnone hk
    have hsame := h k w hw
    rw [Dict.get_set, if_pos rfl] at hsame
    -- the value that the key has lost is the new one
    obtain rfl := Option.some.inj hsame
    exact hv (List.mem_map.mpr ⟨(k, v), Dict.mem_of_get_eq_some hw, rfl⟩)
  · intro hk k' w hw
    rw [Dict.get_set, if_neg, hw]
    rintro rfl
    rw [Dict.get_eq_none_iff.mpr hk] at hw
    exact Option.some_ne_none w hw.symm

/-- Values stay where no key changes its value. -/
theorem Extends.mem_values {d' : List (κ × ν)} (h : Extends d d') (hd : (d.map Prod.fst).Nodup)
    {v : ν} (hv : v ∈ d.map Prod.snd) : v ∈ d'.map Prod.snd := by
  obtain ⟨⟨k, v⟩, he, rfl⟩ := List.mem_map.mp hv
  have hget := h k v ((Dict.get_eq_some_iff hd).mpr he)
  exact List.mem_map.mpr ⟨(k, v), Dict.mem_of_get_eq_some hget, rfl⟩

/-- What is kept of a dictionary while new names are entered. -/
structure Grown (start d : List (κ × ν)) : Prop where
  keys_nodup : (d.map Prod.fst).Nodup
  extends_start : Extends start d
  /-- A new key has its value for itself. -/
  alone : ∀ e ∈ d, e.1 ∉ start.map Prod.fst → ∀ e' ∈ d, e'.2 = e.2 → e' = e

theorem Grown.start {d : List (κ × ν)} (h : (d.map Prod.fst).Nodup) : Grown d d :=
  ⟨h, Extends.refl d, fun _ he hnew => absurd (List.mem_map_of_mem he) hnew⟩

/-! ### Entering items -/

variable [DecidableEq ν] (name : ρ → ℕ → κ) (value : ρ → ν)

/-- The dictionary after an item has been entered. -/
def enter (d : List (κ × ν)) (item : ρ) : List (κ × ν) :=
  if value item ∈ d.map Prod.snd then d else Dict.set d (name item d.length) (value item)

variable {name value} {d : List (κ × ν)} {item : ρ} {items : List ρ}

theorem enter_of_mem (h : value item ∈ d.map Prod.snd) : enter name value d item = d := if_pos h

/-- A new name is appended with its value. -/
theorem enter_of_free (h : value item ∉ d.map Prod.snd)
    (hfree : name item d.length ∉ d.map Prod.fst) :
    enter name value d item = d ++ [(name item d.length, value item)] := by
  rw [enter, if_neg h, Dict.set_of_not_mem hfree]

/-- **No key changes its value** if and only if no name is a key already. -/
theorem along_enter_iff (hname : ∀ item item' m n, name item m = name item' n → m = n) :
    Along (enter name value) (fun d item => Extends d (enter name value d item)) d items ↔
      Free name value d items := by
  induction items generalizing d with
  | nil => exact iff_of_true trivial fun k hk => absurd hk List.not_mem_nil
  | cons item items ih =>
    by_cases hmem : value item ∈ d.map Prod.snd
    · rw [Along, enter_of_mem hmem, ih, free_cons_of_mem hmem]
      exact and_iff_right (Extends.refl d)
    · have hstep : Extends d (enter name value d item) ↔ name item d.length ∉ d.map Prod.fst := by
        rw [enter, if_neg hmem]
        exact extends_set_iff hmem
      rw [Along, free_cons_of_not_mem hname hmem, hstep]
      refine and_congr_right fun hfree => ?_
      rw [enter_of_free hmem hfree]
      exact ih

/-- **One item** with a name that is no key yet. -/
theorem Grown.enter {start : List (κ × ν)} (h : Grown start d)
    (hstep : Extends d (enter name value d item)) : Grown start (enter name value d item) := by
  by_cases hmem : value item ∈ d.map Prod.snd
  · rwa [enter_of_mem hmem]
  · have hfree : name item d.length ∉ d.map Prod.fst := by
      rw [Numbering.enter, if_neg hmem] at hstep
      exact (extends_set_iff hmem).mp hstep
    refine ⟨?_, h.extends_start.trans hstep, ?_⟩
    · rw [Numbering.enter, if_neg hmem]
      exact Dict.nodup_keys_set h.keys_nodup _ _
    · rw [enter_of_free hmem hfree]
      intro e he hnew e' he' hsame
      rw [List.mem_append, List.mem_singleton] at he he'
      -- no entry that was there has the value that was appended
      have hother : ∀ e ∈ d, e.2 ≠ value item := fun e he heq =>
        hmem (heq ▸ List.mem_map_of_mem he)
      obtain he | rfl := he
      · obtain he' | rfl := he'
        · exact h.alone e he hnew e' he' hsame
        · exact absurd hsame.symm (hother e he)
      · obtain he' | rfl := he'
        · exact absurd hsame (hother e' he')
        · rfl

/-- A value is there after its item has been entered. -/
theorem value_mem_enter (d : List (κ × ν)) (item : ρ) :
    value item ∈ (enter name value d item).map Prod.snd := by
  by_cases hmem : value item ∈ d.map Prod.snd
  · rwa [enter_of_mem hmem]
  · rw [enter, if_neg hmem]
    have hget : Dict.get (Dict.set d (name item d.length) (value item)) (name item d.length) =
        some (value item) := by rw [Dict.get_set, if_pos rfl]
    exact List.mem_map.mpr ⟨_, Dict.mem_of_get_eq_some hget, rfl⟩

/-- **The dictionary at the end**, where no step changes the value of a key. -/
theorem exec_enter_spec (hd : (d.map Prod.fst).Nodup)
    (h : Along (enter name value) (fun d item => Extends d (enter name value d item)) d items) :
    Grown d (exec (enter name value) d items) ∧
      ∀ item ∈ items, value item ∈ (exec (enter name value) d items).map Prod.snd := by
  refine ⟨h.exec_of_step (fun _ _ hgrown hstep => hgrown.enter hstep) (Grown.start hd), ?_⟩
  induction items generalizing d with
  | nil => exact fun item hitem => absurd hitem List.not_mem_nil
  | cons item items ih =>
    have hgrown : Grown d (enter name value d item) := (Grown.start hd).enter h.1
    have hrest : Grown (enter name value d item) (exec (enter name value) d (item :: items)) :=
      h.2.exec_of_step (fun _ _ hgrown hstep => hgrown.enter hstep) (Grown.start hgrown.keys_nodup)
    refine List.forall_mem_cons.mpr ⟨?_, ih hgrown.keys_nodup h.2⟩
    exact hrest.extends_start.mem_values hgrown.keys_nodup (value_mem_enter d item)

end Numbering
