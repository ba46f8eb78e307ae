import AnonReq.Foundation.Json

/-!
# The keys of a document

`keys` are the names of the fields of a document, at every depth; `prune bad` takes the fields with
a bad name out, at every depth.

* `not_bad_of_mem_keys_prune`: no bad key is left.
* `pruneFields_eq_self_iff`: what has no bad key stays as it is.
-/

namespace AnonReq.Json

mutual

/-- The names of the fields of a document, at every depth. -/
def keys : Json → List Text
  | list items => itemKeys items
  | object fields => fieldKeys fields
  | _ => []

/-- The names in items. -/
def itemKeys : List Json → List Text
  | [] => []
  | item :: items => keys item ++ itemKeys items

/-- The names in fields. -/
def fieldKeys : List (Text × Json) → List Text
  | [] => []
  | (k, value) :: fields => k :: (keys value ++ fieldKeys fields)

end

variable (bad : Text → Bool)

mutual

/-- A document without the fields with a bad name. -/
def prune : Json → Json
  | list items => list (pruneItems items)
  | object fields => object (pruneFields fields)
  | null => null
  | bool b => bool b
  | int n => int n
  | float shown => float shown
  | text s => text s

/-- Items without the fields with a bad name. -/
def pruneItems : List Json → List Json
  | [] => []
  | item :: items => prune item :: pruneItems items

/-- Fields without those with a bad name. -/
def pruneFields : List (Text × Json) → List (Text × Json)
  | [] => []
  | (k, value) :: fields =>
    if bad k then pruneFields fields else (k, prune value) :: pruneFields fields

end

variable {bad}

mutual

-- what is used is about fields; documents and items are for the induction
/-- **Pruned documents** have no bad key. -/
theorem not_bad_of_mem_keys_prune {key : Text} :
    ∀ {document : Json}, key ∈ (document.prune bad).keys → bad key = false
  | list items, h => by
    rw [prune, keys] at h
    exact not_bad_of_mem_itemKeys h
  | object fields, h => by
    rw [prune, keys] at h
    exact not_bad_of_mem_fieldKeys h
  | null, h | bool _, h | int _, h | float _, h | text _, h => by simp [prune, keys] at h

theorem not_bad_of_mem_itemKeys {key : Text} :
    ∀ {items : List Json}, key ∈ itemKeys (pruneItems bad items) → bad key = false
  | [], h => by simp [pruneItems, itemKeys] at h
  | item :: items, h => by
    rw [pruneItems, itemKeys] at h
    exact (List.mem_append.mp h).elim not_bad_of_mem_keys_prune not_bad_of_mem_itemKeys

theorem not_bad_of_mem_fieldKeys {key : Text} :
    ∀ {fields : List (Text × Json)}, key ∈ fieldKeys (pruneFields bad fields) → bad key = false
  | [], h => by simp [pruneFields, fieldKeys] at h
  | (k, value) :: fields, h => by
    rw [pruneFields] at h
    split_ifs at h with hk
    · exact not_bad_of_mem_fieldKeys h
    · rw [fieldKeys] at h
      obtain rfl | h := List.mem_cons.mp h
      · exact Bool.not_eq_true _ ▸ hk
      · exact (List.mem_append.mp h).elim not_bad_of_mem_keys_prune not_bad_of_mem_fieldKeys

end

mutual

-- what is used is about fields; documents and items are for the induction
/-- A document without bad keys is left as it is. -/
theorem prune_eq_self : ∀ {document : Json},
    (∀ key ∈ document.keys, bad key = false) → document.prune bad = document
  | list items, h => by rw [prune, pruneItems_eq_self h]
  | object fields, h => by rw [prune, pruneFields_eq_self h]
  | null, _ | bool _, _ | int _, _ | float _, _ | text _, _ => by rw [prune]

theorem pruneItems_eq_self : ∀ {items : List Json},
    (∀ key ∈ itemKeys items, bad key = false) → pruneItems bad items = items
  | [], _ => by rw [pruneItems]
  | item :: items, h => by
    rw [itemKeys] at h
    rw [pruneItems, prune_eq_self fun key hkey => h key (List.mem_append_left _ hkey),
      pruneItems_eq_self fun key hkey => h key (List.mem_append_right _ hkey)]

theorem pruneFields_eq_self : ∀ {fields : List (Text × Json)},
    (∀ key ∈ fieldKeys fields, bad key = false) → pruneFields bad fields = fields
  | [], _ => by rw [pruneFields]
  | (k, value) :: fields, h => by
    rw [fieldKeys] at h
    have hk : bad k = false := h k List.mem_cons_self
    have hrest : ∀ key ∈ keys value ++ fieldKeys fields, bad key = false := fun key hkey =>
      h key (List.mem_cons_of_mem k hkey)
    rw [pruneFields, hk, if_neg Bool.false_ne_true,
      prune_eq_self fun key hkey => hrest key (List.mem_append_left _ hkey),
      pruneFields_eq_self fun key hkey => hrest key (List.mem_append_right _ hkey)]

end

/-- Fields are left as they are exactly if none of their keys is bad. -/
theorem pruneFields_eq_self_iff {fields : List (Text × Json)} :
    pruneFields bad fields = fields ↔ ∀ key ∈ fieldKeys fields, bad key = false := by
  refine ⟨fun h key hkey => ?_, pruneFields_eq_self⟩
  rw [← h] at hkey
  exact not_bad_of_mem_fieldKeys hkey

end AnonReq.Json
