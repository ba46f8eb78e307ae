import AnonReq.Foundation.Characters
import AnonReq.Foundation.Dict

/-!
# JSON documents

Documents as `json.loads` builds them: an object is the list of its fields in the order of the
document. A path is a list of keys, names into objects and indices into lists.

* `readPath_writePath`, `readPath_writePath_of_forks`: what is read after a document was written to
  at a path, there and at a path that branches off. `writePath_isSome`: what can be read can be
  written to.
* `writePath_setField`: a write into one field and an assignment to another commute.
* `exists_writePaths`: writes at several paths that go apart.
-/

namespace AnonReq

/-- A JSON document. A number with a fraction or an exponent is the text it is shown as. -/
inductive Json where
  | null
  | bool (b : Bool)
  | int (n : ℤ)
  | float (shown : Text)
  | text (s : Text)
  | list (items : List Json)
  | object (fields : List (Text × Json))

/-- One step of a path into a document. -/
inductive Key where
  | name (k : Text)
  | index (i : ℕ)
deriving DecidableEq

namespace Json

/-- `document.get(k)` of an object, `none` where the key is missing or the document is no
object. -/
def get (k : Text) : Json → Option Json
  | object fields => fields.lookup k
  | _ => none

/-- `bool(document)`. -/
def truthy : Json → Bool
  | null => false
  | bool b => b
  | int n => n != 0
  | float shown => shown != "0.0".toList && shown != "-0.0".toList
  | text s => !s.isEmpty
  | list items => !items.isEmpty
  | object fields => !fields.isEmpty

/-- The document at one key of another. -/
def child (document : Json) : Key → Option Json
  | .name k => document.get k
  | .index i =>
    match document with
    | list items => items[i]?
    | _ => none

/-- The document at a path of another. -/
def readPath : Json → List Key → Option Json
  | document, [] => some document
  | document, key :: keys => (document.child key).bind fun inner => inner.readPath keys

/-- Reading an item of a list that is a field. -/
theorem readPath_name_index_iff {document value : Json} {k : Text} {i : ℕ} {keys : List Key} :
    document.readPath (.name k :: .index i :: keys) = some value ↔
      ∃ items item, document.get k = some (list items) ∧ items[i]? = some item ∧
        item.readPath keys = some value := by
  rw [readPath, Option.bind_eq_some_iff]
  constructor
  · rintro ⟨inner, hinner, h⟩
    obtain ⟨item, hitem, hvalue⟩ := Option.bind_eq_some_iff.mp h
    cases inner with
    | list items => exact ⟨items, item, hinner, hitem, hvalue⟩
    | _ => simp [child] at hitem
  · rintro ⟨items, item, hitems, hitem, h⟩
    have hinner : (list items).readPath (.index i :: keys) = some value :=
      Option.bind_eq_some_iff.mpr ⟨item, hitem, h⟩
    exact ⟨list items, hitems, hinner⟩

/-- Reading a field. -/
theorem readPath_name (document : Json) (k : Text) : document.readPath [.name k] = document.get k :=
  Option.bind_fun_some (document.get k)

/-! ### Writing -/

/-- `document[key] = value`, `none` where there is nothing to replace. -/
def setChild (document : Json) (key : Key) (value : Json) : Option Json :=
  match key, document with
  | .name k, object fields =>
    if (fields.lookup k).isSome then some (object (Dict.set fields k value)) else none
  | .index i, list items => if i < items.length then some (list (items.set i value)) else none
  | _, _ => none

/-- Replace the document at a path, which is not empty. -/
def writePath : Json → List Key → Json → Option Json
  | _, [], _ => none
  | document, [key], value => document.setChild key value
  | document, key :: keys, value =>
    (document.child key).bind fun inner =>
      (inner.writePath keys value).bind fun written => document.setChild key written

theorem lookup_eq_get (fields : List (Text × Json)) (k : Text) :
    fields.lookup k = Dict.get fields k := by
  induction fields with
  | nil => rfl
  | cons e fields ih =>
    rw [List.lookup_cons, Dict.get, ih]
    by_cases h : e.1 = k
    · simp [h]
    · simp [h, beq_eq_false_iff_ne.mpr (Ne.symm h)]

/-- After an assignment its key has the value, and every other key what it had. -/
theorem child_setChild {document written : Json} {key : Key} {value : Json}
    (h : document.setChild key value = some written) (key' : Key) :
    written.child key' = if key' = key then some value else document.child key' := by
  cases key with
  | name k =>
    cases document with
    | object fields =>
      rw [setChild] at h
      split_ifs at h
      obtain rfl := Option.some.inj h
      cases key' with
      | name k' =>
        simp only [child, get, lookup_eq_get, Dict.get_set, Key.name.injEq]
        exact if_congr eq_comm rfl rfl
      | index i' => simp [child]
    | _ => simp [setChild] at h
  | index i =>
    cases document with
    | list items =>
      rw [setChild] at h
      split_ifs at h with hi
      obtain rfl := Option.some.inj h
      cases key' with
      | name k' => simp [child, get]
      | index i' =>
        simp only [child, Key.index.injEq, List.getElem?_set, hi, if_true]
        exact if_congr eq_comm rfl rfl
    | _ => simp [setChild] at h

/-- A key that can be read can be assigned to. -/
theorem setChild_isSome {document : Json} {key : Key} (h : (document.child key).isSome)
    (value : Json) : (document.setChild key value).isSome := by
  cases key with
  | name k =>
    cases document with
    | object fields =>
      have h : (fields.lookup k).isSome := h
      simp [setChild, h]
    | _ => simp [child, get] at h
  | index i =>
    cases document with
    | list items =>
      have h : i < items.length := by simpa [child] using h
      simp [setChild, h]
    | _ => simp [child] at h

/-- A write descends by one key, also to its last. -/
theorem writePath_cons {document written : Json} {key : Key} {keys : List Key} {value : Json}
    (h : document.writePath (key :: keys) value = some written) :
    ∃ inner, document.setChild key inner = some written ∧
      (keys = [] ∧ inner = value ∨
        ∃ before, document.child key = some before ∧ before.writePath keys value = some inner) := by
  cases keys with
  | nil => exact ⟨value, h, Or.inl ⟨rfl, rfl⟩⟩
  | cons key' keys =>
    obtain ⟨before, hbefore, h⟩ := Option.bind_eq_some_iff.mp h
    obtain ⟨inner, hinner, h⟩ := Option.bind_eq_some_iff.mp h
    exact ⟨inner, h, Or.inr ⟨before, hbefore, hinner⟩⟩

/-- **Round trip.** After a write its path has the value. -/
theorem readPath_writePath {keys : List Key} {document written : Json} {value : Json}
    (h : document.writePath keys value = some written) : written.readPath keys = some value := by
  induction keys generalizing document written with
  | nil => cases h
  | cons key keys ih =>
    obtain ⟨inner, hset, ⟨rfl, rfl⟩ | ⟨before, -, hinner⟩⟩ := writePath_cons h
    · rw [readPath, child_setChild hset, if_pos rfl]
      rfl
    · rw [readPath, child_setChild hset, if_pos rfl]
      exact ih hinner

/-- What can be read can be written to. -/
theorem writePath_isSome {keys : List Key} (hkeys : keys ≠ []) {document : Json}
    (h : (document.readPath keys).isSome) (value : Json) :
    (document.writePath keys value).isSome := by
  induction keys generalizing document with
  | nil => exact absurd rfl hkeys
  | cons key keys ih =>
    obtain ⟨found, hfound⟩ := Option.isSome_iff_exists.mp h
    obtain ⟨inner, hchild, hinner⟩ := Option.bind_eq_some_iff.mp hfound
    have hset : ∀ value, (document.setChild key value).isSome :=
      setChild_isSome (Option.isSome_of_eq_some hchild)
    cases keys with
    | nil => exact hset value
    | cons key' keys =>
      obtain ⟨written, hwritten⟩ := Option.isSome_iff_exists.mp
        (ih (List.cons_ne_nil _ _) (Option.isSome_of_eq_some hinner))
      rw [writePath, hchild, Option.bind_some, hwritten, Option.bind_some]
      · exact hset written
      · exact fun h => by cases h

/-- The paths go apart at some key. -/
def Forks : List Key → List Key → Prop
  | key :: keys, key' :: keys' => key ≠ key' ∨ Forks keys keys'
  | _, _ => False

/-- **Frame.** A write changes nothing at a path that branches off. -/
theorem readPath_writePath_of_forks {keys keys' : List Key} (hforks : Forks keys keys')
    {document written : Json} {value : Json} (h : document.writePath keys value = some written) :
    written.readPath keys' = document.readPath keys' := by
  induction keys generalizing document written keys' with
  | nil => exact hforks.elim
  | cons key keys ih =>
    obtain ⟨key', keys', rfl⟩ : ∃ key' rest, keys' = key' :: rest := by
      cases keys' with
      | nil => exact hforks.elim
      | cons key' rest => exact ⟨key', rest, rfl⟩
    obtain ⟨inner, hset, hinner⟩ := writePath_cons h
    rw [readPath, readPath, child_setChild hset]
    by_cases hkey : key' = key
    · subst hkey
      have hforks : Forks keys keys' := hforks.resolve_left fun hne => hne rfl
      obtain ⟨rfl, -⟩ | ⟨before, hbefore, hinner⟩ := hinner
      · exact hforks.elim
      · rw [if_pos rfl, hbefore, Option.bind_some, Option.bind_some, ih hforks hinner]
    · rw [if_neg hkey]

theorem Forks.symm {keys keys' : List Key} (h : Forks keys keys') : Forks keys' keys := by
  induction keys generalizing keys' with
  | nil => exact h.elim
  | cons key keys ih =>
    cases keys' with
    | nil => exact h.elim
    | cons key' keys' => exact h.imp Ne.symm ih

/-! ### Assigning to a field -/

/-- `document[k] = value` of an object. -/
def setField (document : Json) (k : Text) (value : Json) : Json :=
  match document with
  | object fields => object (Dict.set fields k value)
  | _ => document

/-- An assignment to another field changes nothing in this one. -/
theorem get_setField_of_ne {k k' : Text} (hne : k ≠ k') (document value : Json) :
    (document.setField k value).get k' = document.get k' := by
  cases document with
  | object fields =>
    rw [setField, get, get, lookup_eq_get, lookup_eq_get, Dict.get_set, if_neg hne]
  | _ => rfl

theorem setChild_setField {k k' : Text} (hne : k ≠ k') (document value value' : Json) :
    (document.setField k value).setChild (.name k') value' =
      (document.setChild (.name k') value').map fun written => written.setField k value := by
  cases document with
  | object fields =>
    simp only [setField, setChild, lookup_eq_get, Dict.get_set, if_neg hne]
    split_ifs with hthere
    · have hmem : k' ∈ fields.map Prod.fst := by
        by_contra hmissing
        rw [Dict.get_eq_none_iff.mpr hmissing] at hthere
        exact Bool.false_ne_true hthere
      rw [Dict.set_comm hne hmem]
      rfl
    · rfl
  | _ => rfl

/-- **Assigning and writing.** A write into one field and an assignment to another commute. -/
theorem writePath_setField {k k' : Text} (hne : k ≠ k') (keys : List Key)
    (document value value' : Json) :
    (document.setField k value).writePath (.name k' :: keys) value' =
      (document.writePath (.name k' :: keys) value').map fun written =>
        written.setField k value := by
  cases keys with
  | nil => exact setChild_setField hne document value value'
  | cons key keys =>
    rw [writePath, writePath, child, get_setField_of_ne hne, ← child, Option.map_bind]
    · refine congrArg _ (funext fun inner => ?_)
      rw [Function.comp_apply, Option.map_bind]
      exact congrArg _ (funext fun written => setChild_setField hne document value written)
    · exact fun h => by cases h
    · exact fun h => by cases h

/-! ### Many writes -/

/-- Replace the documents at several paths, one after the other. -/
def writePaths (document : Json) (writes : List (List Key × Json)) : Option Json :=
  writes.foldlM (fun document write => document.writePath write.1 write.2) document

/-- **Many writes.** Paths that go apart, and can be read, can all be written to. After that each
has its value, and what branches off from all of them is what it was. -/
theorem exists_writePaths {writes : List (List Key × Json)} {document : Json}
    (hforks : writes.Pairwise fun a b => Forks a.1 b.1)
    (hread : ∀ write ∈ writes, write.1 ≠ [] ∧ (document.readPath write.1).isSome) :
    ∃ written, document.writePaths writes = some written ∧
      (∀ write ∈ writes, written.readPath write.1 = some write.2) ∧
      ∀ keys, (∀ write ∈ writes, Forks write.1 keys) →
        written.readPath keys = document.readPath keys := by
  induction writes generalizing document with
  | nil => exact ⟨document, rfl, by simp, fun _ _ => rfl⟩
  | cons first writes ih =>
    obtain ⟨hfirst, hrest⟩ := List.pairwise_cons.mp hforks
    obtain ⟨hne, hsome⟩ := hread first List.mem_cons_self
    obtain ⟨next, hnext⟩ := Option.isSome_iff_exists.mp (writePath_isSome hne hsome first.2)
    obtain ⟨written, hwritten, hvalues, hframe⟩ := ih hrest fun write hwrite => by
      obtain ⟨hne, hsome⟩ := hread write (List.mem_cons_of_mem first hwrite)
      rw [readPath_writePath_of_forks (hfirst write hwrite) hnext]
      exact ⟨hne, hsome⟩
    refine ⟨written, ?_, fun write hwrite => ?_, fun keys hkeys => ?_⟩
    · rw [writePaths, List.foldlM_cons, hnext]
      exact hwritten
    · obtain rfl | hwrite := List.mem_cons.mp hwrite
      · rw [hframe write.1 fun other hother => (hfirst other hother).symm]
        exact readPath_writePath hnext
      · exact hvalues write hwrite
    · rw [hframe keys fun write hwrite => hkeys write (List.mem_cons_of_mem first hwrite)]
      exact readPath_writePath_of_forks (hkeys first List.mem_cons_self) hnext

end Json

end AnonReq
