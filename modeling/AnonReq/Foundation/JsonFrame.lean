import AnonReq.Foundation.Json

/-!
# What writes into a document leave alone

The shape of a document is the document without its leaves. Writes that put leaves in the place of
leaves leave the shape and the other leaves as they are, and can be made in any order if their paths
go apart. The paths of different leaves go apart.

* `shape_writePaths`: the shape after several writes.
* `forks_of_leaves`: different leaves.
* `writePaths_perm`: the order of the writes.
-/

namespace AnonReq.Json

/-! ### Shapes -/

/-- A document without items and fields. -/
def IsLeaf : Json → Prop
  | list _ => False
  | object _ => False
  | _ => True

mutual

/-- A document in which every leaf is left blank. -/
def shape : Json → Json
  | list items => list (itemShapes items)
  | object fields => object (fieldShapes fields)
  | _ => null

/-- The shapes of items. -/
def itemShapes : List Json → List Json
  | [] => []
  | item :: items => shape item :: itemShapes items

/-- The shapes of fields. -/
def fieldShapes : List (Text × Json) → List (Text × Json)
  | [] => []
  | (k, value) :: fields => (k, shape value) :: fieldShapes fields

end

theorem shape_of_isLeaf {document : Json} (h : document.IsLeaf) : document.shape = null := by
  cases document with
  | list items => exact h.elim
  | object fields => exact h.elim
  | _ => rfl

theorem itemShapes_eq_map (items : List Json) : itemShapes items = items.map shape := by
  induction items with
  | nil => rfl
  | cons item items ih => rw [itemShapes, ih, List.map_cons]

theorem get_fieldShapes (fields : List (Text × Json)) (k : Text) :
    Dict.get (fieldShapes fields) k = (Dict.get fields k).map shape := by
  induction fields with
  | nil => rfl
  | cons field fields ih =>
    rw [fieldShapes, Dict.get, Dict.get, ih]
    split_ifs <;> rfl

theorem fieldShapes_set (fields : List (Text × Json)) (k : Text) (value : Json) :
    fieldShapes (Dict.set fields k value) = Dict.set (fieldShapes fields) k value.shape := by
  induction fields with
  | nil => rfl
  | cons field fields ih =>
    rw [Dict.set, fieldShapes, Dict.set]
    split_ifs
    · rfl
    · rw [fieldShapes, ih]

/-- The shape of a child is the child of the shape. -/
theorem child_shape (document : Json) (key : Key) :
    document.shape.child key = (document.child key).map shape := by
  cases key with
  | name k =>
    cases document with
    | object fields => simp only [shape, child, get, lookup_eq_get, get_fieldShapes]
    | _ => rfl
  | index i =>
    cases document with
    | list items => simp only [shape, child, itemShapes_eq_map, List.getElem?_map]
    | _ => rfl

/-- **Shape.** An assignment of something that has the shape of what it replaces keeps the shape. -/
theorem shape_setChild {document written before value : Json} {key : Key}
    (h : document.setChild key value = some written) (hbefore : document.child key = some before)
    (hshape : before.shape = value.shape) : written.shape = document.shape := by
  have hchild : document.shape.child key = some value.shape := by
    rw [child_shape, hbefore, Option.map_some, hshape]
  cases key with
  | name k =>
    cases document with
    | object fields =>
      rw [setChild] at h
      split_ifs at h
      obtain rfl := Option.some.inj h
      have hget : Dict.get (fieldShapes fields) k = some value.shape := by
        rw [← lookup_eq_get]
        exact hchild
      rw [shape, shape, fieldShapes_set, Dict.set_eq_self hget]
    | _ => simp [setChild] at h
  | index i =>
    cases document with
    | list items =>
      rw [setChild] at h
      split_ifs at h with hi
      obtain rfl := Option.some.inj h
      have hget : (items.map shape)[i]? = some value.shape := by
        rw [← itemShapes_eq_map]
        exact hchild
      obtain ⟨hlength, hget⟩ := List.getElem?_eq_some_iff.mp hget
      rw [shape, shape, itemShapes_eq_map, itemShapes_eq_map, List.map_set, ← hget,
        List.set_getElem_self]
    | _ => simp [setChild] at h

/-- A write of something that has the shape of what it replaces keeps the shape. -/
theorem shape_writePath {keys : List Key} {document written old value : Json}
    (h : document.writePath keys value = some written) (hread : document.readPath keys = some old)
    (hshape : old.shape = value.shape) : written.shape = document.shape := by
  induction keys generalizing document written with
  | nil => cases h
  | cons key keys ih =>
    obtain ⟨found, hfound, hold⟩ := Option.bind_eq_some_iff.mp hread
    obtain ⟨inner, hset, ⟨rfl, rfl⟩ | ⟨before, hbefore, hinner⟩⟩ := writePath_cons h
    · obtain rfl := Option.some.inj hold
      exact shape_setChild hset hfound hshape
    · obtain rfl := Option.some.inj (hbefore.symm.trans hfound)
      exact shape_setChild hset hbefore (ih hinner hold).symm

/-- **The shape after several writes** at paths that go apart. -/
theorem shape_writePaths {writes : List (List Key × Json)} {document written : Json}
    (hforks : writes.Pairwise fun a b => Forks a.1 b.1)
    (hread : ∀ write ∈ writes, ∃ old, document.readPath write.1 = some old ∧
      old.shape = write.2.shape)
    (h : document.writePaths writes = some written) : written.shape = document.shape := by
  induction writes generalizing document with
  | nil => exact congrArg shape (Option.some.inj h).symm
  | cons first writes ih =>
    obtain ⟨hfirst, hrest⟩ := List.pairwise_cons.mp hforks
    rw [writePaths, List.foldlM_cons] at h
    obtain ⟨next, hnext, h⟩ := Option.bind_eq_some_iff.mp h
    obtain ⟨old, hold, hshape⟩ := hread first List.mem_cons_self
    rw [← shape_writePath hnext hold hshape]
    refine ih hrest (fun write hwrite => ?_) h
    rw [readPath_writePath_of_forks (hfirst write hwrite) hnext]
    exact hread write (List.mem_cons_of_mem first hwrite)

/-! ### Leaves -/

theorem child_of_isLeaf {document : Json} (h : document.IsLeaf) (key : Key) :
    document.child key = none := by
  cases document with
  | list items => exact h.elim
  | object fields => exact h.elim
  | _ => cases key <;> rfl

/-- Nothing is read below a leaf. -/
theorem eq_nil_of_isLeaf {document value : Json} (h : document.IsLeaf) {keys : List Key}
    (hread : document.readPath keys = some value) : keys = [] := by
  cases keys with
  | nil => rfl
  | cons key keys =>
    rw [readPath, child_of_isLeaf h, Option.bind_none] at hread
    exact absurd hread (Option.some_ne_none value).symm

/-- **The paths of different leaves go apart.** -/
theorem forks_of_leaves {document a b : Json} {keys keys' : List Key}
    (ha : document.readPath keys = some a) (hleafA : a.IsLeaf)
    (hb : document.readPath keys' = some b) (hleafB : b.IsLeaf) (hne : keys ≠ keys') :
    Forks keys keys' := by
  induction keys generalizing document keys' with
  | nil =>
    obtain rfl := Option.some.inj ha
    exact absurd (eq_nil_of_isLeaf hleafA hb).symm hne
  | cons key keys ih =>
    obtain rfl | ⟨key', rest, rfl⟩ : keys' = [] ∨ ∃ key' rest, keys' = key' :: rest := by
      cases keys' with
      | nil => exact Or.inl rfl
      | cons key' rest => exact Or.inr ⟨key', rest, rfl⟩
    · obtain rfl := Option.some.inj hb
      exact absurd (eq_nil_of_isLeaf hleafB ha) hne
    · by_cases hkey : key = key'
      · subst hkey
        obtain ⟨found, hfound, ha⟩ := Option.bind_eq_some_iff.mp ha
        obtain ⟨found', hfound', hb⟩ := Option.bind_eq_some_iff.mp hb
        obtain rfl := Option.some.inj (hfound.symm.trans hfound')
        exact Or.inr (ih ha hb fun heq => hne (congrArg (key :: ·) heq))
      · exact Or.inl hkey

/-! ### The order of writes -/

/-- Of two assignments to one key the last counts. -/
theorem setChild_setChild {document next written value value' : Json} {key : Key}
    (h : document.setChild key value = some next) (h' : next.setChild key value' = some written) :
    document.setChild key value' = some written := by
  cases key with
  | name k =>
    cases document with
    | object fields =>
      rw [setChild] at h
      split_ifs at h with hk
      obtain rfl := Option.some.inj h
      rw [setChild] at h' ⊢
      split_ifs at h'
      rw [if_pos hk, ← h', Dict.set_set]
    | _ => simp [setChild] at h
  | index i =>
    cases document with
    | list items =>
      rw [setChild] at h
      split_ifs at h with hi
      obtain rfl := Option.some.inj h
      rw [setChild] at h' ⊢
      split_ifs at h'
      rw [if_pos hi, ← h', List.set_set]
    | _ => simp [setChild] at h

/-- Assignments to different keys commute. -/
theorem setChild_comm {document a b c d value value' : Json} {key key' : Key} (hne : key ≠ key')
    (ha : document.setChild key value = some a) (hb : a.setChild key' value' = some b)
    (hc : document.setChild key' value' = some c) (hd : c.setChild key value = some d) : b = d := by
  cases document with
  | object fields =>
    cases key with
    | name k =>
      cases key' with
      | name k' =>
        rw [setChild] at ha hc
        split_ifs at ha hc with hk hk'
        obtain rfl := Option.some.inj ha
        obtain rfl := Option.some.inj hc
        rw [setChild] at hb hd
        split_ifs at hb hd
        have hmem : k' ∈ fields.map Prod.fst := by
          by_contra hmissing
          rw [lookup_eq_get, Dict.get_eq_none_iff.mpr hmissing] at hk'
          exact Bool.false_ne_true hk'
        rw [← Option.some.inj hb, ← Option.some.inj hd,
          Dict.set_comm (fun heq => hne (congrArg Key.name heq)) hmem]
      | index i' => simp [setChild] at hc
    | index i => simp [setChild] at ha
  | list items =>
    cases key with
    | name k => simp [setChild] at ha
    | index i =>
      cases key' with
      | name k' => simp [setChild] at hc
      | index i' =>
        rw [setChild] at ha hc
        split_ifs at ha hc
        obtain rfl := Option.some.inj ha
        obtain rfl := Option.some.inj hc
        rw [setChild] at hb hd
        split_ifs at hb hd
        rw [← Option.some.inj hb, ← Option.some.inj hd,
          List.set_comm _ _ fun heq => hne (congrArg Key.index heq)]
  | _ => cases key <;> simp [setChild] at ha

/-- What a write assigns to its first key depends on what stands there. -/
theorem exists_setChild_of_child_eq {a b written written' value : Json} {key : Key}
    {keys : List Key} (hchild : a.child key = b.child key)
    (ha : a.writePath (key :: keys) value = some written)
    (hb : b.writePath (key :: keys) value = some written') :
    ∃ inner, a.setChild key inner = some written ∧ b.setChild key inner = some written' := by
  obtain ⟨inner, hset, hinner⟩ := writePath_cons ha
  obtain ⟨inner', hset', hinner'⟩ := writePath_cons hb
  obtain ⟨rfl, rfl⟩ | ⟨before, hbefore, hwrite⟩ := hinner
  · obtain ⟨-, rfl⟩ | ⟨before, -, hwrite⟩ := hinner'
    · exact ⟨_, hset, hset'⟩
    · cases hwrite
  · obtain ⟨rfl, -⟩ | ⟨before', hbefore', hwrite'⟩ := hinner'
    · cases hwrite
    · rw [hchild, hbefore'] at hbefore
      obtain rfl := Option.some.inj hbefore
      obtain rfl := Option.some.inj (hwrite.symm.trans hwrite')
      exact ⟨_, hset, hset'⟩

/-- **Two writes** at paths that go apart commute. -/
theorem writePath_comm {keys keys' : List Key} (hforks : Forks keys keys')
    {document a b c d value value' : Json} (ha : document.writePath keys value = some a)
    (hb : a.writePath keys' value' = some b) (hc : document.writePath keys' value' = some c)
    (hd : c.writePath keys value = some d) : b = d := by
  induction keys generalizing document a b c d keys' with
  | nil => exact hforks.elim
  | cons key keys ih =>
    obtain ⟨key', keys', rfl⟩ : ∃ key' rest, keys' = key' :: rest := by
      cases keys' with
      | nil => exact hforks.elim
      | cons key' rest => exact ⟨key', rest, rfl⟩
    by_cases hkey : key = key'
    · subst hkey
      have hforks : Forks keys keys' := hforks.resolve_left fun hne => hne rfl
      have hne : keys ≠ [] ∧ keys' ≠ [] := by
        constructor
        · rintro rfl
          exact hforks.elim
        · rintro rfl
          exact hforks.symm.elim
      obtain ⟨i, hset, hi⟩ := writePath_cons ha
      obtain ⟨j, hset', hj⟩ := writePath_cons hb
      obtain ⟨k, hsetC, hk⟩ := writePath_cons hc
      obtain ⟨l, hsetD, hl⟩ := writePath_cons hd
      obtain ⟨before, hbefore, hi⟩ := hi.resolve_left fun h => hne.1 h.1
      obtain ⟨middle, hmiddle, hj⟩ := hj.resolve_left fun h => hne.2 h.1
      obtain ⟨before', hbefore', hk⟩ := hk.resolve_left fun h => hne.2 h.1
      obtain ⟨middle', hmiddle', hl⟩ := hl.resolve_left fun h => hne.1 h.1
      -- the second write of each order finds what the first one has put there
      obtain rfl := Option.some.inj (hbefore.symm.trans hbefore')
      rw [child_setChild hset, if_pos rfl] at hmiddle
      obtain rfl := Option.some.inj hmiddle
      rw [child_setChild hsetC, if_pos rfl] at hmiddle'
      obtain rfl := Option.some.inj hmiddle'
      obtain rfl := ih hforks hi hj hk hl
      exact Option.some.inj ((setChild_setChild hset hset').symm.trans
        (setChild_setChild hsetC hsetD))
    · obtain ⟨first, hset, -⟩ := writePath_cons ha
      obtain ⟨second, hsetC, -⟩ := writePath_cons hc
      have hchild : document.child key = c.child key := by
        rw [child_setChild hsetC, if_neg hkey]
      have hchild' : document.child key' = a.child key' := by
        rw [child_setChild hset, if_neg (Ne.symm hkey)]
      obtain ⟨i, hi, hi'⟩ := exists_setChild_of_child_eq hchild ha hd
      obtain ⟨j, hj, hj'⟩ := exists_setChild_of_child_eq hchild' hc hb
      exact setChild_comm hkey hi hj' hj hi'

/-- **The order of the writes** makes no difference if their paths go apart and can be read. -/
theorem writePaths_perm {writes writes' : List (List Key × Json)} (hperm : writes.Perm writes')
    {document : Json} (hforks : writes.Pairwise fun a b => Forks a.1 b.1)
    (hread : ∀ write ∈ writes, write.1 ≠ [] ∧ (document.readPath write.1).isSome) :
    document.writePaths writes = document.writePaths writes' := by
  have hsome : ∀ {document : Json} (write : List Key × Json),
      write.1 ≠ [] ∧ (document.readPath write.1).isSome →
        ∃ next, document.writePath write.1 write.2 = some next := fun _ h =>
    Option.isSome_iff_exists.mp (writePath_isSome h.1 h.2 _)
  induction hperm generalizing document with
  | nil => rfl
  | cons first _ ih =>
    obtain ⟨hfirst, hrest⟩ := List.pairwise_cons.mp hforks
    obtain ⟨next, hnext⟩ := hsome first (hread first List.mem_cons_self)
    rw [writePaths, writePaths, List.foldlM_cons, List.foldlM_cons, hnext]
    refine ih hrest fun write hwrite => ?_
    rw [readPath_writePath_of_forks (hfirst write hwrite) hnext]
    exact hread write (List.mem_cons_of_mem first hwrite)
  | swap first second rest =>
    obtain ⟨hsecond, -⟩ := List.pairwise_cons.mp hforks
    have hapart : Forks second.1 first.1 := hsecond first List.mem_cons_self
    have hreadSecond := hread second List.mem_cons_self
    have hreadFirst := hread first (List.mem_cons_of_mem second List.mem_cons_self)
    obtain ⟨a, ha⟩ := hsome second hreadSecond
    obtain ⟨c, hc⟩ := hsome first hreadFirst
    obtain ⟨b, hb⟩ := hsome first
      ⟨hreadFirst.1, readPath_writePath_of_forks hapart ha ▸ hreadFirst.2⟩
    obtain ⟨d, hd⟩ := hsome second
      ⟨hreadSecond.1, readPath_writePath_of_forks hapart.symm hc ▸ hreadSecond.2⟩
    obtain rfl := writePath_comm hapart ha hb hc hd
    simp only [writePaths, List.foldlM_cons, ha, hb, hc, hd, Option.bind_eq_bind, Option.bind_some]
  | trans hperm _ ih ih' =>
    rw [ih hforks hread]
    exact ih' (hperm.pairwise hforks fun h => h.symm) fun write hwrite =>
      hread write (hperm.mem_iff.mpr hwrite)

end AnonReq.Json
