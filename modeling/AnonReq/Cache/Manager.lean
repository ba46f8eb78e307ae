import AnonReq.Foundation.Characters
import AnonReq.Foundation.Dict
import AnonReq.Foundation.Runs

/-!
# The mapping cache

`store_mapping` and `delete_mapping` of `cache/manager.py`, over a key space that other clients
write to as well. A mapping is the hash at a key of its tenant and its session. With a KMS its
values are stored as ciphertexts, so the original values are kept apart.

* `holds_exec`: what holds of every hash, and of all that other clients write, holds of all
  that is in the key space.
-/

namespace AnonReq.Cache

/-! ### The key space -/

/-- What a key holds. -/
inductive Stored where
  | string (value : Text)
  | hash (fields : List (Text × Text))
  /-- A value of another type, or bytes that are no text. -/
  | other
deriving DecidableEq

abbrev Keyspace := List (Text × Stored)

/-- How a command or a call of the KMS fails. -/
inductive CacheError where
  | wrongType
  | emptyMapping
  | kms
deriving DecidableEq

/-- `GET key`. -/
def Keyspace.read (k : Keyspace) (key : Text) : Except CacheError (Option Text) :=
  match Dict.get k key with
  | none => .ok none
  | some (.string value) => .ok (some value)
  | some _ => .error .wrongType

/-- `HSET key` with some fields. -/
def Keyspace.hset (k : Keyspace) (key : Text) (fields : List (Text × Text)) :
    Except CacheError Keyspace :=
  if fields.isEmpty then .error .emptyMapping
  else
    match Dict.get k key with
    | none => .ok (Dict.set k key (.hash (Dict.ofList fields)))
    | some (.hash old) => .ok (Dict.set k key (.hash (Dict.update old fields)))
    | some _ => .error .wrongType

/-- A command that succeeds leaves a hash with the fields. -/
theorem Keyspace.hset_ok {k k' : Keyspace} {key : Text} {fields : List (Text × Text)}
    (h : k.hset key fields = .ok k') :
    ∃ all, k' = Dict.set k key (.hash all) ∧ (∀ e ∈ fields, e.1 ∈ all.map Prod.fst) ∧
      ∀ old, Dict.get k key = some (.hash old) → ∀ e ∈ old, e.1 ∈ all.map Prod.fst := by
  rw [Keyspace.hset] at h
  split_ifs at h
  split at h
  · next hnone =>
    refine ⟨_, (Except.ok.inj h).symm, fun e he => ?_, fun old hold => ?_⟩
    · exact Dict.mem_keys_update.mpr (Or.inr (List.mem_map_of_mem he))
    · exact absurd (hnone.symm.trans hold) (Option.some_ne_none _).symm
  · next old hold =>
    refine ⟨_, (Except.ok.inj h).symm, fun e he => ?_, fun old' hold' e he => ?_⟩
    · exact Dict.mem_keys_update.mpr (Or.inr (List.mem_map_of_mem he))
    · cases hold.symm.trans hold'
      exact Dict.mem_keys_update.mpr (Or.inl (List.mem_map_of_mem he))
  · cases h

/-! ### The cache manager -/

/-- `CacheManager`, with what its KMS makes of a value for a tenant, as a text. The KMS draws a
nonce for every value. -/
structure CacheManager (N : Type*) where
  encrypt : Option (Text → N → Text → Option Text)

variable {N : Type*}

namespace CacheManager

section

variable (M : CacheManager N)

/-- `_key(tenant_id, session_id)`. -/
def key (tenantId sessionId : Text) : Text := "anonreq:".toList ++ tenantId ++ ':' :: sessionId

/-- `store_mapping`, the values that are written. -/
def sealedMapping (tenantId : Text) (nonce : Text → N) (mapping : List (Text × Text)) :
    Except CacheError (List (Text × Text)) :=
  match M.encrypt with
  | none => .ok mapping
  | some encrypt => mapping.mapM fun entry =>
    match encrypt tenantId (nonce entry.1) entry.2 with
    | none => .error .kms
    | some ciphertext => .ok (entry.1, ciphertext)

/-- `store_mapping(tenant_id, session_id, mapping)`. -/
def storeMapping (k : Keyspace) (tenantId sessionId : Text) (nonce : Text → N)
    (mapping : List (Text × Text)) : Except CacheError Keyspace := do
  let fields ← M.sealedMapping tenantId nonce mapping
  k.hset (key tenantId sessionId) fields

/-- `delete_mapping(tenant_id, session_id)`. -/
def deleteMapping (k : Keyspace) (tenantId sessionId : Text) : Keyspace :=
  Dict.erase k (key tenantId sessionId)

end

variable {M : CacheManager N}

/-- Every token of a mapping is a field of what is written. -/
theorem mem_keys_of_sealedMapping {tenantId : Text} {nonce : Text → N}
    {mapping fields : List (Text × Text)} (h : M.sealedMapping tenantId nonce mapping = .ok fields)
    {token : Text} (htoken : token ∈ mapping.map Prod.fst) : token ∈ fields.map Prod.fst := by
  rw [sealedMapping] at h
  split at h
  · exact Except.ok.inj h ▸ htoken
  · next encrypt _ =>
    have hkeys : List.Forall₂ (· = ·) (mapping.map Prod.fst) (fields.map Prod.fst) := by
      rw [List.forall₂_map_left_iff, List.forall₂_map_right_iff]
      refine (Runs.mapM_eq_ok_iff.mp h).imp fun entry field hfield => ?_
      split at hfield
      · exact nomatch hfield
      · exact (Except.ok.inj hfield) ▸ rfl
    rw [List.forall₂_eq_eq_eq] at hkeys
    exact hkeys ▸ htoken

end CacheManager

/-! ### Runs -/

/-- An original value that a mapping has stored. -/
structure StoredOriginal where
  tenantId : Text
  sessionId : Text
  token : Text
  original : Text
deriving DecidableEq

/-- The key at which the mapping of the value is. -/
def StoredOriginal.key (o : StoredOriginal) : Text := CacheManager.key o.tenantId o.sessionId

/-- The key space, and the originals of the mappings in it. -/
structure MappingStore where
  keyspace : Keyspace
  originals : List StoredOriginal

namespace MappingStore

def empty : MappingStore where
  keyspace := []
  originals := []

/-- What happens to the key space. Another client may write a key, and a key may expire. -/
inductive Action (N : Type*) where
  | storeMapping (tenantId sessionId : Text) (nonce : Text → N) (mapping : List (Text × Text))
  | deleteMapping (tenantId sessionId : Text)
  | write (key : Text) (value : Stored)
  | expire (key : Text)

/-- The originals of the other keys. -/
def without (c : MappingStore) (key : Text) : List StoredOriginal :=
  c.originals.filter fun o => o.key ≠ key

/-- A call that raises changes nothing. A token that is stored again has the new original. -/
def step (M : CacheManager N) (c : MappingStore) : Action N → MappingStore
  | .storeMapping tenantId sessionId nonce mapping =>
    match M.storeMapping c.keyspace tenantId sessionId nonce mapping with
    | .error _ => c
    | .ok keyspace =>
      let key := CacheManager.key tenantId sessionId
      let kept := c.originals.filter fun o => ¬(o.key = key ∧ o.token ∈ mapping.map Prod.fst)
      let stored := (Dict.ofList mapping).map fun e => ⟨tenantId, sessionId, e.1, e.2⟩
      { keyspace, originals := kept ++ stored }
  | .deleteMapping tenantId sessionId =>
    { keyspace := CacheManager.deleteMapping c.keyspace tenantId sessionId
      originals := c.without (CacheManager.key tenantId sessionId) }
  | .write key value =>
    { keyspace := Dict.set c.keyspace key value
      originals := c.without key }
  | .expire key =>
    { keyspace := Dict.erase c.keyspace key
      originals := c.without key }

variable {M : CacheManager N}

/-- What a call that succeeds writes is a hash. -/
theorem storeMapping_ok {k k' : Keyspace} {tenantId sessionId : Text} {nonce : Text → N}
    {mapping : List (Text × Text)}
    (h : M.storeMapping k tenantId sessionId nonce mapping = .ok k') :
    ∃ all, k' = Dict.set k (CacheManager.key tenantId sessionId) (.hash all) ∧
      (∀ token ∈ mapping.map Prod.fst, token ∈ all.map Prod.fst) ∧
      ∀ old, Dict.get k (CacheManager.key tenantId sessionId) = some (.hash old) →
        ∀ e ∈ old, e.1 ∈ all.map Prod.fst := by
  obtain ⟨fields, hfields, h⟩ := Runs.bind_eq_ok_iff.mp h
  obtain ⟨all, rfl, hnew, hold⟩ := Keyspace.hset_ok h
  refine ⟨all, rfl, fun token htoken => ?_, hold⟩
  obtain ⟨e, he, rfl⟩ := List.mem_map.mp (CacheManager.mem_keys_of_sealedMapping hfields htoken)
  exact hnew e he

/-- All that is in the key space has a property. -/
def Holds (P : Text → Stored → Prop) (c : MappingStore) : Prop :=
  ∀ key value, Dict.get c.keyspace key = some value → P key value

/-- What other clients write has a property. -/
def Writes (P : Text → Stored → Prop) : Action N → Prop
  | .write key value => P key value
  | _ => True

theorem holds_step {P : Text → Stored → Prop} (hhash : ∀ key fields, P key (.hash fields))
    {c : MappingStore} (h : c.Holds P) {a : Action N} (ha : Writes P a) : (c.step M a).Holds P := by
  have herase : ∀ key, Holds P ⟨Dict.erase c.keyspace key, c.without key⟩ := by
    intro key other value hget
    rw [Dict.get_erase] at hget
    split_ifs at hget
    exact h other value hget
  have hset : ∀ key value originals, P key value →
      Holds P ⟨Dict.set c.keyspace key value, originals⟩ := by
    intro key value originals hP other value' hget
    rw [Dict.get_set] at hget
    split_ifs at hget with hkey
    · exact hkey ▸ Option.some.inj hget ▸ hP
    · exact h other value' hget
  cases a with
  | storeMapping tenantId sessionId nonce mapping =>
    rw [step]
    split
    · exact h
    · next keyspace hok =>
      obtain ⟨all, rfl, -⟩ := storeMapping_ok hok
      exact hset _ _ _ (hhash _ _)
  | deleteMapping tenantId sessionId => exact herase _
  | write key value => exact hset _ _ _ ha
  | expire key => exact herase _

/-- What holds of every hash and of all that other clients write holds of all there is. -/
theorem holds_exec {P : Text → Stored → Prop} (hhash : ∀ key fields, P key (.hash fields))
    {actions : List (Action N)} (h : ∀ a ∈ actions, Writes P a) :
    (Runs.exec (step M) empty actions).Holds P := by
  have hsteps : Runs.Along (step M) (fun _ a => Writes P a) empty actions :=
    Runs.along_of_forall fun _ a ha => h a ha
  have hempty : Holds P empty := fun _ _ hget => absurd hget (Option.some_ne_none _).symm
  exact hsteps.exec_of_step (I := Holds P) (fun _ _ h ha => holds_step hhash h ha) hempty

end MappingStore

end AnonReq.Cache
