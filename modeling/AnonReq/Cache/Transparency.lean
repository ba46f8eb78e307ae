import AnonReq.Cache.Manager
import AnonReq.Foundation.Base64
import AnonReq.Foundation.Splitting
import AnonReq.Kms.LocalAes

/-!
# Mappings at rest

`store_mapping`, `get_mapping` and `delete_mapping` of `cache/manager.py` over a Valkey with
deadlines, with the local KMS of `kms/local.py` or without a KMS. Before it is written a value is
encoded, encrypted with the key of its tenant, and encoded in base64; after it is read it is taken
back. A hash that is written is extended, and gone when its TTL has passed.

* `results_eq_expected`: in every run, a session has the mappings that were stored for it.
* `results_transparent`: so the results do not depend on the KMS.
-/

namespace AnonReq.Cache

open Kms

/-! ### Hashes with deadlines -/

/-- A hash, with the time of its expiry, in milliseconds. -/
structure LiveHash where
  fields : List (Text × Text)
  expiresAt : Option ℤ
deriving DecidableEq

abbrev Valkey := List (Text × LiveHash)

namespace Valkey

variable (valkey : Valkey) (key : Text) (now : ℤ)

/-- The hash at a key. -/
def find : Option LiveHash :=
  (Dict.get valkey key).filter fun hash => hash.expiresAt.all fun deadline => now ≤ deadline

/-- `HSET key`; `none` is the `DataError` for no fields. -/
def hset (fields : List (Text × Text)) : Option Valkey :=
  if fields.isEmpty then none
  else
    match valkey.find key now with
    | none => some (Dict.set valkey key ⟨Dict.ofList fields, none⟩)
    | some hash => some (Dict.set valkey key { hash with fields := Dict.update hash.fields fields })

/-- `EXPIRE key ttl`. -/
def expire (ttl : ℤ) : Valkey :=
  match valkey.find key now with
  | none => valkey
  | some hash =>
    if ttl ≤ 0 then Dict.erase valkey key
    else Dict.set valkey key { hash with expiresAt := some (now + 1000 * ttl) }

/-- `HGETALL key`. -/
def hgetall : List (Text × Text) := (valkey.find key now).elim [] LiveHash.fields

/-- `DEL key`. -/
def delete : Valkey := Dict.erase valkey key

end Valkey

/-! ### The mapping cache -/

/-- What is drawn for a call of the KMS: a reading of the monotonic clock, and a nonce. -/
structure Draw where
  monotonic : ℚ
  nonce : Nonce

/-- Why a value cannot be read. -/
inductive OpenFailure where
  | base64
  | kms (failure : KmsFailure)
  | unicodeDecode
deriving DecidableEq

/-- What a call raises. -/
inductive MappingError where
  /-- There is nothing to write. -/
  | dataError
  | kms (failure : KmsFailure)
  | dependencyUnavailable (dependency : String)
deriving DecidableEq

/-- `CacheManager`, with its TTL and its KMS. -/
structure MappingCache where
  ttl : ℤ := 300
  kms : Option LocalAES256GCM := none

/-- What the calls read and write: Valkey, and the keys that the KMS keeps. -/
structure CacheState where
  valkey : Valkey := []
  keys : CachedKeys := []

/-- The value that is written for a value of a tenant. -/
def sealValue (K : LocalAES256GCM) (tenantId : Text) (keys : CachedKeys) (draw : Draw)
    (entry : Text × Text) : Except KmsFailure (Text × Text) × CachedKeys :=
  match K.encrypt keys tenantId (Utf8.encode entry.2) draw.nonce draw.monotonic with
  | (.error e, keys) => (.error e, keys)
  | (.ok ciphertext, keys) => (.ok (entry.1, Base64.encode ciphertext), keys)

/-- The value that is read. -/
def openValue (K : LocalAES256GCM) (tenantId : Text) (keys : CachedKeys) (draw : Draw)
    (field : Text × Text) : Except OpenFailure (Text × Text) × CachedKeys :=
  match Base64.decode field.2 with
  | none => (.error .base64, keys)
  | some ciphertext =>
    match K.decrypt keys tenantId ciphertext draw.monotonic with
    | (.error e, keys) => (.error (.kms e), keys)
    | (.ok plaintext, keys) =>
      match Utf8.decode plaintext with
      | none => (.error .unicodeDecode, keys)
      | some value => (.ok (field.1, value), keys)

namespace MappingCache

variable (M : MappingCache)

/-- The fields that are written for a mapping. -/
def sealMapping (keys : CachedKeys) (tenantId : Text) (draws : ℕ → Draw)
    (mapping : List (Text × Text)) : Except KmsFailure (List (Text × Text)) × CachedKeys :=
  match M.kms with
  | none => (.ok mapping, keys)
  | some K => Runs.thread (sealValue K tenantId) keys draws mapping

/-- The mapping that is read from fields. -/
def openMapping (keys : CachedKeys) (tenantId : Text) (draws : ℕ → Draw)
    (raw : List (Text × Text)) : Except OpenFailure (List (Text × Text)) × CachedKeys :=
  match M.kms with
  | none => (.ok raw, keys)
  | some K =>
    if raw.isEmpty then (.ok raw, keys) else Runs.thread (openValue K tenantId) keys draws raw

/-- `store_mapping(tenant_id, session_id, mapping)`. -/
def storeMapping (c : CacheState) (tenantId sessionId : Text) (mapping : List (Text × Text))
    (now : ℤ) (draws : ℕ → Draw) : Except MappingError Unit × CacheState :=
  let key := CacheManager.key tenantId sessionId
  match M.sealMapping c.keys tenantId draws mapping with
  | (.error e, keys) => (.error (.kms e), { c with keys })
  | (.ok fields, keys) =>
    match c.valkey.hset key now fields with
    | none => (.error .dataError, { c with keys })
    | some valkey => (.ok (), { valkey := valkey.expire key now M.ttl, keys })

/-- `get_mapping(tenant_id, session_id)`. -/
def getMapping (c : CacheState) (tenantId sessionId : Text) (now : ℤ) (draws : ℕ → Draw) :
    Except MappingError (List (Text × Text)) × CacheState :=
  let raw := c.valkey.hgetall (CacheManager.key tenantId sessionId) now
  match M.openMapping c.keys tenantId draws raw with
  | (.error _, keys) => (.error (.dependencyUnavailable "kms"), { c with keys })
  | (.ok mapping, keys) => (.ok mapping, { c with keys })

/-- `delete_mapping(tenant_id, session_id)`. -/
def deleteMapping (c : CacheState) (tenantId sessionId : Text) : CacheState :=
  { c with valkey := c.valkey.delete (CacheManager.key tenantId sessionId) }

/-! ### Runs -/

/-- What is called, at a time. The key cache is called for other purposes too. -/
inductive Action where
  | storeMapping (tenantId sessionId : Text) (mapping : List (Text × Text)) (now : ℤ)
      (draws : ℕ → Draw)
  | getMapping (tenantId sessionId : Text) (now : ℤ) (draws : ℕ → Draw)
  | deleteMapping (tenantId sessionId : Text)
  | keyCache (call : KeyCall)

/-- What a call returns or raises. -/
inductive Outcome where
  | done
  | mapping (entries : List (Text × Text))
  | raised (e : MappingError)
deriving DecidableEq

def step (c : CacheState) : Action → Outcome × CacheState
  | .storeMapping tenantId sessionId mapping now draws =>
    match M.storeMapping c tenantId sessionId mapping now draws with
    | (.error e, c) => (.raised e, c)
    | (.ok (), c) => (.done, c)
  | .getMapping tenantId sessionId now draws =>
    match M.getMapping c tenantId sessionId now draws with
    | (.error e, c) => (.raised e, c)
    | (.ok mapping, c) => (.mapping mapping, c)
  | .deleteMapping tenantId sessionId => (.done, deleteMapping c tenantId sessionId)
  | .keyCache call => (.done, { c with keys := M.kms.elim c.keys fun K => K.call c.keys call })

/-- The results of the calls of a run. -/
def results (c : CacheState) : List Action → List Outcome
  | [] => []
  | a :: actions => (M.step c a).1 :: results (M.step c a).2 actions

/-! ### What a session holds -/

/-- The mappings that a session holds, and until when. -/
structure Held where
  mappings : List (List (Text × Text))
  deadline : ℤ

namespace Held

/-- The mappings that have not expired. -/
def current : Option Held → ℤ → List (List (Text × Text))
  | none, _ => []
  | some held, now => if now ≤ held.deadline then held.mappings else []

/-- The union of mappings. Later entries win. -/
def union (mappings : List (List (Text × Text))) : List (Text × Text) :=
  Dict.ofList mappings.flatten

/-- What a session holds after a call: a mapping that is stored for it is held beside the others,
all of them for the TTL. -/
def note (ttl : ℤ) (tenantId sessionId : Text) (held : Option Held) : Action → Option Held
  | .storeMapping tenant session mapping now _ =>
    if tenant = tenantId ∧ session = sessionId ∧ mapping ≠ [] then
      if ttl ≤ 0 then none else some ⟨current held now ++ [mapping], now + 1000 * ttl⟩
    else held
  | .deleteMapping tenant session =>
    if tenant = tenantId ∧ session = sessionId then none else held
  | _ => held

/-- What a session holds after the calls of a run. -/
def after (ttl : ℤ) (tenantId sessionId : Text) (history : List Action) : Option Held :=
  history.foldl (note ttl tenantId sessionId) none

/-- The mappings that have been stored for a session since it was deleted last. -/
def storedSinceDeletion (tenantId sessionId : Text) (history : List Action) :
    List (List (Text × Text)) :=
  history.foldl (fun stored a =>
    match a with
    | .storeMapping tenant session mapping _ _ =>
      if tenant = tenantId ∧ session = sessionId then stored ++ [mapping] else stored
    | .deleteMapping tenant session =>
      if tenant = tenantId ∧ session = sessionId then [] else stored
    | _ => stored) []

end Held

/-- What a call is to return or to raise after other calls. -/
def expectedOutcome (ttl : ℤ) (history : List Action) : Action → Outcome
  | .storeMapping _ _ mapping _ _ => if mapping = [] then .raised .dataError else .done
  | .getMapping tenantId sessionId now _ =>
    .mapping (Held.union (Held.current (Held.after ttl tenantId sessionId history) now))
  | _ => .done

/-- What the calls of a run are to return or to raise. -/
def expected (ttl : ℤ) (history : List Action) : List Action → List Outcome
  | [] => []
  | a :: actions => expectedOutcome ttl history a :: expected ttl (history ++ [a]) actions

end MappingCache

/-! ### The key space -/

namespace Valkey

variable (valkey : Valkey) (key : Text) (now : ℤ)

/-- Writing extends the hash that has not expired, if there is one. -/
theorem hset_eq {fields : List (Text × Text)} (hfields : fields ≠ []) :
    ∃ deadline : Option ℤ, (deadline.all fun t => now ≤ t) = true ∧
      valkey.hset key now fields = some (Dict.set valkey key
        ⟨Dict.update (valkey.hgetall key now) fields, deadline⟩) := by
  rw [hset, if_neg (by simpa using hfields), hgetall]
  cases hfind : valkey.find key now with
  | none => exact ⟨none, rfl, rfl⟩
  | some hash => exact ⟨hash.expiresAt, (Option.filter_eq_some_iff.mp hfind).2, rfl⟩

/-- **The transaction** of a write: the hash has the fields, and the whole of it a new deadline. -/
theorem hset_expire {fields : List (Text × Text)} (hfields : fields ≠ []) (ttl : ℤ) :
    ∃ written, valkey.hset key now fields = some written ∧
      ∀ other, Dict.get (written.expire key now ttl) other =
        if key = other then
          if ttl ≤ 0 then none
          else some ⟨Dict.update (valkey.hgetall key now) fields, some (now + 1000 * ttl)⟩
        else Dict.get valkey other := by
  -- the hash that is written is there still, so that its deadline is set
  obtain ⟨deadline, halive, hset⟩ := valkey.hset_eq key now hfields
  refine ⟨_, hset, fun other => ?_⟩
  have hfind : find (Dict.set valkey key ⟨Dict.update (valkey.hgetall key now) fields, deadline⟩)
      key now = some ⟨Dict.update (valkey.hgetall key now) fields, deadline⟩ := by
    rw [find, Dict.get_set, if_pos rfl, Option.filter_some, if_pos halive]
  rw [expire, hfind]
  dsimp only
  split_ifs with httl hother hother
  · rw [Dict.get_erase, if_pos hother]
  · rw [Dict.get_erase, if_neg hother, Dict.get_set, if_neg hother]
  · rw [Dict.get_set, if_pos hother]
  · rw [Dict.get_set, if_neg hother, Dict.get_set, if_neg hother]

end Valkey

/-- Sessions without a colon have keys of their own. -/
theorem CacheManager.key_inj {tenant session tenantId sessionId : Text} (hs : ':' ∉ session)
    (hs' : ':' ∉ sessionId) :
    key tenant session = key tenantId sessionId ↔ tenant = tenantId ∧ session = sessionId := by
  constructor
  · intro h
    obtain ⟨htenant, hsession⟩ := Splitting.append_cons_inj_of_back hs hs' h
    exact ⟨List.append_cancel_left htenant, hsession⟩
  · rintro ⟨rfl, rfl⟩
    rfl

/-! ### Values -/

section Values

variable {K : LocalAES256GCM} {keys : CachedKeys}

theorem sealValue_spec (hmax : 1 ≤ K.cache.maxEntries) (h : K.Derived keys) (tenantId : Text)
    (draw : Draw) (entry : Text × Text) :
    ∃ keys', sealValue K tenantId keys draw entry =
        (.ok (entry.1, Base64.encode (K.sealed tenantId draw.nonce (Utf8.encode entry.2))), keys') ∧
      K.Derived keys' := by
  obtain ⟨keys', hencrypt, hkeys'⟩ := LocalAES256GCM.encrypt_spec hmax h tenantId
    (Utf8.encode entry.2) draw.nonce draw.monotonic
  exact ⟨keys', by rw [sealValue, hencrypt], hkeys'⟩

/-- **A value that has been written is read.** -/
theorem openValue_spec (hP : K.primitives.Lawful) (hmax : 1 ≤ K.cache.maxEntries)
    (h : K.Derived keys) (tenantId : Text) (draw : Draw) (nonce : Nonce) (token value : Text) :
    ∃ keys', openValue K tenantId keys draw
        (token, Base64.encode (K.sealed tenantId nonce (Utf8.encode value))) =
          (.ok (token, value), keys') ∧ K.Derived keys' := by
  obtain ⟨keys', hdecrypt, hkeys'⟩ := LocalAES256GCM.decrypt_sealed hP hmax h tenantId
    nonce (Utf8.encode value) draw.monotonic
  refine ⟨keys', ?_, hkeys'⟩
  -- base64, the cipher and the encoding are undone one after the other
  rw [openValue, Base64.decode_encode]
  dsimp only
  rw [hdecrypt]
  dsimp only
  rw [Utf8.decode_encode]

end Values

namespace MappingCache

variable {M : MappingCache} {keys : CachedKeys}

/-! ### Mappings -/

/-- What is written for a value of a tenant. -/
def Stores (M : MappingCache) (tenantId value text : Text) : Prop :=
  match M.kms with
  | none => text = value
  | some K => ∃ nonce, text = Base64.encode (K.sealed tenantId nonce (Utf8.encode value))

/-- What is assumed of the KMS, if there is one: the cipher decrypts what it has encrypted, and the
key cache has room for a key. -/
def Sound (M : MappingCache) : Prop :=
  ∀ K ∈ M.kms, K.primitives.Lawful ∧ 1 ≤ K.cache.maxEntries

/-- The keys that the KMS keeps are derived ones. -/
def KeepsDerived (M : MappingCache) (keys : CachedKeys) : Prop := ∀ K ∈ M.kms, K.Derived keys

/-- A mapping is written field by field. -/
theorem sealMapping_spec (hM : M.Sound) (h : M.KeepsDerived keys) (tenantId : Text)
    (draws : ℕ → Draw) (mapping : List (Text × Text)) :
    ∃ fields keys', M.sealMapping keys tenantId draws mapping = (.ok fields, keys') ∧
      Dict.Rel (M.Stores tenantId) mapping fields ∧ M.KeepsDerived keys' := by
  cases hkms : M.kms with
  | none =>
    refine ⟨mapping, keys, by rw [sealMapping, hkms], ?_, h⟩
    exact List.forall₂_same.mpr fun e _ => ⟨rfl, by rw [Stores, hkms]⟩
  | some K =>
    obtain ⟨-, hmax⟩ := hM K hkms
    have hone : ∀ keys draw entry, K.Derived keys → ∃ field keys',
        sealValue K tenantId keys draw entry = (.ok field, keys') ∧
          (entry.1 = field.1 ∧ M.Stores tenantId entry.2 field.2) ∧ K.Derived keys' := by
      intro keys draw entry h
      obtain ⟨keys', hseal, hkeys'⟩ := sealValue_spec hmax h tenantId draw entry
      refine ⟨_, keys', hseal, ⟨rfl, ?_⟩, hkeys'⟩
      rw [Stores, hkms]
      exact ⟨draw.nonce, rfl⟩
    obtain ⟨fields, keys', hthread, hfields, hkeys'⟩ :=
      Runs.exists_thread hone (h K hkms) draws mapping
    refine ⟨fields, keys', by rw [sealMapping, hkms]; exact hthread, hfields, ?_⟩
    exact fun K' hK' => Option.some.inj (hkms.symm.trans hK') ▸ hkeys'

/-- **A mapping that has been written is read.** -/
theorem openMapping_spec (hM : M.Sound) (h : M.KeepsDerived keys) {tenantId : Text}
    {mapping fields : List (Text × Text)} (hfields : Dict.Rel (M.Stores tenantId) mapping fields)
    (draws : ℕ → Draw) :
    ∃ keys', M.openMapping keys tenantId draws fields = (.ok mapping, keys') ∧
      M.KeepsDerived keys' := by
  cases hkms : M.kms with
  | none =>
    have heq : mapping = fields := by
      refine List.forall₂_eq_eq_eq ▸ hfields.imp fun e field he => ?_
      rw [Stores, hkms] at he
      exact Prod.ext he.1 he.2.symm
    exact ⟨keys, by rw [openMapping, hkms, heq], h⟩
  | some K =>
    obtain ⟨hlawful, hmax⟩ := hM K hkms
    have hone : ∀ keys draw (entry field : Text × Text), K.Derived keys →
        (entry.1 = field.1 ∧ M.Stores tenantId entry.2 field.2) →
        ∃ keys', openValue K tenantId keys draw field = (.ok entry, keys') ∧ K.Derived keys' := by
      rintro keys draw ⟨token, value⟩ ⟨token', text⟩ h ⟨rfl, hstores⟩
      rw [Stores, hkms] at hstores
      obtain ⟨nonce, rfl⟩ := hstores
      exact openValue_spec hlawful hmax h tenantId draw nonce token value
    obtain ⟨keys', hthread, hkeys'⟩ :=
      Runs.thread_of_forall₂ hone hfields (h K hkms) draws
    rw [openMapping, hkms]
    dsimp only
    -- fields that are empty are returned as they are
    split_ifs with hempty
    · obtain rfl := List.isEmpty_iff.mp hempty
      obtain rfl := List.forall₂_nil_right_iff.mp hfields
      exact ⟨keys, rfl, h⟩
    · exact ⟨keys', hthread, fun K' hK' => Option.some.inj (hkms.symm.trans hK') ▸ hkeys'⟩

/-! ### Steps -/

/-- The hash of a session has what the session holds. -/
def Represents (M : MappingCache) (tenantId : Text) : Option LiveHash → Option Held → Prop :=
  Option.Rel fun hash held =>
    Dict.Rel (M.Stores tenantId) (Held.union held.mappings) hash.fields ∧
      hash.expiresAt = some held.deadline

/-- **The invariant** after the calls of a run: the keys are derived ones, and every session has
what was stored for it. -/
structure Consistent (M : MappingCache) (history : List Action) (c : CacheState) : Prop where
  keys : M.KeepsDerived c.keys
  valkey : ∀ tenantId sessionId, ':' ∉ sessionId →
    M.Represents tenantId (Dict.get c.valkey (CacheManager.key tenantId sessionId))
      (Held.after M.ttl tenantId sessionId history)

/-- The session of a call has no colon. -/
def Action.NoColon : Action → Prop
  | .storeMapping _ sessionId _ _ _ | .getMapping _ sessionId _ _ | .deleteMapping _ sessionId =>
    ':' ∉ sessionId
  | .keyCache _ => True

instance : DecidablePred Action.NoColon
  | .storeMapping _ sessionId _ _ _ => inferInstanceAs (Decidable (':' ∉ sessionId))
  | .getMapping _ sessionId _ _ => inferInstanceAs (Decidable (':' ∉ sessionId))
  | .deleteMapping _ sessionId => inferInstanceAs (Decidable (':' ∉ sessionId))
  | .keyCache _ => inferInstanceAs (Decidable True)

theorem consistent_nil (M : MappingCache) : M.Consistent [] {} where
  keys := fun _ _ => LocalAES256GCM.derived_nil
  valkey := fun _ _ _ => Option.Rel.none

theorem Held.after_append (ttl : ℤ) (tenantId sessionId : Text) (history : List Action)
    (a : Action) : Held.after ttl tenantId sessionId (history ++ [a]) =
      Held.note ttl tenantId sessionId (Held.after ttl tenantId sessionId history) a :=
  List.foldl_concat _ _ _ _

theorem Held.union_concat (mappings : List (List (Text × Text))) (mapping : List (Text × Text)) :
    Held.union (mappings ++ [mapping]) = Dict.update (Held.union mappings) mapping := by
  rw [Held.union, List.flatten_append, List.flatten_singleton, Dict.ofList, Dict.update,
    List.foldl_append]
  rfl

/-- What is read before the deadline is what the session holds. -/
theorem Represents.hgetall {tenantId key : Text} {valkey : Valkey} {held : Option Held}
    (h : M.Represents tenantId (Dict.get valkey key) held) (now : ℤ) :
    Dict.Rel (M.Stores tenantId) (Held.union (Held.current held now)) (valkey.hgetall key now) := by
  rw [Valkey.hgetall, Valkey.find]
  generalize Dict.get valkey key = stored at h
  cases h with
  | none => exact List.Forall₂.nil
  | @some hash held h =>
    obtain ⟨hfields, hdeadline⟩ := h
    rw [Option.filter_some, hdeadline, Option.all_some, Held.current]
    by_cases hnow : now ≤ held.deadline
    · rw [if_pos hnow, if_pos (decide_eq_true hnow)]
      exact hfields
    · rw [if_neg hnow, if_neg (by simpa using hnow)]
      exact List.Forall₂.nil

variable {history : List Action}

/-- A call that changes no hash. -/
theorem Consistent.of_keys {c : CacheState} (h : M.Consistent history c) {keys : CachedKeys}
    (hkeys : M.KeepsDerived keys) {a : Action}
    (ha : ∀ tenantId sessionId held, Held.note M.ttl tenantId sessionId held a = held) :
    M.Consistent (history ++ [a]) { c with keys } where
  keys := hkeys
  valkey := fun tenantId sessionId hsession => by
    rw [Held.after_append, ha]
    exact h.valkey tenantId sessionId hsession

theorem storeMapping_spec (hM : M.Sound) {c : CacheState} (h : M.Consistent history c)
    (tenantId : Text) {sessionId : Text} (hsession : ':' ∉ sessionId) (mapping : List (Text × Text))
    (now : ℤ) (draws : ℕ → Draw) :
    ∃ c', M.storeMapping c tenantId sessionId mapping now draws =
        (if mapping = [] then .error .dataError else .ok (), c') ∧
      M.Consistent (history ++ [.storeMapping tenantId sessionId mapping now draws]) c' := by
  obtain ⟨fields, keys, hseal, hfields, hkeys⟩ := sealMapping_spec hM h.keys tenantId draws mapping
  rw [storeMapping, hseal]
  dsimp only
  by_cases hmapping : mapping = []
  · -- there is nothing to write, with a KMS or without
    have hempty : fields = [] := List.forall₂_nil_left_iff.mp (hmapping ▸ hfields)
    have hnote : ∀ tenant session held, Held.note M.ttl tenant session held
        (.storeMapping tenantId sessionId mapping now draws) = held := by
      intro tenant session held
      exact if_neg fun hcase => hcase.2.2 hmapping
    refine ⟨{ c with keys }, ?_, h.of_keys hkeys hnote⟩
    rw [if_pos hmapping, Valkey.hset, hempty]
    rfl
  · have hne : fields ≠ [] := fun hempty =>
      hmapping (List.forall₂_nil_right_iff.mp (hempty ▸ hfields))
    obtain ⟨written, hset, hget⟩ :=
      c.valkey.hset_expire (CacheManager.key tenantId sessionId) now hne M.ttl
    rw [hset, if_neg hmapping]
    refine ⟨_, rfl, hkeys, fun tenant session hnocolon => ?_⟩
    have hkey := @CacheManager.key_inj tenantId sessionId tenant session hsession hnocolon
    have hrest := h.valkey tenant session hnocolon
    rw [Held.after_append, hget, Held.note]
    have hnoted : (tenantId = tenant ∧ sessionId = session ∧ mapping ≠ []) ↔
        tenantId = tenant ∧ sessionId = session := by
      rw [← and_assoc, and_iff_left hmapping]
    by_cases hsame : tenantId = tenant ∧ sessionId = session
    · rw [if_pos (hkey.mpr hsame), if_pos (hnoted.mpr hsame)]
      obtain ⟨rfl, rfl⟩ := hsame
      split_ifs
      · exact Option.Rel.none
      · -- the fields are added to those that are read, the mapping to those that are held
        refine Option.Rel.some ⟨?_, rfl⟩
        rw [Held.union_concat]
        exact (hrest.hgetall now).update hfields
    · rw [if_neg (mt hkey.mp hsame), if_neg (mt hnoted.mp hsame)]
      exact hrest

theorem getMapping_spec (hM : M.Sound) {c : CacheState} (h : M.Consistent history c)
    (tenantId : Text) {sessionId : Text} (hsession : ':' ∉ sessionId) (now : ℤ) (draws : ℕ → Draw) :
    ∃ c', M.getMapping c tenantId sessionId now draws = (.ok (Held.union
        (Held.current (Held.after M.ttl tenantId sessionId history) now)), c') ∧
      M.Consistent (history ++ [.getMapping tenantId sessionId now draws]) c' := by
  have hfields := (h.valkey tenantId sessionId hsession).hgetall now
  obtain ⟨keys, hopen, hkeys⟩ := openMapping_spec hM h.keys hfields draws
  refine ⟨{ c with keys }, ?_, h.of_keys hkeys fun _ _ _ => rfl⟩
  rw [getMapping, hopen]

theorem deleteMapping_spec {c : CacheState} (h : M.Consistent history c) (tenantId : Text)
    {sessionId : Text} (hsession : ':' ∉ sessionId) :
    M.Consistent (history ++ [.deleteMapping tenantId sessionId])
      (deleteMapping c tenantId sessionId) where
  keys := h.keys
  valkey := fun tenant session hnocolon => by
    have hkey := @CacheManager.key_inj tenantId sessionId tenant session hsession hnocolon
    rw [Held.after_append, deleteMapping, Valkey.delete, Dict.get_erase, Held.note]
    by_cases hsame : tenantId = tenant ∧ sessionId = session
    · rw [if_pos (hkey.mpr hsame), if_pos hsame]
      exact Option.Rel.none
    · rw [if_neg (mt hkey.mp hsame), if_neg hsame]
      exact h.valkey tenant session hnocolon

/-- **One call** returns or raises what it is to, and keeps the invariant. -/
theorem step_spec (hM : M.Sound) {c : CacheState} (h : M.Consistent history c) {a : Action}
    (ha : a.NoColon) :
    ∃ c', M.step c a = (expectedOutcome M.ttl history a, c') ∧
      M.Consistent (history ++ [a]) c' := by
  cases a with
  | storeMapping tenantId sessionId mapping now draws =>
    obtain ⟨c', hstore, hc'⟩ := storeMapping_spec hM h tenantId ha mapping now draws
    refine ⟨c', ?_, hc'⟩
    rw [step, hstore, expectedOutcome]
    split_ifs <;> rfl
  | getMapping tenantId sessionId now draws =>
    obtain ⟨c', hget, hc'⟩ := getMapping_spec hM h tenantId ha now draws
    exact ⟨c', by rw [step, hget]; rfl, hc'⟩
  | deleteMapping tenantId sessionId => exact ⟨_, rfl, deleteMapping_spec h tenantId ha⟩
  | keyCache call =>
    -- the key cache is no part of what a session holds
    refine ⟨_, rfl, h.of_keys ?_ fun _ _ _ => rfl⟩
    intro K hK
    rw [Option.mem_def.mp hK]
    exact (h.keys K hK).call (hM K hK).2 call

/-- **Every run.** -/
theorem results_eq_expected (hM : M.Sound) {c : CacheState} (h : M.Consistent history c)
    {actions : List Action} (hactions : ∀ a ∈ actions, a.NoColon) :
    M.results c actions = expected M.ttl history actions := by
  induction actions generalizing history c with
  | nil => rfl
  | cons a actions ih =>
    obtain ⟨ha, hrest⟩ := List.forall_mem_cons.mp hactions
    obtain ⟨c', hstep, hc'⟩ := step_spec hM h ha
    rw [results, expected, hstep, ih hc' hrest]

/-- **Mappings do not depend on the KMS**, and sessions are apart: with a KMS and without, the calls
of a run return and raise the same. -/
theorem results_transparent (ttl : ℤ) {K : LocalAES256GCM} (hP : K.primitives.Lawful)
    (hmax : 1 ≤ K.cache.maxEntries) {actions : List Action} (hactions : ∀ a ∈ actions, a.NoColon) :
    results ⟨ttl, some K⟩ {} actions = expected ttl [] actions ∧
      results ⟨ttl, none⟩ {} actions = expected ttl [] actions := by
  have hwith : Sound ⟨ttl, some K⟩ := fun K' hK' => Option.some.inj hK' ▸ ⟨hP, hmax⟩
  have hwithout : Sound ⟨ttl, none⟩ := fun K' hK' => absurd hK' (Option.not_mem_none K')
  exact ⟨results_eq_expected hwith (consistent_nil _) hactions,
    results_eq_expected hwithout (consistent_nil _) hactions⟩

/-! ### A sample -/

section Sample

def sampleMasterKey : Bytes := (List.range 32).map UInt8.ofNat

def sampleNonce : Nonce := ⟨[1, 2, 3, 4, 5, 6, 7, 8, 9, 10, 11, 12], rfl⟩

def sampleMapping : List (Text × Text) := [("[EMAIL_1]".toList, "ann@x.org".toList)]

def sampleInfo : Bytes := Utf8.encode "anonreq-tenant-acme".toList

def sampleValue : Bytes := Utf8.encode "ann@x.org".toList

/-- The data key of the tenant. -/
def sampleKey : Bytes :=
  [0x8c, 0x39, 0xc1, 0xe1, 0x04, 0x93, 0x38, 0x14, 0xe7, 0xa9, 0xca, 0x42, 0x25, 0x53, 0x0b, 0x30,
    0x0f, 0x1e, 0x73, 0xbf, 0xad, 0x1e, 0xf8, 0x2e, 0x76, 0xf0, 0x7b, 0x98, 0x22, 0xee, 0xac, 0xfd]

/-- The value under the data key and the nonce, with the tag. -/
def sampleCiphertext : Bytes :=
  [0x0d, 0x10, 0x8c, 0xef, 0x0b, 0xc0, 0x68, 0xf7, 0xdd, 0xc7, 0xc8, 0x0e, 0x19, 0xf2, 0x82, 0x69,
    0xca, 0x93, 0x3b, 0xbc, 0xfa, 0x73, 0xae, 0x50, 0x2b]

/-- The primitives on the sample. Elsewhere the tag is empty. -/
def samplePrimitives : Primitives where
  derive := fun info masterKey =>
    if info = sampleInfo ∧ masterKey = sampleMasterKey then sampleKey else List.replicate 32 0
  encrypt := fun key nonce data =>
    if key = sampleKey ∧ nonce = sampleNonce.val ∧ data = sampleValue then sampleCiphertext
    else data ++ List.replicate 16 0
  decrypt := fun key nonce ciphertext =>
    if key = sampleKey ∧ nonce = sampleNonce.val ∧ ciphertext = sampleCiphertext then
      some sampleValue
    else if ciphertext.drop (ciphertext.length - 16) = List.replicate 16 0 then
      some (ciphertext.take (ciphertext.length - 16))
    else none

theorem samplePrimitives_lawful : samplePrimitives.Lawful := by
  intro key nonce data
  have hlength : (data ++ List.replicate 16 (0 : UInt8)).length - 16 = data.length := by simp
  have htag : data ++ List.replicate 16 0 ≠ sampleCiphertext := by
    intro h
    have hdrop := congrArg (fun bytes : Bytes => bytes.drop (bytes.length - 16)) h
    simp only [hlength, List.drop_left] at hdrop
    exact absurd hdrop (by decide)
  simp only [samplePrimitives]
  by_cases hsample : key = sampleKey ∧ nonce = sampleNonce.val ∧ data = sampleValue
  · rw [if_pos hsample, if_pos ⟨hsample.1, hsample.2.1, rfl⟩, hsample.2.2]
  · rw [if_neg hsample, if_neg fun h => htag h.2.2, hlength, List.drop_left, if_pos rfl,
      List.take_left]

def sampleKms : LocalAES256GCM where
  primitives := samplePrimitives
  masterKey := sampleMasterKey

/-- Something is drawn at a time. -/
def sampleDraws (monotonic : ℚ) : ℕ → Draw := fun _ => ⟨monotonic, sampleNonce⟩

/-- A mapping is stored and read twice, the second time with a key that is derived anew. Another
tenant has none. -/
def sampleActions : List Action :=
  [.storeMapping "acme".toList "s1".toList sampleMapping 0 (sampleDraws 0),
    .getMapping "acme".toList "s1".toList 1000 (sampleDraws 1),
    .keyCache .clear,
    .getMapping "acme".toList "s1".toList 300000 (sampleDraws 300),
    .getMapping "acme:s1".toList "s1".toList 300000 (sampleDraws 300),
    .deleteMapping "acme".toList "s1".toList,
    .getMapping "acme".toList "s1".toList 300001 (sampleDraws 301)]

def sampleOutcomes : List Outcome :=
  [.done, .mapping sampleMapping, .done, .mapping sampleMapping, .mapping [], .done, .mapping []]

theorem results_transparent_sample :
    results ⟨300, some sampleKms⟩ {} sampleActions = sampleOutcomes ∧
      results ⟨300, none⟩ {} sampleActions = sampleOutcomes := by
  have hexpected : expected 300 [] sampleActions = sampleOutcomes := by decide
  have hmax : 1 ≤ sampleKms.cache.maxEntries := by decide
  have hactions : ∀ a ∈ sampleActions, a.NoColon := by decide
  exact hexpected ▸ results_transparent 300 samplePrimitives_lawful hmax hactions

/-- The hash expires although it has not been deleted; and where the key cache has no room for a
key, a mapping can only be stored without a KMS. -/
theorem not_held_until_deleted :
    (¬ ∀ (M : MappingCache) (before : List Action) (tenantId sessionId : Text) (now : ℤ)
      (draws : ℕ → Draw), (∀ K ∈ M.kms, K.primitives.Lawful) →
        (∀ a ∈ before, a.NoColon) → ':' ∉ sessionId →
        (M.results {} (before ++ [.getMapping tenantId sessionId now draws])).getLast? =
          some (.mapping (Held.union (Held.storedSinceDeletion tenantId sessionId before)))) ∧
    ¬ ∀ (ttl : ℤ) (K : LocalAES256GCM) (actions : List Action), K.primitives.Lawful →
      (∀ a ∈ actions, a.NoColon) →
        results ⟨ttl, some K⟩ {} actions = results ⟨ttl, none⟩ {} actions := by
  let stored : List Action :=
    [.storeMapping "acme".toList "s1".toList sampleMapping 0 (sampleDraws 0)]
  have hstored : ∀ a ∈ stored, a.NoColon := by decide
  constructor
  · intro h
    have hget := h ⟨300, none⟩ stored "acme".toList "s1".toList 300001 (sampleDraws 301)
      (fun K hK => absurd hK (Option.not_mem_none K)) hstored (by decide)
    exact absurd hget (by decide)
  · intro h
    have hsame := h 300 { sampleKms with cache := { maxEntries := 0 } } stored
      samplePrimitives_lawful hstored
    exact absurd hsame (by decide)

end Sample

end MappingCache

end AnonReq.Cache
