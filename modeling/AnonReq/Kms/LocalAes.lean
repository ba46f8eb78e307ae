import Mathlib.Data.List.MinMax
import Mathlib.Algebra.Order.Ring.Rat
import AnonReq.Foundation.Characters
import AnonReq.Foundation.Dict
import AnonReq.Foundation.Utf8

/-!
# The local key management

`kms/cache.py` and `kms/local.py`: data keys are derived from a master key and kept for a while, a
bounded number of them; values are encrypted with the key of their tenant, and the nonce is put in
front. The key derivation and the cipher are parameters.

* `getOrDerive_spec`: the key is the derived one, whatever has been kept, evicted or has expired.
* `decrypt_sealed`: what was encrypted for a tenant is decrypted for it.
-/

namespace AnonReq.Kms

abbrev Bytes := List UInt8

/-- The key derivation `HKDF(info=info).derive(master_key)`, and the cipher: `AESGCM(key).encrypt`
and `AESGCM(key).decrypt` without associated data, where `none` is the exception `InvalidTag`. -/
structure Primitives where
  derive : Bytes → Bytes → Bytes
  encrypt : Bytes → Bytes → Bytes → Bytes
  decrypt : Bytes → Bytes → Bytes → Option Bytes

/-- What has been encrypted is decrypted with the same key and nonce. -/
def Primitives.Lawful (P : Primitives) : Prop :=
  ∀ key nonce data, P.decrypt key nonce (P.encrypt key nonce data) = some data

/-- How a call fails. -/
inductive KmsFailure
  | valueError (message : String)
  | invalidTag
deriving DecidableEq

/-! ### The key cache -/

/-- `CachedKey`. -/
structure CachedKey where
  dataKey : Bytes
  expiresAt : ℚ
deriving DecidableEq

/-- `_cache`. -/
abbrev CachedKeys := List (Text × CachedKey)

/-- `InMemoryKeyCache`. -/
structure InMemoryKeyCache where
  ttlSeconds : ℤ := 300
  maxEntries : ℤ := 1000

/-- `LocalAES256GCM`, with its key cache. -/
structure LocalAES256GCM where
  primitives : Primitives
  masterKey : Bytes
  cache : InMemoryKeyCache := {}

/-- A nonce that is drawn. -/
abbrev Nonce := { bytes : Bytes // bytes.length = 12 }

/-- A call of the key cache. -/
inductive KeyCall where
  | getOrDerive (tenantId : Text) (now : ℚ)
  | invalidate (tenantId : Text)
  | clear

/-- `min(self._cache, key=...)`: the key that expires first. -/
def oldestKey (keys : CachedKeys) : Option Text :=
  (keys.argmin fun e => e.2.expiresAt).map Prod.fst

namespace LocalAES256GCM

variable (K : LocalAES256GCM)

/-- The data key that is derived for a tenant. -/
def dataKey (tenantId : Text) : Bytes :=
  K.primitives.derive (Utf8.encode ("anonreq-tenant-".toList ++ tenantId)) K.masterKey

/-- `get_or_derive(tenant_id, self._master_key)` at a reading of the clock. -/
def getOrDerive (keys : CachedKeys) (tenantId : Text) (now : ℚ) :
    Except KmsFailure Bytes × CachedKeys :=
  match (Dict.get keys tenantId).filter fun cached => now < cached.expiresAt with
  | some cached => (.ok cached.dataKey, keys)
  | none =>
    let dataKey := K.dataKey tenantId
    let cached : CachedKey := ⟨dataKey, now + K.cache.ttlSeconds⟩
    if K.cache.maxEntries ≤ keys.length ∧ tenantId ∉ keys.map Prod.fst then
      match oldestKey keys with
      | none => (.error (.valueError "min() iterable argument is empty"), keys)
      | some oldest => (.ok dataKey, Dict.set (Dict.erase keys oldest) tenantId cached)
    else (.ok dataKey, Dict.set keys tenantId cached)

/-- What is kept after a call of the key cache. -/
def call (keys : CachedKeys) : KeyCall → CachedKeys
  | .getOrDerive tenantId now => (K.getOrDerive keys tenantId now).2
  | .invalidate tenantId => Dict.erase keys tenantId
  | .clear => []

/-- `encrypt`, with the nonce that is drawn. -/
def encrypt (keys : CachedKeys) (tenantId : Text) (plaintext : Bytes) (nonce : Nonce) (now : ℚ) :
    Except KmsFailure Bytes × CachedKeys :=
  match K.getOrDerive keys tenantId now with
  | (.error e, keys) => (.error e, keys)
  | (.ok dataKey, keys) =>
    (.ok (nonce.val ++ K.primitives.encrypt dataKey nonce.val plaintext), keys)

/-- `decrypt`. -/
def decrypt (keys : CachedKeys) (tenantId : Text) (ciphertext : Bytes) (now : ℚ) :
    Except KmsFailure Bytes × CachedKeys :=
  if ciphertext.length < 12 then (.error (.valueError "ciphertext too short"), keys)
  else
    let nonce := ciphertext.take 12
    let ciphertextWithTag := ciphertext.drop 12
    match K.getOrDerive keys tenantId now with
    | (.error e, keys) => (.error e, keys)
    | (.ok dataKey, keys) =>
      match K.primitives.decrypt dataKey nonce ciphertextWithTag with
      | none => (.error .invalidTag, keys)
      | some plaintext => (.ok plaintext, keys)

/-! ### Derived keys -/

/-- **The kept keys are derived ones.** -/
def Derived (keys : CachedKeys) : Prop := ∀ e ∈ keys, e.2.dataKey = K.dataKey e.1

variable {K} {keys : CachedKeys}

theorem derived_nil : K.Derived [] := fun _ he => absurd he List.not_mem_nil

theorem Derived.erase (h : K.Derived keys) (tenantId : Text) :
    K.Derived (Dict.erase keys tenantId) := fun _ he => h _ (List.mem_of_mem_filter he)

theorem Derived.set (h : K.Derived keys) (tenantId : Text) (expiresAt : ℚ) :
    K.Derived (Dict.set keys tenantId ⟨K.dataKey tenantId, expiresAt⟩) := by
  intro e he
  obtain rfl | he := Dict.mem_of_mem_set he
  · rfl
  · exact h e he

/-- **The key is the derived one**, if the cache has room for a key at all. -/
theorem getOrDerive_spec (hmax : 1 ≤ K.cache.maxEntries) (h : K.Derived keys) (tenantId : Text)
    (now : ℚ) : ∃ keys', K.getOrDerive keys tenantId now = (.ok (K.dataKey tenantId), keys') ∧
      K.Derived keys' := by
  unfold getOrDerive
  cases hcached : (Dict.get keys tenantId).filter fun cached => decide (now < cached.expiresAt) with
  | some cached =>
    have hmem := Dict.mem_of_get_eq_some (Option.filter_eq_some_iff.mp hcached).1
    exact ⟨keys, congrArg (fun key => (Except.ok key, keys)) (h _ hmem), h⟩
  | none =>
    dsimp only
    split_ifs with hfull
    · cases holdest : oldestKey keys with
      | some oldest => exact ⟨_, rfl, (h.erase oldest).set tenantId _⟩
      | none =>
        -- a full cache with room for a key has a key
        rw [oldestKey, Option.map_eq_none_iff, List.argmin_eq_none] at holdest
        rw [holdest, List.length_nil] at hfull
        omega
    · exact ⟨_, rfl, h.set tenantId _⟩

theorem Derived.call (hmax : 1 ≤ K.cache.maxEntries) (h : K.Derived keys) (call : KeyCall) :
    K.Derived (K.call keys call) := by
  cases call with
  | getOrDerive tenantId now =>
    obtain ⟨keys', hkey, hkeys'⟩ := getOrDerive_spec hmax h tenantId now
    rw [LocalAES256GCM.call, hkey]
    exact hkeys'
  | invalidate tenantId => exact h.erase tenantId
  | clear => exact derived_nil

/-! ### Sealed values -/

variable (K) in
/-- What a value is encrypted as. -/
def sealed (tenantId : Text) (nonce : Nonce) (plaintext : Bytes) : Bytes :=
  nonce.val ++ K.primitives.encrypt (K.dataKey tenantId) nonce.val plaintext

theorem encrypt_spec (hmax : 1 ≤ K.cache.maxEntries) (h : K.Derived keys) (tenantId : Text)
    (plaintext : Bytes) (nonce : Nonce) (now : ℚ) :
    ∃ keys', K.encrypt keys tenantId plaintext nonce now =
        (.ok (K.sealed tenantId nonce plaintext), keys') ∧ K.Derived keys' := by
  obtain ⟨keys', hkey, hkeys'⟩ := getOrDerive_spec hmax h tenantId now
  exact ⟨keys', by rw [encrypt, hkey]; rfl, hkeys'⟩

/-- **What was encrypted for a tenant is decrypted for it**, whatever has become of the cache. -/
theorem decrypt_sealed (hP : K.primitives.Lawful) (hmax : 1 ≤ K.cache.maxEntries)
    (h : K.Derived keys) (tenantId : Text) (nonce : Nonce) (plaintext : Bytes) (now : ℚ) :
    ∃ keys', K.decrypt keys tenantId (K.sealed tenantId nonce plaintext) now =
        (.ok plaintext, keys') ∧ K.Derived keys' := by
  obtain ⟨keys', hkey, hkeys'⟩ := getOrDerive_spec hmax h tenantId now
  -- the nonce is cut off where it was put in front
  have hnonce := nonce.property
  have hlength : ¬ (K.sealed tenantId nonce plaintext).length < 12 := by
    rw [sealed, List.length_append]
    omega
  have hfront : (K.sealed tenantId nonce plaintext).take 12 = nonce.val := List.take_left' hnonce
  have hrest : (K.sealed tenantId nonce plaintext).drop 12 =
      K.primitives.encrypt (K.dataKey tenantId) nonce.val plaintext := List.drop_left' hnonce
  refine ⟨keys', ?_, hkeys'⟩
  rw [decrypt, if_neg hlength]
  dsimp only
  rw [hkey, hfront, hrest]
  dsimp only
  rw [hP]

end LocalAES256GCM

end AnonReq.Kms
