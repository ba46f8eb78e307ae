import AnonReq.Foundation.Base64
import AnonReq.Foundation.Json
import AnonReq.Foundation.Runs
import AnonReq.Foundation.Splitting
import Mathlib.Algebra.Order.Field.Rat

/-!
# Verification of OpenID tokens

`OIDCVerifier.verify_authorization` and `JWKSCache` of `auth/oidc.py`, and the guard of
`admin/auth.py` around them. The key sets that are fetched are any JSON objects, tokens any texts.

* The making of an RSA key from its numbers, the verification of a signature and the reading of JSON
  from bytes are parameters. Calls that overlap are taken in the order in which they look their key
  up in the end, since a lock lets one refresh at a time.
* `Accepted` says what a principal is returned for, `CallSound` what is asked of a call.
* `MayCall` says that a call comes to no exception but those of the verifier.
* `sound_iff`: the calls of a run are sound if and only if none comes to another exception.
* `not_sound`: a token whose header is a list.
-/

namespace AnonReq.Auth

variable {K : Type}

/-! ### Library and exceptions -/

/-- What the verifier rests on: `str.lower`, `json.loads` of bytes, `RSAPublicNumbers.public_key` of
an exponent and a modulus, and whether a signature of a text verifies. -/
structure OidcLibrary (K : Type) where
  lower : Text → Text
  loads : List UInt8 → Option Json
  rsaPublicKey : ℕ → ℕ → Option K
  verify : K → List UInt8 → Text → Bool

/-- What is raised. -/
inductive Raised where
  | oidcVerificationError (message : String)
  | attributeError
  | typeError
  | keyError
  | valueError
  | fetchError

/-- `_b64url_decode`. -/
def b64urlDecode (value : Text) : Option (List UInt8) :=
  let standard := value.map fun c => if c = '-' then '+' else if c = '_' then '/' else c
  Base64.decode (standard ++ List.replicate ((4 - value.length % 4) % 4) '=')

/-- `int.from_bytes(data, "big")`. -/
def fromBytes (data : List UInt8) : ℕ := data.foldl (fun n b => 256 * n + b.toNat) 0

/-- `value == text`. -/
def isText (value : Option Json) (text : Text) : Bool :=
  match value with
  | some (.text s) => s == text
  | _ => false

/-- `isinstance(document, dict)`. -/
def isObject : Json → Bool
  | .object _ => true
  | _ => false

/-! ### Keys -/

/-- A number of a key. -/
def intField (jwk : Json) (name : String) : Except Raised ℕ :=
  match jwk.get name.toList with
  | none => .error .keyError
  | some (.text value) =>
    match b64urlDecode value with
    | none => .error .valueError
    | some data => .ok (fromBytes data)
  | some _ => .error .typeError

variable (L : OidcLibrary K)

/-- `_public_key_from_jwk`. -/
def publicKeyFromJwk (jwk : Json) : Except Raised K :=
  if isText (jwk.get "kty".toList) "RSA".toList then do
    let n ← intField jwk "n"
    let e ← intField jwk "e"
    match L.rsaPublicKey e n with
    | none => .error .valueError
    | some key => .ok key
  else .error .valueError

/-- The fields of a key set. -/
abbrev Jwks := List (Text × Json)

/-- An entry of a key set that is not passed over, with its identifier. -/
def named (rawKey : Json) : Option (Text × Json) :=
  match rawKey with
  | .object fields =>
    match (Json.object fields).get "kid".toList with
    | some (.text kid) => if kid = [] then none else some (kid, rawKey)
    | _ => none
  | _ => none

/-- The entries of a key set that are not passed over. The characters of a text and the keys of an
object are; other values cannot be iterated. -/
def entries (jwks : Jwks) : Except Raised (List (Text × Json)) :=
  match (Json.object jwks).get "keys".toList with
  | none | some (.text _) | some (.object _) => .ok []
  | some (.list items) => .ok (items.filterMap named)
  | some _ => .error .typeError

/-- The key of an entry, with its identifier. -/
def entryKey (e : Text × Json) : Except Raised (Text × K) :=
  (publicKeyFromJwk L e.2).map fun key => (e.1, key)

/-- The keys of a key set, by their identifiers. -/
def keysOf (jwks : Jwks) : Except Raised (List (Text × K)) := do
  let items ← entries jwks
  let keys ← items.mapM (entryKey L)
  return Dict.ofList keys

/-! ### The cache -/

/-- `OIDCVerifier`, with the lifetime of its cache. -/
structure OidcVerifier where
  issuer : Text
  audience : Text
  roleClaim : Text := "role".toList
  ttlSeconds : ℤ := 300

/-- `JWKSCache`. -/
structure JWKSCache (K : Type) where
  keys : List (Text × K) := []
  expiresAt : ℚ := 0

/-- `_is_fresh`. -/
def JWKSCache.isFresh (s : JWKSCache K) (now : ℚ) : Bool :=
  !s.keys.isEmpty && decide (now < s.expiresAt)

/-- The key of an identifier in a fresh cache. -/
def JWKSCache.cached (s : JWKSCache K) (kid : Text) (now : ℚ) : Option K :=
  if s.isFresh now then Dict.get s.keys kid else none

/-- A call of `verify_authorization`: the header, the times of the two lookups, what a fetch returns
if there is one and when it has returned, and the time of the wall clock. -/
structure Call where
  authorization : Option Text
  lookup : ℚ
  relookup : ℚ
  fetch : Option Jwks
  fetchedAt : ℚ
  wall : ℤ

/-- The key that a call finds in the cache, before or after the lock is taken. -/
def Call.found (c : Call) (kid : Text) (s : JWKSCache K) : Option K :=
  (s.cached kid c.lookup).or (s.cached kid c.relookup)

variable (v : OidcVerifier)

/-- `refresh`. -/
def refresh (c : Call) : Except Raised (JWKSCache K) :=
  match c.fetch with
  | none => .error .fetchError
  | some jwks => (keysOf L jwks).map fun keys => ⟨keys, c.fetchedAt + v.ttlSeconds⟩

/-- `get_key`. -/
def getKey (c : Call) (kid : Text) (s : JWKSCache K) : Except Raised K × JWKSCache K :=
  match c.found kid s with
  | some key => (.ok key, s)
  | none =>
    match refresh L v c with
    | .error raised => (.error raised, s)
    | .ok s =>
      match Dict.get s.keys kid with
      | none => (.error .valueError, s)
      | some key => (.ok key, s)

/-! ### Tokens -/

/-- A token with a supported header. -/
structure Token where
  kid : Text
  payload : Json
  signingInput : Text
  signature : List UInt8

/-- `_extract_bearer_token`. -/
def extractBearerToken (authorization : Option Text) : Except Raised Text :=
  match authorization with
  | none => .error (.oidcVerificationError "Missing Authorization header")
  | some authorization =>
    let parts := Splitting.partition [' '] authorization
    if L.lower parts.1 ≠ "bearer".toList ∨ parts.2 = [] then
      .error (.oidcVerificationError "Invalid Authorization header")
    else .ok parts.2

/-- `_split_token`: the header, the payload, the signed text and the signature. -/
def splitToken (token : Text) : Except Raised (Json × Json × Text × List UInt8) :=
  let split : Option (Json × Json × Text × List UInt8) :=
    match token.splitOn '.' with
    | [headerB64, payloadB64, signatureB64] =>
      let signingInput := headerB64 ++ '.' :: payloadB64
      if signingInput.all fun c => c.toNat < 128 then do
        let header ← (b64urlDecode headerB64).bind L.loads
        let payload ← (b64urlDecode payloadB64).bind L.loads
        let signature ← b64urlDecode signatureB64
        return (header, payload, signingInput, signature)
      else none
    | _ => none
  match split with
  | none => .error (.oidcVerificationError "Malformed JWT")
  | some split => .ok split

/-- The parts of the token of a header. -/
def splitAuthorization (authorization : Option Text) :
    Except Raised (Json × Json × Text × List UInt8) :=
  extractBearerToken L authorization >>= splitToken L

/-- The checks of a header. -/
def checkHeader (header : Json) : Except Raised Text :=
  if isObject header then
    if isText (header.get "alg".toList) "RS256".toList then
      match header.get "kid".toList with
      | some (.text (c :: kid)) => .ok (c :: kid)
      | _ => .error (.oidcVerificationError "Missing JWT key id")
    else .error (.oidcVerificationError "Unsupported JWT algorithm")
  else .error .attributeError

/-- A call up to the lookup of the key. -/
def parse (authorization : Option Text) : Except Raised Token := do
  let (header, payload, signingInput, signature) ← splitAuthorization L authorization
  let kid ← checkHeader header
  return ⟨kid, payload, signingInput, signature⟩

/-! ### Claims -/

/-- `_coerce_audience`. -/
def coerceAudience : Option Json → List Text
  | some (.text audience) => [audience]
  | some (.list items) => items.filterMap fun
    | .text item => some item
    | _ => none
  | _ => []

/-- The value of an `int`, which a `bool` is. -/
def asInt : Option Json → Option ℤ
  | some (.int n) => some n
  | some (.bool b) => some (if b then 1 else 0)
  | _ => none

/-- A text that is not empty. -/
def nonemptyText : Option Json → Option Text
  | some (.text (c :: text)) => some (c :: text)
  | _ => none

/-- The principal. -/
structure Principal where
  principalId : Text
  role : Text
  tenantId : Text
  issuer : Text

/-- `_validate_claims`, with the subject. -/
def validateClaims (claims : Json) (wall : ℤ) : Except Raised Text :=
  if isObject claims then
    if isText (claims.get "iss".toList) v.issuer then
      if v.audience ∈ coerceAudience (claims.get "aud".toList) then
        match (asInt (claims.get "exp".toList)).filter fun exp => wall < exp with
        | none => .error (.oidcVerificationError "Token expired")
        | some _ =>
          match nonemptyText (claims.get "sub".toList) with
          | none => .error (.oidcVerificationError "Missing subject")
          | some sub => .ok sub
      else .error (.oidcVerificationError "Invalid audience")
    else .error (.oidcVerificationError "Invalid issuer")
  else .error .attributeError

/-- The role: the claim, or the first text of a list. -/
def roleOf (roleValue : Option Json) : Option Text :=
  match roleValue with
  | some (.list items) => nonemptyText (items.find? fun
    | .text _ => true
    | _ => false)
  | value => nonemptyText value

/-- `_build_principal`. -/
def buildPrincipal (claims : Json) (sub : Text) : Except Raised Principal :=
  match roleOf (claims.get v.roleClaim) with
  | none => .error (.oidcVerificationError "Missing role claim")
  | some role => .ok
    { principalId := sub
      role := role
      tenantId := (nonemptyText (claims.get "tenant_id".toList)).getD "*".toList
      issuer := v.issuer }

/-- A call from the key on. -/
def verifyToken (token : Token) (key : K) (wall : ℤ) : Except Raised Principal :=
  if L.verify key token.signature token.signingInput then do
    let sub ← validateClaims v token.payload wall
    buildPrincipal v token.payload sub
  else .error (.oidcVerificationError "Invalid JWT signature")

/-- `verify_authorization`. -/
def verifyAuthorization (c : Call) (s : JWKSCache K) : Except Raised Principal × JWKSCache K :=
  match parse L c.authorization with
  | .error raised => (.error raised, s)
  | .ok token =>
    match getKey L v c token.kid s with
    | (.error raised, s) => (.error raised, s)
    | (.ok key, s) => (verifyToken L v token key c.wall, s)

/-- What the guard of the admin routes raises: a response, or what it does not catch. -/
inductive GuardError where
  | httpException (statusCode : ℕ) (detail : String)
  | raised (raised : Raised)

/-- The verification in `_bind_admin_principal`. -/
def adminGuard (result : Except Raised Principal) : Except GuardError Principal :=
  match result with
  | .ok principal => .ok principal
  | .error (.oidcVerificationError _) => .error (.httpException 401 "Invalid token")
  | .error raised => .error (.raised raised)

/-! ### Runs -/

/-- A cache, with the key sets that were fetched and the times from which they count. -/
structure Session (K : Type) where
  cache : JWKSCache K := {}
  fetched : List (Jwks × ℚ) := []

/-- The key set that a call fetches, if it does. -/
def Call.fetches (c : Call) (s : JWKSCache K) : Option Jwks :=
  match parse L c.authorization with
  | .error _ => none
  | .ok token =>
    match c.found token.kid s with
    | some _ => none
    | none => c.fetch

/-- A session after a call. -/
def step (s : Session K) (c : Call) : Session K :=
  { cache := (verifyAuthorization L v c s.cache).2
    fetched := s.fetched ++ (c.fetches L s.cache).toList.map fun jwks => (jwks, c.fetchedAt) }

/-- The keys that a key set publishes: those of the entries that can be turned into one. -/
def publishedKeys (jwks : Jwks) : List (Text × K) :=
  match entries jwks with
  | .error _ => []
  | .ok items => Dict.ofList (items.filterMap fun e => (entryKey L e).toOption)

/-- The key for a token: the one in the cache, or the one in the key set that is fetched. -/
def Call.key (c : Call) (kid : Text) (s : JWKSCache K) : Option K :=
  (c.found kid s).or (c.fetch.bind fun jwks => Dict.get (publishedKeys L jwks) kid)

/-- What is asked of claims, and the principal that they make. -/
structure ClaimsOk (claims : Json) (wall : ℤ) (principal : Principal) : Prop where
  issuer : isText (claims.get "iss".toList) v.issuer
  audience : v.audience ∈ coerceAudience (claims.get "aud".toList)
  exp : ∃ exp, asInt (claims.get "exp".toList) = some exp ∧ wall < exp
  sub : nonemptyText (claims.get "sub".toList) = some principal.principalId
  role : roleOf (claims.get v.roleClaim) = some principal.role
  tenant : principal.tenantId = (nonemptyText (claims.get "tenant_id".toList)).getD "*".toList
  configured : principal.issuer = v.issuer

/-- The key of a token is published in a key set that was fetched less than its lifetime before a
lookup, or that the call fetches, its signature verifies under it, and its claims are good. -/
def Accepted (s : Session K) (c : Call) (principal : Principal) : Prop :=
  ∃ token key jwks, parse L c.authorization = .ok token ∧
    Dict.get (publishedKeys L jwks) token.kid = some key ∧
    ((∃ fetchedAt, (jwks, fetchedAt) ∈ s.fetched ∧
        (c.lookup < fetchedAt + v.ttlSeconds ∨ c.relookup < fetchedAt + v.ttlSeconds)) ∨
      c.fetches L s.cache = some jwks) ∧
    L.verify key token.signature token.signingInput ∧ ClaimsOk v token.payload c.wall principal

/-- The exception is the verifier's. -/
def Raised.IsOwn (raised : Raised) : Prop := ∃ message, raised = .oidcVerificationError message

/-- What is asked of a call: it returns a principal only where it is accepted, and raises only the
exception of the verifier otherwise, for which the guard answers 401; and it returns the principal
of each token that verifies under its key. -/
structure CallSound (s : Session K) (c : Call) : Prop where
  accepted : ∀ principal, (verifyAuthorization L v c s.cache).1 = .ok principal →
    Accepted L v s c principal
  refused : ∀ raised, (verifyAuthorization L v c s.cache).1 = .error raised → raised.IsOwn ∧
    adminGuard (verifyAuthorization L v c s.cache).1 =
      .error (.httpException 401 "Invalid token")
  verified : ∀ token key principal, parse L c.authorization = .ok token →
    c.key L token.kid s.cache = some key → L.verify key token.signature token.signingInput →
    ClaimsOk v token.payload c.wall principal →
    (verifyAuthorization L v c s.cache).1 = .ok principal

/-- Every entry of a key set can be turned into a key. -/
def Convertible (jwks : Jwks) : Prop :=
  ∃ items, entries jwks = .ok items ∧ ∀ e ∈ items, ∃ key, entryKey L e = .ok key

/-- A call comes to no other exception: the header of a token is an object, a key set that is
fetched has a key for it and no entry that is none, and a payload that is signed is an object. -/
structure MayCall (s : Session K) (c : Call) : Prop where
  header : ∀ split, splitAuthorization L c.authorization = .ok split → isObject split.1
  fetch : ∀ token, parse L c.authorization = .ok token → c.found token.kid s.cache = none →
    ∃ jwks key, c.fetch = some jwks ∧ Convertible L jwks ∧
      Dict.get (publishedKeys L jwks) token.kid = some key
  payload : ∀ token key, parse L c.authorization = .ok token →
    c.key L token.kid s.cache = some key → L.verify key token.signature token.signingInput →
    isObject token.payload

/-! ### Exceptions -/

section Raises

variable {L v} {raised : Raised}

theorem not_isOwn_of_intField {jwk : Json} {name : String}
    (h : intField jwk name = .error raised) : ¬ raised.IsOwn := by
  rintro ⟨message, rfl⟩
  unfold intField at h
  split at h <;> try split at h
  all_goals cases h

theorem not_isOwn_of_publicKeyFromJwk {jwk : Json}
    (h : publicKeyFromJwk L jwk = .error raised) : ¬ raised.IsOwn := by
  unfold publicKeyFromJwk at h
  split at h
  · obtain hn | ⟨n, -, h⟩ := Runs.bind_eq_error_iff.mp h
    · exact not_isOwn_of_intField hn
    · obtain he | ⟨e, -, h⟩ := Runs.bind_eq_error_iff.mp h
      · exact not_isOwn_of_intField he
      · rintro ⟨message, rfl⟩
        split at h <;> cases h
  · rintro ⟨message, rfl⟩
    cases h

theorem not_isOwn_of_keysOf {jwks : Jwks} (h : keysOf L jwks = .error raised) :
    ¬ raised.IsOwn := by
  obtain hentries | ⟨items, -, h⟩ := Runs.bind_eq_error_iff.mp h
  · rintro ⟨message, rfl⟩
    unfold entries at hentries
    split at hentries <;> cases hentries
  · obtain hkeys | ⟨keys, -, h⟩ := Runs.bind_eq_error_iff.mp h
    · obtain ⟨e, -, he⟩ := Runs.exists_of_mapM_eq_error hkeys
      unfold entryKey at he
      cases hkey : publicKeyFromJwk L e.2 with
      | error other =>
        rw [hkey] at he
        exact Except.error.inj he ▸ not_isOwn_of_publicKeyFromJwk hkey
      | ok key =>
        rw [hkey] at he
        cases he
    · cases h

/-- A key set is turned into keys where every entry can be. -/
theorem keysOf_eq_ok_iff {jwks : Jwks} {keys : List (Text × K)} :
    keysOf L jwks = .ok keys ↔ Convertible L jwks ∧ keys = publishedKeys L jwks := by
  unfold keysOf Convertible publishedKeys
  cases entries jwks with
  | error raised =>
    constructor
    · intro h
      cases h
    · rintro ⟨⟨items, h, -⟩, -⟩
      cases h
  | ok items =>
    change (items.mapM (entryKey L) >>= fun keys => .ok (Dict.ofList keys)) = .ok keys ↔ _
    constructor
    · intro h
      obtain ⟨results, hresults, h⟩ := Runs.bind_eq_ok_iff.mp h
      obtain rfl := Except.ok.inj h
      refine ⟨⟨items, rfl, Runs.exists_of_mapM_eq_ok hresults⟩, ?_⟩
      rw [← Runs.filterMap_toOption_of_mapM hresults]
    · rintro ⟨⟨_, h, hitems⟩, rfl⟩
      obtain rfl := Except.ok.inj h
      obtain ⟨results, hresults⟩ := Runs.exists_mapM hitems
      refine Runs.bind_eq_ok_iff.mpr ⟨results, hresults, ?_⟩
      rw [← Runs.filterMap_toOption_of_mapM hresults]

theorem isOwn_of_splitAuthorization {authorization : Option Text}
    (h : splitAuthorization L authorization = .error raised) : raised.IsOwn := by
  obtain hextract | ⟨text, -, hsplit⟩ := Runs.bind_eq_error_iff.mp h
  · unfold extractBearerToken at hextract
    split at hextract
    · exact ⟨_, (Except.error.inj hextract).symm⟩
    · dsimp only at hextract
      split_ifs at hextract
      exact ⟨_, (Except.error.inj hextract).symm⟩
  · unfold splitToken at hsplit
    dsimp only at hsplit
    split at hsplit
    · exact ⟨_, (Except.error.inj hsplit).symm⟩
    · cases hsplit

/-- The checks of a header raise the verifier's exception if and only if it is an object. -/
theorem isOwn_of_checkHeader {header : Json} (h : checkHeader header = .error raised) :
    raised.IsOwn ↔ isObject header := by
  unfold checkHeader at h
  split_ifs at h with hobject halg
  · split at h
    · cases h
    · exact iff_of_true ⟨_, (Except.error.inj h).symm⟩ hobject
  · exact iff_of_true ⟨_, (Except.error.inj h).symm⟩ hobject
  · refine iff_of_false ?_ hobject
    rintro ⟨message, rfl⟩
    cases h

/-- A call that gets no token raises the verifier's exception if and only if a header that is split
off is an object. -/
theorem isOwn_of_parse_iff {authorization : Option Text} :
    (∀ raised, parse L authorization = .error raised → raised.IsOwn) ↔
      ∀ split, splitAuthorization L authorization = .ok split → isObject split.1 := by
  constructor
  · intro h split hsplit
    by_contra hobject
    have hheader : checkHeader split.1 = .error .attributeError := if_neg hobject
    obtain ⟨message, hmessage⟩ := h .attributeError <| Runs.bind_eq_error_iff.mpr <| Or.inr
      ⟨split, hsplit, Runs.bind_eq_error_iff.mpr (Or.inl hheader)⟩
    cases hmessage
  · intro h raised hparse
    obtain hsplit | ⟨split, hsplit, hrest⟩ := Runs.bind_eq_error_iff.mp hparse
    · exact isOwn_of_splitAuthorization hsplit
    · obtain hheader | ⟨kid, -, hkid⟩ := Runs.bind_eq_error_iff.mp hrest
      · exact (isOwn_of_checkHeader hheader).mpr (h split hsplit)
      · cases hkid

/-- What is asked of claims for a subject. -/
theorem validateClaims_eq_ok_iff {claims : Json} {wall : ℤ} {sub : Text} :
    validateClaims v claims wall = .ok sub ↔
      isText (claims.get "iss".toList) v.issuer ∧
      v.audience ∈ coerceAudience (claims.get "aud".toList) ∧
      (∃ exp, asInt (claims.get "exp".toList) = some exp ∧ wall < exp) ∧
      nonemptyText (claims.get "sub".toList) = some sub := by
  unfold validateClaims
  by_cases hobject : isObject claims
  · rw [if_pos hobject]
    split_ifs with hissuer haudience
    · refine Iff.trans ?_ (and_iff_right hissuer).symm
      refine Iff.trans ?_ (and_iff_right haudience).symm
      split
      · rename_i hexp
        refine iff_of_false (fun h => by cases h) fun ⟨⟨exp, hvalue, hlater⟩, _⟩ => ?_
        rw [hvalue, Option.filter_some, if_pos (decide_eq_true hlater)] at hexp
        cases hexp
      · rename_i exp hexp
        obtain ⟨hvalue, hlater⟩ := Option.filter_eq_some_iff.mp hexp
        refine Iff.trans ?_ (and_iff_right ⟨exp, hvalue, of_decide_eq_true hlater⟩).symm
        cases nonemptyText (claims.get "sub".toList) with
        | none => exact iff_of_false (fun h => by cases h) fun h => by cases h
        | some found => exact ⟨fun h => congrArg some (Except.ok.inj h),
            fun h => congrArg Except.ok (Option.some.inj h)⟩
    · exact iff_of_false (fun h => by cases h) fun h => haudience h.2.1
    · exact iff_of_false (fun h => by cases h) fun h => hissuer h.1
  · rw [if_neg hobject]
    refine iff_of_false (fun h => by cases h) fun ⟨hissuer, _⟩ => hobject ?_
    cases claims with
    | object fields => rfl
    | _ => cases hissuer

theorem buildPrincipal_eq_ok_iff {claims : Json} {sub : Text} {principal : Principal} :
    buildPrincipal v claims sub = .ok principal ↔
      roleOf (claims.get v.roleClaim) = some principal.role ∧ principal.principalId = sub ∧
      principal.tenantId = (nonemptyText (claims.get "tenant_id".toList)).getD "*".toList ∧
      principal.issuer = v.issuer := by
  unfold buildPrincipal
  cases roleOf (claims.get v.roleClaim) with
  | none => exact iff_of_false (fun h => by cases h) fun h => by cases h.1
  | some role =>
    constructor
    · intro h
      obtain rfl := Except.ok.inj h
      exact ⟨rfl, rfl, rfl, rfl⟩
    · obtain ⟨principalId, role', tenantId, issuer⟩ := principal
      rintro ⟨hrole, rfl, rfl, rfl⟩
      obtain rfl := Option.some.inj hrole
      rfl

theorem isOwn_of_validateClaims {claims : Json} {wall : ℤ}
    (h : validateClaims v claims wall = .error raised) : raised.IsOwn ↔ isObject claims := by
  unfold validateClaims at h
  split_ifs at h with hobject hissuer haudience
  · refine iff_of_true ?_ hobject
    split at h
    · exact ⟨_, (Except.error.inj h).symm⟩
    · split at h
      · exact ⟨_, (Except.error.inj h).symm⟩
      · cases h
  · exact iff_of_true ⟨_, (Except.error.inj h).symm⟩ hobject
  · exact iff_of_true ⟨_, (Except.error.inj h).symm⟩ hobject
  · refine iff_of_false ?_ hobject
    rintro ⟨message, rfl⟩
    cases h

theorem isOwn_of_buildPrincipal {claims : Json} {sub : Text}
    (h : buildPrincipal v claims sub = .error raised) : raised.IsOwn := by
  unfold buildPrincipal at h
  split at h
  · exact ⟨_, (Except.error.inj h).symm⟩
  · cases h

/-- A call that gets no principal for a key raises the verifier's exception if and only if a payload
that is signed is an object. -/
theorem isOwn_of_verifyToken_iff {token : Token} {key : K} {wall : ℤ} :
    (∀ raised, verifyToken L v token key wall = .error raised → raised.IsOwn) ↔
      (L.verify key token.signature token.signingInput → isObject token.payload) := by
  unfold verifyToken
  split_ifs with hverify
  · rw [forall_prop_of_true hverify]
    constructor
    · intro h
      by_contra hobject
      have hclaims : validateClaims v token.payload wall = .error .attributeError := if_neg hobject
      obtain ⟨message, hmessage⟩ := h .attributeError <|
        Runs.bind_eq_error_iff.mpr (Or.inl hclaims)
      cases hmessage
    · intro hobject raised h
      obtain hclaims | ⟨sub, -, hbuild⟩ := Runs.bind_eq_error_iff.mp h
      · exact (isOwn_of_validateClaims hclaims).mpr hobject
      · exact isOwn_of_buildPrincipal hbuild
  · refine iff_of_true (fun raised h => ⟨_, (Except.error.inj h).symm⟩) fun h => absurd h hverify

/-- What a principal is returned for. -/
theorem verifyToken_eq_ok_iff {token : Token} {key : K} {wall : ℤ} {principal : Principal} :
    verifyToken L v token key wall = .ok principal ↔
      L.verify key token.signature token.signingInput ∧
        ClaimsOk v token.payload wall principal := by
  unfold verifyToken
  split_ifs with hverify
  · rw [and_iff_right hverify, Runs.bind_eq_ok_iff]
    constructor
    · rintro ⟨sub, hclaims, hbuild⟩
      obtain ⟨hissuer, haudience, hexp, hsub⟩ := validateClaims_eq_ok_iff.mp hclaims
      obtain ⟨hrole, rfl, htenant, hconfigured⟩ := buildPrincipal_eq_ok_iff.mp hbuild
      exact ⟨hissuer, haudience, hexp, hsub, hrole, htenant, hconfigured⟩
    · rintro ⟨hissuer, haudience, hexp, hsub, hrole, htenant, hconfigured⟩
      exact ⟨principal.principalId,
        validateClaims_eq_ok_iff.mpr ⟨hissuer, haudience, hexp, hsub⟩,
        buildPrincipal_eq_ok_iff.mpr ⟨hrole, rfl, htenant, hconfigured⟩⟩
  · exact iff_of_false (fun h => by cases h) fun h => hverify h.1

/-! ### Lookups -/

variable (L v) in
/-- What a lookup comes to. -/
inductive Lookup (c : Call) (kid : Text) (s : JWKSCache K) : Prop where
  /-- The cache has the key. -/
  | found (key : K) (hfound : c.found kid s = some key) (result : getKey L v c kid s = (.ok key, s))
  /-- The fetch fails, or a fetched entry cannot be turned into a key. -/
  | raised (raised : Raised) (hfound : c.found kid s = none) (other : ¬ raised.IsOwn)
    (fetch : ∀ jwks, c.fetch = some jwks → ¬ Convertible L jwks)
    (result : getKey L v c kid s = (.error raised, s))
  /-- The key set that is fetched replaces the cache. -/
  | fetched (jwks : Jwks) (hfound : c.found kid s = none) (fetch : c.fetch = some jwks)
    (convertible : Convertible L jwks)
    (result : getKey L v c kid s = (match Dict.get (publishedKeys L jwks) kid with
      | none => .error .valueError
      | some key => .ok key, ⟨publishedKeys L jwks, c.fetchedAt + v.ttlSeconds⟩))

theorem lookup_cases (c : Call) (kid : Text) (s : JWKSCache K) : Lookup L v c kid s := by
  cases hfound : c.found kid s with
  | some key => exact .found key hfound (by rw [getKey, hfound])
  | none =>
    cases hfetch : c.fetch with
    | none =>
      refine .raised .fetchError hfound (fun ⟨_, h⟩ => by cases h) (fun jwks h => ?_)
        (by rw [getKey, hfound, refresh, hfetch])
      rw [hfetch] at h
      cases h
    | some jwks =>
      cases hkeys : keysOf L jwks with
      | error raised =>
        have hrefresh : refresh L v c = .error raised := by
          rw [refresh, hfetch]
          dsimp only
          rw [hkeys]
          rfl
        refine .raised raised hfound (not_isOwn_of_keysOf hkeys) (fun other h hconvertible => ?_)
          (by rw [getKey, hfound, hrefresh])
        obtain rfl := Option.some.inj (hfetch.symm.trans h)
        rw [keysOf_eq_ok_iff.mpr ⟨hconvertible, rfl⟩] at hkeys
        cases hkeys
      | ok keys =>
        obtain ⟨hconvertible, rfl⟩ := keysOf_eq_ok_iff.mp hkeys
        have hrefresh : refresh L v c =
            .ok ⟨publishedKeys L jwks, c.fetchedAt + v.ttlSeconds⟩ := by
          rw [refresh, hfetch]
          dsimp only
          rw [hkeys]
          rfl
        refine .fetched jwks hfound hfetch hconvertible ?_
        rw [getKey, hfound, hrefresh]
        dsimp only
        cases Dict.get (publishedKeys L jwks) kid <;> rfl

end Raises

/-! ### Soundness -/

variable {L v}

variable (L v) in
/-- The keys of the cache are those that a fetched key set publishes, until its lifetime is over. -/
def Kept (s : Session K) : Prop :=
  s.cache.keys = [] ∨ ∃ jwks fetchedAt, (jwks, fetchedAt) ∈ s.fetched ∧
    s.cache = ⟨publishedKeys L jwks, fetchedAt + v.ttlSeconds⟩

theorem fetches_of_parse {c : Call} {s : JWKSCache K} {token : Token}
    (hparse : parse L c.authorization = .ok token) (hfound : c.found token.kid s = none) :
    c.fetches L s = c.fetch := by
  rw [Call.fetches, hparse]
  dsimp only
  rw [hfound]

theorem verifyAuthorization_of_parse {c : Call} {s : JWKSCache K} {token : Token}
    (hparse : parse L c.authorization = .ok token) : verifyAuthorization L v c s =
      match getKey L v c token.kid s with
      | (.error raised, s) => (.error raised, s)
      | (.ok key, s) => (verifyToken L v token key c.wall, s) := by
  rw [verifyAuthorization, hparse]

/-- **The cache.** Every call keeps that its keys are published. -/
theorem Kept.step {s : Session K} (h : Kept L v s) (c : Call) : Kept L v (step L v s c) := by
  have hsame (hcache : (verifyAuthorization L v c s.cache).2 = s.cache) :
      Kept L v (Auth.step L v s c) := by
    refine h.imp (fun hkeys => ?_) fun ⟨jwks, fetchedAt, hmem, hkept⟩ => ?_
    · exact (congrArg JWKSCache.keys hcache).trans hkeys
    · exact ⟨jwks, fetchedAt, List.mem_append_left _ hmem, hcache.trans hkept⟩
  cases hparse : parse L c.authorization with
  | error raised => exact hsame (by rw [verifyAuthorization, hparse])
  | ok token =>
    have hverify := verifyAuthorization_of_parse (v := v) (s := s.cache) hparse
    obtain ⟨key, hfound, hkey⟩ | ⟨raised, hfound, -, -, hkey⟩ |
        ⟨jwks, hfound, hfetch, -, hkey⟩ := lookup_cases (L := L) (v := v) c token.kid s.cache
    · exact hsame (by rw [hverify, hkey])
    · exact hsame (by rw [hverify, hkey])
    · refine Or.inr ⟨jwks, c.fetchedAt, List.mem_append_right _ ?_, ?_⟩
      · rw [fetches_of_parse hparse hfound, hfetch]
        exact List.mem_singleton_self _
      · change (verifyAuthorization L v c s.cache).2 = _
        rw [hverify, hkey]
        cases Dict.get (publishedKeys L jwks) token.kid <;> rfl

/-- A key that is found in the cache is published in a key set whose lifetime is not over. -/
theorem Kept.of_found {s : Session K} (h : Kept L v s) {c : Call} {kid : Text} {key : K}
    (hfound : c.found kid s.cache = some key) :
    ∃ jwks fetchedAt, (jwks, fetchedAt) ∈ s.fetched ∧
      Dict.get (publishedKeys L jwks) kid = some key ∧
      (c.lookup < fetchedAt + v.ttlSeconds ∨ c.relookup < fetchedAt + v.ttlSeconds) := by
  have hcached (now : ℚ) (hnow : s.cache.cached kid now = some key) :
      ∃ jwks fetchedAt, (jwks, fetchedAt) ∈ s.fetched ∧
        Dict.get (publishedKeys L jwks) kid = some key ∧ now < fetchedAt + v.ttlSeconds := by
    unfold JWKSCache.cached at hnow
    split_ifs at hnow with hfresh
    obtain ⟨hkeys, hlater⟩ := Bool.and_eq_true_iff.mp hfresh
    obtain hempty | ⟨jwks, fetchedAt, hmem, hkept⟩ := h
    · rw [hempty] at hkeys
      cases hkeys
    · rw [hkept] at hnow hlater
      exact ⟨jwks, fetchedAt, hmem, hnow, of_decide_eq_true hlater⟩
  obtain hlookup | ⟨-, hrelookup⟩ := Option.or_eq_some_iff.mp hfound
  · obtain ⟨jwks, fetchedAt, hmem, hkey, hlater⟩ := hcached c.lookup hlookup
    exact ⟨jwks, fetchedAt, hmem, hkey, Or.inl hlater⟩
  · obtain ⟨jwks, fetchedAt, hmem, hkey, hlater⟩ := hcached c.relookup hrelookup
    exact ⟨jwks, fetchedAt, hmem, hkey, Or.inr hlater⟩

/-- The key that a call which may be made finds is its key. -/
theorem getKey_of_mayCall {s : Session K} {c : Call} (h : MayCall L s c) {token : Token}
    (hparse : parse L c.authorization = .ok token) :
    ∃ key s', c.key L token.kid s.cache = some key ∧
      getKey L v c token.kid s.cache = (.ok key, s') := by
  obtain ⟨key, hfound, hkey⟩ | ⟨raised, hfound, -, hraised, -⟩ |
      ⟨jwks, hfound, hfetch, -, hkey⟩ := lookup_cases (L := L) (v := v) c token.kid s.cache
  · exact ⟨key, s.cache, by rw [Call.key, hfound, Option.some_or], hkey⟩
  · obtain ⟨jwks, key, hfetch, hconvertible, -⟩ := h.fetch token hparse hfound
    exact absurd hconvertible (hraised jwks hfetch)
  · obtain ⟨jwks', key, hfetch', -, hpublished⟩ := h.fetch token hparse hfound
    obtain rfl := Option.some.inj (hfetch.symm.trans hfetch')
    rw [hpublished] at hkey
    refine ⟨key, _, ?_, hkey⟩
    rw [Call.key, hfound, Option.none_or, hfetch]
    exact hpublished

/-- A principal is accepted where its token verifies under the key of the call. -/
theorem Kept.accepted {s : Session K} (h : Kept L v s) {c : Call} {token : Token} {key : K}
    {principal : Principal} (hparse : parse L c.authorization = .ok token)
    (hkey : c.key L token.kid s.cache = some key)
    (hverify : verifyToken L v token key c.wall = .ok principal) :
    Accepted L v s c principal := by
  obtain hfound | ⟨hfound, hfetch⟩ := Option.or_eq_some_iff.mp hkey
  · obtain ⟨jwks, fetchedAt, hmem, hpublished, hlater⟩ := h.of_found hfound
    exact ⟨token, key, jwks, hparse, hpublished, Or.inl ⟨fetchedAt, hmem, hlater⟩,
      verifyToken_eq_ok_iff.mp hverify⟩
  · obtain ⟨jwks, hfetch, hpublished⟩ := Option.bind_eq_some_iff.mp hfetch
    exact ⟨token, key, jwks, hparse, hpublished,
      Or.inr ((fetches_of_parse hparse hfound).trans hfetch), verifyToken_eq_ok_iff.mp hverify⟩

theorem Kept.callSound {s : Session K} (h : Kept L v s) {c : Call} (hmay : MayCall L s c) :
    CallSound L v s c := by
  have hown {raised : Raised} (hraised : (verifyAuthorization L v c s.cache).1 = .error raised)
      (hown : raised.IsOwn) : raised.IsOwn ∧ adminGuard (verifyAuthorization L v c s.cache).1 =
        .error (.httpException 401 "Invalid token") := by
    refine ⟨hown, ?_⟩
    obtain ⟨message, rfl⟩ := hown
    rw [hraised]
    rfl
  cases hparse : parse L c.authorization with
  | error raised =>
    have hresult : (verifyAuthorization L v c s.cache).1 = .error raised := by
      rw [verifyAuthorization, hparse]
    refine ⟨fun principal hok => ?_, fun other hother => ?_, fun token key principal hok => ?_⟩
    · rw [hresult] at hok
      cases hok
    · obtain rfl := Except.error.inj (hresult.symm.trans hother)
      exact hown hresult (isOwn_of_parse_iff.mpr hmay.header raised hparse)
    · rw [hparse] at hok
      cases hok
  | ok token =>
    obtain ⟨key, s', hkey, hget⟩ := getKey_of_mayCall (v := v) hmay hparse
    have hresult : (verifyAuthorization L v c s.cache).1 = verifyToken L v token key c.wall := by
      rw [verifyAuthorization_of_parse hparse, hget]
    refine ⟨fun principal hok => h.accepted hparse hkey (hresult.symm.trans hok),
      fun raised hraised => ?_, fun token' key' principal hparse' hkey' hverify hclaims => ?_⟩
    · exact hown hraised <| isOwn_of_verifyToken_iff.mpr (hmay.payload token key hparse hkey) raised
        (hresult.symm.trans hraised)
    · obtain rfl := Except.ok.inj (hparse.symm.trans hparse')
      obtain rfl := Option.some.inj (hkey.symm.trans hkey')
      exact hresult.trans (verifyToken_eq_ok_iff.mpr ⟨hverify, hclaims⟩)

theorem CallSound.mayCall {s : Session K} {c : Call} (h : CallSound L v s c) :
    MayCall L s c := by
  have hparsed {token : Token} (hparse : parse L c.authorization = .ok token) :
      ∃ key s', getKey L v c token.kid s.cache = (.ok key, s') ∧
        c.key L token.kid s.cache = some key ∧ (c.found token.kid s.cache = none →
          ∃ jwks, c.fetch = some jwks ∧ Convertible L jwks ∧
            Dict.get (publishedKeys L jwks) token.kid = some key) := by
    have hresult := verifyAuthorization_of_parse (v := v) (s := s.cache) hparse
    obtain ⟨key, hfound, hkey⟩ | ⟨raised, hfound, hother, -, hkey⟩ |
        ⟨jwks, hfound, hfetch, hconvertible, hkey⟩ :=
      lookup_cases (L := L) (v := v) c token.kid s.cache
    · refine ⟨key, s.cache, hkey, by rw [Call.key, hfound, Option.some_or], fun hnone => ?_⟩
      rw [hfound] at hnone
      cases hnone
    · rw [hkey] at hresult
      exact absurd (h.refused raised (congrArg Prod.fst hresult)).1 hother
    · cases hpublished : Dict.get (publishedKeys L jwks) token.kid with
      | none =>
        rw [hkey, hpublished] at hresult
        obtain ⟨message, hmessage⟩ := (h.refused .valueError (congrArg Prod.fst hresult)).1
        cases hmessage
      | some key =>
        rw [hpublished] at hkey
        refine ⟨key, _, hkey, ?_, fun _ => ⟨jwks, hfetch, hconvertible, hpublished⟩⟩
        rw [Call.key, hfound, Option.none_or, hfetch]
        exact hpublished
  refine ⟨isOwn_of_parse_iff.mp fun raised hraised => ?_, fun token hparse hfound => ?_,
    fun token key hparse hkey => ?_⟩
  · refine (h.refused raised ?_).1
    rw [verifyAuthorization, hraised]
  · obtain ⟨key, -, -, -, hfetch⟩ := hparsed hparse
    obtain ⟨jwks, hjwks, hconvertible, hpublished⟩ := hfetch hfound
    exact ⟨jwks, key, hjwks, hconvertible, hpublished⟩
  · obtain ⟨key', s', hget, hkey', -⟩ := hparsed hparse
    obtain rfl := Option.some.inj (hkey.symm.trans hkey')
    have hown (raised : Raised) (hraised : verifyToken L v token key c.wall = .error raised) :
        raised.IsOwn := by
      refine (h.refused raised ?_).1
      rw [verifyAuthorization_of_parse hparse, hget]
      exact hraised
    exact isOwn_of_verifyToken_iff.mp hown

/-- **The calls of a run are sound** if and only if none comes to another exception. -/
theorem sound_iff (L : OidcLibrary K) (v : OidcVerifier) (calls : List Call) :
    Runs.Along (step L v) (CallSound L v) {} calls ↔ Runs.Along (step L v) (MayCall L) {} calls :=
  Runs.along_congr (fun _ c hs _ => Kept.step hs c)
    (fun _ _ hs => ⟨CallSound.mayCall, hs.callSound⟩) (Or.inl rfl)

/-- A library, which reads no more than an empty list. -/
def sampleLibrary : OidcLibrary Unit where
  lower := List.map Char.toLower
  loads data := if data = [91, 93] then some (.list []) else none
  rsaPublicKey _ _ := none
  verify _ _ _ := false

/-- A call with a token whose header and payload are empty lists. -/
def sampleCall : Call :=
  { authorization := some "Bearer W10.W10.".toList
    lookup := 0
    relookup := 0
    fetch := none
    fetchedAt := 0
    wall := 0 }

/-- A token whose header is a list comes to an exception that the guard does not catch. -/
theorem not_sound : ¬ ∀ (L : OidcLibrary Unit) (v : OidcVerifier) (calls : List Call),
    Runs.Along (step L v) (CallSound L v) {} calls := by
  intro h
  have hraised : ¬ Raised.attributeError.IsOwn := fun ⟨_, h⟩ => by cases h
  have hsound := (h sampleLibrary ⟨"issuer".toList, "audience".toList, "role".toList, 300⟩
    [sampleCall]).1
  exact hraised (hsound.refused .attributeError (by rfl)).1

end AnonReq.Auth
