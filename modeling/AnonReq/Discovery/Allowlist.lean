import AnonReq.Foundation.Dict
import AnonReq.Foundation.Glob
import Mathlib.Data.List.Dedup
import Mathlib.Data.String.Basic

/-!
# The hostname allowlist

`AI_PROVIDER_SIGNATURES` and `get_provider_by_hostname` of `discovery/ai_signatures.py`, and
`HostnameAllowlist` of `discovery/hostname_allowlist.py`: hostnames are matched against the
patterns of provider signatures, which may be overridden at runtime. `str.lower` is a parameter.

* `matchHostname_isSome_iff`: a hostname is matched exactly when a `Rule` selects it, as
  the host it names or as a pattern with a star.
* `mem_getAllProxyDomains_iff`: the names that go into the proxy configuration.
-/

namespace AnonReq.Discovery

open Glob (fnmatch)

/-! ### Signatures -/

/-- A provider signature: the provider, and its hostname patterns. -/
structure Signature where
  provider : Text
  hostnames : List Text

/-- A signature, written as in the source. -/
def signature (provider : String) (hostnames : List String) : Signature :=
  ⟨provider.toList, hostnames.map String.toList⟩

/-- `AI_PROVIDER_SIGNATURES`. -/
def aiProviderSignatures : List Signature :=
  [signature "openai" ["api.openai.com", "*.openai.com", "oaksvc.openai.com",
     "*.oaksvc.openai.com"],
   signature "anthropic" ["api.anthropic.com", "*.anthropic.com"],
   signature "gemini" ["generativelanguage.googleapis.com", "*.googleapis.com", "ai.google.dev"],
   signature "bedrock" ["bedrock-runtime.*.amazonaws.com", "*.bedrock.aws",
     "bedrock.*.amazonaws.com"],
   signature "azure_openai" ["*.openai.azure.com", "*.cognitiveservices.azure.com",
     "*.api.cognitive.microsoft.com"],
   signature "meta_llama" ["api.meta.ai", "*.meta.ai", "llama.meta.com", "*.llama.meta.com",
     "api.llama.ai", "*.llama.ai"],
   signature "mistral" ["api.mistral.ai", "*.mistral.ai"],
   signature "cohere" ["api.cohere.ai", "*.cohere.ai", "api.cohere.com", "*.cohere.com"],
   signature "groq" ["api.groq.com", "*.groq.com"],
   signature "together" ["api.together.xyz", "*.together.xyz"],
   signature "perplexity" ["api.perplexity.ai", "*.perplexity.ai", "pplx.ai", "*.pplx.ai"],
   signature "deepseek" ["api.deepseek.com", "*.deepseek.com"],
   signature "xai" ["api.x.ai", "*.x.ai", "api.grok.x", "*.grok.x"],
   signature "fireworks" ["api.fireworks.ai", "*.fireworks.ai"],
   signature "replicate" ["api.replicate.com", "*.replicate.com", "replicate.delivery",
     "*.replicate.delivery"],
   signature "huggingface" ["api-inference.huggingface.co", "*.huggingface.co"],
   signature "alibaba_cloud" ["dashscope.aliyuncs.com", "*.aliyuncs.com", "*.tongyi.aliyun.com"],
   signature "ollama" ["localhost", "127.0.0.1", "ollama", "*.ollama.ai", "ollama.ai"],
   signature "vllm" ["*.vllm", "vllm"],
   signature "lm_studio" ["localhost:1234", "127.0.0.1:1234"],
   signature "togetherai" ["api.together.ai", "*.together.ai"]]

/-- Drop every `*.` of a pattern. -/
def dropStarDots : Text → Text
  | '*' :: '.' :: rest => dropStarDots rest
  | c :: rest => c :: dropStarDots rest
  | [] => []

/-- The first signature with a pattern that has the property. -/
def findPattern (signatures : List Signature) (accepts : Text → Bool) : Option Signature :=
  signatures.find? fun sig => sig.hostnames.any accepts

variable (L : LowerCase)

/-- `pattern.lower().replace("*.", "")`. -/
def cleanPattern (pattern : Text) : Text := dropStarDots (L.lower pattern)

/-- `_match_wildcard`. -/
def matchWildcard (hostname pattern : Text) : Bool := fnmatch (L.lower hostname) (L.lower pattern)

/-- `get_provider_by_hostname`. -/
def getProviderByHostname (hostname : Text) : Option Signature :=
  let hostname := L.lower hostname
  match findPattern aiProviderSignatures fun pattern =>
      decide (hostname = cleanPattern L pattern) with
  | some sig => some sig
  | none => findPattern aiProviderSignatures fun pattern =>
      pattern.contains '*' && matchWildcard L hostname pattern

/-! ### The allowlist -/

/-- A runtime configuration of a provider: its hostname patterns, if they are given. -/
structure ProviderConfig where
  hostnames : Option (List Text) := none

/-- `HostnameAllowlist`. -/
structure HostnameAllowlist where
  signatures : List Signature
  overrides : List (Text × ProviderConfig) := []

/-- `MatchResult`. -/
structure MatchResult where
  provider : Text
  confidence : ℕ := 1
  matchType : Text := "hostname".toList

namespace HostnameAllowlist

/-- `HostnameAllowlist(signatures)`. -/
def new (signatures : Option (List Signature)) : HostnameAllowlist where
  signatures := signatures.getD aiProviderSignatures

/-- `_get_effective_signature`. -/
def getEffectiveSignature (allowlist : HostnameAllowlist) (provider : Text) : Option Signature :=
  (allowlist.signatures.find? fun sig => decide (sig.provider = provider)).map fun sig =>
    match Dict.get allowlist.overrides provider with
    | some ⟨some hostnames⟩ => { sig with hostnames := hostnames }
    | _ => sig

/-- The signatures that `match_hostname` searches. An override of a provider that has a signature
adds nothing. -/
def allSignatures (allowlist : HostnameAllowlist) : List Signature :=
  allowlist.signatures ++ allowlist.overrides.filterMap fun override =>
    match allowlist.getEffectiveSignature override.1 with
    | some _ => none
    | none => some ⟨override.1, override.2.hostnames.getD []⟩

/-- `match_hostname`. -/
def matchHostname (allowlist : HostnameAllowlist) (hostname : Text) : Option MatchResult :=
  let hostname := L.lower hostname
  match findPattern allowlist.allSignatures fun pattern =>
      decide (hostname = cleanPattern L pattern) with
  | some sig => some { provider := sig.provider }
  | none =>
    match findPattern allowlist.allSignatures fun pattern =>
        pattern.contains '*' && fnmatch hostname (L.lower pattern) with
    | some sig => some { provider := sig.provider }
    | none => (getProviderByHostname L hostname).map fun sig => { provider := sig.provider }

/-- `get_all_proxy_domains`: the patterns of all signatures and overrides, each once and sorted. -/
def getAllProxyDomains (allowlist : HostnameAllowlist) : List Text :=
  (allowlist.signatures.flatMap Signature.hostnames ++
    allowlist.overrides.flatMap fun override => override.2.hostnames.getD []).dedup.mergeSort
      fun a b => decide (a ≤ b)

end HostnameAllowlist

/-! ### Which hostnames are matched -/

/-- A pattern selects a hostname: without its stars it is that host, or it has a star and matches
it. Case does not count. -/
def Selects (pattern hostname : Text) : Prop :=
  L.lower hostname = cleanPattern L pattern ∨
    '*' ∈ pattern ∧ fnmatch (L.lower hostname) (L.lower pattern) = true

namespace HostnameAllowlist

/-- The pattern is one of a signature. -/
def Signed (signatures : List Signature) (pattern : Text) : Prop :=
  ∃ sig ∈ signatures, pattern ∈ sig.hostnames

/-- The rules of the matcher: the patterns of the signatures, those of the overrides of providers
without a signature, and the built-in ones. -/
def Rule (allowlist : HostnameAllowlist) (pattern : Text) : Prop :=
  Signed allowlist.signatures pattern ∨
    (∃ override ∈ allowlist.overrides,
      (∀ sig ∈ allowlist.signatures, sig.provider ≠ override.1) ∧
        pattern ∈ override.2.hostnames.getD []) ∨
    Signed aiProviderSignatures pattern

/-- The names of the proxy configuration: the patterns of the signatures and of all overrides. -/
def Listed (allowlist : HostnameAllowlist) (pattern : Text) : Prop :=
  Signed allowlist.signatures pattern ∨
    ∃ override ∈ allowlist.overrides, pattern ∈ override.2.hostnames.getD []

end HostnameAllowlist

theorem findPattern_isSome_iff {signatures : List Signature} {accepts : Text → Bool} :
    (findPattern signatures accepts).isSome ↔
      ∃ pattern, HostnameAllowlist.Signed signatures pattern ∧ accepts pattern = true := by
  simp only [findPattern, List.find?_isSome, List.any_eq_true, HostnameAllowlist.Signed]
  constructor
  · rintro ⟨sig, hsig, pattern, hpattern, haccepts⟩
    exact ⟨pattern, ⟨sig, hsig, hpattern⟩, haccepts⟩
  · rintro ⟨pattern, ⟨sig, hsig, hpattern⟩, haccepts⟩
    exact ⟨sig, hsig, pattern, hpattern, haccepts⟩

variable {L}

/-- Two searches, one for the host and one for stars, find a pattern that selects it. -/
theorem findPattern_or_isSome_iff {signatures : List Signature} {hostname : Text} :
    ((findPattern signatures fun pattern =>
          decide (L.lower hostname = cleanPattern L pattern)).isSome
      ∨ (findPattern signatures fun pattern =>
        pattern.contains '*' && fnmatch (L.lower hostname) (L.lower pattern)).isSome) ↔
      ∃ pattern, HostnameAllowlist.Signed signatures pattern ∧ Selects L pattern hostname := by
  rw [findPattern_isSome_iff, findPattern_isSome_iff, ← exists_or]
  refine exists_congr fun pattern => ?_
  rw [← and_or_left]
  simp [Selects]

theorem getProviderByHostname_isSome_iff {hostname : Text} :
    (getProviderByHostname L (L.lower hostname)).isSome ↔
      ∃ pattern, HostnameAllowlist.Signed aiProviderSignatures pattern ∧
        Selects L pattern hostname := by
  rw [← findPattern_or_isSome_iff, getProviderByHostname]
  simp only [matchWildcard, L.lower_idem]
  rcases findPattern aiProviderSignatures fun pattern =>
    decide (L.lower hostname = cleanPattern L pattern) with _ | sig <;> simp

/-- The signatures that are searched have the patterns of the signatures, and of the overrides
of providers without one. -/
theorem HostnameAllowlist.signed_allSignatures_iff {allowlist : HostnameAllowlist}
    {pattern : Text} :
    Signed allowlist.allSignatures pattern ↔ Signed allowlist.signatures pattern ∨
      ∃ override ∈ allowlist.overrides,
        (∀ sig ∈ allowlist.signatures, sig.provider ≠ override.1) ∧
          pattern ∈ override.2.hostnames.getD [] := by
  have hnone : ∀ provider, allowlist.getEffectiveSignature provider = none ↔
      ∀ sig ∈ allowlist.signatures, sig.provider ≠ provider := fun provider => by
    simp [getEffectiveSignature]
  simp only [Signed, allSignatures, List.mem_append, List.mem_filterMap, or_and_right, exists_or]
  refine or_congr_right ?_
  constructor
  · rintro ⟨sig, ⟨override, hoverride, hsig⟩, hpattern⟩
    split at hsig
    · cases hsig
    · rename_i hmissing
      obtain rfl := Option.some.inj hsig
      exact ⟨override, hoverride, (hnone _).mp hmissing, hpattern⟩
  · rintro ⟨override, hoverride, hmissing, hpattern⟩
    refine ⟨⟨override.1, override.2.hostnames.getD []⟩, ⟨override, hoverride, ?_⟩, hpattern⟩
    rw [(hnone _).mpr hmissing]

/-- **Matching.** A hostname is matched exactly when one of the rules selects it. -/
theorem HostnameAllowlist.matchHostname_isSome_iff {allowlist : HostnameAllowlist}
    {hostname : Text} :
    (allowlist.matchHostname L hostname).isSome ↔
      ∃ pattern, allowlist.Rule pattern ∧ Selects L pattern hostname := by
  have hsplit : (∃ pattern, allowlist.Rule pattern ∧ Selects L pattern hostname) ↔
      (∃ pattern, Signed allowlist.allSignatures pattern ∧ Selects L pattern hostname) ∨
      ∃ pattern, Signed aiProviderSignatures pattern ∧ Selects L pattern hostname := by
    simp only [Rule, signed_allSignatures_iff, ← or_assoc, or_and_right, exists_or]
  rw [hsplit, ← getProviderByHostname_isSome_iff, ← findPattern_or_isSome_iff, matchHostname]
  rcases findPattern allowlist.allSignatures fun pattern =>
    decide (L.lower hostname = cleanPattern L pattern) with _ | sig
  · rcases findPattern allowlist.allSignatures fun pattern =>
      pattern.contains '*' && fnmatch (L.lower hostname) (L.lower pattern) with _ | sig <;> simp
  · simp

/-- The names that go into the proxy configuration are the patterns of the signatures and of all
overrides. -/
theorem HostnameAllowlist.mem_getAllProxyDomains_iff {allowlist : HostnameAllowlist}
    {domain : Text} :
    domain ∈ allowlist.getAllProxyDomains ↔ allowlist.Listed domain := by
  simp [getAllProxyDomains, Listed, Signed, List.mem_mergeSort, List.mem_dedup]

end AnonReq.Discovery
