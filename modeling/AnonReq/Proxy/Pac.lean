import AnonReq.Discovery.Allowlist

/-!
# Proxy auto-configuration

`PACGenerator` of `proxy/pac.py`: a script whose function `FindProxyForURL` sends a host to the
gateway when `dnsDomainIs` finds it under one of the names of the allowlist. The script is its
list of branches, each a suffix and a directive; `dnsDomainIs(host, domain)` says that the host
ends with the domain.

* `findProxyForUrl_eq_proxy_iff`: a host is sent to the gateway exactly when it is below one of
  the listed names, which are taken literally.
* `agrees_iff`: script and allowlist agree on a host if and only if it is neither `Missed` by the
  script nor `Stray`.
* `missed_builtin`: the built-in exact hosts are all missed.
-/

namespace AnonReq.Proxy

open Discovery

/-! ### The script -/

/-- A custom rule: a pattern, and the directive for the hosts under it. -/
structure CustomRule where
  domainPattern : Text
  proxy : Text

/-- `PACGenerator`. -/
structure PacGenerator where
  domains : List Text
  gatewayHost : Text
  gatewayPort : ℕ
  customRules : List CustomRule := []

/-- The directive for the gateway. -/
def PacGenerator.proxy (generator : PacGenerator) : Text :=
  "PROXY ".toList ++ generator.gatewayHost ++ ':' :: Nat.toDigits 10 generator.gatewayPort

/-- A branch of the script: `if (dnsDomainIs(host, suffix)) return directive;`. -/
structure Branch where
  suffix : Text
  directive : Text

/-- The branch of a custom rule. -/
def CustomRule.branch (rule : CustomRule) : Branch :=
  match rule.domainPattern with
  | '*' :: '.' :: domain => ⟨'.' :: domain, rule.proxy⟩
  | pattern => ⟨pattern, rule.proxy⟩

/-- The branches of `_generate_pac_js`: the custom rules, then the listed names, each with one dot
in front. -/
def PacGenerator.branches (generator : PacGenerator) : List Branch :=
  generator.customRules.map CustomRule.branch ++
    generator.domains.map fun domain =>
      ⟨'.' :: domain.dropWhile fun c => c == '.', generator.proxy⟩

/-- `dnsDomainIs`. -/
def dnsDomainIs (host domain : Text) : Bool := domain.isSuffixOf host

/-- `FindProxyForURL` of a script. -/
def findProxyForUrl (branches : List Branch) (host : Text) : Text :=
  match branches.find? fun branch => dnsDomainIs host branch.suffix with
  | some branch => branch.directive
  | none => "DIRECT".toList

/-! ### Which hosts the script sends to the gateway -/

/-- The host is below a name: it ends with a dot and that name. -/
def Below (domain host : Text) : Prop := ('.' :: domain.dropWhile fun c => c == '.') <:+ host

instance (domain host : Text) : Decidable (Below domain host) := by
  unfold Below
  infer_instance

/-- The script for an allowlist, without custom rules. -/
def pacFor (allowlist : HostnameAllowlist) (gatewayHost : Text) (gatewayPort : ℕ) :
    PacGenerator where
  domains := allowlist.getAllProxyDomains
  gatewayHost := gatewayHost
  gatewayPort := gatewayPort

/-- The gateway is a directive of its own. -/
theorem PacGenerator.direct_ne_proxy (generator : PacGenerator) :
    "DIRECT".toList ≠ generator.proxy := by
  intro h
  have hproxy : generator.proxy.head? = "PROXY ".toList.head? := by
    change ("PROXY ".toList ++ generator.gatewayHost ++
      ':' :: Nat.toDigits 10 generator.gatewayPort).head? = _
    rw [List.append_assoc, List.head?_append]
    exact Option.or_of_isSome (by decide)
  rw [← h] at hproxy
  exact absurd hproxy (by decide)

/-- **The script.** It sends a host to the gateway exactly when the host is below a listed name. -/
theorem findProxyForUrl_eq_proxy_iff (allowlist : HostnameAllowlist) (gatewayHost : Text)
    (gatewayPort : ℕ) (host : Text) :
    findProxyForUrl (pacFor allowlist gatewayHost gatewayPort).branches host =
        (pacFor allowlist gatewayHost gatewayPort).proxy ↔
      ∃ domain, allowlist.Listed domain ∧ Below domain host := by
  simp only [← HostnameAllowlist.mem_getAllProxyDomains_iff]
  have hbranches : (pacFor allowlist gatewayHost gatewayPort).branches =
      allowlist.getAllProxyDomains.map fun domain =>
        ⟨'.' :: domain.dropWhile fun c => c == '.',
          (pacFor allowlist gatewayHost gatewayPort).proxy⟩ := rfl
  rw [findProxyForUrl]
  rcases hfind : (pacFor allowlist gatewayHost gatewayPort).branches.find? fun branch =>
    dnsDomainIs host branch.suffix with _ | branch <;> rw [hfind]
  · refine iff_of_false (PacGenerator.direct_ne_proxy _) ?_
    rintro ⟨domain, hdomain, hbelow⟩
    have hnone := List.find?_eq_none.mp hfind _ (hbranches ▸ List.mem_map_of_mem hdomain)
    exact hnone (List.isSuffixOf_iff_suffix.mpr hbelow)
  · have hmem := List.mem_of_find?_eq_some hfind
    rw [hbranches] at hmem
    obtain ⟨domain, hdomain, rfl⟩ := List.mem_map.mp hmem
    have hbelow := List.find?_some hfind
    exact iff_of_true rfl ⟨domain, hdomain, List.isSuffixOf_iff_suffix.mp hbelow⟩

/-! ### Agreement -/

variable (L : LowerCase)

/-- Script and allowlist agree on a host: it is sent to the gateway exactly when it is matched. -/
def Agrees (allowlist : HostnameAllowlist) (gatewayHost : Text) (gatewayPort : ℕ) (host : Text) :
    Prop :=
  (allowlist.matchHostname L host).isSome ↔
    findProxyForUrl (pacFor allowlist gatewayHost gatewayPort).branches host =
      (pacFor allowlist gatewayHost gatewayPort).proxy

/-- A rule selects the host, but the host is below no listed name. -/
def Missed (allowlist : HostnameAllowlist) (host : Text) : Prop :=
  ∃ pattern, allowlist.Rule pattern ∧ Selects L pattern host ∧
    ∀ domain, allowlist.Listed domain → ¬ Below domain host

/-- The host is below a listed name, but no rule selects it. -/
def Stray (allowlist : HostnameAllowlist) (host : Text) : Prop :=
  ∃ domain, allowlist.Listed domain ∧ Below domain host ∧
    ∀ pattern, allowlist.Rule pattern → ¬ Selects L pattern host

/-- A missed host is a disagreement. -/
theorem not_agrees_of_missed {allowlist : HostnameAllowlist} {host : Text}
    (h : Missed L allowlist host) (gatewayHost : Text) (gatewayPort : ℕ) :
    ¬ Agrees L allowlist gatewayHost gatewayPort host := by
  intro hagrees
  rw [Agrees, HostnameAllowlist.matchHostname_isSome_iff, findProxyForUrl_eq_proxy_iff]
    at hagrees
  obtain ⟨pattern, hpattern, hselects, hnone⟩ := h
  obtain ⟨domain, hdomain, hbelow⟩ := hagrees.mp ⟨pattern, hpattern, hselects⟩
  exact hnone domain hdomain hbelow

/-- A stray host is a disagreement. -/
theorem not_agrees_of_stray {allowlist : HostnameAllowlist} {host : Text}
    (h : Stray L allowlist host) (gatewayHost : Text) (gatewayPort : ℕ) :
    ¬ Agrees L allowlist gatewayHost gatewayPort host := by
  intro hagrees
  rw [Agrees, HostnameAllowlist.matchHostname_isSome_iff, findProxyForUrl_eq_proxy_iff]
    at hagrees
  obtain ⟨domain, hdomain, hbelow, hnone⟩ := h
  obtain ⟨pattern, hpattern, hselects⟩ := hagrees.mpr ⟨domain, hdomain, hbelow⟩
  exact hnone pattern hpattern hselects

/-- **Agreement.** -/
theorem agrees_iff (allowlist : HostnameAllowlist) (gatewayHost : Text) (gatewayPort : ℕ)
    (host : Text) :
    Agrees L allowlist gatewayHost gatewayPort host ↔
      ¬ Missed L allowlist host ∧ ¬ Stray L allowlist host := by
  refine ⟨fun h => ⟨fun hmissed => not_agrees_of_missed L hmissed _ _ h,
    fun hstray => not_agrees_of_stray L hstray _ _ h⟩, ?_⟩
  rintro ⟨hmissed, hstray⟩
  rw [Agrees, HostnameAllowlist.matchHostname_isSome_iff, findProxyForUrl_eq_proxy_iff]
  refine ⟨fun ⟨pattern, hpattern, hselects⟩ => ?_, fun ⟨domain, hdomain, hbelow⟩ => ?_⟩
  · by_contra hnone
    exact hmissed ⟨pattern, hpattern, hselects, fun domain hdomain hbelow =>
      hnone ⟨domain, hdomain, hbelow⟩⟩
  · by_contra hnone
    exact hstray ⟨domain, hdomain, hbelow, fun pattern hpattern hselects =>
      hnone ⟨pattern, hpattern, hselects⟩⟩

/-! ### Where they disagree -/

/-! ### The built-in signatures -/

/-- The built-in patterns. -/
def builtinPatterns : List Text := aiProviderSignatures.flatMap Signature.hostnames

theorem signed_builtin_iff {pattern : Text} :
    HostnameAllowlist.Signed aiProviderSignatures pattern ↔ pattern ∈ builtinPatterns := by
  simp [HostnameAllowlist.Signed, builtinPatterns]

/-- **Every built-in host is missed.** With the built-in signatures and no overrides, a host that
stands in a signature is matched, and not sent to the gateway. -/
theorem missed_builtin {host : Text} (hhost : host ∈ builtinPatterns) (hstar : '*' ∉ host) :
    Missed asciiLower (.new none) host := by
  have hbuiltin : ∀ host ∈ builtinPatterns, '*' ∉ host →
      asciiLower.lower host = cleanPattern asciiLower host ∧
        ∀ name ∈ builtinPatterns, ¬ Below name host := by decide +kernel
  obtain ⟨hselects, hbelow⟩ := hbuiltin host hhost hstar
  refine ⟨host, Or.inl (signed_builtin_iff.mpr hhost), Or.inl hselects, fun name hname => ?_⟩
  obtain hname | ⟨override, hoverride, -⟩ := hname
  · exact hbelow name (signed_builtin_iff.mp hname)
  · exact absurd hoverride List.not_mem_nil

/-- The host `api.openai.com` is matched, and not sent to the gateway. -/
theorem not_agrees :
    ¬ ∀ (allowlist : HostnameAllowlist) (host : Text),
      Agrees asciiLower allowlist "gateway".toList 8080 host := by
  intro h
  have hmissed : Missed asciiLower (.new none) "api.openai.com".toList :=
    missed_builtin (by decide +kernel) (by decide)
  exact not_agrees_of_missed asciiLower hmissed _ _ (h (.new none) _)

end AnonReq.Proxy
