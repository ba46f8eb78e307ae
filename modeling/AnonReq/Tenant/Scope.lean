import AnonReq.Foundation.Characters

/-!
# The tenant a caller may read

`services/tenant_scope.py`: a request carries a tenant in its role principal, its OIDC principal,
the state left by the middleware and a header. `resolve_scoped_tenant` first replaces a role
principal that names no tenant by the tenant of the request, and then reads the principals.

* `callerTenant_narrow`: the tenant of a caller after both steps.
* `resolveScopedTenant_ne_wildcard`: the wildcard is never returned.
* `confined_iff`: a caller whose principals name a tenant is confined to it, whatever the header,
  unless the role principal names none and the state or the header stands in for it.
* `not_confined`: the header chooses the tenant of a caller with an OIDC tenant.
-/

namespace AnonReq.Tenant

/-! ### The model -/

/-- A principal, with its `tenant_id`: `none` where it is missing or not a text. -/
structure Principal where
  tenantId : Option Text
deriving DecidableEq

/-- What the tenant of a request is read from. A principal is `none` where it is not a
dictionary. -/
structure Request where
  rolePrincipal : Option Principal := none
  oidcPrincipal : Option Principal := none
  tenantId : Option Text := none
  header : Option Text := none
deriving DecidableEq

/-- `_WILDCARD_TENANT`. -/
def wildcardTenant : Text := ['*']

/-- A character of a tenant: printable ASCII. -/
def isTenantCharacter (c : Char) : Bool := 32 ≤ c.toNat && c.toNat < 127

/-- `_concrete_tenant`. -/
def concreteTenant (value : Option Text) : Option Text :=
  value.bind fun v =>
    let tenant := Text.strip v
    if tenant.isEmpty || tenant == wildcardTenant || decide (64 < tenant.length) then none
    else if !tenant.all isTenantCharacter then none
    else some tenant

/-- `concrete_request_tenant`. -/
def concreteRequestTenant (request : Request) : Option Text :=
  let stateTenant := concreteTenant request.tenantId
  let headerTenant := concreteTenant request.header
  match stateTenant, headerTenant with
  | some s, some h => if s ≠ h then none else some s
  | _, _ => stateTenant.or headerTenant

/-- `narrow_wildcard_principal`. -/
def narrowWildcardPrincipal (request : Request) : Request :=
  match request.rolePrincipal with
  | none => request
  | some principal =>
    if (concreteTenant principal.tenantId).isSome then request
    else
      { request with
        rolePrincipal := some { tenantId := some ((concreteRequestTenant request).getD []) } }

/-- `_principal_tenant`. -/
def principalTenant (principal : Option Principal) : Option Text :=
  principal.bind fun p => concreteTenant p.tenantId

/-- `caller_tenant`. -/
def callerTenant (request : Request) : Option Text :=
  (principalTenant request.rolePrincipal).or
    ((principalTenant request.oidcPrincipal).or (concreteTenant request.tenantId))

/-- `resolve_scoped_tenant`. An error is the detail of the HTTP 403 it raises. -/
def resolveScopedTenant (request : Request) (requestedTenantId : Option Text) :
    Except String Text :=
  match callerTenant (narrowWildcardPrincipal request) with
  | none => .error "Caller tenant could not be determined"
  | some tenant =>
    match requestedTenantId with
    | none => .ok tenant
    | some requestedTenantId =>
      let requested := Text.strip requestedTenantId
      if requested.isEmpty || requested == tenant then .ok tenant
      else .error "tenant_id does not match the caller tenant"

/-! ### Tenants -/

/-- A concrete tenant is a tenant of its own. -/
theorem concreteTenant_some {value : Option Text} {tenant : Text}
    (h : concreteTenant value = some tenant) : concreteTenant (some tenant) = some tenant := by
  obtain ⟨v, rfl, hv⟩ := Option.bind_eq_some_iff.mp h
  have htenant : Text.strip v = tenant := by
    dsimp only at hv
    split_ifs at hv
    exact Option.some.inj hv
  rw [concreteTenant, Option.bind_some, ← htenant, Text.strip_strip]
  rw [htenant] at hv ⊢
  exact hv

theorem concreteTenant_ne_wildcard {value : Option Text} :
    concreteTenant value ≠ some wildcardTenant := by
  intro h
  exact absurd (concreteTenant_some h) (by decide)

/-- What the state and the header agree on is a tenant named by one of them. -/
theorem concreteTenant_of_concreteRequestTenant {request : Request} {tenant : Text}
    (h : concreteRequestTenant request = some tenant) :
    concreteTenant (some tenant) = some tenant := by
  rw [concreteRequestTenant] at h
  split at h
  · next s t hstate hheader =>
      split_ifs at h
      exact concreteTenant_some (hstate.trans h)
  · rcases hstate : concreteTenant request.tenantId with _ | s
    · rw [hstate, Option.none_or] at h
      exact concreteTenant_some h
    · rw [hstate, Option.some_or] at h
      exact concreteTenant_some (hstate.trans h)

/-- Some header leaves the state without a say, and then no tenant is agreed on. -/
theorem exists_header_eq_none (request : Request) :
    ∃ header, concreteRequestTenant { request with header := header } = none := by
  rcases hstate : concreteTenant request.tenantId with _ | s
  · refine ⟨none, ?_⟩
    simp only [concreteRequestTenant, hstate]
    rfl
  · obtain ⟨other, hother, hne⟩ : ∃ other, concreteTenant (some other) = some other ∧
        s ≠ other := by
      rcases eq_or_ne s ['a'] with rfl | hne
      · exact ⟨['b'], by decide, by decide⟩
      · exact ⟨['a'], by decide, hne⟩
    refine ⟨some other, ?_⟩
    simp only [concreteRequestTenant, hstate, hother, if_pos hne]

/-! ### The tenant of a caller -/

/-- The role principal is a dictionary that names no tenant. -/
def RoleNamesNone (request : Request) : Prop :=
  ∃ principal, request.rolePrincipal = some principal ∧ concreteTenant principal.tenantId = none

/-- The tenant the principals of a request name, the role principal before the OIDC principal. -/
def namedTenant (request : Request) : Option Text :=
  (principalTenant request.rolePrincipal).or (principalTenant request.oidcPrincipal)

variable {request : Request} {tenant : Text} {requested : Option Text}

theorem narrowWildcardPrincipal_of_not (h : ¬ RoleNamesNone request) :
    narrowWildcardPrincipal request = request := by
  rw [narrowWildcardPrincipal]
  split
  · rfl
  · next principal hrole =>
      refine if_pos (Option.isSome_iff_ne_none.mpr fun hnone => h ⟨principal, hrole, hnone⟩)

/-- **The tenant of a caller.** A role principal that names no tenant takes the tenant of the
state or the header, and is read before the OIDC principal. -/
theorem callerTenant_narrow (h : RoleNamesNone request) :
    callerTenant (narrowWildcardPrincipal request) =
      (concreteRequestTenant request).or
        ((principalTenant request.oidcPrincipal).or (concreteTenant request.tenantId)) := by
  obtain ⟨principal, hrole, hnone⟩ := h
  have hnarrow : narrowWildcardPrincipal request = { request with
      rolePrincipal := some { tenantId := some ((concreteRequestTenant request).getD []) } } := by
    simp only [narrowWildcardPrincipal, hrole, hnone, Option.isSome_none, Bool.false_eq_true,
      if_false]
  rw [hnarrow, callerTenant]
  dsimp only [principalTenant, Option.bind_some]
  have hconcrete : concreteTenant (some ((concreteRequestTenant request).getD [])) =
      concreteRequestTenant request := by
    rcases hrequest : concreteRequestTenant request with _ | t
    · rfl
    · exact concreteTenant_of_concreteRequestTenant hrequest
  rw [hconcrete]

/-- A caller is never the wildcard. -/
theorem callerTenant_ne_wildcard (request : Request) :
    callerTenant request ≠ some wildcardTenant := by
  intro h
  have hprincipal (principal : Option Principal) :
      principalTenant principal ≠ some wildcardTenant := by
    rcases principal with _ | p
    · exact Option.some_ne_none _ |>.symm
    · exact concreteTenant_ne_wildcard
  rw [callerTenant] at h
  rcases Option.or_eq_some_iff.mp h with hrole | ⟨-, h⟩
  · exact hprincipal _ hrole
  · rcases Option.or_eq_some_iff.mp h with hoidc | ⟨-, hstate⟩
    · exact hprincipal _ hoidc
    · exact concreteTenant_ne_wildcard hstate

/-- The tenant may stand in for a role principal that names none: it is the tenant of the state,
or the state names none and the header may name any. -/
def StandsIn (request : Request) (tenant : Text) : Prop :=
  concreteTenant (some tenant) = some tenant ∧
    ∀ s, concreteTenant request.tenantId = some s → s = tenant

/-- The tenants that stand in are those some header makes the state and the header agree on. -/
theorem standsIn_iff : StandsIn request tenant ↔
    ∃ header, concreteRequestTenant { request with header := header } = some tenant := by
  constructor
  · rintro ⟨hconcrete, hstate⟩
    refine ⟨some tenant, ?_⟩
    rcases hs : concreteTenant request.tenantId with _ | s
    · simp only [concreteRequestTenant, hs, hconcrete]
      rfl
    · obtain rfl := hstate s hs
      simp only [concreteRequestTenant, hs, hconcrete, ne_eq, not_true, if_false]
  · rintro ⟨header, hheader⟩
    refine ⟨concreteTenant_of_concreteRequestTenant hheader, fun s hs => ?_⟩
    rcases hh : concreteTenant header with _ | t
    · simp only [concreteRequestTenant, hs, hh, Option.some_or] at hheader
      exact Option.some.inj hheader
    · simp only [concreteRequestTenant, hs, hh] at hheader
      split_ifs at hheader
      exact Option.some.inj hheader

/-! ### What a caller is answered -/

/-- The requested tenant is left out, blank or the tenant of the caller. -/
def Accepts (requested : Option Text) (tenant : Text) : Prop :=
  ∀ v, requested = some v → Text.strip v = [] ∨ Text.strip v = tenant

theorem resolveScopedTenant_of_accepts
    (hcaller : callerTenant (narrowWildcardPrincipal request) = some tenant)
    (h : Accepts requested tenant) : resolveScopedTenant request requested = .ok tenant := by
  rcases requested with _ | v
  · simp only [resolveScopedTenant, hcaller]
  · have hv : Text.strip v = [] ∨ Text.strip v = tenant := h v rfl
    simp only [resolveScopedTenant, hcaller, Bool.or_eq_true, List.isEmpty_iff, beq_iff_eq,
      if_pos hv]

theorem resolveScopedTenant_of_not_accepts
    (hcaller : callerTenant (narrowWildcardPrincipal request) = some tenant)
    (h : ¬ Accepts requested tenant) :
    resolveScopedTenant request requested =
      .error "tenant_id does not match the caller tenant" := by
  simp only [Accepts, not_forall] at h
  obtain ⟨v, rfl, hv⟩ := h
  simp only [resolveScopedTenant, hcaller, Bool.or_eq_true, List.isEmpty_iff, beq_iff_eq,
    if_neg hv]

/-- **No wildcard.** Whatever the request, the wildcard is not returned. -/
theorem resolveScopedTenant_ne_wildcard (request : Request) (requested : Option Text) :
    resolveScopedTenant request requested ≠ .ok wildcardTenant := by
  intro h
  rcases hcaller : callerTenant (narrowWildcardPrincipal request) with _ | tenant
  · simp only [resolveScopedTenant, hcaller, reduceCtorEq] at h
  · by_cases haccepts : Accepts requested tenant
    · rw [resolveScopedTenant_of_accepts hcaller haccepts] at h
      obtain rfl := Except.ok.inj h
      exact callerTenant_ne_wildcard _ hcaller
    · rw [resolveScopedTenant_of_not_accepts hcaller haccepts] at h
      cases h

/-! ### Confinement -/

/-- The caller is confined to the tenant its principals name: whatever the header, that tenant is
returned or the request is refused, the answer does not depend on the header, and the wildcard is
never returned. -/
structure Confined (request : Request) (requested : Option Text) : Prop where
  tenant : ∀ tenant, namedTenant request = some tenant → ∀ header,
    resolveScopedTenant { request with header := header } requested = .ok tenant ∨
      ∃ detail, resolveScopedTenant { request with header := header } requested = .error detail
  header : (namedTenant request).isSome → ∀ header header',
    resolveScopedTenant { request with header := header } requested =
      resolveScopedTenant { request with header := header' } requested
  wildcard : ∀ header,
    resolveScopedTenant { request with header := header } requested ≠ .ok wildcardTenant

/-- A caller whose principals name no tenant is confined, as nothing but the wildcard is asked. -/
theorem confined_of_namedTenant_eq_none (h : namedTenant request = none) :
    Confined request requested where
  tenant t ht := absurd (h.symm.trans ht) (Option.some_ne_none t).symm
  header hsome := absurd hsome (by rw [h]; exact Bool.false_ne_true)
  wildcard _ := resolveScopedTenant_ne_wildcard _ requested

/-- A caller that is the named tenant under every header is confined to it. -/
theorem confined_of_callerTenant (hnamed : namedTenant request = some tenant)
    (h : ∀ header, callerTenant (narrowWildcardPrincipal { request with header := header }) =
      some tenant) : Confined request requested where
  tenant t ht header := by
    obtain rfl := Option.some.inj (hnamed.symm.trans ht)
    by_cases haccepts : Accepts requested tenant
    · exact Or.inl (resolveScopedTenant_of_accepts (h header) haccepts)
    · exact Or.inr ⟨_, resolveScopedTenant_of_not_accepts (h header) haccepts⟩
  header _ header header' := by
    by_cases haccepts : Accepts requested tenant
    · rw [resolveScopedTenant_of_accepts (h header) haccepts,
        resolveScopedTenant_of_accepts (h header') haccepts]
    · rw [resolveScopedTenant_of_not_accepts (h header) haccepts,
        resolveScopedTenant_of_not_accepts (h header') haccepts]
  wildcard _ := resolveScopedTenant_ne_wildcard _ requested

/-- A caller that is refused under every header is confined. -/
theorem confined_of_refused
    (h : ∀ header, ∃ t, callerTenant (narrowWildcardPrincipal { request with header := header }) =
      some t ∧ ¬ Accepts requested t) : Confined request requested := by
  have hrefused (header : Option Text) :
      resolveScopedTenant { request with header := header } requested =
        .error "tenant_id does not match the caller tenant" := by
    obtain ⟨t, hcaller, haccepts⟩ := h header
    exact resolveScopedTenant_of_not_accepts hcaller haccepts
  refine ⟨fun _ _ header => Or.inr ⟨_, hrefused header⟩, fun _ header header' => ?_,
    fun header => resolveScopedTenant_ne_wildcard _ requested⟩
  rw [hrefused header, hrefused header']

/-- The header has no say over a caller whose role principal names no tenant and whose OIDC
principal names `oidcTenant`: the state names the same tenant, or the requested tenant is refused
to every tenant the caller may be taken for. -/
def HeaderHasNoSay (request : Request) (requested : Option Text) (oidcTenant : Text) : Prop :=
  concreteTenant request.tenantId = some oidcTenant ∨
    ¬ Accepts requested oidcTenant ∧ ∀ t, StandsIn request t → ¬ Accepts requested t

/-- The caller is the tenant that stands in for its role principal, or else its OIDC tenant. -/
theorem callerTenant_of_oidc (hrole : RoleNamesNone request)
    (hoidc : principalTenant request.oidcPrincipal = some tenant) :
    callerTenant (narrowWildcardPrincipal request) =
      some ((concreteRequestTenant request).getD tenant) := by
  rw [callerTenant_narrow hrole, hoidc, Option.some_or]
  rcases concreteRequestTenant request with _ | t <;> rfl

/-- Where the header has no say the caller is confined. -/
theorem confined_of_headerHasNoSay (hrole : RoleNamesNone request)
    (hoidc : principalTenant request.oidcPrincipal = some tenant)
    (hnamed : namedTenant request = some tenant) (h : HeaderHasNoSay request requested tenant) :
    Confined request requested := by
  have hcaller (header : Option Text) :
      callerTenant (narrowWildcardPrincipal { request with header := header }) = some
        ((concreteRequestTenant { request with header := header }).getD tenant) :=
    callerTenant_of_oidc hrole hoidc
  rcases h with hstate | ⟨hrefused, hstands⟩
  · refine confined_of_callerTenant hnamed fun header => ?_
    rw [hcaller header]
    rcases hagreed : concreteRequestTenant { request with header := header } with _ | t
    · rfl
    · obtain rfl : tenant = t := (standsIn_iff.mpr ⟨header, hagreed⟩).2 tenant hstate
      rfl
  · refine confined_of_refused fun header => ⟨_, hcaller header, ?_⟩
    rcases hagreed : concreteRequestTenant { request with header := header } with _ | t
    · exact hrefused
    · exact hstands t (standsIn_iff.mpr ⟨header, hagreed⟩)

/-- Some tenant other than the OIDC tenant may stand in, unless the state names it. -/
theorem exists_standsIn_ne (h : concreteTenant request.tenantId ≠ some tenant) :
    ∃ t, StandsIn request t ∧ t ≠ tenant := by
  rcases hstate : concreteTenant request.tenantId with _ | s
  · rcases eq_or_ne tenant ['a'] with rfl | hne
    · exact ⟨['b'], ⟨by decide, fun s hs => absurd (hstate.symm.trans hs) nofun⟩, by decide⟩
    · exact ⟨['a'], ⟨by decide, fun s hs => absurd (hstate.symm.trans hs) nofun⟩, hne.symm⟩
  · refine ⟨s, ⟨concreteTenant_some hstate, fun s' hs' => ?_⟩, fun heq => h ?_⟩
    · exact Option.some.inj (hs'.symm.trans hstate)
    · rw [hstate, heq]

/-- A confined caller gives the header no say. -/
theorem headerHasNoSay_of_confined (hrole : RoleNamesNone request)
    (hoidc : principalTenant request.oidcPrincipal = some tenant)
    (hnamed : namedTenant request = some tenant) (h : Confined request requested) :
    HeaderHasNoSay request requested tenant := by
  have hcaller (header : Option Text) :
      callerTenant (narrowWildcardPrincipal { request with header := header }) = some
        ((concreteRequestTenant { request with header := header }).getD tenant) :=
    callerTenant_of_oidc hrole hoidc
  refine or_iff_not_imp_left.mpr fun hstate => ?_
  obtain ⟨noSay, hnoSay⟩ := exists_header_eq_none request
  have hown := hcaller noSay
  rw [hnoSay, Option.getD_none] at hown
  -- every header is answered as the one that leaves the OIDC tenant in place
  have hsame (header : Option Text) := h.header (by rw [hnamed]; rfl) header noSay
  by_cases haccepts : Accepts requested tenant
  · exfalso
    obtain ⟨t, hstands, hne⟩ := exists_standsIn_ne hstate
    obtain ⟨header, hagreed⟩ := standsIn_iff.mp hstands
    have hother := hcaller header
    rw [hagreed, Option.getD_some] at hother
    have hanswer := hsame header
    rw [resolveScopedTenant_of_accepts hown haccepts] at hanswer
    by_cases hoAccepts : Accepts requested t
    · rw [resolveScopedTenant_of_accepts hother hoAccepts] at hanswer
      exact hne (Except.ok.inj hanswer)
    · rw [resolveScopedTenant_of_not_accepts hother hoAccepts] at hanswer
      cases hanswer
  · refine ⟨haccepts, fun t hstands htAccepts => ?_⟩
    obtain ⟨header, hagreed⟩ := standsIn_iff.mp hstands
    have hother := hcaller header
    rw [hagreed, Option.getD_some] at hother
    have hanswer := hsame header
    rw [resolveScopedTenant_of_accepts hother htAccepts,
      resolveScopedTenant_of_not_accepts hown haccepts] at hanswer
    cases hanswer

/-- **Confinement.** A caller is confined to the tenant its principals name if and only if the
header has no say where the role principal names no tenant and the OIDC principal names one. -/
theorem confined_iff (request : Request) (requested : Option Text) :
    Confined request requested ↔ ∀ oidcTenant, RoleNamesNone request →
      principalTenant request.oidcPrincipal = some oidcTenant →
        HeaderHasNoSay request requested oidcTenant := by
  have hnamed (hrole : RoleNamesNone request) :
      namedTenant request = principalTenant request.oidcPrincipal := by
    obtain ⟨principal, hprincipal, hnone⟩ := hrole
    rw [namedTenant, hprincipal, principalTenant, Option.bind_some, hnone, Option.none_or]
  constructor
  · intro h oidcTenant hrole hoidc
    exact headerHasNoSay_of_confined hrole hoidc ((hnamed hrole).trans hoidc) h
  · intro h
    rcases htenant : namedTenant request with _ | tenant
    · exact confined_of_namedTenant_eq_none htenant
    · by_cases hrole : RoleNamesNone request
      · have hoidc := (hnamed hrole).symm.trans htenant
        exact confined_of_headerHasNoSay hrole hoidc htenant (h tenant hrole hoidc)
      · refine confined_of_callerTenant htenant fun header => ?_
        have hrole' : ¬ RoleNamesNone { request with header := header } := hrole
        rw [narrowWildcardPrincipal_of_not hrole', callerTenant, ← Option.or_assoc]
        change (namedTenant request).or (concreteTenant request.tenantId) = some tenant
        rw [htenant, Option.some_or]

/-- A caller with the unbound wildcard and the OIDC tenant `acme`. -/
def oidcCaller (header : Option Text) : Request where
  rolePrincipal := some { tenantId := some wildcardTenant }
  oidcPrincipal := some { tenantId := some "acme".toList }
  header := header

/-- The header chooses the tenant of a caller whose OIDC principal names one. -/
theorem not_confined :
    principalTenant (oidcCaller none).oidcPrincipal = some "acme".toList ∧
      resolveScopedTenant (oidcCaller none) none = .ok "acme".toList ∧
      resolveScopedTenant (oidcCaller (some "evil".toList)) none = .ok "evil".toList ∧
      ¬ ∀ request requested, Confined request requested := by
  refine ⟨by decide, by rfl, by rfl, fun h => ?_⟩
  have heq := (h (oidcCaller none) none).header rfl none (some "evil".toList)
  have hne : resolveScopedTenant (oidcCaller none) none ≠
      resolveScopedTenant (oidcCaller (some "evil".toList)) none :=
    fun hsame => absurd (Except.ok.inj hsame) (by decide)
  exact hne heq

end AnonReq.Tenant
