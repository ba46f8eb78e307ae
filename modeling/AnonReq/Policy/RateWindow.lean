import AnonReq.Policy.DecisionPoint

/-!
# Requests per window

How many calls of `evaluate_all` return `ALLOW` inside one window of the usage limiter. The
request counter of a window is hit by every call that reaches the rate gate, and does not expire
before the window is over (`count_hitBoth`); a decision served from the decision cache hits
nothing.

* `Bounded` is the invariant that carries the bound, `Bounded.evaluateAll` its step lemma.
* `allowCount_le_rpm`: no more than `rpm` calls return `ALLOW` in a window, in every run in which
  no call is answered with a cached `ALLOW`.
* `allowCount_cached`: two calls within the time to live of the cache, with a limit of one.
-/

namespace AnonReq.Policy

open PolicyAction

/-! ### Runs -/

/-- One call of `evaluate_all`. -/
structure Call where
  env : Env
  ctx : ProcessingContext

/-- The results of calls made one after the other, and the state after them. -/
def runCalls (P : PolicyDecisionPoint) :
    State → List Call → List (Except String PolicyDecision) × State
  | s, [] => ([], s)
  | s, call :: calls =>
    let result := evaluateAll P s call.env call.ctx
    let rest := runCalls P result.2 calls
    (result.1 :: rest.1, rest.2)

/-- The call returned `ALLOW`. -/
def allows : Except String PolicyDecision → Bool
  | .ok decision => decide (decision.action = allow)
  | .error _ => false

/-- How many calls of a run return `ALLOW`. -/
def allowCount (P : PolicyDecisionPoint) (s : State) (calls : List Call) : ℕ :=
  (runCalls P s calls).1.countP allows

/-- The call finds a fresh `ALLOW` in the decision cache. -/
def FindsCachedAllow (P : PolicyDecisionPoint) (s : State) (call : Call) : Prop :=
  ∃ decision, (getCached P.cacheTtl s.cache (cacheKey P call.ctx) call.env.monotonic).1 =
    some decision ∧ decision.action = allow

/-- No call of a run finds a fresh `ALLOW` in the decision cache. -/
def NeverFindsCachedAllow (P : PolicyDecisionPoint) : State → List Call → Prop
  | _, [] => True
  | s, call :: calls => ¬ FindsCachedAllow P s call ∧
      NeverFindsCachedAllow P (evaluateAll P s call.env call.ctx).2 calls

/-! ### The request counter within a window -/

/-- Two times of one window are less than 60 seconds apart. -/
theorem lt_add_of_window_eq {t now : ℚ} (h : window t = window now) : t < now + 60 := by
  have hlt : t / 60 < ⌊t / 60⌋ + 1 := Int.lt_floor_add_one (t / 60)
  have hle : (⌊now / 60⌋ : ℚ) ≤ now / 60 := Int.floor_le (now / 60)
  have heq : (⌊t / 60⌋ : ℚ) = ⌊now / 60⌋ := congrArg Int.cast h
  linarith

/-- After the pipeline of the limiter the request counter is one more than before, at every time
of the window. -/
theorem count_hitBoth (redis : Redis) (tenantId : String) {t now : ℚ}
    (h : window t = window now) :
    (hitBoth redis tenantId now).count t (rpmKey tenantId now) =
      redis.count now (rpmKey tenantId now) + 1 := by
  have hne : rpmKey tenantId now ≠ tpmKey tenantId now :=
    limiterKey_ne (by decide) tenantId (window now)
  have hcounter : hitBoth redis tenantId now (rpmKey tenantId now) = some
      { value := redis.count now (rpmKey tenantId now) + 1, expiresAt := some (now + 60) } :=
    ((redis.hit now (rpmKey tenantId now)).2.hit_snd_of_ne now hne).trans
      (redis.hit_snd_self now _)
  exact Redis.count_of_alive hcounter (decide_eq_true (lt_add_of_window_eq h))

/-- The rate gate leaves the counters alone or hits both of them. -/
theorem checkRateLimit_snd (config : RateLimitConfig) (redis : Redis) (reply : PipelineReply)
    (tenantId : String) (now : ℚ) :
    ((checkRateLimit config redis reply tenantId now).2 = redis ∧ reply ≠ .results) ∨
      (checkRateLimit config redis reply tenantId now).2 = hitBoth redis tenantId now := by
  rcases reply with _ | executed
  · refine Or.inr ?_
    simp only [checkRateLimit]
    split_ifs <;> rfl
  · rcases executed with _ | _
    · exact Or.inl ⟨rfl, by simp⟩
    · exact Or.inr rfl

/-! ### The bound -/

/-- In window `w` of a tenant, `n` calls have been allowed: no more than the limit, and no more
than the request counter shows. -/
structure Bounded (P : PolicyDecisionPoint) (tenantId : String) (w : ℤ) (s : State) (n : ℤ) :
    Prop where
  le_rpm : n ≤ P.limits.rpm
  le_count : ∀ t, window t = w → n ≤ s.redis.count t (limiterKey ":rpm:" tenantId w)

variable {P : PolicyDecisionPoint} {tenantId : String} {w : ℤ} {s : State} {n : ℤ}

/-- Hitting the counters keeps the bound. -/
theorem Bounded.rate (h : Bounded P tenantId w s n) {call : Call}
    (htenant : call.ctx.tenantId = tenantId) (hwindow : window call.env.now = w)
    {s' : State} (hredis : s'.redis = (rateDecision P s.redis call.env call.ctx).2) :
    Bounded P tenantId w s' n := by
  refine ⟨h.le_rpm, fun t ht => ?_⟩
  subst htenant hwindow
  rw [hredis]
  rcases checkRateLimit_snd P.limits s.redis call.env.limiterReply call.ctx.tenantId
    call.env.now with ⟨hsame, -⟩ | hhit
  · rw [rateDecision, hsame]
    exact h.le_count t ht
  · have hcount := count_hitBoth s.redis call.ctx.tenantId ht
    have hbefore := h.le_count call.env.now rfl
    rw [rateDecision, hhit]
    simp only [rpmKey] at hcount
    omega

/-- An allowed call has hit the counter, which still shows no more than the limit. -/
theorem Bounded.allow (h : Bounded P tenantId w s n) {call : Call}
    (htenant : call.ctx.tenantId = tenantId) (hwindow : window call.env.now = w)
    (hblocks : ¬ SomeGateBlocks P s call.env call.ctx) {s' : State}
    (hredis : s'.redis = (rateDecision P s.redis call.env call.ctx).2) :
    Bounded P tenantId w s' (n + 1) := by
  subst htenant hwindow
  have hrate : ¬ RateBlocks P.limits s.redis call.env.limiterReply call.ctx.tenantId
      call.env.now := fun hb => hblocks (Or.inr (Or.inl hb))
  simp only [RateBlocks, not_or, not_not, not_lt] at hrate
  obtain ⟨hreply, hrpm, -⟩ := hrate
  have hbefore := h.le_count call.env.now rfl
  simp only [rpmKey] at hrpm
  refine ⟨by omega, fun t ht => ?_⟩
  rcases checkRateLimit_snd P.limits s.redis call.env.limiterReply call.ctx.tenantId
    call.env.now with ⟨-, hraised⟩ | hhit
  · exact absurd hreply hraised
  · have hcount := count_hitBoth s.redis call.ctx.tenantId ht
    simp only [rpmKey] at hcount
    rw [hredis, rateDecision, hhit]
    omega

/-- **Step.** A call that does not find a cached `ALLOW` keeps the bound, counting itself if it
is allowed. -/
theorem Bounded.evaluateAll (h : Bounded P tenantId w s n) {call : Call}
    (htenant : call.ctx.tenantId = tenantId) (hwindow : window call.env.now = w)
    (hcache : ¬ FindsCachedAllow P s call) :
    Bounded P tenantId w (evaluateAll P s call.env call.ctx).2
      (n + if allows (evaluateAll P s call.env call.ctx).1 then 1 else 0) := by
  rcases hcached : (getCached P.cacheTtl s.cache (cacheKey P call.ctx) call.env.monotonic).1 with
    _ | decision
  · obtain ⟨decision, hresult, -, ⟨-, haction, hredis⟩ | ⟨hblocks, haction, hredis⟩⟩ :=
      evaluateAll_of_miss hcached
    · have hno : allows (Policy.evaluateAll P s call.env call.ctx).1 = false := by
        simp [hresult, allows, haction]
      rw [hno, if_neg Bool.false_ne_true, add_zero]
      rcases hredis with hsame | hrate
      · exact ⟨h.le_rpm, fun t ht => hsame ▸ h.le_count t ht⟩
      · exact h.rate htenant hwindow hrate
    · have hyes : allows (Policy.evaluateAll P s call.env call.ctx).1 = true := by
        simp [hresult, allows, haction]
      rw [hyes, if_pos rfl]
      exact h.allow htenant hwindow hblocks hredis
  · -- a cached decision that is no `ALLOW`
    obtain ⟨hresult, hsame⟩ := evaluateAll_of_hit hcached
    have haction : decision.action ≠ PolicyAction.allow := fun ha =>
      hcache ⟨decision, hcached, ha⟩
    have hno : allows (Policy.evaluateAll P s call.env call.ctx).1 = false := by
      simp [hresult, allows, haction]
    rw [hno, if_neg Bool.false_ne_true, add_zero]
    exact ⟨h.le_rpm, fun t ht => hsame ▸ h.le_count t ht⟩

theorem Bounded.runCalls {calls : List Call} (h : Bounded P tenantId w s n)
    (hcalls : ∀ call ∈ calls, call.ctx.tenantId = tenantId ∧ window call.env.now = w)
    (hcache : NeverFindsCachedAllow P s calls) :
    n + (allowCount P s calls : ℤ) ≤ P.limits.rpm := by
  induction calls generalizing s n with
  | nil => simpa [allowCount, Policy.runCalls] using h.le_rpm
  | cons call calls ih =>
    obtain ⟨htenant, hwindow⟩ := hcalls call List.mem_cons_self
    have hstep := h.evaluateAll htenant hwindow hcache.1
    have hrest := ih hstep (fun c hc => hcalls c (List.mem_cons_of_mem call hc)) hcache.2
    have hcount : (allowCount P s (call :: calls) : ℤ) =
        allowCount P (Policy.evaluateAll P s call.env call.ctx).2 calls +
          if allows (Policy.evaluateAll P s call.env call.ctx).1 then 1 else 0 := by
      rw [allowCount, Policy.runCalls, List.countP_cons, allowCount]
      push_cast
      rfl
    rw [hcount]
    omega

/-- **Rate limiting through the decision point.** Of the calls of one tenant in one window of
the limiter at most `rpm` return `ALLOW`, in every run in which no call finds a fresh `ALLOW` in
the decision cache. The run may start in any state whose request counter is not negative; it is
only ever incremented. -/
theorem allowCount_le_rpm (P : PolicyDecisionPoint) (tenantId : String) (w : ℤ) (s : State)
    (hcounter : ∀ t, window t = w → 0 ≤ s.redis.count t (limiterKey ":rpm:" tenantId w))
    (calls : List Call)
    (hcalls : ∀ call ∈ calls, call.ctx.tenantId = tenantId ∧ window call.env.now = w)
    (hcache : NeverFindsCachedAllow P s calls) :
    (allowCount P s calls : ℤ) ≤ P.limits.rpm := by
  have hstart : Bounded P tenantId w s 0 := ⟨P.limits.rpm_pos.le, hcounter⟩
  have hrun := hstart.runCalls hcalls hcache
  omega

/-! ### The decision cache in front of the limiter -/

/-- A decision point without rules that allows one request in a window. -/
def onePerWindow : PolicyDecisionPoint := samplePdp [] { rpm := 1 }

/-- One call alone meets the bound. -/
theorem allowCount_le_rpm_sample :
    (allowCount onePerWindow {} [⟨sampleEnv 0, sampleRequest⟩] : ℤ) ≤ 1 := by
  have hcounter : ∀ t, window t = 0 →
      0 ≤ Redis.count (fun _ => none) t (limiterKey ":rpm:" "acme" 0) := fun t _ => by
    simp [Redis.count, Redis.live]
  have hcalls : ∀ call ∈ [(⟨sampleEnv 0, sampleRequest⟩ : Call)],
      call.ctx.tenantId = "acme" ∧ window call.env.now = 0 := by
    simp [sampleRequest, sampleEnv, window]
  have hcache : NeverFindsCachedAllow onePerWindow {} [⟨sampleEnv 0, sampleRequest⟩] := by
    refine ⟨?_, trivial⟩
    rintro ⟨_, hfound, _⟩
    simp [getCached] at hfound
  exact allowCount_le_rpm onePerWindow "acme" 0 {} hcounter _ hcalls hcache

/-- The same request twice, one second apart, in one window: the second answer comes from the
decision cache, and both are `ALLOW` although the limit is one. -/
theorem allowCount_cached :
    window (sampleEnv 0).now = window (sampleEnv 1).now ∧
    allowCount onePerWindow {} [⟨sampleEnv 0, sampleRequest⟩, ⟨sampleEnv 1, sampleRequest⟩] = 2 ∧
    ¬ (allowCount onePerWindow {}
      [⟨sampleEnv 0, sampleRequest⟩, ⟨sampleEnv 1, sampleRequest⟩] : ℤ) ≤
        onePerWindow.limits.rpm := by
  have hrules : enabledRules { globalRules := [] } (some none) true "acme" = some [] := by
    simp [enabledRules, loadPolicies]
  have hblocks := not_someGateBlocks_sample hrules (by decide) onePerWindow.limits 0
  have hmiss : Misses onePerWindow {} (sampleEnv 0) sampleRequest := rfl
  obtain ⟨decision, hfirst, hcached, ⟨hsome, -⟩ | ⟨-, haction, -⟩⟩ := evaluateAll_of_miss hmiss
  · exact absurd hsome hblocks
  · -- one second later the first decision is still fresh
    have hfresh : (sampleEnv 1).monotonic - (sampleEnv 0).monotonicSet < onePerWindow.cacheTtl := by
      simp only [sampleEnv, onePerWindow, samplePdp]
      norm_num
    obtain ⟨hsecond, -⟩ := evaluateAll_of_hit (getCached_of_fresh hcached hfresh)
    have hcount : allowCount onePerWindow {}
        [⟨sampleEnv 0, sampleRequest⟩, ⟨sampleEnv 1, sampleRequest⟩] = 2 := by
      simp [allowCount, runCalls, hfirst, hsecond, allows, haction]
    have hwindow : window (sampleEnv 0).now = window (sampleEnv 1).now := by
      have hone : ⌊(1 / 60 : ℚ)⌋ = 0 := Int.floor_eq_iff.mpr ⟨by norm_num, by norm_num⟩
      simp only [window, sampleEnv, zero_div, Int.floor_zero, hone]
    refine ⟨hwindow, hcount, ?_⟩
    rw [hcount]
    decide

end AnonReq.Policy
