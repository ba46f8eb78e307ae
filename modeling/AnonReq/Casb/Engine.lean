import Mathlib
import AnonReq.Foundation.Characters
import AnonReq.Foundation.Dict
import AnonReq.Foundation.Runs

/-!
# Enforcing the policies of applications

`casb/classifier.py` and `casb/engine.py`: an override of one of the groups of a user decides, or
the policy of the application does. What the policies decide is recorded.

* `action_enforce`: the action is that of the policy that applies.
* `orderFree_iff`, `restricted_iff`, `records_iff`: when an action does not depend on the order of
  the groups, when a list of allowed groups is respected, and which calls are recorded.
* `enforcedRun_iff`: the three for every state and every run of calls, with the sum of the counts.
-/

namespace AnonReq.Casb

/-- `AppClassification`. -/
inductive AppClassification where
  | sanctioned
  | tolerated
  | unsanctioned
deriving DecidableEq

/-- `ClassificationAction`. -/
inductive ClassificationAction where
  | allow
  | alert
  | block
deriving DecidableEq

/-- `AppPolicy`, with what decides about an action. -/
structure AppPolicy where
  appId : Text
  classification : AppClassification
  allowedGroups : List Text
  action : Option ClassificationAction

/-- The action of a classification. -/
def AppClassification.defaultAction : AppClassification → ClassificationAction
  | .sanctioned => .allow
  | .tolerated => .alert
  | .unsanctioned => .block

/-- `AppPolicy.__post_init__`. -/
def AppPolicy.postInit (policy : AppPolicy) : AppPolicy :=
  { policy with action := some (policy.action.getD policy.classification.defaultAction) }

/-- `CASBEvent`. -/
structure CASBEvent where
  eventType : Text
  application : Text
  userId : Text
  tenantId : Text
  groups : List Text
  action : ClassificationAction
  timestamp : ℚ

/-- `EnforcementResult`. -/
structure EnforcementResult where
  action : ClassificationAction
  blocked : Bool
  auditEvent : Option CASBEvent

/-- The telemetry of an engine. -/
structure Telemetry where
  totalEvents : ℕ
  apps : List (Text × ℕ)
  byClassification : List (AppClassification × ℕ)

/-- What an engine has recorded. -/
structure State where
  telemetry : Telemetry
  activityLog : List CASBEvent

/-- A new engine has recorded nothing. -/
def State.init : State := ⟨⟨0, [], []⟩, []⟩

/-- The arguments of a call of `enforce`, and the time. -/
structure Call where
  appId : Text
  userId : Text
  userGroups : List Text
  tenantId : Text
  now : ℚ

/-! ### The classifier -/

/-- `resolve_action`. -/
def resolveAction (policy : AppPolicy) : ClassificationAction := policy.action.getD .block

/-- `is_user_allowed`. -/
def isUserAllowed (policy : AppPolicy) (userGroup : Text) : Bool :=
  if policy.allowedGroups.isEmpty then false else policy.allowedGroups.contains userGroup

/-! ### The engine -/

/-- The activity log is kept bounded. -/
def keepBounded (log : List CASBEvent) : List CASBEvent :=
  if log.length > 10000 then log.drop (log.length - 5000) else log

/-- `_create_event`. -/
def createEvent (s : State) (call : Call) (action : ClassificationAction) : State × CASBEvent :=
  let event : CASBEvent :=
    { eventType := "unsanctioned_ai_access".toList
      application := call.appId
      userId := call.userId
      tenantId := call.tenantId
      groups := call.userGroups
      action := action
      timestamp := call.now }
  ({ s with activityLog := keepBounded (s.activityLog ++ [event]) }, event)

/-- One more in a table of counts. -/
def increment {κ : Type} [DecidableEq κ] (counts : List (κ × ℕ)) (k : κ) : List (κ × ℕ) :=
  Dict.set counts k ((Dict.get counts k).getD 0 + 1)

/-- `_update_telemetry`. -/
def updateTelemetry (s : State) (appId : Text) (classification : AppClassification) : State :=
  { s with
    telemetry :=
      { totalEvents := s.telemetry.totalEvents + 1
        apps := increment s.telemetry.apps appId
        byClassification := increment s.telemetry.byClassification classification } }

/-- `_record_enforcement`. -/
def recordEnforcement (s : State) (call : Call) (action : ClassificationAction)
    (classification : AppClassification) : State × EnforcementResult :=
  let (s, auditEvent) := createEvent s call action
  (updateTelemetry s call.appId classification,
    { action := action
      blocked := action = .block
      auditEvent := if action ≠ .allow then some auditEvent else none })

/-- The tables of an engine. -/
structure CASBEngine where
  policies : List (Text × AppPolicy)
  overrides : List (Text × List (Text × AppPolicy))

namespace CASBEngine

variable (E : CASBEngine)

/-- `classify`. -/
def classify (appId : Text) : Option AppPolicy := Dict.get E.policies appId

/-- The override of a group for an application. -/
def groupOverride (appId group : Text) : Option AppPolicy :=
  (Dict.get E.overrides group).bind fun groupOverrides => Dict.get groupOverrides appId

/-- `enforce`. -/
def enforce (s : State) (call : Call) : State × EnforcementResult :=
  match call.userGroups.findSome? (E.groupOverride call.appId) with
  | some policy =>
    let action := resolveAction policy
    (s, { action := action, blocked := action = .block, auditEvent := none })
  | none =>
    match E.classify call.appId with
    | none => recordEnforcement s call .block .unsanctioned
    | some appPolicy =>
      let action := resolveAction appPolicy
      let (s, auditEvent) := createEvent s call action
      (updateTelemetry s call.appId appPolicy.classification,
        { action := action
          blocked := action = .block
          auditEvent := if action ≠ .allow then some auditEvent else none })

/-- What a call leaves behind. -/
def step (s : State) (call : Call) : State := (E.enforce s call).1

/-! ### What is to hold -/

/-- The overrides of the groups of a user for an application. -/
def overridesOf (call : Call) : List AppPolicy :=
  call.userGroups.filterMap (E.groupOverride call.appId)

/-- The policy that applies to a call. -/
def applicable (call : Call) : Option AppPolicy :=
  (E.overridesOf call).head?.or (E.classify call.appId)

/-- The action does not depend on the order of the groups. -/
def OrderFree (s : State) (call : Call) : Prop :=
  ∀ groups : List Text, groups.Perm call.userGroups →
    (E.enforce s { call with userGroups := groups }).2.action = (E.enforce s call).2.action

/-- An override that blocks is obeyed. -/
def BlockWins (s : State) (call : Call) : Prop :=
  (∃ policy ∈ E.overridesOf call, resolveAction policy = .block) →
    (E.enforce s call).2.action = .block

/-- The policy that applies has a list of allowed groups, and none of them is a group of the
user. -/
def Excludes (policy : AppPolicy) (call : Call) : Prop :=
  policy.allowedGroups ≠ [] ∧ ∀ group ∈ call.userGroups, isUserAllowed policy group = false

/-- A user whose groups are not among the allowed ones is not allowed. -/
def Restricted (s : State) (call : Call) : Prop :=
  ∀ policy ∈ E.applicable call, Excludes policy call → (E.enforce s call).2.action ≠ .allow

/-- A call adds one event to the activity log, and one to the total. -/
def Records (s : State) (call : Call) : Prop :=
  ∃ event : CASBEvent, event.application = call.appId ∧ event.userId = call.userId ∧
    (E.step s call).activityLog = keepBounded (s.activityLog ++ [event]) ∧
    (E.step s call).telemetry.totalEvents = s.telemetry.totalEvents + 1

/-- The counts of the applications sum up to the total. -/
def Balanced (s : State) : Prop :=
  (s.telemetry.apps.map Prod.snd).sum = s.telemetry.totalEvents

/-- All overrides of the groups of a user for an application have the same action. -/
def Agree (call : Call) : Prop :=
  ∀ policy ∈ E.overridesOf call, ∀ other ∈ E.overridesOf call,
    resolveAction policy = resolveAction other

/-! ### The action -/

variable {E} {s : State} {call : Call}

theorem findSome?_eq_head? :
    call.userGroups.findSome? (E.groupOverride call.appId) = (E.overridesOf call).head? :=
  List.head?_filterMap.symm

/-- **The action** is that of the policy that applies, and no policy blocks. -/
theorem action_enforce :
    (E.enforce s call).2.action = ((E.applicable call).map resolveAction).getD .block := by
  rw [enforce, findSome?_eq_head?, applicable]
  cases (E.overridesOf call).head? with
  | some policy => rfl
  | none =>
    cases E.classify call.appId with
    | none => rfl
    | some policy => rfl

/-- The action of the first override. -/
theorem action_of_overridesOf {policy : AppPolicy} {rest : List AppPolicy}
    (h : E.overridesOf call = policy :: rest) :
    (E.enforce s call).2.action = resolveAction policy := by
  rw [action_enforce, applicable, h]
  rfl

/-- **Order.** The action does not depend on the order of the groups, and an override that blocks is
obeyed, if and only if the overrides agree. -/
theorem orderFree_iff : E.OrderFree s call ∧ E.BlockWins s call ↔ E.Agree call := by
  constructor
  · rintro ⟨horder, -⟩
    have haction : ∀ policy ∈ E.overridesOf call,
        resolveAction policy = (E.enforce s call).2.action := by
      intro policy hpolicy
      -- the group of the policy may stand first
      obtain ⟨group, hgroup, hoverride⟩ := List.mem_filterMap.mp hpolicy
      obtain ⟨before, behind, hgroups⟩ := List.append_of_mem hgroup
      have hfront : E.overridesOf { call with userGroups := group :: (before ++ behind) } =
          policy :: (before ++ behind).filterMap (E.groupOverride call.appId) :=
        List.filterMap_cons_some hoverride
      rw [← horder (group :: (before ++ behind)) (hgroups ▸ List.perm_middle.symm)]
      exact (action_of_overridesOf hfront).symm
    intro policy hpolicy other hother
    rw [haction policy hpolicy, haction other hother]
  · intro hagree
    constructor
    · intro groups hgroups
      have hperm : (E.overridesOf { call with userGroups := groups }).Perm (E.overridesOf call) :=
        hgroups.filterMap _
      rw [action_enforce, action_enforce, applicable, applicable]
      cases hfirst : E.overridesOf { call with userGroups := groups } with
      | nil =>
        rw [hfirst, List.nil_perm] at hperm
        rw [hperm]
      | cons policy rest =>
        cases hsecond : E.overridesOf call with
        | nil =>
          rw [hfirst, hsecond, List.perm_nil] at hperm
          exact absurd hperm (List.cons_ne_nil policy rest)
        | cons other others =>
          have hpolicy : policy ∈ E.overridesOf call :=
            hperm.subset (hfirst ▸ List.mem_cons_self)
          exact hagree policy hpolicy other (hsecond ▸ List.mem_cons_self)
    · rintro ⟨policy, hpolicy, hblock⟩
      obtain ⟨first, rest, hfirst⟩ := List.exists_cons_of_ne_nil (List.ne_nil_of_mem hpolicy)
      rw [action_of_overridesOf hfirst, ← hblock]
      exact hagree first (hfirst ▸ List.mem_cons_self) policy hpolicy

/-- **Allowed groups** are respected if and only if no policy that allows excludes the user. -/
theorem restricted_iff :
    E.Restricted s call ↔
      ∀ policy ∈ E.applicable call, resolveAction policy = .allow → ¬ Excludes policy call := by
  refine forall₂_congr fun policy hpolicy => ?_
  rw [action_enforce, Option.mem_def.mp hpolicy]
  exact ⟨fun h hallow hexcludes => h hexcludes hallow, fun h hexcludes hallow => h hallow hexcludes⟩

/-! ### The records -/

/-- **A call is recorded** if and only if no group has an override. -/
theorem records_iff : E.Records s call ↔ E.overridesOf call = [] := by
  rw [Records, step, enforce, findSome?_eq_head?]
  cases hoverrides : E.overridesOf call with
  | cons policy rest =>
    refine iff_of_false ?_ (List.cons_ne_nil policy rest)
    rintro ⟨event, -, -, -, htotal⟩
    exact absurd htotal (Nat.ne_of_lt (Nat.lt_succ_self _))
  | nil =>
    refine iff_of_true ?_ rfl
    cases E.classify call.appId with
    | none => exact ⟨_, rfl, rfl, rfl, rfl⟩
    | some policy => exact ⟨_, rfl, rfl, rfl, rfl⟩

theorem sum_increment {κ : Type} [DecidableEq κ] (counts : List (κ × ℕ)) (k : κ) :
    ((increment counts k).map Prod.snd).sum = (counts.map Prod.snd).sum + 1 := by
  induction counts with
  | nil => rfl
  | cons e counts ih =>
    rw [increment, Dict.set, Dict.get]
    split_ifs with he
    · rw [Option.getD_some, List.map_cons, List.map_cons, List.sum_cons, List.sum_cons]
      omega
    · rw [List.map_cons, List.map_cons, List.sum_cons, List.sum_cons]
      rw [increment] at ih
      omega

/-- A call keeps the counts balanced. -/
theorem balanced_step (h : Balanced s) : Balanced (E.step s call) := by
  have hupdate : ∀ (log : List CASBEvent) (classification : AppClassification),
      Balanced (updateTelemetry { s with activityLog := log } call.appId classification) := by
    intro log classification
    exact (sum_increment _ _).trans (congrArg (· + 1) h)
  rw [step, enforce]
  cases call.userGroups.findSome? (E.groupOverride call.appId) with
  | some policy => exact h
  | none =>
    cases E.classify call.appId with
    | none => exact hupdate _ _
    | some policy => exact hupdate _ _

/-- **Enforcement.** In every state the action of a call does not depend on the order of the groups
and obeys an override that blocks if and only if the overrides agree, and a list of allowed groups
is respected if and only if the policy that applies does not allow a user it excludes; in every run
each call is recorded if and only if none meets an override, and the counts always sum up. -/
theorem enforcedRun_iff (E : CASBEngine) :
    (∀ (s : State) (call : Call),
      (E.OrderFree s call ∧ E.BlockWins s call ↔ E.Agree call) ∧
      (E.Restricted s call ↔
        ∀ policy ∈ E.applicable call, resolveAction policy = .allow → ¬ Excludes policy call)) ∧
    ∀ calls : List Call,
      (Runs.Along E.step E.Records State.init calls ↔ ∀ call ∈ calls, E.overridesOf call = []) ∧
      Balanced (Runs.exec E.step State.init calls) := by
  refine ⟨fun s call => ⟨orderFree_iff, restricted_iff⟩, fun calls => ⟨?_, ?_⟩⟩
  · generalize State.init = s
    induction calls generalizing s with
    | nil => exact iff_of_true trivial fun _ hcall => absurd hcall List.not_mem_nil
    | cons call calls ih => rw [Runs.Along, records_iff, ih, List.forall_mem_cons]
  · exact (Runs.along_of_forall (P := fun _ _ => True) fun _ _ _ => trivial).exec_of_step
      (fun _ _ h _ => balanced_step h) rfl

/-! ### An engine -/

/-- An override that allows, and one that blocks; a policy that allows one group. -/
def twoOverrides : CASBEngine where
  policies :=
    [("b".toList, AppPolicy.postInit ⟨"b".toList, .sanctioned, ["staff".toList], none⟩)]
  overrides :=
    [("x".toList, [("a".toList, AppPolicy.postInit ⟨"a".toList, .sanctioned, [], none⟩)]),
      ("y".toList, [("a".toList, AppPolicy.postInit ⟨"a".toList, .unsanctioned, [], none⟩)])]

/-- A call of a user with some groups. -/
def callOf (appId : String) (groups : List String) : Call where
  appId := appId.toList
  userId := "u".toList
  userGroups := groups.map String.toList
  tenantId := "default".toList
  now := 0

/-- **The first group decides** about the action, an override that blocks is passed over and nothing
is recorded; a user outside of the allowed groups is allowed. -/
theorem not_enforced :
    (twoOverrides.enforce State.init (callOf "a" ["x", "y"])).2.action = .allow ∧
      (twoOverrides.enforce State.init (callOf "a" ["y", "x"])).2.action = .block ∧
      (twoOverrides.step State.init (callOf "a" ["x", "y"])).telemetry.totalEvents = 0 ∧
      (twoOverrides.enforce State.init (callOf "b" [])).2.action = .allow ∧
      ¬ ∀ (E : CASBEngine) (call : Call), E.OrderFree State.init call ∧
        E.BlockWins State.init call ∧ E.Restricted State.init call ∧
        E.Records State.init call := by
  refine ⟨by decide, by decide, by decide, by decide, fun h => ?_⟩
  obtain ⟨horder, -⟩ := h twoOverrides (callOf "a" ["x", "y"])
  have hperm : (["y".toList, "x".toList] : List Text).Perm ["x".toList, "y".toList] :=
    List.Perm.swap _ _ _
  exact absurd (horder _ hperm) (by decide)

end CASBEngine

end AnonReq.Casb
