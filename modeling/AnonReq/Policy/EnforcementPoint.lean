import AnonReq.Policy.Models
import Mathlib.Data.List.Infix

/-!
# The policy enforcement point

`PolicyEnforcementPoint` of `policy/pep.py` translates a decision into a response or into the
permission to forward. Only `ALLOW` and `FLAG_AND_FORWARD` forward
(`enforce_shouldForward_iff`); `ROUTE_LOCAL` has its own response, and everything else, `MONITOR`
included, is answered as a block.
-/

namespace AnonReq.Policy

/-- `PolicyEnforcementResult`. -/
structure PolicyEnforcementResult where
  action : PolicyAction
  statusCode : Option ℕ
  headers : List (String × String)
  body : Option (List (String × String))
  shouldForward : Bool
  decisionId : String

/-- `sub in s`. -/
def occursIn (sub s : String) : Bool := decide (sub.toList <:+: s.toList)

/-- `_determine_block_type`: status code, kind of block, further headers. -/
def determineBlockType (decision : PolicyDecision) : ℕ × String × List (String × String) :=
  let reason := (decision.reason.getD "").toLower
  let ids := decision.matchedRuleIds
  if ids.any (occursIn "rate_limit") then
    (429, "rate_limit_exceeded", [("Retry-After", "60")])
  else if decision.enforcement = some "503" ∨ ids.any (occursIn "error") then
    (503, "fail_secure", [])
  else if occursIn "spend" reason ∨ ids.any (occursIn "spend") then
    (402, "spend_limit_exceeded", [])
  else if occursIn "residency" reason ∨ ids.any (occursIn "residency") then
    (451, "routing_policy_violation", [])
  else if occursIn "classification" reason ∨
      ids.any (fun id => occursIn "classification" id || id.startsWith "block_") then
    (451, "classification_block", [])
  else (403, "blocked", [])

/-- `_handle_block`. -/
def handleBlock (decision : PolicyDecision) (decisionId now : String) :
    PolicyEnforcementResult :=
  let (statusCode, blockType, extraHeaders) := determineBlockType decision
  { action := .block
    statusCode := some statusCode
    headers := ("X-AnonReq-Blocked", "true") :: extraHeaders
    body := some <|
      [("reason", if decision.reason.getD "" = "" then "Request blocked by policy"
          else decision.reason.getD ""),
        ("decision_id", decisionId), ("timestamp", now)] ++
      if blockType = "blocked" then [] else [("error_type", blockType)]
    shouldForward := false
    decisionId := decisionId }

/-- The headers that describe the processing. -/
def processedHeaders (ctx : ProcessingContext) : List (String × String) :=
  [("X-AnonReq-Processed", if ctx.transformed then "true" else "false"),
    ("X-AnonReq-Entity-Count", toString ctx.detections)]

/-- `enforce`. The decision id and the time are drawn afresh for every call. -/
def enforce (decisionId now : String) (decision : PolicyDecision) (ctx : ProcessingContext) :
    PolicyEnforcementResult :=
  match decision.action with
  | .allow =>
    { action := .allow
      statusCode := none
      headers := processedHeaders ctx
      body := none
      shouldForward := true
      decisionId := decisionId }
  | .flagAndForward =>
    { action := .flagAndForward
      statusCode := none
      headers := ("X-AnonReq-Flagged", "true") :: processedHeaders ctx
      body := none
      shouldForward := true
      decisionId := decisionId }
  | .routeLocal =>
    { action := .routeLocal
      statusCode := some 503
      headers := [("X-AnonReq-Blocked", "true")]
      body := some [("reason", "route_local"), ("decision_id", decisionId), ("timestamp", now),
        ("detail", "Request must be routed to local inference endpoint")]
      shouldForward := false
      decisionId := decisionId }
  | .block | .monitor => handleBlock decision decisionId now

/-- The actions that let a request through. -/
def PolicyAction.Forwards (action : PolicyAction) : Prop :=
  action = .allow ∨ action = .flagAndForward

theorem enforce_shouldForward_iff {decisionId now : String} {decision : PolicyDecision}
    {ctx : ProcessingContext} :
    (enforce decisionId now decision ctx).shouldForward = true ↔ decision.action.Forwards := by
  rcases haction : decision.action <;>
    simp [enforce, haction, handleBlock, PolicyAction.Forwards]

end AnonReq.Policy
