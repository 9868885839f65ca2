import Donna.Policy.Types

/-! The deterministic policy decision, with the semantics that the language gives it on whatever
values arrive, and the decision that it makes on well-typed input. -/

namespace Donna

open Js JsValue

section Engine

variable (realm : Realm)

/-- Whether the principal may access a resource given its scope. -/
def hasScopeAccess (principal resource : JsValue) : Except TypeError Bool := do
  let scope ← resource.get "scope"
  if scope.strictEq (.string "ORGANIZATION") then
    pure true
  else if scope.strictEq (.string "TEAM") then
    let teamId ← resource.get "teamId"
    if teamId.isUndefined then pure false
    else
      let teamIds ← principal.get "teamIds"
      teamIds.includes realm teamId
  else if scope.strictEq (.string "PROJECT") then
    let projectId ← resource.get "projectId"
    if projectId.isUndefined then pure false
    else
      let projectIds ← principal.get "projectIds"
      projectIds.includes realm projectId
  else if scope.strictEq (.string "PRIVATE") then
    let ownerUserId ← resource.get "ownerUserId"
    if ownerUserId.isUndefined then pure false
    else
      let userId ← principal.get "userId"
      pure (ownerUserId.strictEq userId)
  else
    pure false

/-- Whether a kill switch blocks this action: only side-effecting actions are blocked. -/
def isBlockedByKillSwitch (action state : JsValue) : Except TypeError Bool := do
  let sideEffecting ← action.get "sideEffecting"
  if !sideEffecting.truthy then
    pure false
  else
    let globalPause ← state.get "globalPause"
    if globalPause.truthy then
      pure true
    else
      let capability ← action.get "capability"
      if capability.isUndefined then pure false
      else
        let disabled ← state.get "disabledCapabilities"
        disabled.includes realm capability

/-- Gates 5 to 7: what a level within the ceiling still needs. -/
def decideByLevel (authorityLevel actorKind : JsValue) : PolicyDecision :=
  if authorityLevel.strictEq (.number (.finite 4)) then
    if actorKind.strictEq (.string "human") then
      ⟨.allow, .ok, "Permitted: direct human execution of a never-autonomous action."⟩
    else
      ⟨.deny, .neverAutonomous, "This action always requires direct human execution."⟩
  else if authorityLevel.strictEq (.number (.finite 3)) then
    ⟨.requiresApproval, .approvalRequired, "This action requires explicit approval."⟩
  else
    ⟨.allow, .ok, "Permitted."⟩

/-- The gates in their order, deny first. -/
def evaluateGates (principal action resource killSwitches roleCeilings : JsValue) :
    Except TypeError PolicyDecision := do
  -- 1. Tenant isolation, the primary boundary.
  let resourceOrganization ← resource.get "organizationId"
  let principalOrganization ← principal.get "organizationId"
  if !resourceOrganization.strictEq principalOrganization then
    return ⟨.deny, .crossTenant, "Resource belongs to a different organization."⟩
  -- 2. Scope access.
  let accessible ← hasScopeAccess realm principal resource
  if !accessible then
    let scope ← (← resource.get "scope").toStr realm
    return ⟨.deny, .scopeDenied, "Principal lacks access to " ++ scope ++ " resource."⟩
  -- 3. Kill switches.
  let blocked ← isBlockedByKillSwitch realm action killSwitches
  if blocked then
    let name ← (← action.get "name").toStr realm
    return ⟨.deny, .killSwitch, "Action \"" ++ name ++ "\" is paused by a kill switch."⟩
  -- 4. Role authority ceiling.
  let role ← principal.get "role"
  let roleKey ← role.toStr realm
  let ceiling ← roleCeilings.getComputed realm roleKey
  let authorityLevel ← action.get "authorityLevel"
  let exceeds ← authorityLevel.greaterThan realm ceiling
  if exceeds then
    let level ← authorityLevel.toStr realm
    return ⟨.deny, .insufficientAuthority, "Role \"" ++ roleKey ++
      "\" may not attempt an action at authority level " ++ level ++ "."⟩
  let actorKind ← principal.get "actorKind"
  return decideByLevel authorityLevel actorKind

def effectiveKillSwitches (input : JsValue) : JsValue :=
  (input.own "killSwitches").orElse noKillSwitches.toJs

def effectiveCeilings (input : JsValue) : JsValue :=
  (input.own "roleCeilings").orElse (ceilingsToJs defaultRoleCeilings)

def evaluate (input : JsValue) : Except TypeError PolicyDecision := do
  let principal ← input.get "principal"
  let action ← input.get "action"
  let resource ← input.get "resource"
  evaluateGates realm principal action resource (effectiveKillSwitches input)
    (effectiveCeilings input)

end Engine

end Donna
