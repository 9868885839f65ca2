import Donna.Core.Domain

/-! The input of the policy engine: principals, actions, resources and kill switches, each with the
JavaScript object that carries it, and the default role ceilings. -/

namespace Donna

open Js

/-- A property of an object literal that is spread in only when it is present. -/
def optionalField (key : String) : Option JsValue → List (String × JsValue)
  | none => []
  | some value => [(key, value)]

inductive ActorKind
  | human
  | agent
  deriving DecidableEq

def ActorKind.name : ActorKind → String
  | .human => "human"
  | .agent => "agent"

structure PrincipalContext where
  userId : String
  organizationId : String
  role : Role
  actorKind : ActorKind
  teamIds : List String
  projectIds : List String
  deriving DecidableEq

def PrincipalContext.toJs (principal : PrincipalContext) : JsValue := .object [
  ("userId", .string principal.userId),
  ("organizationId", .string principal.organizationId),
  ("role", .string principal.role.name),
  ("actorKind", .string principal.actorKind.name),
  ("teamIds", JsValue.strings principal.teamIds),
  ("projectIds", JsValue.strings principal.projectIds)]

/-- Capability categories that admins can pause. -/
inductive CapabilityCategory
  | outboundComms
  | browserActions
  | deployments
  | apiSpend
  | localCompute
  deriving DecidableEq

def CapabilityCategory.name : CapabilityCategory → String
  | .outboundComms => "outbound_comms"
  | .browserActions => "browser_actions"
  | .deployments => "deployments"
  | .apiSpend => "api_spend"
  | .localCompute => "local_compute"

theorem CapabilityCategory.name_injective : Function.Injective CapabilityCategory.name := by
  intro a b h
  cases a <;> cases b <;> first | rfl | exact absurd h (by decide)

structure ActionDescriptor where
  name : String
  authorityLevel : AuthorityLevel
  sideEffecting : Bool
  capability : Option CapabilityCategory := none
  deriving DecidableEq

def AuthorityLevel.toJs (level : AuthorityLevel) : JsValue := .number (.finite level.value)

def ActionDescriptor.toJs (action : ActionDescriptor) : JsValue := .object ([
  ("name", .string action.name),
  ("authorityLevel", action.authorityLevel.toJs),
  ("sideEffecting", .boolean action.sideEffecting)] ++
  optionalField "capability" (action.capability.map fun category => .string category.name))

structure ResourceDescriptor where
  organizationId : String
  scope : Scope
  ownerUserId : Option String := none
  teamId : Option String := none
  projectId : Option String := none
  deriving DecidableEq

def ResourceDescriptor.toJs (resource : ResourceDescriptor) : JsValue := .object ([
  ("organizationId", .string resource.organizationId),
  ("scope", .string resource.scope.name)] ++
  optionalField "ownerUserId" (resource.ownerUserId.map .string) ++
  optionalField "teamId" (resource.teamId.map .string) ++
  optionalField "projectId" (resource.projectId.map .string))

structure KillSwitchState where
  globalPause : Bool
  disabledCapabilities : List CapabilityCategory
  deriving DecidableEq

def KillSwitchState.toJs (state : KillSwitchState) : JsValue := .object [
  ("globalPause", .boolean state.globalPause),
  ("disabledCapabilities",
    JsValue.strings (state.disabledCapabilities.map CapabilityCategory.name))]

def noKillSwitches : KillSwitchState := { globalPause := false, disabledCapabilities := [] }

def defaultRoleCeilings : Role → AuthorityLevel
  | .owner => .neverAutonomous
  | .admin => .neverAutonomous
  | .executive => .approvalRequired
  | .teamLead => .approvalRequired
  | .teamMember => .routineAction
  | .contractor => .prepare

/-- A record of ceilings as an object, one property for each role. -/
def ceilingsToJs (ceilings : Role → AuthorityLevel) : JsValue :=
  .object (Role.all.map fun role => (role.name, (ceilings role).toJs))

structure PolicyInput where
  principal : PrincipalContext
  action : ActionDescriptor
  resource : ResourceDescriptor
  killSwitches : Option KillSwitchState := none
  roleCeilings : Option (Role → AuthorityLevel) := none

def PolicyInput.toJs (input : PolicyInput) : JsValue := .object ([
  ("principal", input.principal.toJs),
  ("action", input.action.toJs),
  ("resource", input.resource.toJs)] ++
  optionalField "killSwitches" (input.killSwitches.map KillSwitchState.toJs) ++
  optionalField "roleCeilings" (input.roleCeilings.map ceilingsToJs))

inductive PolicyEffect
  | allow
  | deny
  | requiresApproval
  deriving DecidableEq

inductive PolicyReason
  | ok
  | approvalRequired
  | crossTenant
  | scopeDenied
  | insufficientAuthority
  | neverAutonomous
  | killSwitch
  deriving DecidableEq

def PolicyReason.name : PolicyReason → String
  | .ok => "ok"
  | .approvalRequired => "approval_required"
  | .crossTenant => "cross_tenant"
  | .scopeDenied => "scope_denied"
  | .insufficientAuthority => "insufficient_authority"
  | .neverAutonomous => "never_autonomous"
  | .killSwitch => "kill_switch"

structure PolicyDecision where
  effect : PolicyEffect
  reason : PolicyReason
  message : String
  deriving DecidableEq

end Donna
