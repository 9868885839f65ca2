import Donna.Policy.Engine

/-! What the policy engine decides on well-typed input.  `PolicyInput.decision` is the decision as a
function of the typed records, and `evaluate_toJs` shows that the engine makes it on the objects
that carry them. -/

namespace Donna

open Js JsValue

@[simp] theorem lookup_optionalField (key name : String) (value : Option JsValue) :
    (optionalField name value).lookup key = if key = name then value else none := by
  cases value <;> simp [optionalField]

/-! ### The typed decision -/

/-- `hasScopeAccess` on typed records. -/
def ResourceDescriptor.accessibleTo (resource : ResourceDescriptor)
    (principal : PrincipalContext) : Bool :=
  match resource.scope with
  | .organization => true
  | .team => resource.teamId.any fun id => decide (id ∈ principal.teamIds)
  | .project => resource.projectId.any fun id => decide (id ∈ principal.projectIds)
  | .private_ => resource.ownerUserId.any fun id => decide (id = principal.userId)

/-- `isBlockedByKillSwitch` on typed records. -/
def ActionDescriptor.blockedBy (action : ActionDescriptor) (state : KillSwitchState) : Bool :=
  action.sideEffecting &&
    (state.globalPause ||
      action.capability.any fun category => decide (category ∈ state.disabledCapabilities))

/-- Gates 3 to 7: the decision on an action once tenant and scope have been cleared. -/
def ActionDescriptor.decision (realm : Realm) (action : ActionDescriptor)
    (principal : PrincipalContext) (state : KillSwitchState) (ceilings : Role → AuthorityLevel) :
    PolicyDecision :=
  if action.blockedBy state then
    ⟨.deny, .killSwitch, "Action \"" ++ action.name ++ "\" is paused by a kill switch."⟩
  else if (ceilings principal.role).value < action.authorityLevel.value then
    ⟨.deny, .insufficientAuthority, "Role \"" ++ principal.role.name ++
      "\" may not attempt an action at authority level " ++
      realm.numberToString (.finite action.authorityLevel.value) ++ "."⟩
  else
    decideByLevel action.authorityLevel.toJs (.string principal.actorKind.name)

/-- All seven gates on typed records. -/
def PolicyInput.decision (realm : Realm) (input : PolicyInput) : PolicyDecision :=
  if input.resource.organizationId ≠ input.principal.organizationId then
    ⟨.deny, .crossTenant, "Resource belongs to a different organization."⟩
  else if !input.resource.accessibleTo input.principal then
    ⟨.deny, .scopeDenied, "Principal lacks access to " ++ input.resource.scope.name ++ " resource."⟩
  else
    input.action.decision realm input.principal (input.killSwitches.getD noKillSwitches)
      (input.roleCeilings.getD defaultRoleCeilings)

/-! ### Reading the objects -/

section Fields

variable (principal : PrincipalContext) (action : ActionDescriptor)
  (resource : ResourceDescriptor) (state : KillSwitchState) (input : PolicyInput)

@[simp] theorem PrincipalContext.get_toJs (key : String) :
    principal.toJs.get key = .ok (principal.toJs.own key) := rfl

@[simp] theorem PrincipalContext.own_userId :
    principal.toJs.own "userId" = .string principal.userId := by
  simp [PrincipalContext.toJs]

@[simp] theorem PrincipalContext.own_organizationId :
    principal.toJs.own "organizationId" = .string principal.organizationId := by
  simp [PrincipalContext.toJs]

@[simp] theorem PrincipalContext.own_role :
    principal.toJs.own "role" = .string principal.role.name := by
  simp [PrincipalContext.toJs]

@[simp] theorem PrincipalContext.own_actorKind :
    principal.toJs.own "actorKind" = .string principal.actorKind.name := by
  simp [PrincipalContext.toJs]

@[simp] theorem PrincipalContext.own_teamIds :
    principal.toJs.own "teamIds" = JsValue.strings principal.teamIds := by
  simp [PrincipalContext.toJs]

@[simp] theorem PrincipalContext.own_projectIds :
    principal.toJs.own "projectIds" = JsValue.strings principal.projectIds := by
  simp [PrincipalContext.toJs]

@[simp] theorem ActionDescriptor.get_toJs (key : String) :
    action.toJs.get key = .ok (action.toJs.own key) := rfl

@[simp] theorem ActionDescriptor.own_name : action.toJs.own "name" = .string action.name := by
  simp [ActionDescriptor.toJs]

@[simp] theorem ActionDescriptor.own_authorityLevel :
    action.toJs.own "authorityLevel" = action.authorityLevel.toJs := by
  simp [ActionDescriptor.toJs]

@[simp] theorem ActionDescriptor.own_sideEffecting :
    action.toJs.own "sideEffecting" = .boolean action.sideEffecting := by
  simp [ActionDescriptor.toJs]

@[simp] theorem ActionDescriptor.own_capability :
    action.toJs.own "capability" =
      (action.capability.map fun category => JsValue.string category.name).getD .undefined := by
  simp [ActionDescriptor.toJs]

@[simp] theorem ResourceDescriptor.get_toJs (key : String) :
    resource.toJs.get key = .ok (resource.toJs.own key) := rfl

@[simp] theorem ResourceDescriptor.own_organizationId :
    resource.toJs.own "organizationId" = .string resource.organizationId := by
  simp [ResourceDescriptor.toJs]

@[simp] theorem ResourceDescriptor.own_scope :
    resource.toJs.own "scope" = .string resource.scope.name := by
  simp [ResourceDescriptor.toJs]

@[simp] theorem ResourceDescriptor.own_ownerUserId :
    resource.toJs.own "ownerUserId" =
      (resource.ownerUserId.map JsValue.string).getD .undefined := by
  simp [ResourceDescriptor.toJs, List.lookup_append]

@[simp] theorem ResourceDescriptor.own_teamId :
    resource.toJs.own "teamId" = (resource.teamId.map JsValue.string).getD .undefined := by
  simp [ResourceDescriptor.toJs, List.lookup_append]

@[simp] theorem ResourceDescriptor.own_projectId :
    resource.toJs.own "projectId" = (resource.projectId.map JsValue.string).getD .undefined := by
  simp [ResourceDescriptor.toJs, List.lookup_append]

@[simp] theorem KillSwitchState.get_toJs (key : String) :
    state.toJs.get key = .ok (state.toJs.own key) := rfl

@[simp] theorem KillSwitchState.own_globalPause :
    state.toJs.own "globalPause" = .boolean state.globalPause := by
  simp [KillSwitchState.toJs]

@[simp] theorem KillSwitchState.own_disabledCapabilities :
    state.toJs.own "disabledCapabilities" =
      JsValue.strings (state.disabledCapabilities.map CapabilityCategory.name) := by
  simp [KillSwitchState.toJs]

theorem effectiveKillSwitches_toJs :
    effectiveKillSwitches input.toJs = (input.killSwitches.getD noKillSwitches).toJs := by
  have h : input.toJs.own "killSwitches" =
      (input.killSwitches.map KillSwitchState.toJs).getD .undefined := by
    simp [PolicyInput.toJs, List.lookup_append]
  rw [effectiveKillSwitches, h]
  cases input.killSwitches <;> rfl

theorem effectiveCeilings_toJs :
    effectiveCeilings input.toJs =
      ceilingsToJs (input.roleCeilings.getD defaultRoleCeilings) := by
  have h : input.toJs.own "roleCeilings" =
      (input.roleCeilings.map ceilingsToJs).getD .undefined := by
    simp [PolicyInput.toJs, List.lookup_append]
  rw [effectiveCeilings, h]
  cases input.roleCeilings <;> rfl

theorem getComputed_ceilings (realm : Realm) (ceilings : Role → AuthorityLevel) (role : Role) :
    getComputed realm (ceilingsToJs ceilings) role.name = .ok (ceilings role).toJs := by
  cases role <;> simp [getComputed, ceilingsToJs, Role.all, Role.name]

end Fields

/-! ### Agreement -/

theorem hasScopeAccess_toJs (realm : Realm) (principal : PrincipalContext)
    (resource : ResourceDescriptor) :
    hasScopeAccess realm principal.toJs resource.toJs = .ok (resource.accessibleTo principal) := by
  obtain ⟨organizationId, scope, ownerUserId, teamId, projectId⟩ := resource
  cases scope with
  | organization => simp [hasScopeAccess, ResourceDescriptor.accessibleTo, Scope.name, strictEq]
  | team =>
    cases teamId <;>
      simp [hasScopeAccess, ResourceDescriptor.accessibleTo, Scope.name, strictEq, isUndefined]
  | project =>
    cases projectId <;>
      simp [hasScopeAccess, ResourceDescriptor.accessibleTo, Scope.name, strictEq, isUndefined]
  | private_ =>
    cases ownerUserId <;>
      simp [hasScopeAccess, ResourceDescriptor.accessibleTo, Scope.name, strictEq, isUndefined]

theorem isBlockedByKillSwitch_toJs (realm : Realm) (action : ActionDescriptor)
    (state : KillSwitchState) :
    isBlockedByKillSwitch realm action.toJs state.toJs = .ok (action.blockedBy state) := by
  obtain ⟨name, level, sideEffecting, capability⟩ := action
  obtain ⟨globalPause, disabled⟩ := state
  have member : ∀ category : CapabilityCategory,
      category.name ∈ disabled.map CapabilityCategory.name ↔ category ∈ disabled :=
    fun category => List.mem_map_of_injective CapabilityCategory.name_injective
  cases sideEffecting <;> cases globalPause <;> cases capability <;>
    simp [isBlockedByKillSwitch, ActionDescriptor.blockedBy, truthy, isUndefined, member]

/-- Once tenant and scope are cleared, the other gates make the typed decision. -/
theorem evaluateGates_cleared (realm : Realm) (principal : PrincipalContext)
    (action : ActionDescriptor) (fields : List (String × JsValue)) (state : KillSwitchState)
    (ceilings : Role → AuthorityLevel)
    (tenant : (object fields).own "organizationId" = .string principal.organizationId)
    (scope : hasScopeAccess realm principal.toJs (.object fields) = .ok true) :
    evaluateGates realm principal.toJs action.toJs (.object fields) state.toJs
      (ceilingsToJs ceilings) = .ok (action.decision realm principal state ceilings) := by
  simp only [evaluateGates, get_object, tenant, scope, ok_bind, PrincipalContext.get_toJs,
    PrincipalContext.own_organizationId, PrincipalContext.own_role, PrincipalContext.own_actorKind,
    ActionDescriptor.get_toJs, ActionDescriptor.own_name, ActionDescriptor.own_authorityLevel,
    isBlockedByKillSwitch_toJs, toStr, getComputed_ceilings, strictEq, decide_true, Bool.not_true,
    pure_except, AuthorityLevel.toJs, greaterThan_finite, ActionDescriptor.decision]
  cases action.blockedBy state with
  | true => rfl
  | false =>
    by_cases exceeds : (ceilings principal.role).value < action.authorityLevel.value
    · simp [exceeds]
    · simp [exceeds]

/-- On the object that carries a well-typed input the engine makes the typed decision. -/
theorem evaluate_toJs (realm : Realm) (input : PolicyInput) :
    evaluate realm input.toJs = .ok (input.decision realm) := by
  have fields : input.toJs.get "principal" = .ok input.principal.toJs ∧
      input.toJs.get "action" = .ok input.action.toJs ∧
      input.toJs.get "resource" = .ok input.resource.toJs := by
    simp [PolicyInput.toJs]
  obtain ⟨hPrincipal, hAction, hResource⟩ := fields
  simp only [evaluate, hPrincipal, hAction, hResource, ok_bind, effectiveKillSwitches_toJs,
    effectiveCeilings_toJs]
  by_cases tenant : input.resource.organizationId = input.principal.organizationId
  · cases scope : input.resource.accessibleTo input.principal with
    | false =>
      simp [evaluateGates, PolicyInput.decision, tenant, strictEq, hasScopeAccess_toJs, scope,
        toStr]
    | true =>
      have cleared := evaluateGates_cleared realm input.principal input.action _
        (input.killSwitches.getD noKillSwitches) (input.roleCeilings.getD defaultRoleCeilings)
        ((input.resource.own_organizationId).trans (congrArg _ tenant))
        ((hasScopeAccess_toJs realm input.principal input.resource).trans (congrArg _ scope))
      exact cleared.trans (by simp [PolicyInput.decision, tenant, scope])
  · simp [evaluateGates, PolicyInput.decision, tenant, strictEq]

end Donna
