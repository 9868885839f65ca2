import Donna.Policy.Decision
import Mathlib.Logic.Relation
import Mathlib.Tactic.NormNum

/-! The policy engine under a change of its input.  `Tightens` is a change that asks for more
caution, and no such change, and no sequence of them, raises the effect of the decision. -/

namespace Donna

open Js JsValue

/-! ### The order of effects -/

def PolicyEffect.rank : PolicyEffect → ℕ
  | .deny => 0
  | .requiresApproval => 1
  | .allow => 2

theorem PolicyEffect.rank_injective : Function.Injective PolicyEffect.rank := by
  intro a b h
  cases a <;> cases b <;> first | rfl | exact absurd h (by decide)

instance : LinearOrder PolicyEffect :=
  LinearOrder.lift' PolicyEffect.rank PolicyEffect.rank_injective

theorem PolicyEffect.deny_le (effect : PolicyEffect) : .deny ≤ effect := Nat.zero_le effect.rank

/-! ### Changes of the input -/

/-- `engaged` pauses at least what `state` pauses. -/
structure KillSwitchState.Extends (engaged state : KillSwitchState) : Prop where
  globalPause : state.globalPause = true → engaged.globalPause = true
  disabledCapabilities : state.disabledCapabilities ⊆ engaged.disabledCapabilities

/-- The change from `input` to the second input asks for more caution. -/
inductive Tightens (input : PolicyInput) : PolicyInput → Prop
  | killSwitches (engaged : Option KillSwitchState)
      (h : (engaged.getD noKillSwitches).Extends (input.killSwitches.getD noKillSwitches)) :
      Tightens input { input with killSwitches := engaged }
  | roleCeilings (lowered : Option (Role → AuthorityLevel))
      (h : ∀ role, (lowered.getD defaultRoleCeilings role).value ≤
        (input.roleCeilings.getD defaultRoleCeilings role).value) :
      Tightens input { input with roleCeilings := lowered }
  | teamIds (remaining : List String) (h : remaining ⊆ input.principal.teamIds) :
      Tightens input { input with principal := { input.principal with teamIds := remaining } }
  | projectIds (remaining : List String) (h : remaining ⊆ input.principal.projectIds) :
      Tightens input { input with principal := { input.principal with projectIds := remaining } }
  | agent : Tightens input { input with principal := { input.principal with actorKind := .agent } }
  | sideEffecting :
      Tightens input { input with action := { input.action with sideEffecting := true } }
  | authorityLevel (raised : AuthorityLevel) (agent : input.principal.actorKind = .agent)
      (h : input.action.authorityLevel.value ≤ raised.value) :
      Tightens input { input with action := { input.action with authorityLevel := raised } }

/-! ### The effect of the decision -/

/-- Gates 1 to 4: what the engine denies before it looks at who acts. -/
structure PolicyInput.Cleared (input : PolicyInput) : Prop where
  tenant : input.resource.organizationId = input.principal.organizationId
  accessible : input.resource.accessibleTo input.principal = true
  running : input.action.blockedBy (input.killSwitches.getD noKillSwitches) = false
  ceiling : input.action.authorityLevel.value ≤
    (input.roleCeilings.getD defaultRoleCeilings input.principal.role).value

/-- The effect of gates 5 to 7 on an actor of the kind. -/
def AuthorityLevel.effectFor (kind : ActorKind) : AuthorityLevel → PolicyEffect
  | .neverAutonomous => if kind = .human then .allow else .deny
  | .approvalRequired => .requiresApproval
  | _ => .allow

theorem decideByLevel_effect (level : AuthorityLevel) (kind : ActorKind) :
    (decideByLevel level.toJs (.string kind.name)).effect = level.effectFor kind := by
  cases level <;> cases kind <;>
    simp [decideByLevel, AuthorityLevel.toJs, AuthorityLevel.value, AuthorityLevel.effectFor,
      strictEq, JsNumber.strictEq, ActorKind.name]

/-- Gates 5 to 7: the effect of the input's level on its actor. -/
def PolicyInput.levelEffect (input : PolicyInput) : PolicyEffect :=
  input.action.authorityLevel.effectFor input.principal.actorKind

theorem PolicyInput.effect_of_cleared (realm : Realm) {input : PolicyInput} (h : input.Cleared) :
    (input.decision realm).effect = input.levelEffect := by
  simp [PolicyInput.decision, ActionDescriptor.decision, h.tenant, h.accessible, h.running,
    not_lt.mpr h.ceiling, decideByLevel_effect, PolicyInput.levelEffect]

theorem PolicyInput.effect_of_not_cleared (realm : Realm) {input : PolicyInput}
    (h : ¬ input.Cleared) : (input.decision realm).effect = .deny := by
  by_cases tenant : input.resource.organizationId = input.principal.organizationId
  · cases accessible : input.resource.accessibleTo input.principal with
    | false => simp [PolicyInput.decision, tenant, accessible]
    | true =>
      cases running : input.action.blockedBy (input.killSwitches.getD noKillSwitches) with
      | true =>
        simp [PolicyInput.decision, ActionDescriptor.decision, tenant, accessible, running]
      | false =>
        have exceeds : (input.roleCeilings.getD defaultRoleCeilings input.principal.role).value <
            input.action.authorityLevel.value :=
          lt_of_not_ge fun ceiling => h ⟨tenant, accessible, running, ceiling⟩
        simp [PolicyInput.decision, ActionDescriptor.decision, tenant, accessible, running, exceeds]
  · simp [PolicyInput.decision, tenant]

/-- The effect falls when every input that passes the gates before still passes them. -/
theorem PolicyInput.effect_le (realm : Realm) {input input' : PolicyInput}
    (cleared : input'.Cleared → input.Cleared) (level : input'.levelEffect ≤ input.levelEffect) :
    (input'.decision realm).effect ≤ (input.decision realm).effect := by
  by_cases h : input'.Cleared
  · rw [effect_of_cleared realm h, effect_of_cleared realm (cleared h)]
    exact level
  · rw [effect_of_not_cleared realm h]
    exact PolicyEffect.deny_le _

/-! ### Each gate under a change -/

theorem ActionDescriptor.blockedBy_mono (action : ActionDescriptor)
    {engaged state : KillSwitchState} (h : engaged.Extends state)
    (blocked : action.blockedBy state = true) : action.blockedBy engaged = true := by
  simp only [blockedBy, Bool.and_eq_true, Bool.or_eq_true, Option.any_eq_true,
    decide_eq_true_eq] at blocked ⊢
  obtain ⟨sideEffecting, paused | ⟨category, present, disabled⟩⟩ := blocked
  · exact ⟨sideEffecting, .inl (h.globalPause paused)⟩
  · exact ⟨sideEffecting, .inr ⟨category, present, h.disabledCapabilities disabled⟩⟩

theorem ActionDescriptor.blockedBy_sideEffecting {action : ActionDescriptor}
    {state : KillSwitchState} (blocked : action.blockedBy state = true) :
    { action with sideEffecting := true }.blockedBy state = true := by
  simp only [blockedBy, Bool.and_eq_true, Bool.true_and] at blocked ⊢
  exact blocked.2

theorem ResourceDescriptor.accessibleTo_mono (resource : ResourceDescriptor)
    {principal principal' : PrincipalContext} (h : resource.accessibleTo principal' = true)
    (user : principal'.userId = principal.userId)
    (teams : principal'.teamIds ⊆ principal.teamIds)
    (projects : principal'.projectIds ⊆ principal.projectIds) :
    resource.accessibleTo principal = true := by
  cases scope : resource.scope with
  | organization => simp [accessibleTo, scope]
  | team =>
    simp only [accessibleTo, scope, Option.any_eq_true, decide_eq_true_eq] at h ⊢
    obtain ⟨id, present, member⟩ := h
    exact ⟨id, present, teams member⟩
  | project =>
    simp only [accessibleTo, scope, Option.any_eq_true, decide_eq_true_eq] at h ⊢
    obtain ⟨id, present, member⟩ := h
    exact ⟨id, present, projects member⟩
  | private_ =>
    simpa only [accessibleTo, scope, user] using h

/-- An agent gets no more than a human at any level. -/
theorem AuthorityLevel.effectFor_agent_le (level : AuthorityLevel) (kind : ActorKind) :
    level.effectFor .agent ≤ level.effectFor kind := by
  cases level <;> cases kind <;> decide

/-- An agent gets no more at a higher level. -/
theorem AuthorityLevel.effectFor_antitone {level raised : AuthorityLevel}
    (h : level.value ≤ raised.value) : raised.effectFor .agent ≤ level.effectFor .agent := by
  cases level <;> cases raised <;> first | decide | exact absurd h (by norm_num [value])

/-! ### Monotonicity -/

/-- An input that passes the gates after a change passed them before. -/
theorem Tightens.cleared {input input' : PolicyInput} (change : Tightens input input')
    (h : input'.Cleared) : input.Cleared := by
  obtain ⟨tenant, accessible, running, ceiling⟩ := h
  cases change with
  | killSwitches engaged wider =>
    exact ⟨tenant, accessible, Bool.eq_false_iff.mpr fun blocked =>
      Bool.eq_false_iff.mp running (input.action.blockedBy_mono wider blocked), ceiling⟩
  | roleCeilings lowered lower =>
    exact ⟨tenant, accessible, running, ceiling.trans (lower _)⟩
  | teamIds remaining fewer =>
    exact ⟨tenant, input.resource.accessibleTo_mono accessible rfl fewer (List.Subset.refl _),
      running, ceiling⟩
  | projectIds remaining fewer =>
    exact ⟨tenant, input.resource.accessibleTo_mono accessible rfl (List.Subset.refl _) fewer,
      running, ceiling⟩
  | agent =>
    exact ⟨tenant, input.resource.accessibleTo_mono accessible rfl (List.Subset.refl _)
      (List.Subset.refl _), running, ceiling⟩
  | sideEffecting =>
    exact ⟨tenant, accessible, Bool.eq_false_iff.mpr fun blocked =>
      Bool.eq_false_iff.mp running (ActionDescriptor.blockedBy_sideEffecting blocked), ceiling⟩
  | authorityLevel raised agent higher =>
    exact ⟨tenant, accessible, running, higher.trans ceiling⟩

theorem Tightens.levelEffect {input input' : PolicyInput} (change : Tightens input input') :
    input'.levelEffect ≤ input.levelEffect := by
  cases change with
  | agent => exact AuthorityLevel.effectFor_agent_le _ _
  | authorityLevel raised agent higher =>
    simp only [PolicyInput.levelEffect, agent]
    exact AuthorityLevel.effectFor_antitone higher
  | _ => exact le_refl _

theorem Tightens.effect_le (realm : Realm) {input input' : PolicyInput}
    (change : Tightens input input') :
    (input'.decision realm).effect ≤ (input.decision realm).effect :=
  PolicyInput.effect_le realm change.cleared change.levelEffect

/-- Whatever an engine is given beside them, two organizations that differ are a denial. -/
theorem evaluate_of_otherOrganization (realm : Realm) {input principal resource : JsValue}
    {resourceOrganization principalOrganization : JsValue}
    (hPrincipal : input.get "principal" = .ok principal)
    (hResource : input.get "resource" = .ok resource)
    (hResourceId : resource.get "organizationId" = .ok resourceOrganization)
    (hPrincipalId : principal.get "organizationId" = .ok principalOrganization)
    (differ : resourceOrganization.strictEq principalOrganization = false) :
    evaluate realm input =
      .ok ⟨.deny, .crossTenant, "Resource belongs to a different organization."⟩ := by
  have hAction : ∃ action, input.get "action" = .ok action := by
    cases input <;> first | exact ⟨_, rfl⟩ | cases hPrincipal
  obtain ⟨action, hAction⟩ := hAction
  simp [evaluate, hPrincipal, hAction, hResource, evaluateGates, hResourceId, hPrincipalId, differ]

/-- No sequence of tightening changes raises the effect that the engine decides, and resources of
another organization are denied on any input at all. -/
theorem evaluate_monotone (realm : Realm) :
    (∀ input input' : PolicyInput, Relation.ReflTransGen Tightens input input' →
      ∃ decision decision', evaluate realm input.toJs = .ok decision ∧
        evaluate realm input'.toJs = .ok decision' ∧ decision'.effect ≤ decision.effect) ∧
    ∀ input principal resource resourceOrganization principalOrganization : JsValue,
      input.get "principal" = .ok principal → input.get "resource" = .ok resource →
      resource.get "organizationId" = .ok resourceOrganization →
      principal.get "organizationId" = .ok principalOrganization →
      resourceOrganization.strictEq principalOrganization = false →
      ∃ decision, evaluate realm input = .ok decision ∧ decision.effect = .deny := by
  refine ⟨fun input input' changes => ⟨_, _, evaluate_toJs realm input,
    evaluate_toJs realm input', ?_⟩, ?_⟩
  · induction changes with
    | refl => exact le_refl _
    | tail _ change ih => exact (change.effect_le realm).trans ih
  · intro input principal resource _ _ hPrincipal hResource hResourceId hPrincipalId differ
    exact ⟨_, evaluate_of_otherOrganization realm hPrincipal hResource hResourceId hPrincipalId
      differ, rfl⟩

/-- An agent that publishes on behalf of a team it belongs to. -/
def publishInput : PolicyInput where
  principal := {
    userId := "u1", organizationId := "org1", role := .teamMember, actorKind := .agent,
    teamIds := ["teamA"], projectIds := ["projX"] }
  action := { name := "test.action", authorityLevel := .routineAction, sideEffecting := false }
  resource := { organizationId := "org1", scope := .team, teamId := some "teamA" }

/-- Pausing everything and marking the action side-effecting turns its permission into a denial,
and so does a resource of another organization. -/
theorem evaluate_monotone_publish :
    (∃ decision decision', evaluate .plain publishInput.toJs = .ok decision ∧
      evaluate .plain { publishInput with
        killSwitches := some { globalPause := true, disabledCapabilities := [] }
        action := { publishInput.action with sideEffecting := true } }.toJs = .ok decision' ∧
      decision'.effect ≤ decision.effect) ∧
    ∃ decision, evaluate .plain { publishInput with
        resource := { organizationId := "org2", scope := .organization } }.toJs = .ok decision ∧
      decision.effect = .deny := by
  constructor
  · apply (evaluate_monotone .plain).1
    refine .tail (.single (.killSwitches (some { globalPause := true, disabledCapabilities := [] })
      ⟨fun _ => rfl, List.Subset.refl _⟩)) ?_
    exact .sideEffecting
  · exact (evaluate_monotone .plain).2 _ publishInput.principal.toJs _ (.string "org2")
      (.string "org1") rfl rfl rfl rfl rfl

end Donna
