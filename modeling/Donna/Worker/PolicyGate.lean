import Donna.Policy.Engine
import Donna.Worker.Payload

/-! The policy gate on what the queue lets through.  The parser checks of a policy only that it is
an object, so the engine meets missing, mistyped and out-of-range fields.  `GateRefuses` lists how
its gates can refuse; where none does, the engine allows, whatever the fields are. -/

namespace Donna

open Js JsValue

def Allows (outcome : Except TypeError PolicyDecision) : Prop :=
  ∃ decision, outcome = .ok decision ∧ decision.effect = .allow

/-- Why the gates do not allow: a check refuses what arrived, or throws on it. -/
inductive GateRefuses (realm : Realm)
    (principal action resource killSwitches roleCeilings : JsValue) : Prop
  | tenant (differ : (resource.own "organizationId").strictEq (principal.own "organizationId") =
      false)
  | scope (inaccessible : hasScopeAccess realm principal resource ≠ .ok true)
  | killSwitch (blocked : isBlockedByKillSwitch realm action killSwitches ≠ .ok false)
  | role (unreadable : ∀ key, (principal.own "role").toStr realm ≠ .ok key)
  | ceiling {key : String} (role : (principal.own "role").toStr realm = .ok key)
      (exceeds : ∀ ceiling, roleCeilings.getComputed realm key = .ok ceiling →
        (action.own "authorityLevel").greaterThan realm ceiling ≠ .ok false)
  | approval (level : (action.own "authorityLevel").strictEq (.number (.finite 3)) = true)
  | neverAutonomous (level : (action.own "authorityLevel").strictEq (.number (.finite 4)) = true)
      (autonomous : (principal.own "actorKind").strictEq (.string "human") = false)

section Gates

variable {realm : Realm} {principal action resource killSwitches roleCeilings : JsValue}

theorem get_of_isRecord {value : JsValue} (record : isRecord value = true) (key : String) :
    value.get key = .ok (value.own key) := by
  cases value <;> first | rfl | cases record

@[simp] theorem allows_ok {decision : PolicyDecision} :
    Allows (.ok decision) ↔ decision.effect = .allow := by
  simp [Allows]

@[simp] theorem not_allows_error {error : TypeError} : ¬ Allows (.error error) := by
  simp [Allows]

theorem not_allows_bind {α : Type} {value : Except TypeError α}
    {next : α → Except TypeError PolicyDecision} (deny : ∀ given, ¬ Allows (next given)) :
    ¬ Allows (value >>= next) := by
  cases value with
  | error error => exact not_allows_error
  | ok given => exact deny given

theorem decideByLevel_allow {level actorKind : JsValue} :
    (decideByLevel level actorKind).effect = .allow ↔
      level.strictEq (.number (.finite 3)) = false ∧
        (level.strictEq (.number (.finite 4)) = true →
          actorKind.strictEq (.string "human") = true) := by
  have exclusive : level.strictEq (.number (.finite 4)) = true →
      level.strictEq (.number (.finite 3)) = false := by
    intro h
    cases level with
    | number n =>
      obtain rfl : n = .finite 4 := by
        cases n <;> simp_all [strictEq, JsNumber.strictEq]
      decide +kernel
    | _ => rfl
  unfold decideByLevel
  cases never : level.strictEq (.number (.finite 4)) with
  | true =>
    rw [exclusive never]
    cases actorKind.strictEq (.string "human") <;> simp
  | false => cases level.strictEq (.number (.finite 3)) <;> simp

/-- The engine allows exactly what no gate refuses. -/
theorem evaluateGates_allows_iff (hPrincipal : isRecord principal = true)
    (hAction : isRecord action = true) (hResource : isRecord resource = true) :
    Allows (evaluateGates realm principal action resource killSwitches roleCeilings) ↔
      ¬ GateRefuses realm principal action resource killSwitches roleCeilings := by
  simp only [evaluateGates, get_of_isRecord hPrincipal, get_of_isRecord hAction,
    get_of_isRecord hResource, ok_bind]
  cases tenant : (resource.own "organizationId").strictEq
      (principal.own "organizationId") with
  | false => exact iff_of_false (by simp) (not_not_intro (.tenant tenant))
  | true =>
  cases scope : hasScopeAccess realm principal resource with
  | error error => exact iff_of_false (by simp) (not_not_intro (.scope (by simp [scope])))
  | ok accessible =>
  cases accessible with
  | false =>
    refine iff_of_false ?_ (not_not_intro (.scope (by simp [scope])))
    simp only [Bool.not_true, Bool.false_eq_true, if_false, ok_bind, Bool.not_false, if_true]
    exact not_allows_bind fun given => by simp
  | true =>
  cases blocked : isBlockedByKillSwitch realm action killSwitches with
  | error error => exact iff_of_false (by simp) (not_not_intro (.killSwitch (by simp [blocked])))
  | ok paused =>
  cases paused with
  | true =>
    refine iff_of_false ?_ (not_not_intro (.killSwitch (by simp [blocked])))
    simp only [Bool.not_true, Bool.false_eq_true, if_false, ok_bind, if_true]
    exact not_allows_bind fun given => by simp
  | false =>
  simp only [Bool.not_true, Bool.false_eq_true, if_false, ok_bind]
  cases role : (principal.own "role").toStr realm with
  | error error => exact iff_of_false (by simp) (not_not_intro (.role (by simp [role])))
  | ok key =>
  rw [ok_bind]
  cases found : roleCeilings.getComputed realm key with
  | error error => exact iff_of_false (by simp) (not_not_intro (.ceiling role (by simp [found])))
  | ok ceiling =>
  rw [ok_bind]
  cases exceeds : (action.own "authorityLevel").greaterThan realm ceiling with
  | error error =>
    exact iff_of_false (by simp) (not_not_intro (.ceiling role (by simp [found, exceeds])))
  | ok above =>
  cases above with
  | true =>
    refine iff_of_false ?_ (not_not_intro (.ceiling role (by simp [found, exceeds])))
    simp only [ok_bind, if_true]
    exact not_allows_bind fun given => by simp
  | false =>
  simp only [ok_bind, Bool.false_eq_true, if_false, pure_except, allows_ok, decideByLevel_allow]
  constructor
  · rintro ⟨unapproved, human⟩ refused
    cases refused with
    | tenant differ => simp [tenant] at differ
    | scope inaccessible => exact inaccessible scope
    | killSwitch open_ => exact open_ blocked
    | role unreadable => exact unreadable key role
    | ceiling role' exceeds' =>
      rw [role] at role'
      cases role'
      exact exceeds' ceiling found exceeds
    | approval level => simp [unapproved] at level
    | neverAutonomous level autonomous => simp [human level] at autonomous
  · intro accepted
    refine ⟨?_, fun level => ?_⟩
    · by_contra level
      exact accepted (.approval (by simpa using level))
    · by_contra autonomous
      exact accepted (.neverAutonomous level (by simpa using autonomous))

end Gates

/-! ### Failing closed -/

/-- The property of a resource that its scope is checked by. -/
def scopeIdField : Scope → Option String
  | .organization => none
  | .team => some "teamId"
  | .project => some "projectId"
  | .private_ => some "ownerUserId"

/-- The id that the resource's scope is checked by is a string. -/
def ScopeIdPresent (resource : JsValue) : Prop :=
  ∀ scope key, resource.own "scope" = .string (Scope.name scope) → scopeIdField scope = some key →
    ∃ id, resource.own key = .string id

/-- What must hold of a policy that allows. -/
structure ProperlyAllowed (realm : Realm) (principal action resource roleCeilings : JsValue) :
    Prop where
  tenant : ∃ id, id ≠ "" ∧ principal.own "organizationId" = .string id ∧
    resource.own "organizationId" = .string id
  authority : ∃ role level ceiling, principal.own "role" = .string (Role.name role) ∧
    action.own "authorityLevel" = AuthorityLevel.toJs level ∧
    roleCeilings.getComputed realm role.name = .ok (finiteNumber ceiling) ∧
    level.value ≤ ceiling ∧
    (level.value ≤ AuthorityLevel.routineAction.value ∨
      level = .neverAutonomous ∧ principal.own "actorKind" = .string "human")
  scope : hasScopeAccess realm principal resource = .ok true ∧ ScopeIdPresent resource

/-- The tenant, the role, the ceiling, the level and the id of the scope have the values of their
types.  The teams, the projects and the kind of the actor are left as they are. -/
structure WellFormedPolicy (realm : Realm) (principal action resource roleCeilings : JsValue) :
    Prop where
  tenant : ∃ id, id ≠ "" ∧ resource.own "organizationId" = .string id
  role : ∃ role ceiling, principal.own "role" = .string (Role.name role) ∧
    roleCeilings.getComputed realm role.name = .ok (finiteNumber ceiling)
  level : ∃ level, action.own "authorityLevel" = AuthorityLevel.toJs level
  scope : ScopeIdPresent resource

/-- The policy gate fails closed on a policy. -/
def FailsClosed (realm : Realm) (policy : JsValue) : Prop :=
  Allows (evaluate realm policy) →
    ProperlyAllowed realm (policy.own "principal") (policy.own "action") (policy.own "resource")
      (effectiveCeilings policy)

section FailsClosed

variable {realm : Realm} {principal action resource killSwitches roleCeilings : JsValue}

theorem ProperlyAllowed.wellFormed
    (proper : ProperlyAllowed realm principal action resource roleCeilings) :
    WellFormedPolicy realm principal action resource roleCeilings := by
  obtain ⟨⟨id, nonempty, -, hId⟩, ⟨role, level, ceiling, hRole, hLevel, hCeiling, -, -⟩, -,
    hScope⟩ := proper
  exact ⟨⟨id, nonempty, hId⟩, ⟨role, ceiling, hRole, hCeiling⟩, ⟨level, hLevel⟩, hScope⟩

theorem WellFormedPolicy.properlyAllowed
    (wellFormed : WellFormedPolicy realm principal action resource roleCeilings)
    (passed : ¬ GateRefuses realm principal action resource killSwitches roleCeilings) :
    ProperlyAllowed realm principal action resource roleCeilings := by
  obtain ⟨⟨id, nonempty, hId⟩, ⟨role, ceiling, hRole, hCeiling⟩, ⟨level, hLevel⟩, hScope⟩ :=
    wellFormed
  have tenant :
      (resource.own "organizationId").strictEq (principal.own "organizationId") = true := by
    by_contra differ
    exact passed (.tenant (by simpa using differ))
  have scope : hasScopeAccess realm principal resource = .ok true := by
    by_contra inaccessible
    exact passed (.scope inaccessible)
  have key : (principal.own "role").toStr realm = .ok role.name := by rw [hRole]; rfl
  have within : level.value ≤ ceiling := by
    by_contra exceeds
    refine passed (.ceiling key fun found hFound => ?_)
    obtain rfl : finiteNumber ceiling = found := by simpa [hCeiling] using hFound
    rw [hLevel, AuthorityLevel.toJs, finiteNumber, greaterThan_finite]
    simpa using exceeds
  refine ⟨⟨id, nonempty, ?_, hId⟩, ⟨role, level, ceiling, hRole, hLevel, hCeiling, within, ?_⟩,
    scope, hScope⟩
  · rw [hId] at tenant
    cases given : principal.own "organizationId" <;> simp_all [strictEq]
  · cases level with
    | observe | prepare | routineAction => exact .inl (by decide +kernel)
    | approvalRequired =>
      refine absurd (.approval ?_) passed
      rw [hLevel]
      decide +kernel
    | neverAutonomous =>
      refine .inr ⟨rfl, ?_⟩
      by_contra autonomous
      refine passed (.neverAutonomous ?_ ?_)
      · rw [hLevel]
        decide +kernel
      · rwa [← strictEq_string, Bool.not_eq_true] at autonomous

end FailsClosed

/-- On a policy that the parser lets through the gate fails closed exactly when one of its checks
refuses what arrived or the fields it reads are well-formed. -/
theorem policyGate_failsClosed_iff (realm : Realm) (payload : JsValue) (order : WorkOrder)
    (policy : JsValue) (accepted : parseWorkOrder payload = .ok order)
    (carried : order.policy = some policy)
    (hPrincipal : isRecord (policy.own "principal") = true)
    (hAction : isRecord (policy.own "action") = true)
    (hResource : isRecord (policy.own "resource") = true) :
    FailsClosed realm policy ↔
      GateRefuses realm (policy.own "principal") (policy.own "action") (policy.own "resource")
          (effectiveKillSwitches policy) (effectiveCeilings policy) ∨
        WellFormedPolicy realm (policy.own "principal") (policy.own "action")
          (policy.own "resource") (effectiveCeilings policy) := by
  have record : isRecord policy = true := by
    obtain ⟨-, -, -, -, -, -, -, -, -, -, -, -, -, gate, -⟩ := parseWorkOrder_eq_ok.mp accepted
    rw [carried, optionalRecord_eq_ok] at gate
    rcases gate with ⟨-, h⟩ | ⟨isObject, h⟩
    · cases h
    · rwa [Option.some.inj h]
  have allows : Allows (evaluate realm policy) ↔
      ¬ GateRefuses realm (policy.own "principal") (policy.own "action") (policy.own "resource")
        (effectiveKillSwitches policy) (effectiveCeilings policy) := by
    simp only [evaluate, get_of_isRecord record, ok_bind]
    exact evaluateGates_allows_iff hPrincipal hAction hResource
  rw [FailsClosed, allows]
  constructor
  · intro proper
    by_cases refused : GateRefuses realm (policy.own "principal") (policy.own "action")
        (policy.own "resource") (effectiveKillSwitches policy) (effectiveCeilings policy)
    · exact .inl refused
    · exact .inr (proper refused).wellFormed
  · rintro (refused | wellFormed) passed
    · exact absurd refused passed
    · exact wellFormed.properlyAllowed passed

/-- A policy in which neither the principal nor the resource names its organization. -/
def tenantlessPolicy : JsValue := .object [
  ("principal", .object [("role", .string "owner")]),
  ("action", .object [("authorityLevel", finiteNumber 2)]),
  ("resource", .object [("scope", .string "ORGANIZATION")])]

def tenantlessPayload : JsValue := .object [
  ("organizationId", .string "acme"),
  ("requiredCapabilities", JsValue.strings ["crm.update"]),
  ("policy", tenantlessPolicy)]

def tenantlessOrder : WorkOrder where
  organizationId := "acme"
  requiredCapabilities := ["crm.update"]
  policy := some tenantlessPolicy

theorem policyGate_failsClosed_iff_tenantless :
    FailsClosed .plain tenantlessPolicy ↔
      GateRefuses .plain (tenantlessPolicy.own "principal") (tenantlessPolicy.own "action")
          (tenantlessPolicy.own "resource") (effectiveKillSwitches tenantlessPolicy)
          (effectiveCeilings tenantlessPolicy) ∨
        WellFormedPolicy .plain (tenantlessPolicy.own "principal") (tenantlessPolicy.own "action")
          (tenantlessPolicy.own "resource") (effectiveCeilings tenantlessPolicy) :=
  policyGate_failsClosed_iff .plain tenantlessPayload tenantlessOrder tenantlessPolicy rfl rfl rfl
    rfl rfl

/-- Two missing organizations are equal, so the gate allows the order. -/
theorem policyGate_allows_tenantless :
    ¬ ∃ realm, ∀ payload order policy, payload.isJson = true →
      parseWorkOrder payload = .ok order → order.policy = some policy →
      isRecord (policy.own "principal") = true → isRecord (policy.own "action") = true →
      isRecord (policy.own "resource") = true → FailsClosed realm policy := by
  rintro ⟨realm, failsClosed⟩
  have proper := failsClosed tenantlessPayload tenantlessOrder tenantlessPolicy (by decide +kernel)
    rfl rfl rfl rfl rfl ⟨⟨.allow, .ok, "Permitted."⟩, ?_, rfl⟩
  · obtain ⟨id, -, missing, -⟩ := proper.tenant
    cases missing
  · rfl

end Donna
