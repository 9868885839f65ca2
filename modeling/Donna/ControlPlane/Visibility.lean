import Donna.ControlPlane.Server
import Donna.Policy.Decision

/-! What the routes decide about an objective.  Each route describes the objective to the policy
engine in its own way; `Describes` says which objective a description is true of, and the decision
on it is whether that objective's boundary admits the principal. -/

namespace Donna

open Js JsValue

/-- The membership boundary of an objective, within its tenant. -/
inductive Objective.Admits (objective : Objective) (principal : PrincipalContext) : Prop
  | organization (scope : objective.scope = .string "ORGANIZATION")
  | team (scope : objective.scope = .string "TEAM") {id : String}
      (owning : objective.teamId = some (.string id)) (member : id ∈ principal.teamIds)
  | project (scope : objective.scope = .string "PROJECT") {id : String}
      (owning : objective.projectId = some (.string id)) (member : id ∈ principal.projectIds)
  | owner (scope : objective.scope = .string "PRIVATE")
      (owns : objective.ownerId = principal.userId)

/-- The scope of an objective is one of the four. -/
def Objective.Scoped (objective : Objective) : Prop :=
  ∃ scope : Scope, objective.scope = .string scope.name

theorem Objective.Admits.scoped {objective : Objective} {principal : PrincipalContext}
    (admits : objective.Admits principal) : objective.Scoped := by
  cases admits with
  | organization scope => exact ⟨.organization, scope⟩
  | team scope => exact ⟨.team, scope⟩
  | project scope => exact ⟨.project, scope⟩
  | owner scope => exact ⟨.private_, scope⟩

/-- A resource carries the fields of an objective, under the principal's tenant. -/
structure Describes (resource : JsValue) (objective : Objective) (principal : PrincipalContext) :
    Prop where
  isObject : ∃ fields, resource = .object fields
  tenant : resource.own "organizationId" = .string principal.organizationId
  scope : resource.own "scope" = objective.scope
  owner : resource.own "ownerUserId" = .string objective.ownerId
  team : resource.own "teamId" = objective.teamId.getD .undefined
  project : resource.own "projectId" = objective.projectId.getD .undefined

section Describes

variable (principal : PrincipalContext) (objective : Objective)

theorem describes_present {table : List (String × Option JsValue)}
    (distinct : (table.map Prod.fst).Nodup)
    (tenant : table.lookup "organizationId" = some (some (.string principal.organizationId)))
    (scope : table.lookup "scope" = some (some objective.scope))
    (owner : table.lookup "ownerUserId" = some (some (.string objective.ownerId)))
    (team : (table.lookup "teamId").join = objective.teamId)
    (project : (table.lookup "projectId").join = objective.projectId) :
    Describes (.object (present table)) objective principal where
  isObject := ⟨_, rfl⟩
  tenant := by rw [own_present distinct, tenant]; rfl
  scope := by rw [own_present distinct, scope]; rfl
  owner := by rw [own_present distinct, owner]; rfl
  team := by rw [own_present distinct, team]
  project := by rw [own_present distinct, project]

theorem readResource_describes : Describes (readResource principal objective) objective principal :=
  describes_present principal objective (by simp) rfl rfl rfl rfl rfl

/-- The dispatch route leaves the owning team out. -/
theorem dispatchResource_describes :
    Describes (dispatchResource principal objective) { objective with teamId := none } principal :=
  describes_present principal _ (by simp) rfl rfl rfl rfl rfl

theorem createResource_describes (id : String) (input : CreateObjectiveInput) :
    Describes (createResource principal input.scope input.teamId input.projectId)
      (newObjective id input principal) principal :=
  describes_present principal _ (by simp) rfl rfl rfl rfl rfl

end Describes

/-! ### The decision on a description -/

section Decision

variable (realm : Realm) {resource : JsValue} {objective : Objective}
  {principal : PrincipalContext} (action : ActionDescriptor)

theorem Objective.admits_iff : objective.Admits principal ↔
    objective.scope = .string "ORGANIZATION" ∨
    (objective.scope = .string "TEAM" ∧
      ∃ id ∈ principal.teamIds, objective.teamId = some (.string id)) ∨
    (objective.scope = .string "PROJECT" ∧
      ∃ id ∈ principal.projectIds, objective.projectId = some (.string id)) ∨
    (objective.scope = .string "PRIVATE" ∧ objective.ownerId = principal.userId) := by
  constructor
  · intro admits
    cases admits with
    | organization scope => exact .inl scope
    | team scope owning member => exact .inr (.inl ⟨scope, _, member, owning⟩)
    | project scope owning member => exact .inr (.inr (.inl ⟨scope, _, member, owning⟩))
    | owner scope owns => exact .inr (.inr (.inr ⟨scope, owns⟩))
  · rintro (scope | ⟨scope, id, member, owning⟩ | ⟨scope, id, member, owning⟩ | ⟨scope, owns⟩)
    · exact .organization scope
    · exact .team scope owning member
    · exact .project scope owning member
    · exact .owner scope owns

open Classical in
theorem includes_field (ids : List String) (field : Option JsValue) :
    (if (field.getD .undefined).isUndefined = true then pure false
      else includes realm (JsValue.strings ids) (field.getD .undefined)) =
      .ok (decide (∃ id ∈ ids, field = some (.string id))) := by
  cases field with
  | none => simp [isUndefined]
  | some value =>
    rw [Option.getD_some]
    by_cases missing : value.isUndefined = true
    · cases value <;> simp_all [isUndefined]
    · rw [if_neg missing, JsValue.strings, includes, List.any_map]
      refine congrArg Except.ok (Bool.eq_iff_iff.mpr ?_)
      simp [sameValueZero_string]

open Classical in
/-- The engine opens a resource to those whom the boundary of the objective admits. -/
theorem Describes.hasScopeAccess (describes : Describes resource objective principal) :
    hasScopeAccess realm principal.toJs resource = .ok (decide (objective.Admits principal)) := by
  obtain ⟨fields, rfl⟩ := describes.isObject
  simp only [Donna.hasScopeAccess, get_object, describes.scope, describes.owner, describes.team,
    describes.project, ok_bind, PrincipalContext.get_toJs, PrincipalContext.own_teamIds,
    PrincipalContext.own_projectIds, PrincipalContext.own_userId, includes_field,
    Objective.admits_iff]
  by_cases organization : objective.scope = .string "ORGANIZATION"
  · simp [organization, strictEq]
  by_cases team : objective.scope = .string "TEAM"
  · simp [team, strictEq]
  by_cases project : objective.scope = .string "PROJECT"
  · simp [project, strictEq]
  by_cases owner : objective.scope = .string "PRIVATE"
  · simp [owner, strictEq, isUndefined]
  · simp [organization, team, project, owner, strictEq_string]

/-- An action without side effects, at a level that every role may attempt. -/
def ActionDescriptor.Routine (action : ActionDescriptor) : Prop :=
  action.sideEffecting = false ∧
    (action.authorityLevel = .observe ∨ action.authorityLevel = .prepare)

theorem objectiveCreateAction_routine : objectiveCreateAction.Routine := ⟨rfl, .inr rfl⟩

theorem objectiveReadAction_routine : objectiveReadAction.Routine := ⟨rfl, .inl rfl⟩

theorem taskDispatchAction_routine : taskDispatchAction.Routine := ⟨rfl, .inr rfl⟩

def permitted : PolicyDecision := ⟨.allow, .ok, "Permitted."⟩

/-- The denial of a resource in a scope. -/
def scopeDenied (scope : String) : PolicyDecision :=
  ⟨.deny, .scopeDenied, "Principal lacks access to " ++ scope ++ " resource."⟩

/-- No default ceiling is below `PREPARE`. -/
theorem ActionDescriptor.Routine.decision {action : ActionDescriptor} (routine : action.Routine) :
    action.decision realm principal noKillSwitches defaultRoleCeilings = permitted := by
  obtain ⟨name, level, sideEffecting, capability⟩ := action
  obtain ⟨harmless, hLevel⟩ := routine
  dsimp only at harmless hLevel
  subst harmless
  have within : ¬ (defaultRoleCeilings principal.role).value < level.value := by
    rcases hLevel with rfl | rfl <;> cases principal.role <;> decide +kernel
  have allowed : ∀ actorKind, decideByLevel level.toJs actorKind = permitted := by
    intro actorKind
    rcases hLevel with rfl | rfl <;>
      simp [decideByLevel, AuthorityLevel.toJs, AuthorityLevel.value, strictEq, JsNumber.strictEq,
        permitted]
  simp [ActionDescriptor.decision, ActionDescriptor.blockedBy, within, allowed]

theorem decideOn_eq : decideOn realm principal action resource =
    evaluateGates realm principal.toJs action.toJs resource noKillSwitches.toJs
      (ceilingsToJs defaultRoleCeilings) := by
  simp [decideOn, evaluate, effectiveKillSwitches, effectiveCeilings, orElse]

theorem Describes.decideOn_admitted {action : ActionDescriptor}
    (describes : Describes resource objective principal)
    (routine : action.Routine) (admits : objective.Admits principal) :
    decideOn realm principal action resource = .ok permitted := by
  have access := describes.hasScopeAccess realm
  obtain ⟨fields, rfl⟩ := describes.isObject
  simp only [admits, decide_true] at access
  rw [decideOn_eq, evaluateGates_cleared realm principal action fields noKillSwitches
    defaultRoleCeilings describes.tenant access, routine.decision]

theorem Describes.decideOn_denied (describes : Describes resource objective principal)
    (excluded : ¬ objective.Admits principal) :
    decideOn realm principal action resource = (objective.scope.toStr realm).map scopeDenied := by
  have access := describes.hasScopeAccess realm
  obtain ⟨fields, rfl⟩ := describes.isObject
  simp only [excluded, decide_false] at access
  simp only [decideOn_eq, evaluateGates, get_object, describes.tenant, describes.scope, access,
    PrincipalContext.get_toJs, PrincipalContext.own_organizationId, ok_bind, strictEq, decide_true]
  cases objective.scope.toStr realm <;> rfl

end Decision

/-! ### The routes -/

/-- The body of a dispatch has the fields that the route checks. -/
def WellFormedDispatch (requestBody : JsValue) (goal definitionOfDone : String)
    (requiredCapabilities : List String) : Prop :=
  ((requestBody.orElse (.object [])).own "goal").asString = some goal ∧
  ((requestBody.orElse (.object [])).own "definitionOfDone").asString = some definitionOfDone ∧
  asStringArray ((requestBody.orElse (.object [])).own "requiredCapabilities") =
    some requiredCapabilities

/-- The answer to a body that the route rejects. -/
def malformedDispatch (requestBody : JsValue) : Response :=
  let body := requestBody.orElse (.object [])
  if (body.own "goal").asString.isSome && (body.own "definitionOfDone").asString.isSome then
    errorResponse 400 "requiredCapabilities must be an array of strings"
  else errorResponse 400 "goal and definitionOfDone are required"

/-- A reply that a handler sends with status 200. -/
def Found (outcome : Except Thrown Response) : Prop := ∃ body, outcome = .ok ⟨200, body⟩

/-- A reply that a task was queued. -/
def Queued (outcome : Except Thrown Response) : Prop := ∃ result, outcome = .ok (queued result)

section Routes

variable {σ : Type} {realm : Realm} {deps : ServerDeps σ} {principal : PrincipalContext}
  {id : String} {objective : Objective} {body : JsValue} {state : σ}

theorem createObjective_denied {requestedOutcome definitionOfDone : String}
    (hOutcome : ((body.orElse (.object [])).own "requestedOutcome").asString =
      some requestedOutcome)
    (hDone : ((body.orElse (.object [])).own "definitionOfDone").asString = some definitionOfDone)
    (excluded : ¬ (newObjective id (createInput requestedOutcome definitionOfDone
      (body.orElse (.object []))) principal).Admits principal) :
    (createObjective realm deps principal body state).2 = state := by
  have decision := (createResource_describes principal id _).decideOn_denied realm
    objectiveCreateAction excluded
  simp only [createObjective, hOutcome, hDone, decision]
  cases toStr realm (newObjective id (createInput requestedOutcome definitionOfDone
    (body.orElse (.object []))) principal).scope <;> rfl

theorem createObjective_admitted {requestedOutcome definitionOfDone : String}
    (hOutcome : ((body.orElse (.object [])).own "requestedOutcome").asString =
      some requestedOutcome)
    (hDone : ((body.orElse (.object [])).own "definitionOfDone").asString = some definitionOfDone)
    (admits : (newObjective id (createInput requestedOutcome definitionOfDone
      (body.orElse (.object []))) principal).Admits principal) :
    createObjective realm deps principal body state =
      let outcome := deps.objectiveService.create (createInput requestedOutcome definitionOfDone
        (body.orElse (.object []))) principal state
      (outcome.1.map fun objective => ⟨201, objective.toJs⟩, outcome.2) := by
  have decision := (createResource_describes principal id _).decideOn_admitted realm
    objectiveCreateAction_routine admits
  simp only [createObjective, hOutcome, hDone, decision, refusal, permitted]
  rcases deps.objectiveService.create (createInput requestedOutcome definitionOfDone
    (body.orElse (.object []))) principal state with ⟨error | objective, left⟩ <;> rfl

theorem readObjective_missing
    (missing : deps.objectiveService.get id principal.organizationId state = .ok none) :
    readObjective realm deps principal id state = .ok (errorResponse 404 "not_found") := by
  rw [readObjective, missing]

theorem readObjective_admitted
    (found : deps.objectiveService.get id principal.organizationId state = .ok (some objective))
    (admits : objective.Admits principal) :
    readObjective realm deps principal id state = .ok ⟨200, objective.toJs⟩ := by
  have decision := (readResource_describes principal objective).decideOn_admitted realm
    objectiveReadAction_routine admits
  simp [readObjective, found, decision, permitted]

theorem readObjective_hidden
    (found : deps.objectiveService.get id principal.organizationId state = .ok (some objective))
    (hScoped : objective.Scoped) (excluded : ¬ objective.Admits principal) :
    readObjective realm deps principal id state = .ok (errorResponse 404 "not_found") := by
  obtain ⟨scope, hScope⟩ := hScoped
  have decision := (readResource_describes principal objective).decideOn_denied realm
    objectiveReadAction excluded
  rw [hScope, toStr] at decision
  simp [readObjective, found, decision, Except.map, scopeDenied]

theorem dispatchTask_missing
    (missing : deps.objectiveService.get id principal.organizationId state = .ok none) :
    dispatchTask realm deps principal id body state =
      (.ok (errorResponse 404 "objective_not_found"), state) := by
  rw [dispatchTask, missing]

theorem dispatchTask_malformed
    (found : deps.objectiveService.get id principal.organizationId state = .ok (some objective))
    (malformed : ∀ goal definitionOfDone requiredCapabilities,
      ¬ WellFormedDispatch body goal definitionOfDone requiredCapabilities) :
    dispatchTask realm deps principal id body state = (.ok (malformedDispatch body), state) := by
  simp only [dispatchTask, found, malformedDispatch]
  cases goal : ((body.orElse (.object [])).own "goal").asString with
  | none => simp
  | some goalText =>
    cases done : ((body.orElse (.object [])).own "definitionOfDone").asString with
    | none => simp
    | some doneText =>
      cases capabilities :
          asStringArray ((body.orElse (.object [])).own "requiredCapabilities") with
      | none => simp
      | some names => exact absurd ⟨goal, done, capabilities⟩ (malformed goalText doneText names)

section WellFormed

variable {goal definitionOfDone : String} {requiredCapabilities : List String}
  (wellFormed : WellFormedDispatch body goal definitionOfDone requiredCapabilities)
  (found : deps.objectiveService.get id principal.organizationId state = .ok (some objective))

include wellFormed found

theorem dispatchTask_admitted
    (admits : Objective.Admits { objective with teamId := none } principal) :
    dispatchTask realm deps principal id body state =
      let outcome := deps.taskDispatcher.dispatch (dispatchInput id goal definitionOfDone
        requiredCapabilities (body.orElse (.object []))) principal state
      (outcome.1.map queued, outcome.2) := by
  obtain ⟨hGoal, hDone, hCapabilities⟩ := wellFormed
  have decision := (dispatchResource_describes principal objective).decideOn_admitted
    realm taskDispatchAction_routine admits
  simp only [dispatchTask, found, hGoal, hDone, hCapabilities, decision, refusal, permitted]
  rcases deps.taskDispatcher.dispatch (dispatchInput id goal definitionOfDone requiredCapabilities
    (body.orElse (.object []))) principal state with ⟨error | result, left⟩ <;> rfl

theorem dispatchTask_denied {scope : Scope} (hScope : objective.scope = .string scope.name)
    (excluded : ¬ Objective.Admits { objective with teamId := none } principal) :
    dispatchTask realm deps principal id body state =
      (.ok (denied (scopeDenied scope.name)), state) := by
  obtain ⟨hGoal, hDone, hCapabilities⟩ := wellFormed
  have decision := (dispatchResource_describes principal objective).decideOn_denied
    realm taskDispatchAction excluded
  rw [hScope, toStr] at decision
  simp [dispatchTask, found, hGoal, hDone, hCapabilities, decision, Except.map, refusal,
    scopeDenied]

end WellFormed

theorem refusal_ne_queued (decision : PolicyDecision) (result : DispatchResult) :
    refusal decision ≠ some (queued result) := by
  unfold refusal
  split <;> simp [denied, approvalRequired, queued]

theorem dispatchTask_queued {goal definitionOfDone : String} {requiredCapabilities : List String}
    (wellFormed : WellFormedDispatch body goal definitionOfDone requiredCapabilities)
    (answered : Queued (dispatchTask realm deps principal id body state).1) :
    ∃ result, deps.taskDispatcher.dispatch (dispatchInput id goal definitionOfDone
      requiredCapabilities (body.orElse (.object []))) principal state =
        (.ok result, (dispatchTask realm deps principal id body state).2) := by
  obtain ⟨hGoal, hDone, hCapabilities⟩ := wellFormed
  obtain ⟨sent, answered⟩ := answered
  cases found : deps.objectiveService.get id principal.organizationId state with
  | error error => simp [dispatchTask, found] at answered
  | ok objective =>
    cases objective with
    | none => simp [dispatchTask, found, errorResponse, queued] at answered
    | some objective =>
      simp only [dispatchTask, found, hGoal, hDone, hCapabilities] at answered ⊢
      cases decided : decideOn realm principal taskDispatchAction
          (dispatchResource principal objective) with
      | error error => simp [decided] at answered
      | ok decision =>
        cases refused : refusal decision with
        | some response =>
          simp only [decided, refused, Except.ok.injEq] at answered
          rw [answered] at refused
          exact absurd refused (refusal_ne_queued decision sent)
        | none =>
          simp only [decided, refused] at answered ⊢
          rcases dispatched : deps.taskDispatcher.dispatch (dispatchInput id goal definitionOfDone
            requiredCapabilities (body.orElse (.object []))) principal state with
            ⟨error | result, left⟩
          · simp [dispatched] at answered
          · exact ⟨result, rfl⟩

end Routes

/-- Without its owning team a team's objective admits no one, and any other those it admitted. -/
theorem Objective.admits_without_team {objective : Objective} {principal : PrincipalContext} :
    Objective.Admits { objective with teamId := none } principal ↔
      objective.Admits principal ∧ objective.scope ≠ .string "TEAM" := by
  constructor
  · intro admits
    cases admits with
    | organization scope => exact ⟨.organization scope, by simp_all⟩
    | team scope owning member => cases owning
    | project scope owning member => exact ⟨.project scope owning member, by simp_all⟩
    | owner scope owns => exact ⟨.owner scope owns, by simp_all⟩
  · rintro ⟨admits, notTeam⟩
    cases admits with
    | organization scope => exact .organization scope
    | team scope owning member => exact absurd scope notTeam
    | project scope owning member => exact .project scope owning member
    | owner scope owns => exact .owner scope owns

/-! ### The in-memory deployment -/

section InMemory

variable {realm : Realm} {draws : Draws} {state : InMemory} {principal : PrincipalContext}
  {id : String} {body : JsValue}

theorem ObjectiveMap.get_eq_some {store : ObjectiveMap} {organizationId : String}
    {objective : Objective} : store.get id organizationId = some objective ↔
      store.lookup id = some ⟨objective, organizationId⟩ := by
  rw [ObjectiveMap.get]
  cases store.lookup id with
  | none => simp
  | some entry =>
    obtain ⟨stored, tenant⟩ := entry
    by_cases same : tenant = organizationId <;> simp [same]

/-- Every objective in a store has one of the four scopes. -/
def ObjectiveMap.Scoped (store : ObjectiveMap) : Prop :=
  ∀ id entry, store.lookup id = some entry → entry.objective.Scoped

theorem serve_getObjective_found (hScoped : state.objectives.Scoped) :
    Found (serve realm state ⟨draws, .authenticated principal, .getObjective id⟩).1 ↔
      ∃ objective, state.objectives.get id principal.organizationId = some objective ∧
        objective.Admits principal := by
  show Found (readObjective realm (inMemoryDeps draws) principal id state) ↔ _
  cases found : state.objectives.get id principal.organizationId with
  | none =>
    rw [readObjective_missing (congrArg Except.ok found)]
    simp [Found, errorResponse]
  | some objective =>
    by_cases admits : objective.Admits principal
    · rw [readObjective_admitted (congrArg Except.ok found) admits]
      simp [Found, admits]
    · have hidden := hScoped id _ (ObjectiveMap.get_eq_some.mp found)
      rw [readObjective_hidden (congrArg Except.ok found) hidden admits]
      simp [Found, errorResponse, admits]

theorem serve_postTasks_queued {goal definitionOfDone : String}
    {requiredCapabilities : List String} (hScoped : state.objectives.Scoped)
    (wellFormed : WellFormedDispatch body goal definitionOfDone requiredCapabilities) :
    Queued (serve realm state ⟨draws, .authenticated principal, .postTasks id body⟩).1 ↔
      ∃ objective, state.objectives.get id principal.organizationId = some objective ∧
        objective.Admits principal ∧ objective.scope ≠ .string "TEAM" := by
  show Queued (dispatchTask realm (inMemoryDeps draws) principal id body state).1 ↔ _
  cases found : state.objectives.get id principal.organizationId with
  | none =>
    rw [dispatchTask_missing (congrArg Except.ok found)]
    simp [Queued, errorResponse, queued]
  | some objective =>
    by_cases admits : Objective.Admits { objective with teamId := none } principal
    · rw [dispatchTask_admitted wellFormed (congrArg Except.ok found) admits]
      have boundary := Objective.admits_without_team.mp admits
      simp [Queued, inMemoryDeps, inMemoryTaskDispatcher, Except.map, boundary]
    · obtain ⟨scope, hScope⟩ := hScoped id _ (ObjectiveMap.get_eq_some.mp found)
      rw [dispatchTask_denied wellFormed (congrArg Except.ok found) hScope admits]
      rw [Objective.admits_without_team] at admits
      simp [Queued, denied, queued, admits]

end InMemory

end Donna
