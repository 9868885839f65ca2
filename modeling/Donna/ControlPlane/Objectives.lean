import Donna.Orchestrator.Adapters

/-! Objectives, and the services that create and fetch them.  A request body is cast to its type and
not checked against it, so the fields that are copied from one hold whatever value it had. -/

namespace Donna

open Js JsValue

/-- What a request draws from the platform: the random id of the record that it creates, the ids and
the clock of its event, the id of its job, and the clock of the database. -/
structure Draws where
  recordId : String
  event : Fresh
  jobId : String
  now : ℤ

/-- The actor of the events that a request emits. -/
def PrincipalContext.actor (principal : PrincipalContext) : Actor where
  type := if principal.actorKind = .human then .human else .orchestrator
  id := principal.userId

inductive ObjectiveStatus
  | draft
  | active
  | blocked
  | completed
  | cancelled
  deriving DecidableEq

def ObjectiveStatus.name : ObjectiveStatus → String
  | .draft => "draft"
  | .active => "active"
  | .blocked => "blocked"
  | .completed => "completed"
  | .cancelled => "cancelled"

inductive RiskLevel
  | low
  | medium
  | high
  | critical
  deriving DecidableEq

def RiskLevel.name : RiskLevel → String
  | .low => "low"
  | .medium => "medium"
  | .high => "high"
  | .critical => "critical"

def RiskLevel.all : List RiskLevel := [.low, .medium, .high, .critical]

theorem RiskLevel.name_injective : Function.Injective RiskLevel.name := by
  intro a b h
  cases a <;> cases b <;> first | rfl | exact absurd h (by decide)

/-- A requested outcome with an explicit definition of done. -/
structure Objective where
  id : String
  scope : JsValue
  requesterId : String
  ownerId : String
  requestedOutcome : String
  definitionOfDone : String
  status : ObjectiveStatus
  riskLevel : JsValue
  projectId : Option JsValue
  teamId : Option JsValue

def Objective.toJs (objective : Objective) : JsValue := .object (present [
  ("id", some (.string objective.id)),
  ("scope", some objective.scope),
  ("requesterId", some (.string objective.requesterId)),
  ("ownerId", some (.string objective.ownerId)),
  ("requestedOutcome", some (.string objective.requestedOutcome)),
  ("definitionOfDone", some (.string objective.definitionOfDone)),
  ("status", some (.string objective.status.name)),
  ("riskLevel", some objective.riskLevel),
  ("projectId", objective.projectId),
  ("teamId", objective.teamId)])

structure CreateObjectiveInput where
  requestedOutcome : String
  definitionOfDone : String
  scope : JsValue
  riskLevel : JsValue
  projectId : Option JsValue
  teamId : Option JsValue

structure ObjectiveService (σ : Type) where
  create : CreateObjectiveInput → PrincipalContext → σ → Except Thrown Objective × σ
  get : String → String → σ → Except Thrown (Option Objective)

def newObjective (id : String) (input : CreateObjectiveInput) (principal : PrincipalContext) :
    Objective where
  id := id
  scope := input.scope
  requesterId := principal.userId
  ownerId := principal.userId
  requestedOutcome := input.requestedOutcome
  definitionOfDone := input.definitionOfDone
  status := .draft
  riskLevel := input.riskLevel
  projectId := input.projectId
  teamId := input.teamId

def objectiveCreated (draws : Draws) (principal : PrincipalContext) : EventEnvelope :=
  createEvent draws.event {
    type := .objectiveCreated
    organizationId := principal.organizationId
    actor := principal.actor
    objectiveId := some draws.recordId }

/-- An objective beside the tenant that the domain shape does not carry. -/
structure StoredObjective where
  objective : Objective
  organizationId : String

/-- A map of objectives by id, the latest entry under an id first. -/
abbrev ObjectiveMap := List (String × StoredObjective)

/-- `InMemoryObjectiveService.get`: another organization's objective reads as `null`. -/
def ObjectiveMap.get (store : ObjectiveMap) (id organizationId : String) : Option Objective :=
  match store.lookup id with
  | none => none
  | some entry => if entry.organizationId ≠ organizationId then none else some entry.objective

end Donna
