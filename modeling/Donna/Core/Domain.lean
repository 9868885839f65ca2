import Donna.Js.Value

/-! The domain types that every package shares: authority levels, roles and scopes with the texts
that name them, execution classes, and the events of the execution history.  Identifiers are the
strings that the source brands at compile time only. -/

namespace Donna

open Js

inductive AuthorityLevel
  | observe
  | prepare
  | routineAction
  | approvalRequired
  | neverAutonomous
  deriving DecidableEq

def AuthorityLevel.value : AuthorityLevel → ℚ
  | .observe => 0
  | .prepare => 1
  | .routineAction => 2
  | .approvalRequired => 3
  | .neverAutonomous => 4

inductive Role
  | owner
  | admin
  | executive
  | teamLead
  | teamMember
  | contractor
  deriving DecidableEq

def Role.name : Role → String
  | .owner => "owner"
  | .admin => "admin"
  | .executive => "executive"
  | .teamLead => "team_lead"
  | .teamMember => "team_member"
  | .contractor => "contractor"

def Role.all : List Role := [.owner, .admin, .executive, .teamLead, .teamMember, .contractor]

inductive Scope
  | private_
  | project
  | team
  | organization
  deriving DecidableEq

def Scope.name : Scope → String
  | .private_ => "PRIVATE"
  | .project => "PROJECT"
  | .team => "TEAM"
  | .organization => "ORGANIZATION"

def Scope.all : List Scope := [.private_, .project, .team, .organization]

theorem Scope.name_injective : Function.Injective Scope.name := by
  intro a b h
  cases a <;> cases b <;> first | rfl | exact absurd h (by decide)

/-- Execution classes chosen by the Work Router. -/
inductive ExecutionClass
  | deterministic
  | automation
  | human
  | browser
  | codingAgent
  | localAi
  | cloudAi
  deriving DecidableEq

def isAiExecutionClass : ExecutionClass → Bool
  | .localAi | .cloudAi => true
  | _ => false

inductive EventType
  | objectiveCreated
  | taskCreated
  | taskPlanned
  | taskAssigned
  | workerStarted
  | toolCalled
  | artifactCreated
  | approvalRequested
  | approvalDecided
  | taskBlocked
  | taskRetried
  | taskCompleted
  | taskFailed
  | memoryUpdated
  | nodeHealthChanged
  | systemAlert
  deriving DecidableEq

inductive ActorType
  | human
  | orchestrator
  | adapter
  | checker
  deriving DecidableEq

structure Actor where
  type : ActorType
  id : String
  deriving DecidableEq

/-- The envelope that every event carries; `createdAt` is in milliseconds. -/
structure EventEnvelope where
  id : String
  type : EventType
  organizationId : String
  objectiveId : Option String
  taskId : Option String
  actor : Actor
  correlationId : String
  causationId : Option String
  payloadRef : Option String
  createdAt : ℤ
  deriving DecidableEq

structure CreateEventInput where
  type : EventType
  organizationId : String
  actor : Actor
  objectiveId : Option String := none
  taskId : Option String := none
  correlationId : Option String := none
  causationId : Option String := none
  payloadRef : Option String := none

/-- What `createEvent` draws from the platform: two random ids and the clock. -/
structure Fresh where
  eventId : String
  correlationId : String
  now : ℤ

/-- Build a well-formed envelope; a correlation id is made up when none is supplied. -/
def createEvent (fresh : Fresh) (input : CreateEventInput) : EventEnvelope where
  id := fresh.eventId
  type := input.type
  organizationId := input.organizationId
  objectiveId := input.objectiveId
  taskId := input.taskId
  actor := input.actor
  correlationId := input.correlationId.getD fresh.correlationId
  causationId := input.causationId
  payloadRef := input.payloadRef
  createdAt := fresh.now

/-- A row of the `events` table; `dispatchedAt` is the marker of the transactional outbox. -/
structure EventRow where
  id : String
  type : EventType
  organizationId : String
  objectiveId : Option String
  taskId : Option String
  actorType : ActorType
  actorId : String
  correlationId : String
  causationId : Option String
  payloadRef : Option String
  createdAt : ℤ
  dispatchedAt : Option ℤ
  deriving DecidableEq

def eventEnvelopeToRow (event : EventEnvelope) : EventRow where
  id := event.id
  type := event.type
  organizationId := event.organizationId
  objectiveId := event.objectiveId
  taskId := event.taskId
  actorType := event.actor.type
  actorId := event.actor.id
  correlationId := event.correlationId
  causationId := event.causationId
  payloadRef := event.payloadRef
  createdAt := event.createdAt
  dispatchedAt := none

end Donna
