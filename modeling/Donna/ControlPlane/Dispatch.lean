import Donna.ControlPlane.Objectives
import Donna.Db.Tasks
import Donna.Js.Json
import Donna.Orchestrator.WorkOrder

/-! Task dispatch: the work order that a request becomes, and the dispatchers that create its task
and enqueue it, in memory or in one transaction of the database. -/

namespace Donna

open Js JsValue

/-- Routing hints carried on a dispatch request, each absent or whatever the body held. -/
structure WorkOrderHints where
  requiredCapabilities : List String
  prefersHuman : Option JsValue := none
  needsReasoning : Option JsValue := none
  reasoningTier : Option JsValue := none
  needsTools : Option JsValue := none
  needsVision : Option JsValue := none
  requireLocal : Option JsValue := none
  minContextTokens : Option JsValue := none
  modelRequest : Option JsValue := none

/-- Everything needed to create a task and enqueue its work order. -/
structure DispatchInput extends WorkOrderHints where
  objectiveId : String
  goal : String
  definitionOfDone : String
  requiredAuthority : Option AuthorityLevel := none

def Task.toJs (task : Task) : JsValue := .object (present [
  ("id", some (.string task.id)),
  ("objectiveId", some (.string task.objectiveId)),
  ("parentTaskId", task.parentTaskId.map .string),
  ("goal", some (.string task.goal)),
  ("definitionOfDone", some (.string task.definitionOfDone)),
  ("status", some (.string task.status.name)),
  ("executionClass", task.executionClass.map fun cls => .string cls.name),
  ("requiredAuthority", some task.requiredAuthority.toJs),
  ("idempotencyKey", task.idempotencyKey.map .string),
  ("retryCount", some (.number (.finite task.retryCount))),
  ("maxRetries", some (.number (.finite task.maxRetries)))])

structure DispatchResult where
  task : Task
  jobId : String

structure TaskDispatcher (σ : Type) where
  dispatch : DispatchInput → PrincipalContext → σ → Except Thrown DispatchResult × σ

/-- The properties of the work order enqueued for a created task; absent hints are omitted. -/
def workOrderTable (task : Task) (organizationId : String) (hints : WorkOrderHints) :
    List (String × Option JsValue) := [
  ("organizationId", some (.string organizationId)),
  ("taskId", some (.string task.id)),
  ("requiredCapabilities", some (JsValue.strings hints.requiredCapabilities)),
  ("prefersHuman", hints.prefersHuman),
  ("needsReasoning", hints.needsReasoning),
  ("reasoningTier", hints.reasoningTier),
  ("needsTools", hints.needsTools),
  ("needsVision", hints.needsVision),
  ("requireLocal", hints.requireLocal),
  ("minContextTokens", hints.minContextTokens),
  ("modelRequest", hints.modelRequest)]

def buildWorkOrder (task : Task) (organizationId : String) (hints : WorkOrderHints) : JsValue :=
  .object (present (workOrderTable task organizationId hints))

def newTask (id : String) (input : DispatchInput) : Task where
  id := id
  objectiveId := input.objectiveId
  parentTaskId := none
  goal := input.goal
  definitionOfDone := input.definitionOfDone
  status := .pending
  executionClass := none
  requiredAuthority := input.requiredAuthority.getD .prepare
  idempotencyKey := none
  retryCount := 0
  maxRetries := 3

def taskCreated (draws : Draws) (input : DispatchInput) (principal : PrincipalContext) :
    EventEnvelope :=
  createEvent draws.event {
    type := .taskCreated
    organizationId := principal.organizationId
    actor := principal.actor
    objectiveId := some input.objectiveId
    taskId := some draws.recordId }

/-! ### In the database -/

/-- The row that a task is inserted as, with the clock of the database. -/
def taskToRow (now : ℤ) (task : Task) (organizationId : String)
    (requiredCapabilities : List String) : TaskRow where
  id := task.id
  organizationId := organizationId
  objectiveId := task.objectiveId
  parentTaskId := none
  goal := task.goal
  definitionOfDone := task.definitionOfDone
  status := task.status
  executionClass := task.executionClass
  requiredCapabilities := requiredCapabilities
  requiredAuthority := task.requiredAuthority
  idempotencyKey := task.idempotencyKey
  retryCount := task.retryCount
  maxRetries := task.maxRetries
  updatedAt := now

/-- What an insert under a taken primary key throws. -/
def uniqueViolation : Thrown := .value (.object [("code", .string "23505")])

def dispatchJob (draws : Draws) (input : DispatchInput) (principal : PrincipalContext) :
    AddJob where
  identifier := executeWorkOrderTask
  payload := (buildWorkOrder (newTask draws.recordId input) principal.organizationId
    input.toWorkOrderHints).jsonClone
  jobKey := draws.recordId

/-- The dispatcher of a deployment with a database: the task row, its event and its job in one
transaction. -/
def drizzleTaskDispatcher (draws : Draws) : TaskDispatcher Database where
  dispatch input principal db :=
    let task := newTask draws.recordId input
    match db.insertTask
        (taskToRow draws.now task principal.organizationId input.requiredCapabilities) with
    | none => (.error uniqueViolation, db)
    | some inserted =>
      (.ok ⟨task, draws.jobId⟩,
        (inserted.insertEvents [eventEnvelopeToRow (taskCreated draws input principal)]).addJob
          (dispatchJob draws input principal))

/-- Everything that a dispatch can do: it writes the task, its event and its job, or the id of the
task is taken and it writes nothing. -/
theorem dispatch_cases (draws : Draws) (input : DispatchInput) (principal : PrincipalContext)
    (db : Database) :
    (draws.recordId ∈ db.tasks.map (·.id) ∧
      (drizzleTaskDispatcher draws).dispatch input principal db = (.error uniqueViolation, db)) ∨
    (draws.recordId ∉ db.tasks.map (·.id) ∧
      ∃ after, (drizzleTaskDispatcher draws).dispatch input principal db =
          (.ok ⟨newTask draws.recordId input, draws.jobId⟩, after) ∧
        after.tasks = db.tasks ++ [taskToRow draws.now (newTask draws.recordId input)
          principal.organizationId input.requiredCapabilities] ∧
        after.events = db.events ++ [eventEnvelopeToRow (taskCreated draws input principal)] ∧
        after.jobs = db.jobs ++ [dispatchJob draws input principal]) := by
  by_cases taken : draws.recordId ∈ db.tasks.map (·.id)
  · refine .inl ⟨taken, ?_⟩
    have refused : db.insertTask (taskToRow draws.now (newTask draws.recordId input)
        principal.organizationId input.requiredCapabilities) = none :=
      dif_neg (not_not_intro taken)
    simp only [drizzleTaskDispatcher, refused]
  · refine .inr ⟨taken, ?_⟩
    obtain ⟨inserted, created, tasks, events, jobs⟩ :
        ∃ after, db.insertTask (taskToRow draws.now (newTask draws.recordId input)
            principal.organizationId input.requiredCapabilities) = some after ∧
          after.tasks = db.tasks ++ [taskToRow draws.now (newTask draws.recordId input)
            principal.organizationId input.requiredCapabilities] ∧
          after.events = db.events ∧ after.jobs = db.jobs :=
      ⟨_, dif_pos taken, rfl, rfl, rfl⟩
    simp only [drizzleTaskDispatcher, created]
    exact ⟨_, rfl, tasks, congrArg (· ++ _) events, congrArg (· ++ _) jobs⟩

/-! ### In memory -/

/-- What the in-memory services hold: their maps, the events handed to the bus, and the queue. -/
structure InMemory where
  objectives : ObjectiveMap := []
  tasks : List (String × Task) := []
  published : List EventEnvelope := []
  enqueued : List JsValue := []
  seq : ℕ := 0

/-- `InMemoryObjectiveService` with the in-memory bus, whose `publish` resolves whatever its
handlers do. -/
def inMemoryObjectiveService (draws : Draws) : ObjectiveService InMemory where
  create input principal state :=
    let objective := newObjective draws.recordId input principal
    (.ok objective, { state with
      objectives := (draws.recordId, ⟨objective, principal.organizationId⟩) :: state.objectives
      published := state.published ++ [objectiveCreated draws principal] })
  get id organizationId state := .ok (state.objectives.get id organizationId)

/-- `InMemoryTaskDispatcher` over the in-memory task service and work queue. -/
def inMemoryTaskDispatcher (draws : Draws) : TaskDispatcher InMemory where
  dispatch input principal state :=
    let task := newTask draws.recordId input
    let order := buildWorkOrder task principal.organizationId input.toWorkOrderHints
    (.ok ⟨task, "mem-" ++ toString (state.seq + 1)⟩, { state with
      tasks := (draws.recordId, task) :: state.tasks
      published := state.published ++ [taskCreated draws input principal]
      enqueued := state.enqueued ++ [order]
      seq := state.seq + 1 })

end Donna
