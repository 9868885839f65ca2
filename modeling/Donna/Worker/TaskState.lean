import Donna.Db.Tasks
import Donna.Worker.Payload

/-! `TaskStateStore`: the transaction that commits the outcome of a work order to the task row, the
events and the job queue. -/

namespace Donna

open Js

/-! ### The transaction -/

/-- The task status an orchestrator outcome resolves to, before retry accounting. -/
inductive TargetStatus
  | completed
  | failed
  | awaitingApproval
  | blocked
  deriving DecidableEq

def TargetStatus.status : TargetStatus → TaskStatus
  | .completed => .completed
  | .failed => .failed
  | .awaitingApproval => .awaitingApproval
  | .blocked => .blocked

/-- `PATH_TO_TARGET`: the steps that the row walks from `pending`. -/
def pathToTarget : TargetStatus → List TaskStatus
  | .completed => [.planned, .assigned, .running, .completed]
  | .failed => [.planned, .assigned, .running, .failed]
  | .awaitingApproval => [.planned, .assigned, .running, .awaitingApproval]
  | .blocked => [.planned, .blocked]

def targetStatusForResult : WorkOrderStatus → TargetStatus
  | .completed => .completed
  | .failed => .failed
  | .approvalRequired => .awaitingApproval
  | .denied | .blocked | .budgetExceeded | .awaitingHuman => .blocked

structure CommitOutcomeInput where
  taskId : String
  organizationId : String
  result : WorkOrderResult
  events : List EventEnvelope
  order : WorkOrder
  actor : Option Actor := none

inductive SkipReason
  | notFound
  | alreadyTerminal
  | notPending
  deriving DecidableEq

inductive CommitOutcome
  | applied (status : TaskStatus) (retried : Bool)
  | skipped (reason : SkipReason)
  deriving DecidableEq

/-- What a commit draws from the platform: the ids and the clock of its event, and the clock of its
update. -/
structure Moment where
  fresh : Fresh
  updatedAt : ℤ

def walk : TaskStatus → List TaskStatus → Except IllegalTaskTransitionError TaskStatus
  | status, [] => pure status
  | status, next :: rest =>
    if !canTransition status next then throw ⟨status, next⟩ else walk next rest

def retryEvent (moment : Moment) (input : CommitOutcomeInput) (row : TaskRow) : EventEnvelope :=
  createEvent moment.fresh {
    type := .taskRetried
    organizationId := input.organizationId
    actor := input.actor.getD { type := .orchestrator, id := "worker" }
    objectiveId := some row.objectiveId
    taskId := some input.taskId }

/-- The job of a retry: the same order, under the id of the task. -/
def retryJob (input : CommitOutcomeInput) : AddJob where
  identifier := executeWorkOrderTask
  payload := input.order.toJs.jsonClone
  jobKey := input.taskId

def retries (input : CommitOutcomeInput) (row : TaskRow) : Bool :=
  targetStatusForResult input.result.status == .failed && decide (row.retryCount < row.maxRetries)

/-- The body of the transaction on the row that it locked. -/
def commitRow (moment : Moment) (input : CommitOutcomeInput) (row : TaskRow) (db : Database) :
    Except IllegalTaskTransitionError (CommitOutcome × Database) := do
  let traced := db.insertEvents (input.events.map eventEnvelopeToRow)
  let reached ← walk row.status (pathToTarget (targetStatusForResult input.result.status))
  if retries input row then
    if !canTransition reached .pending then throw ⟨reached, .pending⟩
    else
      let updated := traced.updateTask input.taskId input.organizationId .pending
        (row.retryCount + 1) moment.updatedAt
      let retried := updated.insertEvents [eventEnvelopeToRow (retryEvent moment input row)]
      pure (.applied .pending true, retried.addJob (retryJob input))
  else
    pure (.applied reached false, traced.updateTask input.taskId input.organizationId reached
      row.retryCount moment.updatedAt)

def commitTransaction (moment : Moment) (input : CommitOutcomeInput) (db : Database) :
    Except IllegalTaskTransitionError (CommitOutcome × Database) :=
  match db.selectTask input.taskId input.organizationId with
  | none => pure (.skipped .notFound, db)
  | some row =>
    -- Redelivery of an already-finished job: never re-transition or re-write.
    if isTerminalTaskStatus row.status then pure (.skipped .alreadyTerminal, db)
    else if row.status ≠ .pending then pure (.skipped .notPending, db)
    else commitRow moment input row db

/-- Persist the outcome of a work order; a transaction that throws leaves the database as it was. -/
def commitOutcome (moment : Moment) (input : CommitOutcomeInput) (db : Database) :
    Except IllegalTaskTransitionError CommitOutcome × Database :=
  match commitTransaction moment input db with
  | .ok (outcome, committed) => (.ok outcome, committed)
  | .error error => (.error error, db)

/-! ### What a commit does -/

section Specs

variable {db : Database} {row : TaskRow} {taskId organizationId : String} {moment : Moment}
  {input : CommitOutcomeInput}

theorem walk_pathToTarget (target : TargetStatus) :
    walk .pending (pathToTarget target) = .ok target.status := by
  cases target <;> rfl

def committedStatus (input : CommitOutcomeInput) (row : TaskRow) : TaskStatus :=
  if retries input row then .pending else (targetStatusForResult input.result.status).status

def committedRow (moment : Moment) (input : CommitOutcomeInput) (row : TaskRow) : TaskRow :=
  { row with
    status := committedStatus input row
    retryCount := if retries input row then row.retryCount + 1 else row.retryCount
    updatedAt := moment.updatedAt }

def committedEvents (moment : Moment) (input : CommitOutcomeInput) (row : TaskRow) :
    List EventRow :=
  input.events.map eventEnvelopeToRow ++
    if retries input row then [eventEnvelopeToRow (retryEvent moment input row)] else []

def committedJobs (input : CommitOutcomeInput) (row : TaskRow) : List AddJob :=
  if retries input row then [retryJob input] else []

/-- The database after a commit on a pending row. -/
structure Committed (moment : Moment) (input : CommitOutcomeInput) (row : TaskRow)
    (before after : Database) : Prop where
  tasks : after.tasks = before.tasks.map fun other =>
    if other.id = row.id then committedRow moment input row else other
  events : after.events = before.events ++ committedEvents moment input row
  jobs : after.jobs = before.jobs ++ committedJobs input row

/-- On a pending row of the database the body of the transaction commits the outcome. -/
theorem commitRow_spec (moment : Moment) (listed : row ∈ db.tasks) (hId : row.id = input.taskId)
    (hOrganization : row.organizationId = input.organizationId) (pending : row.status = .pending) :
    ∃ after, commitRow moment input row db =
        .ok (.applied (committedStatus input row) (retries input row), after) ∧
      Committed moment input row db after := by
  have update : ∀ {traced : Database} {status retryCount updatedAt}, traced.tasks = db.tasks →
      (traced.updateTask input.taskId input.organizationId status retryCount updatedAt).tasks =
        db.tasks.map fun other => if other.id = row.id then
          { row with status := status, retryCount := retryCount, updatedAt := updatedAt }
        else other := by
    intro traced status retryCount updatedAt same
    rw [← hId, ← hOrganization, Database.updateTask_tasks (same ▸ listed), same]
  unfold commitRow
  rw [pending, walk_pathToTarget]
  cases retry : retries input row with
  | true =>
    have failed : targetStatusForResult input.result.status = .failed := by
      simp only [retries, Bool.and_eq_true, beq_iff_eq] at retry
      exact retry.1
    have status : committedStatus input row = .pending := by simp [committedStatus, retry]
    rw [failed, status]
    refine ⟨_, rfl, ?_, ?_, ?_⟩
    · simp only [Database.addJob, Database.insertEvents, committedRow, status, retry, if_true]
      exact update rfl
    · simp [Database.addJob, Database.insertEvents, Database.updateTask, committedEvents, retry]
    · simp [Database.addJob, Database.insertEvents, Database.updateTask, committedJobs, retry]
  | false =>
    have status :
        committedStatus input row = (targetStatusForResult input.result.status).status := by
      simp [committedStatus, retry]
    rw [status]
    refine ⟨_, rfl, ?_, ?_, ?_⟩
    · simp only [committedRow, status, retry, Bool.false_eq_true, if_false]
      exact update rfl
    · simp [Database.insertEvents, Database.updateTask, committedEvents, retry]
    · simp [Database.insertEvents, Database.updateTask, committedJobs, retry]

/-- A commit skips and changes nothing, or the row is pending and it commits the outcome; it never
throws. -/
theorem commitOutcome_cases (moment : Moment) (input : CommitOutcomeInput) (db : Database) :
    (∃ reason, commitOutcome moment input db = (.ok (.skipped reason), db) ∧
      ∀ row ∈ db.tasks, row.id = input.taskId → row.organizationId = input.organizationId →
        row.status ≠ .pending) ∨
    ∃ row ∈ db.tasks, row.id = input.taskId ∧ row.organizationId = input.organizationId ∧
      row.status = .pending ∧
      (commitOutcome moment input db).1 =
        .ok (.applied (committedStatus input row) (retries input row)) ∧
      Committed moment input row db (commitOutcome moment input db).2 := by
  unfold commitOutcome commitTransaction
  cases found : db.selectTask input.taskId input.organizationId with
  | none =>
    refine .inl ⟨.notFound, rfl, fun row listed hId hOrganization => ?_⟩
    rw [Database.selectTask_eq_some.mpr ⟨listed, hId, hOrganization⟩] at found
    cases found
  | some row =>
    obtain ⟨listed, hId, hOrganization⟩ := Database.selectTask_eq_some.mp found
    -- A row that is not pending is the only one the call could commit.
    have others : row.status ≠ .pending → ∀ other ∈ db.tasks, other.id = input.taskId →
        other.organizationId = input.organizationId → other.status ≠ .pending := by
      intro notPending other hOther hSame _
      rwa [db.eq_of_id hOther listed (hSame.trans hId.symm)]
    dsimp only
    by_cases terminal : isTerminalTaskStatus row.status
    · refine .inl ⟨.alreadyTerminal, by simp [terminal], others ?_⟩
      rintro pending
      rw [pending] at terminal
      cases terminal
    · rw [if_neg terminal]
      by_cases pending : row.status = .pending
      · obtain ⟨after, committed, hAfter⟩ :=
          commitRow_spec moment listed hId hOrganization pending
        rw [if_neg (not_not_intro pending), committed]
        exact .inr ⟨row, listed, hId, hOrganization, pending, rfl, hAfter⟩
      · exact .inl ⟨.notPending, by simp [pending], others pending⟩

end Specs

end Donna
