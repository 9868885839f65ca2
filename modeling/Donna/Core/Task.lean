import Mathlib.Tactic.Common
import Donna.Core.Domain

/-! The durable task and its state machine. -/

namespace Donna

inductive TaskStatus
  | pending
  | planned
  | assigned
  | running
  | blocked
  | awaitingApproval
  | checking
  | completed
  | failed
  | cancelled
  deriving DecidableEq

def TaskStatus.name : TaskStatus → String
  | .pending => "pending"
  | .planned => "planned"
  | .assigned => "assigned"
  | .running => "running"
  | .blocked => "blocked"
  | .awaitingApproval => "awaiting_approval"
  | .checking => "checking"
  | .completed => "completed"
  | .failed => "failed"
  | .cancelled => "cancelled"

def terminalTaskStatuses : List TaskStatus := [.completed, .cancelled]

def isTerminalTaskStatus (status : TaskStatus) : Bool := terminalTaskStatuses.contains status

/-- `ALLOWED_TRANSITIONS`. -/
def allowedTransitions : TaskStatus → List TaskStatus
  | .pending => [.planned, .cancelled]
  | .planned => [.assigned, .blocked, .cancelled]
  | .assigned => [.running, .blocked, .cancelled]
  | .running => [.checking, .awaitingApproval, .blocked, .completed, .failed, .cancelled]
  | .blocked => [.assigned, .running, .failed, .cancelled]
  | .awaitingApproval => [.running, .failed, .cancelled]
  | .checking => [.completed, .running, .failed]
  | .completed => []
  | .failed => [.pending, .cancelled]
  | .cancelled => []

def canTransition (source target : TaskStatus) : Bool :=
  (allowedTransitions source).contains target

structure IllegalTaskTransitionError where
  source : TaskStatus
  target : TaskStatus
  deriving DecidableEq

structure Task where
  id : String
  objectiveId : String
  parentTaskId : Option String
  goal : String
  definitionOfDone : String
  status : TaskStatus
  executionClass : Option ExecutionClass
  requiredAuthority : AuthorityLevel
  idempotencyKey : Option String
  retryCount : ℤ
  maxRetries : ℤ
  deriving DecidableEq

/-- Apply a status transition.  A retry counts, and is refused once the retries are used up. -/
def transition (task : Task) (target : TaskStatus) : Except IllegalTaskTransitionError Task :=
  if !canTransition task.status target then
    throw ⟨task.status, target⟩
  else
    let isRetry := task.status == .failed && target == .pending
    if isRetry && decide (task.maxRetries ≤ task.retryCount) then
      throw ⟨task.status, target⟩
    else
      pure { task with
        status := target
        retryCount := if isRetry then task.retryCount + 1 else task.retryCount }

end Donna
