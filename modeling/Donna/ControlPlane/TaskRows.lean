import Donna.ControlPlane.Dispatch

/-! The mappers between the domain's tasks and the `tasks` table.  The insert names the columns that
it sets, the schema fills the others, and the select reads a task back.  The columns that neither
mapper names (risk level, approval policy, lease, heartbeat, checkpoint, creation time) are left
out. -/

namespace Donna

/-- The values of an insert, with the columns that it may leave out. -/
structure TaskInsert where
  id : String
  organizationId : String
  objectiveId : String
  parentTaskId : Option String := none
  goal : String
  definitionOfDone : String
  status : Option TaskStatus := none
  executionClass : Option ExecutionClass := none
  requiredCapabilities : Option (List String) := none
  requiredAuthority : Option AuthorityLevel := none
  idempotencyKey : Option String := none
  retryCount : Option ℤ := none
  maxRetries : Option ℤ := none
  deriving DecidableEq

/-- The row that an insert stores: a column that it leaves out is NULL or has its default. -/
def TaskInsert.stored (now : ℤ) (insert : TaskInsert) : TaskRow where
  id := insert.id
  organizationId := insert.organizationId
  objectiveId := insert.objectiveId
  parentTaskId := insert.parentTaskId
  goal := insert.goal
  definitionOfDone := insert.definitionOfDone
  status := insert.status.getD .pending
  executionClass := insert.executionClass
  requiredCapabilities := insert.requiredCapabilities.getD []
  requiredAuthority := insert.requiredAuthority.getD .observe
  idempotencyKey := insert.idempotencyKey
  retryCount := insert.retryCount.getD 0
  maxRetries := insert.maxRetries.getD 3
  updatedAt := now

/-- What the source's `taskToRow` hands to the insert. -/
def taskToInsert (task : Task) (organizationId : String) (requiredCapabilities : List String) :
    TaskInsert where
  id := task.id
  organizationId := organizationId
  objectiveId := task.objectiveId
  goal := task.goal
  definitionOfDone := task.definitionOfDone
  status := some task.status
  requiredAuthority := some task.requiredAuthority
  requiredCapabilities := some requiredCapabilities
  retryCount := some task.retryCount
  maxRetries := some task.maxRetries
  executionClass := task.executionClass
  idempotencyKey := task.idempotencyKey

/-- Map a `tasks` row back to the domain's task. -/
def rowToTask (row : TaskRow) : Task where
  id := row.id
  objectiveId := row.objectiveId
  goal := row.goal
  definitionOfDone := row.definitionOfDone
  status := row.status
  requiredAuthority := row.requiredAuthority
  retryCount := row.retryCount
  maxRetries := row.maxRetries
  executionClass := row.executionClass
  parentTaskId := row.parentTaskId
  -- Not read from the row, which has it.
  idempotencyKey := none

variable (now : ℤ) (task : Task) (organizationId : String) (requiredCapabilities : List String)

/-- The row of the dispatcher is the one that the insert stores. -/
example : taskToRow now task organizationId requiredCapabilities =
    (taskToInsert task organizationId requiredCapabilities).stored now := rfl

/-- A task comes back without its idempotency key, which is not read, and without its parent, which
is not written. -/
theorem rowToTask_stored :
    rowToTask ((taskToInsert task organizationId requiredCapabilities).stored now) =
      { task with idempotencyKey := none, parentTaskId := none } := rfl

/-- A task comes back as it was exactly when it has neither an idempotency key nor a parent. -/
theorem rowToTask_stored_eq_iff :
    rowToTask ((taskToInsert task organizationId requiredCapabilities).stored now) = task ↔
      task.idempotencyKey = none ∧ task.parentTaskId = none := by
  rw [rowToTask_stored]
  constructor
  · intro same
    have key := congrArg Task.idempotencyKey same
    have parent := congrArg Task.parentTaskId same
    exact ⟨key.symm, parent.symm⟩
  · rintro ⟨key, parent⟩
    obtain ⟨_, _, _, _, _, _, _, _, _, _, _⟩ := task
    dsimp only at key parent
    rw [key, parent]

/-- A side-effecting task of a parent comes back without its key and without its parent. -/
theorem rowToTask_stored_forgets :
    let task : Task :=
      ⟨"t", "o", some "p", "goal", "done", .running, none, .prepare, some "k", 0, 3⟩
    rowToTask ((taskToInsert task "org" []).stored 0) ≠ task := by
  decide

end Donna
