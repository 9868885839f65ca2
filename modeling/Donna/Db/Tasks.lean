import Mathlib.Data.List.Nodup
import Donna.Core.Task

/-! The tables of the database that the task queue rests on: the rows of `tasks` under their primary
key, the events table, and the calls that fill the job queue. -/

namespace Donna

open Js

/-- The columns of a `tasks` row that the services read or write. -/
structure TaskRow where
  id : String
  organizationId : String
  objectiveId : String
  parentTaskId : Option String
  goal : String
  definitionOfDone : String
  status : TaskStatus
  executionClass : Option ExecutionClass
  requiredCapabilities : List String
  requiredAuthority : AuthorityLevel
  idempotencyKey : Option String
  retryCount : ℤ
  maxRetries : ℤ
  updatedAt : ℤ
  deriving DecidableEq

/-- A call of `graphile_worker.add_job`: a job replaces an earlier one with its key. -/
structure AddJob where
  identifier : String
  payload : JsValue
  jobKey : String

/-- The task rows with their primary key, the events table in the order of its inserts, and the
calls that filled the job queue. -/
structure Database where
  tasks : List TaskRow
  events : List EventRow
  jobs : List AddJob
  primaryKey : (tasks.map (·.id)).Nodup

namespace Database

def insertTask (db : Database) (row : TaskRow) : Option Database :=
  if fresh : row.id ∉ db.tasks.map (·.id) then
    some {
      tasks := db.tasks ++ [row]
      events := db.events
      jobs := db.jobs
      primaryKey := by
        rw [List.map_append, List.nodup_append]
        refine ⟨db.primaryKey, by simp, ?_⟩
        rintro id listed other hOther rfl
        obtain rfl := List.mem_singleton.mp hOther
        exact fresh listed }
  else none

def selectTask (db : Database) (taskId organizationId : String) : Option TaskRow :=
  db.tasks.find? fun row => row.id = taskId ∧ row.organizationId = organizationId

/-- Set the status and the retry count of the row under an id in an organization. -/
def updateTask (db : Database) (taskId organizationId : String) (status : TaskStatus)
    (retryCount updatedAt : ℤ) : Database where
  tasks := db.tasks.map fun row =>
    if row.id = taskId ∧ row.organizationId = organizationId then
      { row with status := status, retryCount := retryCount, updatedAt := updatedAt }
    else row
  events := db.events
  jobs := db.jobs
  primaryKey := by
    have keeps : ∀ row : TaskRow, (if row.id = taskId ∧ row.organizationId = organizationId then
        { row with status := status, retryCount := retryCount, updatedAt := updatedAt }
      else row).id = row.id := by
      intro row
      split <;> rfl
    simpa only [List.map_map, Function.comp_def, keeps] using db.primaryKey

def insertEvents (db : Database) (rows : List EventRow) : Database :=
  { db with events := db.events ++ rows }

def addJob (db : Database) (job : AddJob) : Database := { db with jobs := db.jobs ++ [job] }

end Database

section Specs

variable {db : Database} {row : TaskRow} {taskId organizationId : String}

theorem Database.insertTask_tasks {after : Database} (inserted : db.insertTask row = some after) :
    after.tasks = db.tasks ++ [row] := by
  unfold insertTask at inserted
  split at inserted
  · cases inserted
    rfl
  · cases inserted

theorem Database.insertTask_jobs {after : Database} (inserted : db.insertTask row = some after) :
    after.jobs = db.jobs := by
  unfold insertTask at inserted
  split at inserted
  · cases inserted
    rfl
  · cases inserted

/-- The primary key makes a row the only one under its id. -/
theorem Database.eq_of_id {other : TaskRow} (h : row ∈ db.tasks) (h' : other ∈ db.tasks)
    (same : row.id = other.id) : row = other :=
  List.inj_on_of_nodup_map db.primaryKey h h' same

theorem Database.selectTask_eq_some :
    db.selectTask taskId organizationId = some row ↔
      row ∈ db.tasks ∧ row.id = taskId ∧ row.organizationId = organizationId := by
  constructor
  · intro found
    have matches_ := List.find?_some found
    simp only [Bool.decide_and, Bool.and_eq_true, decide_eq_true_eq] at matches_
    exact ⟨List.mem_of_find?_eq_some found, matches_⟩
  · rintro ⟨listed, rfl, rfl⟩
    cases found : db.selectTask row.id row.organizationId with
    | none => simpa using List.find?_eq_none.mp found row listed
    | some other =>
      have matches_ := List.find?_some found
      simp only [Bool.decide_and, Bool.and_eq_true, decide_eq_true_eq] at matches_
      rw [db.eq_of_id (List.mem_of_find?_eq_some found) listed matches_.1]

theorem Database.updateTask_tasks (listed : row ∈ db.tasks) {status : TaskStatus}
    {retryCount updatedAt : ℤ} :
    (db.updateTask row.id row.organizationId status retryCount updatedAt).tasks =
      db.tasks.map fun other => if other.id = row.id then
        { row with status := status, retryCount := retryCount, updatedAt := updatedAt }
      else other := by
  refine List.map_congr_left fun other hOther => ?_
  by_cases same : other.id = row.id
  · obtain rfl := db.eq_of_id hOther listed same
    simp
  · simp [same]

end Specs

end Donna
