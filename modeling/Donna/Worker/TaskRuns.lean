import Donna.Base.Machine
import Donna.Worker.TaskState

/-! Runs of commits on one database, with redeliveries and calls for other tasks in any order.  The
retry count of a task, the retry events in the log and the jobs in the queue rise together, and the
retries that a task has left bound how often a commit can be applied to it. -/

namespace Donna

open Machine

/-- A call of `commitOutcome`, with the moment at which it commits. -/
structure CommitCall where
  moment : Moment
  input : CommitOutcomeInput

def commitStep (db : Database) (call : CommitCall) :
    Except IllegalTaskTransitionError CommitOutcome × Database :=
  commitOutcome call.moment call.input db

abbrev Commit := Visit Database CommitCall (Except IllegalTaskTransitionError CommitOutcome)

def wasApplied (commit : Commit) : Bool :=
  match commit.output with
  | .ok (.applied _ _) => true
  | _ => false

def wasRetried (commit : Commit) : Bool :=
  match commit.output with
  | .ok (.applied _ retried) => retried
  | _ => false

def isFor (id : String) (commit : Commit) : Bool := commit.input.input.taskId == id

def Database.task (db : Database) (id : String) : Option TaskRow :=
  db.tasks.find? fun row => row.id = id

/-- The retry events of a task in a log. -/
def retryEvents (id : String) (rows : List EventRow) : ℕ :=
  rows.countP fun row => row.type == .taskRetried && row.taskId == some id

/-- The jobs that were queued for a task. -/
def enqueues (id : String) (jobs : List AddJob) : ℕ :=
  jobs.countP fun job => job.identifier == executeWorkOrderTask && job.jobKey == id

/-- The retry events of a task in the trace that an applied call carries. -/
def bufferedRetryEvents (id : String) (commit : Commit) : ℕ :=
  if wasApplied commit then retryEvents id (commit.input.input.events.map eventEnvelopeToRow) else 0

structure CommitCorrect (commit : Commit) : Prop where
  returns : ∃ outcome, commit.output = .ok outcome
  applied_iff : wasApplied commit = true ↔
    ∃ task ∈ commit.before.tasks, task.id = commit.input.input.taskId ∧
      task.organizationId = commit.input.input.organizationId ∧ task.status = .pending
  unapplied : wasApplied commit = false → commit.after = commit.before
  events : wasApplied commit = true →
    ∃ task ∈ commit.before.tasks, task.id = commit.input.input.taskId ∧
      commit.after.events = commit.before.events ++
        (commit.input.input.events.map eventEnvelopeToRow ++ if wasRetried commit then
          [eventEnvelopeToRow (retryEvent commit.input.moment commit.input.input task)] else [])
  jobs : wasApplied commit = true → commit.after.jobs =
    commit.before.jobs ++ if wasRetried commit then [retryJob commit.input.input] else []
  others : ∀ id, isFor id commit = false → commit.after.task id = commit.before.task id

def retriedCalls (id : String) (commits : List Commit) : ℕ :=
  commits.countP fun commit => isFor id commit && wasRetried commit

def appliedCalls (id : String) (commits : List Commit) : ℕ :=
  commits.countP fun commit => isFor id commit && wasApplied commit

/-- What holds of a run of commits on a database with `row` in it. -/
structure CommitRun (row : TaskRow) (db : Database) (calls : List CommitCall) : Prop where
  correct : ∀ commit ∈ visits commitStep db calls, CommitCorrect commit
  /-- The retry count rises by the number of retried calls, -/
  retryCount : ∃ last, (final commitStep db calls).task row.id = some last ∧
    last.retryCount = row.retryCount + retriedCalls row.id (visits commitStep db calls)
  /-- and so do the retry events beyond those in the buffered traces, -/
  retryEvents : (retryEvents row.id (final commitStep db calls).events : ℤ) =
    retryEvents row.id db.events +
      ((visits commitStep db calls).map fun commit => (bufferedRetryEvents row.id commit : ℤ)).sum +
      retriedCalls row.id (visits commitStep db calls)
  /-- and the jobs. -/
  enqueues : (enqueues row.id (final commitStep db calls).jobs : ℤ) =
    enqueues row.id db.jobs + retriedCalls row.id (visits commitStep db calls)
  bounded : ∀ commit ∈ visits commitStep db calls, ∃ current,
    commit.after.task row.id = some current ∧
      current.retryCount ≤ max row.retryCount row.maxRetries
  applications : (appliedCalls row.id (visits commitStep db calls) : ℤ) ≤
    max 0 (row.maxRetries - row.retryCount) + 1
  /-- After an applied call that did not retry, no call is applied and the row stays. -/
  settled : ∀ before commit after, visits commitStep db calls = before ++ commit :: after →
    isFor row.id commit = true → wasApplied commit = true → wasRetried commit = false →
    (∀ later ∈ after, isFor row.id later = true → wasApplied later = false) ∧
      (final commitStep db calls).task row.id = commit.after.task row.id

section Steps

variable {db : Database} {call : CommitCall} {id : String} {row : TaskRow}

theorem Database.task_eq_some : db.task id = some row ↔ row ∈ db.tasks ∧ row.id = id := by
  constructor
  · intro found
    exact ⟨List.mem_of_find?_eq_some found, by simpa using List.find?_some found⟩
  · rintro ⟨listed, rfl⟩
    cases found : db.task row.id with
    | none => simpa using List.find?_eq_none.mp found row listed
    | some other =>
      have same : other.id = row.id := by simpa using List.find?_some found
      rw [db.eq_of_id (List.mem_of_find?_eq_some found) listed same]

theorem Committed.task_eq {moment : Moment} {input : CommitOutcomeInput} {after : Database}
    (committed : Committed moment input row db after) (listed : row ∈ db.tasks) :
    after.task id = if id = row.id then some (committedRow moment input row) else db.task id := by
  have keeps : ∀ other : TaskRow,
      (if other.id = row.id then committedRow moment input row else other).id = other.id := by
    intro other
    split
    · rename_i same
      exact same.symm
    · rfl
  have found : after.task id = (db.task id).map fun other =>
      if other.id = row.id then committedRow moment input row else other := by
    simp only [Database.task, committed.tasks, List.find?_map, Function.comp_def, keeps]
  rw [found]
  by_cases here : id = row.id
  · subst here
    rw [Database.task_eq_some.mpr ⟨listed, rfl⟩]
    simp
  · rw [if_neg here]
    cases other : db.task id with
    | none => rfl
    | some task =>
      have hTask := (Database.task_eq_some.mp other).2
      rw [Option.map_some, if_neg (hTask ▸ here)]

theorem visit_cases (db : Database) (call : CommitCall) :
    (wasApplied (visit commitStep db call) = false ∧ wasRetried (visit commitStep db call) = false ∧
      (∃ outcome, (visit commitStep db call).output = .ok outcome) ∧
      (commitStep db call).2 = db ∧
      ∀ row ∈ db.tasks, row.id = call.input.taskId →
        row.organizationId = call.input.organizationId → row.status ≠ .pending) ∨
    ∃ row ∈ db.tasks, row.id = call.input.taskId ∧
      row.organizationId = call.input.organizationId ∧ row.status = .pending ∧
      wasApplied (visit commitStep db call) = true ∧
      wasRetried (visit commitStep db call) = retries call.input row ∧
      (∃ outcome, (visit commitStep db call).output = .ok outcome) ∧
      Committed call.moment call.input row db (commitStep db call).2 := by
  rcases commitOutcome_cases call.moment call.input db with
    ⟨reason, skipped, unmatched⟩ | ⟨row, listed, hId, hOrganization, pending, output, committed⟩
  · have output : (visit commitStep db call).output = .ok (.skipped reason) :=
      congrArg Prod.fst skipped
    refine .inl ⟨by simp [wasApplied, output], by simp [wasRetried, output], ⟨_, output⟩,
      congrArg Prod.snd skipped, unmatched⟩
  · have output : (visit commitStep db call).output =
        .ok (.applied (committedStatus call.input row) (retries call.input row)) := output
    exact .inr ⟨row, listed, hId, hOrganization, pending, by simp [wasApplied, output],
      by simp [wasRetried, output], ⟨_, output⟩, committed⟩

theorem task_of_applied (called : isFor id (visit commitStep db call) = true)
    (applied : wasApplied (visit commitStep db call) = true) :
    ∃ row, db.task id = some row ∧ row.status = .pending ∧
      wasRetried (visit commitStep db call) = retries call.input row ∧
      (commitStep db call).2.task id = some (committedRow call.moment call.input row) := by
  have same : call.input.taskId = id := by simpa [isFor, visit] using called
  rcases visit_cases db call with
    ⟨skipped, -⟩ | ⟨row, listed, hId, -, pending, -, retried, -, committed⟩
  · rw [skipped] at applied
    cases applied
  · have hRow := hId.trans same
    refine ⟨row, Database.task_eq_some.mpr ⟨listed, hRow⟩, pending, retried, ?_⟩
    rw [committed.task_eq listed, if_pos hRow.symm]

theorem task_of_unapplied (other : (isFor id (visit commitStep db call) &&
    wasApplied (visit commitStep db call)) = false) :
    (commitStep db call).2.task id = db.task id := by
  rcases visit_cases db call with
    ⟨-, -, -, same, -⟩ | ⟨row, listed, hId, -, -, applied, -, -, committed⟩
  · rw [same]
  · have elsewhere : ¬ id = row.id := by
      rintro rfl
      have called : isFor row.id (visit commitStep db call) = true := by simp [isFor, visit, hId]
      simp [called, applied] at other
    rw [committed.task_eq listed, if_neg elsewhere]

theorem applied_of_retried (retried : wasRetried (visit commitStep db call) = true) :
    wasApplied (visit commitStep db call) = true := by
  rcases visit_cases db call with ⟨-, skipped, -⟩ | ⟨row, -, -, -, -, applied, -⟩
  · rw [skipped] at retried
    cases retried
  · exact applied

theorem visit_correct (db : Database) (call : CommitCall) :
    CommitCorrect (visit commitStep db call) := by
  have others : ∀ id, isFor id (visit commitStep db call) = false →
      (commitStep db call).2.task id = db.task id :=
    fun id elsewhere => task_of_unapplied (by rw [elsewhere, Bool.false_and])
  rcases visit_cases db call with
    ⟨skipped, -, returned, same, unmatched⟩ |
    ⟨task, listed, hId, hOrganization, pending, applied, retried, returned, committed⟩
  · refine ⟨returned, iff_of_false (by simp [skipped]) ?_, fun _ => same, ?_, ?_, others⟩
    · rintro ⟨task, listed, hId, hOrganization, pending⟩
      exact unmatched task listed hId hOrganization pending
    all_goals
      intro applied
      rw [skipped] at applied
      cases applied
  · refine ⟨returned, iff_of_true applied ⟨task, listed, hId, hOrganization, pending⟩, ?_, ?_, ?_,
      others⟩
    · intro unapplied
      rw [applied] at unapplied
      cases unapplied
    · intro _
      refine ⟨task, listed, hId, ?_⟩
      rw [retried]
      exact committed.events
    · intro _
      rw [retried]
      exact committed.jobs

theorem retryEvents_append (left right : List EventRow) :
    retryEvents id (left ++ right) = retryEvents id left + retryEvents id right :=
  List.countP_append

theorem enqueues_append (left right : List AddJob) :
    enqueues id (left ++ right) = enqueues id left + enqueues id right :=
  List.countP_append

theorem retryEvents_commitStep :
    (retryEvents id (commitStep db call).2.events : ℤ) = retryEvents id db.events +
      (bufferedRetryEvents id (visit commitStep db call) +
        if isFor id (visit commitStep db call) && wasRetried (visit commitStep db call) then 1
        else 0) := by
  rcases visit_cases db call with
    ⟨skipped, unretried, -, same, -⟩ | ⟨row, listed, hId, -, -, applied, retried, -, committed⟩
  · simp [same, bufferedRetryEvents, skipped, unretried]
  · rw [committed.events, retryEvents_append, committedEvents, retryEvents_append, retried,
      bufferedRetryEvents, if_pos applied]
    cases retries call.input row with
    | false => simp [retryEvents, visit]
    | true =>
      by_cases here : call.input.taskId = id
      · simp [retryEvents, retryEvent, createEvent, eventEnvelopeToRow, isFor, visit, here]
      · simp [retryEvents, retryEvent, createEvent, eventEnvelopeToRow, isFor, visit, here]

theorem enqueues_commitStep :
    (enqueues id (commitStep db call).2.jobs : ℤ) = enqueues id db.jobs +
      if isFor id (visit commitStep db call) && wasRetried (visit commitStep db call) then 1
      else 0 := by
  rcases visit_cases db call with
    ⟨skipped, unretried, -, same, -⟩ | ⟨row, listed, hId, -, -, applied, retried, -, committed⟩
  · simp [same, unretried]
  · rw [committed.jobs, enqueues_append, committedJobs, retried]
    cases retries call.input row with
    | false => simp [enqueues]
    | true =>
      by_cases here : call.input.taskId = id
      · simp [enqueues, retryJob, isFor, visit, here]
      · simp [enqueues, retryJob, isFor, visit, here]

end Steps

/-! ### What every call keeps -/

/-- The row is in the database, with its limit, and its retry count is within bounds. -/
def Tracked (row : TaskRow) (db : Database) : Prop :=
  ∃ current, db.task row.id = some current ∧ current.maxRetries = row.maxRetries ∧
    current.retryCount ≤ max row.retryCount row.maxRetries

/-- The row has left `pending`. -/
def Settled (row : TaskRow) (db : Database) : Prop :=
  db.task row.id = some row ∧ row.status ≠ .pending

def retryCountOf (id : String) (db : Database) : ℤ := ((db.task id).map (·.retryCount)).getD 0

/-- How often a commit can still be applied to a task: once, and once more for each retry left. -/
def applicationsLeft (id : String) (db : Database) : ℕ :=
  match db.task id with
  | some row => if row.status = .pending then (row.maxRetries - row.retryCount).toNat + 1 else 0
  | none => 0

section Kept

variable {db : Database} {call : CommitCall} {id : String} {row : TaskRow}

theorem lt_of_retries {input : CommitOutcomeInput} (retry : retries input row = true) :
    row.retryCount < row.maxRetries := by
  simp only [retries, Bool.and_eq_true, decide_eq_true_eq] at retry
  exact retry.2

theorem Tracked.step (tracked : Tracked row db) (call : CommitCall) :
    Tracked row (commitStep db call).2 := by
  obtain ⟨current, found, limit, bound⟩ := tracked
  cases hits : isFor row.id (visit commitStep db call) &&
      wasApplied (visit commitStep db call) with
  | false => exact ⟨current, by rw [task_of_unapplied hits, found], limit, bound⟩
  | true =>
    obtain ⟨called, applied⟩ := (Bool.and_eq_true _ _).mp hits
    obtain ⟨committed, hFound, -, -, hAfter⟩ := task_of_applied called applied
    obtain rfl : current = committed := Option.some.inj (found.symm.trans hFound)
    refine ⟨_, hAfter, limit, ?_⟩
    unfold committedRow
    cases retry : retries call.input current with
    | false => simpa using bound
    | true =>
      have room := lt_of_retries retry
      simp only [if_true]
      omega

theorem retryCountOf_commitStep (tracked : Tracked row db) :
    retryCountOf row.id (commitStep db call).2 = retryCountOf row.id db +
      if isFor row.id (visit commitStep db call) && wasRetried (visit commitStep db call) then 1
      else 0 := by
  obtain ⟨current, found, -, -⟩ := tracked
  cases hits : isFor row.id (visit commitStep db call) &&
      wasApplied (visit commitStep db call) with
  | false =>
    have unretried : (isFor row.id (visit commitStep db call) &&
        wasRetried (visit commitStep db call)) = false := by
      by_contra h
      obtain ⟨called, retried⟩ := (Bool.and_eq_true _ _).mp (Bool.not_eq_false _ ▸ h)
      simp [called, applied_of_retried retried] at hits
    rw [retryCountOf, task_of_unapplied hits, unretried]
    simp [retryCountOf]
  | true =>
    obtain ⟨called, applied⟩ := (Bool.and_eq_true _ _).mp hits
    obtain ⟨committed, hFound, -, retried, hAfter⟩ := task_of_applied called applied
    rw [retryCountOf, hAfter, retryCountOf, hFound, called, retried, Bool.true_and]
    unfold committedRow
    cases retries call.input committed <;> simp

theorem applicationsLeft_commitStep (tracked : Tracked row db) :
    applicationsLeft row.id (commitStep db call).2 +
        (if isFor row.id (visit commitStep db call) && wasApplied (visit commitStep db call) then 1
          else 0) ≤ applicationsLeft row.id db := by
  obtain ⟨current, found, -, -⟩ := tracked
  cases hits : isFor row.id (visit commitStep db call) &&
      wasApplied (visit commitStep db call) with
  | false => simp [applicationsLeft, task_of_unapplied hits]
  | true =>
    obtain ⟨called, applied⟩ := (Bool.and_eq_true _ _).mp hits
    obtain ⟨committed, hFound, pending, -, hAfter⟩ := task_of_applied called applied
    simp only [applicationsLeft, hAfter, hFound, pending, if_true]
    unfold committedRow committedStatus
    cases retry : retries call.input committed with
    | true =>
      have room := lt_of_retries retry
      simp only [if_true]
      omega
    | false =>
      have moved : (targetStatusForResult call.input.result.status).status ≠ .pending := by
        cases targetStatusForResult call.input.result.status <;> decide
      simp only [Bool.false_eq_true, if_false, if_neg moved]
      omega

theorem Settled.step (settled : Settled row db) (call : CommitCall) :
    (isFor row.id (visit commitStep db call) = true →
      wasApplied (visit commitStep db call) = false) ∧ Settled row (commitStep db call).2 := by
  obtain ⟨found, moved⟩ := settled
  have unapplied : isFor row.id (visit commitStep db call) = true →
      wasApplied (visit commitStep db call) = false := by
    intro called
    by_contra applied
    obtain ⟨committed, hFound, pending, -⟩ := task_of_applied called (by simpa using applied)
    obtain rfl : row = committed := Option.some.inj (found.symm.trans hFound)
    exact moved pending
  refine ⟨unapplied, ?_, moved⟩
  rw [task_of_unapplied, found]
  cases called : isFor row.id (visit commitStep db call) with
  | false => rfl
  | true => rw [unapplied called, Bool.and_false]

end Kept

theorem committedRow_ne_pending {moment : Moment} {input : CommitOutcomeInput} {row : TaskRow}
    (unretried : retries input row = false) :
    (committedRow moment input row).status ≠ .pending := by
  simp only [committedRow, committedStatus, unretried, Bool.false_eq_true, if_false]
  cases targetStatusForResult input.result.status <;> decide

/-- From a settled row on, no call is applied to it and it stays. -/
theorem Settled.run {row : TaskRow} {db : Database} (settled : Settled row db)
    (calls : List CommitCall) :
    (∀ commit ∈ visits commitStep db calls, isFor row.id commit = true →
      wasApplied commit = false) ∧ (final commitStep db calls).task row.id = some row := by
  have stays : ∀ db call, Settled row db → Settled row (commitStep db call).2 :=
    fun _ call settled => (settled.step call).2
  refine ⟨fun commit visited called => ?_, (final_invariant stays settled calls).1⟩
  have settled' := before_invariant stays settled visited
  obtain ⟨earlier, hCommit⟩ := exists_of_mem_visits visited
  rw [hCommit] at settled' called ⊢
  exact (Settled.step settled' _).1 called

/-- Every run of commits on a database with a pending row keeps its retry accounting. -/
theorem commitOutcome_run (db : Database) (row : TaskRow) (listed : row ∈ db.tasks)
    (pending : row.status = .pending) (calls : List CommitCall) : CommitRun row db calls := by
  have found : db.task row.id = some row := Database.task_eq_some.mpr ⟨listed, rfl⟩
  have start : Tracked row db := ⟨row, found, rfl, le_max_left _ _⟩
  have keeps : ∀ db call, Tracked row db → Tracked row (commitStep db call).2 :=
    fun _ call tracked => tracked.step call
  have counted := count_visits keeps (retryCountOf row.id) (fun _ => 0)
    (fun commit => isFor row.id commit && wasRetried commit)
    (fun _ _ tracked => by rw [zero_add]; exact retryCountOf_commitStep tracked) start calls
  have logged := count_visits keeps (fun db => (retryEvents row.id db.events : ℤ))
    (fun commit => (bufferedRetryEvents row.id commit : ℤ))
    (fun commit => isFor row.id commit && wasRetried commit)
    (fun _ _ _ => retryEvents_commitStep) start calls
  have queued := count_visits keeps (fun db => (enqueues row.id db.jobs : ℤ)) (fun _ => 0)
    (fun commit => isFor row.id commit && wasRetried commit)
    (fun _ _ _ => by rw [zero_add]; exact enqueues_commitStep) start calls
  have paid : appliedCalls row.id (visits commitStep db calls) ≤ applicationsLeft row.id db :=
    count_le_potential keeps (applicationsLeft row.id) _
      (fun _ _ tracked => applicationsLeft_commitStep tracked) start calls
  refine {
    correct := ?_, retryCount := ?_, retryEvents := logged
    enqueues := by simpa [retriedCalls] using queued
    bounded := ?_, applications := ?_, settled := ?_ }
  · intro commit visited
    obtain ⟨earlier, hCommit⟩ := exists_of_mem_visits visited
    rw [hCommit]
    exact visit_correct _ _
  · obtain ⟨last, hLast, -, -⟩ := final_invariant keeps start calls
    refine ⟨last, hLast, ?_⟩
    simpa [retryCountOf, hLast, found, retriedCalls] using counted
  · intro commit visited
    obtain ⟨current, hCurrent, -, bound⟩ := after_invariant keeps start visited
    exact ⟨current, hCurrent, bound⟩
  · have left : applicationsLeft row.id db = (row.maxRetries - row.retryCount).toNat + 1 := by
      simp [applicationsLeft, found, pending]
    rw [left] at paid
    omega
  · intro before commit after split called applied unretried
    obtain ⟨earlier, later, rfl, hCommit, -, rfl, hFinal⟩ := visits_split split
    rw [hCommit] at called applied unretried
    obtain ⟨current, hCurrent, -, retried, hAfter⟩ := task_of_applied called applied
    rw [unretried] at retried
    -- From here on the row stays as this commit wrote it.
    have sameId : current.id = row.id := (Database.task_eq_some.mp hCurrent).2
    have after : commit.after.task row.id =
        some (committedRow commit.input.moment commit.input.input current) := by
      rw [hCommit]
      exact hAfter
    have settled : Settled (committedRow commit.input.moment commit.input.input current)
        commit.after := ⟨sameId ▸ after, committedRow_ne_pending retried.symm⟩
    obtain ⟨unapplied, last⟩ := settled.run later
    rw [hFinal, after, ← sameId]
    exact ⟨unapplied, last⟩

/-- A pending task of one retry, with nothing around it. -/
def crmTask : TaskRow where
  id := "task-1"
  organizationId := "acme"
  objectiveId := "objective-1"
  parentTaskId := none
  goal := "Update the contact"
  definitionOfDone := "The contact is up to date"
  status := .pending
  executionClass := none
  requiredCapabilities := ["crm.update"]
  requiredAuthority := .prepare
  idempotencyKey := none
  retryCount := 0
  maxRetries := 1
  updatedAt := 0

def crmDatabase : Database where
  tasks := [crmTask]
  events := []
  jobs := []
  primaryKey := by decide

def crmFailure : CommitCall where
  moment := {
    fresh := { eventId := "event-1", correlationId := "correlation-1", now := 1 }
    updatedAt := 1 }
  input := {
    taskId := "task-1"
    organizationId := "acme"
    result := { status := .failed, reason := some .adapterError }
    events := []
    order := {
      organizationId := "acme"
      taskId := some "task-1"
      requiredCapabilities := ["crm.update"] } }

theorem commitOutcome_run_crm :
    CommitRun crmTask crmDatabase [crmFailure, crmFailure, crmFailure] :=
  commitOutcome_run crmDatabase crmTask (List.mem_singleton.mpr rfl) rfl _

end Donna
