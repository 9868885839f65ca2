import Donna.Worker.Replay

/-! What the log counts.  However often a job is delivered, each attempt at a task that took effect
left one outcome in the log, and each retry one event; and no task is ever seen under way, for a
commit walks through the statuses of a run in one transaction. -/

namespace Donna

open Js JobQueue EventLog

/-- How many events of a task are its creation, a retry, or the outcome of an attempt. -/
structure Tally where
  created : ℕ
  retried : ℕ
  outcomes : ℕ

def Tally.none : Tally := ⟨0, 0, 0⟩

def Tally.after (tally : Tally) : EventType → Tally
  | .taskCreated => { tally with created := tally.created + 1 }
  | .taskRetried => { tally with retried := tally.retried + 1 }
  | .taskCompleted | .taskFailed | .taskBlocked | .approvalRequested =>
    { tally with outcomes := tally.outcomes + 1 }
  | _ => tally

def Tally.count (tally : Tally) (event : EventRow) : Tally := tally.after event.type

def tallyOf (log : List EventRow) (id : String) : Tally :=
  replay (·.taskId) Tally.count .none log id

/-- The log has an outcome for each attempt at the row that was retried, and one more when the row
has left `pending`. -/
structure AttemptsRecorded (log : List EventRow) (row : TaskRow) : Prop where
  created : (tallyOf log row.id).created = 1
  retried : ((tallyOf log row.id).retried : ℤ) = row.retryCount
  outcomes : ((tallyOf log row.id).outcomes : ℤ) =
    row.retryCount + if row.status = .pending then 0 else 1

/-- The row is not under way, and has been retried no more than it may. -/
structure Rests (row : TaskRow) : Prop where
  status : row.status ∈ [.pending, .completed, .failed, .awaitingApproval, .blocked]
  bounded : row.retryCount ≤ row.maxRetries

section Traces

variable {tally : Tally} {types : List EventType} {status : WorkOrderStatus} {count : ℕ}

theorem foldl_count (events : List EventRow) :
    events.foldl Tally.count tally = (events.map (·.type)).foldl Tally.after tally := by
  rw [List.foldl_map]
  rfl

theorem foldl_after_startEvents (count : ℕ) :
    (startEvents count).foldl Tally.after tally = tally := by
  induction count with
  | zero => rfl
  | succ count ih =>
    rw [startEvents_add, List.foldl_append, ih]
    rfl

/-- A trace adds one outcome. -/
theorem TraceShape.foldl_tally (shape : TraceShape count status types) :
    types.foldl Tally.after tally = { tally with outcomes := tally.outcomes + 1 } := by
  cases shape with
  | denied => rfl
  | approval => rfl
  | planned notDenied notApproval =>
    rw [List.foldl_cons, List.foldl_append]
    have planned : tally.after .taskPlanned = tally := rfl
    rw [planned, foldl_after_startEvents]
    cases status <;> rfl

end Traces

/-! ### The transactions -/

/-- What the rows and the log of a database have recorded. -/
structure RowsRecorded (db : Database) : Prop where
  attempts : ∀ row ∈ db.tasks, AttemptsRecorded db.events row
  rests : ∀ row ∈ db.tasks, Rests row

section Transactions

variable {db db' : Database} {row : TaskRow} {moment : Moment} {order : WorkOrder}
  {taskId : String} {result : WorkOrderResult} {actions : List Action} {count : ℕ}

theorem AttemptsRecorded.of_tally {log log' : List EventRow} (recorded : AttemptsRecorded log row)
    (same : tallyOf log' row.id = tallyOf log row.id) : AttemptsRecorded log' row :=
  ⟨same ▸ recorded.created, same ▸ recorded.retried, same ▸ recorded.outcomes⟩

/-- The log has counted nothing of an id under which there is no row. -/
theorem LogTells.tallyOf_free (tells : LogTells db) {id : String}
    (free : id ∉ db.tasks.map (·.id)) : tallyOf db.events id = .none := by
  refine replay_of_other fun event listed names => free ?_
  obtain ⟨row, hRow, rfl, -⟩ := tells.named event listed id names
  exact List.mem_map_of_mem hRow

theorem RowsRecorded.dispatched (recorded : RowsRecorded db) (tells : LogTells db) (draws : Draws)
    (input : DispatchInput) (principal : PrincipalContext) :
    RowsRecorded ((drizzleTaskDispatcher draws).dispatch input principal db).2 := by
  rcases dispatch_cases draws input principal db with
    ⟨-, refused⟩ | ⟨free, after, accepted, tasks, events, -⟩
  · rw [refused]
    exact recorded
  · rw [accepted]
    dsimp only
    have counted (id : String) : tallyOf after.events id =
        if id = draws.recordId then ⟨1, 0, 0⟩ else tallyOf db.events id := by
      rw [tallyOf, events, replay_taskCreated]
      split
      · next same =>
        have unused := tells.tallyOf_free free
        rw [tallyOf] at unused
        rw [same, unused]
        rfl
      · rfl
    refine ⟨fun row listed => ?_, fun row listed => ?_⟩
    · rw [tasks] at listed
      rcases List.mem_append.mp listed with before | new
      · refine (recorded.attempts row before).of_tally ?_
        rw [counted, if_neg]
        rintro same
        exact free (same ▸ List.mem_map_of_mem before)
      · obtain rfl := List.mem_singleton.mp new
        have one := counted draws.recordId
        rw [if_pos rfl] at one
        refine ⟨?_, ?_, ?_⟩ <;> simp only [taskToRow, newTask, one] <;> rfl
    · rw [tasks] at listed
      rcases List.mem_append.mp listed with before | new
      · exact recorded.rests row before
      · obtain rfl := List.mem_singleton.mp new
        exact ⟨List.mem_cons_self, by simp [taskToRow, newTask]⟩

/-- The events of a commit are one outcome, and a retry when the row is retried. -/
theorem foldl_count_committedEvents (shape : TraceShape count result.status (eventTypes actions))
    (tally : Tally) :
    (committedEvents moment (workerCommit order taskId result actions) row).foldl Tally.count
        tally =
      { tally with
        retried := tally.retried +
          if retries (workerCommit order taskId result actions) row then 1 else 0
        outcomes := tally.outcomes + 1 } := by
  have types : ((drain actions).map eventEnvelopeToRow).map (·.type) = eventTypes actions := by
    rw [List.map_map]
    rfl
  have events : (workerCommit order taskId result actions).events = drain actions := rfl
  rw [committedEvents, List.foldl_append, events, foldl_count (drain actions |>.map _), types,
    shape.foldl_tally]
  cases retries (workerCommit order taskId result actions) row <;> rfl

theorem Rests.committedRow (rests : Rests row) (input : CommitOutcomeInput) :
    Rests (committedRow moment input row) := by
  have bounded := rests.bounded
  rw [Donna.committedRow, committedStatus]
  cases retry : retries input row with
  | true =>
    have room := lt_of_retries retry
    refine ⟨List.mem_cons_self, ?_⟩
    show row.retryCount + 1 ≤ row.maxRetries
    omega
  | false =>
    refine ⟨?_, bounded⟩
    show (targetStatusForResult input.result.status).status ∈ _
    cases input.result.status <;> decide

/-- A commit on a pending row keeps its attempts accounted for. -/
theorem AttemptsRecorded.committedRow {log log' : List EventRow} {input : CommitOutcomeInput}
    (recorded : AttemptsRecorded log row) (pending : row.status = .pending)
    (counted : tallyOf log' row.id = ⟨(tallyOf log row.id).created,
      (tallyOf log row.id).retried + if retries input row then 1 else 0,
      (tallyOf log row.id).outcomes + 1⟩) :
    AttemptsRecorded log' (committedRow moment input row) := by
  obtain ⟨created, retried, outcomes⟩ := recorded
  rw [if_pos pending] at outcomes
  have id : (Donna.committedRow moment input row).id = row.id := rfl
  refine ⟨?_, ?_, ?_⟩
  · rw [id, counted]
    exact created
  · rw [id, counted]
    show (((tallyOf log row.id).retried + if retries input row then 1 else 0 : ℕ) : ℤ) =
      if retries input row then row.retryCount + 1 else row.retryCount
    split <;> omega
  · rw [id, counted]
    show (((tallyOf log row.id).outcomes + 1 : ℕ) : ℤ) =
      (if retries input row then row.retryCount + 1 else row.retryCount) +
        if committedStatus input row = .pending then 0 else 1
    cases retry : retries input row with
    | true =>
      rw [committedStatus, retry]
      simp only [if_true]
      omega
    | false =>
      rw [if_neg (committedStatus_ne_pending retry)]
      simp only [Bool.false_eq_true, if_false]
      omega

theorem RowsRecorded.committed (recorded : RowsRecorded db) (own : OwnEvents order actions)
    (shape : TraceShape count result.status (eventTypes actions))
    (task : order.taskId = some taskId) (moment : Moment) :
    RowsRecorded (commitOutcome moment (workerCommit order taskId result actions) db).2 := by
  rcases commitOutcome_cases moment (workerCommit order taskId result actions) db with
    ⟨reason, skipped, -⟩ | ⟨row, listed, hId, -, pending, -, committed⟩
  · rw [skipped]
    exact recorded
  · have hTask : row.id = taskId := hId
    have counted (id : String) : tallyOf (commitOutcome moment
          (workerCommit order taskId result actions) db).2.events id =
        if id = row.id then ⟨(tallyOf db.events id).created,
          (tallyOf db.events id).retried +
            if retries (workerCommit order taskId result actions) row then 1 else 0,
          (tallyOf db.events id).outcomes + 1⟩
        else tallyOf db.events id := by
      rw [tallyOf, committed.events, replay_committedEvents own task,
        foldl_count_committedEvents shape, hTask]
      rfl
    refine ⟨fun after hAfter => ?_, fun after hAfter => ?_⟩
    · rw [committed.tasks] at hAfter
      obtain ⟨before, hBefore, rfl⟩ := List.mem_map.mp hAfter
      split
      · exact (recorded.attempts row listed).committedRow pending ((counted _).trans (if_pos rfl))
      · next other =>
        exact (recorded.attempts before hBefore).of_tally ((counted _).trans (if_neg other))
    · rw [committed.tasks] at hAfter
      obtain ⟨before, hBefore, rfl⟩ := List.mem_map.mp hAfter
      split
      · exact (recorded.rests row listed).committedRow _
      · exact recorded.rests before hBefore

end Transactions

/-! ### Every run -/

structure RecordInvariant (world : QueueWorld) : Prop extends LogInvariant world where
  recorded : RowsRecorded world.db

/-- An event of no task counts for none. -/
theorem RowsRecorded.publish {db : Database} (recorded : RowsRecorded db) {event : EventEnvelope}
    (adHoc : event.taskId = none) : RowsRecorded (db.insertEvents [eventEnvelopeToRow event]) where
  attempts row listed := by
    refine (recorded.attempts row listed).of_tally ?_
    rw [tallyOf, Database.insertEvents, replay_append]
    refine replay_of_other fun published hPublished names => ?_
    obtain rfl := List.mem_singleton.mp hPublished
    simp [eventEnvelopeToRow, adHoc] at names
  rests := recorded.rests

theorem RecordInvariant.step {world world' : QueueWorld} (inv : RecordInvariant world)
    (step : QueueStep world world') : RecordInvariant world' := by
  refine ⟨inv.toLogInvariant.step step, ?_⟩
  cases step with
  | dispatched draws input principal run =>
    have after := inv.recorded.dispatched inv.log draws input principal
    rwa [run] at after
  | committed key payload moment run moves =>
    obtain ⟨-, task⟩ := inv.reads _ moves.mem _ rfl
    obtain ⟨own, count, shape⟩ := inv.handlers _ moves.mem _ rfl
    have after := inv.recorded.committed own shape task moment
    rwa [run] at after
  | published key payload moves =>
    exact inv.recorded.publish (inv.handlers _ moves.mem _ rfl _ List.mem_cons_self)
  | _ => exact inv.recorded

/-- In every run of dispatchers, workers and the queue from an empty database, with crashes and
redeliveries, the log of a task has one outcome for each attempt that took effect, and its row is
at rest. -/
theorem attempts_recorded (start : Database) (empty : start.tasks = [])
    (unlogged : start.events = []) (world : QueueWorld)
    (reached : Relation.ReflTransGen QueueStep ⟨start, []⟩ world) : RowsRecorded world.db := by
  have first : RecordInvariant ⟨start, []⟩ :=
    ⟨.start empty unlogged, by simp [empty], by simp [empty]⟩
  have whole : RecordInvariant world := by
    induction reached with
    | refl => exact first
    | tail _ step inv => exact inv.step step
  exact whole.recorded

theorem attempts_recorded_crm : RowsRecorded crmDispatched :=
  attempts_recorded ⟨[], [], [], List.nodup_nil⟩ rfl rfl ⟨crmDispatched, [crmLostJob]⟩
    crmDispatched_reached

end Donna
