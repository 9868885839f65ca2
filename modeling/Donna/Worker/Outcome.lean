import Donna.Orchestrator.Trace
import Donna.Worker.TaskRuns

/-! The worker's two steps together: it runs an order with a buffered trace, and commits the result
and the trace to the task row.  The last event and the row always agree; but the commit looks only
at the status of the result, so it retries failures that no adapter calls retryable. -/

namespace Donna

open Js Async Async.Program

/-- The dependencies of a job, with a fresh buffer as their bus. -/
def OrchestratorDeps.buffered (deps : OrchestratorDeps) : OrchestratorDeps :=
  { deps with bus := BufferingEventBus }

/-- What the worker commits after a run of an order with a task. -/
def workerCommit (order : WorkOrder) (taskId : String) (result : WorkOrderResult)
    (actions : List Action) : CommitOutcomeInput where
  taskId := taskId
  organizationId := order.organizationId
  result := result
  events := drain actions
  order := order

/-- The row is a pending one that an order is for. -/
structure PendingFor (order : WorkOrder) (row : TaskRow) (db : Database) : Prop where
  listed : row ∈ db.tasks
  pending : row.status = .pending
  task : order.taskId = some row.id
  organization : order.organizationId = row.organizationId

/-! ### The last event and the row -/

/-- The pairs of a last event and a status that agree. -/
inductive Agree : EventType → TaskStatus → Prop
  | completed : Agree .taskCompleted .completed
  | failed : Agree .taskFailed .failed
  | blocked : Agree .taskBlocked .blocked
  | approval : Agree .approvalRequested .awaitingApproval
  | retried : Agree .taskRetried .pending

/-- The last event of the task in the log and the task row agree. -/
def LastEventAgrees (db : Database) (taskId : String) : Prop :=
  ∃ event row, (db.events.filter fun event => event.taskId == some taskId).getLast? = some event ∧
    db.task taskId = some row ∧ Agree event.type row.status

section Commits

variable {platform : Platform} {order : WorkOrder} {deps : OrchestratorDeps}
  {outcome : Except Thrown WorkOrderResult} {actions : List Action} {result : WorkOrderResult}
  {moment : Moment} {db : Database} {row : TaskRow}

theorem PendingFor.committed (pendingFor : PendingFor order row db) :
    Committed moment (workerCommit order row.id result actions) row db
      (commitOutcome moment (workerCommit order row.id result actions) db).2 := by
  rcases commitOutcome_cases moment (workerCommit order row.id result actions) db with
    ⟨reason, skipped, unmatched⟩ | ⟨other, listed, hId, -, -, -, committed⟩
  · have organization : row.organizationId = order.organizationId := pendingFor.organization.symm
    exact absurd pendingFor.pending (unmatched row pendingFor.listed rfl organization)
  · have same : other.id = row.id := hId
    rwa [db.eq_of_id listed pendingFor.listed same] at committed

theorem PendingFor.task_eq (pendingFor : PendingFor order row db) :
    (commitOutcome moment (workerCommit order row.id result actions) db).2.task row.id =
      some (committedRow moment (workerCommit order row.id result actions) row) := by
  rw [pendingFor.committed.task_eq pendingFor.listed, if_pos rfl]

theorem TraceShape.last {count : ℕ} {status : WorkOrderStatus} {types : List EventType}
    (shape : TraceShape count status types) : types.getLast? = some (outcomeEvent status) := by
  cases shape with
  | denied => rfl
  | approval => rfl
  | planned => rw [← List.cons_append, List.getLast?_concat]

theorem agree_outcomeEvent (status : WorkOrderStatus) :
    Agree (outcomeEvent status) (targetStatusForResult status).status := by
  cases status <;> constructor

theorem PendingFor.lastEventAgrees (pendingFor : PendingFor order row db)
    (own : OwnEvents order actions)
    (last : (eventTypes actions).getLast? = some (outcomeEvent result.status)) :
    LastEventAgrees (commitOutcome moment (workerCommit order row.id result actions) db).2
      row.id := by
  let input := workerCommit order row.id result actions
  rw [eventTypes, List.getLast?_map, Option.map_eq_some_iff] at last
  obtain ⟨event, hLast, hType⟩ := last
  have forTask : ∀ event ∈ (drain actions).map eventEnvelopeToRow,
      (event.taskId == some row.id) = true := by
    intro event published
    obtain ⟨envelope, hEnvelope, rfl⟩ := List.mem_map.mp published
    rw [beq_iff_eq, ← pendingFor.task]
    exact (own envelope hEnvelope).2
  -- The task's part of the log ends with the trace, and with the retry event if there is one.
  have log : ((commitOutcome moment input db).2.events.filter fun event =>
      event.taskId == some row.id) =
        db.events.filter (fun event => event.taskId == some row.id) ++
          ((drain actions).map eventEnvelopeToRow ++ if retries input row then
            [eventEnvelopeToRow (retryEvent moment input row)] else []) := by
    rw [pendingFor.committed.events, List.filter_append, committedEvents, List.filter_append]
    congr 2
    · exact List.filter_eq_self.mpr forTask
    · cases retries input row with
      | false => rfl
      | true =>
        refine List.filter_eq_self.mpr fun event retried => ?_
        obtain rfl := List.mem_singleton.mp retried
        exact beq_self_eq_true _
  unfold LastEventAgrees
  rw [log]
  cases retry : retries input row with
  | true =>
    refine ⟨eventEnvelopeToRow (retryEvent moment input row), _, by simp, pendingFor.task_eq, ?_⟩
    have status : (committedRow moment input row).status = .pending := by
      simp [committedRow, committedStatus, retry]
    rw [status]
    exact .retried
  | false =>
    refine ⟨eventEnvelopeToRow event, _, ?_, pendingFor.task_eq, ?_⟩
    · simp [List.getLast?_map, hLast]
    · have status : (committedRow moment input row).status =
          (targetStatusForResult result.status).status := by
        simp [committedRow, committedStatus, retry]
        rfl
      have type : (eventEnvelopeToRow event).type = outcomeEvent result.status := hType
      rw [status, type]
      exact agree_outcomeEvent result.status

end Commits

/-- The trace of a run, its result and the row that the worker commits agree. -/
theorem executeWorkOrder_traceAgrees (platform : Platform) (order : WorkOrder)
    (deps : OrchestratorDeps) (resolves : deps.buffered.EstimatesResolve) (history : History) :
    wp (executeWorkOrder platform order deps.buffered) history fun outcome actions =>
      (order.WellTyped → ∃ result, outcome = .ok result) ∧
        ∀ result, outcome = .ok result →
          TraceShape (calls actions).length result.status (eventTypes actions) ∧
            ∀ moment db row, PendingFor order row db →
              LastEventAgrees
                (commitOutcome moment (workerCommit order row.id result actions) db).2 row.id := by
  refine wp_mono executeWorkOrder_run fun outcome actions run => ?_
  have publishes : deps.buffered.bus.Resolves := BufferingEventBus.resolves
  refine ⟨fun typed => run.returns typed publishes resolves, fun result returned => ?_⟩
  obtain ⟨shape, own⟩ := run.trace publishes returned
  exact ⟨shape, fun moment db row pendingFor => pendingFor.lastEventAgrees own shape.last⟩

theorem executeWorkOrder_traceAgrees_crm :
    wp (executeWorkOrder .plain crmOrder crmFallbackDeps.buffered) [] fun outcome actions =>
      (crmOrder.WellTyped → ∃ result, outcome = .ok result) ∧
        ∀ result, outcome = .ok result →
          TraceShape (calls actions).length result.status (eventTypes actions) ∧
            ∀ moment db row, PendingFor crmOrder row db →
              LastEventAgrees
                (commitOutcome moment (workerCommit crmOrder row.id result actions) db).2 row.id :=
  executeWorkOrder_traceAgrees .plain crmOrder crmFallbackDeps (crmDeps_estimatesResolve _ _ _) []

/-! ### Failures that are not worth retrying -/

/-- The last call of a run was rejected with an error that its adapter calls retryable, or not. -/
def LastFailed (deps : OrchestratorDeps) (actions : List Action) (retryable : Bool) : Prop :=
  ∃ adapter error, (calls actions).getLast? = some (adapter, .error error) ∧
    isRetryable (deps.classifyError adapter error) = retryable

/-- A run failed for a reason that is not worth retrying. -/
def FinalFailure (deps : OrchestratorDeps) (result : WorkOrderResult) (actions : List Action) :
    Prop :=
  result.status = .failed ∧
    (LastFailed deps actions false ∨ result.reason = some .missingModelRequest ∨
      result.reason = some .noEligibleModel ∨ result.reason = some .noAdapter)

/-- A commit left the row failed, with its retry count, and neither announced nor queued a retry. -/
structure StaysFailed (row : TaskRow) (before after : Database) : Prop where
  task : ∃ last, after.task row.id = some last ∧ last.status = .failed ∧
    last.retryCount = row.retryCount
  events : retryEvents row.id after.events = retryEvents row.id before.events
  jobs : after.jobs = before.jobs

/-- Only retryable failures are re-enqueued. -/
structure OnlyRetryable (deps : OrchestratorDeps) (result : WorkOrderResult) (actions : List Action)
    (row : TaskRow) (before after : Database) : Prop where
  final : FinalFailure deps result actions → StaysFailed row before after
  returns : (∃ last, after.task row.id = some last ∧ last.status = .pending) →
    LastFailed deps actions true

section Failures

variable {platform : Platform} {order : WorkOrder} {deps : OrchestratorDeps}
  {outcome : Except Thrown WorkOrderResult} {actions more : List Action} {adapter : AdapterRef}
  {result : WorkOrderResult}

/-- A run that failed did so finally, or by a last call that is worth retrying. -/
def FailureSorted (deps : OrchestratorDeps) (result : WorkOrderResult) (actions : List Action) :
    Prop :=
  result.status = .failed → FinalFailure deps result actions ∨ LastFailed deps actions true

theorem LastFailed.prepend {retryable : Bool} (last : LastFailed deps more retryable) :
    LastFailed deps (actions ++ more) retryable := by
  obtain ⟨adapter, error, hLast, hClass⟩ := last
  refine ⟨adapter, error, ?_, hClass⟩
  rw [calls_append, List.getLast?_append, hLast]
  rfl

theorem LastFailed.append_silent {retryable : Bool} (last : LastFailed deps actions retryable)
    (silent : calls more = []) : LastFailed deps (actions ++ more) retryable := by
  obtain ⟨adapter, error, hLast, hClass⟩ := last
  refine ⟨adapter, error, ?_, hClass⟩
  rw [calls_append, silent, List.append_nil, hLast]

theorem FailureSorted.prepend (sorted : FailureSorted deps result more) :
    FailureSorted deps result (actions ++ more) := by
  intro failed
  rcases sorted failed with ⟨-, last | reason⟩ | last
  · exact .inl ⟨failed, .inl last.prepend⟩
  · exact .inl ⟨failed, .inr reason⟩
  · exact .inr last.prepend

theorem FellThrough.lastFailed (publishes : deps.bus.Resolves) {tried : List AdapterRef}
    (fell : FellThrough platform order deps tried actions) (some_tried : tried ≠ []) :
    LastFailed deps actions true := by
  obtain ⟨hTried, hAll⟩ := fell.calls_eq publishes
  have called : calls actions ≠ [] := by
    intro none
    rw [none] at hTried
    exact some_tried hTried.symm
  obtain ⟨error, rejected, retryable⟩ := hAll _ (List.getLast_mem called)
  refine ⟨((calls actions).getLast called).1, error, ?_, retryable⟩
  rw [List.getLast?_eq_some_getLast called, ← rejected]

theorem Settles.sorted (publishes : deps.bus.Resolves) {overBudget failed : WorkOrderResult}
    {completed : Reply → WorkOrderResult → Prop}
    (settles : Settles platform order deps adapter overBudget failed completed outcome actions)
    (hOver : overBudget.status = .budgetExceeded)
    (hCompleted : ∀ reply result, completed reply result → result.status = .completed)
    (returned : outcome = .ok result) : FailureSorted deps result actions := by
  intro status
  cases settles with
  | broken attempt => cases returned
  | overBudget attempt closes =>
    rw [publishes.closes_ok closes] at returned
    cases returned
    rw [hOver] at status
    cases status
  | completed attempt carries =>
    cases returned
    rw [hCompleted _ _ carries] at status
    cases status
  | failed attempt final closes =>
    have last : LastFailed deps _ false :=
      ⟨adapter, _, by rw [attempt.calls_eq publishes]; rfl, final⟩
    exact .inl ⟨status, .inl (last.append_silent closes.quiet.calls_eq)⟩

theorem ModelRun.sorted (publishes : deps.bus.Resolves) {executionClass : ExecutionClass}
    (run : ModelRun platform order deps executionClass outcome actions)
    (returned : outcome = .ok result) : FailureSorted deps result actions := by
  cases run with
  | missingRequest absent closes =>
    rw [publishes.closes_ok closes] at returned
    cases returned
    exact fun status => .inl ⟨status, .inr (.inl rfl)⟩
  | noEligible unmatched closes =>
    rw [publishes.closes_ok closes] at returned
    cases returned
    exact fun status => .inl ⟨status, .inr (.inr (.inl rfl))⟩
  | @settled _ _ entry _ _ _ requested split before settles =>
    refine FailureSorted.prepend (settles.sorted publishes rfl ?_ returned)
    exact fun reply result
      (carries : (Candidate.model executionClass entry).Carries reply result) => carries.status
  | exhausted before unwired closes =>
    rw [publishes.closes_ok closes] at returned
    cases returned
    intro status
    by_cases none : wiredModels platform order deps = []
    · refine .inl ⟨status, .inr (.inr (.inr ?_))⟩
      rw [unwired, if_pos none]
      rfl
    · have tried := before.lastFailed publishes (by simpa using none)
      exact .inr (tried.append_silent closes.quiet.calls_eq)

theorem CapabilityRun.sorted (publishes : deps.bus.Resolves) {routing : WorkRoutingDecision}
    (run : CapabilityRun platform order deps routing outcome actions)
    (returned : outcome = .ok result) : FailureSorted deps result actions := by
  cases run with
  | @settled _ _ candidate _ _ _ split before settles =>
    refine FailureSorted.prepend (settles.sorted publishes rfl ?_ returned)
    exact fun reply result
      (carries : (Candidate.capability candidate).Carries reply result) => carries.status
  | unwired absent closes =>
    rw [publishes.closes_ok closes] at returned
    cases returned
    exact nofun
  | exhausted wired before unreasoned closes =>
    have tried := before.lastFailed publishes (by simpa using wired)
    exact fun _ => .inr (tried.append_silent closes.quiet.calls_eq)
  | escalated wired before reasoned model => exact (model.sorted publishes returned).prepend

theorem OrderRun.sorted (publishes : deps.bus.Resolves)
    (run : OrderRun platform order deps outcome actions) (returned : outcome = .ok result) :
    FailureSorted deps result actions := by
  cases run with
  | broken => cases returned
  | denied _ _ _ closes | approval _ _ _ closes =>
    rw [publishes.closes_ok closes] at returned
    cases returned
    exact nofun
  | routed allowed run =>
    cases run with
    | unplanned planned => cases returned
    | human planned routed closes =>
      rw [publishes.closes_ok closes] at returned
      cases returned
      exact nofun
    | capability planned machine routed run => exact (run.sorted publishes returned).prepend
    | model planned routed run => exact (run.sorted publishes returned).prepend

theorem TraceShape.not_retried {count : ℕ} {status : WorkOrderStatus} {types : List EventType}
    (shape : TraceShape count status types) : EventType.taskRetried ∉ types := by
  cases shape with
  | denied => decide
  | approval => decide
  | planned =>
    have pairs : EventType.taskRetried ∉ startEvents count := by
      rw [startEvents, List.mem_flatten]
      rintro ⟨pair, listed, present⟩
      rw [List.eq_of_mem_replicate listed] at present
      revert present
      decide
    have outcome : EventType.taskRetried ≠ outcomeEvent status := by cases status <;> decide
    simp [pairs, outcome]

theorem PendingFor.retryEvents_eq {moment : Moment} {db : Database} {row : TaskRow}
    (pendingFor : PendingFor order row db)
    (untold : EventType.taskRetried ∉ eventTypes actions)
    (unretried : retries (workerCommit order row.id result actions) row = false) :
    retryEvents row.id
        (commitOutcome moment (workerCommit order row.id result actions) db).2.events =
      retryEvents row.id db.events := by
  have none : retryEvents row.id
      ((workerCommit order row.id result actions).events.map eventEnvelopeToRow) = 0 := by
    refine List.countP_eq_zero.mpr fun event published => ?_
    obtain ⟨envelope, hEnvelope, rfl⟩ := List.mem_map.mp published
    have other : envelope.type ≠ .taskRetried := fun same =>
      untold (List.mem_map.mpr ⟨envelope, hEnvelope, same⟩)
    simp [eventEnvelopeToRow, other]
  rw [pendingFor.committed.events, retryEvents_append, committedEvents, unretried,
    retryEvents_append, none]
  rfl

theorem PendingFor.staysFailed {moment : Moment} {db : Database} {row : TaskRow}
    (pendingFor : PendingFor order row db) (failed : result.status = .failed)
    (untold : EventType.taskRetried ∉ eventTypes actions)
    (unretried : retries (workerCommit order row.id result actions) row = false) :
    StaysFailed row db (commitOutcome moment (workerCommit order row.id result actions) db).2 := by
  refine ⟨⟨_, pendingFor.task_eq, ?_, ?_⟩, pendingFor.retryEvents_eq untold unretried, ?_⟩
  · have status : (committedRow moment (workerCommit order row.id result actions) row).status =
        (targetStatusForResult result.status).status := by
      simp [committedRow, committedStatus, unretried]
      rfl
    rw [status, failed]
    rfl
  · simp [committedRow, unretried]
  · rw [pendingFor.committed.jobs, committedJobs, unretried]
    simp

end Failures

/-- What the worker re-enqueues after a run: it re-enqueues only retryable failures exactly when the
row of a final failure has no retry left. -/
theorem executeWorkOrder_onlyRetryable_iff (platform : Platform) (order : WorkOrder)
    (deps : OrchestratorDeps) (history : History) :
    wp (executeWorkOrder platform order deps.buffered) history fun outcome actions =>
      ∀ result, outcome = .ok result → ∀ moment db row, PendingFor order row db →
        (OnlyRetryable deps result actions row db
            (commitOutcome moment (workerCommit order row.id result actions) db).2 ↔
          (FinalFailure deps result actions → row.maxRetries ≤ row.retryCount)) := by
  refine wp_mono executeWorkOrder_run fun outcome actions run => ?_
  intro result returned moment db row pendingFor
  have publishes : deps.buffered.bus.Resolves := BufferingEventBus.resolves
  obtain ⟨shape, -⟩ := run.trace publishes returned
  have sorted : FailureSorted deps.buffered result actions := run.sorted publishes returned
  have retries_iff : retries (workerCommit order row.id result actions) row = true ↔
      result.status = .failed ∧ row.retryCount < row.maxRetries := by
    simp only [retries, workerCommit, Bool.and_eq_true, beq_iff_eq, decide_eq_true_eq]
    refine and_congr_left fun _ => ?_
    cases result.status <;> simp [targetStatusForResult]
  constructor
  · intro only final
    by_contra left
    have retried := retries_iff.mpr ⟨final.1, not_le.mp left⟩
    obtain ⟨last, hLast, failed, -⟩ := (only.final final).task
    rw [pendingFor.task_eq] at hLast
    cases hLast
    simp [committedRow, committedStatus, retried] at failed
  · intro spent
    refine ⟨fun final => ?_, ?_⟩
    · refine pendingFor.staysFailed final.1 shape.not_retried ?_
      by_contra retried
      have left := (retries_iff.mp (by simpa using retried)).2
      exact absurd (spent final) (not_le.mpr left)
    · rintro ⟨last, hLast, pending⟩
      rw [pendingFor.task_eq] at hLast
      cases hLast
      have retried : retries (workerCommit order row.id result actions) row = true := by
        by_contra unretried
        exact committedRow_ne_pending (by simpa using unretried) pending
      obtain ⟨failed, left⟩ := retries_iff.mp retried
      rcases sorted failed with final | last
      · exact absurd (spent final) (not_le.mpr left)
      · exact last

/-- The API rejects the input, which it classifies as deterministic. -/
def crmRejectingDeps : OrchestratorDeps :=
  crmDeps BufferingEventBus (.constant (.error (.value (.string "no such contact"))) .deterministic)

theorem executeWorkOrder_retries_deterministic :
    ¬ wp (executeWorkOrder .plain { crmOrder with budget := none } crmRejectingDeps.buffered) []
        fun outcome actions =>
      ∀ result, outcome = .ok result → ∀ moment db row,
        PendingFor { crmOrder with budget := none } row db →
          OnlyRetryable crmRejectingDeps result actions row db (commitOutcome moment
            (workerCommit { crmOrder with budget := none } row.id result actions) db).2 := by
  intro only
  have pendingFor : PendingFor { crmOrder with budget := none } crmTask crmDatabase :=
    ⟨List.mem_singleton.mpr rfl, rfl, rfl, rfl⟩
  have kept := only _ rfl crmFailure.moment crmDatabase crmTask pendingFor
  have final := kept.final ⟨rfl, .inl ⟨.capability "crm-api", _, rfl, rfl⟩⟩
  obtain ⟨last, hLast, failed, -⟩ := final.task
  rw [pendingFor.task_eq] at hLast
  cases hLast
  revert failed
  exact nofun

end Donna
