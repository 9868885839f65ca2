import Donna.Base.EventLog
import Donna.Worker.Queue

/-! The task rows as a reading of the event log.  Every transaction writes its events beside the row
that they are about, so replaying the events of a task gives the status and the retry count of its
row, whatever the dispatchers and workers do. -/

namespace Donna

open Js Async JobQueue EventLog

/-! ### What the events of a task say -/

/-- The columns of a task that its events tell. -/
structure TaskView where
  status : TaskStatus
  retryCount : ℤ
  deriving DecidableEq

def TaskRow.view (row : TaskRow) : TaskView := ⟨row.status, row.retryCount⟩

/-- What an event of a task makes of it. -/
def TaskView.after (view : TaskView) : EventType → TaskView
  | .taskPlanned => { view with status := .planned }
  | .taskAssigned => { view with status := .assigned }
  | .workerStarted | .toolCalled => { view with status := .running }
  | .approvalRequested => { view with status := .awaitingApproval }
  | .taskBlocked => { view with status := .blocked }
  | .taskCompleted => { view with status := .completed }
  | .taskFailed => { view with status := .failed }
  | .taskRetried => ⟨.pending, view.retryCount + 1⟩
  | _ => view

/-- A task begins with its creation; events before that say nothing. -/
def tellTask : Option TaskView → EventRow → Option TaskView
  | none, event => if event.type = .taskCreated then some ⟨.pending, 0⟩ else none
  | some view, event => some (view.after event.type)

/-- What the log says of a task. -/
def toldTask (log : List EventRow) (id : String) : Option TaskView :=
  replay (·.taskId) tellTask none log id

/-- The rows are what the log tells of them, and the log names no task that has no row, nor one of
another organization. -/
structure LogTells (db : Database) : Prop where
  told : ∀ id, toldTask db.events id = (db.task id).map TaskRow.view
  named : ∀ event ∈ db.events, ∀ id, event.taskId = some id →
    ∃ row ∈ db.tasks, row.id = id ∧ row.organizationId = event.organizationId

section Traces

variable {view : TaskView} {types : List EventType} {status : WorkOrderStatus} {count : ℕ}

theorem foldl_tellTask (events : List EventRow) :
    events.foldl tellTask (some view) =
      some ((events.map (·.type)).foldl TaskView.after view) := by
  induction events generalizing view with
  | nil => rfl
  | cons event rest ih => exact ih

theorem retryCount_after {type : EventType} (other : type ≠ .taskRetried) :
    (view.after type).retryCount = view.retryCount := by
  cases type <;> first | rfl | exact absurd rfl other

theorem retryCount_foldl (other : EventType.taskRetried ∉ types) :
    (types.foldl TaskView.after view).retryCount = view.retryCount := by
  induction types generalizing view with
  | nil => rfl
  | cons type rest ih =>
    rw [List.foldl_cons, ih fun later => other (List.mem_cons_of_mem _ later)]
    exact retryCount_after fun same => other (same ▸ List.mem_cons_self)

theorem status_after_outcomeEvent (status : WorkOrderStatus) :
    (view.after (outcomeEvent status)).status = (targetStatusForResult status).status := by
  cases status <;> rfl

/-- A trace leaves the task in the status of its outcome, with its retry count. -/
theorem TraceShape.foldl_after (shape : TraceShape count status types) :
    types.foldl TaskView.after view =
      ⟨(targetStatusForResult status).status, view.retryCount⟩ := by
  have counted : (types.foldl TaskView.after view).retryCount = view.retryCount :=
    retryCount_foldl shape.not_retried
  obtain ⟨before, rfl⟩ : ∃ before, types = before ++ [outcomeEvent status] :=
    ⟨_, (List.dropLast_append_getLast? _ shape.last).symm⟩
  rw [List.foldl_append] at counted ⊢
  refine TaskView.mk.injEq .. |>.mpr ⟨?_, counted⟩
  exact status_after_outcomeEvent status

end Traces

/-! ### The transactions -/

section Transactions

variable {db db' : Database} {row : TaskRow} {moment : Moment} {order : WorkOrder}
  {taskId : String} {result : WorkOrderResult} {actions : List Action} {count : ℕ}

theorem LogTells.told_row (tells : LogTells db) (listed : row ∈ db.tasks) :
    toldTask db.events row.id = some row.view := by
  rw [tells.told, Database.task_eq_some.mpr ⟨listed, rfl⟩]
  rfl

/-- The log does not name an id under which there is no row. -/
theorem LogTells.untold (tells : LogTells db) {id : String} (free : id ∉ db.tasks.map (·.id)) :
    toldTask db.events id = none := by
  have absent : db.task id = none := by
    refine List.find?_eq_none.mpr fun row listed same => free ?_
    exact List.mem_map.mpr ⟨row, listed, of_decide_eq_true same⟩
  rw [tells.told, absent]
  rfl

/-- Events of organizations and tasks that have a row keep the log to the rows. -/
theorem LogTells.named_append {events : List EventRow} (tells : LogTells db)
    (log : db'.events = db.events ++ events)
    (kept : ∀ row ∈ db.tasks, ∃ row' ∈ db'.tasks,
      row'.id = row.id ∧ row'.organizationId = row.organizationId)
    (own : ∀ event ∈ events, ∀ id, event.taskId = some id →
      ∃ row ∈ db'.tasks, row.id = id ∧ row.organizationId = event.organizationId) :
    ∀ event ∈ db'.events, ∀ id, event.taskId = some id →
      ∃ row ∈ db'.tasks, row.id = id ∧ row.organizationId = event.organizationId := by
  intro event listed id names
  rw [log] at listed
  rcases List.mem_append.mp listed with before | new
  · obtain ⟨row, hRow, hId, hOrganization⟩ := tells.named event before id names
    obtain ⟨row', hRow', sameId, sameOrganization⟩ := kept row hRow
    exact ⟨row', hRow', sameId.trans hId, sameOrganization.trans hOrganization⟩
  · exact own event new id names

/-- The event of a dispatch changes what a log says of the new task only. -/
theorem replay_taskCreated {ν : Type} {next : ν → EventRow → ν} {start : ν} {log : List EventRow}
    {draws : Draws} {input : DispatchInput} {principal : PrincipalContext} {id : String} :
    replay (·.taskId) next start
        (log ++ [eventEnvelopeToRow (taskCreated draws input principal)]) id =
      if id = draws.recordId then
        next (replay (·.taskId) next start log id)
          (eventEnvelopeToRow (taskCreated draws input principal))
      else replay (·.taskId) next start log id := by
  refine replay_append_of_named fun event listed => ?_
  obtain rfl := List.mem_singleton.mp listed
  rfl

theorem LogTells.dispatched (tells : LogTells db) (draws : Draws) (input : DispatchInput)
    (principal : PrincipalContext) :
    LogTells ((drizzleTaskDispatcher draws).dispatch input principal db).2 := by
  rcases dispatch_cases draws input principal db with
    ⟨-, refused⟩ | ⟨free, after, accepted, tasks, events, -⟩
  · rw [refused]
    exact tells
  · rw [accepted]
    dsimp only
    refine ⟨fun id => ?_, tells.named_append events (fun row listed => ⟨row, ?_, rfl, rfl⟩) ?_⟩
    · rw [toldTask, events, replay_taskCreated, Database.task, tasks, List.find?_append]
      split
      · next same =>
        subst same
        have absent : db.tasks.find? (fun row => row.id = draws.recordId) = none :=
          List.find?_eq_none.mpr fun row listed same =>
            free (List.mem_map.mpr ⟨row, listed, of_decide_eq_true same⟩)
        have untold := tells.untold free
        rw [toldTask] at untold
        rw [untold, absent]
        simp [tellTask, taskToRow, newTask, TaskRow.view]
        rfl
      · next other =>
        have told := tells.told id
        rw [toldTask, Database.task] at told
        have apart : draws.recordId ≠ id := fun same => other same.symm
        rw [told]
        simp [taskToRow, newTask, apart]
    · exact tasks ▸ List.mem_append_left _ listed
    · rintro _ ⟨⟩ id names
      · refine ⟨_, tasks ▸ List.mem_append_right _ (List.mem_singleton_self _), ?_, rfl⟩
        exact Option.some.inj names
      · contradiction

/-- The events that a commit writes are the task's. -/
theorem committedEvents_named (own : OwnEvents order actions) (task : order.taskId = some taskId) :
    ∀ event ∈ committedEvents moment (workerCommit order taskId result actions) row,
      event.organizationId = order.organizationId ∧ event.taskId = some taskId := by
  intro event listed
  rcases List.mem_append.mp listed with traced | retried
  · obtain ⟨envelope, hEnvelope, rfl⟩ := List.mem_map.mp traced
    obtain ⟨organization, hTask⟩ := own envelope hEnvelope
    exact ⟨organization, hTask.trans task⟩
  · split at retried
    · obtain rfl := List.mem_singleton.mp retried
      exact ⟨rfl, rfl⟩
    · cases retried

/-- The events of a commit change what a log says of its task only. -/
theorem replay_committedEvents {ν : Type} {next : ν → EventRow → ν} {start : ν}
    {log : List EventRow} {id : String} (own : OwnEvents order actions)
    (task : order.taskId = some taskId) :
    replay (·.taskId) next start
        (log ++ committedEvents moment (workerCommit order taskId result actions) row) id =
      if id = taskId then
        (committedEvents moment (workerCommit order taskId result actions) row).foldl next
          (replay (·.taskId) next start log id)
      else replay (·.taskId) next start log id :=
  replay_append_of_named fun event listed => (committedEvents_named own task event listed).2

/-- The events that a commit writes tell what it makes of the row. -/
theorem foldl_committedEvents (shape : TraceShape count result.status (eventTypes actions)) :
    (committedEvents moment (workerCommit order taskId result actions) row).foldl tellTask
        (some row.view) =
      some (committedRow moment (workerCommit order taskId result actions) row).view := by
  have types : ((drain actions).map eventEnvelopeToRow).map (·.type) = eventTypes actions := by
    rw [List.map_map]
    rfl
  have traced : ((drain actions).map eventEnvelopeToRow).foldl tellTask (some row.view) =
      some ⟨(targetStatusForResult result.status).status, row.retryCount⟩ := by
    rw [foldl_tellTask, types, shape.foldl_after]
    rfl
  rw [committedEvents, List.foldl_append]
  have events : (workerCommit order taskId result actions).events = drain actions := rfl
  rw [events, traced, committedRow, committedStatus, TaskRow.view]
  cases retries (workerCommit order taskId result actions) row with
  | true => rfl
  | false => rfl

theorem LogTells.committed (tells : LogTells db) (own : OwnEvents order actions)
    (shape : TraceShape count result.status (eventTypes actions))
    (task : order.taskId = some taskId) (moment : Moment) :
    LogTells (commitOutcome moment (workerCommit order taskId result actions) db).2 := by
  rcases commitOutcome_cases moment (workerCommit order taskId result actions) db with
    ⟨reason, skipped, -⟩ | ⟨row, listed, hId, hOrganization, -, -, committed⟩
  · rw [skipped]
    exact tells
  · have hTask : row.id = taskId := hId
    have organization : row.organizationId = order.organizationId := hOrganization
    have named : ∀ event ∈ committedEvents moment (workerCommit order taskId result actions) row,
        event.organizationId = order.organizationId ∧ event.taskId = some taskId :=
      committedEvents_named own task
    have kept : ∀ other ∈ db.tasks,
        ∃ row' ∈ (commitOutcome moment (workerCommit order taskId result actions) db).2.tasks,
          row'.id = other.id ∧ row'.organizationId = other.organizationId := by
      intro other hOther
      rw [committed.tasks]
      refine ⟨_, List.mem_map.mpr ⟨other, hOther, rfl⟩, ?_⟩
      split
      · next same =>
        obtain rfl := db.eq_of_id hOther listed same
        exact ⟨rfl, rfl⟩
      · exact ⟨rfl, rfl⟩
    refine ⟨fun id => ?_, tells.named_append committed.events kept fun event new id names => ?_⟩
    · rw [toldTask, committed.events, replay_committedEvents own task, committed.task_eq listed,
        hTask]
      split
      · next same =>
        have told := tells.told_row listed
        rw [toldTask, hTask] at told
        rw [same, told, foldl_committedEvents shape]
        rfl
      · exact tells.told id
    · obtain ⟨hEvent, hName⟩ := named event new
      obtain ⟨row', hRow', sameId, sameOrganization⟩ := kept row listed
      refine ⟨row', hRow', ?_, ?_⟩
      · rw [sameId, hTask, ← Option.some.inj (names.symm.trans hName)]
      · rw [sameOrganization, organization, hEvent]

end Transactions

/-! ### What every step keeps -/

/-- What a handler still has to write: the trace of its run, or events of no task. -/
def Progress.Told : Progress → Prop
  | .ran order _ result actions => OwnEvents order actions ∧
      ∃ count, TraceShape count result.status (eventTypes actions)
  | .publishing events => ∀ event ∈ events, event.taskId = none
  | .taken | .finished => True

structure LogInvariant (world : QueueWorld) : Prop extends QueueInvariant world where
  log : LogTells world.db
  handlers : AllRunning Progress.Told world.jobs

section Steps

variable {world world' : QueueWorld}

/-- What a run leaves to its handler. -/
theorem executeWorkOrder_told {platform : Platform} {order : WorkOrder} {deps : OrchestratorDeps}
    {history : History} {result : WorkOrderResult} {actions : List Action}
    (run : executeWorkOrder platform order deps.buffered history = (.ok result, actions)) :
    OwnEvents order actions ∧ ∃ count, TraceShape count result.status (eventTypes actions) := by
  obtain ⟨shape, own⟩ := (OrderRun.of_run run).trace BufferingEventBus.resolves rfl
  exact ⟨own, _, shape⟩

theorem LogTells.publish {db : Database} (tells : LogTells db) {event : EventEnvelope}
    (adHoc : event.taskId = none) : LogTells (db.insertEvents [eventEnvelopeToRow event]) := by
  have silent : ∀ row ∈ [eventEnvelopeToRow event], ∀ id, row.taskId ≠ some id := by
    intro row listed id names
    obtain rfl := List.mem_singleton.mp listed
    simp [eventEnvelopeToRow, adHoc] at names
  refine ⟨fun id => ?_, ?_⟩
  · have log := tells.told id
    rw [toldTask] at log ⊢
    rw [Database.insertEvents, replay_append,
      replay_of_other fun row listed => silent row listed id, log]
    rfl
  · exact tells.named_append rfl (fun row listed => ⟨row, listed, rfl, rfl⟩)
      fun row listed id names => absurd names (silent row listed id)

theorem LogInvariant.step (inv : LogInvariant world) (step : QueueStep world world') :
    LogInvariant world' := by
  refine ⟨inv.toQueueInvariant.step step, ?_, ?_⟩
  · cases step with
    | dispatched draws input principal run =>
      have after := inv.log.dispatched draws input principal
      rwa [run] at after
    | committed key payload moment run moves =>
      obtain ⟨-, task⟩ := inv.reads _ moves.mem _ rfl
      obtain ⟨own, count, shape⟩ := inv.handlers _ moves.mem _ rfl
      have after := inv.log.committed own shape task moment
      rwa [run] at after
    | published key payload moves =>
      exact inv.log.publish (inv.handlers _ moves.mem _ rfl _ List.mem_cons_self)
    | _ => exact inv.log
  · cases step with
    | dispatched draws input principal run => exact inv.handlers.addCalls inv.unique
    | enqueued order task => exact inv.handlers.add inv.unique
    | took key payload moves => exact inv.handlers.move moves (by rintro _ ⟨⟩; trivial)
    | ran key payload platform deps history parsed run task moves =>
      exact inv.handlers.move moves (by rintro _ ⟨⟩; exact executeWorkOrder_told run)
    | ranAdHoc key payload platform deps history parsed run task moves =>
      refine inv.handlers.move moves ?_
      rintro _ ⟨⟩ event listed
      exact ((executeWorkOrder_told run).1 event listed).2.trans task
    | published key payload moves =>
      have told := inv.handlers _ moves.mem _ rfl
      refine inv.handlers.move moves ?_
      rintro _ ⟨⟩ event listed
      exact told event (List.mem_cons_of_mem _ listed)
    | publishedAll key payload moves => exact inv.handlers.move moves (by rintro _ ⟨⟩; trivial)
    | committed key payload moment run moves =>
      refine (inv.handlers.move moves (by rintro _ ⟨⟩; trivial)).addCalls ?_
      exact moves.unique inv.unique (by rintro _ ⟨⟩; rfl)
    | returned key payload moves => exact inv.handlers.replace moves fun _ gone => nomatch gone
    | failed key payload progress moves =>
      exact inv.handlers.move moves fun _ running => nomatch running
    | redelivered key payload kept moves =>
      exact inv.handlers.move moves fun _ running => nomatch running

theorem LogInvariant.start {db : Database} (empty : db.tasks = []) (unlogged : db.events = []) :
    LogInvariant ⟨db, []⟩ := by
  refine ⟨.start empty, ⟨fun id => ?_, ?_⟩, fun _ listed => nomatch listed⟩
  · simp [toldTask, unlogged, Database.task, empty]
  · simp [unlogged]

end Steps

/-- In every run of dispatchers, workers and the queue from an empty database, with crashes and
redeliveries, the event log tells the status and the retry count of every task. -/
theorem eventLog_tells (start : Database) (empty : start.tasks = []) (unlogged : start.events = [])
    (world : QueueWorld) (reached : Relation.ReflTransGen QueueStep ⟨start, []⟩ world) :
    LogTells world.db := by
  have whole : LogInvariant world := by
    induction reached with
    | refl => exact .start empty unlogged
    | tail _ step inv => exact inv.step step
  exact whole.log

theorem eventLog_tells_crm : LogTells crmDispatched :=
  eventLog_tells ⟨[], [], [], List.nodup_nil⟩ rfl rfl ⟨crmDispatched, [crmLostJob]⟩
    crmDispatched_reached

end Donna
