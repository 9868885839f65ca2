import Mathlib.Algebra.Order.BigOperators.Group.List
import Donna.ControlPlane.Contract
import Donna.Orchestrator.Returns
import Donna.Worker.Queue

/-! The system as it is deployed: orders are enqueued by dispatches, and by commits that retry.
Such orders carry no gate, the orders of one task are all the same, and the workers come to an end:
they leave a task pending only if its job has failed or cannot be read. -/

namespace Donna

open Js JsValue JobQueue Tables Async.Program

/-! ### The deployed system -/

/-- What a worker does next with a job, unless its handler throws or it crashes. -/
inductive WorkerStep (deps : OrchestratorDeps) : QueueWorld → QueueWorld → Prop
  | took {world jobs'} (key : JobKey) (payload : JsValue)
      (moves : Replaces ⟨key, payload, .queued⟩ (some ⟨key, payload, .running .taken⟩)
        world.jobs jobs') :
      WorkerStep deps world ⟨world.db, jobs'⟩
  | ran {world jobs'} (key : JobKey) (payload : JsValue) (platform : Platform)
      (history : History) {order result actions taskId}
      (parsed : parseWorkOrder payload = .ok order)
      (run : executeWorkOrder platform order deps.buffered history = (.ok result, actions))
      (task : order.taskId = some taskId)
      (moves : Replaces ⟨key, payload, .running .taken⟩
        (some ⟨key, payload, .running (.ran order taskId result actions)⟩) world.jobs jobs') :
      WorkerStep deps world ⟨world.db, jobs'⟩
  | ranAdHoc {world jobs'} (key : JobKey) (payload : JsValue) (platform : Platform)
      (history : History) {order result actions}
      (parsed : parseWorkOrder payload = .ok order)
      (run : executeWorkOrder platform order deps.buffered history = (.ok result, actions))
      (task : order.taskId = none)
      (moves : Replaces ⟨key, payload, .running .taken⟩
        (some ⟨key, payload, .running (.publishing (drain actions))⟩) world.jobs jobs') :
      WorkerStep deps world ⟨world.db, jobs'⟩
  | published {world jobs'} (key : JobKey) (payload : JsValue) {event events}
      (moves : Replaces ⟨key, payload, .running (.publishing (event :: events))⟩
        (some ⟨key, payload, .running (.publishing events)⟩) world.jobs jobs') :
      WorkerStep deps world ⟨world.db.insertEvents [eventEnvelopeToRow event], jobs'⟩
  | publishedAll {world jobs'} (key : JobKey) (payload : JsValue)
      (moves : Replaces ⟨key, payload, .running (.publishing [])⟩
        (some ⟨key, payload, .running .finished⟩) world.jobs jobs') :
      WorkerStep deps world ⟨world.db, jobs'⟩
  | committed {world jobs'} (key : JobKey) (payload : JsValue) (moment : Moment)
      {order taskId result actions outcome db'}
      (run : commitOutcome moment (workerCommit order taskId result actions) world.db =
        (.ok outcome, db'))
      (moves : Replaces ⟨key, payload, .running (.ran order taskId result actions)⟩
        (some ⟨key, payload, .running .finished⟩) world.jobs jobs') :
      WorkerStep deps world ⟨db', addCalls (world.db.added db') jobs'⟩
  | returned {world jobs'} (key : JobKey) (payload : JsValue)
      (moves : Replaces ⟨key, payload, .running .finished⟩ none world.jobs jobs') :
      WorkerStep deps world ⟨world.db, jobs'⟩

/-- What a worker or the queue does next. -/
inductive BackgroundStep (deps : OrchestratorDeps) : QueueWorld → QueueWorld → Prop
  | worked {world world'} (step : WorkerStep deps world world') : BackgroundStep deps world world'
  | failed {world jobs'} (key : JobKey) (payload : JsValue) (progress : Progress)
      (moves : Replaces ⟨key, payload, .running progress⟩ (some ⟨key, payload, .failed⟩)
        world.jobs jobs') :
      BackgroundStep deps world ⟨world.db, jobs'⟩
  | redelivered {world jobs'} (key : JobKey) (payload : JsValue) (kept : key ≠ .detached)
      (moves : Replaces ⟨key, payload, .failed⟩ (some ⟨key, payload, .queued⟩) world.jobs jobs') :
      BackgroundStep deps world ⟨world.db, jobs'⟩

/-- What the dispatcher, a worker or the queue does next. -/
inductive DeployedStep (deps : OrchestratorDeps) : QueueWorld → QueueWorld → Prop
  | dispatched {world} (draws : Draws) (input : DispatchInput) (principal : PrincipalContext)
      {answer db'}
      (run : (drizzleTaskDispatcher draws).dispatch input principal world.db = (answer, db')) :
      DeployedStep deps world ⟨db', addCalls (world.db.added db') world.jobs⟩
  | background {world world'} (step : BackgroundStep deps world world') :
      DeployedStep deps world world'

section Embedding

variable {deps : OrchestratorDeps} {world world' : QueueWorld}

theorem WorkerStep.queueStep (step : WorkerStep deps world world') : QueueStep world world' := by
  cases step with
  | took key payload moves => exact .took key payload moves
  | ran key payload platform history parsed run task moves =>
    exact .ran key payload platform deps history parsed run task moves
  | ranAdHoc key payload platform history parsed run task moves =>
    exact .ranAdHoc key payload platform deps history parsed run task moves
  | published key payload moves => exact .published key payload moves
  | publishedAll key payload moves => exact .publishedAll key payload moves
  | committed key payload moment run moves => exact .committed key payload moment run moves
  | returned key payload moves => exact .returned key payload moves

theorem DeployedStep.queueStep (step : DeployedStep deps world world') :
    QueueStep world world' := by
  cases step with
  | dispatched draws input principal run => exact .dispatched draws input principal run
  | background step =>
    cases step with
    | worked step => exact step.queueStep
    | failed key payload progress moves => exact .failed key payload progress moves
    | redelivered key payload kept moves => exact .redelivered key payload kept moves

end Embedding

/-! ### Orders without gates -/

/-- The payload is an order for the task of a row, and has no gate. -/
structure UngatedFor (payload : JsValue) (row : TaskRow) : Prop extends OrderFor payload row where
  policy : payload.own "policy" = .undefined
  budget : payload.own "budget" = .undefined

section Payloads

variable {payload : JsValue} {row other : TaskRow} {order : WorkOrder}

theorem optionalRecord_absent {key : String} {value : Option JsValue}
    (absent : payload.own key = .undefined) (read : optionalRecord payload key = .ok value) :
    value = none := by
  rcases optionalRecord_eq_ok.mp read with ⟨-, none⟩ | ⟨record, -⟩
  · exact none
  · rw [absent] at record
    cases record

theorem UngatedFor.parsed (ungated : UngatedFor payload row)
    (parsed : parseWorkOrder payload = .ok order) : order.policy = none ∧ order.budget = none := by
  obtain ⟨-, -, -, -, -, -, -, -, -, -, -, -, -, policy, budget, -⟩ :=
    parseWorkOrder_eq_ok.mp parsed
  exact ⟨optionalRecord_absent ungated.policy policy, optionalRecord_absent ungated.budget budget⟩

theorem messages_of_optionalModelRequest {request : ModelRequest}
    (read : optionalModelRequest payload = .ok (some request)) : request.messages ≠ [] := by
  rw [optionalModelRequest] at read
  split at read
  · cases read
  · cases parsed : parseModelRequest (payload.own "modelRequest") with
    | error error => simp [parsed] at read
    | ok given =>
      rw [parsed] at read
      cases read
      exact messages_of_parseModelRequest parsed

/-- What a retry enqueues reads as the order that was retried. -/
theorem parseWorkOrder_retried (parsed : parseWorkOrder payload = .ok order)
    (ungated : order.policy = none ∧ order.budget = none) :
    parseWorkOrder order.toJs.jsonClone = .ok order := by
  obtain ⟨-, organization, -, -, -, -, -, -, -, -, -, -, request, -, -, actor, input⟩ :=
    parseWorkOrder_eq_ok.mp parsed
  have serialisable : order.Serialisable := by
    refine ⟨(requireString_eq_ok.mp organization).2, fun given present => ?_, ?_, ?_, ?_⟩
    · exact messages_of_optionalModelRequest (present ▸ request)
    · simp [input]
    · simp [ungated.1]
    · simp [ungated.2]
  rw [WorkOrder.jsonClone_toJs serialisable, parseWorkOrder_toJs serialisable, ← actor, ← input]

theorem WorkOrder.ungatedFor (task : order.taskId = some row.id)
    (organization : order.organizationId = row.organizationId)
    (ungated : order.policy = none ∧ order.budget = none) :
    UngatedFor order.toJs.jsonClone row where
  toOrderFor := order.orderFor task organization
  policy := own_jsonClone_of_missing <| by
    rw [lookup_present order.distinct_keys]
    simp [WorkOrder.table, ungated.1]
  budget := own_jsonClone_of_missing <| by
    rw [lookup_present order.distinct_keys]
    simp [WorkOrder.table, ungated.2]

theorem own_taskId_dispatchJob (draws : Draws) (input : DispatchInput)
    (principal : PrincipalContext) :
    (dispatchJob draws input principal).payload.own "taskId" = .string draws.recordId := by
  refine own_jsonClone_string ?_
  rw [buildWorkOrder, own_present (distinct_workOrderTable _ _ _)]
  rfl

/-- A dispatch builds an order without gates, whatever hints it is given. -/
theorem ungatedFor_dispatchJob (draws : Draws) (input : DispatchInput)
    (principal : PrincipalContext) (id : row.id = draws.recordId)
    (organization : row.organizationId = principal.organizationId) :
    UngatedFor (dispatchJob draws input principal).payload row where
  toOrderFor := orderFor_dispatchJob draws input principal id organization
  policy := own_jsonClone_of_missing <| by
    rw [lookup_present (distinct_workOrderTable _ _ _)]
    simp [workOrderTable]
  budget := own_jsonClone_of_missing <| by
    rw [lookup_present (distinct_workOrderTable _ _ _)]
    simp [workOrderTable]

end Payloads

/-! ### Runs of such orders -/

section Runs

variable {order : WorkOrder} {deps : OrchestratorDeps}

/-- An order without gates is run to a result, whatever the adapters do. -/
theorem executeWorkOrder_ungated_returns (deps : OrchestratorDeps)
    (ungated : order.policy = none ∧ order.budget = none) (platform : Platform)
    (history : History) : ∃ result actions,
      executeWorkOrder platform order deps.buffered history = (.ok result, actions) := by
  have evaluates : PolicyEvaluates platform order := by
    intro policy present
    rw [ungated.1] at present
    cases present
  have assessable : EstimatesAssessable platform order deps.buffered fun _ => Set.univ := by
    rintro tried adapter later split affordable reply - gate present
    rw [ungated.2] at present
    cases present
  have returns : wp (executeWorkOrder platform order deps.buffered) history
      fun outcome _ => ∃ result, outcome = .ok result :=
    wp_mono executeWorkOrder_run fun outcome actions run =>
      (run.sound BufferingEventBus.resolves evaluates (fun _ => assessable)
        fun _ _ _ => Set.mem_univ _).1
  obtain ⟨result, returned⟩ := returns
  exact ⟨result, _, Prod.ext returned rfl⟩

theorem RouteRun.ungated {platform : Platform} {outcome : Except Thrown WorkOrderResult}
    {result : WorkOrderResult} {actions : List Action} (publishes : deps.bus.Resolves)
    (run : RouteRun platform order deps outcome actions) (returned : outcome = .ok result) :
    result.status ≠ .denied ∧ result.status ≠ .approvalRequired := by
  have announced : ∃ later, Announced order result.status later := by
    cases run with
    | unplanned planned => cases returned
    | human planned routed closes =>
      exact ⟨_, closes.announced publishes returned rfl WorkOrderStatus.noConfusion
        WorkOrderStatus.noConfusion⟩
    | capability planned machine routed run => exact ⟨_, run.announced publishes returned⟩
    | model planned routed run => exact ⟨_, run.announced publishes returned⟩
  obtain ⟨later, announced⟩ := announced
  exact ⟨announced.notDenied, announced.notApproval⟩

theorem TraceShape.not_requested {count : ℕ} {status : WorkOrderStatus} {types : List EventType}
    (shape : TraceShape count status types) (unheld : status ≠ .approvalRequired) :
    EventType.approvalRequested ∉ types := by
  cases shape with
  | denied => decide
  | approval => exact absurd rfl unheld
  | planned =>
    have pairs : EventType.approvalRequested ∉ startEvents count := fun started =>
      absurd (mem_startEvents started) (by decide)
    have outcome : EventType.approvalRequested ≠ outcomeEvent status := by
      cases status <;> first | decide | exact absurd rfl unheld
    simp [pairs, outcome]

/-- A run of an order without gates is neither denied nor held for approval, and asks for none. -/
theorem executeWorkOrder_ungated {platform : Platform} {history : History}
    {result : WorkOrderResult} {actions : List Action}
    (ungated : order.policy = none ∧ order.budget = none)
    (run : executeWorkOrder platform order deps.buffered history = (.ok result, actions)) :
    result.status ≠ .denied ∧ result.status ≠ .approvalRequired ∧
      EventType.approvalRequested ∉ eventTypes actions := by
  have ran : OrderRun platform order deps.buffered (.ok result) actions := .of_run run
  have publishes : deps.buffered.bus.Resolves := BufferingEventBus.resolves
  have decided : result.status ≠ .denied ∧ result.status ≠ .approvalRequired := by
    cases ran with
    | denied present | approval present =>
      rw [ungated.1] at present
      cases present
    | routed allowed run => exact run.ungated publishes rfl
  exact ⟨decided.1, decided.2, (ran.trace publishes rfl).1.not_requested decided.2⟩

end Runs

/-! ### What a step does -/

/-- What a handler still has to commit was neither denied nor held for approval. -/
def Progress.Ungated : Progress → Prop
  | .ran _ _ result actions => result.status ≠ .denied ∧ result.status ≠ .approvalRequired ∧
      EventType.approvalRequested ∉ eventTypes actions
  | .publishing _ => False
  | .taken | .finished => True

/-- The job is an order without gates for the task of a row, and so is what its handler ran. -/
structure SoundJob (db : Database) (job : Job JsValue Progress) : Prop where
  order : ∃ row ∈ db.tasks, UngatedFor job.payload row
  handler : ∀ progress, job.state = .running progress → progress.Ungated

def AllSound (db : Database) (jobs : List (Job JsValue Progress)) : Prop :=
  ∀ job ∈ jobs, SoundJob db job

/-- Every job for a task reads as one order, or fails to be read for one reason. -/
def ReadAs (read : Parsed WorkOrder) (id : String) (jobs : List (Job JsValue Progress)) : Prop :=
  ∀ job ∈ jobs, job.payload.own "taskId" = .string id → parseWorkOrder job.payload = read

structure DeployedInvariant (world : QueueWorld) : Prop extends QueueInvariant world where
  sound : AllSound world.db world.jobs
  alike : ∀ row ∈ world.db.tasks, ∃ read, ReadAs read row.id world.jobs
  unheld : ∀ row ∈ world.db.tasks, row.status ∈ [.pending, .completed, .failed, .blocked]
  unrequested : ∀ event ∈ world.db.events, event.type ≠ .approvalRequested

/-- What a step of the deployed system does to the rows and the jobs. -/
inductive StepEffect (world : QueueWorld) : QueueWorld → Prop
  | refused : StepEffect world world
  | created {after : Database} (draws : Draws) (input : DispatchInput)
      (principal : PrincipalContext) (free : draws.recordId ∉ world.db.tasks.map (·.id))
      (tasks : after.tasks = world.db.tasks ++ [taskToRow draws.now (newTask draws.recordId input)
        principal.organizationId input.requiredCapabilities])
      (events : after.events = world.db.events ++
        [eventEnvelopeToRow (taskCreated draws input principal)]) :
      StepEffect world ⟨after, add (some draws.recordId)
        (dispatchJob draws input principal).payload world.jobs⟩
  | moved {job : Job JsValue Progress} {by_ : Option (Job JsValue Progress)}
      {jobs' : List (Job JsValue Progress)} (moves : Replaces job by_ world.jobs jobs')
      (keeps : ∀ next, by_ = some next → next.payload = job.payload ∧
        ∀ progress, next.state = .running progress → progress.Ungated) :
      StepEffect world ⟨world.db, jobs'⟩
  | committed {after : Database} {jobs' : List (Job JsValue Progress)} {key : JobKey}
      {payload : JsValue} {moment : Moment} {row : TaskRow} {order : WorkOrder}
      {result : WorkOrderResult} {actions : List Action}
      (parsed : parseWorkOrder payload = .ok order) (task : order.taskId = some row.id)
      (organization : order.organizationId = row.organizationId) (listed : row ∈ world.db.tasks)
      (pending : row.status = .pending)
      (writes : Committed moment (workerCommit order row.id result actions) row world.db after)
      (moves : Replaces ⟨key, payload, .running (.ran order row.id result actions)⟩
        (some ⟨key, payload, .running .finished⟩) world.jobs jobs') :
      StepEffect world ⟨after,
        addCalls (committedJobs (workerCommit order row.id result actions) row) jobs'⟩

section Steps

variable {deps : OrchestratorDeps} {world world' : QueueWorld}

theorem addCalls_nil (db : Database) (jobs : List (Job JsValue Progress)) :
    addCalls (db.added db) jobs = jobs := by
  rw [Database.added, List.drop_length]
  rfl

theorem WorkerStep.effect (inv : DeployedInvariant world) (step : WorkerStep deps world world') :
    StepEffect world world' := by
  cases step with
  | took key payload moves =>
    exact .moved moves (by rintro _ ⟨⟩; exact ⟨rfl, by rintro _ ⟨⟩; trivial⟩)
  | ran key payload platform history parsed run task moves =>
    obtain ⟨row, -, ungated⟩ := (inv.sound _ moves.mem).order
    have unheld := executeWorkOrder_ungated (ungated.parsed parsed) run
    exact .moved moves (by rintro _ ⟨⟩; exact ⟨rfl, by rintro _ ⟨⟩; exact unheld⟩)
  | ranAdHoc key payload platform history parsed run task moves =>
    obtain ⟨row, -, ungated⟩ := (inv.sound _ moves.mem).order
    rw [(ungated.toOrderFor.parsed parsed).1] at task
    cases task
  | published key payload moves => exact ((inv.sound _ moves.mem).handler _ rfl).elim
  | publishedAll key payload moves => exact ((inv.sound _ moves.mem).handler _ rfl).elim
  | @committed jobs' key payload moment order taskId result actions outcome db' run moves =>
    obtain ⟨parsed, task⟩ := inv.reads _ moves.mem _ rfl
    rcases commitOutcome_cases moment (workerCommit order taskId result actions) world.db with
      ⟨reason, skipped, -⟩ | ⟨row, listed, hId, hOrganization, pending, -, writes⟩
    · rw [run] at skipped
      obtain rfl : db' = world.db := congrArg Prod.snd skipped
      rw [addCalls_nil]
      exact .moved moves (by rintro _ ⟨⟩; exact ⟨rfl, by rintro _ ⟨⟩; trivial⟩)
    · rw [run] at writes
      obtain rfl : row.id = taskId := hId
      rw [Database.added_eq writes.jobs]
      exact .committed parsed task hOrganization.symm listed pending writes moves
  | returned key payload moves => exact .moved moves fun _ gone => nomatch gone

theorem DeployedStep.effect (inv : DeployedInvariant world)
    (step : DeployedStep deps world world') : StepEffect world world' := by
  cases step with
  | dispatched draws input principal run =>
    rcases dispatch_cases draws input principal world.db with
      ⟨-, refused⟩ | ⟨free, after, accepted, tasks, events, jobs⟩
    · rw [run] at refused
      obtain ⟨-, rfl⟩ := Prod.ext_iff.mp refused
      rw [addCalls_nil]
      exact .refused
    · rw [run] at accepted
      obtain ⟨-, rfl⟩ := Prod.ext_iff.mp accepted
      rw [Database.added_eq jobs]
      exact .created draws input principal free tasks events
  | background step =>
    cases step with
    | worked step => exact step.effect inv
    | failed key payload progress moves =>
      exact .moved moves (by rintro _ ⟨⟩; exact ⟨rfl, fun _ running => nomatch running⟩)
    | redelivered key payload kept moves =>
      exact .moved moves (by rintro _ ⟨⟩; exact ⟨rfl, fun _ running => nomatch running⟩)

/-! ### What every step keeps -/

theorem addCalls_committedJobs {row : TaskRow} {order : WorkOrder} {result : WorkOrderResult}
    {actions : List Action} {jobs : List (Job JsValue Progress)} :
    addCalls (committedJobs (workerCommit order row.id result actions) row) jobs =
      if retries (workerCommit order row.id result actions) row then
        add (some row.id) order.toJs.jsonClone jobs else jobs := by
  rw [committedJobs]
  split <;> rfl

theorem SoundJob.of_rows {db db' : Database} {job : Job JsValue Progress} (sound : SoundJob db job)
    (kept : ∀ row ∈ db.tasks, ∃ row' ∈ db'.tasks,
      row'.id = row.id ∧ row'.organizationId = row.organizationId) : SoundJob db' job where
  order := by
    obtain ⟨row, listed, ungated⟩ := sound.order
    obtain ⟨row', listed', id, organization⟩ := kept row listed
    exact ⟨row', listed', ungated.toOrderFor.of_same id organization, ungated.policy,
      ungated.budget⟩
  handler := sound.handler

theorem AllSound.add {db : Database} {jobs : List (Job JsValue Progress)} {key : Option String}
    {payload : JsValue} (sound : AllSound db jobs) (unique : Unique (·.jobKey) jobs)
    (order : ∃ row ∈ db.tasks, UngatedFor payload row) : AllSound db (add key payload jobs) :=
  forall_add unique sound ⟨order, fun _ running => nomatch running⟩
    fun _ sound => ⟨sound.order, sound.handler⟩

theorem AllSound.replace {db : Database} {jobs jobs' : List (Job JsValue Progress)}
    {job : Job JsValue Progress} {by_ : Option (Job JsValue Progress)} (sound : AllSound db jobs)
    (moves : Replaces job by_ jobs jobs') (keeps : ∀ next, by_ = some next →
      next.payload = job.payload ∧ ∀ progress, next.state = .running progress → progress.Ungated) :
    AllSound db jobs' :=
  moves.forall sound fun next replaces =>
    ⟨(keeps next replaces).1 ▸ (sound _ moves.mem).order, (keeps next replaces).2⟩

theorem ReadAs.add {read : Parsed WorkOrder} {id : String} {jobs : List (Job JsValue Progress)}
    {key : Option String} {payload : JsValue} (alike : ReadAs read id jobs)
    (unique : Unique (·.jobKey) jobs)
    (fresh : payload.own "taskId" = .string id → parseWorkOrder payload = read) :
    ReadAs read id (add key payload jobs) :=
  forall_add unique alike fresh fun _ reads => reads

theorem ReadAs.replace {read : Parsed WorkOrder} {id : String}
    {jobs jobs' : List (Job JsValue Progress)} {job : Job JsValue Progress}
    {by_ : Option (Job JsValue Progress)} (alike : ReadAs read id jobs)
    (moves : Replaces job by_ jobs jobs')
    (keeps : ∀ next, by_ = some next → next.payload = job.payload) : ReadAs read id jobs' :=
  moves.forall alike fun next replaces => by
    rw [keeps next replaces]
    exact alike job moves.mem

theorem StepEffect.rows (effect : StepEffect world world') : ∀ row ∈ world.db.tasks,
    ∃ row' ∈ world'.db.tasks, row'.id = row.id ∧ row'.organizationId = row.organizationId := by
  intro row listed
  cases effect with
  | refused | moved => exact ⟨row, listed, rfl, rfl⟩
  | created draws input principal free tasks events =>
    exact ⟨row, tasks ▸ List.mem_append_left _ listed, rfl, rfl⟩
  | committed parsed task organization hAbout pending writes =>
    refine ⟨_, writes.tasks ▸ List.mem_map_of_mem listed, ?_⟩
    split
    · next same =>
      obtain rfl := world.db.eq_of_id listed hAbout same
      exact ⟨rfl, rfl⟩
    · exact ⟨rfl, rfl⟩

/-- A row after a step was there before it under its id, or was just created. -/
theorem StepEffect.row_cases (effect : StepEffect world world') {row : TaskRow}
    (listed : row ∈ world'.db.tasks) : row.id ∈ world.db.tasks.map (·.id) ∨
      ∃ draws input principal, draws.recordId ∉ world.db.tasks.map (·.id) ∧
        row.id = draws.recordId ∧ world'.jobs = add (some draws.recordId)
          (dispatchJob draws input principal).payload world.jobs := by
  cases effect with
  | refused | moved => exact .inl (List.mem_map_of_mem listed)
  | created draws input principal free tasks events =>
    rw [tasks] at listed
    rcases List.mem_append.mp listed with before | new
    · exact .inl (List.mem_map_of_mem before)
    · obtain rfl := List.mem_singleton.mp new
      exact .inr ⟨draws, input, principal, free, rfl, rfl⟩
  | committed parsed task organization hAbout pending writes =>
    rw [writes.tasks] at listed
    obtain ⟨before, hBefore, rfl⟩ := List.mem_map.mp listed
    refine .inl (List.mem_map.mpr ⟨before, hBefore, ?_⟩)
    split
    · next same => exact same
    · rfl

/-- The id of the order of a job is that of the row which the job is for. -/
theorem SoundJob.own_taskId {db : Database} {job : Job JsValue Progress} {order : WorkOrder}
    {id : String} (sound : SoundJob db job) (parsed : parseWorkOrder job.payload = .ok order)
    (task : order.taskId = some id) : job.payload.own "taskId" = .string id ∧
      order.policy = none ∧ order.budget = none := by
  obtain ⟨about, -, ungated⟩ := sound.order
  have same := (ungated.toOrderFor.parsed parsed).1
  rw [task] at same
  exact ⟨Option.some.inj same ▸ ungated.toOrderFor.task, ungated.parsed parsed⟩

theorem StepEffect.sound (inv : DeployedInvariant world) (effect : StepEffect world world') :
    AllSound world'.db world'.jobs := by
  have kept : AllSound world'.db world.jobs := fun job listed =>
    (inv.sound job listed).of_rows effect.rows
  cases effect with
  | refused => exact inv.sound
  | created draws input principal free tasks events =>
    show AllSound _ (add (some draws.recordId) _ _)
    refine kept.add inv.unique ⟨taskToRow draws.now (newTask draws.recordId input)
      principal.organizationId input.requiredCapabilities, ?_,
      ungatedFor_dispatchJob draws input principal rfl rfl⟩
    exact tasks ▸ List.mem_append_right _ (List.mem_singleton_self _)
  | moved moves keeps => exact kept.replace moves keeps
  | @committed _ _ key payload moment row order result actions parsed task organization listed _
      writes moves =>
    have moved := kept.replace moves (by rintro _ ⟨⟩; exact ⟨rfl, by rintro _ ⟨⟩; trivial⟩)
    have ungated := ((inv.sound _ moves.mem).own_taskId parsed task).2
    rw [addCalls_committedJobs]
    split
    · show AllSound _ (add (some row.id) _ _)
      refine moved.add (moves.unique inv.unique (by rintro _ ⟨⟩; rfl))
        ⟨committedRow moment (workerCommit order row.id result actions) row, ?_,
          order.ungatedFor task organization ungated⟩
      exact writes.tasks ▸ List.mem_map.mpr ⟨row, listed, if_pos rfl⟩
    · exact moved

/-- The orders of a task stay alike. -/
theorem StepEffect.readAs {read : Parsed WorkOrder} {id : String} (inv : DeployedInvariant world)
    (effect : StepEffect world world') (present_ : id ∈ world.db.tasks.map (·.id))
    (alike : ReadAs read id world.jobs) : ReadAs read id world'.jobs := by
  cases effect with
  | refused => exact alike
  | created draws input principal free tasks events =>
    show ReadAs read id (add (some draws.recordId) _ world.jobs)
    refine alike.add inv.unique fun named => absurd present_ ?_
    obtain rfl : draws.recordId = id := JsValue.string.inj
      ((own_taskId_dispatchJob draws input principal).symm.trans named)
    exact free
  | moved moves keeps => exact alike.replace moves fun next replaces => (keeps next replaces).1
  | @committed _ _ key payload moment row order result actions parsed task organization listed _
      writes moves =>
    have moved := alike.replace moves (by rintro _ ⟨⟩; rfl)
    obtain ⟨named, ungated⟩ := (inv.sound _ moves.mem).own_taskId parsed task
    rw [addCalls_committedJobs]
    split
    · show ReadAs read id (add (some row.id) _ _)
      refine moved.add (moves.unique inv.unique (by rintro _ ⟨⟩; rfl)) fun own => ?_
      rw [(order.orderFor task organization).task] at own
      rw [parseWorkOrder_retried parsed ungated, ← parsed]
      exact alike _ moves.mem (named.trans own)
    · exact moved

/-- The first order of a task is the one that its dispatch built. -/
theorem DeployedInvariant.readAs_created (inv : DeployedInvariant world) {draws : Draws}
    (input : DispatchInput) (principal : PrincipalContext)
    (free : draws.recordId ∉ world.db.tasks.map (·.id)) :
    ReadAs (parseWorkOrder (dispatchJob draws input principal).payload) draws.recordId
      (add (some draws.recordId) (dispatchJob draws input principal).payload world.jobs) := by
  refine ReadAs.add (fun job hJob named => absurd ?_ free) inv.unique fun _ => rfl
  obtain ⟨about, hAbout, ungated⟩ := (inv.sound job hJob).order
  rw [ungated.toOrderFor.task] at named
  exact List.mem_map.mpr ⟨about, hAbout, JsValue.string.inj named⟩

theorem StepEffect.alike (inv : DeployedInvariant world) (effect : StepEffect world world') :
    ∀ row ∈ world'.db.tasks, ∃ read, ReadAs read row.id world'.jobs := by
  intro row listed
  rcases effect.row_cases listed with before | ⟨draws, input, principal, free, id, jobs⟩
  · obtain ⟨old, hOld, same⟩ := List.mem_map.mp before
    obtain ⟨read, alike⟩ := inv.alike old hOld
    exact ⟨read, effect.readAs inv before (same ▸ alike)⟩
  · rw [jobs, id]
    exact ⟨_, inv.readAs_created input principal free⟩

theorem StepEffect.unheld (inv : DeployedInvariant world) (effect : StepEffect world world') :
    ∀ row ∈ world'.db.tasks, row.status ∈ [.pending, .completed, .failed, .blocked] := by
  intro row listed
  cases effect with
  | refused | moved => exact inv.unheld row listed
  | created draws input principal free tasks events =>
    rw [tasks] at listed
    rcases List.mem_append.mp listed with before | new
    · exact inv.unheld row before
    · obtain rfl := List.mem_singleton.mp new
      exact List.mem_cons_self
  | @committed _ _ _ _ moment about order result actions parsed task organization hAbout pending
      writes moves =>
    rw [writes.tasks] at listed
    obtain ⟨before, hBefore, rfl⟩ := List.mem_map.mp listed
    split
    · show committedStatus (workerCommit order about.id result actions) about ∈ _
      obtain ⟨-, unheld, -⟩ := (inv.sound _ moves.mem).handler _ rfl
      rw [committedStatus]
      split
      · exact List.mem_cons_self
      · show (targetStatusForResult result.status).status ∈ _
        cases status : result.status with
        | approvalRequired => exact absurd status unheld
        | _ => decide
    · exact inv.unheld before hBefore

theorem StepEffect.unrequested (inv : DeployedInvariant world) (effect : StepEffect world world') :
    ∀ event ∈ world'.db.events, event.type ≠ .approvalRequested := by
  intro event listed
  cases effect with
  | refused | moved => exact inv.unrequested event listed
  | created draws input principal free tasks events =>
    rw [events] at listed
    rcases List.mem_append.mp listed with before | new
    · exact inv.unrequested event before
    · obtain rfl := List.mem_singleton.mp new
      exact EventType.noConfusion
  | @committed _ _ _ _ moment about order result actions parsed task organization hAbout pending
      writes moves =>
    obtain ⟨-, -, unrequested⟩ := (inv.sound _ moves.mem).handler _ rfl
    rw [writes.events] at listed
    rcases List.mem_append.mp listed with before | new
    · exact inv.unrequested event before
    · rcases List.mem_append.mp new with traced | retried
      · obtain ⟨envelope, hEnvelope, rfl⟩ := List.mem_map.mp traced
        rintro requested
        exact unrequested (List.mem_map.mpr ⟨envelope, hEnvelope, requested⟩)
      · split at retried
        · obtain rfl := List.mem_singleton.mp retried
          exact EventType.noConfusion
        · cases retried

theorem DeployedInvariant.step (inv : DeployedInvariant world)
    (step : DeployedStep deps world world') : DeployedInvariant world' where
  toQueueInvariant := inv.toQueueInvariant.step step.queueStep
  sound := (step.effect inv).sound inv
  alike := (step.effect inv).alike inv
  unheld := (step.effect inv).unheld inv
  unrequested := (step.effect inv).unrequested inv

theorem DeployedInvariant.dispatched (inv : DeployedInvariant world) (deps : OrchestratorDeps)
    (draws : Draws) (input : DispatchInput) (principal : PrincipalContext) :
    DeployedInvariant ⟨((drizzleTaskDispatcher draws).dispatch input principal world.db).2,
      addCalls (world.db.added ((drizzleTaskDispatcher draws).dispatch input principal world.db).2)
        world.jobs⟩ := by
  have step : DeployedStep deps world _ := .dispatched draws input principal rfl
  exact inv.step step

theorem DeployedInvariant.start {db : Database} (empty : db.tasks = [])
    (unlogged : db.events = []) : DeployedInvariant ⟨db, []⟩ where
  toQueueInvariant := .start empty
  sound _ listed := nomatch listed
  alike := by simp [empty]
  unheld := by simp [empty]
  unrequested := by simp [unlogged]

theorem DeployedInvariant.run (inv : DeployedInvariant world)
    (later : Relation.ReflTransGen (DeployedStep deps) world world') :
    DeployedInvariant world' := by
  induction later with
  | refl => exact inv
  | tail _ step ih => exact ih.step step

end Steps

/-! ### Nothing is held -/

/-- No order of a job has a gate, no row is held for an approval, and none was asked for. -/
structure NothingHeld (world : QueueWorld) : Prop where
  orders : ∀ job ∈ world.jobs, ∀ order, parseWorkOrder job.payload = .ok order →
    order.policy = none ∧ order.budget = none
  rows : ∀ row ∈ world.db.tasks, row.status ∈ [.pending, .completed, .failed, .blocked]
  events : ∀ event ∈ world.db.events, event.type ≠ .approvalRequested

/-- In every run of the deployed system the gates of the orchestrator are idle. -/
theorem deployed_nothingHeld (deps : OrchestratorDeps) (start : Database)
    (empty : start.tasks = []) (unlogged : start.events = []) (world : QueueWorld)
    (reached : Relation.ReflTransGen (DeployedStep deps) ⟨start, []⟩ world) :
    NothingHeld world := by
  have inv := (DeployedInvariant.start empty unlogged).run reached
  refine ⟨fun job listed order parsed => ?_, inv.unheld, inv.unrequested⟩
  obtain ⟨row, -, ungated⟩ := (inv.sound job listed).order
  exact ungated.parsed parsed

theorem crmDispatched_deployed : Relation.ReflTransGen (DeployedStep crmFallbackDeps)
    ⟨⟨[], [], [], List.nodup_nil⟩, []⟩ ⟨crmDispatched, [crmLostJob]⟩ := by
  have dispatched : DeployedStep crmFallbackDeps ⟨⟨[], [], [], List.nodup_nil⟩, []⟩
      ⟨crmDispatched, [{ crmLostJob with state := .queued }]⟩ := .dispatched _ _ _ rfl
  have took : WorkerStep crmFallbackDeps ⟨crmDispatched, [{ crmLostJob with state := .queued }]⟩
      ⟨crmDispatched, [{ crmLostJob with state := .running .taken }]⟩ :=
    .took _ _ (.intro [] [])
  exact .head dispatched
    (.head (.background (.worked took)) (.single (.background (.failed _ _ _ (.intro [] [])))))

theorem deployed_nothingHeld_crm : NothingHeld ⟨crmDispatched, [crmLostJob]⟩ :=
  deployed_nothingHeld crmFallbackDeps _ rfl rfl _ crmDispatched_deployed

/-! ### One order for each task -/

/-- The orders of the row's task are alike in two worlds, and where none can be read the row stays
as it is. -/
structure KeepsOrder (row : TaskRow) (world later : QueueWorld) : Prop where
  alike : ∀ job ∈ world.jobs, ∀ other ∈ later.jobs, OrderFor job.payload row →
    OrderFor other.payload row → parseWorkOrder other.payload = parseWorkOrder job.payload
  unread : (∃ job ∈ world.jobs, OrderFor job.payload row ∧
    ∀ order, parseWorkOrder job.payload ≠ .ok order) → row ∈ later.db.tasks

section Orders

variable {deps : OrchestratorDeps} {world world' later : QueueWorld} {row : TaskRow}
  {read : Parsed WorkOrder}

theorem DeployedInvariant.readAs (inv : DeployedInvariant world)
    (continued : Relation.ReflTransGen (DeployedStep deps) world later)
    (listed : row ∈ world.db.tasks) (alike : ReadAs read row.id world.jobs) :
    ReadAs read row.id later.jobs ∧ row.id ∈ later.db.tasks.map (·.id) := by
  induction continued with
  | refl => exact ⟨alike, List.mem_map_of_mem listed⟩
  | tail earlier step ih =>
    have effect := step.effect (inv.run earlier)
    obtain ⟨held, hHeld, same⟩ := List.mem_map.mp ih.2
    obtain ⟨row', hRow', id, -⟩ := effect.rows held hHeld
    exact ⟨effect.readAs (inv.run earlier) ih.2 ih.1,
      List.mem_map.mpr ⟨row', hRow', id.trans same⟩⟩

/-- A row whose orders cannot be read is not written. -/
theorem StepEffect.unread (effect : StepEffect world world') (listed : row ∈ world.db.tasks)
    (alike : ReadAs read row.id world.jobs) (inv : DeployedInvariant world)
    (unread : ∀ order, read ≠ .ok order) : row ∈ world'.db.tasks := by
  cases effect with
  | refused | moved => exact listed
  | created draws input principal free tasks events =>
    exact tasks ▸ List.mem_append_left _ listed
  | @committed _ _ key payload _ about order _ _ parsed task organization hAbout pending writes
      moves =>
    refine writes.tasks ▸ List.mem_map.mpr ⟨row, listed, if_neg fun same => ?_⟩
    have named := ((inv.sound _ moves.mem).own_taskId parsed task).1
    have reads := alike _ moves.mem (named.trans (congrArg JsValue.string same.symm))
    exact unread order (reads.symm.trans parsed)

theorem DeployedInvariant.keepsOrder (inv : DeployedInvariant world)
    (continued : Relation.ReflTransGen (DeployedStep deps) world later)
    (listed : row ∈ world.db.tasks) : KeepsOrder row world later := by
  obtain ⟨read, alike⟩ := inv.alike row listed
  refine ⟨fun job hJob other hOther for_ hFor => ?_, ?_⟩
  · rw [alike job hJob for_.task]
    exact (inv.readAs continued listed alike).1 other hOther hFor.task
  · rintro ⟨job, hJob, for_, unread⟩
    rw [alike job hJob for_.task] at unread
    induction continued with
    | refl => exact listed
    | tail earlier step ih =>
      exact (step.effect (inv.run earlier)).unread ih (inv.readAs earlier listed alike).1
        (inv.run earlier) unread

end Orders

/-- In every run of the deployed system, all jobs that a task ever has, also those of its retries,
read as the order that it was dispatched with, and a task whose order cannot be read is never
touched. -/
theorem task_keepsOrder (deps : OrchestratorDeps) (start : Database) (empty : start.tasks = [])
    (unlogged : start.events = []) (world later : QueueWorld)
    (reached : Relation.ReflTransGen (DeployedStep deps) ⟨start, []⟩ world)
    (continued : Relation.ReflTransGen (DeployedStep deps) world later) :
    ∀ row ∈ world.db.tasks, KeepsOrder row world later := fun _ listed =>
  ((DeployedInvariant.start empty unlogged).run reached).keepsOrder continued listed

def crmDispatchedRow : TaskRow :=
  taskToRow (crmDraws "task-1").now (newTask (crmDraws "task-1").recordId crmDispatch)
    crmMember.organizationId crmDispatch.requiredCapabilities

theorem task_keepsOrder_crm : KeepsOrder crmDispatchedRow ⟨crmDispatched, [crmLostJob]⟩
    ⟨crmDispatched, [{ crmLostJob with state := .queued }]⟩ :=
  task_keepsOrder crmFallbackDeps _ rfl rfl _ _ crmDispatched_deployed
    (.single (.background (.redelivered _ _ JobKey.noConfusion (.intro [] [])))) _
    (List.mem_singleton.mpr rfl)

/-! ### The workers come to an end -/

/-- How many steps a job has left in its delivery; one that publishes has no task. -/
def stepsLeft : JobState Progress → ℕ
  | .queued => 4
  | .running .taken => 3
  | .running (.ran _ _ _ _) => 2
  | .running .finished => 1
  | .running (.publishing _) | .failed => 0

def retriesLeft (row : TaskRow) : ℕ := (row.maxRetries - row.retryCount).toNat

/-- The steps that the workers can take: those of the jobs, and five for each retry. -/
def workLeft (world : QueueWorld) : ℕ :=
  load stepsLeft world.jobs + 5 * (world.db.tasks.map retriesLeft).sum

section Settling

variable {deps : OrchestratorDeps} {world world' : QueueWorld} {db db' : Database} {row : TaskRow}
  {moment : Moment} {input : CommitOutcomeInput}

theorem retriesLeft_committedRow :
    retriesLeft (committedRow moment input row) + (if retries input row then 1 else 0) =
      retriesLeft row := by
  cases retry : retries input row with
  | true =>
    have room := lt_of_retries retry
    simp only [retriesLeft, committedRow, retry, if_true]
    omega
  | false => simp [retriesLeft, committedRow, retry]

/-- A commit that retries takes one of the retries that are left. -/
theorem Committed.retriesLeft_le (writes : Committed moment input row db db')
    (listed : row ∈ db.tasks) : (db'.tasks.map retriesLeft).sum +
      (if retries input row then 1 else 0) ≤ (db.tasks.map retriesLeft).sum := by
  have here : retriesLeft (committedRow moment input row) +
      (if retries input row then 1 else 0) = retriesLeft row := retriesLeft_committedRow
  have each : ∀ other ∈ db.tasks,
      retriesLeft (if other.id = row.id then committedRow moment input row else other) ≤
        retriesLeft other := by
    intro other hOther
    split
    · next same =>
      obtain rfl := db.eq_of_id hOther listed same
      omega
    · exact le_rfl
  rw [writes.tasks, List.map_map]
  cases retry : retries input row with
  | false => exact List.sum_le_sum each
  | true =>
    refine List.sum_lt_sum _ _ each ⟨row, listed, ?_⟩
    rw [retry] at here
    simp only [if_true] at here ⊢
    omega

theorem workLeft_moved {jobs' : List (Job JsValue Progress)} {job : Job JsValue Progress}
    {by_ : Option (Job JsValue Progress)} (moves : Replaces job by_ world.jobs jobs')
    (fewer : (by_.map fun next => stepsLeft next.state).getD 0 < stepsLeft job.state) :
    workLeft ⟨world.db, jobs'⟩ < workLeft world := by
  have moved : load stepsLeft jobs' + stepsLeft job.state = load stepsLeft world.jobs +
      (by_.map fun next => stepsLeft next.state).getD 0 := moves.load
  simp only [workLeft]
  omega

theorem WorkerStep.lowers (inv : DeployedInvariant world)
    (step : WorkerStep deps world world') : workLeft world' < workLeft world := by
  cases step with
  | took key payload moves => exact workLeft_moved moves (by simp [stepsLeft])
  | ran key payload platform history parsed run task moves =>
    exact workLeft_moved moves (by simp [stepsLeft])
  | ranAdHoc key payload platform history parsed run task moves =>
    obtain ⟨row, -, ungated⟩ := (inv.sound _ moves.mem).order
    rw [(ungated.toOrderFor.parsed parsed).1] at task
    cases task
  | published key payload moves => exact ((inv.sound _ moves.mem).handler _ rfl).elim
  | publishedAll key payload moves => exact ((inv.sound _ moves.mem).handler _ rfl).elim
  | returned key payload moves => exact workLeft_moved moves (by simp [stepsLeft])
  | @committed jobs' key payload moment order taskId result actions outcome db' run moves =>
    rcases commitOutcome_cases moment (workerCommit order taskId result actions) world.db with
      ⟨reason, skipped, -⟩ | ⟨row, listed, hId, -, -, -, writes⟩
    · rw [run] at skipped
      obtain rfl : db' = world.db := congrArg Prod.snd skipped
      rw [addCalls_nil]
      exact workLeft_moved moves (by simp [stepsLeft])
    · rw [run] at writes
      obtain rfl : row.id = taskId := hId
      have rows := writes.retriesLeft_le listed
      have moved : load stepsLeft jobs' + 2 = load stepsLeft world.jobs + 1 := moves.load
      have added : load stepsLeft (add (some row.id) order.toJs.jsonClone jobs') ≤
          load stepsLeft jobs' + 4 := load_add_le
      rw [Database.added_eq writes.jobs, addCalls_committedJobs]
      simp only [workLeft]
      cases retry : retries (workerCommit order row.id result actions) row with
      | true =>
        simp only [retry, if_true] at rows ⊢
        omega
      | false =>
        simp only [retry, Bool.false_eq_true, if_false] at rows ⊢
        omega

theorem DeployedInvariant.worked (inv : DeployedInvariant world)
    (later : Relation.ReflTransGen (WorkerStep deps) world world') :
    DeployedInvariant world' := by
  induction later with
  | refl => exact inv
  | tail _ step ih => exact ih.step (.background (.worked step))

theorem commitOutcome_returns (moment : Moment) (input : CommitOutcomeInput) (db : Database) :
    ∃ outcome db', commitOutcome moment input db = (.ok outcome, db') := by
  rcases commitOutcome_cases moment input db with
    ⟨reason, skipped, -⟩ | ⟨row, -, -, -, -, applied, -⟩
  · exact ⟨_, _, skipped⟩
  · exact ⟨_, _, Prod.ext applied rfl⟩

/-- Where no worker can take a step, a pending row has a job that failed, or one whose payload its
handler cannot read. -/
theorem DeployedInvariant.settled (inv : DeployedInvariant world)
    (stopped : ∀ next, ¬ WorkerStep deps world next) (listed : row ∈ world.db.tasks)
    (pending : row.status = .pending) : ∃ job ∈ world.jobs, OrderFor job.payload row ∧
      (job.state = .failed ∨
        job.state = .running .taken ∧ ∀ order, parseWorkOrder job.payload ≠ .ok order) := by
  obtain ⟨job, hJob, -, for_, unfinished⟩ := inv.live row listed pending
  have sound := inv.sound job hJob
  refine ⟨job, hJob, for_, ?_⟩
  obtain ⟨key, payload, state⟩ := job
  -- Each other state of the job has a step.
  cases state with
  | queued =>
    obtain ⟨jobs', moves⟩ := exists_replaces (some ⟨key, payload, .running .taken⟩) hJob
    exact absurd (.took key payload moves) (stopped _)
  | failed => exact .inl rfl
  | running progress =>
    cases progress with
    | taken =>
      refine .inr ⟨rfl, fun order parsed => ?_⟩
      obtain ⟨about, -, ungated⟩ := sound.order
      obtain ⟨result, actions, run⟩ :=
        executeWorkOrder_ungated_returns deps (ungated.parsed parsed) .plain []
      obtain ⟨jobs', moves⟩ :=
        exists_replaces (some ⟨key, payload, .running (.ran order row.id result actions)⟩) hJob
      exact stopped _ (.ran key payload .plain [] parsed run (for_.parsed parsed).1 moves)
    | ran order taskId result actions =>
      obtain ⟨jobs', moves⟩ := exists_replaces (some ⟨key, payload, .running .finished⟩) hJob
      obtain ⟨outcome, db', run⟩ := commitOutcome_returns ⟨Platform.plain.fresh [], 0⟩
        (workerCommit order taskId result actions) world.db
      exact absurd (.committed key payload _ run moves) (stopped _)
    | publishing events => exact (sound.handler _ rfl).elim
    | finished => exact absurd rfl (unfinished _ rfl)

end Settling

/-- What the workers do from a world on: they take no more than a number of steps, and where they
can take no more, a pending row has a job that failed, or one whose payload its handler cannot
read. -/
structure WorkersSettle (deps : OrchestratorDeps) (world : QueueWorld) : Prop where
  bounded : ∀ (run : ℕ → QueueWorld) (n : ℕ), run 0 = world →
    (∀ i < n, WorkerStep deps (run i) (run (i + 1))) → n ≤ workLeft world
  settled : ∀ later, Relation.ReflTransGen (WorkerStep deps) world later →
    (∀ next, ¬ WorkerStep deps later next) → ∀ row ∈ later.db.tasks, row.status = .pending →
      ∃ job ∈ later.jobs, OrderFor job.payload row ∧ (job.state = .failed ∨
        job.state = .running .taken ∧ ∀ order, parseWorkOrder job.payload ≠ .ok order)

/-- From every state of the deployed system its workers, left to themselves, come to an end, and
have then settled every task whose jobs did not fail and can be read. -/
theorem workers_settle (deps : OrchestratorDeps) (start : Database) (empty : start.tasks = [])
    (unlogged : start.events = []) (world : QueueWorld)
    (reached : Relation.ReflTransGen (DeployedStep deps) ⟨start, []⟩ world) :
    WorkersSettle deps world := by
  have inv := (DeployedInvariant.start empty unlogged).run reached
  refine ⟨?_, fun later continued stopped row listed pending => ?_⟩
  · rintro run n rfl steps
    have keeps : ∀ before after, DeployedInvariant before → WorkerStep deps before after →
        DeployedInvariant after := fun _ _ inv step => inv.step (.background (.worked step))
    exact Machine.steps_le_measure workLeft keeps (fun _ _ inv step => step.lowers inv) inv steps
  · exact (inv.worked continued).settled stopped listed pending

theorem workers_settle_crm : WorkersSettle crmFallbackDeps ⟨crmDispatched, [crmLostJob]⟩ :=
  workers_settle crmFallbackDeps _ rfl rfl _ crmDispatched_deployed

end Donna
