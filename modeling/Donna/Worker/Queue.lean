import Mathlib.Logic.Relation
import Donna.Base.JobQueue
import Donna.ControlPlane.Access
import Donna.Worker.Outcome
import Donna.Worker.RoundTrip

/-! The task rows and the job queue under the dispatchers and workers that share them.  A job that
ran may be taken again, but only after its handler threw or its worker crashed.  Whatever the
interleaving, a pending task has a job that is still to commit its outcome. -/

namespace Donna

open Js JsValue JobQueue Tables

/-- How far a worker is with a job. -/
inductive Progress
  | taken
  | ran (order : WorkOrder) (taskId : String) (result : WorkOrderResult) (actions : List Action)
  /-- the events of an order without a task that are still to be published -/
  | publishing (events : List EventEnvelope)
  | finished

structure QueueWorld where
  db : Database
  jobs : List (Job JsValue Progress)

/-- The calls of `add_job` in a transaction. -/
def Database.added (before after : Database) : List AddJob := after.jobs.drop before.jobs.length

def addCalls (calls : List AddJob) (jobs : List (Job JsValue Progress)) :
    List (Job JsValue Progress) :=
  calls.foldl (fun jobs call => add (some call.jobKey) call.payload jobs) jobs

/-- `GraphileWorkQueue.enqueue`: a work order under the id of its task. -/
def enqueue (order : WorkOrder) (jobs : List (Job JsValue Progress)) :
    List (Job JsValue Progress) :=
  add order.taskId order.toJs.jsonClone jobs

/-- What a dispatcher, the queue or the handler of one job does next. -/
inductive QueueStep : QueueWorld → QueueWorld → Prop
  | dispatched {world} (draws : Draws) (input : DispatchInput) (principal : PrincipalContext)
      {answer db'}
      (run : (drizzleTaskDispatcher draws).dispatch input principal world.db = (answer, db')) :
      QueueStep world ⟨db', addCalls (world.db.added db') world.jobs⟩
  /-- An order is enqueued for the task that it names, or for none. -/
  | enqueued {world} (order : WorkOrder)
      (task : ∀ id, order.taskId = some id →
        ∃ row ∈ world.db.tasks, row.id = id ∧ row.organizationId = order.organizationId) :
      QueueStep world ⟨world.db, enqueue order world.jobs⟩
  | took {world jobs'} (key : JobKey) (payload : JsValue)
      (moves : Replaces ⟨key, payload, .queued⟩ (some ⟨key, payload, .running .taken⟩)
        world.jobs jobs') :
      QueueStep world ⟨world.db, jobs'⟩
  | ran {world jobs'} (key : JobKey) (payload : JsValue) (platform : Platform)
      (deps : OrchestratorDeps) (history : History) {order result actions taskId}
      (parsed : parseWorkOrder payload = .ok order)
      (run : executeWorkOrder platform order deps.buffered history = (.ok result, actions))
      (task : order.taskId = some taskId)
      (moves : Replaces ⟨key, payload, .running .taken⟩
        (some ⟨key, payload, .running (.ran order taskId result actions)⟩) world.jobs jobs') :
      QueueStep world ⟨world.db, jobs'⟩
  /-- An ad-hoc order with no durable task row. -/
  | ranAdHoc {world jobs'} (key : JobKey) (payload : JsValue) (platform : Platform)
      (deps : OrchestratorDeps) (history : History) {order result actions}
      (parsed : parseWorkOrder payload = .ok order)
      (run : executeWorkOrder platform order deps.buffered history = (.ok result, actions))
      (task : order.taskId = none)
      (moves : Replaces ⟨key, payload, .running .taken⟩
        (some ⟨key, payload, .running (.publishing (drain actions))⟩) world.jobs jobs') :
      QueueStep world ⟨world.db, jobs'⟩
  | published {world jobs'} (key : JobKey) (payload : JsValue) {event events}
      (moves : Replaces ⟨key, payload, .running (.publishing (event :: events))⟩
        (some ⟨key, payload, .running (.publishing events)⟩) world.jobs jobs') :
      QueueStep world ⟨world.db.insertEvents [eventEnvelopeToRow event], jobs'⟩
  | publishedAll {world jobs'} (key : JobKey) (payload : JsValue)
      (moves : Replaces ⟨key, payload, .running (.publishing [])⟩
        (some ⟨key, payload, .running .finished⟩) world.jobs jobs') :
      QueueStep world ⟨world.db, jobs'⟩
  | committed {world jobs'} (key : JobKey) (payload : JsValue) (moment : Moment)
      {order taskId result actions outcome db'}
      (run : commitOutcome moment (workerCommit order taskId result actions) world.db =
        (.ok outcome, db'))
      (moves : Replaces ⟨key, payload, .running (.ran order taskId result actions)⟩
        (some ⟨key, payload, .running .finished⟩) world.jobs jobs') :
      QueueStep world ⟨db', addCalls (world.db.added db') jobs'⟩
  | returned {world jobs'} (key : JobKey) (payload : JsValue)
      (moves : Replaces ⟨key, payload, .running .finished⟩ none world.jobs jobs') :
      QueueStep world ⟨world.db, jobs'⟩
  /-- The handler throws, or the worker crashes, at any point; what it has committed stays. -/
  | failed {world jobs'} (key : JobKey) (payload : JsValue) (progress : Progress)
      (moves : Replaces ⟨key, payload, .running progress⟩ (some ⟨key, payload, .failed⟩)
        world.jobs jobs') :
      QueueStep world ⟨world.db, jobs'⟩
  | redelivered {world jobs'} (key : JobKey) (payload : JsValue) (kept : key ≠ .detached)
      (moves : Replaces ⟨key, payload, .failed⟩ (some ⟨key, payload, .queued⟩) world.jobs jobs') :
      QueueStep world ⟨world.db, jobs'⟩

/-- The payload is an order for the task of a row. -/
structure OrderFor (payload : JsValue) (row : TaskRow) : Prop where
  task : payload.own "taskId" = .string row.id
  organization : payload.own "organizationId" = .string row.organizationId

/-- A job of the row that waits, runs or is to be delivered again, under the id of the row. -/
def HasJob (row : TaskRow) (jobs : List (Job JsValue Progress)) : Prop :=
  ∃ job ∈ jobs, job.jobKey = some row.id ∧ OrderFor job.payload row ∧
    ∀ progress, job.state = .running progress → progress ≠ .finished

/-- What a handler has read in the payload of its job. -/
def Progress.Reads (payload : JsValue) : Progress → Prop
  | .ran order taskId _ _ => parseWorkOrder payload = .ok order ∧ order.taskId = some taskId
  | .publishing _ => ∃ order, parseWorkOrder payload = .ok order ∧ order.taskId = none
  | .taken | .finished => True

/-- What the jobs of a queue owe to the task rows. -/
structure JobsFor (db : Database) (jobs : List (Job JsValue Progress)) : Prop where
  unique : Unique (·.jobKey) jobs
  owned : ∀ job ∈ jobs, ∀ id, job.jobKey = some id →
    ∃ row ∈ db.tasks, row.id = id ∧ OrderFor job.payload row
  reads : ∀ job ∈ jobs, ∀ progress, job.state = .running progress → progress.Reads job.payload

structure QueueInvariant (world : QueueWorld) : Prop extends JobsFor world.db world.jobs where
  live : ∀ row ∈ world.db.tasks, row.status = .pending → HasJob row world.jobs

/-- What a transaction leaves of the task rows: the jobs that it adds are for them, and a row that
it leaves pending has one of these, or it was there and the transaction was not about it. -/
structure Transacts (about : TaskRow → Prop) (before after : Database) : Prop where
  kept : ∀ row ∈ before.tasks, ∃ row' ∈ after.tasks,
    row'.id = row.id ∧ row'.organizationId = row.organizationId
  settled : ∀ row ∈ before.tasks, row.status ≠ .pending → row ∈ after.tasks
  calls : ∀ call ∈ before.added after, ∃ row ∈ after.tasks,
    row.id = call.jobKey ∧ OrderFor call.payload row
  pending : ∀ row ∈ after.tasks, row.status = .pending →
    (∃ call ∈ before.added after, call.jobKey = row.id) ∨ row ∈ before.tasks ∧ ¬ about row

/-! ### Payloads -/

section Payloads

variable {payload : JsValue} {row other : TaskRow} {order : WorkOrder}

theorem OrderFor.of_same (for_ : OrderFor payload row) (id : other.id = row.id)
    (organization : other.organizationId = row.organizationId) : OrderFor payload other :=
  ⟨id ▸ for_.task, organization ▸ for_.organization⟩

/-- The worker reads the task and the organization of the row in the payload. -/
theorem OrderFor.parsed (for_ : OrderFor payload row)
    (parsed : parseWorkOrder payload = .ok order) :
    order.taskId = some row.id ∧ order.organizationId = row.organizationId := by
  obtain ⟨-, organization, -, task, -⟩ := parseWorkOrder_eq_ok.mp parsed
  obtain ⟨organization, -⟩ := requireString_eq_ok.mp organization
  rw [for_.organization] at organization
  rw [optionalString, optionalOf_eq_ok, for_.task] at task
  rcases task with ⟨absent, -⟩ | ⟨-, -, task⟩
  · cases absent
  · exact ⟨task.symm, (JsValue.string.inj organization).symm⟩

theorem WorkOrder.orderFor (task : order.taskId = some row.id)
    (organization : order.organizationId = row.organizationId) :
    OrderFor order.toJs.jsonClone row where
  task := by
    refine own_jsonClone_string ?_
    rw [WorkOrder.own_toJs]
    simp [WorkOrder.table, task]
  organization := by
    refine own_jsonClone_string ?_
    rw [WorkOrder.own_toJs]
    simp [WorkOrder.table, organization]

theorem orderFor_dispatchJob (draws : Draws) (input : DispatchInput)
    (principal : PrincipalContext) (id : row.id = draws.recordId)
    (organization : row.organizationId = principal.organizationId) :
    OrderFor (dispatchJob draws input principal).payload row where
  task := by
    refine own_jsonClone_string ?_
    rw [buildWorkOrder, own_present (by simp [workOrderTable])]
    simp [workOrderTable, newTask, id]
  organization := by
    refine own_jsonClone_string ?_
    rw [buildWorkOrder, own_present (by simp [workOrderTable])]
    simp [workOrderTable, organization]

end Payloads

/-! ### Adding jobs -/

section Calls

variable {db db' : Database} {jobs jobs' : List (Job JsValue Progress)} {row : TaskRow}
  {calls : List AddJob} {key : Option String} {payload : JsValue}

theorem JobsFor.add (sound : JobsFor db jobs)
    (owned : ∀ id, key = some id → ∃ row ∈ db.tasks, row.id = id ∧ OrderFor payload row) :
    JobsFor db (add key payload jobs) where
  unique := unique_add sound.unique
  owned job listed id keyed := by
    rcases mem_add_cases sound.unique listed with rfl | ⟨held, -, rfl⟩ | ⟨before, -⟩
    · rw [Job.jobKey_fresh] at keyed
      exact owned id keyed
    · rw [Job.jobKey_detach] at keyed
      cases keyed
    · exact sound.owned job before id keyed
  reads job listed progress running := by
    rcases mem_add_cases sound.unique listed with rfl | ⟨held, hHeld, rfl⟩ | ⟨before, -⟩
    · cases running
    · exact sound.reads held hHeld progress running
    · exact sound.reads job before progress running

theorem HasJob.fresh (for_ : OrderFor payload row) : HasJob row (add (some row.id) payload jobs) :=
  ⟨_, fresh_mem_add, Job.jobKey_fresh, for_, fun _ running => nomatch running⟩

theorem HasJob.add (has : HasJob row jobs) (for_ : key = some row.id → OrderFor payload row) :
    HasJob row (add key payload jobs) := by
  by_cases same : key = some row.id
  · rw [same]
    exact .fresh (for_ same)
  · obtain ⟨job, listed, keyed, hasOrder, unfinished⟩ := has
    refine ⟨job, mem_add_of_ne listed fun id hKey hJob => same ?_, keyed, hasOrder, unfinished⟩
    rw [hKey, ← hJob, keyed]

theorem JobsFor.addCalls (sound : JobsFor db jobs) (owned : ∀ call ∈ calls, ∃ row ∈ db.tasks,
    row.id = call.jobKey ∧ OrderFor call.payload row) : JobsFor db (addCalls calls jobs) := by
  induction calls generalizing jobs with
  | nil => exact sound
  | cons call rest ih =>
    refine ih (sound.add ?_) fun later listed => owned later (List.mem_cons_of_mem _ listed)
    rintro _ ⟨⟩
    exact owned call List.mem_cons_self

theorem HasJob.addCalls (has : HasJob row jobs)
    (for_ : ∀ call ∈ calls, call.jobKey = row.id → OrderFor call.payload row) :
    HasJob row (addCalls calls jobs) := by
  induction calls generalizing jobs with
  | nil => exact has
  | cons call rest ih =>
    refine ih (has.add fun keyed => ?_) fun later listed =>
      for_ later (List.mem_cons_of_mem _ listed)
    exact for_ call List.mem_cons_self (Option.some.inj keyed)

theorem JobQueue.AllRunning.addCalls {holds : Progress → Prop} (all : AllRunning holds jobs)
    (unique : Unique (·.jobKey) jobs) : AllRunning holds (addCalls calls jobs) := by
  induction calls generalizing jobs with
  | nil => exact all
  | cons call rest ih => exact ih (all.add unique) (unique_add unique)

theorem HasJob.of_call {call : AddJob} (listed : call ∈ calls) (keyed : call.jobKey = row.id)
    (for_ : ∀ call ∈ calls, call.jobKey = row.id → OrderFor call.payload row) :
    HasJob row (Donna.addCalls calls jobs) := by
  obtain ⟨earlier, later, rfl⟩ := List.append_of_mem listed
  rw [Donna.addCalls, List.foldl_append, List.foldl_cons]
  refine HasJob.addCalls ?_ fun other hOther => for_ other (by simp [hOther])
  rw [keyed]
  exact .fresh (for_ call listed keyed)

theorem JobsFor.transacts {about : TaskRow → Prop} (sound : JobsFor db jobs)
    (writes : Transacts about db db') : JobsFor db' jobs where
  unique := sound.unique
  owned job listed id keyed := by
    obtain ⟨row, hRow, hId, for_⟩ := sound.owned job listed id keyed
    obtain ⟨row', hRow', sameId, sameOrganization⟩ := writes.kept row hRow
    exact ⟨row', hRow', sameId.trans hId, for_.of_same sameId sameOrganization⟩
  reads := sound.reads

/-- A transaction keeps the invariant, when the jobs of the rows that it is not about stay. -/
theorem QueueInvariant.transact {about : TaskRow → Prop} (sound : JobsFor db jobs)
    (writes : Transacts about db db')
    (others : ∀ row ∈ db.tasks, row.status = .pending → ¬ about row → HasJob row jobs) :
    QueueInvariant ⟨db', Donna.addCalls (db.added db') jobs⟩ where
  toJobsFor := (sound.transacts writes).addCalls writes.calls
  live row listed pending := by
    have for_ : ∀ call ∈ db.added db', call.jobKey = row.id → OrderFor call.payload row := by
      intro call hCall keyed
      obtain ⟨target, hTarget, hId, hasOrder⟩ := writes.calls call hCall
      rwa [db'.eq_of_id listed hTarget (keyed.symm.trans hId.symm)]
    rcases writes.pending row listed pending with ⟨call, hCall, keyed⟩ | ⟨before, untouched⟩
    · exact .of_call hCall keyed for_
    · exact (others row before pending untouched).addCalls for_

end Calls

/-! ### The transactions -/

section Transactions

variable {db db' : Database} {row : TaskRow} {calls : List AddJob}

theorem Database.added_eq (jobs : db'.jobs = db.jobs ++ calls) : db.added db' = calls := by
  rw [added, jobs, List.drop_left]

theorem Transacts.refl {about : TaskRow → Prop}
    (settled : ∀ row ∈ db.tasks, row.status = .pending → ¬ about row) : Transacts about db db where
  kept row listed := ⟨row, listed, rfl, rfl⟩
  settled _ listed _ := listed
  calls := by simp [Database.added]
  pending row listed pending := .inr ⟨listed, settled row listed pending⟩

theorem dispatch_transacts {draws : Draws} {input : DispatchInput} {principal : PrincipalContext}
    {answer : Except Thrown DispatchResult}
    (run : (drizzleTaskDispatcher draws).dispatch input principal db = (answer, db')) :
    Transacts (fun _ => False) db db' := by
  simp only [drizzleTaskDispatcher] at run
  cases inserted : db.insertTask (taskToRow draws.now (newTask draws.recordId input)
    principal.organizationId input.requiredCapabilities) with
  | none =>
    simp only [inserted, Prod.mk.injEq] at run
    rw [← run.2]
    exact .refl fun _ _ _ => not_false
  | some created =>
    simp only [inserted, Prod.mk.injEq] at run
    have tasks : db'.tasks = db.tasks ++ [taskToRow draws.now (newTask draws.recordId input)
        principal.organizationId input.requiredCapabilities] := by
      rw [← Database.insertTask_tasks inserted, ← run.2]
      rfl
    have added : db.added db' = [dispatchJob draws input principal] := by
      refine Database.added_eq ?_
      rw [← Database.insertTask_jobs inserted, ← run.2]
      rfl
    refine ⟨fun row listed => ⟨row, ?_, rfl, rfl⟩, fun row listed _ => ?_, ?_, ?_⟩
    · exact tasks ▸ List.mem_append_left _ listed
    · exact tasks ▸ List.mem_append_left _ listed
    · intro call listed
      rw [added, List.mem_singleton] at listed
      subst listed
      refine ⟨_, tasks ▸ List.mem_append_right _ (List.mem_singleton_self _), rfl, ?_⟩
      exact orderFor_dispatchJob draws input principal rfl rfl
    · intro row listed _
      rw [tasks] at listed
      rcases List.mem_append.mp listed with before | new
      · exact .inr ⟨before, not_false⟩
      · rw [List.mem_singleton.mp new, added]
        exact .inl ⟨_, List.mem_singleton_self _, rfl⟩

theorem committedStatus_ne_pending {input : CommitOutcomeInput}
    (unretried : retries input row = false) : committedStatus input row ≠ .pending := by
  rw [committedStatus, unretried]
  cases targetStatusForResult input.result.status <;> exact TaskStatus.noConfusion

/-- A commit is about the row that it names. -/
theorem commitOutcome_transacts {moment : Moment} {input : CommitOutcomeInput}
    {output : Except IllegalTaskTransitionError CommitOutcome}
    (task : input.order.taskId = some input.taskId)
    (organization : input.order.organizationId = input.organizationId)
    (run : commitOutcome moment input db = (output, db')) :
    Transacts (fun row => row.id = input.taskId ∧ row.organizationId = input.organizationId)
      db db' := by
  rcases commitOutcome_cases moment input db with
    ⟨reason, skipped, unmatched⟩ | ⟨row, listed, hId, hOrganization, pending, -, committed⟩
  · rw [skipped, Prod.mk.injEq] at run
    rw [← run.2]
    exact .refl fun row listed pending about => unmatched row listed about.1 about.2 pending
  · rw [run] at committed
    have added : db.added db' = committedJobs input row := Database.added_eq committed.jobs
    have here : committedRow moment input row ∈ db'.tasks := by
      rw [committed.tasks]
      exact List.mem_map.mpr ⟨row, listed, if_pos rfl⟩
    have other : ∀ other ∈ db.tasks, other ≠ row → other ∈ db'.tasks := by
      intro other hOther different
      rw [committed.tasks]
      refine List.mem_map.mpr ⟨other, hOther, if_neg fun same => different ?_⟩
      exact db.eq_of_id hOther listed same
    refine ⟨fun before hBefore => ?_, fun before hBefore left => ?_, ?_, ?_⟩
    · by_cases same : before = row
      · exact ⟨_, here, by rw [same]; rfl, by rw [same]; rfl⟩
      · exact ⟨before, other before hBefore same, rfl, rfl⟩
    · refine other before hBefore fun same => left ?_
      rw [same, pending]
    · intro call hCall
      rw [added, committedJobs] at hCall
      split at hCall
      · rw [List.mem_singleton] at hCall
        subst hCall
        exact ⟨_, here, hId, WorkOrder.orderFor (task.trans (congrArg some hId.symm))
          (organization.trans hOrganization.symm)⟩
      · cases hCall
    · intro after hAfter hPending
      rw [committed.tasks] at hAfter
      obtain ⟨before, hBefore, rfl⟩ := List.mem_map.mp hAfter
      by_cases same : before.id = row.id
      · rw [if_pos same] at hPending ⊢
        cases retry : retries input row with
        | true =>
          rw [added, committedJobs, retry]
          exact .inl ⟨_, List.mem_singleton_self _, hId.symm⟩
        | false => exact absurd hPending (committedStatus_ne_pending retry)
      · rw [if_neg same]
        exact .inr ⟨hBefore, fun about => same (about.1.trans hId.symm)⟩

end Transactions

/-! ### What every step keeps -/

section Steps

variable {world world' : QueueWorld} {jobs jobs' : List (Job JsValue Progress)} {db : Database}
  {row : TaskRow} {key : JobKey} {payload : JsValue} {state : JobState Progress}
  {by_ : Option (Job JsValue Progress)}

theorem JobsFor.replace (sound : JobsFor db jobs)
    (moves : Replaces ⟨key, payload, state⟩ by_ jobs jobs')
    (next : ∀ job, by_ = some job → job.key = key ∧ job.payload = payload ∧
      ∀ progress, job.state = .running progress → progress.Reads payload) :
    JobsFor db jobs' where
  unique := moves.unique sound.unique fun job replaces => by
    rw [Job.jobKey, (next job replaces).1]
    rfl
  owned job listed id keyed := by
    rcases moves.mem_cases listed with replaces | before
    · obtain ⟨hKey, hPayload, -⟩ := next job replaces
      rw [hPayload]
      refine sound.owned _ moves.mem id ?_
      rwa [Job.jobKey, ← hKey]
    · exact sound.owned job before id keyed
  reads job listed progress running := by
    rcases moves.mem_cases listed with replaces | before
    · obtain ⟨-, hPayload, hReads⟩ := next job replaces
      rw [hPayload]
      exact hReads progress running
    · exact sound.reads job before progress running

/-- A job that moves on, and has not finished, is still the job of its row. -/
theorem HasJob.move (has : HasJob row jobs) {next : JobState Progress}
    (moves : Replaces ⟨key, payload, state⟩ (some ⟨key, payload, next⟩) jobs jobs')
    (unfinished : ∀ progress, next = .running progress → progress ≠ .finished) :
    HasJob row jobs' := by
  obtain ⟨job, listed, keyed, for_, running⟩ := has
  by_cases same : job = ⟨key, payload, state⟩
  · subst same
    exact ⟨_, moves.mem_by, keyed, for_, unfinished⟩
  · exact ⟨job, moves.mem_of_ne listed same, keyed, for_, running⟩

/-- The job of a row stays when another leaves or finishes. -/
theorem HasJob.other (has : HasJob row jobs) (moves : Replaces ⟨key, payload, state⟩ by_ jobs jobs')
    (different : OrderFor payload row →
      ¬ ∀ progress, state = .running progress → progress ≠ .finished) :
    HasJob row jobs' := by
  obtain ⟨job, listed, keyed, for_, unfinished⟩ := has
  refine ⟨job, moves.mem_of_ne listed ?_, keyed, for_, unfinished⟩
  rintro rfl
  exact different for_ unfinished

theorem JobsFor.move (sound : JobsFor db jobs) {next : JobState Progress}
    (moves : Replaces ⟨key, payload, state⟩ (some ⟨key, payload, next⟩) jobs jobs')
    (reads : ∀ progress, next = .running progress → progress.Reads payload) : JobsFor db jobs' :=
  sound.replace moves fun job replaces => by
    obtain rfl := Option.some.inj replaces
    exact ⟨rfl, rfl, reads⟩

theorem QueueInvariant.move (inv : QueueInvariant world) {next : JobState Progress}
    (moves : Replaces ⟨key, payload, state⟩ (some ⟨key, payload, next⟩) world.jobs jobs')
    (reads : ∀ progress, next = .running progress → progress.Reads payload)
    (unfinished : ∀ progress, next = .running progress → progress ≠ .finished) :
    QueueInvariant ⟨world.db, jobs'⟩ where
  toJobsFor := inv.toJobsFor.move moves reads
  live row listed pending := (inv.live row listed pending).move moves unfinished

theorem QueueInvariant.step (inv : QueueInvariant world) (step : QueueStep world world') :
    QueueInvariant world' := by
  cases step with
  | dispatched draws input principal run =>
    exact .transact inv.toJobsFor (dispatch_transacts run) fun row listed pending _ =>
      inv.live row listed pending
  | enqueued order task =>
    have for_ : ∀ row ∈ world.db.tasks, order.taskId = some row.id →
        OrderFor order.toJs.jsonClone row := by
      intro row listed hTask
      obtain ⟨target, hTarget, hId, organization⟩ := task row.id hTask
      obtain rfl := world.db.eq_of_id hTarget listed hId
      exact WorkOrder.orderFor hTask organization.symm
    refine ⟨inv.toJobsFor.add fun id hTask => ?_, fun row listed pending => ?_⟩
    · obtain ⟨row, listed, rfl, -⟩ := task id hTask
      exact ⟨row, listed, rfl, for_ row listed hTask⟩
    · exact (inv.live row listed pending).add (for_ row listed)
  | took key payload moves =>
    exact inv.move moves (by rintro _ ⟨⟩; trivial) (by rintro _ ⟨⟩; simp)
  | ran key payload platform deps history parsed run task moves =>
    exact inv.move moves (by rintro _ ⟨⟩; exact ⟨parsed, task⟩) (by rintro _ ⟨⟩; simp)
  | ranAdHoc key payload platform deps history parsed run task moves =>
    exact inv.move moves (by rintro _ ⟨⟩; exact ⟨_, parsed, task⟩) (by rintro _ ⟨⟩; simp)
  | published key payload moves =>
    have reads := inv.reads _ moves.mem _ rfl
    have moved := inv.move moves (by rintro _ ⟨⟩; exact reads) (by rintro _ ⟨⟩; simp)
    exact ⟨⟨moved.unique, moved.owned, moved.reads⟩, moved.live⟩
  | publishedAll key payload moves =>
    obtain ⟨order, parsed, adHoc⟩ := inv.reads _ moves.mem _ rfl
    refine ⟨inv.toJobsFor.move moves (by rintro _ ⟨⟩; trivial), fun row listed pending => ?_⟩
    refine (inv.live row listed pending).other moves fun for_ => ?_
    rw [(for_.parsed parsed).1] at adHoc
    cases adHoc
  | committed key payload moment run moves =>
    obtain ⟨parsed, task⟩ := inv.reads _ moves.mem _ rfl
    refine .transact (inv.toJobsFor.move moves (by rintro _ ⟨⟩; trivial))
      (commitOutcome_transacts task rfl run) fun row listed pending untouched => ?_
    -- The job of a row that the commit is not about is not the one that commits.
    refine (inv.live row listed pending).other moves fun for_ => absurd ?_ untouched
    obtain ⟨hTask, organization⟩ := for_.parsed parsed
    exact ⟨Option.some.inj (hTask.symm.trans task), organization.symm⟩
  | returned key payload moves =>
    refine ⟨inv.toJobsFor.replace moves (fun _ gone => nomatch gone), fun row listed pending => ?_⟩
    exact (inv.live row listed pending).other moves fun _ unfinished => unfinished _ rfl rfl
  | failed key payload progress moves =>
    exact inv.move moves (fun _ running => nomatch running) fun _ running => nomatch running
  | redelivered key payload kept moves =>
    exact inv.move moves (fun _ running => nomatch running) fun _ running => nomatch running

theorem QueueStep.settled (inv : QueueInvariant world) (step : QueueStep world world')
    (listed : row ∈ world.db.tasks) (left : row.status ≠ .pending) : row ∈ world'.db.tasks := by
  cases step with
  | dispatched draws input principal run =>
    exact (dispatch_transacts run).settled row listed left
  | committed key payload moment run moves =>
    obtain ⟨-, task⟩ := inv.reads _ moves.mem _ rfl
    exact (commitOutcome_transacts task rfl run).settled row listed left
  | _ => exact listed

theorem QueueInvariant.start (empty : db.tasks = []) : QueueInvariant ⟨db, []⟩ where
  unique := List.nodup_nil
  owned _ listed := nomatch listed
  reads _ listed := nomatch listed
  live row listed := by
    rw [empty] at listed
    cases listed

theorem QueueInvariant.reachable (empty : db.tasks = [])
    (reached : Relation.ReflTransGen QueueStep ⟨db, []⟩ world) : QueueInvariant world := by
  induction reached with
  | refl => exact .start empty
  | tail _ step inv => exact inv.step step

theorem QueueInvariant.settled (inv : QueueInvariant world)
    (later : Relation.ReflTransGen QueueStep world world') (listed : row ∈ world.db.tasks)
    (left : row.status ≠ .pending) : QueueInvariant world' ∧ row ∈ world'.db.tasks := by
  induction later with
  | refl => exact ⟨inv, listed⟩
  | tail _ step ih => exact ⟨ih.1.step step, step.settled ih.1 ih.2 left⟩

end Steps

/-! ### Pending tasks -/

/-- Every pending row has a job, no two jobs have one key, and a row that has left `pending` stays
as it is. -/
structure TasksHaveJobs (world : QueueWorld) : Prop where
  live : ∀ row ∈ world.db.tasks, row.status = .pending → HasJob row world.jobs
  unique : Unique (·.jobKey) world.jobs
  settled : ∀ later, Relation.ReflTransGen QueueStep world later →
    ∀ row ∈ world.db.tasks, row.status ≠ .pending → row ∈ later.db.tasks

/-- In every run of dispatchers, workers and the queue from a database without tasks, with crashes
and redeliveries, a pending task has a live job. -/
theorem pendingTask_hasJob (start : Database) (empty : start.tasks = []) (world : QueueWorld)
    (reached : Relation.ReflTransGen QueueStep ⟨start, []⟩ world) : TasksHaveJobs world where
  live := (QueueInvariant.reachable empty reached).live
  unique := (QueueInvariant.reachable empty reached).unique
  settled _ later _ listed left :=
    ((QueueInvariant.reachable empty reached).settled later listed left).2

def crmDispatch : DispatchInput where
  requiredCapabilities := ["crm.merge"]
  objectiveId := "objective-1"
  goal := "Merge the duplicates"
  definitionOfDone := "One record for each contact"

def crmDispatched : Database :=
  ((drizzleTaskDispatcher (crmDraws "task-1")).dispatch crmDispatch crmMember
    ⟨[], [], [], List.nodup_nil⟩).2

/-- The job of the dispatched task, which a worker took and lost. -/
def crmLostJob : Job JsValue Progress :=
  ⟨.attached "task-1", (dispatchJob (crmDraws "task-1") crmDispatch crmMember).payload, .failed⟩

theorem crmDispatched_reached : Relation.ReflTransGen QueueStep ⟨⟨[], [], [], List.nodup_nil⟩, []⟩
    ⟨crmDispatched, [crmLostJob]⟩ := by
  have dispatched : QueueStep ⟨⟨[], [], [], List.nodup_nil⟩, []⟩
      ⟨crmDispatched, [{ crmLostJob with state := .queued }]⟩ := .dispatched _ _ _ rfl
  have took : QueueStep ⟨crmDispatched, [{ crmLostJob with state := .queued }]⟩
      ⟨crmDispatched, [{ crmLostJob with state := .running .taken }]⟩ :=
    .took _ _ (.intro [] [])
  exact .head dispatched (.head took (.single (.failed _ _ _ (.intro [] []))))

theorem pendingTask_hasJob_crm : TasksHaveJobs ⟨crmDispatched, [crmLostJob]⟩ :=
  pendingTask_hasJob _ rfl _ crmDispatched_reached

end Donna
