import Donna.Worker.Outbox
import Donna.Worker.Recorded

/-! What subscribers learn of the tasks.  The dispatchers of the outbox read the table that the
transactions of tasks write, in any interleaving with them.  An event may be published twice, and in
an order of its own, but a subscriber that counts each event once counts the attempts at each task,
and is told of a completion only where the row is completed. -/

namespace Donna

open Js JobQueue EventLog OutboxWorld

/-! ### The tables and the dispatchers -/

structure DeliveryWorld where
  queue : QueueWorld
  runs : ℕ → BatchRun
  published : List (ℕ × EventEnvelope)
  marks : List (ℕ × EventEnvelope)

def Database.withEvents (db : Database) (events : List EventRow) : Database :=
  { db with events := events }

namespace DeliveryWorld

/-- The outbox that the events table is. -/
def outbox (world : DeliveryWorld) : OutboxWorld (List EventRow) where
  state := world.queue.db.events
  runs := world.runs
  written := world.queue.db.events.map rowToEnvelope
  published := world.published
  marks := world.marks

/-- The world after a step of a dispatcher. -/
def relay (world : DeliveryWorld) (after : OutboxWorld (List EventRow)) : DeliveryWorld where
  queue := ⟨world.queue.db.withEvents after.state, world.queue.jobs⟩
  runs := after.runs
  published := after.published
  marks := after.marks

def start (db : Database) : DeliveryWorld where
  queue := ⟨db, []⟩
  runs _ := .idle
  published := []
  marks := []

end DeliveryWorld

/-- A step of a dispatcher, which writes no event. -/
def RelayStep {σ : Type} (store : OutboxStore σ) (world after : OutboxWorld σ) : Prop :=
  OutboxStep store world after ∧ after.written = world.written

inductive DeliveryStep : DeliveryWorld → DeliveryWorld → Prop
  /-- The ids are random, and the primary key of the table. -/
  | wrote {world queue'} (step : QueueStep world.queue queue')
      (fresh : (queue'.db.events.map (·.id)).Nodup) :
      DeliveryStep world { world with queue := queue' }
  | relayed {world after} (step : RelayStep drizzleOutboxStore world.outbox after) :
      DeliveryStep world (world.relay after)

/-- A step of a dispatcher in the system. -/
def DispatcherStep (world later : DeliveryWorld) : Prop :=
  ∃ after, RelayStep drizzleOutboxStore world.outbox after ∧ later = world.relay after

/-! ### The dispatchers on their own -/

section Relays

variable {σ : Type} {store : OutboxStore σ} {represents : store.Represents}
  {world after : OutboxWorld σ} {run : ℕ}

/-- A run that has fetched its batch can publish it. -/
theorem publishAll {pending delivered : List EventEnvelope}
    (stands : world.runs run = .publishing pending delivered) :
    ∃ later, Relation.ReflTransGen (RelayStep store) world later ∧
      later.runs run = .publishing [] (delivered ++ pending) ∧ later.written = world.written ∧
      later.marks = world.marks := by
  induction pending generalizing world delivered with
  | nil => exact ⟨world, .refl, by rw [stands, List.append_nil], rfl, rfl⟩
  | cons event rest ih =>
    let next : OutboxWorld σ :=
      { world.setRun run (.publishing rest (delivered ++ [event])) with
        published := world.published ++ [(run, event)] }
    have step : RelayStep store world next := ⟨.publish run stands, rfl⟩
    have stands' : next.runs run = .publishing rest (delivered ++ [event]) :=
      setRun_runs_self world run _
    obtain ⟨later, relayed, done, written, marks⟩ := ih stands'
    refine ⟨later, .head step relayed, ?_, written, marks⟩
    rw [done, List.append_assoc]
    rfl

theorem OutboxInvariant.relays (inv : OutboxInvariant represents world)
    (relayed : Relation.ReflTransGen (RelayStep store) world after) :
    OutboxInvariant represents after ∧ after.written = world.written := by
  induction relayed with
  | refl => exact ⟨inv, rfl⟩
  | tail _ step ih => exact ⟨ih.1.step step.1, step.2.trans ih.2⟩

/-- An idle run can deliver all that is left. -/
theorem OutboxInvariant.drains (inv : OutboxInvariant represents world)
    (idle : world.runs run = .idle) :
    ∃ later, Relation.ReflTransGen (RelayStep store) world later ∧
      store.unpublished later.state = [] := by
  let limit := (store.unpublished world.state).length + 1
  obtain ⟨batch, fetched⟩ := represents.resolves limit world.state
  have fetch : RelayStep store world _ :=
    ⟨.fetch run limit batch (Nat.succ_pos _) idle fetched, rfl⟩
  obtain ⟨ordered, perm, rfl⟩ := represents.fetched inv.represented fetched
  rw [← represents.unpublished inv.represented] at perm
  rw [List.take_of_length_le (by rw [perm.length_eq]; omega)] at fetch
  obtain ⟨read, relayed, done, written, marks⟩ :=
    @publishAll _ store _ _ _ _ (setRun_runs_self world run (.publishing ordered []))
  rw [List.nil_append] at done
  cases ordered with
  | nil => exact ⟨world, .refl, perm.symm.eq_nil⟩
  | cons first rest =>
    have mark : RelayStep store read _ := ⟨.mark run 0 done (List.cons_ne_nil _ _), rfl⟩
    have whole := Relation.ReflTransGen.head fetch (relayed.tail mark)
    obtain ⟨after, -⟩ := inv.relays whole
    refine ⟨_, whole, List.eq_nil_iff_forall_not_mem.mpr fun event left => ?_⟩
    have unmarked := after.unpublished ▸ left
    obtain ⟨listed, -⟩ := List.mem_filter.mp unmarked
    have open_ := (after.mem_unpublished_iff listed).mp left
    have before : event ∈ store.unpublished world.state := by
      refine (inv.mem_unpublished_iff (written ▸ listed)).mpr fun other marked => open_ other ?_
      exact List.mem_append_left _ (marks ▸ marked)
    have fetched' := decide_eq_true (List.mem_map_of_mem (f := (·.id)) (perm.symm.subset before))
    exact open_ run (List.mem_append_right _
      (List.mem_map_of_mem (List.mem_filter.mpr ⟨listed, fetched'⟩)))

/-- Some run has not begun. -/
def Unused (world : OutboxWorld σ) : Prop := ∃ bound, ∀ run, bound ≤ run → world.runs run = .idle

theorem Unused.setRun (unused : Unused world) (run : ℕ) (stands : BatchRun) :
    Unused (world.setRun run stands) := by
  obtain ⟨bound, idle⟩ := unused
  refine ⟨max bound (run + 1), fun other later => ?_⟩
  rw [setRun_runs_of_ne world (show other ≠ run by omega)]
  exact idle other (by omega)

theorem Unused.step (unused : Unused world) (step : OutboxStep store world after) :
    Unused after := by
  cases step with
  | write events fresh => exact unused
  | fetch run limit batch positive stands fetched => exact unused.setRun run _
  | publish run stands => exact unused.setRun run _
  | reject run stands => exact unused.setRun run _
  | mark run now stands some => exact unused.setRun run _
  | skip run stands => exact unused.setRun run _
  | return_ run stands => exact unused.setRun run _
  | crash run active => exact unused.setRun run _

end Relays

/-! ### Counting events -/

/-- The types of an outcome. -/
def EventType.isOutcome : EventType → Bool
  | .taskCompleted | .taskFailed | .taskBlocked | .approvalRequested => true
  | _ => false

/-- What a collection of events counts of a task. -/
def Tally.ofEvents (events : List EventEnvelope) (id : String) : Tally where
  created := events.countP fun event => event.taskId = some id ∧ event.type = .taskCreated
  retried := events.countP fun event => event.taskId = some id ∧ event.type = .taskRetried
  outcomes := events.countP fun event => event.taskId = some id ∧ event.type.isOutcome

/-- The tally is below the other, count by count. -/
structure Tally.Below (tally other : Tally) : Prop where
  created : tally.created ≤ other.created
  retried : tally.retried ≤ other.retried
  outcomes : tally.outcomes ≤ other.outcomes

section Counts

variable {events events' : List EventEnvelope} {id : String}

theorem Tally.ofEvents_snoc (events : List EventEnvelope) (event : EventEnvelope) :
    ofEvents (events ++ [event]) id =
      if event.taskId = some id then (ofEvents events id).after event.type
      else ofEvents events id := by
  simp only [ofEvents, List.countP_append, List.countP_singleton]
  by_cases named : event.taskId = some id
  · rw [if_pos named]
    cases type : event.type <;> simp [named, after, EventType.isOutcome]
  · simp [named]

/-- What the log tallies of a task depends on no order. -/
theorem tallyOf_eq_ofEvents (log : List EventRow) (id : String) :
    tallyOf log id = .ofEvents (log.map rowToEnvelope) id := by
  induction log using List.reverseRecOn with
  | nil => rfl
  | append_singleton log event ih =>
    rw [List.map_append, List.map_singleton, Tally.ofEvents_snoc, ← ih, tallyOf, tallyOf,
      replay_append]
    by_cases named : event.taskId = some id
    · rw [if_pos (show (rowToEnvelope event).taskId = _ from named),
        replay_of_named (by simpa using named)]
      rfl
    · rw [if_neg (show ¬ (rowToEnvelope event).taskId = _ from named),
        replay_of_other (by simpa using named)]

theorem Tally.ofEvents_perm (same : events.Perm events') :
    ofEvents events id = ofEvents events' id := by
  simp only [ofEvents, same.countP_eq]

theorem Tally.ofEvents_below (within : events.Subperm events') :
    (ofEvents events id).Below (ofEvents events' id) :=
  ⟨within.countP_le _, within.countP_le _, within.countP_le _⟩

end Counts

/-! ### Completions -/

/-- The log tells of the completion of a task only if its row is completed. -/
def CompletionsHold (db : Database) : Prop :=
  ∀ event ∈ db.events, event.type = .taskCompleted → ∀ id, event.taskId = some id →
    ∃ row ∈ db.tasks, row.id = id ∧ row.status = .completed

section Completions

variable {db db' : Database} {row : TaskRow} {moment : Moment} {order : WorkOrder}
  {taskId : String} {result : WorkOrderResult} {actions : List Action} {count : ℕ}
  {status : WorkOrderStatus} {types : List EventType}

theorem TraceShape.completed (shape : TraceShape count status types)
    (told : .taskCompleted ∈ types) : status = .completed := by
  cases shape with
  | denied => simp at told
  | approval => simp at told
  | planned notDenied notApproval =>
    rcases List.mem_cons.mp told with planned | later
    · cases planned
    · rcases List.mem_append.mp later with started | outcome
      · exact absurd (mem_startEvents started) (by decide)
      · have type := List.mem_singleton.mp outcome
        cases status <;> first | rfl | cases type

theorem committedEvents_completed (shape : TraceShape count result.status (eventTypes actions))
    {event : EventRow}
    (listed : event ∈ committedEvents moment (workerCommit order taskId result actions) row)
    (completed : event.type = .taskCompleted) : result.status = .completed := by
  rcases List.mem_append.mp listed with traced | retried
  · obtain ⟨envelope, hEnvelope, rfl⟩ := List.mem_map.mp traced
    refine shape.completed ?_
    rw [← completed]
    exact List.mem_map_of_mem hEnvelope
  · split at retried
    · obtain rfl := List.mem_singleton.mp retried
      cases completed
    · cases retried

theorem CompletionsHold.dispatched (holds : CompletionsHold db) (draws : Draws)
    (input : DispatchInput) (principal : PrincipalContext) :
    CompletionsHold ((drizzleTaskDispatcher draws).dispatch input principal db).2 := by
  rcases dispatch_cases draws input principal db with
    ⟨-, refused⟩ | ⟨free, after, accepted, tasks, events, jobs⟩
  · rw [refused]
    exact holds
  · rw [accepted]
    intro event listed completed id names
    rw [events] at listed
    rcases List.mem_append.mp listed with before | new
    · obtain ⟨row, hRow, hId, hStatus⟩ := holds event before completed id names
      exact ⟨row, tasks ▸ List.mem_append_left _ hRow, hId, hStatus⟩
    · obtain rfl := List.mem_singleton.mp new
      cases completed

theorem CompletionsHold.publish (holds : CompletionsHold db) {event : EventEnvelope}
    (adHoc : event.taskId = none) :
    CompletionsHold (db.insertEvents [eventEnvelopeToRow event]) := by
  intro told listed completed id names
  rcases List.mem_append.mp listed with before | new
  · exact holds told before completed id names
  · obtain rfl := List.mem_singleton.mp new
    exact absurd (names.symm.trans adHoc) (Option.some_ne_none id)

/-- A commit completes the row whose completion it tells of, and takes back no other completion. -/
theorem CompletionsHold.committed (holds : CompletionsHold db) (own : OwnEvents order actions)
    (shape : TraceShape count result.status (eventTypes actions))
    (task : order.taskId = some taskId) (moment : Moment) :
    CompletionsHold (commitOutcome moment (workerCommit order taskId result actions) db).2 := by
  rcases commitOutcome_cases moment (workerCommit order taskId result actions) db with
    ⟨reason, skipped, -⟩ | ⟨about, hAbout, hId, hOrganization, pending, -, committed⟩
  · rw [skipped]
    exact holds
  · intro event listed completed id names
    rw [committed.events] at listed
    rw [committed.tasks]
    rcases List.mem_append.mp listed with before | new
    · obtain ⟨row, hRow, rfl, hStatus⟩ := holds event before completed id names
      refine ⟨row, List.mem_map.mpr ⟨row, hRow, if_neg fun same => ?_⟩, rfl, hStatus⟩
      rw [db.eq_of_id hRow hAbout same, pending] at hStatus
      cases hStatus
    · obtain ⟨-, hTask⟩ := committedEvents_named own task event new
      obtain rfl := Option.some.inj (hTask.symm.trans names)
      have done := committedEvents_completed shape new completed
      refine ⟨committedRow moment (workerCommit order taskId result actions) about,
        List.mem_map.mpr ⟨about, hAbout, if_pos rfl⟩, hId, ?_⟩
      simp [committedRow, committedStatus, retries, workerCommit, done, targetStatusForResult,
        TargetStatus.status]

theorem CompletionsHold.step {world world' : QueueWorld} (holds : CompletionsHold world.db)
    (inv : LogInvariant world) (step : QueueStep world world') : CompletionsHold world'.db := by
  cases step with
  | dispatched draws input principal run =>
    have after := holds.dispatched draws input principal
    rwa [run] at after
  | published key payload moves =>
    exact holds.publish (inv.handlers _ moves.mem _ rfl _ List.mem_cons_self)
  | committed key payload moment run moves =>
    obtain ⟨own, count, shape⟩ := inv.handlers _ moves.mem _ rfl
    have after := holds.committed own shape (inv.reads _ moves.mem _ rfl).2 moment
    rwa [run] at after
  | _ => exact holds

theorem status_completed_after {view : TaskView} {type : EventType}
    (completed : (view.after type).status = .completed) :
    type = .taskCompleted ∨ view.status = .completed := by
  cases type <;> first | exact .inl rfl | exact .inr completed | cases completed

/-- What the log tells to be completed, an event has completed. -/
theorem foldl_tellTask_completed {log : List EventRow} {view : TaskView}
    (told : log.foldl tellTask none = some view) (completed : view.status = .completed) :
    ∃ event ∈ log, event.type = .taskCompleted := by
  induction log using List.reverseRecOn generalizing view with
  | nil => cases told
  | append_singleton log event ih =>
    rw [List.foldl_append, List.foldl_cons, List.foldl_nil] at told
    cases before : log.foldl tellTask none with
    | none =>
      rw [before, tellTask] at told
      split at told
      · obtain rfl := Option.some.inj told
        cases completed
      · cases told
    | some earlier =>
      rw [before, tellTask] at told
      obtain rfl := Option.some.inj told
      rcases status_completed_after completed with now | stays
      · exact ⟨event, List.mem_append_right _ (List.mem_singleton_self _), now⟩
      · obtain ⟨found, listed, type⟩ := ih before stays
        exact ⟨found, List.mem_append_left _ listed, type⟩

theorem LogTells.completed (tells : LogTells db) (listed : row ∈ db.tasks)
    (completed : row.status = .completed) :
    ∃ event ∈ db.events, event.taskId = some row.id ∧ event.type = .taskCompleted := by
  obtain ⟨event, hEvent, type⟩ := foldl_tellTask_completed (tells.told_row listed) completed
  obtain ⟨hListed, names⟩ := List.mem_filter.mp hEvent
  exact ⟨event, hListed, of_decide_eq_true names, type⟩

end Completions

/-! ### Every interleaving -/

structure DeliveryInvariant (world : DeliveryWorld) : Prop where
  records : RecordInvariant world.queue
  completions : CompletionsHold world.queue.db
  outbox : OutboxInvariant drizzleRepresents world.outbox
  unused : Unused world.outbox

section Steps

variable {db : Database} {events : List EventRow} {queue queue' : QueueWorld}
  {world world' : DeliveryWorld} {after : OutboxWorld (List EventRow)}

/-- Each row of a table stands for an event that the other table has too. -/
theorem exists_of_envelopes (same : events.map rowToEnvelope = db.events.map rowToEnvelope)
    {event : EventRow} (listed : event ∈ events) :
    ∃ written ∈ db.events, rowToEnvelope written = rowToEnvelope event :=
  List.mem_map.mp (same ▸ List.mem_map_of_mem listed)

theorem toldTask_envelopes (log : List EventRow) (id : String) :
    toldTask log id = replay (·.taskId) (fun view event => tellTask view (eventEnvelopeToRow event))
      none (log.map rowToEnvelope) id := by
  have alike : (fun view event => tellTask view (eventEnvelopeToRow (rowToEnvelope event))) =
      tellTask := by
    funext view event
    cases view <;> rfl
  rw [replay_map, alike]
  rfl

/-- What is kept of the log does not depend on what is dispatched. -/
theorem RecordInvariant.withEvents (inv : RecordInvariant queue)
    (same : events.map rowToEnvelope = queue.db.events.map rowToEnvelope) :
    RecordInvariant ⟨queue.db.withEvents events, queue.jobs⟩ := by
  refine ⟨⟨⟨⟨inv.unique, inv.owned, inv.reads⟩, inv.live⟩, ⟨fun id => ?_, ?_⟩, inv.handlers⟩,
    fun row listed => ?_, inv.recorded.rests⟩
  · have told := inv.log.told id
    rw [toldTask_envelopes, ← same, ← toldTask_envelopes] at told
    exact told
  · intro event listed id names
    obtain ⟨written, hWritten, envelope⟩ := exists_of_envelopes same listed
    have taskId : written.taskId = event.taskId := congrArg EventEnvelope.taskId envelope
    have organizationId : written.organizationId = event.organizationId :=
      congrArg EventEnvelope.organizationId envelope
    exact organizationId ▸ inv.log.named written hWritten id (taskId.trans names)
  · refine (inv.recorded.attempts row listed).of_tally ?_
    rw [tallyOf_eq_ofEvents, tallyOf_eq_ofEvents]
    exact congrArg (Tally.ofEvents · row.id) same

theorem CompletionsHold.withEvents (holds : CompletionsHold db)
    (same : events.map rowToEnvelope = db.events.map rowToEnvelope) :
    CompletionsHold (db.withEvents events) := by
  intro event listed completed id names
  obtain ⟨written, hWritten, envelope⟩ := exists_of_envelopes same listed
  have type : written.type = event.type := congrArg EventEnvelope.type envelope
  have taskId : written.taskId = event.taskId := congrArg EventEnvelope.taskId envelope
  exact holds written hWritten (type.trans completed) id (taskId.trans names)

/-- What a step of a worker or a dispatcher of tasks writes, it appends. -/
theorem QueueStep.appends (step : QueueStep queue queue') : ∃ more : List EventEnvelope,
    queue'.db.events = queue.db.events ++ more.map eventEnvelopeToRow := by
  cases step with
  | dispatched draws input principal run =>
    rcases dispatch_cases draws input principal queue.db with
      ⟨-, refused⟩ | ⟨free, after, accepted, tasks, events, jobs⟩
    · rw [run] at refused
      obtain ⟨-, rfl⟩ := Prod.ext_iff.mp refused
      exact ⟨[], by simp⟩
    · rw [run] at accepted
      obtain ⟨-, rfl⟩ := Prod.ext_iff.mp accepted
      exact ⟨[taskCreated draws input principal], events⟩
  | @published jobs' key payload event rest moves => exact ⟨[event], rfl⟩
  | @committed jobs' key payload moment order taskId result actions outcome db' run moves =>
    rcases commitOutcome_cases moment (workerCommit order taskId result actions) queue.db with
      ⟨reason, skipped, -⟩ | ⟨about, -, -, -, -, -, committed⟩
    · rw [run] at skipped
      obtain ⟨-, rfl⟩ := Prod.ext_iff.mp skipped
      exact ⟨[], by simp⟩
    · rw [run] at committed
      refine ⟨drain actions ++ if retries (workerCommit order taskId result actions) about then
        [retryEvent moment (workerCommit order taskId result actions) about] else [], ?_⟩
      refine committed.events.trans (congrArg (queue.db.events ++ ·) ?_)
      rw [committedEvents, List.map_append]
      split <;> rfl
  | _ => exact ⟨[], by simp⟩

/-- After a step of a dispatcher the table is the outbox that it left. -/
theorem outbox_relay (inv : OutboxInvariant drizzleRepresents after) :
    (world.relay after).outbox = after := by
  have written : after.written = after.state.map rowToEnvelope := inv.represented.1
  rw [DeliveryWorld.outbox, DeliveryWorld.relay, Database.withEvents]
  exact written ▸ rfl

theorem DeliveryInvariant.wrote (inv : DeliveryInvariant world)
    (step : QueueStep world.queue queue') (fresh : (queue'.db.events.map (·.id)).Nodup) :
    DeliveryInvariant { world with queue := queue' } := by
  obtain ⟨more, grown⟩ := step.appends
  have envelopes : queue'.db.events.map rowToEnvelope = world.outbox.written ++ more := by
    simp [grown, DeliveryWorld.outbox, Function.comp_def]
  refine ⟨inv.records.step step, inv.completions.step inv.records.toLogInvariant step, ?_,
    inv.unused⟩
  have distinct : ((world.outbox.written ++ more).map (·.id)).Nodup := by
    rw [← envelopes, List.map_map]
    exact fresh
  have written := inv.outbox.write more distinct
  rw [DeliveryWorld.outbox, envelopes]
  dsimp only
  rw [grown]
  exact written

theorem DeliveryInvariant.relayed (inv : DeliveryInvariant world)
    (step : RelayStep drizzleOutboxStore world.outbox after) :
    DeliveryInvariant (world.relay after) ∧ (world.relay after).outbox = after := by
  have outbox := inv.outbox.step step.1
  have back : (world.relay after).outbox = after := outbox_relay outbox
  have same : after.state.map rowToEnvelope = world.queue.db.events.map rowToEnvelope := by
    rw [← show after.written = _ from outbox.represented.1, step.2]
    rfl
  refine ⟨⟨inv.records.withEvents same, inv.completions.withEvents same, ?_, ?_⟩, back⟩
  · rw [back]
    exact outbox
  · rw [back]
    exact inv.unused.step step.1

/-- What the dispatchers do on their own, they do in the system. -/
theorem DeliveryInvariant.relays (inv : DeliveryInvariant world)
    (relayed : Relation.ReflTransGen (RelayStep drizzleOutboxStore) world.outbox after) :
    ∃ later, Relation.ReflTransGen DispatcherStep world later ∧ later.outbox = after ∧
      later.queue.db.tasks = world.queue.db.tasks ∧ later.queue.jobs = world.queue.jobs ∧
      DeliveryInvariant later := by
  induction relayed with
  | refl => exact ⟨world, .refl, rfl, rfl, rfl, inv⟩
  | tail _ step ih =>
    obtain ⟨later, reached, rfl, tasks, jobs, invLater⟩ := ih
    obtain ⟨invNext, back⟩ := invLater.relayed step
    exact ⟨later.relay _, reached.tail ⟨_, step, rfl⟩, back, tasks, jobs, invNext⟩

theorem DeliveryInvariant.step (inv : DeliveryInvariant world) (step : DeliveryStep world world') :
    DeliveryInvariant world' := by
  cases step with
  | wrote step fresh => exact inv.wrote step fresh
  | relayed step => exact (inv.relayed step).1

theorem DeliveryInvariant.begin (empty : db.tasks = []) (unlogged : db.events = []) :
    DeliveryInvariant (.start db) where
  records := ⟨.start empty unlogged, by simp [DeliveryWorld.start, empty],
    by simp [DeliveryWorld.start, empty]⟩
  completions := by simp [CompletionsHold, DeliveryWorld.start, unlogged]
  outbox := by
    have fresh : (DeliveryWorld.start db).outbox = .start drizzleOutboxStore := by
      rw [DeliveryWorld.outbox, DeliveryWorld.start, unlogged]
      rfl
    rw [fresh]
    exact .start
  unused := ⟨0, fun _ _ => rfl⟩

/-! ### What subscribers are told -/

/-- The tally of a task whose attempts are all told. -/
def TaskRow.tally (row : TaskRow) : Tally where
  created := 1
  retried := row.retryCount.toNat
  outcomes := row.retryCount.toNat + if row.status = .pending then 0 else 1

/-- What a subscriber keeps that drops the events it knows, by their ids. -/
structure KeptOnce (world : DeliveryWorld) (kept : List EventEnvelope) : Prop where
  once : (kept.map (·.id)).Nodup
  published : ∀ event, event ∈ kept ↔ ∃ run, (run, event) ∈ world.published

theorem AttemptsRecorded.tally {log : List EventRow} {row : TaskRow}
    (recorded : AttemptsRecorded log row) : tallyOf log row.id = row.tally := by
  obtain ⟨created, retried, outcomes⟩ := recorded
  have nonneg : tallyOf log row.id =
      ⟨(tallyOf log row.id).created, (tallyOf log row.id).retried,
        (tallyOf log row.id).outcomes⟩ := rfl
  rw [nonneg, TaskRow.tally, created, Tally.mk.injEq]
  refine ⟨rfl, by omega, ?_⟩
  by_cases pending : row.status = .pending
  · rw [if_pos pending] at outcomes ⊢
    omega
  · rw [if_neg pending] at outcomes ⊢
    omega

theorem DeliveryInvariant.tally (inv : DeliveryInvariant world) {row : TaskRow}
    (listed : row ∈ world.queue.db.tasks) :
    Tally.ofEvents world.outbox.written row.id = row.tally := by
  rw [← (inv.records.recorded.attempts row listed).tally, tallyOf_eq_ofEvents]
  rfl

theorem DeliveryInvariant.subperm (inv : DeliveryInvariant world) {kept : List EventEnvelope}
    (once : KeptOnce world kept) : kept.Subperm world.outbox.written := by
  refine List.subperm_of_subset once.once.of_map fun event listed => ?_
  obtain ⟨run, published⟩ := (once.published event).mp listed
  exact inv.outbox.genuine _ published

/-- Where all is dispatched, the subscribers have the log. -/
theorem DeliveryInvariant.perm (inv : DeliveryInvariant world) {kept : List EventEnvelope}
    (once : KeptOnce world kept)
    (dispatched : ∀ event ∈ world.queue.db.events, event.undispatched = false) :
    kept.Perm world.outbox.written := by
  have empty : drizzleOutboxStore.unpublished world.outbox.state = [] := by
    have none : world.queue.db.events.filter (·.undispatched) = [] :=
      List.filter_eq_nil_iff.mpr fun event listed => by simp [dispatched event listed]
    show (world.queue.db.events.filter (·.undispatched)).map rowToEnvelope = []
    rw [none, List.map_nil]
  refine (List.perm_ext_iff_of_nodup once.once.of_map inv.outbox.distinct.of_map).mpr fun event =>
    ⟨fun listed => (inv.subperm once).subset listed, fun written => ?_⟩
  have marked := mt (inv.outbox.mem_unpublished_iff written).mpr
    (by rw [empty]; exact List.not_mem_nil)
  obtain ⟨run, hMarked⟩ := not_forall_not.mp marked
  exact (once.published event).mpr ⟨run, inv.outbox.publishedFirst _ hMarked⟩

/-- Every subscriber that keeps each event once is told the truth, and in the end all of it. -/
structure SubscribersTold (world : DeliveryWorld) : Prop where
  finished : ∀ run event, (run, event) ∈ world.published → event.type = .taskCompleted →
    ∀ id, event.taskId = some id →
      ∃ row ∈ world.queue.db.tasks, row.id = id ∧ row.status = .completed
  counted : ∀ kept, KeptOnce world kept → ∀ row ∈ world.queue.db.tasks,
    (Tally.ofEvents kept row.id).Below row.tally
  told : (∀ event ∈ world.queue.db.events, event.undispatched = false) →
    ∀ kept, KeptOnce world kept → ∀ row ∈ world.queue.db.tasks,
      Tally.ofEvents kept row.id = row.tally ∧
        (row.status = .completed ↔
          ∃ event ∈ kept, event.taskId = some row.id ∧ event.type = .taskCompleted)
  /-- The dispatchers alone can tell it. -/
  drains : ∃ later, Relation.ReflTransGen DispatcherStep world later ∧
    later.queue.db.tasks = world.queue.db.tasks ∧ later.queue.jobs = world.queue.jobs ∧
    ∀ event ∈ later.queue.db.events, event.undispatched = false

theorem DeliveryInvariant.subscribersTold (inv : DeliveryInvariant world) :
    SubscribersTold world where
  finished run event published completed id names := by
    obtain ⟨row, hRow, rfl⟩ := List.mem_map.mp (inv.outbox.genuine _ published)
    exact inv.completions row hRow completed id names
  counted kept once row listed := inv.tally listed ▸ Tally.ofEvents_below (inv.subperm once)
  told dispatched kept once row listed := by
    have whole := inv.perm once dispatched
    refine ⟨inv.tally listed ▸ Tally.ofEvents_perm whole, fun completed => ?_, ?_⟩
    · obtain ⟨event, hEvent, names, type⟩ := inv.records.log.completed listed completed
      exact ⟨rowToEnvelope event, whole.symm.subset (List.mem_map_of_mem hEvent), names, type⟩
    · rintro ⟨event, hEvent, names, type⟩
      obtain ⟨written, hWritten, rfl⟩ := List.mem_map.mp (whole.subset hEvent)
      obtain ⟨other, hOther, same, completed⟩ :=
        inv.completions written hWritten type row.id names
      exact world.queue.db.eq_of_id hOther listed same ▸ completed
  drains := by
    obtain ⟨bound, idle⟩ := inv.unused
    obtain ⟨after, relayed, empty⟩ := inv.outbox.drains (idle bound le_rfl)
    obtain ⟨later, reached, rfl, tasks, jobs, -⟩ := inv.relays relayed
    refine ⟨later, reached, tasks, jobs, fun event listed => ?_⟩
    have none := List.filter_eq_nil_iff.mp (List.map_eq_nil_iff.mp empty) event listed
    simpa using none

end Steps

/-- In every interleaving of dispatchers, workers and the queue with the dispatchers of the outbox,
with crashes, redeliveries and events that are published twice: whoever keeps each event once never
counts more than was attempted, is told of a completion only where the row is completed, and counts
each attempt once the outbox is drained, which the dispatchers alone can do from every state. -/
theorem subscribers_told (start : Database) (empty : start.tasks = [])
    (unlogged : start.events = []) (world : DeliveryWorld)
    (reached : Relation.ReflTransGen DeliveryStep (.start start) world) :
    SubscribersTold world := by
  have inv : DeliveryInvariant world := by
    induction reached with
    | refl => exact .begin empty unlogged
    | tail _ step inv => exact inv.step step
  exact inv.subscribersTold

def crmTaskCreated : EventEnvelope := taskCreated (crmDraws "task-1") crmDispatch crmMember

/-- The task was dispatched, and its creation published. -/
theorem subscribers_told_crm : ∃ world : DeliveryWorld,
    world.published = [(0, crmTaskCreated)] ∧ SubscribersTold world := by
  let dispatched : DeliveryWorld :=
    ⟨⟨crmDispatched, [{ crmLostJob with state := .queued }]⟩, fun _ => .idle, [], []⟩
  have wrote : DeliveryStep (.start ⟨[], [], [], List.nodup_nil⟩) dispatched :=
    .wrote (.dispatched _ _ _ rfl) (by decide)
  let fetching := dispatched.outbox.setRun 0 (.publishing [crmTaskCreated] [])
  have fetched : RelayStep drizzleOutboxStore dispatched.outbox fetching :=
    ⟨.fetch 0 5 [crmTaskCreated] (by decide) rfl
      ⟨[eventEnvelopeToRow crmTaskCreated], ⟨by decide, List.pairwise_singleton _ _⟩, rfl⟩, rfl⟩
  have published : RelayStep drizzleOutboxStore (dispatched.relay fetching).outbox _ :=
    ⟨.publish 0 (show _ = BatchRun.publishing [crmTaskCreated] [] from rfl), rfl⟩
  exact ⟨_, rfl, subscribers_told ⟨[], [], [], List.nodup_nil⟩ rfl rfl _
    (.head wrote (.head (.relayed fetched) (.single (.relayed published))))⟩

end Donna
