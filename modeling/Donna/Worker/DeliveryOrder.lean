import Donna.Worker.Outbox
import Donna.Worker.Outcome

/-! The order in which the outbox delivers the events of a task.  The table hands them out by their
`createdAt` alone, so they arrive as they were emitted exactly when no two of them carry the same
millisecond. -/

namespace Donna

open Js Async Async.Program

/-! ### Calls that nothing interrupts -/

/-- A call of `dispatchBatch` in which every publish resolves. -/
structure Dispatched (limit : ℕ) (before : List EventRow) (batch : List EventEnvelope)
    (after : List EventRow) : Prop where
  fetched : drizzleOutboxStore.fetchUnpublished limit before batch
  marked : ∃ now, after = drizzleOutboxStore.markPublished now (batch.map (·.id)) before

/-- A sequence of such calls, with the events that they deliver. -/
inductive Deliveries (limit : ℕ) : List EventRow → List EventEnvelope → List EventRow → Prop
  | none (rows : List EventRow) : Deliveries limit rows [] rows
  | more {before batch between delivered after} (call : Dispatched limit before batch between)
      (later : Deliveries limit between delivered after) :
      Deliveries limit before (batch ++ delivered) after

/-- The publishes of a run, one after the other. -/
theorem publish_all (run : ℕ) (pending delivered : List EventEnvelope)
    (world : OutboxWorld (List EventRow))
    (stands : world.runs run = .publishing pending delivered) :
    ∃ world', Relation.ReflTransGen (OutboxStep drizzleOutboxStore) world world' ∧
      world'.state = world.state ∧
      world'.runs run = .publishing [] (delivered ++ pending) ∧
      world'.published = world.published ++ pending.map (run, ·) := by
  induction pending generalizing world delivered with
  | nil => exact ⟨world, .refl, rfl, by simpa using stands, by simp⟩
  | cons event rest ih =>
    have publish : OutboxStep drizzleOutboxStore world _ := .publish run stands
    obtain ⟨world', steps, state, last, published⟩ := ih (delivered ++ [event])
      { world.setRun run (.publishing rest (delivered ++ [event])) with
        published := world.published ++ [(run, event)] } (Function.update_self ..)
    refine ⟨world', steps.head publish, state, ?_, ?_⟩
    · simpa using last
    · simpa using published

/-- An uninterrupted call is a path of steps of one run. -/
theorem Dispatched.steps {limit : ℕ} {after : List EventRow} {batch : List EventEnvelope}
    {world : OutboxWorld (List EventRow)} (call : Dispatched limit world.state batch after)
    (positive : 0 < limit) {run : ℕ} (idle : world.runs run = .idle) :
    ∃ world', Relation.ReflTransGen (OutboxStep drizzleOutboxStore) world world' ∧
      world'.state = after ∧ world'.runs run = .returned batch.length ∧
      world'.published = world.published ++ batch.map (run, ·) := by
  obtain ⟨now, rfl⟩ := call.marked
  have fetch := OutboxStep.fetch run limit batch positive idle call.fetched
  obtain ⟨world', steps, state, stands, published⟩ := publish_all run batch []
    (world.setRun run (.publishing batch [])) (Function.update_self ..)
  rw [List.nil_append] at stands
  -- A run that delivered nothing has nothing to mark.
  obtain ⟨marked, step, hState, hStands, hPublished⟩ : ∃ marked,
      OutboxStep drizzleOutboxStore world' marked ∧
        marked.state = drizzleOutboxStore.markPublished now (batch.map (·.id)) world'.state ∧
          marked.runs run = .marked batch ∧ marked.published = world'.published := by
    by_cases empty : batch = []
    · subst empty
      exact ⟨_, .skip run stands, rfl, Function.update_self .., rfl⟩
    · exact ⟨_, .mark run now stands empty, rfl, Function.update_self .., rfl⟩
  refine ⟨_, ((steps.head fetch).tail step).tail (.return_ run hStands), ?_,
    Function.update_self .., ?_⟩
  · rw [OutboxWorld.setRun, hState, state]
    rfl
  · rw [OutboxWorld.setRun, hPublished, published]
    rfl

/-! ### The order of emission -/

def forTask (taskId : String) (event : EventEnvelope) : Bool := event.taskId == some taskId

/-- The events of a task that wait for delivery, in the order in which they were written. -/
def waiting (taskId : String) (rows : List EventRow) : List EventEnvelope :=
  ((rows.filter (·.undispatched)).map rowToEnvelope).filter (forTask taskId)

/-- In whatever order the queries bring them, the events of a task that have been delivered and
those that still wait make up `emitted`, as it stands. -/
def DeliversInOrder (limit : ℕ) (rows : List EventRow) (taskId : String)
    (emitted : List EventEnvelope) : Prop :=
  ∀ delivered after, Deliveries limit rows delivered after →
    delivered.filter (forTask taskId) ++ waiting taskId after = emitted

/-- Each event has a millisecond of its own. -/
def StrictlyStamped (events : List EventEnvelope) : Prop :=
  events.Pairwise fun first second => first.createdAt < second.createdAt

section Order

variable {rows after : List EventRow} {taskId : String} {limit : ℕ} {batch : List EventEnvelope}

theorem waiting_eq_map : waiting taskId rows =
    ((rows.filter (·.undispatched)).filter fun row => row.taskId == some taskId).map
      rowToEnvelope := List.filter_map

theorem ids_markPublished (now : ℤ) (ids : List String) :
    (drizzleOutboxStore.markPublished now ids rows).map (·.id) = rows.map (·.id) := by
  rw [markPublished_eq_map, List.map_map]
  refine List.map_congr_left fun row _ => ?_
  simp only [Function.comp_apply]
  split <;> rfl

theorem undispatched_markPublished (now : ℤ) (ids : List String) :
    (drizzleOutboxStore.markPublished now ids rows).filter (·.undispatched) =
      (rows.filter (·.undispatched)).filter fun row => row.id ∉ ids := by
  rw [markPublished_eq_map]
  induction rows with
  | nil => rfl
  | cons row rest ih =>
    rw [List.map_cons, List.filter_cons, List.filter_cons, ih]
    by_cases hit : row.id ∈ ids <;> by_cases waits : row.undispatched = true <;>
      simp_all [EventRow.undispatched]

/-- What is not among the first rows of a query is behind them. -/
theorem filter_notMem_take {ordered : List EventRow} (distinct : (ordered.map (·.id)).Nodup) :
    (ordered.filter fun row => row.id ∉ (ordered.take limit).map (·.id)) = ordered.drop limit := by
  have whole := List.take_append_drop limit ordered
  have apart : ∀ row ∈ ordered.drop limit, row.id ∉ (ordered.take limit).map (·.id) := by
    rw [← whole, List.map_append, List.nodup_append] at distinct
    exact fun row behind before => distinct.2.2 _ before _ (List.mem_map_of_mem behind) rfl
  conv_lhs => rw [← whole]
  rw [List.filter_append, whole, List.filter_eq_nil_iff.mpr, List.filter_eq_self.mpr]
  · rfl
  · exact fun row behind => decide_eq_true (apart row behind)
  · intro row before
    simpa using List.mem_map_of_mem before

/-- What is left after a call that fetched the first rows of an ordering. -/
theorem rest_orderedBy (limit : ℕ) (distinct : (rows.map (·.id)).Nodup) {ordered : List EventRow}
    (ordering : OrderedBy (·.createdAt) (rows.filter (·.undispatched)) ordered) (now : ℤ) :
    OrderedBy (·.createdAt) ((drizzleOutboxStore.markPublished now
      (((ordered.take limit).map rowToEnvelope).map (·.id)) rows).filter (·.undispatched))
        (ordered.drop limit) := by
  have ids : ((ordered.take limit).map rowToEnvelope).map (·.id) =
      (ordered.take limit).map (·.id) := List.map_map
  have orderedIds : (ordered.map (·.id)).Nodup :=
    (ordering.perm.map _).nodup_iff.mpr (distinct.sublist (List.filter_sublist.map _))
  rw [ids, undispatched_markPublished, ← filter_notMem_take orderedIds]
  exact ordering.filter _

theorem Dispatched.inOrder (call : Dispatched limit rows batch after)
    (distinct : (rows.map (·.id)).Nodup) (strict : StrictlyStamped (waiting taskId rows)) :
    batch.filter (forTask taskId) ++ waiting taskId after = waiting taskId rows := by
  obtain ⟨ordered, ordering, rfl⟩ := call.fetched
  obtain ⟨now, rfl⟩ := call.marked
  rw [StrictlyStamped, waiting_eq_map, List.pairwise_map] at strict
  have rest := rest_orderedBy limit distinct ordering now
  have whole := (ordering.filter fun row => row.taskId == some taskId).eq_of_strict strict
  have behind := (rest.filter fun row => row.taskId == some taskId).eq_of_strict <| by
    refine strict.sublist (List.Sublist.filter _ ?_)
    rw [undispatched_markPublished]
    exact List.filter_sublist
  have taken : ((ordered.take limit).map rowToEnvelope).filter (forTask taskId) =
      ((ordered.take limit).filter fun row => row.taskId == some taskId).map rowToEnvelope :=
    List.filter_map
  rw [waiting_eq_map, waiting_eq_map, ← behind, ← whole, taken, ← List.map_append,
    ← List.filter_append, List.take_append_drop]

theorem Dispatched.ids (call : Dispatched limit rows batch after) :
    after.map (·.id) = rows.map (·.id) := by
  obtain ⟨now, rfl⟩ := call.marked
  exact ids_markPublished now _

theorem Dispatched.waiting_sublist (call : Dispatched limit rows batch after) :
    (waiting taskId after).Sublist (waiting taskId rows) := by
  obtain ⟨now, rfl⟩ := call.marked
  rw [waiting, undispatched_markPublished]
  exact (List.filter_sublist.map rowToEnvelope).filter _

/-- Events with milliseconds of their own are delivered as they were written. -/
theorem Deliveries.inOrder {delivered : List EventEnvelope}
    (deliveries : Deliveries limit rows delivered after) (distinct : (rows.map (·.id)).Nodup)
    (strict : StrictlyStamped (waiting taskId rows)) :
    delivered.filter (forTask taskId) ++ waiting taskId after = waiting taskId rows := by
  induction deliveries with
  | none rows => rfl
  | more call later ih =>
    rw [List.filter_append, List.append_assoc,
      ih (call.ids ▸ distinct) (strict.sublist call.waiting_sublist)]
    exact call.inOrder distinct strict

/-- Calls enough deliver the whole of an ordering, as it stands. -/
theorem exists_deliveries (positive : 0 < limit) {rows ordered : List EventRow}
    (distinct : (rows.map (·.id)).Nodup)
    (ordering : OrderedBy (·.createdAt) (rows.filter (·.undispatched)) ordered) :
    ∃ after, Deliveries limit rows (ordered.map rowToEnvelope) after ∧
      after.filter (·.undispatched) = [] := by
  induction size : ordered.length using Nat.strong_induction_on generalizing rows ordered with
  | _ count ih =>
    by_cases empty : ordered = []
    · subst empty
      exact ⟨rows, .none rows, List.nil_perm.mp ordering.perm⟩
    · have call : Dispatched limit rows ((ordered.take limit).map rowToEnvelope)
          (drizzleOutboxStore.markPublished 0
            (((ordered.take limit).map rowToEnvelope).map (·.id)) rows) :=
        ⟨⟨ordered, ordering, rfl⟩, 0, rfl⟩
      have shorter : (ordered.drop limit).length < count := by
        have := List.length_pos_iff.mpr empty
        rw [List.length_drop]
        omega
      obtain ⟨after, deliveries, done⟩ := ih _ shorter (call.ids.symm ▸ distinct)
        (rest_orderedBy limit distinct ordering 0) rfl
      refine ⟨after, ?_, done⟩
      have all := Deliveries.more call deliveries
      rwa [← List.map_append, List.take_append_drop] at all

/-- Where no event precedes an earlier one, the table delivers a task's events as they were written
exactly when no two of them carry one millisecond. -/
theorem deliversInOrder_iff (positive : 0 < limit) (distinct : (rows.map (·.id)).Nodup)
    (clock : (waiting taskId rows).Pairwise fun first second =>
      first.createdAt ≤ second.createdAt) :
    DeliversInOrder limit rows taskId (waiting taskId rows) ↔
      StrictlyStamped (waiting taskId rows) := by
  refine ⟨fun inOrder => ?_, fun strict _ _ deliveries => deliveries.inOrder distinct strict⟩
  have waitingDistinct : (waiting taskId rows).Nodup := by
    refine List.Nodup.of_map (·.id) (List.Nodup.sublist (List.filter_sublist.map _) ?_)
    rw [List.map_map]
    exact distinct.sublist (List.filter_sublist.map _)
  refine List.pairwise_iff_forall_sublist.mpr fun {first second} forward => ?_
  have ordered := List.pairwise_iff_forall_sublist.mp clock forward
  refine ordered.lt_of_ne fun tie => ?_
  -- A query may bring the two the other way round.
  have forward' := forward
  rw [waiting_eq_map] at forward'
  obtain ⟨pair, hPair, hMap⟩ := List.sublist_map_iff.mp forward'
  obtain ⟨row, rest, rfl, rfl, hRest⟩ := List.map_eq_cons_iff.mp hMap.symm
  obtain ⟨other, rfl, rfl⟩ := List.map_eq_singleton_iff.mp hRest
  have rowTie : row.createdAt = other.createdAt := tie
  obtain ⟨ordered, ordering, backward⟩ :=
    exists_orderedBy_swap rowTie (hPair.trans List.filter_sublist)
  obtain ⟨after, deliveries, done⟩ := exists_deliveries positive distinct ordering
  have delivered := inOrder _ _ deliveries
  have none : waiting taskId after = [] := by rw [waiting, done]; rfl
  rw [none, List.append_nil] at delivered
  have forTask_of : ∀ event ∈ waiting taskId rows, forTask taskId event = true :=
    fun event listed => (List.mem_filter.mp listed).2
  refine not_sublist_swap waitingDistinct forward ?_
  rw [← delivered]
  have swapped := (backward.map rowToEnvelope).filter (forTask taskId)
  rwa [List.filter_eq_self.mpr fun event listed => ?_] at swapped
  refine forTask_of event (forward.subset ?_)
  simpa [or_comm] using listed

end Order

/-! ### The trace of a run -/

/-- The events of the task that wait before a commit, and those that the commit writes: the trace of
the run, and the retry event if there is one. -/
def emittedEvents (moment : Moment) (input : CommitOutcomeInput) (row : TaskRow) (db : Database) :
    List EventEnvelope :=
  waiting row.id db.events ++
    (input.events ++ if retries input row then [retryEvent moment input row] else [])

theorem PendingFor.waiting_eq {order : WorkOrder} {row : TaskRow} {db : Database}
    (pendingFor : PendingFor order row db) {actions : List Action} (own : OwnEvents order actions)
    (moment : Moment) (result : WorkOrderResult) :
    waiting row.id
        (commitOutcome moment (workerCommit order row.id result actions) db).2.events =
      emittedEvents moment (workerCommit order row.id result actions) row db := by
  let input := workerCommit order row.id result actions
  let written := input.events ++ if retries input row then [retryEvent moment input row] else []
  have rows : committedEvents moment input row = written.map eventEnvelopeToRow := by
    simp only [committedEvents, written, List.map_append]
    split <;> rfl
  have forRow : ∀ event ∈ written, forTask row.id event = true := by
    intro event listed
    rcases List.mem_append.mp listed with traced | retried
    · simp [forTask, (own event traced).2, pendingFor.task]
    · split at retried
      · obtain rfl := List.mem_singleton.mp retried
        simp [forTask, retryEvent, createEvent, input, workerCommit]
      · cases retried
  have undispatched : (written.map eventEnvelopeToRow).filter (·.undispatched) =
      written.map eventEnvelopeToRow := by
    refine List.filter_eq_self.mpr fun event listed => ?_
    obtain ⟨envelope, -, rfl⟩ := List.mem_map.mp listed
    rfl
  have readBack : (written.map eventEnvelopeToRow).map rowToEnvelope = written := by
    simp [Function.comp_def]
  rw [pendingFor.committed.events, rows, waiting, List.filter_append, List.map_append,
    List.filter_append, undispatched, readBack, List.filter_eq_self.mpr forRow]
  rfl

/-- Where no event of a task precedes an earlier one, they are delivered as they were emitted, in
every order that the queries permit, exactly when each has a millisecond of its own. -/
theorem executeWorkOrder_deliversInOrder_iff (platform : Platform) (order : WorkOrder)
    (deps : OrchestratorDeps) (history : History) :
    wp (executeWorkOrder platform order deps.buffered) history fun outcome actions =>
      ∀ result, outcome = .ok result → ∀ moment db row, PendingFor order row db →
        ∀ input, input = workerCommit order row.id result actions →
        ∀ after, after = (commitOutcome moment input db).2 → (after.events.map (·.id)).Nodup →
        (emittedEvents moment input row db).Pairwise (·.createdAt ≤ ·.createdAt) →
        ∀ limit, 0 < limit →
          (DeliversInOrder limit after.events row.id (emittedEvents moment input row db) ↔
            StrictlyStamped (emittedEvents moment input row db)) := by
  refine wp_mono executeWorkOrder_run fun outcome actions run => ?_
  rintro result returned moment db row pendingFor input rfl after rfl distinct clock limit positive
  obtain ⟨-, own⟩ := run.trace BufferingEventBus.resolves returned
  have emitted := pendingFor.waiting_eq own moment result
  rw [← emitted] at clock ⊢
  exact deliversInOrder_iff positive distinct clock

/-- The API takes the update. -/
def crmUpdatingDeps : OrchestratorDeps :=
  crmDeps BufferingEventBus (.constant (.ok (.string "updated")) .unknown)

def crmPlainOrder : WorkOrder := { crmOrder with budget := none }

theorem crmPlainOrder_pendingFor : PendingFor crmPlainOrder crmTask crmDatabase :=
  ⟨List.mem_singleton.mpr rfl, rfl, rfl, rfl⟩

/-- What the worker commits after the update. -/
def crmUpdate (platform : Platform) : CommitOutcomeInput :=
  workerCommit crmPlainOrder crmTask.id
    (capabilityCompleted ⟨"crm-api", .deterministic, ["crm.update"], .healthy⟩ (.string "updated"))
    (executeWorkOrder platform crmPlainOrder crmUpdatingDeps.buffered []).2

def crmUpdatedRows (platform : Platform) : List EventRow :=
  (commitOutcome crmFailure.moment (crmUpdate platform) crmDatabase).2.events

theorem executeWorkOrder_deliversInOrder_iff_crm :
    DeliversInOrder 2 (crmUpdatedRows .plain) "task-1"
      (emittedEvents crmFailure.moment (crmUpdate .plain) crmTask crmDatabase) := by
  refine (executeWorkOrder_deliversInOrder_iff .plain crmPlainOrder crmUpdatingDeps [] _ rfl
    crmFailure.moment crmDatabase crmTask crmPlainOrder_pendingFor _ rfl _ rfl
    (by decide) (by decide) 2 (by decide)).mpr ?_
  unfold StrictlyStamped
  decide

/-- A run so fast that its clock stands still. -/
def Platform.frozen : Platform where
  realm := .plain
  fresh history := { Platform.plain.fresh history with now := 0 }

/-- The completion is delivered before the start, and the plan last. -/
theorem executeWorkOrder_delivers_backwards :
    (emittedEvents crmFailure.moment (crmUpdate .frozen) crmTask crmDatabase).Pairwise
        (·.createdAt ≤ ·.createdAt) ∧
      (∃ delivered after, Deliveries 2 (crmUpdatedRows .frozen) delivered after ∧
        delivered.map (·.type) = [.taskCompleted, .toolCalled, .workerStarted, .taskPlanned]) ∧
      ¬ DeliversInOrder 2 (crmUpdatedRows .frozen) "task-1"
        (emittedEvents crmFailure.moment (crmUpdate .frozen) crmTask crmDatabase) := by
  have ordering : OrderedBy (·.createdAt)
      ((crmUpdatedRows .frozen).filter (·.undispatched)) (crmUpdatedRows .frozen).reverse :=
    ⟨by decide, by decide⟩
  obtain ⟨after, deliveries, done⟩ := exists_deliveries two_pos (by decide) ordering
  refine ⟨by decide, ⟨_, after, deliveries, by decide⟩, fun inOrder => ?_⟩
  have delivered := inOrder _ _ deliveries
  rw [waiting, done] at delivered
  revert delivered
  decide

end Donna
