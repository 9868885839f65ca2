import Mathlib.Data.Finset.Lattice.Lemmas
import Mathlib.Logic.Function.Basic
import Mathlib.Logic.Relation
import Donna.Base.OrderBy
import Donna.Core.Domain

/-! The read half of the transactional outbox: the stores of undelivered events, and dispatchers
that run side by side on one of them, step by step.  `Outbox` says what a store is for, and each of
the two stores represents one. -/

namespace Donna

/-! ### Stores -/

def rowToEnvelope (row : EventRow) : EventEnvelope where
  id := row.id
  type := row.type
  organizationId := row.organizationId
  objectiveId := row.objectiveId
  taskId := row.taskId
  actor := { type := row.actorType, id := row.actorId }
  correlationId := row.correlationId
  causationId := row.causationId
  payloadRef := row.payloadRef
  createdAt := row.createdAt

/-- An event is read back from its row as it was written, whichever of its fields are absent. -/
@[simp] theorem rowToEnvelope_eventEnvelopeToRow (event : EventEnvelope) :
    rowToEnvelope (eventEnvelopeToRow event) = event := rfl

/-- An outbox store with its state in `σ`.  A query without a total order may resolve to one of
several batches, so `fetchUnpublished` is a relation. -/
structure OutboxStore (σ : Type) where
  empty : σ
  enqueue : List EventEnvelope → σ → σ
  unpublished : σ → List EventEnvelope
  fetchUnpublished : ℕ → σ → List EventEnvelope → Prop
  markPublished : ℤ → List String → σ → σ

def EventRow.undispatched (row : EventRow) : Bool := row.dispatchedAt.isNone

/-- `DrizzleOutboxStore` on the events table. -/
def drizzleOutboxStore : OutboxStore (List EventRow) where
  empty := []
  enqueue events rows := rows ++ events.map eventEnvelopeToRow
  unpublished rows := (rows.filter (·.undispatched)).map rowToEnvelope
  fetchUnpublished limit rows batch := ∃ ordered,
    OrderedBy (·.createdAt) (rows.filter (·.undispatched)) ordered ∧
      batch = (ordered.take limit).map rowToEnvelope
  markPublished now ids rows :=
    if ids.isEmpty then rows
    else rows.map fun row => if row.id ∈ ids then { row with dispatchedAt := some now } else row

structure InMemoryOutbox where
  pending : List EventEnvelope
  published : List String

def inMemoryOutboxStore : OutboxStore InMemoryOutbox where
  empty := ⟨[], []⟩
  enqueue events store := { store with pending := store.pending ++ events }
  unpublished store := store.pending.filter fun event => event.id ∉ store.published
  fetchUnpublished limit store batch :=
    batch = (store.pending.filter fun event => event.id ∉ store.published).take limit
  markPublished _ ids store := { store with published := store.published ++ ids }

/-- What a store is for: the events that were written, and the ids of those that are marked. -/
structure Outbox where
  written : List EventEnvelope
  marked : Finset String

def Outbox.unpublished (outbox : Outbox) : List EventEnvelope :=
  outbox.written.filter fun event => event.id ∉ outbox.marked

/-- The states of a store that represent an outbox, which each operation of the store keeps. -/
structure OutboxStore.Represents {σ : Type} (store : OutboxStore σ) where
  rel : Outbox → σ → Prop
  empty : rel ⟨[], ∅⟩ store.empty
  enqueue : ∀ {outbox state}, rel outbox state → ∀ events : List EventEnvelope,
    (∀ event ∈ events, event.id ∉ outbox.marked) →
      rel { outbox with written := outbox.written ++ events } (store.enqueue events state)
  unpublished : ∀ {outbox state}, rel outbox state → store.unpublished state = outbox.unpublished
  fetched : ∀ {outbox state}, rel outbox state → ∀ {limit batch},
    store.fetchUnpublished limit state batch →
      ∃ ordered : List EventEnvelope, ordered.Perm outbox.unpublished ∧ batch = ordered.take limit
  resolves : ∀ limit state, ∃ batch, store.fetchUnpublished limit state batch
  marked : ∀ {outbox state}, rel outbox state → ∀ now ids,
    rel { outbox with marked := outbox.marked ∪ ids.toFinset } (store.markPublished now ids state)

def inMemoryRepresents : inMemoryOutboxStore.Represents where
  rel outbox store := outbox.written = store.pending ∧ outbox.marked = store.published.toFinset
  empty := ⟨rfl, rfl⟩
  enqueue h events _ := ⟨by simp [inMemoryOutboxStore, h.1], h.2⟩
  unpublished h := by simp [inMemoryOutboxStore, Outbox.unpublished, h.1, h.2]
  fetched h _ _ batch :=
    ⟨_, .refl _, by simpa [inMemoryOutboxStore, Outbox.unpublished, h.1, h.2] using batch⟩
  resolves _ _ := ⟨_, rfl⟩
  marked h now ids := ⟨h.1, by simp [inMemoryOutboxStore, h.2]⟩

/-- The table represents an outbox row by row. -/
def TableRepresents (outbox : Outbox) (rows : List EventRow) : Prop :=
  outbox.written = rows.map rowToEnvelope ∧
    ∀ row ∈ rows, row.undispatched = true ↔ row.id ∉ outbox.marked

section Table

variable {outbox : Outbox} {rows : List EventRow}

theorem TableRepresents.unpublished (h : TableRepresents outbox rows) :
    (rows.filter (·.undispatched)).map rowToEnvelope = outbox.unpublished := by
  rw [Outbox.unpublished, h.1, List.filter_map]
  refine congrArg _ (List.filter_congr fun row listed => ?_)
  rw [Bool.eq_iff_iff, h.2 row listed, Function.comp_apply, decide_eq_true_eq]
  rfl

theorem TableRepresents.enqueue (h : TableRepresents outbox rows) (events : List EventEnvelope)
    (fresh : ∀ event ∈ events, event.id ∉ outbox.marked) :
    TableRepresents { outbox with written := outbox.written ++ events }
      (rows ++ events.map eventEnvelopeToRow) := by
  refine ⟨by simp [h.1, Function.comp_def], fun row listed => ?_⟩
  rcases List.mem_append.mp listed with old | new
  · exact h.2 row old
  · obtain ⟨event, hEvent, rfl⟩ := List.mem_map.mp new
    exact iff_of_true rfl (fresh event hEvent)

theorem markPublished_eq_map (now : ℤ) (ids : List String) :
    drizzleOutboxStore.markPublished now ids rows = rows.map fun row =>
      if row.id ∈ ids then { row with dispatchedAt := some now } else row := by
  cases ids with
  | nil => simp [drizzleOutboxStore]
  | cons first rest => rfl

theorem TableRepresents.marked (h : TableRepresents outbox rows) (now : ℤ) (ids : List String) :
    TableRepresents { outbox with marked := outbox.marked ∪ ids.toFinset }
      (drizzleOutboxStore.markPublished now ids rows) := by
  rw [markPublished_eq_map]
  refine ⟨?_, fun row listed => ?_⟩
  · rw [h.1, List.map_map]
    refine List.map_congr_left fun row _ => ?_
    simp only [Function.comp_apply]
    split <;> rfl
  · obtain ⟨earlier, hEarlier, rfl⟩ := List.mem_map.mp listed
    by_cases hit : earlier.id ∈ ids
    · simp [hit, EventRow.undispatched]
    · simp [hit, h.2 earlier hEarlier]

theorem TableRepresents.fetched (h : TableRepresents outbox rows) {limit : ℕ}
    {batch : List EventEnvelope} (fetched : drizzleOutboxStore.fetchUnpublished limit rows batch) :
    ∃ ordered : List EventEnvelope,
      ordered.Perm outbox.unpublished ∧ batch = ordered.take limit := by
  obtain ⟨ordered, ordering, rfl⟩ := fetched
  refine ⟨ordered.map rowToEnvelope, ?_, List.map_take⟩
  rw [← h.unpublished]
  exact ordering.perm.map rowToEnvelope

end Table

def drizzleRepresents : drizzleOutboxStore.Represents where
  rel := TableRepresents
  empty := ⟨rfl, by simp [drizzleOutboxStore]⟩
  enqueue h := h.enqueue
  unpublished h := h.unpublished
  fetched h _ _ := h.fetched
  resolves _ rows :=
    have ⟨ordered, ordering⟩ := exists_orderedBy (·.createdAt) (rows.filter (·.undispatched))
    ⟨_, ordered, ordering, rfl⟩
  marked h := h.marked

/-! ### Dispatchers -/

/-- Where a run of `dispatchBatch` stands. -/
inductive BatchRun
  | idle
  | publishing (pending delivered : List EventEnvelope)
  | marked (delivered : List EventEnvelope)
  | returned (published : ℕ)
  | stopped

def BatchRun.inProgress : BatchRun → Bool
  | .publishing .. | .marked _ => true
  | _ => false

/-- A store with the runs on it, and with what has happened: the events that were written, each
publish that resolved and each event that an update marked, with the run it belongs to. -/
structure OutboxWorld (σ : Type) where
  state : σ
  runs : ℕ → BatchRun
  written : List EventEnvelope
  published : List (ℕ × EventEnvelope)
  marks : List (ℕ × EventEnvelope)

namespace OutboxWorld

variable {σ : Type}

def start (store : OutboxStore σ) : OutboxWorld σ where
  state := store.empty
  runs _ := .idle
  written := []
  published := []
  marks := []

def setRun (world : OutboxWorld σ) (run : ℕ) (stands : BatchRun) : OutboxWorld σ :=
  { world with runs := Function.update world.runs run stands }

@[simp] theorem setRun_runs_self (world : OutboxWorld σ) (run : ℕ) (stands : BatchRun) :
    (world.setRun run stands).runs run = stands := Function.update_self _ _ _

theorem setRun_runs_of_ne (world : OutboxWorld σ) {run other : ℕ} (differ : other ≠ run)
    (stands : BatchRun) : (world.setRun run stands).runs other = world.runs other :=
  Function.update_of_ne differ _ _

end OutboxWorld

/-- The entries of a log that belong to a run. -/
def entriesOf (run : ℕ) (log : List (ℕ × EventEnvelope)) : List EventEnvelope :=
  (log.filter (·.1 == run)).map (·.2)

open OutboxWorld

/-- A step: a transaction that writes events, or what one run of `dispatchBatch` does next. -/
inductive OutboxStep {σ : Type} (store : OutboxStore σ) : OutboxWorld σ → OutboxWorld σ → Prop
  /-- The ids are random, and the primary key of the table. -/
  | write {world} (events : List EventEnvelope)
      (fresh : ((world.written ++ events).map (·.id)).Nodup) :
      OutboxStep store world { world with
        state := store.enqueue events world.state
        written := world.written ++ events }
  | fetch {world} (run limit : ℕ) (batch : List EventEnvelope) (positive : 0 < limit)
      (stands : world.runs run = .idle)
      (fetched : store.fetchUnpublished limit world.state batch) :
      OutboxStep store world (world.setRun run (.publishing batch []))
  | publish {world} (run : ℕ) {event rest delivered}
      (stands : world.runs run = .publishing (event :: rest) delivered) :
      OutboxStep store world { world.setRun run (.publishing rest (delivered ++ [event])) with
        published := world.published ++ [(run, event)] }
  | reject {world} (run : ℕ) {event rest delivered}
      (stands : world.runs run = .publishing (event :: rest) delivered) :
      OutboxStep store world (world.setRun run .stopped)
  | mark {world} (run : ℕ) (now : ℤ) {delivered}
      (stands : world.runs run = .publishing [] delivered) (some : delivered ≠ []) :
      OutboxStep store world { world.setRun run (.marked delivered) with
        state := store.markPublished now (delivered.map (·.id)) world.state
        marks := world.marks ++
          (world.written.filter fun event => event.id ∈ delivered.map (·.id)).map (run, ·) }
  | skip {world} (run : ℕ) (stands : world.runs run = .publishing [] []) :
      OutboxStep store world (world.setRun run (.marked []))
  | return_ {world} (run : ℕ) {delivered} (stands : world.runs run = .marked delivered) :
      OutboxStep store world (world.setRun run (.returned delivered.length))
  | crash {world} (run : ℕ) (active : (world.runs run).inProgress = true) :
      OutboxStep store world (world.setRun run .stopped)

/-! ### What every interleaving keeps -/

/-- What the standing of a run says of what it has published and marked. -/
def BatchRun.Accounts (written published marked : List EventEnvelope) : BatchRun → Prop
  | .idle => published = [] ∧ marked = []
  | .publishing pending delivered => published = delivered ∧ marked = [] ∧
      ((delivered ++ pending).map (·.id)).Nodup ∧ ∀ event ∈ delivered ++ pending, event ∈ written
  | .marked delivered => published = delivered ∧ marked.Perm delivered ∧
      (delivered.map (·.id)).Nodup
  | .returned count => published.length = count ∧ marked.Perm published ∧
      (published.map (·.id)).Nodup
  | .stopped => True

structure OutboxInvariant {σ : Type} {store : OutboxStore σ} (represents : store.Represents)
    (world : OutboxWorld σ) : Prop where
  represented :
    represents.rel ⟨world.written, (world.marks.map (·.2.id)).toFinset⟩ world.state
  distinct : (world.written.map (·.id)).Nodup
  genuine : ∀ entry ∈ world.published, entry.2 ∈ world.written
  publishedFirst : ∀ entry ∈ world.marks, entry ∈ world.published
  accounts : ∀ run, (world.runs run).Accounts world.written (entriesOf run world.published)
    (entriesOf run world.marks)

section Log

variable {run other : ℕ} {log more : List (ℕ × EventEnvelope)} {events : List EventEnvelope}

theorem entriesOf_append :
    entriesOf run (log ++ more) = entriesOf run log ++ entriesOf run more := by
  simp [entriesOf]

@[simp] theorem entriesOf_self : entriesOf run (events.map (run, ·)) = events := by
  simp [entriesOf, List.filter_map, Function.comp_def]

theorem entriesOf_ne (differ : other ≠ run) : entriesOf other (events.map (run, ·)) = [] := by
  simp [entriesOf, List.filter_map, Function.comp_def, differ.symm]

theorem mem_entriesOf {event : EventEnvelope} : event ∈ entriesOf run log ↔ (run, event) ∈ log := by
  simp [entriesOf]

end Log

section Steps

variable {σ : Type} {store : OutboxStore σ} {represents : store.Represents}
  {world world' : OutboxWorld σ}

theorem BatchRun.Accounts.write {written published marked : List EventEnvelope} {stands : BatchRun}
    (accounts : stands.Accounts written published marked) (events : List EventEnvelope) :
    stands.Accounts (written ++ events) published marked := by
  cases stands with
  | publishing pending delivered =>
    obtain ⟨hPublished, hMarked, distinct, listed⟩ := accounts
    exact ⟨hPublished, hMarked, distinct, fun event h => List.mem_append_left _ (listed event h)⟩
  | _ => exact accounts

theorem OutboxInvariant.unpublished (inv : OutboxInvariant represents world) :
    store.unpublished world.state =
      world.written.filter fun event => event.id ∉ (world.marks.map (·.2.id)).toFinset :=
  represents.unpublished inv.represented

/-- What is left to deliver is what no run has marked. -/
theorem OutboxInvariant.mem_unpublished_iff {event : EventEnvelope}
    (inv : OutboxInvariant represents world) (written : event ∈ world.written) :
    event ∈ store.unpublished world.state ↔ ∀ run, (run, event) ∉ world.marks := by
  rw [inv.unpublished, List.mem_filter, decide_eq_true_eq]
  constructor
  · rintro ⟨-, unmarked⟩ run marked
    exact unmarked (List.mem_toFinset.mpr (List.mem_map_of_mem marked))
  · refine fun unmarked => ⟨written, fun marked => ?_⟩
    obtain ⟨entry, hEntry, same⟩ := List.mem_map.mp (List.mem_toFinset.mp marked)
    have earlier := inv.genuine entry (inv.publishedFirst entry hEntry)
    obtain rfl := List.inj_on_of_nodup_map inv.distinct earlier written same
    exact unmarked entry.1 hEntry

/-- A run that changes its standing alone accounts for the same log. -/
theorem OutboxInvariant.setRun (inv : OutboxInvariant represents world) {run : ℕ}
    {stands : BatchRun} (accounts : stands.Accounts world.written (entriesOf run world.published)
      (entriesOf run world.marks)) :
    OutboxInvariant represents (world.setRun run stands) := by
  refine ⟨inv.represented, inv.distinct, inv.genuine, inv.publishedFirst, fun other => ?_⟩
  by_cases same : other = run
  · rw [same, setRun_runs_self]
    exact accounts
  · rw [setRun_runs_of_ne world same]
    exact inv.accounts other

theorem OutboxInvariant.write (inv : OutboxInvariant represents world) (events : List EventEnvelope)
    (fresh : ((world.written ++ events).map (·.id)).Nodup) :
    OutboxInvariant represents { world with
      state := store.enqueue events world.state
      written := world.written ++ events } := by
  have unmarked : ∀ event ∈ events, event.id ∉ (world.marks.map (·.2.id)).toFinset := by
    intro event listed marked
    obtain ⟨entry, hEntry, same⟩ := List.mem_map.mp (List.mem_toFinset.mp marked)
    have earlier := inv.genuine entry (inv.publishedFirst entry hEntry)
    rw [List.map_append, List.nodup_append] at fresh
    exact fresh.2.2 _ (List.mem_map_of_mem earlier) _ (List.mem_map_of_mem listed) same
  refine ⟨represents.enqueue inv.represented events unmarked, fresh, ?_, inv.publishedFirst, ?_⟩
  · exact fun entry listed => List.mem_append_left _ (inv.genuine entry listed)
  · exact fun run => (inv.accounts run).write events

theorem OutboxInvariant.fetch (inv : OutboxInvariant represents world) {run limit : ℕ}
    {batch : List EventEnvelope} (stands : world.runs run = .idle)
    (fetched : store.fetchUnpublished limit world.state batch) :
    OutboxInvariant represents (world.setRun run (.publishing batch [])) := by
  obtain ⟨ordered, perm, rfl⟩ := represents.fetched inv.represented fetched
  have idle := inv.accounts run
  rw [stands] at idle
  have subset : ordered.Subperm world.written :=
    perm.subperm.trans (List.filter_sublist.subperm)
  refine inv.setRun ⟨idle.1, idle.2, ?_, fun event listed => ?_⟩
  · rw [List.nil_append]
    have distinct : (ordered.map (·.id)).Nodup :=
      (perm.map _).nodup_iff.mpr (inv.distinct.sublist (List.filter_sublist.map _))
    exact distinct.sublist ((List.take_sublist _ _).map _)
  · exact subset.subset (List.mem_of_mem_take listed)

theorem OutboxInvariant.publish (inv : OutboxInvariant represents world) {run : ℕ}
    {event : EventEnvelope} {rest delivered : List EventEnvelope}
    (stands : world.runs run = .publishing (event :: rest) delivered) :
    OutboxInvariant represents { world.setRun run (.publishing rest (delivered ++ [event])) with
      published := world.published ++ [(run, event)] } := by
  have accounts := inv.accounts run
  rw [stands] at accounts
  obtain ⟨hPublished, hMarked, distinct, listed⟩ := accounts
  refine ⟨inv.represented, inv.distinct, ?_, ?_, fun other => ?_⟩
  · intro entry h
    rcases List.mem_append.mp h with earlier | now
    · exact inv.genuine entry earlier
    · rw [List.mem_singleton.mp now]
      exact listed event (by simp)
  · exact fun entry h => List.mem_append_left _ (inv.publishedFirst entry h)
  · simp only [OutboxWorld.setRun, entriesOf_append]
    by_cases same : other = run
    · subst same
      rw [Function.update_self, hPublished]
      refine ⟨by simp [entriesOf], hMarked, ?_, ?_⟩
      · simpa using distinct
      · simpa using listed
    · have none : entriesOf other [(run, event)] = [] := by simp [entriesOf, Ne.symm same]
      rw [Function.update_of_ne same, none, List.append_nil]
      exact inv.accounts other

theorem OutboxInvariant.mark (inv : OutboxInvariant represents world) {run : ℕ} (now : ℤ)
    {delivered : List EventEnvelope} (stands : world.runs run = .publishing [] delivered) :
    OutboxInvariant represents { world.setRun run (.marked delivered) with
      state := store.markPublished now (delivered.map (·.id)) world.state
      marks := world.marks ++
        (world.written.filter fun event => event.id ∈ delivered.map (·.id)).map (run, ·) } := by
  have accounts := inv.accounts run
  rw [stands] at accounts
  obtain ⟨hPublished, hMarked, distinct, listed⟩ := accounts
  rw [List.append_nil] at distinct listed
  -- The update matches the delivered events, which were written under their ids alone.
  have matched : ∀ event, event ∈ world.written.filter (fun event =>
      decide (event.id ∈ delivered.map (·.id))) ↔ event ∈ delivered := by
    intro event
    rw [List.mem_filter, decide_eq_true_eq]
    constructor
    · rintro ⟨hWritten, hId⟩
      obtain ⟨other, hOther, same⟩ := List.mem_map.mp hId
      rwa [← List.inj_on_of_nodup_map inv.distinct (listed other hOther) hWritten same]
    · exact fun h => ⟨listed event h, List.mem_map_of_mem h⟩
  have perm : (world.written.filter fun event =>
      decide (event.id ∈ delivered.map (·.id))).Perm delivered :=
    (List.perm_ext_iff_of_nodup ((inv.distinct.of_map _).filter _) (distinct.of_map _)).mpr matched
  refine ⟨?_, inv.distinct, inv.genuine, ?_, fun other => ?_⟩
  · have marked := represents.marked inv.represented now (delivered.map (·.id))
    rw [List.map_append, List.toFinset_append, List.map_map]
    rwa [← List.toFinset_eq_of_perm _ _ (perm.map (·.id))] at marked
  · intro entry h
    rcases List.mem_append.mp h with earlier | now
    · exact inv.publishedFirst entry earlier
    · obtain ⟨event, hEvent, rfl⟩ := List.mem_map.mp now
      have published : event ∈ entriesOf run world.published := by
        rw [hPublished]
        exact (matched event).mp hEvent
      exact mem_entriesOf.mp published
  · simp only [OutboxWorld.setRun, entriesOf_append]
    by_cases same : other = run
    · subst same
      rw [Function.update_self, hMarked, entriesOf_self, List.nil_append]
      exact ⟨hPublished, perm, distinct⟩
    · rw [Function.update_of_ne same, entriesOf_ne same, List.append_nil]
      exact inv.accounts other

theorem OutboxInvariant.step (inv : OutboxInvariant represents world)
    (step : OutboxStep store world world') : OutboxInvariant represents world' := by
  cases step with
  | write events fresh => exact inv.write events fresh
  | fetch run limit batch positive stands fetched => exact inv.fetch stands fetched
  | publish run stands => exact inv.publish stands
  | reject run stands => exact inv.setRun trivial
  | mark run now stands some => exact inv.mark now stands
  | skip run stands =>
    have accounts := inv.accounts run
    rw [stands] at accounts
    exact inv.setRun ⟨accounts.1, by simp [accounts.2.1], List.nodup_nil⟩
  | return_ run stands =>
    have accounts := inv.accounts run
    rw [stands] at accounts
    obtain ⟨hPublished, hMarked, distinct⟩ := accounts
    exact inv.setRun ⟨by rw [hPublished], by rwa [hPublished], by rwa [hPublished]⟩
  | crash run active => exact inv.setRun trivial

theorem OutboxInvariant.start : OutboxInvariant represents (OutboxWorld.start store) where
  represented := by
    rw [OutboxWorld.start, List.map_nil, List.toFinset_nil]
    exact represents.empty
  distinct := List.nodup_nil
  genuine _ listed := absurd listed List.not_mem_nil
  publishedFirst _ listed := absurd listed List.not_mem_nil
  accounts _ := ⟨rfl, rfl⟩

theorem OutboxInvariant.reachable (represents : store.Represents)
    (reached : Relation.ReflTransGen (OutboxStep store) (.start store) world) :
    OutboxInvariant represents world := by
  induction reached with
  | refl => exact .start
  | tail _ step inv => exact inv.step step

end Steps

/-! ### At-least-once delivery -/

/-- A fetch that is large enough brings the event, whatever order it comes in. -/
def Fetchable {σ : Type} (store : OutboxStore σ) (state : σ) (event : EventEnvelope) : Prop :=
  ∃ limit, 0 < limit ∧ (∃ batch, store.fetchUnpublished limit state batch) ∧
    ∀ batch, store.fetchUnpublished limit state batch → event ∈ batch

structure DeliversAtLeastOnce {σ : Type} (store : OutboxStore σ) (world : OutboxWorld σ) :
    Prop where
  /-- What is marked has been published, -/
  markedLater : ∀ event ∈ world.written, event ∉ store.unpublished world.state →
    ∃ run, (run, event) ∈ world.published
  /-- what is not marked can be fetched, -/
  kept : ∀ event ∈ world.written, event ∈ store.unpublished world.state →
    Fetchable store world.state event
  /-- and what is published was written, field for field. -/
  genuine : ∀ run event, (run, event) ∈ world.published → event ∈ world.written
  /-- A run that returned a count has published and marked that many events, each of them once. -/
  returned : ∀ run count, world.runs run = .returned count →
    (entriesOf run world.published).length = count ∧ (entriesOf run world.published).Nodup ∧
      (entriesOf run world.marks).Perm (entriesOf run world.published) ∧
        ∀ event ∈ entriesOf run world.published, event ∉ store.unpublished world.state

theorem OutboxInvariant.delivers {σ : Type} {store : OutboxStore σ} {represents : store.Represents}
    {world : OutboxWorld σ} (inv : OutboxInvariant represents world) :
    DeliversAtLeastOnce store world where
  markedLater event written gone := by
    rw [inv.mem_unpublished_iff written, not_forall_not] at gone
    obtain ⟨run, marked⟩ := gone
    exact ⟨run, inv.publishedFirst _ marked⟩
  kept event written waiting := by
    refine ⟨(store.unpublished world.state).length + 1, Nat.succ_pos _, represents.resolves _ _,
      fun batch fetched => ?_⟩
    obtain ⟨ordered, perm, rfl⟩ := represents.fetched inv.represented fetched
    rw [← represents.unpublished inv.represented] at perm
    rw [List.take_of_length_le (by rw [perm.length_eq]; omega)]
    exact perm.mem_iff.mpr waiting
  genuine run event published := inv.genuine _ published
  returned run count stands := by
    have accounts := inv.accounts run
    rw [stands] at accounts
    obtain ⟨length, perm, distinct⟩ := accounts
    refine ⟨length, distinct.of_map _, perm, fun event published => ?_⟩
    have marked : (run, event) ∈ world.marks := mem_entriesOf.mp (perm.mem_iff.mpr published)
    have written := inv.genuine _ (inv.publishedFirst _ marked)
    rw [inv.mem_unpublished_iff written, not_forall_not]
    exact ⟨run, marked⟩

/-- In every interleaving of writers and dispatchers, with rejected publishes and crashes, each of
the two stores delivers what was written at least once, and nothing else. -/
theorem dispatchBatch_atLeastOnce :
    (∀ world, Relation.ReflTransGen (OutboxStep drizzleOutboxStore)
        (.start drizzleOutboxStore) world →
      DeliversAtLeastOnce drizzleOutboxStore world) ∧
    (∀ world, Relation.ReflTransGen (OutboxStep inMemoryOutboxStore)
        (.start inMemoryOutboxStore) world →
      DeliversAtLeastOnce inMemoryOutboxStore world) ∧
    ∀ event, rowToEnvelope (eventEnvelopeToRow event) = event :=
  ⟨fun _ reached => (OutboxInvariant.reachable drizzleRepresents reached).delivers,
    fun _ reached => (OutboxInvariant.reachable inMemoryRepresents reached).delivers,
    rowToEnvelope_eventEnvelopeToRow⟩

def crmCreated : EventEnvelope where
  id := "event-1"
  type := .taskCreated
  organizationId := "acme"
  objectiveId := some "objective-1"
  taskId := some "task-1"
  actor := { type := .human, id := "ada" }
  correlationId := "correlation-1"
  causationId := none
  payloadRef := none
  createdAt := 0

/-- The run that fetches, publishes and marks the one event that was written. -/
theorem dispatchBatch_atLeastOnce_crm : ∃ world : OutboxWorld (List EventRow),
    world.runs 0 = .returned 1 ∧ entriesOf 0 world.published = [crmCreated] ∧
      DeliversAtLeastOnce drizzleOutboxStore world := by
  have written := Relation.ReflTransGen.single
    (@OutboxStep.write _ drizzleOutboxStore (.start drizzleOutboxStore) [crmCreated] (by decide))
  have fetched := written.tail (.fetch 0 5 [crmCreated] (by decide) rfl
    ⟨[eventEnvelopeToRow crmCreated], ⟨by decide, List.pairwise_singleton _ _⟩, rfl⟩)
  have published := fetched.tail
    (.publish 0 (show _ = BatchRun.publishing [crmCreated] [] from rfl))
  have marked := published.tail
    (.mark 0 1 (show _ = BatchRun.publishing [] [crmCreated] from rfl) (by decide))
  have returned := marked.tail (.return_ 0 (show _ = BatchRun.marked [crmCreated] from rfl))
  exact ⟨_, rfl, rfl, dispatchBatch_atLeastOnce.1 _ returned⟩

end Donna
