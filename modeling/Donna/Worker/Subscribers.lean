import Donna.Js.OrderedMap
import Donna.Orchestrator.Adapters
import Donna.Worker.Outbox

/-! The dispatcher on an `InMemoryEventBus`.  The bus awaits the handlers that are subscribed when a
publish starts, one after the other, and swallows what they throw, so a publish always resolves: an
event is marked whether its handlers completed or not. -/

namespace Donna

open Js

/-! ### The bus -/

inductive EventSubscription
  | type (type : EventType)
  | all
  deriving DecidableEq

/-- The bus without `onError`, as the worker builds it.  A `Set` of handlers is a list without
repetitions, in the order in which they were added. -/
structure InMemoryEventBus (κ : Type) where
  handlers : OrderedMap EventSubscription (List κ)

namespace InMemoryEventBus

variable {κ : Type}

def new : InMemoryEventBus κ := ⟨.empty⟩

def handlersOf (bus : InMemoryEventBus κ) (on : EventSubscription) : List κ :=
  (bus.handlers.get on).getD []

/-- The handlers that a publish of the event calls, in order. -/
def matched (bus : InMemoryEventBus κ) (event : EventEnvelope) : List κ :=
  bus.handlersOf (.type event.type) ++ bus.handlersOf .all

variable [DecidableEq κ]

def subscribe (bus : InMemoryEventBus κ) (on : EventSubscription) (handler : κ) :
    InMemoryEventBus κ :=
  let set := bus.handlersOf on
  ⟨bus.handlers.set on (if handler ∈ set then set else set ++ [handler])⟩

/-- What `subscribe` returns: it deletes the handler from its set. -/
def unsubscribe (bus : InMemoryEventBus κ) (on : EventSubscription) (handler : κ) :
    InMemoryEventBus κ :=
  ⟨bus.handlers.set on ((bus.handlersOf on).erase handler)⟩

end InMemoryEventBus

/-- A publish of an event: the handlers that were subscribed when it started, and those called so
far, each with its outcome. -/
structure Delivery (κ : Type) where
  event : EventEnvelope
  matched : List κ
  calls : List (κ × Except Thrown Unit)

def Completed {κ : Type} (call : κ × Except Thrown Unit) : Prop := call.2 = .ok ()

/-- Some handler threw. -/
def Delivery.Failed {κ : Type} (delivery : Delivery κ) : Prop :=
  ∃ call ∈ delivery.calls, ¬ Completed call

/-! ### Dispatchers on the bus -/

/-- A store with the runs of `dispatchBatch` on it, the bus, the publishes that are under way and
those that resolved, each with its run. -/
structure BusWorld (σ κ : Type) where
  outbox : OutboxWorld σ
  bus : InMemoryEventBus κ
  delivering : ℕ → Option (Delivery κ)
  deliveries : List (ℕ × Delivery κ)

def BusWorld.start {σ κ : Type} (store : OutboxStore σ) : BusWorld σ κ where
  outbox := .start store
  bus := .new
  delivering _ := none
  deliveries := []

section Steps

variable {σ κ : Type}

/-- A step of a subscriber, of a run on the store, or of a publish. -/
inductive BusStep [DecidableEq κ] (store : OutboxStore σ) : BusWorld σ κ → BusWorld σ κ → Prop
  | subscribe {world} (on : EventSubscription) (handler : κ) :
      BusStep store world { world with bus := world.bus.subscribe on handler }
  | unsubscribe {world} (on : EventSubscription) (handler : κ) :
      BusStep store world { world with bus := world.bus.unsubscribe on handler }
  /-- A step of the store or of a run that publishes nothing, a crash included. -/
  | outbox {world : BusWorld σ κ} {outbox : OutboxWorld σ}
      (step : OutboxStep store world.outbox outbox)
      (unpublished : outbox.published = world.outbox.published) :
      BusStep store world { world with outbox := outbox }
  | publish {world} (run : ℕ) {event rest delivered}
      (stands : world.outbox.runs run = .publishing (event :: rest) delivered)
      (free : world.delivering run = none) :
      BusStep store world { world with
        delivering := Function.update world.delivering run
          (some ⟨event, world.bus.matched event, []⟩) }
  /-- The next handler is called and awaited; what it throws is caught. -/
  | handle {world} (run : ℕ) (outcome : Except Thrown Unit) {delivery handler rest delivered}
      (stands : world.outbox.runs run = .publishing (delivery.event :: rest) delivered)
      (under : world.delivering run = some delivery)
      (next : delivery.matched[delivery.calls.length]? = some handler) :
      BusStep store world { world with
        delivering := Function.update world.delivering run
          (some { delivery with calls := delivery.calls ++ [(handler, outcome)] }) }
  /-- All handlers have been called, and the publish resolves. -/
  | resolve {world} (run : ℕ) {delivery rest delivered}
      (stands : world.outbox.runs run = .publishing (delivery.event :: rest) delivered)
      (under : world.delivering run = some delivery)
      (all : delivery.calls.length = delivery.matched.length) :
      BusStep store world {
        outbox := { world.outbox.setRun run (.publishing rest (delivered ++ [delivery.event])) with
          published := world.outbox.published ++ [(run, delivery.event)] }
        bus := world.bus
        delivering := Function.update world.delivering run none
        deliveries := world.deliveries ++ [(run, delivery)] }

/-! ### What marking says of the handlers -/

structure ReachesSubscribers (store : OutboxStore σ) (world : BusWorld σ κ) : Prop where
  /-- An event is marked only once every handler that was subscribed when the marking run published
  it has completed for it, -/
  completed : ∀ run event, (run, event) ∈ world.outbox.marks →
    ∃ delivery, (run, delivery) ∈ world.deliveries ∧ delivery.event = event ∧
      ∀ handler ∈ delivery.matched, ∃ entry ∈ world.deliveries,
        entry.2.event = event ∧ (handler, .ok ()) ∈ entry.2.calls
  /-- and a run that published it to a handler that threw leaves it to a later batch. -/
  retried : ∀ run delivery, (run, delivery) ∈ world.deliveries → delivery.Failed →
    (run, delivery.event) ∉ world.outbox.marks ∧
      ((∀ other, (other, delivery.event) ∉ world.outbox.marks) →
        Fetchable store world.outbox.state delivery.event)

/-- No handler threw in a run that has gone on to mark its events. -/
def MarkedUnfailed (world : BusWorld σ κ) : Prop :=
  ∀ run delivery, (run, delivery) ∈ world.deliveries →
    (∃ event, (run, event) ∈ world.outbox.marks) → ¬ delivery.Failed

/-! ### Every run -/

/-- A run has marked nothing, or everything that it has published. -/
def MarksAll (outbox : OutboxWorld σ) : Prop :=
  ∀ run, entriesOf run outbox.marks = [] ∨
    (entriesOf run outbox.marks).Perm (entriesOf run outbox.published)

/-- What holds of the bus and the dispatchers in every interleaving. -/
structure BusInvariant (store : OutboxStore σ) (world : BusWorld σ κ) : Prop where
  reached : Relation.ReflTransGen (OutboxStep store) (.start store) world.outbox
  published : world.outbox.published = world.deliveries.map fun entry => (entry.1, entry.2.event)
  calling : ∀ run delivery, world.delivering run = some delivery →
    delivery.calls.map Prod.fst = delivery.matched.take delivery.calls.length
  called : ∀ run delivery, (run, delivery) ∈ world.deliveries →
    delivery.calls.map Prod.fst = delivery.matched
  marks : MarksAll world.outbox

variable {store : OutboxStore σ} {world world' : BusWorld σ κ}

theorem OutboxStep.marksAll (represents : store.Represents) {outbox outbox' : OutboxWorld σ}
    (step : OutboxStep store outbox outbox') (inv : OutboxInvariant represents outbox)
    (marks : MarksAll outbox) : MarksAll outbox' := by
  cases step with
  | write | fetch | reject | skip | return_ | crash => exact marks
  | @publish run event rest delivered stands =>
    intro other
    by_cases same : other = run
    · subst same
      have accounts := inv.accounts other
      rw [stands] at accounts
      exact .inl accounts.2.1
    · have none : entriesOf other [(run, event)] = [] := by simp [entriesOf, Ne.symm same]
      rw [entriesOf_append, none, List.append_nil]
      exact marks other
  | @mark run now delivered stands some =>
    intro other
    by_cases same : other = run
    · subst same
      have accounts := (inv.mark now stands).accounts other
      simp only [OutboxWorld.setRun, Function.update_self] at accounts
      exact .inr (accounts.2.1.trans (.of_eq accounts.1.symm))
    · rw [entriesOf_append, entriesOf_ne same, List.append_nil]
      exact marks other

theorem BusInvariant.start : BusInvariant store (BusWorld.start store : BusWorld σ κ) where
  reached := .refl
  published := rfl
  calling _ _ under := by cases under
  called _ _ listed := absurd listed List.not_mem_nil
  marks _ := .inl rfl

/-- A step of a publish that calls a handler, or starts with none called. -/
theorem BusInvariant.delivering (inv : BusInvariant store world) (run : ℕ) {delivery : Delivery κ}
    (calls : delivery.calls.map Prod.fst = delivery.matched.take delivery.calls.length) :
    BusInvariant store { world with
      delivering := Function.update world.delivering run (some delivery) } := by
  refine ⟨inv.reached, inv.published, fun other given under => ?_, inv.called, inv.marks⟩
  dsimp only at under
  by_cases same : other = run
  · rw [same, Function.update_self] at under
    cases under
    exact calls
  · rw [Function.update_of_ne same] at under
    exact inv.calling other given under

theorem BusInvariant.step [DecidableEq κ] (represents : store.Represents)
    (inv : BusInvariant store world) (step : BusStep store world world') :
    BusInvariant store world' := by
  have outboxInv := OutboxInvariant.reachable represents inv.reached
  cases step with
  | subscribe | unsubscribe =>
    exact ⟨inv.reached, inv.published, inv.calling, inv.called, inv.marks⟩
  | outbox step unpublished =>
    exact ⟨inv.reached.tail step, unpublished.trans inv.published, inv.calling, inv.called,
      step.marksAll represents outboxInv inv.marks⟩
  | publish run stands free => exact inv.delivering run rfl
  | @handle run outcome delivery handler _ _ stands under next =>
    apply inv.delivering run
    rw [List.map_append, inv.calling run delivery under, List.length_append, List.map_singleton,
      List.length_singleton, List.take_add_one, next, Option.toList_some]
  | @resolve run delivery rest delivered stands under all =>
    have step : OutboxStep store world.outbox _ := .publish run stands
    refine ⟨inv.reached.tail step, ?_, ?_, ?_, step.marksAll represents outboxInv inv.marks⟩
    · rw [inv.published, List.map_append, List.map_singleton]
    · intro other given ongoing
      dsimp only at ongoing
      by_cases same : other = run
      · rw [same, Function.update_self] at ongoing
        cases ongoing
      · rw [Function.update_of_ne same] at ongoing
        exact inv.calling other given ongoing
    · intro other given listed
      rcases List.mem_append.mp listed with earlier | now
      · exact inv.called other given earlier
      · cases List.mem_singleton.mp now
        rw [inv.calling run delivery under, all, List.take_length]

theorem BusInvariant.reachable [DecidableEq κ] (represents : store.Represents)
    (reached : Relation.ReflTransGen (BusStep store) (.start store) world) :
    BusInvariant store world := by
  induction reached with
  | refl => exact .start
  | tail _ step inv => exact inv.step represents step

/-- An event that no run has marked can be fetched again. -/
theorem OutboxInvariant.fetchable {represents : store.Represents} {outbox : OutboxWorld σ}
    (inv : OutboxInvariant represents outbox) {event : EventEnvelope}
    (written : event ∈ outbox.written) (unmarked : ∀ run, (run, event) ∉ outbox.marks) :
    Fetchable store outbox.state event := by
  apply inv.delivers.kept event written
  exact (inv.mem_unpublished_iff written).mpr unmarked

theorem BusInvariant.reaches_iff (represents : store.Represents) (inv : BusInvariant store world) :
    ReachesSubscribers store world ↔ MarkedUnfailed world := by
  have outboxInv := OutboxInvariant.reachable represents inv.reached
  constructor
  · rintro reaches run delivery listed ⟨event, marked⟩ failed
    -- The run marked everything that it published, this delivery's event included.
    have published : delivery.event ∈ entriesOf run world.outbox.published := by
      rw [mem_entriesOf, inv.published]
      exact List.mem_map_of_mem listed
    have all : (entriesOf run world.outbox.marks).Perm (entriesOf run world.outbox.published) := by
      refine (inv.marks run).resolve_left fun none => ?_
      have := mem_entriesOf.mpr marked
      rw [none] at this
      cases this
    have now := mem_entriesOf.mp (all.mem_iff.mpr published)
    exact (reaches.retried run delivery listed failed).1 now
  · intro unfailed
    constructor
    · intro run event marked
      have published := outboxInv.publishedFirst _ marked
      rw [inv.published] at published
      obtain ⟨⟨run', delivery⟩, listed, same⟩ := List.mem_map.mp published
      obtain ⟨rfl, rfl⟩ := Prod.mk.inj same
      refine ⟨delivery, listed, rfl, fun handler subscribed => ⟨_, listed, rfl, ?_⟩⟩
      rw [← inv.called _ _ listed] at subscribed
      obtain ⟨call, called, rfl⟩ := List.mem_map.mp subscribed
      have completed : Completed call := by
        by_contra threw
        exact unfailed _ _ listed ⟨_, marked⟩ ⟨call, called, threw⟩
      rw [← show call.2 = .ok () from completed]
      exact called
    · intro run delivery listed failed
      refine ⟨fun marked => unfailed run delivery listed ⟨_, marked⟩ failed, fun unmarked => ?_⟩
      have published : (run, delivery.event) ∈ world.outbox.published := by
        rw [inv.published]
        exact List.mem_map_of_mem listed
      exact outboxInv.fetchable (outboxInv.genuine _ published) unmarked

end Steps

/-- In every interleaving of writers, subscribers and dispatchers, with crashes, and for each of the
two stores: at-least-once delivery reaches every subscriber if and only if no handler threw in a run
that has gone on to mark its events. -/
theorem dispatchBatch_reachesSubscribers_iff {κ : Type} [DecidableEq κ] :
    (∀ world : BusWorld (List EventRow) κ,
      Relation.ReflTransGen (BusStep drizzleOutboxStore) (.start drizzleOutboxStore) world →
        (ReachesSubscribers drizzleOutboxStore world ↔ MarkedUnfailed world)) ∧
    ∀ world : BusWorld InMemoryOutbox κ,
      Relation.ReflTransGen (BusStep inMemoryOutboxStore) (.start inMemoryOutboxStore) world →
        (ReachesSubscribers inMemoryOutboxStore world ↔ MarkedUnfailed world) := by
  constructor
  · intro world reached
    exact (BusInvariant.reachable drizzleRepresents reached).reaches_iff drizzleRepresents
  · intro world reached
    exact (BusInvariant.reachable inMemoryRepresents reached).reaches_iff inMemoryRepresents

/-- A batch that publishes the one event to the one subscriber, which comes to `outcome`. -/
theorem crmPublished (outcome : Except Thrown Unit) :
    ∃ world : BusWorld (List EventRow) String,
      Relation.ReflTransGen (BusStep drizzleOutboxStore) (.start drizzleOutboxStore) world ∧
        world.deliveries = [(0, ⟨crmCreated, ["projection"], [("projection", outcome)]⟩)] ∧
        world.outbox.marks = [(0, crmCreated)] := by
  have subscribed := Relation.ReflTransGen.single
    (@BusStep.subscribe _ String _ drizzleOutboxStore (.start drizzleOutboxStore) .all "projection")
  have written := subscribed.tail (.outbox (.write [crmCreated] (by decide)) rfl)
  have fetched := written.tail (.outbox (.fetch 0 5 [crmCreated] (by decide) rfl
    ⟨[eventEnvelopeToRow crmCreated], ⟨by decide, List.pairwise_singleton _ _⟩, rfl⟩) rfl)
  have published := fetched.tail
    (.publish 0 (show _ = BatchRun.publishing [crmCreated] [] from rfl) rfl)
  have handled := published.tail (@BusStep.handle _ _ _ _ _ 0 outcome
    ⟨crmCreated, ["projection"], []⟩ "projection" [] [] rfl rfl rfl)
  have resolved := handled.tail (@BusStep.resolve _ _ _ _ _ 0
    ⟨crmCreated, ["projection"], [("projection", outcome)]⟩ [] [] rfl rfl rfl)
  have marked := resolved.tail
    (.outbox (.mark 0 1 (show _ = BatchRun.publishing [] [crmCreated] from rfl) (by decide)) rfl)
  exact ⟨_, marked, rfl, rfl⟩

theorem dispatchBatch_reachesSubscribers_iff_crm :
    ∃ world : BusWorld (List EventRow) String,
      world.deliveries = [(0, ⟨crmCreated, ["projection"], [("projection", .ok ())]⟩)] ∧
        (ReachesSubscribers drizzleOutboxStore world ↔ MarkedUnfailed world) := by
  obtain ⟨world, reached, deliveries, -⟩ := crmPublished (.ok ())
  exact ⟨world, deliveries, dispatchBatch_reachesSubscribers_iff.1 world reached⟩

theorem dispatchBatch_loses :
    ¬ ∀ world : BusWorld (List EventRow) String,
      Relation.ReflTransGen (BusStep drizzleOutboxStore) (.start drizzleOutboxStore) world →
        ReachesSubscribers drizzleOutboxStore world := by
  intro reaches
  obtain ⟨world, reached, deliveries, marks⟩ :=
    crmPublished (.error (.value (.string "connection lost")))
  have listed : (0, _) ∈ world.deliveries := deliveries ▸ List.mem_singleton_self _
  have retried := (reaches world reached).retried 0 _ listed
    ⟨_, List.mem_singleton_self _, by simp [Completed]⟩
  exact retried.1 (by simp [marks])

end Donna
