import Donna.Worker.Outbox

/-! What a rejected publish does to the events before it in its batch.  A batch marks what it has
published after its loop, so a rejection leaves all of it unmarked, and a later batch publishes it
again unless another run has marked it by then. -/

namespace Donna

open OutboxWorld

/-- What a run has fetched and not yet published. -/
def BatchRun.pending : BatchRun → List EventEnvelope
  | .publishing pending _ => pending
  | _ => []

section Later

variable {σ : Type}

/-- A run of `dispatchBatch` that starts later neither publishes the events nor comes to try. -/
def PublishesNoneAgain (store : OutboxStore σ) (world : OutboxWorld σ)
    (events : List EventEnvelope) : Prop :=
  ∀ world', Relation.ReflTransGen (OutboxStep store) world world' →
    ∀ later, world.runs later = .idle → ∀ event ∈ events,
      (later, event) ∉ world'.published ∧
        ∀ rest delivered, world'.runs later ≠ .publishing (event :: rest) delivered

/-- None of the events remains to be delivered. -/
def NoneRemains (store : OutboxStore σ) (world : OutboxWorld σ) (events : List EventEnvelope) :
    Prop :=
  ∀ event ∈ events, event ∉ store.unpublished world.state

/-- Another run has marked the event. -/
def MarkedByAnother (world : OutboxWorld σ) (run : ℕ) (event : EventEnvelope) : Prop :=
  ∃ other, other ≠ run ∧ (other, event) ∈ world.marks

/-- At most one run is in progress. -/
def OutboxWorld.Solo (world : OutboxWorld σ) : Prop :=
  ∀ run other, (world.runs run).inProgress = true → (world.runs other).inProgress = true →
    run = other

/-- A step of a dispatcher whose batches do not overlap. -/
def SoloStep (store : OutboxStore σ) (world world' : OutboxWorld σ) : Prop :=
  OutboxStep store world world' ∧ world'.Solo

/-- What becomes of the events `delivered` that a run has published when its next publish is
rejected. -/
structure RejectionSpares (store : OutboxStore σ) (world : OutboxWorld σ) (run : ℕ)
    (delivered : List EventEnvelope) : Prop where
  /-- No later run publishes them again exactly where another run has marked each of them, -/
  again : PublishesNoneAgain store (world.setRun run .stopped) delivered ↔
    ∀ event ∈ delivered, MarkedByAnother world run event
  /-- nor do they remain to be delivered exactly then, -/
  remain : NoneRemains store (world.setRun run .stopped) delivered ↔
    ∀ event ∈ delivered, MarkedByAnother world run event
  /-- and where batches do not overlap, exactly where there are none. -/
  solo : Relation.ReflTransGen (SoloStep store) (.start store) world →
    (PublishesNoneAgain store (world.setRun run .stopped) delivered ↔ delivered = [])

variable {store : OutboxStore σ} {represents : store.Represents} {world world' : OutboxWorld σ}
  {run : ℕ} {event : EventEnvelope}

/-! ### Marked events -/

theorem OutboxStep.marks_subset (step : OutboxStep store world world') :
    world.marks ⊆ world'.marks := by
  cases step with
  | mark => exact List.subset_append_left _ _
  | _ => exact List.Subset.refl _

/-- A marked event is not fetched. -/
theorem OutboxInvariant.not_fetched (inv : OutboxInvariant represents world)
    (marked : (run, event) ∈ world.marks) {limit : ℕ} {batch : List EventEnvelope}
    (fetched : store.fetchUnpublished limit world.state batch) : event ∉ batch := by
  obtain ⟨ordered, perm, rfl⟩ := represents.fetched inv.represented fetched
  rw [← represents.unpublished inv.represented] at perm
  have written := inv.genuine _ (inv.publishedFirst _ marked)
  intro listed
  have unpublished := perm.mem_iff.mp (List.mem_of_mem_take listed)
  exact (inv.mem_unpublished_iff written).mp unpublished run marked

/-- A marked event stays out of a run that neither has it pending nor has published it. -/
theorem OutboxStep.keepsOut (step : OutboxStep store world world')
    (inv : OutboxInvariant represents world) {marker later : ℕ}
    (marked : (marker, event) ∈ world.marks)
    (out : (later, event) ∉ world.published ∧ event ∉ (world.runs later).pending) :
    (later, event) ∉ world'.published ∧ event ∉ (world'.runs later).pending := by
  have settled : ∀ run {stands : BatchRun}, (later = run → event ∉ stands.pending) →
      event ∉ ((world.setRun run stands).runs later).pending := by
    intro run stands none
    by_cases same : later = run
    · rw [same, setRun_runs_self]
      exact none same
    · rw [setRun_runs_of_ne world same]
      exact out.2
  cases step with
  | write events fresh => exact out
  | fetch run limit batch positive stands fetched =>
    exact ⟨out.1, settled run fun _ => inv.not_fetched marked fetched⟩
  | @publish run first rest delivered stands =>
    have pending : later = run → event ≠ first ∧ event ∉ rest := by
      rintro rfl
      have pending := out.2
      rwa [stands, BatchRun.pending, List.mem_cons, not_or] at pending
    refine ⟨?_, settled run fun same => (pending same).2⟩
    rw [List.mem_append, List.mem_singleton, Prod.mk.injEq]
    exact not_or.mpr ⟨out.1, fun ⟨same, h⟩ => (pending same).1 h⟩
  | reject run stands => exact ⟨out.1, settled run fun _ => List.not_mem_nil⟩
  | mark run now stands some => exact ⟨out.1, settled run fun _ => List.not_mem_nil⟩
  | skip run stands => exact ⟨out.1, settled run fun _ => List.not_mem_nil⟩
  | return_ run stands => exact ⟨out.1, settled run fun _ => List.not_mem_nil⟩
  | crash run active => exact ⟨out.1, settled run fun _ => List.not_mem_nil⟩

theorem publishesNoneAgain_of_marked (inv : OutboxInvariant represents world)
    {events : List EventEnvelope} (marked : ∀ event ∈ events, ∃ run, (run, event) ∈ world.marks) :
    PublishesNoneAgain store world events := by
  intro world' run later idle event listed
  obtain ⟨marker, hMarker⟩ := marked event listed
  have start : (later, event) ∉ world.published ∧ event ∉ (world.runs later).pending := by
    have accounts := inv.accounts later
    rw [idle] at accounts ⊢
    refine ⟨fun published => ?_, List.not_mem_nil⟩
    have entry := mem_entriesOf.mpr published
    rw [accounts.1] at entry
    cases entry
  have kept : OutboxInvariant represents world' ∧ (marker, event) ∈ world'.marks ∧
      (later, event) ∉ world'.published ∧ event ∉ (world'.runs later).pending := by
    induction run with
    | refl => exact ⟨inv, hMarker, start⟩
    | tail _ step ih =>
      obtain ⟨inv', marked', out⟩ := ih
      exact ⟨inv'.step step, step.marks_subset marked', step.keepsOut inv' marked' out⟩
  refine ⟨kept.2.2.1, fun rest delivered stands => kept.2.2.2 ?_⟩
  rw [stands]
  exact List.mem_cons_self

/-! ### Unmarked events -/

/-- Only finitely many runs have started. -/
theorem exists_idle (reached : Relation.ReflTransGen (OutboxStep store) (.start store) world) :
    ∃ started, ∀ run, started ≤ run → world.runs run = .idle := by
  have settled : ∀ {world : OutboxWorld σ} (run : ℕ) (stands : BatchRun),
      (∃ started, ∀ other, started ≤ other → world.runs other = .idle) →
        ∃ started, ∀ other, started ≤ other → (world.setRun run stands).runs other = .idle := by
    rintro world run stands ⟨started, idle⟩
    refine ⟨max started (run + 1), fun other beyond => ?_⟩
    have differ : other ≠ run := by omega
    rw [setRun_runs_of_ne world differ]
    exact idle other (by omega)
  induction reached with
  | refl => exact ⟨0, fun _ _ => rfl⟩
  | tail _ step ih =>
    cases step with
    | write events fresh => exact ih
    | fetch run | publish run | reject run | mark run | skip run | return_ run | crash run =>
      exact settled run _ ih

/-- A run can publish what it has pending up to any event. -/
theorem exists_publishing (store : OutboxStore σ) (world : OutboxWorld σ)
    {before rest delivered : List EventEnvelope}
    (stands : world.runs run = .publishing (before ++ rest) delivered) :
    ∃ world', Relation.ReflTransGen (OutboxStep store) world world' ∧
      world'.runs run = .publishing rest (delivered ++ before) := by
  induction before generalizing world delivered with
  | nil => exact ⟨world, .refl, by simpa using stands⟩
  | cons first before ih =>
    obtain ⟨world', steps, stands'⟩ := ih { world.setRun run
        (.publishing (before ++ rest) (delivered ++ [first])) with
      published := world.published ++ [(run, first)] } (setRun_runs_self world run _)
    refine ⟨world', .head (.publish run stands) steps, ?_⟩
    rw [stands']
    simp

/-- An event that can be fetched comes to be published by a later run. -/
theorem exists_later_publishing
    (reached : Relation.ReflTransGen (OutboxStep store) (.start store) world)
    (fetchable : Fetchable store world.state event) :
    ∃ later world' rest delivered, world.runs later = .idle ∧
      Relation.ReflTransGen (OutboxStep store) world world' ∧
        world'.runs later = .publishing (event :: rest) delivered := by
  obtain ⟨later, idle⟩ := exists_idle reached
  obtain ⟨limit, positive, ⟨batch, fetched⟩, all⟩ := fetchable
  obtain ⟨before, rest, rfl⟩ := List.append_of_mem (all batch fetched)
  have step := OutboxStep.fetch later limit _ positive (idle later le_rfl) fetched
  obtain ⟨world', steps, stands⟩ := exists_publishing store
    (world.setRun later (.publishing (before ++ event :: rest) [])) (setRun_runs_self _ _ _)
  exact ⟨later, world', rest, _, idle later le_rfl, .head step steps, stands⟩

theorem marked_of_publishesNoneAgain
    (reached : Relation.ReflTransGen (OutboxStep store) (.start store) world)
    (inv : OutboxInvariant represents world) {events : List EventEnvelope}
    (written : ∀ event ∈ events, event ∈ world.written)
    (none : PublishesNoneAgain store world events) :
    ∀ event ∈ events, ∃ run, (run, event) ∈ world.marks := by
  intro event listed
  by_contra unmarked
  have waiting := (inv.mem_unpublished_iff (written event listed)).mpr
    fun run marked => unmarked ⟨run, marked⟩
  obtain ⟨later, world', rest, delivered, idle, steps, stands⟩ :=
    exists_later_publishing reached (inv.delivers.kept event (written event listed) waiting)
  exact (none world' steps later idle event listed).2 rest delivered stands

/-! ### Batches that do not overlap -/

/-- The run in progress has fetched nothing that is marked. -/
def FetchedUnmarked (world : OutboxWorld σ) : Prop :=
  ∀ run pending delivered, world.runs run = .publishing pending delivered →
    ∀ event ∈ delivered ++ pending, ∀ marker, (marker, event) ∉ world.marks

theorem fetchedUnmarked_setRun (kept : FetchedUnmarked world) {stands : BatchRun}
    (own : ∀ pending delivered, stands = .publishing pending delivered →
      ∀ event ∈ delivered ++ pending, ∀ marker, (marker, event) ∉ world.marks) :
    FetchedUnmarked (world.setRun run stands) := by
  intro other pending delivered hOther
  by_cases same : other = run
  · rw [same, setRun_runs_self] at hOther
    exact own pending delivered hOther
  · rw [setRun_runs_of_ne world same] at hOther
    exact kept other pending delivered hOther

theorem SoloStep.fetchedUnmarked (step : SoloStep store world world')
    (inv : OutboxInvariant represents world) (solo : world.Solo) (kept : FetchedUnmarked world) :
    FetchedUnmarked world' := by
  cases step.1 with
  | write events fresh => exact kept
  | fetch run limit batch positive stands fetched =>
    refine fetchedUnmarked_setRun kept ?_
    rintro _ _ ⟨⟩ event listed marker marked
    exact inv.not_fetched marked fetched listed
  | @publish run first rest delivered stands =>
    refine fetchedUnmarked_setRun kept ?_
    rintro _ _ ⟨⟩ event listed
    exact kept run _ _ stands event (by simpa using listed)
  | @mark run now delivered stands some =>
    -- The run that marks is the only one in progress, and is so no longer.
    intro other pending delivered' hOther
    dsimp only at hOther
    by_cases same : other = run
    · rw [same, setRun_runs_self] at hOther
      cases hOther
    · rw [setRun_runs_of_ne world same] at hOther
      exact absurd (solo other run (by rw [hOther]; rfl) (by rw [stands]; rfl)) same
  | reject run | skip run | return_ run | crash run =>
    refine fetchedUnmarked_setRun kept ?_
    rintro _ _ ⟨⟩

theorem fetchedUnmarked_of_solo (represents : store.Represents)
    (reached : Relation.ReflTransGen (SoloStep store) (.start store) world) :
    OutboxInvariant represents world ∧ world.Solo ∧ FetchedUnmarked world := by
  induction reached with
  | refl =>
    refine ⟨.start, ?_, ?_⟩
    · rintro _ _ ⟨⟩
    · rintro _ _ _ ⟨⟩
  | tail _ step ih =>
    obtain ⟨inv, solo, kept⟩ := ih
    exact ⟨inv.step step.1, step.2, step.fetchedUnmarked inv solo kept⟩

/-! ### The rejection -/

theorem OutboxInvariant.rejectionSpares
    (reached : Relation.ReflTransGen (OutboxStep store) (.start store) world)
    (inv : OutboxInvariant represents world) {rest delivered : List EventEnvelope}
    (stands : world.runs run = .publishing (event :: rest) delivered) :
    RejectionSpares store world run delivered := by
  have step : OutboxStep store world (world.setRun run .stopped) := .reject run stands
  have inv' := inv.step step
  have accounts := inv.accounts run
  rw [stands] at accounts
  obtain ⟨-, hMarked, -, listed⟩ := accounts
  have written : ∀ earlier ∈ delivered, earlier ∈ world.written :=
    fun earlier h => listed earlier (List.mem_append_left _ h)
  have another : (∀ earlier ∈ delivered, ∃ marker, (marker, earlier) ∈ world.marks) ↔
      ∀ earlier ∈ delivered, MarkedByAnother world run earlier := by
    refine forall₂_congr fun earlier _ => ⟨?_, fun ⟨marker, _, h⟩ => ⟨marker, h⟩⟩
    rintro ⟨marker, h⟩
    refine ⟨marker, ?_, h⟩
    rintro rfl
    have own := mem_entriesOf.mpr h
    rw [hMarked] at own
    cases own
  have again : PublishesNoneAgain store (world.setRun run .stopped) delivered ↔
      ∀ earlier ∈ delivered, ∃ marker, (marker, earlier) ∈ world.marks :=
    ⟨marked_of_publishesNoneAgain (reached.tail step) inv' written,
      publishesNoneAgain_of_marked inv'⟩
  refine ⟨again.trans another, ?_, fun solo => ?_⟩
  · rw [← another]
    refine forall₂_congr fun earlier h => ?_
    rw [inv'.mem_unpublished_iff (written earlier h), not_forall_not]
    rfl
  · obtain ⟨-, -, unmarked⟩ := fetchedUnmarked_of_solo represents solo
    rw [again]
    constructor
    · intro marked
      rcases delivered with _ | ⟨first, others⟩
      · rfl
      · obtain ⟨marker, h⟩ := marked first List.mem_cons_self
        exact absurd h (unmarked run _ _ stands first List.mem_cons_self marker)
    · rintro rfl earlier ⟨⟩

end Later

/-- In every interleaving of writers and dispatchers, and for each of the two stores, a rejected
publish spares the events before it in its batch exactly where another run has marked them. -/
theorem dispatchBatch_rejectionSpares (run : ℕ) (event : EventEnvelope)
    (rest delivered : List EventEnvelope) :
    (∀ world, Relation.ReflTransGen (OutboxStep drizzleOutboxStore)
        (.start drizzleOutboxStore) world →
      world.runs run = .publishing (event :: rest) delivered →
        RejectionSpares drizzleOutboxStore world run delivered) ∧
    ∀ world, Relation.ReflTransGen (OutboxStep inMemoryOutboxStore)
        (.start inMemoryOutboxStore) world →
      world.runs run = .publishing (event :: rest) delivered →
        RejectionSpares inMemoryOutboxStore world run delivered := by
  constructor
  · intro world reached stands
    exact (OutboxInvariant.reachable drizzleRepresents reached).rejectionSpares reached stands
  · intro world reached stands
    exact (OutboxInvariant.reachable inMemoryRepresents reached).rejectionSpares reached stands

def crmCompleted : EventEnvelope :=
  { crmCreated with id := "event-2", type := .taskCompleted, createdAt := 1 }

/-- A batch of two events that has published the first. -/
theorem crmHalfPublished : ∃ world : OutboxWorld (List EventRow),
    Relation.ReflTransGen (OutboxStep drizzleOutboxStore) (.start drizzleOutboxStore) world ∧
      world.state = [eventEnvelopeToRow crmCreated, eventEnvelopeToRow crmCompleted] ∧
      world.runs =
        Function.update (fun _ => .idle) 0 (.publishing [crmCompleted] [crmCreated]) := by
  have written := Relation.ReflTransGen.single (@OutboxStep.write _ drizzleOutboxStore
    (.start drizzleOutboxStore) [crmCreated, crmCompleted] (by decide))
  have fetched := written.tail (.fetch 0 5 [crmCreated, crmCompleted] (by decide) rfl
    ⟨[eventEnvelopeToRow crmCreated, eventEnvelopeToRow crmCompleted],
      ⟨by decide, by decide⟩, rfl⟩)
  have published := fetched.tail
    (.publish 0 (show _ = BatchRun.publishing [crmCreated, crmCompleted] [] from rfl))
  exact ⟨_, published, rfl, Function.update_idem _ _ _⟩

theorem dispatchBatch_rejectionSpares_crm : ∃ world : OutboxWorld (List EventRow),
    world.runs 0 = .publishing [crmCompleted] [crmCreated] ∧
      RejectionSpares drizzleOutboxStore world 0 [crmCreated] := by
  obtain ⟨world, reached, -, runs⟩ := crmHalfPublished
  have stands : world.runs 0 = .publishing [crmCompleted] [crmCreated] := by rw [runs]; rfl
  exact ⟨world, stands,
    (dispatchBatch_rejectionSpares 0 crmCompleted [] [crmCreated]).1 world reached stands⟩

/-- The publish of the second event is rejected, and the next batch comes to the first one again. -/
theorem dispatchBatch_redelivers :
    ¬ ∀ world, Relation.ReflTransGen (OutboxStep drizzleOutboxStore)
        (.start drizzleOutboxStore) world →
      ∀ run event rest delivered, world.runs run = .publishing (event :: rest) delivered →
        PublishesNoneAgain drizzleOutboxStore (world.setRun run .stopped) delivered := by
  intro spares
  obtain ⟨world, reached, state, runs⟩ := crmHalfPublished
  have stands : world.runs 0 = .publishing [crmCompleted] [crmCreated] := by rw [runs]; rfl
  have none := spares world reached 0 _ _ _ stands
  have idle : (world.setRun 0 .stopped).runs 1 = .idle := by
    rw [setRun_runs_of_ne world (by decide), runs]
    rfl
  have fetched : drizzleOutboxStore.fetchUnpublished 5 (world.setRun 0 .stopped).state
      [crmCreated, crmCompleted] := by
    refine ⟨[eventEnvelopeToRow crmCreated, eventEnvelopeToRow crmCompleted], ?_, rfl⟩
    rw [OutboxWorld.setRun, state]
    exact ⟨by decide, by decide⟩
  have again := OutboxStep.fetch 1 5 _ (by decide) idle fetched
  refine (none _ (.single again) 1 idle crmCreated (by simp)).2 [crmCompleted] [] ?_
  exact setRun_runs_self _ _ _

end Donna
