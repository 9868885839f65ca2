import Mathlib.Logic.Function.Basic
import Donna.Orchestrator.Keeps
import Donna.Orchestrator.Attempts

/-! Runs of the orchestrator side by side on one adapter that keeps its last usage in a field.  A
run stops at every `await`: at each event and estimate, at the call of `execute`, and inside the
call at the awaits of the adapter's own code.  The adapter assigns the field when the last of these
resumes it; the run that called it resumes later, and reads the field only then. -/

namespace Donna

open Js Async Async.Program

/-! ### Turns -/

/-- The adapters that keep `lastUsage`: `FunctionCapabilityAdapter` awaits its handler, and
`HttpCapabilityAdapter` awaits `fetch` and then the body of the response. -/
inductive SharedAdapterKind
  | function
  | http

/-- Runs on the same dependencies: `shared` are the ids that the shared adapter is wired under. -/
structure SharedRuns (ι : Type) where
  realm : Realm
  deps : OrchestratorDeps
  order : ι → WorkOrder
  kind : SharedAdapterKind
  estimateUsd : ℚ
  shared : String → Bool

/-- Where a call of the shared adapter's `execute` stands for a run. -/
inductive SharedCall
  | none
  /-- The handler or `fetch` is awaited. -/
  | requested (id : String) (startedAt : ℚ)
  /-- The body of a response is awaited. -/
  | answered (id : String) (startedAt : ℚ)
  /-- The promise is settled, and the run has not resumed; `usage` is what the call assigned. -/
  | resolved (id : String) (output : JsValue) (usage : AdapterUsage)
  | rejected (id : String) (error : Thrown)

/-- A record of the ledger with the run that made it, and with the usage of that run's own call when
it is a record of the shared adapter. -/
structure SharedRecord (ι : Type) where
  run : ι
  entry : UsageRecord
  usage : Option AdapterUsage

structure SharedWorld (ι : Type) where
  ran : ι → History
  call : ι → SharedCall
  lastUsage : Option AdapterUsage
  ledger : List (SharedRecord ι)

def SharedWorld.start {ι : Type} : SharedWorld ι where
  ran _ := []
  call _ := .none
  lastUsage := none
  ledger := []

/-- A turn of the event loop, by the run that it resumes. -/
inductive SharedTurn (ι : Type)
  | acted (run : ι) (action : Action)
  | called (run : ι) (startedAt : ℚ)
  | fetched (run : ι)
  | assigned (run : ι) (usage : AdapterUsage)
  | failed (run : ι)
  | recorded (run : ι)
  | caught (run : ι)

namespace SharedRuns

variable {ι : Type} (runs : SharedRuns ι)

/-- An environment that a run may meet: the wiring is fixed, and the replies are open. -/
structure Serves (platform : Platform) (env : OrchestratorDeps) : Prop where
  realm : platform.realm = runs.realm
  workRegistry : env.workRegistry = runs.deps.workRegistry
  modelRegistry : env.modelRegistry = runs.deps.modelRegistry
  capabilities : ∀ id, (env.capabilityAdapter id).map (·.classifyError) =
    (runs.deps.capabilityAdapter id).map (·.classifyError)
  models : ∀ id, (env.resolveModelAdapter id).map (·.classifyError) =
    (runs.deps.resolveModelAdapter id).map (·.classifyError)

/-- The run can have come as far as `history` in an environment. -/
def Reaches (run : ι) (platform : Platform) (env : OrchestratorDeps) (history : History) : Prop :=
  runs.Serves platform env ∧
    history <+: (executeWorkOrder platform (runs.order run) env []).2

/-- An action that does not concern the shared adapter's `execute`. -/
def elsewhere : Action → Bool
  | .executed (.capability id) _ => !runs.shared id
  | _ => true

variable [DecidableEq ι]

def ledgerOf (run : ι) : Action → List (SharedRecord ι)
  | .recorded entry => [⟨run, entry, none⟩]
  | _ => []

/-- What the run whose turn it is does before the next `await`. -/
inductive Step : SharedWorld ι → SharedTurn ι → SharedWorld ι → Prop
  | acted {world} (run : ι) (action : Action) (platform : Platform) (env : OrchestratorDeps)
      (idle : world.call run = .none) (other : runs.elsewhere action = true)
      (reaches : runs.Reaches run platform env (world.ran run ++ [action])) :
      Step world (.acted run action) { world with
        ran := Function.update world.ran run (world.ran run ++ [action])
        ledger := world.ledger ++ ledgerOf run action }
  /-- `adapter.execute(…)`, up to its first `await`. -/
  | called {world} (run : ι) (id : String) (startedAt : ℚ) (reply : Except Thrown Reply)
      (platform : Platform) (env : OrchestratorDeps) (idle : world.call run = .none)
      (wired : runs.shared id = true)
      (reaches : runs.Reaches run platform env
        (world.ran run ++ [.executed (.capability id) reply])) :
      Step world (.called run startedAt) { world with
        call := Function.update world.call run (.requested id startedAt) }
  | fetched {world} (run : ι) {id : String} {startedAt : ℚ} (http : runs.kind = .http)
      (stands : world.call run = .requested id startedAt) :
      Step world (.fetched run) { world with
        call := Function.update world.call run (.answered id startedAt) }
  /-- The handler resolved: `lastUsage` is assigned, and the call resolves. -/
  | handled {world} (run : ι) {id : String} {startedAt : ℚ} (now : ℚ) (output : JsValue)
      (function : runs.kind = .function)
      (stands : world.call run = .requested id startedAt) :
      Step world (.assigned run ⟨runs.estimateUsd, now - startedAt⟩) { world with
        call := Function.update world.call run
          (.resolved id output ⟨runs.estimateUsd, now - startedAt⟩)
        lastUsage := some ⟨runs.estimateUsd, now - startedAt⟩ }
  /-- The body is read and the response is ok: `lastUsage` is assigned, and the call resolves. -/
  | received {world} (run : ι) {id : String} {startedAt : ℚ} (now : ℚ) (output : JsValue)
      (stands : world.call run = .answered id startedAt) :
      Step world (.assigned run ⟨runs.estimateUsd, now - startedAt⟩) { world with
        call := Function.update world.call run
          (.resolved id output ⟨runs.estimateUsd, now - startedAt⟩)
        lastUsage := some ⟨runs.estimateUsd, now - startedAt⟩ }
  /-- The body is read and the response is not ok: `lastUsage` is assigned, and the call rejects. -/
  | refused {world} (run : ι) {id : String} {startedAt : ℚ} (now : ℚ) (error : Thrown)
      (stands : world.call run = .answered id startedAt) :
      Step world (.assigned run ⟨runs.estimateUsd, now - startedAt⟩) { world with
        call := Function.update world.call run (.rejected id error)
        lastUsage := some ⟨runs.estimateUsd, now - startedAt⟩ }
  /-- The handler threw, `fetch` rejected, or the body could not be read. -/
  | failed {world} (run : ι) {id : String} {startedAt : ℚ} (error : Thrown)
      (stands : world.call run = .requested id startedAt ∨
        world.call run = .answered id startedAt) :
      Step world (.failed run) { world with
        call := Function.update world.call run (.rejected id error) }
  /-- The run resumes with the output, reads `reportUsage()` and records it. -/
  | recorded {world} (run : ι) {id : String} {output : JsValue} {usage : AdapterUsage}
      (entry : UsageRecord) (platform : Platform) (env : OrchestratorDeps)
      (adapter : CapabilityAdapter) (stands : world.call run = .resolved id output usage)
      (wired : env.capabilityAdapter id = some adapter)
      (reads : adapter.reportUsage
        (world.ran run ++ [.executed (.capability id) (.ok (.output output))]) = world.lastUsage)
      (reaches : runs.Reaches run platform env (world.ran run ++
        [.executed (.capability id) (.ok (.output output)), .recorded entry])) :
      Step world (.recorded run) { world with
        ran := Function.update world.ran run (world.ran run ++
          [.executed (.capability id) (.ok (.output output)), .recorded entry])
        call := Function.update world.call run .none
        ledger := world.ledger ++ [⟨run, entry, some usage⟩] }
  | caught {world} (run : ι) {id : String} {error : Thrown} (platform : Platform)
      (env : OrchestratorDeps) (stands : world.call run = .rejected id error)
      (reaches : runs.Reaches run platform env
        (world.ran run ++ [.executed (.capability id) (.error error)])) :
      Step world (.caught run) { world with
        ran := Function.update world.ran run
          (world.ran run ++ [.executed (.capability id) (.error error)])
        call := Function.update world.call run .none }

/-- The worlds that a schedule of turns leads to. -/
inductive Interleaving : List (SharedTurn ι) → SharedWorld ι → Prop
  | start : Interleaving [] .start
  | turn {schedule : List (SharedTurn ι)} {world world' : SharedWorld ι} {turn : SharedTurn ι}
      (earlier : Interleaving schedule world) (step : runs.Step world turn world') :
      Interleaving (schedule ++ [turn]) world'

end SharedRuns

/-! ### Reading the usage -/

/-- A capability's output is followed by its record, with what `reportUsage` gives after the
output. -/
def ReadsUsage (order : WorkOrder) (deps : OrchestratorDeps) (history : History)
    (actions : List Action) : Prop :=
  ∀ before id output after,
    actions = before ++ .executed (.capability id) (.ok (.output output)) :: after →
    ∀ adapter, deps.capabilityAdapter id = some adapter → ∃ candidate later,
      after = .recorded (capabilityRecord order candidate (adapter.reportUsage
        (history ++ before ++ [.executed (.capability id) (.ok (.output output))]))) :: later

theorem readsUsage_of_absent {order : WorkOrder} {deps : OrchestratorDeps} {history : History}
    {actions : List Action}
    (absent : ∀ id output, .executed (.capability id) (.ok (.output output)) ∉ actions) :
    ReadsUsage order deps history actions := by
  intro before id output after split
  exact absurd (split ▸ List.mem_append_right _ List.mem_cons_self) (absent id output)

theorem readsUsage (order : WorkOrder) (deps : OrchestratorDeps) :
    RunRelation order deps (ReadsUsage order deps) where
  chains := {
    nil := fun _ => readsUsage_of_absent (by simp)
    append := by
      intro history actions more left right before id output after split adapter wired
      rcases split_append split with ⟨middle, first, rfl⟩ | ⟨middle, rfl, second⟩
      · obtain ⟨candidate, later, rfl⟩ := left before id output middle first adapter wired
        exact ⟨candidate, later ++ more, rfl⟩
      · obtain ⟨candidate, later, rfl⟩ := right middle id output after second adapter wired
        exact ⟨candidate, later, by simp⟩ }
  published _ _ _ := readsUsage_of_absent (by simp)
  estimated _ _ _ := readsUsage_of_absent (by simp)
  failed _ _ _ _ := readsUsage_of_absent (by simp)
  modelFailed _ _ _ := readsUsage_of_absent (by simp)
  capability := by
    intro candidate adapter wired history output _ before id output' after split adapter' wired'
    rcases before with _ | ⟨first, before⟩
    · obtain ⟨same, rfl⟩ := List.cons.inj split
      cases same
      obtain rfl : adapter = adapter' := Option.some.inj (wired.symm.trans wired')
      exact ⟨candidate, [], by simp⟩
    · have later := (List.cons.inj split).2
      rcases before with _ | ⟨second, before⟩ <;> simp at later
  model entry history result := readsUsage_of_absent (by simp)

namespace SharedRuns

variable {ι : Type} {runs : SharedRuns ι}

/-- What a run records for an output carries the usage that it read. -/
theorem Reaches.recorded {run : ι} {platform : Platform} {env : OrchestratorDeps} {ran : History}
    {id : String} {output : JsValue} {entry : UsageRecord} {adapter : CapabilityAdapter}
    (reaches : runs.Reaches run platform env
      (ran ++ [.executed (.capability id) (.ok (.output output)), .recorded entry]))
    (wired : env.capabilityAdapter id = some adapter) {usage : AdapterUsage}
    (reads : adapter.reportUsage (ran ++ [.executed (.capability id) (.ok (.output output))]) =
      some usage) :
    entry.costUsd = usage.costUsd ∧ entry.latencyMs = usage.latencyMs := by
  obtain ⟨-, rest, whole⟩ := reaches
  have reading : Keeps (ReadsUsage (runs.order run) env)
      (executeWorkOrder platform (runs.order run) env) :=
    (readsUsage (runs.order run) env).keeps_executeWorkOrder
  obtain ⟨candidate, later, same⟩ := reading [] ran id output (.recorded entry :: rest)
    (by rw [← whole]; simp) adapter wired
  obtain ⟨hEntry, -⟩ := List.cons.inj same
  rw [List.nil_append, reads] at hEntry
  cases hEntry
  exact ⟨rfl, rfl⟩

end SharedRuns

/-! ### Whose usage is read -/

/-- The record carries the usage of the call that it is made for. -/
def SharedRecord.Attributed {ι : Type} (record : SharedRecord ι) : Prop :=
  ∀ usage, record.usage = some usage →
    record.entry.costUsd = usage.costUsd ∧ record.entry.latencyMs = usage.latencyMs

section Schedules

variable {ι : Type}

/-- The assignment of the field that a turn makes, with the run that it is made for. -/
def SharedTurn.assignment : SharedTurn ι → Option (ι × AdapterUsage)
  | .assigned run usage => some (run, usage)
  | _ => none

def assignments (schedule : List (SharedTurn ι)) : List (ι × AdapterUsage) :=
  schedule.filterMap SharedTurn.assignment

/-- What the field holds after a schedule. -/
def lastAssigned (schedule : List (SharedTurn ι)) : Option AdapterUsage :=
  (assignments schedule).getLast?.map Prod.snd

variable {schedule : List (SharedTurn ι)} {turn : SharedTurn ι}

theorem assignments_of_none (unassigned : turn.assignment = none) :
    assignments (schedule ++ [turn]) = assignments schedule := by
  simp [assignments, unassigned]

theorem lastAssigned_of_none (unassigned : turn.assignment = none) :
    lastAssigned (schedule ++ [turn]) = lastAssigned schedule := by
  rw [lastAssigned, assignments_of_none unassigned, lastAssigned]

theorem assignments_assigned (run : ι) (usage : AdapterUsage) :
    assignments (schedule ++ [.assigned run usage]) = assignments schedule ++ [(run, usage)] := by
  simp [assignments, SharedTurn.assignment]

theorem lastAssigned_assigned (run : ι) (usage : AdapterUsage) :
    lastAssigned (schedule ++ [.assigned run usage]) = some usage := by
  simp [lastAssigned, assignments_assigned]

variable [DecidableEq ι]

/-- What the last call of a run assigned. -/
def lastAssignedBy (run : ι) (schedule : List (SharedTurn ι)) : Option AdapterUsage :=
  ((assignments schedule).filter (·.1 = run)).getLast?.map Prod.snd

/-- Whenever a run reads the field, the last assignment carries what its own call assigned. -/
def Undisturbed (schedule : List (SharedTurn ι)) : Prop :=
  ∀ before run after, schedule = before ++ .recorded run :: after →
    lastAssigned before = lastAssignedBy run before

theorem lastAssignedBy_self (run : ι) (usage : AdapterUsage) :
    lastAssignedBy run (schedule ++ [.assigned run usage]) = some usage := by
  simp [lastAssignedBy, assignments_assigned]

theorem lastAssignedBy_ne {run other : ι} (differ : other ≠ run) (usage : AdapterUsage) :
    lastAssignedBy other (schedule ++ [.assigned run usage]) = lastAssignedBy other schedule := by
  simp [lastAssignedBy, assignments_assigned, differ.symm]

theorem lastAssignedBy_of_none (unassigned : turn.assignment = none) (run : ι) :
    lastAssignedBy run (schedule ++ [turn]) = lastAssignedBy run schedule := by
  rw [lastAssignedBy, assignments_of_none unassigned, lastAssignedBy]

theorem exists_lastAssigned {run : ι} {usage : AdapterUsage}
    (own : lastAssignedBy run schedule = some usage) :
    ∃ given, lastAssigned schedule = some given := by
  obtain ⟨entry, last, -⟩ := Option.map_eq_some_iff.mp own
  have some_assigned := List.ne_nil_of_mem (List.mem_of_mem_filter (List.mem_of_getLast? last))
  exact ⟨_, congrArg (Option.map Prod.snd) (List.getLast?_eq_some_getLast some_assigned)⟩

theorem undisturbed_snoc :
    Undisturbed (schedule ++ [turn]) ↔ Undisturbed schedule ∧
      ∀ run, turn = .recorded run → lastAssigned schedule = lastAssignedBy run schedule := by
  constructor
  · intro undisturbed
    refine ⟨fun before run after split => ?_, fun run same => ?_⟩
    · exact undisturbed before run (after ++ [turn]) (by simp [split])
    · exact undisturbed schedule run [] (by simp [same])
  · rintro ⟨earlier, now⟩ before run after split
    rcases List.eq_nil_or_concat after with rfl | ⟨later, last, rfl⟩
    · obtain ⟨rfl, same⟩ := List.append_inj' split rfl
      exact now run (List.cons.inj same).1
    · rw [List.concat_eq_append, ← List.cons_append, ← List.append_assoc] at split
      exact earlier before run later (List.append_inj' split rfl).1

end Schedules

/-- What a world holds after a schedule that led to it. -/
structure SharedInvariant {ι : Type} [DecidableEq ι] (runs : SharedRuns ι)
    (schedule : List (SharedTurn ι)) (world : SharedWorld ι) : Prop where
  field : world.lastUsage = lastAssigned schedule
  own : ∀ run id output usage, world.call run = .resolved id output usage →
    lastAssignedBy run schedule = some usage
  price : ∀ usage, lastAssigned schedule = some usage → usage.costUsd = runs.estimateUsd
  ownPrice : ∀ run id output usage, world.call run = .resolved id output usage →
    usage.costUsd = runs.estimateUsd
  attributed : (∀ record ∈ world.ledger, record.Attributed) ↔ Undisturbed schedule
  costs : ∀ record ∈ world.ledger, ∀ usage, record.usage = some usage →
    record.entry.costUsd = usage.costUsd

namespace SharedInvariant

variable {ι : Type} [DecidableEq ι] {runs : SharedRuns ι} {schedule : List (SharedTurn ι)}
  {world world' : SharedWorld ι} {turn : SharedTurn ι}

theorem start : SharedInvariant runs [] .start where
  field := rfl
  own := by simp [SharedWorld.start]
  price := by simp [lastAssigned, assignments]
  ownPrice := by simp [SharedWorld.start]
  attributed := iff_of_true (by simp [SharedWorld.start]) (by simp [Undisturbed])
  costs := by simp [SharedWorld.start]

/-- A turn that neither assigns the field nor reads it. -/
theorem quiet (inv : SharedInvariant runs schedule world) (unassigned : turn.assignment = none)
    (unread : ∀ run, turn ≠ .recorded run) (field : world'.lastUsage = world.lastUsage)
    (calls : ∀ run id output usage, world'.call run = .resolved id output usage →
      world.call run = .resolved id output usage)
    {others : List (SharedRecord ι)} (ledger : world'.ledger = world.ledger ++ others)
    (unshared : ∀ record ∈ others, record.usage = none) :
    SharedInvariant runs (schedule ++ [turn]) world' := by
  refine ⟨?_, ?_, ?_, ?_, ?_, ?_⟩
  · rw [field, lastAssigned_of_none unassigned, inv.field]
  · intro run id output usage stands
    rw [lastAssignedBy_of_none unassigned]
    exact inv.own run id output usage (calls run id output usage stands)
  · rw [lastAssigned_of_none unassigned]
    exact inv.price
  · exact fun run id output usage stands =>
      inv.ownPrice run id output usage (calls run id output usage stands)
  · rw [undisturbed_snoc, ← inv.attributed, ledger, List.forall_mem_append]
    refine and_congr_right fun _ => iff_of_true (fun record listed usage given => ?_) ?_
    · rw [unshared record listed] at given
      cases given
    · exact fun run now => absurd now (unread run)
  · rw [ledger]
    intro record listed usage given
    rcases List.mem_append.mp listed with earlier | now
    · exact inv.costs record earlier usage given
    · rw [unshared record now] at given
      cases given

/-- The last await of a call resumes: the field is assigned, and the call settles. -/
theorem assigned (inv : SharedInvariant runs schedule world) {run : ι} {usage : AdapterUsage}
    (price : usage.costUsd = runs.estimateUsd) (field : world'.lastUsage = some usage)
    (settles : ∀ id output given, world'.call run = .resolved id output given → given = usage)
    (calls : ∀ other, other ≠ run → world'.call other = world.call other)
    (ledger : world'.ledger = world.ledger) :
    SharedInvariant runs (schedule ++ [.assigned run usage]) world' := by
  refine ⟨?_, ?_, ?_, ?_, ?_, ?_⟩
  · rw [field, lastAssigned_assigned]
  · intro other id output given stands
    by_cases same : other = run
    · subst same
      rw [lastAssignedBy_self, settles id output given stands]
    · rw [lastAssignedBy_ne same]
      exact inv.own other id output given (calls other same ▸ stands)
  · intro given last
    rw [lastAssigned_assigned] at last
    cases last
    exact price
  · intro other id output given stands
    by_cases same : other = run
    · subst same
      rw [settles id output given stands, price]
    · exact inv.ownPrice other id output given (calls other same ▸ stands)
  · rw [undisturbed_snoc, ledger, inv.attributed]
    simp
  · rw [ledger]
    exact inv.costs

/-- A run resumes with its output, and records what it reads. -/
theorem recorded (inv : SharedInvariant runs schedule world) {run : ι} {id : String}
    {output : JsValue} {usage : AdapterUsage} {entry : UsageRecord}
    (stands : world.call run = .resolved id output usage)
    (reads : ∀ given, world.lastUsage = some given →
      entry.costUsd = given.costUsd ∧ entry.latencyMs = given.latencyMs)
    (field : world'.lastUsage = world.lastUsage)
    (calls : ∀ other id output given, world'.call other = .resolved id output given →
      world.call other = .resolved id output given)
    (ledger : world'.ledger = world.ledger ++ [⟨run, entry, some usage⟩]) :
    SharedInvariant runs (schedule ++ [.recorded run]) world' := by
  have own := inv.own run id output usage stands
  obtain ⟨given, last⟩ := exists_lastAssigned own
  obtain ⟨cost, latency⟩ := reads given (inv.field.trans last)
  have priced : given.costUsd = usage.costUsd :=
    (inv.price given last).trans (inv.ownPrice run id output usage stands).symm
  refine ⟨?_, ?_, ?_, ?_, ?_, ?_⟩
  · rw [field, lastAssigned_of_none rfl, inv.field]
  · intro other id output assigned settled
    rw [lastAssignedBy_of_none rfl]
    exact inv.own other id output assigned (calls other id output assigned settled)
  · rw [lastAssigned_of_none rfl]
    exact inv.price
  · exact fun other id output assigned settled =>
      inv.ownPrice other id output assigned (calls other id output assigned settled)
  · rw [undisturbed_snoc, ← inv.attributed, ledger, List.forall_mem_append]
    refine and_congr_right fun _ => ?_
    -- The costs agree, so the record is right exactly when the latencies do.
    have mine : (∀ record ∈ [(⟨run, entry, some usage⟩ : SharedRecord ι)], record.Attributed) ↔
        given = usage := by
      obtain ⟨givenUsd, givenMs⟩ := given
      obtain ⟨usageUsd, usageMs⟩ := usage
      simp_all [SharedRecord.Attributed]
    rw [mine]
    constructor
    · rintro rfl run' now
      cases now
      rw [last, own]
    · intro undisturbed
      have equal := undisturbed run rfl
      rw [last, own] at equal
      exact Option.some.inj equal
  · rw [ledger]
    intro record listed assigned mine
    rcases List.mem_append.mp listed with earlier | now
    · exact inv.costs record earlier assigned mine
    · cases List.mem_singleton.mp now
      cases mine
      rw [cost, priced]

end SharedInvariant

section Steps

variable {ι : Type} [DecidableEq ι] {runs : SharedRuns ι} {schedule : List (SharedTurn ι)}
  {world world' : SharedWorld ι} {turn : SharedTurn ι}

/-- A call that is resolved after one run's call moved on was resolved before, unless that run's is
the one. -/
theorem resolved_of_update {calls : ι → SharedCall} {run other : ι} {stands : SharedCall}
    {id : String} {output : JsValue} {usage : AdapterUsage}
    (unresolved : ∀ id output usage, stands ≠ .resolved id output usage)
    (resolved : Function.update calls run stands other = .resolved id output usage) :
    calls other = .resolved id output usage := by
  by_cases same : other = run
  · rw [same, Function.update_self] at resolved
    exact absurd resolved (unresolved _ _ _)
  · rwa [Function.update_of_ne same] at resolved

theorem SharedRuns.Step.invariant (step : runs.Step world turn world')
    (inv : SharedInvariant runs schedule world) :
    SharedInvariant runs (schedule ++ [turn]) world' := by
  cases step with
  | acted run action platform env idle other reaches =>
    refine inv.quiet rfl (by simp) rfl (fun _ _ _ _ stands => stands) rfl ?_
    cases action <;> simp [SharedRuns.ledgerOf]
  | called run id startedAt reply platform env idle wired reaches =>
    exact inv.quiet rfl (by simp) rfl (fun _ _ _ _ => resolved_of_update (by simp))
      (List.append_nil _).symm (by simp)
  | fetched run http stands =>
    exact inv.quiet rfl (by simp) rfl (fun _ _ _ _ => resolved_of_update (by simp))
      (List.append_nil _).symm (by simp)
  | failed run error stands =>
    exact inv.quiet rfl (by simp) rfl (fun _ _ _ _ => resolved_of_update (by simp))
      (List.append_nil _).symm (by simp)
  | caught run platform env stands reaches =>
    exact inv.quiet rfl (by simp) rfl (fun _ _ _ _ => resolved_of_update (by simp))
      (List.append_nil _).symm (by simp)
  | handled run now output function stands =>
    exact inv.assigned rfl rfl (by simp +contextual) (by simp +contextual) rfl
  | received run now output stands =>
    exact inv.assigned rfl rfl (by simp +contextual) (by simp +contextual) rfl
  | refused run now error stands =>
    exact inv.assigned rfl rfl (by simp +contextual) (by simp +contextual) rfl
  | recorded run entry platform env adapter stands wired reads reaches =>
    exact inv.recorded stands (fun given last => reaches.recorded wired (reads.trans last)) rfl
      (fun _ _ _ _ => resolved_of_update (by simp)) rfl

theorem SharedRuns.Interleaving.invariant (run : runs.Interleaving schedule world) :
    SharedInvariant runs schedule world := by
  induction run with
  | start => exact .start
  | turn earlier step ih => exact step.invariant ih

end Steps

/-- In every interleaving, every record of the shared adapter carries the usage of its own call if
and only if, at every read, the last assignment of the field carries what the reading run's own call
assigned.  The costs agree in any case. -/
theorem sharedUsage_attributed_iff {ι : Type} [DecidableEq ι] (runs : SharedRuns ι)
    (schedule : List (SharedTurn ι)) (world : SharedWorld ι)
    (run : runs.Interleaving schedule world) :
    ((∀ record ∈ world.ledger, record.Attributed) ↔ Undisturbed schedule) ∧
      ∀ record ∈ world.ledger, ∀ usage, record.usage = some usage →
        record.entry.costUsd = usage.costUsd :=
  ⟨run.invariant.attributed, run.invariant.costs⟩

/-! ### Two calls at once -/

/-- The environment of a run whose call of the API resolves, after which it reads `usage`. -/
def crowdedEnv (usage : Option AdapterUsage) : OrchestratorDeps :=
  crmDeps BufferingEventBus
    { CapabilityAdapter.constant (.ok (.string "updated")) .deterministic with
      reportUsage _ := usage }

/-- Two orders without a budget, on a function adapter at one cent a call. -/
def crowdedRuns : SharedRuns Bool where
  realm := .plain
  deps := crowdedEnv none
  order _ := { crmOrder with budget := none }
  kind := .function
  estimateUsd := 1 / 100
  shared id := id == "crm-api"

theorem crowdedServes (usage : Option AdapterUsage) :
    crowdedRuns.Serves .plain (crowdedEnv usage) where
  realm := rfl
  workRegistry := rfl
  modelRegistry := rfl
  capabilities := by
    intro id
    by_cases api : id = "crm-api" <;>
      simp [crowdedRuns, crowdedEnv, crmDeps, OrchestratorDeps.capabilityAdapter, api]
  models _ := rfl

/-- The event that a run emits as its action `n`. -/
def crowdedEvent (n : ℕ) (type : EventType) : Action :=
  .published (WorkOrder.event { crmOrder with budget := none }
    ⟨"event-" ++ toString n, "correlation-" ++ toString n, n⟩ type) (.ok ())

/-- One run calls the adapter at 0 ms and the other at 5 ms, and both handlers are done at 10 ms:
the second call assigns the field before the first run reads it. -/
def crowdedSchedule : List (SharedTurn Bool) := [
  .acted false (crowdedEvent 0 .taskPlanned),
  .acted false (crowdedEvent 1 .workerStarted),
  .acted false (crowdedEvent 2 .toolCalled),
  .called false 0,
  .acted true (crowdedEvent 0 .taskPlanned),
  .acted true (crowdedEvent 1 .workerStarted),
  .acted true (crowdedEvent 2 .toolCalled),
  .called true 5,
  .assigned false ⟨1 / 100, 10 - 0⟩,
  .assigned true ⟨1 / 100, 10 - 5⟩,
  .recorded false]

theorem crowded_interleaving : ∃ world, crowdedRuns.Interleaving crowdedSchedule world := by
  have emits : ∀ {schedule world} (run : Bool) (n : ℕ) (type : EventType),
      crowdedRuns.Interleaving schedule world → world.call run = .none →
      world.ran run ++ [crowdedEvent n type] <+:
        (executeWorkOrder .plain (crowdedRuns.order run) (crowdedEnv none) []).2 →
      crowdedRuns.Interleaving (schedule ++ [.acted run (crowdedEvent n type)])
        { world with
          ran := Function.update world.ran run (world.ran run ++ [crowdedEvent n type])
          ledger := world.ledger ++ [] } :=
    fun run n type earlier idle ahead => earlier.turn (.acted run (crowdedEvent n type) .plain
      (crowdedEnv none) idle rfl ⟨crowdedServes none, ahead⟩)
  have a1 := emits false 0 .taskPlanned .start rfl ⟨_, rfl⟩
  have a2 := emits false 1 .workerStarted a1 rfl ⟨_, rfl⟩
  have a3 := emits false 2 .toolCalled a2 rfl ⟨_, rfl⟩
  have a4 := a3.turn (.called false "crm-api" 0 (.ok (.output (.string "updated"))) .plain
    (crowdedEnv none) rfl rfl ⟨crowdedServes none, _, rfl⟩)
  have b1 := emits true 0 .taskPlanned a4 rfl ⟨_, rfl⟩
  have b2 := emits true 1 .workerStarted b1 rfl ⟨_, rfl⟩
  have b3 := emits true 2 .toolCalled b2 rfl ⟨_, rfl⟩
  have b4 := b3.turn (.called true "crm-api" 5 (.ok (.output (.string "updated"))) .plain
    (crowdedEnv none) rfl rfl ⟨crowdedServes none, _, rfl⟩)
  have a5 := b4.turn (.handled false 10 (.string "updated") rfl rfl)
  have b5 := a5.turn (.handled true 10 (.string "updated") rfl rfl)
  let usage : AdapterUsage := ⟨1 / 100, 10 - 5⟩
  have a6 := b5.turn (.recorded false (capabilityRecord { crmOrder with budget := none }
    { id := "crm-api", executionClass := .deterministic, provides := ["crm.update"],
      health := .healthy } (some usage)) .plain (crowdedEnv (some usage)) _ rfl rfl rfl
        ⟨crowdedServes (some usage), _, rfl⟩)
  exact ⟨_, a6⟩

theorem sharedUsage_attributed_iff_crowded :
    ∃ world, crowdedRuns.Interleaving crowdedSchedule world ∧
      ((∀ record ∈ world.ledger, record.Attributed) ↔ Undisturbed crowdedSchedule) ∧
        ∀ record ∈ world.ledger, ∀ usage, record.usage = some usage →
          record.entry.costUsd = usage.costUsd := by
  obtain ⟨world, run⟩ := crowded_interleaving
  exact ⟨world, run, sharedUsage_attributed_iff crowdedRuns crowdedSchedule world run⟩

theorem sharedUsage_misattributed :
    ¬ ∀ schedule world, crowdedRuns.Interleaving schedule world →
      ∀ record ∈ world.ledger, record.Attributed := by
  intro attributed
  obtain ⟨world, run⟩ := crowded_interleaving
  have undisturbed := run.invariant.attributed.mp (attributed crowdedSchedule world run)
  have same := undisturbed (crowdedSchedule.take 10) false [] rfl
  have latencies := congrArg (Option.map (·.latencyMs)) same
  have differ : some ((10 : ℚ) - 5) = some (10 - 0) := latencies
  exact absurd differ (by decide +kernel)

end Donna
