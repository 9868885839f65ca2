import Donna.Orchestrator.Attempts

/-! The adapters that a run tries, whatever the bus and the adapters reply.  An attempt asks one
adapter only, so a run asks none but the wired candidates of its path, and it calls them in their
order. -/

namespace Donna

open Js Async Async.Program

/-- The adapter that an action asks. -/
def Action.adapter : Action → Option AdapterRef
  | .estimated adapter _ => some adapter
  | .executed adapter _ => some adapter
  | .published _ _ => none
  | .recorded _ => none

def asked (actions : List Action) : List AdapterRef := actions.filterMap Action.adapter

@[simp] theorem asked_nil : asked [] = [] := rfl

@[simp] theorem asked_append (actions more : List Action) :
    asked (actions ++ more) = asked actions ++ asked more := List.filterMap_append

@[simp] theorem asked_estimated (adapter : AdapterRef) (reply : Except Thrown CostEstimate)
    (actions : List Action) :
    asked (.estimated adapter reply :: actions) = adapter :: asked actions := rfl

@[simp] theorem asked_executed (adapter : AdapterRef) (reply : Except Thrown Reply)
    (actions : List Action) :
    asked (.executed adapter reply :: actions) = adapter :: asked actions := rfl

@[simp] theorem asked_recorded (entry : UsageRecord) (actions : List Action) :
    asked (.recorded entry :: actions) = asked actions := rfl

/-- The adapters whose `execute` is called, in order. -/
def called (actions : List Action) : List AdapterRef := (calls actions).map Prod.fst

@[simp] theorem called_nil : called [] = [] := rfl

@[simp] theorem called_append (actions more : List Action) :
    called (actions ++ more) = called actions ++ called more := by
  simp [called]

@[simp] theorem called_estimated (adapter : AdapterRef) (reply : Except Thrown CostEstimate)
    (actions : List Action) : called (.estimated adapter reply :: actions) = called actions := rfl

@[simp] theorem called_executed (adapter : AdapterRef) (reply : Except Thrown Reply)
    (actions : List Action) :
    called (.executed adapter reply :: actions) = adapter :: called actions := rfl

@[simp] theorem called_recorded (entry : UsageRecord) (actions : List Action) :
    called (.recorded entry :: actions) = called actions := rfl

/-- A run that asks none but `refs`, and calls them from the first on. -/
structure Tries (refs : List AdapterRef) (actions : List Action) : Prop where
  called : called actions <+: refs
  asked : asked actions ⊆ refs

section Tried

variable {platform : Platform} {order : WorkOrder} {deps : OrchestratorDeps}
  {outcome : Except Thrown WorkOrderResult} {actions more : List Action} {adapter : AdapterRef}
  {refs rest tried : List AdapterRef}

theorem Tries.mono (tries : Tries refs actions) (longer : refs <+: rest) : Tries rest actions :=
  ⟨tries.called.trans longer, List.Subset.trans tries.asked longer.subset⟩

theorem Quiet.called_eq (quiet : Quiet actions) : called actions = [] := by
  simp [called, quiet.calls_eq]

theorem Quiet.asked_eq (quiet : Quiet actions) : asked actions = [] := by
  refine List.filterMap_eq_nil_iff.mpr fun action present => ?_
  obtain ⟨event, reply, rfl⟩ := quiet action present
  rfl

theorem Tries.append_quiet (tries : Tries refs actions) (quiet : Quiet more) :
    Tries refs (actions ++ more) := by
  obtain ⟨called', asked'⟩ := tries
  constructor
  · simpa [quiet.called_eq] using called'
  · simpa [quiet.asked_eq] using asked'

theorem Quiet.tries_append (quiet : Quiet actions) (tries : Tries refs more) :
    Tries refs (actions ++ more) := by
  obtain ⟨called', asked'⟩ := tries
  constructor
  · simpa [quiet.called_eq] using called'
  · simpa [quiet.asked_eq] using asked'

theorem Quiet.tries (quiet : Quiet actions) (refs : List AdapterRef) : Tries refs actions := by
  constructor
  · simp [quiet.called_eq]
  · simp [quiet.asked_eq]

/-! ### One attempt -/

theorem Cleared.called_eq (cleared : Cleared platform order deps adapter actions) :
    called actions = [] := by
  cases cleared <;> rfl

theorem Cleared.asked_subset (cleared : Cleared platform order deps adapter actions) :
    asked actions ⊆ [adapter] := by
  cases cleared <;> simp

theorem Started.called_eq (started : Started platform order deps adapter actions) :
    called actions = [] := by
  obtain ⟨cleared, worker, tool⟩ := started
  simp [cleared.called_eq, worker.quiet.called_eq, tool.quiet.called_eq]

theorem Started.asked_subset (started : Started platform order deps adapter actions) :
    asked actions ⊆ [adapter] := by
  obtain ⟨cleared, worker, tool⟩ := started
  simpa [worker.quiet.asked_eq, tool.quiet.asked_eq] using cleared.asked_subset

theorem Broken.tries {error : Thrown} (broken : Broken platform order deps adapter error actions) :
    Tries [adapter] actions := by
  cases broken with
  | estimate => exact ⟨by simp, by simp⟩
  | budget => exact ⟨by simp, by simp⟩
  | worker cleared worker =>
    refine Tries.append_quiet ⟨?_, cleared.asked_subset⟩ worker.quiet
    simp [cleared.called_eq]
  | tool cleared worker tool =>
    refine (Tries.append_quiet ⟨?_, cleared.asked_subset⟩ worker.quiet).append_quiet tool.quiet
    simp [cleared.called_eq]

theorem OverBudget.tries (costly : OverBudget platform order deps adapter actions) :
    Tries [adapter] actions := by
  cases costly
  exact ⟨by simp, by simp⟩

/-- An attempt that comes to its call, whatever the reply. -/
theorem Started.tries (started : Started platform order deps adapter actions)
    (reply : Except Thrown Reply) : Tries [adapter] (actions ++ [.executed adapter reply]) := by
  constructor
  · simp [started.called_eq]
  · simpa using started.asked_subset

theorem Failed.called_eq {error : Thrown}
    (failed : Failed platform order deps adapter error actions) : called actions = [adapter] := by
  cases failed with
  | rejected started => simp [started.called_eq]
  | unannounced reply entry started completed =>
    simp [started.called_eq, completed.quiet.called_eq]

theorem Failed.tries {error : Thrown}
    (failed : Failed platform order deps adapter error actions) : Tries [adapter] actions := by
  refine ⟨failed.called_eq ▸ List.prefix_rfl, ?_⟩
  cases failed with
  | rejected started => exact (started.tries _).asked
  | unannounced reply entry started completed =>
    simpa [completed.quiet.asked_eq] using started.asked_subset

theorem Succeeded.tries {reply : Reply}
    (succeeded : Succeeded platform order deps adapter reply actions) :
    Tries [adapter] actions := by
  obtain ⟨entry, started, completed⟩ := succeeded
  constructor
  · simp [started.called_eq, completed.quiet.called_eq]
  · simpa [completed.quiet.asked_eq] using started.asked_subset

/-! ### A loop of attempts -/

theorem FellThrough.called_eq (fell : FellThrough platform order deps tried actions) :
    called actions = tried := by
  induction fell with
  | none => rfl
  | more before failed retryable ih =>
    rw [called_append, ih, failed.called_eq]

theorem FellThrough.asked_subset (fell : FellThrough platform order deps tried actions) :
    asked actions ⊆ tried := by
  induction fell with
  | none => simp
  | more before failed retryable ih =>
    rw [asked_append]
    exact List.append_subset.mpr ⟨List.Subset.trans ih (List.subset_append_left _ _),
      List.Subset.trans failed.tries.asked (List.subset_append_right _ _)⟩

/-- What follows the attempts that fell through is tried after them. -/
theorem FellThrough.tries_append (fell : FellThrough platform order deps tried actions)
    (tries : Tries rest more) : Tries (tried ++ rest) (actions ++ more) := by
  constructor
  · rw [called_append, fell.called_eq]
    exact (List.prefix_append_right_inj _).mpr tries.called
  · rw [asked_append]
    exact List.append_subset.mpr
      ⟨List.Subset.trans fell.asked_subset (List.subset_append_left _ _),
        List.Subset.trans tries.asked (List.subset_append_right _ _)⟩

theorem Settles.tries {overBudget failed : WorkOrderResult}
    {completed : Reply → WorkOrderResult → Prop}
    (settles : Settles platform order deps adapter overBudget failed completed outcome actions) :
    Tries [adapter] actions := by
  cases settles with
  | broken attempt => exact attempt.tries
  | overBudget attempt closes => exact attempt.tries.append_quiet closes.quiet
  | completed attempt carries => exact attempt.tries
  | failed attempt final closes => exact attempt.tries.append_quiet closes.quiet

/-! ### Whole runs -/

theorem ModelRun.tries {executionClass : ExecutionClass}
    (run : ModelRun platform order deps executionClass outcome actions) :
    Tries ((wiredModels platform order deps).map ModelEntry.ref) actions := by
  cases run with
  | missingRequest absent closes => exact closes.quiet.tries _
  | noEligible unmatched closes => exact closes.quiet.tries _
  | exhausted before unwired closes =>
    have tries := before.tries_append (closes.quiet.tries [])
    rwa [List.append_nil] at tries
  | @settled _ rest _ _ _ _ requested split before settles =>
    refine (before.tries_append settles.tries).mono ⟨rest.map ModelEntry.ref, ?_⟩
    simp [split]

theorem CapabilityRun.tries {routing : WorkRoutingDecision}
    (run : CapabilityRun platform order deps routing outcome actions) :
    Tries ((wiredCapabilities order deps).map RegisteredCapability.ref ++
      (wiredModels platform order deps).map ModelEntry.ref) actions := by
  cases run with
  | unwired absent closes => exact closes.quiet.tries _
  | exhausted wired before unreasoned closes =>
    exact before.tries_append (closes.quiet.tries _)
  | escalated wired before reasoned model => exact before.tries_append model.tries
  | @settled _ rest _ _ _ _ split before settles =>
    refine (before.tries_append settles.tries).mono ⟨rest.map RegisteredCapability.ref ++
      (wiredModels platform order deps).map ModelEntry.ref, ?_⟩
    simp [split]

/-- A run tries the wired capabilities or none, and then the wired models. -/
theorem OrderRun.tries (run : OrderRun platform order deps outcome actions) :
    ∃ capabilities, (capabilities = [] ∨ capabilities = wiredCapabilities order deps) ∧
      Tries (capabilities.map RegisteredCapability.ref ++
        (wiredModels platform order deps).map ModelEntry.ref) actions := by
  cases run with
  | broken present evaluated => exact ⟨[], .inl rfl, Quiet.tries (by simp [Quiet]) _⟩
  | denied _ _ _ closes | approval _ _ _ closes => exact ⟨[], .inl rfl, closes.quiet.tries _⟩
  | routed allowed run =>
    cases run with
    | unplanned planned => exact ⟨[], .inl rfl, planned.quiet.tries _⟩
    | human planned routed closes =>
      exact ⟨[], .inl rfl, planned.quiet.tries_append (closes.quiet.tries _)⟩
    | capability planned machine routed run =>
      exact ⟨_, .inr rfl, planned.quiet.tries_append run.tries⟩
    | model planned routed run => exact ⟨[], .inl rfl, planned.quiet.tries_append run.tries⟩

end Tried

end Donna
