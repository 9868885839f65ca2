import Donna.Orchestrator.Attempts

/-! Calls that are rejected for good.  Attempts that fall through failed retryably, so a rejected
call whose error is not retryable is the last thing that a run asks of an adapter: the run announces
that the order failed, and returns that. -/

namespace Donna

open Js Async Async.Program

/-- The run announces that the order failed and does nothing else; it returns a result with this
status, unless the bus rejects the announcement. -/
inductive AnnouncesFailure : Except Thrown WorkOrderResult → List Action → Prop
  | accepted {event : EventEnvelope} {result : WorkOrderResult} (type : event.type = .taskFailed)
      (status : result.status = .failed) :
      AnnouncesFailure (.ok result) [.published event (.ok ())]
  | rejected {event : EventEnvelope} {error : Thrown} (type : event.type = .taskFailed) :
      AnnouncesFailure (.error error) [.published event (.error error)]

/-- After every call of the adapter that is rejected with the error, the run only announces its
failure. -/
def StopsAt (adapter : AdapterRef) (error : Thrown) (outcome : Except Thrown WorkOrderResult)
    (actions : List Action) : Prop :=
  ∀ before after, actions = before ++ .executed adapter (.error error) :: after →
    AnnouncesFailure outcome after

/-- Every rejected call is one that its own adapter classifies as retryable. -/
def RejectsRetryably (deps : OrchestratorDeps) (actions : List Action) : Prop :=
  ∀ adapter error, .executed adapter (.error error) ∈ actions →
    isRetryable (deps.classifyError adapter error) = true

section Stopped

variable {platform : Platform} {order : WorkOrder} {deps : OrchestratorDeps}
  {outcome : Except Thrown WorkOrderResult} {actions more : List Action} {adapter : AdapterRef}
  {error : Thrown}

theorem Closes.announcesFailure {result : WorkOrderResult}
    (closes : Closes order deps .taskFailed result outcome actions)
    (status : result.status = .failed) : AnnouncesFailure outcome actions := by
  cases closes with
  | returned emits =>
    generalize reply : (Except.ok () : Except Thrown Unit) = accepted at emits
    cases emits
    rw [← reply]
    exact .accepted rfl status
  | threw emits =>
    generalize reply : Except.error _ = rejected at emits
    cases emits
    rw [← reply]
    exact .rejected rfl

/-! ### Pieces without a final rejection -/

theorem RejectsRetryably.append (left : RejectsRetryably deps actions)
    (right : RejectsRetryably deps more) : RejectsRetryably deps (actions ++ more) := by
  intro adapter error present
  rcases List.mem_append.mp present with h | h
  · exact left adapter error h
  · exact right adapter error h

/-- Actions without a call have no rejected call. -/
theorem rejectsRetryably_of_calls_eq (none : calls actions = []) :
    RejectsRetryably deps actions := by
  intro adapter error present
  have listed : (adapter, .error error) ∈ calls actions :=
    List.mem_filterMap.mpr ⟨_, present, rfl⟩
  rw [none] at listed
  cases listed

/-- What stops before its call has no call at all. -/
theorem Broken.rejectsRetryably (broken : Broken platform order deps adapter error actions) :
    RejectsRetryably deps actions := by
  refine rejectsRetryably_of_calls_eq ?_
  cases broken with
  | estimate | budget => rfl
  | worker cleared worker => simp [cleared.calls_eq, worker.quiet.calls_eq]
  | tool cleared worker tool =>
    simp [cleared.calls_eq, worker.quiet.calls_eq, tool.quiet.calls_eq]

theorem OverBudget.rejectsRetryably (refusal : OverBudget platform order deps adapter actions) :
    RejectsRetryably deps actions := by
  cases refusal
  exact rejectsRetryably_of_calls_eq rfl

theorem Succeeded.rejectsRetryably {reply : Reply}
    (succeeded : Succeeded platform order deps adapter reply actions) :
    RejectsRetryably deps actions := by
  intro adapter' error present
  have listed : (adapter', .error error) ∈ calls actions :=
    List.mem_filterMap.mpr ⟨_, present, rfl⟩
  rw [succeeded.calls_eq] at listed
  simp at listed

/-- An attempt that fails with an error has at most its own call rejected, with that error. -/
theorem Failed.rejected_eq (failed : Failed platform order deps adapter error actions)
    {adapter' : AdapterRef} {error' : Thrown}
    (present : .executed adapter' (.error error') ∈ actions) :
    adapter' = adapter ∧ error' = error := by
  have listed : (adapter', .error error') ∈ calls actions :=
    List.mem_filterMap.mpr ⟨_, present, rfl⟩
  cases failed with
  | rejected started => simpa [started.calls_eq] using listed
  | unannounced reply entry started completed =>
    simp [started.calls_eq, completed.quiet.calls_eq] at listed

theorem FellThrough.rejectsRetryably {tried : List AdapterRef}
    (fell : FellThrough platform order deps tried actions) : RejectsRetryably deps actions := by
  induction fell with
  | none => exact rejectsRetryably_of_calls_eq rfl
  | more before failed retryable ih =>
    refine ih.append fun adapter error present => ?_
    obtain ⟨rfl, rfl⟩ := failed.rejected_eq present
    exact retryable

/-! ### Where a run stops -/

theorem Failed.stopsAt {adapter' : AdapterRef} {error' : Thrown} {result : WorkOrderResult}
    {last : List Action} (failed : Failed platform order deps adapter' error' actions)
    (status : result.status = .failed)
    (closes : Closes order deps .taskFailed result outcome last) :
    StopsAt adapter error outcome (actions ++ last) := by
  intro before after split
  cases failed with
  | @rejected start started =>
    have alone : start ++ .executed adapter' (.error error') :: last =
        before ++ .executed adapter (.error error) :: after := by simpa using split
    rcases split_append alone with ⟨middle, rfl, -⟩ | ⟨middle, rfl, hRight⟩
    · have none := started.calls_eq
      simp at none
    · rcases middle with _ | ⟨first, middle⟩
      · obtain ⟨-, rfl⟩ := List.cons.inj hRight
        exact closes.announcesFailure status
      · obtain ⟨-, rfl⟩ := List.cons.inj hRight
        have none := closes.quiet.calls_eq
        simp at none
  | unannounced reply entry started completed =>
    have calm : calls (before ++ .executed adapter (.error error) :: after) =
        [(adapter', .ok reply)] := by
      rw [← split]
      simp [started.calls_eq, completed.quiet.calls_eq, closes.quiet.calls_eq]
    have listed : (adapter, .error error) ∈
        calls (before ++ .executed adapter (.error error) :: after) := by simp
    rw [calm] at listed
    simp at listed

section Final

variable (final : isRetryable (deps.classifyError adapter error) = false)

include final

theorem RejectsRetryably.stopsAt (calm : RejectsRetryably deps actions) :
    StopsAt adapter error outcome actions := by
  rintro before after rfl
  have retryable := calm adapter error (by simp)
  rw [final] at retryable
  cases retryable

/-- Before the call that a run stops at, only calls that were rejected retryably stand. -/
theorem StopsAt.prepend (calm : RejectsRetryably deps actions)
    (stops : StopsAt adapter error outcome more) :
    StopsAt adapter error outcome (actions ++ more) := by
  intro before after split
  rcases split_append split with ⟨middle, rfl, -⟩ | ⟨middle, -, hRight⟩
  · have retryable := calm adapter error (by simp)
    rw [final] at retryable
    cases retryable
  · exact stops middle after hRight

theorem Closes.stopsAt {type : EventType} {result : WorkOrderResult}
    (closes : Closes order deps type result outcome actions) :
    StopsAt adapter error outcome actions :=
  (rejectsRetryably_of_calls_eq closes.quiet.calls_eq).stopsAt final

theorem Settles.stopsAt {adapter' : AdapterRef} {overBudget failed : WorkOrderResult}
    {completed : Reply → WorkOrderResult → Prop}
    (settles : Settles platform order deps adapter' overBudget failed completed outcome actions)
    (status : failed.status = .failed) : StopsAt adapter error outcome actions := by
  cases settles with
  | broken attempt => exact attempt.rejectsRetryably.stopsAt final
  | overBudget attempt closes =>
    exact (closes.stopsAt final).prepend final attempt.rejectsRetryably
  | completed attempt carries => exact attempt.rejectsRetryably.stopsAt final
  | failed attempt _ closes => exact attempt.stopsAt status closes

theorem ModelRun.stopsAt {executionClass : ExecutionClass}
    (run : ModelRun platform order deps executionClass outcome actions) :
    StopsAt adapter error outcome actions := by
  cases run with
  | missingRequest _ closes | noEligible _ closes => exact closes.stopsAt final
  | settled _ _ before settles =>
    exact (settles.stopsAt final rfl).prepend final before.rejectsRetryably
  | exhausted before _ closes => exact (closes.stopsAt final).prepend final before.rejectsRetryably

theorem CapabilityRun.stopsAt {routing : WorkRoutingDecision}
    (run : CapabilityRun platform order deps routing outcome actions) :
    StopsAt adapter error outcome actions := by
  cases run with
  | unwired _ closes => exact closes.stopsAt final
  | settled _ before settles =>
    exact (settles.stopsAt final rfl).prepend final before.rejectsRetryably
  | exhausted _ before _ closes =>
    exact (closes.stopsAt final).prepend final before.rejectsRetryably
  | escalated _ before _ model => exact (model.stopsAt final).prepend final before.rejectsRetryably

/-- A run stops at the first call that is rejected with an error that is not retryable. -/
theorem OrderRun.stopsAt (run : OrderRun platform order deps outcome actions) :
    StopsAt adapter error outcome actions := by
  have planning : ∀ {type reply planned}, Emits order deps type reply planned →
      RejectsRetryably deps planned :=
    fun emits => rejectsRetryably_of_calls_eq emits.quiet.calls_eq
  cases run with
  | broken => exact (rejectsRetryably_of_calls_eq rfl).stopsAt final
  | denied _ _ _ closes | approval _ _ _ closes => exact closes.stopsAt final
  | routed _ run =>
    cases run with
    | unplanned planned => exact (planning planned).stopsAt final
    | human planned _ closes => exact (closes.stopsAt final).prepend final (planning planned)
    | capability planned _ _ run => exact (run.stopsAt final).prepend final (planning planned)
    | model planned _ run => exact (run.stopsAt final).prepend final (planning planned)

end Final

end Stopped

end Donna
