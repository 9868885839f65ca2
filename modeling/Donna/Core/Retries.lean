import Donna.Base.Machine
import Donna.Core.Task

/-! Runs of the task state machine: a caller that asks for one transition after the other, where an
illegal one throws and leaves the task as it was.  The retry count pays for every way from `failed`
back to `pending`. -/

namespace Donna

/-- Ask for a transition, and keep the task where it throws. -/
def attemptTransition (task : Task) (target : TaskStatus) :
    Except IllegalTaskTransitionError Task × Task :=
  match transition task target with
  | .ok moved => (.ok moved, moved)
  | .error error => (.error error, task)

/-- One attempt of a run, with the task before and after it. -/
abbrev TransitionVisit := Machine.Visit Task TaskStatus (Except IllegalTaskTransitionError Task)

def TransitionVisit.enters (status : TaskStatus) (visit : TransitionVisit) : Bool :=
  visit.before.status != status && visit.after.status == status

def TransitionVisit.isRetry (visit : TransitionVisit) : Bool :=
  visit.before.status == .failed && visit.after.status == .pending

variable {task : Task} {target : TaskStatus}

/-! ### One attempt -/

theorem transition_retry (failed : task.status = .failed) :
    transition task .pending = if task.maxRetries ≤ task.retryCount then
        .error ⟨task.status, .pending⟩
      else .ok { task with status := .pending, retryCount := task.retryCount + 1 } := by
  have allowed : canTransition task.status .pending = true := by
    rw [failed]
    rfl
  by_cases spent : task.maxRetries ≤ task.retryCount
  · simp [transition, failed, spent, canTransition, allowedTransitions]
  · simp [transition, failed, spent, canTransition, allowedTransitions]

theorem transition_move (noRetry : ¬ (task.status = .failed ∧ target = .pending)) :
    transition task target = if canTransition task.status target then
        .ok { task with status := target }
      else .error ⟨task.status, target⟩ := by
  have isRetry : (task.status == .failed && target == .pending) = false := by
    simpa using noRetry
  by_cases allowed : canTransition task.status target = true
  · simp [transition, allowed, isRetry]
  · simp [transition, allowed]

/-- What an attempt can do: leave the task, move it without a retry, or retry it. -/
theorem attemptTransition_cases (task : Task) (target : TaskStatus) :
    (attemptTransition task target).2 = task ∨
    (canTransition task.status target = true ∧ ¬ (task.status = .failed ∧ target = .pending) ∧
      (attemptTransition task target).2 = { task with status := target }) ∨
    (task.status = .failed ∧ target = .pending ∧ task.retryCount < task.maxRetries ∧
      (attemptTransition task target).2 =
        { task with status := .pending, retryCount := task.retryCount + 1 }) := by
  by_cases retry : task.status = .failed ∧ target = .pending
  · obtain ⟨failed, rfl⟩ := retry
    by_cases spent : task.maxRetries ≤ task.retryCount
    · left
      simp [attemptTransition, transition_retry failed, spent]
    · right
      right
      refine ⟨failed, rfl, by omega, ?_⟩
      simp [attemptTransition, transition_retry failed, spent]
  · by_cases allowed : canTransition task.status target = true
    · right
      left
      refine ⟨allowed, retry, ?_⟩
      simp [attemptTransition, transition_move retry, allowed]
    · left
      simp [attemptTransition, transition_move retry, allowed]

/-- Where a task may go without a retry: not from its end, not to itself, not to `pending`, and from
`failed` only to its end. -/
theorem canTransition_noRetry {source : TaskStatus} (allowed : canTransition source target = true)
    (noRetry : ¬ (source = .failed ∧ target = .pending)) :
    isTerminalTaskStatus source = false ∧ source ≠ target ∧ target ≠ .pending ∧
      (source = .failed → isTerminalTaskStatus target = true) := by
  revert allowed noRetry
  cases source <;> cases target <;> decide

/-- The retries that are left. -/
def remainingRetries (task : Task) : ℕ := (task.maxRetries - task.retryCount).toNat

/-- The failures that are left: one for each retry, and one while the task is under way. -/
def remainingFailures (task : Task) : ℕ :=
  remainingRetries task +
    if task.status = .failed ∨ isTerminalTaskStatus task.status = true then 0 else 1

/-- The retries of a task are within their limit. -/
def RetriesWithin (task : Task) : Prop := task.retryCount ≤ task.maxRetries

theorem attemptTransition_within (task : Task) (target : TaskStatus) (within : RetriesWithin task) :
    RetriesWithin (attemptTransition task target).2 := by
  unfold RetriesWithin at within ⊢
  rcases attemptTransition_cases task target with same | ⟨-, -, moved⟩ | ⟨-, -, room, retried⟩
  · rw [same]
    exact within
  · rw [moved]
    exact within
  · rw [retried]
    exact room

/-- The retry count rises by one at a retry and is kept otherwise. -/
theorem attemptTransition_retryCount (task : Task) (target : TaskStatus) :
    (attemptTransition task target).2.retryCount = task.retryCount +
      if TransitionVisit.isRetry (Machine.visit attemptTransition task target) then 1 else 0 := by
  unfold TransitionVisit.isRetry Machine.visit
  rcases attemptTransition_cases task target with same | ⟨-, noRetry, moved⟩ |
    ⟨failed, -, -, retried⟩
  · rw [same]
    cases task.status <;> simp
  · rw [moved]
    simp [noRetry]
  · rw [retried]
    simp [failed]

theorem attemptTransition_entersPending (task : Task) (target : TaskStatus) :
    let visit := Machine.visit attemptTransition task target
    remainingRetries visit.after + (if TransitionVisit.enters .pending visit then 1 else 0) ≤
      remainingRetries visit.before := by
  unfold TransitionVisit.enters Machine.visit remainingRetries
  rcases attemptTransition_cases task target with same | ⟨allowed, noRetry, moved⟩ |
    ⟨failed, -, room, retried⟩
  · rw [same]
    simp
  · obtain ⟨-, -, notPending, -⟩ := canTransition_noRetry allowed noRetry
    rw [moved]
    simp [notPending]
  · rw [retried]
    simp [failed]
    omega

theorem attemptTransition_entersFailed (task : Task) (target : TaskStatus) :
    let visit := Machine.visit attemptTransition task target
    remainingFailures visit.after + (if TransitionVisit.enters .failed visit then 1 else 0) ≤
      remainingFailures visit.before := by
  unfold TransitionVisit.enters Machine.visit remainingFailures remainingRetries
  rcases attemptTransition_cases task target with same | ⟨allowed, noRetry, moved⟩ |
    ⟨failed, -, room, retried⟩
  · rw [same]
    simp
  · obtain ⟨live, other, notPending, fromFailed⟩ := canTransition_noRetry allowed noRetry
    rw [moved]
    by_cases failed : task.status = .failed
    · have ended := fromFailed failed
      have notFailed : target ≠ .failed := fun h => other (failed.trans h.symm)
      simp [failed, ended, notFailed]
    · simp only [failed, live, false_or, Bool.false_eq_true, if_false]
      by_cases fails : target = .failed
      · simp [fails, failed]
      · simp [fails]
        split <;> omega
  · have live : isTerminalTaskStatus .pending = false := rfl
    rw [retried]
    simp [failed, live]
    omega

/-- An attempt changes only the status and the retry count. -/
theorem attemptTransition_frame (task : Task) (target : TaskStatus) :
    (attemptTransition task target).2 = { task with
      status := (attemptTransition task target).2.status
      retryCount := (attemptTransition task target).2.retryCount } := by
  rcases attemptTransition_cases task target with same | ⟨-, -, moved⟩ | ⟨-, -, -, retried⟩
  · rw [same]
  · rw [moved]
  · rw [retried]

theorem attemptTransition_terminal (ended : isTerminalTaskStatus task.status = true) :
    (attemptTransition task target).2 = task := by
  rcases attemptTransition_cases task target with same | ⟨allowed, noRetry, -⟩ | ⟨failed, -, -, -⟩
  · exact same
  · obtain ⟨live, -, -, -⟩ := canTransition_noRetry allowed noRetry
    rw [live] at ended
    cases ended
  · rw [failed] at ended
    cases ended

/-! ### Runs -/

section Runs

open Machine

variable (task) (targets : List TaskStatus)

theorem countP_isRetry :
    ((visits attemptTransition task targets).countP TransitionVisit.isRetry : ℤ) =
      (final attemptTransition task targets).retryCount - task.retryCount := by
  have counted : (final attemptTransition task targets).retryCount = task.retryCount +
      ((visits attemptTransition task targets).map fun visit =>
        if TransitionVisit.isRetry visit then 1 else 0).sum :=
    sum_visits (fun _ _ (_ : True) => trivial) Task.retryCount
      (fun visit => if TransitionVisit.isRetry visit then 1 else 0)
      (fun task target _ => attemptTransition_retryCount task target) trivial targets
  rw [sum_indicator] at counted
  exact eq_sub_of_add_eq' counted.symm

theorem retryCount_le_of_visit {visit : TransitionVisit}
    (listed : visit ∈ visits attemptTransition task targets) :
    visit.before.retryCount ≤ visit.after.retryCount := by
  obtain ⟨earlier, hVisit⟩ := exists_of_mem_visits listed
  have rise := attemptTransition_retryCount (final attemptTransition task earlier) visit.input
  rw [hVisit]
  simp only [Machine.visit]
  rw [rise]
  split <;> omega

theorem final_frame : final attemptTransition task targets = { task with
    status := (final attemptTransition task targets).status
    retryCount := (final attemptTransition task targets).retryCount } := by
  induction targets generalizing task with
  | nil => rfl
  | cons target rest ih => rw [final, ih, attemptTransition_frame]

variable {task}

theorem final_retryCount_le (within : RetriesWithin task) :
    (final attemptTransition task targets).retryCount ≤ task.maxRetries := by
  have kept := congrArg Task.maxRetries (final_frame task targets)
  have bound := final_invariant attemptTransition_within within targets
  unfold RetriesWithin at bound
  rw [kept] at bound
  exact bound

theorem countP_enters_pending (within : RetriesWithin task) :
    ((visits attemptTransition task targets).countP (TransitionVisit.enters .pending) : ℤ) ≤
      task.maxRetries - task.retryCount := by
  have bound := count_le_potential attemptTransition_within remainingRetries
    (TransitionVisit.enters .pending)
    (fun task target _ => attemptTransition_entersPending task target) within targets
  unfold RetriesWithin at within
  unfold remainingRetries at bound
  omega

theorem countP_enters_failed (within : RetriesWithin task) :
    ((visits attemptTransition task targets).countP (TransitionVisit.enters .failed) : ℤ) ≤
      task.maxRetries - task.retryCount + 1 := by
  have bound := count_le_potential attemptTransition_within remainingFailures
    (TransitionVisit.enters .failed)
    (fun task target _ => attemptTransition_entersFailed task target) within targets
  unfold RetriesWithin at within
  unfold remainingFailures remainingRetries at bound
  split at bound <;> omega

theorem final_terminal (ended : isTerminalTaskStatus task.status = true) :
    final attemptTransition task targets = task := by
  induction targets with
  | nil => rfl
  | cons target rest ih => rw [final, attemptTransition_terminal ended, ih]

end Runs

/-- Along every run of the state machine the retries are bounded: each one raises the retry count,
which stays within its limit, so that the task fails at most once more than it has retries left.
Where it is completed or cancelled it stays, and only its status and its retry count change. -/
theorem retries_bounded {task : Task} (within : task.retryCount ≤ task.maxRetries)
    (targets : List TaskStatus) :
    let final := Machine.final attemptTransition task targets
    let visits := Machine.visits attemptTransition task targets
    (visits.countP TransitionVisit.isRetry : ℤ) = final.retryCount - task.retryCount ∧
    final.retryCount ≤ task.maxRetries ∧
    (∀ visit ∈ visits, visit.before.retryCount ≤ visit.after.retryCount) ∧
    (visits.countP (TransitionVisit.enters .failed) : ℤ) ≤ task.maxRetries - task.retryCount + 1 ∧
    (visits.countP (TransitionVisit.enters .pending) : ℤ) ≤ task.maxRetries - task.retryCount ∧
    (∀ earlier later, targets = earlier ++ later →
      isTerminalTaskStatus (Machine.final attemptTransition task earlier).status = true →
        final = Machine.final attemptTransition task earlier) ∧
    final = { task with status := final.status, retryCount := final.retryCount } := by
  refine ⟨countP_isRetry task targets, final_retryCount_le targets within,
    fun visit => retryCount_le_of_visit task targets, countP_enters_failed targets within,
    countP_enters_pending targets within, ?_, final_frame task targets⟩
  rintro earlier later rfl ended
  exact (Machine.final_append task earlier later).trans (final_terminal later ended)

/-- A task that fails twice with one retry, and is then sent back in vain. -/
theorem retries_bounded_example :
    let task : Task := ⟨"t", "o", none, "goal", "done", .running, none, .prepare, none, 0, 1⟩
    let targets : List TaskStatus := [.failed, .pending, .planned, .assigned, .running, .failed,
      .pending]
    (Machine.visits attemptTransition task targets).countP (TransitionVisit.enters .failed) = 2 ∧
      (Machine.final attemptTransition task targets).retryCount ≤ 1 := by
  intro task targets
  have within : task.retryCount ≤ task.maxRetries := by decide
  exact ⟨by decide, (retries_bounded within targets).2.1⟩

end Donna
