import Donna.Base.Tables

/-! A durable queue with at-least-once delivery.  A job may carry a key, and no two jobs carry the
same: a job added under a key that is taken overwrites the payload of one that waits, and detaches
one that a worker has locked, which is then not delivered again.  Otherwise a job leaves the queue
only when its handler returns. -/

namespace Donna.JobQueue

open Tables

/-- The key of a job, which the job may never have had, or may have lost to a later one. -/
inductive JobKey
  | none
  | attached (name : String)
  | detached
  deriving DecidableEq

/-- Where a job stands: a job is locked from the moment it is taken, also after its handler threw or
its worker crashed, until it is delivered again. -/
inductive JobState (α : Type)
  | queued
  | running (progress : α)
  | failed

structure Job (π α : Type) where
  key : JobKey
  payload : π
  state : JobState α

variable {π α : Type}

namespace Job

def jobKey (job : Job π α) : Option String :=
  match job.key with
  | .attached name => some name
  | .none | .detached => none

def locked (job : Job π α) : Bool :=
  match job.state with
  | .queued => false
  | .running _ | .failed => true

def detach (job : Job π α) : Job π α := { job with key := .detached }

/-- The job that `add_job` makes. -/
def fresh (key : Option String) (payload : π) : Job π α :=
  ⟨key.elim .none .attached, payload, .queued⟩

end Job

def add (key : Option String) (payload : π) (jobs : List (Job π α)) : List (Job π α) :=
  match key with
  | none => jobs ++ [.fresh none payload]
  | some name =>
    match jobs.find? fun job => job.jobKey = some name with
    | none => jobs ++ [.fresh (some name) payload]
    | some job =>
      if job.locked then
        updateWhere (fun job => job.jobKey = some name) Job.detach jobs ++
          [.fresh (some name) payload]
      else
        updateWhere (fun job => job.jobKey = some name) (fun job => { job with payload }) jobs

/-- One job of the queue becomes another, or leaves it. -/
inductive Replaces (job : Job π α) (by_ : Option (Job π α)) :
    List (Job π α) → List (Job π α) → Prop
  | intro (before after : List (Job π α)) :
      Replaces job by_ (before ++ job :: after) (before ++ by_.toList ++ after)

section Specs

variable {job other : Job π α} {jobs jobs' : List (Job π α)} {key : Option String} {name : String}
  {payload : π} {by_ : Option (Job π α)}

@[simp] theorem Job.jobKey_fresh : (fresh key payload : Job π α).jobKey = key := by
  cases key <;> rfl

@[simp] theorem Job.jobKey_detach : job.detach.jobKey = none := rfl

/-- A job that waits under a key is what adding its payload under that key makes. -/
theorem Job.eq_fresh (keyed : job.jobKey = some name) (waits : job.locked = false) :
    { job with payload } = fresh (some name) payload := by
  obtain ⟨held, old, state⟩ := job
  cases held with
  | none => cases keyed
  | detached => cases keyed
  | attached held =>
    cases state with
    | queued =>
      obtain rfl := Option.some.inj keyed
      rfl
    | _ => cases waits

/-- What `add_job` makes of the queue: it appends a job to the queue, perhaps one in which no job
has the key any more, or it overwrites the one job that has it. -/
theorem add_cases (key : Option String) (payload : π) (jobs : List (Job π α)) :
    (add key payload jobs = jobs ++ [.fresh key payload] ∧
      ∀ name, key = some name → ∀ job ∈ jobs, job.jobKey ≠ some name) ∨
    ∃ name, key = some name ∧
      (add key payload jobs =
        updateWhere (fun job => job.jobKey = some name) Job.detach jobs ++ [.fresh key payload] ∨
      ∃ job ∈ jobs, job.jobKey = some name ∧ job.locked = false ∧ add key payload jobs =
        updateWhere (fun job => job.jobKey = some name)
          (fun job => { job with payload }) jobs) := by
  cases key with
  | none => exact .inl ⟨rfl, fun _ keyed => nomatch keyed⟩
  | some name =>
    rw [add]
    cases found : jobs.find? fun job => job.jobKey = some name with
    | none =>
      refine .inl ⟨rfl, fun other keyed job listed => ?_⟩
      obtain rfl := Option.some.inj keyed
      simpa using List.find?_eq_none.mp found job listed
    | some job =>
      have keyed : job.jobKey = some name := by simpa using List.find?_some found
      cases held : job.locked with
      | true => exact .inr ⟨name, rfl, .inl (if_pos held)⟩
      | false =>
        exact .inr ⟨name, rfl, .inr ⟨job, List.mem_of_find?_eq_some found, keyed, held,
          if_neg (by simp [held])⟩⟩

/-- A job of the queue after `add_job` is the added one, or has lost its key, or is one that was
there under another key. -/
theorem mem_add_cases (unique : Unique (·.jobKey) jobs) (listed : job ∈ add key payload jobs) :
    job = .fresh key payload ∨ (∃ held ∈ jobs, job = held.detach) ∨
      (job ∈ jobs ∧ ∀ name, key = some name → job.jobKey ≠ some name) := by
  rcases add_cases key payload jobs with
    ⟨added, free⟩ | ⟨name, rfl, added | ⟨waiting, hWaiting, keyed, waits, added⟩⟩ <;>
    rw [added] at listed
  · rcases List.mem_append.mp listed with before | last
    · exact .inr (.inr ⟨before, fun name hKey => free name hKey job before⟩)
    · exact .inl (List.mem_singleton.mp last)
  · rcases List.mem_append.mp listed with before | last
    · obtain ⟨held, hHeld, rfl⟩ := mem_updateWhere.mp before
      by_cases keyed : held.jobKey = some name
      · exact .inr (.inl ⟨held, hHeld, by simp [keyed]⟩)
      · refine .inr (.inr ⟨by simpa [keyed] using hHeld, ?_⟩)
        rintro _ ⟨⟩
        simp [keyed]
    · exact .inl (List.mem_singleton.mp last)
  · obtain ⟨before, hBefore, rfl⟩ := mem_updateWhere.mp listed
    by_cases same : before.jobKey = some name
    · obtain rfl := unique.eq hBefore hWaiting same keyed
      exact .inl (by simpa [same] using Job.eq_fresh same waits)
    · refine .inr (.inr ⟨by simpa [same] using hBefore, ?_⟩)
      rintro _ ⟨⟩
      simp [same]

theorem mem_add_of_ne (listed : job ∈ jobs)
    (other : ∀ name, key = some name → job.jobKey ≠ some name) : job ∈ add key payload jobs := by
  rcases add_cases key payload jobs with
    ⟨added, -⟩ | ⟨name, rfl, added | ⟨waiting, -, -, -, added⟩⟩ <;> rw [added]
  · exact List.mem_append_left _ listed
  · exact List.mem_append_left _ (mem_updateWhere_of_not listed (by simp [other name rfl]))
  · exact mem_updateWhere_of_not listed (by simp [other name rfl])

theorem fresh_mem_add : .fresh key payload ∈ add key payload jobs := by
  rcases add_cases key payload jobs with
    ⟨added, -⟩ | ⟨name, rfl, added | ⟨waiting, hWaiting, keyed, waits, added⟩⟩ <;> rw [added]
  · exact List.mem_append_right _ (List.mem_singleton_self _)
  · exact List.mem_append_right _ (List.mem_singleton_self _)
  · rw [← Job.eq_fresh keyed waits]
    exact set_mem_updateWhere hWaiting (by simp [keyed])

theorem unique_add (unique : Unique (·.jobKey) jobs) :
    Unique (·.jobKey) (add key payload jobs) := by
  rcases add_cases key payload jobs with
    ⟨added, free⟩ | ⟨name, rfl, added | ⟨waiting, -, -, -, added⟩⟩ <;> rw [added]
  · refine unique_insert.mpr ⟨unique, fun name hKey job listed => free name ?_ job listed⟩
    rwa [Job.jobKey_fresh] at hKey
  · have detached : Unique (·.jobKey)
        (updateWhere (fun job => job.jobKey = some name) Job.detach jobs) :=
      unique.updateWhere_of_imp fun _ _ hKey => nomatch hKey
    refine unique_insert.mpr ⟨detached, fun other hKey job listed hJob => ?_⟩
    rw [Job.jobKey_fresh] at hKey
    obtain rfl := Option.some.inj hKey
    obtain ⟨before, -, rfl⟩ := mem_updateWhere.mp listed
    by_cases keyed : before.jobKey = some name
    · simp [keyed] at hJob
    · simp [keyed] at hJob
  · exact unique.updateWhere fun _ => rfl

/-! ### One job moves -/

theorem Replaces.mem (moved : Replaces job by_ jobs jobs') : job ∈ jobs := by
  obtain ⟨before, after⟩ := moved
  simp

theorem exists_replaces (by_ : Option (Job π α)) (listed : job ∈ jobs) :
    ∃ jobs', Replaces job by_ jobs jobs' := by
  obtain ⟨before, after, rfl⟩ := List.append_of_mem listed
  exact ⟨_, .intro before after⟩

theorem Replaces.mem_cases (moved : Replaces job by_ jobs jobs') (listed : other ∈ jobs') :
    by_ = some other ∨ other ∈ jobs := by
  obtain ⟨before, after⟩ := moved
  simp only [List.mem_append, Option.mem_toList] at listed
  rcases listed with (earlier | here) | later
  · exact .inr (List.mem_append_left _ earlier)
  · exact .inl here
  · exact .inr (List.mem_append_right _ (List.mem_cons_of_mem _ later))

theorem Replaces.mem_of_ne (moved : Replaces job by_ jobs jobs') (listed : other ∈ jobs)
    (different : other ≠ job) : other ∈ jobs' := by
  obtain ⟨before, after⟩ := moved
  simp only [List.mem_append, List.mem_cons, different, false_or] at listed ⊢
  exact listed.imp_left .inl

theorem Replaces.mem_by (moved : Replaces job (some other) jobs jobs') : other ∈ jobs' := by
  obtain ⟨before, after⟩ := moved
  simp

theorem Replaces.unique (moved : Replaces job by_ jobs jobs') (unique : Unique (·.jobKey) jobs)
    (keeps : ∀ next, by_ = some next → next.jobKey = job.jobKey) : Unique (·.jobKey) jobs' := by
  obtain ⟨before, after⟩ := moved
  cases by_ with
  | none =>
    refine List.Nodup.sublist (List.Sublist.filterMap _ ?_) unique
    simp
  | some next =>
    have same := keeps next rfl
    rw [Tables.Unique] at unique ⊢
    simpa [List.filterMap_append, List.filterMap_cons, same] using unique

/-! ### What holds of every job -/

variable {holds : Job π α → Prop}

theorem forall_add (unique : Unique (·.jobKey) jobs) (all : ∀ job ∈ jobs, holds job)
    (fresh : holds (.fresh key payload)) (detach : ∀ job, holds job → holds job.detach) :
    ∀ job ∈ add key payload jobs, holds job := by
  intro job listed
  rcases mem_add_cases unique listed with rfl | ⟨held, hHeld, rfl⟩ | ⟨before, -⟩
  · exact fresh
  · exact detach held (all held hHeld)
  · exact all job before

theorem Replaces.forall (moved : Replaces job by_ jobs jobs') (all : ∀ job ∈ jobs, holds job)
    (next : ∀ job, by_ = some job → holds job) : ∀ job ∈ jobs', holds job := by
  intro other listed
  rcases moved.mem_cases listed with replaces | before
  · exact next other replaces
  · exact all other before

/-! ### What the handlers hold -/

/-- Of each job that is running, how far its handler has come. -/
def AllRunning (holds : α → Prop) (jobs : List (Job π α)) : Prop :=
  ∀ job ∈ jobs, ∀ progress, job.state = .running progress → holds progress

section Handlers

variable {handled : α → Prop}

theorem AllRunning.add (all : AllRunning handled jobs) (unique : Unique (·.jobKey) jobs) :
    AllRunning handled (add key payload jobs) :=
  forall_add unique all (fun _ running => nomatch running) fun _ held => held

theorem AllRunning.replace (all : AllRunning handled jobs) {by_ : Option (Job π α)}
    (moved : Replaces job by_ jobs jobs') (next : ∀ job, by_ = some job →
      ∀ progress, job.state = .running progress → handled progress) : AllRunning handled jobs' :=
  moved.forall all next

theorem AllRunning.move {next : Job π α} (all : AllRunning handled jobs)
    (moved : Replaces job (some next) jobs jobs')
    (still : ∀ progress, next.state = .running progress → handled progress) :
    AllRunning handled jobs' :=
  all.replace moved fun other replaces => by
    obtain rfl := Option.some.inj replaces
    exact still

end Handlers

/-! ### The work that is left -/

/-- The work that the jobs have before them, by how much is left at each state. -/
def load (left : JobState α → ℕ) : List (Job π α) → ℕ
  | [] => 0
  | job :: rest => left job.state + load left rest

variable {left : JobState α → ℕ}

theorem load_append {more : List (Job π α)} :
    load left (jobs ++ more) = load left jobs + load left more := by
  induction jobs with
  | nil => simp [load]
  | cons job rest ih => simp [load, ih, Nat.add_assoc]

theorem Replaces.load (moved : Replaces job by_ jobs jobs') :
    load left jobs' + left job.state =
      load left jobs + (by_.map fun next => left next.state).getD 0 := by
  obtain ⟨before, after⟩ := moved
  simp only [load_append, JobQueue.load]
  cases by_ with
  | none => simp [JobQueue.load]; omega
  | some next => simp [JobQueue.load]; omega

theorem load_updateWhere {selected : Job π α → Bool} {set : Job π α → Job π α}
    (keeps : ∀ job, (set job).state = job.state) :
    load left (updateWhere selected set jobs) = load left jobs := by
  induction jobs with
  | nil => rfl
  | cons job rest ih =>
    have same : (if selected job = true then set job else job).state = job.state := by
      split
      · exact keeps job
      · rfl
    show left _ + load left (updateWhere selected set rest) = _
    rw [ih, same]
    rfl

/-- A job that is added is the only work that it adds. -/
theorem load_add_le : load left (add key payload jobs) ≤ load left jobs + left .queued := by
  rcases add_cases key payload jobs with
    ⟨added, -⟩ | ⟨name, rfl, added | ⟨waiting, -, -, -, added⟩⟩ <;> rw [added]
  · simp [load_append, load, Job.fresh]
  · have detached : load left (updateWhere (fun job => job.jobKey = some name) Job.detach jobs) =
        load left jobs := load_updateWhere fun _ => rfl
    rw [load_append, detached]
    simp [load, Job.fresh]
  · have overwritten : load left (updateWhere (fun job => job.jobKey = some name)
        (fun job => { job with payload }) jobs) = load left jobs := load_updateWhere fun _ => rfl
    rw [overwritten]
    exact Nat.le_add_right _ _

end Specs

end Donna.JobQueue
