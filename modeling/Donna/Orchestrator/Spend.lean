import Mathlib.Algebra.BigOperators.Group.List.Basic
import Mathlib.Algebra.Order.Ring.Rat
import Donna.Orchestrator.HttpAdapter
import Donna.Orchestrator.Keeps
import Donna.Orchestrator.Success

/-! What a run adds to the ledger against what its adapters report.  A call that resolves is
recorded at once under its id.  A call that is rejected is never recorded, so the run's spend is
conserved exactly when no rejected call has a reported cost. -/

namespace Donna

open Js Async Async.Program

/-! ### The ledger -/

structure UsageLedger where
  records : List UsageRecord := []

namespace UsageLedger

def record (ledger : UsageLedger) (entry : UsageRecord) : UsageLedger :=
  { records := ledger.records ++ [entry] }

/-- Total spend, optionally filtered. -/
def totalUsd (ledger : UsageLedger) (predicate : Option (UsageRecord → Bool) := none) : ℚ :=
  let rows := match predicate with
    | some keep => ledger.records.filter keep
    | none => ledger.records
  rows.foldl (fun sum row => sum + row.costUsd) 0

/-- The ledger after what has happened: every record goes through `record`. -/
def after (history : History) : UsageLedger := (ledger history).foldl record {}

theorem records_foldl (start : UsageLedger) (entries : List UsageRecord) :
    (entries.foldl record start).records = start.records ++ entries := by
  induction entries generalizing start with
  | nil => simp
  | cons entry entries ih => simp [ih, record]

theorem totalUsd_eq_sum (ledger : UsageLedger) :
    ledger.totalUsd = (ledger.records.map (·.costUsd)).sum := by
  rw [List.sum_eq_foldl, List.foldl_map]
  rfl

theorem totalUsd_after (history : History) :
    (after history).totalUsd = ((ledger history).map (·.costUsd)).sum := by
  rw [totalUsd_eq_sum, after, records_foldl]
  rfl

end UsageLedger

/-- What a run adds to the ledger's total. -/
def spent (history : History) (actions : List Action) : ℚ :=
  (UsageLedger.after (history ++ actions)).totalUsd - (UsageLedger.after history).totalUsd

theorem spent_eq_sum (history : History) (actions : List Action) :
    spent history actions = ((ledger actions).map (·.costUsd)).sum := by
  simp [spent, UsageLedger.totalUsd_after]

/-! ### Calls and what they cost -/

def AdapterRef.id : AdapterRef → String
  | .capability id => id
  | .model id => id

/-- A call of `execute` with its reply, made after `before`. -/
structure AdapterCall where
  before : History
  adapter : AdapterRef
  reply : Except Thrown Reply

def AdapterCall.action (call : AdapterCall) : Action := .executed call.adapter call.reply

def AdapterCall.rejected (call : AdapterCall) : Bool :=
  match call.reply with
  | .ok _ => false
  | .error _ => true

/-- The calls of a run, in order. -/
def attempts (history : History) : List Action → List AdapterCall
  | [] => []
  | action :: rest =>
    match action with
    | .executed adapter reply => ⟨history, adapter, reply⟩ :: attempts (history ++ [action]) rest
    | _ => attempts (history ++ [action]) rest

/-- What each adapter reports for each of its calls, if anything.  A capability's report is what
`reportUsage` gives once the call has settled; what it gives after a rejected call may be left over
from an earlier one, so which rejected calls have a report of their own is open.  A model reports
with its result. -/
structure Meter (deps : OrchestratorDeps) where
  reported : AdapterCall → Option ℚ
  resolved : ∀ {id adapter}, deps.capabilityAdapter id = some adapter → ∀ before reply,
    reported ⟨before, .capability id, .ok reply⟩ =
      (adapter.reportUsage (before ++ [.executed (.capability id) (.ok reply)])).map (·.costUsd)
  rejected : ∀ {id adapter}, deps.capabilityAdapter id = some adapter → ∀ before error,
    reported ⟨before, .capability id, .error error⟩ = none ∨
      reported ⟨before, .capability id, .error error⟩ =
        (adapter.reportUsage (before ++ [.executed (.capability id) (.error error)])).map
          (·.costUsd)
  model : ∀ id before result,
    reported ⟨before, .model id, .ok (.model result)⟩ = some result.usage.costUsd

/-- An amount under the id of a capability or a model. -/
structure Charge where
  id : String
  costUsd : ℚ
  deriving DecidableEq

def UsageRecord.charge (entry : UsageRecord) : Charge := ⟨entry.modelId, entry.costUsd⟩

namespace Meter

variable {deps : OrchestratorDeps} (meter : Meter deps)

def costUsd (call : AdapterCall) : ℚ := (meter.reported call).getD 0

def charge (call : AdapterCall) : Charge := ⟨call.adapter.id, meter.costUsd call⟩

/-- Every call is to be charged, but for one that was rejected without a report. -/
def chargeable (call : AdapterCall) : Bool := !call.rejected || (meter.reported call).isSome

def charges (history : History) (actions : List Action) : List Charge :=
  ((attempts history actions).filter meter.chargeable).map meter.charge

/-- The spend of a run is conserved: the ledger's total grows by what the calls cost, and the run's
records are the charges of its calls, one for one. -/
structure Conserves (history : History) (actions : List Action) : Prop where
  increase : spent history actions = ((attempts history actions).map meter.costUsd).sum
  recorded : (ledger actions).map UsageRecord.charge = meter.charges history actions

/-! ### What a run records -/

/-- The run's records are the costs of the calls that resolved, one for one. -/
def Records (history : History) (actions : List Action) : Prop :=
  (ledger actions).map UsageRecord.charge =
    ((attempts history actions).filter (!·.rejected)).map meter.charge

end Meter

@[simp] theorem attempts_append (history : History) (actions more : List Action) :
    attempts history (actions ++ more) =
      attempts history actions ++ attempts (history ++ actions) more := by
  induction actions generalizing history with
  | nil => simp [attempts]
  | cons action actions ih => cases action <;> simp [attempts, ih]

/-- Every run records the calls that resolved, and no other. -/
theorem Meter.records {deps : OrchestratorDeps} (meter : Meter deps) (order : WorkOrder) :
    RunRelation order deps meter.Records where
  chains := {
    nil := fun _ => rfl
    append := by
      intro history actions more before later
      show (ledger (actions ++ more)).map UsageRecord.charge = _
      rw [ledger_append, List.map_append, attempts_append, List.filter_append, List.map_append]
      exact congrArg₂ (· ++ ·) before later }
  published _ _ _ := rfl
  estimated _ _ _ := rfl
  failed _ _ _ _ := rfl
  modelFailed _ _ _ := rfl
  capability := by
    intro candidate adapter wired history output _
    -- The usage is read right after the call, so it is the reported one.
    have same : (capabilityRecord order candidate (adapter.reportUsage
        (history ++ [.executed (.capability candidate.id) (.ok (.output output))]))).charge =
          meter.charge ⟨history, .capability candidate.id, .ok (.output output)⟩ := by
      rw [Meter.charge, Meter.costUsd, meter.resolved wired]
      rfl
    exact congrArg (fun charge => [charge]) same
  model := by
    intro entry history result
    have same : (modelRecord order entry result.usage).charge =
        meter.charge ⟨history, .model entry.id, .ok (.model result)⟩ := by
      rw [Meter.charge, Meter.costUsd, meter.model]
      rfl
    exact congrArg (fun charge => [charge]) same

/-! ### What it leaves out -/

/-- The calls whose cost no record carries. -/
def unrecorded (history : History) (actions : List Action) : List AdapterCall :=
  (attempts history actions).filter (·.rejected)

namespace Meter

variable {deps : OrchestratorDeps} {meter : Meter deps} {history : History} {actions : List Action}

theorem Records.spent_eq (records : meter.Records history actions) :
    spent history actions =
      (((attempts history actions).filter (!·.rejected)).map meter.costUsd).sum := by
  have amounts := congrArg (fun charges => (charges.map Charge.costUsd).sum) records
  simp only [List.map_map] at amounts
  exact (spent_eq_sum history actions).trans amounts

/-- The ledger is short of exactly the reported costs of the rejected calls. -/
theorem Records.shortfall (records : meter.Records history actions) :
    spent history actions + ((unrecorded history actions).map meter.costUsd).sum =
      ((attempts history actions).map meter.costUsd).sum := by
  have split := ((List.filter_append_perm (·.rejected) (attempts history actions)).map
    meter.costUsd).sum_eq
  rw [List.map_append, List.sum_append] at split
  rw [records.spent_eq, unrecorded, add_comm, split]

theorem Records.conserves_iff (records : meter.Records history actions) :
    meter.Conserves history actions ↔
      ∀ call ∈ attempts history actions, call.rejected → meter.reported call = none := by
  constructor
  · intro conserves call listed rejected
    -- The resolved calls are as many as the chargeable ones, so they are all of them.
    have resolved : ((attempts history actions).filter (!·.rejected)).Sublist
        ((attempts history actions).filter meter.chargeable) :=
      List.monotone_filter_right _ fun call resolved => by simp_all [chargeable]
    have counts := congrArg List.length (records.symm.trans conserves.recorded)
    rw [charges, List.length_map, List.length_map] at counts
    have same := resolved.eq_of_length counts
    by_contra reported
    have charged : call ∈ (attempts history actions).filter meter.chargeable := by
      simp [listed, chargeable, Option.isSome_iff_ne_none, reported]
    rw [← same] at charged
    simp [rejected] at charged
  · intro silent
    constructor
    · have free : ((unrecorded history actions).map meter.costUsd).sum = 0 := by
        apply List.sum_eq_zero
        intro cost listed
        obtain ⟨call, hCall, rfl⟩ := List.mem_map.mp listed
        obtain ⟨present, rejected⟩ := List.mem_filter.mp hCall
        rw [costUsd, silent call present rejected, Option.getD_none]
      rw [← records.shortfall, free, add_zero]
    · refine records.trans ?_
      rw [charges]
      refine congrArg _ (List.filter_congr fun call listed => ?_)
      cases hRejected : call.rejected with
      | false => simp [chargeable, hRejected]
      | true => simp [chargeable, hRejected, silent call listed hRejected]

end Meter

/-- Every run records its resolved calls only: its spend is conserved exactly when no call was
rejected with a reported cost, and otherwise the ledger is short of those costs. -/
theorem executeWorkOrder_conserves_iff (platform : Platform) (order : WorkOrder)
    (deps : OrchestratorDeps) (meter : Meter deps) (history : History) :
    wp (executeWorkOrder platform order deps) history fun _ actions =>
      (meter.Conserves history actions ↔
        ∀ call ∈ attempts history actions, call.rejected → meter.reported call = none) ∧
      spent history actions + ((unrecorded history actions).map meter.costUsd).sum =
        ((attempts history actions).map meter.costUsd).sum :=
  wp_mono ((meter.records order).keeps_executeWorkOrder history) fun _ _ records =>
    ⟨records.conserves_iff, records.shortfall⟩

/-- The meter that takes readings for reports; those after a rejected call only if it was answered,
as the calls of an HTTP adapter are that assign its usage. -/
def Meter.answered (deps : OrchestratorDeps) : Meter deps where
  reported call :=
    match call.adapter, call.reply with
    | .capability id, reply =>
      if isAnswered reply then
        ((deps.capabilityAdapter id).bind fun adapter =>
          adapter.reportUsage (call.before ++ [call.action])).map (·.costUsd)
      else none
    | .model _, .ok (.model result) => some result.usage.costUsd
    | .model _, _ => none
  resolved wired before reply := by simp [wired, isAnswered, AdapterCall.action]
  rejected wired before error := by
    cases answered : isAnswered (.error error) with
    | false => exact .inl (by simp [answered])
    | true => exact .inr (by simp [wired, answered, AdapterCall.action])
  model id before result := rfl

/-- An API at one cent a request, which answers with status 503. -/
def crmHttp : HttpCapability where
  id := "crm-api"
  estimateUsd := 1 / 100
  exchange _ _ _ := .ok { status := 503, ok := false, headers := [], body := .string "" }
  elapsed _ := 10

def crmHttpDeps : OrchestratorDeps := crmDeps BufferingEventBus crmHttp.adapter

theorem executeWorkOrder_undercounts :
    ¬ wp (executeWorkOrder .plain { crmOrder with budget := none } crmHttpDeps) [] fun _ actions =>
      (Meter.answered crmHttpDeps).Conserves [] actions := by
  intro conserves
  let run := executeWorkOrder .plain { crmOrder with budget := none } crmHttpDeps []
  have records : (Meter.answered crmHttpDeps).Records [] run.2 :=
    ((Meter.answered crmHttpDeps).records _).keeps_executeWorkOrder []
  have silent := records.conserves_iff.mp conserves
  have outcomes : (attempts [] run.2).map (fun call =>
      (call.rejected, (Meter.answered crmHttpDeps).reported call)) =
        [(true, some (1 / 100)), (false, none)] := rfl
  have first : (true, some (1 / 100)) ∈ (attempts [] run.2).map fun call =>
      (call.rejected, (Meter.answered crmHttpDeps).reported call) := by simp [outcomes]
  obtain ⟨call, listed, same⟩ := List.mem_map.mp first
  obtain ⟨rejected, reported⟩ := Prod.mk.inj same
  rw [silent call listed rejected] at reported
  cases reported

end Donna
