import Donna.Policy.Types

/-! The contracts that the orchestrator works against: normalized failure classes, estimates, usage
and budgets, and the ledger's records. -/

namespace Donna

open Js JsValue

inductive ErrorClass
  | transient
  | rateLimit
  | unavailable
  | auth
  | deterministic
  | unknown
  deriving DecidableEq

/-- Whether a failure is worth retrying, possibly on an alternate adapter, node or model. -/
def isRetryable (cls : ErrorClass) : Bool :=
  cls == .transient || cls == .rateLimit || cls == .unavailable

/-- What a rejected promise carries: an error of the language, or any value that an adapter or a bus
threw. -/
inductive Thrown
  | typeError (error : TypeError)
  | value (value : JsValue)

structure CostEstimate where
  costUsd : ℚ
  latencyMs : ℚ
  confidence : ℚ
  deriving DecidableEq

structure AdapterUsage where
  costUsd : ℚ
  latencyMs : ℚ
  deriving DecidableEq

structure ExecutionContext where
  idempotencyKey : Option String := none
  correlationId : Option String := none
  deriving DecidableEq

/-- The role is whatever string the payload parser let through. -/
structure ModelMessage where
  role : String
  content : String
  deriving DecidableEq

structure ModelRequest where
  messages : List ModelMessage
  maxOutputTokens : Option ℚ
  reasoningTier : Option ℚ
  deriving DecidableEq

structure ModelUsage where
  inputTokens : ℚ
  cachedInputTokens : Option ℚ
  outputTokens : ℚ
  costUsd : ℚ
  latencyMs : ℚ
  deriving DecidableEq

structure ModelResult where
  text : String
  usage : ModelUsage
  deriving DecidableEq

structure UsageRecord where
  modelId : String
  provider : String
  inputTokens : ℚ
  cachedInputTokens : Option ℚ
  outputTokens : ℚ
  costUsd : ℚ
  latencyMs : ℚ
  taskId : Option String
  deriving DecidableEq

inductive BudgetReason
  | ok
  | exceedsBudget
  deriving DecidableEq

structure BudgetCheck where
  allowed : Bool
  remainingUsd : JsNumber
  reason : BudgetReason
  deriving DecidableEq

/-- Whether an estimated spend fits within a budget given what is already spent. -/
def checkBudget (realm : Realm) (budget spentUsd : JsValue) (estimateUsd : ℚ) :
    Except TypeError BudgetCheck := do
  let limit ← budget.get "limitUsd"
  let remaining ← limit.minus realm spentUsd
  let allowed := (JsNumber.finite estimateUsd).le remaining
  pure {
    allowed := allowed
    remainingUsd := remaining
    reason := if allowed then .ok else .exceedsBudget }

/-- A budget as its TypeScript type has it. -/
structure Budget where
  scope : String
  scopeRef : String
  limitUsd : ℚ
  deriving DecidableEq

def Budget.toJs (budget : Budget) : JsValue := .object [
  ("scope", .string budget.scope),
  ("scopeRef", .string budget.scopeRef),
  ("limitUsd", .number (.finite budget.limitUsd))]

theorem checkBudget_toJs (realm : Realm) (budget : Budget) (spentUsd estimateUsd : ℚ) :
    let remaining := JsNumber.round (budget.limitUsd - spentUsd)
    checkBudget realm budget.toJs (.number (.finite spentUsd)) estimateUsd =
      .ok {
        allowed := (JsNumber.finite estimateUsd).le remaining
        remainingUsd := remaining
        reason := if (JsNumber.finite estimateUsd).le remaining then .ok else .exceedsBudget } := by
  simp [checkBudget, Budget.toJs, minus, toNumber, toPrimitive, primitiveToNumber]
  rfl

-- Of 5, where 0.1 is spent, the rounded remainder still has room for 4.9.
example : let dollars := fun q : ℚ => JsNumber.finite (Doubles.nearest q)
    (dollars (49 / 10)).le ((dollars 5).sub (dollars (1 / 10))) = true := by
  decide +kernel

end Donna
