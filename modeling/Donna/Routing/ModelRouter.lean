import Mathlib.Data.List.Sort
import Donna.Core.Domain

/-! The Model Router: the cheapest model that meets an order's constraints, with the chain of models
to fall back to. -/

namespace Donna

open Js

inductive ModelProvider
  | anthropic
  | openai
  | localNode
  deriving DecidableEq

def ModelProvider.name : ModelProvider → String
  | .anthropic => "anthropic"
  | .openai => "openai"
  | .localNode => "local"

inductive ModelPrivacy
  | cloud
  | localNode
  deriving DecidableEq

structure ModelCapabilityFlags where
  tools : Bool
  vision : Bool
  deriving DecidableEq

/-- A model of the registry; costs are in dollars per million tokens. -/
structure ModelEntry where
  id : String
  provider : ModelProvider
  contextTokens : ℚ
  inputCostPer1M : ℚ
  outputCostPer1M : ℚ
  cachedInputCostPer1M : Option ℚ
  capabilities : ModelCapabilityFlags
  tierRange : ℚ × ℚ
  privacy : ModelPrivacy
  available : Bool
  deriving DecidableEq

structure ModelRoutingInput where
  reasoningTier : ℚ
  needsTools : Option Bool
  needsVision : Option Bool
  requireLocal : Option Bool
  minContextTokens : Option ℚ
  excludeProviders : Option (List ModelProvider) := none
  deriving DecidableEq

structure ModelRoutingDecision where
  model : ModelEntry
  fallbacks : List ModelEntry
  reason : String
  deriving DecidableEq

def isEligible (model : ModelEntry) (input : ModelRoutingInput) : Bool :=
  if !model.available then false
  else if input.needsTools = some true ∧ !model.capabilities.tools then false
  else if input.needsVision = some true ∧ !model.capabilities.vision then false
  else if input.requireLocal = some true ∧ model.privacy ≠ .localNode then false
  else if model.contextTokens < input.minContextTokens.getD 0 then false
  else if input.excludeProviders.any fun excluded => excluded.contains model.provider then false
  else true

/-- The order of `byCost`: cheaper output first, ties by cheaper input. -/
def byCost (a b : ModelEntry) : Prop :=
  a.outputCostPer1M < b.outputCostPer1M ∨
    a.outputCostPer1M = b.outputCostPer1M ∧ a.inputCostPer1M ≤ b.inputCostPer1M

instance : DecidableRel byCost :=
  fun _ _ => inferInstanceAs (Decidable (_ ∨ _ ∧ _))

def routeModel (realm : Realm) (input : ModelRoutingInput) (registry : List ModelEntry) :
    Option ModelRoutingDecision :=
  let eligible := registry.filter fun model => isEligible model input
  let tier := input.reasoningTier
  let coversTier := eligible.filter fun model =>
    decide (model.tierRange.1 ≤ tier) && decide (tier ≤ model.tierRange.2)
  let capableOfTier := eligible.filter fun model => decide (tier ≤ model.tierRange.2)
  let pool := if coversTier.isEmpty then capableOfTier else coversTier
  match pool.insertionSort byCost with
  | [] => none
  | primary :: fallbacks =>
    some {
      model := primary
      fallbacks := fallbacks
      reason :=
        if coversTier.isEmpty then
          "No model covers tier " ++ realm.numberToString (.finite tier) ++
            " exactly; escalated to cheapest capable model " ++ primary.id ++ "."
        else
          "Cheapest model covering tier " ++ realm.numberToString (.finite tier) ++ ": " ++
            primary.id ++ "." }

end Donna
