import Mathlib.Data.List.Sort
import Donna.Base.FirstSeen
import Donna.Core.Domain

/-! The Work Router: it picks the execution class of a piece of work from a registry of
capabilities, before any model is chosen. -/

namespace Donna

inductive HealthStatus
  | healthy
  | degraded
  | offline
  deriving DecidableEq

structure RegisteredCapability where
  id : String
  executionClass : ExecutionClass
  provides : List String
  health : HealthStatus
  deriving DecidableEq

structure CapabilityRegistry where
  items : List RegisteredCapability
  deriving DecidableEq

namespace CapabilityRegistry

def register (registry : CapabilityRegistry) (capability : RegisteredCapability) :
    CapabilityRegistry :=
  { items := registry.items ++ [capability] }

/-- Healthy capabilities that satisfy every one of `required`. -/
def healthyProviding (registry : CapabilityRegistry) (required : List String) :
    List RegisteredCapability :=
  registry.items.filter fun capability =>
    capability.health == .healthy && required.all fun name => capability.provides.contains name

end CapabilityRegistry

def classPreference : List ExecutionClass :=
  [.deterministic, .automation, .human, .browser, .codingAgent, .localAi, .cloudAi]

structure WorkRoutingInput where
  requiredCapabilities : List String
  prefersHuman : Option Bool
  needsReasoning : Option Bool
  deriving DecidableEq

inductive WorkRoutingReason
  | humanRequired
  | capabilityMatched
  | aiReasoningRequired
  | noCapabilityFallbackHuman
  deriving DecidableEq

structure WorkRoutingDecision where
  executionClass : ExecutionClass
  capabilityId : Option String
  reason : WorkRoutingReason
  message : String
  deriving DecidableEq

def ExecutionClass.name : ExecutionClass → String
  | .deterministic => "deterministic"
  | .automation => "automation"
  | .human => "human"
  | .browser => "browser"
  | .codingAgent => "coding_agent"
  | .localAi => "local_ai"
  | .cloudAi => "cloud_ai"

/-- The order of `byPreference`, which the stable `sort` keeps within a class. -/
def byPreference (a b : RegisteredCapability) : Prop :=
  classPreference.idxOf a.executionClass ≤ classPreference.idxOf b.executionClass

instance : DecidableRel byPreference :=
  fun _ _ => inferInstanceAs (Decidable (_ ≤ _))

def routeWork (input : WorkRoutingInput) (registry : CapabilityRegistry) : WorkRoutingDecision :=
  if input.prefersHuman = some true then
    { executionClass := .human
      capabilityId := none
      reason := .humanRequired
      message := "Task requires human judgment, ownership, or policy." }
  else
    match (registry.healthyProviding input.requiredCapabilities).insertionSort byPreference with
    | chosen :: _ =>
      { executionClass := chosen.executionClass
        capabilityId := some chosen.id
        reason := .capabilityMatched
        message := "Matched capability \"" ++ chosen.id ++ "\" (" ++ chosen.executionClass.name ++
          ")." }
    | [] =>
      if input.needsReasoning = some true then
        { executionClass := .cloudAi
          capabilityId := none
          reason := .aiReasoningRequired
          message :=
            "No deterministic path; AI reasoning required (Model Router selects model/node)." }
      else
        { executionClass := .human
          capabilityId := none
          reason := .noCapabilityFallbackHuman
          message := "No capability available; routed to a human." }

/-- Every healthy provider of the required set, least complex execution class first. -/
def candidateCapabilities (input : WorkRoutingInput) (registry : CapabilityRegistry) :
    List RegisteredCapability :=
  if input.prefersHuman = some true then []
  else (registry.healthyProviding input.requiredCapabilities).insertionSort byPreference

open FirstSeen in
/-- The execution classes of the fallback chain, without repetitions in the order of the pushes. -/
def candidateClasses (input : WorkRoutingInput) (registry : CapabilityRegistry) :
    List ExecutionClass :=
  let ordered := if input.prefersHuman = some true then push [] .human else []
  let ordered :=
    ((registry.healthyProviding input.requiredCapabilities).insertionSort byPreference).foldl
      (fun ordered capability => push ordered capability.executionClass) ordered
  let ordered := if input.needsReasoning = some true then push ordered .cloudAi else ordered
  push ordered .human

end Donna
