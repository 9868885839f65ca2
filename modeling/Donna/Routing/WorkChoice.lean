import Donna.Routing.WorkRouter

/-! What the Work Router's three functions have in common.  `Matches` states what an order requires
of a capability without the filter that checks it, and `RoutesAgree` is what `routeWork` and the two
lists of candidates say about each other. -/

namespace Donna

/-- A capability that an order with the requirements `required` can be routed to. -/
structure RegisteredCapability.Matches (capability : RegisteredCapability)
    (required : List String) : Prop where
  healthy : capability.health = .healthy
  provides : ∀ name ∈ required, name ∈ capability.provides

instance (capability : RegisteredCapability) (required : List String) :
    Decidable (capability.Matches required) :=
  decidable_of_iff (capability.health = .healthy ∧ ∀ name ∈ required, name ∈ capability.provides)
    ⟨fun ⟨healthy, provides⟩ => ⟨healthy, provides⟩, fun h => ⟨h.healthy, h.provides⟩⟩

namespace CapabilityRegistry

variable {registry : CapabilityRegistry} {required : List String}

theorem healthyProviding_keeps_iff {capability : RegisteredCapability} :
    (capability.health == .healthy && required.all fun name => capability.provides.contains name) =
      true ↔ capability.Matches required := by
  simp only [Bool.and_eq_true, beq_iff_eq, List.all_eq_true, List.contains_iff_mem]
  exact ⟨fun ⟨healthy, provides⟩ => ⟨healthy, provides⟩, fun h => ⟨h.healthy, h.provides⟩⟩

theorem healthyProviding_eq :
    registry.healthyProviding required =
      registry.items.filter fun capability => decide (capability.Matches required) := by
  refine List.filter_congr fun capability _ => ?_
  rw [Bool.eq_iff_iff, healthyProviding_keeps_iff, decide_eq_true_eq]

theorem mem_healthyProviding {capability : RegisteredCapability} :
    capability ∈ registry.healthyProviding required ↔
      capability ∈ registry.items ∧ capability.Matches required := by
  unfold healthyProviding
  rw [List.mem_filter, healthyProviding_keeps_iff]

end CapabilityRegistry

/-! ### The order of preference -/

/-- `a` stands before `b` in `classPreference`. -/
def ExecutionClass.Before (a b : ExecutionClass) : Prop :=
  classPreference.idxOf a < classPreference.idxOf b

instance : DecidableRel ExecutionClass.Before := fun _ _ => inferInstanceAs (Decidable (_ < _))

theorem idxOf_classPreference_injective {a b : ExecutionClass}
    (same : classPreference.idxOf a = classPreference.idxOf b) : a = b := by
  cases a <;> cases b <;> first | rfl | cases same

theorem not_before_iff {a b : ExecutionClass} :
    ¬ a.Before b ↔ classPreference.idxOf b ≤ classPreference.idxOf a := Nat.not_lt

instance : Std.Irrefl ExecutionClass.Before := ⟨fun _ => Nat.lt_irrefl _⟩

instance : Std.Antisymm ExecutionClass.Before :=
  ⟨fun _ _ before after => absurd after (Nat.lt_asymm before)⟩

instance : Std.Total byPreference := ⟨fun _ _ => Nat.le_total _ _⟩

instance : IsTrans RegisteredCapability byPreference := ⟨fun _ _ _ => Nat.le_trans⟩

/-- Cloud AI is the last of the classes. -/
theorem idxOf_le_cloudAi (k : ExecutionClass) :
    classPreference.idxOf k ≤ classPreference.idxOf .cloudAi := by
  cases k <;> decide

/-! ### The three functions -/

section Candidates

variable (input : WorkRoutingInput) (registry : CapabilityRegistry)

/-- The matching capabilities in the order of preference. -/
def rankedMatches : List RegisteredCapability :=
  (registry.healthyProviding input.requiredCapabilities).insertionSort byPreference

theorem mem_rankedMatches {capability : RegisteredCapability} :
    capability ∈ rankedMatches input registry ↔
      capability ∈ registry.items ∧ capability.Matches input.requiredCapabilities := by
  rw [rankedMatches, List.mem_insertionSort, CapabilityRegistry.mem_healthyProviding]

theorem rankedMatches_pairwise : (rankedMatches input registry).Pairwise byPreference :=
  List.pairwise_insertionSort byPreference _

/-- The classes that are pushed between the early human and the last one, in their order. -/
def wantedClasses : List ExecutionClass :=
  (rankedMatches input registry).map RegisteredCapability.executionClass ++
    if input.needsReasoning = some true then [.cloudAi] else []

/-- The classes that are pushed before the last one, in their order. -/
def earlyClasses : List ExecutionClass :=
  (if input.prefersHuman = some true then [.human] else []) ++ wantedClasses input registry

theorem candidateClasses_eq : candidateClasses input registry =
    FirstSeen.push (FirstSeen.pushAll [] (earlyClasses input registry)) .human := by
  unfold candidateClasses earlyClasses wantedClasses
  rw [FirstSeen.pushAll_append, FirstSeen.pushAll_append]
  have sorted (ordered : List ExecutionClass) :
      (rankedMatches input registry).foldl
        (fun ordered capability => FirstSeen.push ordered capability.executionClass) ordered =
      FirstSeen.pushAll ordered
        ((rankedMatches input registry).map RegisteredCapability.executionClass) := by
    rw [FirstSeen.pushAll, List.foldl_map]
  rw [← sorted, rankedMatches]
  dsimp only
  split <;> split <;> rfl

theorem mem_earlyClasses {k : ExecutionClass} : k ∈ earlyClasses input registry ↔
    (k = .human ∧ input.prefersHuman = some true) ∨
      (∃ capability ∈ registry.items,
        capability.Matches input.requiredCapabilities ∧ capability.executionClass = k) ∨
      (k = .cloudAi ∧ input.needsReasoning = some true) := by
  have early : k ∈ (if input.prefersHuman = some true then [ExecutionClass.human] else []) ↔
      k = .human ∧ input.prefersHuman = some true := by
    split <;> simp [*]
  have late : k ∈ (if input.needsReasoning = some true then [ExecutionClass.cloudAi] else []) ↔
      k = .cloudAi ∧ input.needsReasoning = some true := by
    split <;> simp [*]
  have matched : k ∈ (rankedMatches input registry).map RegisteredCapability.executionClass ↔
      ∃ capability ∈ registry.items,
        capability.Matches input.requiredCapabilities ∧ capability.executionClass = k := by
    simp only [List.mem_map, mem_rankedMatches, and_assoc]
  rw [earlyClasses, wantedClasses, List.mem_append, List.mem_append, early, late, matched]

/-- The chain starts with the first class that is pushed. -/
theorem head?_candidateClasses : (candidateClasses input registry).head? =
    some ((earlyClasses input registry).head?.getD .human) := by
  have pushed : candidateClasses input registry =
      FirstSeen.pushAll [] (earlyClasses input registry ++ [.human]) := by
    rw [candidateClasses_eq, FirstSeen.pushAll_append]
    rfl
  rw [pushed]
  cases earlyClasses input registry with
  | nil => rfl
  | cons first rest => exact FirstSeen.head?_pushAll_cons first _

theorem candidateClasses_nodup : (candidateClasses input registry).Nodup := by
  rw [candidateClasses_eq]
  exact FirstSeen.push_nodup _ (FirstSeen.pushAll_nodup _ List.nodup_nil)

theorem mem_candidateClasses {k : ExecutionClass} : k ∈ candidateClasses input registry ↔
    (∃ capability ∈ registry.items,
      capability.Matches input.requiredCapabilities ∧ capability.executionClass = k) ∨
    (k = .cloudAi ∧ input.needsReasoning = some true) ∨ k = .human := by
  rw [candidateClasses_eq, FirstSeen.mem_push, FirstSeen.mem_pushAll, mem_earlyClasses]
  by_cases human : k = .human <;> simp [human]

end Candidates

/-! ### Agreement -/

section Agreement

variable (input : WorkRoutingInput) (registry : CapabilityRegistry)

/-- What the decision, the candidates and the fallback chain say about each other. -/
structure RoutesAgree : Prop where
  classHead : (candidateClasses input registry).head? =
    some (routeWork input registry).executionClass
  capabilityGiven : (routeWork input registry).capabilityId.isSome ↔
    candidateCapabilities input registry ≠ []
  capabilityHead : ∀ chosen, (candidateCapabilities input registry).head? = some chosen →
    (routeWork input registry).capabilityId = some chosen.id ∧
      (routeWork input registry).executionClass = chosen.executionClass
  humanAlone : input.prefersHuman = some true → candidateCapabilities input registry = []
  perm : input.prefersHuman ≠ some true → (candidateCapabilities input registry).Perm
    (registry.items.filter fun capability =>
      decide (capability.Matches input.requiredCapabilities))
  sorted : (candidateCapabilities input registry).Pairwise fun a b =>
    ¬ b.executionClass.Before a.executionClass
  stable : input.prefersHuman ≠ some true → ∀ k,
    ((candidateCapabilities input registry).filter fun capability =>
        capability.executionClass == k) =
      (registry.items.filter fun capability =>
        decide (capability.Matches input.requiredCapabilities)).filter fun capability =>
          capability.executionClass == k
  preferred : input.prefersHuman ≠ some true → ∀ capability ∈ registry.items,
    capability.Matches input.requiredCapabilities →
      ¬ capability.executionClass.Before (routeWork input registry).executionClass

variable {input registry}

theorem candidateCapabilities_of_human (human : input.prefersHuman = some true) :
    candidateCapabilities input registry = [] := if_pos human

theorem candidateCapabilities_of_not_human (human : input.prefersHuman ≠ some true) :
    candidateCapabilities input registry = rankedMatches input registry := if_neg human

/-- The decision is the head of the candidates, and of the classes that are pushed before the
last. -/
theorem routeWork_heads :
    (routeWork input registry).capabilityId =
        (candidateCapabilities input registry).head?.map RegisteredCapability.id ∧
      (∀ chosen, (candidateCapabilities input registry).head? = some chosen →
        (routeWork input registry).executionClass = chosen.executionClass) ∧
      (routeWork input registry).executionClass =
        (earlyClasses input registry).head?.getD .human := by
  by_cases human : input.prefersHuman = some true
  · rw [candidateCapabilities_of_human human]
    simp [routeWork, earlyClasses, human]
  · have ranked : (registry.healthyProviding input.requiredCapabilities).insertionSort
        byPreference = rankedMatches input registry := rfl
    rw [candidateCapabilities_of_not_human human]
    simp only [routeWork, earlyClasses, wantedClasses, human, if_false, ranked, List.nil_append]
    cases rankedMatches input registry with
    | cons chosen rest => simp
    | nil =>
      by_cases reasoning : input.needsReasoning = some true
      · simp [reasoning]
      · simp [reasoning]

variable (input registry) in
theorem routes_agree : RoutesAgree input registry := by
  obtain ⟨capability, chosenClass, firstClass⟩ := @routeWork_heads input registry
  refine {
    classHead := by rw [head?_candidateClasses, firstClass]
    capabilityGiven := ?given
    capabilityHead := fun chosen head => ⟨by rw [capability, head]; rfl, chosenClass chosen head⟩
    humanAlone := candidateCapabilities_of_human
    perm := ?perm
    sorted := ?sorted
    stable := ?stable
    preferred := ?preferred }
  case given =>
    rw [capability]
    cases candidateCapabilities input registry <;> simp
  case perm =>
    intro human
    rw [candidateCapabilities_of_not_human human, rankedMatches,
      CapabilityRegistry.healthyProviding_eq]
    exact List.perm_insertionSort byPreference _
  case sorted =>
    by_cases human : input.prefersHuman = some true
    · rw [candidateCapabilities_of_human human]
      exact List.Pairwise.nil
    · rw [candidateCapabilities_of_not_human human]
      exact (rankedMatches_pairwise input registry).imp fun inOrder => not_before_iff.mpr inOrder
  case stable =>
    intro human k
    rw [candidateCapabilities_of_not_human human, rankedMatches,
      CapabilityRegistry.healthyProviding_eq]
    refine filter_insertionSort byPreference _ (fun a b ha hb => ?_) _
    rw [beq_iff_eq] at ha hb
    exact Nat.le_of_eq (by rw [ha, hb])
  case preferred =>
    intro human other listed matching
    have present := (mem_rankedMatches input registry).mpr ⟨listed, matching⟩
    rw [candidateCapabilities_of_not_human human] at chosenClass
    cases ranked : rankedMatches input registry with
    | nil => simp [ranked] at present
    | cons chosen rest =>
      rw [chosenClass chosen (by rw [ranked]; rfl), not_before_iff]
      have inOrder := rankedMatches_pairwise input registry
      rw [ranked] at present inOrder
      rcases List.mem_cons.mp present with rfl | later
      · exact Nat.le_refl _
      · exact List.rel_of_pairwise_cons inOrder later

end Agreement

end Donna
