import Donna.Routing.ModelRouter
import Mathlib.Tactic.Linarith

/-! What the Model Router chooses.  `Meets` states an order's constraints without the filter that
checks them, and `Choice` is what a decision of the router is: a chain of the registry's capable
models, cheapest first, whose head covers the tier where any model does. -/

namespace Donna

open Js

/-- The constraints of a request other than the tier. -/
structure ModelEntry.Meets (model : ModelEntry) (input : ModelRoutingInput) : Prop where
  available : model.available = true
  tools : input.needsTools = some true → model.capabilities.tools = true
  vision : input.needsVision = some true → model.capabilities.vision = true
  locality : input.requireLocal = some true → model.privacy = .localNode
  context : input.minContextTokens.getD 0 ≤ model.contextTokens
  provider : ∀ excluded, input.excludeProviders = some excluded → model.provider ∉ excluded

theorem isEligible_iff {model : ModelEntry} {input : ModelRoutingInput} :
    isEligible model input = true ↔ model.Meets input := by
  have provider : (input.excludeProviders.any fun excluded => excluded.contains model.provider) =
      false ↔ ∀ excluded, input.excludeProviders = some excluded → model.provider ∉ excluded := by
    cases input.excludeProviders <;> simp
  have gates : isEligible model input = true ↔ model.available = true ∧
      (input.needsTools = some true → model.capabilities.tools = true) ∧
      (input.needsVision = some true → model.capabilities.vision = true) ∧
      (input.requireLocal = some true → model.privacy = .localNode) ∧
      input.minContextTokens.getD 0 ≤ model.contextTokens ∧
      (input.excludeProviders.any fun excluded => excluded.contains model.provider) = false := by
    simp [isEligible, imp_iff_not_or]
  rw [gates, provider]
  constructor
  · rintro ⟨available, tools, vision, locality, context, provider⟩
    exact ⟨available, tools, vision, locality, context, provider⟩
  · rintro ⟨available, tools, vision, locality, context, provider⟩
    exact ⟨available, tools, vision, locality, context, provider⟩

def ModelEntry.Covers (model : ModelEntry) (tier : ℚ) : Prop :=
  model.tierRange.1 ≤ tier ∧ tier ≤ model.tierRange.2

/-! ### The order of costs -/

/-- The number that the comparator gives: the difference of the output costs, or where they are
equal that of the input costs. -/
def costDifference (a b : ModelEntry) : ℚ :=
  if a.outputCostPer1M - b.outputCostPer1M ≠ 0 then a.outputCostPer1M - b.outputCostPer1M
  else a.inputCostPer1M - b.inputCostPer1M

theorem byCost_iff_costDifference (a b : ModelEntry) : byCost a b ↔ costDifference a b ≤ 0 := by
  unfold byCost costDifference
  by_cases same : a.outputCostPer1M - b.outputCostPer1M = 0
  · have equal : a.outputCostPer1M = b.outputCostPer1M := sub_eq_zero.mp same
    simp [equal]
  · have unequal : a.outputCostPer1M ≠ b.outputCostPer1M := sub_ne_zero.mp same
    simp [same, unequal, lt_iff_le_and_ne]

theorem costDifference_swap (a b : ModelEntry) : costDifference b a = -costDifference a b := by
  unfold costDifference
  by_cases same : a.outputCostPer1M = b.outputCostPer1M
  · rw [if_neg (by simp [same]), if_neg (by simp [same])]
    ring
  · rw [if_pos (sub_ne_zero.mpr (Ne.symm same)), if_pos (sub_ne_zero.mpr same)]
    ring

def ModelEntry.CheaperThan (a b : ModelEntry) : Prop := costDifference a b < 0

theorem ModelEntry.not_cheaperThan {a b : ModelEntry} (h : byCost a b) : ¬ b.CheaperThan a := by
  have lower : costDifference a b ≤ 0 := (byCost_iff_costDifference a b).mp h
  rw [CheaperThan, costDifference_swap]
  linarith

theorem byCost_total (a b : ModelEntry) : byCost a b ∨ byCost b a := by
  rcases lt_trichotomy a.outputCostPer1M b.outputCostPer1M with lower | same | higher
  · exact .inl (.inl lower)
  · exact (le_total a.inputCostPer1M b.inputCostPer1M).imp (.inr ⟨same, ·⟩) (.inr ⟨same.symm, ·⟩)
  · exact .inr (.inl higher)

theorem byCost_trans {a b c : ModelEntry} (first : byCost a b) (second : byCost b c) :
    byCost a c := by
  rcases first with lower | ⟨same, lower⟩ <;> rcases second with lower' | ⟨same', lower'⟩
  · exact .inl (lower.trans lower')
  · exact .inl (same' ▸ lower)
  · exact .inl (same ▸ lower')
  · exact .inr ⟨same.trans same', lower.trans lower'⟩

instance : Std.Total byCost := ⟨byCost_total⟩

instance : IsTrans ModelEntry byCost := ⟨fun _ _ _ => byCost_trans⟩

/-! ### The choice -/

/-- A model that a request at its tier can run on. -/
def ModelEntry.Serves (model : ModelEntry) (input : ModelRoutingInput) : Prop :=
  model.Meets input ∧ input.reasoningTier ≤ model.tierRange.2

/-- The pool that a primary is chosen from: the models that cover the tier, or every capable one
where none covers it. -/
def ModelEntry.InPool (registry : List ModelEntry) (input : ModelRoutingInput)
    (model : ModelEntry) : Prop :=
  model ∈ registry ∧ model.Serves input ∧
    ((∃ other ∈ registry, other.Meets input ∧ other.Covers input.reasoningTier) →
      model.Covers input.reasoningTier)

/-- The chain of a decision: the primary, then the fallbacks. -/
def ModelRoutingDecision.chain (decision : ModelRoutingDecision) : List ModelEntry :=
  decision.model :: decision.fallbacks

/-- What a decision of the router is. -/
structure Choice (registry : List ModelEntry) (input : ModelRoutingInput)
    (decision : ModelRoutingDecision) : Prop where
  listed : decision.chain.Subperm registry
  sorted : decision.chain.Pairwise byCost
  serves : ∀ model ∈ decision.chain, model.Serves input
  covers : (∃ model ∈ registry, model.Meets input ∧ model.Covers input.reasoningTier) →
    decision.model.Covers input.reasoningTier
  cheapest : ∀ model : ModelEntry, model.InPool registry input →
    ¬ model.CheaperThan decision.model

section Route

variable (input : ModelRoutingInput) (registry : List ModelEntry)

def coveringPool : List ModelEntry :=
  (registry.filter fun model => isEligible model input).filter fun model =>
    decide (model.tierRange.1 ≤ input.reasoningTier) &&
      decide (input.reasoningTier ≤ model.tierRange.2)

def capablePool : List ModelEntry :=
  (registry.filter fun model => isEligible model input).filter fun model =>
    decide (input.reasoningTier ≤ model.tierRange.2)

/-- The models that the router sorts. -/
def modelPool : List ModelEntry :=
  if (coveringPool input registry).isEmpty then capablePool input registry
  else coveringPool input registry

variable {input : ModelRoutingInput} {registry : List ModelEntry}

theorem mem_coveringPool {model : ModelEntry} : model ∈ coveringPool input registry ↔
    model ∈ registry ∧ model.Meets input ∧ model.Covers input.reasoningTier := by
  simp only [coveringPool, List.mem_filter, isEligible_iff, Bool.and_eq_true, decide_eq_true_eq,
    ModelEntry.Covers, and_assoc]

theorem mem_capablePool {model : ModelEntry} : model ∈ capablePool input registry ↔
    model ∈ registry ∧ model.Serves input := by
  simp only [capablePool, List.mem_filter, isEligible_iff, decide_eq_true_eq, ModelEntry.Serves,
    and_assoc]

theorem mem_modelPool {model : ModelEntry} :
    model ∈ modelPool input registry ↔ model.InPool registry input := by
  unfold modelPool
  split
  next empty =>
    have uncovered : ¬ ∃ other ∈ registry, other.Meets input ∧
        other.Covers input.reasoningTier := by
      rintro ⟨other, covering⟩
      rw [List.isEmpty_iff] at empty
      simpa [empty] using mem_coveringPool.mpr covering
    simp [mem_capablePool, ModelEntry.InPool, uncovered]
  next inhabited =>
    obtain ⟨other, present⟩ := List.exists_mem_of_ne_nil _ (mt List.isEmpty_iff.mpr inhabited)
    have covered := mem_coveringPool.mp present
    rw [mem_coveringPool]
    constructor
    · rintro ⟨listed, meets, covers⟩
      exact ⟨listed, ⟨meets, covers.2⟩, fun _ => covers⟩
    · rintro ⟨listed, serves, covers⟩
      exact ⟨listed, serves.1, covers ⟨other, covered⟩⟩

theorem modelPool_subperm : (modelPool input registry).Subperm registry := by
  unfold modelPool
  split <;> exact (List.filter_sublist.trans List.filter_sublist).subperm

variable (input registry) in
/-- The router decides the sorted pool, cut into its head and the rest. -/
theorem routeModel_chain (realm : Realm) :
    (routeModel realm input registry).elim [] ModelRoutingDecision.chain =
      (modelPool input registry).insertionSort byCost := by
  unfold routeModel
  dsimp only
  split
  · next empty => exact empty.symm
  · next primary fallbacks sorted => exact sorted.symm

/-- The pool is empty only where no model can serve. -/
theorem modelPool_eq_nil_iff :
    modelPool input registry = [] ↔ ∀ model ∈ registry, ¬ model.Serves input := by
  constructor
  · intro empty model listed serves
    have capable := mem_capablePool.mpr ⟨listed, serves⟩
    unfold modelPool at empty
    split at empty
    next => simp [empty] at capable
    next inhabited => exact inhabited (by simp [empty])
  · intro none
    refine List.eq_nil_iff_forall_not_mem.mpr fun model present => ?_
    obtain ⟨listed, serves, -⟩ := mem_modelPool.mp present
    exact none model listed serves

theorem routeModel_eq_none_iff (realm : Realm) :
    routeModel realm input registry = none ↔ ∀ model ∈ registry, ¬ model.Serves input := by
  have chain := routeModel_chain input registry realm
  rw [← modelPool_eq_nil_iff, ← List.length_eq_zero_iff, ← List.length_insertionSort byCost,
    ← chain]
  cases routeModel realm input registry with
  | none => simp
  | some decision => simp [ModelRoutingDecision.chain]

/-- What the router decides is a choice. -/
theorem routeModel_choice {realm : Realm} {decision : ModelRoutingDecision}
    (routed : routeModel realm input registry = some decision) :
    Choice registry input decision := by
  have chain : decision.chain = (modelPool input registry).insertionSort byCost := by
    simpa [routed] using routeModel_chain input registry realm
  have pooled : ∀ {model}, model ∈ decision.chain ↔ model.InPool registry input := by
    intro model
    rw [chain, List.mem_insertionSort, mem_modelPool]
  have sorted : decision.chain.Pairwise byCost := chain ▸ List.pairwise_insertionSort byCost _
  have head : decision.model ∈ decision.chain := List.mem_cons_self
  refine {
    listed := (chain ▸ List.perm_insertionSort byCost _).subperm.trans modelPool_subperm
    sorted := sorted
    serves := fun model present => (pooled.mp present).2.1
    covers := (pooled.mp head).2.2
    cheapest := ?_ }
  intro model inPool
  rcases List.mem_cons.mp (pooled.mpr inPool) with rfl | later
  · simp [ModelEntry.CheaperThan, costDifference]
  · exact ModelEntry.not_cheaperThan (List.rel_of_pairwise_cons sorted later)

end Route

end Donna
