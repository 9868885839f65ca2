import Donna.Routing.WorkChoice

/-! The fallback chain of execution classes, and what a further capability does to the Work Router's
answers.  `ClassChain` is a well-formed chain, `HumanLast` is where the computed one is well formed,
and `Unaffected` compares the answers for two registries. -/

namespace Donna

/-! ### The chain of classes -/

/-- A well-formed fallback chain for an order. -/
structure ClassChain (input : WorkRoutingInput) (registry : CapabilityRegistry)
    (chain : List ExecutionClass) : Prop where
  distinct : chain.Nodup
  endsAtHuman : chain.getLast? = some .human
  ordered : chain.dropLast.Pairwise ExecutionClass.Before
  holds : ∀ k, k ∈ chain ↔
    (∃ capability ∈ registry.items,
      capability.Matches input.requiredCapabilities ∧ capability.executionClass = k) ∨
    (k = .cloudAi ∧ input.needsReasoning = some true) ∨ k = .human

/-- Where a human is pushed early, no class that belongs before the human at the end is pushed
too. -/
structure HumanLast (input : WorkRoutingInput) (registry : CapabilityRegistry) : Prop where
  preferred : input.prefersHuman = some true → input.needsReasoning ≠ some true ∧
    ∀ capability ∈ registry.items, capability.Matches input.requiredCapabilities →
      capability.executionClass = .human
  matched : input.prefersHuman ≠ some true →
    (∃ capability ∈ registry.items, capability.Matches input.requiredCapabilities ∧
      capability.executionClass = .human) →
    input.needsReasoning ≠ some true ∧
      ∀ capability ∈ registry.items, capability.Matches input.requiredCapabilities →
        ¬ ExecutionClass.Before .human capability.executionClass

section Chain

variable {input : WorkRoutingInput} {registry : CapabilityRegistry}

variable (input registry) in
/-- Without the early human, the classes are pushed in the order of preference. -/
theorem wantedClasses_pairwise : (wantedClasses input registry).Pairwise fun a b =>
    classPreference.idxOf a ≤ classPreference.idxOf b := by
  have matched : ((rankedMatches input registry).map RegisteredCapability.executionClass).Pairwise
      fun a b => classPreference.idxOf a ≤ classPreference.idxOf b :=
    List.pairwise_map.mpr (rankedMatches_pairwise input registry)
  refine List.pairwise_append.mpr ⟨matched, ?_, fun a _ b late => ?_⟩
  · split <;> simp
  · split at late
    · rw [List.mem_singleton.mp late]
      exact idxOf_le_cloudAi a
    · cases late

/-- A list without repetitions in the order of preference is in strict order. -/
theorem before_of_pairwise {classes : List ExecutionClass} (distinct : classes.Nodup)
    (inOrder : classes.Pairwise fun a b => classPreference.idxOf a ≤ classPreference.idxOf b) :
    classes.Pairwise ExecutionClass.Before :=
  (inOrder.and distinct).imp fun ⟨below, unequal⟩ =>
    Nat.lt_of_le_of_ne below fun same => unequal (idxOf_classPreference_injective same)

/-- The pushed classes are in strict order where an early human is alone. -/
theorem pushed_pairwise (alone : input.prefersHuman = some true →
    ∀ k ∈ earlyClasses input registry, k = .human) :
    (FirstSeen.pushAll [] (earlyClasses input registry)).Pairwise ExecutionClass.Before := by
  refine before_of_pairwise (FirstSeen.pushAll_nodup _ List.nodup_nil)
    (List.Pairwise.sublist (FirstSeen.pushAll_sublist [] _) ?_)
  rw [List.nil_append]
  by_cases human : input.prefersHuman = some true
  · apply List.pairwise_of_forall_mem_list
    intro a ha b hb
    rw [alone human a ha, alone human b hb]
  · rw [earlyClasses, if_neg human, List.nil_append]
    exact wantedClasses_pairwise input registry

theorem candidateClasses_of_early (human : .human ∈ earlyClasses input registry) :
    candidateClasses input registry = FirstSeen.pushAll [] (earlyClasses input registry) := by
  rw [candidateClasses_eq]
  exact FirstSeen.push_of_mem (FirstSeen.mem_pushAll.mpr (.inr human))

theorem candidateClasses_of_late (human : .human ∉ earlyClasses input registry) :
    candidateClasses input registry =
      FirstSeen.pushAll [] (earlyClasses input registry) ++ [.human] := by
  rw [candidateClasses_eq]
  apply FirstSeen.push_of_not_mem
  rw [FirstSeen.mem_pushAll]
  exact fun early => early.elim List.not_mem_nil human

theorem humanLast_iff : HumanLast input registry ↔
    (.human ∈ earlyClasses input registry → ∀ k ∈ earlyClasses input registry,
      (input.prefersHuman = some true → k = .human) ∧ ¬ ExecutionClass.Before .human k) := by
  simp only [mem_earlyClasses]
  constructor
  · rintro last early k (⟨rfl, -⟩ | ⟨capability, listed, matching, rfl⟩ | ⟨rfl, reasoning⟩)
    · exact ⟨fun _ => rfl, Nat.lt_irrefl _⟩
    · by_cases human : input.prefersHuman = some true
      · have same := (last.preferred human).2 capability listed matching
        exact ⟨fun _ => same, same ▸ Nat.lt_irrefl _⟩
      · have provider := early.resolve_left fun h => human h.2
        have matched := last.matched human (provider.resolve_right fun h => nomatch h.1)
        exact ⟨fun h => absurd h human, matched.2 capability listed matching⟩
    · by_cases human : input.prefersHuman = some true
      · exact absurd reasoning (last.preferred human).1
      · have provider := early.resolve_left fun h => human h.2
        exact absurd reasoning
          (last.matched human (provider.resolve_right fun h => nomatch h.1)).1
  · intro last
    constructor
    · intro human
      have all := last (.inl ⟨trivial, human⟩)
      refine ⟨fun reasoning => ?_, fun capability listed matching => ?_⟩
      · exact nomatch (all .cloudAi (.inr (.inr ⟨rfl, reasoning⟩))).1 human
      · exact (all _ (.inr (.inl ⟨capability, listed, matching, rfl⟩))).1 human
    · intro _ provider
      have all := last (.inr (.inl provider))
      refine ⟨fun reasoning => ?_, fun capability listed matching => ?_⟩
      · exact (all .cloudAi (.inr (.inr ⟨rfl, reasoning⟩))).2 (by decide)
      · exact (all _ (.inr (.inl ⟨capability, listed, matching, rfl⟩))).2

/-- A chain that starts and ends at one class, without repetitions, holds no other. -/
theorem eq_of_head_last {chain : List ExecutionClass} {k : ExecutionClass}
    (distinct : chain.Nodup) (head : chain.head? = some k) (last : chain.getLast? = some k) :
    ∀ other ∈ chain, other = k := by
  obtain ⟨init, rfl⟩ := List.getLast?_eq_some_iff.mp last
  cases init with
  | nil => simp
  | cons first rest =>
    simp only [List.cons_append, List.head?_cons, Option.some.injEq] at head
    simp [head] at distinct

theorem endsAtHuman_iff (early : .human ∈ earlyClasses input registry) :
    (candidateClasses input registry).getLast? = some .human ↔
      ∀ k ∈ earlyClasses input registry,
        (input.prefersHuman = some true → k = .human) ∧ ¬ ExecutionClass.Before .human k := by
  have pushed := candidateClasses_of_early early
  have present {k : ExecutionClass} :
      k ∈ candidateClasses input registry ↔ k ∈ earlyClasses input registry := by
    rw [pushed, FirstSeen.mem_pushAll]
    simp
  have distinct := candidateClasses_nodup input registry
  constructor
  · intro last k h
    by_cases human : input.prefersHuman = some true
    · have head : (candidateClasses input registry).head? = some .human := by
        rw [head?_candidateClasses, earlyClasses, if_pos human]
        rfl
      have same := eq_of_head_last distinct head last k (present.mpr h)
      exact ⟨fun _ => same, same ▸ Nat.lt_irrefl _⟩
    · refine ⟨fun preferred => absurd preferred human, fun behind => ?_⟩
      have inOrder := @pushed_pairwise input registry fun preferred => absurd preferred human
      rw [← pushed] at inOrder
      obtain ⟨init, chain⟩ := List.getLast?_eq_some_iff.mp last
      rw [← present, chain] at h
      rw [chain] at inOrder
      rcases List.mem_append.mp h with before | same
      · exact Nat.lt_asymm behind
          ((List.pairwise_append.mp inOrder).2.2 k before .human (List.mem_singleton_self _))
      · rw [List.mem_singleton.mp same] at behind
        exact Nat.lt_irrefl _ behind
  · intro last
    have inOrder := @pushed_pairwise input registry fun human k h => (last k h).1 human
    rw [← pushed] at inOrder
    have inhabited : candidateClasses input registry ≠ [] := List.ne_nil_of_mem (present.mpr early)
    obtain ⟨init, final, chain⟩ := (List.eq_nil_or_concat _).resolve_left inhabited
    rw [List.concat_eq_append] at chain
    have held := present.mpr early
    rw [chain] at held inOrder ⊢
    rcases List.mem_append.mp held with before | same
    · have behind := (List.pairwise_append.mp inOrder).2.2 .human before final
        (List.mem_singleton_self final)
      have pushedFinal : final ∈ earlyClasses input registry := by
        rw [← present, chain]
        simp
      exact absurd behind (last final pushedFinal).2
    · rw [List.getLast?_concat, List.mem_singleton.mp same]

variable (input registry) in
/-- The chain is well formed exactly where the human comes last. -/
theorem candidateClasses_wellFormed_iff :
    ClassChain input registry (candidateClasses input registry) ↔ HumanLast input registry := by
  rw [humanLast_iff]
  constructor
  · intro chain early
    exact (endsAtHuman_iff early).mp chain.endsAtHuman
  · intro last
    refine {
      distinct := candidateClasses_nodup input registry
      endsAtHuman := ?ends
      ordered := ?ordered
      holds := fun k => mem_candidateClasses input registry }
    case ends =>
      by_cases early : .human ∈ earlyClasses input registry
      · exact (endsAtHuman_iff early).mpr (last early)
      · rw [candidateClasses_of_late early, List.getLast?_concat]
    case ordered =>
      by_cases early : .human ∈ earlyClasses input registry
      · rw [candidateClasses_of_early early]
        have inOrder := @pushed_pairwise input registry fun human k h => (last early k h).1 human
        exact inOrder.sublist (List.dropLast_sublist _)
      · rw [candidateClasses_of_late early, List.dropLast_concat]
        refine pushed_pairwise fun human => absurd ?_ early
        exact (mem_earlyClasses input registry).mpr (.inl ⟨rfl, human⟩)

/-- A matching human capability goes in front of the cloud, and the human at the end is lost. -/
theorem candidateClasses_human_then_cloud :
    ¬ ∀ (input : WorkRoutingInput) (registry : CapabilityRegistry),
      ClassChain input registry (candidateClasses input registry) := by
  intro holds
  have chain := holds
    { requiredCapabilities := ["t"], prefersHuman := none, needsReasoning := some true }
    { items := [{ id := "person", executionClass := .human, provides := ["t"],
                  health := .healthy }] }
  exact absurd chain.endsAtHuman (by decide)

end Chain

/-! ### A further capability -/

/-- The router answers an order from two registries alike. -/
structure Unaffected (input : WorkRoutingInput) (registry registry' : CapabilityRegistry) :
    Prop where
  executionClass :
    (routeWork input registry').executionClass = (routeWork input registry).executionClass
  capabilityId : (routeWork input registry').capabilityId = (routeWork input registry).capabilityId
  reason : (routeWork input registry').reason = (routeWork input registry).reason
  candidates : candidateCapabilities input registry' = candidateCapabilities input registry
  classes : candidateClasses input registry' = candidateClasses input registry

/-- An irrelevant capability goes unnoticed among `others`: the order requires something, the
capability is not healthy, or the order prefers a human and the fallback chain holds the class of
the capability anyway. -/
def Unnoticed (input : WorkRoutingInput) (others : List RegisteredCapability)
    (capability : RegisteredCapability) : Prop :=
  input.requiredCapabilities ≠ [] ∨ capability.health ≠ .healthy ∨
    (input.prefersHuman = some true ∧
      (capability.executionClass = .human ∨
        (capability.executionClass = .cloudAi ∧ input.needsReasoning = some true) ∨
        ∃ other ∈ others, other.health = .healthy ∧
          other.executionClass = capability.executionClass))

section Insertion

variable {input : WorkRoutingInput} {before after : List RegisteredCapability}
  {capability : RegisteredCapability}

/-- The router sees the registry only through its matches. -/
theorem unaffected_of_healthyProviding_eq {registry registry' : CapabilityRegistry}
    (same : registry'.healthyProviding input.requiredCapabilities =
      registry.healthyProviding input.requiredCapabilities) :
    Unaffected input registry registry' := by
  have decision : routeWork input registry' = routeWork input registry := by
    simp only [routeWork, same]
  constructor
  · rw [decision]
  · rw [decision]
  · rw [decision]
  · simp only [candidateCapabilities, same]
  · simp only [candidateClasses, same]

variable (before after) in
theorem healthyProviding_insert_of_not_matches
    (unmatched : ¬ capability.Matches input.requiredCapabilities) :
    CapabilityRegistry.healthyProviding ⟨before ++ capability :: after⟩
        input.requiredCapabilities =
      CapabilityRegistry.healthyProviding ⟨before ++ after⟩ input.requiredCapabilities := by
  simp only [CapabilityRegistry.healthyProviding_eq, List.filter_append, List.filter_cons,
    unmatched, decide_false]
  rfl

variable (before after) in
/-- A further match is one more candidate. -/
theorem length_healthyProviding_insert_of_matches
    (matching : capability.Matches input.requiredCapabilities) :
    (CapabilityRegistry.healthyProviding ⟨before ++ capability :: after⟩
        input.requiredCapabilities).length =
      (CapabilityRegistry.healthyProviding ⟨before ++ after⟩
        input.requiredCapabilities).length + 1 := by
  simp only [CapabilityRegistry.healthyProviding_eq, List.filter_append, List.filter_cons,
    matching, decide_true, if_true, List.length_append, List.length_cons]
  omega

/-- An irrelevant capability matches only where nothing is required. -/
theorem matches_iff_of_irrelevant
    (irrelevant : ∀ name ∈ input.requiredCapabilities, name ∉ capability.provides) :
    capability.Matches input.requiredCapabilities ↔
      input.requiredCapabilities = [] ∧ capability.health = .healthy := by
  constructor
  · intro matching
    refine ⟨List.eq_nil_iff_forall_not_mem.mpr fun name required => ?_, matching.healthy⟩
    exact irrelevant name required (matching.provides name required)
  · rintro ⟨none, healthy⟩
    exact ⟨healthy, by simp [none]⟩

/-- Behind an early human the classes stand in strict order. -/
theorem candidateClasses_preferred (input : WorkRoutingInput) (registry : CapabilityRegistry)
    (human : input.prefersHuman = some true) :
    ∃ rest, candidateClasses input registry = .human :: rest ∧
      rest.Pairwise ExecutionClass.Before := by
  have early : earlyClasses input registry = .human :: wantedClasses input registry := by
    rw [earlyClasses, if_pos human]
    rfl
  have pushed : candidateClasses input registry =
      FirstSeen.pushAll [] (earlyClasses input registry) :=
    candidateClasses_of_early (early ▸ List.mem_cons_self)
  rw [early] at pushed
  obtain ⟨rest, split⟩ := FirstSeen.prefix_pushAll [.human] (wantedClasses input registry)
  have chain : candidateClasses input registry = .human :: rest := pushed.trans split.symm
  refine ⟨rest, chain, ?_⟩
  have inOrder := FirstSeen.pushAll_sublist [.human] (wantedClasses input registry)
  rw [← split] at inOrder
  have distinct := candidateClasses_nodup input registry
  rw [chain] at distinct
  exact before_of_pairwise (List.nodup_cons.mp distinct).2
    ((wantedClasses_pairwise input registry).sublist (List.cons_sublist_cons.mp inOrder))

/-- An order that prefers a human has one chain for the classes that it holds. -/
theorem candidateClasses_eq_of_mem_iff {registry registry' : CapabilityRegistry}
    (human : input.prefersHuman = some true)
    (same : ∀ k, k ∈ candidateClasses input registry' ↔ k ∈ candidateClasses input registry) :
    candidateClasses input registry' = candidateClasses input registry := by
  obtain ⟨rest, chain, inOrder⟩ := candidateClasses_preferred input registry human
  obtain ⟨rest', chain', inOrder'⟩ := candidateClasses_preferred input registry' human
  have fresh := (List.nodup_cons.mp (chain ▸ candidateClasses_nodup input registry)).1
  have fresh' := (List.nodup_cons.mp (chain' ▸ candidateClasses_nodup input registry')).1
  rw [chain, chain'] at same ⊢
  congr 1
  refine inOrder'.eq_of_mem_iff inOrder fun k => ?_
  by_cases front : k = .human
  · subst front
    exact ⟨fun h => absurd h fresh', fun h => absurd h fresh⟩
  · simpa [front] using same k

/-- Where nothing is required, a further healthy capability adds its class to the chain. -/
theorem mem_candidateClasses_insert (none : input.requiredCapabilities = [])
    (healthy : capability.health = .healthy) {k : ExecutionClass} :
    k ∈ candidateClasses input ⟨before ++ capability :: after⟩ ↔
      k = capability.executionClass ∨ k ∈ candidateClasses input ⟨before ++ after⟩ := by
  have matching : capability.Matches input.requiredCapabilities := ⟨healthy, by simp [none]⟩
  simp only [mem_candidateClasses, List.mem_append, List.mem_cons]
  constructor
  · rintro (⟨other, listed, matched, rfl⟩ | rest)
    · rcases listed with earlier | rfl | later
      · exact .inr (.inl ⟨other, .inl earlier, matched, rfl⟩)
      · exact .inl rfl
      · exact .inr (.inl ⟨other, .inr later, matched, rfl⟩)
    · exact .inr (.inr rest)
  · rintro (rfl | ⟨other, listed, matched, rfl⟩ | rest)
    · exact .inl ⟨capability, .inr (.inl rfl), matching, rfl⟩
    · exact .inl ⟨other, listed.imp_right .inr, matched, rfl⟩
    · exact .inr rest

/-- Behind a preferred human, a healthy capability goes unnoticed where the chain of the others has
its class. -/
theorem unnoticed_iff_mem (human : input.prefersHuman = some true)
    (none : input.requiredCapabilities = []) (healthy : capability.health = .healthy)
    {others : List RegisteredCapability} :
    Unnoticed input others capability ↔
      capability.executionClass ∈ candidateClasses input ⟨others⟩ := by
  have matched (other : RegisteredCapability) :
      other.Matches input.requiredCapabilities ↔ other.health = .healthy :=
    ⟨fun matching => matching.healthy, fun healthy => ⟨healthy, by simp [none]⟩⟩
  simp only [Unnoticed, mem_candidateClasses, matched]
  simp only [none, healthy, human, ne_eq, not_true, false_or, true_and]
  constructor
  · rintro (same | cloud | other)
    · exact .inr (.inr same)
    · exact .inr (.inl cloud)
    · exact .inl other
  · rintro (other | cloud | same)
    · exact .inr (.inr other)
    · exact .inr (.inl cloud)
    · exact .inl same

/-- A further irrelevant capability changes no answer of the router exactly where it goes
unnoticed. -/
theorem routing_unaffected_iff
    (irrelevant : ∀ name ∈ input.requiredCapabilities, name ∉ capability.provides) :
    Unaffected input ⟨before ++ after⟩ ⟨before ++ capability :: after⟩ ↔
      Unnoticed input (before ++ after) capability := by
  have matching := matches_iff_of_irrelevant irrelevant
  by_cases noticed : capability.Matches input.requiredCapabilities
  case neg =>
    have unmatched := healthyProviding_insert_of_not_matches before after noticed
    refine iff_of_true (unaffected_of_healthyProviding_eq unmatched) ?_
    rw [matching, not_and_or] at noticed
    exact noticed.imp_right .inl
  obtain ⟨none, healthy⟩ := matching.mp noticed
  by_cases human : input.prefersHuman = some true
  case neg =>
    -- One candidate more.
    refine iff_of_false (fun unaffected => ?_) ?_
    · have same := congrArg List.length unaffected.candidates
      have more := length_healthyProviding_insert_of_matches before after noticed
      simp only [candidateCapabilities, human, if_false, List.length_insertionSort] at same
      omega
    · simp [Unnoticed, none, healthy, human]
  -- The human is chosen in any case, and only the chain can change.
  rw [unnoticed_iff_mem human none healthy]
  constructor
  · intro unaffected
    rw [← unaffected.classes]
    exact (mem_candidateClasses_insert none healthy).mpr (.inl rfl)
  · intro present
    constructor
    · simp [routeWork, human]
    · simp [routeWork, human]
    · simp [routeWork, human]
    · rw [candidateCapabilities_of_human human, candidateCapabilities_of_human human]
    · exact candidateClasses_eq_of_mem_iff human fun k =>
        (mem_candidateClasses_insert none healthy).trans
          ⟨fun h => h.elim (fun same => same ▸ present) id, .inr⟩

/-- An order that requires nothing, and a capability of another trade. -/
theorem routing_unaffected_iff_crm :
    Unaffected { requiredCapabilities := [], prefersHuman := none, needsReasoning := some true }
        { items := [] }
        { items := [{ id := "ghl", executionClass := .automation, provides := ["crm"],
                      health := .healthy }] } ↔
      Unnoticed
        { requiredCapabilities := [], prefersHuman := none, needsReasoning := some true } []
        { id := "ghl", executionClass := .automation, provides := ["crm"],
          health := .healthy } :=
  @routing_unaffected_iff
    { requiredCapabilities := [], prefersHuman := none, needsReasoning := some true } [] []
    { id := "ghl", executionClass := .automation, provides := ["crm"], health := .healthy }
    (fun _ required => absurd required List.not_mem_nil)

/-- That order goes to the capability, not to the model that it asks for. -/
theorem routing_affected_by_crm :
    ¬ ∀ (input : WorkRoutingInput) (before after : List RegisteredCapability)
        (capability : RegisteredCapability),
      (∀ name ∈ input.requiredCapabilities, name ∉ capability.provides) →
        Unaffected input ⟨before ++ after⟩ ⟨before ++ capability :: after⟩ := by
  intro holds
  have unaffected := holds
    { requiredCapabilities := [], prefersHuman := none, needsReasoning := some true } [] []
    { id := "ghl", executionClass := .automation, provides := ["crm"], health := .healthy }
    (fun _ required => absurd required List.not_mem_nil)
  exact absurd unaffected.executionClass (by decide)

end Insertion

end Donna
