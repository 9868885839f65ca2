import Mathlib.Data.Fintype.Basic
import Mathlib.Data.Rat.Defs
import Mathlib.Algebra.Order.Field.Rat
import Donna.Base.Filling
import Donna.Base.FirstSeen

/-! Context packets: what goes into the working context of a task under its token budget, most
important first, and in which order it is sent. -/

namespace Donna

inductive CacheTier
  | static
  | semiStable
  | dynamic
  deriving DecidableEq

/-- `TIER_ORDER`. -/
def tierOrder : CacheTier → ℕ
  | .static => 0
  | .semiStable => 1
  | .dynamic => 2

structure ContextItem (Content : Type) where
  id : String
  priority : ℚ
  tokens : ℚ
  cacheTier : CacheTier
  content : Option Content
  deriving DecidableEq

structure ContextPacket (Content : Type) where
  items : List (ContextItem Content)
  totalTokens : ℚ
  budgetTokens : ℚ
  dropped : List (ContextItem Content)
  deriving DecidableEq

variable {Content : Type}

/-- The order of the first sort, which is stable. -/
def byPriority (a b : ContextItem Content) : Prop := b.priority ≤ a.priority

/-- The order of the second sort: by tier, and within a tier by priority. -/
def byTier (a b : ContextItem Content) : Prop :=
  if tierOrder a.cacheTier = tierOrder b.cacheTier then b.priority ≤ a.priority
  else tierOrder a.cacheTier < tierOrder b.cacheTier

instance : DecidableRel (@byPriority Content) := fun _ _ => inferInstanceAs (Decidable (_ ≤ _))

instance : DecidableRel (@byTier Content) := fun _ _ => inferInstanceAs (Decidable (ite _ _ _))

/-- Take the items by descending priority while they fit the budget, and order what was taken for
the reuse of the cache. -/
def buildContextPacket (items : List (ContextItem Content)) (budgetTokens : ℚ) :
    ContextPacket Content :=
  let selection := Filling.addAll ContextItem.tokens budgetTokens .empty
    (items.insertionSort byPriority)
  { items := selection.taken.insertionSort byTier
    totalTokens := selection.used
    budgetTokens
    dropped := selection.left }

/-! ### The two sorts -/

instance : Std.Total (@byPriority Content) := ⟨fun a b => le_total b.priority a.priority⟩

instance : IsTrans (ContextItem Content) byPriority := ⟨fun _ _ _ ab bc => le_trans bc ab⟩

theorem byTier_iff {a b : ContextItem Content} : byTier a b ↔
    tierOrder a.cacheTier < tierOrder b.cacheTier ∨
      tierOrder a.cacheTier = tierOrder b.cacheTier ∧ b.priority ≤ a.priority := by
  unfold byTier
  split
  next same => simp [same]
  next other => simp [other]

instance : Std.Total (@byTier Content) where
  total a b := by
    have priorities := le_total a.priority b.priority
    have tiers := lt_trichotomy (tierOrder a.cacheTier) (tierOrder b.cacheTier)
    rw [byTier_iff, byTier_iff]
    rcases tiers with lower | same | higher
    · exact .inl (.inl lower)
    · exact priorities.symm.imp (fun h => .inr ⟨same, h⟩) fun h => .inr ⟨same.symm, h⟩
    · exact .inr (.inl higher)

instance : IsTrans (ContextItem Content) byTier where
  trans a b c ab bc := by
    rw [byTier_iff] at ab bc ⊢
    rcases ab with ab | ⟨ab, first⟩
    · left
      rcases bc with bc | ⟨bc, -⟩ <;> omega
    · rcases bc with bc | ⟨bc, second⟩
      · left
        omega
      · exact .inr ⟨ab.trans bc, second.trans first⟩

/-! ### The packet by the positions of the input -/

/-- The number of tokens of several items. -/
def tokensOf (items : List (ContextItem Content)) : ℚ := (items.map ContextItem.tokens).sum

section Positions

variable (items : List (ContextItem Content))

/-- One position comes before another by descending priority, ties in input order. -/
def RankedBefore (i j : Fin items.length) : Prop :=
  items[j].priority < items[i].priority ∨ items[i].priority = items[j].priority ∧ i < j

/-- One position comes before another by cache tier, then as ranked. -/
def PackedBefore (i j : Fin items.length) : Prop :=
  tierOrder items[i].cacheTier < tierOrder items[j].cacheTier ∨
    tierOrder items[i].cacheTier = tierOrder items[j].cacheTier ∧ RankedBefore items i j

instance : DecidableRel (RankedBefore items) := fun _ _ => inferInstanceAs (Decidable (_ ∨ _))

instance : Std.Asymm (RankedBefore items) where
  asymm i j ij ji := by
    rcases ij with ij | ⟨same, ij⟩
    · rcases ji with ji | ⟨same, -⟩
      · exact lt_asymm ij ji
      · exact absurd same ij.ne
    · rcases ji with ji | ⟨-, ji⟩
      · exact absurd same ji.ne
      · exact lt_asymm ij ji

/-- The positions as the first sort orders their items. -/
def rankedPositions : List (Fin items.length) :=
  (List.finRange items.length).insertionSort (Order.Preimage items.get byPriority)

/-- Sorting positions by their items sorts the items. -/
theorem map_sortPositions (r : ContextItem Content → ContextItem Content → Prop) [DecidableRel r]
    (positions : List (Fin items.length)) :
    (positions.insertionSort (Order.Preimage items.get r)).map items.get =
      (positions.map items.get).insertionSort r :=
  List.map_insertionSort (Order.Preimage items.get r) r items.get positions fun _ _ _ _ => Iff.rfl

theorem map_rankedPositions :
    (rankedPositions items).map items.get = items.insertionSort byPriority := by
  rw [rankedPositions, map_sortPositions, List.map_get_finRange]

theorem mem_rankedPositions (i : Fin items.length) : i ∈ rankedPositions items :=
  (List.mem_insertionSort _).mpr (List.mem_finRange i)

theorem rankedPositions_pairwise : (rankedPositions items).Pairwise (RankedBefore items) := by
  refine (tiebroken_insertionSort (List.pairwise_lt_finRange items.length)).imp ?_
  intro i j ⟨higher, tie⟩
  rcases lt_or_eq_of_le (show items[j].priority ≤ items[i].priority from higher) with h | same
  · exact .inl h
  · exact .inr ⟨same.symm, tie same.ge⟩

/-- The positions that are selected, as they are ranked. -/
def selection (budget : ℚ) : Filling (Fin items.length) ℚ :=
  Filling.addAll (ContextItem.tokens ∘ items.get) budget .empty (rankedPositions items)

/-- The positions that are selected, as they are packed. -/
def packedPositions (budget : ℚ) : List (Fin items.length) :=
  (selection items budget).taken.insertionSort (Order.Preimage items.get byTier)

theorem buildContextPacket_eq (budget : ℚ) : buildContextPacket items budget =
    { items := (packedPositions items budget).map items.get
      totalTokens := (selection items budget).used
      budgetTokens := budget
      dropped := (selection items budget).left.map items.get } := by
  have filled := Filling.addAll_map ContextItem.tokens budget items.get (rankedPositions items)
    .empty
  rw [map_rankedPositions] at filled
  have start : (⟨(Filling.empty : Filling (Fin items.length) ℚ).taken.map items.get,
      (Filling.empty : Filling (Fin items.length) ℚ).left.map items.get,
      (Filling.empty : Filling (Fin items.length) ℚ).used⟩ : Filling (ContextItem Content) ℚ) =
    .empty := rfl
  rw [start] at filled
  unfold buildContextPacket
  rw [filled, packedPositions, map_sortPositions]
  rfl

theorem packedPositions_perm (budget : ℚ) :
    (packedPositions items budget).Perm (selection items budget).taken :=
  List.perm_insertionSort _ _

theorem packedPositions_pairwise (budget : ℚ) :
    (packedPositions items budget).Pairwise (PackedBefore items) := by
  have ranked : (selection items budget).taken.Pairwise (RankedBefore items) :=
    (rankedPositions_pairwise items).sublist (Filling.addAll_taken_sublist _ _ _)
  refine (tiebroken_insertionSort ranked).imp ?_
  intro i j ⟨first, tie⟩
  have order : byTier items[i] items[j] := first
  have back : byTier items[j] items[i] → RankedBefore items i j := tie
  rw [byTier_iff] at order back
  rcases order with lower | ⟨same, higher⟩
  · exact .inl lower
  · refine .inr ⟨same, ?_⟩
    rcases lt_or_eq_of_le higher with h | even
    · exact .inl h
    · exact back (.inr ⟨same.symm, even.ge⟩)

theorem mem_packedPositions_iff {budget : ℚ} (room : 0 ≤ budget) (i : Fin items.length) :
    i ∈ packedPositions items budget ↔
      tokensOf (((packedPositions items budget).filter fun j => RankedBefore items j i).map
        items.get) + items[i].tokens ≤ budget := by
  have perm := packedPositions_perm items budget
  have taken := Filling.mem_taken_iff (ContextItem.tokens ∘ items.get) budget
    (rankedPositions_pairwise items) room (mem_rankedPositions items i)
  rw [perm.mem_iff, selection, taken]
  have sum := ((perm.filter fun j => decide (RankedBefore items j i)).map
    (ContextItem.tokens ∘ items.get)).sum_eq
  rw [tokensOf, List.map_map, sum]
  rfl

end Positions

/-! ### What a packet holds -/

theorem buildContextPacket_perm (items : List (ContextItem Content)) (budget : ℚ) :
    ((buildContextPacket items budget).items ++ (buildContextPacket items budget).dropped).Perm
      items := by
  refine ((List.perm_insertionSort byTier _).append_right _).trans ?_
  exact (Filling.addAll_perm _).trans (List.perm_insertionSort byPriority items)

theorem buildContextPacket_accounted (items : List (ContextItem Content)) {budget : ℚ}
    (room : 0 ≤ budget) :
    let packet := buildContextPacket items budget
    packet.totalTokens = tokensOf packet.items ∧ packet.totalTokens ≤ budget := by
  have accounted := (Filling.empty_accounted ContextItem.tokens budget room).addAll
    (items.insertionSort byPriority)
  refine ⟨accounted.used.trans ?_, accounted.within⟩
  exact (((List.perm_insertionSort byTier _).map ContextItem.tokens).sum_eq).symm

theorem dropped_of_room {items : List (ContextItem Content)} {budget : ℚ}
    (nonneg : ∀ item ∈ items, 0 ≤ item.tokens) (room : tokensOf items ≤ budget) :
    (buildContextPacket items budget).dropped = [] := by
  have perm := List.perm_insertionSort byPriority items
  let ranked := items.insertionSort byPriority
  have filled : Filling.addAll ContextItem.tokens budget .empty ranked =
      ⟨[] ++ ranked, [], 0 + tokensOf ranked⟩ := by
    apply Filling.addAll_fit
    · exact fun item h => nonneg item (perm.mem_iff.mp h)
    · rw [(perm.map ContextItem.tokens).sum_eq]
      simpa [Filling.empty, tokensOf] using room
  unfold buildContextPacket
  rw [filled]

/-- A packet is a partition of the items under the budget.  The positions that are selected are
those whose items fit beside the selected ones ranked before them. -/
theorem buildContextPacket_partition {items : List (ContextItem Content)} {budget : ℚ}
    (nonneg : ∀ item ∈ items, 0 ≤ item.tokens) (room : 0 ≤ budget) :
    let packet := buildContextPacket items budget
    (packet.items ++ packet.dropped).Perm items ∧
    packet.totalTokens = tokensOf packet.items ∧ packet.totalTokens ≤ budget ∧
    (∃ selected : List (Fin items.length), packet.items = selected.map items.get ∧
      selected.Pairwise (PackedBefore items) ∧
      ∀ i, i ∈ selected ↔
        tokensOf ((selected.filter fun j => RankedBefore items j i).map items.get) +
          items[i].tokens ≤ budget) ∧
    ∀ larger, tokensOf items ≤ larger → (buildContextPacket items larger).dropped = [] := by
  intro packet
  obtain ⟨total, within⟩ := buildContextPacket_accounted items room
  refine ⟨buildContextPacket_perm items budget, total, within, ?_, ?_⟩
  · refine ⟨packedPositions items budget, ?_, packedPositions_pairwise items budget,
      mem_packedPositions_iff items room⟩
    exact congrArg ContextPacket.items (buildContextPacket_eq items budget)
  · exact fun larger enough => dropped_of_room nonneg enough

/-- Two equal items of which one fits, behind an item of another tier. -/
theorem buildContextPacket_partition_example :
    let item : ContextItem Unit := ⟨"a", 1, 60, .static, none⟩
    let items := [item, ⟨"b", 2, 40, .dynamic, none⟩, item]
    let packet := buildContextPacket items 100
    packet.items.length = 2 ∧ packet.dropped = [item] ∧
      (packet.items ++ packet.dropped).Perm items := by
  refine ⟨by decide +kernel, by decide +kernel, ?_⟩
  refine (buildContextPacket_partition ?_ ?_).1
  · decide
  · decide

end Donna
