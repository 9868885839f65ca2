import Mathlib.Tactic.Linarith
import Donna.Context.Packet

/-! Which items a packet leaves out.  An item that is too large is passed over, and a less important
one behind it may still fit. -/

namespace Donna

variable {Content : Type} {items : List (ContextItem Content)} {budget : ℚ}

/-- No item that is left out is more important than one that is sent. -/
def DropsLeastImportant (packet : ContextPacket Content) : Prop :=
  ∀ out ∈ packet.dropped, ∀ sent ∈ packet.items, ¬ sent.priority < out.priority

/-- The items of higher priority. -/
def outranking (items : List (ContextItem Content)) (priority : ℚ) : List (ContextItem Content) :=
  items.filter fun item => priority < item.priority

/-- The items of one priority, in the order in which they are given. -/
def ranking (items : List (ContextItem Content)) (priority : ℚ) : List (ContextItem Content) :=
  items.filter fun item => item.priority = priority

/-- The room that is left when each item in turn is put in where it fits. -/
def roomLeft (room : ℚ) : List (ContextItem Content) → ℚ
  | [] => room
  | item :: rest =>
    if item.tokens ≤ room then roomLeft (room - item.tokens) rest else roomLeft room rest

/-- Where a priority is the first that overruns the budget, every item of a lower priority is larger
than the room which the items of that priority leave. -/
def NoneSlipsIn (items : List (ContextItem Content)) (budget : ℚ) : Prop :=
  ∀ item ∈ items,
    let spare := budget - tokensOf (outranking items item.priority)
    0 ≤ spare → spare < tokensOf (ranking items item.priority) →
      ∀ lower ∈ items, lower.priority < item.priority →
        roomLeft spare (ranking items item.priority) < lower.tokens

theorem split_at_priority {ranked : List (ContextItem Content)}
    (sorted : ranked.Pairwise byPriority) (priority : ℚ) :
    ranked = outranking ranked priority ++ (ranking ranked priority ++
      ranked.filter fun item => item.priority < priority) := by
  induction sorted with
  | nil => rfl
  | @cons item rest below sorted ih =>
    have notAbove (h : item.priority ≤ priority) : outranking rest priority = [] := by
      refine List.filter_eq_nil_iff.mpr ?_
      intro other listed
      simpa using (below other listed).trans h
    have notAt (h : item.priority < priority) : ranking rest priority = [] := by
      refine List.filter_eq_nil_iff.mpr ?_
      intro other listed
      simpa using ((below other listed).trans_lt h).ne
    simp only [outranking, ranking] at notAbove notAt ih ⊢
    refine (congrArg (item :: ·) ih).trans ?_
    rcases lt_trichotomy item.priority priority with low | same | high
    · simp [notAbove low.le, notAt low, low, low.ne, low.le]
    · simp [notAbove same.le, same]
    · simp [high, high.ne', high.le]

variable (items) in
theorem pairwise_ranked : (items.insertionSort byPriority).Pairwise byPriority :=
  List.pairwise_insertionSort byPriority items

theorem ranking_ranked (priority : ℚ) :
    ranking (items.insertionSort byPriority) priority = ranking items priority := by
  apply filter_insertionSort
  intro a b ha hb
  rw [byPriority, of_decide_eq_true ha, of_decide_eq_true hb]

theorem tokensOf_outranking_ranked (priority : ℚ) :
    tokensOf (outranking (items.insertionSort byPriority) priority) =
      tokensOf (outranking items priority) :=
  (((List.perm_insertionSort byPriority items).filter _).map _).sum_eq

theorem used_eq_roomLeft (filling : Filling (ContextItem Content) ℚ)
    (xs : List (ContextItem Content)) :
    (filling.addAll ContextItem.tokens budget xs).used =
      budget - roomLeft (budget - filling.used) xs := by
  induction xs generalizing filling with
  | nil => simp [roomLeft]
  | cons item rest ih =>
    rw [Filling.addAll_cons, ih, roomLeft]
    by_cases fits : filling.used + item.tokens ≤ budget
    · have room : item.tokens ≤ budget - filling.used := by linarith
      rw [Filling.add_fit fits, if_pos room, sub_sub]
    · have large : ¬ item.tokens ≤ budget - filling.used := fun h => fits (by linarith)
      rw [Filling.add_unfit (not_le.mp fits), if_neg large]

/-! ### When the least important is left out -/

section Classes

variable (items budget) (priority : ℚ)

/-- The selection once the items above a priority were looked at. -/
def selectedAbove : Filling (ContextItem Content) ℚ :=
  Filling.empty.addAll ContextItem.tokens budget
    (outranking (items.insertionSort byPriority) priority)

/-- The selection once the items down to a priority were looked at. -/
def selectedDownTo : Filling (ContextItem Content) ℚ :=
  (selectedAbove items budget priority).addAll ContextItem.tokens budget (ranking items priority)

/-- The ranked items below a priority. -/
def rankedBelow : List (ContextItem Content) :=
  (items.insertionSort byPriority).filter fun item => item.priority < priority

theorem selection_eq :
    Filling.empty.addAll ContextItem.tokens budget (items.insertionSort byPriority) =
      (selectedDownTo items budget priority).addAll ContextItem.tokens budget
        (rankedBelow items priority) := by
  have split := split_at_priority (pairwise_ranked items) priority
  rw [ranking_ranked] at split
  have filled := congrArg (Filling.empty.addAll ContextItem.tokens budget) split
  rw [Filling.addAll_append, Filling.addAll_append] at filled
  exact filled

variable {items budget priority}

theorem mem_outranking {item : ContextItem Content} :
    item ∈ outranking (items.insertionSort byPriority) priority ↔
      item ∈ items ∧ priority < item.priority := by
  rw [outranking, List.mem_filter, List.mem_insertionSort, decide_eq_true_eq]

theorem mem_ranking {item : ContextItem Content} :
    item ∈ ranking items priority ↔ item ∈ items ∧ item.priority = priority := by
  rw [ranking, List.mem_filter, decide_eq_true_eq]

theorem mem_rankedBelow {item : ContextItem Content} :
    item ∈ rankedBelow items priority ↔ item ∈ items ∧ item.priority < priority := by
  rw [rankedBelow, List.mem_filter, List.mem_insertionSort, decide_eq_true_eq]

/-- Where the items above a priority fit, all of them are selected. -/
theorem selectedAbove_eq (nonneg : ∀ item ∈ items, 0 ≤ item.tokens)
    (room : tokensOf (outranking items priority) ≤ budget) :
    selectedAbove items budget priority =
      ⟨outranking (items.insertionSort byPriority) priority, [],
        tokensOf (outranking items priority)⟩ := by
  rw [← tokensOf_outranking_ranked] at room ⊢
  refine (Filling.addAll_fit (fun item h => nonneg item (mem_outranking.mp h).1) ?_).trans ?_
  · simpa [Filling.empty, tokensOf] using room
  · simp [Filling.empty, tokensOf]

/-- What the selection down to a priority takes is of that priority or above. -/
theorem priority_le_of_selectedDownTo {item : ContextItem Content}
    (taken : item ∈ (selectedDownTo items budget priority).taken) : priority ≤ item.priority := by
  obtain ⟨more, -, sublist, -, hTaken, -⟩ := Filling.addAll_split ContextItem.tokens
    budget (selectedAbove items budget priority) (ranking items priority)
  rw [selectedDownTo, hTaken] at taken
  rcases List.mem_append.mp taken with above | at'
  · have listed := (Filling.addAll_taken_sublist _ _ _).subset above
    exact (mem_outranking.mp listed).2.le
  · exact (mem_ranking.mp (sublist.subset at')).2.ge

end Classes

variable (items budget) in
/-- The items that are left out come by descending priority. -/
theorem dropped_pairwise : (buildContextPacket items budget).dropped.Pairwise byPriority := by
  obtain ⟨-, others, -, sublist, -, left⟩ := Filling.addAll_split ContextItem.tokens
    budget .empty (items.insertionSort byPriority)
  have dropped : (buildContextPacket items budget).dropped = others := left
  rw [dropped]
  exact (pairwise_ranked items).sublist sublist

theorem mem_packet_items {item : ContextItem Content} :
    item ∈ (buildContextPacket items budget).items ↔ item ∈
      (Filling.empty.addAll ContextItem.tokens budget (items.insertionSort byPriority)).taken :=
  List.mem_insertionSort byTier

/-- Where the least important is left out, nothing of a lower priority slips in. -/
theorem noneSlipsIn_of_dropsLeastImportant (nonneg : ∀ item ∈ items, 0 ≤ item.tokens)
    (least : DropsLeastImportant (buildContextPacket items budget)) : NoneSlipsIn items budget := by
  intro item _ spare room large lower present below
  by_contra fits
  have above := selectedAbove_eq nonneg (sub_nonneg.mp room)
  have selection := selection_eq items budget item.priority
  have used : (selectedDownTo items budget item.priority).used =
      budget - roomLeft spare (ranking items item.priority) := by
    rw [selectedDownTo, used_eq_roomLeft, above]
  have within : (selectedAbove items budget item.priority).used ≤ budget := by
    rw [above]
    exact sub_nonneg.mp room
  have overrun : budget < (selectedAbove items budget item.priority).used +
      tokensOf (ranking items item.priority) := by
    rw [above]
    exact sub_lt_iff_lt_add'.mp large
  obtain ⟨out, hOut, dropped⟩ := Filling.exists_left within overrun
  have slips : (selectedDownTo items budget item.priority).used + lower.tokens ≤ budget := by
    linarith [not_lt.mp fits]
  obtain ⟨sent, hSent, taken⟩ :=
    Filling.exists_taken (mem_rankedBelow.mpr ⟨present, below⟩) slips
  rw [← selection] at taken
  refine least out ?_ sent (mem_packet_items.mpr taken) ?_
  · have later := Filling.left_subset ContextItem.tokens budget
      (selectedDownTo items budget item.priority) (rankedBelow items item.priority) dropped
    rw [← selection] at later
    exact later
  · exact (mem_rankedBelow.mp hSent).2.trans_le (mem_ranking.mp hOut).2.ge

/-- Everything above an item that is left out first was selected, and the items of its priority
overrun what is left of the budget. -/
theorem overrun_of_first_dropped (nonneg : ∀ item ∈ items, 0 ≤ item.tokens)
    {first : ContextItem Content} (listed : first ∈ (buildContextPacket items budget).dropped)
    (highest : ∀ out ∈ (buildContextPacket items budget).dropped, out.priority ≤ first.priority)
    (room : 0 ≤ budget) :
    tokensOf (outranking items first.priority) ≤ budget ∧
      budget < tokensOf (outranking items first.priority) +
        tokensOf (ranking items first.priority) := by
  have selection := selection_eq items budget first.priority
  have dropped : (buildContextPacket items budget).dropped =
    (Filling.empty.addAll ContextItem.tokens budget (items.insertionSort byPriority)).left := rfl
  rw [dropped, selection] at listed highest
  have above : tokensOf (outranking items first.priority) ≤ budget := by
    by_contra large
    rw [← tokensOf_outranking_ranked] at large
    have overrun : budget < (Filling.empty : Filling (ContextItem Content) ℚ).used +
        tokensOf (outranking (items.insertionSort byPriority) first.priority) := by
      simpa [Filling.empty] using large
    obtain ⟨out, hOut, early⟩ := Filling.exists_left room overrun
    have later := highest out (Filling.left_subset _ _ _ _ (Filling.left_subset _ _ _ _ early))
    exact absurd (mem_outranking.mp hOut).2 (not_lt.mpr later)
  refine ⟨above, ?_⟩
  by_contra fits
  have filled := selectedAbove_eq nonneg above
  have enough : (selectedAbove items budget first.priority).used +
      tokensOf (ranking items first.priority) ≤ budget := by
    rw [filled]
    exact not_lt.mp fits
  have all := Filling.addAll_fit (fun item h => nonneg item (mem_ranking.mp h).1) enough
  obtain ⟨-, others, -, sublist, -, left⟩ := Filling.addAll_split ContextItem.tokens budget
    (selectedDownTo items budget first.priority) (rankedBelow items first.priority)
  rw [left, selectedDownTo, all, filled, List.nil_append] at listed
  exact absurd (mem_rankedBelow.mp (sublist.subset listed)).2 (lt_irrefl _)

/-- Where nothing of a lower priority slips in, the least important is left out. -/
theorem dropsLeastImportant_of_noneSlipsIn (nonneg : ∀ item ∈ items, 0 ≤ item.tokens)
    (room : 0 ≤ budget) (none : NoneSlipsIn items budget) :
    DropsLeastImportant (buildContextPacket items budget) := by
  intro out hOut sent hSent below
  rcases hDropped : (buildContextPacket items budget).dropped with _ | ⟨first, rest⟩
  · rw [hDropped] at hOut
    cases hOut
  have highest : ∀ other ∈ (buildContextPacket items budget).dropped,
      other.priority ≤ first.priority := by
    have sorted := dropped_pairwise items budget
    rw [hDropped] at sorted ⊢
    intro other listed
    rcases List.mem_cons.mp listed with rfl | inRest
    · exact le_rfl
    · exact (List.pairwise_cons.mp sorted).1 other inRest
  have listed : first ∈ (buildContextPacket items budget).dropped := by simp [hDropped]
  obtain ⟨above, overrun⟩ := overrun_of_first_dropped nonneg listed highest room
  have present : first ∈ items := (buildContextPacket_perm items budget).subset
    (List.mem_append_right _ listed)
  have large := none first present (sub_nonneg.mpr above) (by linarith)
  have used : (selectedDownTo items budget first.priority).used = budget -
      roomLeft (budget - tokensOf (outranking items first.priority))
        (ranking items first.priority) := by
    rw [selectedDownTo, used_eq_roomLeft, selectedAbove_eq nonneg above]
  have unfit : ∀ lower ∈ rankedBelow items first.priority,
      budget < (selectedDownTo items budget first.priority).used + lower.tokens := by
    intro lower hLower
    obtain ⟨inItems, under⟩ := mem_rankedBelow.mp hLower
    linarith [large lower inItems under]
  rw [mem_packet_items, selection_eq items budget first.priority, Filling.addAll_unfit unfit]
    at hSent
  have above' := priority_le_of_selectedDownTo hSent
  exact absurd (below.trans_le (highest out hOut)) (not_lt.mpr above')

end Donna
