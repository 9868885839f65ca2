import Mathlib.Algebra.Order.BigOperators.Group.List

/-! First-fit filling of a bounded space: what comes is put in when it still fits beside what is
there, and left out otherwise. -/

namespace Donna

structure Filling (α M : Type) where
  taken : List α
  left : List α
  used : M

namespace Filling

variable {α β M : Type} [AddCommMonoid M] [LinearOrder M]

def empty : Filling α M := ⟨[], [], 0⟩

variable (weight : α → M) (capacity : M)

def add (filling : Filling α M) (x : α) : Filling α M :=
  if filling.used + weight x ≤ capacity then
    { filling with taken := filling.taken ++ [x], used := filling.used + weight x }
  else
    { filling with left := filling.left ++ [x] }

def addAll (filling : Filling α M) (xs : List α) : Filling α M :=
  xs.foldl (add weight capacity) filling

variable {weight capacity} {filling : Filling α M}

@[simp] theorem addAll_nil : addAll weight capacity filling [] = filling := rfl

@[simp] theorem addAll_cons (x : α) (xs : List α) :
    addAll weight capacity filling (x :: xs) =
      addAll weight capacity (add weight capacity filling x) xs := rfl

theorem addAll_append (xs ys : List α) : addAll weight capacity filling (xs ++ ys) =
    addAll weight capacity (addAll weight capacity filling xs) ys := List.foldl_append

theorem add_fit {x : α} (fits : filling.used + weight x ≤ capacity) :
    add weight capacity filling x =
      { filling with taken := filling.taken ++ [x], used := filling.used + weight x } :=
  if_pos fits

theorem add_unfit {x : α} (large : capacity < filling.used + weight x) :
    add weight capacity filling x = { filling with left := filling.left ++ [x] } :=
  if_neg (not_le.mpr large)

/-! ### What a filling keeps -/

/-- The space in use is the weight of what was taken, and within the capacity. -/
structure Accounted (weight : α → M) (capacity : M) (filling : Filling α M) : Prop where
  used : filling.used = (filling.taken.map weight).sum
  within : filling.used ≤ capacity

variable (weight capacity) in
theorem empty_accounted (room : 0 ≤ capacity) : Accounted weight capacity empty := ⟨rfl, room⟩

theorem Accounted.add (accounted : Accounted weight capacity filling) (x : α) :
    Accounted weight capacity (add weight capacity filling x) := by
  by_cases fits : filling.used + weight x ≤ capacity
  · rw [add_fit fits]
    refine ⟨?_, fits⟩
    rw [List.map_append, List.sum_append, ← accounted.used, List.map_singleton, List.sum_singleton]
  · rw [add_unfit (not_le.mp fits)]
    exact ⟨accounted.used, accounted.within⟩

theorem Accounted.addAll (accounted : Accounted weight capacity filling) (xs : List α) :
    Accounted weight capacity (addAll weight capacity filling xs) := by
  induction xs generalizing filling with
  | nil => exact accounted
  | cons x xs ih => exact ih (accounted.add x)

theorem add_perm (x : α) : ((add weight capacity filling x).taken ++
    (add weight capacity filling x).left).Perm (filling.taken ++ filling.left ++ [x]) := by
  unfold add
  split
  · rw [List.append_assoc, List.append_assoc]
    exact List.perm_append_comm.append_left filling.taken
  · rw [List.append_assoc]

/-- Nothing is lost and nothing is doubled. -/
theorem addAll_perm (xs : List α) : ((addAll weight capacity filling xs).taken ++
    (addAll weight capacity filling xs).left).Perm (filling.taken ++ filling.left ++ xs) := by
  induction xs generalizing filling with
  | nil => simp
  | cons x xs ih =>
    refine ih.trans ?_
    rw [← List.singleton_append, ← List.append_assoc]
    exact (add_perm x).append_right xs

variable (weight capacity filling) in
/-- What comes is added behind what was there, in the order in which it comes. -/
theorem addAll_split (xs : List α) : ∃ more others, more.Sublist xs ∧ others.Sublist xs ∧
    (addAll weight capacity filling xs).taken = filling.taken ++ more ∧
    (addAll weight capacity filling xs).left = filling.left ++ others := by
  induction xs generalizing filling with
  | nil => exact ⟨[], [], .refl _, .refl _, (List.append_nil _).symm, (List.append_nil _).symm⟩
  | cons x xs ih =>
    obtain ⟨more, others, hMore, hOthers, taken, left⟩ := ih (add weight capacity filling x)
    rw [addAll_cons, taken, left]
    by_cases fits : filling.used + weight x ≤ capacity
    · rw [add_fit fits]
      exact ⟨x :: more, others, hMore.cons_cons x, hOthers.cons x, by simp, rfl⟩
    · rw [add_unfit (not_le.mp fits)]
      exact ⟨more, x :: others, hMore.cons x, hOthers.cons_cons x, rfl, by simp⟩

variable (weight capacity filling) in
theorem taken_subset (xs : List α) : filling.taken ⊆ (addAll weight capacity filling xs).taken := by
  obtain ⟨more, -, -, -, taken, -⟩ := addAll_split weight capacity filling xs
  rw [taken]
  exact List.subset_append_left filling.taken more

variable (weight capacity filling) in
theorem left_subset (xs : List α) : filling.left ⊆ (addAll weight capacity filling xs).left := by
  obtain ⟨-, others, -, -, -, left⟩ := addAll_split weight capacity filling xs
  rw [left]
  exact List.subset_append_left filling.left others

variable (weight capacity) in
theorem addAll_taken_sublist (xs : List α) :
    (addAll weight capacity (empty : Filling α M) xs).taken.Sublist xs := by
  obtain ⟨more, -, sublist, -, taken, -⟩ := addAll_split weight capacity empty xs
  rw [taken]
  exact sublist

variable (weight capacity) in
/-- Renaming what comes renames what is taken and what is left out. -/
theorem addAll_map (f : β → α) (xs : List β) (start : Filling β M) :
    addAll weight capacity ⟨start.taken.map f, start.left.map f, start.used⟩ (xs.map f) =
      let filled := addAll (weight ∘ f) capacity start xs
      ⟨filled.taken.map f, filled.left.map f, filled.used⟩ := by
  induction xs generalizing start with
  | nil => rfl
  | cons x xs ih =>
    rw [List.map_cons, addAll_cons, addAll_cons, ← ih]
    congr 1
    unfold add
    simp only [Function.comp_apply]
    split
    · simp
    · simp

/-! ### Which are taken -/

variable (weight capacity) in
/-- Of distinct things in a strict order, one is taken exactly when it fits beside those taken
before it. -/
theorem mem_taken_iff {before : α → α → Prop} [DecidableRel before] [Std.Asymm before]
    {xs : List α} (ordered : xs.Pairwise before) (room : 0 ≤ capacity) {x : α} (present : x ∈ xs) :
    x ∈ (addAll weight capacity empty xs).taken ↔
      (((addAll weight capacity empty xs).taken.filter fun y => before y x).map weight).sum +
        weight x ≤ capacity := by
  obtain ⟨earlier, later, rfl⟩ := List.append_of_mem present
  obtain ⟨-, behind, across⟩ := List.pairwise_append.mp ordered
  have ahead : ∀ y ∈ earlier, before y x := fun y h => across y h x List.mem_cons_self
  have after : ∀ y ∈ later, before x y := (List.pairwise_cons.mp behind).1
  let prior := addAll weight capacity (empty : Filling α M) earlier
  have priorAhead : ∀ y ∈ prior.taken, before y x :=
    fun y h => ahead y ((addAll_taken_sublist weight capacity earlier).subset h)
  obtain ⟨more, -, sublist, -, taken, -⟩ := addAll_split weight capacity
    (add weight capacity prior x) later
  have moreAfter : ∀ y ∈ more, ¬ before y x :=
    fun y h => Std.Asymm.asymm x y (after y (sublist.subset h))
  have self : ¬ before x x := fun h => Std.Asymm.asymm x x h h
  have keepPrior : prior.taken.filter (fun y => decide (before y x)) = prior.taken :=
    List.filter_eq_self.mpr fun y h => decide_eq_true (priorAhead y h)
  have keepMore : more.filter (fun y => decide (before y x)) = [] :=
    List.filter_eq_nil_iff.mpr fun y h => by simpa using moreAfter y h
  have accounted : Accounted weight capacity prior :=
    (empty_accounted weight capacity room).addAll earlier
  rw [addAll_append, addAll_cons, taken]
  by_cases fits : prior.used + weight x ≤ capacity
  · rw [add_fit fits, List.filter_append, List.filter_append, keepPrior, keepMore]
    simpa [self, ← accounted.used] using fits
  · rw [add_unfit (not_le.mp fits), List.filter_append, keepPrior, keepMore, List.append_nil,
      ← accounted.used]
    refine iff_of_false ?_ fits
    intro listed
    rcases List.mem_append.mp listed with early | late
    · exact self (priorAhead x early)
    · exact self (after x (sublist.subset late))

/-! ### What fits and what does not -/

section Room

variable [IsOrderedAddMonoid M]

/-- Things that fit together are all taken. -/
theorem addAll_fit {xs : List α} (nonneg : ∀ x ∈ xs, 0 ≤ weight x)
    (fits : filling.used + (xs.map weight).sum ≤ capacity) :
    addAll weight capacity filling xs =
      ⟨filling.taken ++ xs, filling.left, filling.used + (xs.map weight).sum⟩ := by
  induction xs generalizing filling with
  | nil => simp
  | cons x xs ih =>
    obtain ⟨-, nonneg'⟩ := List.forall_mem_cons.mp nonneg
    rw [List.map_cons, List.sum_cons, ← add_assoc] at fits
    have rest : 0 ≤ (xs.map weight).sum :=
      List.sum_nonneg (by simpa using nonneg')
    have now : filling.used + weight x ≤ capacity := (le_add_of_nonneg_right rest).trans fits
    rw [addAll_cons, add_fit now, ih nonneg' fits]
    simp [add_assoc]

end Room

/-- Where things are too large together, one of them is left out. -/
theorem exists_left {xs : List α} (within : filling.used ≤ capacity)
    (large : capacity < filling.used + (xs.map weight).sum) :
    ∃ x ∈ xs, x ∈ (addAll weight capacity filling xs).left := by
  induction xs generalizing filling with
  | nil => simp [not_lt.mpr within] at large
  | cons x xs ih =>
    by_cases fits : filling.used + weight x ≤ capacity
    · rw [List.map_cons, List.sum_cons, ← add_assoc] at large
      obtain ⟨y, hy, out⟩ := @ih ⟨filling.taken ++ [x], filling.left, filling.used + weight x⟩
        fits large
      rw [addAll_cons, add_fit fits]
      exact ⟨y, List.mem_cons_of_mem x hy, out⟩
    · refine ⟨x, List.mem_cons_self, ?_⟩
      rw [addAll_cons, add_unfit (not_le.mp fits)]
      exact left_subset _ _ _ xs (by simp)

/-- Where one of the things fits, one of them is taken. -/
theorem exists_taken {xs : List α} {x : α} (present : x ∈ xs)
    (fits : filling.used + weight x ≤ capacity) :
    ∃ y ∈ xs, y ∈ (addAll weight capacity filling xs).taken := by
  induction xs generalizing filling with
  | nil => cases present
  | cons y xs ih =>
    by_cases now : filling.used + weight y ≤ capacity
    · refine ⟨y, List.mem_cons_self, ?_⟩
      rw [addAll_cons, add_fit now]
      exact taken_subset _ _ _ xs (by simp)
    · have later : x ∈ xs := (List.mem_cons.mp present).resolve_left fun h => now (h ▸ fits)
      obtain ⟨z, hz, chosen⟩ := @ih ⟨filling.taken, filling.left ++ [y], filling.used⟩ later fits
      rw [addAll_cons, add_unfit (not_le.mp now)]
      exact ⟨z, List.mem_cons_of_mem y hz, chosen⟩

/-- Things that are each too large are all left out. -/
theorem addAll_unfit {xs : List α} (large : ∀ x ∈ xs, capacity < filling.used + weight x) :
    addAll weight capacity filling xs = { filling with left := filling.left ++ xs } := by
  induction xs generalizing filling with
  | nil => simp
  | cons x xs ih =>
    obtain ⟨now, later⟩ := List.forall_mem_cons.mp large
    have rest := @ih ⟨filling.taken, filling.left ++ [x], filling.used⟩ later
    rw [addAll_cons, add_unfit now, rest]
    simp

end Filling

end Donna
