import Mathlib.Data.List.Nodup
import Mathlib.Data.List.Sort

/-! Queries that are sorted by a key.  Rows with one key may come in any order, so a query has
several results; it has one, the order of the rows themselves, exactly when they stand in strictly
rising order. -/

namespace Donna

variable {α β : Type} [LinearOrder β]

/-- A result that `ORDER BY key` permits for `rows`. -/
structure OrderedBy (key : α → β) (rows ordered : List α) : Prop where
  perm : ordered.Perm rows
  sorted : ordered.Pairwise fun first second => key first ≤ key second

variable {key : α → β} {rows ordered : List α}

/-- Of two rows of a list without repetitions only one comes first. -/
theorem not_sublist_swap (distinct : rows.Nodup) {first second : α}
    (forward : [first, second].Sublist rows) : ¬ [second, first].Sublist rows := by
  intro backward
  induction rows with
  | nil => cases forward
  | cons row rest ih =>
    obtain ⟨fresh, distinctRest⟩ := List.nodup_cons.mp distinct
    cases forward with
    | cons _ forward =>
      cases backward with
      | cons _ backward => exact ih distinctRest forward backward
      | cons_cons _ _ => exact fresh (forward.subset (by simp))
    | cons_cons _ later =>
      cases backward with
      | cons _ backward => exact fresh (backward.subset (by simp))
      | cons_cons _ _ => exact fresh (later.subset (by simp))

theorem exists_orderedBy (key : α → β) (rows : List α) :
    ∃ ordered, OrderedBy key rows ordered := by
  let oldestFirst := fun first second => key first ≤ key second
  have total : Std.Total oldestFirst := ⟨fun first second => le_total (key first) (key second)⟩
  have trans : IsTrans α oldestFirst := ⟨fun _ _ _ => le_trans⟩
  exact ⟨_, List.perm_insertionSort oldestFirst _, List.pairwise_insertionSort oldestFirst _⟩

/-- Two rows with one key may come in either order. -/
theorem exists_orderedBy_swap {first second : α} (tie : key first = key second)
    (forward : [first, second].Sublist rows) :
    ∃ ordered, OrderedBy key rows ordered ∧ [second, first].Sublist ordered := by
  classical
  let oldestFirst := fun first second => key first ≤ key second
  have total : Std.Total oldestFirst := ⟨fun first second => le_total (key first) (key second)⟩
  have trans : IsTrans α oldestFirst := ⟨fun _ _ _ => le_trans⟩
  -- A stable sort of the rows with the second one moved to the front.
  have moved : (second :: rows.erase second).Perm rows :=
    (List.perm_cons_erase (forward.subset (by simp))).symm
  have behind : [second, first].Sublist (second :: rows.erase second) := by
    refine .cons_cons second (List.singleton_sublist.mpr ?_)
    by_cases same : first = second
    · subst same
      have twice := forward.erase first
      simp only [List.erase_cons_head] at twice
      exact twice.subset (by simp)
    · exact (List.mem_erase_of_ne same).mpr (forward.subset (by simp))
  exact ⟨_, ⟨(List.perm_insertionSort oldestFirst _).trans moved,
    List.pairwise_insertionSort oldestFirst _⟩, List.pair_sublist_insertionSort tie.ge behind⟩

namespace OrderedBy

theorem filter (ordering : OrderedBy key rows ordered) (kept : α → Bool) :
    OrderedBy key (rows.filter kept) (ordered.filter kept) :=
  ⟨ordering.perm.filter kept, ordering.sorted.filter kept⟩

/-- Rows in strictly rising order come as they stand. -/
theorem eq_of_strict (ordering : OrderedBy key rows ordered)
    (strict : rows.Pairwise fun first second => key first < key second) : ordered = rows := by
  have distinct : (rows.map key).Nodup :=
    (List.pairwise_map.mpr strict).imp fun below => below.ne
  refine ordering.perm.eq_of_pairwise (fun first second h h' below above => ?_) ordering.sorted
    (strict.imp fun below => below.le)
  exact List.inj_on_of_nodup_map distinct (ordering.perm.mem_iff.mp h) h' (le_antisymm below above)

end OrderedBy

end Donna
