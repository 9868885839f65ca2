import Mathlib.Data.List.Nodup
import Mathlib.Data.List.Sort

/-! Lists that are built by adding to the end what they do not hold yet, and the groups of a stable
sort. -/

namespace Donna

namespace FirstSeen

variable {α : Type} [DecidableEq α]

def push (ordered : List α) (x : α) : List α :=
  if ordered.contains x then ordered else ordered ++ [x]

def pushAll (ordered xs : List α) : List α := xs.foldl push ordered

@[simp] theorem pushAll_nil (ordered : List α) : pushAll ordered [] = ordered := rfl

@[simp] theorem pushAll_cons (ordered : List α) (x : α) (xs : List α) :
    pushAll ordered (x :: xs) = pushAll (push ordered x) xs := rfl

theorem pushAll_append (ordered xs ys : List α) :
    pushAll ordered (xs ++ ys) = pushAll (pushAll ordered xs) ys := List.foldl_append

theorem push_of_mem {ordered : List α} {x : α} (seen : x ∈ ordered) : push ordered x = ordered := by
  simp [push, seen]

theorem push_of_not_mem {ordered : List α} {x : α} (fresh : x ∉ ordered) :
    push ordered x = ordered ++ [x] := by
  simp [push, fresh]

theorem mem_push {ordered : List α} {x y : α} : y ∈ push ordered x ↔ y ∈ ordered ∨ y = x := by
  by_cases seen : x ∈ ordered
  · rw [push_of_mem seen]
    exact ⟨.inl, fun h => h.elim id fun same => same ▸ seen⟩
  · rw [push_of_not_mem seen, List.mem_append, List.mem_singleton]

theorem mem_pushAll {ordered xs : List α} {y : α} :
    y ∈ pushAll ordered xs ↔ y ∈ ordered ∨ y ∈ xs := by
  induction xs generalizing ordered with
  | nil => simp
  | cons x xs ih => rw [pushAll_cons, ih, mem_push, List.mem_cons, or_assoc]

theorem push_nodup {ordered : List α} (x : α) (distinct : ordered.Nodup) :
    (push ordered x).Nodup := by
  by_cases seen : x ∈ ordered
  · rwa [push_of_mem seen]
  · rw [push_of_not_mem seen]
    exact List.nodup_append.mpr ⟨distinct, List.nodup_singleton x, fun y h z h' same =>
      seen (by rw [List.mem_singleton] at h'; exact h' ▸ same ▸ h)⟩

theorem pushAll_nodup {ordered : List α} (xs : List α) (distinct : ordered.Nodup) :
    (pushAll ordered xs).Nodup := by
  induction xs generalizing ordered with
  | nil => exact distinct
  | cons x xs ih => exact ih (push_nodup x distinct)

/-- What was there stays in front. -/
theorem prefix_pushAll (ordered xs : List α) : ordered <+: pushAll ordered xs := by
  induction xs generalizing ordered with
  | nil => exact List.prefix_rfl
  | cons x xs ih =>
    refine List.IsPrefix.trans ?_ (ih (push ordered x))
    unfold push
    split
    · exact List.prefix_rfl
    · exact List.prefix_append ordered [x]

theorem head?_pushAll_cons (x : α) (xs : List α) : (pushAll [] (x :: xs)).head? = some x := by
  obtain ⟨rest, same⟩ := prefix_pushAll [x] xs
  have first : pushAll [] (x :: xs) = pushAll [x] xs := rfl
  rw [first, ← same]
  rfl

/-- What is added comes in the order in which it is seen. -/
theorem pushAll_sublist (ordered xs : List α) : (pushAll ordered xs).Sublist (ordered ++ xs) := by
  induction xs generalizing ordered with
  | nil => simp
  | cons x xs ih =>
    refine (ih (push ordered x)).trans ?_
    unfold push
    split
    · exact (List.sublist_cons_self x xs).append_left ordered
    · simp

end FirstSeen

/-- A sort that keeps the order of related elements keeps the order within a group of them. -/
theorem filter_insertionSort {α : Type} (r : α → α → Prop) [DecidableRel r] [Std.Total r]
    [IsTrans α r] (kept : α → Bool) (group : ∀ a b, kept a → kept b → r a b) (xs : List α) :
    (xs.insertionSort r).filter kept = xs.filter kept := by
  have related : (xs.filter kept).Pairwise r := by
    apply List.pairwise_of_forall_mem_list
    intro a ha b hb
    exact group a b (List.of_mem_filter ha) (List.of_mem_filter hb)
  have inOrder : (xs.filter kept).Sublist ((xs.insertionSort r).filter kept) := by
    have sorted := (List.sublist_insertionSort related List.filter_sublist).filter kept
    simpa only [List.filter_filter, Bool.and_self] using sorted
  have length := ((List.perm_insertionSort r xs).filter kept).length_eq
  exact (inOrder.eq_of_length length.symm).symm

section Ties

variable {α : Type} {r before : α → α → Prop} [DecidableRel r] [Std.Total r] [IsTrans α r]

/-- The order of a stable sort: by `r`, and where `r` ties as it was before. -/
def Tiebroken (r before : α → α → Prop) (a b : α) : Prop := r a b ∧ (r b a → before a b)

theorem tiebroken_orderedInsert {x : α} {sorted : List α}
    (ordered : sorted.Pairwise (Tiebroken r before)) (first : ∀ a ∈ sorted, before x a) :
    (sorted.orderedInsert r x).Pairwise (Tiebroken r before) := by
  induction sorted with
  | nil => simp
  | cons a rest ih =>
    obtain ⟨least, ordered'⟩ := List.pairwise_cons.mp ordered
    obtain ⟨now, later⟩ := List.forall_mem_cons.mp first
    by_cases below : r x a
    · rw [List.orderedInsert_cons_of_le r rest below]
      refine List.pairwise_cons.mpr ⟨?_, ordered⟩
      intro b hb
      rcases List.mem_cons.mp hb with rfl | inRest
      · exact ⟨below, fun _ => now⟩
      · exact ⟨IsTrans.trans x a b below (least b inRest).1, fun _ => later b inRest⟩
    · rw [List.orderedInsert_of_not_le r rest below]
      refine List.pairwise_cons.mpr ⟨?_, ih ordered' later⟩
      intro b hb
      rcases (List.mem_orderedInsert r).mp hb with rfl | inRest
      · exact ⟨(Std.Total.total b a).resolve_left below, fun h => absurd h below⟩
      · exact least b inRest

/-- Sorting leaves ties in the order in which they came. -/
theorem tiebroken_insertionSort {xs : List α} (ordered : xs.Pairwise before) :
    (xs.insertionSort r).Pairwise (Tiebroken r before) := by
  induction xs with
  | nil => exact List.Pairwise.nil
  | cons x rest ih =>
    obtain ⟨first, ordered'⟩ := List.pairwise_cons.mp ordered
    apply tiebroken_orderedInsert (ih ordered')
    intro a ha
    exact first a ((List.mem_insertionSort r).mp ha)

end Ties

end Donna
