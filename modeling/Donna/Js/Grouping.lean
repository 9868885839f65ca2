import Mathlib.Algebra.BigOperators.Group.List.Basic
import Mathlib.Data.List.Induction
import Donna.Base.FirstSeen
import Donna.Js.OrderedMap

/-! Lists that are sorted into the buckets of a `Map`, each item under its key.  The buckets come in
the order in which their keys are first seen, and each has the items of its key in their order. -/

namespace Donna.Js

open FirstSeen OrderedMap

variable {κ α : Type} [DecidableEq κ] (key : α → κ)

/-- Push an item into the bucket of its key. -/
def pushItem (groups : OrderedMap κ (List α)) (item : α) : OrderedMap κ (List α) :=
  groups.set (key item) ((groups.get (key item)).getD [] ++ [item])

def grouped (items : List α) : OrderedMap κ (List α) := items.foldl (pushItem key) .empty

/-- The items of a key. -/
def itemsOf (items : List α) (k : κ) : List α := items.filter fun item => key item = k

section Groups

variable {key} {items : List α} {item : α} {k : κ}

theorem itemsOf_snoc : itemsOf key (items ++ [item]) k =
    itemsOf key items k ++ if key item = k then [item] else [] := by
  by_cases same : key item = k
  · simp [itemsOf, same]
  · simp [itemsOf, same]

theorem itemsOf_eq_nil : itemsOf key items k = [] ↔ k ∉ items.map key := by
  simp [itemsOf, List.filter_eq_nil_iff]

theorem grouped_snoc : grouped key (items ++ [item]) = pushItem key (grouped key items) item :=
  List.foldl_append

/-- A bucket has the items of its key, and there is none without items. -/
theorem get_grouped : (grouped key items).get k =
    if k ∈ items.map key then some (itemsOf key items k) else none := by
  induction items using List.reverseRecOn generalizing k with
  | nil => rfl
  | append_singleton items item ih =>
    rw [grouped_snoc, pushItem, get_set, itemsOf_snoc]
    by_cases same : k = key item
    · subst same
      have held : ((grouped key items).get (key item)).getD [] = itemsOf key items (key item) := by
        rw [ih]
        split
        · rfl
        · next absent => exact (itemsOf_eq_nil.mpr absent).symm
      simp [held]
    · have other : key item ≠ k := fun same' => same same'.symm
      simp [ih, same, other]

theorem OrderedMap.keys_set {ν : Type} {map : OrderedMap κ ν} {value : ν} :
    (map.set k value).entries.map Prod.fst = push (map.entries.map Prod.fst) k := by
  unfold OrderedMap.set
  split
  · next listed => rw [push_of_mem listed, keys_replace]
  · next fresh =>
    rw [push_of_not_mem fresh, List.map_append]
    rfl

theorem keys_grouped : (grouped key items).entries.map Prod.fst = pushAll [] (items.map key) := by
  induction items using List.reverseRecOn with
  | nil => rfl
  | append_singleton items item ih =>
    rw [grouped_snoc, pushItem, keys_set, ih, List.map_append, pushAll_append]
    rfl

/-- The buckets, from the first seen on. -/
theorem entries_grouped : (grouped key items).entries =
    (pushAll [] (items.map key)).map fun k => (k, itemsOf key items k) := by
  rw [← keys_grouped, List.map_map]
  refine List.map_id'' (fun _ => rfl) _ |>.symm.trans (List.map_congr_left fun entry listed => ?_)
  have held := mem_entries.mp listed
  rw [get_grouped] at held
  split at held
  · rw [Function.comp_apply, Option.some.inj held]
  · cases held

/-! ### Totals -/

variable {M : Type} [AddCommMonoid M] (weight : α → M)

theorem sum_single {keys : List κ} (distinct : keys.Nodup) (listed : k ∈ keys) (value : M) :
    (keys.map fun other => if k = other then value else 0).sum = value := by
  induction keys with
  | nil => cases listed
  | cons first rest ih =>
    obtain ⟨absent, distinct⟩ := List.nodup_cons.mp distinct
    rw [List.map_cons, List.sum_cons]
    rcases List.mem_cons.mp listed with rfl | later
    · have none : (rest.map fun other => if k = other then value else 0) = rest.map fun _ => 0 :=
        List.map_congr_left fun other hOther => if_neg (by rintro rfl; exact absent hOther)
      rw [none, if_pos rfl]
      simp
    · rw [ih distinct later, if_neg (by rintro rfl; exact absent later), zero_add]

/-- Keys that cover the items share the total of the items out. -/
theorem sum_itemsOf {keys : List κ} (distinct : keys.Nodup)
    (covers : ∀ item ∈ items, key item ∈ keys) :
    (keys.map fun k => ((itemsOf key items k).map weight).sum).sum = (items.map weight).sum := by
  induction items with
  | nil => simp [itemsOf]
  | cons item rest ih =>
    obtain ⟨here, later⟩ := List.forall_mem_cons.mp covers
    have split : (keys.map fun k => ((itemsOf key (item :: rest) k).map weight).sum) =
        keys.map fun k => (if key item = k then weight item else 0) +
          ((itemsOf key rest k).map weight).sum := by
      refine List.map_congr_left fun k _ => ?_
      by_cases same : key item = k
      · simp [itemsOf, same]
      · simp [itemsOf, same]
    rw [split, List.sum_map_add, sum_single distinct here, ih later, List.map_cons, List.sum_cons]

/-- The buckets share the total out. -/
theorem sum_grouped : ((grouped key items).entries.map fun entry => (entry.2.map weight).sum).sum =
    (items.map weight).sum := by
  rw [entries_grouped, List.map_map]
  exact sum_itemsOf weight (pushAll_nodup _ List.nodup_nil) fun item listed =>
    mem_pushAll.mpr (.inr (List.mem_map_of_mem listed))

end Groups

end Donna.Js
