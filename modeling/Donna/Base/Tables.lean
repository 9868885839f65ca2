import Mathlib.Data.List.Nodup
import Mathlib.Data.List.Pairwise

/-! Tables as lists of rows, under the constraints of a relational schema: unique keys, and
references from one table to another.  A key or a reference that is absent, as a NULL column is,
clashes with none and refers to nothing. -/

namespace Donna.Tables

variable {α β κ : Type}

/-- No two rows have one key. -/
def Unique (key : α → Option κ) (rows : List α) : Prop := (rows.filterMap key).Nodup

/-- What the rows refer to is there. -/
def Refers (reference : α → Option κ) (rows : List α) (key : β → κ) (targets : List β) : Prop :=
  ∀ k ∈ rows.filterMap reference, k ∈ targets.map key

instance [DecidableEq κ] (key : α → Option κ) (rows : List α) : Decidable (Unique key rows) :=
  inferInstanceAs (Decidable (List.Nodup _))

instance [DecidableEq κ] (reference : α → Option κ) (rows : List α) (key : β → κ)
    (targets : List β) : Decidable (Refers reference rows key targets) :=
  inferInstanceAs (Decidable (∀ k ∈ _, _))

/-- `UPDATE … SET … WHERE …`. -/
def updateWhere (selected : α → Bool) (set : α → α) (rows : List α) : List α :=
  rows.map fun row => if selected row then set row else row

variable {key : α → Option κ} {rows : List α} {row other : α} {k : κ} {selected : α → Bool}
  {set : α → α}

/-! ### Updates -/

theorem mem_updateWhere : row ∈ updateWhere selected set rows ↔
    ∃ before ∈ rows, (if selected before then set before else before) = row :=
  List.mem_map

theorem mem_updateWhere_of_not (listed : row ∈ rows) (unselected : selected row = false) :
    row ∈ updateWhere selected set rows :=
  mem_updateWhere.mpr ⟨row, listed, by simp [unselected]⟩

theorem set_mem_updateWhere (listed : row ∈ rows) (isSelected : selected row = true) :
    set row ∈ updateWhere selected set rows :=
  mem_updateWhere.mpr ⟨row, listed, by simp [isSelected]⟩

/-- A column that an update keeps. -/
theorem map_updateWhere {γ : Type} {column : α → γ} (keeps : ∀ row, column (set row) = column row) :
    (updateWhere selected set rows).map column = rows.map column := by
  rw [updateWhere, List.map_map]
  refine List.map_congr_left fun row _ => ?_
  dsimp only [Function.comp_apply]
  split
  · exact keeps row
  · rfl

theorem subset_map_updateWhere {γ : Type} {column : α → γ}
    (keeps : ∀ row, column (set row) = column row) :
    rows.map column ⊆ (updateWhere selected set rows).map column := by
  rw [map_updateWhere keeps]
  exact List.Subset.refl _

theorem filterMap_updateWhere (keeps : ∀ row, key (set row) = key row) :
    (updateWhere selected set rows).filterMap key = rows.filterMap key := by
  rw [updateWhere, List.filterMap_map]
  refine List.filterMap_congr fun row _ => ?_
  dsimp only [Function.comp_apply]
  split
  · exact keeps row
  · rfl

/-- An update that keeps every row it selects. -/
theorem updateWhere_fixed (fixed : ∀ row ∈ rows, selected row = true → set row = row) :
    updateWhere selected set rows = rows := by
  rw [updateWhere]
  conv_rhs => rw [← List.map_id rows]
  refine List.map_congr_left fun row listed => ?_
  split
  · next isSelected => exact fixed row listed isSelected
  · rfl

theorem updateWhere_eq_self (unselected : ∀ row ∈ rows, selected row = false) :
    updateWhere selected set rows = rows :=
  updateWhere_fixed fun row listed isSelected => by simp [unselected row listed] at isSelected

/-- An update that writes fixed values into columns, made twice. -/
theorem updateWhere_updateWhere (again : ∀ row, set (set row) = set row) :
    updateWhere selected set (updateWhere selected set rows) = updateWhere selected set rows := by
  refine updateWhere_fixed fun row listed isSelected => ?_
  obtain ⟨before, -, rfl⟩ := mem_updateWhere.mp listed
  split
  · exact again before
  · next unselected =>
    rw [if_neg unselected] at isSelected
    exact absurd isSelected unselected

/-- A query whose answer an update does not decide reads the updated row. -/
theorem find?_updateWhere {asked : α → Bool} (keeps : ∀ row, asked (set row) = asked row) :
    (updateWhere selected set rows).find? asked =
      (rows.find? asked).map fun row => if selected row then set row else row := by
  rw [updateWhere, List.find?_map]
  have same : (asked ∘ fun row => if selected row then set row else row) = asked := by
    funext row
    dsimp only [Function.comp_apply]
    split
    · exact keeps row
    · rfl
  rw [same]

/-! ### Unique keys -/

/-- Two rows whose keys do not clash. -/
def Apart (key : α → Option κ) (first second : α) : Prop :=
  ∀ k, key first = some k → key second ≠ some k

instance (key : α → Option κ) : Std.Symm (Apart key) where
  symm _ _ apart k first second := apart k second first

theorem unique_iff : Unique key rows ↔ rows.Pairwise (Apart key) := by
  rw [Unique, List.Nodup, List.pairwise_filterMap]
  refine ⟨fun h => h.imp fun distinct k first second => distinct k first k second rfl,
    fun h => h.imp ?_⟩
  rintro first second distinct k hFirst other hSecond rfl
  exact distinct k hFirst hSecond

/-- A key that two rows share only where they share another is unique as the other is. -/
theorem Unique.of_imp {γ : Type} {finer : α → Option γ} (unique : Unique finer rows)
    (shares : ∀ first second k, key first = some k → key second = some k →
      ∃ k', finer first = some k' ∧ finer second = some k') : Unique key rows := by
  rw [unique_iff] at unique ⊢
  refine unique.imp fun apart k hFirst hSecond => ?_
  obtain ⟨k', hFirst', hSecond'⟩ := shares _ _ k hFirst hSecond
  exact apart k' hFirst' hSecond'

theorem Unique.eq (unique : Unique key rows) (listed : row ∈ rows) (listed' : other ∈ rows)
    (hRow : key row = some k) (hOther : key other = some k) : row = other := by
  by_contra different
  exact (unique_iff.mp unique).forall listed listed' different k hRow hOther

/-- A query that only rows of one key answer. -/
theorem Unique.find?_of_selects (unique : Unique key rows) (k : κ)
    (selects : ∀ row, selected row = true → key row = some k) :
    rows.find? selected = some row ↔ row ∈ rows ∧ selected row = true := by
  constructor
  · intro found
    exact ⟨List.mem_of_find?_eq_some found, List.find?_some found⟩
  · rintro ⟨listed, hRow⟩
    cases found : rows.find? selected with
    | none => exact absurd hRow (List.find?_eq_none.mp found row listed)
    | some other =>
      have hOther := selects other (List.find?_some found)
      rw [unique.eq (List.mem_of_find?_eq_some found) listed hOther (selects row hRow)]

/-- A query by a unique key. -/
theorem Unique.find?_eq_some [DecidableEq κ] (unique : Unique key rows) :
    rows.find? (fun row => key row = some k) = some row ↔ row ∈ rows ∧ key row = some k := by
  rw [unique.find?_of_selects k (by simp), decide_eq_true_eq]

/-- A unique key selects at most one row. -/
theorem Unique.single (unique : Unique key rows) (selected : α → Bool) (k : κ)
    (selects : ∀ row, selected row = true → key row = some k) :
    rows.Pairwise fun first second => ¬ (selected first ∧ selected second) :=
  (unique_iff.mp unique).imp fun apart both =>
    apart k (selects _ both.1) (selects _ both.2)

/-- A query that only rows of one key answer has one result. -/
theorem Unique.filter_eq_singleton (unique : Unique key rows) (listed : row ∈ rows)
    {keep : α → Bool} (kept : keep row = true)
    (only : ∀ other ∈ rows, keep other = true → key other = some k) :
    rows.filter keep = [row] := by
  have apart := (unique_iff.mp unique).sublist (List.filter_sublist (p := keep))
  have found : row ∈ rows.filter keep := List.mem_filter.mpr ⟨listed, kept⟩
  have key_of : ∀ other ∈ rows.filter keep, key other = some k := fun other hOther =>
    only other (List.mem_filter.mp hOther).1 (List.mem_filter.mp hOther).2
  match rows.filter keep, apart, found, key_of with
  | [first], _, found, _ => rw [List.mem_singleton.mp found]
  | first :: second :: rest, apart, _, key_of =>
    have clash := (List.pairwise_cons.mp apart).1 second List.mem_cons_self
    exact absurd (key_of second (by simp)) (clash k (key_of first (by simp)))

theorem unique_insert : Unique key (rows ++ [row]) ↔
    Unique key rows ∧ ∀ k, key row = some k → ∀ other ∈ rows, key other ≠ some k := by
  rw [unique_iff, unique_iff, List.pairwise_append]
  refine and_congr_right fun _ => ⟨fun h k hRow other listed hOther => ?_, fun h => ⟨?_, ?_⟩⟩
  · exact h.2 other listed row (List.mem_singleton_self row) k hOther hRow
  · exact List.pairwise_singleton _ _
  · rintro other listed row' listed' k hOther hRow
    obtain rfl := List.mem_singleton.mp listed'
    exact h k hRow other listed hOther

theorem Unique.filter (unique : Unique key rows) (keep : α → Bool) :
    Unique key (rows.filter keep) :=
  List.Nodup.sublist (List.filter_sublist.filterMap key) unique

/-- An update that clears keys or keeps them keeps them unique. -/
theorem Unique.updateWhere_of_imp (unique : Unique key rows)
    (keeps : ∀ row k, key (set row) = some k → key row = some k) :
    Unique key (updateWhere selected set rows) := by
  have before : ∀ row k, key (if selected row then set row else row) = some k →
      key row = some k := by
    intro row k hKey
    split at hKey
    · exact keeps row k hKey
    · exact hKey
  rw [unique_iff] at unique ⊢
  refine List.pairwise_map.mpr (unique.imp fun apart k hFirst hSecond => ?_)
  exact apart k (before _ k hFirst) (before _ k hSecond)

theorem Unique.updateWhere (unique : Unique key rows) (keeps : ∀ row, key (set row) = key row) :
    Unique key (updateWhere selected set rows) :=
  unique.updateWhere_of_imp fun row _ hKey => (keeps row).symm.trans hKey

/-- An update of one row gives it a key that no other row has. -/
theorem unique_updateWhere (unique : Unique key rows)
    (single : rows.Pairwise fun first second => ¬ (selected first ∧ selected second)) :
    Unique key (updateWhere selected set rows) ↔
      ∀ row ∈ rows, selected row → ∀ k, key (set row) = some k →
        ∀ other ∈ rows, selected other = false → key other ≠ some k := by
  constructor
  · intro unique' row listed isSelected k hKey other listed' unselected hOther
    rw [unique_iff, updateWhere, List.pairwise_map] at unique'
    have different : row ≠ other := by
      rintro rfl
      simp [isSelected] at unselected
    have symm : Std.Symm fun first second =>
        Apart key (if selected first then set first else first)
          (if selected second then set second else second) :=
      ⟨fun _ _ apart k first second => apart k second first⟩
    have apart := unique'.forall listed listed' different
    simp only [isSelected, unselected, if_true, Bool.false_eq_true, if_false] at apart
    exact apart k hKey hOther
  · intro free
    rw [unique_iff, updateWhere, List.pairwise_map]
    refine ((unique_iff.mp unique).and single).imp_of_mem ?_
    rintro first second listed listed' ⟨distinct, notBoth⟩ k
    cases hFirst : selected first <;> cases hSecond : selected second
    · simpa using distinct k
    · simpa using fun key' hKey => free second listed' hSecond k hKey first listed hFirst key'
    · simpa using fun key' => free first listed hFirst k key' second listed' hSecond
    · exact absurd ⟨hFirst, hSecond⟩ notBoth

/-- A query of an association list with distinct keys. -/
theorem lookup_eq_some [DecidableEq κ] {entries : List (κ × α)}
    (distinct : (entries.map Prod.fst).Nodup) :
    entries.lookup k = some row ↔ (k, row) ∈ entries := by
  rw [List.lookup_eq_some_iff]
  constructor
  · rintro ⟨before, after, rfl, -⟩
    simp
  · intro listed
    obtain ⟨before, after, rfl⟩ := List.append_of_mem listed
    refine ⟨before, after, rfl, fun entry earlier => ?_⟩
    rw [List.map_append, List.nodup_append] at distinct
    simpa using (distinct.2.2 _ (List.mem_map_of_mem earlier) k (by simp)).symm

/-! ### References -/

section References

variable {reference : α → Option κ} {column : β → κ} {targets targets' : List β}

theorem refers_iff : Refers reference rows column targets ↔
    ∀ row ∈ rows, ∀ k, reference row = some k → k ∈ targets.map column := by
  refine ⟨fun h row listed k hRow => h k (List.mem_filterMap.mpr ⟨row, listed, hRow⟩), ?_⟩
  intro h k listed
  obtain ⟨row, hRow, hk⟩ := List.mem_filterMap.mp listed
  exact h row hRow k hk

theorem refers_insert : Refers reference (rows ++ [row]) column targets ↔
    Refers reference rows column targets ∧
      ∀ k, reference row = some k → k ∈ targets.map column := by
  simp only [refers_iff, List.mem_append, List.mem_singleton, or_imp, forall_and, forall_eq]

/-- Targets that stay keep every reference. -/
theorem Refers.mono (refers : Refers reference rows column targets)
    (kept : targets.map column ⊆ targets'.map column) :
    Refers reference rows column targets' :=
  fun k listed => kept (refers k listed)

/-- An update of the targets keeps the references to those whose column it keeps. -/
theorem Refers.updateWhere_targets {selected : β → Bool} {set : β → β}
    (refers : Refers reference rows column targets)
    (keeps : ∀ target ∈ targets, selected target = true → ∀ row ∈ rows,
      reference row = some (column target) → column (set target) = column target) :
    Refers reference rows column (updateWhere selected set targets) := by
  refine refers_iff.mpr fun row hRow k hKey => ?_
  obtain ⟨target, listed, rfl⟩ := List.mem_map.mp (refers_iff.mp refers row hRow k hKey)
  cases isSelected : selected target with
  | true =>
    rw [← keeps target listed isSelected row hRow hKey]
    exact List.mem_map_of_mem (set_mem_updateWhere listed isSelected)
  | false => exact List.mem_map_of_mem (mem_updateWhere_of_not listed isSelected)

theorem Refers.updateWhere (refers : Refers reference rows column targets)
    (keeps : ∀ row, reference (set row) = reference row) :
    Refers reference (updateWhere selected set rows) column targets := by
  rw [Refers, filterMap_updateWhere keeps]
  exact refers

end References

end Donna.Tables
