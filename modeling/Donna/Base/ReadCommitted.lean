import Mathlib.Data.List.Basic
import Mathlib.Order.Nat
import Donna.Base.Tables
import Mathlib.Logic.Function.Basic

/-! Tables under READ COMMITTED.  Every tuple has a committed version and at most one uncommitted
one, whose writer holds the lock on the tuple.  A statement sees the committed versions and the
writes of its own transaction; an update waits for the tuples that others hold, and checks its
condition again on what it then finds. -/

namespace Donna.ReadCommitted

variable {ρ : Type}

/-- The versions of a tuple; `none` and `none` once its insert is rolled back. -/
structure Versions (ρ : Type) where
  committed : Option ρ
  pending : Option (ℕ × ρ)

namespace Versions

def visible (self : ℕ) (tuple : Versions ρ) : Option ρ :=
  match tuple.pending with
  | some (owner, row) => if owner = self then some row else tuple.committed
  | none => tuple.committed

def lockedByOther (self : ℕ) (tuple : Versions ρ) : Bool :=
  match tuple.pending with
  | some (owner, _) => owner ≠ self
  | none => false

def commit (self : ℕ) (tuple : Versions ρ) : Versions ρ :=
  match tuple.pending with
  | some (owner, row) => if owner = self then ⟨some row, none⟩ else tuple
  | none => tuple

def rollback (self : ℕ) (tuple : Versions ρ) : Versions ρ :=
  match tuple.pending with
  | some (owner, _) => if owner = self then ⟨tuple.committed, none⟩ else tuple
  | none => tuple

end Versions

/-- A table: its tuples, under the positions that they keep. -/
abbrev Table (ρ : Type) := List (Versions ρ)

namespace Table

variable (self : ℕ) (table : Table ρ)

def committedRows : List ρ := table.filterMap (·.committed)

def visibleRows : List ρ := table.filterMap (·.visible self)

/-- The tuples that a statement finds when it starts. -/
def snapshot (condition : ρ → Bool) : List ℕ :=
  (List.range table.length).filter fun position =>
    (table[position]?.bind (·.visible self)).any condition

/-- An update that reaches a tuple: it waits (`none`), or it checks the row once more and writes. -/
def updateAt (condition : ρ → Bool) (set : ρ → ρ) (position : ℕ) : Option (Table ρ) :=
  match table[position]? with
  | none => some table
  | some tuple =>
    if tuple.lockedByOther self then none
    else
      match (tuple.visible self).filter condition with
      | none => some table
      | some row => some (table.set position { tuple with pending := some (self, set row) })

def insert (row : ρ) : Table ρ := table ++ [⟨none, some (self, row)⟩]

def commit : Table ρ := table.map (·.commit self)

def rollback : Table ρ := table.map (·.rollback self)

end Table

/-! ### The versions at a position -/

namespace Table

def committedAt (table : Table ρ) (position : ℕ) : Option ρ :=
  table[position]?.bind (·.committed)

def pendingAt (table : Table ρ) (position : ℕ) : Option (ℕ × ρ) :=
  table[position]?.bind (·.pending)

variable {self other : ℕ} {table after : Table ρ} {position : ℕ} {row : ρ} {condition : ρ → Bool}
  {set : ρ → ρ}

theorem mem_committedRows :
    row ∈ table.committedRows ↔ ∃ position, table.committedAt position = some row := by
  rw [committedRows, List.mem_filterMap]
  constructor
  · rintro ⟨tuple, listed, hRow⟩
    obtain ⟨position, hPosition⟩ := List.mem_iff_getElem?.mp listed
    exact ⟨position, by simp [committedAt, hPosition, hRow]⟩
  · rintro ⟨position, hRow⟩
    obtain ⟨tuple, hTuple, hCommitted⟩ := Option.bind_eq_some_iff.mp hRow
    exact ⟨tuple, List.mem_of_getElem? hTuple, hCommitted⟩

/-- A unique key of the committed rows. -/
theorem unique_committedRows {κ : Type} {key : ρ → Option κ} :
    Tables.Unique key table.committedRows ↔
      ∀ i j a b k, table.committedAt i = some a → table.committedAt j = some b →
        key a = some k → key b = some k → i = j := by
  rw [Tables.unique_iff, committedRows, List.pairwise_filterMap, List.pairwise_iff_getElem]
  constructor
  · intro apart
    have earlier : ∀ i j a b k, i < j → table.committedAt i = some a →
        table.committedAt j = some b → key a = some k → key b ≠ some k := by
      intro i j a b k before hA hB hKey
      obtain ⟨first, hFirst, hA⟩ := Option.bind_eq_some_iff.mp hA
      obtain ⟨second, hSecond, hB⟩ := Option.bind_eq_some_iff.mp hB
      obtain ⟨hi, rfl⟩ := List.getElem?_eq_some_iff.mp hFirst
      obtain ⟨hj, rfl⟩ := List.getElem?_eq_some_iff.mp hSecond
      exact apart i j hi hj before a hA b hB k hKey
    intro i j a b k hA hB hKeyA hKeyB
    rcases Nat.lt_trichotomy i j with before | same | behind
    · exact absurd hKeyB (earlier i j a b k before hA hB hKeyA)
    · exact same
    · exact absurd hKeyA (earlier j i b a k behind hB hA hKeyB)
  · intro unique i j hi hj before a hA b hB k hKeyA hKeyB
    refine before.ne (unique i j a b k ?_ ?_ hKeyA hKeyB)
    · rw [committedAt, List.getElem?_eq_getElem hi]
      exact hA
    · rw [committedAt, List.getElem?_eq_getElem hj]
      exact hB

/-- What a transaction sees of a tuple: its own version, or the committed one. -/
def visibleAt (self : ℕ) (table : Table ρ) (position : ℕ) : Option ρ :=
  match table.pendingAt position with
  | some (owner, row) => if owner = self then some row else table.committedAt position
  | none => table.committedAt position

theorem bind_visible : table[position]?.bind (·.visible self) = table.visibleAt self position := by
  unfold visibleAt pendingAt committedAt
  cases table[position]? with
  | none => rfl
  | some tuple => rfl

/-- A row that a transaction sees is its own version, or committed and not overwritten by it. -/
theorem visibleAt_cases (seen : table.visibleAt self position = some row) :
    table.pendingAt position = some (self, row) ∨ table.committedAt position = some row ∧
      ∀ written, table.pendingAt position ≠ some (self, written) := by
  unfold visibleAt at seen
  split at seen
  · next owner written pending =>
    split at seen
    · next own =>
      rw [own, Option.some.inj seen] at pending
      exact .inl pending
    · next other =>
      refine .inr ⟨seen, fun own held => other ?_⟩
      exact (Prod.ext_iff.mp (Option.some.inj (pending.symm.trans held))).1
  · next pending => exact .inr ⟨seen, fun written held => by rw [pending] at held; cases held⟩

theorem visibleAt_own (pending : table.pendingAt position = some (self, row)) :
    table.visibleAt self position = some row := by
  rw [visibleAt, pending]
  exact if_pos rfl

theorem visibleAt_committed
    (others : ∀ written, table.pendingAt position ≠ some (self, written)) :
    table.visibleAt self position = table.committedAt position := by
  rw [visibleAt]
  split
  · next owner written pending =>
    refine if_neg fun own => others written ?_
    rw [pending, own]
  · rfl

theorem mem_visibleRows :
    row ∈ table.visibleRows self ↔ ∃ position, table.visibleAt self position = some row := by
  rw [visibleRows, List.mem_filterMap]
  constructor
  · rintro ⟨tuple, listed, hRow⟩
    obtain ⟨position, hPosition⟩ := List.mem_iff_getElem?.mp listed
    exact ⟨position, by rw [← bind_visible, hPosition]; exact hRow⟩
  · rintro ⟨position, hRow⟩
    rw [← bind_visible] at hRow
    obtain ⟨tuple, hTuple, hVisible⟩ := Option.bind_eq_some_iff.mp hRow
    exact ⟨tuple, List.mem_of_getElem? hTuple, hVisible⟩

theorem exists_tuple_of_pendingAt {owner : ℕ}
    (pending : table.pendingAt position = some (owner, row)) :
    ∃ tuple ∈ table, tuple.pending = some (owner, row) := by
  obtain ⟨tuple, hTuple, hPending⟩ := Option.bind_eq_some_iff.mp pending
  exact ⟨tuple, List.mem_of_getElem? hTuple, hPending⟩

theorem mem_snapshot : position ∈ table.snapshot self condition ↔
    ∃ row, table.visibleAt self position = some row ∧ condition row = true := by
  rw [snapshot, List.mem_filter, bind_visible, Option.any_eq_true]
  refine and_iff_right_of_imp fun ⟨row, found, _⟩ => ?_
  rw [← bind_visible] at found
  obtain ⟨tuple, hTuple, -⟩ := Option.bind_eq_some_iff.mp found
  exact List.mem_range.mpr (List.getElem?_eq_some_iff.mp hTuple).1

/-- What is committed is what the transaction saw. -/
theorem committedAt_commit :
    (table.commit self).committedAt position = table.visibleAt self position := by
  unfold visibleAt committedAt pendingAt commit
  rw [List.getElem?_map]
  cases table[position]? with
  | none => rfl
  | some tuple =>
    simp only [Option.map_some, Option.bind_some, Versions.commit]
    cases tuple.pending with
    | none => rfl
    | some version => dsimp only; split <;> rfl

theorem pendingAt_commit : (table.commit self).pendingAt position =
    (table.pendingAt position).filter (·.1 ≠ self) := by
  unfold pendingAt commit
  rw [List.getElem?_map]
  cases table[position]? with
  | none => rfl
  | some tuple =>
    simp only [Option.map_some, Option.bind_some, Versions.commit]
    cases hPending : tuple.pending with
    | none => simp [hPending]
    | some version => by_cases own : version.1 = self <;> simp [own, hPending, Option.filter]

@[simp] theorem committedAt_rollback :
    (table.rollback self).committedAt position = table.committedAt position := by
  unfold committedAt rollback
  rw [List.getElem?_map]
  cases table[position]? with
  | none => rfl
  | some tuple =>
    simp only [Option.map_some, Option.bind_some, Versions.rollback]
    cases tuple.pending with
    | none => rfl
    | some version => dsimp only; split <;> rfl

theorem pendingAt_rollback : (table.rollback self).pendingAt position =
    (table.pendingAt position).filter (·.1 ≠ self) := by
  unfold pendingAt rollback
  rw [List.getElem?_map]
  cases table[position]? with
  | none => rfl
  | some tuple =>
    simp only [Option.map_some, Option.bind_some, Versions.rollback]
    cases hPending : tuple.pending with
    | none => simp [hPending]
    | some version => by_cases own : version.1 = self <;> simp [own, hPending, Option.filter]

@[simp] theorem committedAt_insert :
    (table.insert self row).committedAt position = table.committedAt position := by
  unfold committedAt insert
  rcases Nat.lt_trichotomy position table.length with inside | rfl | beyond
  · rw [List.getElem?_append_left inside]
  · simp
  · rw [List.getElem?_eq_none (by simp; omega), List.getElem?_eq_none (by omega)]

theorem pendingAt_insert : (table.insert self row).pendingAt position =
    if position = table.length then some (self, row) else table.pendingAt position := by
  unfold pendingAt insert
  rcases Nat.lt_trichotomy position table.length with inside | rfl | beyond
  · rw [List.getElem?_append_left inside, if_neg inside.ne]
  · simp
  · rw [List.getElem?_eq_none (by simp; omega), if_neg beyond.ne',
      List.getElem?_eq_none (by omega)]

theorem pendingAt_length : table.pendingAt table.length = none := by simp [pendingAt]

theorem committedAt_length : table.committedAt table.length = none := by simp [committedAt]

/-- An update that reaches a tuple finds nothing to do there, or holds the tuple afterwards. -/
theorem updateAt_cases (ran : table.updateAt self condition set position = some after) :
    (after = table ∧ ∀ row, table.visibleAt self position = some row → condition row = false) ∨
    ∃ row, table.visibleAt self position = some row ∧ condition row = true ∧
      (∀ owner row, table.pendingAt position = some (owner, row) → owner = self) ∧
      after.committedAt = table.committedAt ∧
      after.pendingAt = Function.update table.pendingAt position (some (self, set row)) := by
  unfold updateAt at ran
  rw [← bind_visible]
  cases hTuple : table[position]? with
  | none =>
    rw [hTuple] at ran
    cases ran
    exact .inl ⟨rfl, by simp⟩
  | some tuple =>
    simp only [hTuple] at ran
    split at ran
    · cases ran
    · next free =>
      cases hRow : (tuple.visible self).filter condition with
      | none =>
        rw [hRow] at ran
        cases ran
        exact .inl ⟨rfl, by simpa using hRow⟩
      | some row =>
        rw [hRow] at ran
        cases ran
        obtain ⟨found, holds⟩ := Option.filter_eq_some_iff.mp hRow
        have inside := (List.getElem?_eq_some_iff.mp hTuple).1
        refine .inr ⟨row, found, holds, fun owner other hPending => ?_, ?_, ?_⟩
        · simp only [pendingAt, hTuple, Option.bind_some] at hPending
          simpa [Versions.lockedByOther, hPending] using free
        · funext other
          by_cases same : position = other
          · subst same
            rw [committedAt, committedAt, List.getElem?_set_self inside, hTuple]
            rfl
          · simp [committedAt, same]
        · funext other
          by_cases same : position = other
          · subst same
            simp [pendingAt, inside]
          · rw [Function.update_of_ne (Ne.symm same)]
            simp [pendingAt, same]

end Table

end Donna.ReadCommitted
