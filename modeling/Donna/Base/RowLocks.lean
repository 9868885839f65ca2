import Donna.Base.ReadCommitted

/-! What the statements of one transaction leave to the others under READ COMMITTED.  The versions
that another transaction has written stay, and so does what is committed under them; a table gains
no version but what a row that it has becomes, or one that is inserted; so a column that no
statement writes identifies a tuple. -/

namespace Donna.ReadCommitted

variable {ρ κ : Type}

/-- A tuple that keeps a row out of a unique index.  The statement that brings the row fails on a
version that is committed or its own, and waits for one that another transaction is writing or
overwriting. -/
def Versions.conflicts (self : ℕ) (clashes : ρ → Bool) (tuple : Versions ρ) : Bool :=
  match tuple.pending with
  | some (owner, row) => clashes row || (decide (owner ≠ self) && tuple.committed.any clashes)
  | none => tuple.committed.any clashes

namespace Table

/-- What a transaction has written at a position is in no conflict with the other tuples. -/
def admits (self : ℕ) (clash : ρ → ρ → Bool) (table : Table ρ) (position : ℕ) : Bool :=
  match table.pendingAt position with
  | some (owner, row) =>
    decide (owner ≠ self) || (List.range table.length).all fun other =>
      decide (other = position) || !(table[other]?.any (·.conflicts self (clash row)))
  | none => true

/-- What a select that is limited to one row may return. -/
def Selects (self : ℕ) (condition : ρ → Bool) (table : Table ρ) : Option ρ → Prop
  | some row => ∃ position, table.visibleAt self position = some row ∧ condition row = true
  | none => ∀ position row, table.visibleAt self position = some row → condition row = false

/-- A version of the tuple at a position, committed or not. -/
def HasVersion (table : Table ρ) (position : ℕ) (row : ρ) : Prop :=
  table.committedAt position = some row ∨ ∃ owner, table.pendingAt position = some (owner, row)

/-- The writes of the other transactions, and what is committed under them, stay as they are. -/
def Spares (session : ℕ) (before after : Table ρ) : Prop :=
  ∀ other, other ≠ session → ∀ position row,
    (after.pendingAt position = some (other, row) ↔ before.pendingAt position = some (other, row)) ∧
    (before.pendingAt position = some (other, row) →
      after.committedAt position = before.committedAt position)

/-- Every version is what a version of the same tuple becomes, or is inserted. -/
def Grows (becomes : ρ → ρ → Prop) (inserted : Option ρ) (before after : Table ρ) : Prop :=
  ∀ position row, after.HasVersion position row →
    (∃ old, before.HasVersion position old ∧ becomes old row) ∨
      inserted = some row ∧ position = before.length

variable {session position : ℕ} {table before after : Table ρ} {row : ρ} {fixed : ρ → κ}
  {becomes : ρ → ρ → Prop} {inserted : Option ρ}

theorem hasVersion_of_visibleAt (seen : table.visibleAt session position = some row) :
    table.HasVersion position row :=
  (visibleAt_cases seen).elim (fun own => .inr ⟨session, own⟩) fun old => .inl old.1

theorem not_hasVersion_length : ¬ table.HasVersion table.length row := by
  rintro (committed | ⟨owner, pending⟩)
  · rw [committedAt_length] at committed
    cases committed
  · rw [pendingAt_length] at pending
    cases pending

theorem selects_nil {condition : ρ → Bool} : Selects session condition [] none := by
  intro position row seen
  simp [visibleAt, pendingAt, committedAt] at seen

/-- A commit or a rollback ends the writes of its transaction, and no others. -/
theorem filter_pending_iff {pending : Option (ℕ × ρ)} {owner : ℕ} :
    pending.filter (·.1 ≠ session) = some (owner, row) ↔
      pending = some (owner, row) ∧ owner ≠ session := by
  simp [Option.filter_eq_some_iff]

theorem pendingAt_commit_self :
    (table.commit session).pendingAt position ≠ some (session, row) := by
  rw [pendingAt_commit, Ne, filter_pending_iff]
  exact fun pending => pending.2 rfl

theorem pendingAt_rollback_self :
    (table.rollback session).pendingAt position ≠ some (session, row) := by
  rw [pendingAt_rollback, Ne, filter_pending_iff]
  exact fun pending => pending.2 rfl

/-! ### The writes of the others -/

theorem Spares.refl : Spares session table table := fun _ _ _ _ => ⟨Iff.rfl, fun _ => rfl⟩

theorem Spares.rollback : Spares session table (table.rollback session) := by
  intro other different position row
  rw [pendingAt_rollback, filter_pending_iff]
  exact ⟨and_iff_left different, fun _ => committedAt_rollback⟩

theorem Spares.commit : Spares session table (table.commit session) := by
  intro other different position row
  rw [pendingAt_commit, filter_pending_iff]
  refine ⟨and_iff_left different, fun pending => ?_⟩
  rw [committedAt_commit, visibleAt, pending]
  exact if_neg different

theorem Spares.insert : Spares session table (table.insert session row) := by
  intro other different position held
  rw [pendingAt_insert, committedAt_insert]
  refine ⟨?_, fun _ => rfl⟩
  by_cases new : position = table.length
  · subst new
    simp [pendingAt_length, different.symm]
  · rw [if_neg new]

theorem Spares.update
    (free : ∀ owner held, table.pendingAt position = some (owner, held) → owner = session)
    (committed : after.committedAt = table.committedAt)
    (pending : after.pendingAt = Function.update table.pendingAt position (some (session, row))) :
    Spares session table after := by
  intro other different place held
  rw [committed, pending]
  refine ⟨?_, fun _ => rfl⟩
  by_cases here : place = position
  · subst here
    rw [Function.update_self]
    refine iff_of_false (fun h => different ?_) fun h => different (free other held h)
    exact (Prod.ext_iff.mp (Option.some.inj h)).1.symm
  · rw [Function.update_of_ne here]

/-! ### Versions that come and go -/

theorem hasVersion_of_rollback (has : (table.rollback session).HasVersion position row) :
    table.HasVersion position row := by
  rcases has with committed | ⟨owner, pending⟩
  · rw [committedAt_rollback] at committed
    exact .inl committed
  · rw [pendingAt_rollback, filter_pending_iff] at pending
    exact .inr ⟨owner, pending.1⟩

theorem hasVersion_of_commit (has : (table.commit session).HasVersion position row) :
    table.HasVersion position row := by
  rcases has with committed | ⟨owner, pending⟩
  · rw [committedAt_commit] at committed
    exact hasVersion_of_visibleAt committed
  · rw [pendingAt_commit, filter_pending_iff] at pending
    exact .inr ⟨owner, pending.1⟩

theorem hasVersion_of_insert {new : ρ} (has : (table.insert session new).HasVersion position row) :
    table.HasVersion position row ∨ position = table.length ∧ row = new := by
  rcases has with committed | ⟨owner, pending⟩
  · rw [committedAt_insert] at committed
    exact .inl (.inl committed)
  · rw [pendingAt_insert] at pending
    split at pending
    · next here =>
      obtain ⟨-, rfl⟩ := Prod.ext_iff.mp (Option.some.inj pending)
      exact .inr ⟨here, rfl⟩
    · exact .inl (.inr ⟨owner, pending⟩)

section Grows

variable (same : ∀ row, becomes row row)

include same

theorem Grows.refl : Grows becomes none table table := fun _ row has => .inl ⟨row, has, same row⟩

theorem Grows.rollback : Grows becomes none table (table.rollback session) := fun _ row has =>
  .inl ⟨row, hasVersion_of_rollback has, same row⟩

theorem Grows.commit : Grows becomes none table (table.commit session) := fun _ row has =>
  .inl ⟨row, hasVersion_of_commit has, same row⟩

theorem Grows.insert : Grows becomes (some row) table (table.insert session row) := by
  intro position version has
  rcases hasVersion_of_insert has with old | ⟨here, rfl⟩
  · exact .inl ⟨version, old, same version⟩
  · exact .inr ⟨rfl, here⟩

/-- A write over a row that the transaction sees. -/
theorem Grows.update {seen written : ρ} (visible : table.visibleAt session position = some seen)
    (change : becomes seen written) (committed : after.committedAt = table.committedAt)
    (pending : after.pendingAt =
      Function.update table.pendingAt position (some (session, written))) :
    Grows becomes none table after := by
  rintro place row (found | ⟨owner, held⟩)
  · rw [committed] at found
    exact .inl ⟨row, .inl found, same row⟩
  · rw [pending] at held
    by_cases here : place = position
    · subst here
      rw [Function.update_self] at held
      obtain ⟨-, rfl⟩ := Prod.ext_iff.mp (Option.some.inj held)
      exact .inl ⟨seen, hasVersion_of_visibleAt visible, change⟩
    · rw [Function.update_of_ne here] at held
      exact .inl ⟨row, .inr ⟨owner, held⟩, same row⟩

end Grows

/-! ### Identity -/

/-- An id names one tuple, and a tuple's versions agree on the fixed columns. -/
structure Identified {ι : Type} (id : ρ → ι) (fixed : ρ → κ) (table : Table ρ) : Prop where
  distinct : ∀ p q a b, table.HasVersion p a → table.HasVersion q b → id a = id b → p = q
  constant : ∀ p a b, table.HasVersion p a → table.HasVersion p b → fixed a = fixed b

variable {ι : Type} {id : ρ → ι}

/-- With ids that are fixed, and new ones for what is inserted, a table stays identified. -/
theorem Identified.grows (identified : table.Identified id fixed)
    (ids : ∀ a b, fixed a = fixed b → id a = id b)
    (keeps : ∀ old row, becomes old row → fixed old = fixed row)
    (grows : Grows becomes inserted table after)
    (fresh : ∀ new, inserted = some new → ∀ position old, table.HasVersion position old →
      id old ≠ id new) : after.Identified id fixed := by
  constructor
  · intro p q a b hA hB same
    rcases grows p a hA with ⟨oldA, hasA, fromA⟩ | ⟨newA, hp⟩ <;>
      rcases grows q b hB with ⟨oldB, hasB, fromB⟩ | ⟨newB, hq⟩
    · have idA := ids oldA a (keeps oldA a fromA)
      have idB := ids oldB b (keeps oldB b fromB)
      exact identified.distinct p q oldA oldB hasA hasB (idA.trans (same.trans idB.symm))
    · exact absurd ((ids oldA a (keeps oldA a fromA)).trans same) (fresh b newB p oldA hasA)
    · exact absurd ((ids oldB b (keeps oldB b fromB)).trans same.symm) (fresh a newA q oldB hasB)
    · rw [hp, hq]
  · intro p a b hA hB
    rcases grows p a hA with ⟨oldA, hasA, fromA⟩ | ⟨newA, hp⟩ <;>
      rcases grows p b hB with ⟨oldB, hasB, fromB⟩ | ⟨newB, hq⟩
    · have between := identified.constant p oldA oldB hasA hasB
      exact (keeps oldA a fromA).symm.trans (between.trans (keeps oldB b fromB))
    · exact absurd (hq ▸ hasA) not_hasVersion_length
    · exact absurd (hp ▸ hasB) not_hasVersion_length
    · rw [Option.some.inj (newA.symm.trans newB)]

/-- A tuple that a transaction sees is still seen with its fixed columns after a step of another. -/
theorem Spares.visibleAt {self : ℕ} (spares : Spares session table after)
    (different : self ≠ session)
    (kept : ∀ place old, table.committedAt place = some old →
      ∃ later, after.committedAt place = some later ∧ fixed later = fixed old)
    (seen : table.visibleAt self position = some row) :
    ∃ later, after.visibleAt self position = some later ∧ fixed later = fixed row := by
  rcases visibleAt_cases seen with own | ⟨committed, others⟩
  · exact ⟨row, visibleAt_own ((spares self different position row).1.mpr own), rfl⟩
  · obtain ⟨later, hLater, same⟩ := kept position row committed
    refine ⟨later, ?_, same⟩
    rw [visibleAt_committed fun written held =>
      others written ((spares self different position written).1.mp held)]
    exact hLater

theorem Identified.kept_commit (identified : table.Identified id fixed) (place : ℕ) (old : ρ)
    (committed : table.committedAt place = some old) :
    ∃ later, (table.commit session).committedAt place = some later ∧ fixed later = fixed old := by
  rw [committedAt_commit]
  by_cases held : ∃ written, table.pendingAt place = some (session, written)
  · obtain ⟨written, pending⟩ := held
    exact ⟨written, visibleAt_own pending,
      identified.constant place written old (.inr ⟨session, pending⟩) (.inl committed)⟩
  · rw [visibleAt_committed (not_exists.mp held)]
    exact ⟨old, committed, rfl⟩

end Table

end Donna.ReadCommitted
