import Mathlib.Data.List.Perm.Basic

/-! Rows that arrive in any order, of which the first is taken among those that are preferred, or
the first of all where none is.  Which rows can be taken, and when they agree, is told by the rows
alone. -/

namespace Donna.AnyOrder

variable {α β : Type} {prefers : α → Bool} {rows order : List α} {row : α}

def firstPreferred (prefers : α → Bool) (order : List α) : Option α :=
  order.find? prefers <|> order.head?

/-- A row that some order puts first among the preferred ones, or first of all. -/
def Takable (prefers : α → Bool) (rows : List α) (row : α) : Prop :=
  row ∈ rows ∧ (prefers row = true ∨ ∀ other ∈ rows, prefers other = false)

theorem Takable.of_perm (takable : Takable prefers rows row) (same : order.Perm rows) :
    Takable prefers order row :=
  ⟨same.mem_iff.mpr takable.1, takable.2.imp_right fun missing other listed =>
    missing other (same.mem_iff.mp listed)⟩

theorem takable_of_firstPreferred (taken : firstPreferred prefers rows = some row) :
    Takable prefers rows row := by
  unfold firstPreferred at taken
  cases found : rows.find? prefers with
  | some first =>
    rw [found] at taken
    cases taken
    exact ⟨List.mem_of_find?_eq_some found, .inl (List.find?_some found)⟩
  | none =>
    rw [found] at taken
    refine ⟨List.mem_of_mem_head? taken, .inr fun other listed => ?_⟩
    exact eq_false_of_ne_true (List.find?_eq_none.mp found other listed)

/-- A row that can be taken is, when it comes first. -/
theorem firstPreferred_of_takable {before after : List α}
    (takable : Takable prefers (before ++ row :: after) row) :
    firstPreferred prefers (row :: (before ++ after)) = some row := by
  rcases takable.2 with preferred | unpreferred
  · simp [firstPreferred, preferred]
  · have missing : (row :: (before ++ after)).find? prefers = none := by
      refine List.find?_eq_none.mpr fun other listed => ?_
      have known : other ∈ before ++ row :: after := List.perm_middle.mem_iff.mpr listed
      simp [unpreferred other known]
    simp [firstPreferred, missing]

/-- The rows that some order puts first are those that can be taken. -/
theorem exists_order_iff :
    (∃ order, order.Perm rows ∧ firstPreferred prefers order = some row) ↔
      Takable prefers rows row := by
  constructor
  · rintro ⟨order, same, taken⟩
    exact (takable_of_firstPreferred taken).of_perm same.symm
  · intro takable
    obtain ⟨before, after, rfl⟩ := List.append_of_mem takable.1
    exact ⟨row :: (before ++ after), List.perm_middle.symm, firstPreferred_of_takable takable⟩

theorem firstPreferred_eq_none : firstPreferred prefers rows = none ↔ rows = [] := by
  cases rows with
  | nil => simp [firstPreferred]
  | cons first rest =>
    cases found : (first :: rest).find? prefers <;> simp [firstPreferred, found]

end Donna.AnyOrder
