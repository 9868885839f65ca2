import Mathlib.Algebra.Order.BigOperators.Group.List
import Mathlib.Algebra.Order.Field.Rat
import Donna.Js.Grouping
import Donna.Js.Value

/-! The evaluations of the models that ran, and what they come to for each model.  A summary is told
by the evaluations of its model alone.  Its count and its rate do not depend on their order; its
averages do, since each addition rounds. -/

namespace Donna

open Js OrderedMap FirstSeen

structure ModelEvaluation where
  modelId : String
  qualityScore : JsNumber
  accepted : Bool
  costUsd : JsNumber

structure ModelClassSummary where
  count : ℕ
  acceptanceRate : JsNumber
  avgCostUsd : JsNumber
  avgQuality : JsNumber
  deriving DecidableEq

/-- `rows.reduce((s, r) => s + column(r), 0)`. -/
def sumOf (column : ModelEvaluation → JsNumber) (rows : List ModelEvaluation) : JsNumber :=
  rows.foldl (fun s r => s.add (column r)) (.finite 0)

/-- The summary of the evaluations of one model. -/
def summarize (rows : List ModelEvaluation) : ModelClassSummary where
  count := rows.length
  acceptanceRate :=
    (JsNumber.finite (rows.filter (·.accepted)).length).div (.finite rows.length)
  avgCostUsd := (sumOf (·.costUsd) rows).div (.finite rows.length)
  avgQuality := (sumOf (·.qualityScore) rows).div (.finite rows.length)

/-- `summarizeByModel`. -/
def summarizeByModel (evals : List ModelEvaluation) : OrderedMap String ModelClassSummary :=
  let groups := grouped (·.modelId) evals
  groups.entries.foldl (fun out group => out.set group.1 (summarize group.2)) .empty

/-- The evaluations of a model. -/
def evaluationsOf (evals : List ModelEvaluation) (modelId : String) : List ModelEvaluation :=
  itemsOf (·.modelId) evals modelId

/-- A number from zero to one, as quality scores are. -/
def IsShare (n : JsNumber) : Prop := ∃ q : ℚ, n = .finite q ∧ 0 ≤ q ∧ q ≤ 1

/-- What the summary of some rows says of them. -/
structure Summarizes (rows : List ModelEvaluation) (summary : ModelClassSummary) : Prop where
  some : rows ≠ []
  count : summary.count = rows.length
  rate : IsShare summary.acceptanceRate
  cost : (∀ row ∈ rows, (JsNumber.finite 0).le row.costUsd = true) →
    (JsNumber.finite 0).le summary.avgCostUsd = true
  quality : (∀ row ∈ rows, IsShare row.qualityScore) → IsShare summary.avgQuality

section Summaries

variable {rows : List ModelEvaluation} {column : ModelEvaluation → JsNumber}

theorem length_positive (some : rows ≠ []) : (0 : ℚ) < rows.length :=
  Nat.cast_pos.mpr (List.length_pos_iff.mpr some)

/-- A quotient of a number by one that is not less. -/
theorem isShare_div {a b : ℚ} (nonneg : 0 ≤ a) (below : a ≤ b) (positive : 0 < b) :
    IsShare ((JsNumber.finite a).div (.finite b)) := by
  have whole : a / b ≤ (1 : ℕ) := by
    rw [Nat.cast_one, div_le_one positive]
    exact below
  obtain ⟨r, rounded, lower, upper⟩ :=
    JsNumber.round_between (by norm_num) (div_nonneg nonneg positive.le) whole
  rw [JsNumber.div, if_pos positive.ne', rounded]
  exact ⟨r, rfl, lower, by simpa using upper⟩

theorem foldl_nonneg {s : JsNumber} (start : (JsNumber.finite 0).le s = true)
    (each : ∀ row ∈ rows, (JsNumber.finite 0).le (column row) = true) :
    (JsNumber.finite 0).le (rows.foldl (fun s r => s.add (column r)) s) = true := by
  induction rows generalizing s with
  | nil => exact start
  | cons row rest ih =>
    obtain ⟨here, later⟩ := List.forall_mem_cons.mp each
    exact ih (JsNumber.le_add start here) later

/-- No partial sum of shares is rounded above the number of them, while that is a double. -/
theorem foldl_shares {s : ℚ} {n : ℕ} (nonneg : 0 ≤ s) (below : s ≤ n)
    (each : ∀ row ∈ rows, IsShare (column row)) (small : n + rows.length < 2 ^ 53) :
    ∃ r : ℚ, rows.foldl (fun s r => s.add (column r)) (JsNumber.finite s) = .finite r ∧ 0 ≤ r ∧
      r ≤ (n + rows.length : ℕ) := by
  induction rows generalizing s n with
  | nil => exact ⟨s, rfl, nonneg, below⟩
  | cons row rest ih =>
    obtain ⟨⟨q, share, lower, upper⟩, later⟩ := List.forall_mem_cons.mp each
    have length : n + (row :: rest).length = n + 1 + rest.length := by
      rw [List.length_cons]
      omega
    rw [length] at small ⊢
    have next : s + q ≤ (n + 1 : ℕ) := by
      push_cast
      exact add_le_add below upper
    obtain ⟨r, rounded, nonneg', below'⟩ :=
      JsNumber.round_between (by omega) (add_nonneg nonneg lower) next
    rw [List.foldl_cons, share, JsNumber.add, rounded]
    exact ih nonneg' below' later small

theorem isShare_average (some : rows ≠ []) (small : rows.length < 2 ^ 53)
    (each : ∀ row ∈ rows, IsShare (column row)) :
    IsShare ((sumOf column rows).div (.finite rows.length)) := by
  obtain ⟨r, summed, lower, upper⟩ :=
    foldl_shares (s := 0) (n := 0) le_rfl (by simp) each (by rwa [zero_add])
  rw [sumOf, summed]
  exact isShare_div lower (by simpa using upper) (length_positive some)

theorem summarizes_summarize (some : rows ≠ []) (small : rows.length < 2 ^ 53) :
    Summarizes rows (summarize rows) where
  some := some
  count := rfl
  rate := isShare_div (Nat.cast_nonneg _) (Nat.cast_le.mpr (List.length_filter_le ..))
    (length_positive some)
  cost each := JsNumber.le_div (foldl_nonneg rfl each) (length_positive some)
  quality := isShare_average some small

theorem summarize_perm {rows' : List ModelEvaluation} (same : rows.Perm rows') :
    (summarize rows).count = (summarize rows').count ∧
      (summarize rows).acceptanceRate = (summarize rows').acceptanceRate := by
  simp only [summarize, same.length_eq, (same.filter _).length_eq, and_self]

/-! ### The summaries of all models -/

theorem entries_summarizeByModel (evals : List ModelEvaluation) :
    (summarizeByModel evals).entries =
      (grouped (·.modelId) evals).entries.map fun group => (group.1, summarize group.2) := by
  have keys : (((grouped (·.modelId) evals).entries.map fun group =>
      (group.1, summarize group.2)).map Prod.fst).Nodup := by
    rw [List.map_map]
    exact (grouped (·.modelId) evals).distinct
  have set := @entries_foldl_set String _ _ .empty _ keys
  rw [List.foldl_map] at set
  exact set.trans (by simp [OrderedMap.empty])

theorem get_summarizeByModel (evals : List ModelEvaluation) (modelId : String) :
    (summarizeByModel evals).get modelId =
      if evaluationsOf evals modelId = [] then none
      else some (summarize (evaluationsOf evals modelId)) := by
  have same : (summarizeByModel evals).get modelId =
      ((grouped (·.modelId) evals).mapValues summarize).get modelId :=
    congrArg (List.lookup modelId) (entries_summarizeByModel evals)
  have absent : evaluationsOf evals modelId = [] ↔ modelId ∉ evals.map (·.modelId) := itemsOf_eq_nil
  rw [same, get_mapValues, get_grouped]
  by_cases listed : modelId ∈ evals.map (·.modelId)
  · rw [if_pos listed, if_neg (by rwa [absent, not_not])]
    rfl
  · rw [if_neg listed, if_pos (absent.mpr listed)]
    rfl

theorem sum_counts (evals : List ModelEvaluation) :
    ((summarizeByModel evals).entries.map fun entry => entry.2.count).sum = evals.length := by
  rw [entries_summarizeByModel, List.map_map]
  have counted : ((grouped (·.modelId) evals).entries.map fun group =>
      (group.2.map fun _ => 1).sum).sum = (evals.map fun _ => 1).sum := sum_grouped fun _ => 1
  simpa [Function.comp_def, summarize] using counted

end Summaries

-- The costs 0.1, 0.2 and 0.3 have another average in the opposite order.
example : let evals := [1, 2, 3].map fun tenths : ℚ =>
      (⟨"m", .finite 1, true, .finite (Doubles.nearest (tenths / 10))⟩ : ModelEvaluation)
    (summarizeByModel evals).get "m" ≠ (summarizeByModel evals.reverse).get "m" := by
  decide +kernel

end Donna
