import Mathlib.Algebra.BigOperators.Group.List.Basic
import Mathlib.Tactic.Ring

/-! Runs of a machine that takes one input at a time: its state after a list of inputs, and the
visits that the run is made of.  An invariant is preserved along a run, a quantity that every visit
changes by its weight changes by the sum of the weights, and a potential bounds how many visits can
pay from it. -/

namespace Donna.Machine

variable {σ ι ο : Type}

/-- One step of a run, with the states around it. -/
structure Visit (σ ι ο : Type) where
  before : σ
  input : ι
  output : ο
  after : σ

variable (step : σ → ι → ο × σ)

/-- The visit that an input makes. -/
def visit (state : σ) (input : ι) : Visit σ ι ο :=
  ⟨state, input, (step state input).1, (step state input).2⟩

/-- The visits of a run. -/
def visits : σ → List ι → List (Visit σ ι ο)
  | _, [] => []
  | state, input :: rest => visit step state input :: visits (step state input).2 rest

/-- The state after a run. -/
def final : σ → List ι → σ
  | state, [] => state
  | state, input :: rest => final (step state input).2 rest

variable {step} {state : σ} {inputs : List ι}

/-- Where a visit stands in a run, the run before it led to its state and the run after it goes on
from there. -/
theorem visits_split {before after : List (Visit σ ι ο)} {item : Visit σ ι ο}
    (split : visits step state inputs = before ++ item :: after) :
    ∃ earlier later, inputs = earlier ++ item.input :: later ∧
      item = visit step (final step state earlier) item.input ∧
      before = visits step state earlier ∧ after = visits step item.after later ∧
      final step state inputs = final step item.after later := by
  induction inputs generalizing state before with
  | nil => simp [visits] at split
  | cons input rest ih =>
    rcases before with _ | ⟨first, before⟩
    · obtain ⟨rfl, rfl⟩ := List.cons.inj split
      exact ⟨[], rest, rfl, rfl, rfl, rfl, rfl⟩
    · obtain ⟨rfl, hRest⟩ := List.cons.inj split
      obtain ⟨earlier, later, rfl, hItem, rfl, rfl, hFinal⟩ := ih hRest
      exact ⟨input :: earlier, later, rfl, hItem, rfl, rfl, hFinal⟩

theorem final_append (state : σ) (earlier later : List ι) :
    final step state (earlier ++ later) = final step (final step state earlier) later := by
  induction earlier generalizing state with
  | nil => rfl
  | cons input rest ih => exact ih (step state input).2

theorem final_snoc (state : σ) (earlier : List ι) (input : ι) :
    final step state (earlier ++ [input]) = (step (final step state earlier) input).2 :=
  final_append state earlier [input]

theorem visits_snoc (state : σ) (earlier : List ι) (input : ι) :
    visits step state (earlier ++ [input]) =
      visits step state earlier ++ [visit step (final step state earlier) input] := by
  induction earlier generalizing state with
  | nil => rfl
  | cons first rest ih => exact congrArg (visit step state first :: ·) (ih (step state first).2)

theorem exists_of_mem_visits {item : Visit σ ι ο} (listed : item ∈ visits step state inputs) :
    ∃ earlier, item = visit step (final step state earlier) item.input := by
  obtain ⟨before, after, split⟩ := List.append_of_mem listed
  obtain ⟨earlier, -, -, hItem, -⟩ := visits_split split
  exact ⟨earlier, hItem⟩

theorem sum_indicator {α : Type} (counted : α → Bool) (items : List α) :
    (items.map fun item => if counted item then (1 : ℤ) else 0).sum = items.countP counted := by
  induction items with
  | nil => rfl
  | cons item rest ih =>
    rw [List.map_cons, List.sum_cons, ih, List.countP_cons]
    push_cast
    ring

/-- What each input of a run preserves holds at its end. -/
theorem final_invariant_of_mem {inv : σ → Prop} (inputs : List ι)
    (preserved : ∀ state, ∀ input ∈ inputs, inv state → inv (step state input).2)
    (start : inv state) : inv (final step state inputs) := by
  induction inputs generalizing state with
  | nil => exact start
  | cons input rest ih =>
    have first := preserved state input List.mem_cons_self start
    exact ih (fun state input listed => preserved state input (List.mem_cons_of_mem _ listed)) first

section Invariant

variable {inv : σ → Prop} (preserved : ∀ state input, inv state → inv (step state input).2)

include preserved

theorem final_invariant (start : inv state) (inputs : List ι) : inv (final step state inputs) :=
  final_invariant_of_mem inputs (fun state input _ => preserved state input) start

theorem before_invariant (start : inv state) {item : Visit σ ι ο}
    (listed : item ∈ visits step state inputs) : inv item.before := by
  obtain ⟨earlier, hItem⟩ := exists_of_mem_visits listed
  rw [hItem]
  exact final_invariant preserved start _

theorem after_invariant (start : inv state) {item : Visit σ ι ο}
    (listed : item ∈ visits step state inputs) : inv item.after := by
  have earlier := before_invariant preserved start listed
  obtain ⟨inputs, hItem⟩ := exists_of_mem_visits listed
  rw [hItem] at earlier ⊢
  exact preserved _ _ earlier

/-- A quantity that each visit raises by its weight is raised by the sum of the weights. -/
theorem sum_visits (quantity : σ → ℤ) (weight : Visit σ ι ο → ℤ)
    (raise : ∀ state input, inv state →
      quantity (step state input).2 = quantity state + weight (visit step state input))
    (start : inv state) (inputs : List ι) :
    quantity (final step state inputs) =
      quantity state + ((visits step state inputs).map weight).sum := by
  induction inputs generalizing state with
  | nil => simp [final, visits]
  | cons input rest ih =>
    rw [final, visits, ih (preserved state input start), raise state input start, List.map_cons,
      List.sum_cons]
    ring

/-- A quantity that rises by one at some visits, and beside that by a weight, counts them. -/
theorem count_visits (quantity : σ → ℤ) (weight : Visit σ ι ο → ℤ) (counted : Visit σ ι ο → Bool)
    (raise : ∀ state input, inv state → quantity (step state input).2 =
      quantity state + (weight (visit step state input) +
        if counted (visit step state input) then 1 else 0))
    (start : inv state) (inputs : List ι) :
    quantity (final step state inputs) =
      quantity state + ((visits step state inputs).map weight).sum +
        (visits step state inputs).countP counted := by
  have total := sum_visits preserved quantity
    (fun item => weight item + if counted item then 1 else 0) raise start inputs
  rw [total, List.sum_map_add, sum_indicator]
  ring

/-- Visits that each pay one from a potential are at most as many as the potential. -/
theorem count_le_potential (potential : σ → ℕ) (paying : Visit σ ι ο → Bool)
    (pay : ∀ state input, inv state →
      potential (step state input).2 + (if paying (visit step state input) then 1 else 0) ≤
        potential state)
    (start : inv state) (inputs : List ι) :
    (visits step state inputs).countP paying ≤ potential state := by
  induction inputs generalizing state with
  | nil => simp [visits]
  | cons input rest ih =>
    have later := ih (preserved state input start)
    have now := pay state input start
    rw [visits, List.countP_cons]
    omega

end Invariant

/-- A machine whose steps an abstract machine takes too, on what is read of the input and as long as
the input is admitted, answers along a run as the abstract machine does. -/
theorem simulates {τ κ : Type} {step' : τ → κ → ο × τ} (view : σ → τ) (read : ι → κ)
    {inv : σ → Prop} {admitted : σ → ι → Prop}
    (preserved : ∀ state input, inv state → inv (step state input).2)
    (agrees : ∀ state input, inv state → admitted state input →
      ((step state input).1, view (step state input).2) = step' (view state) (read input))
    (start : inv state) (inputs : List ι)
    (all : ∀ item ∈ visits step state inputs, admitted item.before item.input) :
    (visits step state inputs).map (·.output) =
        (visits step' (view state) (inputs.map read)).map (·.output) ∧
      view (final step state inputs) = final step' (view state) (inputs.map read) := by
  induction inputs generalizing state with
  | nil => exact ⟨rfl, rfl⟩
  | cons input rest ih =>
    have now := agrees state input start (all _ List.mem_cons_self)
    obtain ⟨hOutput, hView⟩ := Prod.ext_iff.mp now
    have later := ih (preserved state input start) fun item listed =>
      all item (List.mem_cons_of_mem _ listed)
    dsimp only at hOutput hView
    simp only [visits, final, List.map_cons, visit]
    rw [← hView, hOutput]
    exact ⟨congrArg (_ :: ·) later.1, later.2⟩

theorem map_input_visits (state : σ) (inputs : List ι) :
    (visits step state inputs).map (·.input) = inputs := by
  induction inputs generalizing state with
  | nil => rfl
  | cons input rest ih => exact congrArg (input :: ·) (ih (step state input).2)

/-- A machine that steps as another does on what it reads of the input makes the same visits. -/
theorem visits_map {κ : Type} {step' : σ → κ → ο × σ} {read : ι → κ}
    (same : ∀ state input, step state input = step' state (read input)) (state : σ)
    (inputs : List ι) :
    visits step' state (inputs.map read) = (visits step state inputs).map (fun item =>
        ⟨item.before, read item.input, item.output, item.after⟩) ∧
      final step' state (inputs.map read) = final step state inputs := by
  induction inputs generalizing state with
  | nil => exact ⟨rfl, rfl⟩
  | cons input rest ih =>
    have later := ih (step state input).2
    simp only [List.map_cons, visits, final, visit, ← same]
    exact ⟨congrArg (_ :: ·) later.1, later.2⟩

/-- Inputs that no step tells apart make runs that do not differ. -/
theorem run_congr {same : ι → ι → Prop}
    (alike : ∀ state input input', same input input' → step state input = step state input')
    {inputs' : List ι} (related : List.Forall₂ same inputs inputs') :
    (visits step state inputs).map (·.output) = (visits step state inputs').map (·.output) ∧
      final step state inputs = final step state inputs' := by
  induction related generalizing state with
  | nil => exact ⟨rfl, rfl⟩
  | cons first _ ih =>
    simp only [visits, final, List.map_cons, visit, alike state _ _ first]
    exact ⟨congrArg (_ :: ·) ih.1, ih.2⟩

/-- Something of the list makes a fact, and nothing after it ends it. -/
def Since {α : Type} (made ended : α → Prop) (items : List α) : Prop :=
  ∃ earlier item later, items = earlier ++ item :: later ∧ made item ∧
    ∀ other ∈ later, ¬ ended other

theorem not_since_nil {α : Type} (made ended : α → Prop) : ¬ Since made ended [] := by
  rintro ⟨earlier, item, later, split, -⟩
  simp at split

theorem since_snoc {α : Type} {made ended : α → Prop} {items : List α} {last : α} :
    Since made ended (items ++ [last]) ↔ made last ∨ Since made ended items ∧ ¬ ended last := by
  constructor
  · rintro ⟨earlier, item, later, split, hMade, open'⟩
    rcases List.eq_nil_or_concat later with rfl | ⟨rest, final, rfl⟩
    · obtain ⟨-, same⟩ := List.append_inj' split rfl
      cases same
      exact .inl hMade
    · rw [List.concat_eq_append, ← List.cons_append, ← List.append_assoc] at split
      obtain ⟨rfl, same⟩ := List.append_inj' split rfl
      cases same
      rw [List.concat_eq_append] at open'
      exact .inr ⟨⟨earlier, item, rest, rfl, hMade, fun other listed =>
        open' other (List.mem_append_left _ listed)⟩, open' last (by simp)⟩
  · rintro (hMade | ⟨⟨earlier, item, later, rfl, hMade, open'⟩, still⟩)
    · exact ⟨items, last, [], rfl, hMade, nofun⟩
    · refine ⟨earlier, item, later ++ [last], by simp, hMade, fun other listed => ?_⟩
      rcases List.mem_append.mp listed with old | new
      · exact open' other old
      · rw [List.mem_singleton.mp new]
        exact still

/-! ### Runs of a relation -/

/-- When every step lowers a measure under an invariant, a run has at most as many steps as the
measure at its start. -/
theorem steps_le_measure {next : σ → σ → Prop} {inv : σ → Prop} (measure : σ → ℕ)
    (preserved : ∀ before after, inv before → next before after → inv after)
    (lowers : ∀ before after, inv before → next before after → measure after < measure before)
    {run : ℕ → σ} {n : ℕ} (start : inv (run 0)) (steps : ∀ i < n, next (run i) (run (i + 1))) :
    n ≤ measure (run 0) := by
  have bounded : ∀ i ≤ n, inv (run i) ∧ i + measure (run i) ≤ measure (run 0) := by
    intro i
    induction i with
    | zero => exact fun _ => ⟨start, by omega⟩
    | succ i ih =>
      intro within
      obtain ⟨holds, earlier⟩ := ih (by omega)
      have taken := steps i (by omega)
      have lower := lowers _ _ holds taken
      exact ⟨preserved _ _ holds taken, by omega⟩
  have last := (bounded n le_rfl).2
  omega

end Donna.Machine
