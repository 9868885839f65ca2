import Donna.Base.Machine

/-! Runs without the inputs of others.  Where every input of others keeps two states alike, and
every own one is answered alike by states that are, an observer of the own inputs cannot tell a run
from the run of these alone. -/

namespace Donna.Machine

variable {σ ι ο : Type} {step : σ → ι → ο × σ} {own : ι → Bool} {alike : σ → σ → Prop}
  {admitted : σ → ι → Prop}

theorem unwinding
    (kept : ∀ state other input, admitted state input → own input = false → alike state other →
      alike (step state input).2 other)
    (agrees : ∀ state other input, admitted state input → own input = true → alike state other →
      (step state input).1 = (step other input).1 ∧
        alike (step state input).2 (step other input).2)
    {state other : σ} (start : alike state other) (inputs : List ι)
    (all : ∀ item ∈ visits step state inputs, admitted item.before item.input) :
    ((visits step state inputs).filter (own ·.input)).map (·.output) =
        (visits step other (inputs.filter own)).map (·.output) ∧
      alike (final step state inputs) (final step other (inputs.filter own)) := by
  induction inputs generalizing state other with
  | nil => exact ⟨rfl, start⟩
  | cons input rest ih =>
    have now : admitted state input := all _ List.mem_cons_self
    have later : ∀ item ∈ visits step (step state input).2 rest, admitted item.before item.input :=
      fun item listed => all item (List.mem_cons_of_mem _ listed)
    cases hOwn : own input with
    | false =>
      have next := ih (kept state other input now hOwn start) later
      simpa only [visits, final, visit, List.filter_cons, hOwn, Bool.false_eq_true, if_false] using
        next
    | true =>
      obtain ⟨same, still⟩ := agrees state other input now hOwn start
      obtain ⟨outputs, ends⟩ := ih still later
      simp only [visits, final, visit, List.filter_cons, hOwn, if_true, List.map_cons, same]
      exact ⟨congrArg (_ :: ·) outputs, ends⟩

end Donna.Machine
