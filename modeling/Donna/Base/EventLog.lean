import Mathlib.Data.List.Basic

/-! Event logs.  An event may name a key, and what a log says of a key is the fold of the events
that name it. -/

namespace Donna.EventLog

variable {α κ ν : Type} [DecidableEq κ]

/-- What a log makes of a key, from what it was before. -/
def replay (key : α → Option κ) (next : ν → α → ν) (start : ν) (log : List α) (k : κ) : ν :=
  (log.filter fun event => key event = some k).foldl next start

variable {key : α → Option κ} {next : ν → α → ν} {start : ν} {log more : List α} {k : κ}

@[simp] theorem replay_nil : replay key next start [] k = start := rfl

theorem replay_append : replay key next start (log ++ more) k =
    replay key next (replay key next start log k) more k := by
  simp [replay, List.filter_append, List.foldl_append]

theorem replay_of_named (named : ∀ event ∈ log, key event = some k) :
    replay key next start log k = log.foldl next start := by
  rw [replay, List.filter_eq_self.mpr fun event listed => by simp [named event listed]]

theorem replay_of_other (other : ∀ event ∈ log, key event ≠ some k) :
    replay key next start log k = start := by
  rw [replay, List.filter_eq_nil_iff.mpr fun event listed => by simp [other event listed]]
  rfl

theorem replay_map {β : Type} (f : β → α) (log : List β) :
    replay key next start (log.map f) k =
      replay (key ∘ f) (fun value event => next value (f event)) start log k := by
  rw [replay, replay, List.filter_map, List.foldl_map]
  rfl

/-- Events that all name one key change what is said of that key only. -/
theorem replay_append_of_named {name : κ} (named : ∀ event ∈ more, key event = some name) :
    replay key next start (log ++ more) k =
      if k = name then more.foldl next (replay key next start log k)
      else replay key next start log k := by
  rw [replay_append]
  split
  · next same =>
    subst same
    exact replay_of_named named
  · next other =>
    refine replay_of_other fun event listed same => other ?_
    rw [named event listed] at same
    exact (Option.some.inj same).symm

end Donna.EventLog
