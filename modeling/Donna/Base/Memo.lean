import Donna.Base.Machine
import Donna.Js.OrderedMap
import Mathlib.Data.List.Induction

/-! Objects that are made on demand and kept.  What is asked for under a key is made once, at the
first time at which it can be made, and is the same object from then on; under another key it is
another object. -/

namespace Donna.Memo

open Js Machine

variable {κ ν : Type} [DecidableEq κ]

/-- A value with its identity. -/
structure Object (ν : Type) where
  serial : ℕ
  value : ν
  deriving DecidableEq

/-- The objects that are held, and how many were ever made. -/
structure Objects (κ ν : Type) where
  held : OrderedMap κ (Object ν)
  made : ℕ

def Objects.empty : Objects κ ν := ⟨.empty, 0⟩

/-- A key that is asked for, and what can be made for it at the time. -/
structure Ask (κ ν : Type) where
  key : κ
  possible : Option ν

def ask (objects : Objects κ ν) (input : Ask κ ν) : Option (Object ν) × Objects κ ν :=
  match objects.held.get input.key with
  | some object => (some object, objects)
  | none =>
    match input.possible with
    | none => (none, objects)
    | some value =>
      let object := ⟨objects.made, value⟩
      (some object, ⟨objects.held.set input.key object, objects.made + 1⟩)

/-- What the first of some inputs that can make the object makes it of. -/
def firstPossible (inputs : List (Ask κ ν)) (key : κ) : Option ν :=
  inputs.findSome? fun input => if input.key = key then input.possible else none

/-- The objects that are held were made, each once. -/
structure Objects.Sound (objects : Objects κ ν) : Prop where
  made : ∀ key object, objects.held.get key = some object → object.serial < objects.made
  once : ∀ key other object object', objects.held.get key = some object →
    objects.held.get other = some object' → object.serial = object'.serial → key = other

section Asks

variable {objects : Objects κ ν} {input : Ask κ ν} {key other : κ} {object object' : Object ν}

/-- What an input leaves under a key, of which it answers its own. -/
theorem get_ask : (ask objects input).2.held.get key =
    if key = input.key then (ask objects input).1 else objects.held.get key := by
  unfold ask
  cases held : objects.held.get input.key with
  | some object =>
    dsimp only
    split
    · next same => rw [same, held]
    · rfl
  | none =>
    cases input.possible with
    | none =>
      dsimp only
      split
      · next same => rw [same, held]
      · rfl
    | some value => exact OrderedMap.get_set

theorem answer_eq : (ask objects input).1.map Object.value =
    ((objects.held.get input.key).map Object.value <|> input.possible) := by
  unfold ask
  cases objects.held.get input.key with
  | some object => rfl
  | none => cases input.possible <;> rfl

/-- An object that is answered is one that was held, or a new one. -/
theorem ask_cases (answered : (ask objects input).1 = some object) :
    objects.held.get input.key = some object ∧ (ask objects input).2 = objects ∨
      objects.held.get input.key = none ∧ object.serial = objects.made ∧
        (ask objects input).2.made = objects.made + 1 := by
  unfold ask at answered ⊢
  cases held : objects.held.get input.key with
  | some object' =>
    rw [held] at answered
    exact .inl ⟨answered, rfl⟩
  | none =>
    rw [held] at answered
    cases possible : input.possible with
    | none =>
      rw [possible] at answered
      cases answered
    | some value =>
      rw [possible] at answered
      cases answered
      exact .inr ⟨rfl, rfl, rfl⟩

theorem made_le_ask : objects.made ≤ (ask objects input).2.made := by
  unfold ask
  split
  · exact le_refl _
  · split
    · exact le_refl _
    · exact Nat.le_succ _

/-- An object that was there is none that is made for another key. -/
theorem Objects.Sound.ne_of_answered (sound : objects.Sound)
    (answered : (ask objects input).1 = some object)
    (held : objects.held.get key = some object') (different : key ≠ input.key) :
    object.serial ≠ object'.serial := by
  rcases ask_cases answered with ⟨before, -⟩ | ⟨-, fresh, -⟩
  · exact fun same => different (sound.once key input.key object' object held before same.symm)
  · rw [fresh]
    exact (sound.made key object' held).ne'

theorem Objects.Sound.ask (sound : objects.Sound) (input : Ask κ ν) :
    (Memo.ask objects input).2.Sound := by
  constructor
  · intro key object held
    rw [get_ask] at held
    split at held
    · rcases ask_cases held with ⟨before, same⟩ | ⟨-, fresh, counted⟩
      · rw [same]
        exact sound.made input.key object before
      · omega
    · exact lt_of_lt_of_le (sound.made key object held) made_le_ask
  · intro key other object object' held held' same
    rw [get_ask] at held held'
    split at held
    · split at held'
      · next here there => rw [here, there]
      · next different => exact absurd same (sound.ne_of_answered held held' different)
    · split at held'
      · next different _ => exact absurd same.symm (sound.ne_of_answered held' held different)
      · exact sound.once key other object object' held held' same

end Asks

/-! ### Runs -/

section Runs

variable {inputs : List (Ask κ ν)}

theorem sound_final (inputs : List (Ask κ ν)) : (final ask Objects.empty inputs).Sound :=
  final_invariant (fun _ input sound => sound.ask input)
    ⟨by simp [Objects.empty], by simp [Objects.empty]⟩ inputs

/-- What is held under a key is made of what could be made for it first. -/
theorem get_final (inputs : List (Ask κ ν)) (key : κ) :
    ((final ask Objects.empty inputs).held.get key).map Object.value =
      firstPossible inputs key := by
  induction inputs using List.reverseRecOn with
  | nil => rfl
  | append_singleton earlier input ih =>
    rw [final_snoc, get_ask, firstPossible, List.findSome?_append, ← firstPossible, ← ih]
    split
    · next same =>
      subst same
      rw [answer_eq]
      cases (final ask Objects.empty earlier).held.get input.key <;> simp
    · next different =>
      have other : ¬ input.key = key := fun same => different same.symm
      cases (final ask Objects.empty earlier).held.get key <;> simp [other]

theorem held_final {objects : Objects κ ν} {key : κ} {object : Object ν}
    (held : objects.held.get key = some object) (inputs : List (Ask κ ν)) :
    (final ask objects inputs).held.get key = some object := by
  have stays : ∀ (objects : Objects κ ν) (input : Ask κ ν), objects.held.get key = some object →
      (ask objects input).2.held.get key = some object := by
    intro objects input held
    rw [get_ask]
    split
    · next same => rw [ask, ← same, held]
    · exact held
  exact final_invariant stays held inputs

/-- What a visit answered is held at the end. -/
theorem held_of_answered {item : Visit (Objects κ ν) (Ask κ ν) (Option (Object ν))}
    (listed : item ∈ visits ask Objects.empty inputs) {object : Object ν}
    (answered : item.output = some object) :
    (final ask Objects.empty inputs).held.get item.input.key = some object := by
  obtain ⟨before, after, split⟩ := List.append_of_mem listed
  obtain ⟨earlier, later, -, hItem, -, -, hFinal⟩ := visits_split split
  rw [hFinal]
  refine held_final ?_ later
  rw [hItem] at answered ⊢
  exact get_ask.trans ((if_pos rfl).trans answered)

/-- What a visit answers is made of what could be made for its key first. -/
theorem output_final (earlier : List (Ask κ ν)) (input : Ask κ ν) :
    (ask (final ask Objects.empty earlier) input).1.map Object.value =
      firstPossible (earlier ++ [input]) input.key := by
  rw [← get_final, final_snoc, get_ask, if_pos rfl]

/-- Two answers of a run are one object exactly when they have one key. -/
theorem serial_eq_iff {first second : Visit (Objects κ ν) (Ask κ ν) (Option (Object ν))}
    (hFirst : first ∈ visits ask Objects.empty inputs)
    (hSecond : second ∈ visits ask Objects.empty inputs) {object object' : Object ν}
    (answered : first.output = some object) (answered' : second.output = some object') :
    object.serial = object'.serial ↔ first.input.key = second.input.key := by
  have held := held_of_answered hFirst answered
  have held' := held_of_answered hSecond answered'
  constructor
  · exact (sound_final inputs).once _ _ object object' held held'
  · intro same
    rw [same, held'] at held
    rw [Option.some.inj held]

end Runs

end Donna.Memo
