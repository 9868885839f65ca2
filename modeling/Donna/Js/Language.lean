import Donna.Js.Value

/-! The operations of the language on values of any kind.  A property read can run an accessor and a
conversion can run a method of the value, so an operation takes a world to the next one, or throws;
what it does is left open, so that a theorem about every `Language` covers all values, with cycles,
lone surrogates and accessors of any sort.  `Ends` is the rule calculus of code over them. -/

namespace Donna.Js

/-- A computation in a world of type `ω` that returns an `α` or throws an `ε`. -/
abbrev Operation (ω ε α : Type) := StateT ω (Except ε) α

/-- The operations on values `ν` and parsed URLs `υ`.  Keys and texts are read as well-formed
strings. -/
structure Language (ω ε ν υ : Type) where
  undefined : ν
  string : String → ν
  /-- A new object with these properties. -/
  object : List (String × ν) → ν
  isUndefined : ν → Bool
  isNullish : ν → Bool
  isString : ν → Bool
  strictEq : ν → ν → Bool
  get : ν → String → Operation ω ε ν
  /-- `String(value)`, which also takes a symbol. -/
  toText : ν → Operation ω ε String
  /-- The text of a value in a template literal. -/
  interpolate : ν → Operation ω ε String
  /-- `Object.entries(value)`. -/
  entries : ν → Operation ω ε (List (String × ν))
  /-- The properties that a spread or a rest pattern copies, without those that are excluded. -/
  spread : ν → List String → Operation ω ε (List (String × ν))
  encodeURIComponent : ν → Operation ω ε String
  /-- `JSON.stringify(value)`: a string or `undefined`. -/
  stringify : ν → Operation ω ε ν
  /-- `new URL(value, base)`. -/
  parseUrl : ν → υ → Operation ω ε υ
  origin : υ → String
  /-- `url.searchParams.set(key, value)`. -/
  setSearchParam : υ → String → String → υ
  href : υ → String
  get_undefined : ∀ key world, ∃ error, get undefined key world = .error error

namespace Language

variable {ω ε ν υ : Type} (js : Language ω ε ν υ)

/-- `value ?? fallback`. -/
def orElse (value fallback : ν) : ν := if js.isNullish value then fallback else value

/-- The properties whose value is not `undefined`. -/
def defined (fields : List (String × ν)) : List (String × ν) :=
  fields.filter fun field => !js.isUndefined field.2

end Language

namespace Operation

variable {ω ε ε' α β σ : Type}

/-- The operation with its errors as errors of the code that runs it. -/
def mapError (embed : ε → ε') (operation : Operation ω ε α) : Operation ω ε' α :=
  fun world => (operation world).mapError embed

theorem bind_of_ok {code : Operation ω ε β} {next : β → Operation ω ε α} {world later : ω}
    {result : β} (returned : code world = .ok (result, later)) :
    (code >>= next) world = next result later := by
  simp only [bind, StateT.bind, returned]
  rfl

theorem bind_eq_ok {code : Operation ω ε β} {next : β → Operation ω ε α} {world : ω}
    {outcome : α × ω} (returned : (code >>= next) world = .ok outcome) :
    ∃ result later, code world = .ok (result, later) ∧ next result later = .ok outcome := by
  simp only [bind, StateT.bind] at returned
  cases ran : code world with
  | error error =>
    rw [ran] at returned
    cases returned
  | ok outcome =>
    rw [ran] at returned
    exact ⟨outcome.1, outcome.2, rfl, returned⟩

/-- The operation returns, and what it leaves satisfies `after`. -/
def Returns (operation : Operation ω ε α) (world : ω) (after : α → ω → Prop) : Prop :=
  ∃ result later, operation world = .ok (result, later) ∧ after result later

/-- The code throws an `allowed` error, or returns and leaves what satisfies `after`. -/
def Ends (allowed : ε → Prop) (code : Operation ω ε α) (world : ω) (after : α → ω → Prop) : Prop :=
  match code world with
  | .ok (result, later) => after result later
  | .error error => allowed error

section Rules

variable {allowed : ε → Prop} {world : ω} {after : α → ω → Prop}

theorem ends_true_iff {code : Operation ω ε α} :
    Ends allowed code world (fun _ _ => True) ↔
      ∀ error, code world = .error error → allowed error := by
  unfold Ends
  cases code world <;> simp

@[simp] theorem ends_pure {value : α} :
    Ends allowed (pure value : Operation ω ε α) world after ↔ after value world := Iff.rfl

@[simp] theorem ends_throw {error : ε} :
    Ends allowed (throw error : Operation ω ε α) world after ↔ allowed error := Iff.rfl

@[simp] theorem ends_bind {code : Operation ω ε β} {next : β → Operation ω ε α} :
    Ends allowed (code >>= next) world after ↔
      Ends allowed code world fun result later => Ends allowed (next result) later after := by
  simp only [Ends, bind, StateT.bind]
  rcases code world with error | ⟨result, later⟩ <;> rfl

theorem ends_ite {condition : Prop} [Decidable condition] {yes no : Operation ω ε α} :
    Ends allowed (if condition then yes else no) world after ↔
      if condition then Ends allowed yes world after else Ends allowed no world after := by
  split <;> exact Iff.rfl

/-- The errors of an operation are not allowed, so it has to return. -/
theorem ends_mapError {embed : ε' → ε} (foreign : ∀ error, ¬ allowed (embed error))
    {operation : Operation ω ε' α} :
    Ends allowed (operation.mapError embed) world after ↔ operation.Returns world after := by
  unfold Ends mapError Returns
  rcases operation world with error | ⟨result, later⟩
  · simp [Except.mapError, foreign]
  · simp [Except.mapError]

end Rules

/-- Whatever the code throws is allowed. -/
def ThrowsOnly (allowed : ε → Prop) (code : Operation ω ε α) : Prop :=
  ∀ world error, code world = .error error → allowed error

section Throws

variable {allowed : ε → Prop}

theorem throwsOnly_pure (value : α) :
    ThrowsOnly allowed (pure value : Operation ω ε α) := by
  rintro world error ⟨⟩

theorem throwsOnly_throw {error : ε} (h : allowed error) :
    ThrowsOnly allowed (throw error : Operation ω ε α) := by
  rintro world _ ⟨⟩
  exact h

theorem ThrowsOnly.bind {code : Operation ω ε β} {next : β → Operation ω ε α}
    (first : ThrowsOnly allowed code) (rest : ∀ value, ThrowsOnly allowed (next value)) :
    ThrowsOnly allowed (code >>= next) := by
  intro world error thrown
  cases ran : code world with
  | error error' =>
    simp only [Bind.bind, StateT.bind, ran] at thrown
    cases thrown
    exact first world _ ran
  | ok outcome =>
    rw [bind_of_ok ran] at thrown
    exact rest _ _ _ thrown

theorem ThrowsOnly.ite {condition : Prop} [Decidable condition] {yes no : Operation ω ε α}
    (left : ThrowsOnly allowed yes) (right : ThrowsOnly allowed no) :
    ThrowsOnly allowed (if condition then yes else no) := by
  split
  · exact left
  · exact right

theorem throwsOnly_mapError {embed : ε' → ε} (embedded : ∀ error, allowed (embed error))
    (operation : Operation ω ε' α) : ThrowsOnly allowed (operation.mapError embed) := by
  intro world error thrown
  unfold mapError at thrown
  cases ran : operation world with
  | error error' =>
    rw [ran] at thrown
    cases thrown
    exact embedded error'
  | ok outcome =>
    rw [ran] at thrown
    cases thrown

theorem throwsOnly_foldlM {body : σ → β → Operation ω ε σ}
    (pass : ∀ state item, ThrowsOnly allowed (body state item)) (items : List β) (state : σ) :
    ThrowsOnly allowed (items.foldlM body state) := by
  induction items generalizing state with
  | nil => exact throwsOnly_pure state
  | cons item items ih =>
    rw [List.foldlM_cons]
    exact (pass state item).bind ih

end Throws

end Operation

end Donna.Js
