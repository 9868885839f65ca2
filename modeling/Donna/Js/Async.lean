import Mathlib.Tactic.Common

/-! Programs that await calls to an environment.  A program reads the history of the actions so far
and gives back what it returns or throws with the actions it adds.  The environment's replies are
functions of the history, so a theorem about every environment covers one with any state of its
own.  `wp` is the weakest precondition calculus of these programs, with one rule for each way of
building them and an invariant rule for loops. -/

namespace Donna.Async

/-- A program over actions `α` that returns a `β` or throws an `ε`. -/
def Program (α ε β : Type) := List α → Except ε β × List α

/-- How the body of a loop ends: with the next state, with a `break`, or by returning from the
function around the loop. -/
inductive Flow (σ ρ : Type)
  | next (state : σ)
  | stop (state : σ)
  | done (result : ρ)

/-- How a loop ends: in a last state, or by returning from the function around it. -/
inductive LoopEnd (σ ρ : Type)
  | finished (state : σ)
  | returned (result : ρ)

theorem split_append {α : Type} {left right before after : List α} {item : α}
    (split : left ++ right = before ++ item :: after) :
    (∃ middle, left = before ++ item :: middle ∧ after = middle ++ right) ∨
      ∃ middle, before = left ++ middle ∧ right = middle ++ item :: after := by
  rcases List.append_eq_append_iff.mp split with ⟨middle, hBefore, hRight⟩ | ⟨middle, hLeft, hItem⟩
  · exact .inr ⟨middle, hBefore, hRight⟩
  · rcases middle with _ | ⟨first, middle⟩
    · exact .inr ⟨[], by simpa using hLeft.symm, by simpa using hItem.symm⟩
    · obtain ⟨rfl, rfl⟩ := List.cons.inj hItem
      exact .inl ⟨middle, hLeft, rfl⟩

namespace Program

variable {α ε β γ : Type}

instance : Monad (Program α ε) where
  pure value := fun _ => (.ok value, [])
  bind program next := fun history =>
    match program history with
    | (.error error, actions) => (.error error, actions)
    | (.ok value, actions) =>
      ((next value (history ++ actions)).1, actions ++ (next value (history ++ actions)).2)

/-- Return or throw what a pure computation gives. -/
def ofExcept (value : Except ε β) : Program α ε β := fun _ => (value, [])

def observe (read : List α → β) : Program α ε β := fun history => (.ok (read history), [])

def perform (action : α) : Program α ε Unit := fun _ => (.ok (), [action])

/-- Await a call: the environment replies by the history, and the action records its reply. -/
def call (reply : List α → Except ε β) (action : Except ε β → α) : Program α ε β :=
  fun history => (reply history, [action (reply history)])

/-- Run `program` inside `try`, giving back what it threw. -/
def attempt (program : Program α ε β) : Program α ε (Except ε β) :=
  fun history => (.ok (program history).1, (program history).2)

/-- `for (const item of items) { … }` with the variables that the body assigns as its state. -/
def forOf {ι σ ρ : Type} (body : ι → σ → Program α ε (Flow σ ρ)) :
    List ι → σ → Program α ε (LoopEnd σ ρ)
  | [], state => pure (.finished state)
  | item :: rest, state => do
    match ← body item state with
    | .next state => forOf body rest state
    | .stop state => pure (.finished state)
    | .done result => pure (.returned result)

/-- The weakest precondition for `post` to hold of what `program` returns or throws and of the
actions it adds to `history`. -/
def wp (program : Program α ε β) (history : List α) (post : Except ε β → List α → Prop) : Prop :=
  post (program history).1 (program history).2

variable {program : Program α ε β} {history : List α} {post : Except ε β → List α → Prop}

theorem wp_mono {post' : Except ε β → List α → Prop} (h : wp program history post)
    (weaker : ∀ result actions, post result actions → post' result actions) :
    wp program history post' :=
  weaker _ _ h

@[simp] theorem wp_pure {value : β} :
    wp (pure value : Program α ε β) history post ↔ post (.ok value) [] := Iff.rfl

@[simp] theorem wp_ofExcept {value : Except ε β} :
    wp (ofExcept value) history post ↔ post value [] := Iff.rfl

@[simp] theorem wp_observe {read : List α → β} :
    wp (observe read) history post ↔ post (.ok (read history)) [] := Iff.rfl

@[simp] theorem wp_perform {action : α} {post : Except ε Unit → List α → Prop} :
    wp (perform action) history post ↔ post (.ok ()) [action] := Iff.rfl

@[simp] theorem wp_call {reply : List α → Except ε β} {action : Except ε β → α} :
    wp (call reply action) history post ↔ post (reply history) [action (reply history)] := Iff.rfl

@[simp] theorem wp_attempt {post : Except ε (Except ε β) → List α → Prop} :
    wp (attempt program) history post ↔
      wp program history fun result actions => post (.ok result) actions := Iff.rfl

theorem wp_bind {next : β → Program α ε γ} {post : Except ε γ → List α → Prop} :
    wp (program >>= next) history post ↔
      wp program history fun result actions =>
        match result with
        | .ok value => wp (next value) (history ++ actions) fun result' actions' =>
            post result' (actions ++ actions')
        | .error error => post (.error error) actions := by
  simp only [wp, bind]
  rcases program history with ⟨_ | value, actions⟩ <;> rfl

/-- The rule of loops: `inv done state actions` holds when the items `done` have been passed. -/
theorem wp_forOf {ι σ ρ : Type} {body : ι → σ → Program α ε (Flow σ ρ)} {items : List ι}
    {start : σ} {post : Except ε (LoopEnd σ ρ) → List α → Prop}
    (inv : List ι → σ → List α → Prop) (init : inv [] start [])
    (step : ∀ passed item rest state actions, items = passed ++ item :: rest →
      inv passed state actions →
      wp (body item state) (history ++ actions) fun result more =>
        match result with
        | .ok (.next state') => inv (passed ++ [item]) state' (actions ++ more)
        | .ok (.stop state') => post (.ok (.finished state')) (actions ++ more)
        | .ok (.done result) => post (.ok (.returned result)) (actions ++ more)
        | .error error => post (.error error) (actions ++ more))
    (last : ∀ state actions, inv items state actions → post (.ok (.finished state)) actions) :
    wp (forOf body items start) history post := by
  -- The items still ahead; what has been passed and done so far only grows.
  suffices run : ∀ (rest passed : List ι) state actions, items = passed ++ rest →
      inv passed state actions →
      wp (forOf body rest state) (history ++ actions) fun result more =>
        post result (actions ++ more) by
    simpa using run items [] start [] rfl init
  intro rest
  induction rest with
  | nil =>
    intro passed state actions split hInv
    have whole : items = passed := by simpa using split
    simpa [forOf] using last state actions (whole ▸ hInv)
  | cons item rest ih =>
    intro passed state actions split hInv
    rw [forOf, wp_bind]
    refine wp_mono (step passed item rest state actions split hInv) ?_
    rintro (error | flow) more h
    · exact h
    · cases flow with
      | next state' =>
        have later := ih (passed ++ [item]) state' (actions ++ more) (by simp [split]) h
        simpa only [List.append_assoc] using later
      | stop state' => simpa using h
      | done result => simpa using h

/-- A loop that gets past some items throws where the next one does, in whatever state. -/
theorem wp_forOf_throws {ι σ ρ : Type} {body : ι → σ → Program α ε (Flow σ ρ)} {before : List ι}
    {item : ι} (rest : List ι) (state : σ)
    (onward : ∀ passed ∈ before, ∀ state history,
      wp (body passed state) history fun outcome _ => ∃ later, outcome = .ok (.next later))
    (throws : ∀ state history,
      wp (body item state) history fun outcome _ => ∃ error, outcome = .error error) :
    wp (forOf body (before ++ item :: rest) state) history fun outcome _ =>
      ∃ error, outcome = .error error := by
  induction before generalizing state history with
  | nil =>
    rw [List.nil_append, forOf, wp_bind]
    refine wp_mono (throws state history) ?_
    rintro outcome actions ⟨error, rfl⟩
    exact ⟨error, rfl⟩
  | cons passed before ih =>
    rw [List.cons_append, forOf, wp_bind]
    refine wp_mono (onward passed List.mem_cons_self state history) ?_
    rintro outcome actions ⟨later, rfl⟩
    exact ih later fun other listed => onward other (List.mem_cons_of_mem passed listed)

/-! ### Relations that runs keep -/

/-- A relation between a history and the actions that follow it, kept by no action and by one
stretch of actions after another. -/
structure Chains (rel : List α → List α → Prop) : Prop where
  nil : ∀ history, rel history []
  append : ∀ {history actions more}, rel history actions → rel (history ++ actions) more →
    rel history (actions ++ more)

/-- Every run of `program` adds actions that `rel` relates to the history before them, whether it
returns or throws. -/
def Keeps (rel : List α → List α → Prop) (program : Program α ε β) : Prop :=
  ∀ history, wp program history fun _ actions => rel history actions

namespace Keeps

variable {rel : List α → List α → Prop}

theorem pure (chains : Chains rel) (value : β) : Keeps rel (pure value : Program α ε β) :=
  chains.nil

theorem ofExcept (chains : Chains rel) (value : Except ε β) :
    Keeps rel (Program.ofExcept value : Program α ε β) :=
  chains.nil

theorem observe (chains : Chains rel) (read : List α → β) :
    Keeps rel (Program.observe read : Program α ε β) :=
  chains.nil

theorem call {reply : List α → Except ε β} {action : Except ε β → α}
    (kept : ∀ history, rel history [action (reply history)]) :
    Keeps rel (Program.call reply action) :=
  kept

theorem attempt (kept : Keeps rel program) : Keeps rel (Program.attempt program) := kept

theorem bind (chains : Chains rel) {next : β → Program α ε γ} (first : Keeps rel program)
    (later : ∀ value, Keeps rel (next value)) : Keeps rel (program >>= next) := by
  intro history
  rw [wp_bind]
  refine wp_mono (first history) ?_
  rintro (error | value) actions kept
  · exact kept
  · exact wp_mono (later value _) fun _ more onward => chains.append kept onward

theorem forOf (chains : Chains rel) {ι σ ρ : Type} {body : ι → σ → Program α ε (Flow σ ρ)}
    (items : List ι) (state : σ) (kept : ∀ item state, Keeps rel (body item state)) :
    Keeps rel (Program.forOf body items state) := by
  induction items generalizing state with
  | nil => exact pure chains _
  | cons item items ih =>
    refine bind chains (kept item state) fun flow => ?_
    cases flow with
    | next later => exact ih later
    | stop last => exact pure chains _
    | done result => exact pure chains _

end Keeps

/-! ### Runs that go on -/

/-- The outcome of a run, with actions that came before it. -/
def after (actions : List α) (run : Except ε β × List α) : Except ε β × List α :=
  (run.1, actions ++ run.2)

@[simp] theorem after_nil (run : Except ε β × List α) : after [] run = run := rfl

theorem after_after (first second : List α) (run : Except ε β × List α) :
    after first (after second run) = after (first ++ second) run := by
  simp [after]

theorem after_inj {actions : List α} {run run' : Except ε β × List α} :
    after actions run = after actions run' ↔ run = run' := by
  simp [after, Prod.ext_iff]

theorem bind_of_ok {value : β} {actions : List α} {next : β → Program α ε γ}
    (ran : program history = (.ok value, actions)) :
    (program >>= next) history = after actions (next value (history ++ actions)) := by
  simp only [bind, ran, after]

theorem bind_of_error {error : ε} {actions : List α} {next : β → Program α ε γ}
    (ran : program history = (.error error, actions)) :
    (program >>= next) history = (.error error, actions) := by
  simp only [bind, ran]

/-- A program that goes on as another goes on with that one's sequel. -/
theorem bind_of_after {program' : Program α ε β} {actions : List α} {next : β → Program α ε γ}
    (ran : program history = after actions (program' (history ++ actions))) :
    (program >>= next) history = after actions ((program' >>= next) (history ++ actions)) := by
  rcases later : program' (history ++ actions) with ⟨error | value, more⟩ <;> rw [later] at ran
  · rw [bind_of_error ran, bind_of_error later]
    rfl
  · rw [bind_of_ok ran, bind_of_ok later, after_after, List.append_assoc]

instance : LawfulMonad (Program α ε) :=
  LawfulMonad.mk' _
    (fun program => by
      funext history
      rcases ran : program history with ⟨error | value, actions⟩
      · exact bind_of_error ran
      · exact (bind_of_ok ran).trans (Prod.ext rfl (List.append_nil _)))
    (fun value next => by
      funext history
      have ran : (pure value : Program α ε _) history = (.ok value, []) := rfl
      rw [bind_of_ok ran, List.append_nil, after_nil])
    (fun program next last => by
      funext history
      rcases ran : program history with ⟨error | value, actions⟩
      · rw [bind_of_error (bind_of_error ran), bind_of_error ran]
      · rw [bind_of_ok ran]
        exact bind_of_after (bind_of_ok ran))

theorem forOf_cons {ι σ ρ : Type} {body : ι → σ → Program α ε (Flow σ ρ)} (item : ι)
    (rest : List ι) (state : σ) :
    forOf body (item :: rest) state history =
      match body item state history with
      | (.ok (.next later), actions) => after actions (forOf body rest later (history ++ actions))
      | (.ok (.stop last), actions) => (.ok (.finished last), actions)
      | (.ok (.done result), actions) => (.ok (.returned result), actions)
      | (.error error, actions) => (.error error, actions) := by
  rw [forOf]
  rcases ran : body item state history with ⟨error | later | last | result, actions⟩
  · rw [bind_of_error ran]
  · rw [bind_of_ok ran]
  · rw [bind_of_ok ran]
    exact Prod.ext rfl (List.append_nil _)
  · rw [bind_of_ok ran]
    exact Prod.ext rfl (List.append_nil _)

theorem forOf_cons_bind {ι σ ρ : Type} {body : ι → σ → Program α ε (Flow σ ρ)} (item : ι)
    (rest : List ι) (state : σ) (next : LoopEnd σ ρ → Program α ε γ) :
    (forOf body (item :: rest) state >>= next) history =
      match body item state history with
      | (.ok (.next later), actions) =>
        after actions ((forOf body rest later >>= next) (history ++ actions))
      | (.ok (.stop last), actions) => after actions (next (.finished last) (history ++ actions))
      | (.ok (.done result), actions) =>
        after actions (next (.returned result) (history ++ actions))
      | (.error error, actions) => (.error error, actions) := by
  have whole : forOf body (item :: rest) state history = _ := forOf_cons item rest state
  rcases ran : body item state history with ⟨error | later | last | result, actions⟩ <;>
    rw [ran] at whole
  · exact bind_of_error whole
  · exact bind_of_after whole
  · exact bind_of_ok whole
  · exact bind_of_ok whole

/-- A loop without a `break` that has passed some of its items goes on with the others. -/
theorem forOf_append {ι σ ρ : Type} {body : ι → σ → Program α ε (Flow σ ρ)} {items : List ι}
    {state state' : σ} {actions : List α}
    (unbroken : ∀ item state history last actions,
      body item state history ≠ (.ok (.stop last), actions))
    (ran : forOf body items state history = (.ok (.finished state'), actions)) (rest : List ι) :
    forOf body (items ++ rest) state history =
      after actions (forOf body rest state' (history ++ actions)) := by
  induction items generalizing state history actions with
  | nil =>
    cases ran
    simp
  | cons item items ih =>
    rw [forOf_cons] at ran
    rw [List.cons_append, forOf_cons]
    rcases first : body item state history with ⟨error | later | last | result, more⟩ <;>
      rw [first] at ran
    · cases ran
    · rcases onward : forOf body items later (history ++ more) with ⟨result, actions'⟩
      dsimp only at ran ⊢
      rw [onward, after, Prod.mk.injEq] at ran
      obtain ⟨rfl, rfl⟩ := ran
      rw [ih onward, after_after, List.append_assoc]
    · exact absurd first (unbroken _ _ _ _ _)
    · cases ran

end Program

end Donna.Async
