import Donna.Base.Machine
import Donna.Worker.Subscribers

/-! The subscriptions of an `InMemoryEventBus` as its clients hold them.  Each call of `subscribe`
makes one, and the function that it returns ends it, but the bus knows a handler by its identity:
two subscriptions of one function under one key share an entry of the set, and ending either
removes it. -/

namespace Donna

open Js

variable {κ : Type}

/-! ### The calls of a publish -/

/-- How the calls of a publish come out, by their position: what the handler does, and what
`onError` does with what the handler throws. -/
structure CallOutcomes where
  handled : ℕ → Except Thrown Unit
  reported : ℕ → Except Thrown Unit

/-- The loop of `publish` from a position on: the handlers that it calls, and whether the publish
resolves.  The bus has an `onError` if it reports. -/
def callHandlers (reports : Bool) (calls : CallOutcomes) : ℕ → List κ → List κ × Except Thrown Unit
  | _, [] => ([], .ok ())
  | position, handler :: rest =>
    let next := callHandlers reports calls (position + 1) rest
    match calls.handled position with
    | .ok () => (handler :: next.1, next.2)
    | .error _ =>
      if reports then
        match calls.reported position with
        | .ok () => (handler :: next.1, next.2)
        -- Thrown out of the `catch`, and so out of the loop.
        | .error error => ([handler], .error error)
      else (handler :: next.1, next.2)

def InMemoryEventBus.publish (bus : InMemoryEventBus κ) (reports : Bool) (calls : CallOutcomes)
    (event : EventEnvelope) : List κ × Except Thrown Unit :=
  callHandlers reports calls 0 (bus.matched event)

/-- The handler at a position throws, and so does the report of that. -/
def CallOutcomes.Stops (calls : CallOutcomes) (reports : Bool) (position : ℕ) : Prop :=
  reports = true ∧ (∃ error, calls.handled position = .error error) ∧
    ∃ error, calls.reported position = .error error

/-! ### Clients -/

/-- A subscription, whether its function has not been called, and whether no function has been
called since it was made that ended one of the same handler under the same key. -/
structure Subscription (κ : Type) where
  on : EventSubscription
  handler : κ
  active : Bool
  standing : Bool
  deriving DecidableEq

inductive BusOperation (κ : Type)
  | subscribe (on : EventSubscription) (handler : κ)
  /-- Call the function that the subscription at a position of the list came with. -/
  | unsubscribe (token : ℕ)
  | publish (event : EventEnvelope) (calls : CallOutcomes)

/-- The bus and the subscriptions that were made of it, in order. -/
structure BusClients (κ : Type) where
  bus : InMemoryEventBus κ
  subscriptions : List (Subscription κ)

namespace BusClients

def new : BusClients κ := ⟨.new, []⟩

variable [DecidableEq κ]

/-- A subscription once the function of `ended` has been called. -/
def struck (ended subscription : Subscription κ) : Subscription κ :=
  { subscription with standing := subscription.standing &&
      !(subscription.on = ended.on ∧ subscription.handler = ended.handler) }

/-- The subscriptions once the function of `ended`, at the position `token`, has been called. -/
def ending (subscriptions : List (Subscription κ)) (token : ℕ) (ended : Subscription κ) :
    List (Subscription κ) :=
  (subscriptions.map (struck ended)).modify token
    fun subscription => { subscription with active := false }

/-- An operation, with the handlers that a publish calls and whether it resolves. -/
def step (reports : Bool) (clients : BusClients κ) :
    BusOperation κ → (List κ × Except Thrown Unit) × BusClients κ
  | .subscribe on handler => (([], .ok ()), {
      bus := clients.bus.subscribe on handler
      subscriptions := clients.subscriptions ++ [⟨on, handler, true, true⟩] })
  | .unsubscribe token =>
    match clients.subscriptions[token]? with
    | none => (([], .ok ()), clients)
    | some ended => (([], .ok ()), {
        bus := clients.bus.unsubscribe ended.on ended.handler
        subscriptions := ending clients.subscriptions token ended })
  | .publish event calls => (clients.bus.publish reports calls event, clients)

end BusClients

/-- The handlers of the active subscriptions under a key, once for each. -/
def activeHandlers (subscriptions : List (Subscription κ)) (on : EventSubscription) : List κ :=
  (subscriptions.filter fun subscription => subscription.active ∧ subscription.on = on).map
    (·.handler)

/-- The handlers of the active subscriptions that an event matches, once for each. -/
def matchingHandlers (subscriptions : List (Subscription κ)) (event : EventEnvelope) : List κ :=
  activeHandlers subscriptions (.type event.type) ++ activeHandlers subscriptions .all

/-- Under a key no two active subscriptions have one handler, and none has lost its entry to the
end of another. -/
structure SubscribedApart (subscriptions : List (Subscription κ)) (on : EventSubscription) :
    Prop where
  distinct : (activeHandlers subscriptions on).Nodup
  standing : ∀ subscription ∈ subscriptions, subscription.on = on → subscription.active = true →
    subscription.standing = true

/-! ### What the bus knows of the subscriptions -/

/-- The set under a key has the handlers of the subscriptions that stand. -/
structure BusClients.Known (clients : BusClients κ) : Prop where
  handlers : ∀ on handler, handler ∈ clients.bus.handlersOf on ↔
    ∃ subscription ∈ clients.subscriptions, subscription.on = on ∧
      subscription.handler = handler ∧ subscription.standing = true
  distinct : ∀ on, (clients.bus.handlersOf on).Nodup
  active : ∀ subscription ∈ clients.subscriptions, subscription.standing = true →
    subscription.active = true

section Known

variable {bus : InMemoryEventBus κ} {on other : EventSubscription}
  {handler given : κ}

namespace InMemoryEventBus

theorem handlersOf_set (set : List κ) :
    (⟨bus.handlers.set on set⟩ : InMemoryEventBus κ).handlersOf other =
      if other = on then set else bus.handlersOf other := by
  unfold handlersOf
  rw [OrderedMap.get_set]
  split <;> rfl

variable [DecidableEq κ]

theorem mem_handlersOf_subscribe : given ∈ (bus.subscribe on handler).handlersOf other ↔
    given ∈ bus.handlersOf other ∨ other = on ∧ given = handler := by
  rw [subscribe, handlersOf_set]
  by_cases same : other = on
  · subst same
    by_cases listed : handler ∈ bus.handlersOf other
    · rw [if_pos rfl, if_pos listed]
      exact ⟨.inl, fun h => h.elim id fun ⟨_, h⟩ => h ▸ listed⟩
    · rw [if_pos rfl, if_neg listed, List.mem_append, List.mem_singleton]
      simp
  · simp [same]

theorem nodup_handlersOf_subscribe (distinct : ∀ on, (bus.handlersOf on).Nodup) :
    ((bus.subscribe on handler).handlersOf other).Nodup := by
  rw [subscribe, handlersOf_set]
  split
  · split
    next listed => exact distinct on
    next fresh =>
      refine List.nodup_append.mpr ⟨distinct on, List.nodup_singleton handler, ?_⟩
      rintro first hFirst second hSecond rfl
      rw [List.mem_singleton] at hSecond
      exact fresh (hSecond ▸ hFirst)
  · exact distinct other

theorem mem_handlersOf_unsubscribe (distinct : (bus.handlersOf on).Nodup) :
    given ∈ (bus.unsubscribe on handler).handlersOf other ↔
      given ∈ bus.handlersOf other ∧ ¬ (other = on ∧ given = handler) := by
  rw [unsubscribe, handlersOf_set]
  by_cases same : other = on
  · subst same
    rw [if_pos rfl, distinct.mem_erase_iff]
    simp [and_comm]
  · simp [same]

theorem nodup_handlersOf_unsubscribe (distinct : ∀ on, (bus.handlersOf on).Nodup) :
    ((bus.unsubscribe on handler).handlersOf other).Nodup := by
  rw [unsubscribe, handlersOf_set]
  split
  · exact (distinct on).erase handler
  · exact distinct other

end InMemoryEventBus

namespace BusClients

theorem new_known : (new : BusClients κ).Known where
  handlers on handler := by simp [new, InMemoryEventBus.new, InMemoryEventBus.handlersOf]
  distinct on := by simp [new, InMemoryEventBus.new, InMemoryEventBus.handlersOf]
  active _ listed := absurd listed List.not_mem_nil

theorem exists_split_at {subscriptions : List (Subscription κ)} {token : ℕ}
    {ended : Subscription κ} (found : subscriptions[token]? = some ended) :
    ∃ before after, subscriptions = before ++ ended :: after ∧ before.length = token := by
  obtain ⟨bound, rfl⟩ := List.getElem?_eq_some_iff.mp found
  refine ⟨subscriptions.take token, subscriptions.drop (token + 1), ?_, ?_⟩
  · rw [List.getElem_cons_drop, List.take_append_drop]
  · rw [List.length_take]
    omega

variable [DecidableEq κ] {clients : BusClients κ} {subscription ended : Subscription κ}
  {before after : List (Subscription κ)}

theorem Known.subscribe (known : clients.Known) (on : EventSubscription) (handler : κ) :
    Known ⟨clients.bus.subscribe on handler,
      clients.subscriptions ++ [⟨on, handler, true, true⟩]⟩ where
  handlers other given := by
    rw [InMemoryEventBus.mem_handlersOf_subscribe, known.handlers]
    constructor
    · rintro (⟨subscription, listed, h⟩ | ⟨rfl, rfl⟩)
      · exact ⟨subscription, List.mem_append_left _ listed, h⟩
      · exact ⟨_, List.mem_append_right _ (List.mem_singleton_self _), rfl, rfl, rfl⟩
    · rintro ⟨subscription, listed, hOn, hHandler, standing⟩
      rcases List.mem_append.mp listed with old | new
      · exact .inl ⟨subscription, old, hOn, hHandler, standing⟩
      · rw [List.mem_singleton.mp new] at hOn hHandler
        exact .inr ⟨hOn.symm, hHandler.symm⟩
  distinct other := InMemoryEventBus.nodup_handlersOf_subscribe known.distinct
  active subscription listed standing := by
    rcases List.mem_append.mp listed with old | new
    · exact known.active subscription old standing
    · rw [List.mem_singleton.mp new]

theorem struck_standing : (struck ended subscription).standing = true ↔
    subscription.standing = true ∧
      ¬ (subscription.on = ended.on ∧ subscription.handler = ended.handler) := by
  rw [struck, Bool.and_eq_true, Bool.not_eq_true', decide_eq_false_iff_not]

/-- Ending a subscription strikes those of its key and handler, and only its own is no longer
active. -/
theorem ending_eq : ending (before ++ ended :: after) before.length ended =
    before.map (struck ended) ++
      { struck ended ended with active := false } :: after.map (struck ended) := by
  induction before with
  | nil => rfl
  | cons subscription before ih => exact congrArg (struck ended subscription :: ·) ih

theorem mem_ending_standing :
    (∃ subscription ∈ ending (before ++ ended :: after) before.length ended,
      subscription.on = other ∧ subscription.handler = given ∧ subscription.standing = true) ↔
    (∃ subscription ∈ before ++ ended :: after, subscription.on = other ∧
      subscription.handler = given ∧ subscription.standing = true) ∧
      ¬ (other = ended.on ∧ given = ended.handler) := by
  rw [ending_eq]
  constructor
  · rintro ⟨subscription, listed, rfl, rfl, standing⟩
    rcases List.mem_append.mp listed with early | rest
    · obtain ⟨earlier, hEarlier, rfl⟩ := List.mem_map.mp early
      rw [struck_standing] at standing
      exact ⟨⟨earlier, List.mem_append_left _ hEarlier, rfl, rfl, standing.1⟩, standing.2⟩
    · rcases List.mem_cons.mp rest with rfl | late
      · exact absurd ⟨rfl, rfl⟩ (struck_standing.mp standing).2
      · obtain ⟨later, hLater, rfl⟩ := List.mem_map.mp late
        rw [struck_standing] at standing
        exact ⟨⟨later, List.mem_append_right _ (List.mem_cons_of_mem _ hLater), rfl, rfl,
          standing.1⟩, standing.2⟩
  · rintro ⟨⟨subscription, listed, rfl, rfl, standing⟩, apart⟩
    have stands := struck_standing.mpr ⟨standing, apart⟩
    refine ⟨struck ended subscription, ?_, rfl, rfl, stands⟩
    rcases List.mem_append.mp listed with early | rest
    · exact List.mem_append_left _ (List.mem_map_of_mem early)
    · rcases List.mem_cons.mp rest with rfl | late
      · exact absurd ⟨rfl, rfl⟩ apart
      · exact List.mem_append_right _ (List.mem_cons_of_mem _ (List.mem_map_of_mem late))

theorem Known.unsubscribe (known : clients.Known)
    (split : clients.subscriptions = before ++ ended :: after) :
    Known ⟨clients.bus.unsubscribe ended.on ended.handler,
      ending clients.subscriptions before.length ended⟩ where
  handlers other given := by
    rw [InMemoryEventBus.mem_handlersOf_unsubscribe (known.distinct _), known.handlers, split,
      mem_ending_standing]
  distinct other := InMemoryEventBus.nodup_handlersOf_unsubscribe known.distinct
  active subscription listed standing := by
    have active := known.active
    rw [split] at listed active
    rw [ending_eq] at listed
    rcases List.mem_append.mp listed with early | rest
    · obtain ⟨earlier, hEarlier, rfl⟩ := List.mem_map.mp early
      exact active earlier (List.mem_append_left _ hEarlier) (struck_standing.mp standing).1
    · rcases List.mem_cons.mp rest with rfl | late
      · exact absurd ⟨rfl, rfl⟩ (struck_standing.mp standing).2
      · obtain ⟨later, hLater, rfl⟩ := List.mem_map.mp late
        exact active later (List.mem_append_right _ (List.mem_cons_of_mem _ hLater))
          (struck_standing.mp standing).1

theorem Known.step (reports : Bool) (operation : BusOperation κ) (known : clients.Known) :
    (clients.step reports operation).2.Known := by
  cases operation with
  | subscribe on handler => exact known.subscribe on handler
  | publish event calls => exact known
  | unsubscribe token =>
    cases found : clients.subscriptions[token]? with
    | none => simpa only [BusClients.step, found] using known
    | some ended =>
      obtain ⟨before, after, split, rfl⟩ := exists_split_at found
      simpa only [BusClients.step, found] using known.unsubscribe split

theorem known_final (reports : Bool) (operations : List (BusOperation κ)) :
    (Machine.final (BusClients.step reports) .new operations).Known :=
  Machine.final_invariant (fun _ operation known => known.step reports operation) new_known
    operations

end BusClients

end Known

/-! ### What a publish calls -/

section Calls

variable {reports : Bool} {calls : CallOutcomes} {position : ℕ} {handler : κ} {rest : List κ}

theorem callHandlers_of_stops (stops : calls.Stops reports position) :
    (callHandlers reports calls position (handler :: rest)).1 = [handler] := by
  obtain ⟨rfl, ⟨error, threw⟩, ⟨error', threw'⟩⟩ := stops
  simp [callHandlers, threw, threw']

theorem callHandlers_of_not_stops (goes : ¬ calls.Stops reports position) :
    (callHandlers reports calls position (handler :: rest)).1 =
      handler :: (callHandlers reports calls (position + 1) rest).1 := by
  cases handled : calls.handled position with
  | ok => simp [callHandlers, handled]
  | error error =>
    cases reports with
    | false => simp [callHandlers, handled]
    | true =>
      cases reported : calls.reported position with
      | ok => simp [callHandlers, handled, reported]
      | error error' => exact absurd ⟨rfl, ⟨error, handled⟩, ⟨error', reported⟩⟩ goes

theorem callHandlers_prefix (handlers : List κ) :
    (callHandlers reports calls position handlers).1 <+: handlers := by
  induction handlers generalizing position with
  | nil => exact List.prefix_rfl
  | cons handler rest ih =>
    by_cases stops : calls.Stops reports position
    · rw [callHandlers_of_stops stops]
      exact List.prefix_append [handler] rest
    · rw [callHandlers_of_not_stops stops]
      exact (List.prefix_cons_inj handler).mpr ih

/-- All handlers are called exactly when the loop is not left before the last. -/
theorem callHandlers_eq_iff (handlers : List κ) :
    (callHandlers reports calls position handlers).1 = handlers ↔
      ∀ index, index + 1 < handlers.length → ¬ calls.Stops reports (position + index) := by
  induction handlers generalizing position with
  | nil => simp [callHandlers]
  | cons handler rest ih =>
    by_cases stops : calls.Stops reports position
    · rw [callHandlers_of_stops stops]
      constructor
      · intro only
        rw [List.cons.injEq] at only
        intro index bound
        rw [← only.2] at bound
        simp at bound
      · intro goes
        cases rest with
        | nil => rfl
        | cons next rest => exact absurd stops (goes 0 (by simp))
    · rw [callHandlers_of_not_stops stops, List.cons.injEq, ih]
      constructor
      · rintro ⟨-, later⟩ index bound
        cases index with
        | zero => exact stops
        | succ index =>
          have goes := later index (by simpa using bound)
          rwa [Nat.add_assoc, Nat.add_comm 1] at goes
      · intro goes
        refine ⟨rfl, fun index bound => ?_⟩
        rw [Nat.add_assoc, Nat.add_comm 1]
        exact goes (index + 1) (by simpa using bound)

end Calls

section Matched

variable {clients : BusClients κ} {on : EventSubscription}

theorem mem_activeHandlers {subscriptions : List (Subscription κ)} {handler : κ} :
    handler ∈ activeHandlers subscriptions on ↔ ∃ subscription ∈ subscriptions,
      subscription.on = on ∧ subscription.handler = handler ∧ subscription.active = true := by
  simp only [activeHandlers, List.mem_map, List.mem_filter, decide_eq_true_eq]
  constructor
  · rintro ⟨subscription, ⟨listed, active, hOn⟩, same⟩
    exact ⟨subscription, listed, hOn, same, active⟩
  · rintro ⟨subscription, listed, hOn, same, active⟩
    exact ⟨subscription, ⟨listed, active, hOn⟩, same⟩

theorem BusClients.Known.handlersOf_subperm (known : clients.Known) (on : EventSubscription) :
    (clients.bus.handlersOf on).Subperm (activeHandlers clients.subscriptions on) := by
  apply (known.distinct on).subperm
  intro handler listed
  obtain ⟨subscription, hSubscription, hOn, same, standing⟩ := (known.handlers on handler).mp listed
  have active := known.active subscription hSubscription standing
  exact mem_activeHandlers.mpr ⟨subscription, hSubscription, hOn, same, active⟩

/-- The set under a key has one entry for each active subscription exactly when these are apart. -/
theorem BusClients.Known.handlersOf_perm_iff (known : clients.Known) :
    (clients.bus.handlersOf on).Perm (activeHandlers clients.subscriptions on) ↔
      SubscribedApart clients.subscriptions on := by
  constructor
  · intro perm
    have distinct := perm.nodup_iff.mp (known.distinct on)
    refine ⟨distinct, fun subscription listed hOn active => ?_⟩
    have member := mem_activeHandlers.mpr ⟨subscription, listed, hOn, rfl, active⟩
    obtain ⟨other, hOther, otherOn, same, standing⟩ :=
      (known.handlers on subscription.handler).mp (perm.mem_iff.mpr member)
    have otherActive := known.active other hOther standing
    obtain rfl : subscription = other := by
      refine List.inj_on_of_nodup_map distinct ?_ ?_ same.symm
      · simp [listed, active, hOn]
      · simp [hOther, otherActive, otherOn]
    exact standing
  · intro apart
    refine (List.perm_ext_iff_of_nodup (known.distinct on) apart.distinct).mpr fun handler => ?_
    refine ⟨fun h => (known.handlersOf_subperm on).subset h, fun h => ?_⟩
    obtain ⟨subscription, listed, hOn, same, active⟩ := mem_activeHandlers.mp h
    have standing := apart.standing subscription listed hOn active
    exact (known.handlers on handler).mpr ⟨subscription, listed, hOn, same, standing⟩

theorem BusClients.Known.matched_subperm (known : clients.Known) (event : EventEnvelope) :
    (clients.bus.matched event).Subperm (matchingHandlers clients.subscriptions event) :=
  (known.handlersOf_subperm _).append (known.handlersOf_subperm _)

theorem BusClients.Known.matched_perm_iff (known : clients.Known) (event : EventEnvelope) :
    (clients.bus.matched event).Perm (matchingHandlers clients.subscriptions event) ↔
      SubscribedApart clients.subscriptions (.type event.type) ∧
        SubscribedApart clients.subscriptions .all := by
  rw [← known.handlersOf_perm_iff, ← known.handlersOf_perm_iff]
  constructor
  · intro perm
    have typed := known.handlersOf_subperm (.type event.type)
    have wild := known.handlersOf_subperm .all
    have total := perm.length_eq
    rw [InMemoryEventBus.matched, matchingHandlers, List.length_append, List.length_append] at total
    have typedLength := typed.length_le
    have wildLength := wild.length_le
    exact ⟨typed.perm_of_length_le (by omega), wild.perm_of_length_le (by omega)⟩
  · rintro ⟨typed, wild⟩
    exact typed.append wild

end Matched

/-- After any operations of its clients, a publish calls the handler of each active subscription
that its event matches, once for each, if and only if these subscriptions are apart and no report
of a failure throws before the last of them. -/
theorem publish_calls_each_iff [DecidableEq κ] (reports : Bool) (operations : List (BusOperation κ))
    (event : EventEnvelope) (calls : CallOutcomes) :
    let clients := Machine.final (BusClients.step reports) .new operations
    let matching := matchingHandlers clients.subscriptions event
    (clients.bus.publish reports calls event).1.Perm matching ↔
      SubscribedApart clients.subscriptions (.type event.type) ∧
      SubscribedApart clients.subscriptions .all ∧
      ∀ position, position + 1 < matching.length → ¬ calls.Stops reports position := by
  intro clients matching
  have known : clients.Known := BusClients.known_final reports operations
  have subperm := known.matched_subperm event
  have front : (clients.bus.publish reports calls event).1 <+: clients.bus.matched event :=
    callHandlers_prefix _
  have complete : (clients.bus.publish reports calls event).1 = clients.bus.matched event ↔
      ∀ index, index + 1 < (clients.bus.matched event).length →
        ¬ calls.Stops reports (0 + index) := callHandlers_eq_iff _
  rw [← and_assoc, ← known.matched_perm_iff]
  constructor
  · intro perm
    have whole : (clients.bus.publish reports calls event).1 = clients.bus.matched event :=
      front.eq_of_length_le (subperm.length_le.trans perm.length_eq.ge)
    rw [whole] at perm
    refine ⟨perm, fun position bound => ?_⟩
    have goes := complete.mp whole position (by rwa [perm.length_eq])
    rwa [Nat.zero_add] at goes
  · rintro ⟨perm, goes⟩
    have whole : (clients.bus.publish reports calls event).1 = clients.bus.matched event := by
      refine complete.mpr fun position bound => ?_
      rw [Nat.zero_add]
      exact goes position (by rwa [← perm.length_eq])
    rw [whole]
    exact perm

/-- A handler throws and so does its report, and the handler behind it is not called.  One function
is subscribed twice and one of the two is ended, and it is not called at all. -/
theorem publish_misses_active :
    let boom : Except Thrown Unit := .error (.value (.string "boom"))
    let failing : CallOutcomes := ⟨fun _ => boom, fun _ => boom⟩
    let quiet : CallOutcomes := ⟨fun _ => .ok (), fun _ => .ok ()⟩
    let two := Machine.final (BusClients.step true) .new
      [.subscribe .all "projection", .subscribe .all "audit"]
    let shared := Machine.final (BusClients.step true) .new
      [.subscribe .all "projection", .subscribe .all "projection", .unsubscribe 0]
    ¬ (two.bus.publish true failing crmCreated).1.Perm
        (matchingHandlers two.subscriptions crmCreated) ∧
      ¬ (shared.bus.publish true quiet crmCreated).1.Perm
        (matchingHandlers shared.subscriptions crmCreated) := by
  decide

end Donna
