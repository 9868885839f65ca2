import Donna.Base.Memo
import Donna.ControlPlane.RuntimeConfig
import Donna.Routing.ModelRouter

/-! The resolver that binds model ids to adapters.  It reads the environment when an id is first
asked for with its provider configured, builds one adapter then, and answers with that one from
then on. -/

namespace Donna

open Js Machine Memo

/-- What an adapter is constructed with. -/
inductive ModelBinding
  | anthropic (model : ModelEntry)
  | openAi (model : ModelEntry) (apiKey : String) (baseURL : Option String)
  | localServer (model : ModelEntry) (baseURL : String) (apiKey : Option String)
  deriving DecidableEq

/-- The registry by id, in which the last entry of an id stands. -/
def byId (registry : List ModelEntry) : OrderedMap String ModelEntry :=
  registry.foldl (fun map m => map.set m.id m) .empty

/-- The adapter of a model, unless its provider is not configured. -/
def newAdapter (env : ProcessEnv) (model : ModelEntry) : Option ModelBinding :=
  match model.provider with
  | .anthropic => some (.anthropic model)
  | .openai => (presentVar (env "OPENAI_API_KEY")).map fun apiKey =>
    .openAi model apiKey (presentVar (env "OPENAI_BASE_URL"))
  | .localNode => (presentVar (env "LOCAL_MODEL_BASE_URL")).map fun baseURL =>
    .localServer model baseURL (presentVar (env "LOCAL_MODEL_API_KEY"))

/-- A call of the resolver, with the environment at the time. -/
structure ResolverCall where
  env : ProcessEnv
  modelId : String

/-- The resolver over its cache, whose objects are the adapters that it built. -/
def modelAdapterResolver (registry : List ModelEntry) (cache : Objects String ModelBinding)
    (call : ResolverCall) : Option (Object ModelBinding) × Objects String ModelBinding :=
  match cache.held.get call.modelId with
  | some cached => (some cached, cache)
  | none =>
    match (byId registry).get call.modelId with
    | none => (none, cache)
    | some model =>
      match newAdapter call.env model with
      | none => (none, cache)
      | some binding =>
        let adapter := ⟨cache.made, binding⟩
        (some adapter, ⟨cache.held.set call.modelId adapter, cache.made + 1⟩)

/-- What the resolver would build for an id. -/
def configured (registry : List ModelEntry) (env : ProcessEnv) (modelId : String) :
    Option ModelBinding :=
  ((byId registry).get modelId).bind (newAdapter env)

/-- What was configured for an id when it was first asked for with its provider configured. -/
def firstConfigured (registry : List ModelEntry) (calls : List ResolverCall) (modelId : String) :
    Option ModelBinding :=
  calls.findSome? fun call =>
    if call.modelId = modelId then configured registry call.env modelId else none

/-! ### Histories of calls -/

def ResolverCall.ask (registry : List ModelEntry) (call : ResolverCall) :
    Ask String ModelBinding :=
  ⟨call.modelId, configured registry call.env call.modelId⟩

theorem modelAdapterResolver_eq (registry : List ModelEntry) (cache : Objects String ModelBinding)
    (call : ResolverCall) :
    modelAdapterResolver registry cache call = ask cache (call.ask registry) := by
  unfold modelAdapterResolver ask
  simp only [ResolverCall.ask, configured]
  cases cache.held.get call.modelId with
  | some cached => rfl
  | none =>
    cases (byId registry).get call.modelId with
    | none => rfl
    | some model =>
      simp only [Option.bind_some]
      cases newAdapter call.env model <;> rfl

theorem firstPossible_map (registry : List ModelEntry) (calls : List ResolverCall)
    (modelId : String) : firstPossible (calls.map (·.ask registry)) modelId =
      firstConfigured registry calls modelId := by
  rw [firstPossible, firstConfigured, List.findSome?_map]
  congr 1
  funext call
  dsimp only [Function.comp_apply, ResolverCall.ask]
  split
  · next same => rw [same]
  · rfl

theorem firstConfigured_constant {registry : List ModelEntry} {env : ProcessEnv}
    {calls : List ResolverCall} {call : ResolverCall} (listed : call ∈ calls)
    (constant : ∀ call ∈ calls, call.env = env) :
    firstConfigured registry calls call.modelId = configured registry env call.modelId := by
  cases found : configured registry env call.modelId with
  | none =>
    refine List.findSome?_eq_none_iff.mpr fun other hOther => ?_
    split
    · rw [constant other hOther, found]
    · rfl
  | some binding =>
    obtain ⟨first, hFirst⟩ : ∃ first, firstConfigured registry calls call.modelId = some first := by
      refine Option.isSome_iff_exists.mp (List.findSome?_isSome_iff.mpr ⟨call, listed, ?_⟩)
      rw [if_pos rfl, constant call listed, found]
      rfl
    obtain ⟨other, hOther, given⟩ := List.exists_of_findSome?_eq_some hFirst
    split at given
    · rw [constant other hOther, found] at given
      rw [hFirst, given]
    · cases given

/-- The resolver over a history of calls in a changing environment: it answers with an adapter of
what was configured for the id first, with one adapter for an id and others for others; and as long
as the environment stays, it is the lookup that it caches. -/
theorem modelAdapterResolver_caches (registry : List ModelEntry) (calls : List ResolverCall) :
    let resolutions := visits (modelAdapterResolver registry) .empty calls
    (∀ before item after, resolutions = before ++ item :: after →
      item.output.map Object.value =
        firstConfigured registry (before.map (·.input) ++ [item.input]) item.input.modelId) ∧
    (∀ first ∈ resolutions, ∀ second ∈ resolutions, ∀ adapter adapter',
      first.output = some adapter → second.output = some adapter' →
        (adapter.serial = adapter'.serial ↔ first.input.modelId = second.input.modelId)) ∧
    ∀ env, (∀ call ∈ calls, call.env = env) → ∀ item ∈ resolutions,
      item.output.map Object.value = configured registry env item.input.modelId := by
  obtain ⟨hVisits, -⟩ := visits_map (modelAdapterResolver_eq registry) Objects.empty calls
  have outputs : ∀ before item after,
      visits (modelAdapterResolver registry) .empty calls = before ++ item :: after →
        item.output.map Object.value =
          firstConfigured registry (before.map (·.input) ++ [item.input]) item.input.modelId := by
    intro before item after split
    obtain ⟨earlier, later, -, hItem, hBefore, -, -⟩ := visits_split split
    have asked := (visits_map (modelAdapterResolver_eq registry) Objects.empty earlier).2
    rw [hItem, hBefore, map_input_visits]
    simp only [visit, modelAdapterResolver_eq]
    rw [← asked, output_final, ← firstPossible_map, List.map_append]
    rfl
  have mapped : ∀ item ∈ visits (modelAdapterResolver registry) .empty calls,
      ⟨item.before, item.input.ask registry, item.output, item.after⟩ ∈
        visits ask .empty (calls.map (·.ask registry)) := by
    intro item listed
    rw [hVisits]
    exact List.mem_map_of_mem listed
  refine ⟨outputs, ?_, ?_⟩
  · intro first hFirst second hSecond adapter adapter' answered answered'
    exact serial_eq_iff (mapped first hFirst) (mapped second hSecond) answered answered'
  · intro env constant item listed
    obtain ⟨before, after, split⟩ := List.append_of_mem listed
    rw [outputs before item after split]
    refine firstConfigured_constant (List.mem_append_right _ (List.mem_singleton_self _)) ?_
    intro call hCall
    refine constant call ?_
    have inputs : (visits (modelAdapterResolver registry) .empty calls).map (·.input) = calls :=
      map_input_visits _ calls
    rw [← inputs, split, List.map_append, List.map_cons]
    rcases List.mem_append.mp hCall with earlier | here
    · exact List.mem_append_left _ earlier
    · rw [List.mem_singleton.mp here]
      exact List.mem_append_right _ List.mem_cons_self

end Donna
