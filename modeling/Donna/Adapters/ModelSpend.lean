import Donna.Routing.ModelRouter
import Donna.Orchestrator.Adapters
import Mathlib.Tactic.Ring

/-! The model adapters and the cost that they report.  Both price a response with `estimateCostUsd`,
which takes the cached tokens out of the input.  OpenAI counts them in its `prompt_tokens`;
Anthropic reports them beside its `input_tokens`, so its adapter takes them out once too often. -/

namespace Donna

open Js

/-! ### The price of a usage -/

structure TokenUsage where
  inputTokens : ℚ
  cachedInputTokens : Option ℚ
  outputTokens : ℚ

def ModelEntry.cachedRate (model : ModelEntry) : ℚ :=
  model.cachedInputCostPer1M.getD model.inputCostPer1M

def estimateCostUsd (model : ModelEntry) (usage : TokenUsage) : ℚ :=
  let cached := usage.cachedInputTokens.getD 0
  let uncachedInput := max 0 (usage.inputTokens - cached)
  let inputCost := (uncachedInput * model.inputCostPer1M + cached * model.cachedRate) / 1000000
  let outputCost := usage.outputTokens * model.outputCostPer1M / 1000000
  inputCost + outputCost

/-- A result as an adapter returns it. -/
structure AdapterResult extends ModelResult where
  finishReason : String

/-- The usage of a result, with the cost of its tokens at the model's prices. -/
def pricedUsage (model : ModelEntry) (tokens : TokenUsage) (latencyMs : ℚ) : ModelUsage where
  inputTokens := tokens.inputTokens
  cachedInputTokens := tokens.cachedInputTokens
  outputTokens := tokens.outputTokens
  costUsd := estimateCostUsd model tokens
  latencyMs := latencyMs

/-! ### Anthropic -/

structure AnthropicMessageResponseBlock where
  type : String
  text : Option String

structure AnthropicUsage where
  inputTokens : ℕ
  outputTokens : ℕ
  cacheReadInputTokens : Option ℕ

structure AnthropicMessageResponse where
  content : List AnthropicMessageResponseBlock
  stopReason : Option String
  usage : AnthropicUsage

structure AnthropicModelAdapter where
  model : ModelEntry
  enableThinking : Bool
  defaultMaxOutputTokens : ℚ := 16000

/-- The effort level of a reasoning tier. -/
def effortForTier (tier : ℚ) : String :=
  if tier ≤ 2 then "low"
  else if tier ≤ 5 then "medium"
  else if tier ≤ 7 then "high"
  else if tier ≤ 9 then "xhigh"
  else "max"

namespace AnthropicModelAdapter

variable (adapter : AnthropicModelAdapter)

def buildParams (input : ModelRequest) : JsValue :=
  let system := "\n\n".intercalate
    ((input.messages.filter fun m => m.role == "system").map ModelMessage.content)
  let messages := (input.messages.filter fun m => m.role != "system").map fun m =>
    JsValue.object [
      ("role", .string (if m.role = "assistant" then "assistant" else "user")),
      ("content", .string m.content)]
  .object ([
    ("model", .string adapter.model.id),
    ("max_tokens",
      .number (.finite (input.maxOutputTokens.getD adapter.defaultMaxOutputTokens))),
    ("messages", .array messages)] ++
    (if system ≠ "" then [("system", .string system)] else []) ++
    if adapter.enableThinking then [
      ("thinking", .object [("type", .string "adaptive")]),
      ("output_config",
        .object [("effort", .string (effortForTier (input.reasoningTier.getD 5)))])]
    else [])

/-- `create` is the call of the API, and `latencyMs` the time that it takes. -/
def execute (create : JsValue → Except Thrown AnthropicMessageResponse) (latencyMs : ℚ)
    (input : ModelRequest) : Except Thrown AdapterResult := do
  let res ← create (adapter.buildParams input)
  pure {
    text := String.join ((res.content.filter fun b => b.type == "text").map fun b =>
      b.text.getD "")
    usage := pricedUsage adapter.model {
      inputTokens := res.usage.inputTokens
      cachedInputTokens := res.usage.cacheReadInputTokens.map Nat.cast
      outputTokens := res.usage.outputTokens } latencyMs
    finishReason := res.stopReason.getD "end_turn" }

end AnthropicModelAdapter

/-! ### OpenAI -/

structure OpenAiChatCompletionChoice where
  content : Option String
  finishReason : Option String

structure OpenAiChatCompletionUsage where
  promptTokens : ℕ
  completionTokens : ℕ
  cachedTokens : Option ℕ

structure OpenAiChatCompletion where
  choices : List OpenAiChatCompletionChoice
  usage : Option OpenAiChatCompletionUsage

structure OpenAiModelAdapter where
  model : ModelEntry
  reasoningEffort : Bool := false
  defaultMaxOutputTokens : ℚ := 16000

def reasoningEffortForTier (tier : ℚ) : String :=
  if tier ≤ 3 then "low"
  else if tier ≤ 7 then "medium"
  else "high"

def toOpenAiRole (role : String) : String :=
  if role = "system" then "system"
  else if role = "assistant" then "assistant"
  else "user"

namespace OpenAiModelAdapter

variable (adapter : OpenAiModelAdapter)

def buildParams (input : ModelRequest) : JsValue :=
  .object ([
    ("model", .string adapter.model.id),
    ("messages", .array (input.messages.map fun m => JsValue.object [
      ("role", .string (toOpenAiRole m.role)), ("content", .string m.content)])),
    ("max_tokens",
      .number (.finite (input.maxOutputTokens.getD adapter.defaultMaxOutputTokens)))] ++
    if adapter.reasoningEffort then
      [("reasoning_effort", .string (reasoningEffortForTier (input.reasoningTier.getD 5)))]
    else [])

def execute (create : JsValue → Except Thrown OpenAiChatCompletion) (latencyMs : ℚ)
    (input : ModelRequest) : Except Thrown AdapterResult := do
  let res ← create (adapter.buildParams input)
  let choice := res.choices.head?
  pure {
    text := (choice.bind OpenAiChatCompletionChoice.content).getD ""
    usage := pricedUsage adapter.model {
      inputTokens := (res.usage.map fun usage => (usage.promptTokens : ℚ)).getD 0
      cachedInputTokens := (res.usage.bind fun usage => usage.cachedTokens).map Nat.cast
      outputTokens := (res.usage.map fun usage => (usage.completionTokens : ℚ)).getD 0 } latencyMs
    finishReason := (choice.bind OpenAiChatCompletionChoice.finishReason).getD "stop" }

end OpenAiModelAdapter

/-! ### The bill -/

/-- What Anthropic bills for `u` input, `c` cache-read and `o` output tokens: the cache reads are
not among the input tokens. -/
def anthropicBill (model : ModelEntry) (u c o : ℕ) : ℚ :=
  (u * model.inputCostPer1M + c * model.cachedRate + o * model.outputCostPer1M) / 1000000

/-- What OpenAI bills: the cached tokens are among the prompt tokens. -/
def openAiBill (model : ModelEntry) (u c o : ℕ) : ℚ :=
  (((u : ℚ) - c) * model.inputCostPer1M + c * model.cachedRate + o * model.outputCostPer1M) /
    1000000

/-- What both adapters report for such counts. -/
def reportedUsd (model : ModelEntry) (u c o : ℕ) : ℚ :=
  (max 0 ((u : ℚ) - c) * model.inputCostPer1M + c * model.cachedRate) / 1000000 +
    o * model.outputCostPer1M / 1000000

structure AnthropicUsage.Counts (usage : AnthropicUsage) (u c o : ℕ) : Prop where
  input : usage.inputTokens = u
  cached : usage.cacheReadInputTokens.getD 0 = c
  output : usage.outputTokens = o

/-- A missing usage counts nothing. -/
structure OpenAiChatCompletion.Counts (res : OpenAiChatCompletion) (u c o : ℕ) : Prop where
  input : (res.usage.map OpenAiChatCompletionUsage.promptTokens).getD 0 = u
  cached : (res.usage.bind OpenAiChatCompletionUsage.cachedTokens).getD 0 = c
  output : (res.usage.map OpenAiChatCompletionUsage.completionTokens).getD 0 = o

/-- Whatever the request and the rest of the response, `execute` reports the cost that the provider
bills for the tokens. -/
structure BilledPerProvider (model : ModelEntry) (u c o : ℕ) : Prop where
  anthropic : ∀ (adapter : AnthropicModelAdapter)
    (create : JsValue → Except Thrown AnthropicMessageResponse) (latencyMs : ℚ)
    (input : ModelRequest) (res : AnthropicMessageResponse) (result : AdapterResult),
    adapter.model = model → create (adapter.buildParams input) = .ok res →
      res.usage.Counts u c o → adapter.execute create latencyMs input = .ok result →
      result.usage.costUsd = anthropicBill model u c o
  openAi : c ≤ u → ∀ (adapter : OpenAiModelAdapter)
    (create : JsValue → Except Thrown OpenAiChatCompletion) (latencyMs : ℚ)
    (input : ModelRequest) (res : OpenAiChatCompletion) (result : AdapterResult),
    adapter.model = model → create (adapter.buildParams input) = .ok res →
      res.Counts u c o → adapter.execute create latencyMs input = .ok result →
      result.usage.costUsd = openAiBill model u c o

section Bill

variable (model : ModelEntry) (u c o : ℕ)

theorem getD_map_cast (tokens : Option ℕ) :
    (tokens.map (Nat.cast : ℕ → ℚ)).getD 0 = tokens.getD 0 := by
  cases tokens <;> simp

/-- The price of a response is that of its counts. -/
theorem estimateCostUsd_counts {tokens : Option ℕ} (cached : tokens.getD 0 = c) :
    estimateCostUsd model {
      inputTokens := u, cachedInputTokens := tokens.map Nat.cast, outputTokens := o } =
    reportedUsd model u c o := by
  simp only [estimateCostUsd, reportedUsd, getD_map_cast, cached]

theorem anthropic_costUsd {adapter : AnthropicModelAdapter}
    {create : JsValue → Except Thrown AnthropicMessageResponse} {latencyMs : ℚ}
    {input : ModelRequest} {res : AnthropicMessageResponse} {result : AdapterResult}
    (bound : adapter.model = model) (created : create (adapter.buildParams input) = .ok res)
    (counts : res.usage.Counts u c o)
    (executed : adapter.execute create latencyMs input = .ok result) :
    result.usage.costUsd = reportedUsd model u c o := by
  obtain ⟨rfl, cached, rfl⟩ := counts
  simp only [AnthropicModelAdapter.execute, created, ok_bind, pure_except, Except.ok.injEq]
    at executed
  rw [← executed, ← bound, ← estimateCostUsd_counts _ _ _ _ cached]
  rfl

theorem openAi_costUsd {adapter : OpenAiModelAdapter}
    {create : JsValue → Except Thrown OpenAiChatCompletion} {latencyMs : ℚ}
    {input : ModelRequest} {res : OpenAiChatCompletion} {result : AdapterResult}
    (bound : adapter.model = model) (created : create (adapter.buildParams input) = .ok res)
    (counts : res.Counts u c o) (executed : adapter.execute create latencyMs input = .ok result) :
    result.usage.costUsd = reportedUsd model u c o := by
  obtain ⟨rfl, cached, rfl⟩ := counts
  simp only [OpenAiModelAdapter.execute, created, ok_bind, pure_except, Except.ok.injEq]
    at executed
  rw [← executed, ← bound, ← estimateCostUsd_counts _ _ _ _ cached]
  cases res.usage <;> rfl

/-- Anthropic's adapter leaves out the price of the cache reads that the clamp lets it take from the
input. -/
theorem anthropic_undercount :
    anthropicBill model u c o - reportedUsd model u c o =
      min u c * model.inputCostPer1M / 1000000 := by
  unfold anthropicBill reportedUsd
  rcases le_total c u with fewer | more
  · have uncached : (0 : ℚ) ≤ u - c := sub_nonneg.mpr (by exact_mod_cast fewer)
    rw [max_eq_right uncached, min_eq_right fewer]
    ring
  · have uncached : (u : ℚ) - c ≤ 0 := sub_nonpos.mpr (by exact_mod_cast more)
    rw [max_eq_left uncached, min_eq_left more]
    ring

theorem reportedUsd_eq_anthropicBill_iff : reportedUsd model u c o = anthropicBill model u c o ↔
    model.inputCostPer1M = 0 ∨ u = 0 ∨ c = 0 := by
  have missing := anthropic_undercount model u c o
  have million : (1000000 : ℚ) ≠ 0 := by norm_num
  rw [eq_comm, ← sub_eq_zero, missing, div_eq_zero_iff, or_iff_left million, mul_eq_zero,
    Nat.cast_eq_zero, or_comm]
  refine or_congr_right ?_
  omega

theorem reportedUsd_eq_openAiBill (included : c ≤ u) :
    reportedUsd model u c o = openAiBill model u c o := by
  have uncached : (0 : ℚ) ≤ u - c := sub_nonneg.mpr (by exact_mod_cast included)
  rw [reportedUsd, max_eq_right uncached, openAiBill]
  ring

variable {model u c o} in
theorem BilledPerProvider.exclusive (billed : BilledPerProvider model u c o) :
    model.inputCostPer1M = 0 ∨ u = 0 ∨ c = 0 := by
  let adapter : AnthropicModelAdapter := { model := model, enableThinking := false }
  let res : AnthropicMessageResponse := {
    content := []
    stopReason := none
    usage := { inputTokens := u, outputTokens := o, cacheReadInputTokens := some c } }
  let create : JsValue → Except Thrown AnthropicMessageResponse := fun _ => .ok res
  let request : ModelRequest := { messages := [], maxOutputTokens := none, reasoningTier := none }
  have counts : res.usage.Counts u c o := ⟨rfl, rfl, rfl⟩
  obtain ⟨result, executed⟩ : ∃ result, adapter.execute create 0 request = .ok result := ⟨_, rfl⟩
  have bill := billed.anthropic adapter create 0 request res result rfl rfl counts executed
  rw [anthropic_costUsd model u c o rfl rfl counts executed] at bill
  exact (reportedUsd_eq_anthropicBill_iff model u c o).mp bill

/-- The two adapters report what their providers bill exactly where no input tokens stand beside
cache reads, or the input is free. -/
theorem billedPerProvider_iff :
    BilledPerProvider model u c o ↔ model.inputCostPer1M = 0 ∨ u = 0 ∨ c = 0 := by
  constructor
  · exact BilledPerProvider.exclusive
  · intro condition
    constructor
    · intro adapter create latencyMs input res result bound created counts executed
      rw [anthropic_costUsd model u c o bound created counts executed]
      exact (reportedUsd_eq_anthropicBill_iff model u c o).mpr condition
    · intro included adapter create latencyMs input res result bound created counts executed
      rw [openAi_costUsd model u c o bound created counts executed]
      exact reportedUsd_eq_openAiBill model u c o included

end Bill

/-- A warm cache: a thousand fresh tokens, and a thousand cache reads beside them. -/
theorem billedPerProvider_warm_cache :
    ¬ ∀ (model : ModelEntry) (u c o : ℕ), 0 ≤ model.inputCostPer1M → 0 ≤ model.cachedRate →
      0 ≤ model.outputCostPer1M → BilledPerProvider model u c o := by
  intro billed
  have opus := billed {
    id := "claude-opus-5"
    provider := .anthropic
    contextTokens := 1000000
    inputCostPer1M := 5
    outputCostPer1M := 25
    cachedInputCostPer1M := some (1 / 2)
    capabilities := { tools := true, vision := true }
    tierRange := (6, 9)
    privacy := .cloud
    available := true } 1000 1000 0 (by decide +kernel) (by decide +kernel) (by decide +kernel)
  rcases opus.exclusive with free | noInput | noReads
  · exact absurd free (by decide +kernel)
  · cases noInput
  · cases noReads

end Donna
