import Donna.Js.Json
import Donna.Orchestrator.WorkOrder

/-! The payload of a queued work order: the object that a work order is, and the parser that the
worker reads it back with. -/

namespace Donna

open Js JsValue

/-! ### The object of a work order -/

def ActorType.name : ActorType → String
  | .human => "human"
  | .orchestrator => "orchestrator"
  | .adapter => "adapter"
  | .checker => "checker"

def Actor.toJs (actor : Actor) : JsValue := .object [
  ("type", .string actor.type.name),
  ("id", .string actor.id)]

def finiteNumber (q : ℚ) : JsValue := .number (.finite q)

def ModelMessage.toJs (message : ModelMessage) : JsValue := .object [
  ("role", .string message.role),
  ("content", .string message.content)]

/-- The properties of a model request, with those that it may lack. -/
def ModelRequest.table (request : ModelRequest) : List (String × Option JsValue) := [
  ("messages", some (.array (request.messages.map ModelMessage.toJs))),
  ("maxOutputTokens", request.maxOutputTokens.map finiteNumber),
  ("reasoningTier", request.reasoningTier.map finiteNumber)]

def ModelRequest.toJs (request : ModelRequest) : JsValue := .object (present request.table)

/-- The properties of a work order in the order of its interface, with those that it may lack. -/
def WorkOrder.table (order : WorkOrder) : List (String × Option JsValue) := [
  ("organizationId", some (.string order.organizationId)),
  ("taskId", order.taskId.map .string),
  ("correlationId", order.correlationId.map .string),
  ("actor", order.actor.map Actor.toJs),
  ("requiredCapabilities", some (JsValue.strings order.requiredCapabilities)),
  ("prefersHuman", order.prefersHuman.map .boolean),
  ("needsReasoning", order.needsReasoning.map .boolean),
  ("reasoningTier", order.reasoningTier.map finiteNumber),
  ("needsTools", order.needsTools.map .boolean),
  ("needsVision", order.needsVision.map .boolean),
  ("requireLocal", order.requireLocal.map .boolean),
  ("minContextTokens", order.minContextTokens.map finiteNumber),
  ("modelRequest", order.modelRequest.map ModelRequest.toJs),
  ("capabilityInput", order.capabilityInput),
  ("policy", order.policy),
  ("budget", order.budget)]

def WorkOrder.toJs (order : WorkOrder) : JsValue := .object (present order.table)

/-! ### The parser -/

/-- Raised when a job payload cannot be read as a work order. -/
structure InvalidWorkOrderError where
  message : String
  deriving DecidableEq

def invalidWorkOrder (detail : String) : InvalidWorkOrderError :=
  ⟨"Invalid work-order payload: " ++ detail⟩

abbrev Parsed (α : Type) := Except InvalidWorkOrderError α

def isRecord : JsValue → Bool
  | .object _ => true
  | _ => false

def asBoolean : JsValue → Option Bool
  | .boolean b => some b
  | _ => none

/-- `typeof value === 'number' && Number.isFinite(value)`, with the number. -/
def asFinite : JsValue → Option ℚ
  | .number (.finite q) => some q
  | _ => none

def requireString (record : JsValue) (key : String) : Parsed String :=
  match (record.own key).asString with
  | some s =>
    if s = "" then throw (invalidWorkOrder ("\"" ++ key ++ "\" must be a non-empty string"))
    else pure s
  | none => throw (invalidWorkOrder ("\"" ++ key ++ "\" must be a non-empty string"))

/-- An optional field of a kind: absent when `undefined`, and otherwise of that kind. -/
def optionalOf {α : Type} (read : JsValue → Option α) (kind : String) (record : JsValue)
    (key : String) : Parsed (Option α) :=
  if (record.own key).isUndefined then pure none
  else
    match read (record.own key) with
    | some value => pure (some value)
    | none => throw (invalidWorkOrder ("\"" ++ key ++ "\" must be " ++ kind))

def optionalString : JsValue → String → Parsed (Option String) := optionalOf asString "a string"

def optionalBoolean : JsValue → String → Parsed (Option Bool) := optionalOf asBoolean "a boolean"

def optionalNumber : JsValue → String → Parsed (Option ℚ) := optionalOf asFinite "a finite number"

def asStrings : JsValue → Option (List String)
  | .array items => items.mapM asString
  | _ => none

def stringArray (record : JsValue) (key : String) : Parsed (List String) := do
  let items ← optionalOf asStrings "an array of strings" record key
  pure (items.getD [])

/-- A message of a model request, with its place in the array. -/
def parseMessage (index : ℕ) (value : JsValue) : Parsed ModelMessage :=
  match isRecord value, (value.own "role").asString, (value.own "content").asString with
  | true, some role, some content => pure { role := role, content := content }
  | _, _, _ =>
    throw (invalidWorkOrder
      ("\"modelRequest.messages[" ++ toString index ++ "]\" must have role and content"))

/-- `messages.map`, with the index of each message. -/
def parseMessages : ℕ → List JsValue → Parsed (List ModelMessage)
  | _, [] => pure []
  | index, value :: rest => do
    let message ← parseMessage index value
    let messages ← parseMessages (index + 1) rest
    pure (message :: messages)

def parseModelRequest (value : JsValue) : Parsed ModelRequest :=
  if !isRecord value then throw (invalidWorkOrder "\"modelRequest\" must be an object")
  else
    match value.own "messages" with
    | .array (first :: rest) => do
      let messages ← parseMessages 0 (first :: rest)
      let maxOutputTokens ← optionalNumber value "maxOutputTokens"
      let reasoningTier ← optionalNumber value "reasoningTier"
      pure {
        messages := messages
        maxOutputTokens := maxOutputTokens
        reasoningTier := reasoningTier }
    | _ => throw (invalidWorkOrder "\"modelRequest.messages\" must be a non-empty array")

def optionalModelRequest (payload : JsValue) : Parsed (Option ModelRequest) :=
  if (payload.own "modelRequest").isUndefined then pure none
  else some <$> parseModelRequest (payload.own "modelRequest")

/-- A structured gate, whose contents are passed through. -/
def optionalRecord (payload : JsValue) (key : String) : Parsed (Option JsValue) :=
  if (payload.own key).isUndefined then pure none
  else if !isRecord (payload.own key) then
    throw (invalidWorkOrder ("\"" ++ key ++ "\" must be an object"))
  else pure (some (payload.own key))

/-- Parse and validate an enqueued job payload. -/
def parseWorkOrder (payload : JsValue) : Parsed WorkOrder :=
  if !isRecord payload then throw (invalidWorkOrder "payload must be an object")
  else do
    let organizationId ← requireString payload "organizationId"
    let requiredCapabilities ← stringArray payload "requiredCapabilities"
    let taskId ← optionalString payload "taskId"
    let correlationId ← optionalString payload "correlationId"
    let prefersHuman ← optionalBoolean payload "prefersHuman"
    let needsReasoning ← optionalBoolean payload "needsReasoning"
    let reasoningTier ← optionalNumber payload "reasoningTier"
    let needsTools ← optionalBoolean payload "needsTools"
    let needsVision ← optionalBoolean payload "needsVision"
    let requireLocal ← optionalBoolean payload "requireLocal"
    let minContextTokens ← optionalNumber payload "minContextTokens"
    let modelRequest ← optionalModelRequest payload
    let policy ← optionalRecord payload "policy"
    let budget ← optionalRecord payload "budget"
    pure {
      organizationId := organizationId
      requiredCapabilities := requiredCapabilities
      taskId := taskId
      correlationId := correlationId
      prefersHuman := prefersHuman
      needsReasoning := needsReasoning
      reasoningTier := reasoningTier
      needsTools := needsTools
      needsVision := needsVision
      requireLocal := requireLocal
      minContextTokens := minContextTokens
      modelRequest := modelRequest
      policy := policy
      budget := budget }

/-! ### Reading one field -/

section Fields

variable {α : Type} {read : JsValue → Option α} {kind key : String} {record : JsValue}

theorem requireString_eq_ok {s : String} :
    requireString record key = .ok s ↔ record.own key = .string s ∧ s ≠ "" := by
  unfold requireString
  cases record.own key with
  | string t =>
    by_cases empty : t = ""
    · simp only [asString, empty, if_true, throw_except, reduceCtorEq, false_iff, not_and, not_not]
      rintro ⟨⟩
      rfl
    · simp only [asString, empty, if_false, pure_except, Except.ok.injEq, string.injEq]
      constructor
      · rintro rfl
        exact ⟨rfl, empty⟩
      · exact And.left
  | _ => simp [asString]

theorem isUndefined_iff {value : JsValue} : value.isUndefined = true ↔ value = .undefined := by
  cases value <;> simp [isUndefined]

theorem optionalOf_eq_ok {value : Option α} :
    optionalOf read kind record key = .ok value ↔
      (record.own key = .undefined ∧ value = none) ∨
        (record.own key ≠ .undefined ∧ value.isSome ∧ read (record.own key) = value) := by
  unfold optionalOf
  by_cases absent : record.own key = .undefined
  · have missing : (record.own key).isUndefined = true := isUndefined_iff.mpr absent
    rw [if_pos missing]
    cases value <;> simp [absent]
  · have given : ¬ (record.own key).isUndefined = true := fun h => absent (isUndefined_iff.mp h)
    rw [if_neg given]
    cases read (record.own key) <;> cases value <;> simp [absent]

theorem optionalOf_written {encode : α → JsValue} {value : Option α}
    (written : record.own key = (value.map encode).getD .undefined)
    (readBack : ∀ given, read (encode given) = some given)
    (defined : ∀ given, encode given ≠ .undefined) :
    optionalOf read kind record key = .ok value := by
  rw [optionalOf_eq_ok, written]
  cases value with
  | none => exact .inl ⟨rfl, rfl⟩
  | some given => exact .inr ⟨defined given, rfl, readBack given⟩

theorem optionalRecord_eq_ok {value : Option JsValue} :
    optionalRecord record key = .ok value ↔
      (record.own key = .undefined ∧ value = none) ∨
        (isRecord (record.own key) = true ∧ value = some (record.own key)) := by
  unfold optionalRecord
  cases record.own key <;> simp [isUndefined, isRecord, eq_comm]

end Fields

/-- What the parser accepts, and what it makes of it. -/
theorem parseWorkOrder_eq_ok {payload : JsValue} {order : WorkOrder} :
    parseWorkOrder payload = .ok order ↔
      isRecord payload = true ∧
      requireString payload "organizationId" = .ok order.organizationId ∧
      stringArray payload "requiredCapabilities" = .ok order.requiredCapabilities ∧
      optionalString payload "taskId" = .ok order.taskId ∧
      optionalString payload "correlationId" = .ok order.correlationId ∧
      optionalBoolean payload "prefersHuman" = .ok order.prefersHuman ∧
      optionalBoolean payload "needsReasoning" = .ok order.needsReasoning ∧
      optionalNumber payload "reasoningTier" = .ok order.reasoningTier ∧
      optionalBoolean payload "needsTools" = .ok order.needsTools ∧
      optionalBoolean payload "needsVision" = .ok order.needsVision ∧
      optionalBoolean payload "requireLocal" = .ok order.requireLocal ∧
      optionalNumber payload "minContextTokens" = .ok order.minContextTokens ∧
      optionalModelRequest payload = .ok order.modelRequest ∧
      optionalRecord payload "policy" = .ok order.policy ∧
      optionalRecord payload "budget" = .ok order.budget ∧
      order.actor = none ∧ order.capabilityInput = none := by
  constructor
  · intro parsed
    unfold parseWorkOrder at parsed
    cases record : isRecord payload with
    | false => simp [record] at parsed
    | true =>
      simp only [record, Bool.not_true, Bool.false_eq_true, if_false, bind_eq_ok, pure_except,
        Except.ok.injEq] at parsed
      obtain ⟨organizationId, h1, requiredCapabilities, h2, taskId, h3, correlationId, h4,
        prefersHuman, h5, needsReasoning, h6, reasoningTier, h7, needsTools, h8, needsVision, h9,
        requireLocal, h10, minContextTokens, h11, modelRequest, h12, policy, h13, budget, h14,
        rfl⟩ := parsed
      exact ⟨rfl, h1, h2, h3, h4, h5, h6, h7, h8, h9, h10, h11, h12, h13, h14, rfl, rfl⟩
  · rintro ⟨record, h1, h2, h3, h4, h5, h6, h7, h8, h9, h10, h11, h12, h13, h14, hActor, hInput⟩
    simp only [parseWorkOrder, record, Bool.not_true, Bool.false_eq_true, if_false, h1, h2, h3, h4,
      h5, h6, h7, h8, h9, h10, h11, h12, h13, h14, ok_bind, pure_except, ← hActor, ← hInput]

end Donna
