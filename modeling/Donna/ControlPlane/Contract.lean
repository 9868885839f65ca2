import Donna.ControlPlane.Access
import Donna.Worker.RoundTrip

/-! The contract of the work queue between the route that enqueues a work order and the parser that
reads it back.  The route forwards the routing hints of a body as they are and the parser checks
their types, so a queued request meets the contract exactly when its hints are of the types that the
work order declares. -/

namespace Donna

open Js JsValue

/-! ### The contract -/

def booleanHints : List String :=
  ["prefersHuman", "needsReasoning", "needsTools", "needsVision", "requireLocal"]

def numberHints : List String := ["reasoningTier", "minContextTokens"]

/-- The properties of a body that become hints of the order. -/
def hintKeys : List String := booleanHints ++ numberHints ++ ["modelRequest"]

/-- Every hint of a body is absent or of its type: a boolean, a finite number, or the object of a
model request with messages, which has no property besides those of its interface. -/
structure WellTypedHints (body : JsValue) : Prop where
  booleans : ∀ key ∈ booleanHints, body.own key = .undefined ∨ ∃ b, body.own key = .boolean b
  numbers : ∀ key ∈ numberHints, body.own key = .undefined ∨ ∃ q, body.own key = finiteNumber q
  modelRequest : body.own "modelRequest" = .undefined ∨ ∃ request : ModelRequest,
    request.messages ≠ [] ∧ DeepEq request.toJs (body.own "modelRequest")

def builtOrder (draws : Draws) (principal : PrincipalContext) (input : DispatchInput) : JsValue :=
  buildWorkOrder (newTask draws.recordId input) principal.organizationId input.toWorkOrderHints

/-- A dispatch added one job, and the worker reads from it the work order that was built. -/
def Delivered (draws : Draws) (input : DispatchInput) (principal : PrincipalContext)
    (before after : Database) : Prop :=
  ∃ job order, after.jobs = before.jobs ++ [job] ∧ job.identifier = executeWorkOrderTask ∧
    parseWorkOrder job.payload = .ok order ∧
    DeepEq order.toJs (builtOrder draws principal input)

/-! ### Reading typed values -/

section Reading

theorem mem_present {table : List (String × Option JsValue)} {field : String × JsValue}
    (listed : field ∈ present table) : (field.1, some field.2) ∈ table := by
  induction table with
  | nil => cases listed
  | cons first rest ih =>
    obtain ⟨name, value⟩ := first
    cases value with
    | none => exact List.mem_cons_of_mem _ (ih listed)
    | some value =>
      rcases List.mem_cons.mp listed with rfl | later
      · exact List.mem_cons_self
      · exact List.mem_cons_of_mem _ (ih later)

theorem optional_of_deepEq {α : Type} {encode : α → JsValue} {item : Option α} {value : JsValue}
    (rigid : ∀ item value, DeepEq (encode item) value → value = encode item)
    (same : DeepEq ((item.map encode).getD .undefined) value) :
    value = (item.map encode).getD .undefined := by
  cases item with
  | none => exact same.undefined_left
  | some item => exact rigid item value same

theorem jsonClone_undefined : JsValue.undefined.jsonClone = .undefined := by
  rw [jsonClone] <;> simp

theorem isRecord_jsonClone (fields : List (String × JsValue)) :
    isRecord (JsValue.object fields).jsonClone = true := by
  rw [jsonClone]
  rfl

theorem parseMessage_deepEq (index : ℕ) {message : ModelMessage} {value : JsValue}
    (same : DeepEq message.toJs value) (parsed : value.isParsed = true) :
    parseMessage index value.jsonClone = .ok message := by
  obtain ⟨fields, rfl, own⟩ := DeepEq.object_left same
  have role : (JsValue.object fields).own "role" = .string message.role := (own "role").string_left
  have content : (JsValue.object fields).own "content" = .string message.content :=
    (own "content").string_left
  rw [parseMessage, isRecord_jsonClone, own_jsonClone parsed, own_jsonClone parsed, role, content]
  rfl

theorem parseMessages_deepEq (index : ℕ) {messages : List ModelMessage} {items : List JsValue}
    (same : List.Forall₂ DeepEq (messages.map ModelMessage.toJs) items)
    (parsed : areParsed items = true) :
    parseMessages index (cloneItems items) = .ok messages := by
  induction messages generalizing index items with
  | nil =>
    cases same
    rfl
  | cons message rest ih =>
    rw [List.map_cons] at same
    cases same with
    | @cons _ item _ others first later =>
      obtain ⟨hItem, hOthers⟩ : item.isParsed = true ∧ areParsed others = true := by
        simpa [areParsed] using parsed
      rw [cloneItems, unserialisable_of_isParsed hItem]
      simp only [Bool.false_eq_true, if_false, parseMessages, parseMessage_deepEq index first hItem,
        ih (index + 1) later hOthers, ok_bind, pure_except]

theorem none_of_deepEq {value : Option JsValue} (same : DeepEq (value.getD .undefined) .undefined)
    (defined : ∀ item, value = some item → item ≠ .undefined) : value = none := by
  cases value with
  | none => rfl
  | some item => exact absurd same.undefined_right (defined item rfl)

theorem string_rigid (s : String) (value : JsValue) (same : DeepEq (.string s) value) :
    value = .string s :=
  same.string_left

theorem finiteNumber_rigid (q : ℚ) (value : JsValue) (same : DeepEq (finiteNumber q) value) :
    value = finiteNumber q :=
  same.number_left

theorem boolean_rigid (b : Bool) (value : JsValue) (same : DeepEq (.boolean b) value) :
    value = .boolean b :=
  same.boolean_left

/-- A typed property that a value may lack is read from its serialisation. -/
theorem optionalOf_jsonClone {α : Type} {encode : α → JsValue} {read : JsValue → Option α}
    {kind key : String} {record value : JsValue} {item : Option α}
    (written : record.own key = value.jsonClone)
    (typed : value = (item.map encode).getD .undefined)
    (kept : ∀ item, (encode item).jsonClone = encode item)
    (readBack : ∀ item, read (encode item) = some item)
    (defined : ∀ item, encode item ≠ .undefined) :
    optionalOf read kind record key = .ok item := by
  have same : record.own key = (item.map encode).getD .undefined := by
    rw [written, typed]
    cases item with
    | none => simp [jsonClone]
    | some item => exact kept item
  exact optionalOf_written same readBack defined

theorem jsonClone_finiteNumber (q : ℚ) : (finiteNumber q).jsonClone = finiteNumber q :=
  jsonClone_of_isJson _ (isJson_finiteNumber q)

theorem jsonClone_boolean (b : Bool) : (JsValue.boolean b).jsonClone = .boolean b :=
  jsonClone_of_isJson _ (isJson_boolean b)

theorem parseModelRequest_deepEq {request : ModelRequest} {value : JsValue}
    (some_message : request.messages ≠ []) (same : DeepEq request.toJs value)
    (parsed : value.isParsed = true) : parseModelRequest value.jsonClone = .ok request := by
  obtain ⟨fields, rfl, own⟩ := DeepEq.object_left same
  have table : ∀ key, DeepEq ((request.table.lookup key).join.getD .undefined)
      ((JsValue.object fields).own key) := by
    intro key
    rw [← own_present request.distinct_keys]
    exact own key
  have number : ∀ key (q : Option ℚ), (JsValue.object fields).own key =
      (q.map finiteNumber).getD .undefined →
      optionalNumber (JsValue.object fields).jsonClone key = .ok q := fun key _ typed =>
    optionalOf_jsonClone (own_jsonClone parsed key) typed jsonClone_finiteNumber
      asFinite_finiteNumber finiteNumber_ne_undefined
  have maxOutputTokens := number "maxOutputTokens" request.maxOutputTokens
    (optional_of_deepEq finiteNumber_rigid (table "maxOutputTokens"))
  have reasoningTier := number "reasoningTier" request.reasoningTier
    (optional_of_deepEq finiteNumber_rigid (table "reasoningTier"))
  obtain ⟨items, hItems, sameItems⟩ := (table "messages").array_left
  have itemsParsed : (JsValue.array items).isParsed = true := by
    rw [← hItems]
    exact isParsed_own parsed (by rw [hItems]; exact JsValue.noConfusion)
  rw [isParsed] at itemsParsed
  have messages := parseMessages_deepEq 0 sameItems itemsParsed
  have written := own_jsonClone parsed "messages"
  rw [hItems, jsonClone] at written
  cases items with
  | nil =>
    cases hMessages : request.messages with
    | nil => exact absurd hMessages some_message
    | cons first rest =>
      rw [hMessages] at sameItems
      cases sameItems
  | cons first rest =>
    rw [cloneItems] at messages written
    rw [parseModelRequest, isRecord_jsonClone, written]
    simp only [Bool.not_true, Bool.false_eq_true, if_false, messages, maxOutputTokens,
      reasoningTier, ok_bind, pure_except]

end Reading

/-! ### The built work order -/

section Built

variable {draws : Draws} {principal : PrincipalContext} {id goal definitionOfDone : String}
  {requiredCapabilities : List String} {body : JsValue}

theorem given_getD (value : JsValue) : (given value).getD .undefined = value := by
  rw [given]
  split
  · rename_i missing
    exact (isUndefined_iff.mp missing).symm
  · rfl

theorem distinct_workOrderTable (task : Task) (organizationId : String) (hints : WorkOrderHints) :
    ((workOrderTable task organizationId hints).map Prod.fst).Nodup := by
  simp [workOrderTable]

theorem own_builtOrder (input : DispatchInput) (key : String) :
    (builtOrder draws principal input).own key =
      ((workOrderTable (newTask draws.recordId input) principal.organizationId
        input.toWorkOrderHints).lookup key).join.getD .undefined :=
  own_present (distinct_workOrderTable _ _ _) key

theorem own_jsonClone_builtOrder (parsed : body.isParsed = true) (key : String) :
    (builtOrder draws principal
      (dispatchInput id goal definitionOfDone requiredCapabilities body)).jsonClone.own key =
    ((builtOrder draws principal
      (dispatchInput id goal definitionOfDone requiredCapabilities body)).own key).jsonClone := by
  refine own_jsonClone_object (fun field listed => ?_) key
  have hint : ∀ name value, given (body.own name) = some value → value.unserialisable = false := by
    intro name value hGiven
    rw [given] at hGiven
    split at hGiven
    · cases hGiven
    · rename_i defined
      cases hGiven
      exact unserialisable_of_isParsed
        (isParsed_own parsed fun missing => defined (isUndefined_iff.mpr missing))
  have kept : ∀ field ∈ workOrderTable
      (newTask draws.recordId (dispatchInput id goal definitionOfDone requiredCapabilities body))
      principal.organizationId
      (dispatchInput id goal definitionOfDone requiredCapabilities body).toWorkOrderHints,
      ∀ value, field.2 = some value → value.unserialisable = false := by
    simp only [workOrderTable, dispatchInput, List.forall_mem_cons, Option.some.injEq, forall_eq']
    exact ⟨rfl, rfl, rfl, hint _, hint _, hint _, hint _, hint _, hint _, hint _, hint _, by simp⟩
  exact kept _ (mem_present listed) _ rfl

/-- The typed order that the hints of a body spell out. -/
structure ReadsAs (draws : Draws) (principal : PrincipalContext)
    (requiredCapabilities : List String) (body : JsValue) (order : WorkOrder) : Prop where
  organizationId : order.organizationId = principal.organizationId
  taskId : order.taskId = some draws.recordId
  requiredCapabilities : order.requiredCapabilities = requiredCapabilities
  prefersHuman : body.own "prefersHuman" = (order.prefersHuman.map .boolean).getD .undefined
  needsReasoning : body.own "needsReasoning" = (order.needsReasoning.map .boolean).getD .undefined
  reasoningTier : body.own "reasoningTier" = (order.reasoningTier.map finiteNumber).getD .undefined
  needsTools : body.own "needsTools" = (order.needsTools.map .boolean).getD .undefined
  needsVision : body.own "needsVision" = (order.needsVision.map .boolean).getD .undefined
  requireLocal : body.own "requireLocal" = (order.requireLocal.map .boolean).getD .undefined
  minContextTokens :
    body.own "minContextTokens" = (order.minContextTokens.map finiteNumber).getD .undefined
  modelRequest : DeepEq ((order.modelRequest.map ModelRequest.toJs).getD .undefined)
    (body.own "modelRequest")
  messages : ∀ request, order.modelRequest = some request → request.messages ≠ []
  others : order.correlationId = none ∧ order.actor = none ∧ order.capabilityInput = none ∧
    order.policy = none ∧ order.budget = none

theorem optional_iff {α : Type} {encode : α → JsValue} {value : JsValue} :
    (value = .undefined ∨ ∃ item, value = encode item) ↔
      ∃ item : Option α, value = (item.map encode).getD .undefined := by
  constructor
  · rintro (absent | ⟨item, typed⟩)
    · exact ⟨none, absent⟩
    · exact ⟨some item, typed⟩
  · rintro ⟨_ | item, typed⟩
    · exact .inl typed
    · exact .inr ⟨item, typed⟩

/-- Hints spell out an order exactly when they are well typed. -/
theorem wellTypedHints_iff : WellTypedHints body ↔
    ∃ order, ReadsAs draws principal requiredCapabilities body order := by
  constructor
  · rintro ⟨booleans, numbers, modelRequest⟩
    simp only [booleanHints, numberHints, List.forall_mem_cons, optional_iff] at booleans numbers
    obtain ⟨⟨prefersHuman, h1⟩, ⟨needsReasoning, h2⟩, ⟨needsTools, h3⟩, ⟨needsVision, h4⟩,
      ⟨requireLocal, h5⟩, -⟩ := booleans
    obtain ⟨⟨reasoningTier, h6⟩, ⟨minContextTokens, h7⟩, -⟩ := numbers
    obtain ⟨request, h8, messages⟩ : ∃ request : Option ModelRequest,
        DeepEq ((request.map ModelRequest.toJs).getD .undefined) (body.own "modelRequest") ∧
          ∀ item, request = some item → item.messages ≠ [] := by
      rcases modelRequest with absent | ⟨request, messages, same⟩
      · rw [absent]
        exact ⟨none, .refl _, nofun⟩
      · exact ⟨some request, same, fun item h => Option.some.inj h ▸ messages⟩
    exact ⟨{
      organizationId := principal.organizationId
      taskId := some draws.recordId
      requiredCapabilities := requiredCapabilities
      prefersHuman := prefersHuman
      needsReasoning := needsReasoning
      reasoningTier := reasoningTier
      needsTools := needsTools
      needsVision := needsVision
      requireLocal := requireLocal
      minContextTokens := minContextTokens
      modelRequest := request },
      rfl, rfl, rfl, h1, h2, h6, h3, h4, h5, h7, h8, messages, rfl, rfl, rfl, rfl, rfl⟩
  · rintro ⟨order, reads⟩
    refine ⟨?_, ?_, ?_⟩
    · simp only [booleanHints, List.forall_mem_cons, optional_iff]
      exact ⟨⟨_, reads.prefersHuman⟩, ⟨_, reads.needsReasoning⟩, ⟨_, reads.needsTools⟩,
        ⟨_, reads.needsVision⟩, ⟨_, reads.requireLocal⟩, by simp⟩
    · simp only [numberHints, List.forall_mem_cons, optional_iff]
      exact ⟨⟨_, reads.reasoningTier⟩, ⟨_, reads.minContextTokens⟩, by simp⟩
    · have same := reads.modelRequest
      cases request : order.modelRequest with
      | none =>
        rw [request] at same
        exact .inl same.undefined_left
      | some request' =>
        rw [request] at same
        exact .inr ⟨request', reads.messages _ request, same⟩

theorem own_builtOrder_hint {key : String}
    (listed : key ∈ hintKeys) :
    (builtOrder draws principal
      (dispatchInput id goal definitionOfDone requiredCapabilities body)).own key =
      body.own key := by
  rw [own_builtOrder]
  simp only [hintKeys, booleanHints, numberHints, List.cons_append, List.nil_append, List.mem_cons,
    List.not_mem_nil, or_false] at listed
  rcases listed with rfl | rfl | rfl | rfl | rfl | rfl | rfl | rfl <;> exact given_getD _

theorem own_builtOrder_absent (input : DispatchInput) {key : String}
    (listed : key ∈ ["correlationId", "policy", "budget"]) :
    (builtOrder draws principal input).own key = .undefined := by
  rw [own_builtOrder]
  simp only [List.mem_cons, List.not_mem_nil, or_false] at listed
  rcases listed with rfl | rfl | rfl <;> rfl

/-- What a job payload holds of the order that a dispatch built. -/
structure OrderPayload (draws : Draws) (principal : PrincipalContext)
    (requiredCapabilities : List String) (body payload : JsValue) : Prop where
  record : isRecord payload = true
  organizationId : payload.own "organizationId" = .string principal.organizationId
  taskId : payload.own "taskId" = .string draws.recordId
  requiredCapabilities :
    payload.own "requiredCapabilities" = JsValue.strings requiredCapabilities
  hint : ∀ key ∈ hintKeys, payload.own key = (body.own key).jsonClone
  absent : ∀ key ∈ ["correlationId", "policy", "budget"], payload.own key = .undefined

theorem builtOrder_payload (parsed : body.isParsed = true) :
    OrderPayload draws principal requiredCapabilities body (builtOrder draws principal
      (dispatchInput id goal definitionOfDone requiredCapabilities body)).jsonClone where
  record := isRecord_jsonClone _
  organizationId := by
    rw [own_jsonClone_builtOrder parsed, own_builtOrder]
    exact jsonClone_of_isJson _ (isJson_string _)
  taskId := by
    rw [own_jsonClone_builtOrder parsed, own_builtOrder]
    exact jsonClone_of_isJson _ (isJson_string _)
  requiredCapabilities := by
    rw [own_jsonClone_builtOrder parsed, own_builtOrder]
    exact jsonClone_of_isJson _ (isJson_strings _)
  hint key listed := by
    rw [own_jsonClone_builtOrder parsed, own_builtOrder_hint listed]
  absent key listed := by
    rw [own_jsonClone_builtOrder parsed, own_builtOrder_absent _ listed, jsonClone_undefined]

theorem OrderPayload.modelRequest {payload : JsValue} {order : WorkOrder}
    (holds : OrderPayload draws principal requiredCapabilities body payload)
    (reads : ReadsAs draws principal requiredCapabilities body order)
    (parsed : body.isParsed = true) : optionalModelRequest payload = .ok order.modelRequest := by
  have same := reads.modelRequest
  rw [optionalModelRequest, holds.hint "modelRequest" (by decide)]
  cases hRequest : order.modelRequest with
  | none =>
    rw [hRequest] at same
    have missing : body.own "modelRequest" = .undefined := same.undefined_left
    rw [missing, jsonClone_undefined]
    rfl
  | some request =>
    rw [hRequest] at same
    obtain ⟨fields, hFields, -⟩ := DeepEq.object_left same
    have valueParsed : (body.own "modelRequest").isParsed = true :=
      isParsed_own parsed (by rw [hFields]; exact JsValue.noConfusion)
    rw [parseModelRequest_deepEq (reads.messages request hRequest) same valueParsed, hFields,
      jsonClone]
    rfl

theorem OrderPayload.parse {payload : JsValue} {order : WorkOrder}
    (holds : OrderPayload draws principal requiredCapabilities body payload)
    (reads : ReadsAs draws principal requiredCapabilities body order)
    (tenant : principal.organizationId ≠ "") (parsed : body.isParsed = true) :
    parseWorkOrder payload = .ok order := by
  have boolean : ∀ {key b}, key ∈ hintKeys →
      body.own key = (Option.map JsValue.boolean b).getD .undefined →
      optionalBoolean payload key = .ok b := fun listed typed =>
    optionalOf_jsonClone (holds.hint _ listed) typed jsonClone_boolean (fun _ => rfl)
      fun _ => JsValue.noConfusion
  have number : ∀ {key q}, key ∈ hintKeys →
      body.own key = (Option.map finiteNumber q).getD .undefined →
      optionalNumber payload key = .ok q := fun listed typed =>
    optionalOf_jsonClone (holds.hint _ listed) typed jsonClone_finiteNumber asFinite_finiteNumber
      finiteNumber_ne_undefined
  have taskId : optionalString payload "taskId" = .ok (some draws.recordId) :=
    optionalOf_written holds.taskId (fun _ => rfl) fun _ => JsValue.noConfusion
  have written : payload.own "requiredCapabilities" =
      ((some requiredCapabilities).map JsValue.strings).getD .undefined :=
    holds.requiredCapabilities
  have capabilities : optionalOf asStrings "an array of strings" payload "requiredCapabilities" =
      .ok (some requiredCapabilities) :=
    optionalOf_written written asStrings_strings fun _ => JsValue.noConfusion
  obtain ⟨correlationId, actor, capabilityInput, policy, budget⟩ := reads.others
  refine parseWorkOrder_eq_ok.mpr ⟨holds.record, ?_, ?_, ?_, ?_,
    boolean (by decide) reads.prefersHuman, boolean (by decide) reads.needsReasoning,
    number (by decide) reads.reasoningTier, boolean (by decide) reads.needsTools,
    boolean (by decide) reads.needsVision, boolean (by decide) reads.requireLocal,
    number (by decide) reads.minContextTokens, holds.modelRequest reads parsed, ?_, ?_, actor,
    capabilityInput⟩
  · rw [requireString_eq_ok, reads.organizationId]
    exact ⟨holds.organizationId, tenant⟩
  · rw [stringArray, capabilities, reads.requiredCapabilities]
    rfl
  · rw [reads.taskId]
    exact taskId
  · rw [correlationId]
    exact optionalOf_eq_ok.mpr (.inl ⟨holds.absent _ (by decide), rfl⟩)
  · rw [policy]
    exact optionalRecord_eq_ok.mpr (.inl ⟨holds.absent _ (by decide), rfl⟩)
  · rw [budget]
    exact optionalRecord_eq_ok.mpr (.inl ⟨holds.absent _ (by decide), rfl⟩)

theorem ReadsAs.deepEq {order : WorkOrder}
    (reads : ReadsAs draws principal requiredCapabilities body order) :
    DeepEq order.toJs (builtOrder draws principal
      (dispatchInput id goal definitionOfDone requiredCapabilities body)) := by
  have hint : ∀ {value other : JsValue}, value = other →
      DeepEq other ((given value).getD .undefined) := by
    rintro value _ rfl
    rw [given_getD]
    exact .refl _
  have modelRequest : DeepEq ((order.modelRequest.map ModelRequest.toJs).getD .undefined)
      ((given (body.own "modelRequest")).getD .undefined) := by
    rw [given_getD]
    exact reads.modelRequest
  have table : SameTable order.table (workOrderTable
      (newTask draws.recordId (dispatchInput id goal definitionOfDone requiredCapabilities body))
      principal.organizationId
      (dispatchInput id goal definitionOfDone requiredCapabilities body).toWorkOrderHints) := by
    obtain ⟨correlationId, actor, capabilityInput, policy, budget⟩ := reads.others
    rw [WorkOrder.table, reads.organizationId, reads.taskId, reads.requiredCapabilities,
      correlationId, actor, capabilityInput, policy, budget]
    exact .cons (.refl _) <| .cons (.refl _) <| .skip rfl <| .skip rfl <| .cons (.refl _) <|
      .cons (hint reads.prefersHuman) <| .cons (hint reads.needsReasoning) <|
      .cons (hint reads.reasoningTier) <| .cons (hint reads.needsTools) <|
      .cons (hint reads.needsVision) <| .cons (hint reads.requireLocal) <|
      .cons (hint reads.minContextTokens) <| .cons modelRequest <| .skip rfl <| .skip rfl <|
      .skip rfl .nil
  exact table.deepEq order.distinct_keys (distinct_workOrderTable _ _ _)

theorem messages_of_parseModelRequest {value : JsValue} {request : ModelRequest}
    (read : parseModelRequest value = .ok request) : request.messages ≠ [] := by
  unfold parseModelRequest at read
  split at read
  · cases read
  · split at read
    · rename_i first rest _
      obtain ⟨messages, hMessages, read⟩ := bind_eq_ok.mp read
      obtain ⟨_, -, read⟩ := bind_eq_ok.mp read
      obtain ⟨_, -, read⟩ := bind_eq_ok.mp read
      cases read
      rw [parseMessages] at hMessages
      obtain ⟨_, -, hMessages⟩ := bind_eq_ok.mp hMessages
      obtain ⟨_, -, hMessages⟩ := bind_eq_ok.mp hMessages
      cases hMessages
      exact List.cons_ne_nil _ _
    · cases read

theorem strings_of_deepEq {left right : List String}
    (same : DeepEq (JsValue.strings left) (JsValue.strings right)) : left = right := by
  obtain ⟨others, hOthers, items⟩ := DeepEq.array_left same
  obtain rfl : right.map JsValue.string = others := JsValue.array.inj hOthers
  induction left generalizing right with
  | nil =>
    cases right with
    | nil => rfl
    | cons => cases items
  | cons first rest ih =>
    cases right with
    | nil => cases items
    | cons other others =>
      cases items with
      | cons hFirst hRest =>
        have here : other = first := JsValue.string.inj hFirst.string_left
        rw [here, ih (.array hRest) rfl hRest]

theorem readsAs_of_deepEq {payload : JsValue} {order : WorkOrder}
    (read : parseWorkOrder payload = .ok order)
    (same : DeepEq order.toJs (builtOrder draws principal
      (dispatchInput id goal definitionOfDone requiredCapabilities body))) :
    ReadsAs draws principal requiredCapabilities body order ∧ principal.organizationId ≠ "" := by
  obtain ⟨-, organization, -, -, -, -, -, -, -, -, -, -, request, policy, budget, actor, input⟩ :=
    parseWorkOrder_eq_ok.mp read
  obtain ⟨fields, hFields, own⟩ := DeepEq.object_left same
  have field : ∀ key, DeepEq ((order.table.lookup key).join.getD .undefined)
      ((builtOrder draws principal
        (dispatchInput id goal definitionOfDone requiredCapabilities body)).own key) := by
    intro key
    rw [← order.own_toJs, hFields]
    exact own key
  have hint : ∀ key ∈ hintKeys, DeepEq ((order.table.lookup key).join.getD .undefined)
      (body.own key) := by
    intro key listed
    rw [← own_builtOrder_hint listed]
    exact field key
  have absent : ∀ key ∈ ["correlationId", "policy", "budget"],
      DeepEq ((order.table.lookup key).join.getD .undefined) .undefined := by
    intro key listed
    have same := field key
    rw [own_builtOrder_absent _ listed] at same
    exact same
  have hOrganization : order.organizationId = principal.organizationId :=
    (JsValue.string.inj (field "organizationId").string_left).symm
  have isObject : ∀ {key gate}, optionalRecord payload key = .ok gate →
      ∀ item, gate = some item → item ≠ .undefined := by
    rintro key gate hGate item rfl rfl
    rcases optionalRecord_eq_ok.mp hGate with ⟨-, none⟩ | ⟨record, given⟩
    · cases none
    · rw [← Option.some.inj given] at record
      cases record
  refine ⟨{
    organizationId := hOrganization
    taskId := ?_
    requiredCapabilities := strings_of_deepEq (field "requiredCapabilities")
    prefersHuman := optional_of_deepEq boolean_rigid (hint "prefersHuman" (by decide))
    needsReasoning := optional_of_deepEq boolean_rigid (hint "needsReasoning" (by decide))
    reasoningTier := optional_of_deepEq finiteNumber_rigid (hint "reasoningTier" (by decide))
    needsTools := optional_of_deepEq boolean_rigid (hint "needsTools" (by decide))
    needsVision := optional_of_deepEq boolean_rigid (hint "needsVision" (by decide))
    requireLocal := optional_of_deepEq boolean_rigid (hint "requireLocal" (by decide))
    minContextTokens := optional_of_deepEq finiteNumber_rigid (hint "minContextTokens" (by decide))
    modelRequest := hint "modelRequest" (by decide)
    messages := ?_
    others := ⟨?_, actor, input, ?_, ?_⟩ }, ?_⟩
  · have taskId : JsValue.string draws.recordId =
        (order.taskId.map JsValue.string).getD .undefined :=
      optional_of_deepEq string_rigid (field "taskId")
    cases hTask : order.taskId with
    | none => simp [hTask] at taskId
    | some id => simpa [hTask] using taskId.symm
  · intro typed given
    rw [optionalModelRequest, given] at request
    split at request
    · cases request
    · cases read : parseModelRequest (payload.own "modelRequest") with
      | error error => simp [read] at request
      | ok parsed =>
        rw [read] at request
        cases request
        exact messages_of_parseModelRequest read
  · have correlationId : .undefined = (order.correlationId.map JsValue.string).getD .undefined :=
      optional_of_deepEq string_rigid (absent "correlationId" (by decide))
    cases hCorrelation : order.correlationId with
    | none => rfl
    | some id => simp [hCorrelation] at correlationId
  · exact none_of_deepEq (absent "policy" (by decide)) (isObject policy)
  · exact none_of_deepEq (absent "budget" (by decide)) (isObject budget)
  · rw [← hOrganization]
    exact (requireString_eq_ok.mp organization).2

end Built

/-! ### Queued requests -/

theorem isParsed_orElse {body : JsValue} (parsed : body.isParsed = true) :
    (body.orElse (.object [])).isParsed = true := by
  cases body <;> first | exact parsed | rfl

theorem drizzleTaskDispatcher_jobs {draws : Draws} {input : DispatchInput}
    {principal : PrincipalContext} {db after : Database} {result : DispatchResult}
    (dispatched : (drizzleTaskDispatcher draws).dispatch input principal db = (.ok result, after)) :
    after.jobs = db.jobs ++ [dispatchJob draws input principal] := by
  simp only [drizzleTaskDispatcher] at dispatched
  cases inserted : db.insertTask (taskToRow draws.now (newTask draws.recordId input)
    principal.organizationId input.requiredCapabilities) with
  | none => simp [inserted] at dispatched
  | some db' =>
    have kept : db'.jobs = db.jobs := Database.insertTask_jobs inserted
    simp only [inserted, Prod.mk.injEq] at dispatched
    rw [← dispatched.2, Database.addJob, Database.insertEvents, kept]

/-- A queued dispatch meets the contract of the queue exactly when it names an organization and its
hints are well typed. -/
theorem dispatchTask_delivered_iff (realm : Realm) (objectives : ObjectiveService Database)
    (draws : Draws) (principal : PrincipalContext) (id : String) (body : JsValue)
    (parsed : body.isParsed = true) (goal definitionOfDone : String)
    (requiredCapabilities : List String)
    (wellFormed : WellFormedDispatch body goal definitionOfDone requiredCapabilities)
    (db : Database)
    (answered : Queued (dispatchTask realm ⟨objectives, drizzleTaskDispatcher draws⟩ principal id
      body db).1) :
    Delivered draws (dispatchInput id goal definitionOfDone requiredCapabilities
        (body.orElse (.object []))) principal db
      (dispatchTask realm ⟨objectives, drizzleTaskDispatcher draws⟩ principal id body db).2 ↔
      principal.organizationId ≠ "" ∧ WellTypedHints (body.orElse (.object [])) := by
  obtain ⟨result, dispatched⟩ := dispatchTask_queued wellFormed answered
  have bodyParsed := isParsed_orElse parsed
  have payload : OrderPayload draws principal requiredCapabilities (body.orElse (.object []))
      (dispatchJob draws (dispatchInput id goal definitionOfDone requiredCapabilities
        (body.orElse (.object []))) principal).payload := builtOrder_payload bodyParsed
  have jobs := drizzleTaskDispatcher_jobs dispatched
  constructor
  · rintro ⟨job, order, added, -, read, same⟩
    obtain ⟨reads, tenant⟩ := readsAs_of_deepEq read same
    exact ⟨tenant, wellTypedHints_iff.mpr ⟨order, reads⟩⟩
  · rintro ⟨tenant, wellTyped⟩
    obtain ⟨order, reads⟩ := wellTypedHints_iff.mp wellTyped
    exact ⟨_, order, jobs, rfl, payload.parse reads tenant bodyParsed, reads.deepEq⟩

/-! ### A mistyped hint -/

/-- A service that has one objective, open to its organization. -/
def crmObjectives : ObjectiveService Database where
  create input principal db := (.ok (newObjective "objective-1" input principal), db)
  get _ _ _ := .ok (some (newObjective "objective-1" {
    requestedOutcome := "Clean contacts"
    definitionOfDone := "No contact is listed twice"
    scope := .string "ORGANIZATION"
    riskLevel := .string "low"
    projectId := none
    teamId := none } crmMember))

def emptyDatabase : Database where
  tasks := []
  events := []
  jobs := []
  primaryKey := by decide

/-- A dispatch that says `"yes"` where a boolean belongs. -/
def crmHintBody : JsValue := .object [
  ("goal", .string "Merge the duplicates"),
  ("definitionOfDone", .string "One record for each contact"),
  ("prefersHuman", .string "yes")]

theorem crmHintBody_wellFormed : WellFormedDispatch crmHintBody "Merge the duplicates"
    "One record for each contact" [] := by
  simp [WellFormedDispatch, crmHintBody, orElse, asString, asStringArray]

theorem crmHintBody_parsed : crmHintBody.isParsed = true := by
  simp [crmHintBody, isParsed, fieldsParsed]

theorem crmHintBody_queued : Queued (dispatchTask Realm.plain
    ⟨crmObjectives, drizzleTaskDispatcher (crmDraws "task-1")⟩ crmMember "objective-1" crmHintBody
    emptyDatabase).1 := by
  rw [dispatchTask_admitted crmHintBody_wellFormed rfl (.organization rfl)]
  exact ⟨_, rfl⟩

theorem crmHintBody_mistyped : ¬ WellTypedHints (crmHintBody.orElse (.object [])) := by
  intro wellTyped
  have prefersHuman := wellTyped.booleans "prefersHuman" (by decide)
  simp [crmHintBody, orElse] at prefersHuman

theorem dispatchTask_delivered_iff_crm :
    Delivered (crmDraws "task-1") (dispatchInput "objective-1" "Merge the duplicates"
        "One record for each contact" [] (crmHintBody.orElse (.object []))) crmMember emptyDatabase
      (dispatchTask Realm.plain ⟨crmObjectives, drizzleTaskDispatcher (crmDraws "task-1")⟩
        crmMember "objective-1" crmHintBody emptyDatabase).2 ↔
      crmMember.organizationId ≠ "" ∧ WellTypedHints (crmHintBody.orElse (.object [])) :=
  dispatchTask_delivered_iff Realm.plain crmObjectives (crmDraws "task-1") crmMember "objective-1"
    crmHintBody crmHintBody_parsed _ _ _ crmHintBody_wellFormed emptyDatabase crmHintBody_queued

theorem dispatchTask_queues_mistyped :
    ¬ ∀ (realm : Realm) (objectives : ObjectiveService Database) (draws : Draws)
      (principal : PrincipalContext) (id : String) (body : JsValue), body.isParsed = true →
      ∀ goal definitionOfDone requiredCapabilities,
        WellFormedDispatch body goal definitionOfDone requiredCapabilities →
      ∀ db : Database, Queued (dispatchTask realm ⟨objectives, drizzleTaskDispatcher draws⟩
        principal id body db).1 →
      Delivered draws (dispatchInput id goal definitionOfDone requiredCapabilities
          (body.orElse (.object []))) principal db
        (dispatchTask realm ⟨objectives, drizzleTaskDispatcher draws⟩ principal id body db).2 := by
  intro delivers
  obtain ⟨job, order, -, -, read, same⟩ := delivers Realm.plain crmObjectives (crmDraws "task-1")
    crmMember "objective-1" crmHintBody crmHintBody_parsed _ _ _ crmHintBody_wellFormed
    emptyDatabase crmHintBody_queued
  obtain ⟨reads, -⟩ := readsAs_of_deepEq read same
  exact crmHintBody_mistyped (wellTypedHints_iff.mpr ⟨order, reads⟩)

end Donna
