import Donna.Worker.Payload

/-! Encoding a work order as a job payload and parsing it back.  The parser reads fourteen of the
sixteen properties of a work order: an order survives the queue exactly when it has neither an actor
nor a capability input. -/

namespace Donna

open Js JsValue

/-! ### Objects that are JSON -/

theorem fieldsJson_present {table : List (String × Option JsValue)}
    (json : ∀ field ∈ table, ∀ value, field.2 = some value → value.isJson = true) :
    fieldsJson (present table) = true := by
  induction table with
  | nil => rfl
  | cons field rest ih =>
    obtain ⟨name, value⟩ := field
    have hRest := ih fun field listed => json field (List.mem_cons_of_mem _ listed)
    cases value with
    | none => exact hRest
    | some value =>
      have hValue := json _ List.mem_cons_self value rfl
      rw [present, fieldsJson, hValue, hRest]
      rfl

theorem keys_present (table : List (String × Option JsValue)) :
    ((present table).map Prod.fst).Sublist (table.map Prod.fst) := by
  induction table with
  | nil => exact List.Sublist.refl _
  | cons field rest ih =>
    obtain ⟨name, value⟩ := field
    cases value with
    | none => exact ih.cons name
    | some value => exact ih.cons_cons name

theorem isJson_present {table : List (String × Option JsValue)}
    (distinct : (table.map Prod.fst).Nodup)
    (json : ∀ field ∈ table, ∀ value, field.2 = some value → value.isJson = true) :
    (object (present table)).isJson = true := by
  rw [isJson, fieldsJson_present json, Bool.and_true, decide_eq_true_eq]
  exact distinct.sublist (keys_present table)

theorem areJson_map {α : Type} {encode : α → JsValue} (items : List α)
    (json : ∀ item, (encode item).isJson = true) : areJson (items.map encode) = true := by
  induction items with
  | nil => rfl
  | cons item rest ih =>
    rw [List.map_cons, areJson, json item, ih]
    rfl

theorem isJson_of_map {α : Type} {encode : α → JsValue} (json : ∀ item, (encode item).isJson = true)
    (source : Option α) : ∀ value, source.map encode = some value → value.isJson = true := by
  intro value given
  obtain ⟨item, -, rfl⟩ := Option.map_eq_some_iff.mp given
  exact json item

theorem isJson_string (s : String) : (JsValue.string s).isJson = true := rfl

theorem isJson_boolean (b : Bool) : (JsValue.boolean b).isJson = true := rfl

theorem isJson_finiteNumber (q : ℚ) : (finiteNumber q).isJson = true := rfl

theorem isJson_strings (items : List String) : (JsValue.strings items).isJson = true := by
  rw [JsValue.strings, isJson]
  exact areJson_map items isJson_string

theorem Actor.isJson_toJs (actor : Actor) : actor.toJs.isJson = true := by
  simp [Actor.toJs, isJson, fieldsJson]

/-! ### Model requests -/

theorem ModelMessage.isJson_toJs (message : ModelMessage) : message.toJs.isJson = true := by
  simp [ModelMessage.toJs, isJson, fieldsJson]

theorem parseMessages_toJs (index : ℕ) (messages : List ModelMessage) :
    parseMessages index (messages.map ModelMessage.toJs) = .ok messages := by
  induction messages generalizing index with
  | nil => rfl
  | cons message rest ih =>
    have first : parseMessage index message.toJs = .ok message := by
      simp [parseMessage, ModelMessage.toJs, isRecord, asString]
    rw [List.map_cons, parseMessages, first, ok_bind, ih]
    rfl

theorem asFinite_finiteNumber (q : ℚ) : asFinite (finiteNumber q) = some q := rfl

theorem finiteNumber_ne_undefined (q : ℚ) : finiteNumber q ≠ .undefined := JsValue.noConfusion

theorem ModelRequest.distinct_keys (request : ModelRequest) :
    (request.table.map Prod.fst).Nodup := by
  simp [ModelRequest.table]

theorem ModelRequest.isJson_toJs (request : ModelRequest) : request.toJs.isJson = true := by
  apply isJson_present request.distinct_keys
  simp only [ModelRequest.table, List.forall_mem_cons, Option.some.injEq, forall_eq']
  refine ⟨?_, isJson_of_map isJson_finiteNumber _, isJson_of_map isJson_finiteNumber _, by simp⟩
  rw [isJson]
  exact areJson_map _ ModelMessage.isJson_toJs

theorem parseModelRequest_toJs {request : ModelRequest} (some_message : request.messages ≠ []) :
    parseModelRequest request.toJs = .ok request := by
  have own : ∀ key, request.toJs.own key = (request.table.lookup key).join.getD .undefined :=
    own_present request.distinct_keys
  have maxOutputTokens : optionalNumber request.toJs "maxOutputTokens" =
      .ok request.maxOutputTokens :=
    optionalOf_written (own _) asFinite_finiteNumber finiteNumber_ne_undefined
  have reasoningTier : optionalNumber request.toJs "reasoningTier" = .ok request.reasoningTier :=
    optionalOf_written (own _) asFinite_finiteNumber finiteNumber_ne_undefined
  have messages : request.toJs.own "messages" =
      .array (request.messages.map ModelMessage.toJs) := own _
  obtain ⟨first, rest, hMessages⟩ := List.exists_cons_of_ne_nil some_message
  have parsed := parseMessages_toJs 0 request.messages
  rw [hMessages, List.map_cons] at messages parsed
  have record : isRecord request.toJs = true := rfl
  rw [parseModelRequest, record, messages]
  simp only [Bool.not_true, Bool.false_eq_true, if_false, parsed, maxOutputTokens, reasoningTier,
    ok_bind, pure_except, ← hMessages]

/-! ### Work orders -/

/-- The contents of a work order are JSON values: its id and its messages are not empty, and its
gates are objects. -/
structure WorkOrder.Serialisable (order : WorkOrder) : Prop where
  organization : order.organizationId ≠ ""
  messages : ∀ request, order.modelRequest = some request → request.messages ≠ []
  capabilityInput : ∀ value, order.capabilityInput = some value → value.isJson = true
  policy : ∀ value, order.policy = some value → value.isJson = true ∧ isRecord value = true
  budget : ∀ value, order.budget = some value → value.isJson = true ∧ isRecord value = true

theorem WorkOrder.distinct_keys (order : WorkOrder) : (order.table.map Prod.fst).Nodup := by
  simp [WorkOrder.table]

theorem WorkOrder.own_toJs (order : WorkOrder) (key : String) :
    order.toJs.own key = (order.table.lookup key).join.getD .undefined :=
  own_present order.distinct_keys key

theorem asStrings_strings (items : List String) :
    asStrings (JsValue.strings items) = some items := by
  have h : (items.map JsValue.string).mapM asString = some items := by
    induction items with
    | nil => rfl
    | cons item rest ih => simp [ih, asString]
  exact h

theorem WorkOrder.jsonClone_toJs {order : WorkOrder} (serialisable : order.Serialisable) :
    order.toJs.jsonClone = order.toJs := by
  rw [WorkOrder.toJs, jsonClone, cloneFields_of_fieldsJson]
  apply fieldsJson_present
  simp only [WorkOrder.table, List.forall_mem_cons, Option.some.injEq, forall_eq']
  exact ⟨isJson_string _, isJson_of_map isJson_string _, isJson_of_map isJson_string _,
    isJson_of_map Actor.isJson_toJs _, isJson_strings _, isJson_of_map isJson_boolean _,
    isJson_of_map isJson_boolean _, isJson_of_map isJson_finiteNumber _,
    isJson_of_map isJson_boolean _, isJson_of_map isJson_boolean _,
    isJson_of_map isJson_boolean _, isJson_of_map isJson_finiteNumber _,
    isJson_of_map ModelRequest.isJson_toJs _, serialisable.capabilityInput,
    fun value given => (serialisable.policy value given).1,
    fun value given => (serialisable.budget value given).1, by simp⟩

theorem optionalRecord_written {record : JsValue} {key : String} {gate : Option JsValue}
    (written : record.own key = gate.getD .undefined)
    (isObject : ∀ value, gate = some value → isRecord value = true) :
    optionalRecord record key = .ok gate := by
  rw [optionalRecord_eq_ok, written]
  cases gate with
  | none => exact .inl ⟨rfl, rfl⟩
  | some value => exact .inr ⟨isObject value rfl, rfl⟩

theorem optionalModelRequest_written {record : JsValue} {request : Option ModelRequest}
    (written : record.own "modelRequest" = (request.map ModelRequest.toJs).getD .undefined)
    (messages : ∀ given, request = some given → given.messages ≠ []) :
    optionalModelRequest record = .ok request := by
  rw [optionalModelRequest, written]
  cases request with
  | none => rfl
  | some given =>
    have parsed := parseModelRequest_toJs (messages given rfl)
    simp only [Option.map_some, Option.getD_some, parsed]
    rfl

/-- The parser reads back all of an order but its actor and its capability input. -/
theorem parseWorkOrder_toJs {order : WorkOrder} (serialisable : order.Serialisable) :
    parseWorkOrder order.toJs = .ok { order with actor := none, capabilityInput := none } := by
  have organizationId : requireString order.toJs "organizationId" = .ok order.organizationId :=
    requireString_eq_ok.mpr ⟨order.own_toJs _, serialisable.organization⟩
  have requiredCapabilities : stringArray order.toJs "requiredCapabilities" =
      .ok order.requiredCapabilities := by
    have given : optionalOf asStrings "an array of strings" order.toJs "requiredCapabilities" =
        .ok (some order.requiredCapabilities) :=
      optionalOf_written (order.own_toJs _) asStrings_strings fun _ => JsValue.noConfusion
    rw [stringArray, given]
    rfl
  have string : ∀ {key value}, order.toJs.own key = (value.map JsValue.string).getD .undefined →
      optionalString order.toJs key = .ok value :=
    fun written => optionalOf_written written (fun _ => rfl) fun _ => JsValue.noConfusion
  have boolean : ∀ {key value}, order.toJs.own key = (value.map JsValue.boolean).getD .undefined →
      optionalBoolean order.toJs key = .ok value :=
    fun written => optionalOf_written written (fun _ => rfl) fun _ => JsValue.noConfusion
  have number : ∀ {key value}, order.toJs.own key = (value.map finiteNumber).getD .undefined →
      optionalNumber order.toJs key = .ok value :=
    fun written => optionalOf_written written (fun _ => rfl) finiteNumber_ne_undefined
  have modelRequest := optionalModelRequest_written (order.own_toJs "modelRequest")
    serialisable.messages
  have policy := optionalRecord_written (order.own_toJs "policy")
    fun value given => (serialisable.policy value given).2
  have budget := optionalRecord_written (order.own_toJs "budget")
    fun value given => (serialisable.budget value given).2
  have record : isRecord order.toJs = true := rfl
  simp only [parseWorkOrder, record, Bool.not_true, Bool.false_eq_true, if_false, organizationId,
    requiredCapabilities, string (order.own_toJs "taskId"),
    string (order.own_toJs "correlationId"), boolean (order.own_toJs "prefersHuman"),
    boolean (order.own_toJs "needsReasoning"), number (order.own_toJs "reasoningTier"),
    boolean (order.own_toJs "needsTools"), boolean (order.own_toJs "needsVision"),
    boolean (order.own_toJs "requireLocal"), number (order.own_toJs "minContextTokens"),
    modelRequest, policy, budget, ok_bind, pure_except]
  rfl

/-- An order comes back from the queue as it went in exactly when it names no actor and carries no
capability input. -/
theorem parseWorkOrder_jsonClone_iff (order : WorkOrder) (serialisable : order.Serialisable) :
    parseWorkOrder order.toJs.jsonClone = .ok order ↔
      order.actor = none ∧ order.capabilityInput = none := by
  rw [WorkOrder.jsonClone_toJs serialisable, parseWorkOrder_toJs serialisable, Except.ok.injEq]
  constructor
  · intro same
    exact ⟨(congrArg WorkOrder.actor same).symm, (congrArg WorkOrder.capabilityInput same).symm⟩
  · rintro ⟨actor, capabilityInput⟩
    rw [← actor, ← capabilityInput]

/-- An order for a capability that needs to know which record to update. -/
def crmInputOrder : WorkOrder where
  organizationId := "acme"
  taskId := some "task-1"
  requiredCapabilities := ["crm.update"]
  capabilityInput := some (.object [("contact", .string "ada")])

theorem crmInputOrder_serialisable : crmInputOrder.Serialisable where
  organization := by decide
  messages := by simp [crmInputOrder]
  capabilityInput := by simp [crmInputOrder, isJson, fieldsJson]
  policy := by simp [crmInputOrder]
  budget := by simp [crmInputOrder]

theorem parseWorkOrder_jsonClone_iff_crm :
    parseWorkOrder crmInputOrder.toJs.jsonClone = .ok crmInputOrder ↔
      crmInputOrder.actor = none ∧ crmInputOrder.capabilityInput = none :=
  parseWorkOrder_jsonClone_iff crmInputOrder crmInputOrder_serialisable

/-- The capability input does not reach the adapter. -/
theorem parseWorkOrder_loses_capabilityInput :
    ¬ ∀ order : WorkOrder, order.Serialisable →
      parseWorkOrder order.toJs.jsonClone = .ok order := by
  intro lossless
  have same := lossless crmInputOrder crmInputOrder_serialisable
  rw [WorkOrder.jsonClone_toJs crmInputOrder_serialisable,
    parseWorkOrder_toJs crmInputOrder_serialisable] at same
  cases same

end Donna
