import Donna.Worker.RoundTrip

/-! The grammar of a queued work order, and what of it the parser checks.  The parser reads the role
of a message as any string and asserts that it is one of the four roles, so it accepts exactly the
grammar of every payload whose messages have one of them. -/

namespace Donna

open Js JsValue

/-! ### The grammar -/

/-- The roles of the type `ModelRole`. -/
def modelRoles : List String := ["system", "user", "assistant", "tool"]

def IsString (value : JsValue) : Prop := ∃ s, value = .string s

def IsBoolean (value : JsValue) : Prop := ∃ b, value = .boolean b

def IsFiniteNumber (value : JsValue) : Prop := ∃ q, value = finiteNumber q

def IsStringList (value : JsValue) : Prop := ∃ items, value = JsValue.strings items

/-- The field is absent or of the kind. -/
def OptionalField (kind : JsValue → Prop) (record : JsValue) (key : String) : Prop :=
  record.own key = .undefined ∨ kind (record.own key)

/-- A message whose role `permits`. -/
structure MessageGrammar (permits : String → Prop) (value : JsValue) : Prop where
  object : isRecord value = true
  role : ∃ role, value.own "role" = .string role ∧ permits role
  content : IsString (value.own "content")

structure RequestGrammar (permits : String → Prop) (value : JsValue) : Prop where
  object : isRecord value = true
  messages : ∃ items, value.own "messages" = .array items ∧ items ≠ [] ∧
    ∀ item ∈ items, MessageGrammar permits item
  maxOutputTokens : OptionalField IsFiniteNumber value "maxOutputTokens"
  reasoningTier : OptionalField IsFiniteNumber value "reasoningTier"

structure OrderGrammar (permits : String → Prop) (value : JsValue) : Prop where
  object : isRecord value = true
  organizationId : ∃ s, value.own "organizationId" = .string s ∧ s ≠ ""
  requiredCapabilities : OptionalField IsStringList value "requiredCapabilities"
  strings : ∀ key ∈ ["taskId", "correlationId"], OptionalField IsString value key
  booleans : ∀ key ∈ ["prefersHuman", "needsReasoning", "needsTools", "needsVision",
    "requireLocal"], OptionalField IsBoolean value key
  numbers : ∀ key ∈ ["reasoningTier", "minContextTokens"], OptionalField IsFiniteNumber value key
  modelRequest : OptionalField (RequestGrammar permits) value "modelRequest"
  gates : ∀ key ∈ ["policy", "budget"], OptionalField (isRecord · = true) value key

/-- Every role that a message of the payload names is one of the four. -/
def RolesKnown (payload : JsValue) : Prop :=
  ∀ items, (payload.own "modelRequest").own "messages" = .array items →
    ∀ item ∈ items, ∀ role, item.own "role" = .string role → role ∈ modelRoles

section Grammar

variable {permits : String → Prop} {payload record : JsValue}

theorem orderGrammar_iff_rolesKnown :
    OrderGrammar (· ∈ modelRoles) payload ↔
      OrderGrammar (fun _ => True) payload ∧ RolesKnown payload := by
  constructor
  · intro grammar
    constructor
    · refine { grammar with modelRequest := grammar.modelRequest.imp_right fun request => ?_ }
      obtain ⟨items, listed, inhabited, messages⟩ := request.messages
      refine { request with messages := ⟨items, listed, inhabited, fun item present => ?_⟩ }
      obtain ⟨object, ⟨role, given, -⟩, content⟩ := messages item present
      exact ⟨object, ⟨role, given, trivial⟩, content⟩
    · intro items listed item present role given
      rcases grammar.modelRequest with absent | request
      · rw [absent] at listed
        cases listed
      · obtain ⟨items', listed', -, messages⟩ := request.messages
        obtain rfl : items = items' := JsValue.array.inj (listed.symm.trans listed')
        obtain ⟨role', given', known⟩ := (messages item present).role
        obtain rfl : role = role' := JsValue.string.inj (given.symm.trans given')
        exact known
  · rintro ⟨grammar, known⟩
    refine { grammar with modelRequest := grammar.modelRequest.imp_right fun request => ?_ }
    obtain ⟨items, listed, inhabited, messages⟩ := request.messages
    refine { request with messages := ⟨items, listed, inhabited, fun item present => ?_⟩ }
    obtain ⟨object, ⟨role, given, -⟩, content⟩ := messages item present
    exact ⟨object, ⟨role, given, known items listed item present role given⟩, content⟩

/-! ### One field -/

theorem isString_iff {value : JsValue} : (∃ s, asString value = some s) ↔ IsString value := by
  cases value <;> simp [asString, IsString]

theorem isBoolean_iff {value : JsValue} : (∃ b, asBoolean value = some b) ↔ IsBoolean value := by
  cases value <;> simp [asBoolean, IsBoolean]

theorem isFiniteNumber_iff {value : JsValue} :
    (∃ q, asFinite value = some q) ↔ IsFiniteNumber value := by
  cases value with
  | number n => cases n <;> simp [asFinite, IsFiniteNumber, finiteNumber]
  | _ => simp [asFinite, IsFiniteNumber, finiteNumber]

theorem mapM_asString_eq_some {items : List JsValue} {strings : List String}
    (read : items.mapM asString = some strings) : items = strings.map .string := by
  induction items generalizing strings with
  | nil =>
    cases read
    rfl
  | cons item rest ih =>
    simp only [List.mapM_cons, Option.bind_eq_bind, Option.bind_eq_some_iff, Option.pure_def,
      Option.some.injEq] at read
    obtain ⟨first, hFirst, others, hOthers, rfl⟩ := read
    rw [ih hOthers, List.map_cons]
    cases item with
    | string s =>
      cases hFirst
      rfl
    | _ => cases hFirst

theorem isStringList_iff {value : JsValue} :
    (∃ items, asStrings value = some items) ↔ IsStringList value := by
  constructor
  · rintro ⟨strings, read⟩
    cases value with
    | array items => exact ⟨strings, congrArg JsValue.array (mapM_asString_eq_some read)⟩
    | _ => cases read
  · rintro ⟨items, rfl⟩
    exact ⟨items, asStrings_strings items⟩

theorem optionalOf_accepts_iff {α : Type} {read : JsValue → Option α} {text key : String}
    {kind : JsValue → Prop} (reads : ∀ {value}, (∃ given, read value = some given) ↔ kind value) :
    (∃ value, optionalOf read text record key = .ok value) ↔ OptionalField kind record key := by
  simp only [optionalOf_eq_ok]
  constructor
  · rintro ⟨value, ⟨absent, -⟩ | ⟨-, given, read⟩⟩
    · exact .inl absent
    · obtain ⟨found, rfl⟩ := Option.isSome_iff_exists.mp given
      exact .inr (reads.mp ⟨found, read⟩)
  · intro field
    by_cases absent : record.own key = .undefined
    · exact ⟨none, .inl ⟨absent, rfl⟩⟩
    · obtain ⟨given, read⟩ := reads.mpr (field.resolve_left absent)
      exact ⟨some given, .inr ⟨absent, rfl, read⟩⟩

theorem stringArray_accepts_iff {key : String} :
    (∃ items, stringArray record key = .ok items) ↔ OptionalField IsStringList record key := by
  have field : (∃ given, optionalOf asStrings "an array of strings" record key = .ok given) ↔
      OptionalField IsStringList record key := optionalOf_accepts_iff isStringList_iff
  rw [← field]
  simp only [stringArray, bind_eq_ok, pure_except, Except.ok.injEq]
  constructor
  · rintro ⟨items, given, read, -⟩
    exact ⟨given, read⟩
  · rintro ⟨given, read⟩
    exact ⟨_, given, read, rfl⟩

theorem optionalRecord_accepts_iff {key : String} :
    (∃ gate, optionalRecord record key = .ok gate) ↔
      OptionalField (isRecord · = true) record key := by
  simp only [optionalRecord_eq_ok, OptionalField]
  constructor
  · rintro ⟨gate, ⟨absent, -⟩ | ⟨object, -⟩⟩
    · exact .inl absent
    · exact .inr object
  · rintro (absent | object)
    · exact ⟨none, .inl ⟨absent, rfl⟩⟩
    · exact ⟨_, .inr ⟨object, rfl⟩⟩

/-! ### The model request -/

/-- The message that an item reads as. -/
def ReadsMessage (item : JsValue) (message : ModelMessage) : Prop :=
  isRecord item = true ∧ item.own "role" = .string message.role ∧
    item.own "content" = .string message.content

theorem parseMessage_eq_ok {index : ℕ} {item : JsValue} {message : ModelMessage} :
    parseMessage index item = .ok message ↔ ReadsMessage item message := by
  have asString_iff {value : JsValue} {s : String} :
      asString value = some s ↔ value = .string s := by
    cases value <;> simp [asString]
  unfold parseMessage ReadsMessage
  split
  next role content object given given' =>
    rw [asString_iff.mp given, asString_iff.mp given', object]
    simp only [pure_except, Except.ok.injEq, true_and, string.injEq]
    constructor
    · rintro rfl
      exact ⟨rfl, rfl⟩
    · rintro ⟨rfl, rfl⟩
      rfl
  next unread =>
    refine iff_of_false (by simp) ?_
    rintro ⟨object, role, content⟩
    exact unread _ _ object (asString_iff.mpr role) (asString_iff.mpr content)

theorem parseMessages_eq_ok {index : ℕ} {items : List JsValue} {messages : List ModelMessage} :
    parseMessages index items = .ok messages ↔ List.Forall₂ ReadsMessage items messages := by
  induction items generalizing index messages with
  | nil =>
    rw [parseMessages, List.forall₂_nil_left_iff, pure_except, Except.ok.injEq]
    exact eq_comm
  | cons item rest ih =>
    simp only [parseMessages, bind_eq_ok, parseMessage_eq_ok, ih, pure_except, Except.ok.injEq]
    constructor
    · rintro ⟨message, first, others, later, rfl⟩
      exact .cons first later
    · intro read
      cases read with
      | cons first later => exact ⟨_, first, _, later, rfl⟩

theorem readsMessage_iff {item : JsValue} :
    (∃ message, ReadsMessage item message) ↔ MessageGrammar (fun _ => True) item := by
  constructor
  · rintro ⟨message, object, role, content⟩
    exact ⟨object, ⟨_, role, trivial⟩, _, content⟩
  · rintro ⟨object, ⟨role, given, -⟩, content, given'⟩
    exact ⟨⟨role, content⟩, object, given, given'⟩

theorem parseMessages_accepts_iff {index : ℕ} {items : List JsValue} :
    (∃ messages, parseMessages index items = .ok messages) ↔
      ∀ item ∈ items, MessageGrammar (fun _ => True) item := by
  simp only [parseMessages_eq_ok]
  induction items with
  | nil => exact ⟨fun _ => by simp, fun _ => ⟨[], .nil⟩⟩
  | cons item rest ih =>
    rw [List.forall_mem_cons, ← ih, ← readsMessage_iff]
    constructor
    · rintro ⟨messages, read⟩
      cases read with
      | cons first later => exact ⟨⟨_, first⟩, _, later⟩
    · rintro ⟨⟨message, first⟩, messages, later⟩
      exact ⟨message :: messages, .cons first later⟩

/-- What the parser accepts as a model request. -/
theorem parseModelRequest_eq_ok {value : JsValue} {request : ModelRequest} :
    parseModelRequest value = .ok request ↔ isRecord value = true ∧
      (∃ items, value.own "messages" = .array items ∧ items ≠ [] ∧
        parseMessages 0 items = .ok request.messages) ∧
      optionalNumber value "maxOutputTokens" = .ok request.maxOutputTokens ∧
      optionalNumber value "reasoningTier" = .ok request.reasoningTier := by
  constructor
  · intro parsed
    unfold parseModelRequest at parsed
    split at parsed
    next => cases parsed
    next object =>
      split at parsed
      next first rest listed =>
        simp only [bind_eq_ok, pure_except, Except.ok.injEq] at parsed
        obtain ⟨messages, hMessages, maxOutputTokens, hMax, reasoningTier, hTier, rfl⟩ := parsed
        exact ⟨by simpa using object, ⟨_, listed, List.cons_ne_nil _ _, hMessages⟩, hMax, hTier⟩
      next => cases parsed
  · rintro ⟨object, ⟨items, listed, inhabited, hMessages⟩, hMax, hTier⟩
    obtain ⟨first, rest, rfl⟩ := List.exists_cons_of_ne_nil inhabited
    rw [parseModelRequest, object, listed]
    simp only [Bool.not_true, Bool.false_eq_true, if_false, hMessages, hMax, hTier, ok_bind,
      pure_except]

theorem parseModelRequest_accepts_iff {value : JsValue} :
    (∃ request, parseModelRequest value = .ok request) ↔
      RequestGrammar (fun _ => True) value := by
  have number {key : String} : (∃ q, optionalNumber value key = .ok q) ↔
      OptionalField IsFiniteNumber value key := optionalOf_accepts_iff isFiniteNumber_iff
  simp only [parseModelRequest_eq_ok]
  constructor
  · rintro ⟨request, object, ⟨items, listed, inhabited, read⟩, maxOutputTokens, reasoningTier⟩
    exact {
      object := object
      messages := ⟨items, listed, inhabited, parseMessages_accepts_iff.mp ⟨_, read⟩⟩
      maxOutputTokens := number.mp ⟨_, maxOutputTokens⟩
      reasoningTier := number.mp ⟨_, reasoningTier⟩ }
  · rintro ⟨object, ⟨items, listed, inhabited, messages⟩, maxOutputTokens, reasoningTier⟩
    obtain ⟨read, hRead⟩ : ∃ read, parseMessages 0 items = .ok read :=
      parseMessages_accepts_iff.mpr messages
    obtain ⟨limit, hLimit⟩ := number.mpr maxOutputTokens
    obtain ⟨tier, hTier⟩ := number.mpr reasoningTier
    exact ⟨⟨read, limit, tier⟩, object, ⟨items, listed, inhabited, hRead⟩, hLimit, hTier⟩

theorem optionalModelRequest_eq_ok {request : Option ModelRequest} :
    optionalModelRequest payload = .ok request ↔
      (payload.own "modelRequest" = .undefined ∧ request = none) ∨
        (payload.own "modelRequest" ≠ .undefined ∧ ∃ given, request = some given ∧
          parseModelRequest (payload.own "modelRequest") = .ok given) := by
  unfold optionalModelRequest
  by_cases absent : payload.own "modelRequest" = .undefined
  · rw [if_pos (isUndefined_iff.mpr absent)]
    simp [absent, eq_comm]
  · rw [if_neg fun missing => absent (isUndefined_iff.mp missing)]
    cases parseModelRequest (payload.own "modelRequest") with
    | error error => simp [absent]
    | ok given => simp [absent, eq_comm]

theorem optionalModelRequest_accepts_iff :
    (∃ request, optionalModelRequest payload = .ok request) ↔
      OptionalField (RequestGrammar fun _ => True) payload "modelRequest" := by
  simp only [optionalModelRequest_eq_ok]
  constructor
  · rintro ⟨request, ⟨absent, -⟩ | ⟨-, given, -, read⟩⟩
    · exact .inl absent
    · exact .inr (parseModelRequest_accepts_iff.mp ⟨given, read⟩)
  · intro field
    by_cases absent : payload.own "modelRequest" = .undefined
    · exact ⟨none, .inl ⟨absent, rfl⟩⟩
    · obtain ⟨given, read⟩ := parseModelRequest_accepts_iff.mpr (field.resolve_left absent)
      exact ⟨some given, .inr ⟨absent, given, rfl, read⟩⟩

/-! ### The payload -/

/-- The parser accepts the grammar with any string for a role. -/
theorem parseWorkOrder_accepts_iff :
    (∃ order, parseWorkOrder payload = .ok order) ↔ OrderGrammar (fun _ => True) payload := by
  have string {key : String} : (∃ s, optionalString payload key = .ok s) ↔
      OptionalField IsString payload key := optionalOf_accepts_iff isString_iff
  have boolean {key : String} : (∃ b, optionalBoolean payload key = .ok b) ↔
      OptionalField IsBoolean payload key := optionalOf_accepts_iff isBoolean_iff
  have number {key : String} : (∃ q, optionalNumber payload key = .ok q) ↔
      OptionalField IsFiniteNumber payload key := optionalOf_accepts_iff isFiniteNumber_iff
  constructor
  · rintro ⟨order, parsed⟩
    obtain ⟨object, organizationId, requiredCapabilities, taskId, correlationId, prefersHuman,
      needsReasoning, reasoningTier, needsTools, needsVision, requireLocal, minContextTokens,
      modelRequest, policy, budget, -⟩ := parseWorkOrder_eq_ok.mp parsed
    exact {
      object := object
      organizationId := ⟨_, requireString_eq_ok.mp organizationId⟩
      requiredCapabilities := stringArray_accepts_iff.mp ⟨_, requiredCapabilities⟩
      strings := by
        simp only [List.forall_mem_cons, ← string]
        exact ⟨⟨_, taskId⟩, ⟨_, correlationId⟩, by simp⟩
      booleans := by
        simp only [List.forall_mem_cons, ← boolean]
        exact ⟨⟨_, prefersHuman⟩, ⟨_, needsReasoning⟩, ⟨_, needsTools⟩, ⟨_, needsVision⟩,
          ⟨_, requireLocal⟩, by simp⟩
      numbers := by
        simp only [List.forall_mem_cons, ← number]
        exact ⟨⟨_, reasoningTier⟩, ⟨_, minContextTokens⟩, by simp⟩
      modelRequest := optionalModelRequest_accepts_iff.mp ⟨_, modelRequest⟩
      gates := by
        simp only [List.forall_mem_cons, ← optionalRecord_accepts_iff]
        exact ⟨⟨_, policy⟩, ⟨_, budget⟩, by simp⟩ }
  · rintro ⟨object, ⟨organizationId, written⟩, requiredCapabilities, strings, booleans, numbers,
      modelRequest, gates⟩
    simp only [List.forall_mem_cons, ← string] at strings
    simp only [List.forall_mem_cons, ← boolean] at booleans
    simp only [List.forall_mem_cons, ← number] at numbers
    simp only [List.forall_mem_cons, ← optionalRecord_accepts_iff] at gates
    obtain ⟨capabilities, h2⟩ := stringArray_accepts_iff.mpr requiredCapabilities
    obtain ⟨⟨taskId, h3⟩, ⟨correlationId, h4⟩, -⟩ := strings
    obtain ⟨⟨prefersHuman, h5⟩, ⟨needsReasoning, h6⟩, ⟨needsTools, h8⟩, ⟨needsVision, h9⟩,
      ⟨requireLocal, h10⟩, -⟩ := booleans
    obtain ⟨⟨reasoningTier, h7⟩, ⟨minContextTokens, h11⟩, -⟩ := numbers
    obtain ⟨request, h12⟩ := optionalModelRequest_accepts_iff.mpr modelRequest
    obtain ⟨⟨policy, h13⟩, ⟨budget, h14⟩, -⟩ := gates
    exact ⟨{
      organizationId := organizationId
      requiredCapabilities := capabilities
      taskId := taskId
      correlationId := correlationId
      prefersHuman := prefersHuman
      needsReasoning := needsReasoning
      reasoningTier := reasoningTier
      needsTools := needsTools
      needsVision := needsVision
      requireLocal := requireLocal
      minContextTokens := minContextTokens
      modelRequest := request
      policy := policy
      budget := budget }, parseWorkOrder_eq_ok.mpr ⟨object, requireString_eq_ok.mpr written, h2,
        h3, h4, h5, h6, h7, h8, h9, h10, h11, h12, h13, h14, rfl, rfl⟩⟩

/-! ### What the parser returns -/

/-- The order is a value of its TypeScript type outside its gates: the roles of its messages are the
one part that the types here leave open. -/
def WorkOrder.RolesTyped (order : WorkOrder) : Prop :=
  ∀ request, order.modelRequest = some request →
    ∀ message ∈ request.messages, message.role ∈ modelRoles

theorem rolesKnown_messages {items : List JsValue} {messages : List ModelMessage}
    (read : List.Forall₂ ReadsMessage items messages) :
    (∀ message ∈ messages, message.role ∈ modelRoles) ↔
      ∀ item ∈ items, ∀ role, item.own "role" = .string role → role ∈ modelRoles := by
  induction read with
  | nil => simp
  | cons first later ih =>
    obtain ⟨-, role, -⟩ := first
    simp only [List.forall_mem_cons, ih, role, string.injEq, forall_eq']

theorem rolesTyped_iff {order : WorkOrder} (parsed : parseWorkOrder payload = .ok order) :
    order.RolesTyped ↔ RolesKnown payload := by
  obtain ⟨-, -, -, -, -, -, -, -, -, -, -, -, modelRequest, -⟩ := parseWorkOrder_eq_ok.mp parsed
  unfold WorkOrder.RolesTyped RolesKnown
  rcases optionalModelRequest_eq_ok.mp modelRequest with ⟨absent, none⟩ | ⟨-, given, some, read⟩
  · rw [absent, none]
    exact iff_of_true (fun _ impossible => by cases impossible) fun _ impossible => by
      cases impossible
  · obtain ⟨-, ⟨items, listed, -, hMessages⟩, -⟩ := parseModelRequest_eq_ok.mp read
    have roles := rolesKnown_messages (parseMessages_eq_ok.mp hMessages)
    rw [some, listed]
    simp only [Option.some.injEq, forall_eq', array.injEq, roles]

/-- What conditional spreads, `...(value !== undefined ? { key: value } : {})`, add to an object. -/
def spread (fields : List (String × JsValue)) : List (String × JsValue) :=
  fields.filter fun field => !field.2.isUndefined

/-- A parsed field as a value again. -/
def orUndefined {α : Type} (encode : α → JsValue) (source : Option α) : JsValue :=
  (source.map encode).getD .undefined

/-- The object that `parseModelRequest` returns. -/
def ModelRequest.returned (request : ModelRequest) : JsValue := .object (
  [("messages", .array (request.messages.map ModelMessage.toJs))] ++ spread [
    ("maxOutputTokens", orUndefined finiteNumber request.maxOutputTokens),
    ("reasoningTier", orUndefined finiteNumber request.reasoningTier)])

/-- The object that `parseWorkOrder` returns. -/
def WorkOrder.returned (order : WorkOrder) : JsValue := .object (
  [("organizationId", .string order.organizationId),
    ("requiredCapabilities", JsValue.strings order.requiredCapabilities)] ++ spread [
    ("taskId", orUndefined .string order.taskId),
    ("correlationId", orUndefined .string order.correlationId),
    ("prefersHuman", orUndefined .boolean order.prefersHuman),
    ("needsReasoning", orUndefined .boolean order.needsReasoning),
    ("reasoningTier", orUndefined finiteNumber order.reasoningTier),
    ("needsTools", orUndefined .boolean order.needsTools),
    ("needsVision", orUndefined .boolean order.needsVision),
    ("requireLocal", orUndefined .boolean order.requireLocal),
    ("minContextTokens", orUndefined finiteNumber order.minContextTokens),
    ("modelRequest", orUndefined ModelRequest.returned order.modelRequest),
    ("policy", orUndefined id order.policy),
    ("budget", orUndefined id order.budget)])

/-- What a spread may be given: it leaves out what is undefined. -/
def Spreadable (value : JsValue) : Prop := value = .undefined ∨ value.isParsed = true

theorem fieldsParsed_iff {fields : List (String × JsValue)} :
    fieldsParsed fields = true ↔ ∀ field ∈ fields, field.2.isParsed = true := by
  induction fields with
  | nil => simp [fieldsParsed]
  | cons field rest ih =>
    obtain ⟨key, value⟩ := field
    rw [fieldsParsed, Bool.and_eq_true, ih, List.forall_mem_cons]

theorem parsed_of_mem_spread {fields : List (String × JsValue)} {field : String × JsValue}
    (spreadable : ∀ field ∈ fields, Spreadable field.2) (kept : field ∈ spread fields) :
    field.2.isParsed = true := by
  obtain ⟨listed, defined⟩ := List.mem_filter.mp kept
  rcases spreadable field listed with undefined | parsed
  · rw [undefined] at defined
    cases defined
  · exact parsed

/-- What is undefined is no key of the object, and what is a key is defined. -/
theorem isParsed_spread {given fields : List (String × JsValue)}
    (distinct : ((given ++ fields).map Prod.fst).Nodup)
    (parsed : ∀ field ∈ given, field.2.isParsed = true)
    (spreadable : ∀ field ∈ fields, Spreadable field.2) :
    (object (given ++ spread fields)).isParsed = true := by
  have keys : ((given ++ spread fields).map Prod.fst).Nodup :=
    distinct.sublist ((List.filter_sublist.append_left given).map Prod.fst)
  have values : fieldsParsed (given ++ spread fields) = true := by
    rw [fieldsParsed_iff]
    intro field listed
    rcases List.mem_append.mp listed with always | kept
    · exact parsed field always
    · exact parsed_of_mem_spread spreadable kept
  rw [isParsed, values, Bool.and_true]
  exact decide_eq_true keys

theorem spreadable_orUndefined {α : Type} {encode : α → JsValue}
    (parsed : ∀ item, (encode item).isParsed = true) (source : Option α) :
    Spreadable (orUndefined encode source) := by
  cases source with
  | none => exact .inl rfl
  | some item => exact .inr (parsed item)

theorem ModelRequest.isParsed_returned (request : ModelRequest) :
    request.returned.isParsed = true := by
  have messages : (JsValue.array (request.messages.map ModelMessage.toJs)).isParsed = true := by
    apply isParsed_of_isJson
    rw [isJson]
    exact areJson_map _ ModelMessage.isJson_toJs
  have number : ∀ q, (finiteNumber q).isParsed = true := fun _ => rfl
  apply isParsed_spread
  · simp
  · simpa using messages
  · simp only [List.forall_mem_cons]
    exact ⟨spreadable_orUndefined number _, spreadable_orUndefined number _, by simp⟩

theorem spreadable_gate {key : String} {gate : Option JsValue} (json : payload.isParsed = true)
    (read : optionalRecord payload key = .ok gate) : Spreadable (orUndefined id gate) := by
  rcases optionalRecord_eq_ok.mp read with ⟨-, rfl⟩ | ⟨object, rfl⟩
  · exact .inl rfl
  · refine .inr (isParsed_own json fun absent => ?_)
    rw [absent] at object
    cases object

theorem isParsed_returned {order : WorkOrder} (json : payload.isParsed = true)
    (parsed : parseWorkOrder payload = .ok order) : order.returned.isParsed = true := by
  obtain ⟨-, -, -, -, -, -, -, -, -, -, -, -, -, policy, budget, -, -⟩ :=
    parseWorkOrder_eq_ok.mp parsed
  have string : ∀ s, (JsValue.string s).isParsed = true := fun _ => rfl
  have boolean : ∀ b, (JsValue.boolean b).isParsed = true := fun _ => rfl
  have number : ∀ q, (finiteNumber q).isParsed = true := fun _ => rfl
  apply isParsed_spread
  · simp
  · simp only [List.forall_mem_cons]
    exact ⟨string _, isParsed_of_isJson _ (isJson_strings _), by simp⟩
  · simp only [List.forall_mem_cons]
    exact ⟨spreadable_orUndefined string _, spreadable_orUndefined string _,
      spreadable_orUndefined boolean _, spreadable_orUndefined boolean _,
      spreadable_orUndefined number _, spreadable_orUndefined boolean _,
      spreadable_orUndefined boolean _, spreadable_orUndefined boolean _,
      spreadable_orUndefined number _,
      spreadable_orUndefined ModelRequest.isParsed_returned _,
      spreadable_gate json policy, spreadable_gate json budget, by simp⟩

/-- The parser accepts the grammar and nothing else, and what it returns is a work order without
undefined keys. -/
structure ParsesGrammar (payload : JsValue) : Prop where
  accepts : (∃ order, parseWorkOrder payload = .ok order) ↔ OrderGrammar (· ∈ modelRoles) payload
  rejects : ¬ OrderGrammar (· ∈ modelRoles) payload →
    ∃ error : InvalidWorkOrderError, parseWorkOrder payload = .error error
  typed : ∀ order, parseWorkOrder payload = .ok order → order.RolesTyped
  defined : ∀ order, parseWorkOrder payload = .ok order → order.returned.isParsed = true

/-- The parser keeps to the grammar exactly on the payloads that are no work orders but for the role
of a message. -/
theorem parsesGrammar_iff (payload : JsValue) (json : payload.isParsed = true) :
    ParsesGrammar payload ↔ (OrderGrammar (fun _ => True) payload → RolesKnown payload) := by
  have strict : OrderGrammar (· ∈ modelRoles) payload ↔ _ := orderGrammar_iff_rolesKnown
  constructor
  · intro parses loose
    exact (strict.mp (parses.accepts.mp (parseWorkOrder_accepts_iff.mpr loose))).2
  · intro known
    have accepts : (∃ order, parseWorkOrder payload = .ok order) ↔
        OrderGrammar (· ∈ modelRoles) payload := by
      rw [parseWorkOrder_accepts_iff, strict]
      exact ⟨fun loose => ⟨loose, known loose⟩, And.left⟩
    constructor
    · exact accepts
    · intro outside
      cases parsed : parseWorkOrder payload with
      | error error => exact ⟨error, rfl⟩
      | ok order => exact absurd (accepts.mp ⟨order, parsed⟩) outside
    · intro order parsed
      exact (rolesTyped_iff parsed).mpr (strict.mp (accepts.mp ⟨order, parsed⟩)).2
    · exact fun order parsed => isParsed_returned json parsed

end Grammar

/-- A payload whose only fault is the role of its message. -/
def developerPayload : JsValue := .object [
  ("organizationId", .string "acme"),
  ("modelRequest", .object [
    ("messages", .array [
      .object [("role", .string "developer"), ("content", .string "Be brief.")]])])]

theorem developerPayload_isParsed : developerPayload.isParsed = true := by
  simp [developerPayload, isParsed, fieldsParsed, areParsed]

theorem parsesGrammar_iff_developer :
    ParsesGrammar developerPayload ↔
      (OrderGrammar (fun _ => True) developerPayload → RolesKnown developerPayload) :=
  parsesGrammar_iff developerPayload developerPayload_isParsed

/-- The worker accepts a message with a role that no model adapter knows. -/
theorem parsesGrammar_not_developer :
    ¬ ∀ payload : JsValue, payload.isParsed = true → ParsesGrammar payload := by
  intro parses
  have developer := parses developerPayload developerPayload_isParsed
  have typed := developer.typed _ (rfl : parseWorkOrder developerPayload = .ok _)
  have known := typed _ rfl { role := "developer", content := "Be brief." } List.mem_cons_self
  exact absurd known (by decide)

end Donna
