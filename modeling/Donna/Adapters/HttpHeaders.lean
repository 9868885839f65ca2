import Donna.Adapters.PlainValues

/-! The headers of a request as they arrive.  The adapter merges three sources by the exact spelling
of a name, and `fetch` takes names without regard to case and joins the values of one name; so a
name in another case adds to a header of the adapter where the same spelling replaces it. -/

namespace Donna

open Js JsValue Operation

/-! ### Names and values -/

/-- Header names are the same up to the case of their ASCII letters. -/
def sameName (name other : String) : Bool :=
  decide (name.toList.map Char.toLower = other.toList.map Char.toLower)

/-- The values under a name, in the order of the headers. -/
def valuesOf (name : String) (headers : List (String × String)) : List String :=
  (headers.filter fun header => sameName header.1 name).map Prod.snd

def joined (values : List String) : String := ", ".intercalate values

/-- What arrives under a name, but for the blanks around each value, which `fetch` strips. -/
def effective (name : String) (headers : OrderedMap String String) : Option String :=
  if valuesOf name headers.entries = [] then none
  else some (joined (valuesOf name headers.entries))

section Names

variable {name other key value : String} {headers : List (String × String)}
  {map : OrderedMap String String}

theorem sameName_comm : sameName name other = sameName other name := by
  simp [sameName, eq_comm]

@[simp] theorem valuesOf_append (more : List (String × String)) :
    valuesOf name (headers ++ more) = valuesOf name headers ++ valuesOf name more := by
  simp [valuesOf]

theorem valuesOf_eq_nil_iff :
    valuesOf name headers = [] ↔ ∀ header ∈ headers, sameName header.1 name = false := by
  simp [valuesOf, List.filter_eq_nil_iff]

theorem valuesOf_ne_nil (present : (name, value) ∈ headers) : valuesOf name headers ≠ [] := by
  intro absent
  have unlike := valuesOf_eq_nil_iff.mp absent _ present
  simp [sameName] at unlike

theorem effective_eq_none_iff : effective name map = none ↔ valuesOf name map.entries = [] := by
  simp [effective]

theorem effective_of_ne_nil (present : valuesOf name map.entries ≠ []) :
    effective name map = some (joined (valuesOf name map.entries)) := if_neg present

/-- A value is shorter than what it is joined into with others. -/
theorem length_lt_joined {values : List String} (present : value ∈ values)
    (others : values ≠ [value]) : value.length < (joined values).length := by
  induction values with
  | nil => cases present
  | cons first rest ih =>
    cases rest with
    | nil =>
      obtain rfl := List.mem_singleton.mp present
      exact absurd rfl others
    | cons second rest =>
      have size : (joined (first :: second :: rest)).length =
          first.length + 2 + (joined (second :: rest)).length := by
        rw [joined, String.intercalate_cons_cons, String.length_append, String.length_append]
        rfl
      rcases List.mem_cons.mp present with rfl | later
      · omega
      · by_cases last : second :: rest = [value]
        · have tail : joined (second :: rest) = value := by
            rw [last, joined, String.intercalate_singleton]
          rw [tail] at size
          omega
        · have shorter := ih later last
          omega

/-- Of the values that are joined, one is what comes out only if it is alone. -/
theorem joined_eq_iff {values : List String} (present : value ∈ values) :
    joined values = value ↔ values = [value] := by
  constructor
  · intro same
    by_contra others
    have shorter := length_lt_joined present others
    rw [same] at shorter
    omega
  · rintro rfl
    exact String.intercalate_singleton

/-- The headers spell a name in no other way than `key`. -/
def SpellsOnly (key : String) (headers : List (String × String)) : Prop :=
  ∀ header ∈ headers, sameName header.1 key = true → header.1 = key

theorem SpellsOnly.valuesOf_eq (spells : SpellsOnly key map.entries) :
    valuesOf key map.entries = (map.get key).toList := by
  have filtered : map.entries.filter (fun header => sameName header.1 key) =
      map.entries.filter fun header => header.1 = key := by
    refine List.filter_congr fun header present => ?_
    by_cases same : header.1 = key
    · simp [same, sameName]
    · rw [decide_eq_false same]
      exact Bool.eq_false_iff.mpr fun spelled => same (spells header present spelled)
  rw [valuesOf, filtered, OrderedMap.filter_entries, List.map_map]
  exact List.map_id' _

/-- A header whose name is spelled in one way has the value that it is given. -/
theorem SpellsOnly.effective_eq (spells : SpellsOnly key map.entries)
    (found : map.get key = some value) : effective key map = some value := by
  have values : valuesOf key map.entries = [value] := by
    rw [spells.valuesOf_eq, found]
    rfl
  rw [effective, values]
  simp [joined]

/-! ### Setting a header -/

theorem valuesOf_set_of_other (different : sameName key name = false) :
    valuesOf name (map.set key value).entries = valuesOf name map.entries := by
  rw [valuesOf, OrderedMap.filter_set fun _ => different, valuesOf]

theorem mem_entries_set_of_ne {header : String × String} (present : header ∈ map.entries)
    (other : header.1 ≠ key) : header ∈ (map.set key value).entries := by
  rw [OrderedMap.mem_entries, OrderedMap.get_set, if_neg other]
  exact OrderedMap.mem_entries.mp present

/-- A header that is set arrives as it is exactly when no other spelling of its name is there. -/
theorem effective_set_iff :
    effective key (map.set key value) = some value ↔ SpellsOnly key map.entries := by
  have self : sameName key key = true := by simp [sameName]
  have present : (key, value) ∈ (map.set key value).entries := by
    rw [OrderedMap.mem_entries, OrderedMap.get_set, if_pos rfl]
  have listed : value ∈ valuesOf key (map.set key value).entries :=
    List.mem_map.mpr ⟨(key, value), List.mem_filter.mpr ⟨present, self⟩, rfl⟩
  rw [effective_of_ne_nil (List.ne_nil_of_mem listed), Option.some_inj, joined_eq_iff listed]
  constructor
  · intro alone header before same
    by_contra other
    -- Both headers pass the filter, which has one member.
    obtain ⟨only, filtered, -⟩ := List.map_eq_singleton_iff.mp alone
    have left : (key, value) ∈ [only] := filtered ▸ List.mem_filter.mpr ⟨present, self⟩
    have right : header ∈ [only] :=
      filtered ▸ List.mem_filter.mpr ⟨mem_entries_set_of_ne before other, same⟩
    rw [List.mem_singleton.mp right, ← List.mem_singleton.mp left] at other
    exact other rfl
  · intro spells
    have after : SpellsOnly key (map.set key value).entries := by
      intro header later same
      by_contra other
      rw [OrderedMap.mem_entries, OrderedMap.get_set, if_neg other] at later
      exact other (spells header (OrderedMap.mem_entries.mpr later) same)
    rw [after.valuesOf_eq, OrderedMap.get_set, if_pos rfl]
    rfl

end Names

/-! ### Three sources -/

section Sources

variable (defaults caller : OrderedMap String String) (serialized : Bool)
  (idempotencyKey : Option String)

/-- The defaults, with the caller's value where it spells the name the same way, and then the other
headers of the caller. -/
def carriedHeaders : List (String × String) :=
  defaults.entries.map (fun header => (header.1, (caller.get header.1).getD header.2)) ++
    caller.entries.filter fun header => decide (header.1 ∉ defaults.entries.map Prod.fst)

/-- Neither source spells `content-type` as the adapter does. -/
def Untyped : Prop := defaults.get "content-type" = none ∧ caller.get "content-type" = none

instance : Decidable (Untyped defaults caller) := inferInstanceAs (Decidable (_ ∧ _))

/-- The content type that the adapter adds to them. -/
def addedHeaders : List (String × String) :=
  if serialized = true ∧ Untyped defaults caller then [("content-type", "application/json")] else []

/-- The headers that the adapter sends with a request. -/
def sentHeaders : OrderedMap String String :=
  requestHeaders id (fun _ => false) defaults caller.entries serialized idempotencyKey

/-- The headers of the adapter arrive as they are configured, the idempotency key as it is, and a
serialised body with the caller's content type or that of JSON. -/
structure ProtectsHeaders (sent : OrderedMap String String) : Prop where
  configured : ∀ header ∈ defaults.entries, effective header.1 sent = effective header.1 defaults
  keyed : ∀ key, idempotencyKey = some key → effective "idempotency-key" sent = some key
  typed : serialized = true → effective "content-type" defaults = none →
    effective "content-type" sent =
      some ((effective "content-type" caller).getD "application/json")

/-- Where the sources leave the headers of the adapter alone. -/
structure LeavesHeaders : Prop where
  configured : ∀ header ∈ defaults.entries,
    idempotencyKey = none ∨ sameName "idempotency-key" header.1 = false →
      joined (valuesOf header.1
        (carriedHeaders defaults caller ++ addedHeaders defaults caller serialized)) =
          joined (valuesOf header.1 defaults.entries)
  keyed : ∀ key, idempotencyKey = some key →
    SpellsOnly "idempotency-key" (defaults.entries ++ caller.entries) ∧
      ∀ value, defaults.get "idempotency-key" = some value → value = key
  typed : serialized = true → valuesOf "content-type" defaults.entries = [] →
    caller.get "content-type" = none → valuesOf "content-type" caller.entries = []

variable {defaults caller serialized idempotencyKey} {name : String}

theorem mergeHeaders_entries :
    (mergeHeaders defaults caller.entries).entries = carriedHeaders defaults caller :=
  OrderedMap.entries_foldl_set caller.distinct

theorem mem_carried_keys {key : String} :
    key ∈ (carriedHeaders defaults caller).map Prod.fst ↔
      key ∈ defaults.entries.map Prod.fst ∨ key ∈ caller.entries.map Prod.fst := by
  have kept : (defaults.entries.map fun header =>
      (header.1, (caller.get header.1).getD header.2)).map Prod.fst =
        defaults.entries.map Prod.fst := List.map_map.trans rfl
  rw [carriedHeaders, List.map_append, List.mem_append, kept]
  constructor
  · rintro (configured | own)
    · exact .inl configured
    · obtain ⟨header, present, rfl⟩ := List.mem_map.mp own
      exact .inr (List.mem_map.mpr ⟨header, List.mem_of_mem_filter present, rfl⟩)
  · rintro (configured | own)
    · exact .inl configured
    · by_cases there : key ∈ defaults.entries.map Prod.fst
      · exact .inl there
      · obtain ⟨header, present, rfl⟩ := List.mem_map.mp own
        exact .inr (List.mem_map.mpr
          ⟨header, List.mem_filter.mpr ⟨present, decide_eq_true there⟩, rfl⟩)

theorem mergeHeaders_get_eq_none_iff :
    (mergeHeaders defaults caller.entries).get "content-type" = none ↔
      Untyped defaults caller := by
  rw [Untyped, OrderedMap.get_eq_none_iff, OrderedMap.get_eq_none_iff, OrderedMap.get_eq_none_iff,
    mergeHeaders_entries, mem_carried_keys, not_or]

theorem typedHeaders_entries :
    (typedHeaders id (fun _ => false) defaults caller.entries serialized).entries =
      carriedHeaders defaults caller ++ addedHeaders defaults caller serialized := by
  simp only [typedHeaders, addedHeaders, ← mergeHeaders_entries]
  cases found : (mergeHeaders defaults caller.entries).get "content-type" with
  | none =>
    have untyped := mergeHeaders_get_eq_none_iff.mp found
    cases serialized with
    | false => simp
    | true => simp [untyped, OrderedMap.entries_set_of_none found]
  | some value =>
    have typed : ¬ Untyped defaults caller := fun untyped => by
      rw [mergeHeaders_get_eq_none_iff.mpr untyped] at found
      cases found
    simp [typed]

/-- The sources spell a name in one way only where all that they carry does. -/
theorem spellsOnly_carried {key : String} :
    SpellsOnly key (carriedHeaders defaults caller) ↔
      SpellsOnly key (defaults.entries ++ caller.entries) := by
  have names : ∀ headers : List (String × String), SpellsOnly key headers ↔
      ∀ name ∈ headers.map Prod.fst, sameName name key = true → name = key := by
    intro headers
    simp [SpellsOnly]
  rw [names, names]
  simp only [mem_carried_keys, List.map_append, List.mem_append]

/-- The idempotency key arrives as it is where no other spelling of its name is there. -/
theorem keyed_iff {key : String} :
    effective "idempotency-key" (sentHeaders defaults caller serialized (some key)) = some key ↔
      SpellsOnly "idempotency-key" (defaults.entries ++ caller.entries) := by
  have added : SpellsOnly "idempotency-key" (addedHeaders defaults caller serialized) := by
    intro header present same
    unfold addedHeaders at present
    split at present
    · rw [List.mem_singleton.mp present] at same
      exact absurd same (by decide)
    · cases present
  rw [sentHeaders, requestHeaders]
  simp only [id]
  rw [effective_set_iff, typedHeaders_entries, ← spellsOnly_carried]
  constructor
  · intro spells header present
    exact spells header (List.mem_append_left _ present)
  · intro spells header present
    rcases List.mem_append.mp present with carried | extra
    · exact spells header carried
    · exact added header extra

/-- What arrives under the other names. -/
theorem valuesOf_sent
    (other : idempotencyKey = none ∨ sameName "idempotency-key" name = false) :
    valuesOf name (sentHeaders defaults caller serialized idempotencyKey).entries =
      valuesOf name
        (carriedHeaders defaults caller ++ addedHeaders defaults caller serialized) := by
  rw [← typedHeaders_entries]
  cases idempotencyKey with
  | none => rfl
  | some key =>
    rcases other with absent | different
    · cases absent
    · exact valuesOf_set_of_other different

theorem valuesOf_carried_ne_nil {header : String × String} (present : header ∈ defaults.entries) :
    valuesOf header.1 (carriedHeaders defaults caller) ≠ [] := by
  have carried : (header.1, (caller.get header.1).getD header.2) ∈
      carriedHeaders defaults caller :=
    List.mem_append_left _ (List.mem_map.mpr ⟨header, present, rfl⟩)
  exact valuesOf_ne_nil carried

/-- A header of the adapter arrives as configured where what is carried is joined to that. -/
theorem configured_iff {header : String × String} (present : header ∈ defaults.entries)
    (other : idempotencyKey = none ∨ sameName "idempotency-key" header.1 = false) :
    effective header.1 (sentHeaders defaults caller serialized idempotencyKey) =
        effective header.1 defaults ↔
      joined (valuesOf header.1
        (carriedHeaders defaults caller ++ addedHeaders defaults caller serialized)) =
          joined (valuesOf header.1 defaults.entries) := by
  have sent : valuesOf header.1
      (sentHeaders defaults caller serialized idempotencyKey).entries ≠ [] := by
    rw [valuesOf_sent other, valuesOf_append]
    exact List.append_ne_nil_of_left_ne_nil (valuesOf_carried_ne_nil present) _
  rw [effective_of_ne_nil sent, effective_of_ne_nil (valuesOf_ne_nil present), Option.some_inj,
    valuesOf_sent other]

/-- In the plain case, where no name of the defaults is spelled in a second way and the caller gives
it no other value, it arrives with the configured value. -/
theorem effective_of_plain {header : String × String} (present : header ∈ defaults.entries)
    (other : idempotencyKey = none ∨ sameName "idempotency-key" header.1 = false)
    (spells : SpellsOnly header.1
      (defaults.entries ++ caller.entries ++ addedHeaders defaults caller serialized))
    (repeats : ∀ value, caller.get header.1 = some value → value = header.2) :
    effective header.1 (sentHeaders defaults caller serialized idempotencyKey) =
      some header.2 := by
  have kept : (caller.get header.1).getD header.2 = header.2 := by
    cases given : caller.get header.1 with
    | none => rfl
    | some value => exact repeats value given
  have carried : header ∈ carriedHeaders defaults caller :=
    List.mem_append_left _ (List.mem_map.mpr ⟨header, present, by rw [kept]⟩)
  have sources : SpellsOnly header.1 (defaults.entries ++ caller.entries) :=
    fun spelled listed => spells spelled (List.mem_append_left _ listed)
  have single : SpellsOnly header.1 defaults.entries :=
    fun spelled listed => sources spelled (List.mem_append_left _ listed)
  -- The sent headers without the key are a map, in which the spelling has one value.
  have typed : SpellsOnly header.1
      (typedHeaders id (fun _ => false) defaults caller.entries serialized).entries := by
    rw [typedHeaders_entries]
    intro spelled listed
    rcases List.mem_append.mp listed with before | added
    · exact spellsOnly_carried.mpr sources spelled before
    · exact spells spelled (List.mem_append_right _ added)
  have found : (typedHeaders id (fun _ => false) defaults caller.entries serialized).get
      header.1 = some header.2 := by
    rw [← OrderedMap.mem_entries, typedHeaders_entries]
    exact List.mem_append_left _ carried
  have values := typed.valuesOf_eq
  have configured := single.valuesOf_eq
  rw [found, typedHeaders_entries] at values
  rw [OrderedMap.mem_entries.mp present] at configured
  rw [(configured_iff present other).mpr (by rw [values, configured])]
  exact single.effective_eq (OrderedMap.mem_entries.mp present)

theorem get_eq_none_of_valuesOf {map : OrderedMap String String} {key : String}
    (absent : valuesOf key map.entries = []) : map.get key = none := by
  rw [OrderedMap.get_eq_none_iff]
  intro listed
  obtain ⟨header, present, rfl⟩ := List.mem_map.mp listed
  exact valuesOf_ne_nil present absent

/-- Where the defaults do not have a name, what they and the caller carry is the caller's. -/
theorem valuesOf_carried (absent : valuesOf name defaults.entries = []) :
    valuesOf name (carriedHeaders defaults caller) = valuesOf name caller.entries := by
  have unlike := valuesOf_eq_nil_iff.mp absent
  have replaced : valuesOf name (defaults.entries.map fun header =>
      (header.1, (caller.get header.1).getD header.2)) = [] := by
    rw [valuesOf_eq_nil_iff]
    intro header present
    obtain ⟨source, listed, rfl⟩ := List.mem_map.mp present
    exact unlike source listed
  have kept : valuesOf name (caller.entries.filter fun header =>
      decide (header.1 ∉ defaults.entries.map Prod.fst)) = valuesOf name caller.entries := by
    rw [valuesOf, List.filter_filter, valuesOf]
    congr 1
    refine List.filter_congr fun header _ => ?_
    cases same : sameName header.1 name with
    | false => simp
    | true =>
      have fresh : header.1 ∉ defaults.entries.map Prod.fst := by
        intro listed
        obtain ⟨source, present, spelled⟩ := List.mem_map.mp listed
        rw [← spelled, unlike source present] at same
        cases same
      simpa using fresh
  rw [carriedHeaders, valuesOf_append, replaced, kept, List.nil_append]

/-- The content type of a serialised body without one among the defaults. -/
theorem typed_iff (absent : valuesOf "content-type" defaults.entries = []) :
    effective "content-type" (sentHeaders defaults caller true idempotencyKey) =
        some ((effective "content-type" caller).getD "application/json") ↔
      (caller.get "content-type" = none → valuesOf "content-type" caller.entries = []) := by
  have values : valuesOf "content-type" (sentHeaders defaults caller true idempotencyKey).entries =
      valuesOf "content-type" caller.entries ++
        valuesOf "content-type" (addedHeaders defaults caller true) := by
    rw [valuesOf_sent (.inr (by decide)), valuesOf_append, valuesOf_carried absent]
  have unset := get_eq_none_of_valuesOf absent
  cases own : caller.get "content-type" with
  | some value =>
    have present : valuesOf "content-type" caller.entries ≠ [] :=
      valuesOf_ne_nil (OrderedMap.mem_entries.mpr own)
    have typed : addedHeaders defaults caller true = [] := if_neg (by simp [Untyped, own])
    rw [typed] at values
    have sent : valuesOf "content-type"
        (sentHeaders defaults caller true idempotencyKey).entries =
          valuesOf "content-type" caller.entries := values.trans (List.append_nil _)
    rw [effective, effective, sent, if_neg present]
    simp
  | none =>
    have added : valuesOf "content-type" (addedHeaders defaults caller true) =
        ["application/json"] := by
      rw [addedHeaders, if_pos ⟨rfl, unset, own⟩]
      decide
    rw [added] at values
    have present : valuesOf "content-type"
        (sentHeaders defaults caller true idempotencyKey).entries ≠ [] := by simp [values]
    rw [effective_of_ne_nil present, values, Option.some_inj]
    by_cases none : valuesOf "content-type" caller.entries = []
    · simp [effective, none, joined]
    · -- The caller's spelling is joined with what the adapter adds.
      have longer : joined (valuesOf "content-type" caller.entries ++ ["application/json"]) =
          joined (valuesOf "content-type" caller.entries) ++ ", " ++ "application/json" := by
        rw [joined, String.intercalate_append_of_ne_nil none (List.cons_ne_nil _ _), joined,
          String.intercalate_singleton]
      rw [effective_of_ne_nil none, Option.getD_some, longer]
      refine iff_of_false (fun same => ?_) (by simp [none])
      have sizes := congrArg String.length same
      rw [String.length_append, String.length_append] at sizes
      have separator : ", ".length = 2 := rfl
      omega

/-- The headers that the adapter sends keep what it promises exactly where the sources leave them
alone. -/
theorem protectsHeaders_iff :
    ProtectsHeaders defaults caller serialized idempotencyKey
        (sentHeaders defaults caller serialized idempotencyKey) ↔
      LeavesHeaders defaults caller serialized idempotencyKey := by
  constructor
  · intro protects
    constructor
    · intro header present other
      exact (configured_iff present other).mp (protects.configured header present)
    · rintro key rfl
      have spells := keyed_iff.mp (protects.keyed key rfl)
      refine ⟨spells, fun value found => ?_⟩
      have configured := protects.configured _ (OrderedMap.mem_entries.mpr found)
      have single : SpellsOnly "idempotency-key" defaults.entries :=
        fun header present => spells header (List.mem_append_left _ present)
      rw [protects.keyed key rfl, single.effective_eq found] at configured
      exact (Option.some.inj configured).symm
    · rintro rfl absent
      exact (typed_iff absent).mp (protects.typed rfl (effective_eq_none_iff.mpr absent))
  · intro leaves
    constructor
    · intro header present
      by_cases other : idempotencyKey = none ∨ sameName "idempotency-key" header.1 = false
      · exact (configured_iff present other).mpr (leaves.configured header present other)
      · -- The header that carries the idempotency key.
        rw [not_or, Bool.not_eq_false] at other
        obtain ⟨key, given⟩ := Option.ne_none_iff_exists'.mp other.1
        subst given
        obtain ⟨spells, agrees⟩ := leaves.keyed key rfl
        have name : header.1 = "idempotency-key" :=
          spells header (List.mem_append_left _ present) (sameName_comm.trans other.2)
        have found : defaults.get "idempotency-key" = some header.2 :=
          OrderedMap.mem_entries.mp (name ▸ present)
        have single : SpellsOnly "idempotency-key" defaults.entries :=
          fun header present => spells header (List.mem_append_left _ present)
        rw [name, keyed_iff.mpr spells, single.effective_eq found,
          agrees header.2 found]
    · rintro key rfl
      exact keyed_iff.mpr (leaves.keyed key rfl).1
    · rintro rfl absent
      have none := effective_eq_none_iff.mp absent
      exact (typed_iff none).mpr (leaves.typed rfl none)

end Sources

/-! ### The headers of a call -/

inductive HttpMethod
  | get
  | post
  | put
  | patch
  | delete
  deriving DecidableEq

def HttpMethod.name : HttpMethod → String
  | .get => "GET"
  | .post => "POST"
  | .put => "PUT"
  | .patch => "PATCH"
  | .delete => "DELETE"

/-- A request as its TypeScript type has it. -/
structure HttpRequest where
  path : String
  method : Option HttpMethod := none
  query : Option (OrderedMap String JsValue) := none
  headers : Option (OrderedMap String String) := none
  body : Option JsValue := none

/-- The JavaScript object of a table of header texts. -/
def headerRecord (headers : OrderedMap String String) : OrderedMap String JsValue :=
  headers.mapValues .string

/-- The texts of a header object. -/
def headerTexts (headers : OrderedMap String JsValue) : OrderedMap String String :=
  headers.mapValues fun value => value.asString.getD ""

namespace HttpRequest

def fields (request : HttpRequest) : List (String × Option JsValue) := [
  ("path", some (.string request.path)),
  ("method", request.method.map fun method => .string method.name),
  ("query", request.query.map fun query => .object query.entries),
  ("headers", request.headers.map fun headers => .object (headerRecord headers).entries),
  ("body", request.body)]

def toJs (request : HttpRequest) : JsValue := .object (present request.fields)

def callerHeaders (request : HttpRequest) : OrderedMap String String :=
  request.headers.getD .empty

/-- The request sends a body that is not a string. -/
def serializes (request : HttpRequest) : Bool :=
  decide (request.method.getD .get ≠ .get) &&
    !((request.body.getD .undefined).isUndefined || (request.body.getD .undefined).asString.isSome)

theorem own_toJs (request : HttpRequest) (key : String) :
    request.toJs.own key = (request.fields.lookup key).join.getD .undefined := by
  have names : request.fields.map Prod.fst = ["path", "method", "query", "headers", "body"] := rfl
  exact own_present (names ▸ by decide) key

end HttpRequest

section Calls

variable {platform : WebPlatform} {http : HttpCapabilityOptions JsValue Url}
  {request : HttpRequest} {ctx : ExecutionContext} {call : FetchCall JsValue}

theorem read_toJs (platform : WebPlatform) (request : HttpRequest) (key : String) :
    (platform.language.get request.toJs key).thrown () =
      .ok ((request.fields.lookup key).join.getD .undefined, ()) := by
  rw [← request.own_toJs]
  rfl

/-- Which requests send a body that they serialise. -/
theorem requestBody_toJs (platform : WebPlatform) (request : HttpRequest) :
    ∃ body, requestBody platform.language request.toJs
        (.string (request.method.getD .get).name) () = .ok (body, ()) ∧
      body.isSerialized = request.serializes := by
  have read : (platform.language.get request.toJs "body").thrown () =
      .ok (request.body.getD .undefined, ()) := read_toJs platform request "body"
  have method : platform.language.strictEq (.string (request.method.getD .get).name)
      (platform.language.string "GET") = decide (request.method.getD .get = .get) := by
    show decide ((request.method.getD .get).name = "GET") = _
    cases request.method.getD .get <;> decide
  rw [requestBody, HttpRequest.serializes]
  -- Every read of the body gives the same value.
  generalize request.body.getD .undefined = body at read ⊢
  have undefined : platform.language.isUndefined body = body.isUndefined := rfl
  have text : platform.language.isString body = body.asString.isSome := rfl
  by_cases sends : body.isUndefined = true ∨ request.method.getD .get = .get
  · refine ⟨.absent, (bind_of_ok read).trans ?_, ?_⟩
    · rw [undefined, method, if_pos (by simpa using sends)]
      rfl
    · rcases sends with absent | get
      · simp [SentBody.isSerialized, absent]
      · simp [SentBody.isSerialized, get]
  · rw [not_or, Bool.not_eq_true] at sends
    cases isText : body.asString.isSome with
    | true =>
      refine ⟨.asIs body, (bind_of_ok read).trans ?_, by simp [SentBody.isSerialized]⟩
      rw [undefined, method, if_neg (by simpa using sends)]
      refine (bind_of_ok read).trans ?_
      rw [text, if_pos isText]
      exact (bind_of_ok read).trans rfl
    | false =>
      let json : JsValue :=
        if body.unserialisable then .undefined else .string (platform.jsonText body)
      have printed : (platform.language.stringify body).thrown () = .ok (json, ()) := rfl
      refine ⟨.serialized json, (bind_of_ok read).trans ?_, ?_⟩
      · rw [undefined, method, if_neg (by simpa using sends)]
        refine (bind_of_ok read).trans ?_
        rw [text, if_neg (by simp [isText])]
        exact (bind_of_ok read).trans ((bind_of_ok printed).trans rfl)
      · simp [SentBody.isSerialized, sends]

theorem fetchCall_headers (made : fetchCall platform.language http request.toJs ctx () =
    .ok (call, ())) :
    call.headers = requestHeaders .string platform.language.isNullish http.defaultHeaders
      (headerRecord request.callerHeaders).entries request.serializes ctx.idempotencyKey := by
  have method : (platform.language.get request.toJs "method").thrown () =
      .ok ((request.method.map fun method => JsValue.string method.name).getD .undefined, ()) :=
    read_toJs platform request "method"
  have given : platform.language.orElse
      ((request.method.map fun method => JsValue.string method.name).getD .undefined)
        (platform.language.string "GET") = .string (request.method.getD .get).name := by
    cases request.method <;> rfl
  have headers : (platform.language.get request.toJs "headers").thrown () =
      .ok ((request.headers.map fun headers =>
        JsValue.object (headerRecord headers).entries).getD .undefined, ()) :=
    read_toJs platform request "headers"
  have own : (platform.language.spread ((request.headers.map fun headers =>
      JsValue.object (headerRecord headers).entries).getD .undefined) []).thrown () =
        .ok ((headerRecord request.callerHeaders).entries, ()) := by
    rw [HttpRequest.callerHeaders]
    cases request.headers with
    | none => rfl
    | some headers =>
      rw [thrown, mapError, Option.map_some, Option.getD_some, platform.spread_object]
      rfl
  obtain ⟨body, sent, serialized⟩ := requestBody_toJs platform request
  rw [fetchCall] at made
  obtain ⟨target, _, resolved, rest⟩ := bind_eq_ok made
  replace rest := (bind_of_ok method).symm.trans rest
  rw [given] at rest
  replace rest := (bind_of_ok headers).symm.trans rest
  replace rest := (bind_of_ok own).symm.trans rest
  replace rest := (bind_of_ok sent).symm.trans rest
  obtain ⟨rfl, -⟩ := Prod.mk.inj (Except.ok.inj rest)
  rw [← serialized]
  rfl

theorem mergeHeaders_record (defaults : OrderedMap String String) (own : List (String × String)) :
    mergeHeaders (headerRecord defaults) (own.map fun header => (header.1, .string header.2)) =
      headerRecord (mergeHeaders defaults own) := by
  induction own generalizing defaults with
  | nil => rfl
  | cons header own ih =>
    show mergeHeaders ((headerRecord defaults).set header.1 (.string header.2))
      (own.map fun header => (header.1, .string header.2)) = _
    rw [headerRecord, ← OrderedMap.mapValues_set]
    exact ih (defaults.set header.1 header.2)

theorem typedHeaders_record (platform : WebPlatform) (defaults caller : OrderedMap String String)
    (serialized : Bool) :
    typedHeaders .string platform.language.isNullish (headerRecord defaults)
        (headerRecord caller).entries serialized =
      headerRecord (typedHeaders id (fun _ => false) defaults caller.entries serialized) := by
  have merged := mergeHeaders_record defaults caller.entries
  have nullish : ∀ value : Option String, (value.map JsValue.string).all
      platform.language.isNullish = value.all fun _ => false := by
    rintro (_ | value) <;> rfl
  simp only [typedHeaders]
  rw [show (headerRecord caller).entries = caller.entries.map fun header =>
    (header.1, JsValue.string header.2) from rfl, merged, headerRecord, OrderedMap.get_mapValues,
    nullish]
  split
  · exact (OrderedMap.mapValues_set _).symm
  · rfl

/-- The headers of values are those of texts. -/
theorem requestHeaders_record (platform : WebPlatform) (defaults caller : OrderedMap String String)
    (serialized : Bool) (idempotencyKey : Option String) :
    requestHeaders .string platform.language.isNullish (headerRecord defaults)
        (headerRecord caller).entries serialized idempotencyKey =
      headerRecord (sentHeaders defaults caller serialized idempotencyKey) := by
  rw [sentHeaders]
  cases idempotencyKey with
  | none => exact typedHeaders_record platform defaults caller serialized
  | some key =>
    simp only [requestHeaders]
    rw [typedHeaders_record]
    exact (OrderedMap.mapValues_set _).symm

theorem headerTexts_record (headers : OrderedMap String String) :
    headerTexts (headerRecord headers) = headers :=
  (OrderedMap.mapValues_mapValues _ _).trans OrderedMap.mapValues_id

end Calls

/-- A call protects the headers of the adapter exactly where the sources leave them alone. -/
theorem protectedHeaders_iff (platform : WebPlatform) (baseUrl : Url)
    (defaults : OrderedMap String String) (request : HttpRequest) (ctx : ExecutionContext)
    (call : FetchCall JsValue)
    (made : fetchCall platform.language
      { baseUrl := baseUrl, defaultHeaders := headerRecord defaults } request.toJs ctx () =
        .ok (call, ())) :
    ProtectsHeaders defaults request.callerHeaders request.serializes ctx.idempotencyKey
        (headerTexts call.headers) ↔
      LeavesHeaders defaults request.callerHeaders request.serializes ctx.idempotencyKey := by
  rw [fetchCall_headers made, requestHeaders_record, headerTexts_record]
  exact protectsHeaders_iff

def bearerHeaders : OrderedMap String String := OrderedMap.empty.set "authorization" "Bearer s"

def bearerHttp : HttpCapabilityOptions JsValue Url where
  baseUrl := ghlBaseUrl
  defaultHeaders := headerRecord bearerHeaders

/-- A request with one header. -/
def requestWith (name value : String) : HttpRequest where
  path := "/contacts"
  headers := some (OrderedMap.empty.set name value)

/-- What the adapter calls for a request with one header. -/
def callWith (name value : String) : Except Thrown (FetchCall JsValue × Unit) :=
  fetchCall WebPlatform.plain.language bearerHttp (requestWith name value).toJs {} ()

theorem callWith_returns (name value : String) :
    ∃ call, callWith name value = .ok (call, ()) := by
  have parsed : Url.parse WebPlatform.plain.elsewhere "/contacts" ghlBaseUrl =
      some { ghlBaseUrl with path := ["contacts"] } := by decide
  have resolved : resolveUrl WebPlatform.plain.language bearerHttp
      (requestWith name value).toJs () = .ok ({ ghlBaseUrl with path := ["contacts"] }, ()) :=
    WebPlatform.plain.resolveUrl_of_parse rfl rfl parsed rfl
  exact ⟨_, (bind_of_ok resolved).trans rfl⟩

theorem protectedHeaders_iff_trace : ∃ call, callWith "X-Trace" "t" = .ok (call, ()) ∧
    ProtectsHeaders bearerHeaders (requestWith "X-Trace" "t").callerHeaders
      (requestWith "X-Trace" "t").serializes none (headerTexts call.headers) := by
  obtain ⟨call, made⟩ := callWith_returns "X-Trace" "t"
  refine ⟨call, made, (protectedHeaders_iff .plain ghlBaseUrl bearerHeaders _ {} call made).mpr ?_⟩
  constructor
  · intro header present _
    obtain rfl := List.mem_singleton.mp present
    rfl
  · intro key given
    cases given
  · intro serialized
    cases serialized

/-- A token in the order arrives beside the adapter's. -/
theorem protectedHeaders_not_uppercase : ∃ call,
    callWith "Authorization" "Bearer t" = .ok (call, ()) ∧
    effective "authorization" (headerTexts call.headers) = some "Bearer s, Bearer t" ∧
    ¬ ProtectsHeaders bearerHeaders (requestWith "Authorization" "Bearer t").callerHeaders
      (requestWith "Authorization" "Bearer t").serializes none (headerTexts call.headers) := by
  obtain ⟨call, made⟩ := callWith_returns "Authorization" "Bearer t"
  have texts : headerTexts call.headers = sentHeaders bearerHeaders
      (requestWith "Authorization" "Bearer t").callerHeaders false none := by
    rw [fetchCall_headers made]
    exact (congrArg headerTexts (requestHeaders_record _ bearerHeaders _ _ _)).trans
      (headerTexts_record _)
  have arrives : effective "authorization" (headerTexts call.headers) =
      some "Bearer s, Bearer t" := by
    rw [texts]
    rfl
  refine ⟨call, made, arrives, fun protects => ?_⟩
  have configured := protects.configured ("authorization", "Bearer s") (by decide)
  rw [arrives] at configured
  revert configured
  decide

end Donna
