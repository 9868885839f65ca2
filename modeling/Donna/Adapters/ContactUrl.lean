import Donna.Adapters.PlainValues

/-! The URL of a contact.  `encodeURIComponent` keeps dots and the URL parser removes dot segments,
so the ids `.` and `..` read another resource than their own; every other id is one segment under
`/contacts/`. -/

namespace Donna

open Js JsValue Operation PercentCoding

/-- The operation `contact.get`. -/
def contactGet (contactId : String) : JsValue := .object [
  ("op", .string "contact.get"),
  ("contactId", .string contactId)]

/-- The URL of a contact whose id is written as `segment`. -/
def contactUrl (base : Url) (segment : String) : Url :=
  { base with path := ["contacts", segment], query := none, fragment := none }

/-- A path segment that denotes an id: no delimiter in it, and it decodes to the id. -/
structure Denotes (segment contactId : String) : Prop where
  closed : ∀ c ∈ segment.toList, c ∉ ['/', '\\', '?', '#']
  decodes : decode segment.toList = utf8 contactId.toList

/-- The request for a contact goes to a resource under `/contacts/` that its id names. -/
def RequestsContact (platform : WebPlatform) (options : GhlAdapterOptions Url)
    (ctx : ExecutionContext) (contactId : String) : Prop :=
  ∃ call segment,
    ghlFetchCall platform.language options (contactGet contactId) ctx () = .ok (call, ()) ∧
    call.url = (contactUrl options.baseUrl segment).href ∧ Denotes segment contactId

/-- A contact id names one resource, and no other id names the same. -/
structure ReadsOnlyContact (platform : WebPlatform) (options : GhlAdapterOptions Url)
    (ctx : ExecutionContext) (contactId : String) : Prop where
  own : RequestsContact platform options ctx contactId
  apart : ∀ other, other ≠ "" → other ≠ contactId → ∀ call call',
    ghlFetchCall platform.language options (contactGet contactId) ctx () = .ok (call, ()) →
    ghlFetchCall platform.language options (contactGet other) ctx () = .ok (call', ()) →
      call.url ≠ call'.url

/-! ### The characters of an encoded id -/

theorem uriUnescaped_visible : uriUnescaped.all Url.isVisible = true := by decide

theorem hexDigit_visible : ∀ n < 16, Url.isVisible (hexDigit n) = true := by decide

theorem percent_escaped : isUriUnescaped '%' = false := by decide

theorem encoded_visible {text : String} {c : Char}
    (present : c ∈ (encodeURIComponent text).toList) : Url.isVisible c = true := by
  rw [encodeURIComponent, String.toList_ofList] at present
  rcases mem_encode present with kept | rfl | ⟨n, small, rfl⟩
  · exact List.all_eq_true.mp uriUnescaped_visible c (of_decide_eq_true kept)
  · decide
  · exact hexDigit_visible n small

theorem encoded_denotes (contactId : String) :
    Denotes (encodeURIComponent contactId) contactId := by
  constructor
  · intro c present
    have plain := Url.isPlain_of_isVisible (encoded_visible present)
    simp only [Url.isPlain, Bool.and_eq_true, bne_iff_ne, ne_eq] at plain
    have question : c ≠ '?' := fun same => by simp [same, Url.pathSet] at plain
    simp [plain, question]
  · rw [encodeURIComponent, String.toList_ofList, decode_encode percent_escaped]

/-! ### The path of a contact -/

theorem contacts_visible : "contacts".toList.all Url.isVisible = true := by decide

/-- The path state takes an encoded id as one segment and closes it at the end of the path. -/
theorem parse_contact (elsewhere : List Char → Url → Option Url) (base : Url)
    (contactId : String) :
    Url.parse elsewhere ("/contacts/" ++ encodeURIComponent contactId) base =
      some { base with
        path := Url.closeSegment ["contacts"] (encodeURIComponent contactId).toList false
        query := none
        fragment := none } := by
  have fixed := List.all_eq_true.mp contacts_visible
  have first : Url.pathState [] [] ("contacts".toList ++
      '/' :: (encodeURIComponent contactId).toList) =
        { path := Url.closeSegment ["contacts"] (encodeURIComponent contactId).toList false } := by
    rw [Url.pathState_plain fun c present => Url.isPlain_of_isVisible (fixed c present),
      List.nil_append, Url.pathState_slash, Url.closeSegment_of_not_dots (by decide) (by decide)]
    exact Url.pathState_last
      (fun c present => Url.isPlain_of_isVisible (encoded_visible present)) _
  have shape : ("/contacts/" ++ encodeURIComponent contactId).toList =
      '/' :: ("contacts".toList ++ '/' :: (encodeURIComponent contactId).toList) := by
    rw [String.toList_append]
    rfl
  have unspaced : Url.significant ('/' :: ("contacts".toList ++
      '/' :: (encodeURIComponent contactId).toList)) =
        '/' :: ("contacts".toList ++ '/' :: (encodeURIComponent contactId).toList) := by
    refine Url.significant_of_gt fun c present => ?_
    rcases List.mem_cons.mp present with rfl | later
    · decide
    · rcases List.mem_append.mp later with segment | later
      · exact Url.gt_of_isVisible (fixed c segment)
      · rcases List.mem_cons.mp later with rfl | encoded
        · decide
        · exact Url.gt_of_isVisible (encoded_visible encoded)
  have head : ("contacts".toList ++ '/' :: (encodeURIComponent contactId).toList).head? =
      some 'c' := rfl
  rw [Url.parse, shape, unspaced]
  simp only [head, first]
  exact if_neg (by decide)

section Calls

variable (platform : WebPlatform) (options : GhlAdapterOptions Url)

/-- Where the URL of a contact leads, by its path. -/
def contactTarget (contactId : String) : Url :=
  { options.baseUrl with
    path := Url.closeSegment ["contacts"] (encodeURIComponent contactId).toList false
    query := none
    fragment := none }

theorem toHttpRequest_contactGet (contactId : String) :
    toHttpRequest platform.language options (contactGet contactId) () =
      .ok (getRequest platform.language (encodeURIComponent contactId), ()) := by
  have op : (platform.language.get (contactGet contactId) "op").thrown () =
      .ok (.string "contact.get", ()) := rfl
  have read : (platform.language.get (contactGet contactId) "contactId").thrown () =
      .ok (.string contactId, ()) := rfl
  have encoded : (platform.language.encodeURIComponent (.string contactId)).thrown () =
      .ok (encodeURIComponent contactId, ()) := rfl
  have upsert : ¬ platform.language.strictEq (.string "contact.get")
      (platform.language.string "contact.upsert") = true := of_decide_eq_false rfl
  have get : platform.language.strictEq (.string "contact.get")
      (platform.language.string "contact.get") = true := of_decide_eq_true rfl
  rw [toHttpRequest, bind_of_ok op, if_neg upsert, if_pos get, bind_of_ok read]
  exact (bind_of_ok encoded).trans rfl

theorem resolveUrl_contact (contactId : String) :
    resolveUrl platform.language (options.http platform.language)
      (getRequest platform.language (encodeURIComponent contactId)) () =
        .ok (contactTarget options contactId, ()) := by
  let fields : List (String × JsValue) := [
    ("path", .string ("/contacts/" ++ encodeURIComponent contactId)),
    ("method", .string "GET")]
  have path := platform.read_object fields "path"
  have query := platform.read_object fields "query"
  have absent : fields.lookup "query" = none := by simp [fields]
  rw [absent] at query
  have home : (contactTarget options contactId).origin = options.baseUrl.origin := by
    simp only [contactTarget, Url.origin]
  exact platform.resolveUrl_of_parse path query
    (parse_contact platform.elsewhere options.baseUrl contactId) home

/-- The call for a contact goes to what the URL parser makes of its path. -/
theorem ghlFetchCall_contactGet (ctx : ExecutionContext) (contactId : String) :
    ∃ call,
      ghlFetchCall platform.language options (contactGet contactId) ctx () = .ok (call, ()) ∧
      call.url = (contactTarget options contactId).href := by
  have shaped := toHttpRequest_contactGet platform options contactId
  have resolved := resolveUrl_contact platform options contactId
  exact ⟨_, (bind_of_ok shaped).trans ((bind_of_ok resolved).trans rfl), rfl⟩

end Calls

/-! ### When a contact is read -/

theorem contactUrl_inj {base : Url} {segment other : String}
    (same : (contactUrl base segment).href = (contactUrl base other).href) : segment = other := by
  have paths := Url.href_path_inj same
  simpa [Url.pathText, String.append_assoc] using paths

/-- An id that is no dot segment is one segment of the path, in its encoded form. -/
theorem contactTarget_of_not_dots (options : GhlAdapterOptions Url) {contactId : String}
    (single : contactId ≠ ".") (double : contactId ≠ "..") :
    contactTarget options contactId =
      contactUrl options.baseUrl (encodeURIComponent contactId) := by
  have text : ∀ other : String, contactId ≠ other → contactId.toList ≠ other.toList :=
    fun other differs same => differs (String.toList_injective same)
  have plain := Url.not_dots_of_encode percent_escaped (text "." single) (text ".." double)
  rw [contactTarget, contactUrl]
  rw [encodeURIComponent, String.toList_ofList, Url.closeSegment_of_not_dots plain.1 plain.2]
  rfl

theorem contactTarget_dot (options : GhlAdapterOptions Url) :
    contactTarget options "." = contactUrl options.baseUrl "" := by
  have encoded : (encodeURIComponent ".").toList = ['.'] := by decide
  rw [contactTarget, encoded]
  rfl

theorem contactTarget_dotDot (options : GhlAdapterOptions Url) :
    contactTarget options ".." =
      { options.baseUrl with path := [""], query := none, fragment := none } := by
  have encoded : (encodeURIComponent "..").toList = ['.', '.'] := by decide
  rw [contactTarget, encoded]
  rfl

/-- The root of the origin is the URL of no contact. -/
theorem contactUrl_ne_root (base : Url) (segment : String) :
    ({ base with path := [""], query := none, fragment := none } : Url).href ≠
      (contactUrl base segment).href := by
  intro same
  have sizes := congrArg String.length (Url.href_path_inj same)
  simp only [Url.pathText, String.length_append] at sizes
  have contacts : "contacts".length = 8 := rfl
  have slash : "/".length = 1 := rfl
  have empty : "".length = 0 := rfl
  omega

theorem contactTarget_of_call {platform : WebPlatform} {options : GhlAdapterOptions Url}
    {ctx : ExecutionContext} {contactId : String} {call : FetchCall JsValue}
    (made : ghlFetchCall platform.language options (contactGet contactId) ctx () =
      .ok (call, ())) : call.url = (contactTarget options contactId).href := by
  obtain ⟨expected, made', target⟩ := ghlFetchCall_contactGet platform options ctx contactId
  obtain rfl : expected = call := (Prod.mk.inj (Except.ok.inj (made'.symm.trans made))).1
  exact target

/-- Every id but `..` leads to one segment under `/contacts/`, which is empty for `.`. -/
theorem contactTarget_cases (options : GhlAdapterOptions Url) (contactId : String) :
    contactId = ".." ∨ ∃ segment,
      contactTarget options contactId = contactUrl options.baseUrl segment ∧
      (contactId = "." ∧ segment = "" ∨ Denotes segment contactId) := by
  by_cases double : contactId = ".."
  · exact .inl double
  · by_cases single : contactId = "."
    · subst single
      exact .inr ⟨"", contactTarget_dot options, .inl ⟨rfl, rfl⟩⟩
    · exact .inr ⟨_, contactTarget_of_not_dots options single double,
        .inr (encoded_denotes contactId)⟩

theorem Denotes.id_eq {segment contactId other : String} (denotes : Denotes segment contactId)
    (denotes' : Denotes segment other) : contactId = other :=
  String.toList_injective (utf8_injective (denotes.decodes.symm.trans denotes'.decodes))

/-- Of the ids that lead to the empty segment, none but `.` has characters. -/
theorem Denotes.eq_empty {contactId : String} (denotes : Denotes "" contactId) : contactId = "" :=
  denotes.id_eq ⟨by simp, rfl⟩

/-- Distinct ids lead to distinct URLs. -/
theorem contactTarget_inj {options : GhlAdapterOptions Url} {contactId other : String}
    (nonempty : contactId ≠ "") (nonempty' : other ≠ "")
    (same : (contactTarget options contactId).href = (contactTarget options other).href) :
    contactId = other := by
  rcases contactTarget_cases options contactId with rfl | ⟨segment, target, names⟩
  · rcases contactTarget_cases options other with rfl | ⟨segment', target', -⟩
    · rfl
    · rw [contactTarget_dotDot, target'] at same
      exact absurd same (contactUrl_ne_root _ segment')
  · rcases contactTarget_cases options other with rfl | ⟨segment', target', names'⟩
    · rw [contactTarget_dotDot, target] at same
      exact absurd same.symm (contactUrl_ne_root _ segment)
    · rw [target, target'] at same
      obtain rfl := contactUrl_inj same
      -- One segment names one id; only `.` has the segment of the empty id.
      rcases names with ⟨rfl, empty⟩ | denotes
      · rcases names' with ⟨rfl, -⟩ | denotes'
        · rfl
        · exact absurd (empty ▸ denotes').eq_empty nonempty'
      · rcases names' with ⟨rfl, empty⟩ | denotes'
        · exact absurd (empty ▸ denotes).eq_empty nonempty
        · exact denotes.id_eq denotes'

theorem requestsContact_of_not_dots (platform : WebPlatform) (options : GhlAdapterOptions Url)
    (ctx : ExecutionContext) {contactId : String} (single : contactId ≠ ".")
    (double : contactId ≠ "..") : RequestsContact platform options ctx contactId := by
  obtain ⟨call, made, target⟩ := ghlFetchCall_contactGet platform options ctx contactId
  rw [contactTarget_of_not_dots options single double] at target
  exact ⟨call, _, made, target, encoded_denotes contactId⟩

/-- The request for `.` ends at the collection, and the one for `..` above it. -/
theorem RequestsContact.not_dots {platform : WebPlatform} {options : GhlAdapterOptions Url}
    {ctx : ExecutionContext} {contactId : String}
    (requests : RequestsContact platform options ctx contactId) :
    contactId ≠ "." ∧ contactId ≠ ".." := by
  obtain ⟨call, segment, made, url, denotes⟩ := requests
  have target := (contactTarget_of_call made).symm.trans url
  constructor
  · rintro rfl
    rw [contactTarget_dot] at target
    obtain rfl := contactUrl_inj target
    exact absurd denotes.eq_empty (by decide)
  · rintro rfl
    rw [contactTarget_dotDot] at target
    exact contactUrl_ne_root _ segment target

/-- A contact id names its own resource unless it is a dot segment. -/
theorem readsOnlyContact_iff (platform : WebPlatform) (options : GhlAdapterOptions Url)
    (ctx : ExecutionContext) (contactId : String) (nonempty : contactId ≠ "") :
    ReadsOnlyContact platform options ctx contactId ↔ contactId ≠ "." ∧ contactId ≠ ".." := by
  constructor
  · intro reads
    exact reads.own.not_dots
  · rintro ⟨single, double⟩
    refine ⟨requestsContact_of_not_dots platform options ctx single double, ?_⟩
    intro other nonempty' differs call call' made made' same
    rw [contactTarget_of_call made, contactTarget_of_call made'] at same
    exact differs (contactTarget_inj nonempty nonempty' same).symm

theorem readsOnlyContact_iff_slash :
    ReadsOnlyContact .plain ghlOptions {} "ab/c" :=
  (readsOnlyContact_iff .plain ghlOptions {} "ab/c" (by decide)).mpr ⟨by decide, by decide⟩

/-- The id `..` reads the root of the origin. -/
theorem readsOnlyContact_not_dotDot :
    (∃ call, ghlFetchCall WebPlatform.plain.language ghlOptions (contactGet "..") {} () =
        .ok (call, ()) ∧ call.url = "https://services.leadconnectorhq.com/") ∧
      ¬ ReadsOnlyContact .plain ghlOptions {} ".." := by
  constructor
  · obtain ⟨call, made, target⟩ := ghlFetchCall_contactGet .plain ghlOptions {} ".."
    refine ⟨call, made, target.trans ?_⟩
    rw [contactTarget_dotDot]
    decide
  · intro reads
    exact reads.own.not_dots.2 rfl

end Donna
