import Mathlib.Data.List.DropRight
import Donna.ControlPlane.Provisioning
import Donna.ControlPlane.RuntimeConfig
import Donna.ControlPlane.Server

/-! Authentication: the bearer token of a request, its verification, and the principal that the
tenancy tables give its subject; beside it the header shim of local processes. -/

namespace Donna

open Js JsValue

/-- The headers of a request, under their lower-case names. -/
abbrev Headers := List (String × JsValue)

def header (headers : Headers) (name : String) : JsValue := (JsValue.object headers).own name

/-- The string that a header is, or the first item of its list. -/
def firstString : JsValue → Option String
  | .string s => some s
  | .array (.string s :: _) => some s
  | _ => none

/-! ### The bearer token -/

/-- A character that `.` does not match. -/
def isLineTerminator (c : Char) : Bool := c.toNat ∈ [0xA, 0xD, 0x2028, 0x2029]

/-- `\s+(.+)$`, where the white space is the first `blanks` characters at most: as many as possible,
and fewer as long as what they leave does not match. -/
def afterBlanks (text : List Char) : ℕ → Option (List Char)
  | 0 => none
  | blanks + 1 =>
    let rest := text.drop (blanks + 1)
    if rest ≠ [] ∧ rest.all (!isLineTerminator ·) then some rest else afterBlanks text blanks

/-- `/^Bearer\s+(.+)$/i`. -/
def bearerMatch (value : List Char) : Option (List Char) :=
  if (value.take 6).map Char.toLower = "bearer".toList then
    let text := value.drop 6
    afterBlanks text (text.takeWhile isTrimmed).length
  else none

def bearerToken (headers : Headers) : Option String :=
  (firstString (header headers "authorization")).bind fun value =>
    (bearerMatch value.toList).map String.ofList

/-! ### Verification -/

structure VerifierConfig where
  jwksUrl : String
  issuer : Option String
  audience : Option String
  requireMfa : Bool
  mfaClaim : Option String
  mfaValue : Option String := none

/-- What `jwtVerify` is asked to check beside the signature and the dates. -/
structure VerifyOptions where
  jwksUrl : String
  issuer : Option String
  audience : Option String
  deriving DecidableEq

/-- `jwtVerify` at one moment: the payload of a token that passes, or the message of the error. -/
abbrev JwtVerify := String → VerifyOptions → Except String (List (String × JsValue))

inductive TokenError
  | invalid (message : String)
  | mfaRequired
  deriving DecidableEq

structure VerifiedIdentity where
  subject : String
  email : Option String
  claims : List (String × JsValue)

def mfaSatisfied (config : VerifierConfig) (claims : List (String × JsValue)) : Bool :=
  let raw := (JsValue.object claims).own (config.mfaClaim.getD "mfa")
  match config.mfaValue with
  | some value => raw.strictEq (.string value)
  | none => raw.strictEq (.boolean true) || raw.strictEq (.string "true") ||
    raw.strictEq (.number (.finite 1))

def VerifierConfig.options (config : VerifierConfig) : VerifyOptions :=
  ⟨config.jwksUrl, config.issuer, config.audience⟩

def verifyToken (jwtVerify : JwtVerify) (config : VerifierConfig) (token : String) :
    Except TokenError VerifiedIdentity :=
  match jwtVerify token config.options with
  | .error message => .error (.invalid message)
  | .ok payload =>
    match ((JsValue.object payload).own "sub").asString with
    | none => .error (.invalid "token has no subject")
    | some subject =>
      if subject = "" then .error (.invalid "token has no subject")
      else if config.requireMfa && !mfaSatisfied config payload then .error .mfaRequired
      else .ok ⟨subject, ((JsValue.object payload).own "email").asString, payload⟩

/-! ### Authenticators -/

/-- The authenticator of JWTs, over a bound verifier and the resolver. -/
def jwtAuthenticator (verify : String → Except TokenError VerifiedIdentity)
    (resolver : VerifiedIdentity → Option PrincipalContext) (headers : Headers) : AuthOutcome :=
  match bearerToken headers with
  | none => .refused 401 "missing_bearer_token"
  | some token =>
    match verify token with
    | .error .mfaRequired => .refused 403 "mfa_required"
    | .error (.invalid _) => .refused 401 "invalid_token"
    | .ok identity =>
      match resolver identity with
      | none => .refused 403 "no_account"
      | some principal => .authenticated principal

/-- A header of ids between commas. -/
def csv (value : JsValue) : List String :=
  match firstString value with
  | none => []
  | some raw =>
    if raw = "" then [] else ((raw.toList.splitOn ',').map (trim ∘ String.ofList)).filter (· ≠ "")

def devPrincipalFromHeaders (headers : Headers) : Option PrincipalContext := do
  let userId ← firstString (header headers "x-donna-user-id")
  let organizationId ← firstString (header headers "x-donna-org-id")
  let roleRaw ← firstString (header headers "x-donna-role")
  let role ← Role.all.find? (·.name = roleRaw)
  pure {
    userId := userId
    organizationId := organizationId
    role := role
    actorKind :=
      if firstString (header headers "x-donna-actor-kind") = some "human" then .human else .agent
    teamIds := csv (header headers "x-donna-teams")
    projectIds := csv (header headers "x-donna-projects") }

/-- The development header shim, which trusts what the caller says. -/
def devAuthenticator (headers : Headers) : AuthOutcome :=
  match devPrincipalFromHeaders headers with
  | none => .refused 401 "unauthenticated"
  | some principal => .authenticated principal

def JwtAuthConfig.verifier (auth : JwtAuthConfig) : VerifierConfig where
  jwksUrl := auth.jwksUrl
  issuer := auth.issuer
  audience := auth.audience
  requireMfa := auth.requireMfa
  mfaClaim := auth.mfaClaim

/-- `buildAuthenticator`, over what `jwtVerify` answers at the moment and the tenancy tables. -/
def authenticateWith (auth : AuthConfig) (jwtVerify : JwtVerify) (db : TenancyDatabase)
    (headers : Headers) : AuthOutcome :=
  match auth with
  | .devShim => devAuthenticator headers
  | .jwt jwt => jwtAuthenticator (verifyToken jwtVerify jwt.verifier)
    (fun identity => resolve db identity.subject) headers

/-! ### What a bearer header is -/

section Bearer

variable {text token : List Char}

/-- What the group captures: something, on one line. -/
def IsToken (token : List Char) : Prop := token ≠ [] ∧ ∀ c ∈ token, isLineTerminator c = false

theorem afterBlanks_succ (text : List Char) (blanks : ℕ) :
    (IsToken (text.drop (blanks + 1)) →
      afterBlanks text (blanks + 1) = some (text.drop (blanks + 1))) ∧
    (¬ IsToken (text.drop (blanks + 1)) →
      afterBlanks text (blanks + 1) = afterBlanks text blanks) := by
  have matched : (text.drop (blanks + 1) ≠ [] ∧
      (text.drop (blanks + 1)).all (!isLineTerminator ·) = true) ↔
      IsToken (text.drop (blanks + 1)) := by
    simp [IsToken]
  exact ⟨fun h => by rw [afterBlanks, if_pos (matched.mpr h)],
    fun h => by rw [afterBlanks, if_neg (mt matched.mp h)]⟩

/-- The longest run of white space that leaves a token. -/
theorem afterBlanks_eq_some {blanks : ℕ} : afterBlanks text blanks = some token ↔
    ∃ k, 0 < k ∧ k ≤ blanks ∧ text.drop k = token ∧ IsToken token ∧
      ∀ j, k < j → j ≤ blanks → ¬ IsToken (text.drop j) := by
  induction blanks with
  | zero =>
    constructor
    · intro found
      cases found
    · rintro ⟨k, positive, bound, -⟩
      omega
  | succ n ih =>
    obtain ⟨matched, unmatched⟩ := afterBlanks_succ text n
    by_cases isToken : IsToken (text.drop (n + 1))
    · rw [matched isToken, Option.some.injEq]
      constructor
      · rintro rfl
        exact ⟨n + 1, by omega, le_rfl, rfl, isToken, fun j above bound => by omega⟩
      · rintro ⟨k, positive, bound, rfl, -, longer⟩
        rcases Nat.lt_or_ge k (n + 1) with shorter | same
        · exact absurd isToken (longer (n + 1) shorter le_rfl)
        · rw [Nat.le_antisymm bound same]
    · rw [unmatched isToken, ih]
      constructor
      · rintro ⟨k, positive, bound, hDrop, hToken, longer⟩
        refine ⟨k, positive, by omega, hDrop, hToken, fun j above atMost => ?_⟩
        rcases Nat.lt_or_ge n j with last | earlier
        · rw [show j = n + 1 by omega]
          exact isToken
        · exact longer j above earlier
      · rintro ⟨k, positive, bound, hDrop, hToken, longer⟩
        have notLast : k ≠ n + 1 := by
          rintro rfl
          exact isToken (hDrop ▸ hToken)
        exact ⟨k, positive, by omega, hDrop, hToken,
          fun j above atMost => longer j above (by omega)⟩

theorem IsToken.of_drop {k j : ℕ} (hToken : IsToken (text.drop k)) (later : k ≤ j)
    (some : text.drop j ≠ []) : IsToken (text.drop j) := by
  refine ⟨some, fun c listed => hToken.2 c ?_⟩
  rw [show j = k + (j - k) by omega, ← List.drop_drop] at listed
  exact List.mem_of_mem_drop listed

/-- The white space ends before the token, unless the token is white space itself. -/
def Separated (token : List Char) : Prop :=
  (∃ c rest, token = c :: rest ∧ isTrimmed c = false) ∨ ∃ c, token = [c] ∧ isTrimmed c = true

theorem Separated.of_length_one (single : token.length = 1) : Separated token := by
  obtain ⟨c, rfl⟩ := List.length_eq_one_iff.mp single
  cases hBlank : isTrimmed c with
  | false => exact .inl ⟨c, [], rfl, hBlank⟩
  | true => exact .inr ⟨c, rfl, hBlank⟩

/-- A shorter run of white space is tried only where nothing is behind the longest. -/
theorem afterBlanks_separated {spaces rest : List Char} {k : ℕ} (positive : 0 < k)
    (bound : k ≤ spaces.length)
    (hRest : ∀ c tail, rest = c :: tail → isTrimmed c = false)
    (hToken : IsToken ((spaces ++ rest).drop k))
    (longer : ∀ j, k < j → j ≤ spaces.length → ¬ IsToken ((spaces ++ rest).drop j)) :
    Separated ((spaces ++ rest).drop k) := by
  cases rest with
  | cons c tail =>
    have all : k = spaces.length := by
      by_contra shorter
      refine longer spaces.length (by omega) le_rfl (hToken.of_drop bound ?_)
      simp
    rw [all, List.drop_left]
    exact .inl ⟨c, tail, rfl, hRest c tail rfl⟩
  | nil =>
    rw [List.append_nil] at hToken longer ⊢
    have more : k < spaces.length := by
      by_contra none
      exact hToken.1 (List.drop_eq_nil_of_le (by omega))
    have last : k = spaces.length - 1 := by
      by_contra shorter
      refine longer (spaces.length - 1) (by omega) (by omega) (hToken.of_drop (by omega) ?_)
      rw [ne_eq, List.drop_eq_nil_iff]
      omega
    refine .of_length_one ?_
    rw [List.length_drop]
    omega

theorem afterBlanks_iff : afterBlanks text (text.takeWhile isTrimmed).length = some token ↔
    ∃ blanks, text = blanks ++ token ∧ blanks ≠ [] ∧ (∀ c ∈ blanks, isTrimmed c = true) ∧
      IsToken token ∧ Separated token := by
  rw [afterBlanks_eq_some]
  constructor
  · rintro ⟨k, positive, bound, rfl, hToken, longer⟩
    have split : text.takeWhile isTrimmed ++ text.dropWhile isTrimmed = text :=
      List.takeWhile_append_dropWhile
    have hRest : ∀ c tail, text.dropWhile isTrimmed = c :: tail → isTrimmed c = false := by
      intro c tail hDrop
      have first := List.head?_dropWhile_not isTrimmed text
      rw [hDrop] at first
      simpa using first
    have short : k ≤ text.length := bound.trans (List.takeWhile_prefix _).length_le
    refine ⟨text.take k, (List.take_append_drop k text).symm, ?_, fun c listed => ?_, hToken, ?_⟩
    · rw [ne_eq, List.take_eq_nil_iff]
      rintro (rfl | rfl)
      · omega
      · simp at short
        omega
    · rw [← split, List.take_append_of_le_length bound] at listed
      exact List.all_eq_true.mp List.all_takeWhile c (List.mem_of_mem_take listed)
    · have separated := afterBlanks_separated positive bound hRest
      rw [split] at separated
      exact separated hToken longer
  · rintro ⟨blanks, rfl, inhabited, allBlank, hToken, separated⟩
    have positive : 0 < blanks.length := List.length_pos_iff.mpr inhabited
    refine ⟨blanks.length, positive, ?_, List.drop_left, hToken, fun j above bound => ?_⟩
    · rw [List.takeWhile_append_of_pos allBlank, List.length_append]
      omega
    · rcases separated with ⟨c, rest, rfl, notBlank⟩ | ⟨c, rfl, -⟩
      · rw [List.takeWhile_append_of_pos allBlank, List.takeWhile_cons_of_neg (by simp [notBlank]),
          List.append_nil] at bound
        omega
      · rintro ⟨some, -⟩
        exact some (List.drop_eq_nil_of_le (by simp; omega))

/-- The token of a header value. -/
theorem bearerMatch_eq_some {value : List Char} : bearerMatch value = some token ↔
    ∃ scheme blanks, value = scheme ++ blanks ++ token ∧
      scheme.map Char.toLower = "bearer".toList ∧ blanks ≠ [] ∧
      (∀ c ∈ blanks, isTrimmed c = true) ∧ IsToken token ∧ Separated token := by
  unfold bearerMatch
  constructor
  · intro found
    split at found
    · next hScheme =>
      obtain ⟨blanks, hText, rest⟩ := afterBlanks_iff.mp found
      refine ⟨value.take 6, blanks, ?_, hScheme, rest⟩
      rw [List.append_assoc, ← hText, List.take_append_drop]
    · cases found
  · rintro ⟨scheme, blanks, rfl, hScheme, rest⟩
    have six : scheme.length = 6 := by
      have same := congrArg List.length hScheme
      rwa [List.length_map] at same
    rw [List.append_assoc, ← six, List.take_left, List.drop_left, if_pos hScheme]
    exact afterBlanks_iff.mpr ⟨blanks, rfl, rest⟩

end Bearer

/-! ### Who is authenticated -/

section Jwt

variable {jwt : JwtAuthConfig} {jwtVerify : JwtVerify} {db : TenancyDatabase} {headers headers' :
  Headers} {principal : PrincipalContext}

/-- The request proves its subject: its token passes, under the configured issuer and audience, and
shows the second factor where that is required. -/
def Proves (jwt : JwtAuthConfig) (jwtVerify : JwtVerify) (headers : Headers) (subject : String) :
    Prop :=
  ∃ token payload, bearerToken headers = some token ∧
    jwtVerify token ⟨jwt.jwksUrl, jwt.issuer, jwt.audience⟩ = .ok payload ∧
    ((JsValue.object payload).own "sub").asString = some subject ∧ subject ≠ "" ∧
    (jwt.requireMfa = true → mfaSatisfied jwt.verifier payload = true)

theorem verifyToken_eq_ok {config : VerifierConfig} {token : String} {identity : VerifiedIdentity} :
    verifyToken jwtVerify config token = .ok identity ↔
      ∃ payload, jwtVerify token config.options = .ok payload ∧
        ((JsValue.object payload).own "sub").asString = some identity.subject ∧
        identity.subject ≠ "" ∧
        (config.requireMfa = true → mfaSatisfied config payload = true) ∧
        identity =
          ⟨identity.subject, ((JsValue.object payload).own "email").asString, payload⟩ := by
  unfold verifyToken
  cases passed : jwtVerify token config.options with
  | error message => simp
  | ok payload =>
    simp only [Except.ok.injEq, exists_eq_left']
    cases hSub : ((JsValue.object payload).own "sub").asString with
    | none => simp
    | some subject =>
      dsimp only
      split
      · next isEmpty =>
        simp only [reduceCtorEq, Option.some.injEq, false_iff]
        rintro ⟨same, given, -⟩
        exact given (same.symm.trans isEmpty)
      · next given =>
        split
        · next unproved =>
          simp only [reduceCtorEq, false_iff]
          rintro ⟨-, -, factor, -⟩
          simp only [Bool.and_eq_true, Bool.not_eq_true'] at unproved
          rw [factor unproved.1] at unproved
          cases unproved.2
        · next proved =>
          simp only [Bool.and_eq_true, Bool.not_eq_true', not_and, Bool.not_eq_false] at proved
          constructor
          · intro same
            obtain rfl := Except.ok.inj same
            exact ⟨rfl, given, proved, rfl⟩
          · rintro ⟨same, -, -, whole⟩
            rw [whole, Option.some.inj same]

/-- Whom the authenticator of JWTs trusts. -/
theorem authenticateWith_authenticated :
    authenticateWith (.jwt jwt) jwtVerify db headers = .authenticated principal ↔
      ∃ subject, Proves jwt jwtVerify headers subject ∧ resolve db subject = some principal := by
  simp only [authenticateWith, jwtAuthenticator]
  constructor
  · intro trusted
    split at trusted
    · cases trusted
    · next token hToken =>
      split at trusted
      · cases trusted
      · cases trusted
      · next identity verified =>
        obtain ⟨payload, passed, hSub, given, factor, -⟩ := verifyToken_eq_ok.mp verified
        cases found : resolve db identity.subject with
        | none =>
          rw [found] at trusted
          cases trusted
        | some other =>
          rw [found] at trusted
          cases trusted
          exact ⟨identity.subject, ⟨token, payload, hToken, passed, hSub, given, factor⟩, found⟩
  · rintro ⟨subject, ⟨token, payload, hToken, passed, hSub, given, factor⟩, found⟩
    have verified : verifyToken jwtVerify jwt.verifier token =
        .ok ⟨subject, ((JsValue.object payload).own "email").asString, payload⟩ :=
      verifyToken_eq_ok.mpr ⟨payload, passed, hSub, given, factor, rfl⟩
    rw [hToken]
    dsimp only
    rw [verified]
    dsimp only
    rw [found]

theorem strictEq_boolean {v : JsValue} {b : Bool} :
    v.strictEq (.boolean b) = true ↔ v = .boolean b := by
  cases v <;> simp [JsValue.strictEq]

theorem strictEq_finite {v : JsValue} {q : ℚ} :
    v.strictEq (.number (.finite q)) = true ↔ v = .number (.finite q) := by
  cases v with
  | number n => cases n <;> simp [JsValue.strictEq, JsNumber.strictEq]
  | _ => simp [JsValue.strictEq]

/-- The claim of a second factor, where no value of it is configured. -/
theorem mfaSatisfied_default {verifier : VerifierConfig} {claims : List (String × JsValue)}
    (plain : verifier.mfaValue = none) (satisfied : mfaSatisfied verifier claims = true) :
    ∃ factor ∈ [JsValue.boolean true, .string "true", .number (.finite 1)],
      (JsValue.object claims).own (verifier.mfaClaim.getD "mfa") = factor := by
  simp only [mfaSatisfied, plain, Bool.or_eq_true] at satisfied
  refine ⟨_, ?_, rfl⟩
  rcases satisfied with (yes | text) | one
  · rw [strictEq_boolean.mp yes]
    simp
  · rw [JsValue.strictEq_string.mp text]
    simp
  · rw [strictEq_finite.mp one]
    simp

/-- How it refuses the others. -/
def jwtRefusals : List (ℕ × String) :=
  [(401, "missing_bearer_token"), (403, "mfa_required"), (401, "invalid_token"),
    (403, "no_account")]

theorem authenticateWith_refused {status : ℕ} {error : String}
    (refused : authenticateWith (.jwt jwt) jwtVerify db headers = .refused status error) :
    (status, error) ∈ jwtRefusals := by
  simp only [authenticateWith, jwtAuthenticator] at refused
  split at refused
  · cases refused
    simp [jwtRefusals]
  · split at refused
    · cases refused
      simp [jwtRefusals]
    · cases refused
      simp [jwtRefusals]
    · split at refused
      · cases refused
        simp [jwtRefusals]
      · cases refused

/-- No header but `authorization` has a say. -/
theorem authenticateWith_congr
    (same : header headers "authorization" = header headers' "authorization") :
    authenticateWith (.jwt jwt) jwtVerify db headers =
      authenticateWith (.jwt jwt) jwtVerify db headers' := by
  simp only [authenticateWith, jwtAuthenticator, bearerToken, same]

end Jwt

/-! ### The header shim -/

section Shim

/-- An id that a list between commas can carry. -/
def Listable (id : String) : Prop := id ≠ "" ∧ ',' ∉ id.toList ∧ trim id = id

/-- The headers of a local client that acts as a principal. -/
def devHeaders (principal : PrincipalContext) : Headers := [
  ("x-donna-user-id", .string principal.userId),
  ("x-donna-org-id", .string principal.organizationId),
  ("x-donna-role", .string principal.role.name),
  ("x-donna-actor-kind", .string principal.actorKind.name),
  ("x-donna-teams", .string (",".intercalate principal.teamIds)),
  ("x-donna-projects", .string (",".intercalate principal.projectIds))]

theorem trim_trim (s : String) : trim (trim s) = trim s := by
  have front : ((s.toList.dropWhile isTrimmed).rdropWhile isTrimmed).dropWhile isTrimmed =
      (s.toList.dropWhile isTrimmed).rdropWhile isTrimmed := by
    rw [List.dropWhile_eq_self_iff]
    intro inhabited
    have same := List.IsPrefix.getElem (List.rdropWhile_prefix isTrimmed
      (s.toList.dropWhile isTrimmed)) inhabited
    rw [same]
    exact List.dropWhile_get_zero_not isTrimmed s.toList _
  have back := List.rdropWhile_idempotent isTrimmed (s.toList.dropWhile isTrimmed)
  simp only [List.rdropWhile] at front back
  simp only [trim, String.toList_ofList, front, back]

theorem mem_trim {s : String} {c : Char} (listed : c ∈ (trim s).toList) : c ∈ s.toList := by
  simp only [trim, String.toList_ofList, List.mem_reverse] at listed
  have inner := List.mem_reverse.mp ((List.dropWhile_sublist _).subset listed)
  exact (List.dropWhile_sublist _).subset inner

/-- The pieces of a split are free of what it splits on. -/
theorem not_mem_of_mem_splitOn {separator : Char} {text piece : List Char}
    (listed : piece ∈ text.splitOn separator) : separator ∉ piece := by
  induction text generalizing piece with
  | nil =>
    rw [List.splitOn_nil, List.mem_singleton] at listed
    rw [listed]
    exact List.not_mem_nil
  | cons c rest ih =>
    rw [List.splitOn_cons_eq_if_modifyHead] at listed
    split at listed
    · rcases List.mem_cons.mp listed with rfl | later
      · exact List.not_mem_nil
      · exact ih later
    · next other =>
      cases pieces : rest.splitOn separator with
      | nil => exact absurd pieces (List.splitOn_ne_nil separator rest)
      | cons first later =>
        rw [pieces, List.modifyHead_cons] at listed
        rw [pieces] at ih
        rcases List.mem_cons.mp listed with rfl | after
        · rw [List.mem_cons, not_or]
          exact ⟨fun same => other (by simp [same]), ih List.mem_cons_self⟩
        · exact ih (List.mem_cons_of_mem _ after)

theorem csv_string (raw : String) : csv (.string raw) =
    ((raw.toList.splitOn ',').map (trim ∘ String.ofList)).filter (· ≠ "") := by
  simp only [csv, firstString]
  split
  · next isEmpty =>
    subst isEmpty
    decide
  · rfl

/-- What `csv` reads back of a list. -/
theorem csv_intercalate {ids : List String} (listable : ∀ id ∈ ids, Listable id) :
    csv (.string (",".intercalate ids)) = ids := by
  cases ids with
  | nil => rfl
  | cons first rest =>
    have pieces : (",".intercalate (first :: rest)).toList.splitOn ',' =
        (first :: rest).map String.toList := by
      rw [String.toList_intercalate]
      refine List.splitOn_intercalate ',' ?_ (by simp)
      intro piece listed
      obtain ⟨id, hId, rfl⟩ := List.mem_map.mp listed
      exact (listable id hId).2.1
    rw [csv_string, pieces, List.map_map]
    have same : ((first :: rest).map ((trim ∘ String.ofList) ∘ String.toList)) = first :: rest := by
      refine (List.map_congr_left fun id hId => ?_).trans (List.map_id _)
      simp [(listable id hId).2.2]
    rw [same, List.filter_eq_self]
    intro id hId
    simpa using (listable id hId).1

theorem csv_listable (raw : String) : ∀ id ∈ csv (.string raw), Listable id := by
  rw [csv_string]
  intro id listed
  obtain ⟨hMap, some⟩ := List.mem_filter.mp listed
  obtain ⟨piece, hPiece, rfl⟩ := List.mem_map.mp hMap
  refine ⟨by simpa using some, fun comma => ?_, trim_trim _⟩
  have inPiece := mem_trim comma
  rw [String.toList_ofList] at inPiece
  exact not_mem_of_mem_splitOn hPiece inPiece

theorem find?_role_name (role : Role) : Role.all.find? (·.name = role.name) = some role := by
  cases role <;> decide

theorem devPrincipalFromHeaders_devHeaders (principal : PrincipalContext) :
    devPrincipalFromHeaders (devHeaders principal) = some { principal with
      teamIds := csv (.string (",".intercalate principal.teamIds))
      projectIds := csv (.string (",".intercalate principal.projectIds)) } := by
  have role := find?_role_name principal.role
  have hUser : header (devHeaders principal) "x-donna-user-id" = .string principal.userId := rfl
  have hOrg : header (devHeaders principal) "x-donna-org-id" = .string principal.organizationId :=
    rfl
  have hRole : header (devHeaders principal) "x-donna-role" = .string principal.role.name := rfl
  have hKind : header (devHeaders principal) "x-donna-actor-kind" =
    .string principal.actorKind.name := rfl
  have hTeams : header (devHeaders principal) "x-donna-teams" =
    .string (",".intercalate principal.teamIds) := rfl
  have hProjects : header (devHeaders principal) "x-donna-projects" =
    .string (",".intercalate principal.projectIds) := rfl
  rw [devPrincipalFromHeaders, hUser, hOrg, hRole, hKind, hTeams, hProjects]
  simp only [firstString, role, Option.bind_eq_bind, Option.bind_some, Option.pure_def]
  obtain ⟨userId, organizationId, role, actorKind, teamIds, projectIds⟩ := principal
  cases actorKind <;> rfl

end Shim

/-- The shim takes a principal over from the headers of its client exactly when every team and
project id can stand in a list. -/
theorem devAuthenticator_devHeaders (principal : PrincipalContext) :
    devAuthenticator (devHeaders principal) = .authenticated principal ↔
      ∀ id ∈ principal.teamIds ++ principal.projectIds, Listable id := by
  rw [devAuthenticator, devPrincipalFromHeaders_devHeaders]
  simp only [AuthOutcome.authenticated.injEq, List.mem_append, or_imp, forall_and]
  constructor
  · intro same
    have teams := congrArg PrincipalContext.teamIds same
    have projects := congrArg PrincipalContext.projectIds same
    dsimp only at teams projects
    constructor
    · intro id listed
      rw [← teams] at listed
      exact csv_listable _ id listed
    · intro id listed
      rw [← projects] at listed
      exact csv_listable _ id listed
  · rintro ⟨teams, projects⟩
    rw [csv_intercalate teams, csv_intercalate projects]

/-- The token of a request is what follows the scheme, in any case, and the longest run of white
space that leaves something: one line that does not begin with white space, unless it is a single
character. -/
theorem bearerToken_eq_some (headers : Headers) (token : String) :
    bearerToken headers = some token ↔
      ∃ value scheme blanks, firstString (header headers "authorization") = some value ∧
        value.toList = scheme ++ blanks ++ token.toList ∧
        scheme.map Char.toLower = "bearer".toList ∧ blanks ≠ [] ∧
        (∀ c ∈ blanks, isTrimmed c = true) ∧ IsToken token.toList ∧ Separated token.toList := by
  simp only [bearerToken, Option.bind_eq_some_iff, Option.map_eq_some_iff, bearerMatch_eq_some]
  constructor
  · rintro ⟨value, given, found, ⟨scheme, blanks, rest⟩, rfl⟩
    rw [String.toList_ofList]
    exact ⟨value, scheme, blanks, given, rest⟩
  · rintro ⟨value, scheme, blanks, given, rest⟩
    exact ⟨value, given, token.toList, ⟨scheme, blanks, rest⟩, String.ofList_toList⟩

example : bearerToken [("authorization", .string "bearer \t abc.def")] = some "abc.def" := by decide

end Donna
