import Donna.Core.Domain

/-! The events of the identity provider's webhook, and what is read from their payloads. -/

namespace Donna

open Js JsValue

/-- Raised when a verified payload does not match the expected shape. -/
structure ClerkPayloadError where
  message : String
  deriving DecidableEq

def clerkPayloadError (message : String) : ClerkPayloadError :=
  ⟨"Invalid Clerk payload: " ++ message⟩

/-- A verified webhook envelope: an event type and the fields of its data object. -/
structure ClerkEvent where
  type : String
  data : List (String × JsValue)

structure MembershipSync where
  clerkOrgId : String
  orgName : String
  orgSlug : String
  clerkUserId : String
  email : String
  displayName : String
  role : Role

structure UserUpdate where
  clerkUserId : String
  email : String
  displayName : String

structure OrgUpdate where
  clerkOrgId : String
  name : String
  slug : String

structure MembershipRef where
  clerkOrgId : String
  clerkUserId : String

abbrev ClerkParsed (α : Type) := Except ClerkPayloadError α

/-- The fields of a record. -/
def asRecord : JsValue → Option (List (String × JsValue))
  | .object fields => some fields
  | _ => none

/-- A record, or the error that says what is missing. -/
def requireRecord (value : JsValue) (missing : String) : ClerkParsed JsValue :=
  match asRecord value with
  | some fields => pure (.object fields)
  | none => throw (clerkPayloadError missing)

def str (record : JsValue) (key : String) : ClerkParsed String :=
  match (record.own key).asString with
  | some value =>
    if value = "" then throw (clerkPayloadError ("\"" ++ key ++ "\" must be a non-empty string"))
    else pure value
  | none => throw (clerkPayloadError ("\"" ++ key ++ "\" must be a non-empty string"))

/-- Parse a verified envelope. -/
def parseClerkEvent (payload : JsValue) : ClerkParsed ClerkEvent := do
  let event ← requireRecord payload "event must be an object"
  match (event.own "type").asString with
  | none => throw (clerkPayloadError "missing event type")
  | some type =>
    match asRecord (event.own "data") with
    | none => throw (clerkPayloadError "missing event data")
    | some data => pure ⟨type, data⟩

/-- Least privilege by default; `owner` is never granted from a webhook. -/
def mapClerkRole (clerkRole : String) : Role :=
  if clerkRole = "org:admin" || clerkRole = "admin" then .admin else .teamMember

/-- The value of a property that is a string, and the empty string otherwise. -/
def stringOrEmpty (record : JsValue) (key : String) : String :=
  (record.own key).asString.getD ""

def displayNameFrom (record : JsValue) (fallback : String) : String :=
  let name := trim
    (stringOrEmpty record "first_name" ++ " " ++ stringOrEmpty record "last_name")
  if name = "" then fallback else name

/-- Parse an `organizationMembership.created` or `.updated` event. -/
def parseMembershipSync (data : JsValue) : ClerkParsed MembershipSync := do
  let org ← requireRecord (data.own "organization") "missing organization"
  let userData ← requireRecord (data.own "public_user_data") "missing public_user_data"
  let email ← str userData "identifier"
  let clerkOrgId ← str org "id"
  let orgName ← str org "name"
  let orgSlug ← str org "slug"
  let clerkUserId ← str userData "user_id"
  pure {
    clerkOrgId := clerkOrgId
    orgName := orgName
    orgSlug := orgSlug
    clerkUserId := clerkUserId
    email := email
    displayName := displayNameFrom userData email
    role := mapClerkRole (stringOrEmpty data "role") }

/-- The entry of `email_addresses` with the primary id, or else the first record. -/
def chosenEmail (list : List JsValue) (primaryId : JsValue) : Option JsValue :=
  (list.find? fun entry => (asRecord entry).isSome && (entry.own "id").strictEq primaryId) <|>
    list.find? fun entry => (asRecord entry).isSome

def primaryEmail (data : JsValue) : ClerkParsed String :=
  let email := match data.own "email_addresses" with
    | .array list => (chosenEmail list (data.own "primary_email_address_id")).bind fun chosen =>
      (chosen.own "email_address").asString
    | _ => none
  match email with
  | some email => pure email
  | none => throw (clerkPayloadError "no email address on user")

/-- Parse a `user.created` or `.updated` event. -/
def parseUserUpdate (data : JsValue) : ClerkParsed UserUpdate := do
  let clerkUserId ← str data "id"
  let email ← primaryEmail data
  pure ⟨clerkUserId, email, displayNameFrom data email⟩

/-- Parse an `organization.created` or `.updated` event. -/
def parseOrgUpdate (data : JsValue) : ClerkParsed OrgUpdate := do
  let clerkOrgId ← str data "id"
  let name ← str data "name"
  let slug ← str data "slug"
  pure ⟨clerkOrgId, name, slug⟩

/-- Parse the deleted subject id from a `*.deleted` event. -/
def parseDeletedId (data : JsValue) : ClerkParsed String := str data "id"

/-- Parse the organization and user ids of a membership event. -/
def parseMembershipRef (data : JsValue) : ClerkParsed MembershipRef := do
  let org ← requireRecord (data.own "organization") "missing organization"
  let userData ← requireRecord (data.own "public_user_data") "missing public_user_data"
  let clerkOrgId ← str org "id"
  let clerkUserId ← str userData "user_id"
  pure ⟨clerkOrgId, clerkUserId⟩

end Donna
