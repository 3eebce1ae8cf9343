import Xoxproxy.Api.Cookies
import Xoxproxy.Library.JsonObjects
import Xoxproxy.Store.Days
import Xoxproxy.Users.Validation

/-!
# The bodies of user requests

The request shapes of `internal/api/user_handlers.go`, and `readJSON` of
`internal/api/middleware.go`, which decodes them.
-/

namespace Xoxproxy.Api

open JsonObjects

def maxBodyBytes : Nat := 2 ^ 20

/-- What `readJSON` reads of a request; a header that is absent is empty. -/
structure JSONRequest where
  method : String
  contentType : String
  body : Object

/-- `mediaType`. -/
def mediaType [Build] (contentType : String) : String :=
  trimSpace (toLower (String.ofList
    (contentType.toList.takeWhile (· ≠ ';'))))

/-- `readJSON`, for a body that is an object. -/
def readJSON [Build] {Record : Type} (fields : List (RecordField Record))
    (zero : Record) (request : JSONRequest) : Except BodyError Record :=
  if (request.method ≠ "GET" ∧ request.method ≠ "HEAD") ∧
      mediaType request.contentType ≠ "application/json" then
    .error .contentType
  else if maxBodyBytes < size request.body then .error .tooLarge
  else
    match decode fields zero request.body with
    | none => .error .invalid
    | some record => .ok record

/-- The value of an `int64`; null has none. -/
def int64 : Value → Option (Option Int)
  | .null => some none
  | .number literal => (atoi literal).map some
  | _ => none

/-- The value of a `string`. -/
def string : Value → Option (Option String)
  | .null => some none
  | .text value => some (some value)
  | _ => none

/-- The value of a `bool`. -/
def boolean : Value → Option (Option Bool)
  | .null => some none
  | .truth value => some (some value)
  | _ => none

/-- The value of a `[]string`. -/
def strings : Value → Option (Option (List String))
  | .null => some none
  | .texts values => some (some values)
  | _ => none

/-- The value of a `time.Time`. -/
def instant : Value → Option (Option Time)
  | .null => some none
  | .text value => (readTime value.toList).map some
  | _ => none

/-- A field with values of one type. -/
def fieldAs {Record Content : Type} (name : String)
    (read : Value → Option Content) (write : Record → Content → Record) :
    RecordField Record where
  name := name
  read := fun value => (read value).map fun content record =>
    write record content

/-- `createUserRequest`. -/
structure CreateUserRequest where
  username : String := ""
  password : String := ""
  allowedProtocols : List String := []
  downloadBPS : Int := 0
  uploadBPS : Int := 0
  maxConnections : Int := 0
  quotaBytesDaily : Int := 0
  quotaBytesMonthly : Int := 0
  expiresAt : Option Time := none
  deriving DecidableEq, Repr

def CreateUserRequest.fields : List (RecordField CreateUserRequest) := [
  fieldAs "username" string fun request value =>
    { request with username := value.getD request.username },
  fieldAs "password" string fun request value =>
    { request with password := value.getD request.password },
  fieldAs "allowed_protocols" strings fun request value =>
    { request with allowedProtocols := value.getD [] },
  fieldAs "download_limit_bps" int64 fun request value =>
    { request with downloadBPS := value.getD request.downloadBPS },
  fieldAs "upload_limit_bps" int64 fun request value =>
    { request with uploadBPS := value.getD request.uploadBPS },
  fieldAs "max_connections" int64 fun request value =>
    { request with maxConnections := value.getD request.maxConnections },
  fieldAs "quota_bytes_daily" int64 fun request value =>
    { request with quotaBytesDaily := value.getD request.quotaBytesDaily },
  fieldAs "quota_bytes_monthly" int64 fun request value =>
    { request with
      quotaBytesMonthly := value.getD request.quotaBytesMonthly },
  fieldAs "expires_at" instant fun request value =>
    { request with expiresAt := value }]

/-- What `handleUserCreate` hands to `Create`. -/
def CreateUserRequest.input (request : CreateUserRequest) : CreateInput where
  username := request.username
  password := request.password
  protocols := request.allowedProtocols
  downloadBPS := request.downloadBPS
  uploadBPS := request.uploadBPS
  maxConnections := request.maxConnections
  quotaBytesDaily := request.quotaBytesDaily
  quotaBytesMonthly := request.quotaBytesMonthly
  expiresAt := request.expiresAt

/-- `updateUserRequest`. -/
structure UpdateUserRequest where
  version : Int := 0
  allowedProtocols : Option (List String) := none
  downloadBPS : Option Int := none
  uploadBPS : Option Int := none
  maxConnections : Option Int := none
  quotaBytesDaily : Option Int := none
  quotaBytesMonthly : Option Int := none
  expiresAt : Option Time := none
  clearExpiration : Bool := false
  deriving DecidableEq, Repr

def UpdateUserRequest.fields : List (RecordField UpdateUserRequest) := [
  fieldAs "version" int64 fun request value =>
    { request with version := value.getD request.version },
  fieldAs "allowed_protocols" strings fun request value =>
    { request with allowedProtocols := value },
  fieldAs "download_limit_bps" int64 fun request value =>
    { request with downloadBPS := value },
  fieldAs "upload_limit_bps" int64 fun request value =>
    { request with uploadBPS := value },
  fieldAs "max_connections" int64 fun request value =>
    { request with maxConnections := value },
  fieldAs "quota_bytes_daily" int64 fun request value =>
    { request with quotaBytesDaily := value },
  fieldAs "quota_bytes_monthly" int64 fun request value =>
    { request with quotaBytesMonthly := value },
  fieldAs "expires_at" instant fun request value =>
    { request with expiresAt := value },
  fieldAs "clear_expiration" boolean fun request value =>
    { request with clearExpiration := value.getD request.clearExpiration }]

/-- What `handleUserUpdate` hands to `Update`. -/
def UpdateUserRequest.input (request : UpdateUserRequest) : UpdateInput where
  version := request.version
  protocols := request.allowedProtocols
  downloadBPS := request.downloadBPS
  uploadBPS := request.uploadBPS
  maxConnections := request.maxConnections
  quotaBytesDaily := request.quotaBytesDaily
  quotaBytesMonthly := request.quotaBytesMonthly
  expiresAt := request.expiresAt
  clearExpiration := request.clearExpiration

/-- `userActionRequest`. -/
structure UserActionRequest where
  version : Int := 0
  deriving DecidableEq, Repr

def UserActionRequest.fields : List (RecordField UserActionRequest) := [
  fieldAs "version" int64 fun request value =>
    { request with version := value.getD request.version }]

/-- The body of `handleUserRotate`. -/
structure RotateRequest where
  password : String := ""
  deriving DecidableEq, Repr

def RotateRequest.fields : List (RecordField RotateRequest) := [
  fieldAs "password" string fun request value =>
    { request with password := value.getD request.password }]

section Reading

variable [Build] {Record : Type} {fields : List (RecordField Record)}
variable {zero : Record} {request : JSONRequest}

omit [Build] in
theorem unparameterised : String.ofList
    ("application/json".toList.takeWhile (· ≠ ';')) = "application/json" := by
  decide +kernel

theorem mediaType_json :
    mediaType "application/json" = "application/json" := by
  have lower : toLower "application/json" = "application/json" := by
    simp [toLower, lowerChar]
  rw [mediaType, unparameterised, lower]
  decide +kernel

/-- A JSON request is read when it is small and its body is decoded. -/
theorem readJSON_ok_iff (typed : request.contentType = "application/json")
    (record : Record) :
    readJSON fields zero request = .ok record ↔
      size request.body ≤ maxBodyBytes ∧
        decode fields zero request.body = some record := by
  rw [readJSON, typed, mediaType_json, if_neg (fun wrong => wrong.2 rfl)]
  split
  case isTrue large => simp [not_le.mpr large]
  case isFalse small =>
    rw [not_lt] at small
    split <;> simp_all

end Reading

end Xoxproxy.Api
