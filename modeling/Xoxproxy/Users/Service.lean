import Xoxproxy.Engine.Crypt
import Xoxproxy.Users.Validation

/-!
# The user service

The mutations of `internal/users/service.go` and the repository methods
they use, each SQL statement or transaction being one operation.
-/

namespace Xoxproxy

open EffectPrograms

def errUsernameTaken : GoError :=
  ⟨"username already taken", [.usernameTaken]⟩

def errVersionConflict : GoError :=
  ⟨"user was modified concurrently", [.versionConflict]⟩

def errExpired : GoError :=
  ⟨"user's expiry has passed; extend expires_at first", [.userExpired]⟩

/-- `Actor`: who performed an operation, for the audit trail. -/
structure Actor where
  name : String
  requestID : String := ""
  sourceIP : String := ""
  userAgent : String := ""
  deriving DecidableEq, Repr

/-- `auditAction`; failures are logged and ignored. -/
def auditAction
    (actor : Actor) (action target result detail : String) :
    UserProgram Unit := do
  let _ ← invoke (.recordAudit {
    actor := actor.name
    action := action
    target := target
    requestID := actor.requestID
    sourceIP := actor.sourceIP
    userAgent := actor.userAgent
    result := result
    detail := detail })
  pure ()

/-- `sort.Strings`. -/
def sortStrings (texts : List String) : List String :=
  texts.mergeSort fun first second => !decide (second < first)

def sameProtocols (first second : List String) : Bool :=
  sortStrings first = sortStrings second

/-- `updateSummary`. -/
def updateSummary (before after : ProxyUser) : String :=
  let changed (name unit : String) (old new : Int) : List String :=
    if old = new then [] else
      [name ++ " " ++ toString old ++ "->" ++ toString new ++ unit]
  let parts :=
    changed "download" " bps" before.downloadBPS after.downloadBPS ++
    changed "upload" " bps" before.uploadBPS after.uploadBPS ++
    changed "max_connections" "" before.maxConnections
      after.maxConnections ++
    changed "daily quota" " bytes" before.quotaBytesDaily
      after.quotaBytesDaily ++
    changed "monthly quota" " bytes" before.quotaBytesMonthly
      after.quotaBytesMonthly ++
    (if sameProtocols before.allowedProtocols after.allowedProtocols then
      [] else
      ["protocols [" ++ join after.allowedProtocols " " ++ "]"]) ++
    (if before.expiresAt = after.expiresAt then [] else
      ["expiry changed"])
  if parts = [] then "no field changes" else join parts ", "

section Programs

variable [Build]

/-- `GetUserByID`. -/
def getUserByID (id : Int) : UserProgram (Except GoError ProxyUser) := do
  match ← invoke (.selectUser id) with
  | .error error => pure (.error error)
  | .ok none => pure (.error errNotFound)
  | .ok (some row) => pure (scanUser row)

/-- `versionConflict`. -/
def versionConflict (id : Int) : UserProgram GoError := do
  match ← invoke (.selectOne id) with
  | .error error => pure error
  | .ok false => pure errNotFound
  | .ok true => pure errConflict

/-- What follows an optimistic `UPDATE`: the user as it is then, or the
reason why no row was affected. -/
def afterUpdate (id : Int) (affected : Except GoError Nat) :
    UserProgram (Except GoError ProxyUser) :=
  match affected with
  | .error error => pure (.error error)
  | .ok 0 => do
      let error ← versionConflict id
      pure (.error error)
  | .ok (_ + 1) => getUserByID id

/-- `UserRepository.UpdateUser`. -/
def updateUser (user : ProxyUser) :
    UserProgram (Except GoError ProxyUser) := do
  let now ← invoke .now
  let affected ← invoke (.updateUser user now)
  afterUpdate user.id affected

/-- `UserRepository.SetUserStatus`. -/
def setUserStatus
    (id : Int) (status : UserStatus) (expectedVersion : Int)
    (now : Time) : UserProgram (Except GoError ProxyUser) := do
  let affected ← invoke (.setUserStatus id status expectedVersion now)
  afterUpdate id affected

/-- `UserRepository.CreateUser`. -/
def createUser (user : ProxyUser) (initial : Credential) :
    UserProgram (Except GoError ProxyUser) := do
  let now ← invoke .now
  let createdAt := orTime user.createdAt now
  let user := { user with
    createdAt := createdAt
    updatedAt := orTime user.updatedAt createdAt }
  match ← invoke (.createUser user initial) with
  | .error error => pure (.error error)
  | .ok id => pure (.ok { user with id := id, version := 1 })

/-- `CredentialRepository.RotateCredential`. -/
def rotateCredential
    (id : Int) (next : Credential) (expectedVersion : Int)
    (now : Time) : UserProgram (Except GoError ProxyUser) := do
  match ← invoke (.rotateCredential id next expectedVersion now) with
  | .error error => pure (.error error)
  | .ok () => getUserByID id

/-- The end of a mutation that has written the user: what the store says
goes to the audit trail, to the state-change hook, and to the caller. -/
def announce
    (actor : Actor) (action username : String)
    (summary : ProxyUser → String)
    (outcome : Except GoError ProxyUser) :
    UserProgram (Except GoError ProxyUser) :=
  match outcome with
  | .error error =>
      if error.is .storeConflict then do
        auditAction actor action username "failure" "version conflict"
        pure (.error errVersionConflict)
      else pure (.error error)
  | .ok updated => do
      auditAction actor action username "success" (summary updated)
      invoke (.notify actor.name (action ++ ":" ++ username))
      pure (.ok updated)

/-- `Update`. -/
def update (id : Int) (input : UpdateInput) (actor : Actor) :
    UserProgram (Except GoError ProxyUser) := do
  match ← getUserByID id with
  | .error error => pure (.error error)
  | .ok current =>
      if input.version = 0 ∨ input.version ≠ current.version then
        pure (.error (.wrap "" errVersionConflict
          (": have version " ++ toString current.version ++
            ", request carries " ++ toString input.version)))
      else do
        let order ← invoke .mapOrder
        match validateMutated order (input.merge current) with
        | some error => pure (.error error)
        | none => do
            let outcome ← updateUser (input.merge current)
            announce actor "user.update" current.username
              (updateSummary current) outcome

/-- `transition`. -/
def transition
    (id : Int) (status : UserStatus) (expectedVersion : Int)
    (actor : Actor) (action : String) :
    UserProgram (Except GoError ProxyUser) := do
  match ← getUserByID id with
  | .error error => pure (.error error)
  | .ok current => do
      let now ← invoke .now
      let outcome ← setUserStatus id status expectedVersion now
      announce actor action current.username (fun _ => "") outcome

/-- `Disable`. -/
def disable (id expectedVersion : Int) (actor : Actor) :
    UserProgram (Except GoError ProxyUser) :=
  transition id .disabled expectedVersion actor "user.disable"

/-- `Enable`. -/
def enable (id expectedVersion : Int) (actor : Actor) :
    UserProgram (Except GoError ProxyUser) := do
  match ← getUserByID id with
  | .error error => pure (.error error)
  | .ok current =>
      match current.expiresAt with
      | none => transition id .active expectedVersion actor "user.enable"
      | some expiresAt => do
          let now ← invoke .now
          if expiresAt ≤ now then pure (.error errExpired)
          else transition id .active expectedVersion actor "user.enable"

/-- `Delete`. -/
def delete (id : Int) (actor : Actor) :
    UserProgram (Except GoError Unit) := do
  match ← getUserByID id with
  | .error error => pure (.error error)
  | .ok current =>
      match ← invoke (.deleteUser id) with
      | .error error => pure (.error error)
      | .ok 0 => pure (.error errNotFound)
      | .ok (_ + 1) => do
          auditAction actor "user.delete" current.username "success" ""
          invoke (.notify actor.name ("user.delete:" ++ current.username))
          pure (.ok ())

/-- `SweepExpired`. -/
def sweepExpired : UserProgram (Except GoError Nat) := do
  let now ← invoke .now
  match ← invoke (.sweepExpired now) with
  | .error error => pure (.error error)
  | .ok 0 => pure (.ok 0)
  | .ok (swept + 1) => do
      auditAction { name := "system" } "user.expire_sweep" "" "success"
        ("expired " ++ toString (swept + 1) ++ " user(s)")
      invoke (.notify "system" "expiry-sweep")
      pure (.ok (swept + 1))

section Credentials

variable [Blake2b]

/-- The two verifiers of a password. -/
def newHashes (password : String) :
    UserProgram (Except GoError (String × String)) := do
  match ← invoke .randomSalt with
  | .error error =>
      pure (.error (.wrap "users: engine hash: "
        (.wrap "threeproxy: salt: " error "") ""))
  | .ok salt =>
      match ← invoke (.newAPIHash password) with
      | .error error =>
          pure (.error (.wrap "users: api hash: " error ""))
      | .ok apiHash =>
          pure (.ok (crHash password (newSalt salt), apiHash))

/-- The password of the request, or a generated one. -/
def choosePassword (password : String) : UserProgram String :=
  if password = "" then invoke .generatePassword else pure password

/-- What `Create` makes of the repository's answer. -/
def announceCreated
    (actor : Actor) (username password : String)
    (outcome : Except GoError ProxyUser) :
    UserProgram (Except GoError (ProxyUser × String)) :=
  match outcome with
  | .error error =>
      if error.is .storeConflict then do
        auditAction actor "user.create" username "failure"
          "username taken"
        pure (.error (.wrap "" errUsernameTaken (": " ++ username)))
      else pure (.error error)
  | .ok created => do
      auditAction actor "user.create" username "success" ""
      invoke (.notify actor.name ("user.create:" ++ username))
      pure (.ok (created, password))

/-- The user that `Create` hands to the store. -/
def CreateInput.newUser (input : CreateInput) (now : Time) :
    ProxyUser where
  id := 0
  serverID := "local"
  username := input.username
  status := .active
  allowedProtocols := input.protocols
  downloadBPS := input.downloadBPS
  uploadBPS := input.uploadBPS
  maxConnections := input.maxConnections
  quotaBytesDaily := input.quotaBytesDaily
  quotaBytesMonthly := input.quotaBytesMonthly
  expiresAt := input.expiresAt
  version := 0
  createdAt := now
  updatedAt := now
  lastSeenAt := none

/-- `validateNew` with its readings of the clock. -/
def checkNew (input : CreateInput) : UserProgram (Option GoError) := do
  let order ← invoke .mapOrder
  match input.expiresAt with
  | none => pure (validateNew order 0 input)
  | some _ => do
      let now ← invoke .now
      pure (validateNew order now input)

/-- `Create`. -/
def create (input : CreateInput) (actor : Actor) :
    UserProgram (Except GoError (ProxyUser × String)) := do
  match ← checkNew input with
  | some error => pure (.error error)
  | none => do
      let password ← choosePassword input.password
      match ← newHashes password with
      | .error error => pure (.error error)
      | .ok hashes => do
          let now ← invoke .now
          let outcome ← createUser (input.newUser now)
            { engineHash := hashes.1, apiHash := hashes.2,
              createdAt := now }
          announceCreated actor input.username password outcome

/-- The password that `RotateCredentials` puts in force. -/
def replacementPassword (password username : String) :
    UserProgram (Except GoError String) :=
  if password = "" then do
    let generated ← invoke .generatePassword
    pure (.ok generated)
  else
    match validatePassword password username with
    | some error => pure (.error error)
    | none => pure (.ok password)

/-- `RotateCredentials`. -/
def rotateCredentials (id : Int) (password : String) (actor : Actor) :
    UserProgram (Except GoError (ProxyUser × String)) := do
  match ← getUserByID id with
  | .error error => pure (.error error)
  | .ok current =>
      match ← replacementPassword password current.username with
      | .error error => pure (.error error)
      | .ok password =>
          match ← newHashes password with
          | .error error => pure (.error error)
          | .ok hashes => do
              let createdAt ← invoke .now
              let now ← invoke .now
              let outcome ← rotateCredential id
                { engineHash := hashes.1, apiHash := hashes.2,
                  createdAt := createdAt } current.version now
              let announced ← announce actor "user.rotate_credentials"
                current.username (fun _ => "") outcome
              pure (announced.map fun updated => (updated, password))

end Credentials

end Programs

/-- A call of the service, and a number that tells it from all others. -/
inductive UserRequest where
  | create (input : CreateInput)
  | update (id : Int) (input : UpdateInput)
  | enable (id expectedVersion : Int)
  | disable (id expectedVersion : Int)
  | rotateCredentials (id : Int) (password : String)
  | delete (id : Int)
  | sweepExpired
  deriving DecidableEq, Repr

structure UserCall where
  number : Nat
  request : UserRequest
  actor : Actor
  deriving DecidableEq, Repr

/-- The error that a call returns, if any. -/
def UserCall.program [Build] [Blake2b] (call : UserCall) :
    UserProgram (Option GoError) :=
  let failure {Result : Type} (outcome : Except GoError Result) :
      Option GoError :=
    match outcome with
    | .error error => some error
    | .ok _ => none
  match call.request with
  | .create input => do
      let outcome ← create input call.actor
      pure (failure outcome)
  | .update id input => do
      let outcome ← update id input call.actor
      pure (failure outcome)
  | .enable id expectedVersion => do
      let outcome ← enable id expectedVersion call.actor
      pure (failure outcome)
  | .disable id expectedVersion => do
      let outcome ← disable id expectedVersion call.actor
      pure (failure outcome)
  | .rotateCredentials id password => do
      let outcome ← rotateCredentials id password call.actor
      pure (failure outcome)
  | .delete id => do
      let outcome ← delete id call.actor
      pure (failure outcome)
  | .sweepExpired => do
      let outcome ← sweepExpired
      pure (failure outcome)

end Xoxproxy
