import Xoxproxy.Auth.Operations
import Xoxproxy.Library.Histories
import Xoxproxy.Library.Sha256

/-!
# The authentication service

The methods of `internal/auth/service.go` and the repository methods they
use, as programs.  Each SQL statement, reading of the clock and use of the
limiter is one operation.
-/

namespace Xoxproxy.Auth

open EffectPrograms

/-- `HashPassword` for a salt, and `VerifyPassword`, whose work is that of
the `argon2` package. -/
class PasswordHashing where
  hashPassword : (salt password : String) → String
  verifyPassword : (password encoded : String) → Bool

export PasswordHashing (hashPassword verifyPassword)

/-- `store.AdminAccount`. -/
structure AdminAccount where
  id : Int
  username : String
  passwordHash : String
  failedAttempts : Int
  lockedUntil : Option Time
  createdAt : Time
  updatedAt : Time
  deriving DecidableEq, Repr

/-- `store.AdminSession`. -/
structure AdminSession where
  id : String
  accountID : Int
  tokenHash : String
  csrfToken : String
  createdAt : Time
  expiresAt : Time
  lastSeenAt : Time
  sourceIP : String
  userAgent : String
  deriving DecidableEq, Repr

/-- The row that `CreateSession` inserts. -/
def AdminSession.row (session : AdminSession) : SessionRow where
  id := session.id
  accountID := session.accountID
  tokenHash := session.tokenHash
  csrfToken := session.csrfToken
  createdAt := formatTime session.createdAt
  expiresAt := formatTime session.expiresAt
  lastSeenAt := formatTime session.lastSeenAt
  sourceIP := session.sourceIP
  userAgent := session.userAgent

def errInvalidCredentials : GoError :=
  ⟨"invalid credentials", [.invalidCredentials]⟩

def errIPBlocked : GoError :=
  ⟨"too many attempts from this address", [.ipBlocked]⟩

def errSessionInvalid : GoError :=
  ⟨"session invalid or expired", [.sessionInvalid]⟩

def errUsernameTaken : GoError :=
  ⟨"username already exists", [.usernameTaken]⟩

def errWeakPassword : GoError :=
  ⟨"password does not meet policy", [.weakPassword]⟩

structure LoginInput where
  username : String
  password : String
  sourceIP : String
  userAgent : String := ""
  requestID : String := ""
  deriving DecidableEq, Repr

structure LoginResult where
  token : String
  csrfToken : String
  account : AdminAccount
  expiresAt : Time
  deriving DecidableEq, Repr

/-- `HashToken`. -/
def hashToken (token : String) : String :=
  Sha256.hexEncode (Sha256.sum256 (bytesOf token))

def minPasswordLength : Nat := 12

def commonPasswords : List String :=
  ["password", "passphrase", "qwertyuiop", "asdfghjkl", "zxcvbnm",
    "123456789012", "letmein", "administrator", "changeme", "xoxproxy",
    "proxyadmin", "secret"]

section Programs

variable [Build] [PasswordHashing]

/-- `ValidatePasswordPolicy`. -/
def validatePasswordPolicy (password username : String) :
    Option GoError :=
  if password.length < minPasswordLength then
    some (.wrap "" errWeakPassword (": must be at least " ++
      toString minPasswordLength ++ " characters"))
  else if commonPasswords.any (contains (toLower password)) then
    some (.wrap "" errWeakPassword
      ": this password contains a commonly guessed word")
  else if username ≠ "" ∧ 3 ≤ (toLower username).utf8ByteSize ∧
      contains (toLower password) (toLower username) then
    some (.wrap "" errWeakPassword ": must not contain the username")
  else none

/-- `scanAdmin`. -/
def scanAdmin (row : AccountRow) : Except GoError AdminAccount := do
  let lockedUntil ← parseNullTime row.lockedUntil
  let createdAt ← parseTime row.createdAt
  let updatedAt ← parseTime row.updatedAt
  pure {
    id := row.id
    username := row.username
    passwordHash := row.passwordHash
    failedAttempts := row.failedAttempts
    lockedUntil := lockedUntil
    createdAt := createdAt
    updatedAt := updatedAt }

/-- `scanSession`. -/
def scanSession (row : SessionRow) : Except GoError AdminSession := do
  let createdAt ← parseTime row.createdAt
  let expiresAt ← parseTime row.expiresAt
  let lastSeenAt ← parseTime row.lastSeenAt
  pure {
    id := row.id
    accountID := row.accountID
    tokenHash := row.tokenHash
    csrfToken := row.csrfToken
    createdAt := createdAt
    expiresAt := expiresAt
    lastSeenAt := lastSeenAt
    sourceIP := row.sourceIP
    userAgent := row.userAgent }

/-- What becomes of the row that a lookup has found. -/
def scanned {Row Record : Type} (scan : Row → Except GoError Record) :
    Except GoError (Option Row) → Except GoError Record
  | .error error => .error error
  | .ok none => .error errNotFound
  | .ok (some row) => scan row

omit [Build] [PasswordHashing] in
theorem scanned_ok {Row Record : Type}
    {scan : Row → Except GoError Record}
    {answer : Except GoError (Option Row)} {record : Record}
    (outcome : scanned scan answer = .ok record) :
    ∃ row, answer = .ok (some row) ∧ scan row = .ok record := by
  rcases answer with error | _ | row
  · cases outcome
  · cases outcome
  · exact ⟨row, rfl, outcome⟩

/-- `assertUpdated`. -/
def assertUpdated : Except GoError Nat → Option GoError
  | .error error => some error
  | .ok 0 => some errNotFound
  | .ok (_ + 1) => none

def getAccountByUsername (username : String) :
    AuthProgram (Except GoError AdminAccount) := do
  let found ← ask (.selectAccountByUsername username)
  pure (scanned scanAdmin found)

def getAccountByID (id : Int) :
    AuthProgram (Except GoError AdminAccount) := do
  let found ← ask (.selectAccountByID id)
  pure (scanned scanAdmin found)

def getSessionByTokenHash (tokenHash : String) :
    AuthProgram (Except GoError AdminSession) := do
  let found ← ask (.selectSession tokenHash)
  pure (scanned scanSession found)

def updatePassword (id : Int) (passwordHash : String) (now : Time) :
    AuthProgram (Option GoError) := do
  let affected ← ask (.updatePassword id passwordHash now)
  pure (assertUpdated affected)

def recordLoginFailure
    (id failedAttempts : Int) (lockedUntil : Option Time) (now : Time) :
    AuthProgram (Option GoError) := do
  let affected ←
    ask (.recordLoginFailure id failedAttempts lockedUntil now)
  pure (assertUpdated affected)

def resetFailures (id : Int) (now : Time) :
    AuthProgram (Option GoError) := do
  let affected ← ask (.resetFailures id now)
  pure (assertUpdated affected)

/-- `CreateAccount` of the repository; the clock is read twice. -/
def insertAccount (username passwordHash : String) :
    AuthProgram (Except GoError AdminAccount) := do
  let now ← ask .now
  let createdAt ← ask .now
  match ← ask (.insertAccount username passwordHash createdAt now) with
  | .error error =>
      if contains error.text "UNIQUE" then
        pure (.error (.wrap "" errConflict
          (": admin " ++ quote username ++ " already exists")))
      else pure (.error error)
  | .ok id =>
      pure (.ok {
        id := id
        username := username
        passwordHash := passwordHash
        failedAttempts := 0
        lockedUntil := none
        createdAt := createdAt
        updatedAt := createdAt })

/-- `HashPassword`. -/
def hashNewPassword (password : String) :
    AuthProgram (Except GoError String) := do
  match ← ask .newSalt with
  | .error error => pure (.error (error.wrap "auth: salt: " ""))
  | .ok salt => pure (.ok (hashPassword salt password))

/-- `NewToken`. -/
def newToken : AuthProgram (Except GoError String) := do
  match ← ask .newToken with
  | .error error => pure (.error (error.wrap "auth: token: " ""))
  | .ok token => pure (.ok token)

/-! ## The operations of the service -/

/-- `auditLogin`; its failure is ignored. -/
def auditLogin (input : LoginInput) (result detail : String) :
    AuthProgram Unit := do
  let _ ← ask .now
  let _ ← ask (.recordAudit {
    actor := input.username
    action := "admin.login"
    target := input.username
    requestID := input.requestID
    sourceIP := input.sourceIP
    userAgent := input.userAgent
    result := result
    detail := detail })
  pure ()

variable (options : AuthOptions)

/-- The lock that a failed attempt leaves. -/
def lockAfter (attempts : Int) (now : Time) : Option Time :=
  if options.maxFailures ≤ attempts then some (now + options.lockout)
  else none

/-- The end of a failed login; that the failure could not be written is
logged and ignored. -/
def failLogin
    (input : LoginInput) (now : Time) (reason : String)
    (account : Option AdminAccount) :
    AuthProgram (Except GoError LoginResult) := do
  ask (.ipFailure input.sourceIP now)
  match account with
  | none => pure ()
  | some account => do
      let attempts := account.failedAttempts + 1
      let _ ← recordLoginFailure account.id attempts
        (lockAfter options attempts now) now
      pure ()
  auditLogin input "failure" reason
  pure (.error errInvalidCredentials)

/-- The session that a login mints. -/
def mintedSession
    (input : LoginInput) (now : Time) (account : AdminAccount)
    (id token csrf : String) : AdminSession where
  id := id
  accountID := account.id
  tokenHash := hashToken token
  csrfToken := csrf
  createdAt := now
  expiresAt := now + options.sessionTTL
  lastSeenAt := now
  sourceIP := input.sourceIP
  userAgent := input.userAgent

/-- The part of `Login` behind the creation of the session. -/
def finishLogin
    (input : LoginInput) (now : Time) (account : AdminAccount)
    (token csrf : String) : AuthProgram (Except GoError LoginResult) := do
  let _ ← ask (.deleteExpiredSessions now)
  auditLogin input "success" ""
  pure (.ok {
    token := token
    csrfToken := csrf
    account := account
    expiresAt := now + options.sessionTTL })

/-- The part of `Login` behind the verified password. -/
def openSession
    (input : LoginInput) (now : Time) (account : AdminAccount) :
    AuthProgram (Except GoError LoginResult) := do
  ask (.ipSuccess input.sourceIP)
  match ← resetFailures account.id now with
  | some error => pure (.error (error.wrap "auth: reset failures: " ""))
  | none => do
      match ← newToken with
      | .error error => pure (.error error)
      | .ok token => do
          match ← newToken with
          | .error error => pure (.error error)
          | .ok csrf => do
              let id ← ask .newSessionID
              match ← ask (.insertSession
                  (mintedSession options input now account id token
                    csrf).row) with
              | some error =>
                  pure (.error (error.wrap "auth: create session: " ""))
              | none =>
                  finishLogin options input now account token csrf

/-- The verification of the password. -/
def checkPassword
    (input : LoginInput) (now : Time) (account : AdminAccount) :
    AuthProgram (Except GoError LoginResult) :=
  if verifyPassword input.password account.passwordHash then
    openSession options input now account
  else failLogin options input now "bad password" (some account)

/-- `Login`.  The verification against the dummy hash, which leaves nothing
behind, is left out. -/
def login (input : LoginInput) :
    AuthProgram (Except GoError LoginResult) := do
  let now ← ask .now
  if ← ask (.ipBlocked input.sourceIP now) then
    auditLogin input "failure" "ip blocked"
    pure (.error errIPBlocked)
  else do
    match ← getAccountByUsername input.username with
    | .error error =>
        if error.is .storeNotFound then
          failLogin options input now "unknown account" none
        else pure (.error (error.wrap "auth: lookup: " ""))
    | .ok account =>
        match account.lockedUntil with
        | none => checkPassword options input now account
        | some lock =>
            if now < lock then
              failLogin options input now "account locked" (some account)
            else do
              match ← resetFailures account.id now with
              | some error =>
                  pure (.error (error.wrap "auth: reset lockout: " ""))
              | none =>
                  checkPassword options input now
                    { account with
                      failedAttempts := 0, lockedUntil := none }

/-- Whether a session has expired or been idle for too long. -/
def sessionOver (session : AdminSession) (now : Time) : Bool :=
  decide (session.expiresAt < now) ||
    decide (session.lastSeenAt + options.idleTimeout < now)

/-- The end of a validation that finds the session invalid. -/
def dropSession (id : String) :
    AuthProgram (Except GoError (AdminSession × AdminAccount)) := do
  let _ ← ask (.deleteSession id)
  pure (.error errSessionInvalid)

/-- The part of `ValidateSession` behind the account. -/
def acceptSession
    (session : AdminSession) (account : AdminAccount) (now : Time) :
    AuthProgram (Except GoError (AdminSession × AdminAccount)) := do
  let _ ← ask (.touchSession session.id now)
  pure (.ok (session, account))

/-- `ValidateSession`; a touch that fails is logged and ignored. -/
def validateSession (token : String) :
    AuthProgram (Except GoError (AdminSession × AdminAccount)) := do
  let now ← ask .now
  match ← getSessionByTokenHash (hashToken token) with
  | .error error =>
      if error.is .storeNotFound then pure (.error errSessionInvalid)
      else pure (.error (error.wrap "auth: session lookup: " ""))
  | .ok session =>
      if sessionOver options session now then dropSession session.id
      else do
        match ← getAccountByID session.accountID with
        | .error error =>
            if error.is .storeNotFound then dropSession session.id
            else pure (.error (error.wrap "auth: account lookup: " ""))
        | .ok account => acceptSession session account now

/-- An audit entry of the other methods. -/
def audit (entry : AuditEntry) : AuthProgram Unit := do
  let _ ← ask (.recordAudit entry)
  pure ()

/-- `Logout`. -/
def logout (token requestID sourceIP : String) :
    AuthProgram (Option GoError) := do
  match ← getSessionByTokenHash (hashToken token) with
  | .error error =>
      if error.is .storeNotFound then pure none
      else pure (some (error.wrap "auth: logout lookup: " ""))
  | .ok session => do
      match ← ask (.deleteSession session.id) with
      | some error => pure (some (error.wrap "auth: logout: " ""))
      | none => do
          audit {
            actor := "admin"
            action := "admin.logout"
            target := ""
            requestID := requestID
            sourceIP := sourceIP
            result := "success"
            detail := "" }
          pure none

/-- The part of `ChangePassword` behind the current password. -/
def replacePassword
    (session : AdminSession) (account : AdminAccount)
    (newPassword requestID sourceIP : String) :
    AuthProgram (Except GoError AdminSession) := do
  match validatePasswordPolicy newPassword account.username with
  | some error => pure (.error error)
  | none => do
      match ← hashNewPassword newPassword with
      | .error error => pure (.error error)
      | .ok hash => do
          let now ← ask .now
          match ← updatePassword account.id hash now with
          | some error =>
              pure (.error (error.wrap "auth: update password: " ""))
          | none => do
              match ← ask (.deleteSessionsForAccount account.id
                  session.id) with
              | some error =>
                  pure (.error (error.wrap "auth: revoke sessions: " ""))
              | none => do
                  audit {
                    actor := account.username
                    action := "admin.password_change"
                    target := ""
                    requestID := requestID
                    sourceIP := sourceIP
                    result := "success"
                    detail := "other sessions revoked" }
                  pure (.ok session)

/-- `ChangePassword`. -/
def changePassword
    (token currentPassword newPassword requestID sourceIP : String) :
    AuthProgram (Except GoError AdminSession) := do
  match ← validateSession options token with
  | .error error => pure (.error error)
  | .ok (session, account) =>
      if verifyPassword currentPassword account.passwordHash then
        replacePassword session account newPassword requestID sourceIP
      else do
        audit {
          actor := account.username
          action := "admin.password_change"
          target := ""
          requestID := requestID
          sourceIP := sourceIP
          result := "failure"
          detail := "current password incorrect" }
        pure (.error errInvalidCredentials)

/-- `ResetPassword`. -/
def resetPassword (username newPassword actor requestID : String) :
    AuthProgram (Option GoError) := do
  match ← getAccountByUsername username with
  | .error error => pure (some error)
  | .ok account =>
      match validatePasswordPolicy newPassword username with
      | some error => pure (some error)
      | none => do
          match ← hashNewPassword newPassword with
          | .error error => pure (some error)
          | .ok hash => do
              let now ← ask .now
              match ← updatePassword account.id hash now with
              | some error => pure (some error)
              | none => do
                  match ← ask (.deleteSessionsForAccount account.id "") with
                  | some error => pure (some error)
                  | none => do
                      audit {
                        actor := actor
                        action := "admin.password_reset"
                        target := username
                        requestID := requestID
                        result := "success"
                        detail := "all sessions revoked" }
                      pure none

/-- `CreateAccount`. -/
def createAccount (username password actor requestID : String) :
    AuthProgram (Except GoError AdminAccount) := do
  match validatePasswordPolicy password username with
  | some error => pure (.error error)
  | none => do
      match ← hashNewPassword password with
      | .error error => pure (.error error)
      | .ok hash => do
          match ← insertAccount username hash with
          | .error error =>
              if error.is .storeConflict then
                pure (.error ⟨errUsernameTaken.text ++ ": " ++ error.text,
                  errUsernameTaken.wraps ++ error.wraps⟩)
              else
                pure (.error (error.wrap "auth: create account: " ""))
          | .ok account => do
              audit {
                actor := actor
                action := "admin.account_created"
                target := username
                requestID := requestID
                result := "success"
                detail := "" }
              pure (.ok account)

/-- What a call of the service asks for. -/
inductive AuthRequest where
  | login (input : LoginInput)
  | validateSession (token : String)
  | logout (token requestID sourceIP : String)
  | changePassword
      (token currentPassword newPassword requestID sourceIP : String)
  | resetPassword (username newPassword actor requestID : String)
  | createAccount (username password actor requestID : String)
  deriving DecidableEq

/-- A call, told from the others by its number. -/
structure AuthCall where
  number : Nat
  request : AuthRequest
  deriving DecidableEq

/-- What the calls return. -/
inductive AuthResult where
  | login (outcome : Except GoError LoginResult)
  | validated (outcome : Except GoError (AdminSession × AdminAccount))
  | changed (outcome : Except GoError AdminSession)
  | created (outcome : Except GoError AdminAccount)
  | done (outcome : Option GoError)

def AuthCall.program (call : AuthCall) : AuthProgram AuthResult :=
  match call.request with
  | .login input => .login <$> Auth.login options input
  | .validateSession token =>
      .validated <$> Auth.validateSession options token
  | .logout token requestID sourceIP =>
      .done <$> Auth.logout token requestID sourceIP
  | .changePassword token current new requestID sourceIP =>
      .changed <$>
        Auth.changePassword options token current new requestID sourceIP
  | .resetPassword username new actor requestID =>
      .done <$> Auth.resetPassword username new actor requestID
  | .createAccount username password actor requestID =>
      .created <$> Auth.createAccount username password actor requestID

/-- The service: calls share the host; what has been performed is written
down.  A restart of the process clears the limiter. -/
def authMachine :
    Machine AuthOp AuthOp.Answer AuthResult AuthCall AuthHost AuthChoice
      Unit where
  program := fun call => call.program options.applyDefaults
  handle := fun _ op choice host =>
    host.handle options.applyDefaults op choice
  react := fun _ host => { host with limiter := {} }

abbrev AuthPool :=
  Pool AuthOp AuthOp.Answer AuthResult AuthCall
    (Recorded AuthOp AuthOp.Answer AuthCall AuthHost)

/-- A database without accounts and sessions. -/
def AuthPool.initial (start : Time) : AuthPool :=
  .idle { world := { clock := start } }

/-- The pool after the moves; calls may be cut off. -/
def authRun (start : Time)
    (moves : List (Action AuthRequest AuthChoice Unit)) : AuthPool :=
  Runs.run (authMachine options).recorded.step
    (Machine.numbered AuthCall.mk 0 moves) (AuthPool.initial start)

end Programs

end Xoxproxy.Auth
