import Xoxproxy.Auth.Sessions
import Xoxproxy.Config.Boot

/-!
# Session cookies

The server that `runServer` builds from a configuration, and the answers
of `internal/api/auth_handlers.go` behind the session middleware.
-/

namespace Xoxproxy.Api

open EffectPrograms Auth Xoxproxy.Configuration

/-- `api.Options`. -/
structure Options where
  secureCookies : Bool := false

/-- `api.Server`, as far as the cookies depend on it. -/
structure Server where
  options : Options := {}

/-- `NewServer`.  Its literal has no entry for the options, which keep
their zero value. -/
def newServer (_opts : Options) : Server := {}

/-- The server of `runServer`. -/
def serverOf (config : Config) : Server :=
  newServer {
    secureCookies :=
      "https://".toList.isPrefixOf config.server.publicBaseURL.toList }

/-- `http.Cookie`; the same-site mode is always lax. -/
structure Cookie where
  name : String
  value : String
  path : String
  expires : Option Time := none
  maxAge : Int := 0
  httpOnly : Bool
  secure : Bool
  deriving DecidableEq

inductive ReplyBody where
  | error (code message : String)
  | session (username csrfToken : String) (expiresAt : Time)
  | ok
  deriving DecidableEq

structure Reply where
  status : Nat
  retryAfter : Option String := none
  cookies : List Cookie := []
  body : ReplyBody
  deriving DecidableEq

/-- `writeError`. -/
def writeError (status : Nat) (code message : String) : Reply where
  status := status
  body := .error code message

/-- Why `readJSON` refuses a request. -/
inductive BodyError where
  | contentType
  | tooLarge
  | invalid
  deriving DecidableEq

def BodyError.reply : BodyError → Reply
  | .contentType =>
      writeError 415 "UNSUPPORTED_MEDIA_TYPE"
        "content type must be application/json"
  | .tooLarge =>
      writeError 413 "BODY_TOO_LARGE" "request body exceeds limit"
  | .invalid =>
      writeError 400 "INVALID_JSON"
        "request body is not valid JSON for this endpoint"

def sessionCookie : String := "xox_session"

namespace Server

variable (server : Server)

/-- `setSessionCookie`. -/
def setSessionCookie (token : String) (expires : Time) : Cookie where
  name := sessionCookie
  value := token
  path := "/"
  expires := some expires
  httpOnly := true
  secure := server.options.secureCookies

/-- `clearSessionCookie`. -/
def clearSessionCookie : Cookie where
  name := sessionCookie
  value := ""
  path := "/"
  maxAge := -1
  httpOnly := true
  secure := server.options.secureCookies

end Server

/-- What the handlers read of a request: the session cookie, the CSRF
header and who sent it. -/
structure Sender where
  cookie : Option String
  csrfToken : String
  requestID : String
  sourceIP : String
  userAgent : String
  deriving DecidableEq

def maxUsernameLen : Nat := 64

def maxPasswordLen : Nat := 256

/-- A length that `handleLogin` does not look at further. -/
def badLength (text : String) (longest : Nat) : Bool :=
  (bytesOf text).length = 0 || (bytesOf text).length > longest

def invalidCredentials : Reply :=
  writeError 401 "INVALID_CREDENTIALS" "invalid credentials"

section Handlers

variable [Build] [PasswordHashing] (options : AuthOptions) (server : Server)

/-- What a login that was refused is answered with. -/
def loginRefusal (error : GoError) : Reply :=
  if error.is .ipBlocked then
    { writeError 429 "TOO_MANY_ATTEMPTS"
        "too many attempts, try again later" with
      retryAfter := some "60" }
  else if error.is .invalidCredentials then invalidCredentials
  else writeError 500 "INTERNAL" "internal error"

/-- `handleLogin`, for what `readJSON` makes of the body: the username and
the password. -/
def handleLogin (sender : Sender)
    (body : Except BodyError (String × String)) : AuthProgram Reply :=
  match body with
  | .error error => pure error.reply
  | .ok (username, password) =>
      if badLength username maxUsernameLen ||
          badLength password maxPasswordLen then
        pure invalidCredentials
      else do
        match ← login options {
            username := username
            password := password
            sourceIP := sender.sourceIP
            userAgent := sender.userAgent
            requestID := sender.requestID } with
        | .error error => pure (loginRefusal error)
        | .ok result =>
            pure {
              status := 200
              cookies :=
                [server.setSessionCookie result.token result.expiresAt]
              body := .session result.account.username result.csrfToken
                result.expiresAt }

/-- The session of the request is deleted, if it has one; a failure is
logged. -/
def endSession (sender : Sender) : AuthProgram Unit :=
  match sender.cookie with
  | none => pure ()
  | some token =>
      if token = "" then pure ()
      else do
        let _ ← logout token sender.requestID sender.sourceIP
        pure ()

/-- `handleLogout`. -/
def handleLogout (sender : Sender) : AuthProgram Reply := do
  endSession sender
  pure {
    status := 200
    cookies := [server.clearSessionCookie]
    body := .ok }

/-- `withSession`, for a method other than GET and HEAD. -/
def withSession (sender : Sender) (next : AuthProgram Reply) :
    AuthProgram Reply :=
  match sender.cookie with
  | none =>
      pure (writeError 401 "UNAUTHENTICATED" "authentication required")
  | some token =>
      if token = "" then
        pure (writeError 401 "UNAUTHENTICATED" "authentication required")
      else do
        match ← validateSession options token with
        | .error _ =>
            pure (writeError 401 "UNAUTHENTICATED"
              "session invalid or expired")
        | .ok (session, _) =>
            if sender.csrfToken = "" ∨
                sender.csrfToken ≠ session.csrfToken then
              pure (writeError 403 "CSRF_TOKEN_INVALID"
                "missing or invalid CSRF token")
            else next

/-- A request to one of the two routes that write the session cookie. -/
inductive SessionRequest where
  | login (sender : Sender) (body : Except BodyError (String × String))
  | logout (sender : Sender)

structure SessionCall where
  number : Nat
  request : SessionRequest

def SessionCall.program (call : SessionCall) : AuthProgram Reply :=
  match call.request with
  | .login sender body => handleLogin options server sender body
  | .logout sender =>
      withSession options sender (handleLogout server sender)

/-- The handlers over the service of a process. -/
def sessionMachine :
    Machine AuthOp AuthOp.Answer Reply SessionCall AuthHost AuthChoice
      Unit where
  program := fun call => call.program options.applyDefaults server
  handle := fun _ op choice host =>
    host.handle options.applyDefaults op choice
  react := fun _ host => { host with limiter := {} }

abbrev SessionPool :=
  Pool AuthOp AuthOp.Answer Reply SessionCall AuthHost

/-- The pool after the moves, from any database; `runServer` passes no
options to the service. -/
def sessionRun (config : Config) (host : AuthHost)
    (moves : List (Action SessionRequest AuthChoice Unit)) : SessionPool :=
  Runs.run (sessionMachine {} (serverOf config)).step
    (Machine.numbered SessionCall.mk 0 moves) (.idle host)

end Handlers

/-! ## The property -/

/-- Every session cookie that was answered carries the attribute. -/
def SecureCookies (pool : SessionPool) : Prop :=
  ∀ thread ∈ pool.threads, ∀ reply, thread.rest = .ret reply →
    ∀ cookie ∈ reply.cookies,
      cookie.name = sessionCookie → cookie.secure = true

/-- No login or logout was answered with success. -/
def NoneSucceeded (pool : SessionPool) : Prop :=
  ∀ thread ∈ pool.threads, ∀ reply, thread.rest = .ret reply →
    reply.status ≠ 200

/-- A successful answer writes a session cookie, and no cookie that is
written is secure. -/
structure Insecure (reply : Reply) : Prop where
  written : reply.status = 200 →
    ∃ cookie ∈ reply.cookies, cookie.name = sessionCookie
  insecure : ∀ cookie ∈ reply.cookies, cookie.secure = false
  successful : reply.status ≠ 200 → reply.cookies = []

theorem insecure_error {status : Nat} (code message : String)
    (failed : status ≠ 200) :
    Insecure (writeError status code message) where
  written := fun same => absurd same failed
  insecure := fun _ member => by cases member
  successful := fun _ => rfl

theorem insecure_refusal (error : GoError) :
    Insecure (loginRefusal error) := by
  unfold loginRefusal
  split
  · exact ⟨fun same => (by cases same), fun _ member => (by cases member),
      fun _ => rfl⟩
  · split
    · exact insecure_error _ _ (by decide)
    · exact insecure_error _ _ (by decide)

section Runs

variable [Build] {options : AuthOptions}

theorem handleLogout_insecure (config : Config) (sender : Sender) :
    (handleLogout (serverOf config) sender).Yields Insecure := by
  apply Program.yields_bind
  intro _
  refine ⟨fun _ => ⟨_, List.mem_singleton_self _, rfl⟩, ?_,
    fun failed => absurd rfl failed⟩
  intro cookie member
  rw [List.mem_singleton.mp member]
  rfl

theorem withSession_insecure (sender : Sender)
    {next : AuthProgram Reply} (insecure : next.Yields Insecure) :
    (withSession options sender next).Yields Insecure := by
  unfold withSession
  cases sender.cookie with
  | none => exact insecure_error _ _ (by decide)
  | some token =>
      dsimp only
      split
      · exact insecure_error _ _ (by decide)
      · apply Program.yields_bind
        intro outcome
        cases outcome with
        | error error => exact insecure_error _ _ (by decide)
        | ok found =>
            dsimp only
            split
            · exact insecure_error _ _ (by decide)
            · exact insecure

variable [PasswordHashing]

theorem handleLogin_insecure (config : Config) (sender : Sender)
    (body : Except BodyError (String × String)) :
    (handleLogin options (serverOf config) sender body).Yields
      Insecure := by
  unfold handleLogin
  cases body with
  | error error =>
      cases error <;> exact insecure_error _ _ (by decide)
  | ok body =>
      dsimp only
      split
      · exact insecure_error _ _ (by decide)
      · apply Program.yields_bind
        intro outcome
        cases outcome with
        | error error => exact insecure_refusal error
        | ok result =>
            refine ⟨fun _ => ⟨_, List.mem_singleton_self _, rfl⟩, ?_,
              fun failed => absurd rfl failed⟩
            intro cookie member
            rw [List.mem_singleton.mp member]
            rfl

/-- In every run, whatever the configuration is, the session cookies are
secure only where none is written. -/
theorem secureCookies_iff (config : Config) (host : AuthHost)
    (moves : List (Action SessionRequest AuthChoice Unit)) :
    SecureCookies (sessionRun config host moves) ↔
      NoneSucceeded (sessionRun config host moves) := by
  have insecure : ∀ thread ∈ (sessionRun config host moves).threads,
      thread.rest.Yields Insecure := by
    change Machine.AllYield (fun _ => Insecure) _
    apply Machine.allYield_run
    rintro ⟨number, request⟩
    cases request with
    | login sender body => exact handleLogin_insecure config sender body
    | logout sender =>
        exact withSession_insecure sender
          (handleLogout_insecure config sender)
  constructor
  · intro secure thread member reply returned successful
    have shape := insecure thread member
    rw [returned] at shape
    obtain ⟨cookie, listed, named⟩ := shape.written successful
    have flag := secure thread member reply returned cookie listed named
    rw [shape.insecure cookie listed] at flag
    cases flag
  · intro none thread member reply returned cookie listed _
    have shape := insecure thread member
    rw [returned] at shape
    rw [shape.successful (none thread member reply returned)] at listed
    cases listed

end Runs

/-- The built-in configuration behind a TLS front end. -/
def httpsConfig : Config :=
  { Config.defaults with
    server := {
      listen := "127.0.0.1:8080"
      publicBaseURL := "https://proxy.example.com" } }

/-- The database once an account was created. -/
def accountHost : AuthHost :=
  (@authRun Build.dev .plain {} 0
    (alone (.createAccount "admin" "correct horse" "cli" "") 0 0
      ["salt", "", "", "", ""])).world.world

/-- A login with the right password. -/
def httpsLogin : List (Action SessionRequest AuthChoice Unit) :=
  .start (.login ⟨none, "", "", "", ""⟩ (.ok ("admin", "correct horse"))) ::
    ["", "", "", "", "", "token", "csrf", sampleID, "", "", "", ""].mapIdx
      fun second text => .advance 0 {
        time := (60 + second) * 1000000000
        text := text }

/-- The cookies of the answer at a place of the pool. -/
def cookiesAt (pool : SessionPool) (index : Nat) : List Cookie :=
  match pool.threads[index]? with
  | some ⟨_, _, .ret reply⟩ => reply.cookies
  | _ => []

theorem cookiesAt_spec {pool : SessionPool} {index : Nat} {cookie : Cookie}
    (listed : cookie ∈ cookiesAt pool index) :
    ∃ thread ∈ pool.threads, ∃ reply, thread.rest = .ret reply ∧
      cookie ∈ reply.cookies := by
  unfold cookiesAt at listed
  split at listed
  · rename_i found
    exact ⟨_, List.mem_of_getElem? found, _, rfl, listed⟩
  · cases listed

/-- The configuration is accepted, its origin is HTTPS, and the cookie of
the login is not secure. -/
theorem https_login_cookie_insecure :
    @Config.validate Build.dev .plain httpsConfig = none ∧
      (∃ url, ConfigReaders.plain.parseURL
        httpsConfig.server.publicBaseURL = .ok url ∧
          url.scheme = "https") ∧
      ¬SecureCookies (@sessionRun Build.dev .plain httpsConfig accountHost
        httpsLogin) := by
  refine ⟨by decide +kernel,
    ⟨⟨"https", "proxy.example.com", ""⟩, by decide +kernel, rfl⟩, ?_⟩
  intro secure
  have written : ∃ cookie ∈ cookiesAt
      (@sessionRun Build.dev .plain httpsConfig accountHost httpsLogin) 0,
      cookie.name = sessionCookie ∧ cookie.secure = false := by
    decide +kernel
  obtain ⟨cookie, listed, named, flag⟩ := written
  obtain ⟨thread, member, reply, returned, answered⟩ :=
    cookiesAt_spec listed
  have set := secure thread member reply returned cookie answered named
  rw [flag] at set
  cases set

end Xoxproxy.Api
