import Mathlib.Data.List.Dedup
import Xoxproxy.Api.Cookies
import Xoxproxy.Library.RoutePatterns
import Xoxproxy.Users.Service

/-!
# The routes of the API

The patterns that `Server.Handler` and `mountDashboard` register, the
client-side fallback of `spaRouter` in front of them, and the guards that
stand between a route and its handler.
-/

namespace Xoxproxy.Api

open RoutePatterns EffectPrograms Auth

def separator : UInt8 := 47

def isWildcard (element : List Char) : Bool :=
  element.head? = some '\x7b' && element.getLast? = some '\x7d'

/-- One element of a pattern's path. -/
def readPiece (element : List Char) : Piece Bytes :=
  if isWildcard element then .wildcard
  else .literal (bytesOf (String.ofList element))

/-- A pattern of `http.ServeMux`.  One that is registered for GET serves HEAD
as well. -/
def readPattern (text : String) : Pattern String Bytes :=
  let method := String.ofList (text.toList.takeWhile (· ≠ ' '))
  let elements :=
    ((text.toList.dropWhile (· ≠ ' ')).drop 2).splitOn '/'
  let last := elements.getLast?.getD []
  let ending :=
    if last = [] then .subtree
    else if last = "\x7b$\x7d".toList then .slash
    else .exact
  {
    methods := if method = "GET" then ["GET", "HEAD"] else [method]
    pieces :=
      (if ending = .exact then elements else elements.dropLast).map
        readPiece
    ending := ending }

def hexDigit (byte : UInt8) : Option UInt8 :=
  if 48 ≤ byte ∧ byte ≤ 57 then some (byte - 48)
  else if 65 ≤ byte ∧ byte ≤ 70 then some (byte - 55)
  else if 97 ≤ byte ∧ byte ≤ 102 then some (byte - 87)
  else none

/-- `url.PathUnescape`; what is no escape stays as it is. -/
def unescape : Bytes → Bytes
  | [] => []
  | [byte] => [byte]
  | [byte, next] => [byte, next]
  | byte :: high :: low :: rest =>
      if byte = 37 then
        match hexDigit high, hexDigit low with
        | some first, some second =>
            (16 * first + second) :: unescape rest
        | _, _ => byte :: unescape (high :: low :: rest)
      else byte :: unescape (high :: low :: rest)

/-- The elements of a path that `path.Clean` keeps. -/
def cleanElements (elements : List Bytes) : List Bytes :=
  elements.foldl
    (fun kept element =>
      if element = [] ∨ element = bytesOf "." then kept
      else if element = bytesOf ".." then kept.dropLast
      else kept ++ [element]) []

/-- `cleanPath`: an absolute path without empty and dot elements; a slash
at the end stays. -/
def cleanPath (path : Bytes) : Path Bytes :=
  match cleanElements (path.splitOn separator) with
  | [] => ⟨[], true⟩
  | element :: rest =>
      ⟨element :: rest, path.getLast? = some separator⟩

/-- The path as it was sent. -/
def sentPath (path : Bytes) : Path Bytes :=
  let elements := (path.splitOn separator).drop 1
  if elements.getLast? = some [] then ⟨elements.dropLast, true⟩
  else ⟨elements, false⟩

def pathText (path : Path Bytes) : Bytes :=
  path.segments.flatMap (fun segment => separator :: segment) ++
    if path.slash then [separator] else []

/-- What a route leads to: a method of the server, or the file server of
the dashboard's assets. -/
inductive Handler where
  | handleLive
  | handleReady
  | handleLogin
  | handleLogout
  | handleSessionInfo
  | handlePasswordChange
  | handleAuditList
  | handleUserList
  | handleUserCreate
  | handleUserGet
  | handleUserUpdate
  | handleUserDelete
  | handleUserRotate
  | handleUserDisable
  | handleUserEnable
  | handleUserResetQuota
  | handleConfigVersionList
  | handleEngineStatus
  | handleDeployTrigger
  | handleAnalyticsTraffic
  | handleAnalyticsUser
  | handleAnalyticsLive
  | handleAnalyticsDestinations
  | handleAnalyticsBlocked
  | handleAnalyticsStream
  | handleSystemStatus
  | handleSystemResources
  | handleEngineLogTail
  | serveShell
  | assets
  deriving DecidableEq, Repr

/-- The handlers that call a mutation of a service. -/
def Handler.mutates : Handler → Bool
  | .handleLogin | .handleLogout | .handlePasswordChange
  | .handleUserCreate | .handleUserUpdate | .handleUserDelete
  | .handleUserRotate | .handleUserDisable | .handleUserEnable
  | .handleUserResetQuota | .handleDeployTrigger => true
  | _ => false

/-- The handlers that answer without a session: the health probes, the
login and the static files of the dashboard. -/
def Handler.isPublic : Handler → Bool
  | .handleLive | .handleReady | .handleLogin | .serveShell
  | .assets => true
  | _ => false

/-- A service that may be absent. -/
inductive Dependency where
  | analytics
  | system
  deriving DecidableEq, Repr

/-- A handler and what it is wrapped in: `withSession`, and
`requireAnalytics` or `requireSystem` inside it. -/
structure Endpoint where
  session : Bool
  requires : Option Dependency := none
  handler : Handler
  deriving DecidableEq, Repr

/-- A handler that is registered as it is. -/
def plain (handler : Handler) : Endpoint where
  session := false
  handler := handler

/-- A handler behind `withSession`. -/
def guarded (handler : Handler) (requires : Option Dependency := none) :
    Endpoint where
  session := true
  requires := requires
  handler := handler

/-- What `Handler` and `mountDashboard` register, in their order. -/
def registrations : List (String × Endpoint) := [
  ("GET /health/live", plain .handleLive),
  ("GET /health/ready", plain .handleReady),
  ("POST /api/v1/auth/login", plain .handleLogin),
  ("POST /api/v1/auth/logout", guarded .handleLogout),
  ("GET /api/v1/auth/session", guarded .handleSessionInfo),
  ("POST /api/v1/auth/password", guarded .handlePasswordChange),
  ("GET /api/v1/audit-logs", guarded .handleAuditList),
  ("GET /api/v1/users", guarded .handleUserList),
  ("POST /api/v1/users", guarded .handleUserCreate),
  ("GET /api/v1/users/\x7bid\x7d", guarded .handleUserGet),
  ("PATCH /api/v1/users/\x7bid\x7d", guarded .handleUserUpdate),
  ("DELETE /api/v1/users/\x7bid\x7d", guarded .handleUserDelete),
  ("POST /api/v1/users/\x7bid\x7d/rotate-credentials",
    guarded .handleUserRotate),
  ("POST /api/v1/users/\x7bid\x7d/disable", guarded .handleUserDisable),
  ("POST /api/v1/users/\x7bid\x7d/enable", guarded .handleUserEnable),
  ("POST /api/v1/users/\x7bid\x7d/reset-quota",
    guarded .handleUserResetQuota),
  ("GET /api/v1/config-versions", guarded .handleConfigVersionList),
  ("GET /api/v1/engine/status", guarded .handleEngineStatus),
  ("POST /api/v1/deploy", guarded .handleDeployTrigger),
  ("GET /api/v1/analytics/traffic",
    guarded .handleAnalyticsTraffic (some .analytics)),
  ("GET /api/v1/analytics/users/\x7bid\x7d",
    guarded .handleAnalyticsUser (some .analytics)),
  ("GET /api/v1/analytics/live",
    guarded .handleAnalyticsLive (some .analytics)),
  ("GET /api/v1/analytics/destinations",
    guarded .handleAnalyticsDestinations (some .analytics)),
  ("GET /api/v1/analytics/blocked",
    guarded .handleAnalyticsBlocked (some .analytics)),
  ("GET /api/v1/analytics/stream",
    guarded .handleAnalyticsStream (some .analytics)),
  ("GET /api/v1/system/status",
    guarded .handleSystemStatus (some .system)),
  ("GET /api/v1/system/resources",
    guarded .handleSystemResources (some .system)),
  ("GET /api/v1/logs/engine", guarded .handleEngineLogTail),
  ("GET /\x7b$\x7d", plain .serveShell),
  ("GET /assets/", plain .assets)]

def routes : List (Pattern String Bytes × Endpoint) :=
  registrations.map fun entry => (readPattern entry.1, entry.2)

/-- What the routes and the guards look at. -/
structure Request where
  method : String
  escapedPath : Bytes
  sender : Sender
  deriving DecidableEq

/-- Where the mux sends a request. -/
inductive Routed where
  | endpoint (endpoint : Endpoint)
  | redirect
  | methodNotAllowed (allow : List String)
  | notFound
  deriving DecidableEq, Repr

def answered : Answer String Bytes Endpoint → Routed
  | .found endpoint => .endpoint endpoint
  | .redirect _ => .redirect
  | .methodNotAllowed allowed =>
      .methodNotAllowed (sortStrings allowed.dedup)
  | .notFound => .notFound

/-- The path that a request is routed by, before its segments are
unescaped; a path is not cleaned for CONNECT. -/
def muxPath (method : String) (escapedPath : Bytes) : Path Bytes :=
  if method = "CONNECT" then sentPath escapedPath
  else cleanPath escapedPath

/-- `ServeMux.ServeHTTP`.  A path that is not clean is sent to the clean
one. -/
def serveMux (method : String) (escapedPath : Bytes) : Routed :=
  let path := muxPath method escapedPath
  if method ≠ "CONNECT" ∧ pathText path ≠ escapedPath then .redirect
  else
    answered (dispatch routes method
      { path with segments := path.segments.map unescape })

/-- A path that the shell does not answer: `/` and what lies below `/api/`,
`/health/` and `/assets/`. -/
def ownedByMux (path : Bytes) : Bool :=
  path = bytesOf "/" || (bytesOf "/api/").isPrefixOf path ||
    (bytesOf "/health/").isPrefixOf path ||
    (bytesOf "/assets/").isPrefixOf path

/-- `spaRouter` around the mux. -/
def spaRouter (request : Request) : Routed :=
  if request.method = "GET" ∧
      ¬ownedByMux (unescape request.escapedPath) = true then
    .endpoint (plain .serveShell)
  else serveMux request.method request.escapedPath

/-- The optional services of the server. -/
structure Wiring where
  analytics : Bool
  system : Bool
  deriving DecidableEq, Repr

/-- What becomes of a request: the routes answer it, a guard refuses it, or
a handler is called, with the session that `withSession` has found. -/
inductive Outcome where
  | unrouted (answer : Routed)
  | refused (reply : Reply)
  | handled (handler : Handler)
      (session : Option (AdminSession × AdminAccount))
  deriving DecidableEq

/-- `requireAnalytics` and `requireSystem`. -/
def requireService (wiring : Wiring) (requires : Option Dependency)
    (next : Outcome) : Outcome :=
  match requires with
  | none => next
  | some .analytics =>
      if wiring.analytics then next
      else .refused (writeError 503 "ANALYTICS_DISABLED"
        "analytics is not running in this deployment")
  | some .system =>
      if wiring.system then next
      else .refused (writeError 503 "SYSTEM_METRICS_DISABLED"
        "system metrics are not available in this deployment")

/-- The methods of which `withSession` asks no CSRF token. -/
def isSafe (method : String) : Bool :=
  method = "GET" || method = "HEAD"

/-- `withSession` behind `ValidateSession`. -/
def Request.checkSession (request : Request)
    (validated : Except GoError (AdminSession × AdminAccount))
    (next : AdminSession × AdminAccount → Outcome) : Outcome :=
  match validated with
  | .error _ =>
      .refused (writeError 401 "UNAUTHENTICATED"
        "session invalid or expired")
  | .ok found =>
      if !isSafe request.method &&
          (request.sender.csrfToken = "" ||
            request.sender.csrfToken ≠ found.1.csrfToken) then
        .refused (writeError 403 "CSRF_TOKEN_INVALID"
          "missing or invalid CSRF token")
      else next found

section Serving

variable [Build] (options : AuthOptions) (wiring : Wiring)

/-- `withSession`. -/
def Request.withSession (request : Request)
    (next : AdminSession × AdminAccount → Outcome) : AuthProgram Outcome :=
  match request.sender.cookie with
  | none =>
      pure (.refused
        (writeError 401 "UNAUTHENTICATED" "authentication required"))
  | some token =>
      if token = "" then
        pure (.refused
          (writeError 401 "UNAUTHENTICATED" "authentication required"))
      else do
        let validated ← validateSession options token
        pure (request.checkSession validated next)

/-- A request behind the rate limiter, up to the call of its handler. -/
def Request.serve (request : Request) : AuthProgram Outcome :=
  match spaRouter request with
  | .endpoint endpoint =>
      if endpoint.session then
        request.withSession options fun found =>
          requireService wiring endpoint.requires
            (.handled endpoint.handler (some found))
      else
        pure (requireService wiring endpoint.requires
          (.handled endpoint.handler none))
  | answer => pure (.unrouted answer)

end Serving

/-! ## The answers of the mux -/

theorem routes_separate : Separate routes := by
  unfold Separate
  decide +kernel

/-- Nothing that is registered for GET changes anything. -/
theorem registered_reading :
    ∀ entry ∈ routes, "GET" ∈ entry.1.methods ∨ "HEAD" ∈ entry.1.methods →
      entry.2.handler.mutates = false := by
  decide +kernel

/-- The path that the patterns are compared with. -/
def routedPath (method : String) (escapedPath : Bytes) : Path Bytes :=
  { muxPath method escapedPath with
    segments := (muxPath method escapedPath).segments.map unescape }

theorem serveMux_eq (method : String) (path : Bytes) :
    serveMux method path = .redirect ∨
      serveMux method path =
        answered (dispatch routes method (routedPath method path)) := by
  rw [serveMux]
  split
  · exact .inl rfl
  · exact .inr rfl

/-- What is not redirected by the mux for one method is clean for all. -/
theorem serveMux_clean {method other : String} {path : Bytes}
    (canonical : method ≠ "CONNECT") (also : other ≠ "CONNECT")
    (stays : serveMux method path ≠ .redirect) :
    serveMux other path =
      answered (dispatch routes other (routedPath method path)) := by
  have clean : ¬(pathText (muxPath method path) ≠ path) := by
    intro altered
    rw [serveMux, if_pos ⟨canonical, altered⟩] at stays
    exact stays rfl
  have same : muxPath other path = muxPath method path := by
    rw [muxPath, muxPath, if_neg canonical, if_neg also]
  rw [serveMux, same, if_neg fun sent => clean sent.2, routedPath]

theorem mem_sortStrings {texts : List String} {text : String} :
    text ∈ sortStrings texts ↔ text ∈ texts :=
  (List.mergeSort_perm _ _).mem_iff

/-- What is known of each answer. -/
inductive Answered (method : String) (path : Path Bytes) : Routed → Prop where
  | endpoint (pattern : Pattern String Bytes) (endpoint : Endpoint)
      (listed : (pattern, endpoint) ∈ routes)
      (serves : pattern.serves path method = true)
      (allowed : method ∈ allowedMethods routes path) :
      Answered method path (.endpoint endpoint)
  | redirect (allowed : method ∈ allowedMethods routes path) :
      Answered method path .redirect
  | methodNotAllowed (others : allowedMethods routes path ≠ [])
      (unserved : method ∉ allowedMethods routes path) :
      Answered method path
        (.methodNotAllowed (sortStrings (allowedMethods routes path).dedup))
  | notFound (none : allowedMethods routes path = []) :
      Answered method path .notFound

theorem answered_dispatch (method : String) (path : Path Bytes) :
    Answered method path (answered (dispatch routes method path)) := by
  have given := dispatched routes method path
  generalize dispatch routes method path = answer at given ⊢
  cases given with
  | found pattern endpoint listed serves =>
      obtain ⟨member, onPath⟩ := Pattern.serves_iff.mp serves
      exact .endpoint pattern endpoint listed serves
        (mem_allowedMethods.mpr ⟨_, listed, member, .inl onPath⟩)
  | redirect pattern endpoint listed unclosed serves =>
      obtain ⟨member, onPath⟩ := Pattern.serves_iff.mp serves
      exact .redirect
        (mem_allowedMethods.mpr ⟨_, listed, member, .inr onPath⟩)
  | methodNotAllowed others unserved =>
      exact .methodNotAllowed others unserved
  | notFound none => exact .notFound none

/-- A request is served or sent on exactly with the allowed methods. -/
theorem Answered.served_iff {method : String} {path : Path Bytes}
    {routed : Routed} (given : Answered method path routed) :
    (routed = .redirect ∨ ∃ endpoint, routed = .endpoint endpoint) ↔
      method ∈ allowedMethods routes path := by
  cases given with
  | endpoint pattern endpoint listed serves allowed =>
      exact iff_of_true (.inr ⟨endpoint, rfl⟩) allowed
  | redirect allowed => exact iff_of_true (.inl rfl) allowed
  | methodNotAllowed others unserved =>
      refine iff_of_false ?_ unserved
      rintro (sent | ⟨endpoint, served⟩)
      · cases sent
      · cases served
  | notFound none =>
      rw [none]
      refine iff_of_false ?_ List.not_mem_nil
      rintro (sent | ⟨endpoint, served⟩)
      · cases sent
      · cases served

/-- How the mux answers requests for a path.  A route that serves a request
is the only one that does, in whatever order the patterns were registered; GET
and HEAD lead to no mutation; a wrong method is answered with the methods that
are served there; and a path is missing for every method or for none. -/
structure WellRouted (method : String) (path : Bytes) : Prop where
  single : ∀ endpoint, serveMux method path = .endpoint endpoint →
    ∀ entry ∈ routes,
      entry.1.serves (routedPath method path) method = true →
        entry.2 = endpoint
  reading : ∀ endpoint, serveMux method path = .endpoint endpoint →
    isSafe method = true → endpoint.handler.mutates = false
  allowed : ∀ allow, method ≠ "CONNECT" →
    serveMux method path = .methodNotAllowed allow →
      allow ≠ [] ∧ ∀ other, other ≠ "CONNECT" →
        (other ∈ allow ↔ serveMux other path = .redirect ∨
          ∃ endpoint, serveMux other path = .endpoint endpoint)
  missing : method ≠ "CONNECT" → serveMux method path = .notFound →
    ∀ other, other ≠ "CONNECT" → serveMux other path = .notFound

/-- The route that a request was sent to. -/
theorem route_of_endpoint {method : String} {path : Bytes}
    {endpoint : Endpoint} (served : serveMux method path = .endpoint endpoint) :
    ∃ pattern, (pattern, endpoint) ∈ routes ∧
      pattern.serves (routedPath method path) method = true := by
  rcases serveMux_eq method path with sent | answer
  · rw [sent] at served
    cases served
  · have given := answered_dispatch method (routedPath method path)
    rw [← answer, served] at given
    cases given with
    | endpoint pattern endpoint listed serves =>
        exact ⟨pattern, listed, serves⟩

/-- GET and HEAD lead to no mutation. -/
theorem reading_of_safe {method : String} {path : Bytes}
    {endpoint : Endpoint} (served : serveMux method path = .endpoint endpoint)
    (safe : isSafe method = true) : endpoint.handler.mutates = false := by
  obtain ⟨pattern, found, serves⟩ := route_of_endpoint served
  have member := (Pattern.serves_iff.mp serves).1
  apply registered_reading _ found
  rw [isSafe, Bool.or_eq_true] at safe
  rcases safe with get | head
  · left
    rw [← of_decide_eq_true get]
    exact member
  · right
    rw [← of_decide_eq_true head]
    exact member

/-- Every request is answered as the table says, for every method and every
path. -/
theorem requests_well_routed (method : String) (path : Bytes) :
    WellRouted method path where
  single := by
    intro endpoint served entry listed serves
    obtain ⟨pattern, found, also⟩ := route_of_endpoint served
    rw [routes_separate.unique listed found serves also]
  reading := fun _ served safe => reading_of_safe served safe
  allowed := by
    intro allow canonical answer
    have stays : serveMux method path ≠ .redirect := by
      rw [answer]
      exact fun wrong => (by cases wrong)
    have given := answered_dispatch method (routedPath method path)
    rw [← serveMux_clean canonical canonical stays, answer] at given
    cases given with
    | methodNotAllowed others unserved =>
        have members : ∀ other,
            other ∈ sortStrings
                (allowedMethods routes (routedPath method path)).dedup ↔
              other ∈ allowedMethods routes (routedPath method path) :=
          fun other => mem_sortStrings.trans List.mem_dedup
        refine ⟨?_, ?_⟩
        · intro empty
          obtain ⟨other, member⟩ := List.exists_mem_of_ne_nil _ others
          rw [← members, empty] at member
          cases member
        · intro other also
          rw [members, serveMux_clean canonical also stays]
          exact (answered_dispatch other _).served_iff.symm
  missing := by
    intro canonical answer other also
    have stays : serveMux method path ≠ .redirect := by
      rw [answer]
      exact fun wrong => (by cases wrong)
    have given := answered_dispatch method (routedPath method path)
    rw [← serveMux_clean canonical canonical stays, answer] at given
    rw [serveMux_clean canonical also stays]
    cases given with
    | notFound none =>
        have others := answered_dispatch other (routedPath method path)
        generalize answered _ = routed at others ⊢
        cases others with
        | notFound => rfl
        | methodNotAllowed some => exact absurd none some
        | endpoint pattern endpoint listed serves allowed
        | redirect allowed =>
            rw [none] at allowed
            cases allowed

end Xoxproxy.Api
