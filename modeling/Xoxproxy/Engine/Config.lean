import Xoxproxy.Engine.State
import Mathlib.Data.List.Sort

/-!
# Rendering the engine configuration

The deployment settings and `Render` of
`internal/engine/threeproxy/config.go`.  The text is built in the order
in which the source writes it.
-/

namespace Xoxproxy

/-- Engine deployment paths and service parameters. -/
structure Settings where
  configFile : String
  pidFile : String
  counterFile : String
  logFile : String
  httpPort : Int
  socks5Port : Int
  maxConns : Int
  rotate : Int
  nameservers : List String
  setUID : String
  setGID : String
  deriving DecidableEq, Repr

def nscacheSize : Nat := 65535

/-- The record layout that log ingestion parses. -/
def logFormat : String := "G%t.%. %N.%p %E %U %C:%c %R:%r %O %I %h %T"

/-- The characters of an encoded digest. -/
def isCryptChar (char : Char) : Bool :=
  isAlphanumeric char || char = '.' || char = '/'

/-- `engineHashRe`: `$3$`, 1 to 64 alphanumeric salt characters, `$` and
22 digest characters. -/
def engineHashRe (hash : String) : Bool :=
  match hash.toList with
  | '$' :: '3' :: '$' :: rest =>
      let salt := rest.takeWhile isAlphanumeric
      decide (1 ≤ salt.length ∧ salt.length ≤ 64) &&
        match rest.dropWhile isAlphanumeric with
        | '$' :: digest =>
            decide (digest.length = 22) && digest.all isCryptChar
        | _ => false
  | _ => false

/-- `ipRe`: a nonempty text of hexadecimal digits, `:` and `.`. -/
def ipRe (text : String) : Bool :=
  !text.toList.isEmpty && text.toList.all fun char =>
    ('0' ≤ char && char ≤ '9') || ('a' ≤ char && char ≤ 'f') ||
      ('A' ≤ char && char ≤ 'F') || char = ':' || char = '.'

/-- `path.IsAbs`; the Linux build of `filepath.IsAbs` is the same. -/
def isAbs (path : String) : Bool := path.toList.head? = some '/'

/-- Whether any path component is `..`. -/
def hasTraversal (path : String) : Bool :=
  (path.toList.splitOnP fun char => char = '/' || char = '\\').any
    fun part => part = ['.', '.']

def isControl (char : Char) : Bool :=
  decide (char.toNat < 0x20) || char.toNat = 0x7f

/-- The users in ascending order of their names. -/
def sortUsers (users : List User) : List User :=
  users.insertionSort fun left right => left.username ≤ right.username

/-- Whether the account may use the service. -/
def hasProtocol (user : User) (protocol : Protocol) : Bool :=
  user.protocols.any fun listed => listed = protocol

theorem mem_sortUsers (users : List User) (user : User) :
    user ∈ sortUsers users ↔ user ∈ users :=
  (List.perm_insertionSort _ users).mem_iff

/-- A text begins as its first part does. -/
theorem head_append
    {text : String} {char : Char}
    (head : text.toList.head? = some char) (rest : String) :
    (text ++ rest).toList.head? = some char := by
  rw [String.toList_append, List.head?_append, head]
  rfl

section Rendering

variable [Build]

def pathErrors (name path : String) : List GoError :=
  if !isAbs path then
    [.plain ("settings " ++ name ++ " " ++ quote path ++
      " must be an absolute path")]
  else
    (if hasTraversal path then
      [.plain ("settings " ++ name ++ " " ++ quote path ++
        " must not contain \"..\" path components")]
    else []) ++
    (if path.toList.any isControl then
      [.plain ("settings " ++ name ++ " " ++ quote path ++
        " contains control characters")]
    else [])

def validatePort (name : String) (port : Int) : List GoError :=
  if port < 1 ∨ port > 65535 then
    [.plain (name ++ " port " ++ toString port ++ " must be 1-65535")]
  else []

/-- The errors of `Settings.Validate`.  The source visits the four paths
in map order, which Go leaves open; they are listed in written order. -/
def Settings.errors (settings : Settings) : List GoError :=
  pathErrors "config_file" settings.configFile ++
    pathErrors "pid_file" settings.pidFile ++
    pathErrors "counter_file" settings.counterFile ++
    pathErrors "log_file" settings.logFile ++
    validatePort "http" settings.httpPort ++
    validatePort "socks5" settings.socks5Port ++
    (if settings.httpPort = settings.socks5Port then
      [.plain ("http and socks5 ports must differ (both " ++
        toString settings.httpPort ++ ")")]
    else []) ++
    (if settings.maxConns < 0 then
      [.plain ("max_connections " ++ toString settings.maxConns ++
        " must be >= 0")]
    else []) ++
    (if settings.rotate < 0 then
      [.plain ("rotate " ++ toString settings.rotate ++
        " must be >= 0")]
    else []) ++
    (settings.nameservers.filter fun server => !ipRe server).map
      fun server => .plain ("nameserver " ++ quote server ++
        " is not an IP address")

/-- `Settings.Validate`. -/
def Settings.validate (settings : Settings) : Option GoError :=
  match settings.errors with
  | [] => none
  | [error] => some error
  | errors =>
      some (.plain ("invalid engine settings: [" ++
        " ".intercalate (errors.map GoError.text) ++ "]"))

/-- `buildinfo.String`. -/
def banner : String :=
  "xoxproxy " ++ Build.version ++ " (commit " ++ Build.gitCommit ++
    ", go " ++ Build.goVersion ++ ")"

/-- `line`: one directive with its value. -/
def configLine (directive value : String) : String :=
  directive ++ " " ++ value ++ "\n"

/-- `periodLetters`; a map without the key yields the empty string. -/
def periodLetter (period : Period) : String :=
  if period = periodDaily then "D"
  else if period = periodWeekly then "W"
  else if period = periodMonthly then "M"
  else ""

def renderHeader (settings : Settings) : String :=
  "# Managed by xoxproxy — DO NOT EDIT.\n" ++
    "# Regenerated and deployed by the control plane; " ++
    "manual changes are lost.\n" ++
    "# generated by " ++ banner ++ "\n" ++
    configLine "config" (quote settings.configFile) ++
    configLine "pidfile" (quote settings.pidFile) ++
    (if settings.setGID ≠ "" then configLine "setgid" settings.setGID
      else "") ++
    (if settings.setUID ≠ "" then configLine "setuid" settings.setUID
      else "") ++
    String.join (settings.nameservers.map (configLine "nserver")) ++
    (if settings.nameservers.length > 0 then
      "nscache " ++ toString nscacheSize ++ "\nnscache6 " ++
        toString nscacheSize ++ "\n"
      else "") ++
    (if settings.maxConns > 0 then
      configLine "maxconn" (toString settings.maxConns) else "") ++
    configLine "log" (quote settings.logFile ++ " D") ++
    (if settings.rotate > 0 then
      configLine "rotate" (toString settings.rotate) else "") ++
    configLine "logformat" (quote logFormat) ++
    configLine "counter" (quote settings.counterFile)

def renderAccount (user : User) : String :=
  "users " ++ quote (user.username ++ ":CR:" ++ user.engineHash) ++ "\n"

def renderAccounts (users : List User) : String :=
  "\n# --- accounts ---\n" ++ "auth strong\n" ++
    String.join (users.map renderAccount)

def renderQuota (user : User) (quota : Quota) : String :=
  "count" ++ quota.direction.name ++ " " ++ toString user.recordNumber ++
    " " ++ periodLetter quota.period ++ " " ++
    toString (quota.limitBytes.tdiv miB) ++ " " ++ user.username ++ "\n"

def renderUserLimits (user : User) : String :=
  (if user.downloadBPS > 0 then
    "bandlimin " ++ toString user.downloadBPS ++ " " ++
      user.username ++ "\n"
    else "") ++
  (if user.uploadBPS > 0 then
    "bandlimout " ++ toString user.uploadBPS ++ " " ++
      user.username ++ "\n"
    else "") ++
  match user.quota with
  | none => ""
  | some quota => renderQuota user quota

def renderLimits (users : List User) : String :=
  "\n# --- limits ---\n" ++ String.join (users.map renderUserLimits)

def renderAllow (user : User) : String :=
  "allow " ++ user.username ++ "\n"

def renderService
    (users : List User) (name directive : String) (port : Int)
    (protocol : Protocol) : String :=
  "\n# --- " ++ name ++ " ---\n" ++ "flush\n" ++
    String.join
      ((users.filter fun user => hasProtocol user protocol).map
        renderAllow) ++
    directive ++ " -p" ++ toString port ++ "\n"

/-- The text written for users that passed every check. -/
def renderText (settings : Settings) (users : List User) : String :=
  renderHeader settings ++ renderAccounts users ++ renderLimits users ++
    renderService users "HTTP proxy" "proxy" settings.httpPort
      protoHTTP ++
    renderService users "SOCKS5 proxy" "socks" settings.socks5Port
      protoSOCKS5

/-- `Render`. -/
def render (state : State) (settings : Settings) :
    Except GoError String :=
  match settings.validate with
  | some error => .error error
  | none =>
      match state.validate with
      | some error => .error error
      | none =>
          let users := sortUsers state.users
          match users.find? fun user => !engineHashRe user.engineHash with
          | some user =>
              .error (.plain ("user " ++ quote user.username ++
                ": engine hash is not a $3$ BLAKE2b-crypt verifier"))
          | none => .ok (renderText settings users)

/-- What `Render` checks before it writes anything. -/
structure Renderable (state : State) (settings : Settings) : Prop where
  settingsValid : settings.validate = none
  stateValid : ValidState state
  hashes : ∀ user ∈ state.users, engineHashRe user.engineHash = true

/-- `Render` accepts exactly the renderable inputs. -/
theorem render_eq_ok_iff
    (state : State) (settings : Settings) (text : String) :
    render state settings = .ok text ↔
      Renderable state settings ∧
        text = renderText settings (sortUsers state.users) := by
  have hashesFound :
      (sortUsers state.users).find?
          (fun user => !engineHashRe user.engineHash) = none ↔
        ∀ user ∈ state.users, engineHashRe user.engineHash = true := by
    simp [mem_sortUsers]
  unfold render
  constructor
  · intro rendered
    cases settingsError : settings.validate with
    | some error => simp [settingsError] at rendered
    | none =>
        cases stateError : state.validate with
        | some error => simp [settingsError, stateError] at rendered
        | none =>
            cases bad : (sortUsers state.users).find?
                fun user => !engineHashRe user.engineHash with
            | some user =>
                simp [settingsError, stateError, bad] at rendered
            | none =>
                simp only [settingsError, stateError, bad,
                  Except.ok.injEq] at rendered
                exact ⟨⟨settingsError,
                  (State.validate_eq_none_iff state).mp stateError,
                  hashesFound.mp bad⟩, rendered.symm⟩
  · rintro ⟨⟨settingsValid, stateValid, hashes⟩, rfl⟩
    simp only [settingsValid,
      (State.validate_eq_none_iff state).mpr stateValid,
      hashesFound.mpr hashes]

theorem renderHeader_head (settings : Settings) :
    (renderHeader settings).toList.head? = some '#' := by
  have comment :
      "# Managed by xoxproxy — DO NOT EDIT.\n".toList.head? =
        some '#' := by
    decide
  have whole (rest : String) := head_append comment rest
  unfold renderHeader
  simp only [String.append_assoc]
  exact whole _

/-- A rendered configuration begins with the comment that marks it as
managed. -/
theorem head_of_render
    {state : State} {settings : Settings} {text : String}
    (rendered : render state settings = .ok text) :
    text.toList.head? = some '#' := by
  have renderable := (render_eq_ok_iff state settings text).mp rendered
  rw [renderable.2]
  unfold renderText
  simp only [String.append_assoc]
  exact head_append (renderHeader_head settings) _

end Rendering

end Xoxproxy
