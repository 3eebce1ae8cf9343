import Xoxproxy.Engine.Deployer
import Xoxproxy.Engine.LogParsing

/-!
# Validating the configuration file

`Config.Validate` of `internal/config/config.go` and the engine settings
that `cmd/xoxproxy/deploy_cli.go` derives from an accepted configuration.
-/

namespace Xoxproxy.Configuration

structure ServerConfig where
  listen : String
  publicBaseURL : String
  deriving DecidableEq, Repr

structure DatabaseConfig where
  path : String
  deriving DecidableEq, Repr

structure EngineConfig where
  provider : String
  binaryPath : String
  configDir : String
  deriving DecidableEq, Repr

structure ProxyConfig where
  httpPort : Int
  socks5Port : Int
  deriving DecidableEq, Repr

structure AnalyticsConfig where
  flushInterval : String
  queueSize : Int
  verbosity : String
  retentionDays : Int
  maxDestinationsPerUser : Int
  recentConnections : Int
  deriving DecidableEq, Repr

structure LogConfig where
  level : String
  deriving DecidableEq, Repr

structure Config where
  server : ServerConfig
  database : DatabaseConfig
  engine : EngineConfig
  proxy : ProxyConfig
  analytics : AnalyticsConfig
  log : LogConfig
  deriving DecidableEq, Repr

/-- `Defaults`. -/
def Config.defaults : Config where
  server := { listen := "127.0.0.1:8080", publicBaseURL := "" }
  database := { path := "/var/lib/xoxproxy/xoxproxy.db" }
  engine := {
    provider := "threeproxy"
    binaryPath := "/usr/bin/3proxy"
    configDir := "/etc/xoxproxy/engine" }
  proxy := { httpPort := 3128, socks5Port := 1080 }
  analytics := {
    flushInterval := "30s"
    queueSize := 8192
    verbosity := "detailed"
    retentionDays := 90
    maxDestinationsPerUser := 1000
    recentConnections := 500 }
  log := { level := "info" }

/-- `url.URL`, as far as the configuration looks at it. -/
structure ParsedURL where
  scheme : String
  host : String
  path : String
  deriving DecidableEq, Repr

/-- What `url.Parse` and `time.ParseDuration` of the Go release read. -/
class ConfigReaders where
  parseURL : String → Except GoError ParsedURL
  parseDuration : String → Except GoError Int

/-- `net.SplitHostPort`; every error means that the text is refused. -/
def netSplitHostPort (hostport : String) :
    Option (List Char × List Char) :=
  match Engine.cutLast ':' hostport.toList with
  | none => none
  | some ('[' :: rest, port) =>
      let host := rest.takeWhile (· ≠ ']')
      if rest ≠ host ++ [']'] ∨ '[' ∈ host ++ port ∨ ']' ∈ port then none
      else some (host, port)
  | some (host, port) =>
      if ':' ∈ host ∨ '[' ∈ host ++ port ∨ ']' ∈ host ++ port then none
      else some (host, port)

/-- `SkipSpace` of a scan over one line; a line feed is refused. -/
def scanSkipSpace : List Char → Option (List Char)
  | [] => some []
  | char :: rest =>
      if char = '\n' then none
      else if isSpace char then scanSkipSpace rest
      else some (char :: rest)

/-- The digits that the verb `%d` reads behind blanks and a sign; what
follows them is left unread. -/
def scanDigits (text : List Char) : List Char :=
  (signed text).2.takeWhile Char.isDigit

/-- `fmt.Sscanf` with the format `%d`. -/
def sscanInt (text : List Char) : Option Int := do
  let rest ← scanSkipSpace text
  let magnitude ← decimal (scanDigits rest)
  let value : Int := if (signed rest).1 then -magnitude else magnitude
  if -2 ^ 63 ≤ value ∧ value < 2 ^ 63 then some value else none

example : sscanInt " +80http".toList = some 80 := by decide

section Validation

variable [Build]

/-- `parsePort`. -/
def parsePort (text : List Char) : Except GoError Int :=
  match sscanInt text with
  | some port => .ok port
  | none =>
      .error (.plain ("port " ++ quote (String.ofList text) ++
        " is not numeric"))

/-- `isAbsPOSIX`. -/
def isAbsPOSIX (path : String) : Bool := path.toList.head? = some '/'

def proxyProviders : List String := ["threeproxy"]

/-- `providerKnown`. -/
def providerKnown (provider : String) : Bool :=
  proxyProviders.any fun known => provider = known

def minEnginePort : Int := 1024

def listenErrors (listen : String) : List GoError :=
  if !contains listen ":" then
    [.plain ("server.listen " ++ quote listen ++
      " must bind an explicit address (host:port), not a bare port")]
  else
    match netSplitHostPort listen with
    | none =>
        [.plain ("server.listen " ++ quote listen ++ " is not host:port")]
    | some (host, portText) =>
        if host = [] then
          [.plain ("server.listen must bind an explicit address, " ++
            "not bare port " ++ quote listen)]
        else
          match parsePort portText with
          | .error error => [error.wrap "server.listen: " ""]
          | .ok port =>
              if port < 1 then
                [.plain "server.listen port must be >= 1"]
              else []

def absoluteErrors (name path : String) : List GoError :=
  if !isAbsPOSIX path then
    [.plain (name ++ " " ++ quote path ++ " must be an absolute path")]
  else []

def providerErrors (provider : String) : List GoError :=
  if !providerKnown provider then
    [.plain ("engine.provider " ++ quote provider ++ " is not one of " ++
      ", ".intercalate proxyProviders)]
  else []

/-- `validateEnginePort`. -/
def validateEnginePort (name : String) (port : Int) : List GoError :=
  if port < 1 ∨ port > 65535 then
    [.plain (name ++ " " ++ toString port ++ " must be 1-65535")]
  else if port < minEnginePort then
    [.plain (name ++ " " ++ toString port ++
      ": the engine runs unprivileged and cannot bind ports < " ++
      toString minEnginePort)]
  else []

def proxyErrors (proxy : ProxyConfig) : List GoError :=
  validateEnginePort "proxy.http_port" proxy.httpPort ++
    validateEnginePort "proxy.socks5_port" proxy.socks5Port ++
    if proxy.httpPort = proxy.socks5Port then
      [.plain ("proxy.http_port and proxy.socks5_port must differ (both " ++
        toString proxy.httpPort ++ ")")]
    else []

/-- A number outside its range. -/
def rangeErrors (name : String) (value lowest highest : Int)
    (floor : String) : List GoError :=
  if value < lowest ∨ value > highest then
    [.plain ("analytics." ++ name ++ " " ++ toString value ++
      " must be between " ++ floor ++ " and " ++ toString highest)]
  else []

def oneOfErrors (name value : String) (known : List String) :
    List GoError :=
  if value ∈ known then []
  else
    [.plain (name ++ " " ++ quote value ++ " must be one of " ++
      ", ".intercalate known)]

variable [ConfigReaders]

def baseURLErrors (base : String) : List GoError :=
  let refused := [.plain ("server.public_base_url " ++ quote base ++
    " must be an origin like https://proxy.example.com")]
  if base = "" then []
  else
    match ConfigReaders.parseURL base with
    | .error _ => refused
    | .ok url =>
        if url.scheme = "" ∨ url.host = "" ∨ url.path ≠ "" then refused
        else []

def flushErrors (interval : String) : List GoError :=
  match ConfigReaders.parseDuration interval with
  | .error error =>
      [.plain ("analytics.flush_interval " ++ quote interval ++ ": " ++
        error.text)]
  | .ok duration =>
      if duration ≤ 0 ∨ duration > 10 * 60 * 10 ^ 9 then
        [.plain ("analytics.flush_interval " ++ quote interval ++
          " must be > 0 and <= 10m")]
      else []

def analyticsErrors (analytics : AnalyticsConfig) : List GoError :=
  flushErrors analytics.flushInterval ++
    rangeErrors "queue_size" analytics.queueSize 1 (2 ^ 20) "1" ++
    oneOfErrors "analytics.verbosity" analytics.verbosity
      ["counters", "detailed"] ++
    rangeErrors "retention_days" analytics.retentionDays 0 3650
      "0 (keep forever)" ++
    rangeErrors "max_destinations_per_user"
      analytics.maxDestinationsPerUser 10 10000 "10" ++
    rangeErrors "recent_connections" analytics.recentConnections 0 10000
      "0"

/-- The errors of `Validate`, in its order. -/
def Config.errors (config : Config) : List GoError :=
  listenErrors config.server.listen ++
    baseURLErrors config.server.publicBaseURL ++
    absoluteErrors "database.path" config.database.path ++
    providerErrors config.engine.provider ++
    absoluteErrors "engine.binary_path" config.engine.binaryPath ++
    absoluteErrors "engine.config_dir" config.engine.configDir ++
    proxyErrors config.proxy ++
    analyticsErrors config.analytics ++
    oneOfErrors "log.level" config.log.level
      ["debug", "info", "warn", "error"]

/-- `errors.Join`. -/
def joinErrors : List GoError → Option GoError
  | [] => none
  | errors =>
      some ⟨"\n".intercalate (errors.map GoError.text),
        errors.flatMap GoError.wraps⟩

/-- `Validate`. -/
def Config.validate (config : Config) : Option GoError :=
  joinErrors config.errors

theorem Config.validate_eq_none_iff (config : Config) :
    config.validate = none ↔ config.errors = [] := by
  unfold Config.validate
  cases config.errors with
  | nil => simp [joinErrors]
  | cons error rest => simp [joinErrors]

end Validation

/-- `engineSettingsFrom`. -/
def engineSettingsFrom (config : Config) : Settings :=
  let dir := config.engine.configDir
  { configFile := dir ++ "/3proxy.cfg"
    pidFile := dir ++ "/3proxy.pid"
    counterFile := dir ++ "/3proxy.3cf"
    logFile := dir ++ "/traffic.log"
    httpPort := config.proxy.httpPort
    socks5Port := config.proxy.socks5Port
    maxConns := 0
    rotate := 0
    nameservers := []
    setUID := ""
    setGID := "" }

end Xoxproxy.Configuration
