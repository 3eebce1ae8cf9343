import Xoxproxy.Engine.State

/-!
# The engine's traffic log

One line of the log is one finished connection.  The parser splits it at
blanks before it looks at any field.
-/

namespace Xoxproxy.Engine

/-- One parsed record of the traffic log. -/
structure UsageRecord where
  unixMillis : Int
  service : String
  port : Int
  errCode : Int
  username : String
  clientIP : String
  clientPort : Int
  targetIP : String
  targetPort : Int
  bytesToTarget : Int
  bytesFromTarget : Int
  requestText : String
  deriving DecidableEq, Repr

/-- The value that is left of an `int64` result. -/
def wrapInt64 (value : Int) : Int :=
  (value + 2 ^ 63) % 2 ^ 64 - 2 ^ 63

/-- What precedes the first `separator` and what follows it. -/
def cut (separator : Char) (text : List Char) :
    Option (List Char × List Char) :=
  if separator ∈ text then
    some (text.takeWhile (· ≠ separator),
      (text.dropWhile (· ≠ separator)).tail)
  else none

/-- What ends with the first `]` that a `:` follows, and what stands
behind that `:`. -/
def cutBracket : List Char → Option (List Char × List Char)
  | [] => none
  | char :: rest =>
      if char = ']' ∧ rest.head? = some ':' then some ([']'], rest.tail)
      else (cutBracket rest).map fun parts => (char :: parts.1, parts.2)

/-- What precedes the last `separator` and what follows it. -/
def cutLast (separator : Char) (text : List Char) :
    Option (List Char × List Char) :=
  (cut separator text.reverse).map fun parts =>
    (parts.2.reverse, parts.1.reverse)

section Parsing

variable [Build]

/-- The milliseconds behind the point, which the engine writes without
leading zeros; text that is no number counts as zero. -/
def parseMillis (text : List Char) : Int :=
  let digits := text.take 3
  match atoi (String.ofList digits) with
  | some millis => millis * 10 ^ (3 - digits.length)
  | none => 0

/-- The seconds and the fraction of a timestamp. -/
def splitTimestamp (text : String) : List Char × List Char :=
  (cut '.' text.toList).getD (text.toList, [])

/-- `parseUnixMillis`. -/
def parseUnixMillis (text : String) : Except GoError Int :=
  match (atoi (String.ofList (splitTimestamp text).1)).filter (0 ≤ ·) with
  | some secs =>
      .ok (wrapInt64 (secs * 1000 + parseMillis (splitTimestamp text).2))
  | none =>
      .error (.plain ("timestamp " ++ quote text ++ " is not unix time"))

/-- A port number between `lowest` and 65535. -/
def portNumber (lowest : Int) (text : List Char) : Option Int :=
  (atoi (String.ofList text)).filter fun port =>
    lowest ≤ port ∧ port ≤ 65535

/-- `parseService`. -/
def parseService (text : String) : Except GoError (String × Int) :=
  match cutLast '.' text.toList with
  | none =>
      .error (.plain ("service field " ++ quote text ++
        " is not name.port"))
  | some (name, digits) =>
      if name = [] ∨ digits = [] then
        .error (.plain ("service field " ++ quote text ++
          " is not name.port"))
      else
        match portNumber 1 digits with
        | some port => .ok (String.ofList name, port)
        | none =>
            .error (.plain ("service field " ++ quote text ++
              " has no valid port"))

/-- The characters that `parseHostPort` refuses in a host. -/
def isHostBreaker (char : Char) : Bool :=
  char == ' ' || char == '\t' || char == '"' || char == '\''

/-- The host and the port text of an address; an IPv6 address is in
brackets. -/
def splitHostPort (text : String) :
    Except GoError (List Char × List Char) :=
  if text.toList.head? = some '[' then
    match cutBracket text.toList with
    | some parts => .ok parts
    | none =>
        .error (.plain ("address " ++ quote text ++
          " has no port after the IPv6 bracket"))
  else
    match cut ':' text.toList with
    | some parts => .ok parts
    | none =>
        .error (.plain ("address " ++ quote text ++ " is not host:port"))

def checkHostPort (text : String) (host digits : List Char) :
    Except GoError (String × Int) :=
  match portNumber 0 digits with
  | none =>
      .error (.plain ("address " ++ quote text ++ " has no valid port"))
  | some port =>
      if host = [] ∨ host.any isHostBreaker then
        .error (.plain ("address " ++ quote text ++ " has no host"))
      else .ok (String.ofList host, port)

/-- `parseHostPort`. -/
def parseHostPort (text : String) : Except GoError (String × Int) := do
  let (host, digits) ← splitHostPort text
  checkHostPort text host digits

/-- `parseInt`. -/
def parseInt (text what : String) : Except GoError Int :=
  match atoi text with
  | some value => .ok value
  | none => .error (.plain (what ++ " " ++ quote text ++ " is not numeric"))

/-- `parseByteCount`. -/
def parseByteCount (text what : String) : Except GoError Int :=
  match atoi text with
  | some value =>
      if value < 0 then
        .error (.plain (what ++ " " ++ quote text ++
          " is not a byte count"))
      else .ok value
  | none =>
      .error (.plain (what ++ " " ++ quote text ++ " is not a byte count"))

/-- The username field: the engine writes `-` for an unauthenticated
attempt. -/
def parseUsername (text : String) : Except GoError String :=
  match validateUsername text with
  | none => .ok text
  | some error =>
      if text = "-" then .ok text
      else
        .error (.plain ("username " ++ quote text ++ ": " ++ error.text))

/-- An error under the name of its field. -/
def inField {Value : Type} (name : String) :
    Except GoError Value → Except GoError Value :=
  Except.mapError fun error => .wrap (name ++ ": ") error ""

/-- The checks of `ParseLogLine` on the fields of a line. -/
def parseFields : List String → Except GoError UsageRecord
  | timestamp :: service :: code :: username :: client :: target ::
      out :: into :: hops :: request => do
      let unixMillis ← inField "timestamp" (parseUnixMillis timestamp)
      let (service, port) ← inField "service" (parseService service)
      let errCode ← parseInt code "error code"
      let username ← parseUsername username
      let (clientIP, clientPort) ← inField "client" (parseHostPort client)
      let (targetIP, targetPort) ← inField "target" (parseHostPort target)
      let bytesToTarget ← parseByteCount out "bytes out"
      let bytesFromTarget ← parseByteCount into "bytes in"
      let _ ← parseInt hops "hops"
      return {
        unixMillis, service, port, errCode, username, clientIP, clientPort,
        targetIP, targetPort, bytesToTarget, bytesFromTarget
        requestText := join request " " }
  | fields =>
      .error (.plain ("log line has " ++ toString fields.length ++
        " fields, want >= 9"))

/-- `ParseLogLine`. -/
def parseLogLine (line : String) : Except GoError UsageRecord :=
  parseFields (fields line)

example :
    let _ := Build.dev
    parseLogLine "1760380800.5 proxy.3128 10 bob 203.0.113.7:52222 93.184.216.34:443 500 10485760 0 CONNECT example.com:443"
      = .ok {
        unixMillis := 1760380800500, service := "proxy", port := 3128
        errCode := 10, username := "bob"
        clientIP := "203.0.113.7", clientPort := 52222
        targetIP := "93.184.216.34", targetPort := 443
        bytesToTarget := 500, bytesFromTarget := 10485760
        requestText := "CONNECT example.com:443" } := by
  decide +kernel

end Parsing

end Xoxproxy.Engine
