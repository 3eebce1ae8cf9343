import Xoxproxy.Engine.Config
import Xoxproxy.Engine.LogInjection
import Xoxproxy.Store.Days

/-!
# The parser inverts the log format

A finished connection is written as `LogFormat` says and read back by
`ParseLogLine`.
-/

namespace Xoxproxy.Engine

open TextFields

/-- One finished connection whose hosts are addresses or plain names. -/
structure Connection where
  seconds : Nat
  millis : Nat
  service : String
  port : Nat
  errCode : Int
  username : String
  clientIP : String
  clientPort : Nat
  targetIP : String
  targetPort : Nat
  bytesToTarget : Nat
  bytesFromTarget : Nat
  hops : Int
  request : String
  seconds_le : seconds ≤ 9223372036854774
  millis_lt : millis < 1000
  service_token : Token isSpace service.toList
  port_pos : 1 ≤ port
  port_le : port ≤ 65535
  errCode_fits : -2 ^ 63 ≤ errCode ∧ errCode < 2 ^ 63
  username_known : ValidUsername username ∨ username = "-"
  clientIP_shape : AddressText clientIP.toList
  clientPort_le : clientPort ≤ 65535
  targetIP_shape : AddressText targetIP.toList
  targetPort_le : targetPort ≤ 65535
  bytesToTarget_lt : bytesToTarget < 2 ^ 63
  bytesFromTarget_lt : bytesFromTarget < 2 ^ 63
  hops_fits : -2 ^ 63 ≤ hops ∧ hops < 2 ^ 63

/-- A record layout with its verbs replaced: `%` and a letter stand for a
text, everything else for itself. -/
def expand (verb : Char → List Char) : List Char → List Char
  | [] => []
  | '%' :: letter :: rest => verb letter ++ expand verb rest
  | char :: rest => char :: expand verb rest

namespace Connection

/-- What each verb of the log format stands for. -/
def verb (connection : Connection) : Char → List Char
  | 't' => (toString connection.seconds).toList
  | '.' => fixedDigits 3 connection.millis
  | 'N' => connection.service.toList
  | 'p' => (toString connection.port).toList
  | 'E' => (toString connection.errCode).toList
  | 'U' => connection.username.toList
  | 'C' => connection.clientIP.toList
  | 'c' => (toString connection.clientPort).toList
  | 'R' => connection.targetIP.toList
  | 'r' => (toString connection.targetPort).toList
  | 'O' => (toString connection.bytesToTarget).toList
  | 'I' => (toString connection.bytesFromTarget).toList
  | 'h' => (toString connection.hops).toList
  | 'T' => connection.request.toList
  | _ => []

/-- The line of a connection.  The leading `G` of the format selects GMT
and is not written. -/
def line (connection : Connection) : String :=
  String.ofList (expand connection.verb logFormat.toList.tail)

/-- The record that stands for a connection; the blanks of the request
are normal. -/
def record (connection : Connection) : UsageRecord where
  unixMillis := connection.seconds * 1000 + connection.millis
  service := connection.service
  port := connection.port
  errCode := connection.errCode
  username := connection.username
  clientIP := connection.clientIP
  clientPort := connection.clientPort
  targetIP := connection.targetIP
  targetPort := connection.targetPort
  bytesToTarget := connection.bytesToTarget
  bytesFromTarget := connection.bytesFromTarget
  requestText :=
    String.ofList (squeeze isSpace ' ' connection.request.toList)

/-- `%t.%.` -/
def timestampText (connection : Connection) : String :=
  toString connection.seconds ++ "." ++
    String.ofList (fixedDigits 3 connection.millis)

/-- `%N.%p` -/
def serviceText (connection : Connection) : String :=
  connection.service ++ "." ++ toString connection.port

/-- `%C:%c` -/
def clientText (connection : Connection) : String :=
  connection.clientIP ++ ":" ++ toString connection.clientPort

/-- `%R:%r` -/
def targetText (connection : Connection) : String :=
  connection.targetIP ++ ":" ++ toString connection.targetPort

variable (connection : Connection)

theorem line_eq :
    connection.line =
      connection.timestampText ++ " " ++ (connection.serviceText ++ " " ++
        (toString connection.errCode ++ " " ++
          (connection.username ++ " " ++ (connection.clientText ++ " " ++
            (connection.targetText ++ " " ++
              (toString connection.bytesToTarget ++ " " ++
                (toString connection.bytesFromTarget ++ " " ++
                  (toString connection.hops ++ " " ++
                    connection.request)))))))) := by
  have format : logFormat.toList =
      ['G', '%', 't', '.', '%', '.', ' ', '%', 'N', '.', '%', 'p', ' ',
        '%', 'E', ' ', '%', 'U', ' ', '%', 'C', ':', '%', 'c', ' ', '%',
        'R', ':', '%', 'r', ' ', '%', 'O', ' ', '%', 'I', ' ', '%', 'h',
        ' ', '%', 'T'] := by
    decide
  rw [← String.toList_inj, line, format, List.tail_cons]
  simp [expand, verb, timestampText, serviceText, clientText, targetText]

end Connection

theorem atoi_fixedDigits {value : Nat} (small : value < 1000) :
    atoi (String.ofList (fixedDigits 3 value)) = some (value : Int) := by
  have digits := fixedDigits_isDigit 3 value
  have read : decimal (fixedDigits 3 value) = some value :=
    decimal_fixedDigits (by decide) small
  have range : -2 ^ 63 ≤ (value : Int) ∧ (value : Int) < 2 ^ 63 := by
    omega
  rw [atoi, String.toList_ofList, signed_of_digits digits, read]
  exact if_pos range

theorem parseMillis_fixedDigits {value : Nat} (small : value < 1000) :
    parseMillis (fixedDigits 3 value) = value := by
  have whole : (fixedDigits 3 value).take 3 = fixedDigits 3 value :=
    List.take_of_length_le (by simp)
  rw [parseMillis]
  simp only [whole, atoi_fixedDigits small, length_fixedDigits]
  simp

theorem wrapInt64_of_fits {value : Int}
    (fits : -2 ^ 63 ≤ value ∧ value < 2 ^ 63) : wrapInt64 value = value := by
  rw [wrapInt64, Int.emod_eq_of_lt (by omega) (by omega)]
  omega

namespace Connection

variable (connection : Connection)

theorem fields_line :
    fields connection.line =
      connection.timestampText :: connection.serviceText ::
        toString connection.errCode :: connection.username ::
          connection.clientText :: connection.targetText ::
            toString connection.bytesToTarget ::
              toString connection.bytesFromTarget ::
                toString connection.hops :: fields connection.request := by
  have colon : ∀ char ∈ ":".toList, isSpace char = false := by
    simp [isSpace]
  have point : ∀ char ∈ ".".toList, isSpace char = false := by
    simp [isSpace]
  have millis : Token isSpace
      (String.ofList (fixedDigits 3 connection.millis)).toList := by
    rw [String.toList_ofList]
    refine ⟨by simp [fixedDigits], ?_⟩
    intro char member
    exact isSpace_of_isDigit (fixedDigits_isDigit _ _ char member)
  have timestamp : Token isSpace connection.timestampText.toList :=
    token_joined (token_natText _) point millis
  have service : Token isSpace connection.serviceText.toList :=
    token_joined connection.service_token point (token_natText _)
  have username : Token isSpace connection.username.toList := by
    rcases connection.username_known with valid | unauthenticated
    · exact token_of_validUsername valid
    · rw [unauthenticated]
      exact ⟨by decide, by simp [isSpace]⟩
  have client : Token isSpace connection.clientText.toList :=
    token_joined connection.clientIP_shape.token colon (token_natText _)
  have target : Token isSpace connection.targetText.toList :=
    token_joined connection.targetIP_shape.token colon (token_natText _)
  rw [line_eq, fields_token_blank _ timestamp, fields_token_blank _ service,
    fields_token_blank _ (token_intText _), fields_token_blank _ username,
    fields_token_blank _ client, fields_token_blank _ target,
    fields_token_blank _ (token_natText _),
    fields_token_blank _ (token_natText _),
    fields_token_blank _ (token_intText _)]

theorem join_request :
    join (fields connection.request) " " =
      connection.record.requestText := by
  have texts : (fields connection.request).map String.toList =
      TextFields.fields isSpace connection.request.toList := by
    simp [fields, Function.comp_def]
  rw [join, texts]
  exact congrArg String.ofList (intercalate_fields ' ' _)

variable [Build]

theorem parseUnixMillis_timestampText :
    parseUnixMillis connection.timestampText =
      .ok connection.record.unixMillis := by
  have shape : connection.timestampText.toList =
      (toString connection.seconds).toList ++
        '.' :: fixedDigits 3 connection.millis := by
    simp [timestampText]
  have parts : splitTimestamp connection.timestampText =
      ((toString connection.seconds).toList,
        fixedDigits 3 connection.millis) := by
    rw [splitTimestamp, shape, cut_append _ (natText_free _ '.' (by decide))]
    rfl
  have small : connection.seconds < 2 ^ 63 := by
    have bound := connection.seconds_le
    omega
  have seconds :
      (atoi (String.ofList (toString connection.seconds).toList)).filter
        (0 ≤ ·) = some (connection.seconds : Int) := by
    rw [String.ofList_toList, atoi_natText small]
    simp
  have fits : -2 ^ 63 ≤
        (connection.seconds : Int) * 1000 + connection.millis ∧
      (connection.seconds : Int) * 1000 + connection.millis < 2 ^ 63 := by
    have bound := connection.seconds_le
    have rest := connection.millis_lt
    omega
  unfold parseUnixMillis
  rw [parts, seconds]
  simp only [parseMillis_fixedDigits connection.millis_lt,
    wrapInt64_of_fits fits]
  rfl

/-- The parser inverts the log format. -/
theorem parseLogLine_line_eq :
    parseLogLine connection.line = .ok connection.record := by
  have service : parseService connection.serviceText =
      .ok (connection.service, (connection.port : Int)) :=
    parseService_text connection.service_token.nonempty connection.port_pos
      connection.port_le
  have client : parseHostPort connection.clientText =
      .ok (connection.clientIP, (connection.clientPort : Int)) :=
    parseHostPort_text connection.clientIP_shape connection.clientPort_le
  have target : parseHostPort connection.targetText =
      .ok (connection.targetIP, (connection.targetPort : Int)) :=
    parseHostPort_text connection.targetIP_shape connection.targetPort_le
  rw [parseLogLine, fields_line]
  exact parseFields_eq_ok_iff.mpr
    ⟨connection.parseUnixMillis_timestampText, service,
      parseInt_intText _ connection.errCode_fits,
      parseUsername_known connection.username_known, client, target,
      parseByteCount_natText _ connection.bytesToTarget_lt,
      parseByteCount_natText _ connection.bytesFromTarget_lt,
      ⟨_, parseInt_intText _ connection.hops_fits⟩,
      connection.join_request⟩

end Connection

theorem token_proxy : Token isSpace "proxy".toList :=
  ⟨by decide, by simp [isSpace]⟩

theorem validUsername_dave : ValidUsername "dave" :=
  ⟨by decide, ⟨'d', ['a', 'v', 'e'], rfl, rfl⟩, by simp; decide⟩

theorem int64_ten : -2 ^ 63 ≤ (10 : Int) ∧ (10 : Int) < 2 ^ 63 := by decide

theorem int64_zero : -2 ^ 63 ≤ (0 : Int) ∧ (0 : Int) < 2 ^ 63 := by decide

theorem addressText_plain : AddressText "203.0.113.7".toList :=
  .plain _ (by decide) (by simp [isSpace]) (by simp; decide) (by decide)
    (by decide)

theorem addressText_bracketed : AddressText "[2001:db8::2]".toList :=
  .bracketed "2001:db8::2".toList (by simp [isSpace]) (by simp; decide)
    (by decide)

/-- A connection to a bracketed address; the request has several blanks. -/
def spacedConnection : Connection where
  seconds := 1760380800
  millis := 7
  service := "proxy"
  port := 3128
  errCode := 10
  username := "dave"
  clientIP := "203.0.113.7"
  clientPort := 52222
  targetIP := "[2001:db8::2]"
  targetPort := 443
  bytesToTarget := 500
  bytesFromTarget := 10485760
  hops := 0
  request := " CONNECT  example.com:443 \t HTTP/1.1 "
  seconds_le := Nat.le_of_ble_eq_true rfl
  millis_lt := Nat.le_of_ble_eq_true rfl
  service_token := token_proxy
  port_pos := Nat.le_of_ble_eq_true rfl
  port_le := Nat.le_of_ble_eq_true rfl
  errCode_fits := int64_ten
  username_known := Or.inl validUsername_dave
  clientIP_shape := addressText_plain
  clientPort_le := Nat.le_of_ble_eq_true rfl
  targetIP_shape := addressText_bracketed
  targetPort_le := Nat.le_of_ble_eq_true rfl
  bytesToTarget_lt := Nat.le_of_ble_eq_true rfl
  bytesFromTarget_lt := Nat.le_of_ble_eq_true rfl
  hops_fits := int64_zero

theorem parseLogLine_spaced :
    spacedConnection.line =
        "1760380800.007 proxy.3128 10 dave 203.0.113.7:52222 " ++
          "[2001:db8::2]:443 500 10485760 0 " ++
            " CONNECT  example.com:443 \t HTTP/1.1 " ∧
      @parseLogLine Build.dev spacedConnection.line = .ok
        { unixMillis := 1760380800007, service := "proxy", port := 3128
          errCode := 10, username := "dave"
          clientIP := "203.0.113.7", clientPort := 52222
          targetIP := "[2001:db8::2]", targetPort := 443
          bytesToTarget := 500, bytesFromTarget := 10485760
          requestText := "CONNECT example.com:443 HTTP/1.1" } := by
  refine ⟨by decide +kernel, ?_⟩
  rw [@Connection.parseLogLine_line_eq spacedConnection Build.dev]
  decide +kernel

end Xoxproxy.Engine
