import Xoxproxy.Engine.LogParsing

/-!
# What a hostile target can do to the traffic log

The engine writes the target host as the client asked for it, blanks
included, in front of the byte counts.
-/

namespace Xoxproxy.Engine

open TextFields

/-- A client address as the engine writes it: an IPv4 address or an IPv6
address in brackets. -/
inductive AddressText : List Char → Prop where
  | plain (host : List Char)
      (nonempty : host ≠ [])
      (solid : ∀ char ∈ host, isSpace char = false)
      (quotable : ∀ char ∈ host, isHostBreaker char = false)
      (portless : ':' ∉ host)
      (unbracketed : host.head? ≠ some '[') : AddressText host
  | bracketed (host : List Char)
      (solid : ∀ char ∈ host, isSpace char = false)
      (quotable : ∀ char ∈ host, isHostBreaker char = false)
      (closed : ']' ∉ host) : AddressText ('[' :: host ++ [']'])

/-- One finished connection, with every field but the last two in the
form the engine gives it. -/
structure LogRecord where
  seconds : Nat
  millis : Nat
  service : String
  port : Nat
  errCode : Int
  username : String
  clientIP : String
  clientPort : Nat
  targetHost : String
  targetPort : Nat
  bytesToTarget : Nat
  bytesFromTarget : Nat
  hops : Int
  request : String
  seconds_lt : seconds < 2 ^ 63
  millis_lt : millis < 1000
  service_token : Token isSpace service.toList
  port_pos : 1 ≤ port
  port_le : port ≤ 65535
  errCode_fits : -2 ^ 63 ≤ errCode ∧ errCode < 2 ^ 63
  username_known : ValidUsername username ∨ username = "-"
  clientIP_shape : AddressText clientIP.toList
  clientPort_le : clientPort ≤ 65535
  targetPort_le : targetPort ≤ 65535
  targetHost_line : '\n' ∉ targetHost.toList
  bytesToTarget_lt : bytesToTarget < 2 ^ 63
  bytesFromTarget_lt : bytesFromTarget < 2 ^ 63
  hops_fits : -2 ^ 63 ≤ hops ∧ hops < 2 ^ 63
  request_line : '\n' ∉ request.toList

namespace LogRecord

/-- `%t.%.` -/
def timestampText (record : LogRecord) : String :=
  toString record.seconds ++ "." ++ toString record.millis

/-- `%N.%p` -/
def serviceText (record : LogRecord) : String :=
  record.service ++ "." ++ toString record.port

/-- `%C:%c` -/
def clientText (record : LogRecord) : String :=
  record.clientIP ++ ":" ++ toString record.clientPort

/-- `%R:%r` -/
def targetText (record : LogRecord) : String :=
  record.targetHost ++ ":" ++ toString record.targetPort

/-- The line of a record: the fields in `LogFormat` order. -/
def line (record : LogRecord) : String :=
  record.timestampText ++ " " ++ (record.serviceText ++ " " ++
    (toString record.errCode ++ " " ++ (record.username ++ " " ++
      (record.clientText ++ " " ++ (record.targetText ++ " " ++
        (toString record.bytesToTarget ++ " " ++
          (toString record.bytesFromTarget ++ " " ++
            (toString record.hops ++ " " ++ record.request))))))))

end LogRecord

theorem AddressText.quotable {host : List Char} (shape : AddressText host) :
    ∀ char ∈ host, isHostBreaker char = false := by
  cases shape with
  | plain _ nonempty solid quotable portless unbracketed => exact quotable
  | bracketed inner solid quotable closed =>
      have ends : isHostBreaker '[' = false ∧
        isHostBreaker ']' = false := by decide
      intro char member
      simp only [List.cons_append, List.mem_cons, List.mem_append,
        List.not_mem_nil, or_false] at member
      rcases member with rfl | inside | rfl
      · exact ends.1
      · exact quotable char inside
      · exact ends.2

theorem AddressText.token {host : List Char} (shape : AddressText host) :
    Token isSpace host := by
  cases shape with
  | plain _ nonempty solid quotable portless unbracketed =>
      exact ⟨nonempty, solid⟩
  | bracketed inner solid quotable closed =>
      refine ⟨by simp, ?_⟩
      intro char member
      simp only [List.cons_append, List.mem_cons, List.mem_append,
        List.not_mem_nil, or_false] at member
      rcases member with rfl | inside | rfl
      · decide
      · exact solid char inside
      · decide

theorem fields_append_blank (text rest : String) :
    fields (text ++ " " ++ rest) = fields text ++ fields rest := by
  have shape : (text ++ " " ++ rest).toList =
      text.toList ++ ' ' :: rest.toList := by
    simp [String.toList_append]
  rw [fields, shape, TextFields.fields_append _ _ (by decide),
    List.map_append]
  rfl

theorem fields_of_token {text : String}
    (token : Token isSpace text.toList) : fields text = [text] := by
  rw [fields, fields_token token]
  simp

theorem fields_token_blank {text : String} (rest : String)
    (token : Token isSpace text.toList) :
    fields (text ++ " " ++ rest) = text :: fields rest := by
  rw [fields_append_blank, fields_of_token token]
  rfl

theorem Token.append {first second : List Char}
    (firstToken : Token isSpace first)
    (secondSolid : ∀ char ∈ second, isSpace char = false) :
    Token isSpace (first ++ second) where
  nonempty := by simp [firstToken.nonempty]
  solid := by
    intro char member
    rcases List.mem_append.mp member with inFirst | inSecond
    · exact firstToken.solid char inFirst
    · exact secondSolid char inSecond

theorem token_intText (value : Int) :
    Token isSpace (toString value).toList where
  nonempty := by
    cases value <;> simp [Int.toString_eq_repr, Int.repr]
  solid := by
    intro char member
    rcases toString_int_digits value char member with digit | rfl
    · exact isSpace_of_isDigit digit
    · decide

theorem token_natText (value : Nat) :
    Token isSpace (toString value).toList :=
  token_intText value

theorem atoi_intText {value : Int}
    (fits : -2 ^ 63 ≤ value ∧ value < 2 ^ 63) :
    atoi (toString value) = some value := by
  cases value with
  | ofNat magnitude =>
      have small : (magnitude : Int) < 2 ^ 63 := fits.2
      exact atoi_natText (by omega)
  | negSucc magnitude =>
      have text : (toString (Int.negSucc magnitude)).toList =
          '-' :: (toString (magnitude + 1)).toList := by
        rw [Int.toString_eq_repr]
        change ("-" ++ (magnitude + 1).repr).toList = _
        rw [String.toList_append]
        rfl
      rw [atoi, text, signed, decimal_natText]
      exact if_pos fits

/-- No number stands behind a colon. -/
theorem atoi_colon (start port : List Char) :
    atoi (String.ofList (start ++ ':' :: port)) = none := by
  apply atoi_eq_none
  · have inside : ':' ∈ start ++ ':' :: port := by simp
    rwa [String.toList_ofList]
  · decide
  · decide

theorem token_joined {first separator second : String}
    (firstToken : Token isSpace first.toList)
    (solid : ∀ char ∈ separator.toList, isSpace char = false)
    (secondToken : Token isSpace second.toList) :
    Token isSpace (first ++ separator ++ second).toList := by
  rw [String.toList_append, String.toList_append]
  exact Token.append (Token.append firstToken solid) secondToken.solid

theorem isSpace_of_between {low high char : Char}
    (between : low ≤ char ∧ char ≤ high)
    (visible : 33 ≤ low.toNat ∧ high.toNat ≤ 126) :
    isSpace char = false := by
  have lower : low.toNat ≤ char.toNat := between.1
  have upper : char.toNat ≤ high.toNat := between.2
  simp only [isSpace]
  grind

theorem token_of_validUsername
    {name : String} (valid : ValidUsername name) :
    Token isSpace name.toList where
  nonempty := by
    obtain ⟨first, rest, shape, _⟩ := valid.head
    simp [shape]
  solid := by
    intro char member
    rcases valid.chars char member with alphanumeric | punctuation
    · simp only [isAlphanumeric, Bool.or_eq_true, Bool.and_eq_true,
        decide_eq_true_eq] at alphanumeric
      rcases alphanumeric with (lower | upper) | digit
      · exact isSpace_of_between lower (by decide)
      · exact isSpace_of_between upper (by decide)
      · exact isSpace_of_between digit (by decide)
    · simp only [isUsernamePunctuation, Bool.or_eq_true,
        decide_eq_true_eq] at punctuation
      rcases punctuation with (rfl | rfl) | rfl <;> decide

namespace LogRecord

variable (record : LogRecord)

theorem token_timestampText :
    Token isSpace record.timestampText.toList :=
  token_joined (token_natText _) (by simp [isSpace]) (token_natText _)

theorem token_serviceText : Token isSpace record.serviceText.toList :=
  token_joined record.service_token (by simp [isSpace]) (token_natText _)

theorem token_username : Token isSpace record.username.toList := by
  rcases record.username_known with valid | unauthenticated
  · exact token_of_validUsername valid
  · rw [unauthenticated]
    exact ⟨by decide, by simp [isSpace]⟩

theorem token_clientText : Token isSpace record.clientText.toList :=
  token_joined record.clientIP_shape.token (by simp [isSpace])
    (token_natText _)

theorem fields_line :
    fields record.line =
      record.timestampText :: record.serviceText ::
        toString record.errCode :: record.username ::
          record.clientText :: (fields record.targetText ++
            toString record.bytesToTarget ::
              toString record.bytesFromTarget ::
                toString record.hops :: fields record.request) := by
  rw [line, fields_token_blank _ record.token_timestampText,
    fields_token_blank _ record.token_serviceText,
    fields_token_blank _ (token_intText _),
    fields_token_blank _ record.token_username,
    fields_token_blank _ record.token_clientText, fields_append_blank,
    fields_token_blank _ (token_natText _),
    fields_token_blank _ (token_natText _),
    fields_token_blank _ (token_intText _)]

/-- The last word of the target field keeps the colon of the port. -/
theorem fields_targetText :
    ∃ words start port, fields record.targetText =
      words ++ [String.ofList (start ++ ':' :: port)] := by
  have colon : Token isSpace
      (':' :: (toString record.targetPort).toList) := by
    refine ⟨List.cons_ne_nil _ _, ?_⟩
    intro char member
    rcases List.mem_cons.mp member with rfl | inPort
    · decide
    · exact (token_natText _).solid char inPort
  have shape : record.targetText.toList = record.targetHost.toList ++
      ':' :: (toString record.targetPort).toList := by
    simp [targetText, String.toList_append]
  obtain ⟨words, start, same⟩ :=
    fields_ended record.targetHost.toList colon
  refine ⟨words.map String.ofList, start,
    (toString record.targetPort).toList, ?_⟩
  rw [fields, shape, same, List.map_append]
  rfl

end LogRecord

/-! ## What the parser reads in them -/

theorem cut_append
    {separator : Char} {first : List Char} (second : List Char)
    (free : separator ∉ first) :
    cut separator (first ++ separator :: second) =
      some (first, second) := by
  have kept : ∀ char ∈ first, decide (char ≠ separator) = true := by
    intro char member
    exact decide_eq_true (ne_of_mem_of_not_mem member free)
  rw [cut, if_pos (by simp), List.takeWhile_append_of_pos kept,
    List.dropWhile_append_of_pos kept]
  simp

theorem cutLast_append
    {separator : Char} (first : List Char) {second : List Char}
    (free : separator ∉ second) :
    cutLast separator (first ++ separator :: second) =
      some (first, second) := by
  have mirrored : (first ++ separator :: second).reverse =
      second.reverse ++ separator :: first.reverse := by simp
  rw [cutLast, mirrored, cut_append _ (by simpa using free)]
  simp

theorem cutBracket_append
    {host : List Char} (port : List Char) (closed : ']' ∉ host) :
    cutBracket (host ++ ']' :: ':' :: port) =
      some (host ++ [']'], port) := by
  induction host with
  | nil => rfl
  | cons char host inductionHypothesis =>
      have different : char ≠ ']' := by
        rintro rfl
        exact closed List.mem_cons_self
      have hostClosed : ']' ∉ host := fun member =>
        closed (List.mem_cons_of_mem char member)
      rw [List.cons_append, cutBracket,
        if_neg (fun ends => different ends.1),
        inductionHypothesis hostClosed]
      rfl

theorem portNumber_natText {lowest port : Nat}
    (low : lowest ≤ port) (high : port ≤ 65535) :
    portNumber lowest (toString port).toList = some (port : Int) := by
  have small : port < 2 ^ 63 := by omega
  rw [portNumber, String.ofList_toList, atoi_natText small]
  have inRange : (lowest : Int) ≤ port ∧ (port : Int) ≤ 65535 := by omega
  simp [inRange]

theorem natText_free (value : Nat) (char : Char)
    (letter : char.isDigit = false) : char ∉ (toString value).toList := by
  intro member
  have text : (toString value).toList = Nat.toDigits 10 value :=
    Nat.toList_repr
  rw [text] at member
  have digit :=
    Nat.isDigit_of_mem_toDigits (by decide) (by decide) member
  rw [letter] at digit
  exact Bool.false_ne_true digit

section Acceptance

variable [Build]

theorem parseService_text
    {service : String} {port : Nat} (someName : service.toList ≠ [])
    (low : 1 ≤ port) (high : port ≤ 65535) :
    parseService (service ++ "." ++ toString port) =
      .ok (service, (port : Int)) := by
  have shape : (service ++ "." ++ toString port).toList =
      service.toList ++ '.' :: (toString port).toList := by
    simp [String.toList_append]
  have digits : (toString port).toList ≠ [] :=
    (token_natText port).nonempty
  have number : portNumber 1 (toString port).toList = some (port : Int) :=
    portNumber_natText low high
  rw [parseService, shape,
    cutLast_append _ (natText_free port '.' (by decide))]
  simp only [someName, digits, or_self, ↓reduceIte, number,
    String.ofList_toList]

theorem parseHostPort_of_split
    {text : String} {host digits : List Char}
    (split : splitHostPort text = .ok (host, digits)) :
    parseHostPort text = checkHostPort text host digits := by
  rw [parseHostPort, split]
  rfl

theorem checkHostPort_ok
    {text : String} {host digits : List Char} {port : Int}
    (nonempty : host ≠ [])
    (quotable : ∀ char ∈ host, isHostBreaker char = false)
    (number : portNumber 0 digits = some port) :
    checkHostPort text host digits = .ok (String.ofList host, port) := by
  have unbroken : host.any isHostBreaker = false := by simpa using quotable
  unfold checkHostPort
  rw [number]
  simp only [nonempty, unbroken, Bool.false_eq_true, or_self, ↓reduceIte]

theorem AddressText.splitHostPort
    {host : List Char} (shape : AddressText host) {text : String}
    {port : List Char} (same : text.toList = host ++ ':' :: port) :
    splitHostPort text = .ok (host, port) := by
  rw [Engine.splitHostPort, same]
  cases shape with
  | plain _ nonempty solid quotable portless unbracketed =>
      have noBracket : (host ++ ':' :: port).head? ≠ some '[' := by
        cases host with
        | nil => exact absurd rfl nonempty
        | cons char rest => exact unbracketed
      rw [if_neg noBracket, cut_append _ portless]
  | bracketed inner solid quotable closed =>
      have bracket : ']' ∉ '[' :: inner := by simp [closed]
      have parts := cutBracket_append port bracket
      have shape : '[' :: inner ++ [']'] ++ ':' :: port =
          '[' :: inner ++ ']' :: ':' :: port := by simp
      have opened :
          ('[' :: inner ++ ']' :: ':' :: port).head? = some '[' := rfl
      rw [shape, if_pos opened, parts]

theorem parseHostPort_text
    {host : String} {port : Nat} (shape : AddressText host.toList)
    (high : port ≤ 65535) :
    parseHostPort (host ++ ":" ++ toString port) =
      .ok (host, (port : Int)) := by
  have number : portNumber 0 (toString port).toList = some (port : Int) :=
    portNumber_natText (Nat.zero_le _) high
  have text : (host ++ ":" ++ toString port).toList =
      host.toList ++ ':' :: (toString port).toList := by
    simp [String.toList_append]
  rw [parseHostPort_of_split (shape.splitHostPort text),
    checkHostPort_ok shape.token.nonempty shape.quotable number,
    String.ofList_toList]

omit [Build] in
theorem cut_prefix {separator : Char} {text : List Char}
    {parts : List Char × List Char} (found : cut separator text = some parts) :
    parts.1 <+: text := by
  rw [cut] at found
  split_ifs at found with occurs
  rw [← Option.some.inj found]
  exact List.takeWhile_prefix _

omit [Build] in
theorem cutBracket_prefix {text : List Char} {parts : List Char × List Char}
    (found : cutBracket text = some parts) : parts.1 <+: text := by
  induction text generalizing parts with
  | nil => cases found
  | cons char rest inductionHypothesis =>
      rw [cutBracket] at found
      by_cases ends : char = ']' ∧ rest.head? = some ':'
      · rw [if_pos ends] at found
        rw [← Option.some.inj found, ends.1]
        exact List.prefix_cons_inj ']' |>.mpr List.nil_prefix
      · rw [if_neg ends, Option.map_eq_some_iff] at found
        obtain ⟨later, foundLater, rfl⟩ := found
        exact (List.prefix_cons_inj char).mpr (inductionHypothesis foundLater)

theorem splitHostPort_prefix {text : String} {host digits : List Char}
    (split : splitHostPort text = .ok (host, digits)) :
    host <+: text.toList := by
  unfold splitHostPort at split
  by_cases bracketed : text.toList.head? = some '['
  · rw [if_pos bracketed] at split
    cases found : cutBracket text.toList with
    | none =>
        rw [found] at split
        cases split
    | some parts =>
        rw [found] at split
        rw [← show parts.1 = host from congrArg Prod.fst (Except.ok.inj split)]
        exact cutBracket_prefix found
  · rw [if_neg bracketed] at split
    cases found : cut ':' text.toList with
    | none =>
        rw [found] at split
        cases split
    | some parts =>
        rw [found] at split
        rw [← show parts.1 = host from congrArg Prod.fst (Except.ok.inj split)]
        exact cut_prefix found

/-- The host of an address is what its text starts with. -/
theorem parseHostPort_prefix {text host : String} {port : Int}
    (parsed : parseHostPort text = .ok (host, port)) :
    host.toList <+: text.toList := by
  unfold parseHostPort at parsed
  cases split : splitHostPort text with
  | error error =>
      rw [split] at parsed
      cases parsed
  | ok parts =>
      rw [split] at parsed
      have checked : checkHostPort text parts.1 parts.2 = .ok (host, port) :=
        parsed
      unfold checkHostPort at checked
      cases number : portNumber 0 parts.2 with
      | none =>
          rw [number] at checked
          cases checked
      | some read =>
          rw [number] at checked
          dsimp only at checked
          split_ifs at checked
          obtain ⟨rfl, -⟩ := Prod.mk.inj (Except.ok.inj checked)
          rw [String.toList_ofList]
          exact splitHostPort_prefix split

end Acceptance

@[simp]
theorem inField_eq_ok {Value : Type} {name : String}
    {outcome : Except GoError Value} {value : Value} :
    inField name outcome = .ok value ↔ outcome = .ok value := by
  cases outcome <;> simp [inField, Except.mapError]

section Acceptance

variable [Build]

/-- A line is accepted when each of its fields is. -/
theorem parseFields_eq_ok_iff
    {timestamp service code username client target out into hops : String}
    {request : List String} {parsed : UsageRecord} :
    parseFields (timestamp :: service :: code :: username :: client ::
        target :: out :: into :: hops :: request) = .ok parsed ↔
      parseUnixMillis timestamp = .ok parsed.unixMillis ∧
      parseService service = .ok (parsed.service, parsed.port) ∧
      parseInt code "error code" = .ok parsed.errCode ∧
      parseUsername username = .ok parsed.username ∧
      parseHostPort client = .ok (parsed.clientIP, parsed.clientPort) ∧
      parseHostPort target = .ok (parsed.targetIP, parsed.targetPort) ∧
      parseByteCount out "bytes out" = .ok parsed.bytesToTarget ∧
      parseByteCount into "bytes in" = .ok parsed.bytesFromTarget ∧
      (∃ count, parseInt hops "hops" = .ok count) ∧
      join request " " = parsed.requestText := by
  simp only [parseFields, bind_eq_ok_iff, inField_eq_ok, pure, Except.pure,
    Prod.exists, Except.ok.injEq]
  constructor
  · rintro ⟨_, millis, _, _, name, _, number, _, user, _, _, source, _, _,
      destination, _, sent, _, received, _, depth, rfl⟩
    exact ⟨millis, name, number, user, source, destination, sent, received,
      ⟨_, depth⟩, rfl⟩
  · rintro ⟨millis, name, number, user, source, destination, sent, received,
      ⟨_, depth⟩, text⟩
    refine ⟨_, millis, _, _, name, _, number, _, user, _, _, source, _, _,
      destination, _, sent, _, received, _, depth, ?_⟩
    rw [text]

/-- An accepted line has a target and two counts. -/
theorem accepted_parts {fields : List String} {parsed : UsageRecord}
    (accepted : parseFields fields = .ok parsed) :
    (∃ target ∈ fields,
        parseHostPort target = .ok (parsed.targetIP, parsed.targetPort)) ∧
      (∃ out, parseByteCount out "bytes out" = .ok parsed.bytesToTarget) ∧
      ∃ into, parseByteCount into "bytes in" = .ok parsed.bytesFromTarget := by
  rcases fields with
    _ | ⟨timestamp, _ | ⟨service, _ | ⟨code, _ | ⟨username, _ | ⟨client,
      _ | ⟨target, _ | ⟨out, _ | ⟨into, _ | ⟨hops, request⟩⟩⟩⟩⟩⟩⟩⟩⟩
  case cons.cons.cons.cons.cons.cons.cons.cons.cons =>
    obtain ⟨-, -, -, -, -, read, sent, received, -⟩ :=
      parseFields_eq_ok_iff.mp accepted
    exact ⟨⟨target, by simp, read⟩, ⟨out, sent⟩, ⟨into, received⟩⟩
  all_goals cases accepted

theorem parseUnixMillis_text (record : LogRecord) :
    ∃ millis, parseUnixMillis record.timestampText = .ok millis := by
  have shape : record.timestampText.toList =
      (toString record.seconds).toList ++
        '.' :: (toString record.millis).toList := by
    simp [LogRecord.timestampText, String.toList_append]
  have parts : splitTimestamp record.timestampText =
      ((toString record.seconds).toList, (toString record.millis).toList) := by
    rw [splitTimestamp, shape, cut_append _ (natText_free _ '.' (by decide))]
    rfl
  have seconds :
      (atoi (String.ofList (splitTimestamp record.timestampText).1)).filter
        (0 ≤ ·) = some (record.seconds : Int) := by
    rw [parts, String.ofList_toList, atoi_natText record.seconds_lt]
    simp
  unfold parseUnixMillis
  rw [seconds]
  exact ⟨_, rfl⟩

theorem parseInt_intText {value : Int} (what : String)
    (fits : -2 ^ 63 ≤ value ∧ value < 2 ^ 63) :
    parseInt (toString value) what = .ok value := by
  rw [parseInt, atoi_intText fits]

theorem parseUsername_known {name : String}
    (known : ValidUsername name ∨ name = "-") :
    parseUsername name = .ok name := by
  rw [parseUsername]
  rcases known with valid | unauthenticated
  · rw [(validateUsername_eq_none_iff name).mpr valid]
  · cases validateUsername name with
    | none => rfl
    | some error => exact if_pos unauthenticated

theorem parseByteCount_eq_ok_iff {text what : String} {value : Int} :
    parseByteCount text what = .ok value ↔
      atoi text = some value ∧ 0 ≤ value := by
  rw [parseByteCount]
  cases number : atoi text with
  | none => simp
  | some read =>
      by_cases negative : read < 0
      · have other : read = value → value < 0 := by
          rintro rfl
          exact negative
        simpa [negative] using other
      · simp only [negative, ↓reduceIte, Except.ok.injEq,
          Option.some.injEq]
        omega

theorem parseByteCount_natText {value : Nat} (what : String)
    (fits : value < 2 ^ 63) :
    parseByteCount (toString value) what = .ok (value : Int) :=
  parseByteCount_eq_ok_iff.mpr
    ⟨atoi_natText fits, Int.natCast_nonneg value⟩

theorem parseInt_eq_ok_iff {text what : String} {value : Int} :
    parseInt text what = .ok value ↔ atoi text = some value := by
  rw [parseInt]
  cases atoi text <;> simp

namespace LogRecord

variable (record : LogRecord)

/-- The target host brings words of its own for the target, both byte
counts and the hops, with other counts than the record's, and ends
behind them. -/
def TargetCarriesCounts : Prop :=
  ∃ target out into hops word more,
    fields record.targetText =
      target :: out :: into :: hops :: word :: more ∧
    (∃ place, parseHostPort target = .ok place) ∧
    ∃ sent received depth,
      atoi out = some sent ∧ 0 ≤ sent ∧
      atoi into = some received ∧ 0 ≤ received ∧
      atoi hops = some depth ∧
      ¬(sent = record.bytesToTarget ∧
        received = record.bytesFromTarget)

/-- What the ledger takes from a line is the record's own. -/
def Unforged (parsed : UsageRecord) : Prop :=
  parsed.username = record.username ∧
    parsed.errCode = record.errCode ∧
    parsed.bytesToTarget = record.bytesToTarget ∧
    parsed.bytesFromTarget = record.bytesFromTarget

variable {record}

/-- The fields in front of the target are always the record's own, and
always accepted. -/
theorem parseLogLine_line_iff
    {target out into hops : String} {request : List String}
    {parsed : UsageRecord}
    (tail : fields record.targetText ++
      toString record.bytesToTarget ::
        toString record.bytesFromTarget ::
          toString record.hops :: fields record.request =
        target :: out :: into :: hops :: request) :
    parseLogLine record.line = .ok parsed ↔
      parseUnixMillis record.timestampText = .ok parsed.unixMillis ∧
      record.service = parsed.service ∧ record.port = parsed.port ∧
      record.errCode = parsed.errCode ∧
      record.username = parsed.username ∧
      record.clientIP = parsed.clientIP ∧
      record.clientPort = parsed.clientPort ∧
      parseHostPort target = .ok (parsed.targetIP, parsed.targetPort) ∧
      (atoi out = some parsed.bytesToTarget ∧
        0 ≤ parsed.bytesToTarget) ∧
      (atoi into = some parsed.bytesFromTarget ∧
        0 ≤ parsed.bytesFromTarget) ∧
      (∃ depth, atoi hops = some depth) ∧
      join request " " = parsed.requestText := by
  have service : parseService record.serviceText =
      .ok (record.service, (record.port : Int)) :=
    parseService_text record.service_token.nonempty record.port_pos
      record.port_le
  have client : parseHostPort record.clientText =
      .ok (record.clientIP, (record.clientPort : Int)) :=
    parseHostPort_text record.clientIP_shape record.clientPort_le
  rw [parseLogLine, fields_line, tail, parseFields_eq_ok_iff, service,
    client, parseInt_intText _ record.errCode_fits,
    parseUsername_known record.username_known]
  simp only [parseByteCount_eq_ok_iff, parseInt_eq_ok_iff,
    Except.ok.injEq, Prod.mk.injEq, and_assoc]

end LogRecord

/-- Accepted lines keep the record's own user, error code and byte
counts exactly when the target host carries no counts of its own. -/
theorem accounting_unforged_iff (record : LogRecord) :
    (∀ parsed, parseLogLine record.line = .ok parsed →
      record.Unforged parsed) ↔
    ¬record.TargetCarriesCounts := by
  constructor
  · intro unforged carries
    obtain ⟨target, out, into, hops, word, more, words, ⟨place, known⟩,
      sent, received, depth, sentText, sentPositive, receivedText,
      receivedPositive, depthText, foreign⟩ := carries
    obtain ⟨millis, stamped⟩ := parseUnixMillis_text record
    have tail : fields record.targetText ++
        toString record.bytesToTarget ::
          toString record.bytesFromTarget ::
            toString record.hops :: fields record.request =
          target :: out :: into :: hops :: (word :: more ++
            toString record.bytesToTarget ::
              toString record.bytesFromTarget ::
                toString record.hops :: fields record.request) := by
      simp [words]
    let parsed : UsageRecord := {
      unixMillis := millis
      service := record.service
      port := record.port
      errCode := record.errCode
      username := record.username
      clientIP := record.clientIP
      clientPort := record.clientPort
      targetIP := place.1
      targetPort := place.2
      bytesToTarget := sent
      bytesFromTarget := received
      requestText := join (word :: more ++
            toString record.bytesToTarget ::
              toString record.bytesFromTarget ::
                toString record.hops :: fields record.request) " " }
    have accepted : parseLogLine record.line = .ok parsed :=
      (LogRecord.parseLogLine_line_iff tail).mpr
        ⟨stamped, rfl, rfl, rfl, rfl, rfl, rfl, known,
          ⟨sentText, sentPositive⟩, ⟨receivedText, receivedPositive⟩,
          ⟨depth, depthText⟩, rfl⟩
    obtain ⟨_, _, ownSent, ownReceived⟩ := unforged parsed accepted
    exact foreign ⟨ownSent, ownReceived⟩
  · intro clean parsed accepted
    obtain ⟨words, start, port, shape⟩ := record.fields_targetText
    have noCount := atoi_colon start port
    -- The fields after the client depend on how many words the target
    -- has; the last of them holds the colon.
    rcases words with _ | ⟨first, _ | ⟨second, _ | ⟨third, _ |
      ⟨fourth, more⟩⟩⟩⟩
    · obtain ⟨_, _, _, code, user, _, _, _, ⟨sent, _⟩, ⟨received, _⟩, _⟩ :=
        (LogRecord.parseLogLine_line_iff (by rw [shape]; rfl)).mp accepted
      rw [atoi_natText record.bytesToTarget_lt] at sent
      rw [atoi_natText record.bytesFromTarget_lt] at received
      exact ⟨user.symm, code.symm, (Option.some.inj sent).symm,
        (Option.some.inj received).symm⟩
    · obtain ⟨_, _, _, _, _, _, _, _, ⟨sent, _⟩, _⟩ :=
        (LogRecord.parseLogLine_line_iff (by rw [shape]; rfl)).mp accepted
      rw [noCount] at sent
      exact absurd sent (by simp)
    · obtain ⟨_, _, _, _, _, _, _, _, _, ⟨received, _⟩, _⟩ :=
        (LogRecord.parseLogLine_line_iff (by rw [shape]; rfl)).mp accepted
      rw [noCount] at received
      exact absurd received (by simp)
    · obtain ⟨_, _, _, _, _, _, _, _, _, _, ⟨depth, number⟩, _⟩ :=
        (LogRecord.parseLogLine_line_iff (by rw [shape]; rfl)).mp accepted
      rw [noCount] at number
      exact absurd number (by simp)
    · obtain ⟨_, _, _, code, user, _, _, place, ⟨sent, sentPositive⟩,
        ⟨received, receivedPositive⟩, ⟨depth, number⟩, _⟩ :=
        (LogRecord.parseLogLine_line_iff (by rw [shape]; rfl)).mp accepted
      by_contra forged
      apply clean
      have split : ∃ word rest, more ++
          [String.ofList (start ++ ':' :: port)] = word :: rest := by
        cases more with
        | nil => exact ⟨_, _, rfl⟩
        | cons head rest => exact ⟨_, _, rfl⟩
      obtain ⟨word, rest, last⟩ := split
      refine ⟨first, second, third, fourth, word, rest, ?_, ⟨_, place⟩,
        _, _, depth, sent, sentPositive, received, receivedPositive,
        number, ?_⟩
      · rw [shape, ← last]
        rfl
      · intro own
        exact forged ⟨user.symm, code.symm, own⟩

end Acceptance

/-- A client asked for the host `evil.example:80 0 0 0 x`. -/
def hostileRecord : LogRecord where
  seconds := 1760380800
  millis := 123
  service := "proxy"
  port := 3128
  errCode := 0
  username := "bob"
  clientIP := "203.0.113.7"
  clientPort := 52222
  targetHost := "evil.example:80 0 0 0 x"
  targetPort := 443
  bytesToTarget := 1049
  bytesFromTarget := 95128
  hops := 0
  request := "CONNECT"
  seconds_lt := by decide
  millis_lt := by decide
  service_token := ⟨by decide, by simp [isSpace]⟩
  port_pos := by decide
  port_le := by decide
  errCode_fits := by decide
  username_known :=
    Or.inl ⟨by decide, ⟨'b', ['o', 'b'], rfl, rfl⟩, by simp; decide⟩
  clientIP_shape :=
    .plain _ (by decide) (by simp [isSpace]) (by simp; decide)
      (by decide) (by decide)
  clientPort_le := by decide
  targetPort_le := by decide
  targetHost_line := by decide
  bytesToTarget_lt := by decide
  bytesFromTarget_lt := by decide
  hops_fits := by decide
  request_line := by decide

theorem target_words_forge_counts :
    ¬∀ (_ : Build) (record : LogRecord) (parsed : UsageRecord),
      parseLogLine record.line = .ok parsed → record.Unforged parsed := by
  intro unforged
  have accepted :
      let _ := Build.dev
      parseLogLine hostileRecord.line = .ok {
        unixMillis := 1760380800123, service := "proxy", port := 3128
        errCode := 0, username := "bob"
        clientIP := "203.0.113.7", clientPort := 52222
        targetIP := "evil.example", targetPort := 80
        bytesToTarget := 0, bytesFromTarget := 0
        requestText := "x:443 1049 95128 0 CONNECT" } := by
    decide +kernel
  obtain ⟨_, _, sent, _⟩ := unforged Build.dev hostileRecord _ accepted
  exact absurd sent (by decide)

end Xoxproxy.Engine
