import Mathlib.Data.String.Basic
import Xoxproxy.Engine.Access

/-!
# What a rendered configuration says

The rules of a configuration file are its `users`, `allow`, `bandlim*` and
`count*` lines.  A rendered file has exactly the rules of the rendered
users, word for word, and they can be read back from it.
-/

namespace Xoxproxy

open TextLines

section Header

/-- A directive and what follows it. -/
def directiveLine (directive value : String) : List Char :=
  directive.toList ++ ' ' :: value.toList

theorem configLine_lines (directive value : String) :
    (configLine directive value).toList =
      joinLines [directiveLine directive value] := by
  simp [configLine, directiveLine]

theorem optional_lines
    {condition : Prop} [Decidable condition]
    {text : String} {lines : List (List Char)}
    (same : text.toList = joinLines lines) :
    (if condition then text else "").toList =
      joinLines (if condition then lines else []) := by
  by_cases holds : condition
  · rw [if_pos holds, if_pos holds, same]
  · rw [if_neg holds, if_neg holds]
    rfl

theorem ipRe_newline_free {text : String} (accepted : ipRe text = true) :
    '\n' ∉ text.toList := by
  intro member
  unfold ipRe at accepted
  rw [Bool.and_eq_true, List.all_eq_true] at accepted
  exact absurd (accepted.2 '\n' member) (by decide)

/-- The directives of the rules. -/
def ruleDirectives : List (List Char) :=
  ["users".toList, "allow".toList, "bandlimin".toList,
    "bandlimout".toList, "countin".toList, "countout".toList,
    "countall".toList]

/-- Whether the words of a line make a rule. -/
def isRule (words : List (List Char)) : Bool :=
  match words with
  | [] => false
  | directive :: _ => ruleDirectives.contains directive

theorem isRule_of_directive {directive : List Char}
    (listed : directive ∈ ruleDirectives) (rest : List (List Char)) :
    isRule (directive :: rest) = true :=
  List.contains_iff_mem.mpr listed

theorem noRule_of_directive {directive : List Char}
    (other : directive ∉ ruleDirectives) (rest : List (List Char)) :
    isRule (directive :: rest) = false := by
  rw [isRule, Bool.eq_false_iff, Ne, List.contains_iff_mem]
  exact other

/-- A line that stays one line and is no rule. -/
structure Inoffensive (line : List Char) : Prop where
  free : '\n' ∉ line
  noRule : isRule (tokens line) = false

/-- A word that makes a line inoffensive, whatever follows it. -/
def OtherDirective (directive : String) : Prop :=
  Plain directive.toList ∧ directive.toList ≠ [] ∧
    directive.toList ∉ ruleDirectives ∧ '\n' ∉ directive.toList

instance : DecidablePred OtherDirective :=
  fun _ => inferInstanceAs (Decidable (_ ∧ _))

theorem inoffensive_of_directive {directive value : String}
    (other : OtherDirective directive) (free : '\n' ∉ value.toList) :
    Inoffensive (directiveLine directive value) := by
  obtain ⟨plain, nonempty, noRule, directiveFree⟩ := other
  constructor
  · unfold directiveLine
    rw [List.mem_append, List.mem_cons]
    rintro (inDirective | blank | inValue)
    · exact directiveFree inDirective
    · exact absurd blank (by decide)
    · exact free inValue
  · unfold directiveLine
    rw [tokens_directive plain nonempty]
    exact noRule_of_directive noRule _

variable [Build]

/-- The lines in front of the group and user ids. -/
def openingLines (settings : Settings) : List (List Char) :=
  [directiveLine "#" "Managed by xoxproxy — DO NOT EDIT."] ++
  [directiveLine "#" ("Regenerated and deployed by the control plane; " ++
    "manual changes are lost.")] ++
  [directiveLine "#" ("generated by " ++ banner)] ++
  [directiveLine "config" (quote settings.configFile)] ++
  [directiveLine "pidfile" (quote settings.pidFile)]

/-- The group and user ids are written as they are. -/
def idLines (settings : Settings) : List (List Char) :=
  (if settings.setGID ≠ "" then
    [directiveLine "setgid" settings.setGID] else []) ++
  (if settings.setUID ≠ "" then
    [directiveLine "setuid" settings.setUID] else [])

/-- The lines behind the ids. -/
def remainingLines (settings : Settings) : List (List Char) :=
  settings.nameservers.map (directiveLine "nserver") ++
  (if settings.nameservers.length > 0 then
    [directiveLine "nscache" (toString nscacheSize),
      directiveLine "nscache6" (toString nscacheSize)]
    else []) ++
  (if settings.maxConns > 0 then
    [directiveLine "maxconn" (toString settings.maxConns)] else []) ++
  [directiveLine "log" (quote settings.logFile ++ " D")] ++
  (if settings.rotate > 0 then
    [directiveLine "rotate" (toString settings.rotate)] else []) ++
  [directiveLine "logformat" (quote logFormat)] ++
  [directiveLine "counter" (quote settings.counterFile)]

/-- The lines of a header without user and group ids. -/
def headerLines (settings : Settings) : List (List Char) :=
  openingLines settings ++ remainingLines settings

theorem renderHeader_parts (settings : Settings) :
    (renderHeader settings).toList =
      joinLines (openingLines settings ++ idLines settings ++
        remainingLines settings) := by
  have servers : ∀ servers : List String,
      (String.join (servers.map (configLine "nserver"))).toList =
        joinLines (servers.map (directiveLine "nserver")) := by
    intro servers
    rw [String.toList_join]
    induction servers with
    | nil => rfl
    | cons server servers inductionHypothesis =>
        rw [List.map_cons, List.flatMap_cons, inductionHypothesis,
          List.map_cons, joinLines_cons, configLine_lines]
        simp
  have managed : "# Managed by xoxproxy — DO NOT EDIT.\n" =
      configLine "#" "Managed by xoxproxy — DO NOT EDIT." := by
    decide +kernel
  have regenerated :
      "# Regenerated and deployed by the control plane; " =
        "#" ++ " " ++ "Regenerated and deployed by the control plane; " := by
    decide +kernel
  have manual : "manual changes are lost.\n" =
      "manual changes are lost." ++ "\n" := by
    decide +kernel
  have generated : "# generated by " = "#" ++ " " ++ "generated by " := by
    decide +kernel
  have shape : renderHeader settings =
      configLine "#" "Managed by xoxproxy — DO NOT EDIT." ++
      configLine "#" ("Regenerated and deployed by the control plane; " ++
        "manual changes are lost.") ++
      configLine "#" ("generated by " ++ banner) ++
      configLine "config" (quote settings.configFile) ++
      configLine "pidfile" (quote settings.pidFile) ++
      (if settings.setGID ≠ "" then configLine "setgid" settings.setGID
        else "") ++
      (if settings.setUID ≠ "" then configLine "setuid" settings.setUID
        else "") ++
      String.join (settings.nameservers.map (configLine "nserver")) ++
      (if settings.nameservers.length > 0 then
        "nscache " ++ toString nscacheSize ++ "\nnscache6 " ++
          toString nscacheSize ++ "\n"
        else "") ++
      (if settings.maxConns > 0 then
        configLine "maxconn" (toString settings.maxConns) else "") ++
      configLine "log" (quote settings.logFile ++ " D") ++
      (if settings.rotate > 0 then
        configLine "rotate" (toString settings.rotate) else "") ++
      configLine "logformat" (quote logFormat) ++
      configLine "counter" (quote settings.counterFile) := by
    have comment : ∀ before first second : String,
        before ++ ("#" ++ " " ++ first) ++ second ++ "\n" =
          before ++ configLine "#" (first ++ second) := by
      intro before first second
      simp only [configLine, String.append_assoc]
    unfold renderHeader
    rw [managed, regenerated, manual, generated]
    rw [← @String.append_assoc _ "manual changes are lost." "\n", comment,
      comment]
  have caches :
      ("nscache " ++ toString nscacheSize ++ "\nnscache6 " ++
        toString nscacheSize ++ "\n").toList =
        joinLines ([directiveLine "nscache" (toString nscacheSize),
          directiveLine "nscache6" (toString nscacheSize)]) := by
    decide +kernel
  rw [shape, openingLines, idLines, remainingLines]
  simp only [String.toList_append, joinLines_append]
  rw [servers, optional_lines caches,
    optional_lines (configLine_lines "setgid" _),
    optional_lines (configLine_lines "setuid" _),
    optional_lines (configLine_lines "maxconn" _),
    optional_lines (configLine_lines "rotate" _)]
  simp only [configLine_lines, List.append_assoc]

theorem renderHeader_lines {settings : Settings}
    (noUID : settings.setUID = "") (noGID : settings.setGID = "") :
    (renderHeader settings).toList = joinLines (headerLines settings) := by
  have noIds : idLines settings = [] := by
    simp [idLines, noUID, noGID]
  rw [renderHeader_parts, noIds, List.append_nil, headerLines]

/-- Accepted settings name their nameservers by address. -/
theorem nameservers_of_validate {settings : Settings}
    (valid : settings.validate = none) :
    ∀ server ∈ settings.nameservers, ipRe server = true := by
  have errors : settings.errors = [] := by
    unfold Settings.validate at valid
    split at valid
    · assumption
    · cases valid
    · cases valid
  unfold Settings.errors at errors
  have bad := (List.append_eq_nil_iff.mp errors).2
  rw [List.map_eq_nil_iff, List.filter_eq_nil_iff] at bad
  intro server member
  simpa using bad server member

theorem banner_newline_free : '\n' ∉ banner.toList := by
  obtain ⟨version, commit, go⟩ := Build.singleLine
  unfold banner
  simp only [String.toList_append, List.mem_append, version, commit, go,
    or_false]
  decide

theorem openingLines_inoffensive (settings : Settings) :
    ∀ line ∈ openingLines settings, Inoffensive line := by
  intro line member
  unfold openingLines at member
  simp only [List.mem_append, List.mem_singleton] at member
  rcases member with (((rfl | rfl) | rfl) | rfl) | rfl
  · exact inoffensive_of_directive (by decide) (by decide)
  · exact inoffensive_of_directive (by decide) (by decide)
  · apply inoffensive_of_directive (by decide)
    rw [String.toList_append, List.mem_append, not_or]
    exact ⟨by decide, banner_newline_free⟩
  · exact inoffensive_of_directive (by decide) (quote_newline_free _)
  · exact inoffensive_of_directive (by decide) (quote_newline_free _)

theorem remainingLines_inoffensive {settings : Settings}
    (valid : settings.validate = none) :
    ∀ line ∈ remainingLines settings, Inoffensive line := by
  intro line member
  unfold remainingLines at member
  simp only [List.mem_append, List.mem_singleton] at member
  rcases member with (((((server | cache) | conn) | rfl) | rotate) | rfl) |
    rfl
  · obtain ⟨name, listed, rfl⟩ := List.mem_map.mp server
    exact inoffensive_of_directive (by decide)
      (ipRe_newline_free (nameservers_of_validate valid name listed))
  · split at cache
    · rcases List.mem_cons.mp cache with rfl | second
      · exact inoffensive_of_directive (by decide) (by decide)
      · rw [List.mem_singleton.mp second]
        exact inoffensive_of_directive (by decide) (by decide)
    · cases cache
  · split at conn
    · rw [List.mem_singleton.mp conn]
      exact inoffensive_of_directive (by decide) (toString_newline_free _)
    · cases conn
  · apply inoffensive_of_directive (by decide)
    rw [String.toList_append, List.mem_append, not_or]
    exact ⟨quote_newline_free _, by decide⟩
  · split at rotate
    · rw [List.mem_singleton.mp rotate]
      exact inoffensive_of_directive (by decide) (toString_newline_free _)
    · cases rotate
  · exact inoffensive_of_directive (by decide) (quote_newline_free _)
  · exact inoffensive_of_directive (by decide) (quote_newline_free _)

theorem headerLines_inoffensive {settings : Settings}
    (valid : settings.validate = none) :
    ∀ line ∈ headerLines settings, Inoffensive line := by
  intro line member
  rcases List.mem_append.mp member with opening | remaining
  · exact openingLines_inoffensive settings line opening
  · exact remainingLines_inoffensive valid line remaining

end Header

/-! ## The rules of the users -/

/-- The words of every line of a text that is a rule. -/
def ruleLines (text : String) : List (List (List Char)) :=
  ((allLines text.toList).map tokens).filter isRule

def accountWords (user : User) : List (List Char) :=
  ["users".toList, accountEntry user]

def allowWords (user : User) : List (List Char) :=
  ["allow".toList, user.username.toList]

def bandwidthWords (directive : String) (limit : Int) (user : User) :
    List (List Char) :=
  [directive.toList, (toString limit).toList, user.username.toList]

def quotaWords (user : User) (quota : Quota) : List (List Char) :=
  [("count" ++ quota.direction.name).toList,
    (toString user.recordNumber).toList,
    (periodLetter quota.period).toList,
    (toString (quota.limitBytes.tdiv miB)).toList, user.username.toList]

def limitWords (user : User) : List (List (List Char)) :=
  (if user.downloadBPS > 0 then
    [bandwidthWords "bandlimin" user.downloadBPS user] else []) ++
  (if user.uploadBPS > 0 then
    [bandwidthWords "bandlimout" user.uploadBPS user] else []) ++
  match user.quota with
  | none => []
  | some quota => [quotaWords user quota]

/-- The rules that a list of users calls for. -/
def rulesOf (users : List User) : List (List (List Char)) :=
  users.map accountWords ++ users.flatMap limitWords ++
    (users.filter fun user => hasProtocol user protoHTTP).map allowWords ++
    (users.filter fun user => hasProtocol user protoSOCKS5).map allowWords

theorem tokensFrom_word
    {word : List Char} (plain : Plain word) (nonempty : word ≠ [])
    (rest : List Char) :
    tokensFrom false none (word ++ ' ' :: rest) =
      word :: tokensFrom false none rest :=
  tokens_directive plain nonempty rest

theorem toString_nonempty (value : Int) : (toString value).toList ≠ [] := by
  rw [Int.toString_eq_repr]
  cases value with
  | ofNat magnitude =>
      have digits : (Int.ofNat magnitude).repr.toList =
          magnitude.repr.toList := rfl
      rw [digits, Nat.toList_repr]
      exact Nat.toDigits_ne_nil
  | negSucc magnitude =>
      have signed : (Int.negSucc magnitude).repr =
          "-" ++ (magnitude + 1).repr := rfl
      rw [signed, String.toList_append]
      simp

theorem tokens_bandwidth
    {directive : String} (plain : Plain directive.toList)
    (nonempty : directive.toList ≠ []) (limit : Int) {user : User}
    (valid : ValidUsername user.username) :
    tokens (bandwidthLine directive limit user) =
      bandwidthWords directive limit user := by
  rw [bandwidthLine, tokens_directive plain nonempty,
    tokensFrom_word (visible_plain (toString_visible limit))
      (toString_nonempty limit),
    tokensFrom_last (visible_plain valid.visible) valid.nonempty]
  rfl

theorem periodLetter_cases {quota : Quota} (valid : ValidQuota quota) :
    periodLetter quota.period = "D" ∨ periodLetter quota.period = "W" ∨
      periodLetter quota.period = "M" := by
  rcases valid.period with period | period | period <;>
    rw [period] <;> decide

theorem tokens_quota
    {user : User} (valid : ValidUser user) {quota : Quota}
    (has : user.quota = some quota) :
    tokens (quotaLine user quota) = quotaWords user quota := by
  have directive : Plain ("count" ++ quota.direction.name).toList ∧
      ("count" ++ quota.direction.name).toList ≠ [] := by
    rcases countDirective_cases (valid.quota quota has) with
      shape | shape | shape <;> rw [shape] <;> decide
  have letter : Plain (periodLetter quota.period).toList ∧
      (periodLetter quota.period).toList ≠ [] := by
    rcases periodLetter_cases (valid.quota quota has) with
      shape | shape | shape <;> rw [shape] <;> decide
  unfold quotaLine quotaWords
  rw [tokens_directive directive.1 directive.2,
    tokensFrom_word (visible_plain (toString_visible _))
      (toString_nonempty _),
    tokensFrom_word letter.1 letter.2,
    tokensFrom_word (visible_plain (toString_visible _))
      (toString_nonempty _),
    tokensFrom_last (visible_plain valid.name.visible) valid.name.nonempty]

theorem tokens_limits {user : User} (valid : ValidUser user) :
    (limitLines user).map tokens = limitWords user := by
  have bandwidth : ∀ {directive : String} (limit : Int),
      Plain directive.toList → directive.toList ≠ [] →
        (if limit > 0 then [bandwidthLine directive limit user]
          else []).map tokens =
          if limit > 0 then [bandwidthWords directive limit user]
          else [] := by
    intro directive limit plain nonempty
    by_cases positive : limit > 0
    · rw [if_pos positive, if_pos positive, List.map_singleton,
        tokens_bandwidth plain nonempty limit valid.name]
    · rw [if_neg positive, if_neg positive, List.map_nil]
  have counted :
      (match user.quota with
        | none => []
        | some quota => [quotaLine user quota]).map tokens =
        match user.quota with
        | none => []
        | some quota => [quotaWords user quota] := by
    cases quotaShape : user.quota with
    | none => rfl
    | some quota =>
        change [tokens (quotaLine user quota)] = [quotaWords user quota]
        rw [tokens_quota valid quotaShape]
  rw [limitLines, limitWords, List.map_append, List.map_append,
    bandwidth _ (by decide) (by decide),
    bandwidth _ (by decide) (by decide)]
  exact congrArg (_ ++ ·) counted

theorem mem_limitWords {user : User} {words : List (List Char)}
    (member : words ∈ limitWords user) :
    words = bandwidthWords "bandlimin" user.downloadBPS user ∨
      words = bandwidthWords "bandlimout" user.uploadBPS user ∨
        ∃ quota, user.quota = some quota ∧ words = quotaWords user quota := by
  simp only [limitWords, List.mem_append] at member
  rcases member with (download | upload) | counted
  · split at download
    · exact Or.inl (List.mem_singleton.mp download)
    · cases download
  · split at upload
    · exact Or.inr (Or.inl (List.mem_singleton.mp upload))
    · cases upload
  · cases quotaShape : user.quota with
    | none =>
        rw [quotaShape] at counted
        cases counted
    | some quota =>
        rw [quotaShape] at counted
        exact Or.inr (Or.inr ⟨quota, rfl, List.mem_singleton.mp counted⟩)

theorem isRule_limitWords {user : User} (valid : ValidUser user) :
    ∀ words ∈ limitWords user, isRule words = true := by
  intro words member
  rcases mem_limitWords member with rfl | rfl | ⟨quota, has, rfl⟩
  · exact isRule_of_directive (by decide) _
  · exact isRule_of_directive (by decide) _
  · refine isRule_of_directive ?_ _
    rcases countDirective_cases (valid.quota quota has) with
      shape | shape | shape <;> rw [shape] <;> decide

/-- The rules among some lines. -/
def rulesIn (lines : List (List Char)) : List (List (List Char)) :=
  (lines.map tokens).filter isRule

theorem rulesIn_append (first second : List (List Char)) :
    rulesIn (first ++ second) = rulesIn first ++ rulesIn second := by
  rw [rulesIn, List.map_append, List.filter_append]
  rfl

theorem rulesIn_cons_inoffensive {line : List Char}
    (noRule : isRule (tokens line) = false) (lines : List (List Char)) :
    rulesIn (line :: lines) = rulesIn lines := by
  rw [rulesIn, List.map_cons, List.filter_cons_of_neg (by simp [noRule])]
  rfl

theorem rulesIn_eq_nil {lines : List (List Char)}
    (inoffensive : ∀ line ∈ lines, isRule (tokens line) = false) :
    rulesIn lines = [] := by
  rw [rulesIn, List.filter_eq_nil_iff]
  intro words member
  obtain ⟨line, listed, rfl⟩ := List.mem_map.mp member
  simp [inoffensive line listed]

theorem rulesIn_eq_map {lines : List (List Char)}
    {words : List (List (List Char))}
    (read : lines.map tokens = words)
    (rules : ∀ rule ∈ words, isRule rule = true) : rulesIn lines = words := by
  rw [rulesIn, read, List.filter_eq_self]
  exact rules

theorem noRule_comment (rest : List Char) :
    isRule (tokens ('#' :: ' ' :: rest)) = false := by
  have words : tokens ('#' :: ' ' :: rest) =
      ['#'] :: tokensFrom false none rest :=
    @tokens_directive ['#'] (by decide) (by decide) rest
  rw [words]
  exact noRule_of_directive (by decide) _

theorem rulesIn_service
    {users : List User} (name : String) {directive : String} (port : Int)
    (protocol : Protocol)
    (valid : ∀ user ∈ users, ValidUsername user.username)
    (other : OtherDirective directive) :
    rulesIn (serviceLines users name directive port protocol) =
      (users.filter fun user => hasProtocol user protocol).map
        allowWords := by
  have title : isRule (tokens (serviceTitle name)) = false :=
    noRule_comment ("--- ".toList ++ name.toList ++ " ---".toList)
  have allows : rulesIn
      ((users.filter fun user => hasProtocol user protocol).map allowLine) =
        (users.filter fun user => hasProtocol user protocol).map
          allowWords := by
    apply rulesIn_eq_map
    · rw [List.map_map]
      apply List.map_congr_left
      intro user member
      exact tokens_allow (valid user (List.mem_of_mem_filter member))
    · intro rule member
      obtain ⟨user, -, rfl⟩ := List.mem_map.mp member
      exact isRule_of_directive (by decide) _
  have started : rulesIn [serviceLine directive port] = [] := by
    apply rulesIn_eq_nil
    intro line member
    rw [List.mem_singleton.mp member]
    have flag : serviceLine directive port =
        directiveLine directive ("-p" ++ toString port) := by
      rw [serviceLine, directiveLine, String.toList_append]
    have free : '\n' ∉ ("-p" ++ toString port).toList := by
      rw [String.toList_append, List.mem_append, not_or]
      exact ⟨by decide, toString_newline_free port⟩
    rw [flag]
    exact (inoffensive_of_directive other free).noRule
  rw [serviceLines, rulesIn_cons_inoffensive rfl,
    rulesIn_cons_inoffensive title, rulesIn_cons_inoffensive (by decide),
    rulesIn_append, allows, started, List.append_nil]

theorem rulesIn_limits {users : List User}
    (valid : ∀ user ∈ users, ValidUser user) :
    rulesIn ([] :: "# --- limits ---".toList ::
        users.flatMap limitLines) = users.flatMap limitWords := by
  have limits : rulesIn (users.flatMap limitLines) =
      users.flatMap limitWords := by
    apply rulesIn_eq_map
    · rw [List.map_flatMap]
      apply List.flatMap_congr
      intro user member
      exact tokens_limits (valid user member)
    · intro rule member
      obtain ⟨user, listed, limit⟩ := List.mem_flatMap.mp member
      exact isRule_limitWords (valid user listed) rule limit
  rw [rulesIn_cons_inoffensive rfl, rulesIn_cons_inoffensive (by decide),
    limits]

section Rules

variable [Build] {users : List User}

theorem rulesIn_accounts
    (valid : ∀ user ∈ users, ValidUsername user.username)
    (hashes : ∀ user ∈ users, engineHashRe user.engineHash = true) :
    rulesIn ([] :: "# --- accounts ---".toList :: "auth strong".toList ::
        users.map accountLine) = users.map accountWords := by
  have accounts : rulesIn (users.map accountLine) =
      users.map accountWords := by
    apply rulesIn_eq_map
    · rw [List.map_map]
      apply List.map_congr_left
      intro user member
      exact tokens_account (valid user member) (hashes user member)
    · intro rule member
      obtain ⟨user, -, rfl⟩ := List.mem_map.mp member
      exact isRule_of_directive (by decide) _
  rw [rulesIn_cons_inoffensive rfl, rulesIn_cons_inoffensive (by decide),
    rulesIn_cons_inoffensive (by decide), accounts]

/-- The lines of a rendered file, when no ids are set. -/
theorem allLines_renderText {settings : Settings}
    (settingsValid : settings.validate = none)
    (noUID : settings.setUID = "") (noGID : settings.setGID = "")
    (valid : ∀ user ∈ users, ValidUser user) :
    allLines (renderText settings users).toList =
      headerLines settings ++ sectionLines settings users := by
  have free : ∀ line ∈ headerLines settings, '\n' ∉ line :=
    fun line member =>
      (headerLines_inoffensive settingsValid line member).free
  have header := splitLines_joinLines_append [] free
  rw [List.append_nil] at header
  rw [renderText_lines valid, renderHeader_lines noUID noGID, header]
  simp

/-- The rules of a rendered file are those that its users call for. -/
theorem ruleLines_renderText {settings : Settings}
    (settingsValid : settings.validate = none)
    (noUID : settings.setUID = "") (noGID : settings.setGID = "")
    (valid : ∀ user ∈ users, ValidUser user)
    (hashes : ∀ user ∈ users, engineHashRe user.engineHash = true) :
    ruleLines (renderText settings users) = rulesOf users := by
  have names : ∀ user ∈ users, ValidUsername user.username :=
    fun user member => (valid user member).name
  have header : rulesIn (headerLines settings) = [] :=
    rulesIn_eq_nil fun line member =>
      (headerLines_inoffensive settingsValid line member).noRule
  change rulesIn (allLines (renderText settings users).toList) = _
  rw [allLines_renderText settingsValid noUID noGID valid, rulesIn_append,
    header, sectionLines, rulesIn_append, rulesIn_append, rulesIn_append,
    rulesIn_accounts names hashes, rulesIn_limits valid,
    rulesIn_service _ _ _ names (by decide),
    rulesIn_service _ _ _ names (by decide)]
  rfl

end Rules

/-! ## Reading the rules back -/

/-- A quota as the engine is told of it. -/
structure QuotaRule where
  recordNumber : Int
  period : Period
  direction : Direction
  mebibytes : Int
  deriving DecidableEq, Repr

/-- What a configuration says about its users. -/
structure UserRules where
  accounts : List (String × String)
  downloads : List (String × Int)
  uploads : List (String × Int)
  quotas : List (String × QuotaRule)
  http : List String
  socks5 : List String
  deriving DecidableEq, Repr

def readNumber (word : List Char) : Option Int :=
  (decimal word).map Int.ofNat

/-- A name and a hash, with `:CR:` between them. -/
def readAccount : List (List Char) → Option (String × String)
  | [directive, entry] =>
      if directive = "users".toList then
        some (String.ofList (entry.takeWhile (· ≠ ':')),
          String.ofList ((entry.dropWhile (· ≠ ':')).drop 4))
      else none
  | _ => none

def readBandwidth (directive : String) :
    List (List Char) → Option (String × Int)
  | [word, limit, name] =>
      if word = directive.toList then
        (readNumber limit).map fun value => (String.ofList name, value)
      else none
  | _ => none

def readDirection (word : List Char) : Option Direction :=
  [dirIn, dirOut, dirAll].find? fun direction =>
    word = ("count" ++ direction.name).toList

def readPeriod (word : List Char) : Option Period :=
  [periodDaily, periodWeekly, periodMonthly].find? fun period =>
    word = (periodLetter period).toList

def readQuota : List (List Char) → Option (String × QuotaRule)
  | [word, record, period, limit, name] => do
      let direction ← readDirection word
      let record ← readNumber record
      let period ← readPeriod period
      let limit ← readNumber limit
      pure (String.ofList name, ⟨record, period, direction, limit⟩)
  | _ => none

/-- The names that a service lets through. -/
def readAllowed (text : String) (service : Service) : List String :=
  ((serviceAcl (engineConfig text) service).getD []).map String.ofList

def readRules (text : String) : UserRules where
  accounts := (ruleLines text).filterMap readAccount
  downloads := (ruleLines text).filterMap (readBandwidth "bandlimin")
  uploads := (ruleLines text).filterMap (readBandwidth "bandlimout")
  quotas := (ruleLines text).filterMap readQuota
  http := readAllowed text .http
  socks5 := readAllowed text .socks5

/-- What is to be said about some users: limits that are positive, and
quotas in whole mebibytes, rounded down. -/
def userRules (users : List User) : UserRules where
  accounts := users.map fun user => (user.username, user.engineHash)
  downloads := users.filterMap fun user =>
    if user.downloadBPS > 0 then some (user.username, user.downloadBPS)
    else none
  uploads := users.filterMap fun user =>
    if user.uploadBPS > 0 then some (user.username, user.uploadBPS)
    else none
  quotas := users.filterMap fun user => user.quota.map fun quota =>
    (user.username, ⟨user.recordNumber, quota.period, quota.direction,
      quota.limitBytes / miB⟩)
  http := (users.filter fun user => hasProtocol user protoHTTP).map
    User.username
  socks5 := (users.filter fun user => hasProtocol user protoSOCKS5).map
    User.username

theorem readNumber_toString {value : Int} (positive : 0 ≤ value) :
    readNumber (toString value).toList = some value := by
  obtain ⟨magnitude, rfl⟩ := Int.eq_ofNat_of_zero_le positive
  have text : toString (magnitude : Int) = toString magnitude := rfl
  rw [readNumber, text, decimal_natText]
  rfl

theorem readAccount_accountWords {user : User}
    (valid : ValidUsername user.username) :
    readAccount (accountWords user) =
      some (user.username, user.engineHash) := by
  have noColon : ∀ char ∈ user.username.toList, char ≠ ':' := by
    rintro char member rfl
    exact valid.char_ne (by decide) member
  have rest : (accountEntry user).dropWhile (· ≠ ':') =
      ":CR:".toList ++ user.engineHash.toList := by
    rw [accountEntry, String.toList_append, String.toList_append,
      List.append_assoc,
      List.dropWhile_append_of_pos (by simpa using noColon)]
    rfl
  rw [accountWords, readAccount, if_pos rfl, accountEntry_name valid, rest]
  simp

theorem readBandwidth_words {directive : String} {limit : Int}
    (positive : 0 ≤ limit) (user : User) :
    readBandwidth directive (bandwidthWords directive limit user) =
      some (user.username, limit) := by
  rw [bandwidthWords, readBandwidth, if_pos rfl,
    readNumber_toString positive]
  simp

theorem readQuota_quotaWords {user : User} (valid : ValidUser user)
    {quota : Quota} (has : user.quota = some quota) :
    readQuota (quotaWords user quota) =
      some (user.username, ⟨user.recordNumber, quota.period,
        quota.direction, quota.limitBytes / miB⟩) := by
  have limits := valid.quota quota has
  have direction : readDirection ("count" ++ quota.direction.name).toList =
      some quota.direction := by
    rcases limits.direction with same | same | same <;> rw [same] <;> decide
  have period : readPeriod (periodLetter quota.period).toList =
      some quota.period := by
    rcases limits.period with same | same | same <;> rw [same] <;> decide
  have large := limits.limit
  have nonnegative : 0 ≤ quota.limitBytes := by
    have unit : (0 : Int) ≤ miB := by decide
    omega
  have record : 0 ≤ user.recordNumber := by
    have number := valid.record
    omega
  have floor : quota.limitBytes.tdiv miB = quota.limitBytes / miB :=
    Int.tdiv_eq_ediv_of_nonneg nonnegative
  have whole : 0 ≤ quota.limitBytes / miB :=
    Int.ediv_nonneg nonnegative (by decide)
  rw [quotaWords, readQuota, direction, period,
    readNumber_toString record, floor, readNumber_toString whole]
  simp

/-- What a reader finds among the limits of all users. -/
theorem filterMap_limits {Value : Type}
    {read : List (List Char) → Option Value} {value : User → Option Value}
    {users : List User}
    (each : ∀ user ∈ users,
      (limitWords user).filterMap read = (value user).toList) :
    (users.flatMap limitWords).filterMap read = users.filterMap value := by
  induction users with
  | nil => rfl
  | cons user users inductionHypothesis =>
      have first := each user List.mem_cons_self
      have others := inductionHypothesis fun other member =>
        each other (List.mem_cons_of_mem user member)
      rw [List.flatMap_cons, List.filterMap_append, first, others]
      cases shape : value user with
      | none => simp [shape]
      | some found => simp [shape]

/-- What a reader of limits finds among the rules. -/
theorem filterMap_rulesOf {Value : Type}
    {read : List (List Char) → Option Value} {value : User → Option Value}
    {users : List User}
    (short : ∀ first second, read [first, second] = none)
    (each : ∀ user ∈ users,
      (limitWords user).filterMap read = (value user).toList) :
    (rulesOf users).filterMap read = users.filterMap value := by
  have accounts : ∀ listed : List User,
      (listed.map accountWords).filterMap read = [] := by
    intro listed
    rw [List.filterMap_eq_nil_iff]
    intro words member
    obtain ⟨user, -, rfl⟩ := List.mem_map.mp member
    exact short _ _
  have allows : ∀ listed : List User,
      (listed.map allowWords).filterMap read = [] := by
    intro listed
    rw [List.filterMap_eq_nil_iff]
    intro words member
    obtain ⟨user, -, rfl⟩ := List.mem_map.mp member
    exact short _ _
  rw [rulesOf, List.filterMap_append, List.filterMap_append,
    List.filterMap_append, accounts, allows, allows, filterMap_limits each]
  simp

theorem readAccount_other {directive : List Char}
    (other : directive ≠ "users".toList) (entry : List Char) :
    readAccount [directive, entry] = none := if_neg other

theorem accounts_rulesOf {users : List User}
    (valid : ∀ user ∈ users, ValidUsername user.username) :
    (rulesOf users).filterMap readAccount =
      users.map fun user => (user.username, user.engineHash) := by
  have accounts : ∀ listed : List User,
      (∀ user ∈ listed, ValidUsername user.username) →
        (listed.map accountWords).filterMap readAccount =
          listed.map fun user => (user.username, user.engineHash) := by
    intro listed names
    induction listed with
    | nil => rfl
    | cons user listed inductionHypothesis =>
        have first := readAccount_accountWords
          (names user List.mem_cons_self)
        rw [List.map_cons, List.filterMap_cons_some first,
          inductionHypothesis fun other member =>
            names other (List.mem_cons_of_mem user member), List.map_cons]
  have limits : (users.flatMap limitWords).filterMap readAccount = [] := by
    rw [List.filterMap_eq_nil_iff]
    intro words member
    obtain ⟨user, -, limit⟩ := List.mem_flatMap.mp member
    rcases mem_limitWords limit with rfl | rfl | ⟨quota, -, rfl⟩ <;> rfl
  have allows : ∀ listed : List User,
      (listed.map allowWords).filterMap readAccount = [] := by
    intro listed
    rw [List.filterMap_eq_nil_iff]
    intro words member
    obtain ⟨user, -, rfl⟩ := List.mem_map.mp member
    exact readAccount_other (by decide) _
  rw [rulesOf, List.filterMap_append, List.filterMap_append,
    List.filterMap_append, accounts users valid, limits, allows, allows]
  simp

/-- A reader meets up to three limits of a user. -/
theorem filterMap_limitWords {Value : Type}
    (read : List (List Char) → Option Value) (user : User) :
    (limitWords user).filterMap read =
      (if user.downloadBPS > 0 then
        (read (bandwidthWords "bandlimin" user.downloadBPS user)).toList
        else []) ++
      (if user.uploadBPS > 0 then
        (read (bandwidthWords "bandlimout" user.uploadBPS user)).toList
        else []) ++
      (user.quota.elim [] fun quota =>
        (read (quotaWords user quota)).toList) := by
  have one : ∀ words, [words].filterMap read = (read words).toList := by
    intro words
    cases found : read words <;> simp [found]
  have bandwidth : ∀ (condition : Prop) [Decidable condition] words,
      (if condition then [words] else []).filterMap read =
        if condition then (read words).toList else [] := by
    intro condition _ words
    by_cases holds : condition
    · rw [if_pos holds, if_pos holds, one]
    · rw [if_neg holds, if_neg holds]
      rfl
  rw [limitWords, List.filterMap_append, List.filterMap_append, bandwidth,
    bandwidth]
  cases user.quota with
  | none => rfl
  | some quota => exact congrArg _ (one _)

/-- A bandwidth reader passes over the other direction. -/
theorem readBandwidth_other {directive other : String}
    (different : other.toList ≠ directive.toList) (limit : Int)
    (user : User) :
    readBandwidth directive (bandwidthWords other limit user) = none :=
  if_neg different

theorem downloads_limitWords {user : User} (valid : ValidUser user) :
    (limitWords user).filterMap (readBandwidth "bandlimin") =
      (if user.downloadBPS > 0 then
        some (user.username, user.downloadBPS) else none).toList := by
  have quotas : (user.quota.elim [] fun quota =>
      (readBandwidth "bandlimin" (quotaWords user quota)).toList) = [] := by
    cases user.quota <;> rfl
  rw [filterMap_limitWords, quotas, readBandwidth_words valid.download,
    readBandwidth_other (by decide)]
  by_cases positive : user.downloadBPS > 0 <;> simp [positive]

theorem uploads_limitWords {user : User} (valid : ValidUser user) :
    (limitWords user).filterMap (readBandwidth "bandlimout") =
      (if user.uploadBPS > 0 then
        some (user.username, user.uploadBPS) else none).toList := by
  have quotas : (user.quota.elim [] fun quota =>
      (readBandwidth "bandlimout" (quotaWords user quota)).toList) = [] := by
    cases user.quota <;> rfl
  rw [filterMap_limitWords, quotas, readBandwidth_words valid.upload,
    readBandwidth_other (by decide)]
  by_cases positive : user.uploadBPS > 0 <;> simp [positive]

theorem quotas_limitWords {user : User} (valid : ValidUser user) :
    (limitWords user).filterMap readQuota =
      (user.quota.map fun quota =>
        (user.username, (⟨user.recordNumber, quota.period,
          quota.direction, quota.limitBytes / miB⟩ : QuotaRule))).toList := by
  have bandwidth : ∀ directive limit,
      readQuota (bandwidthWords directive limit user) = none :=
    fun _ _ => rfl
  rw [filterMap_limitWords, bandwidth, bandwidth]
  cases has : user.quota with
  | none => simp
  | some quota =>
      rw [Option.elim_some, readQuota_quotaWords valid has]
      simp

theorem sortUsers_ascending {users : List User}
    (names : (users.map User.username).Nodup) :
    (sortUsers users).Pairwise fun first second =>
      first.username < second.username := by
  have total : Std.Total fun first second : User =>
      first.username ≤ second.username :=
    ⟨fun first second => le_total first.username second.username⟩
  have transitive : IsTrans User fun first second =>
      first.username ≤ second.username :=
    ⟨fun _ _ _ => le_trans⟩
  have sorted := List.pairwise_insertionSort
    (fun first second : User => first.username ≤ second.username) users
  have distinct : (sortUsers users).Pairwise fun first second =>
      first.username ≠ second.username := by
    rw [← List.pairwise_map]
    exact ((List.perm_insertionSort _ users).map User.username).nodup_iff.mpr
      names
  exact (sorted.and distinct).imp fun both => lt_of_le_of_ne both.1 both.2

/-- A rendered text is faithful and closed: it lists the users in
ascending order of their names, its lines are those of the header and of
the users' sections, its rules are exactly those of the users, word for
word, and from the text alone the users' names, hashes, limits, quotas and
services can be read back. -/
structure FaithfullyRendered [Build]
    (state : State) (settings : Settings) (text : String) : Prop where
  complete : (sortUsers state.users).Perm state.users
  ascending : (sortUsers state.users).Pairwise fun first second =>
    first.username < second.username
  lines : allLines text.toList =
    headerLines settings ++ sectionLines settings (sortUsers state.users)
  rules : ruleLines text = rulesOf (sortUsers state.users)
  readable : readRules text = userRules (sortUsers state.users)
  whole : ∀ entry ∈ (userRules (sortUsers state.users)).quotas,
    1 ≤ entry.2.mebibytes

section Rendered

variable [Build] {state : State} {settings : Settings} {text : String}

theorem readAllowed_renderText {users : List User}
    (valid : ∀ user ∈ users, ValidUser user)
    (hashes : ∀ user ∈ users, engineHashRe user.engineHash = true)
    (settings : Settings) (service : Service) :
    readAllowed (renderText settings users) service =
      (users.filter fun user => hasProtocol user service.protocol).map
        User.username := by
  rw [readAllowed, serviceAcl_renderText valid hashes, Option.getD_some,
    allowedNames, List.map_map]
  apply List.map_congr_left
  intro user _
  exact String.ofList_toList

/-- Rendering is faithful and closed. -/
theorem render_faithful
    (rendered : render state settings = .ok text)
    (noUID : settings.setUID = "") (noGID : settings.setGID = "") :
    FaithfullyRendered state settings text := by
  obtain ⟨renderable, rfl⟩ :=
    (render_eq_ok_iff state settings text).mp rendered
  have valid : ∀ user ∈ sortUsers state.users, ValidUser user :=
    fun user member => renderable.stateValid.users user
      ((mem_sortUsers state.users user).mp member)
  have names : ∀ user ∈ sortUsers state.users,
      ValidUsername user.username :=
    fun user member => (valid user member).name
  have hashes : ∀ user ∈ sortUsers state.users,
      engineHashRe user.engineHash = true :=
    fun user member => renderable.hashes user
      ((mem_sortUsers state.users user).mp member)
  have rules := ruleLines_renderText renderable.settingsValid noUID noGID
    valid hashes
  refine ⟨List.perm_insertionSort _ _,
    sortUsers_ascending renderable.stateValid.names,
    allLines_renderText renderable.settingsValid noUID noGID valid, rules,
    ?_, ?_⟩
  · rw [readRules, rules, userRules, accounts_rulesOf names,
      filterMap_rulesOf (fun _ _ => rfl) fun user member =>
        downloads_limitWords (valid user member),
      filterMap_rulesOf (fun _ _ => rfl) fun user member =>
        uploads_limitWords (valid user member),
      filterMap_rulesOf (fun _ _ => rfl) fun user member =>
        quotas_limitWords (valid user member),
      readAllowed_renderText valid hashes,
      readAllowed_renderText valid hashes]
    rfl
  · intro entry member
    obtain ⟨user, listed, quotaMap⟩ := List.mem_filterMap.mp member
    obtain ⟨quota, has, rfl⟩ := Option.map_eq_some_iff.mp quotaMap
    have limit := ((valid user listed).quota quota has).limit
    exact Int.le_ediv_of_mul_le (by decide) (by rwa [Int.one_mul])

end Rendered

/-- The configuration of one account. -/
theorem render_faithful_one_account :
    ∃ text,
      @render Build.dev (sampleState [protoHTTP]) sampleSettings =
          .ok text ∧
        @FaithfullyRendered Build.dev (sampleState [protoHTTP])
          sampleSettings text := by
  let _ := Build.dev
  have rendered := sampleState_rendered [protoHTTP] (by decide)
  exact ⟨_, rendered, render_faithful rendered rfl rfl⟩

end Xoxproxy
