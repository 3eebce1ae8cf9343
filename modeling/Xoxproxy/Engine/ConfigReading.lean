import Xoxproxy.Engine.Config
import Xoxproxy.Library.TextLines
import Mathlib.Data.List.TakeWhile
import Mathlib.Tactic.FinCases

/-!
# Reading a rendered configuration

How the engine reads the access rules of a configuration file, and what
it makes of a rendered one.  Of the engine it is only assumed that
`users` fills the password table, that `flush` empties the access list,
that `allow` extends it, and that a service takes the list written so
far.
-/

namespace Xoxproxy

open TextLines

/-- The words of a line.  A double quote opens or closes a quoted stretch,
inside which blanks belong to the word. -/
def tokensFrom :
    Bool → Option (List Char) → List Char → List (List Char)
  | _, word, [] => word.toList
  | quoted, word, char :: rest =>
      if char = '"' then
        tokensFrom (!quoted) (some (word.getD [])) rest
      else if !quoted && (char = ' ' || char = '\t') then
        word.toList ++ tokensFrom false none rest
      else tokensFrom quoted (some (word.getD [] ++ [char])) rest

def tokens (line : List Char) : List (List Char) :=
  tokensFrom false none line

/-- A started service: its directive, its arguments, and the access list
in force. -/
structure ServiceEntry where
  directive : List Char
  arguments : List (List Char)
  acl : List (List Char)
  deriving DecidableEq, Repr

/-- What the engine has gathered while reading. -/
structure EngineConfig where
  table : List (List Char)
  acl : List (List Char)
  services : List ServiceEntry
  deriving DecidableEq, Repr

/-- The effect of one line; other directives do not touch access. -/
def readLine (config : EngineConfig) (line : List Char) :
    EngineConfig :=
  match tokens line with
  | [] => config
  | directive :: arguments =>
      if directive = "users".toList then
        { config with
          table := config.table ++
            arguments.map fun entry => entry.takeWhile (· ≠ ':') }
      else if directive = "flush".toList then { config with acl := [] }
      else if directive = "allow".toList then
        { config with acl := config.acl ++ arguments.take 1 }
      else if directive = "proxy".toList ∨
          directive = "socks".toList then
        { config with
          services :=
            config.services ++ [⟨directive, arguments, config.acl⟩] }
      else config

def readLines (config : EngineConfig) (lines : List (List Char)) :
    EngineConfig :=
  lines.foldl readLine config

/-- The engine's view of a whole file. -/
def engineConfig (text : String) : EngineConfig :=
  readLines ⟨[], [], []⟩ (allLines text.toList)

/-- The two services of the proxy. -/
inductive Service where
  | http
  | socks5
  deriving DecidableEq, Repr

namespace Service

def directive : Service → List Char
  | .http => "proxy".toList
  | .socks5 => "socks".toList

def protocol : Service → Protocol
  | .http => protoHTTP
  | .socks5 => protoSOCKS5

end Service

/-- Characters that stay inside an unquoted word. -/
def Plain (word : List Char) : Prop :=
  ∀ char ∈ word, char ≠ '"' ∧ char ≠ ' ' ∧ char ≠ '\t'

instance : DecidablePred Plain :=
  fun word => List.decidableBAll _ word

theorem tokensFrom_plain
    {word : List Char} (plain : Plain word) (nonempty : word ≠ [])
    (quoted : Bool) (started : Option (List Char)) (rest : List Char) :
    tokensFrom quoted started (word ++ rest) =
      tokensFrom quoted (some (started.getD [] ++ word)) rest := by
  induction word generalizing started with
  | nil => exact absurd rfl nonempty
  | cons char word inductionHypothesis =>
      obtain ⟨notQuote, notBlank, notTab⟩ :=
        plain char List.mem_cons_self
      have wordPlain : Plain word := fun other member =>
        plain other (List.mem_cons_of_mem char member)
      have head :
          tokensFrom quoted started (char :: word ++ rest) =
            tokensFrom quoted (some (started.getD [] ++ [char]))
              (word ++ rest) := by
        simp [tokensFrom, notQuote, notBlank, notTab]
      rw [head]
      by_cases last : word = []
      · simp [last]
      · rw [inductionHypothesis wordPlain last]
        simp

/-- A plain first word is the directive, whatever follows it. -/
theorem tokens_directive
    {word : List Char} (plain : Plain word) (nonempty : word ≠ [])
    (rest : List Char) :
    tokens (word ++ ' ' :: rest) = word :: tokensFrom false none rest := by
  rw [tokens, tokensFrom_plain plain nonempty]
  simp [tokensFrom]

theorem tokensFrom_last
    {word : List Char} (plain : Plain word) (nonempty : word ≠ []) :
    tokensFrom false none word = [word] := by
  have shape := tokensFrom_plain plain nonempty false none []
  simpa [tokensFrom] using shape

theorem tokensFrom_quoted
    {word : List Char} (plain : Plain word) (nonempty : word ≠ []) :
    tokensFrom false none ('"' :: word ++ ['"']) = [word] := by
  have opened :
      tokensFrom false none ('"' :: word ++ ['"']) =
        tokensFrom true (some []) (word ++ ['"']) := by
    simp [tokensFrom]
  rw [opened, tokensFrom_plain plain nonempty]
  simp [tokensFrom]

/-- Visible ASCII other than the double quote and the backslash: such a
character is written unescaped and splits nothing. -/
def Visible (char : Char) : Prop :=
  char ≠ '"' ∧ char ≠ '\\' ∧ 0x21 ≤ char.toNat ∧ char.toNat < 0x7f

theorem isAlphanumeric_visible
    {char : Char} (alphanumeric : isAlphanumeric char = true) :
    Visible char := by
  have range :
      (97 ≤ char.toNat ∧ char.toNat ≤ 122) ∨
        (65 ≤ char.toNat ∧ char.toNat ≤ 90) ∨
          (48 ≤ char.toNat ∧ char.toNat ≤ 57) := by
    simpa [isAlphanumeric, Char.le_def, UInt32.le_iff_toNat_le,
      or_assoc] using alphanumeric
  refine ⟨?_, ?_, by omega, by omega⟩ <;>
    (rintro rfl; simp at range)

theorem Visible.ne_newline {char : Char} (visible : Visible char) :
    char ≠ '\n' := by
  rintro rfl
  simp [Visible] at visible

theorem visible_plain
    {word : List Char} (visible : ∀ char ∈ word, Visible char) :
    Plain word := by
  intro char member
  obtain ⟨notQuote, _, lower, _⟩ := visible char member
  refine ⟨notQuote, ?_, ?_⟩ <;> (rintro rfl; simp at lower)

theorem ValidUsername.visible
    {name : String} (valid : ValidUsername name) :
    ∀ char ∈ name.toList, Visible char := by
  intro char member
  rcases valid.chars char member with alphanumeric | punctuation
  · exact isAlphanumeric_visible alphanumeric
  · simp only [isUsernamePunctuation, Bool.or_eq_true,
      decide_eq_true_eq] at punctuation
    rcases punctuation with (rfl | rfl) | rfl <;>
      simp [Visible]

theorem ValidUsername.nonempty
    {name : String} (valid : ValidUsername name) :
    name.toList ≠ [] := by
  obtain ⟨first, rest, shape, _⟩ := valid.head
  simp [shape]

theorem isCryptChar_visible
    {char : Char} (crypt : isCryptChar char = true) : Visible char := by
  simp only [isCryptChar, Bool.or_eq_true, decide_eq_true_eq] at crypt
  rcases crypt with (alphanumeric | rfl) | rfl
  · exact isAlphanumeric_visible alphanumeric
  · simp [Visible]
  · simp [Visible]

/-- An accepted engine hash is visible throughout. -/
theorem engineHashRe_visible
    {hash : String} (accepted : engineHashRe hash = true) :
    ∀ char ∈ hash.toList, Visible char := by
  have dollar : Visible '$' := by simp [Visible]
  have three : Visible '3' := by simp [Visible]
  unfold engineHashRe at accepted
  split at accepted
  · rename_i rest shape
    simp only [Bool.and_eq_true, decide_eq_true_eq] at accepted
    obtain ⟨_, digestAccepted⟩ := accepted
    split at digestAccepted
    · rename_i digest digestShape
      simp only [Bool.and_eq_true, List.all_eq_true] at digestAccepted
      have saltVisible :
          ∀ char ∈ rest.takeWhile isAlphanumeric, Visible char :=
        fun char member =>
          isAlphanumeric_visible (List.mem_takeWhile_imp member)
      have restShape :
          rest = rest.takeWhile isAlphanumeric ++ '$' :: digest := by
        rw [← digestShape, List.takeWhile_append_dropWhile]
      intro char member
      rw [shape, restShape] at member
      simp only [List.mem_cons, List.mem_append] at member
      rcases member with rfl | rfl | rfl | inSalt | rfl | inDigest
      · exact dollar
      · exact three
      · exact dollar
      · exact saltVisible char inSalt
      · exact dollar
      · exact isCryptChar_visible (digestAccepted.2 char inDigest)
    · simp at digestAccepted
  · simp at accepted

theorem quoteChar_visible
    [Build] {char : Char} (visible : Visible char) :
    quoteChar char = [char] := by
  obtain ⟨notQuote, notBackslash, lower, upper⟩ := visible
  have printable : isPrint char = true := by
    have latin : char.toNat ≤ 0xff := by omega
    have shown : 0x20 ≤ char.toNat := by omega
    simp [isPrint, latin, shown, upper]
  simp [quoteChar, notQuote, notBackslash, printable]

/-- Visible text is quoted as it stands. -/
theorem quote_visible
    [Build] {text : String}
    (visible : ∀ char ∈ text.toList, Visible char) :
    (quote text).toList = '"' :: text.toList ++ ['"'] := by
  have unchanged : ∀ {chars : List Char},
      (∀ char ∈ chars, Visible char) →
        chars.flatMap quoteChar = chars := by
    intro chars charsVisible
    induction chars with
    | nil => rfl
    | cons char rest inductionHypothesis =>
        rw [List.flatMap_cons,
          quoteChar_visible (charsVisible char List.mem_cons_self),
          inductionHypothesis fun other member =>
            charsVisible other (List.mem_cons_of_mem char member)]
        rfl
  simp [quote, unchanged visible]

/-! ## Reading rendered lines -/

/-- A line whose directive the engine does not use for access. -/
def Inert (line : List Char) : Prop :=
  ∀ config, readLine config line = config

theorem inert_of_directive
    {word : List Char} (plain : Plain word) (nonempty : word ≠ [])
    (rest : List Char)
    (other :
      word ≠ "users".toList ∧ word ≠ "flush".toList ∧
        word ≠ "allow".toList ∧ word ≠ "proxy".toList ∧
          word ≠ "socks".toList) :
    Inert (word ++ ' ' :: rest) := by
  obtain ⟨notUsers, notFlush, notAllow, notProxy, notSocks⟩ := other
  intro config
  simp only [readLine, tokens_directive plain nonempty, notUsers,
    notFlush, notAllow, notProxy, notSocks, ↓reduceIte, or_self]

theorem readLines_inert
    {lines : List (List Char)} (inert : ∀ line ∈ lines, Inert line)
    (config : EngineConfig) : readLines config lines = config := by
  induction lines with
  | nil => rfl
  | cons line lines inductionHypothesis =>
      have first := inert line List.mem_cons_self config
      have others := inductionHypothesis fun other member =>
        inert other (List.mem_cons_of_mem line member)
      simpa [readLines, first] using others

theorem readLines_append
    (config : EngineConfig) (first second : List (List Char)) :
    readLines config (first ++ second) =
      readLines (readLines config first) second :=
  List.foldl_append

@[simp]
theorem readLines_cons
    (config : EngineConfig) (line : List Char)
    (lines : List (List Char)) :
    readLines config (line :: lines) =
      readLines (readLine config line) lines := rfl

@[simp]
theorem readLines_nil (config : EngineConfig) :
    readLines config [] = config := rfl

/-- The `users` line of one account. -/
def accountLine [Build] (user : User) : List Char :=
  "users ".toList ++
    (quote (user.username ++ ":CR:" ++ user.engineHash)).toList

/-- What the `users` line of an account is about. -/
def accountEntry (user : User) : List Char :=
  (user.username ++ ":CR:" ++ user.engineHash).toList

theorem accountEntry_visible
    {user : User} (valid : ValidUsername user.username)
    (hash : engineHashRe user.engineHash = true) :
    ∀ char ∈ accountEntry user, Visible char := by
  intro char member
  simp only [accountEntry, String.toList_append, List.mem_append] at member
  rcases member with (inName | separator) | inHash
  · exact valid.visible char inName
  · have letters : char ∈ [':', 'C', 'R', ':'] := separator
    simp only [List.mem_cons, List.not_mem_nil, or_false] at letters
    rcases letters with rfl | rfl | rfl | rfl <;> simp [Visible]
  · exact engineHashRe_visible hash char inHash

theorem tokens_account
    [Build] {user : User} (valid : ValidUsername user.username)
    (hash : engineHashRe user.engineHash = true) :
    tokens (accountLine user) = ["users".toList, accountEntry user] := by
  have visible := accountEntry_visible valid hash
  have nonempty : accountEntry user ≠ [] := by
    simp [accountEntry]
  have directive : Plain "users".toList := by
    intro char member
    fin_cases member <;> decide
  have shape :
      accountLine user =
        "users".toList ++ ' ' :: ('"' :: accountEntry user ++ ['"']) := by
    unfold accountLine
    rw [quote_visible visible]
    rfl
  rw [shape, tokens_directive directive (by decide),
    tokensFrom_quoted (visible_plain visible) nonempty]

/-- An account's name ends at the first colon. -/
theorem accountEntry_name
    {user : User} (valid : ValidUsername user.username) :
    (accountEntry user).takeWhile (· ≠ ':') = user.username.toList := by
  have noColon : ∀ char ∈ user.username.toList, char ≠ ':' := by
    rintro char member rfl
    exact valid.char_ne (by decide) member
  rw [accountEntry, String.toList_append, String.toList_append,
    List.append_assoc, List.takeWhile_append_of_pos (by simpa using noColon)]
  simp

theorem readLine_account
    [Build] {user : User} (valid : ValidUsername user.username)
    (hash : engineHashRe user.engineHash = true)
    (config : EngineConfig) :
    readLine config (accountLine user) =
      { config with table := config.table ++ [user.username.toList] } := by
  simp only [readLine, tokens_account valid hash, ↓reduceIte,
    List.map_cons, List.map_nil, accountEntry_name valid]

def allowLine (user : User) : List Char :=
  "allow ".toList ++ user.username.toList

theorem tokens_allow
    {user : User} (valid : ValidUsername user.username) :
    tokens (allowLine user) = ["allow".toList, user.username.toList] := by
  have directive : Plain "allow".toList := by
    intro char member
    fin_cases member <;> decide
  have shape :
      allowLine user =
        "allow".toList ++ ' ' :: user.username.toList := rfl
  rw [shape, tokens_directive directive (by decide),
    tokensFrom_last (visible_plain valid.visible) valid.nonempty]

theorem readLine_allow
    {user : User} (valid : ValidUsername user.username)
    (config : EngineConfig) :
    readLine config (allowLine user) =
      { config with acl := config.acl ++ [user.username.toList] } := by
  simp only [readLine, tokens_allow valid]
  rfl

theorem visible_newline_free
    {word : List Char} (visible : ∀ char ∈ word, Visible char) :
    '\n' ∉ word :=
  fun member => (visible '\n' member).ne_newline rfl

theorem toString_visible (value : Int) :
    ∀ char ∈ (toString value).toList, Visible char := by
  intro char member
  rcases toString_int_digits value char member with digit | rfl
  · have range : '0' ≤ char ∧ char ≤ '9' := by
      simpa [Char.isDigit, Char.le_def] using digit
    exact isAlphanumeric_visible (by simp [isAlphanumeric, range])
  · simp [Visible]

theorem toString_newline_free (value : Int) :
    '\n' ∉ (toString value).toList :=
  visible_newline_free (toString_visible value)

/-- The directives of the limits section. -/
def bandwidthLine (directive : String) (limit : Int) (user : User) :
    List Char :=
  directive.toList ++ ' ' ::
    ((toString limit).toList ++ ' ' :: user.username.toList)

def quotaLine (user : User) (quota : Quota) : List Char :=
  ("count" ++ quota.direction.name).toList ++ ' ' ::
    ((toString user.recordNumber).toList ++ ' ' ::
      ((periodLetter quota.period).toList ++ ' ' ::
        ((toString (quota.limitBytes.tdiv miB)).toList ++ ' ' ::
          user.username.toList)))

def limitLines (user : User) : List (List Char) :=
  (if user.downloadBPS > 0 then
    [bandwidthLine "bandlimin" user.downloadBPS user] else []) ++
  (if user.uploadBPS > 0 then
    [bandwidthLine "bandlimout" user.uploadBPS user] else []) ++
  match user.quota with
  | none => []
  | some quota => [quotaLine user quota]

theorem renderUserLimits_lines (user : User) :
    (renderUserLimits user).toList = joinLines (limitLines user) := by
  have counted : ∀ quota,
      (renderQuota user quota).toList = quotaLine user quota ++ ['\n'] := by
    intro quota
    unfold renderQuota quotaLine
    simp
  unfold renderUserLimits limitLines
  by_cases download : user.downloadBPS > 0 <;>
    by_cases upload : user.uploadBPS > 0 <;>
      cases user.quota <;>
        simp [download, upload, bandwidthLine, counted]

theorem bandwidthLine_newline_free
    {directive : String} (free : '\n' ∉ directive.toList)
    (limit : Int) {user : User} (valid : ValidUsername user.username) :
    '\n' ∉ bandwidthLine directive limit user := by
  simp only [bandwidthLine, List.mem_append, List.mem_cons, free,
    toString_newline_free, visible_newline_free valid.visible, false_or,
    or_false]
  decide

theorem countDirective_cases
    {quota : Quota} (valid : ValidQuota quota) :
    ("count" ++ quota.direction.name).toList = "countin".toList ∨
      ("count" ++ quota.direction.name).toList = "countout".toList ∨
        ("count" ++ quota.direction.name).toList = "countall".toList := by
  rcases valid.direction with direction | direction | direction <;>
    rw [direction] <;> decide

theorem periodLetter_newline_free (period : Period) :
    '\n' ∉ (periodLetter period).toList := by
  unfold periodLetter
  repeat' split
  all_goals decide

theorem limitLines_newline_free
    {user : User} (valid : ValidUser user) :
    ∀ line ∈ limitLines user, '\n' ∉ line := by
  intro line member
  simp only [limitLines, List.mem_append] at member
  rcases member with (download | upload) | counted
  · split at download <;> simp at download
    subst download
    exact bandwidthLine_newline_free (by decide) _ valid.name
  · split at upload <;> simp at upload
    subst upload
    exact bandwidthLine_newline_free (by decide) _ valid.name
  · cases quotaShape : user.quota with
    | none => simp [quotaShape] at counted
    | some quota =>
        rw [quotaShape] at counted
        obtain rfl := List.mem_singleton.mp counted
        have directive :
            '\n' ∉ ("count" ++ quota.direction.name).toList := by
          rcases countDirective_cases (valid.quota quota quotaShape) with
            shape | shape | shape <;> rw [shape] <;> decide
        simp only [quotaLine, List.mem_append, List.mem_cons, directive,
          toString_newline_free,
          periodLetter_newline_free,
          visible_newline_free valid.name.visible, false_or, or_false]
        decide

theorem limitLines_inert
    {user : User} (valid : ValidUser user) :
    ∀ line ∈ limitLines user, Inert line := by
  intro line member
  simp only [limitLines, List.mem_append] at member
  rcases member with (download | upload) | counted
  · split at download <;> simp at download
    subst download
    exact inert_of_directive (by decide) (by decide) _
      (by decide)
  · split at upload <;> simp at upload
    subst upload
    exact inert_of_directive (by decide) (by decide) _
      (by decide)
  · cases quotaShape : user.quota with
    | none => simp [quotaShape] at counted
    | some quota =>
        rw [quotaShape] at counted
        obtain rfl := List.mem_singleton.mp counted
        unfold quotaLine
        rcases countDirective_cases (valid.quota quota quotaShape) with
          shape | shape | shape <;> rw [shape] <;>
            exact inert_of_directive (by decide) (by decide)
              _ (by decide)

theorem accountLine_newline_free [Build] (user : User) :
    '\n' ∉ accountLine user := by
  intro member
  rcases List.mem_append.mp member with directive | entry
  · exact absurd directive (by decide)
  · exact quote_newline_free _ entry

theorem renderAccounts_lines [Build] (users : List User) :
    (renderAccounts users).toList =
      joinLines ([] :: "# --- accounts ---".toList ::
        "auth strong".toList :: users.map accountLine) := by
  have accounts :
      (String.join (users.map renderAccount)).toList =
        joinLines (users.map accountLine) := by
    rw [String.toList_join]
    induction users with
    | nil => rfl
    | cons user users inductionHypothesis =>
        simp only [List.map_cons, List.flatMap_cons, joinLines_cons,
          inductionHypothesis]
        unfold renderAccount accountLine
        simp
  have title :
      ("\n# --- accounts ---\n" ++ "auth strong\n").toList =
        joinLines [[], "# --- accounts ---".toList,
          "auth strong".toList] := by
    decide
  calc
    (renderAccounts users).toList =
        ("\n# --- accounts ---\n" ++ "auth strong\n").toList ++
          (String.join (users.map renderAccount)).toList :=
      String.toList_append
    _ = _ := by rw [title, accounts, ← joinLines_append]; rfl

theorem renderLimits_lines (users : List User) :
    (renderLimits users).toList =
      joinLines ([] :: "# --- limits ---".toList ::
        users.flatMap limitLines) := by
  have limits :
      (String.join (users.map renderUserLimits)).toList =
        joinLines (users.flatMap limitLines) := by
    rw [String.toList_join]
    induction users with
    | nil => rfl
    | cons user users inductionHypothesis =>
        simp only [List.map_cons, List.flatMap_cons, joinLines_append,
          inductionHypothesis, renderUserLimits_lines]
  have title :
      "\n# --- limits ---\n".toList =
        joinLines [[], "# --- limits ---".toList] := by
    decide
  calc
    (renderLimits users).toList =
        "\n# --- limits ---\n".toList ++
          (String.join (users.map renderUserLimits)).toList :=
      String.toList_append
    _ = _ := by rw [title, limits, ← joinLines_append]; rfl

/-- The line that starts a service. -/
def serviceLine (directive : String) (port : Int) : List Char :=
  directive.toList ++ ' ' :: ("-p".toList ++ (toString port).toList)

def serviceTitle (name : String) : List Char :=
  "# --- ".toList ++ name.toList ++ " ---".toList

def serviceLines
    (users : List User) (name directive : String) (port : Int)
    (protocol : Protocol) : List (List Char) :=
  [] :: serviceTitle name :: "flush".toList ::
    ((users.filter fun user => hasProtocol user protocol).map allowLine ++
      [serviceLine directive port])

theorem renderService_lines
    (users : List User) (name directive : String) (port : Int)
    (protocol : Protocol) :
    (renderService users name directive port protocol).toList =
      joinLines (serviceLines users name directive port protocol) := by
  have allows : ∀ listed : List User,
      (String.join (listed.map renderAllow)).toList =
        joinLines (listed.map allowLine) := by
    intro listed
    rw [String.toList_join]
    induction listed with
    | nil => rfl
    | cons user listed inductionHypothesis =>
        simp only [List.map_cons, List.flatMap_cons, joinLines_cons,
          inductionHypothesis]
        unfold renderAllow allowLine
        simp
  unfold renderService serviceLines serviceTitle serviceLine
  simp only [String.toList_append, allows, joinLines_cons,
    joinLines_append, joinLines_nil]
  simp

theorem serviceLine_newline_free
    {directive : String} (free : '\n' ∉ directive.toList) (port : Int) :
    '\n' ∉ serviceLine directive port := by
  simp only [serviceLine, List.mem_append, List.mem_cons, free,
    toString_newline_free, false_or, or_false]
  decide

theorem serviceLines_newline_free
    {users : List User} {name directive : String} {port : Int}
    {protocol : Protocol}
    (valid : ∀ user ∈ users, ValidUsername user.username)
    (nameFree : '\n' ∉ name.toList)
    (directiveFree : '\n' ∉ directive.toList) :
    ∀ line ∈ serviceLines users name directive port protocol,
      '\n' ∉ line := by
  intro line member
  unfold serviceLines at member
  simp only [List.mem_cons, List.mem_append, List.mem_map,
    List.mem_filter, List.not_mem_nil, or_false] at member
  rcases member with rfl | rfl | rfl | ⟨user, ⟨listed, _⟩, rfl⟩ | rfl
  · exact List.not_mem_nil
  · unfold serviceTitle
    simp only [List.mem_append, nameFree, or_false]
    decide
  · decide
  · unfold allowLine
    simp only [List.mem_append,
      visible_newline_free (valid user listed).visible, or_false]
    decide
  · exact serviceLine_newline_free directiveFree port

theorem inert_comment (rest : List Char) :
    Inert ('#' :: ' ' :: rest) := by
  have plain : Plain ['#'] := by
    decide
  exact inert_of_directive plain (by decide) rest (by decide)

theorem inert_nil : Inert [] := fun _ => rfl

theorem readLines_allow
    {users : List User}
    (valid : ∀ user ∈ users, ValidUsername user.username)
    (config : EngineConfig) :
    readLines config (users.map allowLine) =
      { config with
        acl := config.acl ++
          users.map fun user => user.username.toList } := by
  induction users generalizing config with
  | nil => simp
  | cons user users inductionHypothesis =>
      have userValid := valid user List.mem_cons_self
      have othersValid : ∀ other ∈ users, ValidUsername other.username :=
        fun other member => valid other (List.mem_cons_of_mem user member)
      rw [List.map_cons, readLines_cons, readLine_allow userValid,
        inductionHypothesis othersValid]
      simp

theorem readLines_account
    [Build] {users : List User}
    (valid : ∀ user ∈ users, ValidUsername user.username)
    (hashes : ∀ user ∈ users, engineHashRe user.engineHash = true)
    (config : EngineConfig) :
    readLines config (users.map accountLine) =
      { config with
        table := config.table ++
          users.map fun user => user.username.toList } := by
  induction users generalizing config with
  | nil => simp
  | cons user users inductionHypothesis =>
      have othersValid : ∀ other ∈ users, ValidUsername other.username :=
        fun other member => valid other (List.mem_cons_of_mem user member)
      have othersHashes :
          ∀ other ∈ users, engineHashRe other.engineHash = true :=
        fun other member => hashes other (List.mem_cons_of_mem user member)
      rw [List.map_cons, readLines_cons,
        readLine_account (valid user List.mem_cons_self)
          (hashes user List.mem_cons_self),
        inductionHypothesis othersValid othersHashes]
      simp

/-- The names that a service's section puts on its access list. -/
def allowedNames (users : List User) (protocol : Protocol) :
    List (List Char) :=
  (users.filter fun user => hasProtocol user protocol).map
    fun user => user.username.toList

/-- A service's section starts the service with exactly its own names,
whatever was written before. -/
theorem readLines_service
    {users : List User} {name : String} {port : Int}
    (valid : ∀ user ∈ users, ValidUsername user.username)
    (service : Service) (directive : String)
    (directiveShape : directive.toList = service.directive)
    (config : EngineConfig) :
    readLines config
        (serviceLines users name directive port service.protocol) =
      { config with
        acl := allowedNames users service.protocol
        services := config.services ++
          [⟨service.directive,
            ["-p".toList ++ (toString port).toList],
            allowedNames users service.protocol⟩] } := by
  have title : Inert (serviceTitle name) :=
    inert_comment ("--- ".toList ++ name.toList ++ " ---".toList)
  have flush : readLine config "flush".toList =
      { config with acl := [] } := rfl
  have listedValid :
      ∀ user ∈ users.filter fun user =>
          hasProtocol user service.protocol,
        ValidUsername user.username :=
    fun user member => valid user (List.mem_of_mem_filter member)
  have flagVisible : ∀ char ∈ "-p".toList, Visible char := by
    intro char member
    have listed : char = '-' ∨ char = 'p' := by
      simpa using member
    rcases listed with rfl | rfl <;> (unfold Visible; decide)
  have argument :
      tokensFrom false none ("-p".toList ++ (toString port).toList) =
        ["-p".toList ++ (toString port).toList] := by
    refine tokensFrom_last (visible_plain ?_) (by simp)
    intro char member
    rcases List.mem_append.mp member with flag | digit
    · exact flagVisible char flag
    · exact toString_visible port char digit
  have started : ∀ before : EngineConfig,
      readLine before (serviceLine directive port) =
        { before with
          services := before.services ++
            [⟨service.directive,
              ["-p".toList ++ (toString port).toList],
              before.acl⟩] } := by
    intro before
    have directivePlain : Plain service.directive := by
      cases service <;> decide
    have directiveNonempty : service.directive ≠ [] := by
      cases service <;> decide
    have words :
        tokens (serviceLine directive port) =
          [service.directive,
            "-p".toList ++ (toString port).toList] := by
      rw [serviceLine, directiveShape,
        tokens_directive directivePlain directiveNonempty, argument]
    unfold readLine
    rw [words]
    cases service <;> rfl
  rw [serviceLines, readLines_cons, inert_nil config, readLines_cons,
    title config, readLines_cons, flush, readLines_append,
    readLines_allow listedValid, readLines_cons, started]
  simp [allowedNames]

/-! ## The engine's view of a rendered file -/

/-- The header ends its last line. -/
theorem renderHeader_finished [Build] (settings : Settings) :
    (splitLines (renderHeader settings).toList).2 = [] := by
  have ended : ∀ before value : String,
      (before ++ configLine "counter" value).toList =
        (before ++ ("counter" ++ " " ++ value)).toList ++ ['\n'] := by
    intro before value
    simp [configLine]
  unfold renderHeader
  rw [ended]
  exact (splitLines_ended _).2

/-- What the engine has read when the header ends. -/
def headerConfig [Build] (settings : Settings) : EngineConfig :=
  readLines ⟨[], [], []⟩ (splitLines (renderHeader settings).toList).1

/-- The sections that follow the header. -/
def sectionLines [Build] (settings : Settings) (users : List User) :
    List (List Char) :=
  ([] :: "# --- accounts ---".toList :: "auth strong".toList ::
      users.map accountLine) ++
    ([] :: "# --- limits ---".toList :: users.flatMap limitLines) ++
    serviceLines users "HTTP proxy" "proxy" settings.httpPort
      Service.http.protocol ++
    serviceLines users "SOCKS5 proxy" "socks" settings.socks5Port
      Service.socks5.protocol

theorem sectionLines_newline_free
    [Build] {users : List User} (valid : ∀ user ∈ users, ValidUser user)
    (settings : Settings) :
    ∀ line ∈ sectionLines settings users, '\n' ∉ line := by
  have names : ∀ user ∈ users, ValidUsername user.username :=
    fun user member => (valid user member).name
  intro line member
  simp only [sectionLines, List.mem_append, List.mem_cons,
    List.mem_map, List.mem_flatMap] at member
  rcases member with
    (((rfl | rfl | rfl | ⟨user, _, rfl⟩) |
      (rfl | rfl | ⟨user, listed, limits⟩)) | http) | socks
  · exact List.not_mem_nil
  · decide
  · decide
  · exact accountLine_newline_free user
  · exact List.not_mem_nil
  · decide
  · exact limitLines_newline_free (valid user listed) line limits
  · exact serviceLines_newline_free names (by decide) (by decide)
      line http
  · exact serviceLines_newline_free names (by decide) (by decide)
      line socks

theorem renderText_sections
    [Build] (settings : Settings) (users : List User) :
    (renderText settings users).toList =
      (renderHeader settings).toList ++
        joinLines (sectionLines settings users) := by
  simp only [renderText, String.toList_append, renderAccounts_lines,
    renderLimits_lines, renderService_lines, sectionLines,
    joinLines_append, List.append_assoc]
  rfl

theorem renderText_lines
    [Build] {users : List User} (valid : ∀ user ∈ users, ValidUser user)
    (settings : Settings) :
    allLines (renderText settings users).toList =
      (splitLines (renderHeader settings).toList).1 ++
        sectionLines settings users := by
  have sections :=
    splitLines_joinLines_append [] (sectionLines_newline_free valid settings)
  rw [List.append_nil] at sections
  rw [allLines, renderText_sections,
    splitLines_append _ (renderHeader_finished settings), sections]
  simp

/-- The engine's view of a rendered file: the password table ends with
the rendered users, and the last two services carry exactly the users
whose protocols include theirs. -/
theorem engineConfig_renderText
    [Build] {users : List User} (valid : ∀ user ∈ users, ValidUser user)
    (hashes : ∀ user ∈ users, engineHashRe user.engineHash = true)
    (settings : Settings) :
    engineConfig (renderText settings users) =
      { table := (headerConfig settings).table ++
          users.map fun user => user.username.toList
        acl := allowedNames users protoSOCKS5
        services := (headerConfig settings).services ++
          [⟨Service.http.directive,
            ["-p".toList ++ (toString settings.httpPort).toList],
            allowedNames users protoHTTP⟩,
          ⟨Service.socks5.directive,
            ["-p".toList ++ (toString settings.socks5Port).toList],
            allowedNames users protoSOCKS5⟩] } := by
  have names : ∀ user ∈ users, ValidUsername user.username :=
    fun user member => (valid user member).name
  have limits : ∀ config : EngineConfig,
      readLines config (users.flatMap limitLines) = config := by
    refine readLines_inert ?_
    intro line member
    obtain ⟨user, listed, limit⟩ := List.mem_flatMap.mp member
    exact limitLines_inert (valid user listed) line limit
  have accountsTitle : Inert "# --- accounts ---".toList :=
    inert_comment "--- accounts ---".toList
  have limitsTitle : Inert "# --- limits ---".toList :=
    inert_comment "--- limits ---".toList
  have authPlain : Plain "auth".toList := by
    decide
  have auth : Inert "auth strong".toList :=
    inert_of_directive authPlain (by decide) "strong".toList (by decide)
  have accountsSection : ∀ config : EngineConfig,
      readLines config ([] :: "# --- accounts ---".toList ::
          "auth strong".toList :: users.map accountLine) =
        { config with
          table := config.table ++
            users.map fun user => user.username.toList } := by
    intro config
    rw [readLines_cons, inert_nil, readLines_cons, accountsTitle,
      readLines_cons, auth, readLines_account names hashes]
  have limitsSection : ∀ config : EngineConfig,
      readLines config ([] :: "# --- limits ---".toList ::
          users.flatMap limitLines) = config := by
    intro config
    rw [readLines_cons, inert_nil, readLines_cons, limitsTitle, limits]
  rw [engineConfig, renderText_lines valid, readLines_append,
    sectionLines, readLines_append, readLines_append, readLines_append,
    accountsSection, limitsSection,
    readLines_service names .http "proxy" rfl,
    readLines_service names .socks5 "socks" rfl, headerConfig]
  simp only [List.append_assoc, List.cons_append, List.nil_append,
    Service.protocol]

end Xoxproxy
