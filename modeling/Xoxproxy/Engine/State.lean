import Xoxproxy.GoText

/-!
# The desired state of the data plane

The contract between the control plane and the engine
(`internal/engine/engine.go`): the users to be served, and the validation
that every state passes before it is rendered.
-/

namespace Xoxproxy

/-- A quota reset period. -/
structure Period where
  name : String
  deriving DecidableEq, Repr

def periodDaily : Period := ⟨"daily"⟩
def periodWeekly : Period := ⟨"weekly"⟩
def periodMonthly : Period := ⟨"monthly"⟩

/-- The traffic a quota counts. -/
structure Direction where
  name : String
  deriving DecidableEq, Repr

def dirIn : Direction := ⟨"in"⟩
def dirOut : Direction := ⟨"out"⟩
def dirAll : Direction := ⟨"all"⟩

structure Quota where
  period : Period
  limitBytes : Int
  direction : Direction
  deriving DecidableEq, Repr

/-- The enforcement granularity of the engine's counters, in bytes. -/
def miB : Int := 1024 * 1024

/-- A proxy protocol an account may use. -/
structure Protocol where
  name : String
  deriving DecidableEq, Repr

def protoHTTP : Protocol := ⟨"http"⟩
def protoSOCKS5 : Protocol := ⟨"socks5"⟩

/-- The data-plane view of a proxy user. -/
structure User where
  username : String
  engineHash : String
  recordNumber : Int
  protocols : List Protocol
  downloadBPS : Int
  uploadBPS : Int
  quota : Option Quota
  deriving DecidableEq, Repr

/-- The accounts the control plane owns. -/
structure State where
  users : List User
  deriving DecidableEq, Repr

/-- `[A-Za-z0-9]`. -/
def isAlphanumeric (char : Char) : Bool :=
  ('a' ≤ char && char ≤ 'z') || ('A' ≤ char && char ≤ 'Z') ||
    ('0' ≤ char && char ≤ '9')

/-- The punctuation a username may contain after its first character. -/
def isUsernamePunctuation (char : Char) : Bool :=
  char = '.' || char = '_' || char = '-'

def usernameMaxLen : Nat := 64

/-- The first UTF-8 byte of a character, which is what the byte loop of
the source reports. -/
def leadingByte (char : Char) : Char :=
  Char.ofNat ((String.utf8EncodeChar char).headD 0).toNat

section Validation

variable [Build]

/-- The verdict on one character; `first` tells whether it is the
username's first. -/
def usernameCharError
    (name : String) (first : Bool) (char : Char) : Option GoError :=
  if isAlphanumeric char then none
  else if isUsernamePunctuation char then
    if first then
      some (.plain ("username " ++ quote name ++
        " must start with a letter or digit"))
    else none
  else
    some (.plain ("username " ++ quote name ++ " contains character " ++
      quote (String.ofList [leadingByte char]) ++
        " outside [A-Za-z0-9._-]"))

def checkUsernameChars (name : String) :
    Bool → List Char → Option GoError
  | _, [] => none
  | first, char :: rest =>
      match usernameCharError name first char with
      | some error => some error
      | none => checkUsernameChars name false rest

/-- The username policy for proxy users. -/
def validateUsername (name : String) : Option GoError :=
  if name = "" then some (.plain "username is empty")
  else if name.utf8ByteSize > usernameMaxLen then
    some (.plain ("username " ++ quote name ++ " longer than " ++
      toString usernameMaxLen ++ " characters"))
  else checkUsernameChars name true name.toList

/-- The checks on one user's protocol list; `seen` holds the protocols
before the current one. -/
def protocolErrors (username : String) :
    List Protocol → List Protocol → List GoError
  | _, [] => []
  | seen, protocol :: rest =>
      (if protocol = protoHTTP ∨ protocol = protoSOCKS5 then [] else
        [.plain ("user " ++ quote username ++ ": unknown protocol " ++
          quote protocol.name)]) ++
      (if protocol ∈ seen then
        [.plain ("user " ++ quote username ++ ": protocol " ++
          quote protocol.name ++ " listed more than once")]
      else []) ++
      protocolErrors username (protocol :: seen) rest

def quotaErrors (username : String) (quota : Quota) : List GoError :=
  (if quota.period = periodDaily ∨ quota.period = periodWeekly ∨
      quota.period = periodMonthly then [] else
    [.plain ("user " ++ quote username ++ ": quota period " ++
      quote quota.period.name ++
        " must be daily, weekly or monthly")]) ++
  (if quota.direction = dirIn ∨ quota.direction = dirOut ∨
      quota.direction = dirAll then [] else
    [.plain ("user " ++ quote username ++ ": quota direction " ++
      quote quota.direction.name ++ " must be in, out or all")]) ++
  (if quota.limitBytes < miB then
    [.plain ("user " ++ quote username ++ ": quota limit " ++
      toString quota.limitBytes ++
        " bytes is below the 1 MiB enforcement granularity")]
  else [])

/-- The checks of one iteration that do not depend on earlier users. -/
def User.fieldErrors (user : User) : List GoError :=
  (if user.downloadBPS < 0 ∨ user.uploadBPS < 0 then
    [.plain ("user " ++ quote user.username ++
      ": bandwidth limits must be >= 0")]
  else []) ++
  protocolErrors user.username [] user.protocols ++
  match user.quota with
  | none => []
  | some quota => quotaErrors user.username quota

def nameErrors
    (index : Nat) (seenNames : List String) (user : User) :
    List GoError :=
  match validateUsername user.username with
  | some error => [.wrap ("user[" ++ toString index ++ "]: ") error ""]
  | none =>
      if user.username ∈ seenNames then
        [.plain ("user " ++ quote user.username ++
          " appears more than once")]
      else []

def recordErrors (seenRecords : List Int) (user : User) :
    List GoError :=
  if user.recordNumber < 1 then
    [.plain ("user " ++ quote user.username ++ ": record_number " ++
      toString user.recordNumber ++
        " must be >= 1 (0 would drop quota persistence on reload)")]
  else if user.recordNumber ∈ seenRecords then
    [.plain ("record number " ++ toString user.recordNumber ++
      " used by more than one user (would corrupt the counter file)")]
  else []

/-- The loop over the users, with the names and record numbers seen so
far. -/
def userErrors :
    Nat → List String → List Int → List User → List GoError
  | _, _, _, [] => []
  | index, seenNames, seenRecords, user :: rest =>
      nameErrors index seenNames user ++
        recordErrors seenRecords user ++
        user.fieldErrors ++
        userErrors (index + 1) (user.username :: seenNames)
          (user.recordNumber :: seenRecords) rest

/-- `State.Validate`. -/
def State.validate (state : State) : Option GoError :=
  match userErrors 0 [] [] state.users with
  | [] => none
  | [error] => some error
  | errors =>
      some (.plain ("invalid engine state:\n  " ++
        "\n  ".intercalate (errors.map GoError.text)))

end Validation

/-! ## What validation guarantees -/

/-- The shape of an accepted username. -/
structure ValidUsername (name : String) : Prop where
  size : name.utf8ByteSize ≤ usernameMaxLen
  head : ∃ first rest, name.toList = first :: rest ∧
    isAlphanumeric first = true
  chars : ∀ char ∈ name.toList,
    isAlphanumeric char = true ∨ isUsernamePunctuation char = true

structure ValidQuota (quota : Quota) : Prop where
  period :
    quota.period = periodDaily ∨ quota.period = periodWeekly ∨
      quota.period = periodMonthly
  direction :
    quota.direction = dirIn ∨ quota.direction = dirOut ∨
      quota.direction = dirAll
  limit : miB ≤ quota.limitBytes

structure ValidUser (user : User) : Prop where
  name : ValidUsername user.username
  record : 1 ≤ user.recordNumber
  download : 0 ≤ user.downloadBPS
  upload : 0 ≤ user.uploadBPS
  protocols :
    ∀ protocol ∈ user.protocols,
      protocol = protoHTTP ∨ protocol = protoSOCKS5
  distinct : user.protocols.Nodup
  quota : ∀ quota, user.quota = some quota → ValidQuota quota

/-- What `State.Validate` accepts. -/
structure ValidState (state : State) : Prop where
  users : ∀ user ∈ state.users, ValidUser user
  names : (state.users.map User.username).Nodup
  records : (state.users.map User.recordNumber).Nodup

section Accepted

variable [Build]

theorem usernameCharError_eq_none_iff
    (name : String) (first : Bool) (char : Char) :
    usernameCharError name first char = none ↔
      isAlphanumeric char = true ∨
        (isUsernamePunctuation char = true ∧ first = false) := by
  unfold usernameCharError
  by_cases alphanumeric : isAlphanumeric char = true
  · simp [alphanumeric]
  · by_cases punctuation : isUsernamePunctuation char = true
    · cases first <;> simp [alphanumeric, punctuation]
    · simp [alphanumeric, punctuation]

theorem checkUsernameChars_eq_none_iff
    (name : String) (first : Bool) (chars : List Char) :
    checkUsernameChars name first chars = none ↔
      (∀ char ∈ chars,
        isAlphanumeric char = true ∨
          isUsernamePunctuation char = true) ∧
      (first = true →
        ∀ head ∈ chars.head?, isAlphanumeric head = true) := by
  induction chars generalizing first with
  | nil => simp [checkUsernameChars]
  | cons char rest inductionHypothesis =>
      have verdict := usernameCharError_eq_none_iff name first char
      cases charError : usernameCharError name first char with
      | some error =>
          have rejected := mt verdict.mpr (by simp [charError])
          simp only [checkUsernameChars, charError, List.mem_cons,
            forall_eq_or_imp, List.head?_cons, Option.mem_def,
            Option.some.injEq, forall_eq']
          cases first <;> simp_all
      | none =>
          have accepted := verdict.mp charError
          simp only [checkUsernameChars, charError,
            inductionHypothesis, List.mem_cons, forall_eq_or_imp,
            List.head?_cons, Option.mem_def, Option.some.injEq,
            forall_eq']
          cases first <;> simp_all

theorem validateUsername_eq_none_iff (name : String) :
    validateUsername name = none ↔ ValidUsername name := by
  unfold validateUsername
  by_cases empty : name = ""
  · subst empty
    simp only [↓reduceIte, reduceCtorEq, false_iff]
    intro valid
    obtain ⟨first, rest, shape, _⟩ := valid.head
    simp at shape
  · obtain ⟨first, rest, shape⟩ : ∃ first rest,
        name.toList = first :: rest := by
      cases chars : name.toList with
      | nil => exact absurd (by simpa using chars) empty
      | cons first rest => exact ⟨first, rest, rfl⟩
    by_cases long : name.utf8ByteSize > usernameMaxLen
    · simp only [empty, long, ↓reduceIte, reduceCtorEq, false_iff]
      intro valid
      exact absurd valid.size (Nat.not_le.mpr long)
    · simp only [empty, long, ↓reduceIte,
        checkUsernameChars_eq_none_iff, shape, List.head?_cons,
        Option.mem_def, Option.some.injEq, forall_eq', forall_const]
      constructor
      · rintro ⟨chars, head⟩
        exact ⟨Nat.not_lt.mp long, ⟨first, rest, shape, head⟩,
          by simpa only [shape] using chars⟩
      · intro valid
        obtain ⟨head, tail, valid_shape, alphanumeric⟩ := valid.head
        rw [shape] at valid_shape
        injection valid_shape with sameHead _
        exact ⟨by simpa only [shape] using valid.chars,
          sameHead ▸ alphanumeric⟩

theorem protocolErrors_eq_nil_iff
    (username : String) (seen protocols : List Protocol) :
    protocolErrors username seen protocols = [] ↔
      (∀ protocol ∈ protocols,
        protocol = protoHTTP ∨ protocol = protoSOCKS5) ∧
      protocols.Nodup ∧
      ∀ protocol ∈ protocols, protocol ∉ seen := by
  induction protocols generalizing seen with
  | nil => simp [protocolErrors]
  | cons protocol rest inductionHypothesis =>
      simp only [protocolErrors, List.append_eq_nil_iff,
        inductionHypothesis, ite_eq_left_iff, ite_eq_right_iff,
        List.mem_cons, List.nodup_cons, forall_eq_or_imp,
        List.cons_ne_nil, imp_false, not_or]
      grind

theorem quotaErrors_eq_nil_iff (username : String) (quota : Quota) :
    quotaErrors username quota = [] ↔ ValidQuota quota := by
  simp only [quotaErrors, List.append_eq_nil_iff, ite_eq_left_iff,
    ite_eq_right_iff, List.cons_ne_nil, imp_false, not_not, Int.not_lt]
  constructor
  · rintro ⟨⟨period, direction⟩, limit⟩
    exact ⟨period, direction, limit⟩
  · rintro ⟨period, direction, limit⟩
    exact ⟨⟨period, direction⟩, limit⟩

theorem User.fieldErrors_eq_nil_iff (user : User) :
    user.fieldErrors = [] ↔
      0 ≤ user.downloadBPS ∧ 0 ≤ user.uploadBPS ∧
      (∀ protocol ∈ user.protocols,
        protocol = protoHTTP ∨ protocol = protoSOCKS5) ∧
      user.protocols.Nodup ∧
      ∀ quota, user.quota = some quota → ValidQuota quota := by
  simp only [User.fieldErrors, List.append_eq_nil_iff,
    protocolErrors_eq_nil_iff, ite_eq_right_iff, List.cons_ne_nil,
    imp_false, not_or, Int.not_lt, List.not_mem_nil, not_false_eq_true,
    implies_true, and_true]
  cases user.quota with
  | none => simp [and_assoc]
  | some quota => simp [quotaErrors_eq_nil_iff, and_assoc]

theorem nameErrors_eq_nil_iff
    (index : Nat) (seenNames : List String) (user : User) :
    nameErrors index seenNames user = [] ↔
      ValidUsername user.username ∧ user.username ∉ seenNames := by
  rw [← validateUsername_eq_none_iff]
  unfold nameErrors
  cases validateUsername user.username <;> simp

theorem recordErrors_eq_nil_iff
    (seenRecords : List Int) (user : User) :
    recordErrors seenRecords user = [] ↔
      1 ≤ user.recordNumber ∧ user.recordNumber ∉ seenRecords := by
  unfold recordErrors
  by_cases low : user.recordNumber < 1
  · simp only [low, ↓reduceIte, List.cons_ne_nil, false_iff]
    omega
  · simp [low, Int.not_lt.mp low]

theorem userErrors_eq_nil_iff
    (index : Nat) (seenNames : List String) (seenRecords : List Int)
    (users : List User) :
    userErrors index seenNames seenRecords users = [] ↔
      (∀ user ∈ users, ValidUser user) ∧
      ((users.map User.username).Nodup ∧
        ∀ user ∈ users, user.username ∉ seenNames) ∧
      ((users.map User.recordNumber).Nodup ∧
        ∀ user ∈ users, user.recordNumber ∉ seenRecords) := by
  induction users generalizing index seenNames seenRecords with
  | nil => simp [userErrors]
  | cons user rest inductionHypothesis =>
      have userValid :
          ValidUser user ↔
            ValidUsername user.username ∧ 1 ≤ user.recordNumber ∧
              user.fieldErrors = [] := by
        rw [User.fieldErrors_eq_nil_iff]
        constructor
        · rintro ⟨name, record, download, upload, protocols, distinct,
            quota⟩
          exact ⟨name, record, download, upload, protocols, distinct,
            quota⟩
        · rintro ⟨name, record, download, upload, protocols, distinct,
            quota⟩
          exact ⟨name, record, download, upload, protocols, distinct,
            quota⟩
      simp only [userErrors, List.append_eq_nil_iff,
        nameErrors_eq_nil_iff, recordErrors_eq_nil_iff,
        inductionHypothesis, List.mem_cons, forall_eq_or_imp,
        List.map_cons, List.nodup_cons, List.mem_map, userValid]
      grind

/-- `State.Validate` accepts exactly the valid states. -/
theorem State.validate_eq_none_iff (state : State) :
    state.validate = none ↔ ValidState state := by
  have errorFree :
      state.validate = none ↔ userErrors 0 [] [] state.users = [] := by
    unfold State.validate
    split <;> simp_all
  rw [errorFree, userErrors_eq_nil_iff]
  constructor
  · rintro ⟨users, ⟨names, _⟩, ⟨records, _⟩⟩
    exact ⟨users, names, records⟩
  · rintro ⟨users, names, records⟩
    exact ⟨users, ⟨names, by simp⟩, ⟨records, by simp⟩⟩

end Accepted

/-- A valid username contains none of the characters that separate lines,
tokens or fields in an engine file. -/
theorem ValidUsername.char_ne
    {name : String} (valid : ValidUsername name) {separator : Char}
    (special :
      isAlphanumeric separator = false ∧
        isUsernamePunctuation separator = false) :
    separator ∉ name.toList := by
  intro member
  rcases valid.chars separator member with alphanumeric | punctuation
  · simp [special.1] at alphanumeric
  · simp [special.2] at punctuation

end Xoxproxy
