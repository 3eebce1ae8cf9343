import Xoxproxy.Engine.State
import Xoxproxy.Users.Operations

/-!
# Input validation of the user service

The checks that `internal/users/service.go` makes before anything is
stored, with the messages that the API returns.
-/

namespace Xoxproxy

def errInvalidInput : GoError := ⟨"invalid input", [.invalidInput]⟩

def errWeakPassword : GoError :=
  ⟨"password does not meet policy", [.weakPassword]⟩

def minProxyPasswordLength : Nat := 8
def maxProxyPasswordLength : Nat := 256

/-- `validProtocols`: the closed protocol vocabulary. -/
def validProtocol (name : String) : Bool :=
  name = "http" || name = "socks5"

/-- A new proxy user; an empty password asks for a generated one. -/
structure CreateInput where
  username : String
  password : String
  protocols : List String
  downloadBPS : Int
  uploadBPS : Int
  maxConnections : Int
  quotaBytesDaily : Int
  quotaBytesMonthly : Int
  expiresAt : Option Time
  deriving DecidableEq, Repr

/-- A partial update; what is left out stays. -/
structure UpdateInput where
  version : Int
  protocols : Option (List String) := none
  downloadBPS : Option Int := none
  uploadBPS : Option Int := none
  maxConnections : Option Int := none
  quotaBytesDaily : Option Int := none
  quotaBytesMonthly : Option Int := none
  expiresAt : Option Time := none
  clearExpiration : Bool := false
  deriving DecidableEq, Repr

/-- The expiry after an update. -/
def UpdateInput.expiry (input : UpdateInput) (current : Option Time) :
    Option Time :=
  if input.clearExpiration then none
  else
    match input.expiresAt with
    | some expiresAt => some expiresAt
    | none => current

/-- The user that `Update` writes: the request merged into what was
read. -/
def UpdateInput.merge (input : UpdateInput) (current : ProxyUser) :
    ProxyUser :=
  { current with
    allowedProtocols := input.protocols.getD current.allowedProtocols
    downloadBPS := input.downloadBPS.getD current.downloadBPS
    uploadBPS := input.uploadBPS.getD current.uploadBPS
    maxConnections := input.maxConnections.getD current.maxConnections
    quotaBytesDaily := input.quotaBytesDaily.getD current.quotaBytesDaily
    quotaBytesMonthly :=
      input.quotaBytesMonthly.getD current.quotaBytesMonthly
    expiresAt := input.expiry current.expiresAt }

def limitErrors (limit : String × Int) : List GoError :=
  if limit.2 < 0 then
    [.wrap "" errInvalidInput (": " ++ limit.1 ++ " must be >= 0")]
  else []

def quotaInputErrors (quota : String × Int) : List GoError :=
  if quota.2 ≠ 0 ∧ quota.2 < miB then
    [.wrap "" errInvalidInput (": " ++ quota.1 ++
      " must be 0 (unlimited) or at least " ++ toString miB ++ " bytes")]
  else []

def validateLimits
    (order : MapOrder)
    (downloadBPS uploadBPS maxConns quotaDaily quotaMonthly : Int) :
    List GoError :=
  (order.visit [
    ("download_limit_bps", downloadBPS),
    ("upload_limit_bps", uploadBPS),
    ("max_connections", maxConns)]).flatMap limitErrors ++
  (order.visit [
    ("quota_bytes_daily", quotaDaily),
    ("quota_bytes_monthly", quotaMonthly)]).flatMap quotaInputErrors

def joinInputErrors (errors : List GoError) : Option GoError :=
  match errors with
  | [] => none
  | errors =>
      some (.wrap "" errInvalidInput
        (": " ++ join (errors.map GoError.text) "; "))

def ValidQuotaBytes (bytes : Int) : Prop := bytes = 0 ∨ miB ≤ bytes

/-- The limits that the service lets into the store. -/
structure ValidLimits
    (downloadBPS uploadBPS maxConnections quotaBytesDaily
      quotaBytesMonthly : Int) : Prop where
  download : 0 ≤ downloadBPS
  upload : 0 ≤ uploadBPS
  connections : 0 ≤ maxConnections
  daily : ValidQuotaBytes quotaBytesDaily
  monthly : ValidQuotaBytes quotaBytesMonthly

theorem joinInputErrors_eq_none_iff (errors : List GoError) :
    joinInputErrors errors = none ↔ errors = [] := by
  cases errors <;> simp [joinInputErrors]

/-- A check of every entry of a map does not depend on the order of the
visits. -/
theorem visit_flatMap_eq_nil_iff
    {Error : Type} (order : MapOrder) (entries : List (String × Int))
    (check : String × Int → List Error) :
    (order.visit entries).flatMap check = [] ↔
      ∀ entry ∈ entries, check entry = [] := by
  rw [List.flatMap_eq_nil_iff]
  constructor
  · intro clean entry member
    exact clean entry ((order.perm entries).mem_iff.mpr member)
  · intro clean entry member
    exact clean entry ((order.perm entries).mem_iff.mp member)

theorem limitErrors_eq_nil_iff (name : String) (value : Int) :
    limitErrors (name, value) = [] ↔ 0 ≤ value := by
  simp [limitErrors]

theorem quotaInputErrors_eq_nil_iff (name : String) (value : Int) :
    quotaInputErrors (name, value) = [] ↔ ValidQuotaBytes value := by
  simp only [quotaInputErrors, ValidQuotaBytes, ite_eq_right_iff,
    List.cons_ne_nil, imp_false, not_and, Int.not_lt]
  constructor
  · intro bounded
    by_cases zero : value = 0
    · exact Or.inl zero
    · exact Or.inr (bounded zero)
  · intro valid nonzero
    rcases valid with zero | large
    · exact absurd zero nonzero
    · exact large

theorem validateLimits_eq_nil_iff
    (order : MapOrder)
    (downloadBPS uploadBPS maxConns quotaDaily quotaMonthly : Int) :
    validateLimits order downloadBPS uploadBPS maxConns quotaDaily
        quotaMonthly = [] ↔
      ValidLimits downloadBPS uploadBPS maxConns quotaDaily
        quotaMonthly := by
  simp only [validateLimits, List.append_eq_nil_iff,
    visit_flatMap_eq_nil_iff, List.forall_mem_cons, List.not_mem_nil,
    false_imp_iff, implies_true, and_true, limitErrors_eq_nil_iff,
    quotaInputErrors_eq_nil_iff]
  constructor
  · rintro ⟨⟨download, upload, connections⟩, daily, monthly⟩
    exact ⟨download, upload, connections, daily, monthly⟩
  · intro valid
    exact ⟨⟨valid.download, valid.upload, valid.connections⟩,
      valid.daily, valid.monthly⟩

section Checks

variable [Build]

/-- The loop of `validateProtocols`; `seen` holds the protocols before the
current one. -/
def protocolInputErrors : List String → List String → List GoError
  | _, [] => []
  | seen, protocol :: rest =>
      (if validProtocol protocol then [] else
        [.wrap "" errInvalidInput (": unknown protocol " ++
          quote protocol ++ " (allowed: http, socks5)")]) ++
      (if protocol ∈ seen then
        [.wrap "" errInvalidInput (": protocol " ++ quote protocol ++
          " listed more than once")]
      else []) ++
      protocolInputErrors (protocol :: seen) rest

def validateProtocols (protocols : List String) : List GoError :=
  if protocols = [] then
    [.wrap "" errInvalidInput
      ": at least one protocol (http, socks5) is required"]
  else protocolInputErrors [] protocols

def validatePassword (password username : String) : Option GoError :=
  if password.utf8ByteSize < minProxyPasswordLength then
    some (.wrap "" errWeakPassword (": must be at least " ++
      toString minProxyPasswordLength ++ " characters"))
  else if password.utf8ByteSize > maxProxyPasswordLength then
    some (.wrap "" errWeakPassword (": must be at most " ++
      toString maxProxyPasswordLength ++ " characters"))
  else if username ≠ "" ∧ username.utf8ByteSize ≥ 3 ∧
      contains (toLower password) (toLower username) then
    some (.wrap "" errWeakPassword ": must not contain the username")
  else none

/-- `validateNew`; the clock is read for the expiry. -/
def validateNew (order : MapOrder) (now : Time) (input : CreateInput) :
    Option GoError :=
  joinInputErrors
    ((validateUsername input.username).toList ++
      validateProtocols input.protocols ++
      validateLimits order input.downloadBPS input.uploadBPS
        input.maxConnections input.quotaBytesDaily
        input.quotaBytesMonthly ++
      (match input.expiresAt with
        | some expiresAt =>
            if expiresAt ≤ now then
              [.wrap "" errInvalidInput
                ": expires_at must be in the future"]
            else []
        | none => []) ++
      (if input.password = "" then []
        else (validatePassword input.password input.username).toList))

def validateMutated (order : MapOrder) (user : ProxyUser) :
    Option GoError :=
  joinInputErrors
    (validateProtocols user.allowedProtocols ++
      validateLimits order user.downloadBPS user.uploadBPS
        user.maxConnections user.quotaBytesDaily user.quotaBytesMonthly)

/-- The protocols are a nonempty selection of the vocabulary. -/
structure ValidProtocols (protocols : List String) : Prop where
  nonempty : protocols ≠ []
  known : ∀ protocol ∈ protocols, protocol = "http" ∨ protocol = "socks5"
  distinct : protocols.Nodup

theorem protocolInputErrors_eq_nil_iff (seen protocols : List String) :
    protocolInputErrors seen protocols = [] ↔
      (∀ protocol ∈ protocols,
        protocol = "http" ∨ protocol = "socks5") ∧
      protocols.Nodup ∧ ∀ protocol ∈ protocols, protocol ∉ seen := by
  induction protocols generalizing seen with
  | nil => simp [protocolInputErrors]
  | cons protocol rest induction =>
      have known : validProtocol protocol = true ↔
          protocol = "http" ∨ protocol = "socks5" := by
        simp [validProtocol]
      simp only [protocolInputErrors, List.append_eq_nil_iff, induction,
        ite_eq_left_iff, ite_eq_right_iff, List.mem_cons,
        List.nodup_cons, forall_eq_or_imp, List.cons_ne_nil, imp_false,
        not_or, known]
      grind

theorem validateProtocols_eq_nil_iff (protocols : List String) :
    validateProtocols protocols = [] ↔ ValidProtocols protocols := by
  unfold validateProtocols
  by_cases empty : protocols = []
  · rw [if_pos empty]
    constructor
    · intro impossible
      cases impossible
    · intro valid
      exact absurd empty valid.nonempty
  · rw [if_neg empty, protocolInputErrors_eq_nil_iff]
    constructor
    · rintro ⟨known, distinct, _⟩
      exact ⟨empty, known, distinct⟩
    · intro valid
      exact ⟨valid.known, valid.distinct, by simp⟩

/-- What a user that passed `validateMutated` has. -/
theorem validateMutated_eq_none_iff
    (order : MapOrder) (user : ProxyUser) :
    validateMutated order user = none ↔
      ValidProtocols user.allowedProtocols ∧
        ValidLimits user.downloadBPS user.uploadBPS user.maxConnections
          user.quotaBytesDaily user.quotaBytesMonthly := by
  rw [validateMutated, joinInputErrors_eq_none_iff,
    List.append_eq_nil_iff, validateProtocols_eq_nil_iff,
    validateLimits_eq_nil_iff]

/-- What a request that passed `validateNew` has. -/
theorem valid_of_validateNew
    {order : MapOrder} {now : Time} {input : CreateInput}
    (accepted : validateNew order now input = none) :
    ValidUsername input.username ∧ ValidProtocols input.protocols ∧
      ValidLimits input.downloadBPS input.uploadBPS input.maxConnections
        input.quotaBytesDaily input.quotaBytesMonthly := by
  rw [validateNew, joinInputErrors_eq_none_iff] at accepted
  simp only [List.append_eq_nil_iff] at accepted
  obtain ⟨⟨⟨⟨name, protocols⟩, limits⟩, -⟩, -⟩ := accepted
  have noError : validateUsername input.username = none := by
    simpa using name
  exact ⟨(validateUsername_eq_none_iff _).mp noError,
    (validateProtocols_eq_nil_iff _).mp protocols,
    (validateLimits_eq_nil_iff _ _ _ _ _ _).mp limits⟩

end Checks

end Xoxproxy
