import Xoxproxy.Auth.Service

/-!
# What the service's operations go by

For every operation that matters to sessions, passwords and lockouts, what
its call has performed before.  This holds of each call on its own,
whatever the answers are.
-/

namespace Xoxproxy.Auth

open EffectPrograms

abbrev AuthEvent := Event AuthOp AuthOp.Answer

abbrev AuthPast := List AuthEvent

def insertsSession : AuthOp → Bool
  | .insertSession _ => true
  | _ => false

def clearsFailures : AuthOp → Bool
  | .resetFailures _ _ => true
  | _ => false

def replacesPassword : AuthOp → Bool
  | .updatePassword _ _ _ => true
  | _ => false

def purgesSessions : AuthOp → Bool
  | .deleteSessionsForAccount _ _ => true
  | _ => false

def looksUp : AuthOp → Bool
  | .selectAccountByUsername _ => true
  | _ => false

/-- Nothing of the kind was performed. -/
def Avoids (kind : AuthOp → Bool) (past : AuthPast) : Prop :=
  ∀ event ∈ past, kind event.op = false

instance (kind : AuthOp → Bool) (past : AuthPast) :
    Decidable (Avoids kind past) :=
  inferInstanceAs (Decidable (∀ event ∈ past, _))

@[simp]
theorem avoids_nil (kind : AuthOp → Bool) : Avoids kind [] :=
  fun _ member => (by cases member)

@[simp]
theorem avoids_append {kind : AuthOp → Bool} {first second : AuthPast} :
    Avoids kind (first ++ second) ↔
      Avoids kind first ∧ Avoids kind second := by
  simp only [Avoids, List.mem_append, or_imp, forall_and]

@[simp]
theorem avoids_cons {kind : AuthOp → Bool} {event : AuthEvent}
    {rest : AuthPast} :
    Avoids kind (event :: rest) ↔
      kind event.op = false ∧ Avoids kind rest := by
  simp only [Avoids, List.forall_mem_cons]

/-- The token that a call presents as its own session's. -/
def AuthRequest.token? : AuthRequest → Option String
  | .validateSession token => some token
  | .changePassword token _ _ _ _ => some token
  | _ => none

/-- Whether a call is made to replace a password. -/
def AuthRequest.changesPassword : AuthRequest → Bool
  | .changePassword _ _ _ _ _ => true
  | .resetPassword _ _ _ _ => true
  | _ => false

/-- What a login mints a session from. -/
structure Minting where
  input : LoginInput
  now : Time
  found : AccountRow
  account : AdminAccount
  id : String
  token : String
  csrf : String

/-- The failed attempts that a login goes by: those it has read, or none
when it has cleared them. -/
def attemptsKnown (past : AuthPast) (found : AccountRow) : Int :=
  if Avoids clearsFailures past then found.failedAttempts else 0

section Facts

variable [Build] [PasswordHashing] (options : AuthOptions)

def Minting.row (minting : Minting) : SessionRow :=
  (mintedSession options minting.input minting.now minting.account
    minting.id minting.token minting.csrf).row

/-- The login has read the clock and the account, verified the password
and drawn the token and the identifier. -/
structure Minting.Behind (minting : Minting) (call : AuthCall)
    (past : AuthPast) : Prop where
  request : call.request = .login minting.input
  clock : (⟨.now, minting.now⟩ : AuthEvent) ∈ past
  lookup : (⟨.selectAccountByUsername minting.input.username,
    .ok (some minting.found)⟩ : AuthEvent) ∈ past
  account : minting.account.id = minting.found.id
  verified : verifyPassword minting.input.password
    minting.found.passwordHash = true
  token : (⟨.newToken, .ok minting.token⟩ : AuthEvent) ∈ past
  id : (⟨.newSessionID, minting.id⟩ : AuthEvent) ∈ past

/-- The call has read the clock and, by the token it presents, a session
that is not over. -/
structure Presents (call : AuthCall) (past : AuthPast) (token : String)
    (row : SessionRow) (session : AdminSession) (now : Time) : Prop where
  request : call.request.token? = some token
  clock : (⟨.now, now⟩ : AuthEvent) ∈ past
  lookup :
    (⟨.selectSession (hashToken token), .ok (some row)⟩ : AuthEvent) ∈
      past
  scanned : scanSession row = .ok session
  current : sessionOver options session now = false

/-- The login has found an account, and goes by what it knows of it. -/
structure Fails (call : AuthCall) (past : AuthPast) (found : AccountRow)
    (attempts : Int) (lock : Option Time) (now : Time) : Prop where
  clock : (⟨.now, now⟩ : AuthEvent) ∈ past
  lookup : ∃ input, call.request = .login input ∧
    (⟨.selectAccountByUsername input.username, .ok (some found)⟩ :
      AuthEvent) ∈ past
  counted : attempts = attemptsKnown past found + 1
  locked : lock = lockAfter options attempts now

/-- The session that a call spares when it revokes those of an account. -/
def Spares (call : AuthCall) (past : AuthPast) (id : String) : Prop :=
  match call.request.token? with
  | none => id = ""
  | some token => ∃ row : SessionRow, row.id = id ∧
      (⟨.selectSession (hashToken token), .ok (some row)⟩ : AuthEvent) ∈
        past

/-- What the operations of a call go by. -/
def licence (call : AuthCall) (past : AuthPast) : AuthOp → Prop
  | .insertSession row =>
      Avoids insertsSession past ∧
        ∃ minting : Minting, row = minting.row options ∧
          minting.Behind call past
  | .touchSession id now =>
      ∃ token row session, session.id = id ∧
        Presents options call past token row session now
  | .recordLoginFailure id attempts lock now =>
      ∃ found, found.id = id ∧
        Fails options call past found attempts lock now
  | .selectAccountByUsername _ => Avoids looksUp past
  | .updatePassword _ _ _ =>
      call.request.changesPassword = true ∧
        Avoids replacesPassword past ∧ Avoids purgesSessions past
  | .deleteSessionsForAccount accountID id =>
      Spares call past id ∧
        ∀ other hash now answer,
          (⟨.updatePassword other hash now, answer⟩ : AuthEvent) ∈ past →
            other = accountID
  | _ => True

/-- How a login ends. -/
structure LoginEnds (past : AuthPast)
    (outcome : Except GoError LoginResult) : Prop where
  opened : ∀ row, (⟨.insertSession row, none⟩ : AuthEvent) ∈ past →
    ∃ result, outcome = .ok result ∧
      row.tokenHash = hashToken result.token
  failed : outcome = .error errInvalidCredentials →
    ∀ username found,
      (⟨.selectAccountByUsername username, .ok (some found)⟩ :
        AuthEvent) ∈ past →
      ∃ attempts lock now answer,
        (⟨.recordLoginFailure found.id attempts lock now, answer⟩ :
          AuthEvent) ∈ past

/-- A password that was replaced was followed by a purge. -/
def Purged (past : AuthPast) : Prop :=
  ∀ id hash now count,
    (⟨.updatePassword id hash now, .ok (count + 1)⟩ : AuthEvent) ∈ past →
      ¬Avoids purgesSessions past

/-- The call has accepted the token: it presents a session that is not
over, and has touched it. -/
def AcceptedBy (call : AuthCall) (past : AuthPast) (token : String)
    (session : AdminSession) : Prop :=
  ∃ row now answer, Presents options call past token row session now ∧
    (⟨.touchSession session.id now, answer⟩ : AuthEvent) ∈ past

/-- What is known of a call that has returned. -/
def returns (call : AuthCall) (past : AuthPast) (value : AuthResult) :
    Prop :=
  match call.request, value with
  | .login _, .login outcome => LoginEnds past outcome
  | .validateSession token, .validated outcome =>
      ∀ session account, outcome = .ok (session, account) →
        AcceptedBy options call past token session
  | .logout _ _ _, .done _ => True
  | .changePassword _ _ _ _ _, .changed _ => Purged past
  | .resetPassword _ _ _ _, .done _ => Purged past
  | .createAccount _ _ _ _, .created _ => True
  | _, _ => False

end Facts

/-- What a login that has found an account goes by. -/
structure Found (call : AuthCall) (past : AuthPast) (input : LoginInput)
    (now : Time) (found : AccountRow) (account : AdminAccount) : Prop where
  request : call.request = .login input
  clock : (⟨.now, now⟩ : AuthEvent) ∈ past
  lookup : (⟨.selectAccountByUsername input.username, .ok (some found)⟩ :
    AuthEvent) ∈ past
  only : ∀ username other,
    (⟨.selectAccountByUsername username, .ok (some other)⟩ :
      AuthEvent) ∈ past → other = found
  id : account.id = found.id
  hash : account.passwordHash = found.passwordHash
  attempts : account.failedAttempts = attemptsKnown past found
  unopened : Avoids insertsSession past

section Ends

variable {past : AuthPast}

/-- A login that ends without having found an account or minted a
session. -/
theorem loginEnds_early {outcome : Except GoError LoginResult}
    (unopened : Avoids insertsSession past)
    (unknown : ∀ username found,
      (⟨.selectAccountByUsername username, .ok (some found)⟩ :
        AuthEvent) ∉ past) :
    LoginEnds past outcome where
  opened := by
    intro row member
    exact absurd (unopened _ member) (by simp [insertsSession])
  failed := fun _ username found member =>
    absurd member (unknown username found)

/-- A login that ends with an error of its own. -/
theorem loginEnds_error {error : GoError} 
    (unopened : Avoids insertsSession past)
    (other : error ≠ errInvalidCredentials) :
    LoginEnds past (.error error) where
  opened := by
    intro row member
    exact absurd (unopened _ member) (by simp [insertsSession])
  failed := fun same => absurd (Except.error.inj same) other

theorem wrap_ne {error : GoError} {before : String}
    (first : before.toList.head? = some 'a') :
    error.wrap before "" ≠ errInvalidCredentials := by
  intro same
  have text := congrArg (fun error => error.text.toList.head?) same
  simp [GoError.wrap, errInvalidCredentials, first] at text

theorem purged_of_avoids (replaces : Avoids replacesPassword past) :
    Purged past := by
  intro id hash now count member
  exact absurd (replaces _ member) (by simp [replacesPassword])

theorem purged_of_purges (purges : ¬Avoids purgesSessions past) :
    Purged past :=
  fun _ _ _ _ _ => purges

end Ends

section Scans

variable [Build]

theorem scanAdmin_ok {row : AccountRow} {account : AdminAccount}
    (scanned : scanAdmin row = .ok account) :
    account.id = row.id ∧ account.passwordHash = row.passwordHash ∧
      account.failedAttempts = row.failedAttempts ∧
      parseNullTime row.lockedUntil = .ok account.lockedUntil := by
  unfold scanAdmin at scanned
  cases locked : parseNullTime row.lockedUntil with
  | error error => rw [locked] at scanned; cases scanned
  | ok lock =>
      cases created : parseTime row.createdAt with
      | error error => rw [locked, created] at scanned; cases scanned
      | ok createdAt =>
          cases updated : parseTime row.updatedAt with
          | error error =>
              rw [locked, created, updated] at scanned
              cases scanned
          | ok updatedAt =>
              rw [locked, created, updated] at scanned
              obtain rfl := Except.ok.inj scanned
              exact ⟨rfl, rfl, rfl, rfl⟩

theorem parseTime_is {text : String} {error : GoError}
    (failed : parseTime text = .error error) :
    error.is .storeNotFound = false := by
  unfold parseTime at failed
  cases read : readTime text.toList with
  | some time => rw [read] at failed; cases failed
  | none =>
      rw [read] at failed
      rw [← Except.error.inj failed]
      exact GoError.plain_is _ _

theorem parseNullTime_is {text : Option String} {error : GoError}
    (failed : parseNullTime text = .error error) :
    error.is .storeNotFound = false := by
  cases text with
  | none => cases failed
  | some text =>
      rw [parseNullTime] at failed
      split_ifs at failed
      cases read : parseTime text with
      | ok time => rw [read] at failed; cases failed
      | error other =>
          rw [read] at failed
          obtain rfl := Except.error.inj failed
          exact parseTime_is read

theorem scanAdmin_is {row : AccountRow} {error : GoError}
    (failed : scanAdmin row = .error error) :
    error.is .storeNotFound = false := by
  unfold scanAdmin at failed
  cases locked : parseNullTime row.lockedUntil with
  | error other =>
      rw [locked] at failed
      obtain rfl := Except.error.inj failed
      exact parseNullTime_is locked
  | ok lock =>
      cases created : parseTime row.createdAt with
      | error other =>
          rw [locked, created] at failed
          obtain rfl := Except.error.inj failed
          exact parseTime_is created
      | ok createdAt =>
          cases updated : parseTime row.updatedAt with
          | error other =>
              rw [locked, created, updated] at failed
              obtain rfl := Except.error.inj failed
              exact parseTime_is updated
          | ok updatedAt =>
              rw [locked, created, updated] at failed
              cases failed

theorem scanSession_ok {row : SessionRow} {session : AdminSession}
    (scanned : scanSession row = .ok session) :
    session.id = row.id ∧ session.accountID = row.accountID ∧
      parseTime row.expiresAt = .ok session.expiresAt ∧
      parseTime row.lastSeenAt = .ok session.lastSeenAt := by
  unfold scanSession at scanned
  cases created : parseTime row.createdAt with
  | error error => rw [created] at scanned; cases scanned
  | ok createdAt =>
      cases expires : parseTime row.expiresAt with
      | error error => rw [created, expires] at scanned; cases scanned
      | ok expiresAt =>
          cases seen : parseTime row.lastSeenAt with
          | error error =>
              rw [created, expires, seen] at scanned
              cases scanned
          | ok lastSeenAt =>
              rw [created, expires, seen] at scanned
              obtain rfl := Except.ok.inj scanned
              exact ⟨rfl, rfl, rfl, rfl⟩

end Scans

section Walks

variable [Build] [PasswordHashing] {options : AuthOptions}
variable {Result : Type} {call : AuthCall} {past : AuthPast}
variable {post : AuthPast → Result → Prop}

/-- The operations that need no licence. -/
def needless : AuthOp → Bool
  | .insertSession _ => false
  | .touchSession _ _ => false
  | .recordLoginFailure _ _ _ _ => false
  | .selectAccountByUsername _ => false
  | .updatePassword _ _ _ => false
  | .deleteSessionsForAccount _ _ => false
  | _ => true

theorem licence_of_needless {op : AuthOp} (free : needless op = true) :
    licence options call past op := by
  cases op <;> first | exact trivial | cases free

/-- An operation that needs no licence. -/
theorem licensed_ask {op : AuthOp}
    {next : op.Answer → AuthProgram Result} (free : needless op = true)
    (later : ∀ answer, Licensed (licence options call) post (next answer)
      (past ++ [⟨op, answer⟩])) :
    Licensed (licence options call) post (ask op >>= next) past :=
  licensed_call (licence_of_needless free) later

omit [Build] [PasswordHashing] in
/-- A method that consists of one operation. -/
theorem licensed_method {permits : AuthPast → AuthOp → Prop} {Middle : Type}
    {op : AuthOp} {read : op.Answer → Middle}
    {next : Middle → AuthProgram Result} (allowed : permits past op)
    (later : ∀ answer, Licensed permits post (next (read answer))
      (past ++ [⟨op, answer⟩])) :
    Licensed permits post
      ((do let answer ← ask op; pure (read answer)) >>= next) past :=
  licensed_call allowed later

/-! ## Login -/

theorem licensed_auditLogin {input : LoginInput} {result detail : String}
    {value : Result} {post : AuthPast → Result → Prop}
    (holds : ∀ time entry answer,
      post (past ++ [⟨.now, time⟩] ++ [⟨.recordAudit entry, answer⟩])
        value) :
    Licensed (licence options call) post
      (do auditLogin input result detail; pure value) past := by
  refine licensed_call (licence_of_needless rfl) fun time => ?_
  refine licensed_call (licence_of_needless rfl) fun answer => ?_
  exact licensed_ret (holds time _ answer)

theorem licensed_failUnknown (input : LoginInput) (now : Time)
    (reason : String) (unopened : Avoids insertsSession past)
    (unknown : ∀ username found,
      (⟨.selectAccountByUsername username, .ok (some found)⟩ :
        AuthEvent) ∉ past) :
    Licensed (licence options call) LoginEnds
      (failLogin options input now reason none) past := by
  unfold failLogin
  refine licensed_ask rfl fun _ => ?_
  refine licensed_auditLogin fun _ _ _ => ?_
  apply loginEnds_early
  · simpa [insertsSession] using unopened
  · simpa using unknown

theorem licensed_failLogin {input : LoginInput} {now : Time}
    {found : AccountRow} {account : AdminAccount}
    (go : Found call past input now found account)
    (reason : String) :
    Licensed (licence options call) LoginEnds
      (failLogin options input now reason (some account)) past := by
  unfold failLogin
  refine licensed_ask rfl fun _ => ?_
  refine licensed_call ?_ fun answer => ?_
  · refine ⟨found, go.id.symm, ?_, ?_, ?_, rfl⟩
    · simp [go.clock]
    · exact ⟨input, go.request, by simp [go.lookup]⟩
    · rw [go.attempts, attemptsKnown, attemptsKnown]
      simp [clearsFailures]
  refine licensed_auditLogin fun _ _ _ => ?_
  constructor
  · intro row member
    have absent := go.unopened ⟨.insertSession row, none⟩
    have none : (⟨.insertSession row, none⟩ : AuthEvent) ∉ past :=
      fun listed => absurd (absent listed) (by simp [insertsSession])
    simp [none] at member
  · intro _ username other member
    have same : other = found := by
      apply go.only username
      simpa using member
    rw [same, ← go.id]
    exact ⟨account.failedAttempts + 1, _, now, answer, by simp⟩

theorem licensed_newToken {post : AuthPast → Result → Prop}
    {next : Except GoError String → AuthProgram Result}
    (failed : ∀ error : GoError,
      Licensed (licence options call) post
        (next (.error (error.wrap "auth: token: " "")))
        (past ++ [⟨.newToken, .error error⟩]))
    (drawn : ∀ token, Licensed (licence options call) post
      (next (.ok token)) (past ++ [⟨.newToken, .ok token⟩])) :
    Licensed (licence options call) post (newToken >>= next) past := by
  refine licensed_call (licence_of_needless rfl) fun answer => ?_
  cases answer with
  | error error => exact failed error
  | ok token => exact drawn token

theorem licensed_openSession {input : LoginInput} {now : Time}
    {found : AccountRow} {account : AdminAccount}
    (go : Found call past input now found account)
    (verified : verifyPassword input.password found.passwordHash = true) :
    Licensed (licence options call) LoginEnds
      (openSession options input now account) past := by
  have unopened := go.unopened
  unfold openSession
  refine licensed_ask rfl fun _ => ?_
  refine licensed_method trivial fun affected => ?_
  cases assertUpdated affected with
  | some error =>
      refine licensed_ret (loginEnds_error ?_ (wrap_ne rfl))
      simpa [insertsSession] using unopened
  | none =>
      refine licensed_newToken (fun error => ?_) fun token => ?_
      · refine licensed_ret (loginEnds_error ?_ (wrap_ne rfl))
        simpa [insertsSession] using unopened
      refine licensed_newToken (fun error => ?_) fun csrf => ?_
      · refine licensed_ret (loginEnds_error ?_ (wrap_ne rfl))
        simpa [insertsSession] using unopened
      refine licensed_ask rfl fun id => ?_
      refine licensed_call ?_ fun outcome => ?_
      · refine ⟨by simpa [insertsSession] using unopened,
          ⟨input, now, found, account, id, token, csrf⟩, rfl,
          go.request, ?_, ?_, go.id, verified, ?_, ?_⟩
        · simp [go.clock]
        · simp [go.lookup]
        · simp
        · simp
      cases outcome with
      | some error =>
          refine licensed_ret ⟨?_, fun same =>
            absurd (Except.error.inj same) (wrap_ne rfl)⟩
          intro row member
          have absent := unopened ⟨.insertSession row, none⟩
          have none : (⟨.insertSession row, none⟩ : AuthEvent) ∉ past :=
            fun listed => absurd (absent listed) (by simp [insertsSession])
          simp [none] at member
      | none =>
          refine licensed_ask rfl fun _ => ?_
          refine licensed_auditLogin fun _ _ _ => ?_
          refine ⟨fun row member => ⟨_, rfl, ?_⟩, fun same => by cases same⟩
          have absent := unopened ⟨.insertSession row, none⟩
          have none : (⟨.insertSession row, none⟩ : AuthEvent) ∉ past :=
            fun listed => absurd (absent listed) (by simp [insertsSession])
          simp [none] at member
          rw [member]
          rfl

theorem licensed_checkPassword {input : LoginInput} {now : Time}
    {found : AccountRow} {account : AdminAccount}
    (go : Found call past input now found account) :
    Licensed (licence options call) LoginEnds
      (checkPassword options input now account) past := by
  unfold checkPassword
  by_cases verified :
      verifyPassword input.password account.passwordHash = true
  · rw [if_pos verified]
    rw [go.hash] at verified
    exact licensed_openSession go verified
  · rw [if_neg verified]
    exact licensed_failLogin go _

theorem licensed_login {input : LoginInput}
    (request : call.request = .login input) :
    Licensed (licence options call) LoginEnds (login options input) [] := by
  unfold login
  refine licensed_ask rfl fun now => ?_
  refine licensed_ask rfl fun blocked => ?_
  cases blocked with
  | true =>
      refine licensed_auditLogin fun _ _ _ => ?_
      apply loginEnds_early <;> simp [insertsSession]
  | false =>
      refine licensed_method (by simp [licence, looksUp]) fun answer => ?_
      cases outcome : scanned scanAdmin answer with
      | error error =>
          change Licensed _ _ (if error.is .storeNotFound then _ else _) _
          by_cases unknown : error.is .storeNotFound = true
          · rw [if_pos unknown]
            apply licensed_failUnknown
            · simp [insertsSession]
            · intro username found member
              have same : answer = .ok (some found) := by
                simp at member
                exact member.2.symm
              rw [same] at outcome
              rw [scanAdmin_is outcome] at unknown
              cases unknown
          · rw [if_neg unknown]
            refine licensed_ret (loginEnds_error ?_ (wrap_ne rfl))
            simp [insertsSession]
      | ok account =>
          obtain ⟨found, rfl, read⟩ := scanned_ok outcome
          obtain ⟨id, hash, attempts, -⟩ := scanAdmin_ok read
          have go : Found call
              ([] ++ [⟨.now, now⟩] ++
                [⟨.ipBlocked input.sourceIP now, false⟩] ++
                [⟨.selectAccountByUsername input.username,
                  .ok (some found)⟩]) input now found account := by
            refine ⟨request, ?_, ?_, ?_, id, hash, ?_, ?_⟩
            · simp
            · simp
            · intro username other member
              simp at member
              exact member.2
            · rw [attempts, attemptsKnown, if_pos]
              simp [clearsFailures]
            · simp [insertsSession]
          cases locked : account.lockedUntil with
          | none =>
              simp only [locked]
              exact licensed_checkPassword go
          | some lock =>
              simp only [locked]
              by_cases inForce : now < lock
              · rw [if_pos inForce]
                exact licensed_failLogin go _
              · rw [if_neg inForce]
                refine licensed_method trivial fun affected => ?_
                cases assertUpdated affected with
                | some error =>
                    refine licensed_ret (loginEnds_error ?_ (wrap_ne rfl))
                    simp [insertsSession]
                | none =>
                    apply @licensed_checkPassword _ _ options call _ input
                      now found
                    refine ⟨request, ?_, ?_, ?_, id, hash, ?_, ?_⟩
                    · simp
                    · simp
                    · intro username other member
                      simp at member
                      exact member.2
                    · rw [attemptsKnown, if_neg]
                      simp [clearsFailures]
                    · simp [insertsSession]

/-- How a validation ends. -/
structure ValidationEnds (options : AuthOptions) (call : AuthCall)
    (token : String) (past : AuthPast)
    (outcome : Except GoError (AdminSession × AdminAccount)) : Prop where
  replaces : Avoids replacesPassword past
  purges : Avoids purgesSessions past
  accepted : ∀ session account, outcome = .ok (session, account) →
    AcceptedBy options call past token session

theorem licensed_validateSession {token : String}
    (request : call.request.token? = some token) :
    Licensed (licence options call) (ValidationEnds options call token)
      (validateSession options token) [] := by
  have rejected : ∀ {past : AuthPast} {error : GoError},
      Avoids replacesPassword past → Avoids purgesSessions past →
        ValidationEnds options call token past (.error error) :=
    fun replaces purges => ⟨replaces, purges, fun _ _ same => by cases same⟩
  unfold validateSession
  refine licensed_ask rfl fun now => ?_
  refine licensed_method trivial fun answer => ?_
  cases outcome : scanned scanSession answer with
  | error error =>
      change Licensed _ _ (if error.is .storeNotFound then _ else _) _
      by_cases unknown : error.is .storeNotFound = true
      · rw [if_pos unknown]
        apply licensed_ret
        apply rejected <;> simp [replacesPassword, purgesSessions]
      · rw [if_neg unknown]
        apply licensed_ret
        apply rejected <;> simp [replacesPassword, purgesSessions]
  | ok session =>
      obtain ⟨row, rfl, read⟩ := scanned_ok outcome
      change Licensed _ _ (if sessionOver options session now then _
        else _) _
      by_cases ended : sessionOver options session now = true
      · rw [if_pos ended]
        refine licensed_ask rfl fun _ => ?_
        apply licensed_ret
        apply rejected <;> simp [replacesPassword, purgesSessions]
      · rw [if_neg ended]
        refine licensed_method trivial fun found => ?_
        cases scanned scanAdmin found with
        | error error =>
            change Licensed _ _ (if error.is .storeNotFound then _
              else _) _
            by_cases unknown : error.is .storeNotFound = true
            · rw [if_pos unknown]
              refine licensed_ask rfl fun _ => ?_
              apply licensed_ret
              apply rejected <;> simp [replacesPassword, purgesSessions]
            · rw [if_neg unknown]
              apply licensed_ret
              apply rejected <;> simp [replacesPassword, purgesSessions]
        | ok account =>
            have presents : ∀ past : AuthPast,
                (⟨.now, now⟩ : AuthEvent) ∈ past →
                (⟨.selectSession (hashToken token), .ok (some row)⟩ :
                  AuthEvent) ∈ past →
                Presents options call past token row session now :=
              fun _ clock lookup =>
                ⟨request, clock, lookup, read, by simpa using ended⟩
            refine licensed_call ?_ fun answer => ?_
            · refine ⟨token, row, session, rfl, presents _ ?_ ?_⟩
              · simp
              · simp
            apply licensed_ret
            refine ⟨?_, ?_, ?_⟩
            · simp [replacesPassword]
            · simp [purgesSessions]
            · rintro _ _ ⟨⟩
              refine ⟨row, now, answer, presents _ ?_ ?_, ?_⟩ <;> simp

/-! ## Passwords -/

theorem licensed_hashNewPassword {post : AuthPast → Result → Prop}
    {password : String}
    {next : Except GoError String → AuthProgram Result}
    (failed : ∀ error : GoError,
      Licensed (licence options call) post
        (next (.error (error.wrap "auth: salt: " "")))
        (past ++ [⟨.newSalt, .error error⟩]))
    (salted : ∀ salt, Licensed (licence options call) post
      (next (.ok (hashPassword salt password)))
      (past ++ [⟨.newSalt, .ok salt⟩])) :
    Licensed (licence options call) post
      (hashNewPassword password >>= next) past := by
  refine licensed_call (licence_of_needless rfl) fun answer => ?_
  cases answer with
  | error error => exact failed error
  | ok salt => exact salted salt

/-- A password is replaced, or the row is missed. -/
theorem licensed_updatePassword {post : AuthPast → Result → Prop}
    {accountID : Int} {hash : String} {now : Time}
    {next : Option GoError → AuthProgram Result}
    (request : call.request.changesPassword = true)
    (replaces : Avoids replacesPassword past)
    (purges : Avoids purgesSessions past)
    (missed : ∀ error later, Purged later →
      Licensed (licence options call) post (next (some error)) later)
    (updated : ∀ count, Licensed (licence options call) post (next none)
      (past ++ [⟨.updatePassword accountID hash now,
        .ok (count + 1)⟩])) :
    Licensed (licence options call) post
      (updatePassword accountID hash now >>= next) past := by
  refine licensed_call ⟨request, replaces, purges⟩ fun affected => ?_
  change Licensed _ _ (next (assertUpdated affected)) _
  have unwritten : ∀ id hash now count,
      (⟨.updatePassword id hash now, .ok (count + 1)⟩ : AuthEvent) ∉
        past := by
    intro id hash now count listed
    exact absurd (replaces _ listed) (by simp [replacesPassword])
  rcases affected with error | _ | count
  · refine missed _ _ fun id hash now count member => ?_
    simp [unwritten] at member
  · refine missed _ _ fun id hash now count member => ?_
    simp [unwritten] at member
  · exact updated count

/-- The sessions are purged behind the replaced password. -/
theorem licensed_purge {accountID : Int} {hash id : String} {now : Time}
    {count : Nat} {next : Option GoError → AuthProgram Result}
    (replaces : Avoids replacesPassword past)
    (spares : ∀ later : AuthPast, Spares call (past ++ later) id)
    (done : ∀ answer later, ¬Avoids purgesSessions later →
      Licensed (licence options call) (fun past _ => Purged past)
        (next answer) later) :
    Licensed (licence options call) (fun past _ => Purged past)
      (ask (.deleteSessionsForAccount accountID id) >>= next)
      (past ++ [⟨.updatePassword accountID hash now,
        .ok (count + 1)⟩]) := by
  refine licensed_call ⟨spares _, ?_⟩ fun answer => ?_
  · intro other otherHash at' affected member
    have absent : (⟨.updatePassword other otherHash at', affected⟩ :
        AuthEvent) ∉ past := fun listed =>
      absurd (replaces _ listed) (by simp [replacesPassword])
    simp [absent] at member
    exact member.1.1
  · refine done answer _ fun none => ?_
    simp [purgesSessions] at none

theorem licensed_audit {entry : AuditEntry} {value : Result}
    (purges : ¬Avoids purgesSessions past) :
    Licensed (licence options call) (fun past _ => Purged past)
      (do audit entry; pure value) past := by
  refine licensed_call (licence_of_needless rfl) fun answer => ?_
  refine licensed_ret (purged_of_purges fun none => purges ?_)
  simp at none
  exact none.1

/-- A new password and the purge behind it. -/
theorem licensed_replacePassword {session : AdminSession}
    {account : AdminAccount} {newPassword requestID sourceIP : String}
    (request : call.request.changesPassword = true)
    (replaces : Avoids replacesPassword past)
    (purges : Avoids purgesSessions past)
    (spares : ∀ later : AuthPast, Spares call (past ++ later) session.id) :
    Licensed (licence options call) (fun past _ => Purged past)
      (replacePassword session account newPassword requestID sourceIP)
      past := by
  unfold replacePassword
  cases validatePasswordPolicy newPassword account.username with
  | some error => exact licensed_ret (purged_of_avoids replaces)
  | none =>
      refine licensed_hashNewPassword (fun error => ?_) fun salt => ?_
      · apply licensed_ret
        apply purged_of_avoids
        simpa [replacesPassword] using replaces
      refine licensed_ask rfl fun now => ?_
      refine licensed_updatePassword request ?_ ?_ ?_ fun count => ?_
      · simpa [replacesPassword] using replaces
      · simpa [purgesSessions] using purges
      · exact fun _ _ purged => licensed_ret purged
      refine licensed_purge ?_ ?_ fun answer later purges => ?_
      · simpa [replacesPassword] using replaces
      · intro later
        rw [List.append_assoc, List.append_assoc]
        exact spares _
      cases answer with
      | some error => exact licensed_ret (purged_of_purges purges)
      | none => exact licensed_audit purges

theorem licensed_changePassword
    {token current new requestID sourceIP : String}
    (request : call.request =
      .changePassword token current new requestID sourceIP) :
    Licensed (licence options call) (fun past _ => Purged past)
      (changePassword options token current new requestID sourceIP)
      [] := by
  have presented : call.request.token? = some token := by rw [request]; rfl
  unfold changePassword
  refine licensed_bind (licensed_validateSession presented) ?_
  intro past outcome ends
  rcases outcome with error | ⟨session, account⟩
  · exact licensed_ret (purged_of_avoids ends.replaces)
  · obtain ⟨row, now, answer, presents, -⟩ :=
      ends.accepted session account rfl
    dsimp only
    split
    · refine licensed_replacePassword (by rw [request]; rfl)
        ends.replaces ends.purges fun later => ?_
      rw [Spares, presented]
      exact ⟨row, (scanSession_ok presents.scanned).1.symm,
        List.mem_append_left _ presents.lookup⟩
    · refine licensed_call (licence_of_needless rfl) fun answer => ?_
      apply licensed_ret
      apply purged_of_avoids
      simpa [replacesPassword] using ends.replaces

theorem licensed_resetPassword {username new actor requestID : String}
    (asked : call.request = .resetPassword username new actor requestID) :
    Licensed (licence options call) (fun past _ => Purged past)
      (resetPassword username new actor requestID) [] := by
  have request : call.request.changesPassword = true := by rw [asked]; rfl
  unfold resetPassword
  refine licensed_method (by simp [licence]) fun found => ?_
  have none : Avoids replacesPassword
      ([] ++ [⟨.selectAccountByUsername username, found⟩]) := by
    simp [replacesPassword]
  cases scanned scanAdmin found with
  | error error => exact licensed_ret (purged_of_avoids none)
  | ok account =>
      dsimp only
      cases validatePasswordPolicy new username with
      | some error => exact licensed_ret (purged_of_avoids none)
      | none =>
          refine licensed_hashNewPassword (fun error => ?_) fun salt => ?_
          · apply licensed_ret
            apply purged_of_avoids
            simp [replacesPassword]
          refine licensed_ask rfl fun now => ?_
          refine licensed_updatePassword request ?_ ?_ ?_ fun count => ?_
          · simp [replacesPassword]
          · simp [purgesSessions]
          · exact fun _ _ purged => licensed_ret purged
          refine licensed_purge ?_ ?_ fun answer later purges => ?_
          · simp [replacesPassword]
          · intro later
            rw [Spares, asked]
            rfl
          cases answer with
          | some error => exact licensed_ret (purged_of_purges purges)
          | none => exact licensed_audit purges

theorem licensed_logout {token requestID sourceIP : String} :
    Licensed (licence options call) (fun _ _ => True)
      (logout token requestID sourceIP) [] := by
  unfold logout
  refine licensed_method trivial fun found => ?_
  cases scanned scanSession found with
  | error error =>
      dsimp only
      split <;> exact licensed_ret trivial
  | ok session =>
      dsimp only
      refine licensed_ask rfl fun outcome => ?_
      cases outcome with
      | some error => exact licensed_ret trivial
      | none =>
          refine licensed_call (licence_of_needless rfl) fun answer => ?_
          exact licensed_ret trivial

theorem licensed_insertAccount {username hash : String} :
    Licensed (licence options call) (fun _ _ => True)
      (insertAccount username hash) past := by
  unfold insertAccount
  refine licensed_ask rfl fun now => ?_
  refine licensed_ask rfl fun created => ?_
  refine licensed_ask rfl fun answer => ?_
  cases answer with
  | error error =>
      dsimp only
      split <;> exact licensed_ret trivial
  | ok id => exact licensed_ret trivial

theorem licensed_createAccount
    {username password actor requestID : String} :
    Licensed (licence options call) (fun _ _ => True)
      (createAccount username password actor requestID) [] := by
  unfold createAccount
  cases validatePasswordPolicy password username with
  | some error => exact licensed_ret trivial
  | none =>
      refine licensed_hashNewPassword (fun _ => licensed_ret trivial)
        fun salt => ?_
      refine licensed_bind licensed_insertAccount fun later outcome _ => ?_
      cases outcome with
      | error error =>
          dsimp only
          split <;> exact licensed_ret trivial
      | ok account =>
          refine licensed_call (licence_of_needless rfl) fun answer => ?_
          exact licensed_ret trivial

theorem licensed_program (options : AuthOptions) (call : AuthCall) :
    Licensed (licence options call) (returns options call)
      (call.program options) [] := by
  obtain ⟨number, request⟩ := call
  cases request with
  | login input =>
      exact licensed_bind (licensed_login rfl) fun _ _ ends =>
        licensed_ret ends
  | validateSession token =>
      exact licensed_bind (licensed_validateSession rfl) fun _ _ ends =>
        licensed_ret ends.accepted
  | logout token requestID sourceIP =>
      exact licensed_bind licensed_logout fun _ _ _ =>
        licensed_ret trivial
  | changePassword token current new requestID sourceIP =>
      exact licensed_bind (licensed_changePassword rfl) fun _ _ purged =>
        licensed_ret purged
  | resetPassword username new actor requestID =>
      exact licensed_bind (licensed_resetPassword rfl) fun _ _ purged =>
        licensed_ret purged
  | createAccount username password actor requestID =>
      exact licensed_bind licensed_createAccount fun _ _ _ =>
        licensed_ret trivial

end Walks

end Xoxproxy.Auth
