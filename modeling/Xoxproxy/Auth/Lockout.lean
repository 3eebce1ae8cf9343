import Xoxproxy.Auth.Accounts
import Xoxproxy.Auth.Sessions

/-!
# Lockouts

A login that fails writes back one failure more than it has read, and the
lock that follows from that.  Between the reading and the writing lies the
verification of the password, so what it writes may be out of date.
-/

namespace Xoxproxy.Auth

open EffectPrograms RowTables

/-- The account whose failure an operation records, and the instant that
the lock is reckoned from. -/
def failure? : AuthOp → Option (Int × Time)
  | .recordLoginFailure id _ _ now => some (id, now)
  | _ => none

def clearedAccount? : AuthOp → Option Int
  | .resetFailures id _ => some id
  | _ => none

/-- The password was found wrong. -/
def findsBadPassword : AuthOp → Bool
  | .recordAudit entry => entry.detail = "bad password"
  | _ => false

/-- The event has taken back what was counted for the account: a login has
succeeded or cleared an expired lock, or the password was replaced. -/
def forgives (id : Int) (event : AuthEvent) : Bool :=
  writtenAccount? event = some id && (failure? event.op).isNone

/-- The performed operation records a failure of the account. -/
def failureOf (id : Int) (performed : AuthPerformed) : Bool :=
  (failure? performed.event.op).map Prod.fst = some id

/-- How many logins of the account have come to record a failure and to
their end after a failed check of the password. -/
def failedChecks (id : Int) (window : AuthHistory) : Nat :=
  window.countP fun performed =>
    failureOf id performed &&
      window.any fun other =>
        other.label = performed.label && findsBadPassword other.event.op

/-- The account row that a login has read. -/
def ReadBy (call : AuthCall) (past : AuthPast) (found : AccountRow) :
    Prop :=
  ∃ input, call.request = .login input ∧
    (⟨.selectAccountByUsername input.username, .ok (some found)⟩ :
      AuthEvent) ∈ past

/-- The row is locked until an instant that has not come. -/
def InForce (clock : Time) (row : AccountRow) (lock : Time) : Prop :=
  row.lockedUntil = some (formatTime lock) ∧ clock < lock

/-- In any part of what was performed last, without a success of the
account and within one lockout, every failed check of a password counts,
and enough of them lock the account. -/
def FailuresCounted (options : AuthOptions) (recorded : AuthRecorded) :
    Prop :=
  ∀ before window id, recorded.history = before ++ window →
    (∀ performed ∈ window, forgives id performed.event = false) →
    (∀ performed ∈ window, ∀ failure ∈ failure? performed.event.op,
      recorded.world.clock < failure.2 + options.lockout) →
    ∀ row ∈ recorded.world.tables.accounts, row.id = id →
      failedChecks id window ≤ row.failedAttempts ∧
        (0 < failedChecks id window →
          options.maxFailures ≤ failedChecks id window →
            ∃ lock, InForce recorded.world.clock row lock)

section Conditions

variable [PasswordHashing]

/-- The operation belongs to a login that fails: it records a failure, or
the password that the login was given is wrong. -/
def BelongsToFailing (call : AuthCall) (past : AuthPast) (op : AuthOp) :
    Prop :=
  failure? op ≠ none ∨
    ∃ input found, call.request = .login input ∧ ReadBy call past found ∧
      verifyPassword input.password found.passwordHash = false

/-- A login that fails leaves every lock in force as it is, or makes it
last longer. -/
def KeepsLocks [Build] (options : AuthOptions) (pool : AuthPool)
    (action : Action AuthCall AuthChoice Unit) : Prop :=
  ∀ next ∈ advancing pool action,
    BelongsToFailing next.2.1 (ownEvents next.2.1 pool.world.history)
      next.2.2 →
    ∀ row ∈ pool.world.world.tables.accounts, ∀ lock,
      InForce pool.world.world.clock row lock →
        ∃ later ∈ ((authMachine options).recorded.step action
            pool).world.world.tables.accounts,
          later.id = row.id ∧ ∃ other, lock ≤ other ∧
            later.lockedUntil = some (formatTime other)

/-- A failure is written, the account does not count more failures than
the login knows of, and is not locked for longer than from now on. -/
def FailureUpToDate (options : AuthOptions) (recorded : AuthRecorded)
    (choice : AuthChoice) (call : AuthCall) (id : Int) (now : Time) :
    Prop :=
  choice.error = none ∧
    ∀ row ∈ recorded.world.tables.accounts, row.id = id →
      (∀ found, ReadBy call (ownEvents call recorded.history) found →
        row.failedAttempts ≤
          attemptsKnown (ownEvents call recorded.history) found) ∧
      ∀ lock, InForce recorded.world.clock row lock →
        lock ≤ now + options.lockout

/-- A login with a wrong password clears no lock in force but the one that
it has read. -/
def ClearingUpToDate (recorded : AuthRecorded) (call : AuthCall)
    (id : Int) : Prop :=
  ∀ found, ReadBy call (ownEvents call recorded.history) found →
    ∀ input, call.request = .login input →
      verifyPassword input.password found.passwordHash = false →
        ∀ row ∈ recorded.world.tables.accounts, row.id = id →
          ∀ lock, InForce recorded.world.clock row lock →
            row.lockedUntil = found.lockedUntil

/-- What a login writes is not out of date. -/
def UpToDate (options : AuthOptions) (recorded : AuthRecorded)
    (choice : AuthChoice) (call : AuthCall) (op : AuthOp) : Prop :=
  (∀ failure ∈ failure? op,
    FailureUpToDate options recorded choice call failure.1 failure.2) ∧
  ∀ id ∈ clearedAccount? op, ClearingUpToDate recorded call id

end Conditions

section Clearing

variable [Build] [PasswordHashing]

/-- A login that resets the failures has verified the password, or has
read a lock that is no longer in force. -/
def clearing (call : AuthCall) (past : AuthPast) : AuthOp → Prop
  | .resetFailures _ _ =>
      ∀ input found, call.request = .login input → ReadBy call past found →
        verifyPassword input.password found.passwordHash = true ∨
          ∃ lock now, parseNullTime found.lockedUntil = .ok (some lock) ∧
            lock ≤ now ∧ (⟨.now, now⟩ : AuthEvent) ∈ past
  | _ => True

variable {options : AuthOptions} {call : AuthCall} {past : AuthPast}

/-- Failures are reset, or the row is missed. -/
theorem clearing_resetFailures {Result : Type} {id : Int} {now : Time}
    {next : Option GoError → AuthProgram Result}
    (allowed : clearing call past (.resetFailures id now))
    (missed : ∀ error later, Licensed (clearing call) (fun _ _ => True)
      (next (some error)) later)
    (done : ∀ answer, Licensed (clearing call) (fun _ _ => True)
      (next none) (past ++ [⟨.resetFailures id now, answer⟩])) :
    Licensed (clearing call) (fun _ _ => True)
      (resetFailures id now >>= next) past := by
  refine licensed_call allowed fun answer => ?_
  change Licensed _ _ (next (assertUpdated answer)) _
  cases assertUpdated answer with
  | some error => exact missed error _
  | none => exact done answer

theorem clearing_auditLogin {Result : Type} {input : LoginInput}
    {result detail : String} {value : Result} :
    Licensed (clearing call) (fun _ _ => True)
      (do auditLogin input result detail; pure value) past := by
  refine licensed_call trivial fun time => ?_
  exact licensed_call trivial fun answer => licensed_ret trivial

theorem clearing_failLogin {input : LoginInput} {now : Time}
    {reason : String} {account : Option AdminAccount} :
    Licensed (clearing call) (fun _ _ => True)
      (failLogin options input now reason account) past := by
  unfold failLogin
  refine licensed_call trivial fun _ => ?_
  cases account with
  | none => exact clearing_auditLogin
  | some account =>
      exact licensed_call trivial fun _ => clearing_auditLogin

/-- The reset behind a verified password. -/
theorem clearing_openSession {input : LoginInput} {now : Time}
    {found : AccountRow} {account : AdminAccount}
    (request : call.request = .login input)
    (only : ∀ other, ReadBy call past other → other = found)
    (verified : verifyPassword input.password found.passwordHash = true) :
    Licensed (clearing call) (fun _ _ => True)
      (openSession options input now account) past := by
  unfold openSession
  refine licensed_call trivial fun answer => ?_
  refine clearing_resetFailures ?_ (fun _ _ => licensed_ret trivial)
    fun affected => ?_
  · intro other row asked read
    obtain rfl : input = other :=
      AuthRequest.login.inj (request.symm.trans asked)
    have same : row = found := by
      apply only
      obtain ⟨other, asked, listed⟩ := read
      exact ⟨other, asked, by simpa using listed⟩
    rw [same]
    exact Or.inl verified
  refine licensed_call trivial fun first => ?_
  cases first with
  | error error => exact licensed_ret trivial
  | ok token =>
      refine licensed_call trivial fun second => ?_
      cases second with
      | error error => exact licensed_ret trivial
      | ok csrf =>
          refine licensed_call trivial fun id => ?_
          refine licensed_call trivial fun outcome => ?_
          cases outcome with
          | some error => exact licensed_ret trivial
          | none =>
              refine licensed_call trivial fun _ => ?_
              exact clearing_auditLogin

theorem clearing_checkPassword {input : LoginInput} {now : Time}
    {found : AccountRow} {account : AdminAccount}
    (request : call.request = .login input)
    (only : ∀ other, ReadBy call past other → other = found)
    (hash : account.passwordHash = found.passwordHash) :
    Licensed (clearing call) (fun _ _ => True)
      (checkPassword options input now account) past := by
  unfold checkPassword
  by_cases verified :
      verifyPassword input.password account.passwordHash = true
  · rw [if_pos verified]
    rw [hash] at verified
    exact clearing_openSession request only verified
  · rw [if_neg verified]
    exact clearing_failLogin

theorem clearing_login {input : LoginInput}
    (request : call.request = .login input) :
    Licensed (clearing call) (fun _ _ => True) (login options input)
      [] := by
  unfold login
  refine licensed_call trivial fun now => ?_
  refine licensed_call trivial fun blocked => ?_
  cases blocked with
  | true => exact clearing_auditLogin
  | false =>
      refine licensed_method trivial fun answer => ?_
      cases outcome : scanned scanAdmin answer with
      | error error =>
          change Licensed _ _ (if error.is .storeNotFound then _ else _) _
          by_cases unknown : error.is .storeNotFound = true
          · rw [if_pos unknown]
            exact clearing_failLogin
          · rw [if_neg unknown]
            exact licensed_ret trivial
      | ok account =>
          obtain ⟨found, rfl, read⟩ := scanned_ok outcome
          obtain ⟨-, hash, -, locked⟩ := scanAdmin_ok read
          have only : ∀ other, ReadBy call
              ([] ++ [⟨.now, now⟩] ++
                [⟨.ipBlocked input.sourceIP now, false⟩] ++
                [⟨.selectAccountByUsername input.username,
                  .ok (some found)⟩]) other → other = found := by
            rintro other ⟨_, _, listed⟩
            simp at listed
            exact listed.2
          cases lock : account.lockedUntil with
          | none =>
              simp only [lock]
              exact clearing_checkPassword request only hash
          | some lock' =>
              simp only [lock]
              by_cases inForce : now < lock'
              · rw [if_pos inForce]
                exact clearing_failLogin
              · rw [if_neg inForce]
                refine clearing_resetFailures ?_
                  (fun _ _ => licensed_ret trivial) fun affected => ?_
                · intro _ row _ readRow
                  rw [only row readRow, locked, lock]
                  refine Or.inr ⟨lock', now, rfl, ?_, by simp⟩
                  exact not_lt.mp inForce
                · apply @clearing_checkPassword _ _ options call _ input
                    now found
                  · exact request
                  · rintro other ⟨_, _, listed⟩
                    simp at listed
                    exact listed.2
                  · exact hash

/-- What the operations of a call go by, clearing included. -/
theorem clearing_program (options : AuthOptions) (call : AuthCall) :
    Licensed (clearing call) (fun _ _ => True) (call.program options)
      [] := by
  obtain ⟨number, request⟩ := call
  cases request with
  | login input =>
      exact licensed_bind (clearing_login rfl) fun _ _ _ =>
        licensed_ret trivial
  | validateSession _ | logout _ _ _ | changePassword _ _ _ _ _
  | resetPassword _ _ _ _ | createAccount _ _ _ _ =>
      refine licensed_of_forall (fun past op => ?_) (fun _ _ => trivial) _
      cases op <;> first
        | exact trivial
        | exact fun _ _ asked => by cases asked

end Clearing

/-- The clock does not run backwards, and is what was read last. -/
theorem handle_clock {options : AuthOptions} {op : AuthOp}
    {choice : AuthChoice} {host after : AuthHost} {answer : op.Answer}
    (handled : host.handle options op choice = some (answer, after)) :
    host.clock ≤ after.clock ∧
      ∀ now, (⟨op, answer⟩ : AuthEvent) = ⟨.now, now⟩ →
        now ≤ after.clock := by
  have still : after.clock = host.clock → op ≠ .now →
      host.clock ≤ after.clock ∧
        ∀ now, (⟨op, answer⟩ : AuthEvent) = ⟨.now, now⟩ →
          now ≤ after.clock := by
    intro same other
    refine ⟨same.ge, fun now event => ?_⟩
    exact absurd (congrArg Event.op event) other
  cases op with
  | now =>
      rw [AuthHost.handle] at handled
      split at handled
      · cases handled
        refine ⟨‹_›, fun now event => ?_⟩
        cases event
        exact le_rfl
      · cases handled
  | newSessionID =>
      rw [AuthHost.handle] at handled
      split at handled
      · cases handled
      · cases handled
        exact still rfl (by simp)
  | ipBlocked ip now | ipFailure ip now | ipSuccess ip | recordAudit entry =>
      cases handled
      exact still rfl (by simp)
  | newSalt | newToken | selectAccountByID id
  | selectAccountByUsername username | selectSession hash =>
      obtain ⟨rfl, -⟩ := AuthHost.select_same handled
      exact still rfl (by simp)
  | insertAccount username hash created now =>
      rw [AuthHost.handle] at handled
      cases failure : choice.error with
      | some error =>
          rw [failure] at handled
          cases handled
          exact still rfl (by simp)
      | none =>
          rw [failure, AuthHost.insertAccount] at handled
          split_ifs at handled <;>
            · cases handled
              exact still rfl (by simp)
  | insertSession new =>
      rw [AuthHost.handle, AuthHost.insertSession] at handled
      cases conflict : AuthHost.sessionConflict host.tables new with
      | some error =>
          rw [conflict] at handled
          cases handled
          exact still rfl (by simp)
      | none =>
          rw [conflict] at handled
          rcases AuthHost.execute_cases handled with ⟨rfl, -⟩ | ⟨-, rfl⟩ <;>
            exact still rfl (by simp)
  | touchSession _ now | deleteSession _
  | deleteSessionsForAccount account spared =>
      rcases AuthHost.execute_cases handled with ⟨rfl, -⟩ | ⟨-, rfl⟩ <;>
        exact still rfl (by simp)
  | deleteExpiredSessions now | updatePassword id hash now
  | recordLoginFailure id attempts lock now | resetFailures id now =>
      rcases AuthHost.change_cases handled with ⟨rfl, -⟩ | ⟨-, rfl⟩ <;>
        exact still rfl (by simp)

/-! ## What is counted -/

/-- The counter of a stored account covers the failures recorded behind
the last success, and its lock follows from the counter. -/
structure RowTallied (options : AuthOptions) (history : AuthHistory)
    (row : AccountRow) : Prop where
  nonneg : 0 ≤ row.failedAttempts
  locked : row.lockedUntil = none ∨ options.maxFailures ≤ row.failedAttempts
  windows : ∀ before window, history = before ++ window →
    (∀ performed ∈ window, forgives row.id performed.event = false) →
      window.countP (failureOf row.id) ≤ row.failedAttempts ∧
        (0 < window.countP (failureOf row.id) →
          ∃ performed ∈ window, ∃ failure ∈ failure? performed.event.op,
            row.lockedUntil = formatNullTime
              (lockAfter options row.failedAttempts failure.2))

section Rows

variable {options : AuthOptions} {history : AuthHistory}
variable {row : AccountRow} {performed : AuthPerformed}

/-- A row that has just been inserted or cleared. -/
theorem rowTallied_fresh (failures : row.failedAttempts = 0)
    (lock : row.lockedUntil = none)
    (counts : ∀ before window, history = before ++ window →
      (∀ performed ∈ window, forgives row.id performed.event = false) →
        window.countP (failureOf row.id) = 0) :
    RowTallied options history row where
  nonneg := failures.ge
  locked := Or.inl lock
  windows := by
    intro before window split unforgiven
    rw [counts before window split unforgiven, failures]
    exact ⟨le_rfl, fun positive => absurd positive (lt_irrefl 0)⟩

/-- Where a part at the end of a longer history comes from. -/
theorem window_cases {before window : AuthHistory}
    (split : history ++ [performed] = before ++ window) :
    window = [] ∨ ∃ earlier, window = earlier ++ [performed] ∧
      history = before ++ earlier := by
  rcases List.eq_nil_or_concat window with rfl | ⟨earlier, last, rfl⟩
  · exact Or.inl rfl
  · rw [List.concat_eq_append, ← List.append_assoc] at split
    obtain ⟨same, ends⟩ := List.append_inj' split rfl
    obtain ⟨rfl, -⟩ := List.cons.inj ends
    exact Or.inr ⟨earlier, List.concat_eq_append, same⟩

theorem RowTallied.snoc (tallied : RowTallied options history row)
    (other : failureOf row.id performed = false) :
    RowTallied options (history ++ [performed]) row where
  nonneg := tallied.nonneg
  locked := tallied.locked
  windows := by
    intro before window split unforgiven
    rcases window_cases split with rfl | ⟨earlier, rfl, old⟩
    · exact ⟨tallied.nonneg, fun positive => absurd positive (lt_irrefl 0)⟩
    · have same : (earlier ++ [performed]).countP (failureOf row.id) =
          earlier.countP (failureOf row.id) := by
        simp [List.countP_append, other]
      obtain ⟨count, lock⟩ := tallied.windows before earlier old
        fun listed member =>
          unforgiven listed (List.mem_append_left _ member)
      rw [same]
      refine ⟨count, fun positive => ?_⟩
      obtain ⟨failed, member, found⟩ := lock positive
      exact ⟨failed, List.mem_append_left _ member, found⟩

/-- A row after a failure that was up to date. -/
theorem RowTallied.failed (tallied : RowTallied options history row)
    {call : AuthCall} {attempts : Int} {lock : Option Time} {now : Time}
    {answer : Except GoError Nat}
    (counted : row.failedAttempts + 1 ≤ attempts)
    (locks : lock = lockAfter options attempts now) :
    RowTallied options
      (history ++ [⟨call, ⟨.recordLoginFailure row.id attempts lock now,
        answer⟩⟩])
      { row with
        failedAttempts := attempts
        lockedUntil := formatNullTime lock
        updatedAt := formatTime now } where
  nonneg := by
    have before := tallied.nonneg
    change 0 ≤ attempts
    omega
  locked := by
    rw [locks, lockAfter]
    split_ifs with enough
    · exact Or.inr enough
    · exact Or.inl rfl
  windows := by
    intro before window split unforgiven
    rcases window_cases split with rfl | ⟨earlier, rfl, old⟩
    · refine ⟨?_, fun positive => absurd positive (lt_irrefl 0)⟩
      have zero := tallied.nonneg
      change ((0 : Nat) : Int) ≤ attempts
      omega
    · obtain ⟨count, -⟩ := tallied.windows before earlier old
        fun listed member =>
          unforgiven listed (List.mem_append_left _ member)
      refine ⟨?_, fun _ => ⟨_, List.mem_append_right _
        (List.mem_singleton_self _), (row.id, now), rfl, ?_⟩⟩
      · have one : [(⟨call, ⟨.recordLoginFailure row.id attempts lock now,
            answer⟩⟩ : AuthPerformed)].countP (failureOf row.id) = 1 := by
          simp [failureOf, failure?]
        change (((earlier ++ _).countP (failureOf row.id) : Nat) : Int) ≤
          attempts
        rw [List.countP_append, one]
        omega
      · exact congrArg formatNullTime locks

end Rows

/-- What the accounts have to do with the history. -/
structure Tallied (options : AuthOptions) (recorded : AuthRecorded) :
    Prop where
  clock : ∀ performed ∈ recorded.history, ∀ now,
    performed.event = ⟨.now, now⟩ → now ≤ recorded.world.clock
  known : ∀ row ∈ recorded.world.tables.accounts,
    row.id ≤ recorded.world.accountSequence
  read : ∀ performed ∈ recorded.history, ∀ username found,
    performed.event =
        ⟨.selectAccountByUsername username, .ok (some found)⟩ →
      found.id ≤ recorded.world.accountSequence
  failures : ∀ performed ∈ recorded.history,
    ∀ failure ∈ failure? performed.event.op,
      failure.1 ≤ recorded.world.accountSequence
  rows : ∀ row ∈ recorded.world.tables.accounts,
    RowTallied options recorded.history row

/-- A failure that is up to date is written. -/
theorem written_of_upToDate {options : AuthOptions} {choice : AuthChoice}
    {host after : AuthHost} {id attempts : Int} {lock : Option Time}
    {now : Time} {answer : Except GoError Nat}
    (handled : host.handle options
      (.recordLoginFailure id attempts lock now) choice =
        some (answer, after))
    (written : choice.error = none) :
    writtenAccount? ⟨.recordLoginFailure id attempts lock now, answer⟩ =
      some id := by
  rw [AuthHost.handle, AuthHost.change, written] at handled
  cases handled
  rfl

/-- No failure of an account was recorded before it was there. -/
theorem Tallied.unfailed {options : AuthOptions} {before : AuthRecorded}
    (tallied : Tallied options before)
    {id : Int} (fresh : before.world.accountSequence < id)
    {earlier window : AuthHistory}
    (split : before.history = earlier ++ window) :
    window.countP (failureOf id) = 0 := by
  rw [List.countP_eq_zero]
  intro performed member failed
  have listed : performed ∈ before.history := by
    rw [split]
    exact List.mem_append_right _ member
  obtain ⟨failure, found, same⟩ :=
    Option.map_eq_some_iff.mp (of_decide_eq_true failed)
  have known := tallied.failures performed listed failure found
  omega

section Steps

variable [Build] [PasswordHashing] {options : AuthOptions}

/-- What the operations go by, clearing included. -/
def loginLicence (options : AuthOptions) (call : AuthCall) (past : AuthPast)
    (op : AuthOp) : Prop :=
  licence options.applyDefaults call past op ∧ clearing call past op

variable {before after : AuthRecorded} {call : AuthCall} {op : AuthOp}
variable {choice : AuthChoice} {answer : op.Answer}

/-- The failure that a login records under its licence. -/
theorem counted_of_licence {id attempts : Int} {lock : Option Time}
    {now : Time}
    (licensed : loginLicence options call (ownEvents call before.history)
      (.recordLoginFailure id attempts lock now))
    (upToDate : FailureUpToDate options.applyDefaults before choice call id
      now) {row : AccountRow}
    (listed : row ∈ before.world.tables.accounts) (same : row.id = id) :
    row.failedAttempts + 1 ≤ attempts ∧
      lock = lockAfter options.applyDefaults attempts now := by
  obtain ⟨⟨found, -, fails⟩, -⟩ := licensed
  have known := (upToDate.2 row listed same).1 found fails.lookup
  rw [fails.counted]
  refine ⟨by omega, ?_⟩
  rw [fails.locked, fails.counted]

theorem Tallied.rows_step (tallied : Tallied options.applyDefaults before)
    (upToDate : UpToDate options.applyDefaults before choice call op)
    (accounts : Accounts (authMachine options) (loginLicence options)
      before after call op choice answer) :
    ∀ row ∈ after.world.tables.accounts,
      RowTallied options.applyDefaults after.history row := by
  have handled : before.world.handle options.applyDefaults op choice =
      some (answer, after.world) := accounts.handled
  intro row member
  rw [accounts.history]
  have forgiven : writtenAccount? ⟨op, answer⟩ = some row.id →
      failure? op = none → row.failedAttempts = 0 →
      row.lockedUntil = none →
      RowTallied options.applyDefaults
        (before.history ++ [⟨call, ⟨op, answer⟩⟩]) row := by
    intro written other failures lock
    refine rowTallied_fresh failures lock ?_
    intro earlier window split unforgiven
    rcases window_cases split with rfl | ⟨rest, rfl, -⟩
    · rfl
    · have last := unforgiven _ (List.mem_append_right _
        (List.mem_singleton_self _))
      simp [forgives, written, other] at last
  cases (handle_accounts handled).1 row member with
  | kept old apart =>
      refine (tallied.rows row old).snoc ?_
      cases op with
      | recordLoginFailure id attempts lock now =>
          have written :=
            written_of_upToDate handled (upToDate.1 _ rfl).1
          rw [written] at apart
          simpa [failureOf, failure?] using apart
      | _ => rfl
  | inserted fresh last failures lock event =>
      obtain ⟨username, hash, created, now, event⟩ := event
      cases event
      refine rowTallied_fresh failures lock ?_
      intro earlier window split _
      rcases window_cases split with rfl | ⟨rest, rfl, old⟩
      · rfl
      · rw [List.countP_append, tallied.unfailed (by omega) old]
        rfl
  | replaced old now count listed event same failures lock =>
      cases event
      exact forgiven rfl rfl failures lock
  | cleared old now count listed event change =>
      cases event
      exact forgiven rfl rfl (by rw [change]) (by rw [change])
  | failed old attempts lock now count listed event change =>
      cases event
      have same : row.id = old.id := by rw [change]
      obtain ⟨counted, locks⟩ := counted_of_licence accounts.licensed
        (upToDate.1 _ rfl) listed same.symm
      rw [same, change]
      exact (tallied.rows old listed).failed counted locks

theorem Tallied.step (tallied : Tallied options.applyDefaults before)
    (upToDate : UpToDate options.applyDefaults before choice call op)
    (accounts : Accounts (authMachine options) (loginLicence options)
      before after call op choice answer) :
    Tallied options.applyDefaults after := by
  have handled : before.world.handle options.applyDefaults op choice =
      some (answer, after.world) := accounts.handled
  have sequence := (handle_accounts handled).2
  obtain ⟨onward, last⟩ := handle_clock handled
  have event : ∀ performed ∈ after.history,
      performed ∈ before.history ∨ performed = ⟨call, ⟨op, answer⟩⟩ := by
    intro performed member
    rw [accounts.history] at member
    rcases List.mem_append.mp member with old | new
    · exact Or.inl old
    · exact Or.inr (List.mem_singleton.mp new)
  refine ⟨?_, handle_known handled tallied.known, ?_, ?_,
    tallied.rows_step upToDate accounts⟩
  · intro performed member now read
    rcases event performed member with old | rfl
    · exact (tallied.clock performed old now read).trans onward
    · exact last now read
  · intro performed member username found read
    rcases event performed member with old | rfl
    · exact (tallied.read performed old username found read).trans sequence
    · cases read
      have listed := List.mem_of_find?_eq_some
        ((AuthHost.select_same handled).2 _ rfl).symm
      exact (tallied.known found listed).trans sequence
  · intro performed member failure failed
    rcases event performed member with old | rfl
    · exact (tallied.failures performed old failure failed).trans sequence
    · cases op with
      | recordLoginFailure id attempts lock now =>
          obtain rfl : (id, now) = failure := Option.some.inj failed
          obtain ⟨⟨found, rfl, fails⟩, -⟩ := accounts.licensed
          obtain ⟨input, -, lookup⟩ := fails.lookup
          exact (tallied.read _ (mem_ownEvents.mp lookup) _ found rfl).trans
            sequence
      | _ => cases failed

end Steps

/-! ## Every run -/

/-- What a stored lock says that was written by `formatNullTime`. -/
theorem parseNullTime_formatTime [Build] {time read : Time}
    (parsed : parseNullTime (some (formatTime time)) = .ok (some read)) :
    read = time := by
  rw [parseNullTime] at parsed
  split_ifs at parsed
  · cases parsed
  cases found : parseTime (formatTime time) with
  | error error =>
      rw [found] at parsed
      cases parsed
  | ok other =>
      rw [found] at parsed
      cases parsed
      exact parseTime_formatTime found

/-- Failed checks are among the failures that were recorded. -/
theorem failedChecks_le (id : Int) (window : AuthHistory) :
    failedChecks id window ≤ window.countP (failureOf id) := by
  apply List.countP_mono_left
  intro performed _ checked
  exact (Bool.and_eq_true_iff.mp checked).1

/-- What is tallied counts. -/
theorem Tallied.counted {options : AuthOptions} {recorded : AuthRecorded}
    (tallied : Tallied options recorded) :
    FailuresCounted options recorded := by
  rintro before window id split unforgiven within row listed rfl
  obtain ⟨count, lock⟩ :=
    (tallied.rows row listed).windows before window split unforgiven
  have fewer := failedChecks_le row.id window
  refine ⟨by omega, fun positive enough => ?_⟩
  obtain ⟨performed, member, failure, failed, locked⟩ := lock (by omega)
  have reached : options.maxFailures ≤ row.failedAttempts := by omega
  rw [lockAfter, if_pos reached] at locked
  exact ⟨_, locked, within performed member failure failed⟩

section Runs

variable [Build] [PasswordHashing] {options : AuthOptions}
variable {pool : AuthPool}

/-- An operation that is up to date, for a login that fails, keeps the
locks in force. -/
theorem Tallied.keeps_lock {before after : AuthRecorded} {call : AuthCall}
    {op : AuthOp} {choice : AuthChoice} {answer : op.Answer}
    (tallied : Tallied options.applyDefaults before)
    (upToDate : UpToDate options.applyDefaults before choice call op)
    (accounts : Accounts (authMachine options) (loginLicence options)
      before after call op choice answer)
    (failing : BelongsToFailing call (ownEvents call before.history) op)
    {row : AccountRow} (listed : row ∈ before.world.tables.accounts)
    {lock : Time} (inForce : InForce before.world.clock row lock) :
    ∃ later ∈ after.world.tables.accounts, later.id = row.id ∧
      ∃ other, lock ≤ other ∧
        later.lockedUntil = some (formatTime other) := by
  have handled : before.world.handle options.applyDefaults op choice =
      some (answer, after.world) := accounts.handled
  cases handle_row handled listed with
  | kept still => exact ⟨row, still, rfl, lock, le_rfl, inForce.1⟩
  | failed attempts newLock now answer event written =>
      cases event
      obtain ⟨counted, locks⟩ :=
        counted_of_licence accounts.licensed (upToDate.1 _ rfl) listed rfl
      have bound := ((upToDate.1 _ rfl).2 row listed rfl).2 lock inForce
      have enough : options.applyDefaults.maxFailures ≤ attempts := by
        rcases (tallied.rows row listed).locked with none | enough
        · rw [inForce.1] at none
          cases none
        · omega
      rw [lockAfter, if_pos enough] at locks
      exact ⟨_, written, rfl, _, bound, congrArg formatNullTime locks⟩
  | replaced hash now answer event =>
      cases event
      rcases failing with failure | ⟨input, found, request, -, -⟩
      · exact absurd rfl failure
      · have changes := accounts.licensed.1.1
        rw [request] at changes
        cases changes
  | cleared now answer event =>
      cases event
      rcases failing with failure | ⟨input, found, request, read, wrong⟩
      · exact absurd rfl failure
      have same := upToDate.2 _ rfl found read input request wrong row
        listed rfl lock inForce
      rcases accounts.licensed.2 input found request read with
        verified | ⟨known, now, parsed, expired, clock⟩
      · rw [verified] at wrong
        cases wrong
      · rw [← same, inForce.1] at parsed
        obtain rfl := parseNullTime_formatTime parsed
        have past := tallied.clock _ (mem_ownEvents.mp clock) now rfl
        exact absurd inForce.2 (not_lt.mpr (expired.trans past))

/-- What the operations are up to date with is tallied. -/
theorem tallied_of_upToDate (options : AuthOptions) (start : Time)
    {actions : List (Action AuthCall AuthChoice Unit)}
    (fresh : Runs.Meets (authMachine options).recorded.step FreshStart
      actions (AuthPool.initial start))
    (upToDate : Runs.Meets (authMachine options).recorded.step
      (OnAdvance (UpToDate options.applyDefaults)) actions
      (AuthPool.initial start)) :
    Accounted (loginLicence options)
        (fun call past value =>
          returns options.applyDefaults call past value ∧ True)
        (Runs.run (authMachine options).recorded.step actions
          (AuthPool.initial start)) ∧
      Tallied options.applyDefaults
        (Runs.run (authMachine options).recorded.step actions
          (AuthPool.initial start)).world := by
  have programs : ∀ call : AuthCall, Licensed (loginLicence options call)
      (fun past value => returns options.applyDefaults call past value ∧
        True) ((authMachine options).program call) [] := fun call =>
    (licensed_program options.applyDefaults call).and
      (clearing_program options.applyDefaults call)
  apply recorded_invariant programs
  · intro before after call op choice answer current tallied accounts
    exact tallied.step current accounts
  · intro _ recorded tallied
    exact ⟨tallied.clock, tallied.known, tallied.read, tallied.failures,
      tallied.rows⟩
  · exact accounted_idle _
  · exact ⟨fun _ none => (by cases none), fun _ none => (by cases none),
      fun _ none => (by cases none), fun _ none => (by cases none),
      fun _ none => (by cases none)⟩
  · exact fresh
  · exact upToDate

/-- A move that is up to date keeps the locks. -/
theorem Tallied.keepsLocks {action : Action AuthCall AuthChoice Unit}
    (accounted : Accounted (loginLicence options)
      (fun call past value =>
        returns options.applyDefaults call past value ∧ True) pool)
    (tallied : Tallied options.applyDefaults pool.world)
    (upToDate : OnAdvance (UpToDate options.applyDefaults) pool action) :
    KeepsLocks options pool action := by
  rintro ⟨choice, call, op⟩ upcoming failing row listed lock inForce
  have current := upToDate _ upcoming
  cases action with
  | start other | cut index | outside event => cases upcoming
  | advance index other =>
      rcases (authMachine options).recorded.advance_cases pool index
          other with
        ⟨label, past, performed, next, answer, after, performs⟩ | same
      · rw [Machine.step_of_performs performs]
        have joined : (other, label, performed) = (choice, call, op) := by
          simpa [advancing, performs.thread, Thread.upcoming] using upcoming
        cases joined
        exact tallied.keeps_lock current (accounted.accounts performs)
          failing listed inForce
      · rw [same]
        exact ⟨row, listed, rfl, lock, le_rfl, inForce.1⟩

/-- In every run whose logins write nothing that is out of date, every
failure counts and no failing login takes a lock back. -/
theorem login_failures_kept (options : AuthOptions) (start : Time)
    (moves : List (Action AuthRequest AuthChoice Unit))
    (upToDate : Runs.Meets (authMachine options).recorded.step
      (OnAdvance (UpToDate options.applyDefaults))
      (Machine.numbered AuthCall.mk 0 moves) (AuthPool.initial start)) :
    FailuresCounted options.applyDefaults
        (authRun options start moves).world ∧
      Runs.Meets (authMachine options).recorded.step (KeepsLocks options)
        (Machine.numbered AuthCall.mk 0 moves)
        (AuthPool.initial start) := by
  have labelled : ∀ number request,
      (AuthCall.mk number request).number = number :=
    fun _ _ => rfl
  have fresh : Runs.Meets (authMachine options).recorded.step FreshStart
      (Machine.numbered AuthCall.mk 0 moves) (AuthPool.initial start) :=
    Machine.meets_numbered labelled moves (fun _ none => by cases none)
  refine ⟨(tallied_of_upToDate options start fresh upToDate).2.counted, ?_⟩
  rw [Runs.meets_iff_forall_split]
  intro first action rest split
  rw [split, Runs.meets_append] at fresh upToDate
  obtain ⟨accounted, tallied⟩ :=
    tallied_of_upToDate options start fresh.1 upToDate.1
  exact tallied.keepsLocks accounted upToDate.2.1

end Runs

/-- The account row that a lookup has found. -/
def lookedUp? : AuthEvent → Option AccountRow
  | ⟨.selectAccountByUsername _, answer⟩ =>
      match answer with
      | .ok found => found
      | .error _ => none
  | _ => none

/-- Nothing is locked, and a failure is written by a login that knows all
that is counted. -/
def Unhurried (recorded : AuthRecorded) (choice : AuthChoice)
    (call : AuthCall) (op : AuthOp) : Prop :=
  ∀ failure ∈ failure? op, choice.error = none ∧
    ∀ row ∈ recorded.world.tables.accounts, row.lockedUntil = none ∧
      ∀ event ∈ ownEvents call recorded.history,
        ∀ found ∈ lookedUp? event,
          row.failedAttempts ≤
            attemptsKnown (ownEvents call recorded.history) found

instance (recorded : AuthRecorded) (choice : AuthChoice) (call : AuthCall)
    (op : AuthOp) : Decidable (Unhurried recorded choice call op) :=
  inferInstanceAs (Decidable (∀ failure ∈ failure? op, _))

/-- Nothing is reset, and failures are written unhurriedly. -/
def Steady (recorded : AuthRecorded) (choice : AuthChoice)
    (call : AuthCall) (op : AuthOp) : Prop :=
  Unhurried recorded choice call op ∧ clearedAccount? op = none

instance (recorded : AuthRecorded) (choice : AuthChoice) (call : AuthCall)
    (op : AuthOp) : Decidable (Steady recorded choice call op) :=
  inferInstanceAs (Decidable (_ ∧ _))

theorem Steady.upToDate [PasswordHashing] {options : AuthOptions}
    {recorded : AuthRecorded} {choice : AuthChoice} {call : AuthCall}
    {op : AuthOp} (steady : Steady recorded choice call op) :
    UpToDate options recorded choice call op := by
  obtain ⟨unhurried, uncleared⟩ := steady
  constructor
  · intro failure failed
    obtain ⟨written, rows⟩ := unhurried failure failed
    refine ⟨written, fun row listed _ => ?_⟩
    obtain ⟨unlocked, known⟩ := rows row listed
    constructor
    · rintro found ⟨input, -, lookup⟩
      exact known _ lookup found rfl
    · intro lock inForce
      rw [inForce.1] at unlocked
      cases unlocked
  · intro id cleared
    rw [uncleared] at cleared
    cases cleared

def wrongLogin : AuthRequest :=
  .login {
    username := "admin"
    password := "battery staple"
    sourceIP := "" }

def createMoves : List (Action AuthRequest AuthChoice Unit) :=
  alone (.createAccount "admin" "correct horse" "cli" "") 0 0
    ["salt", "", "", "", ""]

/-- Five logins with a wrong password, one after the other. -/
def patientMoves : List (Action AuthRequest AuthChoice Unit) :=
  createMoves ++ (List.range 5).flatMap fun index =>
    alone wrongLogin (index + 1) ((index + 1) * 60 * 1000000000)
      ["", "", "", "", "", "", ""]

theorem patient_logins_steady :
    Runs.Meets (@authMachine Build.dev .plain {}).recorded.step
      (OnAdvance Steady) (Machine.numbered AuthCall.mk 0 patientMoves)
      (AuthPool.initial 0) := by
  decide +kernel

theorem patient_failures_kept :
    FailuresCounted (AuthOptions.applyDefaults {})
        (@authRun Build.dev .plain {} 0 patientMoves).world ∧
      Runs.Meets (@authMachine Build.dev .plain {}).recorded.step
        (@KeepsLocks .plain Build.dev {})
        (Machine.numbered AuthCall.mk 0 patientMoves)
        (AuthPool.initial 0) := by
  apply @login_failures_kept Build.dev .plain {} 0 patientMoves
  refine @Runs.meets_of_invariant _ _ _ _ (fun _ => True) _ ?_
    (fun _ _ _ _ => trivial) _ _ trivial patient_logins_steady
  intro pool action _ steady next upcoming
  exact @Steady.upToDate .plain _ _ _ _ _ (steady next upcoming)

/-- Two logins read the account before either writes to it. -/
def overlappingMoves : List (Action AuthRequest AuthChoice Unit) :=
  createMoves ++
    ([.start wrongLogin, .start wrongLogin] ++
      [1, 1, 1, 2, 2, 2, 1, 1, 1, 1, 2, 2, 2, 2].map fun index =>
        .advance index { time := 60 * 1000000000 })

/-- Both have come to their end, and one failure is counted. -/
theorem overlapping_logins_counted :
    let recorded := (@authRun Build.dev .plain {} 0 overlappingMoves).world
    (∀ performed ∈ recorded.history,
        forgives 1 performed.event = false) ∧
      (∀ performed ∈ recorded.history,
        ∀ failure ∈ failure? performed.event.op,
          recorded.world.clock < failure.2 + 15 * minute) ∧
      failedChecks 1 recorded.history = 2 ∧
      ∃ row ∈ recorded.world.tables.accounts,
        row.id = 1 ∧ row.failedAttempts = 1 := by
  decide +kernel

theorem overlapping_failure_lost :
    ¬FailuresCounted (AuthOptions.applyDefaults {})
      (@authRun Build.dev .plain {} 0 overlappingMoves).world := by
  intro counted
  obtain ⟨unforgiven, within, checks, row, listed, same, one⟩ :=
    overlapping_logins_counted
  have enough :=
    (counted [] _ 1 rfl unforgiven within row listed same).1
  rw [checks, one] at enough
  exact absurd enough (by decide)

end Xoxproxy.Auth
