import Xoxproxy.Library.EffectPrograms
import Xoxproxy.Store.Tables

/-!
# What the user service does to its surroundings

The statements and transactions of the user repositories, the clock, the
sources of randomness, the audit trail and the state-change hook, as
operations with answers.
-/

namespace Xoxproxy

open EffectPrograms Transactions

/-- The order in which a `range` loop visits the entries of a map, which
Go leaves open. -/
structure MapOrder where
  visit : List (String × Int) → List (String × Int)
  perm : ∀ entries, (visit entries).Perm entries

/-- The order in which the entries are written down. -/
def MapOrder.written : MapOrder := ⟨id, fun entries => .refl entries⟩

/-- The operations of the user service. -/
inductive UserOp where
  | now
  | mapOrder
  | randomSalt
  | newAPIHash (password : String)
  | generatePassword
  | selectUser (id : Int)
  | selectOne (id : Int)
  | updateUser (user : ProxyUser) (now : Time)
  | setUserStatus
      (id : Int) (status : UserStatus) (expectedVersion : Int)
      (now : Time)
  | deleteUser (id : Int)
  | sweepExpired (now : Time)
  | createUser (user : ProxyUser) (initial : Credential)
  | rotateCredential
      (id : Int) (next : Credential) (expectedVersion : Int)
      (now : Time)
  | recordAudit (entry : AuditEntry)
  | notify (actor reason : String)
  deriving DecidableEq

/-- The type of each operation's answer.  Statements that change rows
answer with the number of affected rows. -/
@[reducible] def UserOp.Answer : UserOp → Type
  | .now => Time
  | .mapOrder => MapOrder
  | .randomSalt => Except GoError (Vector UInt8 16)
  | .newAPIHash _ => Except GoError String
  | .generatePassword => String
  | .selectUser _ => Except GoError (Option UserRow)
  | .selectOne _ => Except GoError Bool
  | .updateUser _ _ => Except GoError Nat
  | .setUserStatus _ _ _ _ => Except GoError Nat
  | .deleteUser _ => Except GoError Nat
  | .sweepExpired _ => Except GoError Nat
  | .createUser _ _ => Except GoError Int
  | .rotateCredential _ _ _ _ => Except GoError Unit
  | .recordAudit _ => Option GoError
  | .notify _ _ => Unit

abbrev UserProgram := Program UserOp UserOp.Answer

abbrev invoke (op : UserOp) : UserProgram op.Answer :=
  Program.perform op

/-- One invocation of the state-change hook, and the tables at that
moment. -/
structure HookCall where
  actor : String
  reason : String
  database : Database
  deriving DecidableEq, Repr

/-- The tables, and the invocations of the hook so far. -/
structure UserHost where
  database : Database
  hookCalls : List HookCall := []
  deriving DecidableEq, Repr

/-- What an operation meets: the statement that fails and its error, the
clock, and the values of the random sources. -/
structure UserChoice where
  failure : Failure GoError
  time : Time
  order : MapOrder
  salt : Vector UInt8 16
  text : String

namespace UserHost

/-- The answer of a single statement that looks something up. -/
def select {Found : Type}
    (choice : UserChoice) (found : Found) : Except GoError Found :=
  match choice.failure.at 0 with
  | some error => .error error
  | none => .ok found

/-- A single statement that changes rows; one that fails changes
nothing. -/
def change
    (choice : UserChoice) (host : UserHost) (changed : Nat × Database) :
    Except GoError Nat × UserHost :=
  match choice.failure.at 0 with
  | some error => (.error error, host)
  | none => (.ok changed.1, { host with database := changed.2 })

/-- A transaction. -/
def transact
    (choice : UserChoice) (host : UserHost)
    (statements : List (Statement Database GoError)) :
    Except GoError Unit × UserHost :=
  let outcome :=
    Transactions.transact choice.failure statements host.database
  (outcome.1, { host with database := outcome.2 })

/-- The operations on the host. -/
def handle [Build] :
    (op : UserOp) → UserChoice → UserHost → op.Answer × UserHost
  | .now, choice, host => (choice.time, host)
  | .mapOrder, choice, host => (choice.order, host)
  | .randomSalt, choice, host => (select choice choice.salt, host)
  | .newAPIHash _, choice, host => (select choice choice.text, host)
  | .generatePassword, choice, host => (choice.text, host)
  | .selectUser id, choice, host =>
      (select choice (host.database.userRow id), host)
  | .selectOne id, choice, host =>
      (select choice (host.database.userRow id).isSome, host)
  | .updateUser user now, choice, host =>
      change choice host
        (host.database.updateUserRow user.id user.version now
          fun row => row.writeUser user)
  | .setUserStatus id status expectedVersion now, choice, host =>
      change choice host
        (host.database.updateUserRow id expectedVersion now
          fun row => row.writeStatus status)
  | .deleteUser id, choice, host =>
      change choice host (host.database.deleteUser id)
  | .sweepExpired now, choice, host =>
      change choice host (host.database.sweepExpired now)
  | .createUser user initial, choice, host =>
      let outcome :=
        transact choice host (createUserStatements user initial)
      (outcome.1.map fun _ => outcome.2.database.userSequence, outcome.2)
  | .rotateCredential id next expectedVersion now, choice, host =>
      transact choice host (rotateStatements id next expectedVersion now)
  | .recordAudit _, choice, host => (choice.failure.at 0, host)
  | .notify actor reason, _, host =>
      ((), { host with
        hookCalls := host.hookCalls ++ [⟨actor, reason, host.database⟩] })

/-- A single statement fails and changes nothing, or is done. -/
theorem change_cases
    (choice : UserChoice) (now : UserHost) (changed : Nat × Database) :
    (∃ error, change choice now changed = (.error error, now)) ∨
      change choice now changed =
        (.ok changed.1, { now with database := changed.2 }) := by
  unfold change
  cases choice.failure.at 0 with
  | some error => exact Or.inl ⟨error, rfl⟩
  | none => exact Or.inr rfl

/-- A transaction leaves the tables alone, or is done as a whole. -/
theorem transact_cases
    (choice : UserChoice) (now : UserHost)
    (statements : List (Statement Database GoError)) :
    (∃ error, transact choice now statements =
        (.error error, now)) ∨
      ∃ after, transact choice now statements =
          (.ok (), { now with database := after }) ∧
        executeAll statements now.database = .ok after := by
  rcases @Transactions.transact_cases Database GoError choice.failure statements
      now.database with ⟨error, rolledBack⟩ | ⟨after, committed, done⟩
  · refine Or.inl ⟨error, ?_⟩
    rw [transact, rolledBack]
  · refine Or.inr ⟨after, ?_, done⟩
    rw [transact, committed]

end UserHost

end Xoxproxy
