import Xoxproxy.Store.Queries
import Xoxproxy.Users.Interleaving

/-!
# One active credential for every user

The repositories alone, called in any order and interleaved at will, with
whatever arguments.  The schema would allow users without or with several
active credentials; no statement or transaction makes one.
-/

namespace Xoxproxy

open EffectPrograms RowTables Transactions

/-- A call of a method that writes users or credentials. -/
inductive RepositoryCall where
  | createUser (user : ProxyUser) (initial : Credential)
  | rotateCredential
      (id : Int) (next : Credential) (expectedVersion : Int)
      (now : Time)
  | deleteUser (id : Int)
  | updateUser (user : ProxyUser)
  | setUserStatus
      (id : Int) (status : UserStatus) (expectedVersion : Int)
      (now : Time)
  | sweepExpired (now : Time)

theorem Consistent.change
    {host : UserHost} (consistent : Consistent host.database)
    (choice : UserChoice) (changed : Nat × Database)
    (kept : Consistent changed.2) :
    Consistent (UserHost.change choice host changed).2.database := by
  rcases UserHost.change_cases choice host changed with
    ⟨error, failed⟩ | done
  · rw [failed]
    exact consistent
  · rw [done]
    exact kept

theorem Consistent.transact
    {host : UserHost} (consistent : Consistent host.database)
    (choice : UserChoice)
    (statements : List (Statement Database GoError))
    (kept : ∀ after, executeAll statements host.database = .ok after →
      Consistent after) :
    Consistent (UserHost.transact choice host statements).2.database := by
  rcases UserHost.transact_cases choice host statements with
    ⟨error, failed⟩ | ⟨after, committed, done⟩
  · rw [failed]
    exact consistent
  · rw [committed]
    exact kept after done

section Repositories

variable [Build]

def RepositoryCall.program : RepositoryCall → UserProgram Unit
  | .createUser user initial => do
      let _ ← Xoxproxy.createUser user initial
  | .rotateCredential id next expectedVersion now => do
      let _ ← Xoxproxy.rotateCredential id next expectedVersion now
  | .deleteUser id => do
      let _ ← invoke (.deleteUser id)
  | .updateUser user => do
      let _ ← Xoxproxy.updateUser user
  | .setUserStatus id status expectedVersion now => do
      let _ ← Xoxproxy.setUserStatus id status expectedVersion now
  | .sweepExpired now => do
      let _ ← invoke (.sweepExpired now)

/-- Calls of the repositories, interleaved with flushes. -/
def repositoryMachine :
    Machine UserOp UserOp.Answer Unit RepositoryCall UserHost
      UserChoice Flush where
  program := RepositoryCall.program
  handle := fun _ op choice host => some (host.handle op choice)
  react := fun flush host =>
    { host with
      database :=
        (transact flush.failure
          (applyDeltasStatements flush.usage flush.destinations
            flush.cursor) host.database).2 }

/-- The tables after a run that starts with empty ones. -/
def repositoryTables
    (moves : List (Action RepositoryCall UserChoice Flush)) : Database :=
  (Runs.run repositoryMachine.step moves
    (.idle { database := {} })).world.database

/-- Every operation keeps the tables consistent, whatever its
arguments. -/
theorem Consistent.handle
    {host : UserHost} (consistent : Consistent host.database)
    (op : UserOp) (choice : UserChoice) :
    Consistent (host.handle op choice).2.database := by
  cases op with
  | updateUser user now =>
      have updates : Updates fun row : UserRow =>
          (row.writeUser user).touch now :=
        updates_touch (fun _ => rfl) (fun _ => rfl) fun _ => rfl
      exact consistent.change choice _ (consistent.updateUsers updates)
  | setUserStatus id status version now =>
      have updates : Updates fun row : UserRow =>
          (row.writeStatus status).touch now :=
        updates_touch (fun _ => rfl) (fun _ => rfl) fun _ => rfl
      exact consistent.change choice _ (consistent.updateUsers updates)
  | sweepExpired now =>
      have updates : Updates fun row : UserRow =>
          (row.writeStatus .expired).touch now :=
        updates_touch (fun _ => rfl) (fun _ => rfl) fun _ => rfl
      exact consistent.change choice _ (consistent.updateUsers updates)
  | deleteUser id =>
      exact consistent.change choice _ (consistent.deleteUser id)
  | createUser user initial =>
      exact consistent.transact choice _ fun after done =>
        consistent.createUser done
  | rotateCredential id next version now =>
      exact consistent.transact choice _ fun after done =>
        consistent.rotate done
  | _ => exact consistent

theorem repositoryTables_consistent
    (moves : List (Action RepositoryCall UserChoice Flush)) :
    Consistent (repositoryTables moves) := by
  have performed : ∀ (call : RepositoryCall) op choice
      (host : UserHost) answer after,
      Consistent host.database →
        repositoryMachine.handle call op choice host =
          some (answer, after) →
        Consistent after.database := by
    intro call op choice host answer after consistent handled
    have kept := consistent.handle op choice
    rw [Option.some.inj handled] at kept
    exact kept
  have reacted : ∀ flush (host : UserHost), Consistent host.database →
      Consistent (repositoryMachine.react flush host).database := by
    intro flush host consistent
    have only := trafficOnly_applyDeltas flush.failure flush.usage
      flush.destinations flush.cursor host.database
    exact only.consistent consistent
  exact Machine.run_preserves performed reacted moves consistent_empty

/-- In every reachable store every user has exactly one active credential,
an id without a user has none at all, and the engine is told of every
user at most once. -/
theorem one_active_credential
    (moves : List (Action RepositoryCall UserChoice Flush)) :
    (∀ row ∈ (repositoryTables moves).users, ∃ credential,
      (repositoryTables moves).credentials.filter (activeFor row.id) =
        [credential]) ∧
    (∀ id, (repositoryTables moves).userRow id = none →
      ∀ credential ∈ (repositoryTables moves).credentials,
        credential.userID ≠ id) ∧
    ∀ now listed,
      (repositoryTables moves).listEngineUsers now = .ok listed →
        (listed.map fun user => user.user.id).Nodup := by
  have consistent := repositoryTables_consistent moves
  refine ⟨consistent.active, ?_, ?_⟩
  · intro id missing credential member owned
    obtain ⟨row, listed, owner⟩ := consistent.owners credential member
    have absent := lookup_eq_none_iff.mp missing row listed
    exact absent (owner.trans owned)
  · intro now listed done
    exact listEngineUsers_nodup consistent consistent.ids
      (fun _ _ scanned => scanned.id) done

end Repositories

end Xoxproxy
