import Xoxproxy.Auth.Licences

/-!
# What the operations do to the accounts

Accounts are inserted under fresh identifiers and never deleted; three
statements write to them.
-/

namespace Xoxproxy.Auth

open EffectPrograms RowTables

/-- The account that a successful statement has written to. -/
def writtenAccount? : AuthEvent → Option Int
  | ⟨.updatePassword id _ _, answer⟩ => answer.toOption.map fun _ => id
  | ⟨.recordLoginFailure id _ _ _, answer⟩ =>
      answer.toOption.map fun _ => id
  | ⟨.resetFailures id _, answer⟩ => answer.toOption.map fun _ => id
  | _ => none

/-- Where an account comes from that is stored after an operation. -/
inductive AccountOrigin (host after : AuthHost) (event : AuthEvent)
    (row : AccountRow) : Prop where
  | kept (old : row ∈ host.tables.accounts)
      (apart : writtenAccount? event ≠ some row.id)
  | inserted (fresh : row.id = host.accountSequence + 1)
      (last : row.id = after.accountSequence)
      (failures : row.failedAttempts = 0) (lock : row.lockedUntil = none)
      (event : ∃ username hash created now,
        event = ⟨.insertAccount username hash created now, .ok row.id⟩)
  | replaced (old : AccountRow) (now : Time) (count : Nat)
      (listed : old ∈ host.tables.accounts)
      (event : event =
        ⟨.updatePassword row.id row.passwordHash now, .ok (count + 1)⟩)
      (same : row.id = old.id)
      (failures : row.failedAttempts = 0) (lock : row.lockedUntil = none)
  | failed (old : AccountRow) (attempts : Int) (lock : Option Time)
      (now : Time) (count : Nat) (listed : old ∈ host.tables.accounts)
      (event : event =
        ⟨.recordLoginFailure row.id attempts lock now, .ok count⟩)
      (change : row = { old with
        failedAttempts := attempts
        lockedUntil := formatNullTime lock
        updatedAt := formatTime now })
  | cleared (old : AccountRow) (now : Time) (count : Nat)
      (listed : old ∈ host.tables.accounts)
      (event : event = ⟨.resetFailures row.id now, .ok count⟩)
      (change : row = { old with
        failedAttempts := 0
        lockedUntil := none
        updatedAt := formatTime now })

/-- What becomes of an account that is stored before an operation. -/
inductive AccountFate (after : AuthHost) (event : AuthEvent)
    (row : AccountRow) : Prop where
  | kept (still : row ∈ after.tables.accounts)
  | replaced (hash : String) (now : Time) (answer : Except GoError Nat)
      (event : event = ⟨.updatePassword row.id hash now, answer⟩)
  | failed (attempts : Int) (lock : Option Time) (now : Time)
      (answer : Except GoError Nat)
      (event : event =
        ⟨.recordLoginFailure row.id attempts lock now, answer⟩)
      (listed : { row with
        failedAttempts := attempts
        lockedUntil := formatNullTime lock
        updatedAt := formatTime now } ∈ after.tables.accounts)
  | cleared (now : Time) (answer : Except GoError Nat)
      (event : event = ⟨.resetFailures row.id now, answer⟩)

section Operations

variable {options : AuthOptions} {op : AuthOp} {choice : AuthChoice}
variable {host after : AuthHost} {answer : op.Answer}

/-- A row of an account table that was updated by identifier. -/
theorem mem_updateAccount {tables : AdminTables} {id : Int}
    {write : AccountRow → AccountRow} {row : AccountRow}
    (member : row ∈ (tables.updateAccount id write).2.accounts) :
    (row ∈ tables.accounts ∧ row.id ≠ id) ∨
      ∃ old ∈ tables.accounts, old.id = id ∧ row = write old ∧
        0 < (tables.updateAccount id write).1 := by
  obtain ⟨old, listed, change⟩ := mem_updateWhere.mp member
  by_cases here : old.id = id
  · rw [if_pos (decide_eq_true here)] at change
    refine Or.inr ⟨old, listed, here, change.symm, ?_⟩
    exact List.countP_pos_iff.mpr ⟨old, listed, decide_eq_true here⟩
  · rw [if_neg (by simpa using here)] at change
    exact Or.inl ⟨change ▸ listed, change ▸ here⟩

/-- What is stored of the accounts after an operation. -/
theorem handle_accounts
    (handled : host.handle options op choice = some (answer, after)) :
    (∀ row ∈ after.tables.accounts,
      AccountOrigin host after ⟨op, answer⟩ row) ∧
      host.accountSequence ≤ after.accountSequence := by
  have same : after.tables.accounts = host.tables.accounts →
      after.accountSequence = host.accountSequence →
      writtenAccount? ⟨op, answer⟩ = none →
        (∀ row ∈ after.tables.accounts,
          AccountOrigin host after ⟨op, answer⟩ row) ∧
          host.accountSequence ≤ after.accountSequence := by
    intro accounts sequence unwritten
    refine ⟨fun row member => ?_, sequence.ge⟩
    rw [accounts] at member
    refine .kept member fun written => ?_
    rw [unwritten] at written
    cases written
  cases op with
  | now =>
      rw [AuthHost.handle] at handled
      split at handled
      · cases handled
        exact same rfl rfl rfl
      · cases handled
  | newSessionID =>
      rw [AuthHost.handle] at handled
      split at handled
      · cases handled
      · cases handled
        exact same rfl rfl rfl
  | ipBlocked ip now | ipFailure ip now | ipSuccess ip | recordAudit entry =>
      cases handled
      exact same rfl rfl rfl
  | newSalt | newToken | selectAccountByID id
  | selectAccountByUsername username | selectSession hash =>
      rw [(AuthHost.select_same handled).1] at same ⊢
      exact same rfl rfl rfl
  | insertAccount username hash created now =>
      rw [AuthHost.handle] at handled
      cases failure : choice.error with
      | some error =>
          rw [failure] at handled
          cases handled
          exact same rfl rfl rfl
      | none =>
          rw [failure, AuthHost.insertAccount] at handled
          split_ifs at handled
          · cases handled
            exact same rfl rfl rfl
          · cases handled
            refine ⟨fun row member => ?_, Int.le_add_one le_rfl⟩
            rcases List.mem_append.mp member with old | new
            · exact .kept old fun written => by cases written
            · rw [List.mem_singleton.mp new]
              exact .inserted rfl rfl rfl rfl
                ⟨username, hash, created, now, rfl⟩
  | insertSession new =>
      rw [AuthHost.handle, AuthHost.insertSession] at handled
      cases conflict : AuthHost.sessionConflict host.tables new with
      | some error =>
          rw [conflict] at handled
          cases handled
          exact same rfl rfl rfl
      | none =>
          rw [conflict] at handled
          rcases AuthHost.execute_cases handled with ⟨rfl, -⟩ | ⟨rfl, rfl⟩ <;>
            exact same rfl rfl rfl
  | touchSession _ now | deleteSession _
  | deleteSessionsForAccount account spared =>
      rcases AuthHost.execute_cases handled with ⟨rfl, -⟩ | ⟨rfl, rfl⟩ <;>
        exact same rfl rfl rfl
  | deleteExpiredSessions now =>
      rcases AuthHost.change_cases handled with ⟨rfl, -⟩ | ⟨rfl, rfl⟩ <;>
        exact same rfl rfl rfl
  | updatePassword id hash now =>
      rcases AuthHost.change_cases handled with
        ⟨rfl, error, rfl⟩ | ⟨rfl, rfl⟩
      · exact same rfl rfl rfl
      · refine ⟨fun row member => ?_, le_rfl⟩
        rcases mem_updateAccount member with
          ⟨old, apart⟩ | ⟨old, listed, rfl, rfl, positive⟩
        · exact .kept old fun written =>
            apart (Option.some.inj written).symm
        · obtain ⟨count, counted⟩ := Nat.exists_eq_add_of_lt positive
          refine .replaced old now count listed ?_ rfl rfl rfl
          rw [AdminTables.updatePassword, counted, Nat.zero_add]
  | recordLoginFailure id attempts lock now =>
      rcases AuthHost.change_cases handled with
        ⟨rfl, error, rfl⟩ | ⟨rfl, rfl⟩
      · exact same rfl rfl rfl
      · refine ⟨fun row member => ?_, le_rfl⟩
        rcases mem_updateAccount member with
          ⟨old, apart⟩ | ⟨old, listed, rfl, rfl, -⟩
        · exact .kept old fun written =>
            apart (Option.some.inj written).symm
        · exact .failed old attempts lock now _ listed rfl rfl
  | resetFailures id now =>
      rcases AuthHost.change_cases handled with
        ⟨rfl, error, rfl⟩ | ⟨rfl, rfl⟩
      · exact same rfl rfl rfl
      · refine ⟨fun row member => ?_, le_rfl⟩
        rcases mem_updateAccount member with
          ⟨old, apart⟩ | ⟨old, listed, rfl, rfl, -⟩
        · exact .kept old fun written =>
            apart (Option.some.inj written).symm
        · exact .cleared old now _ listed rfl rfl

/-- A row of the table before an update by identifier. -/
theorem updateAccount_mem {tables : AdminTables} (id : Int)
    (write : AccountRow → AccountRow) {row : AccountRow}
    (listed : row ∈ tables.accounts) :
    (row.id ≠ id ∧ row ∈ (tables.updateAccount id write).2.accounts) ∨
      row.id = id ∧
        write row ∈ (tables.updateAccount id write).2.accounts := by
  by_cases here : row.id = id
  · refine Or.inr ⟨here, mem_updateWhere.mpr ⟨row, listed, ?_⟩⟩
    rw [if_pos (decide_eq_true here)]
  · refine Or.inl ⟨here, mem_updateWhere.mpr ⟨row, listed, ?_⟩⟩
    rw [if_neg (by simpa using here)]

/-- What becomes of a stored account in an operation. -/
theorem handle_row {row : AccountRow}
    (handled : host.handle options op choice = some (answer, after))
    (listed : row ∈ host.tables.accounts) :
    AccountFate after ⟨op, answer⟩ row := by
  have same : after.tables.accounts = host.tables.accounts →
      AccountFate after ⟨op, answer⟩ row := by
    intro accounts
    rw [← accounts] at listed
    exact .kept listed
  cases op with
  | now | newSessionID =>
      rw [AuthHost.handle] at handled
      split at handled
      · cases handled <;> exact same rfl
      · cases handled <;> exact same rfl
  | ipBlocked ip now | ipFailure ip now | ipSuccess ip | recordAudit entry =>
      cases handled
      exact same rfl
  | newSalt | newToken | selectAccountByID id
  | selectAccountByUsername username | selectSession hash =>
      rw [(AuthHost.select_same handled).1] at same ⊢
      exact same rfl
  | insertAccount username hash created now =>
      rw [AuthHost.handle] at handled
      cases failure : choice.error with
      | some error =>
          rw [failure] at handled
          cases handled
          exact same rfl
      | none =>
          rw [failure, AuthHost.insertAccount] at handled
          split_ifs at handled
          · cases handled
            exact same rfl
          · cases handled
            exact .kept (List.mem_append_left _ listed)
  | insertSession new =>
      rw [AuthHost.handle, AuthHost.insertSession] at handled
      cases conflict : AuthHost.sessionConflict host.tables new with
      | some error =>
          rw [conflict] at handled
          cases handled
          exact same rfl
      | none =>
          rw [conflict] at handled
          rcases AuthHost.execute_cases handled with ⟨rfl, -⟩ | ⟨rfl, rfl⟩ <;>
            exact same rfl
  | touchSession _ now | deleteSession _
  | deleteSessionsForAccount account spared =>
      rcases AuthHost.execute_cases handled with ⟨rfl, -⟩ | ⟨rfl, rfl⟩ <;>
        exact same rfl
  | deleteExpiredSessions now =>
      rcases AuthHost.change_cases handled with ⟨rfl, -⟩ | ⟨rfl, rfl⟩ <;>
        exact same rfl
  | updatePassword id hash now =>
      rcases AuthHost.change_cases handled with ⟨rfl, -⟩ | ⟨-, rfl⟩
      · exact same rfl
      · rcases updateAccount_mem id _ listed with ⟨-, still⟩ | ⟨rfl, -⟩
        · exact .kept still
        · exact .replaced hash now _ rfl
  | recordLoginFailure id attempts lock now =>
      rcases AuthHost.change_cases handled with ⟨rfl, -⟩ | ⟨-, rfl⟩
      · exact same rfl
      · rcases updateAccount_mem id _ listed with ⟨-, still⟩ | ⟨rfl, written⟩
        · exact .kept still
        · exact .failed attempts lock now _ rfl written
  | resetFailures id now =>
      rcases AuthHost.change_cases handled with ⟨rfl, -⟩ | ⟨-, rfl⟩
      · exact same rfl
      · rcases updateAccount_mem id _ listed with ⟨-, still⟩ | ⟨rfl, -⟩
        · exact .kept still
        · exact .cleared now _ rfl

/-- Identifiers stay behind the sequence. -/
theorem handle_known
    (handled : host.handle options op choice = some (answer, after))
    (known : ∀ row ∈ host.tables.accounts, row.id ≤ host.accountSequence) :
    ∀ row ∈ after.tables.accounts, row.id ≤ after.accountSequence := by
  obtain ⟨origins, sequence⟩ := handle_accounts handled
  intro row member
  have still : ∀ old ∈ host.tables.accounts,
      old.id ≤ after.accountSequence := fun old listed =>
    (known old listed).trans sequence
  cases origins row member with
  | kept old _ => exact still row old
  | inserted _ last _ _ _ => exact last.le
  | replaced old now count listed event same _ _ =>
      rw [same]
      exact still old listed
  | failed old attempts lock now count listed event change =>
      rw [change]
      exact still old listed
  | cleared old now count listed event change =>
      rw [change]
      exact still old listed

/-- A statement that has affected a row has found it. -/
theorem exists_of_affected {tables : AdminTables} {id : Int}
    {write : AccountRow → AccountRow} {count : Nat}
    (affected : (tables.updateAccount id write).1 = count + 1) :
    ∃ row ∈ tables.accounts, row.id = id := by
  have positive : 0 < tables.accounts.countP fun row => row.id = id := by
    change (tables.updateAccount id write).1 > 0
    omega
  obtain ⟨row, listed, same⟩ := List.countP_pos_iff.mp positive
  exact ⟨row, listed, of_decide_eq_true same⟩

end Operations

end Xoxproxy.Auth
