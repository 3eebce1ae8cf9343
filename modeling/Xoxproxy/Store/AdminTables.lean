import Xoxproxy.Library.RowTables
import Xoxproxy.Store.Timestamps

/-!
# The tables of administrators and their sessions

The rows of `admin_accounts` and `admin_sessions`, and the statements of
`internal/store/sqlite/admin.go` and `session.go` that change them.
-/

namespace Xoxproxy

open RowTables

structure AccountRow where
  id : Int
  username : String
  passwordHash : String
  failedAttempts : Int
  lockedUntil : Option String
  createdAt : String
  updatedAt : String
  deriving DecidableEq, Repr

structure SessionRow where
  id : String
  accountID : Int
  tokenHash : String
  csrfToken : String
  createdAt : String
  expiresAt : String
  lastSeenAt : String
  sourceIP : String
  userAgent : String
  deriving DecidableEq, Repr

structure AdminTables where
  accounts : List AccountRow := []
  sessions : List SessionRow := []
  deriving DecidableEq, Repr

namespace AdminTables

variable (tables : AdminTables)

/-- `UPDATE admin_accounts SET ... WHERE id = ?`, with the number of
affected rows. -/
def updateAccount (id : Int) (write : AccountRow → AccountRow) :
    Nat × AdminTables :=
  (tables.accounts.countP fun row => row.id = id,
    { tables with
      accounts := updateWhere (fun row => row.id = id) write
        tables.accounts })

/-- The statement of `UpdatePassword`. -/
def updatePassword (id : Int) (passwordHash : String) (now : Time) :
    Nat × AdminTables :=
  tables.updateAccount id fun row =>
    { row with
      passwordHash := passwordHash
      updatedAt := formatTime now
      failedAttempts := 0
      lockedUntil := none }

/-- The statement of `RecordLoginFailure`. -/
def recordLoginFailure
    (id : Int) (failedAttempts : Int) (lockedUntil : Option Time)
    (now : Time) : Nat × AdminTables :=
  tables.updateAccount id fun row =>
    { row with
      failedAttempts := failedAttempts
      lockedUntil := formatNullTime lockedUntil
      updatedAt := formatTime now }

/-- The statement of `ResetFailures`. -/
def resetFailures (id : Int) (now : Time) : Nat × AdminTables :=
  tables.updateAccount id fun row =>
    { row with
      failedAttempts := 0
      lockedUntil := none
      updatedAt := formatTime now }

/-- The statement of `TouchSession`. -/
def touchSession (id : String) (lastSeen : Time) : AdminTables :=
  { tables with
    sessions := updateWhere (fun row => row.id = id)
      (fun row => { row with lastSeenAt := formatTime lastSeen })
      tables.sessions }

/-- The statement of `DeleteSession`. -/
def deleteSession (id : String) : Nat × AdminTables :=
  (tables.sessions.countP fun row => row.id = id,
    { tables with
      sessions := deleteWhere (fun row => row.id = id) tables.sessions })

/-- The statement of `DeleteSessionsForAccount`. -/
def deleteSessionsForAccount
    (accountID : Int) (exceptSessionID : String) : Nat × AdminTables :=
  let others (row : SessionRow) : Bool :=
    row.accountID = accountID && row.id ≠ exceptSessionID
  (tables.sessions.countP others,
    { tables with sessions := deleteWhere others tables.sessions })

/-- The condition of `DeleteExpiredSessions`; timestamps are compared as
text. -/
def sessionOver (now : Time) (row : SessionRow) : Bool :=
  decide (row.expiresAt < formatTime now)

/-- The statement of `DeleteExpiredSessions`. -/
def deleteExpiredSessions (now : Time) : Nat × AdminTables :=
  (tables.sessions.countP (sessionOver now),
    { tables with
      sessions := deleteWhere (sessionOver now) tables.sessions })

end AdminTables

end Xoxproxy
