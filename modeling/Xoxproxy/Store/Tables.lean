import Xoxproxy.Library.RowTables
import Xoxproxy.Library.Transactions
import Xoxproxy.Store.Timestamps

/-!
# The tables of proxy users and their traffic

The rows of the schema in `internal/store/sqlite/migrations`, and the SQL
statements of the repositories as functions on the tables.  Foreign keys
and uniqueness constraints are enforced where a statement could violate
them.
-/

namespace Xoxproxy

open RowTables Transactions

structure UserRow where
  id : Int
  serverID : String
  username : String
  status : UserStatus
  allowedProtocols : String
  downloadBPS : Int
  uploadBPS : Int
  maxConnections : Int
  quotaBytesDaily : Int
  quotaBytesMonthly : Int
  expiresAt : Option String
  version : Int
  createdAt : String
  updatedAt : String
  lastSeenAt : Option String
  deriving DecidableEq, Repr

structure CredentialRow where
  id : Int
  userID : Int
  engineHash : String
  apiHash : String
  status : CredentialStatus
  createdAt : String
  rotatedAt : Option String
  deriving DecidableEq, Repr

structure UsageRow where
  userID : Int
  periodStart : String
  granularity : String
  bytesIn : Int
  bytesOut : Int
  connections : Int
  deriving DecidableEq, Repr

structure DestinationRow where
  userID : Int
  day : String
  host : String
  port : Int
  protocol : String
  requests : Int
  blocked : Int
  bytesIn : Int
  bytesOut : Int
  lastSeen : String
  deriving DecidableEq, Repr

/-- The tables; the sequences count the ids that `AUTOINCREMENT` has given
out. -/
structure Database where
  users : List UserRow := []
  userSequence : Int := 0
  credentials : List CredentialRow := []
  credentialSequence : Int := 0
  usagePeriods : List UsageRow := []
  destinationStats : List DestinationRow := []
  logCursor : Option LogCursor := none
  deriving DecidableEq, Repr

/-- `joinProtocols`. -/
def joinProtocols (protocols : List String) : String :=
  join protocols (String.ofList [','])

/-- `splitProtocols`. -/
def splitProtocols (text : String) : List String :=
  if text = "" then [] else splitAt text ','

/-- A protocol list that is read and written back stays as it was. -/
theorem joinProtocols_splitProtocols (text : String) :
    joinProtocols (splitProtocols text) = text := by
  by_cases empty : text = ""
  · subst empty
    rfl
  · rw [splitProtocols, if_neg empty, joinProtocols, join_splitAt]

section Scanning

variable [Build]

/-- `scanUser`. -/
def scanUser (row : UserRow) : Except GoError ProxyUser := do
  let expiresAt ← parseNullTime row.expiresAt
  let lastSeenAt ← parseNullTime row.lastSeenAt
  let createdAt ← parseTime row.createdAt
  let updatedAt ← parseTime row.updatedAt
  pure {
    id := row.id
    serverID := row.serverID
    username := row.username
    status := row.status
    allowedProtocols := splitProtocols row.allowedProtocols
    downloadBPS := row.downloadBPS
    uploadBPS := row.uploadBPS
    maxConnections := row.maxConnections
    quotaBytesDaily := row.quotaBytesDaily
    quotaBytesMonthly := row.quotaBytesMonthly
    expiresAt := expiresAt
    version := row.version
    createdAt := createdAt
    updatedAt := updatedAt
    lastSeenAt := lastSeenAt }

/-- What scanning reads from the columns that are not timestamps. -/
structure Scanned (row : UserRow) (user : ProxyUser) : Prop where
  id : user.id = row.id
  username : user.username = row.username
  status : user.status = row.status
  protocols : user.allowedProtocols = splitProtocols row.allowedProtocols
  downloadBPS : user.downloadBPS = row.downloadBPS
  uploadBPS : user.uploadBPS = row.uploadBPS
  maxConnections : user.maxConnections = row.maxConnections
  quotaBytesDaily : user.quotaBytesDaily = row.quotaBytesDaily
  quotaBytesMonthly : user.quotaBytesMonthly = row.quotaBytesMonthly
  version : user.version = row.version
  expiresAt : parseNullTime row.expiresAt = .ok user.expiresAt

theorem scanned_of_ok
    {row : UserRow} {user : ProxyUser}
    (read : scanUser row = .ok user) : Scanned row user := by
  unfold scanUser at read
  cases expires : parseNullTime row.expiresAt with
  | error error => simp [expires, bind, Except.bind] at read
  | ok expiresAt =>
    cases seen : parseNullTime row.lastSeenAt with
    | error error => simp [expires, seen, bind, Except.bind] at read
    | ok lastSeenAt =>
      cases created : parseTime row.createdAt with
      | error error =>
          simp [expires, seen, created, bind, Except.bind] at read
      | ok createdAt =>
        cases updated : parseTime row.updatedAt with
        | error error =>
            simp [expires, seen, created, updated, bind, Except.bind]
              at read
        | ok updatedAt =>
            simp only [expires, seen, created, updated, bind, pure,
              Except.bind, Except.pure, Except.ok.injEq] at read
            subst read
            exact ⟨rfl, rfl, rfl, rfl, rfl, rfl, rfl, rfl, rfl, rfl,
              expires⟩

end Scanning

/-- `SELECT ... FROM users WHERE id = ?`. -/
def Database.userRow (database : Database) (id : Int) : Option UserRow :=
  lookup UserRow.id database.users id

/-- The condition `id = ? AND version = ?`. -/
def rowHas (id version : Int) (row : UserRow) : Bool :=
  decide (row.id = id ∧ row.version = version)

/-- Raise the version, as every statement does that takes part in
optimistic locking. -/
def UserRow.touch (row : UserRow) (now : Time) : UserRow :=
  { row with version := row.version + 1, updatedAt := formatTime now }

/-- The columns that `UpdateUser` writes. -/
def UserRow.writeUser (row : UserRow) (user : ProxyUser) : UserRow :=
  { row with
    allowedProtocols := joinProtocols user.allowedProtocols
    downloadBPS := user.downloadBPS
    uploadBPS := user.uploadBPS
    maxConnections := user.maxConnections
    quotaBytesDaily := user.quotaBytesDaily
    quotaBytesMonthly := user.quotaBytesMonthly
    expiresAt := formatNullTime user.expiresAt }

def UserRow.writeStatus (row : UserRow) (status : UserStatus) : UserRow :=
  { row with status := status }

namespace Database

variable (database : Database)

/-- `UPDATE users SET ..., version = version + 1, updated_at = ? WHERE
id = ? AND version = ?`, with the number of affected rows. -/
def updateUserRow
    (id version : Int) (now : Time) (write : UserRow → UserRow) :
    Nat × Database :=
  (database.users.countP (rowHas id version),
    { database with
      users := updateWhere (rowHas id version)
        (fun row => (write row).touch now) database.users })

/-- The condition of `SweepExpired`; timestamps are compared as text. -/
def sweeps (now : Time) (row : UserRow) : Bool :=
  row.status = .active &&
    match row.expiresAt with
    | some expiry => !decide (formatTime now < expiry)
    | none => false

/-- The statement of `SweepExpired`. -/
def sweepExpired (now : Time) : Nat × Database :=
  (database.users.countP (sweeps now),
    { database with
      users := updateWhere (sweeps now)
        (fun row => (row.writeStatus .expired).touch now)
        database.users })

/-- `DELETE FROM users WHERE id = ?`; the references of other tables
cascade. -/
def deleteUser (id : Int) : Nat × Database :=
  (database.users.countP fun row => row.id = id,
    { database with
      users := deleteWhere (fun row => row.id = id) database.users
      credentials :=
        deleteWhere (fun row => row.userID = id) database.credentials
      usagePeriods :=
        deleteWhere (fun row => row.userID = id) database.usagePeriods
      destinationStats :=
        deleteWhere (fun row => row.userID = id)
          database.destinationStats })

end Database

/-- The user's credential that is in force. -/
def activeFor (userID : Int) (row : CredentialRow) : Bool :=
  decide (row.userID = userID ∧ row.status = .active)

def CredentialRow.revoke (row : CredentialRow) (now : Time) :
    CredentialRow :=
  { row with status := .revoked, rotatedAt := some (formatTime now) }

/-- `INSERT INTO credentials`. -/
def Database.insertCredential
    (database : Database) (userID : Int) (credential : Credential) :
    Database :=
  { database with
    credentials := database.credentials ++ [{
      id := database.credentialSequence + 1
      userID := userID
      engineHash := credential.engineHash
      apiHash := credential.apiHash
      status := .active
      createdAt := formatTime credential.createdAt
      rotatedAt := none }]
    credentialSequence := database.credentialSequence + 1 }

/-! ## Transactions -/

/-- The zero value of `time.Time`. -/
def zeroTime : Time := -62135596800 * 1000000000

/-- The given time, or another one where it was left out. -/
def orTime (time other : Time) : Time :=
  if time = zeroTime then other else time

/-- The row that `CreateUser` inserts. -/
def insertedRow (id : Int) (user : ProxyUser) : UserRow where
  id := id
  serverID := user.serverID
  username := user.username
  status := user.status
  allowedProtocols := joinProtocols user.allowedProtocols
  downloadBPS := user.downloadBPS
  uploadBPS := user.uploadBPS
  maxConnections := user.maxConnections
  quotaBytesDaily := user.quotaBytesDaily
  quotaBytesMonthly := user.quotaBytesMonthly
  expiresAt := formatNullTime user.expiresAt
  version := 1
  createdAt := formatTime user.createdAt
  updatedAt := formatTime user.updatedAt
  lastSeenAt := none

/-- What the driver reports when a username is taken. -/
def uniqueFailed : GoError :=
  .plain "constraint failed: UNIQUE constraint failed: users.username"

section Statements

variable [Build]

def insertUser (user : ProxyUser) : Statement Database GoError where
  run := fun database =>
    match lookup UserRow.username database.users user.username with
    | some _ => .error uniqueFailed
    | none =>
        .ok { database with
          users := database.users ++
            [insertedRow (database.userSequence + 1) user]
          userSequence := database.userSequence + 1 }
  report := fun error =>
    if contains error.text "UNIQUE" then
      .wrap "" errConflict
        (": username " ++ quote user.username ++ " already exists")
    else error

/-- The credential of the user that was inserted last. -/
def insertInitial
    (user : ProxyUser) (initial : Credential) :
    Statement Database GoError where
  run := fun database =>
    .ok (database.insertCredential database.userSequence
      { initial with createdAt := user.createdAt })

/-- The transaction of `CreateUser`. -/
def createUserStatements
    (user : ProxyUser) (initial : Credential) :
    List (Statement Database GoError) :=
  [insertUser user, insertInitial user initial]

/-- The first statement of `RotateCredential`, with the check whether it
has found its row. -/
def bumpVersion (userID version : Int) (now : Time) :
    Statement Database GoError where
  run := fun database =>
    let updated := database.updateUserRow userID version now fun row => row
    if updated.1 = 0 then
      match database.userRow userID with
      | none => .error errNotFound
      | some _ => .error errConflict
    else .ok updated.2

def revokeActive (userID : Int) (now : Time) :
    Statement Database GoError where
  run := fun database =>
    .ok { database with
      credentials := updateWhere (activeFor userID)
        (fun row => row.revoke now) database.credentials }

def insertNext (userID : Int) (next : Credential) :
    Statement Database GoError where
  run := fun database => .ok (database.insertCredential userID next)

/-- The transaction of `RotateCredential`. -/
def rotateStatements
    (userID : Int) (next : Credential) (version : Int) (now : Time) :
    List (Statement Database GoError) :=
  [bumpVersion userID version now,
    revokeActive userID now,
    insertNext userID
      { next with createdAt := orTime next.createdAt now }]

end Statements

/-- `REFERENCES users(id)`. -/
def foreignKeyFailed : GoError :=
  .plain "constraint failed: FOREIGN KEY constraint failed"

def Database.referring
    (database : Database) (userID : Int) (changed : Database) :
    Except GoError Database :=
  match database.userRow userID with
  | some _ => .ok changed
  | none => .error foreignKeyFailed

/-- Add a row to the one with the same key, or insert it. -/
def upsert {Row Key : Type} [DecidableEq Key]
    (key : Row → Key) (merge : Row → Row → Row) (new : Row)
    (rows : List Row) : List Row :=
  match lookup key rows (key new) with
  | some _ =>
      updateWhere (fun row => key row = key new)
        (fun row => merge row new) rows
  | none => rows ++ [new]

def UsageRow.key (row : UsageRow) : Int × String × String :=
  (row.userID, row.periodStart, row.granularity)

def UsageRow.add (row new : UsageRow) : UsageRow :=
  { row with
    bytesIn := row.bytesIn + new.bytesIn
    bytesOut := row.bytesOut + new.bytesOut
    connections := row.connections + new.connections }

def DestinationRow.key (row : DestinationRow) :
    Int × String × String × Int × String :=
  (row.userID, row.day, row.host, row.port, row.protocol)

def DestinationRow.add (row new : DestinationRow) : DestinationRow :=
  { row with
    requests := row.requests + new.requests
    blocked := row.blocked + new.blocked
    bytesIn := row.bytesIn + new.bytesIn
    bytesOut := row.bytesOut + new.bytesOut
    lastSeen := new.lastSeen }

/-- One upsert of the usage ledger. -/
def addUsage (delta : UsageDelta) (period granularity : String) :
    Statement Database GoError where
  run := fun database =>
    database.referring delta.userID { database with
      usagePeriods := upsert UsageRow.key UsageRow.add {
        userID := delta.userID
        periodStart := period
        granularity := granularity
        bytesIn := delta.bytesIn
        bytesOut := delta.bytesOut
        connections := delta.connections } database.usagePeriods }

/-- `time.UnixMilli`. -/
def unixMilli (millis : Int) : Time := millis * 1000000

/-- The condition of the last-seen update. -/
def seenBefore (userID : Int) (stamp : String) (row : UserRow) : Bool :=
  row.id = userID &&
    match row.lastSeenAt with
    | none => true
    | some seen => decide (seen < stamp)

def stampLastSeen (delta : UsageDelta) : Statement Database GoError where
  run := fun database =>
    let stamp := formatTime (unixMilli delta.lastSeenUnix)
    .ok { database with
      users := updateWhere (seenBefore delta.userID stamp)
        (fun row => { row with lastSeenAt := some stamp })
        database.users }

def addDestination (delta : DestinationDelta) :
    Statement Database GoError where
  run := fun database =>
    database.referring delta.userID { database with
      destinationStats := upsert DestinationRow.key DestinationRow.add {
        userID := delta.userID
        day := delta.day
        host := delta.host
        port := delta.port
        protocol := delta.protocol
        requests := delta.requests
        blocked := delta.blocked
        bytesIn := delta.bytesIn
        bytesOut := delta.bytesOut
        lastSeen := formatTime delta.lastSeen }
        database.destinationStats }

def saveCursor (cursor : LogCursor) : Statement Database GoError where
  run := fun database => .ok { database with logCursor := some cursor }

/-- The transaction of `ApplyDeltas`. -/
def applyDeltasStatements
    (usage : List UsageDelta) (destinations : List DestinationDelta)
    (cursor : LogCursor) : List (Statement Database GoError) :=
  usage.flatMap (fun delta =>
    [addUsage delta delta.day "day", addUsage delta delta.month "month"] ++
      if 0 < delta.lastSeenUnix then [stampLastSeen delta] else []) ++
  destinations.map addDestination ++ [saveCursor cursor]

end Xoxproxy
