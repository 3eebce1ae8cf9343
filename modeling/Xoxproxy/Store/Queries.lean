import Xoxproxy.Store.Consistency

/-!
# What is read from the user tables

The `SELECT` statements of `internal/store/sqlite/user.go`, and what is
made of their rows.
-/

namespace Xoxproxy

open RowTables

/-- The condition of `ListEngineUsers` on users; timestamps are compared
as text. -/
def inForce (now : Time) (row : UserRow) : Bool :=
  row.status = .active &&
    match row.expiresAt with
    | none => true
    | some expiry => decide (formatTime now < expiry)

/-- `JOIN credentials`: the users of the selection, each with every active
credential it has. -/
def joinActive
    (users : List UserRow) (credentials : List CredentialRow) :
    List (UserRow × CredentialRow) :=
  users.flatMap fun row =>
    (credentials.filter (activeFor row.id)).map fun credential =>
      (row, credential)

/-- The rows of `ListEngineUsers`, ordered by username. -/
def Database.engineRows (database : Database) (now : Time) :
    List (UserRow × CredentialRow) :=
  (joinActive (database.users.filter (inForce now))
      database.credentials).mergeSort
    fun first second => decide (first.1.username ≤ second.1.username)

/-- How a status is stored. -/
def statusText : UserStatus → String
  | .active => "active"
  | .disabled => "disabled"
  | .expired => "expired"

/-- The selection and page of a user listing; zero values select
everything. -/
structure UserFilter where
  status : String := ""
  username : String := ""
  beforeID : Int := 0
  limit : Int := 0
  offset : Int := 0
  deriving DecidableEq, Repr

/-- `ORDER BY id DESC LIMIT ? OFFSET ?` behind the conditions that the
filter sets. -/
def Database.userPage (database : Database) (filter : UserFilter) :
    List UserRow :=
  let limit :=
    if filter.limit ≤ 0 ∨ 500 < filter.limit then 100 else filter.limit
  let selected := database.users.filter fun row =>
    (filter.status == "" || statusText row.status == filter.status) &&
      (filter.username == "" || row.username == filter.username) &&
      (decide (filter.beforeID ≤ 0) || decide (row.id < filter.beforeID))
  ((selected.mergeSort fun first second => decide (second.id ≤ first.id)).drop
    filter.offset.toNat).take limit.toNat

section Reading

variable [Build]

/-- What `GetUserByID` and `GetUserByUsername` make of their row. -/
def scanFound : Option UserRow → Except GoError ProxyUser
  | none => .error errNotFound
  | some row => scanUser row

/-- `GetUserByID`. -/
def Database.getUserByID (database : Database) (id : Int) :
    Except GoError ProxyUser :=
  scanFound (database.userRow id)

/-- `GetUserByUsername`. -/
def Database.getUserByUsername (database : Database) (username : String) :
    Except GoError ProxyUser :=
  scanFound (lookup UserRow.username database.users username)

/-- `ListUsers`. -/
def Database.listUsers (database : Database) (filter : UserFilter) :
    Except GoError (List ProxyUser) :=
  readAll scanUser (database.userPage filter)

def scanEngineUser (row : UserRow × CredentialRow) :
    Except GoError EngineUser :=
  match scanUser row.1 with
  | .error error => .error error
  | .ok user => .ok ⟨user, row.2.engineHash⟩

/-- `ListEngineUsers`. -/
def Database.listEngineUsers (database : Database) (now : Time) :
    Except GoError (List EngineUser) :=
  readAll scanEngineUser (database.engineRows now)

end Reading

variable {users : List UserRow} {credentials : List CredentialRow}
variable {database : Database} {now : Time}

theorem mem_joinActive {row : UserRow} {credential : CredentialRow} :
    (row, credential) ∈ joinActive users credentials ↔
      row ∈ users ∧ credential ∈ credentials ∧
        activeFor row.id credential = true := by
  simp only [joinActive, List.mem_flatMap, List.mem_map,
    List.mem_filter, Prod.mk.injEq]
  constructor
  · rintro ⟨user, listed, found, active, rfl, rfl⟩
    exact ⟨listed, active⟩
  · rintro ⟨listed, active⟩
    exact ⟨row, listed, credential, active, rfl, rfl⟩

/-- Where every user has one active credential, the join lists every user
once. -/
theorem map_fst_joinActive
    (one : ∀ row ∈ users, ∃ credential,
      credentials.filter (activeFor row.id) = [credential]) :
    (joinActive users credentials).map Prod.fst = users := by
  induction users with
  | nil => rfl
  | cons row rest induction =>
      obtain ⟨credential, only⟩ := one row (by simp)
      have later := induction fun other member =>
        one other (List.mem_cons_of_mem _ member)
      have unfolded : joinActive (row :: rest) credentials =
          (row, credential) :: joinActive rest credentials := by
        simp only [joinActive, List.flatMap_cons, only, List.map_cons,
          List.map_nil, List.cons_append, List.nil_append]
      rw [unfolded, List.map_cons, later]

theorem mem_engineRows {row : UserRow} {credential : CredentialRow} :
    (row, credential) ∈ database.engineRows now ↔
      row ∈ database.users ∧ inForce now row = true ∧
        credential ∈ database.credentials ∧
        activeFor row.id credential = true := by
  rw [Database.engineRows, List.mem_mergeSort, mem_joinActive,
    List.mem_filter, and_assoc]

/-- `ListEngineUsers` reads every user in force once. -/
theorem Consistent.engineRows_perm
    (consistent : Consistent database) (now : Time) :
    ((database.engineRows now).map Prod.fst).Perm
      (database.users.filter (inForce now)) := by
  have sorted := List.mergeSort_perm
    (joinActive (database.users.filter (inForce now))
      database.credentials)
    fun first second => decide (first.1.username ≤ second.1.username)
  have once : (joinActive (database.users.filter (inForce now))
      database.credentials).map Prod.fst =
        database.users.filter (inForce now) := by
    apply map_fst_joinActive
    intro row member
    exact consistent.active row (List.mem_filter.mp member).1
  have users := sorted.map Prod.fst
  rw [once] at users
  exact users

section Listed

variable [Build] {listed : List EngineUser}

theorem scanEngineUser_ok
    {row : UserRow × CredentialRow} {user : EngineUser}
    (read : scanEngineUser row = .ok user) :
    scanUser row.1 = .ok user.user ∧
      user.engineHash = row.2.engineHash := by
  unfold scanEngineUser at read
  cases scanned : scanUser row.1 with
  | error error =>
      rw [scanned] at read
      cases read
  | ok found =>
      rw [scanned] at read
      rw [← Except.ok.inj read]
      exact ⟨rfl, rfl⟩

/-- Every listed user was read from the row of a user in force, joined
with one of its active credentials. -/
theorem mem_of_listEngineUsers
    (done : database.listEngineUsers now = .ok listed)
    {user : EngineUser} (member : user ∈ listed) :
    ∃ row ∈ database.users, inForce now row = true ∧
      scanUser row = .ok user.user ∧
      ∃ credential ∈ database.credentials.filter (activeFor row.id),
        user.engineHash = credential.engineHash := by
  obtain ⟨⟨row, credential⟩, joined, read⟩ := mem_of_readAll done member
  obtain ⟨scanned, hash⟩ := scanEngineUser_ok read
  obtain ⟨found, force, issued, active⟩ := mem_engineRows.mp joined
  exact ⟨row, found, force, scanned, credential,
    List.mem_filter.mpr ⟨issued, active⟩, hash⟩

/-- A column that scanning keeps is listed as it stands in the rows. -/
theorem listEngineUsers_column
    {Column : Type} {ofUser : ProxyUser → Column}
    {ofRow : UserRow → Column}
    (kept : ∀ row user, Scanned row user → ofUser user = ofRow row)
    (done : database.listEngineUsers now = .ok listed) :
    listed.map (fun user => ofUser user.user) =
      ((database.engineRows now).map Prod.fst).map ofRow := by
  have read := readAll_ok done
  clear done
  generalize database.engineRows now = rows at read
  induction read with
  | nil => rfl
  | @cons row user _ _ first _ induction =>
      have scanned := scanned_of_ok (scanEngineUser_ok first).1
      have same := kept row.1 user.user scanned
      rw [List.map_cons, List.map_cons, List.map_cons, induction, same]

/-- So a unique column of the users is unique among those listed. -/
theorem listEngineUsers_nodup
    {Column : Type} {ofUser : ProxyUser → Column}
    {ofRow : UserRow → Column} (consistent : Consistent database)
    (unique : Unique ofRow database.users)
    (kept : ∀ row user, Scanned row user → ofUser user = ofRow row)
    (done : database.listEngineUsers now = .ok listed) :
    (listed.map fun user => ofUser user.user).Nodup := by
  have users := (consistent.engineRows_perm now).map ofRow
  rw [listEngineUsers_column kept done, users.nodup_iff]
  exact unique.sublist (List.filter_sublist.map ofRow)

end Listed

end Xoxproxy
