import Xoxproxy.Analytics.Moves
import Xoxproxy.Users.ActiveCredentials

/-!
# Accounts and their rows

What the other clients of the store do to the accounts and to the traffic
tables: they create and delete accounts, reset and prune, and leave the
rows of the other accounts alone.
-/

namespace Xoxproxy.Analytics

open RowTables Transactions Tallies

variable {database after : Database}

/-- What one operation of the user service does to the accounts and their
traffic. -/
inductive AccountChange (database : Database) : Database → Prop where
  | kept (after : Database)
      (same : accounts after = accounts database)
      (sequence : after.userSequence = database.userSequence)
      (usage : after.usagePeriods = database.usagePeriods)
      (destinations :
        after.destinationStats = database.destinationStats)
      (cursor : after.logCursor = database.logCursor) :
      AccountChange database after
  | created (after : Database) (name : String)
      (free : ∀ row ∈ database.users, row.username ≠ name)
      (added : accounts after =
        accounts database ++ [(database.userSequence + 1, name)])
      (sequence : after.userSequence = database.userSequence + 1)
      (usage : after.usagePeriods = database.usagePeriods)
      (destinations :
        after.destinationStats = database.destinationStats)
      (cursor : after.logCursor = database.logCursor) :
      AccountChange database after
  | deleted (id : Int) :
      AccountChange database (database.deleteUser id).2

theorem AccountChange.refl : AccountChange database database :=
  .kept database rfl rfl rfl rfl rfl

theorem ids_eq_accounts (database : Database) :
    database.users.map UserRow.id = (accounts database).map Prod.fst := by
  rw [accounts, List.map_map]
  rfl

theorem accountChange_updateUsers
    {condition : UserRow → Bool} {change : UserRow → UserRow}
    (updates : Updates change) :
    AccountChange database { database with
      users := updateWhere condition change database.users } :=
  .kept _ (accounts_updateWhere updates.id updates.username)
    rfl rfl rfl rfl

theorem accountChange_change
    {host : UserHost} (choice : UserChoice) {changed : Nat × Database}
    (done : AccountChange host.database changed.2) :
    AccountChange host.database
      (UserHost.change choice host changed).2.database := by
  rcases UserHost.change_cases choice host changed with
    ⟨error, failed⟩ | succeeded
  · rw [failed]
    exact .refl
  · rw [succeeded]
    exact done

theorem accountChange_transact
    {host : UserHost} (choice : UserChoice)
    {statements : List (Statement Database GoError)}
    (committed : ∀ after, executeAll statements host.database = .ok after →
      AccountChange host.database after) :
    AccountChange host.database
      (UserHost.transact choice host statements).2.database := by
  rcases UserHost.transact_cases choice host statements with
    ⟨error, failed⟩ | ⟨after, succeeded, done⟩
  · rw [failed]
    exact .refl
  · rw [succeeded]
    exact committed after done

theorem accountChange_handle [Build]
    (host : UserHost) (op : UserOp) (choice : UserChoice) :
    AccountChange host.database (host.handle op choice).2.database := by
  cases op with
  | updateUser user now =>
      have updates : Updates fun row : UserRow =>
          (row.writeUser user).touch now :=
        updates_touch (fun _ => rfl) (fun _ => rfl) fun _ => rfl
      exact accountChange_change choice (accountChange_updateUsers updates)
  | setUserStatus id status version now =>
      have updates : Updates fun row : UserRow =>
          (row.writeStatus status).touch now :=
        updates_touch (fun _ => rfl) (fun _ => rfl) fun _ => rfl
      exact accountChange_change choice (accountChange_updateUsers updates)
  | sweepExpired now =>
      have updates : Updates fun row : UserRow =>
          (row.writeStatus .expired).touch now :=
        updates_touch (fun _ => rfl) (fun _ => rfl) fun _ => rfl
      exact accountChange_change choice (accountChange_updateUsers updates)
  | deleteUser id =>
      exact accountChange_change choice (.deleted id)
  | createUser user initial =>
      apply accountChange_transact
      intro after done
      obtain ⟨free, rfl⟩ := createUser_committed done
      refine .created _ user.username free ?_ rfl rfl rfl rfl
      simp [accounts, Database.insertCredential, insertedRow]
  | rotateCredential id next version now =>
      apply accountChange_transact
      intro after done
      obtain ⟨-, rfl⟩ := rotate_committed done
      exact .kept _
        (accounts_updateWhere (updates_bump now).id
          (updates_bump now).username) rfl rfl rfl rfl
  | _ => exact .refl

theorem trafficConsistent_of_same
    (consistent : TrafficConsistent database)
    (usage : after.usagePeriods = database.usagePeriods)
    (destinations : after.destinationStats = database.destinationStats)
    (ids : ∀ id ∈ database.users.map UserRow.id,
      id ∈ after.users.map UserRow.id) :
    TrafficConsistent after := by
  refine ⟨?_, ?_, ?_, ?_⟩
  · rw [usage]
    exact consistent.usageKeys
  · rw [destinations]
    exact consistent.destinationKeys
  · intro row member
    rw [usage] at member
    exact ids _ (consistent.usageOwners row member)
  · intro row member
    rw [destinations] at member
    exact ids _ (consistent.destinationOwners row member)

theorem amountAt_of_same
    (usage : after.usagePeriods = database.usagePeriods)
    (destinations : after.destinationStats = database.destinationStats)
    (key : RowKey) : amountAt after key = amountAt database key := by
  cases key <;> simp [amountAt, usage, destinations]

theorem removes_deleteUser
    (consistent : TrafficConsistent database) (id : Int) :
    Removes database (database.deleteUser id).2
      fun key => key.userID = id :=
  removes_deleteWhere consistent rfl rfl

theorem trafficConsistent_deleteUser
    (consistent : TrafficConsistent database) (id : Int) :
    TrafficConsistent (database.deleteUser id).2 where
  usageKeys := unique_deleteWhere consistent.usageKeys
  destinationKeys := unique_deleteWhere consistent.destinationKeys
  usageOwners := by
    intro row member
    obtain ⟨listed, spared⟩ := mem_deleteWhere.mp member
    obtain ⟨owner, found, same⟩ :=
      List.mem_map.mp (consistent.usageOwners row listed)
    refine List.mem_map.mpr ⟨owner, mem_deleteWhere.mpr ⟨found, ?_⟩, same⟩
    rw [same]
    exact spared
  destinationOwners := by
    intro row member
    obtain ⟨listed, spared⟩ := mem_deleteWhere.mp member
    obtain ⟨owner, found, same⟩ :=
      List.mem_map.mp (consistent.destinationOwners row listed)
    refine List.mem_map.mpr ⟨owner, mem_deleteWhere.mpr ⟨found, ?_⟩, same⟩
    rw [same]
    exact spared

theorem AccountChange.traffic (change : AccountChange database after)
    (consistent : TrafficConsistent database) :
    TrafficConsistent after := by
  cases change with
  | kept after same sequence usage destinations cursor =>
      apply trafficConsistent_of_same consistent usage destinations
      rw [ids_of_accounts same]
      exact fun _ member => member
  | created after name free added sequence usage destinations cursor =>
      apply trafficConsistent_of_same consistent usage destinations
      intro id member
      rw [ids_eq_accounts, added, List.map_append, ← ids_eq_accounts]
      exact List.mem_append_left _ member
  | deleted id => exact trafficConsistent_deleteUser consistent id

/-- The rows of an account that is there afterwards stay as they are. -/
theorem AccountChange.amounts (change : AccountChange database after)
    (consistent : TrafficConsistent database) {key : RowKey}
    (there : key.userID ∈ after.users.map UserRow.id) :
    amountAt after key = amountAt database key := by
  cases change with
  | kept after same sequence usage destinations cursor =>
      exact amountAt_of_same usage destinations key
  | created after name free added sequence usage destinations cursor =>
      exact amountAt_of_same usage destinations key
  | deleted id =>
      have other : ¬key.userID = id := by
        obtain ⟨row, listed, same⟩ := List.mem_map.mp there
        obtain ⟨-, spared⟩ := mem_deleteWhere.mp listed
        rw [← same]
        simpa using spared
      rw [(removes_deleteUser consistent id).amounts]
      simp [other]

/-- Rows belong to accounts that are there. -/
theorem amountAt_of_absent
    (consistent : TrafficConsistent database) {key : RowKey}
    (absent : key.userID ∉ database.users.map UserRow.id) :
    amountAt database key = 0 := by
  cases key with
  | usage userID period granularity =>
      rw [amountAt]
      cases found : lookup UsageRow.key database.usagePeriods
        (userID, period, granularity) with
      | none => rfl
      | some row =>
          obtain ⟨listed, same⟩ := lookup_mem found
          have owner := consistent.usageOwners row listed
          rw [show row.userID = userID from congrArg Prod.fst same]
            at owner
          exact absurd owner absent
  | destination userID day slot =>
      rw [amountAt]
      cases found : lookup DestinationRow.key database.destinationStats
        (userID, day, slot.host, slot.port, slot.protocol) with
      | none => rfl
      | some row =>
          obtain ⟨listed, same⟩ := lookup_mem found
          have owner := consistent.destinationOwners row listed
          rw [show row.userID = userID from congrArg Prod.fst same]
            at owner
          exact absurd owner absent

/-- A change of the traffic tables that removes rows by their keys. -/
structure Clears
    (database after : Database) (gone : RowKey → Bool) : Prop where
  users : after.users = database.users
  sequence : after.userSequence = database.userSequence
  credentials : after.credentials = database.credentials
  cursor : after.logCursor = database.logCursor
  usage : after.usagePeriods =
    deleteWhere (fun row => gone (usageRowKey row)) database.usagePeriods
  destinations : after.destinationStats =
    deleteWhere (fun row => gone (destinationRowKey row))
      database.destinationStats

variable {gone : RowKey → Bool}

theorem Clears.traffic (clears : Clears database after gone)
    (consistent : TrafficConsistent database) :
    TrafficConsistent after := by
  refine ⟨?_, ?_, ?_, ?_⟩
  · rw [clears.usage]
    exact unique_deleteWhere consistent.usageKeys
  · rw [clears.destinations]
    exact unique_deleteWhere consistent.destinationKeys
  · intro row member
    rw [clears.usage] at member
    rw [clears.users]
    exact consistent.usageOwners row (mem_deleteWhere.mp member).1
  · intro row member
    rw [clears.destinations] at member
    rw [clears.users]
    exact consistent.destinationOwners row (mem_deleteWhere.mp member).1

theorem clears_resetUsage
    {id : Int} {time : Time}
    (done : executeAll
      (resetUsageStatements id (formatDay time) (formatMonth time))
      database = .ok after) :
    Clears database after (Pipeline.resetGone id time) := by
  have result := Except.ok.inj done
  rw [← result]
  refine ⟨rfl, rfl, rfl, rfl, ?_, ?_⟩
  · change deleteWhere _ (deleteWhere _ database.usagePeriods) = _
    rw [deleteWhere, deleteWhere, deleteWhere, List.filter_filter]
    apply List.filter_congr
    intro row _
    rw [usageRowKey, Pipeline.resetGone, ← Bool.not_or, Bool.or_comm]
    simp only [resetsRow, Bool.and_assoc, Bool.and_or_distrib_left]
  · symm
    exact List.filter_eq_self.mpr fun row _ => rfl

theorem clears_prune (before : String) :
    Clears database (database.pruneDestinations before).2
      (Pipeline.pruneGone before) := by
  refine ⟨rfl, rfl, rfl, rfl, ?_, rfl⟩
  symm
  exact List.filter_eq_self.mpr fun row _ => rfl

end Xoxproxy.Analytics
