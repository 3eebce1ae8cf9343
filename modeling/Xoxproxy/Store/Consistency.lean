import Xoxproxy.Store.Tables

/-!
# What every statement preserves

The keys, references and active credentials of the user tables, and how
the rows of users develop: no statement or transaction of the repositories
breaks or turns back any of it, whatever its arguments.
-/

namespace Xoxproxy

open RowTables Transactions

/-- Ids and usernames are unique, ids are below the sequence, credentials
belong to users, and every user has exactly one active credential. -/
structure Consistent (database : Database) : Prop where
  ids : Unique UserRow.id database.users
  names : Unique UserRow.username database.users
  issued : ∀ row ∈ database.users,
    1 ≤ row.id ∧ row.id ≤ database.userSequence
  sequence : 0 ≤ database.userSequence
  owners : ∀ credential ∈ database.credentials,
    ∃ row ∈ database.users, row.id = credential.userID
  active : ∀ row ∈ database.users,
    ∃ credential,
      database.credentials.filter (activeFor row.id) = [credential]

theorem consistent_empty : Consistent {} where
  ids := List.nodup_nil
  names := List.nodup_nil
  issued := by simp
  sequence := Int.le_refl 0
  owners := by simp
  active := by simp

/-- Apart from the last-seen stamp the rows are the same. -/
def SameUser (first second : UserRow) : Prop :=
  second = { first with lastSeenAt := second.lastSeenAt }

theorem SameUser.trans
    {first second third : UserRow}
    (early : SameUser first second) (late : SameUser second third) :
    SameUser first third := by
  unfold SameUser at *
  rw [late, early]

/-- How the users develop: ids are not given out again, versions only
grow, and rows with the same version are the same. -/
structure Develops (before now : Database) : Prop where
  sequence : before.userSequence ≤ now.userSequence
  rows : ∀ row ∈ now.users, row.id ≤ before.userSequence →
    ∃ old ∈ before.users, old.id = row.id ∧ old.version ≤ row.version ∧
      (old.version = row.version → SameUser old row)

theorem Develops.refl (database : Database) :
    Develops database database where
  sequence := Int.le_refl _
  rows := fun row member _ =>
    ⟨row, member, rfl, Int.le_refl _, fun _ => rfl⟩

theorem Develops.trans
    {first second third : Database}
    (early : Develops first second) (late : Develops second third) :
    Develops first third where
  sequence := Int.le_trans early.sequence late.sequence
  rows := by
    intro row member known
    obtain ⟨middle, inMiddle, middleId, middleVersion, middleSame⟩ :=
      late.rows row member (Int.le_trans known early.sequence)
    obtain ⟨old, inFirst, oldId, oldVersion, oldSame⟩ :=
      early.rows middle inMiddle (by rw [middleId]; exact known)
    have upper := Int.le_trans oldVersion middleVersion
    refine ⟨old, inFirst, oldId.trans middleId, upper, ?_⟩
    intro same
    have firstHalf : old.version = middle.version := by omega
    have secondHalf : middle.version = row.version := by omega
    exact (oldSame firstHalf).trans (middleSame secondHalf)

/-- An update of users that keeps their keys and raises the version of
every row it touches, or touches the last-seen stamp only. -/
structure Updates (change : UserRow → UserRow) : Prop where
  id : ∀ row, (change row).id = row.id
  username : ∀ row, (change row).username = row.username
  version : ∀ row,
    row.version < (change row).version ∨
      (change row).version = row.version ∧ SameUser row (change row)

theorem updates_touch
    {write : UserRow → UserRow} {now : Time}
    (id : ∀ row, (write row).id = row.id)
    (username : ∀ row, (write row).username = row.username)
    (version : ∀ row, (write row).version = row.version) :
    Updates fun row => (write row).touch now where
  id := id
  username := username
  version := by
    intro row
    have raised : ((write row).touch now).version = row.version + 1 :=
      congrArg (· + 1) (version row)
    omega

theorem updates_lastSeen (stamp : String) :
    Updates fun row => { row with lastSeenAt := some stamp } where
  id := fun _ => rfl
  username := fun _ => rfl
  version := fun _ => Or.inr ⟨rfl, rfl⟩

variable {database after : Database}
variable {condition : UserRow → Bool} {change : UserRow → UserRow}

theorem Consistent.updateUsers
    (consistent : Consistent database) (updates : Updates change) :
    Consistent { database with
      users := updateWhere condition change database.users } := by
  have ids : ∀ row ∈ updateWhere condition change database.users,
      ∃ old ∈ database.users, old.id = row.id := by
    intro row member
    obtain ⟨old, listed, same⟩ := mem_updateWhere.mp member
    refine ⟨old, listed, ?_⟩
    by_cases matched : condition old = true
    · rw [← same, if_pos matched, updates.id]
    · rw [← same, if_neg matched]
  refine ⟨unique_updateWhere updates.id consistent.ids,
    unique_updateWhere updates.username consistent.names, ?_,
    consistent.sequence, ?_, ?_⟩
  · intro row member
    obtain ⟨old, listed, same⟩ := ids row member
    rw [← same]
    exact consistent.issued old listed
  · intro credential member
    obtain ⟨row, listed, owner⟩ := consistent.owners credential member
    refine ⟨if condition row then change row else row,
      mem_updateWhere.mpr ⟨row, listed, rfl⟩, ?_⟩
    by_cases matched : condition row = true
    · rw [if_pos matched, updates.id]
      exact owner
    · rw [if_neg matched]
      exact owner
  · intro row member
    obtain ⟨old, listed, same⟩ := ids row member
    rw [← same]
    exact consistent.active old listed

theorem develops_updateUsers (updates : Updates change) :
    Develops database { database with
      users := updateWhere condition change database.users } where
  sequence := Int.le_refl _
  rows := by
    intro row member _
    obtain ⟨old, listed, same⟩ := mem_updateWhere.mp member
    refine ⟨old, listed, ?_⟩
    by_cases matched : condition old = true
    · rw [if_pos matched] at same
      rw [← same]
      rcases updates.version old with raised | ⟨kept, unchanged⟩
      · refine ⟨(updates.id old).symm, by omega, ?_⟩
        intro equal
        omega
      · exact ⟨(updates.id old).symm, by omega, fun _ => unchanged⟩
    · rw [if_neg matched] at same
      rw [← same]
      exact ⟨rfl, Int.le_refl _, fun _ => rfl⟩

/-- The users stay as they are, also in the tables that refer to them. -/
theorem Consistent.of_same_users
    (consistent : Consistent database)
    (users : after.users = database.users)
    (sequence : after.userSequence = database.userSequence)
    (credentials : after.credentials = database.credentials) :
    Consistent after := by
  refine ⟨?_, ?_, ?_, ?_, ?_, ?_⟩
  · rw [users]
    exact consistent.ids
  · rw [users]
    exact consistent.names
  · rw [users, sequence]
    exact consistent.issued
  · rw [sequence]
    exact consistent.sequence
  · rw [users, credentials]
    exact consistent.owners
  · rw [users, credentials]
    exact consistent.active

theorem develops_of_same_users
    (users : after.users = database.users)
    (sequence : after.userSequence = database.userSequence) :
    Develops database after := by
  refine ⟨Int.le_of_eq sequence.symm, ?_⟩
  intro row member _
  rw [users] at member
  exact ⟨row, member, rfl, Int.le_refl _, fun _ => rfl⟩

theorem Consistent.deleteUser
    (consistent : Consistent database) (id : Int) :
    Consistent (database.deleteUser id).2 := by
  have remains : ∀ row ∈ (database.deleteUser id).2.users,
      row ∈ database.users ∧ row.id ≠ id := by
    intro row member
    obtain ⟨listed, spared⟩ := mem_deleteWhere.mp member
    exact ⟨listed, by simpa using spared⟩
  refine ⟨unique_deleteWhere consistent.ids,
    unique_deleteWhere consistent.names, ?_, consistent.sequence, ?_,
    ?_⟩
  · intro row member
    exact consistent.issued row (remains row member).1
  · intro credential member
    obtain ⟨listed, spared⟩ := mem_deleteWhere.mp member
    obtain ⟨row, found, owner⟩ := consistent.owners credential listed
    refine ⟨row, mem_deleteWhere.mpr ⟨found, ?_⟩, owner⟩
    rw [owner]
    exact spared
  · intro row member
    obtain ⟨listed, other⟩ := remains row member
    obtain ⟨credential, only⟩ := consistent.active row listed
    refine ⟨credential, ?_⟩
    have kept : ∀ credential ∈ database.credentials,
        (activeFor row.id credential && !decide (credential.userID = id)) =
          activeFor row.id credential := by
      intro credential _
      by_cases owned : credential.userID = row.id
      · simp [activeFor, owned, other]
      · simp [activeFor, owned]
    change (deleteWhere _ database.credentials).filter _ = _
    rw [deleteWhere, List.filter_filter]
    rw [List.filter_congr kept]
    exact only

theorem develops_deleteUser (id : Int) :
    Develops database (database.deleteUser id).2 where
  sequence := Int.le_refl _
  rows := fun row member _ =>
    ⟨row, (mem_deleteWhere.mp member).1, rfl, Int.le_refl _,
      fun _ => rfl⟩

theorem updates_bump (now : Time) :
    Updates fun row => row.touch now :=
  updates_touch (fun _ => rfl) (fun _ => rfl) fun _ => rfl

/-! ## Transactions -/

theorem bumpVersion_ok
    {id version : Int} {now : Time}
    (done : (bumpVersion id version now).run database = .ok after) :
    database.users.countP (rowHas id version) ≠ 0 ∧
      after = { database with
        users := updateWhere (rowHas id version)
          (fun row => row.touch now) database.users } := by
  simp only [bumpVersion] at done
  by_cases missing :
      (database.updateUserRow id version now fun row => row).1 = 0
  · rw [if_pos missing] at done
    cases row : database.userRow id with
    | none =>
        rw [row] at done
        cases done
    | some found =>
        rw [row] at done
        cases done
  · rw [if_neg missing] at done
    exact ⟨missing, (Except.ok.inj done).symm⟩

/-- What a committed `RotateCredential` has done. -/
theorem rotate_committed
    {id version : Int} {next : Credential} {now : Time}
    (done :
      executeAll (rotateStatements id next version now) database =
        .ok after) :
    database.users.countP (rowHas id version) ≠ 0 ∧
      after = ({ database with
        users := updateWhere (rowHas id version)
          (fun row => row.touch now) database.users
        credentials := updateWhere (activeFor id)
          (fun row => row.revoke now) database.credentials } :
          Database).insertCredential id
            { next with createdAt := orTime next.createdAt now } := by
  simp only [rotateStatements, executeAll] at done
  cases bumped : (bumpVersion id version now).run database with
  | error error =>
      rw [bumped] at done
      cases done
  | ok changed =>
      rw [bumped] at done
      obtain ⟨found, rfl⟩ := bumpVersion_ok bumped
      exact ⟨found, (Except.ok.inj done).symm⟩

/-- The rotated user has the new credential only. -/
theorem filter_activeFor_rotated
    (id : Int) (now : Time) (credentials : List CredentialRow)
    (other : Int) :
    (updateWhere (activeFor id) (fun row => row.revoke now)
        credentials).filter (activeFor other) =
      if other = id then [] else credentials.filter (activeFor other) := by
  by_cases same : other = id
  · subst same
    rw [if_pos rfl, List.filter_eq_nil_iff]
    intro row member
    obtain ⟨old, -, same⟩ := mem_updateWhere.mp member
    rw [← same]
    by_cases active : activeFor other old = true
    · rw [if_pos active]
      simp [activeFor, CredentialRow.revoke]
    · rw [if_neg active]
      exact active
  · rw [if_neg same]
    induction credentials with
    | nil => rfl
    | cons row rest induction =>
        have head :
            activeFor other
              (if activeFor id row then row.revoke now else row) =
              activeFor other row := by
          by_cases active : activeFor id row = true
          · have owner : row.userID = id := by
              simp only [activeFor, decide_eq_true_eq] at active
              exact active.1
            have apart : ¬ id = other := fun equal => same equal.symm
            rw [if_pos active]
            simp [activeFor, CredentialRow.revoke, owner, apart]
          · rw [if_neg active]
        have unrevoked : activeFor other row = true →
            activeFor id row = false := by
          intro active
          simp only [activeFor, decide_eq_true_eq] at active
          simp [activeFor, active.1, same]
        simp only [updateWhere, List.map_cons, List.filter_cons, head]
        rw [updateWhere] at induction
        rw [induction]
        by_cases active : activeFor other row = true
        · simp [active, unrevoked active]
        · simp [active]

section Transactions

variable [Build]

/-- What a committed `CreateUser` has done. -/
theorem createUser_committed
    {user : ProxyUser} {initial : Credential}
    (done :
      executeAll (createUserStatements user initial) database =
        .ok after) :
    (∀ row ∈ database.users, row.username ≠ user.username) ∧
      after = ({ database with
        users := database.users ++
          [insertedRow (database.userSequence + 1) user]
        userSequence := database.userSequence + 1 } :
          Database).insertCredential (database.userSequence + 1)
            { initial with createdAt := user.createdAt } := by
  simp only [createUserStatements, executeAll, insertUser] at done
  cases taken :
      lookup UserRow.username database.users user.username with
  | some row =>
      rw [taken] at done
      cases done
  | none =>
      rw [taken] at done
      refine ⟨lookup_eq_none_iff.mp taken, ?_⟩
      exact (Except.ok.inj done).symm

theorem Consistent.createUser
    (consistent : Consistent database) {user : ProxyUser}
    {initial : Credential}
    (done :
      executeAll (createUserStatements user initial) database =
        .ok after) :
    Consistent after := by
  obtain ⟨free, rfl⟩ := createUser_committed done
  have fresh : ∀ row ∈ database.users,
      row.id ≠ database.userSequence + 1 := by
    intro row member same
    have issued := (consistent.issued row member).2
    omega
  have sequence := consistent.sequence
  refine ⟨unique_append consistent.ids fresh,
    unique_append consistent.names free, ?_, ?_, ?_, ?_⟩
  · intro row member
    rcases List.mem_append.mp member with old | new
    · have issued := consistent.issued row old
      exact ⟨issued.1, Int.le_trans issued.2 (by
        simp only [Database.insertCredential]
        omega)⟩
    · rw [List.mem_singleton.mp new]
      simp only [insertedRow, Database.insertCredential]
      omega
  · simp only [Database.insertCredential]
    omega
  · intro credential member
    rcases List.mem_append.mp member with old | new
    · obtain ⟨row, listed, owner⟩ := consistent.owners credential old
      exact ⟨row, List.mem_append_left _ listed, owner⟩
    · rw [List.mem_singleton.mp new]
      exact ⟨_, List.mem_append_right _ (List.mem_singleton_self _),
        rfl⟩
  · intro row member
    simp only [Database.insertCredential, List.filter_append]
    rcases List.mem_append.mp member with old | new
    · obtain ⟨credential, only⟩ := consistent.active row old
      have different := fresh row old
      refine ⟨credential, ?_⟩
      rw [only]
      simp [activeFor, different.symm]
    · rw [List.mem_singleton.mp new]
      have none : database.credentials.filter
          (activeFor (database.userSequence + 1)) = [] := by
        rw [List.filter_eq_nil_iff]
        intro credential listed
        obtain ⟨owner, found, same⟩ := consistent.owners credential listed
        have different := fresh owner found
        rw [same] at different
        simp [activeFor, different]
      simp only [insertedRow, none, List.nil_append]
      exact ⟨_, by simp [activeFor]; rfl⟩

theorem develops_createUser
    {user : ProxyUser} {initial : Credential}
    (done :
      executeAll (createUserStatements user initial) database =
        .ok after) :
    Develops database after := by
  obtain ⟨-, rfl⟩ := createUser_committed done
  refine ⟨?_, ?_⟩
  · simp only [Database.insertCredential]
    omega
  · intro row member known
    rcases List.mem_append.mp member with old | new
    · exact ⟨row, old, rfl, Int.le_refl _, fun _ => rfl⟩
    · rw [List.mem_singleton.mp new] at known
      simp only [insertedRow] at known
      omega

end Transactions

theorem Consistent.rotate
    (consistent : Consistent database)
    {id version : Int} {next : Credential} {now : Time}
    (done :
      executeAll (rotateStatements id next version now) database =
        .ok after) :
    Consistent after := by
  obtain ⟨found, rfl⟩ := rotate_committed done
  have bumped : Consistent { database with
      users := updateWhere (rowHas id version)
        (fun row => row.touch now) database.users } :=
    consistent.updateUsers (updates_bump now)
  refine ⟨bumped.ids, bumped.names, bumped.issued, bumped.sequence, ?_,
    ?_⟩
  · intro credential member
    rcases List.mem_append.mp member with old | new
    · obtain ⟨previous, listed, same⟩ := mem_updateWhere.mp old
      obtain ⟨row, present, owner⟩ := bumped.owners previous listed
      refine ⟨row, present, owner.trans ?_⟩
      rw [← same]
      by_cases active : activeFor id previous = true
      · rw [if_pos active]
        rfl
      · rw [if_neg active]
    · obtain ⟨row, listed, matched⟩ :=
        List.countP_pos_iff.mp (Nat.pos_of_ne_zero found)
      have rowId : row.id = id := by
        simp only [rowHas, decide_eq_true_eq] at matched
        exact matched.1
      refine ⟨row.touch now,
        mem_updateWhere.mpr ⟨row, listed, by rw [if_pos matched]⟩, ?_⟩
      rw [List.mem_singleton.mp new]
      exact rowId
  · intro row member
    obtain ⟨credential, only⟩ := bumped.active row member
    simp only [Database.insertCredential, List.filter_append,
      filter_activeFor_rotated]
    by_cases rotated : row.id = id
    · rw [if_pos rotated, List.nil_append]
      exact ⟨_, by simp [activeFor, rotated]; rfl⟩
    · have apart : ¬ id = row.id := fun same => rotated same.symm
      refine ⟨credential, ?_⟩
      rw [if_neg rotated]
      simpa [activeFor, apart] using only

theorem develops_rotate
    {id version : Int} {next : Credential} {now : Time}
    (done :
      executeAll (rotateStatements id next version now) database =
        .ok after) :
    Develops database after := by
  obtain ⟨-, rfl⟩ := rotate_committed done
  have bumped : Develops database { database with
      users := updateWhere (rowHas id version)
        (fun row => row.touch now) database.users } :=
    develops_updateUsers (updates_bump now)
  exact ⟨bumped.sequence, bumped.rows⟩

/-! ## Traffic -/

/-- What `ApplyDeltas` does to the users and their credentials: nothing
but stamp when users were last seen. -/
structure TrafficOnly (before after : Database) : Prop where
  consistent : Consistent before → Consistent after
  develops : Develops before after
  users : ∀ row ∈ after.users, ∃ old ∈ before.users, SameUser old row
  credentials : after.credentials = before.credentials

theorem TrafficOnly.refl (database : Database) :
    TrafficOnly database database where
  consistent := id
  develops := Develops.refl database
  users := fun row member => ⟨row, member, rfl⟩
  credentials := rfl

theorem TrafficOnly.trans
    {first second third : Database}
    (early : TrafficOnly first second) (late : TrafficOnly second third) :
    TrafficOnly first third where
  consistent := fun consistent => late.consistent (early.consistent consistent)
  develops := early.develops.trans late.develops
  users := by
    intro row member
    obtain ⟨middle, inMiddle, lateSame⟩ := late.users row member
    obtain ⟨old, inFirst, earlySame⟩ := early.users middle inMiddle
    exact ⟨old, inFirst, earlySame.trans lateSame⟩
  credentials := late.credentials.trans early.credentials

theorem trafficOnly_of_same_users
    (users : after.users = database.users)
    (sequence : after.userSequence = database.userSequence)
    (credentials : after.credentials = database.credentials) :
    TrafficOnly database after where
  consistent := fun consistent =>
    consistent.of_same_users users sequence credentials
  develops := develops_of_same_users users sequence
  users := fun row member => ⟨row, users ▸ member, rfl⟩
  credentials := credentials

theorem trafficOnly_referring
    {userID : Int} {changed : Database}
    (only : TrafficOnly database changed)
    (done : database.referring userID changed = .ok after) :
    TrafficOnly database after := by
  unfold Database.referring at done
  cases row : database.userRow userID with
  | none =>
      rw [row] at done
      cases done
  | some found =>
      rw [row] at done
      rw [← Except.ok.inj done]
      exact only

theorem trafficOnly_stampLastSeen
    {delta : UsageDelta}
    (done : (stampLastSeen delta).run database = .ok after) :
    TrafficOnly database after := by
  rw [← Except.ok.inj done]
  refine ⟨fun consistent =>
      consistent.updateUsers (updates_lastSeen _),
    develops_updateUsers (updates_lastSeen _), ?_, rfl⟩
  intro row member
  obtain ⟨old, listed, same⟩ := mem_updateWhere.mp member
  refine ⟨old, listed, ?_⟩
  rw [← same]
  by_cases matched :
      seenBefore delta.userID
        (formatTime (unixMilli delta.lastSeenUnix)) old = true
  · rw [if_pos matched]
    rfl
  · rw [if_neg matched]
    rfl

/-- Every statement of `ApplyDeltas` is about traffic only. -/
theorem trafficOnly_statement
    {usage : List UsageDelta} {destinations : List DestinationDelta}
    {cursor : LogCursor} {statement : Statement Database GoError}
    (member :
      statement ∈ applyDeltasStatements usage destinations cursor)
    (done : statement.run database = .ok after) :
    TrafficOnly database after := by
  unfold applyDeltasStatements at member
  rcases List.mem_append.mp member with traffic | last
  · rcases List.mem_append.mp traffic with ledger | destination
    · obtain ⟨delta, -, listed⟩ := List.mem_flatMap.mp ledger
      rcases List.mem_append.mp listed with upsert | stamp
      · have one : statement = addUsage delta delta.day "day" ∨
            statement = addUsage delta delta.month "month" := by
          simpa using upsert
        rcases one with day | month
        · rw [day] at done
          apply trafficOnly_referring ?_ done
          exact trafficOnly_of_same_users rfl rfl rfl
        · rw [month] at done
          apply trafficOnly_referring ?_ done
          exact trafficOnly_of_same_users rfl rfl rfl
      · by_cases positive : 0 < delta.lastSeenUnix
        · rw [if_pos positive, List.mem_singleton] at stamp
          rw [stamp] at done
          exact trafficOnly_stampLastSeen done
        · rw [if_neg positive] at stamp
          cases stamp
    · obtain ⟨delta, -, same⟩ := List.mem_map.mp destination
      rw [← same] at done
      apply trafficOnly_referring ?_ done
      exact trafficOnly_of_same_users rfl rfl rfl
  · rw [List.mem_singleton.mp last] at done
    rw [← Except.ok.inj done]
    exact trafficOnly_of_same_users rfl rfl rfl

/-- `ApplyDeltas`, committed or not, is about traffic only. -/
theorem trafficOnly_applyDeltas
    (failure : Failure GoError) (usage : List UsageDelta)
    (destinations : List DestinationDelta) (cursor : LogCursor)
    (database : Database) :
    TrafficOnly database
      (transact failure (applyDeltasStatements usage destinations cursor)
        database).2 := by
  rcases @transact_cases Database GoError failure
      (applyDeltasStatements usage destinations cursor) database with
    ⟨error, rolledBack⟩ | ⟨after, committed, done⟩
  · rw [rolledBack]
    exact TrafficOnly.refl database
  · rw [committed]
    exact executeAll_preserves TrafficOnly.refl
      (fun early late => early.trans late)
      (fun statement member _ _ ran => trafficOnly_statement member ran)
      done

end Xoxproxy
