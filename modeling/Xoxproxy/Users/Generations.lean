import Mathlib.Data.List.Pairwise
import Xoxproxy.Users.ActiveCredentials

/-!
# Generations of credentials

Credentials are numbered in the order in which they are issued, and only the
newest of a user is in force.  Whatever is done to the tables, a credential
stays there as long as its user, and no id is given out again.
-/

namespace Xoxproxy

open RowTables Transactions

/-- Apart from its status the credential is the same. -/
def SameCredential (first second : CredentialRow) : Prop :=
  second = { first with
    status := second.status
    rotatedAt := second.rotatedAt }

/-- Only the newest credential of a user may be in force. -/
structure Generations (database : Database) : Prop where
  ascending : database.credentials.Pairwise
    fun first second => first.id < second.id
  issued : ∀ credential ∈ database.credentials,
    credential.id ≤ database.credentialSequence
  newest : ∀ credential ∈ database.credentials,
    credential.status = .active → ∀ other ∈ database.credentials,
      other.userID = credential.userID → other.id ≤ credential.id

theorem generations_empty : Generations {} where
  ascending := .nil
  issued := fun _ listed => (by cases listed)
  newest := fun _ listed => (by cases listed)

variable {database after : Database} {id : Int}

theorem Generations.of_same (generations : Generations database)
    (credentials : after.credentials = database.credentials)
    (sequence : after.credentialSequence = database.credentialSequence) :
    Generations after := by
  refine ⟨?_, ?_, ?_⟩
  · rw [credentials]
    exact generations.ascending
  · rw [credentials, sequence]
    exact generations.issued
  · rw [credentials]
    exact generations.newest

/-- A credential is determined by its number. -/
theorem Generations.eq (generations : Generations database)
    {first second : CredentialRow} (listed : first ∈ database.credentials)
    (also : second ∈ database.credentials) (same : first.id = second.id) :
    first = second := by
  have distinct : (database.credentials.map CredentialRow.id).Nodup :=
    List.pairwise_map.mpr (generations.ascending.imp fun lower => by omega)
  exact List.inj_on_of_nodup_map distinct listed also same

theorem Generations.deleteUser (generations : Generations database)
    (id : Int) : Generations (database.deleteUser id).2 where
  ascending := generations.ascending.filter _
  issued := fun credential listed =>
    generations.issued credential (mem_deleteWhere.mp listed).1
  newest := fun credential listed active other also =>
    generations.newest credential (mem_deleteWhere.mp listed).1 active
      other (mem_deleteWhere.mp also).1

/-- A new credential, when no other one of the user is in force. -/
theorem Generations.insertCredential (generations : Generations database)
    (free : ∀ credential ∈ database.credentials,
      activeFor id credential = false) (credential : Credential) :
    Generations (database.insertCredential id credential) := by
  refine ⟨?_, ?_, ?_⟩
  · refine List.pairwise_append.mpr
      ⟨generations.ascending, List.pairwise_singleton _ _, ?_⟩
    intro old listed new fresh
    rw [List.mem_singleton.mp fresh]
    exact Int.lt_add_one_of_le (generations.issued old listed)
  · intro row listed
    change row.id ≤ database.credentialSequence + 1
    rcases List.mem_append.mp listed with old | fresh
    · have issued := generations.issued row old
      omega
    · rw [List.mem_singleton.mp fresh]
  · intro row listed active other also owner
    rcases List.mem_append.mp listed with old | fresh
    · rcases List.mem_append.mp also with otherOld | otherFresh
      · exact generations.newest row old active other otherOld owner
      · rw [List.mem_singleton.mp otherFresh] at owner
        have unforced := free row old
        simp [activeFor, ← owner, active] at unforced
    · rw [List.mem_singleton.mp fresh]
      change other.id ≤ database.credentialSequence + 1
      rcases List.mem_append.mp also with otherOld | otherFresh
      · have issued := generations.issued other otherOld
        omega
      · rw [List.mem_singleton.mp otherFresh]

/-- What becomes of a credential when those of a user are revoked. -/
theorem revoked_cases (id : Int) (now : Time) (row : CredentialRow) :
    SameCredential row
        (if activeFor id row then row.revoke now else row) ∧
      activeFor id (if activeFor id row then row.revoke now else row) =
        false := by
  by_cases active : activeFor id row = true
  · rw [if_pos active]
    exact ⟨rfl, by simp [activeFor, CredentialRow.revoke]⟩
  · rw [if_neg active]
    exact ⟨rfl, by simpa using active⟩

theorem SameCredential.id_eq {first second : CredentialRow}
    (same : SameCredential first second) : second.id = first.id := by
  rw [same]

theorem SameCredential.userID_eq {first second : CredentialRow}
    (same : SameCredential first second) :
    second.userID = first.userID := by
  rw [same]

theorem Generations.revoke (generations : Generations database) (id : Int)
    (now : Time) (users : List UserRow) :
    Generations { database with
      users := users
      credentials := updateWhere (activeFor id)
        (fun row => row.revoke now) database.credentials } := by
  refine ⟨?_, ?_, ?_⟩
  · refine List.pairwise_map.mpr (generations.ascending.imp ?_)
    intro first second lower
    rw [(revoked_cases id now first).1.id_eq,
      (revoked_cases id now second).1.id_eq]
    exact lower
  · intro row listed
    obtain ⟨old, present, rfl⟩ := mem_updateWhere.mp listed
    rw [(revoked_cases id now old).1.id_eq]
    exact generations.issued old present
  · intro row listed active other also owner
    obtain ⟨old, present, rfl⟩ := mem_updateWhere.mp listed
    obtain ⟨otherOld, there, rfl⟩ := mem_updateWhere.mp also
    rw [(revoked_cases id now otherOld).1.id_eq,
      (revoked_cases id now old).1.id_eq]
    rw [(revoked_cases id now otherOld).1.userID_eq,
      (revoked_cases id now old).1.userID_eq] at owner
    refine generations.newest old present ?_ otherOld there owner
    by_cases revoked : activeFor id old = true
    · exact (of_decide_eq_true revoked).2
    · rwa [if_neg revoked] at active

section Transactions

variable [Build]

theorem Generations.createUser (generations : Generations database)
    (consistent : Consistent database) {user : ProxyUser}
    {initial : Credential}
    (done : executeAll (createUserStatements user initial) database =
      .ok after) : Generations after := by
  obtain ⟨-, rfl⟩ := createUser_committed done
  have kept : Generations { database with
      users := database.users ++
        [insertedRow (database.userSequence + 1) user]
      userSequence := database.userSequence + 1 } :=
    generations.of_same rfl rfl
  refine kept.insertCredential (fun credential listed => ?_) _
  -- Nobody has the new id yet.
  obtain ⟨row, present, owner⟩ := consistent.owners credential listed
  have issued := (consistent.issued row present).2
  refine decide_eq_false fun forNew => ?_
  have newOwner := forNew.1
  omega

omit [Build] in
theorem Generations.rotate (generations : Generations database)
    {version : Int} {next : Credential} {now : Time}
    (done : executeAll (rotateStatements id next version now) database =
      .ok after) : Generations after := by
  obtain ⟨-, rfl⟩ := rotate_committed done
  refine (generations.revoke id now _).insertCredential
    (fun credential listed => ?_) _
  obtain ⟨old, -, rfl⟩ := mem_updateWhere.mp listed
  exact (revoked_cases id now old).2

end Transactions

/-- No number is given out again, and a credential stays as long as its
user. -/
structure Succeeds (before after : Database) : Prop where
  users : before.userSequence ≤ after.userSequence
  credentials : before.credentialSequence ≤ after.credentialSequence
  names : ∀ row ∈ after.users, row.id ≤ before.userSequence →
    ∃ old ∈ before.users, old.id = row.id ∧ old.username = row.username
  kept : ∀ row ∈ after.users, row.id ≤ before.userSequence →
    ∀ credential ∈ before.credentials, credential.userID = row.id →
      ∃ later ∈ after.credentials, SameCredential credential later

theorem Succeeds.refl (database : Database) :
    Succeeds database database where
  users := Int.le_refl _
  credentials := Int.le_refl _
  names := fun row listed _ => ⟨row, listed, rfl, rfl⟩
  kept := fun _ _ _ credential listed _ => ⟨credential, listed, rfl⟩

theorem SameCredential.trans {first second third : CredentialRow}
    (early : SameCredential first second)
    (late : SameCredential second third) : SameCredential first third := by
  rw [SameCredential, late, early]

theorem Succeeds.trans {first second third : Database}
    (early : Succeeds first second) (late : Succeeds second third) :
    Succeeds first third where
  users := early.users.trans late.users
  credentials := early.credentials.trans late.credentials
  names := by
    intro row listed known
    obtain ⟨middle, there, lateId, lateName⟩ :=
      late.names row listed (known.trans early.users)
    obtain ⟨old, present, earlyId, earlyName⟩ :=
      early.names middle there (lateId ▸ known)
    exact ⟨old, present, earlyId.trans lateId, earlyName.trans lateName⟩
  kept := by
    intro row listed known credential held owner
    obtain ⟨middle, there, lateId, -⟩ :=
      late.names row listed (known.trans early.users)
    obtain ⟨between, stays, earlySame⟩ := early.kept middle there
      (lateId ▸ known) credential held (owner.trans lateId.symm)
    obtain ⟨later, still, lateSame⟩ := late.kept row listed
      (known.trans early.users) between stays
      (earlySame.userID_eq.trans owner)
    exact ⟨later, still, earlySame.trans lateSame⟩

theorem succeeds_updateUsers {condition : UserRow → Bool}
    {change : UserRow → UserRow} (updates : Updates change) :
    Succeeds database { database with
      users := updateWhere condition change database.users } where
  users := Int.le_refl _
  credentials := Int.le_refl _
  names := by
    intro row listed _
    obtain ⟨old, present, rfl⟩ := mem_updateWhere.mp listed
    refine ⟨old, present, ?_⟩
    by_cases matched : condition old = true
    · rw [if_pos matched]
      exact ⟨(updates.id old).symm, (updates.username old).symm⟩
    · rw [if_neg matched]
      exact ⟨rfl, rfl⟩
  kept := fun _ _ _ credential listed _ => ⟨credential, listed, rfl⟩

theorem succeeds_deleteUser (id : Int) :
    Succeeds database (database.deleteUser id).2 where
  users := Int.le_refl _
  credentials := Int.le_refl _
  names := fun row listed _ =>
    ⟨row, (mem_deleteWhere.mp listed).1, rfl, rfl⟩
  kept := by
    intro row listed _ credential held owner
    have other := (mem_deleteWhere.mp listed).2
    refine ⟨credential, mem_deleteWhere.mpr ⟨held, ?_⟩, rfl⟩
    rw [owner]
    exact other

theorem succeeds_createUser [Build] {user : ProxyUser}
    {initial : Credential}
    (done : executeAll (createUserStatements user initial) database =
      .ok after) : Succeeds database after := by
  obtain ⟨-, rfl⟩ := createUser_committed done
  refine ⟨?_, ?_, ?_, ?_⟩
  · exact Int.le_add_one (Int.le_refl _)
  · exact Int.le_add_one (Int.le_refl _)
  · intro row listed known
    rcases List.mem_append.mp listed with old | fresh
    · exact ⟨row, old, rfl, rfl⟩
    · rw [List.mem_singleton.mp fresh] at known
      exact absurd known (Int.not_le.mpr (Int.lt_succ _))
  · exact fun _ _ _ credential held _ =>
      ⟨credential, List.mem_append_left _ held, rfl⟩

theorem succeeds_rotate {version : Int} {next : Credential} {now : Time}
    (done : executeAll (rotateStatements id next version now) database =
      .ok after) : Succeeds database after := by
  obtain ⟨-, rfl⟩ := rotate_committed done
  have bumped := @succeeds_updateUsers database (rowHas id version) _
    (updates_bump now)
  refine ⟨Int.le_refl _, Int.le_add_one (Int.le_refl _), bumped.names, ?_⟩
  intro row listed known credential held owner
  exact ⟨_, List.mem_append_left _
    (mem_updateWhere.mpr ⟨credential, held, rfl⟩),
    (revoked_cases id now credential).1⟩

theorem credentialSequence_referring {userID : Int} {changed : Database}
    (same : changed.credentialSequence = database.credentialSequence)
    (done : database.referring userID changed = .ok after) :
    after.credentialSequence = database.credentialSequence := by
  unfold Database.referring at done
  split at done
  · rw [← Except.ok.inj done]
    exact same
  · cases done

theorem credentialSequence_statement
    {usage : List UsageDelta} {destinations : List DestinationDelta}
    {cursor : LogCursor} {statement : Statement Database GoError}
    (member : statement ∈ applyDeltasStatements usage destinations cursor)
    (done : statement.run database = .ok after) :
    after.credentialSequence = database.credentialSequence := by
  simp only [applyDeltasStatements, List.mem_append, List.mem_flatMap,
    List.mem_map, List.mem_cons, List.not_mem_nil, or_false] at member
  rcases member with (⟨delta, -, ledger | stamp⟩ | ⟨delta, -, rfl⟩) | rfl
  · rcases ledger with rfl | rfl
    · exact credentialSequence_referring (by rfl) done
    · exact credentialSequence_referring (by rfl) done
  · split at stamp
    · rw [List.mem_singleton.mp stamp] at done
      rw [← Except.ok.inj done]
    · cases stamp
  · exact credentialSequence_referring (by rfl) done
  · rw [← Except.ok.inj done]

theorem credentialSequence_applyDeltas
    (failure : Failure GoError) (usage : List UsageDelta)
    (destinations : List DestinationDelta) (cursor : LogCursor)
    (database : Database) :
    (transact failure (applyDeltasStatements usage destinations cursor)
      database).2.credentialSequence = database.credentialSequence := by
  rcases @transact_cases Database GoError failure
      (applyDeltasStatements usage destinations cursor) database with
    ⟨error, rolledBack⟩ | ⟨after, committed, done⟩
  · rw [rolledBack]
  · rw [committed]
    exact @executeAll_preserves _ _ _ _ _
      (fun before after : Database =>
        after.credentialSequence = before.credentialSequence)
      (fun _ => rfl) (fun early late => late.trans early)
      (fun statement member _ _ ran =>
        credentialSequence_statement member ran) done

theorem TrafficOnly.succeeds (only : TrafficOnly database after)
    (sequence : after.credentialSequence = database.credentialSequence) :
    Succeeds database after where
  users := only.develops.sequence
  credentials := sequence.ge
  names := by
    intro row listed _
    obtain ⟨old, present, same⟩ := only.users row listed
    exact ⟨old, present, by rw [same], by rw [same]⟩
  kept := by
    intro _ _ _ credential held _
    refine ⟨credential, ?_, rfl⟩
    rw [only.credentials]
    exact held

/-- What every operation keeps. -/
structure WellKept (database : Database) : Prop where
  consistent : Consistent database
  generations : Generations database

theorem wellKept_empty : WellKept {} :=
  ⟨consistent_empty, generations_empty⟩

/-- The tables are well kept, and succeed others. -/
def KeptSince (before after : Database) : Prop :=
  WellKept after ∧ Succeeds before after

theorem WellKept.since (kept : WellKept database) :
    KeptSince database database :=
  ⟨kept, Succeeds.refl database⟩

theorem WellKept.change {host : UserHost} (kept : WellKept host.database)
    (choice : UserChoice) {changed : Nat × Database}
    (done : KeptSince host.database changed.2) :
    KeptSince host.database
      (UserHost.change choice host changed).2.database := by
  rcases UserHost.change_cases choice host changed with
    ⟨error, failed⟩ | succeeded
  · rw [failed]
    exact kept.since
  · rw [succeeded]
    exact done

theorem WellKept.transact {host : UserHost}
    (kept : WellKept host.database) (choice : UserChoice)
    {statements : List (Statement Database GoError)}
    (done : ∀ after, executeAll statements host.database = .ok after →
      KeptSince host.database after) :
    KeptSince host.database
      (UserHost.transact choice host statements).2.database := by
  rcases UserHost.transact_cases choice host statements with
    ⟨error, failed⟩ | ⟨after, committed, ran⟩
  · rw [failed]
    exact kept.since
  · rw [committed]
    exact done after ran

theorem WellKept.updateUsers (kept : WellKept database)
    {condition : UserRow → Bool} {change : UserRow → UserRow}
    (updates : Updates change) :
    KeptSince database { database with
      users := updateWhere condition change database.users } :=
  ⟨⟨kept.consistent.updateUsers updates, kept.generations.of_same rfl rfl⟩,
    succeeds_updateUsers updates⟩

/-- Every operation keeps the tables well, whatever its arguments. -/
theorem WellKept.handle [Build] {host : UserHost}
    (kept : WellKept host.database) (op : UserOp) (choice : UserChoice) :
    KeptSince host.database (host.handle op choice).2.database := by
  cases op with
  | updateUser user now =>
      exact kept.change choice (kept.updateUsers
        (updates_touch (fun _ => rfl) (fun _ => rfl) fun _ => rfl))
  | setUserStatus id status version now =>
      exact kept.change choice (kept.updateUsers
        (updates_touch (fun _ => rfl) (fun _ => rfl) fun _ => rfl))
  | sweepExpired now =>
      exact kept.change choice (kept.updateUsers
        (updates_touch (fun _ => rfl) (fun _ => rfl) fun _ => rfl))
  | deleteUser id =>
      exact kept.change choice
        ⟨⟨kept.consistent.deleteUser id, kept.generations.deleteUser id⟩,
          succeeds_deleteUser id⟩
  | createUser user initial =>
      exact kept.transact choice fun after done =>
        ⟨⟨kept.consistent.createUser done,
          kept.generations.createUser kept.consistent done⟩,
          succeeds_createUser done⟩
  | rotateCredential id next version now =>
      exact kept.transact choice fun after done =>
        ⟨⟨kept.consistent.rotate done, kept.generations.rotate done⟩,
          succeeds_rotate done⟩
  | _ => exact kept.since

theorem WellKept.flush (kept : WellKept database)
    (failure : Failure GoError) (usage : List UsageDelta)
    (destinations : List DestinationDelta) (cursor : LogCursor) :
    KeptSince database
      (Transactions.transact failure
        (applyDeltasStatements usage destinations cursor) database).2 := by
  have only := trafficOnly_applyDeltas failure usage destinations cursor
    database
  have sequence := credentialSequence_applyDeltas failure usage
    destinations cursor database
  exact ⟨⟨only.consistent kept.consistent,
    kept.generations.of_same only.credentials sequence⟩,
    only.succeeds sequence⟩

end Xoxproxy
