import Xoxproxy.Auth.Accounts
import Xoxproxy.Auth.Sessions

/-!
# Replaced passwords

Who replaces a password revokes the account's sessions afterwards, in a
statement of its own.  A login that has verified the old password may mint
its session behind that statement, and the statement may fail.
-/

namespace Xoxproxy.Auth

open EffectPrograms RowTables

/-- The event has replaced the password of the account. -/
def replaces (accountID : Int) : AuthEvent → Bool
  | ⟨.updatePassword id _ _, answer⟩ =>
      match answer with
      | .ok (_ + 1) => id = accountID
      | _ => false
  | _ => false

/-- The event has stored the session. -/
def opens (id : String) : AuthEvent → Bool
  | ⟨.insertSession row, answer⟩ => answer.isNone && row.id = id
  | _ => false

/-- The event has read the session. -/
def readsSession (id : String) : AuthEvent → Bool
  | ⟨.selectSession _, answer⟩ =>
      match answer with
      | .ok (some row) => row.id = id
      | _ => false
  | _ => false

/-- What was performed since the call looked its account up. -/
def sinceLookup (call : AuthCall) (history : AuthHistory) : AuthHistory :=
  history.rtakeWhile fun performed =>
    !(decide (performed.label = call) && looksUp performed.event.op)

/-- Since the call looked the account up, the password was replaced by a
call that has already come to revoke the sessions. -/
def Overtaken (history : AuthHistory) (call : AuthCall)
    (accountID : Int) : Prop :=
  ∃ performed ∈ sinceLookup call history,
    replaces accountID performed.event = true ∧
      ∃ other ∈ history, other.label = performed.label ∧
        purgesSessions other.event.op = true

instance (history : AuthHistory) (call : AuthCall) (accountID : Int) :
    Decidable (Overtaken history call accountID) :=
  inferInstanceAs (Decidable (∃ performed ∈ _, _))

def insertedRow? : AuthOp → Option SessionRow
  | .insertSession row => some row
  | _ => none

def purge? : AuthOp → Option (Int × String)
  | .deleteSessionsForAccount accountID spared => some (accountID, spared)
  | _ => none

/-- A session is not stored for a login that was overtaken, and revoking
the sessions fails only where there is none to revoke. -/
def Orderly (recorded : AuthRecorded) (choice : AuthChoice)
    (call : AuthCall) (op : AuthOp) : Prop :=
  (∀ row ∈ insertedRow? op,
    ¬Overtaken recorded.history call row.accountID) ∧
  ∀ purge ∈ purge? op, choice.error = none ∨
    ∀ row ∈ recorded.world.tables.sessions,
      row.accountID = purge.1 → row.id = purge.2

instance (recorded : AuthRecorded) (choice : AuthChoice)
    (call : AuthCall) (op : AuthOp) :
    Decidable (Orderly recorded choice call op) :=
  inferInstanceAs (Decidable (_ ∧ _))

/-- The call was made through the session. -/
def MadeThrough (call : AuthCall) (past : AuthPast) (id : String) :
    Prop :=
  call.request.token? ≠ none ∧ ∃ event ∈ past, readsSession id event = true

/-- The event has written the password hash of the account. -/
def writesHash (accountID : Int) (hash : String) : AuthEvent → Bool
  | ⟨.updatePassword id written _, answer⟩ =>
      match answer with
      | .ok (_ + 1) => id = accountID && written = hash
      | _ => false
  | _ => false

section Property

variable [Build] [PasswordHashing]

/-- The session was stored by a login that has looked the account up and
verified a hash written to it, all within the part of a history. -/
def VerifiedWithin (part : AuthHistory) (accountID : Int) (id : String) :
    Prop :=
  ∃ login input found row,
    login.request = .login input ∧ found.id = accountID ∧ row.id = id ∧
    (⟨login, ⟨.insertSession row, none⟩⟩ : AuthPerformed) ∈ part ∧
    (⟨login, ⟨.selectAccountByUsername input.username,
      .ok (some found)⟩⟩ : AuthPerformed) ∈ part ∧
    verifyPassword input.password found.passwordHash = true ∧
    ∃ performed ∈ part,
      writesHash accountID found.passwordHash performed.event = true

/-- A call that has replaced the password of an account and returned has
cut the sessions off: a validation that reads a session afterwards accepts
it only if the call was made through it, or if it belongs to a login that
has looked the account up behind the replacement and verified what was
written then or since. -/
def CutOff (pool : AuthPool) : Prop :=
  ∀ {call : AuthCall} {past : AuthPast} {token : String}
    {session : AdminSession} {account : AdminAccount},
    call.request = .validateSession token →
    ⟨call, past, .ret (.validated (.ok (session, account)))⟩ ∈
      pool.threads →
  ∀ {before after : AuthHistory} {row : SessionRow},
    pool.world.history = before ++
      ⟨call, ⟨.selectSession (hashToken token), .ok (some row)⟩⟩ ::
        after →
    scanSession row = .ok session →
  ∀ {changer : AuthCall} {done : AuthPast} {value : AuthResult},
    ⟨changer, done, .ret value⟩ ∈ pool.threads →
    ownEvents changer before = done →
  ∀ {earlier later : AuthHistory} {event : AuthEvent},
    before = earlier ++ ⟨changer, event⟩ :: later →
    replaces session.accountID event = true →
      MadeThrough changer done session.id ∨
        VerifiedWithin (⟨changer, event⟩ :: later) session.accountID
          session.id

end Property

section Invariant

variable [PasswordHashing]

/-- The hash of an account is the last that was written to it. -/
def Current (history : AuthHistory) (row : AccountRow) : Prop :=
  ∀ earlier performed later, history = earlier ++ performed :: later →
    replaces row.id performed.event = true →
      ∃ written ∈ performed :: later,
        writesHash row.id row.passwordHash written.event = true

/-- The session belongs to a login, and the calls that have replaced the
password since its lookup and come to revoke the sessions spare it. -/
def Spared (history : AuthHistory) (row : SessionRow) : Prop :=
  ∃ login input found opened earlier later,
    login.request = .login input ∧ found.id = row.accountID ∧
    opened.id = row.id ∧
    verifyPassword input.password found.passwordHash = true ∧
    history = earlier ++ ⟨login, ⟨.selectAccountByUsername
      input.username, .ok (some found)⟩⟩ :: later ∧
    (⟨login, ⟨.insertSession opened, none⟩⟩ : AuthPerformed) ∈ later ∧
    ∀ performed ∈ later,
      replaces row.accountID performed.event = true →
        ∀ accountID spared answer,
          (⟨performed.label, ⟨.deleteSessionsForAccount accountID spared,
            answer⟩⟩ : AuthPerformed) ∈ history →
            spared = row.id

structure Guarded (recorded : AuthRecorded) : Prop where
  rows : ∀ row ∈ recorded.world.tables.sessions,
    Spared recorded.history row
  reads : AtEach
    (fun before performed => ∀ hash row,
      performed.event = ⟨.selectSession hash, .ok (some row)⟩ →
        Spared before row)
    recorded.history
  hashes : ∀ row ∈ recorded.world.tables.accounts,
    Current recorded.history row
  lookups : AtEach
    (fun before performed => ∀ username found,
      performed.event =
        ⟨.selectAccountByUsername username, .ok (some found)⟩ →
          Current before found)
    recorded.history
  known : ∀ row ∈ recorded.world.tables.accounts,
    row.id ≤ recorded.world.accountSequence
  replaced : ∀ performed ∈ recorded.history, ∀ id,
    replaces id performed.event = true →
      id ≤ recorded.world.accountSequence

end Invariant

section Hashes

variable {history : AuthHistory} {row : AccountRow}
variable {performed : AuthPerformed}

theorem Current.grow (current : Current history row)
    (apart : replaces row.id performed.event = false) :
    Current (history ++ [performed]) row := by
  intro earlier item later split replaced
  rcases snoc_split split with ⟨rfl, rfl, -⟩ | ⟨middle, rfl, old⟩
  · rw [apart] at replaced
    cases replaced
  · obtain ⟨written, member, writes⟩ := current _ _ _ old replaced
    exact ⟨written, List.mem_append_left [performed] member, writes⟩

theorem Current.of_same {other : AccountRow}
    (current : Current history row) (id : other.id = row.id)
    (hash : other.passwordHash = row.passwordHash) :
    Current history other := by
  rw [Current, id, hash]
  exact current

theorem current_of_write
    (writes : writesHash row.id row.passwordHash performed.event = true) :
    Current (history ++ [performed]) row := by
  intro earlier item later split _
  refine ⟨performed, ?_, writes⟩
  rcases snoc_split split with ⟨rfl, rfl, -⟩ | ⟨middle, rfl, -⟩
  · exact List.mem_cons_self
  · exact List.mem_append_right (item :: middle) List.mem_cons_self

theorem current_of_unreplaced
    (unreplaced : ∀ performed ∈ history,
      replaces row.id performed.event = false) : Current history row := by
  intro earlier item later split replaced
  have member : item ∈ history := by
    rw [split]
    exact List.mem_append_right _ List.mem_cons_self
  rw [unreplaced item member] at replaced
  cases replaced

theorem replaces_eq {event : AuthEvent} {id : Int}
    (replaced : replaces id event = true) :
    ∃ hash now count,
      event = ⟨.updatePassword id hash now, .ok (count + 1)⟩ := by
  obtain ⟨op, answer⟩ := event
  cases op with
  | updatePassword other hash now =>
      rcases answer with error | _ | count
      · cases replaced
      · cases replaced
      · obtain rfl : other = id := of_decide_eq_true replaced
        exact ⟨hash, now, count, rfl⟩
  | _ => cases replaced

theorem replaces_of_written {event : AuthEvent} {id : Int}
    (apart : writtenAccount? event ≠ some id) :
    replaces id event = false := by
  obtain ⟨op, answer⟩ := event
  cases op with
  | updatePassword other hash now =>
      rcases answer with error | _ | count
      · rfl
      · rfl
      · have different : other ≠ id := fun same =>
          apart (congrArg some same)
        exact decide_eq_false different
  | _ => rfl

end Hashes

/-! ## Steps -/

theorem Spared.of_same [PasswordHashing] {history : AuthHistory} {row other : SessionRow}
    (spared : Spared history row) (id : other.id = row.id)
    (account : other.accountID = row.accountID) :
    Spared history other := by
  rw [Spared, id, account]
  exact spared

section Steps

variable [Build] [PasswordHashing] {options : AuthOptions}
variable {before after : AuthRecorded} {call : AuthCall} {op : AuthOp}
variable {choice : AuthChoice} {answer : op.Answer}

theorem Guarded.hashes_step (guarded : Guarded before)
    (accounts : Accounts (authMachine options)
      (licence options.applyDefaults) before after call op choice answer) :
    ∀ row ∈ after.world.tables.accounts, Current after.history row := by
  intro row member
  rw [accounts.history]
  cases (handle_accounts (handled_of_accounts accounts)).1 row member with
  | kept old apart =>
      exact (guarded.hashes row old).grow (replaces_of_written apart)
  | inserted fresh _ _ _ event =>
      obtain ⟨username, hash, created, now, event⟩ := event
      apply Current.grow
      · apply current_of_unreplaced
        intro performed listed
        by_contra replaced
        have known := guarded.replaced performed listed row.id
          (by simpa using replaced)
        omega
      · change replaces row.id ⟨op, answer⟩ = false
        rw [event]
        rfl
  | replaced old now count _ event _ _ _ =>
      apply current_of_write
      change writesHash row.id row.passwordHash ⟨op, answer⟩ = true
      rw [event]
      simp [writesHash]
  | failed old attempts lock now count listed event change =>
      apply Current.grow
      · exact (guarded.hashes old listed).of_same (by rw [change])
          (by rw [change])
      · change replaces row.id ⟨op, answer⟩ = false
        rw [event]
        rfl
  | cleared old now count listed event change =>
      apply Current.grow
      · exact (guarded.hashes old listed).of_same (by rw [change])
          (by rw [change])
      · change replaces row.id ⟨op, answer⟩ = false
        rw [event]
        rfl

/-- A call looks one account up, so what was performed since is behind
that lookup. -/
theorem sinceLookup_eq {history earlier later : AuthHistory}
    {username : String} {found : Except GoError (Option AccountRow)}
    (lawful : Lawful (licence options) history)
    (split : history = earlier ++
      ⟨call, ⟨.selectAccountByUsername username, found⟩⟩ :: later) :
    sinceLookup call history = later := by
  have once : ∀ performed ∈ later,
      !(decide (performed.label = call) &&
        looksUp performed.event.op) := by
    intro performed member
    by_contra again
    obtain ⟨first, rest, rfl⟩ := List.append_of_mem member
    have licensed := lawful
      (earlier ++ ⟨call, ⟨.selectAccountByUsername username, found⟩⟩ ::
        first) performed rest (by rw [split]; simp)
    obtain ⟨label, op, answer⟩ := performed
    simp only [Bool.not_eq_true', Bool.not_eq_false, Bool.and_eq_true,
      decide_eq_true_eq] at again
    obtain ⟨rfl, looks⟩ := again
    cases op with
    | selectAccountByUsername other =>
        have avoided : Avoids looksUp _ := licensed
        have own : (⟨.selectAccountByUsername username, found⟩ :
            AuthEvent) ∈ ownEvents label (earlier ++ ⟨label,
              ⟨.selectAccountByUsername username, found⟩⟩ :: first) :=
          mem_ownEvents.mpr
            (List.mem_append_right _ List.mem_cons_self)
        exact absurd (avoided _ own) (by simp [looksUp])
    | _ => cases looks
  rw [sinceLookup, split]
  exact rtakeWhile_split (by simp [looksUp]) once

/-- Replacing the password again, or coming to revoke the sessions, spares
a session that is still stored. -/
theorem Spared.grow {row : SessionRow} (spared : Spared before.history row)
    (stored : ∃ old ∈ before.world.tables.sessions,
      old.id = row.id ∧ old.accountID = row.accountID)
    (kept : ¬revokes row.accountID row.id ⟨op, answer⟩)
    (orderly : Orderly before choice call op)
    (accounts : Accounts (authMachine options)
      (licence options.applyDefaults) before after call op choice answer) :
    Spared after.history row := by
  obtain ⟨login, input, found, opened, earlier, later, request, account,
    id, verified, split, insert, spares⟩ := spared
  refine ⟨login, input, found, opened, earlier,
    later ++ [⟨call, ⟨op, answer⟩⟩], request, account, id, verified, ?_,
    List.mem_append_left _ insert, ?_⟩
  · rw [accounts.history, split]
    simp
  · rintro ⟨label, event⟩ member replaced accountID except outcome purge
    rw [accounts.history] at purge
    rcases List.mem_append.mp member with old | new
    · rcases List.mem_append.mp purge with earlierPurge | now
      · exact spares _ old replaced _ _ _ earlierPurge
      · cases List.mem_singleton.mp now
        obtain ⟨hash, at', count, rfl⟩ := replaces_eq replaced
        have own : (⟨.updatePassword row.accountID hash at',
            .ok (count + 1)⟩ : AuthEvent) ∈
              ownEvents label before.history := by
          rw [split]
          exact mem_ownEvents.mpr
            (List.mem_append_right _ (List.mem_cons_of_mem _ old))
        obtain rfl := accounts.licensed.2 _ _ _ _ own
        by_contra different
        obtain ⟨stored, listed, sameID, sameAccount⟩ := stored
        rcases orderly.2 _ rfl with succeeds | spared
        · have done : outcome = none := by
            have handled := handled_of_accounts accounts
            rw [AuthHost.handle, AuthHost.execute, succeeds] at handled
            exact (Prod.mk.inj (Option.some.inj handled)).1.symm
          exact kept ⟨done, rfl, fun same => different same.symm⟩
        · exact different (sameID ▸ (spared stored listed sameAccount).symm)
    · cases List.mem_singleton.mp new
      obtain ⟨hash, at', count, event⟩ := replaces_eq replaced
      cases event
      rcases List.mem_append.mp purge with earlierPurge | now
      · have avoided := accounts.licensed.2.2 _
          (mem_ownEvents.mpr earlierPurge)
        cases avoided
      · cases List.mem_singleton.mp now

theorem Guarded.rows_step (guarded : Guarded before)
    (orderly : Orderly before choice call op)
    (accounts : Accounts (authMachine options)
      (licence options.applyDefaults) before after call op choice answer) :
    ∀ row ∈ after.world.tables.sessions, Spared after.history row := by
  intro row member
  obtain ⟨origin, kept⟩ :=
    handle_sessions (handled_of_accounts accounts) row member
  cases origin with
  | kept old =>
      exact (guarded.rows row old).grow ⟨row, old, rfl, rfl⟩ kept orderly
        accounts
  | touched old now listed touch stamp =>
      subst stamp
      exact ((guarded.rows old listed).of_same rfl rfl).grow
        ⟨old, listed, rfl, rfl⟩ kept orderly accounts
  | inserted insert =>
      cases insert
      obtain ⟨-, minting, rfl, behind⟩ := accounts.licensed
      obtain ⟨earlier, later, split⟩ :=
        List.append_of_mem (mem_ownEvents.mp behind.lookup)
      have since := sinceLookup_eq accounts.lawful split
      refine ⟨call, minting.input, minting.found, _, earlier,
        later ++ [⟨call, ⟨.insertSession _, none⟩⟩], behind.request,
        behind.account.symm, rfl, behind.verified, ?_,
        List.mem_append_right _ List.mem_cons_self, ?_⟩
      · rw [accounts.history, split]
        simp
      · intro performed member replaced accountID except outcome purge
        rw [accounts.history] at purge
        exfalso
        rcases List.mem_append.mp member with old | new
        · rcases List.mem_append.mp purge with earlierPurge | now
          · apply orderly.1 _ rfl
            refine ⟨performed, ?_, replaced, _, earlierPurge, rfl, rfl⟩
            rw [since]
            exact old
          · cases List.mem_singleton.mp now
        · cases List.mem_singleton.mp new
          cases replaced

/-- An orderly operation keeps the sessions guarded. -/
theorem Guarded.step (guarded : Guarded before)
    (orderly : Orderly before choice call op)
    (accounts : Accounts (authMachine options)
      (licence options.applyDefaults) before after call op choice answer) :
    Guarded after := by
  have handled := handled_of_accounts accounts
  have sequence := (handle_accounts handled).2
  refine ⟨guarded.rows_step orderly accounts, ?_,
    guarded.hashes_step accounts, ?_, ?_, ?_⟩
  · rw [accounts.history]
    apply guarded.reads.snoc
    intro hash row same
    cases same
    obtain ⟨-, found⟩ := AuthHost.select_same handled
    exact guarded.rows row (lookup_mem (found _ rfl).symm).1
  · rw [accounts.history]
    apply guarded.lookups.snoc
    intro username row same
    cases same
    obtain ⟨-, found⟩ := AuthHost.select_same handled
    exact guarded.hashes row (List.mem_of_find?_eq_some (found _ rfl).symm)
  · exact handle_known handled guarded.known
  · intro performed member id replaced
    rw [accounts.history] at member
    rcases List.mem_append.mp member with old | new
    · exact (guarded.replaced performed old id replaced).trans sequence
    · cases List.mem_singleton.mp new
      obtain ⟨hash, now, count, event⟩ := replaces_eq replaced
      cases event
      rcases AuthHost.change_cases handled with
        ⟨-, error, failed⟩ | ⟨done, -⟩
      · cases failed
      · obtain ⟨row, listed, rfl⟩ :=
          exists_of_affected (Except.ok.inj done).symm
        exact (guarded.known row listed).trans sequence

end Steps

/-! ## Every run -/

theorem guarded_initial [PasswordHashing] (start : Time) :
    Guarded (AuthPool.initial start).world where
  rows := fun _ member => by cases member
  reads := atEach_nil
  hashes := fun _ member => by cases member
  lookups := atEach_nil
  known := fun _ member => by cases member
  replaced := fun _ member => by cases member

section Runs

variable [Build] [PasswordHashing] (options : AuthOptions)

/-- In every orderly run the calls are accounted for and the sessions are
guarded. -/
theorem authRun_guarded (start : Time)
    (moves : List (Action AuthRequest AuthChoice Unit))
    (orderly : Runs.Meets (authMachine options).recorded.step
      (OnAdvance Orderly) (Machine.numbered AuthCall.mk 0 moves)
      (AuthPool.initial start)) :
    Accounted (licence options.applyDefaults)
        (returns options.applyDefaults) (authRun options start moves) ∧
      Guarded (authRun options start moves).world := by
  apply recorded_invariant (licensed_program options.applyDefaults)
  · intro before after call op choice answer orderly guarded accounts
    exact guarded.step orderly accounts
  · intro _ recorded guarded
    exact ⟨guarded.rows, guarded.reads, guarded.hashes, guarded.lookups,
      guarded.known, guarded.replaced⟩
  · exact accounted_idle _
  · exact guarded_initial start
  · have labelled : ∀ number request,
        (AuthCall.mk number request).number = number :=
      fun _ _ => rfl
    exact Machine.meets_numbered labelled moves
      (fun _ none => by cases none)
  · exact orderly

variable {options} {pool : AuthPool}

/-- A call that has replaced a password and returned has come to revoke
the sessions. -/
theorem purged_of_returned
    (accounted : Accounted (licence options.applyDefaults)
      (returns options.applyDefaults) pool)
    {changer : AuthCall} {done : AuthPast} {value : AuthResult}
    (returned : ⟨changer, done, .ret value⟩ ∈ pool.threads)
    {event : AuthEvent} {id : Int} (performed : event ∈ done)
    (replaced : replaces id event = true) :
    ∃ accountID spared answer,
      (⟨.deleteSessionsForAccount accountID spared, answer⟩ :
        AuthEvent) ∈ done := by
  obtain ⟨hash, now, count, rfl⟩ := replaces_eq replaced
  have own : done = ownEvents changer pool.world.history :=
    accounted.past _ returned
  have listed := performed
  rw [own] at listed
  obtain ⟨_, _, _, changes, -⟩ :=
    accounted.lawful.of_mem (mem_ownEvents.mp listed)
  have ends : returns options.applyDefaults changer done value :=
    accounted.licensed _ returned
  have purged : Purged done := by
    obtain ⟨number, request⟩ := changer
    cases request with
    | changePassword token current new requestID sourceIP =>
        cases value with
        | changed outcome => exact ends
        | _ => cases ends
    | resetPassword username new actor requestID =>
        cases value with
        | done outcome => exact ends
        | _ => cases ends
    | _ => cases changes
  by_contra none
  apply purged _ _ _ _ performed
  rintro ⟨op, answer⟩ member
  by_contra purge
  cases op with
  | deleteSessionsForAccount accountID spared =>
      exact none ⟨accountID, spared, answer, member⟩
  | _ => exact purge rfl

/-- A session that a call spares when it revokes the others is the one
that the call was made through. -/
theorem madeThrough
    (accounted : Accounted (licence options.applyDefaults)
      (returns options.applyDefaults) pool)
    {changer : AuthCall} {done : AuthPast} {value : AuthResult}
    (returned : ⟨changer, done, .ret value⟩ ∈ pool.threads)
    {accountID : Int} {id : String} {answer : Option GoError}
    (purge : (⟨.deleteSessionsForAccount accountID id, answer⟩ :
      AuthEvent) ∈ done) (named : id ≠ "") :
    MadeThrough changer done id := by
  have own : done = ownEvents changer pool.world.history :=
    accounted.past _ returned
  rw [own] at purge
  obtain ⟨before, after, split, spares, -⟩ :=
    accounted.lawful.of_mem (mem_ownEvents.mp purge)
  change Spares changer (ownEvents changer before) id at spares
  cases presented : changer.request.token? with
  | none =>
      rw [Spares, presented] at spares
      exact absurd spares named
  | some token =>
      rw [Spares, presented] at spares
      obtain ⟨row, rfl, member⟩ := spares
      refine ⟨by rw [presented]; exact Option.some_ne_none _,
        ⟨.selectSession (hashToken token), .ok (some row)⟩, ?_, ?_⟩
      · rw [own, split, ownEvents_append]
        exact List.mem_append_left _ member
      · exact decide_eq_true rfl

/-- In an orderly run a replaced password has cut the sessions off. -/
theorem password_change_cuts_off (options : AuthOptions) (start : Time)
    (moves : List (Action AuthRequest AuthChoice Unit))
    (orderly : Runs.Meets (authMachine options).recorded.step
      (OnAdvance Orderly) (Machine.numbered AuthCall.mk 0 moves)
      (AuthPool.initial start)) :
    CutOff (authRun options start moves) := by
  intro call past token session account _ _ before after row reading scanned
    changer done value returned complete earlier later event split replaced
  obtain ⟨accounted, guarded⟩ := authRun_guarded options start moves orderly
  obtain ⟨-, traced⟩ := authRun_traced options start moves
  obtain ⟨sameID, sameAccount, -, -⟩ := scanSession_ok scanned
  obtain ⟨login, input, found, opened, first, second, request, account',
    id, verified, lookup, insert, spares⟩ :=
      guarded.reads _ _ _ reading _ row rfl
  rw [sameAccount] at replaced
  have apart : (⟨login, ⟨.selectAccountByUsername input.username,
      .ok (some found)⟩⟩ : AuthPerformed) ≠ ⟨changer, event⟩ := by
    intro same
    cases same
    cases replaced
  rcases split_order apart (lookup.symm.trans split) with
    behind | ⟨middle, rfl, rfl⟩
  · left
    have own : event ∈ done := by
      rw [← complete, split]
      exact mem_ownEvents.mpr
        (List.mem_append_right _ List.mem_cons_self)
    obtain ⟨accountID, spared, answer, purge⟩ :=
      purged_of_returned accounted returned own replaced
    rw [← complete] at purge
    have same := spares _ behind replaced _ _ _ (mem_ownEvents.mp purge)
    subst same
    rw [complete] at purge
    rw [sameID]
    apply madeThrough accounted returned purge
    have inserted : (⟨login, ⟨.insertSession opened, none⟩⟩ :
        AuthPerformed) ∈ (authRun options start moves).world.history := by
      rw [reading, lookup]
      exact List.mem_append_left _
        (List.mem_append_right _ (List.mem_cons_of_mem _ insert))
    rw [← id]
    exact (traced.drawn _ _ (traced.inserts _ _ inserted)).2
  · right
    rw [sameAccount, sameID]
    have current := guarded.lookups
      (earlier ++ ⟨changer, event⟩ :: middle)
      ⟨login, ⟨.selectAccountByUsername input.username,
        .ok (some found)⟩⟩
      (second ++ ⟨call, ⟨.selectSession (hashToken token),
        .ok (some row)⟩⟩ :: after)
      (by rw [reading, lookup]; simp) input.username found rfl
    rw [← account'] at replaced ⊢
    obtain ⟨written, member, writes⟩ := current _ _ _ rfl replaced
    refine ⟨login, input, found, opened, request, rfl, id, ?_, ?_,
      verified, written, List.mem_append_left (_ :: second) member, writes⟩
    · exact List.mem_append_right (_ :: middle)
        (List.mem_cons_of_mem _ insert)
    · exact List.mem_append_right (_ :: middle) List.mem_cons_self

end Runs

/-- The session that an event has read, with its call and its hash. -/
def sessionRead : AuthPerformed → Option (AuthCall × String × SessionRow)
  | ⟨call, ⟨.selectSession hash, answer⟩⟩ =>
      match answer with
      | .ok (some row) => some (call, hash, row)
      | _ => none
  | _ => none

theorem sessionRead_eq {performed : AuthPerformed} {call : AuthCall}
    {hash : String} {row : SessionRow}
    (read : sessionRead performed = some (call, hash, row)) :
    performed = ⟨call, ⟨.selectSession hash, .ok (some row)⟩⟩ := by
  obtain ⟨label, op, answer⟩ := performed
  cases op with
  | selectSession other =>
      rcases answer with error | _ | found
      · cases read
      · cases read
      · cases read
        rfl
  | _ => cases read

/-- The call at a place of the pool, once it has returned. -/
def returnedBy (pool : AuthPool) (index : Nat) : Option AuthCall :=
  match pool.threads[index]? with
  | some ⟨call, _, .ret _⟩ => some call
  | _ => none

theorem returnedBy_mem {pool : AuthPool} {index : Nat} {call : AuthCall}
    (returned : returnedBy pool index = some call) :
    ∃ past value, ⟨call, past, .ret value⟩ ∈ pool.threads := by
  unfold returnedBy at returned
  split at returned
  · rename_i found
    cases returned
    exact ⟨_, _, List.mem_of_getElem? found⟩
  · cases returned

/-- A validation has accepted a session behind a returned call that has
replaced the password and was made through no session, and nobody has
looked an account up since. -/
def SlipsThrough [Build] (pool : AuthPool) (validator read changer : Nat)
    (replaced : Nat) (call : AuthCall) (token : String)
    (session : AdminSession) (by' : AuthCall) : Prop :=
  (call.request = .validateSession token ∧
    validatedBy pool validator = some (call, session) ∧
    pool.world.history[read]?.bind sessionRead =
      some (call, hashToken token, session.row) ∧
    (scanSession session.row).toOption = some session) ∧
  (returnedBy pool changer = some by' ∧ by'.request.token? = none ∧
    pool.world.history[replaced]?.map
      (fun performed => (performed.label,
        replaces session.accountID performed.event)) = some (by', true) ∧
    replaced < read) ∧
  (∀ performed ∈ pool.world.history.drop read, performed.label ≠ by') ∧
  ∀ performed ∈ (pool.world.history.take read).drop replaced,
    looksUp performed.event.op = false

instance [Build] (pool : AuthPool) (validator read changer : Nat)
    (replaced : Nat) (call : AuthCall) (token : String)
    (session : AdminSession) (by' : AuthCall) :
    Decidable (SlipsThrough pool validator read changer replaced call token
      session by') :=
  inferInstanceAs (Decidable (_ ∧ _))

section Slips

variable [Build] [PasswordHashing] {options : AuthOptions}
variable {pool : AuthPool}

theorem SlipsThrough.not_cutOff
    (accounted : Accounted (licence options) (returns options) pool)
    {validator read changer replaced : Nat} {call by' : AuthCall}
    {token : String} {session : AdminSession}
    (slips : SlipsThrough pool validator read changer replaced call token
      session by') : ¬CutOff pool := by
  intro cutOff
  obtain ⟨⟨request, validated, reads, scans⟩,
    ⟨returns, apart, replaces, behind⟩, silent, quiet⟩ := slips
  obtain ⟨past, account, accepted⟩ := validatedBy_mem validated
  obtain ⟨done, value, returned⟩ := returnedBy_mem returns
  obtain ⟨reading, found, read'⟩ := Option.bind_eq_some_iff.mp reads
  rw [sessionRead_eq read'] at found
  have split := split_at found
  have complete : ownEvents by' (pool.world.history.take read) = done := by
    have none : ownEvents by' (pool.world.history.drop read) = [] := by
      rw [List.eq_nil_iff_forall_not_mem]
      intro event member
      exact silent _ (mem_ownEvents.mp member) rfl
    have own : done = ownEvents by' pool.world.history :=
      accounted.past _ returned
    rw [own, ← List.take_append_drop read pool.world.history,
      ownEvents_append, none, List.append_nil, List.take_append_drop]
  obtain ⟨⟨label, event⟩, placed, facts⟩ :=
    Option.map_eq_some_iff.mp replaces
  obtain ⟨same, replaced'⟩ := Prod.mk.inj facts
  dsimp only at same replaced'
  subst same
  have earlier : (pool.world.history.take read)[replaced]? =
      some ⟨label, event⟩ := by
    rw [List.getElem?_take_of_lt behind, placed]
  have parts := split_at earlier
  have scanned : scanSession session.row = .ok session := by
    cases outcome : scanSession session.row with
    | error error =>
        rw [outcome] at scans
        cases scans
    | ok other =>
        rw [outcome] at scans
        rw [Option.some.inj scans]
  rcases cutOff request accepted split scanned returned complete parts
      replaced' with made | verified
  · exact made.1 apart
  · obtain ⟨login, input, account, row, -, -, -, -, lookup, -⟩ := verified
    have rest : (pool.world.history.take read).drop replaced =
        ⟨label, event⟩ ::
          (pool.world.history.take read).drop (replaced + 1) := by
      obtain ⟨bound, same⟩ := List.getElem?_eq_some_iff.mp earlier
      rw [List.drop_eq_getElem_cons bound, same]
    rw [← rest] at lookup
    cases quiet _ lookup

end Slips

/-- An account is created, and a login looks it up. -/
def lookedUpMoves : List (Action AuthRequest AuthChoice Unit) :=
  alone (.createAccount "admin" "correct horse" "cli" "") 0 0
      ["salt", "", "", "", ""] ++
    alone (.login {
        username := "admin"
        password := "correct horse"
        sourceIP := "" }) 1 (60 * 1000000000)
      ["", "", ""]

/-- The password is reset. -/
def resetMoves (index : Nat) : List (Action AuthRequest AuthChoice Unit) :=
  alone (.resetPassword "admin" "battery staple" "cli" "") index
    (120 * 1000000000) ["", "salt", "", "", "", ""]

/-- A login goes on to mint its session. -/
def mintingMoves : List (Action AuthRequest AuthChoice Unit) :=
  ["", "", "token", "csrf", sampleID, "", "", "", ""].mapIdx
    fun second text => .advance 1 {
      time := (180 + second) * 1000000000
      text := text }

/-- The reset runs while the login verifies the old password. -/
def overtakenMoves : List (Action AuthRequest AuthChoice Unit) :=
  lookedUpMoves ++ resetMoves 2 ++ mintingMoves ++
    alone (.validateSession "token") 3 (240 * 1000000000)
      ["", "", "", ""]

def overtakenPool : AuthPool :=
  @authRun Build.dev .plain {} 0 overtakenMoves

/-- The session that was minted from the old password. -/
def overtakenSession : AdminSession where
  id := sampleID
  accountID := 1
  tokenHash := hashToken "token"
  csrfToken := "csrf"
  createdAt := 60 * 1000000000
  expiresAt := (60 + 7 * 24 * 60 * 60) * 1000000000
  lastSeenAt := 60 * 1000000000
  sourceIP := ""
  userAgent := ""

theorem overtaken_slipsThrough :
    @SlipsThrough Build.dev overtakenPool 3 24 2 11
      ⟨3, .validateSession "token"⟩ "token" overtakenSession
      ⟨2, .resetPassword "admin" "battery staple" "cli" ""⟩ := by
  decide +kernel

/-- A login that is overtaken by a reset mints a session from the old
password. -/
theorem overtaken_login_survives :
    ¬@CutOff Build.dev .plain
      (@authRun Build.dev .plain {} 0 overtakenMoves) := by
  have traced := @authRun_traced Build.dev .plain {} 0 overtakenMoves
  exact @SlipsThrough.not_cutOff Build.dev .plain _ overtakenPool traced.1
    3 24 2 11 _ _ _ _ overtaken_slipsThrough

/-- A login mints its session, the password is reset, and the session is
refused. -/
def orderlyMoves : List (Action AuthRequest AuthChoice Unit) :=
  lookedUpMoves ++ mintingMoves ++ resetMoves 2 ++
    alone (.validateSession "token") 3 (240 * 1000000000) ["", ""]

theorem reset_cuts_off :
    @CutOff Build.dev .plain
      (@authRun Build.dev .plain {} 0 orderlyMoves) := by
  apply @password_change_cuts_off Build.dev .plain
  decide +kernel

end Xoxproxy.Auth
