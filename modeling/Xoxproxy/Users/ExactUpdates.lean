import Xoxproxy.Users.Interleaving

/-!
# No update of a user is lost

Every mutation of the service reads the user, computes, and writes under
the version it has read.  Whatever runs in between, a write that takes
effect replaces the mutation's own columns of the current row and nothing
else.
-/

namespace Xoxproxy

open EffectPrograms EffectPrograms.Program RowTables Transactions

/-- An update that has counted a row has written it. -/
theorem exactWrite_counted
    {database : Database} (consistent : Consistent database)
    {id version : Int} {time : Time} {write : UserRow → UserRow}
    (kept : ∀ row, (write row).id = row.id) {affected : Nat}
    (counted :
      (database.updateUserRow id version time write).1 = affected + 1) :
    ExactWrite database (database.updateUserRow id version time write).2
      id version time write := by
  have found : database.users.countP (rowHas id version) ≠ 0 := by
    simp only [Database.updateUserRow] at counted
    omega
  exact exactWrite_update consistent kept found rfl

section Writes

variable [Build]
variable {call : UserCall}
variable {past : List (Event UserOp UserOp.Answer)}
variable {now : UserHost} {choice : UserChoice}
variable {id : Int} {current : ProxyUser} {row : UserRow}

/-- The row that the call has read, as long as its version lasts. -/
theorem HasRead.writes
    (hasRead : HasRead id current row past now)
    (sound : Sound now.database) {input : UpdateInput} {found : UserRow}
    (present : now.database.userRow id = some found)
    (based : found.version = current.version) :
    found.writeUser (input.merge current) = input.writeRow found := by
  obtain ⟨listed, foundId⟩ := lookup_mem present
  have sameId : found.id = row.id := foundId.trans hasRead.rowId.symm
  have sameVersion : row.version = found.version := by
    rw [based]
    exact hasRead.scanned.version.symm
  have same := (hasRead.remembers.later found listed sameId).2 sameVersion
  have scanned : Scanned found current := by
    rw [same]
    have read := hasRead.scanned
    exact ⟨read.id, read.username, read.status, read.protocols,
      read.downloadBPS, read.uploadBPS, read.maxConnections,
      read.quotaBytesDaily, read.quotaBytesMonthly, read.version,
      read.expiresAt⟩
  exact writeUser_merge (sound.rows found listed) scanned input

theorem permitted_updateUser
    {input : UpdateInput} {order : MapOrder} {time : Time}
    (requested : call.request = .update id input)
    (version : input.version = current.version)
    (accepted : validateMutated order (input.merge current) = none)
    (hasRead : HasRead id current row past now)
    (sound : Sound now.database) :
    Permitted call past (.updateUser (input.merge current) time) choice
      now := by
  have userId : (input.merge current).id = id :=
    hasRead.scanned.id.trans hasRead.rowId
  have userVersion : (input.merge current).version = input.version :=
    version.symm
  have updates : Updates fun old : UserRow =>
      (old.writeUser (input.merge current)).touch time :=
    updates_touch (fun _ => rfl) (fun _ => rfl) fun _ => rfl
  obtain ⟨protocols, limits⟩ :=
    (validateMutated_eq_none_iff order _).mp accepted
  have handled : now.handle (.updateUser (input.merge current) time)
      choice =
      UserHost.change choice now
        (now.database.updateUserRow id input.version time
          fun old => old.writeUser (input.merge current)) := by
    rw [← userId, ← userVersion]
    rfl
  rcases UserHost.change_cases choice now (now.database.updateUserRow id
      input.version time fun old => old.writeUser (input.merge current))
    with ⟨error, failed⟩ | done
  · have outcome := handled.trans failed
    refine ⟨?_, ?_, ?_⟩
    · rw [outcome]
      intro affected impossible
      cases impossible
    · rw [outcome]
      exact Develops.refl _
    · rw [outcome]
      exact sound
  · have outcome := handled.trans done
    refine ⟨?_, ?_, ?_⟩
    · rw [outcome]
      intro affected counted
      have exactly : ExactWrite now.database
          (now.database.updateUserRow id input.version time
            fun old => old.writeUser (input.merge current)).2
          id input.version time
          fun old => old.writeUser (input.merge current) :=
        exactWrite_counted sound.consistent (fun _ => rfl)
          (Except.ok.inj counted)
      refine ⟨id, input, requested, exactly.congr ?_⟩
      intro found present based
      exact hasRead.writes sound present (based.trans version)
    · rw [outcome]
      exact develops_updateUsers updates
    · rw [outcome]
      exact sound.updateUsers updates fun old held =>
        (held.writeUser protocols limits).touch time

theorem permitted_setUserStatus
    {status : UserStatus} {version : Int} {time : Time}
    (requested :
      call.request = .enable id version ∧ status = .active ∨
        call.request = .disable id version ∧ status = .disabled)
    (sound : Sound now.database) :
    Permitted call past (.setUserStatus id status version time) choice
      now := by
  have updates : Updates fun old : UserRow =>
      (old.writeStatus status).touch time :=
    updates_touch (fun _ => rfl) (fun _ => rfl) fun _ => rfl
  have handled : now.handle (.setUserStatus id status version time)
      choice =
      UserHost.change choice now
        (now.database.updateUserRow id version time
          fun old => old.writeStatus status) := rfl
  rcases UserHost.change_cases choice now (now.database.updateUserRow id version
      time fun old => old.writeStatus status) with ⟨error, failed⟩ | done
  · have outcome := handled.trans failed
    refine ⟨?_, ?_, ?_⟩
    · rw [outcome]
      intro affected impossible
      cases impossible
    · rw [outcome]
      exact Develops.refl _
    · rw [outcome]
      exact sound
  · have outcome := handled.trans done
    refine ⟨?_, ?_, ?_⟩
    · rw [outcome]
      intro affected counted
      exact ⟨requested, exactWrite_counted sound.consistent
        (fun _ => rfl) (Except.ok.inj counted)⟩
    · rw [outcome]
      exact develops_updateUsers updates
    · rw [outcome]
      exact sound.updateUsers updates fun old held =>
        (held.writeStatus status).touch time

theorem permitted_rotateCredential
    {password : String} {next : Credential} {time : Time}
    (requested : call.request = .rotateCredentials id password)
    (hash : engineHashRe next.engineHash = true)
    (hasRead : HasRead id current row past now)
    (sound : Sound now.database) :
    Permitted call past (.rotateCredential id next current.version time)
      choice now := by
  have handled :
      now.handle (.rotateCredential id next current.version time)
        choice =
      UserHost.transact choice now
        (rotateStatements id next current.version time) := rfl
  rcases UserHost.transact_cases choice now
      (rotateStatements id next current.version time) with
    ⟨error, failed⟩ | ⟨after, committed, done⟩
  · have outcome := handled.trans failed
    refine ⟨?_, ?_, ?_⟩
    · rw [outcome]
      intro impossible
      cases impossible
    · rw [outcome]
      exact Develops.refl _
    · rw [outcome]
      exact sound
  · have outcome := handled.trans committed
    obtain ⟨found, changed⟩ := rotate_committed done
    refine ⟨?_, ?_, ?_⟩
    · rw [outcome]
      intro _
      have users : after.users =
          updateWhere (rowHas id current.version)
            (fun old => old.touch time) now.database.users := by
        rw [changed]
        rfl
      refine ⟨⟨password, requested⟩, ⟨row, hasRead.selected, ?_⟩, ?_⟩
      · exact hasRead.scanned.version.symm
      · exact exactWrite_update sound.consistent (fun _ => rfl) found
          users
    · rw [outcome]
      exact develops_rotate done
    · rw [outcome]
      exact sound.rotate done hash

theorem permitted_deleteUser (sound : Sound now.database) :
    Permitted call past (.deleteUser id) choice now := by
  have handled : now.handle (.deleteUser id) choice =
      UserHost.change choice now (now.database.deleteUser id) := rfl
  rcases UserHost.change_cases choice now (now.database.deleteUser id) with
    ⟨error, failed⟩ | done
  · refine ⟨trivial, ?_, ?_⟩
    · rw [handled.trans failed]
      exact Develops.refl _
    · rw [handled.trans failed]
      exact sound
  · refine ⟨trivial, ?_, ?_⟩
    · rw [handled.trans done]
      exact develops_deleteUser id
    · rw [handled.trans done]
      exact sound.deleteUser id

theorem permitted_sweepExpired
    {time : Time} (sound : Sound now.database) :
    Permitted call past (.sweepExpired time) choice now := by
  have updates : Updates fun old : UserRow =>
      (old.writeStatus .expired).touch time :=
    updates_touch (fun _ => rfl) (fun _ => rfl) fun _ => rfl
  have handled : now.handle (.sweepExpired time) choice =
      UserHost.change choice now (now.database.sweepExpired time) := rfl
  rcases UserHost.change_cases choice now (now.database.sweepExpired time) with
    ⟨error, failed⟩ | done
  · refine ⟨trivial, ?_, ?_⟩
    · rw [handled.trans failed]
      exact Develops.refl _
    · rw [handled.trans failed]
      exact sound
  · refine ⟨trivial, ?_, ?_⟩
    · rw [handled.trans done]
      exact develops_updateUsers updates
    · rw [handled.trans done]
      exact sound.updateUsers updates fun old held =>
        (held.writeStatus .expired).touch time

theorem permitted_createUser
    {user : ProxyUser} {initial : Credential}
    (username : ValidUsername user.username)
    (protocols : ValidProtocols user.allowedProtocols)
    (limits :
      ValidLimits user.downloadBPS user.uploadBPS user.maxConnections
        user.quotaBytesDaily user.quotaBytesMonthly)
    (hash : engineHashRe initial.engineHash = true)
    (sound : Sound now.database) :
    Permitted call past (.createUser user initial) choice now := by
  have handled : (now.handle (.createUser user initial) choice).2 =
      (UserHost.transact choice now
        (createUserStatements user initial)).2 := rfl
  rcases UserHost.transact_cases choice now
      (createUserStatements user initial) with
    ⟨error, failed⟩ | ⟨after, committed, done⟩
  · refine ⟨trivial, ?_, ?_⟩
    · rw [handled, failed]
      exact Develops.refl _
    · rw [handled, failed]
      exact sound
  · refine ⟨trivial, ?_, ?_⟩
    · rw [handled, committed]
      exact develops_createUser done
    · rw [handled, committed]
      exact sound.createUser done username protocols limits hash

end Writes

/-! ## Calls -/

section Calls

variable [Build] [Blake2b]
variable {call : UserCall} {id : Int} {actor : Actor}
variable {past : List (Event UserOp UserOp.Answer)} {host : UserHost}

theorem update_orderly
    {input : UpdateInput} (requested : call.request = .update id input)
    (sound : Sound host.database) :
    Orderly call (fun _ _ _ => True) (update id input actor) past
      host := by
  refine ensures_bind sound getUserByID_orderly ?_
  intro past value now sound read
  cases value with
  | error error => exact orderly_end (all_ret _)
  | ok current =>
      obtain ⟨row, hasRead⟩ := read current rfl
      by_cases stale : input.version = 0 ∨ input.version ≠ current.version
      · simp only [if_pos stale]
        exact orderly_end (all_ret _)
      · simp only [if_neg stale]
        have version : input.version = current.version := by omega
        have steady := steady_hasRead id current row
        apply orderly_invoke steady sound hasRead
        · exact trivial
        intro order past now hasRead sound
        cases accepted : validateMutated order (input.merge current) with
        | some error => exact orderly_end (all_ret _)
        | none =>
            change Orderly call _
              (invoke .now >>= fun time =>
                invoke (.updateUser (input.merge current) time) >>=
                  fun affected =>
                    afterUpdate (input.merge current).id affected >>=
                      announce actor "user.update" current.username
                        (updateSummary current)) past now
            apply orderly_invoke steady sound hasRead
            · exact trivial
            intro time past now hasRead sound
            apply orderly_write steady hasRead
            · intro now choice hasRead sound
              exact permitted_updateUser requested version accepted
                hasRead sound
            · intro affected
              exact all_bind (afterUpdate_quiet _ _)
                fun outcome => announce_quiet _ _ _ _ outcome

theorem transition_orderly
    {status : UserStatus} {version : Int} {action : String}
    (requested :
      call.request = .enable id version ∧ status = .active ∨
        call.request = .disable id version ∧ status = .disabled)
    (sound : Sound host.database) :
    Orderly call (fun _ _ _ => True)
      (transition id status version actor action) past host := by
  refine ensures_bind sound getUserByID_orderly ?_
  intro past value now sound _
  cases value with
  | error error => exact orderly_end (all_ret _)
  | ok current =>
      change Orderly call _
        (invoke .now >>= fun time =>
          invoke (.setUserStatus id status version time) >>= fun affected =>
            afterUpdate id affected >>=
              announce actor action current.username fun _ => "") past
        now
      apply orderly_invoke steady_trivial sound trivial
      · exact trivial
      intro time past now _ sound
      apply orderly_write steady_trivial trivial
      · intro now choice _ sound
        exact permitted_setUserStatus requested sound
      · intro affected
        exact all_bind (afterUpdate_quiet _ _)
          fun outcome => announce_quiet _ _ _ _ outcome

theorem enable_orderly
    {version : Int} (requested : call.request = .enable id version)
    (sound : Sound host.database) :
    Orderly call (fun _ _ _ => True) (enable id version actor) past
      host := by
  have transition {past : List (Event UserOp UserOp.Answer)}
      {now : UserHost} (sound : Sound now.database) :
      Orderly call (fun _ _ _ => True)
        (transition id .active version actor "user.enable") past now :=
    transition_orderly (Or.inl ⟨requested, rfl⟩) sound
  refine ensures_bind sound getUserByID_orderly ?_
  intro past value now sound _
  cases value with
  | error error => exact orderly_end (all_ret _)
  | ok current =>
      cases expires : current.expiresAt with
      | none =>
          simp only [expires]
          exact transition sound
      | some expiresAt =>
          simp only [expires]
          apply orderly_invoke steady_trivial sound trivial
          · exact trivial
          intro time past now _ sound
          by_cases expired : expiresAt ≤ time
          · rw [if_pos expired]
            exact orderly_end (all_ret _)
          · rw [if_neg expired]
            exact transition sound

theorem delete_orderly (sound : Sound host.database) :
    Orderly call (fun _ _ _ => True) (delete id actor) past host := by
  refine ensures_bind sound getUserByID_orderly ?_
  intro past value now sound _
  cases value with
  | error error => exact orderly_end (all_ret _)
  | ok current =>
      apply orderly_write steady_trivial trivial
      · intro now choice _ sound
        exact permitted_deleteUser sound
      · intro affected
        rcases affected with error | _ | affected
        · exact all_ret _
        · exact all_ret _
        · exact ⟨trivial, fun _ => ⟨trivial, fun _ => trivial⟩⟩

theorem sweepExpired_orderly (sound : Sound host.database) :
    Orderly call (fun _ _ _ => True) sweepExpired past host := by
  apply orderly_invoke steady_trivial sound trivial
  · exact trivial
  intro time past now _ sound
  apply orderly_write steady_trivial trivial
  · intro now choice _ sound
    exact permitted_sweepExpired sound
  · intro affected
    rcases affected with error | _ | affected
    · exact all_ret _
    · exact all_ret _
    · exact ⟨trivial, fun _ => ⟨trivial, fun _ => trivial⟩⟩

theorem rotateCredentials_orderly
    {password : String}
    (requested : call.request = .rotateCredentials id password)
    (sound : Sound host.database) :
    Orderly call (fun _ _ _ => True)
      (rotateCredentials id password actor) past host := by
  refine ensures_bind sound getUserByID_orderly ?_
  intro past value now sound read
  cases value with
  | error error => exact orderly_end (all_ret _)
  | ok current =>
      obtain ⟨row, hasRead⟩ := read current rfl
      have steady := steady_hasRead id current row
      apply orderly_then steady
        (replacementPassword_quiet password current.username) sound
        hasRead
      intro replacement past now hasRead sound
      cases replacement with
      | error error => exact orderly_end (all_ret _)
      | ok chosen =>
          refine ensures_bind sound
            (newHashes_orderly steady chosen sound hasRead) ?_
          intro past value now sound known
          obtain ⟨hasRead, accepted⟩ := known
          cases value with
          | error error => exact orderly_end (all_ret _)
          | ok hashes =>
              have hash := accepted hashes rfl
              apply orderly_invoke steady sound hasRead
              · exact trivial
              intro createdAt past now hasRead sound
              apply orderly_invoke steady sound hasRead
              · exact trivial
              intro time past now hasRead sound
              have rotated : Orderly call (fun _ _ _ => True)
                  (rotateCredential id
                    { engineHash := hashes.1, apiHash := hashes.2,
                      createdAt := createdAt } current.version time)
                  past now := by
                apply orderly_write steady hasRead
                · intro now choice hasRead sound
                  exact permitted_rotateCredential requested hash
                    hasRead sound
                · intro outcome
                  rcases outcome with error | done
                  · exact all_ret _
                  · exact getUserByID_quiet id
              refine ensures_bind sound rotated ?_
              intro past outcome now _ _
              exact orderly_end
                (all_bind (announce_quiet _ _ _ _ outcome)
                  fun _ => all_ret _)

theorem create_orderly
    {input : CreateInput} (sound : Sound host.database) :
    Orderly call (fun _ _ _ => True) (create input actor) past host := by
  refine ensures_bind sound (checkNew_orderly sound) ?_
  intro past value now sound accepted
  cases value with
  | some error => exact orderly_end (all_ret _)
  | none =>
      obtain ⟨username, protocols, limits⟩ := accepted rfl
      apply orderly_then steady_trivial
        (choosePassword_quiet input.password) sound trivial
      intro password past now _ sound
      refine ensures_bind sound
        (newHashes_orderly steady_trivial password sound trivial) ?_
      intro past value now sound known
      cases value with
      | error error => exact orderly_end (all_ret _)
      | ok hashes =>
          have hash := known.2 hashes rfl
          apply orderly_invoke steady_trivial sound trivial
          · exact trivial
          intro createdAt past now _ sound
          apply orderly_invoke steady_trivial sound trivial
          · exact trivial
          intro time past now _ sound
          apply orderly_write steady_trivial trivial
          · intro now choice _ sound
            exact permitted_createUser username protocols limits hash
              sound
          · intro outcome
            apply all_bind
            · cases outcome <;> exact all_ret _
            · intro outcome
              exact announceCreated_quiet _ _ _ outcome

/-- Every call keeps the discipline. -/
theorem program_orderly
    (call : UserCall) (sound : Sound host.database) :
    Orderly call (fun _ _ _ => True) call.program past host := by
  unfold UserCall.program
  cases requested : call.request with
  | create input =>
      exact ensures_bind sound (create_orderly sound)
        fun _ _ _ _ _ => orderly_end (all_ret _)
  | update id input =>
      exact ensures_bind sound (update_orderly requested sound)
        fun _ _ _ _ _ => orderly_end (all_ret _)
  | enable id version =>
      exact ensures_bind sound (enable_orderly requested sound)
        fun _ _ _ _ _ => orderly_end (all_ret _)
  | disable id version =>
      exact ensures_bind sound
        (transition_orderly (Or.inr ⟨requested, rfl⟩) sound)
        fun _ _ _ _ _ => orderly_end (all_ret _)
  | rotateCredentials id password =>
      exact ensures_bind sound (rotateCredentials_orderly requested sound)
        fun _ _ _ _ _ => orderly_end (all_ret _)
  | delete id =>
      exact ensures_bind sound (delete_orderly sound)
        fun _ _ _ _ _ => orderly_end (all_ret _)
  | sweepExpired =>
      exact ensures_bind sound (sweepExpired_orderly sound)
        fun _ _ _ _ _ => orderly_end (all_ret _)

end Calls

/-! ## Runs -/

section Runs

variable [Build] [Blake2b]

theorem userObligations : Obligations userMachine userDiscipline where
  start := fun call _ sound _ => program_orderly call sound
  compatible := fun _ _ _ _ _ guaranteed => guaranteed
  outside := by
    intro flush host sound
    have only := trafficOnly_applyDeltas flush.failure flush.usage
      flush.destinations flush.cursor host.database
    have sound : Sound host.database := sound
    exact ⟨fun _ => only.develops, sound.traffic only⟩

/-- A move of the schedule, with the requests as they arrive. -/
abbrev UserMove := Action (UserRequest × Actor) UserChoice Flush

/-- The calls are told apart by their numbers. -/
def UserCall.numbered (number : Nat) (request : UserRequest × Actor) :
    UserCall :=
  ⟨number, request.1, request.2⟩

/-- The pool after a schedule, from empty tables. -/
def userPool (moves : List UserMove) :
    Pool UserOp UserOp.Answer (Option GoError) UserCall UserHost :=
  Runs.run userMachine.step
    (Machine.numbered UserCall.numbered 0 moves)
    (.idle { database := {} })

theorem userPool_secure (moves : List UserMove) :
    PoolSecure userMachine userDiscipline (userPool moves) := by
  have initial : PoolSecure userMachine userDiscipline
      (.idle { database := {} }) :=
    poolSecure_idle sound_empty fun _ => trivial
  have labelled : ∀ number request,
      UserCall.number (UserCall.numbered number request) = number :=
    fun _ _ => rfl
  exact initial.run userObligations
    (meets_of_unconditional (fun _ _ _ _ _ => trivial)
      (Machine.meets_numbered labelled moves (by simp)))

/-- Whatever the schedule, a write that takes effect replaces the row that
its call has read, and in it only the columns of its own operation. -/
theorem write_takes_effect_exactly
    (moves : List UserMove) {index : Nat} {choice : UserChoice}
    {call : UserCall} {past : List (Event UserOp UserOp.Answer)}
    {op : UserOp} {next : op.Answer → UserProgram (Option GoError)}
    {answer : op.Answer} {after : UserHost}
    (performs :
      userMachine.Performs (userPool moves) index choice call past op
        next answer after) :
    ExactlyWritten call past op answer (userPool moves).world.database
      after.database := by
  have allowed : userDiscipline.Allows (userPool moves)
      (Action.advance index choice :
        Action UserCall UserChoice Flush) :=
    fun _ _ _ _ _ => trivial
  have promised :=
    ((userPool_secure moves).performs allowed performs).1
  have handled : (userPool moves).world.handle op choice =
      (answer, after) :=
    Option.some.inj performs.handled
  change ExactlyWritten call past op
    ((userPool moves).world.handle op choice).1
    (userPool moves).world.database
    ((userPool moves).world.handle op choice).2.database at promised
  rw [handled] at promised
  exact promised

end Runs

def sampleChoice : UserChoice where
  failure := none
  time := 0
  order := .written
  salt := Vector.replicate 16 0
  text := "$argon2id$"

def sampleInput : CreateInput where
  username := "alice"
  password := "correct horse battery"
  protocols := ["http"]
  downloadBPS := 0
  uploadBPS := 0
  maxConnections := 0
  quotaBytesDaily := 0
  quotaBytesMonthly := 0
  expiresAt := none

/-- Alice is created, and another call is about to disable her. -/
def sampleMoves : List UserMove :=
  ([.start (.create sampleInput, ⟨"admin", "", "", ""⟩)] :
      List UserMove) ++
    (List.replicate 6 (.advance 0 sampleChoice) : List UserMove) ++
    ([.start (.disable 1 1, ⟨"admin", "", "", ""⟩),
      .advance 1 sampleChoice, .advance 1 sampleChoice] : List UserMove)

theorem write_takes_effect_exactly_disable :
    let _ := Build.dev
    let _ := Blake2b.upstream
    let host := (userPool sampleMoves).world
    let outcome :=
      host.handle (.setUserStatus 1 .disabled 1 0) sampleChoice
    outcome.2.database.users.map UserRow.version = [2] ∧
      ∃ past,
        ExactlyWritten ⟨1, .disable 1 1, ⟨"admin", "", "", ""⟩⟩ past
          (.setUserStatus 1 .disabled 1 0) outcome.1 host.database
          outcome.2.database := by
  intro dev digest host outcome
  refine ⟨by decide +kernel, ?_⟩
  have upcoming :
      (userPool sampleMoves).threads[1]?.bind Thread.upcoming =
        some (⟨1, .disable 1 1, ⟨"admin", "", "", ""⟩⟩,
          .setUserStatus 1 .disabled 1 0) := by
    decide +kernel
  obtain ⟨past, next, performs⟩ :=
    @Machine.performs_of_upcoming _ _ _ _ _ _ _ userMachine _ _
      sampleChoice _ _ outcome.1 outcome.2 upcoming rfl
  exact ⟨past, write_takes_effect_exactly sampleMoves performs⟩

end Xoxproxy
