import Xoxproxy.Library.RecordedRuns
import Xoxproxy.Users.ActiveCredentials
import Xoxproxy.Users.ExactUpdates

/-!
# Mutations that fail halfway

A mutation of the user service is a read, a versioned write, a read of what
was written, an entry of the audit trail and a call of the hook.  Any of
its operations may fail.  The call does everything or nothing unless the
read behind its write goes wrong.
-/

namespace Xoxproxy

open EffectPrograms RowTables Transactions

/-- Neither the row of a user nor the user's credentials have changed. -/
structure SameRecord (id : Int) (before after : Database) : Prop where
  row : after.userRow id = before.userRow id
  credentials :
    after.credentials.filter (fun row => row.userID = id) =
      before.credentials.filter fun row => row.userID = id

theorem SameRecord.refl (id : Int) (database : Database) :
    SameRecord id database database :=
  ⟨rfl, rfl⟩

/-- The hook has been called with the database as it is now. -/
def Announced (before after : UserHost) : Prop :=
  ∃ calls call, after.hookCalls = before.hookCalls ++ calls ∧
    call ∈ calls ∧ call.database = after.database

/-- A call that returns an error has changed nothing about the user, and a
change is announced. -/
structure AllOrNothing (id : Int) (before : UserHost)
    (error : Option GoError) (after : UserHost) : Prop where
  untouched : error ≠ none →
    SameRecord id before.database after.database
  announced : ¬SameRecord id before.database after.database →
    Announced before after

/-- The mutations of one user. -/
def UserRequest.Mutates (id : Int) : UserRequest → Prop
  | .update target _ | .enable target _ | .disable target _
  | .rotateCredentials target _ => target = id
  | _ => False

/-- A statement or transaction that has written the user. -/
def WritesUser : Event UserOp UserOp.Answer → Prop
  | ⟨.updateUser _ _, .ok (_ + 1)⟩ => True
  | ⟨.setUserStatus _ _ _ _, .ok (_ + 1)⟩ => True
  | ⟨.rotateCredential _ _ _ _, .ok ()⟩ => True
  | _ => False

/-- A read that finds a row and can make sense of it. -/
def ReadsBack [Build] : Event UserOp UserOp.Answer → Prop
  | ⟨.selectUser _, .ok (some row)⟩ => ∃ user, scanUser row = .ok user
  | _ => False

/-- Behind every write the user is read back. -/
def Confirmed [Build] (past : List (Event UserOp UserOp.Answer)) : Prop :=
  ∀ earlier write read later, past = earlier ++ write :: read :: later →
    WritesUser write → ReadsBack read

/-- Nothing has been written. -/
def WritesNothing (past : List (Event UserOp UserOp.Answer)) : Prop :=
  ∀ event ∈ past, ¬WritesUser event

/-- The operation leaves the host as it is. -/
def UserOp.Idle : UserOp → Prop
  | .updateUser _ _ | .setUserStatus _ _ _ _ | .deleteUser _
  | .sweepExpired _ | .createUser _ _ | .rotateCredential _ _ _ _
  | .notify _ _ => False
  | _ => True

theorem writesUser_idle {op : UserOp} (idle : op.Idle) (answer : op.Answer) :
    ¬WritesUser ⟨op, answer⟩ := by
  cases op with
  | updateUser | setUserStatus | rotateCredential => exact idle.elim
  | _ => exact id

theorem WritesNothing.concat {past : List (Event UserOp UserOp.Answer)}
    (nothing : WritesNothing past) {event : Event UserOp UserOp.Answer}
    (idle : ¬WritesUser event) : WritesNothing (past ++ [event]) := by
  intro other listed
  rcases List.mem_append.mp listed with old | new
  · exact nothing other old
  · rw [List.mem_singleton.mp new]
    exact idle

/-- A list has one split at the only item with a property. -/
theorem split_unique {Item : Type} {property : Item → Prop}
    {before behind front back : List Item} {item other : Item}
    (same : before ++ item :: behind = front ++ other :: back)
    (free : ∀ one ∈ before, ¬property one)
    (clean : ∀ one ∈ behind, ¬property one) (holds : property other) :
    behind = back := by
  induction before generalizing front with
  | nil =>
      cases front with
      | nil => exact (List.cons.inj same).2
      | cons head tail =>
          have rest := (List.cons.inj same).2
          have listed : other ∈ behind := by
            rw [rest]
            exact List.mem_append_right _ List.mem_cons_self
          exact absurd holds (clean other listed)
  | cons first before inductionHypothesis =>
      cases front with
      | nil =>
          have head := (List.cons.inj same).1
          rw [← head] at holds
          exact absurd holds (free first List.mem_cons_self)
      | cons head tail =>
          apply inductionHypothesis (List.cons.inj same).2
          exact fun one listed => free one (List.mem_cons_of_mem _ listed)

/-! ## How a mutation ends -/

/-- The repository's answer: it has failed and changed nothing, or it has
written the user and reports what the read behind the write has found. -/
inductive Stored [Build] (id : Int) (host : UserHost)
    (outcome : Except GoError ProxyUser) (now : UserHost)
    (past : List (Event UserOp UserOp.Answer)) : Prop where
  | failed (error : GoError) (reported : outcome = .error error)
      (same : SameRecord id host.database now.database)
      (nothing : WritesNothing past)
  | wrote (earlier : List (Event UserOp UserOp.Answer))
      (write read : Event UserOp UserOp.Answer)
      (split : past = earlier ++ [write, read])
      (hooks : now.hookCalls = host.hookCalls)
      (changed : ¬SameRecord id host.database now.database)
      (free : WritesNothing earlier) (writes : WritesUser write)
      (reads : ¬WritesUser read)
      (reported : ReadsBack read ↔ ∃ user, outcome = .ok user)

/-- The same of a whole mutation, whose success is announced. -/
inductive Ended [Build] {Result : Type} (id : Int) (host : UserHost)
    (outcome : Except GoError Result) (after : UserHost)
    (past : List (Event UserOp UserOp.Answer)) : Prop where
  | failed (error : GoError) (reported : outcome = .error error)
      (same : SameRecord id host.database after.database)
      (nothing : WritesNothing past)
  | wrote (earlier : List (Event UserOp UserOp.Answer))
      (write read : Event UserOp UserOp.Answer)
      (later : List (Event UserOp UserOp.Answer))
      (split : past = earlier ++ write :: read :: later)
      (changed : ¬SameRecord id host.database after.database)
      (free : WritesNothing earlier) (writes : WritesUser write)
      (clean : WritesNothing (read :: later))
      (reported : ReadsBack read ↔ ∃ value, outcome = .ok value)
      (announced : (∃ value, outcome = .ok value) → Announced host after)

/-- The error of an outcome, if it is one. -/
def errorOf {Result : Type} : Except GoError Result → Option GoError
  | .error error => some error
  | .ok _ => none

/-- A mutation does everything or nothing if and only if what it has
written was read back. -/
theorem Ended.allOrNothing_iff [Build] {Result : Type} {id : Int}
    {host after : UserHost} {outcome : Except GoError Result}
    {past : List (Event UserOp UserOp.Answer)}
    (ended : Ended id host outcome after past) :
    AllOrNothing id host (errorOf outcome) after ↔ Confirmed past := by
  cases ended with
  | failed error reported same nothing =>
      have confirmed : Confirmed past := by
        intro earlier write read later split writes
        have listed : write ∈ past := by
          rw [split]
          simp
        exact absurd writes (nothing write listed)
      exact iff_of_true
        ⟨fun _ => same, fun changed => absurd same changed⟩ confirmed
  | wrote earlier write read later split changed free writes clean reported
      announced =>
      have readBack : Confirmed past ↔ ReadsBack read := by
        constructor
        · intro confirmed
          exact confirmed earlier write read later split writes
        · intro reads front other behind back same others
          rw [split] at same
          have rest := split_unique same free clean others
          rw [← (List.cons.inj rest).1]
          exact reads
      rw [readBack, reported]
      constructor
      · intro whole
        cases outcome with
        | ok value => exact ⟨value, rfl⟩
        | error error =>
            exact absurd (whole.untouched (Option.some_ne_none error)) changed
      · rintro ⟨value, rfl⟩
        exact ⟨fun failed => absurd rfl failed,
          fun _ => announced ⟨value, rfl⟩⟩

section Programs

variable [Build]

/-- `UserHost.handle` with its arguments in the order of recorded runs. -/
abbrev answer (op : UserOp) (choice : UserChoice) (host : UserHost) :
    op.Answer × UserHost :=
  host.handle op choice

variable {id : Int} {host now : UserHost}
variable {past : List (Event UserOp UserOp.Answer)}
variable {Result : Type}
variable {post : Result → UserHost → List (Event UserOp UserOp.Answer) → Prop}

theorem handle_idle {op : UserOp} (idle : op.Idle) (choice : UserChoice)
    (host : UserHost) : (host.handle op choice).2 = host := by
  cases op with
  | updateUser | setUserStatus | deleteUser | sweepExpired | createUser |
      rotateCredential | notify => exact idle.elim
  | _ => rfl

/-- Idle operations in front of a program. -/
theorem always_idle {Middle : Type} {program : UserProgram Middle}
    (idle : program.All UserOp.Idle) {next : Middle → UserProgram Result}
    (nothing : WritesNothing past)
    (rest : ∀ value past, WritesNothing past →
      Always answer post (next value) host past) :
    Always answer post (program >>= next) host past := by
  have before : Always answer
      (fun _ now past => now = host ∧ WritesNothing past) program host
        past := by
    apply always_all ?_ idle ⟨rfl, nothing⟩
    rintro op idleOp choice now past given after handled ⟨same, free⟩
    have kept := handle_idle idleOp choice now
    rw [show now.handle op choice = (given, after) from handled] at kept
    exact ⟨kept.trans same, free.concat (writesUser_idle idleOp given)⟩
  apply always_bind
  apply before.mono
  rintro value now past ⟨rfl, free⟩
  exact rest value past free

theorem always_invoke (op : UserOp) (idle : op.Idle)
    {next : op.Answer → UserProgram Result} (nothing : WritesNothing past)
    (rest : ∀ value past, WritesNothing past →
      Always answer post (next value) host past) :
    Always answer post (invoke op >>= next) host past :=
  always_idle (Program.all_perform idle) nothing rest

/-- Reading the user that is to be changed. -/
theorem always_getUserByID
    {next : Except GoError ProxyUser → UserProgram Result}
    (nothing : WritesNothing past)
    (failed : ∀ error past, WritesNothing past →
      Always answer post (next (.error error)) host past)
    (found : ∀ user past, WritesNothing past → user.id = id →
      Always answer post (next (.ok user)) host past) :
    Always answer post (getUserByID id >>= next) host past := by
  apply always_bind
  apply always_call
  intro choice found? after handled
  have unchanged : after = host := (congrArg Prod.snd handled).symm
  have value : UserHost.select choice (host.database.userRow id) = found? :=
    congrArg Prod.fst handled
  rw [unchanged]
  have free : WritesNothing (past ++ [⟨.selectUser id, found?⟩]) :=
    nothing.concat fun writes => writes
  rcases found? with error | _ | row
  · exact failed error _ free
  · exact failed errNotFound _ free
  · change Always answer post (next (scanUser row)) host _
    have present : host.database.userRow id = some row := by
      rw [UserHost.select] at value
      cases fails : choice.failure.at 0 with
      | some error =>
          rw [fails] at value
          cases value
      | none =>
          rw [fails] at value
          exact Except.ok.inj value
    cases scanned : scanUser row with
    | error error => exact failed error _ free
    | ok user =>
        apply found user _ free
        rw [(scanned_of_ok scanned).id]
        exact (lookup_mem present).2

/-- The read behind a write. -/
theorem stored_readBack {write : Event UserOp UserOp.Answer}
    (hooks : now.hookCalls = host.hookCalls)
    (changed : ¬SameRecord id host.database now.database)
    (free : WritesNothing past) (writes : WritesUser write) :
    Always answer (Stored id host) (getUserByID id) now
      (past ++ [write]) := by
  apply always_call
  intro choice found after handled
  have unchanged : after = now := (congrArg Prod.snd handled).symm
  rw [unchanged]
  have split : past ++ [write] ++ [⟨.selectUser id, found⟩] =
      past ++ [write, ⟨.selectUser id, found⟩] :=
    List.append_assoc past [write] _
  have reads : ¬WritesUser ⟨.selectUser id, found⟩ :=
    fun writes => writes
  rcases found with error | _ | row
  · exact .wrote past write _ split hooks changed free writes reads
      ⟨False.elim, by rintro ⟨_, ⟨⟩⟩⟩
  · exact .wrote past write _ split hooks changed free writes reads
      ⟨False.elim, by rintro ⟨_, ⟨⟩⟩⟩
  · exact .wrote past write _ split hooks changed free writes reads .rfl

/-- What the audit trail and the hook make of the repository's answer. -/
theorem Stored.announce {outcome : Except GoError ProxyUser}
    (stored : Stored id host outcome now past)
    (actor : Actor) (action username : String)
    (summary : ProxyUser → String) :
    Always answer (Ended id host)
      (announce actor action username summary outcome) now past := by
  cases stored with
  | failed error reported same nothing =>
      rw [reported, Xoxproxy.announce]
      by_cases conflict : error.is .storeConflict = true
      · rw [if_pos conflict]
        intro choice
        exact .failed errVersionConflict rfl same (nothing.concat fun writes => writes)
      · rw [if_neg conflict]
        exact .failed error rfl same nothing
  | wrote earlier write read split hooks changed free writes reads reported =>
      have quiet : WritesNothing [read] := by
        intro event listed
        rw [List.mem_singleton.mp listed]
        exact reads
      have extend : ∀ more, past ++ more =
          earlier ++ write :: read :: more := by
        intro more
        rw [split, List.append_assoc]
        rfl
      cases outcome with
      | error error =>
          rw [Xoxproxy.announce]
          by_cases conflict : error.is .storeConflict = true
          · rw [if_pos conflict]
            intro choice
            refine .wrote earlier write read _ (extend _) changed free writes
              (by exact quiet.concat fun writes => writes) ?_
              (by rintro ⟨_, ⟨⟩⟩)
            rw [reported]
            exact ⟨by rintro ⟨_, ⟨⟩⟩, by rintro ⟨_, ⟨⟩⟩⟩
          · rw [if_neg conflict]
            refine .wrote earlier write read [] split changed free writes
              quiet ?_ (by rintro ⟨_, ⟨⟩⟩)
            rw [reported]
      | ok user =>
          intro choice later
          refine .wrote earlier write read _
            ((List.append_assoc _ _ _).trans (extend _)) changed free writes
            ?_ ?_ fun _ => ?_
          · intro event listed
            rcases List.mem_cons.mp listed with rfl | behind
            · exact reads
            · rcases List.mem_pair.mp behind with rfl | rfl
              · exact fun writes => writes
              · exact fun writes => writes
          · exact reported.trans ⟨fun _ => ⟨user, rfl⟩, fun _ => ⟨user, rfl⟩⟩
          · let call : HookCall :=
              ⟨actor.name, action ++ ":" ++ username, now.database⟩
            have calls : now.hookCalls ++ [call] =
                host.hookCalls ++ [call] := by rw [hooks]
            exact ⟨[call], call, calls, List.mem_singleton_self call, rfl⟩

omit [Build] in
/-- A versioned write raises the version. -/
theorem ExactWrite.changed {before after : Database} {version : Int}
    {time : Time} {write : UserRow → UserRow}
    (written : ExactWrite before after id version time write)
    (kept : ∀ row, (write row).version = row.version) :
    ¬SameRecord id before after := by
  intro same
  obtain ⟨row, present, -, result⟩ := written.row
  rw [same.row, present] at result
  have version := congrArg UserRow.version (Option.some.inj result)
  have raised : ((write row).touch time).version = row.version + 1 :=
    congrArg (· + 1) (kept row)
  omega

/-- A statement that has found no row is explained, not repeated. -/
theorem stored_versionConflict (nothing : WritesNothing past) :
    Always answer (Stored id host) (afterUpdate id (.ok 0)) host past := by
  apply always_call
  intro choice found after handled
  have unchanged : after = host := (congrArg Prod.snd handled).symm
  have free : WritesNothing (past ++ [⟨.selectOne id, found⟩]) :=
    nothing.concat fun writes => writes
  rw [unchanged]
  rcases found with error | _ | _
  · exact .failed error rfl (.refl id _) free
  · exact .failed errNotFound rfl (.refl id _) free
  · exact .failed errConflict rfl (.refl id _) free

/-- A statement that expects a version, and what follows it. -/
theorem stored_afterUpdate {version : Int} {time : Time}
    {choice : UserChoice} (consistent : Consistent host.database)
    (write : UserRow → UserRow) (keepsId : ∀ row, (write row).id = row.id)
    (keepsVersion : ∀ row, (write row).version = row.version)
    (event : Except GoError Nat → Event UserOp UserOp.Answer)
    (writes : ∀ count, WritesUser (event (.ok (count + 1))))
    (refused : ¬WritesUser (event (.ok 0)))
    (failed : ∀ error, ¬WritesUser (event (.error error)))
    (nothing : WritesNothing past)
    {done : Except GoError Nat × UserHost}
    (changed : UserHost.change choice host
      (host.database.updateUserRow id version time write) = done) :
    Always answer (Stored id host) (afterUpdate id done.1) done.2
      (past ++ [event done.1]) := by
  rcases UserHost.change_cases choice host
      (host.database.updateUserRow id version time write) with
    ⟨error, fails⟩ | succeeds
  · rw [← changed, fails]
    exact .failed error rfl (.refl id _) (nothing.concat (failed error))
  · rw [succeeds, Database.updateUserRow] at changed
    rw [← changed]
    dsimp only
    cases found : host.database.users.countP (rowHas id version) with
    | zero =>
        have same := @updateWhere_of_countP_eq_zero UserRow
          host.database.users (rowHas id version)
          (fun row => (write row).touch time) found
        rw [same]
        exact stored_versionConflict (nothing.concat refused)
    | succ count =>
        have written : ExactWrite host.database
            { host.database with
              users := updateWhere (rowHas id version)
                (fun row => (write row).touch time) host.database.users }
            id version time write := by
          refine exactWrite_update consistent keepsId ?_ rfl
          rw [found]
          exact Nat.succ_ne_zero count
        have changes := written.changed keepsVersion
        exact @stored_readBack _ id host _ past _ rfl changes nothing
          (writes count)

theorem stored_updateUser (consistent : Consistent host.database)
    (nothing : WritesNothing past) (user : ProxyUser)
    (target : user.id = id) :
    Always answer (Stored id host) (updateUser user) host past := by
  subst target
  apply always_invoke .now trivial nothing
  intro time past nothing
  apply always_call
  intro choice affected after handled
  exact stored_afterUpdate consistent (fun row => row.writeUser user)
    (fun _ => rfl) (fun _ => rfl)
    (fun given => ⟨.updateUser user time, given⟩) (fun _ => trivial)
    (fun writes => writes) (fun _ writes => writes) nothing handled

theorem stored_setUserStatus (consistent : Consistent host.database)
    (nothing : WritesNothing past) (status : UserStatus)
    (version : Int) (time : Time) :
    Always answer (Stored id host) (setUserStatus id status version time)
      host past := by
  apply always_call
  intro choice affected after handled
  exact stored_afterUpdate consistent (fun row => row.writeStatus status)
    (fun _ => rfl) (fun _ => rfl)
    (fun given => ⟨.setUserStatus id status version time, given⟩)
    (fun _ => trivial)
    (fun writes => writes) (fun _ writes => writes) nothing handled

theorem stored_rotateCredential (consistent : Consistent host.database)
    (nothing : WritesNothing past) (next : Credential) (version : Int)
    (time : Time) :
    Always answer (Stored id host) (rotateCredential id next version time)
      host past := by
  apply always_call
  intro choice done after handled
  rcases UserHost.transact_cases choice host
      (rotateStatements id next version time) with
    ⟨error, fails⟩ | ⟨database, succeeds, committed⟩
  · obtain ⟨rfl, rfl⟩ := Prod.mk.inj (fails.symm.trans handled)
    exact .failed error rfl (.refl id _) (nothing.concat fun writes => writes)
  · obtain ⟨rfl, rfl⟩ := Prod.mk.inj (succeeds.symm.trans handled)
    obtain ⟨found, result⟩ := rotate_committed committed
    have written : ExactWrite host.database database id version time
        fun row => row := by
      refine exactWrite_update consistent (fun _ => rfl) found ?_
      rw [result]
      rfl
    exact @stored_readBack _ id host _ past _ rfl
      (written.changed fun _ => rfl) nothing trivial

/-! ## The mutations -/

theorem ended_transition (consistent : Consistent host.database)
    (nothing : WritesNothing past) (status : UserStatus) (version : Int)
    (actor : Actor) (action : String) :
    Always answer (Ended id host)
      (transition id status version actor action) host past := by
  apply always_getUserByID nothing
  · exact fun error past free => .failed error rfl (.refl id _) free
  · intro user past free same
    apply always_invoke .now trivial free
    intro time past free
    apply always_bind
    apply (stored_setUserStatus consistent free status version time).mono
    exact fun outcome now past stored =>
      stored.announce actor action user.username _

theorem ended_enable (consistent : Consistent host.database)
    (nothing : WritesNothing past) (version : Int) (actor : Actor) :
    Always answer (Ended id host) (enable id version actor) host past := by
  apply always_getUserByID nothing
  · exact fun error past free => .failed error rfl (.refl id _) free
  · intro user past free same
    dsimp only
    cases user.expiresAt with
    | none => exact ended_transition consistent free .active version actor _
    | some expiry =>
        apply always_invoke .now trivial free
        intro time past free
        by_cases expired : expiry ≤ time
        · rw [if_pos expired]
          exact .failed errExpired rfl (.refl id _) free
        · rw [if_neg expired]
          exact ended_transition consistent free .active version actor _

theorem ended_update (consistent : Consistent host.database)
    (nothing : WritesNothing past) (input : UpdateInput) (actor : Actor) :
    Always answer (Ended id host) (update id input actor) host past := by
  apply always_getUserByID nothing
  · exact fun error past free => .failed error rfl (.refl id _) free
  · intro user past free same
    dsimp only
    by_cases stale : input.version = 0 ∨ input.version ≠ user.version
    · rw [if_pos stale]
      exact .failed _ rfl (.refl id _) free
    · rw [if_neg stale]
      apply always_invoke .mapOrder trivial free
      intro order past free
      cases validateMutated order (input.merge user) with
      | some error => exact .failed error rfl (.refl id _) free
      | none =>
          apply always_bind
          apply (stored_updateUser consistent free (input.merge user)
            same).mono
          exact fun outcome now past stored =>
            stored.announce actor "user.update" user.username _

theorem replacementPassword_idle (password username : String) :
    (replacementPassword password username).All UserOp.Idle := by
  rw [replacementPassword]
  by_cases empty : password = ""
  · rw [if_pos empty]
    exact ⟨trivial, fun _ => trivial⟩
  · rw [if_neg empty]
    cases validatePassword password username with
    | some error => exact Program.all_ret _
    | none => exact Program.all_ret _

/-- A mutation whose value is changed at its end. -/
theorem Ended.map {Other : Type} {outcome : Except GoError Result}
    (ended : Ended id host outcome now past) (change : Result → Other) :
    Ended id host (outcome.map change) now past := by
  have success : (∃ value, outcome = .ok value) ↔
      ∃ value, outcome.map change = .ok value := by
    cases outcome with
    | error error =>
        exact ⟨by rintro ⟨_, ⟨⟩⟩, by rintro ⟨_, ⟨⟩⟩⟩
    | ok value => exact ⟨fun _ => ⟨change value, rfl⟩, fun _ => ⟨value, rfl⟩⟩
  cases ended with
  | failed error reported same nothing =>
      exact .failed error (by rw [reported]; rfl) same nothing
  | wrote earlier write read later split changed free writes clean reported
      announced =>
      exact .wrote earlier write read later split changed free writes clean
        (reported.trans success) fun done => announced (success.mpr done)

variable [Blake2b]

omit [Build] in
theorem newHashes_idle (password : String) :
    (newHashes password).All UserOp.Idle := by
  refine ⟨trivial, fun salt => ?_⟩
  rcases salt with error | salt
  · exact trivial
  · refine ⟨trivial, fun apiHash => ?_⟩
    rcases apiHash with error | apiHash
    · exact trivial
    · exact trivial

theorem ended_rotateCredentials (consistent : Consistent host.database)
    (nothing : WritesNothing past) (password : String) (actor : Actor) :
    Always answer (Ended id host) (rotateCredentials id password actor)
      host past := by
  apply always_getUserByID nothing
  · exact fun error past free => .failed error rfl (.refl id _) free
  · intro user past free _
    apply always_idle (replacementPassword_idle password user.username) free
    intro chosen past free
    rcases chosen with error | chosen
    · exact .failed error rfl (.refl id _) free
    · apply always_idle (newHashes_idle chosen) free
      intro hashed past free
      rcases hashed with error | hashes
      · exact .failed error rfl (.refl id _) free
      · apply always_invoke .now trivial free
        intro createdAt past free
        apply always_invoke .now trivial free
        intro time past free
        apply always_bind
        apply (stored_rotateCredential consistent free _ user.version
          time).mono
        intro outcome now past stored
        apply always_bind
        apply (stored.announce actor "user.rotate_credentials"
          user.username _).mono
        exact fun announced now past ended => ended.map _

/-- A call that runs alone: the error it returns, the host behind it, and
the operations it has performed. -/
def UserCall.attempt (call : UserCall) (choices : Nat → UserChoice)
    (host : UserHost) :
    Option GoError × UserHost × List (Event UserOp UserOp.Answer) :=
  call.program.run (recorded answer choices) (host, [])

/-- What is shown of a call that runs alone. -/
theorem always_program {call : UserCall} (mutates : call.request.Mutates id)
    (consistent : Consistent host.database) :
    Always answer
      (fun error after past =>
        AllOrNothing id host error after ↔ Confirmed past)
      call.program host [] := by
  have nothing : WritesNothing [] := fun _ listed => (by cases listed)
  rw [UserCall.program]
  cases asked : call.request with
  | create | delete | sweepExpired =>
      rw [asked] at mutates
      exact mutates.elim
  | update target input =>
      rw [asked] at mutates
      obtain rfl : target = id := mutates
      apply always_bind
      apply (ended_update consistent nothing input call.actor).mono
      intro outcome after past ended
      have whole := ended.allOrNothing_iff
      cases outcome with
      | error error => exact whole
      | ok value => exact whole
  | enable target version =>
      rw [asked] at mutates
      obtain rfl : target = id := mutates
      apply always_bind
      apply (ended_enable consistent nothing version call.actor).mono
      intro outcome after past ended
      have whole := ended.allOrNothing_iff
      cases outcome with
      | error error => exact whole
      | ok value => exact whole
  | disable target version =>
      rw [asked] at mutates
      obtain rfl : target = id := mutates
      apply always_bind
      apply (ended_transition consistent nothing .disabled version call.actor
        "user.disable").mono
      intro outcome after past ended
      have whole := ended.allOrNothing_iff
      cases outcome with
      | error error => exact whole
      | ok value => exact whole
  | rotateCredentials target password =>
      rw [asked] at mutates
      obtain rfl : target = id := mutates
      apply always_bind
      apply (ended_rotateCredentials consistent nothing password
        call.actor).mono
      intro outcome after past ended
      have whole := ended.allOrNothing_iff
      cases outcome with
      | error error => exact whole
      | ok value => exact whole

/-- Wherever a mutation's operations fail, the mutation does everything or
nothing, and announces what it has done, if and only if the read behind its
write finds the user. -/
theorem all_or_nothing_iff {call : UserCall} {id : Int}
    (mutates : call.request.Mutates id) (choices : Nat → UserChoice)
    {host : UserHost} (consistent : Consistent host.database) :
    AllOrNothing id host (call.attempt choices host).1
        (call.attempt choices host).2.1 ↔
      Confirmed (call.attempt choices host).2.2 :=
  (always_program mutates consistent).run choices

end Programs

/-- A host on which alice has an account. -/
def aliceHost : UserHost :=
  (@UserHost.handle Build.dev
    (.createUser (sampleInput.newUser 0)
      { engineHash := "", apiHash := "", createdAt := 0 })
    sampleChoice { database := {} }).2

theorem aliceHost_consistent : Consistent aliceHost.database :=
  @Consistent.handle Build.dev { database := {} } consistent_empty _
    sampleChoice

def disableAlice : UserCall :=
  ⟨1, .disable 1 1, ⟨"admin", "", "", ""⟩⟩

/-- The client goes away behind the third operation. -/
def givenUp (position : Nat) : UserChoice :=
  if position < 3 then sampleChoice
  else { sampleChoice with failure := some (0, .plain "context canceled") }

/-- Alice is disabled, the hook is called, and she is read back. -/
theorem all_or_nothing_calm :
    let _ := Build.dev
    let _ := Blake2b.upstream
    let done := disableAlice.attempt (fun _ => sampleChoice) aliceHost
    done.1 = none ∧ ¬SameRecord 1 aliceHost.database done.2.1.database ∧
      AllOrNothing 1 aliceHost done.1 done.2.1 ∧ Confirmed done.2.2 := by
  intro dev digest done
  have succeeded : done.1 = none := by decide +kernel
  have changed : ¬SameRecord 1 aliceHost.database done.2.1.database := by
    intro same
    exact absurd same.row (by decide +kernel)
  have told : Announced aliceHost done.2.1 :=
    ⟨done.2.1.hookCalls,
      ⟨"admin", "user.disable:alice", done.2.1.database⟩,
      by decide +kernel, by decide +kernel, rfl⟩
  have whole : AllOrNothing 1 aliceHost done.1 done.2.1 :=
    ⟨fun failed => absurd succeeded failed, fun _ => told⟩
  have mutates : disableAlice.request.Mutates 1 := rfl
  exact ⟨succeeded, changed, whole,
    (all_or_nothing_iff mutates _ aliceHost_consistent).mp whole⟩

/-- Alice is disabled, the call reports an error, and nobody is told. -/
theorem given_up_disable_persists :
    let _ := Build.dev
    let _ := Blake2b.upstream
    let done := disableAlice.attempt givenUp aliceHost
    ¬AllOrNothing 1 aliceHost done.1 done.2.1 := by
  intro dev digest done whole
  have failed : done.1 ≠ none := by decide +kernel
  have unchanged := (whole.untouched failed).row
  exact absurd unchanged (by decide +kernel)

end Xoxproxy
