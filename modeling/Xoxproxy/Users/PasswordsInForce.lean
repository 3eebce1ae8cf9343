import Xoxproxy.Users.DesiredState
import Xoxproxy.Users.Generations

/-!
# The passwords in force

`Create` and `RotateCredentials` hand out a password once.  From then on the
engine is told of a verifier of that password or of one that was issued
later, and never again of an earlier one.
-/

namespace Xoxproxy

open EffectPrograms EffectPrograms.Program RowTables Transactions

/-- The user and the password that a call returns, if any. -/
def UserCall.handsOut [Build] [Blake2b] (call : UserCall) :
    UserProgram (Option (ProxyUser × String)) :=
  match call.request with
  | .create input => do
      let outcome ← create input call.actor
      pure outcome.toOption
  | .rotateCredentials id password => do
      let outcome ← rotateCredentials id password call.actor
      pure outcome.toOption
  | _ => do
      let _ ← call.program
      pure none

section Issuing

variable [Blake2b]

def VerifierOf (password hash : String) : Prop :=
  ∃ salt, hash = crHash password (newSalt salt)

/-- As long as the user is there, so is a credential with a verifier of the
password and a number above a given one. -/
structure Issued (base id : Int) (password : String)
    (database : Database) : Prop where
  known : id ≤ database.userSequence
  stored : ∀ row ∈ database.users, row.id = id →
    ∃ credential ∈ database.credentials, credential.userID = id ∧
      base < credential.id ∧ VerifierOf password credential.engineHash

omit [Blake2b] in
/-- As long as the user is there, it has its name. -/
structure Named (user : ProxyUser) (database : Database) : Prop where
  known : user.id ≤ database.userSequence
  named : ∀ row ∈ database.users, row.id = user.id →
    row.username = user.username

/-- What later tables keep. -/
def Lasting (known : Database → Prop) : Prop :=
  ∀ before now, known before → Succeeds before now → known now

theorem lasting_issued (base id : Int) (password : String) :
    Lasting (Issued base id password) := by
  intro before now issued succeeds
  refine ⟨issued.known.trans succeeds.users, ?_⟩
  intro row listed same
  have known : row.id ≤ before.userSequence := by
    rw [same]
    exact issued.known
  obtain ⟨old, present, oldId, -⟩ := succeeds.names row listed known
  obtain ⟨credential, held, owner, above, verifier⟩ :=
    issued.stored old present (oldId.trans same)
  obtain ⟨later, still, sameCredential⟩ :=
    succeeds.kept row listed known credential held (owner.trans same.symm)
  refine ⟨later, still, sameCredential.userID_eq.trans owner, ?_, ?_⟩
  · rw [sameCredential.id_eq]
    exact above
  · rw [sameCredential]
    exact verifier

omit [Blake2b] in
theorem lasting_named (user : ProxyUser) : Lasting (Named user) := by
  intro before now named succeeds
  refine ⟨named.known.trans succeeds.users, ?_⟩
  intro row listed same
  obtain ⟨old, present, oldId, oldName⟩ :=
    succeeds.names row listed (same ▸ named.known)
  rw [← oldName]
  exact named.named old present (oldId.trans same)

omit [Blake2b] in
theorem lasting_trivial : Lasting fun _ => True :=
  fun _ _ _ _ => trivial

omit [Blake2b] in
/-- What is known of an answer lasts as well. -/
theorem Lasting.forall_ok {Value : Type} {known : Value → Database → Prop}
    (lasting : ∀ value, Lasting (known value))
    (outcome : Except GoError Value) :
    Lasting fun database =>
      ∀ value, outcome = .ok value → known value database :=
  fun before now held succeeds value done =>
    lasting value before now (held value done) succeeds

omit [Blake2b] in
theorem Lasting.and {first second : Database → Prop}
    (lasting : Lasting first) (also : Lasting second) :
    Lasting fun database => first database ∧ second database :=
  fun before now held succeeds =>
    ⟨lasting before now held.1 succeeds, also before now held.2 succeeds⟩

/-- The user has its name, and its credential was issued. -/
def Given (base : Int) (password : String) (user : ProxyUser)
    (database : Database) : Prop :=
  Issued base user.id password database ∧ Named user database

theorem lasting_given (base : Int) (password : String) (user : ProxyUser) :
    Lasting (Given base password user) :=
  fun before now given succeeds =>
    ⟨lasting_issued _ _ _ before now given.1 succeeds,
      lasting_named _ before now given.2 succeeds⟩

variable {database after : Database} {base : Int} {password : String}

omit [Blake2b] in
theorem named_of_row [Build] (consistent : Consistent database)
    {row : UserRow} {user : ProxyUser} (listed : row ∈ database.users)
    (read : scanUser row = .ok user) : Named user database := by
  have scanned := scanned_of_ok read
  refine ⟨?_, ?_⟩
  · rw [scanned.id]
    exact (consistent.issued row listed).2
  · intro other present same
    rw [scanned.username]
    rw [scanned.id] at same
    rw [consistent.ids.eq present listed same]

/-- What a committed `CreateUser` gives. -/
theorem given_of_createUser [Build] {user : ProxyUser}
    {initial : Credential} (consistent : Consistent database)
    (fresh : base ≤ database.credentialSequence)
    (verifier : VerifierOf password initial.engineHash)
    (done : executeAll (createUserStatements user initial) database =
      .ok after) :
    Given base password
      { user with id := after.userSequence, version := 1 } after := by
  obtain ⟨-, rfl⟩ := createUser_committed done
  refine ⟨⟨Int.le_refl _, ?_⟩, ⟨Int.le_refl _, ?_⟩⟩
  · intro row _ _
    refine ⟨_, List.mem_append_right _ (List.mem_singleton_self _), rfl,
      ?_, verifier⟩
    exact Int.lt_add_one_of_le fresh
  · intro row listed same
    rcases List.mem_append.mp listed with old | new
    · have issued := (consistent.issued row old).2
      change row.id = database.userSequence + 1 at same
      omega
    · rw [List.mem_singleton.mp new]
      rfl

/-- What a committed `RotateCredential` has issued. -/
theorem issued_of_rotate {id version : Int} {next : Credential}
    {now : Time} (consistent : Consistent database)
    (fresh : base ≤ database.credentialSequence)
    (verifier : VerifierOf password next.engineHash)
    (done : executeAll (rotateStatements id next version now) database =
      .ok after) : Issued base id password after := by
  obtain ⟨found, rfl⟩ := rotate_committed done
  refine ⟨?_, ?_⟩
  · obtain ⟨row, listed, matched⟩ :=
      List.countP_pos_iff.mp (Nat.pos_of_ne_zero found)
    have issued := (consistent.issued row listed).2
    have rowId : row.id = id := (of_decide_eq_true matched).1
    rw [← rowId]
    exact issued
  · intro row _ _
    refine ⟨_, List.mem_append_right _ (List.mem_singleton_self _), rfl,
      ?_, verifier⟩
    exact Int.lt_add_one_of_le fresh

def NotBefore (base : Int) (database : Database) : Prop :=
  base ≤ database.credentialSequence

omit [Blake2b] in
theorem lasting_notBefore (base : Int) : Lasting (NotBefore base) :=
  fun _ _ held succeeds => held.trans succeeds.credentials

theorem newHashes_yields (password : String) :
    (newHashes password).Yields fun value =>
      ∀ hashes, value = .ok hashes → VerifierOf password hashes.1 := by
  intro salt
  cases salt with
  | error error =>
      intro hashes wrong
      cases wrong
  | ok salt =>
      intro apiHash
      cases apiHash with
      | error error =>
          intro hashes wrong
          cases wrong
      | ok apiHash =>
          intro hashes done
          obtain rfl := Except.ok.inj done
          exact ⟨salt, rfl⟩

omit [Blake2b] in
theorem announce_yields [Build] (actor : Actor) (action username : String)
    (summary : ProxyUser → String) (outcome : Except GoError ProxyUser) :
    (announce actor action username summary outcome).Yields fun value =>
      ∀ updated, value = .ok updated → outcome = .ok updated := by
  cases outcome with
  | error error =>
      unfold announce
      by_cases conflict : error.is .storeConflict = true
      · simp only [conflict, if_true]
        exact fun _ updated wrong => (by cases wrong)
      · simp only [conflict]
        exact fun updated wrong => (by cases wrong)
  | ok current => exact fun _ _ _ done => done

omit [Blake2b] in
theorem announceCreated_yields [Build] (actor : Actor)
    (username password : String) (outcome : Except GoError ProxyUser) :
    (announceCreated actor username password outcome).Yields fun value =>
      ∀ created given, value = .ok (created, given) →
        outcome = .ok created ∧ given = password := by
  cases outcome with
  | error error =>
      unfold announceCreated
      by_cases conflict : error.is .storeConflict = true
      · simp only [conflict, if_true]
        exact fun _ _ _ wrong => (by cases wrong)
      · simp only [conflict]
        exact fun _ _ wrong => (by cases wrong)
  | ok current =>
      intro _ _ created given done
      obtain ⟨rfl, rfl⟩ := Prod.mk.inj (Except.ok.inj done)
      exact ⟨rfl, rfl⟩

end Issuing

section Machine

variable [Build] [Blake2b]

def issueMachine :
    Machine UserOp UserOp.Answer (Option (ProxyUser × String)) UserCall
      UserHost UserChoice Flush where
  program := UserCall.handsOut
  handle := fun _ op choice host => some (host.handle op choice)
  react := fun flush host =>
    { host with
      database :=
        (transact flush.failure
          (applyDeltasStatements flush.usage flush.destinations
            flush.cursor) host.database).2 }

/-- What one call hands out is issued after it has started, when `base` is
the last credential number before. -/
def issueDiscipline (target : UserCall) (base : Int) :
    Discipline UserOp UserOp.Answer (Option (ProxyUser × String)) UserCall
      UserHost UserChoice where
  invariant := fun host => WellKept host.database
  rely := fun _ before after => Succeeds before.database after.database
  rely_refl := fun _ host => Succeeds.refl host.database
  rely_trans := fun early late => early.trans late
  fresh := fun call host =>
    call = target → base ≤ host.database.credentialSequence
  fresh_rely := fun fresh succeeds same =>
    (fresh same).trans succeeds.credentials
  guarantee := fun _ before after =>
    Succeeds before.database after.database
  condition := fun _ _ _ _ _ => True
  promise := fun _ _ _ _ _ => True
  finished := fun call _ value host =>
    call = target → ∀ user password, value = some (user, password) →
      Given base password user host.database

variable {target call : UserCall} {base : Int} {Result : Type}
variable {post :
  List (Event UserOp UserOp.Answer) → Result → UserHost → Prop}
variable {past : List (Event UserOp UserOp.Answer)} {host : UserHost}
variable {known : Database → Prop}

variable (target base) in
/-- `Ensures` for calls that hand out passwords. -/
abbrev Issues
    (call : UserCall)
    (post :
      List (Event UserOp UserOp.Answer) → Result → UserHost → Prop)
    (rest : UserProgram Result)
    (past : List (Event UserOp UserOp.Answer)) (host : UserHost) : Prop :=
  Ensures issueMachine (issueDiscipline target base) call post rest past
    host

/-- What lasts is still known at the end of any program. -/
theorem issues_yields (lasting : Lasting known)
    (holds : known host.database) {ends : Result → Prop}
    {program : UserProgram Result} (yields : program.Yields ends)
    (finish : ∀ past value now, known now.database → ends value →
      WellKept now.database → post past value now) :
    Issues target base call post program past host := by
  refine ensures_yields (fun host : UserHost => known host.database)
    (fun before now held succeeds =>
      lasting before.database now.database held succeeds) ?_ yields holds
    fun past value now held kept ended =>
      finish past value now held ended kept
  intro op past now choice answer after held kept _ handled
  have since := WellKept.handle kept op choice
  rw [Option.some.inj handled] at since
  exact ⟨trivial, since.2, since.1,
    lasting now.database after.database held since.2⟩

/-- A program in front of another one. -/
theorem issues_then {Middle : Type} (lasting : Lasting known)
    (kept : WellKept host.database) (holds : known host.database)
    {ends : Middle → Prop} {program : UserProgram Middle}
    (yields : program.Yields ends)
    {next : Middle → UserProgram Result}
    (rest : ∀ value past now, ends value → known now.database →
      WellKept now.database →
        Issues target base call post (next value) past now) :
    Issues target base call post (program >>= next) past host := by
  have first : Issues target base call
      (fun _ value now => known now.database ∧ ends value) program past
      host :=
    issues_yields lasting holds yields fun _ _ _ held ended _ =>
      ⟨held, ended⟩
  exact ensures_bind kept first fun past value now kept held =>
    rest value past now held.2 held.1 kept

/-- A program in front of another one, whatever its end. -/
theorem issues_skip {Middle : Type} (lasting : Lasting known)
    (kept : WellKept host.database) (holds : known host.database)
    {program : UserProgram Middle} {next : Middle → UserProgram Result}
    (rest : ∀ value past now, known now.database → WellKept now.database →
      Issues target base call post (next value) past now) :
    Issues target base call post (program >>= next) past host :=
  issues_then lasting kept holds
    (yields_of_forall (fun _ : Middle => trivial) program)
    fun value past now _ => rest value past now

theorem issues_ret (lasting : Lasting known) (holds : known host.database)
    {value : Result}
    (finish : ∀ now : UserHost, known now.database → post past value now) :
    Issues target base call post (.ret value) past host :=
  ensures_ret (fun host : UserHost => known host.database)
    (fun before now held succeeds =>
      lasting before.database now.database held succeeds) holds
    fun now held _ => finish now held

/-- An operation that writes, and what is known behind it. -/
theorem issues_write (lasting : Lasting known)
    (holds : known host.database) {op : UserOp}
    {next : op.Answer → UserProgram Result}
    (rest : ∀ (now : UserHost) choice past, known now.database →
      WellKept now.database →
      WellKept (now.handle op choice).2.database →
        Issues target base call post (next (now.handle op choice).1) past
          (now.handle op choice).2) :
    Issues target base call post (invoke op >>= next) past host := by
  refine ensures_call (fun host : UserHost => known host.database)
    (fun before now held succeeds =>
      lasting before.database now.database held succeeds) holds ?_
  intro now choice answer after held kept _ handled
  have since := WellKept.handle kept op choice
  have same : now.handle op choice = (answer, after) :=
    Option.some.inj handled
  have going := rest now choice (past ++ [⟨op, answer⟩]) held kept since.1
  rw [same] at since going
  exact ⟨trivial, since.2, since.1, going⟩

/-! ## Programs -/

variable {id : Int} {password : String}

theorem createUser_issues {user : ProxyUser} {initial : Credential}
    (kept : WellKept host.database) (fresh : NotBefore base host.database)
    (verifier : VerifierOf password initial.engineHash) :
    Issues target base call
      (fun _ value now => ∀ created, value = .ok created →
        Given base password created now.database)
      (createUser user initial) past host := by
  refine issues_skip (lasting_notBefore base) kept fresh ?_
  intro time past now fresh kept
  refine issues_write (lasting_notBefore base) fresh ?_
  intro now choice past fresh kept _
  generalize { user with
    createdAt := orTime user.createdAt time
    updatedAt := orTime user.updatedAt (orTime user.createdAt time) } = stored
  have handled : now.handle (.createUser stored initial) choice =
      ((UserHost.transact choice now
          (createUserStatements stored initial)).1.map fun _ =>
        (UserHost.transact choice now
          (createUserStatements stored initial)).2.database.userSequence,
        (UserHost.transact choice now
          (createUserStatements stored initial)).2) := rfl
  rcases UserHost.transact_cases choice now
      (createUserStatements stored initial) with
    ⟨error, failed⟩ | ⟨after, committed, done⟩
  · rw [handled, failed]
    exact issues_ret lasting_trivial trivial
      fun _ _ created wrong => (by cases wrong)
  · rw [handled, committed]
    have given := given_of_createUser kept.consistent fresh verifier done
    refine issues_ret (lasting_given _ _ _) given ?_
    intro later held created same
    rw [← Except.ok.inj same]
    exact held

/-- Reading a user. -/
theorem getUserByID_issues
    {post : List (Event UserOp UserOp.Answer) →
      Except GoError ProxyUser → UserHost → Prop}
    (lasting : Lasting known) (holds : known host.database)
    (finish : ∀ past value (now : UserHost), known now.database →
      (∀ user, value = .ok user → user.id = id ∧ Named user now.database) →
        post past value now) :
    Issues target base call post (getUserByID id) past host := by
  refine issues_write lasting holds ?_
  intro now choice past held kept _
  have handled : now.handle (.selectUser id) choice =
      (UserHost.select choice (now.database.userRow id), now) := rfl
  rw [handled]
  cases answered : UserHost.select choice (now.database.userRow id) with
  | error error =>
      exact issues_ret lasting held fun later held =>
        finish past _ later held fun user wrong => (by cases wrong)
  | ok found =>
      cases found with
      | none =>
          exact issues_ret lasting held fun later held =>
            finish past _ later held fun user wrong => (by cases wrong)
      | some row =>
          have present : now.database.userRow id = some row := by
            unfold UserHost.select at answered
            split at answered
            · cases answered
            · exact Except.ok.inj answered
          obtain ⟨listed, rowId⟩ := lookup_mem present
          have named : ∀ user, scanUser row = .ok user →
              Named user now.database := fun user read =>
            named_of_row kept.consistent listed read
          refine issues_ret (lasting.and
            (Lasting.forall_ok lasting_named (scanUser row)))
            ⟨held, named⟩ fun later held => ?_
          refine finish past _ later held.1 fun user read => ?_
          exact ⟨(scanned_of_ok read).id.trans rowId, held.2 user read⟩

theorem rotateCredential_issues {next : Credential} {version : Int}
    {time : Time} (fresh : NotBefore base host.database)
    (verifier : VerifierOf password next.engineHash) :
    Issues target base call
      (fun _ value now => ∀ updated, value = .ok updated →
        Given base password updated now.database)
      (rotateCredential id next version time) past host := by
  refine issues_write (lasting_notBefore base) fresh ?_
  intro now choice past fresh kept _
  have handled : now.handle (.rotateCredential id next version time)
      choice =
      UserHost.transact choice now
        (rotateStatements id next version time) := rfl
  rcases UserHost.transact_cases choice now
      (rotateStatements id next version time) with
    ⟨error, failed⟩ | ⟨after, committed, done⟩
  · rw [handled, failed]
    exact issues_ret lasting_trivial trivial
      fun _ _ updated wrong => (by cases wrong)
  · rw [handled, committed]
    have issued : Issued base id password
        ({ now with database := after } : UserHost).database :=
      issued_of_rotate kept.consistent fresh verifier done
    refine getUserByID_issues (lasting_issued base id password) issued ?_
    intro past value later held read updated same
    obtain ⟨rightId, named⟩ := read updated same
    refine ⟨?_, named⟩
    rw [rightId]
    exact held

/-- What `Create` hands out. -/
theorem create_issues {input : CreateInput} {actor : Actor}
    (kept : WellKept host.database) (fresh : NotBefore base host.database) :
    Issues target base call
      (fun _ value now => ∀ user password, value = .ok (user, password) →
        Given base password user now.database)
      (create input actor) past host := by
  refine issues_skip (lasting_notBefore base) kept fresh ?_
  intro refused past now fresh kept
  cases refused with
  | some error =>
      exact issues_ret lasting_trivial trivial
        fun _ _ user password wrong => (by cases wrong)
  | none =>
      refine issues_skip (lasting_notBefore base) kept fresh ?_
      intro password past now fresh kept
      refine issues_then (lasting_notBefore base) kept fresh
        (newHashes_yields password) ?_
      intro hashes past now verifier fresh kept
      cases hashes with
      | error error =>
          exact issues_ret lasting_trivial trivial
            fun _ _ user password wrong => (by cases wrong)
      | ok hashes =>
          refine issues_skip (lasting_notBefore base) kept fresh ?_
          intro time past now fresh kept
          refine ensures_bind kept
            (createUser_issues kept fresh (verifier hashes rfl)) ?_
          intro past outcome now kept given
          refine issues_yields
            (Lasting.forall_ok (lasting_given base password) outcome) given
            (announceCreated_yields actor input.username password outcome) ?_
          intro past value later held announced _ user handed same
          obtain ⟨created, rfl⟩ := announced user handed same
          exact held user created

/-- What `RotateCredentials` hands out. -/
theorem rotateCredentials_issues {actor : Actor}
    (kept : WellKept host.database) (fresh : NotBefore base host.database) :
    Issues target base call
      (fun _ value now => ∀ user password, value = .ok (user, password) →
        Given base password user now.database)
      (rotateCredentials id password actor) past host := by
  refine issues_skip (lasting_notBefore base) kept fresh ?_
  intro current past now fresh kept
  cases current with
  | error error =>
      exact issues_ret lasting_trivial trivial
        fun _ _ user password wrong => (by cases wrong)
  | ok current =>
      refine issues_skip (lasting_notBefore base) kept fresh ?_
      intro replacement past now fresh kept
      cases replacement with
      | error error =>
          exact issues_ret lasting_trivial trivial
            fun _ _ user password wrong => (by cases wrong)
      | ok chosen =>
          refine issues_then (lasting_notBefore base) kept fresh
            (newHashes_yields chosen) ?_
          intro hashes past now verifier fresh kept
          cases hashes with
          | error error =>
              exact issues_ret lasting_trivial trivial
                fun _ _ user password wrong => (by cases wrong)
          | ok hashes =>
              refine issues_skip (lasting_notBefore base) kept fresh ?_
              intro createdAt past now fresh kept
              refine issues_skip (lasting_notBefore base) kept fresh ?_
              intro time past now fresh kept
              refine ensures_bind kept
                (rotateCredential_issues fresh (verifier hashes rfl)) ?_
              intro past outcome now kept given
              refine issues_then
                (Lasting.forall_ok (lasting_given base chosen) outcome) kept
                given (announce_yields actor _ _ _ outcome) ?_
              intro announced past now read given _
              refine issues_ret
                (Lasting.forall_ok (lasting_given base chosen) outcome)
                given fun later held user handed same => ?_
              cases announced with
              | error error => cases same
              | ok updated =>
                  obtain ⟨rfl, rfl⟩ := Prod.mk.inj (Except.ok.inj same)
                  exact held updated (read updated rfl)

theorem toOption_issues {outcome : Except GoError (ProxyUser × String)}
    (given : ∀ user password, outcome = .ok (user, password) →
      Given base password user host.database) :
    Issues target base call ((issueDiscipline target base).finished call)
      (.ret outcome.toOption) past host := by
  refine issues_ret
    (Lasting.forall_ok
      (fun handed : ProxyUser × String =>
        lasting_given base handed.2 handed.1) outcome)
    (fun handed done => given handed.1 handed.2 done) ?_
  intro later held _ user password handed
  cases outcome with
  | error error => cases handed
  | ok pair =>
      obtain rfl : pair = (user, password) := Option.some.inj handed
      exact held _ rfl

/-- Every call keeps the discipline. -/
theorem handsOut_issues (kept : WellKept host.database)
    (fresh : call = target → NotBefore base host.database) :
    Issues target base call ((issueDiscipline target base).finished call)
      call.handsOut past host := by
  by_cases other : call = target
  · have fresh := fresh other
    unfold UserCall.handsOut
    cases requested : call.request with
    | create input =>
        exact ensures_bind kept (create_issues kept fresh)
          fun _ _ _ _ given => toOption_issues given
    | rotateCredentials id password =>
        exact ensures_bind kept (rotateCredentials_issues kept fresh)
          fun _ _ _ _ given => toOption_issues given
    | _ =>
        have nothing : (call.program >>= fun _ =>
            (.ret none : UserProgram (Option (ProxyUser × String)))).Yields
              fun value => value = none :=
          yields_bind fun _ => rfl
        refine issues_yields lasting_trivial trivial nothing ?_
        intro past value now _ empty _ _ user password handed
        rw [empty] at handed
        cases handed
  · refine issues_yields lasting_trivial trivial
      (yields_of_forall (fun _ => trivial) _) ?_
    exact fun _ _ _ _ _ _ same => absurd same other

theorem issueObligations (target : UserCall) (base : Int) :
    Obligations issueMachine (issueDiscipline target base) where
  start := fun _ _ kept fresh => handsOut_issues kept fresh
  compatible := fun _ _ _ _ _ guaranteed => guaranteed
  outside := by
    intro flush host kept
    have since := WellKept.flush kept flush.failure flush.usage
      flush.destinations flush.cursor
    exact ⟨fun _ => since.2, since.1⟩

/-! ## Runs -/

/-- The pool after a schedule, from empty tables. -/
def issuePool (moves : List UserMove) :
    Pool UserOp UserOp.Answer (Option (ProxyUser × String)) UserCall
      UserHost :=
  Runs.run issueMachine.step
    (Machine.numbered UserCall.numbered 0 moves) (.idle { database := {} })

theorem meets_issueMoves (moves : List UserMove) :
    Runs.Meets issueMachine.step (issueDiscipline target base).Allows
      (Machine.numbered UserCall.numbered 0 moves)
      (.idle { database := {} }) :=
  meets_of_unconditional (fun _ _ _ _ _ => trivial)
    (Machine.meets_numbered
      (fun _ _ => rfl : ∀ number request,
        UserCall.number (UserCall.numbered number request) = number)
      moves (by simp))

/-- The tables before a call and at any time after it has returned. -/
theorem given_of_returned (earlier later : List UserMove)
    (request : UserRequest × Actor)
    {thread : Thread UserOp UserOp.Answer (Option (ProxyUser × String))
      UserCall}
    (member : thread ∈
      (issuePool (earlier ++ .start request :: later)).threads)
    (label : thread.label =
      UserCall.numbered (Machine.starts earlier) request)
    {user : ProxyUser} {password : String}
    (handed : thread.result = some (some (user, password))) :
    WellKept (issuePool (earlier ++ .start request :: later)).world.database ∧
      Given (issuePool earlier).world.database.credentialSequence password
        user
        (issuePool (earlier ++ .start request :: later)).world.database := by
  let target := UserCall.numbered (Machine.starts earlier) request
  let base := (issuePool earlier).world.database.credentialSequence
  have meets (base : Int) := @meets_issueMoves _ _ target base
    (earlier ++ .start request :: later)
  have split := Machine.numbered_append UserCall.numbered 0 earlier
    (.start request :: later : List UserMove)
  rw [Nat.zero_add, Machine.numbered] at split
  simp only [split, Runs.meets_append] at meets
  have initial : PoolSecure issueMachine (issueDiscipline target 0)
      (.idle { database := {} }) :=
    poolSecure_idle wellKept_empty fun _ _ => Int.le_refl 0
  have before : PoolSecure issueMachine (issueDiscipline target 0)
      (issuePool earlier) :=
    initial.run (issueObligations target 0) (meets 0).1
  have unstarted : target ∉ (issuePool earlier).started := (meets 0).2.1
  have expecting : PoolSecure issueMachine (issueDiscipline target base)
      (issuePool earlier) :=
    before.expecting
      (fun fresh succeeds same => (fresh same).trans succeeds.credentials)
      (fun _ _ _ => Int.le_refl base)
      fun call begun _ _ _ _ same => absurd (same ▸ begun) unstarted
  have whole : issuePool (earlier ++ .start request :: later) =
      Runs.run issueMachine.step
        (.start target :: Machine.numbered UserCall.numbered
          (Machine.starts earlier + 1) later) (issuePool earlier) := by
    rw [issuePool, split, Runs.run_append]
    rfl
  rw [whole] at member ⊢
  have after := expecting.run (issueObligations target base) (meets base).2
  exact ⟨after.invariant,
    after.finished_of_result member handed label user password rfl⟩

/-- What the engine is told of a user: the newest credential, which is the
one with a verifier of the password or was issued later. -/
structure ToldOf (before now : Database) (user : ProxyUser)
    (password : String) (told : User)
    (issued newest : CredentialRow) : Prop where
  username : told.username = user.username
  hash : told.engineHash = newest.engineHash
  held : issued ∈ now.credentials
  owner : issued.userID = user.id
  after : before.credentialSequence < issued.id
  verifier : VerifierOf password issued.engineHash
  heldNewest : newest ∈ now.credentials
  ownerNewest : newest.userID = user.id
  last : ∀ other ∈ now.credentials, other.userID = user.id →
    other.id ≤ newest.id

theorem toldOf_given {before now : Database} {user : ProxyUser}
    {password : String} (kept : WellKept now)
    (given : Given before.credentialSequence password user now)
    {instant : Time} {listed : List EngineUser}
    (done : now.listEngineUsers instant = .ok listed) {told : User}
    (member : told ∈ (buildEngineState listed instant).users)
    (same : told.recordNumber = user.id) :
    ∃ issued newest, ToldOf before now user password told issued newest := by
  obtain ⟨source, found, rfl⟩ := List.mem_map.mp member
  obtain ⟨row, stored, -, read, newest, joined, hash⟩ :=
    mem_of_listEngineUsers done (List.mem_filter.mp found).1
  have scanned := scanned_of_ok read
  have rowId : row.id = user.id := scanned.id.symm.trans same
  obtain ⟨issued, held, owner, after, verifier⟩ :=
    given.1.stored row stored rowId
  obtain ⟨heldNewest, active⟩ := List.mem_filter.mp joined
  obtain ⟨ownerNewest, inForce⟩ := of_decide_eq_true active
  rw [rowId] at ownerNewest
  exact ⟨issued, newest, {
    username := scanned.username.trans (given.2.named row stored rowId)
    hash := hash
    held := held
    owner := owner
    after := after
    verifier := verifier
    heldNewest := heldNewest
    ownerNewest := ownerNewest
    last := fun other present others =>
      kept.generations.newest newest heldNewest inForce other present
        (others.trans ownerNewest.symm) }⟩

/-- Once a call has returned a password, and however others are interleaved
with it, every state derived from the tables tells the engine of a verifier
of that password, or of one that was issued later: never of one that was
there when the call began. -/
theorem password_in_force (earlier later : List UserMove)
    (request : UserRequest × Actor)
    {thread : Thread UserOp UserOp.Answer (Option (ProxyUser × String))
      UserCall}
    (member : thread ∈
      (issuePool (earlier ++ .start request :: later)).threads)
    (label : thread.label =
      UserCall.numbered (Machine.starts earlier) request)
    {user : ProxyUser} {password : String}
    (handed : thread.result = some (some (user, password)))
    {instant : Time} {listed : List EngineUser}
    (done : Database.listEngineUsers
      (issuePool (earlier ++ .start request :: later)).world.database
      instant = .ok listed) {told : User}
    (derived : told ∈ (buildEngineState listed instant).users)
    (same : told.recordNumber = user.id) :
    ∃ issued newest,
      ToldOf (issuePool earlier).world.database
        (issuePool (earlier ++ .start request :: later)).world.database
        user password told issued newest := by
  obtain ⟨kept, given⟩ :=
    given_of_returned earlier later request member label handed
  exact toldOf_given kept given done derived same

end Machine

/-- Alice is created. -/
def createdAlice : List UserMove :=
  .start (.create sampleInput, ⟨"admin", "", "", ""⟩) ::
    List.replicate 8 (.advance 0 sampleChoice)

/-- The request that gives her another password. -/
def rotationOfAlice : UserRequest × Actor :=
  (.rotateCredentials 1 "staple battery horse", ⟨"admin", "", "", ""⟩)

/-- The pool in which it has returned. -/
def rotatedPool :
    Pool UserOp UserOp.Answer (Option (ProxyUser × String)) UserCall
      UserHost :=
  @issuePool Build.dev Blake2b.upstream (createdAlice ++
    .start rotationOfAlice :: List.replicate 9 (.advance 1 sampleChoice))

theorem rotatedPool_threads :
    (UserCall.numbered 1 rotationOfAlice,
        some (some (1, "alice", "staple battery horse"))) ∈
      rotatedPool.threads.map fun thread =>
        (thread.label, thread.result.map fun handed =>
          handed.map fun pair =>
            (pair.1.id, pair.1.username, pair.2)) := by
  decide +kernel

theorem rotatedPool_derived :
    (@Database.listEngineUsers Build.dev rotatedPool.world.database 0).map
      (fun listed => (buildEngineState listed 0).users.map
        User.recordNumber) = .ok [1] := by
  decide +kernel

theorem password_in_force_rotated :
    ∃ user told issued newest,
      @ToldOf Blake2b.upstream
        (@issuePool Build.dev Blake2b.upstream createdAlice).world.database
        rotatedPool.world.database user "staple battery horse" told issued
        newest := by
  obtain ⟨thread, member, shape⟩ := List.mem_map.mp rotatedPool_threads
  obtain ⟨label, result⟩ := Prod.mk.inj shape
  obtain ⟨handed, returned, pair⟩ := Option.map_eq_some_iff.mp result
  obtain ⟨⟨user, password⟩, rfl, same⟩ := Option.map_eq_some_iff.mp pair
  simp only [Prod.mk.injEq] at same
  obtain ⟨id, -, rfl⟩ := same
  have derived := rotatedPool_derived
  cases done :
      @Database.listEngineUsers Build.dev rotatedPool.world.database 0 with
  | error error =>
      rw [done] at derived
      cases derived
  | ok listed =>
      rw [done] at derived
      have records : (buildEngineState listed 0).users.map
          User.recordNumber = [1] := Except.ok.inj derived
      have one := List.mem_singleton_self (1 : Int)
      rw [← records] at one
      obtain ⟨told, there, record⟩ := List.mem_map.mp one
      exact ⟨user, told, @password_in_force Build.dev Blake2b.upstream
        createdAlice (List.replicate 9 (.advance 1 sampleChoice))
        rotationOfAlice thread member label user _ returned 0 listed done
        told there (record.trans id.symm)⟩

end Xoxproxy
