import Xoxproxy.Library.Lockstep
import Xoxproxy.Users.PasswordsInForce

/-!
# Where secrets do not go

Passwords, salts and hashes flow into the tables and, once, to the caller.
Two runs of the service that differ in nothing else leave the same audit
trail, report the same changes and errors, and keep tables that differ in
the hashes alone.  The errors of the store may differ as well, as long as
the service treats them alike.
-/

namespace Xoxproxy

open EffectPrograms EffectPrograms.Program RowTables Transactions

/-- What a call returns besides an error. -/
structure UserReply where
  user : Option ProxyUser := none
  password : Option String := none
  swept : Option Nat := none
  deriving DecidableEq, Repr

/-- The reply without the password that it hands out. -/
def UserReply.redact (reply : UserReply) : UserReply :=
  { reply with password := reply.password.map fun _ => "" }

def CredentialRow.redact (row : CredentialRow) : CredentialRow :=
  { row with engineHash := "", apiHash := "" }

/-- The tables without the hashes. -/
def Database.redact (database : Database) : Database :=
  { database with
    credentials := database.credentials.map CredentialRow.redact }

def HookCall.redact (hookCall : HookCall) : HookCall :=
  { hookCall with database := hookCall.database.redact }

/-- The entry that the operation adds to the audit trail. -/
def UserOp.audited : UserOp → Option AuditEntry
  | .recordAudit entry => some entry
  | _ => none

/-- What a run leaves behind, without its secrets: the tables, the reported
changes, and the audit entries of every call. -/
structure Trails where
  database : Database
  hookCalls : List HookCall
  entries : List (List AuditEntry)
  deriving DecidableEq

abbrev ReplyPool :=
  Pool UserOp UserOp.Answer (Except GoError UserReply) UserCall UserHost

def trails (pool : ReplyPool) : Trails where
  database := pool.world.database.redact
  hookCalls := pool.world.hookCalls.map HookCall.redact
  entries := pool.threads.map fun thread =>
    thread.past.filterMap fun event => event.op.audited

/-- What the calls have returned, without the passwords. -/
def replies (pool : ReplyPool) : List (Option (Except GoError UserReply)) :=
  pool.threads.map fun thread =>
    thread.result.map (Except.map UserReply.redact)

section Replies

variable [Build] [Blake2b]

/-- What the methods of the service return. -/
def UserCall.reply (call : UserCall) :
    UserProgram (Except GoError UserReply) :=
  let returned (outcome : Except GoError ProxyUser) :
      Except GoError UserReply :=
    outcome.map fun user => { user := some user }
  let handedOut (outcome : Except GoError (ProxyUser × String)) :
      Except GoError UserReply :=
    outcome.map fun pair => { user := some pair.1, password := some pair.2 }
  match call.request with
  | .create input => do
      let outcome ← create input call.actor
      pure (handedOut outcome)
  | .update id input => do
      let outcome ← update id input call.actor
      pure (returned outcome)
  | .enable id expectedVersion => do
      let outcome ← enable id expectedVersion call.actor
      pure (returned outcome)
  | .disable id expectedVersion => do
      let outcome ← disable id expectedVersion call.actor
      pure (returned outcome)
  | .rotateCredentials id password => do
      let outcome ← rotateCredentials id password call.actor
      pure (handedOut outcome)
  | .delete id => do
      let outcome ← delete id call.actor
      pure (outcome.map fun _ => {})
  | .sweepExpired => do
      let outcome ← sweepExpired
      pure (outcome.map fun swept => { swept := some swept })

/-- `userMachine`, for what the calls return. -/
def replyMachine :
    Machine UserOp UserOp.Answer (Except GoError UserReply) UserCall UserHost
      UserChoice Flush where
  program := UserCall.reply
  handle := userMachine.handle
  react := userMachine.react

/-- The pool after a schedule, from empty tables. -/
def replyPool (moves : List UserMove) : ReplyPool :=
  Runs.run replyMachine.step
    (Machine.numbered UserCall.numbered 0 moves) (.idle { database := {} })

end Replies

section Alike

variable (names : String → Prop) (errors : GoError → GoError → Prop)

/-- Passwords that pass or fail the same checks, for the given usernames. -/
structure PasswordsAlike [Build] (first second : String) : Prop where
  empty : first = "" ↔ second = ""
  checks : ∀ name, names name →
    validatePassword first name = validatePassword second name

/-- Requests that differ in their passwords at most. -/
inductive RequestsAlike [Build] : UserRequest → UserRequest → Prop
  | create {input : CreateInput} {password : String}
      (named : names input.username)
      (alike : PasswordsAlike names input.password password) :
      RequestsAlike (.create input)
        (.create { input with password := password })
  | rotateCredentials (id : Int) {password other : String}
      (alike : PasswordsAlike names password other) :
      RequestsAlike (.rotateCredentials id password)
        (.rotateCredentials id other)
  | update (id : Int) (input : UpdateInput) :
      RequestsAlike (.update id input) (.update id input)
  | enable (id expectedVersion : Int) :
      RequestsAlike (.enable id expectedVersion) (.enable id expectedVersion)
  | disable (id expectedVersion : Int) :
      RequestsAlike (.disable id expectedVersion)
        (.disable id expectedVersion)
  | delete (id : Int) : RequestsAlike (.delete id) (.delete id)
  | sweepExpired : RequestsAlike .sweepExpired .sweepExpired

/-- Errors of which the service makes the same. -/
structure TreatedAlike : Prop where
  refl : ∀ error, errors error error
  wrap : ∀ before behind error other, errors error other →
    errors (.wrap before error behind) (.wrap before other behind)
  conflict : ∀ error other, errors error other →
    error.is .storeConflict = other.is .storeConflict

/-- Failures of the store, of which `CreateUser` makes the same too. -/
def Injected (first second : GoError) : Prop :=
  errors first second ∧
    contains first.text "UNIQUE" = contains second.text "UNIQUE"

/-- The same clock and order, and alike failures; the random values are not
the same. -/
structure ChoicesAlike (first second : UserChoice) : Prop where
  failure : FailuresAlike (Injected errors) first.failure second.failure
  time : first.time = second.time
  order : first.order = second.order

/-- Schedules of which one is the other with different secrets. -/
abbrev MovesAlike [Build] : UserMove → UserMove → Prop :=
  ActionsAlike (ChoicesAlike errors) Eq fun first second =>
    RequestsAlike names first.1 second.1 ∧ first.2 = second.2

structure CallsAlike [Build] (first second : UserCall) : Prop where
  number : first.number = second.number
  actor : first.actor = second.actor
  request : RequestsAlike names first.request second.request

/-- Operations with nothing secret in them, and that add no user. -/
def UserOp.Plain : UserOp → Prop
  | .newAPIHash _ | .createUser _ _ | .rotateCredential _ _ _ _ => False
  | _ => True

inductive OpsAlike : UserOp → UserOp → Prop
  | plain {op : UserOp} (plain : op.Plain) : OpsAlike op op
  | newAPIHash (password other : String) :
      OpsAlike (.newAPIHash password) (.newAPIHash other)
  | createUser {user : ProxyUser} (named : names user.username)
      {initial other : Credential}
      (same : initial.createdAt = other.createdAt) :
      OpsAlike (.createUser user initial) (.createUser user other)
  | rotateCredential (id version : Int) (now : Time)
      {next other : Credential} (same : next.createdAt = other.createdAt) :
      OpsAlike (.rotateCredential id next version now)
        (.rotateCredential id other version now)

/-- The same value, or alike errors. -/
abbrev Same {Value : Type} :
    Except GoError Value → Except GoError Value → Prop :=
  OutcomesAlike errors Eq

/-- Alike errors, or none. -/
abbrev SameError {Value : Type} :
    Except GoError Value → Except GoError Value → Prop :=
  OutcomesAlike errors fun _ _ => True

/-- The answers are the same; secrets and the errors of the audit trail are
not looked at. -/
def AnswersAlike :
    (first second : UserOp) → first.Answer → second.Answer → Prop
  | .now, .now, answer, other => answer = other
  | .mapOrder, .mapOrder, answer, other => answer = other
  | .randomSalt, .randomSalt, answer, other => SameError errors answer other
  | .newAPIHash _, .newAPIHash _, answer, other =>
      SameError errors answer other
  | .generatePassword, .generatePassword, _, _ => True
  | .selectUser _, .selectUser _, answer, other =>
      Same errors answer other ∧
        ∀ row, answer = .ok (some row) → names row.username
  | .selectOne _, .selectOne _, answer, other => Same errors answer other
  | .updateUser _ _, .updateUser _ _, answer, other =>
      Same errors answer other
  | .setUserStatus _ _ _ _, .setUserStatus _ _ _ _, answer, other =>
      Same errors answer other
  | .deleteUser _, .deleteUser _, answer, other => Same errors answer other
  | .sweepExpired _, .sweepExpired _, answer, other =>
      Same errors answer other
  | .createUser _ _, .createUser _ _, answer, other =>
      Same errors answer other
  | .rotateCredential _ _ _ _, .rotateCredential _ _ _ _, answer, other =>
      Same errors answer other
  | .recordAudit _, .recordAudit _, _, _ => True
  | .notify _ _, .notify _ _, _, _ => True
  | _, _, _, _ => False

/-- Tables that differ in the hashes alone. -/
inductive TablesAlike : Database → Database → Prop
  | intro {database : Database} {credentials : List CredentialRow}
      (named : ∀ row ∈ database.users, names row.username)
      (same : database.credentials.map CredentialRow.redact =
        credentials.map CredentialRow.redact) :
      TablesAlike database { database with credentials := credentials }

structure HostsAlike (first second : UserHost) : Prop where
  tables : TablesAlike names first.database second.database
  hookCalls : first.hookCalls.map HookCall.redact =
    second.hookCalls.map HookCall.redact

/-- Replies that differ in the password, or alike errors. -/
abbrev RepliesAlike :
    Except GoError UserReply → Except GoError UserReply → Prop :=
  OutcomesAlike errors fun first second => first.redact = second.redact

/-- What counts as alike for the service. -/
def secrecy [Build] : Likeness UserOp UserOp.Answer (Except GoError UserReply)
    UserCall UserHost UserChoice Flush where
  op := OpsAlike names
  answer := AnswersAlike names errors
  value := RepliesAlike errors
  label := CallsAlike names
  world := HostsAlike names
  choice := ChoicesAlike errors
  outside := Eq

end Alike

/-! ## Operations -/

section Operations

variable {names : String → Prop} {errors : GoError → GoError → Prop}

theorem tablesAlike_refl {database : Database}
    (named : ∀ row ∈ database.users, names row.username) :
    TablesAlike names database database :=
  .intro named rfl

theorem TablesAlike.redact {first second : Database}
    (alike : TablesAlike names first second) :
    first.redact = second.redact := by
  cases alike with
  | intro named same =>
      unfold Database.redact
      simp only [same]

theorem TablesAlike.users {first second : Database}
    (alike : TablesAlike names first second) :
    first.users = second.users := by
  cases alike
  rfl

theorem TablesAlike.userSequence {first second : Database}
    (alike : TablesAlike names first second) :
    first.userSequence = second.userSequence := by
  cases alike
  rfl

theorem TablesAlike.named {first second : Database}
    (alike : TablesAlike names first second) :
    ∀ row ∈ first.users, names row.username := by
  cases alike with
  | intro named same => exact named

theorem TablesAlike.userRow {first second : Database}
    (alike : TablesAlike names first second) (id : Int) :
    first.userRow id = second.userRow id :=
  congrArg (fun rows => lookup UserRow.id rows id) alike.users

/-- Statements that change users and keep their names. -/
theorem TablesAlike.updateWhere {first second : Database}
    (alike : TablesAlike names first second)
    (condition : UserRow → Bool) {change : UserRow → UserRow}
    (kept : ∀ row, (change row).username = row.username) :
    TablesAlike names
      { first with users := updateWhere condition change first.users }
      { second with users := updateWhere condition change second.users } := by
  cases alike with
  | intro named same =>
      refine .intro (forall_updateWhere ?_ named) same
      intro row _ held
      rw [kept]
      exact held

theorem TablesAlike.updateUserRow {first second : Database}
    (alike : TablesAlike names first second) (id version : Int)
    (now : Time) (write : UserRow → UserRow)
    (kept : ∀ row, (write row).username = row.username) :
    (first.updateUserRow id version now write).1 =
        (second.updateUserRow id version now write).1 ∧
      TablesAlike names (first.updateUserRow id version now write).2
        (second.updateUserRow id version now write).2 :=
  ⟨congrArg (List.countP (rowHas id version)) alike.users,
    alike.updateWhere (rowHas id version) fun row => kept row⟩

theorem redact_deleteWhere (id : Int) (rows : List CredentialRow) :
    (deleteWhere (fun row => row.userID = id) rows).map
        CredentialRow.redact =
      deleteWhere (fun row => row.userID = id)
        (rows.map CredentialRow.redact) :=
  map_deleteWhere fun _ => rfl

theorem redact_revoke (id : Int) (now : Time) (rows : List CredentialRow) :
    (RowTables.updateWhere (activeFor id) (fun row => row.revoke now)
        rows).map CredentialRow.redact =
      RowTables.updateWhere (activeFor id) (fun row => row.revoke now)
        (rows.map CredentialRow.redact) :=
  map_updateWhere (fun _ => rfl) fun _ => rfl

theorem TablesAlike.deleteUser {first second : Database}
    (alike : TablesAlike names first second) (id : Int) :
    TablesAlike names (first.deleteUser id).2 (second.deleteUser id).2 := by
  cases alike with
  | @intro credentials named same =>
      refine .intro (fun row member => ?_) ?_
      · exact named row (mem_deleteWhere.mp member).1
      · unfold Database.deleteUser
        simp only [redact_deleteWhere, same]

theorem TablesAlike.insertCredential {first second : Database}
    (alike : TablesAlike names first second) (id : Int)
    {credential other : Credential}
    (same : credential.createdAt = other.createdAt) :
    TablesAlike names (first.insertCredential id credential)
      (second.insertCredential id other) := by
  cases alike with
  | @intro credentials named equal =>
      refine .intro named ?_
      unfold Database.insertCredential
      simp only [List.map_append, equal]
      simp only [List.map_cons, List.map_nil, CredentialRow.redact, same]

theorem TablesAlike.revoke {first second : Database}
    (alike : TablesAlike names first second) (id : Int) (now : Time) :
    TablesAlike names
      { first with
        credentials := RowTables.updateWhere (activeFor id)
          (fun row => row.revoke now) first.credentials }
      { second with
        credentials := RowTables.updateWhere (activeFor id)
          (fun row => row.revoke now) second.credentials } := by
  cases alike with
  | @intro credentials named same =>
      refine .intro named ?_
      simp only [redact_revoke, same]

/-- Statements that do alike things to alike tables. -/
abbrev Treats (names : String → Prop) (errors : GoError → GoError → Prop)
    (first second : Statement Database GoError) : Prop :=
  StatementsAlike (Injected errors) errors (TablesAlike names) first second

theorem createUserStatements_alike [Build] (treated : TreatedAlike errors)
    {user : ProxyUser} (named : names user.username)
    {initial other : Credential} :
    List.Forall₂ (Treats names errors) (createUserStatements user initial)
      (createUserStatements user other) := by
  refine .cons ⟨?_, ?_⟩ (.cons ⟨?_, fun _ _ injected => injected.1⟩ .nil)
  · intro first second alike
    cases alike with
    | @intro credentials listed same =>
        unfold insertUser
        cases found : lookup UserRow.username first.users user.username with
        | some row =>
            simp only [found]
            exact .error (treated.refl _)
        | none =>
            simp only [found]
            refine .ok (.intro ?_ same)
            intro row member
            rcases List.mem_append.mp member with old | new
            · exact listed row old
            · rw [List.mem_singleton.mp new]
              exact named
  · intro error also injected
    unfold insertUser
    simp only [injected.2]
    by_cases taken : contains also.text "UNIQUE" = true
    · rw [if_pos taken, if_pos taken]
      exact treated.refl _
    · rw [if_neg taken, if_neg taken]
      exact injected.1
  · intro first second alike
    unfold insertInitial
    simp only [alike.userSequence]
    exact .ok (alike.insertCredential second.userSequence rfl)

theorem bumpVersion_alike (treated : TreatedAlike errors)
    (id version : Int) (now : Time) :
    Treats names errors (bumpVersion id version now)
      (bumpVersion id version now) := by
  refine ⟨?_, fun _ _ injected => injected.1⟩
  intro first second alike
  have written :=
    alike.updateUserRow id version now (fun row => row) fun _ => rfl
  unfold bumpVersion
  simp only [written.1, alike.userRow id]
  by_cases none :
      (second.updateUserRow id version now fun row => row).1 = 0
  · rw [if_pos none, if_pos none]
    cases second.userRow id with
    | none => exact .error (treated.refl _)
    | some row => exact .error (treated.refl _)
  · rw [if_neg none, if_neg none]
    exact .ok written.2

theorem rotateStatements_alike (treated : TreatedAlike errors)
    (id version : Int) (now : Time) {next other : Credential}
    (same : next.createdAt = other.createdAt) :
    List.Forall₂ (Treats names errors)
      (rotateStatements id next version now)
      (rotateStatements id other version now) := by
  refine .cons (bumpVersion_alike treated id version now)
    (.cons ⟨?_, fun _ _ injected => injected.1⟩
      (.cons ⟨?_, fun _ _ injected => injected.1⟩ .nil))
  · exact fun first second alike => .ok (alike.revoke id now)
  · exact fun first second alike =>
      .ok (alike.insertCredential id (congrArg (orTime · now) same))

theorem referring_alike {first second changed written : Database}
    (alike : TablesAlike names first second) (id : Int)
    (after : TablesAlike names changed written) :
    OutcomesAlike Eq (TablesAlike names) (first.referring id changed)
      (second.referring id written) := by
  unfold Database.referring
  rw [alike.userRow id]
  cases second.userRow id with
  | none => exact .error rfl
  | some row => exact .ok after

/-- Statements about traffic do the same to tables that are alike. -/
theorem applyDeltasStatements_alike (usage : List UsageDelta)
    (destinations : List DestinationDelta) (cursor : LogCursor) :
    List.Forall₂ (StatementsAlike Eq Eq (TablesAlike names))
      (applyDeltasStatements usage destinations cursor)
      (applyDeltasStatements usage destinations cursor) := by
  rw [List.forall₂_same]
  intro statement member
  unfold applyDeltasStatements at member
  have upserted (delta : UsageDelta) (period granularity : String) :
      StatementsAlike Eq Eq (TablesAlike names)
        (addUsage delta period granularity)
        (addUsage delta period granularity) := by
    refine ⟨fun first second alike => ?_, fun _ _ same => same⟩
    apply referring_alike alike
    cases alike with
    | intro named same => exact .intro named same
  rcases List.mem_append.mp member with traffic | last
  · rcases List.mem_append.mp traffic with ledger | destination
    · obtain ⟨delta, -, listed⟩ := List.mem_flatMap.mp ledger
      rcases List.mem_append.mp listed with upserts | stamp
      · rcases List.mem_pair.mp upserts with rfl | rfl
        · exact upserted delta delta.day "day"
        · exact upserted delta delta.month "month"
      · by_cases positive : 0 < delta.lastSeenUnix
        · rw [if_pos positive, List.mem_singleton] at stamp
          rw [stamp]
          exact ⟨fun first second alike =>
            .ok (alike.updateWhere _ fun _ => rfl), fun _ _ same => same⟩
        · rw [if_neg positive] at stamp
          cases stamp
    · obtain ⟨delta, -, rfl⟩ := List.mem_map.mp destination
      refine ⟨fun first second alike => ?_, fun _ _ same => same⟩
      apply referring_alike alike
      cases alike with
      | intro named same => exact .intro named same
  · rw [List.mem_singleton.mp last]
    refine ⟨fun first second alike => .ok ?_, fun _ _ same => same⟩
    cases alike with
    | intro named same => exact .intro named same

theorem failuresAlike_refl (failure : Failure GoError) :
    FailuresAlike Eq failure failure := by
  intro index
  cases failure.at index with
  | none => exact .none
  | some error => exact .some rfl

/-! ## The handler -/

section Handler

variable {choice another : UserChoice} {host around : UserHost}

theorem select_alike (choices : ChoicesAlike errors choice another)
    {Found : Type} {found other : Found} {related : Found → Found → Prop}
    (pair : related found other) :
    OutcomesAlike errors related (UserHost.select choice found)
      (UserHost.select another other) := by
  unfold UserHost.select
  rcases rel_cases (choices.failure 0) with
    ⟨sound, fine⟩ | ⟨error, also, failed, wrong, injected⟩
  · simp only [sound, fine]
    exact .ok pair
  · simp only [failed, wrong]
    exact .error injected.1

/-- A row that was found is in the table. -/
theorem mem_of_select {id : Int} {row : UserRow}
    (read : UserHost.select choice (host.database.userRow id) =
      .ok (some row)) : row ∈ host.database.users := by
  unfold UserHost.select at read
  cases failed : choice.failure.at 0 with
  | some error =>
      rw [failed] at read
      cases read
  | none =>
      rw [failed] at read
      exact (lookup_mem (Except.ok.inj read)).1

theorem change_alike (choices : ChoicesAlike errors choice another)
    (hosts : HostsAlike names host around)
    {changed written : Nat × Database} (affected : changed.1 = written.1)
    (tables : TablesAlike names changed.2 written.2) :
    Same errors (UserHost.change choice host changed).1
        (UserHost.change another around written).1 ∧
      HostsAlike names (UserHost.change choice host changed).2
        (UserHost.change another around written).2 := by
  unfold UserHost.change
  rcases rel_cases (choices.failure 0) with
    ⟨sound, fine⟩ | ⟨error, also, failed, wrong, injected⟩
  · simp only [sound, fine]
    exact ⟨.ok affected, tables, hosts.hookCalls⟩
  · simp only [failed, wrong]
    exact ⟨.error injected.1, hosts⟩

theorem transacted_alike (choices : ChoicesAlike errors choice another)
    (hosts : HostsAlike names host around)
    {statements others : List (Statement Database GoError)}
    (alike : List.Forall₂ (Treats names errors) statements others) :
    SameError errors (UserHost.transact choice host statements).1
        (UserHost.transact another around others).1 ∧
      HostsAlike names (UserHost.transact choice host statements).2
        (UserHost.transact another around others).2 := by
  have both := transact_alike choices.failure
    (fun _ _ injected => injected.1) alike hosts.tables
  exact ⟨both.1, both.2, hosts.hookCalls⟩

theorem same_of_unit {first second : Except GoError Unit}
    (alike : SameError errors first second) : Same errors first second := by
  cases alike with
  | error alike => exact .error alike
  | ok _ => exact .ok rfl

/-- Alike operations are answered alike and leave alike hosts. -/
theorem handle_alike [Build] (treated : TreatedAlike errors)
    (hosts : HostsAlike names host around)
    (choices : ChoicesAlike errors choice another) {op other : UserOp}
    (alike : OpsAlike names op other) :
    AnswersAlike names errors op other (host.handle op choice).1
        (around.handle other another).1 ∧
      HostsAlike names (host.handle op choice).2
        (around.handle other another).2 := by
  have tables := hosts.tables
  cases alike with
  | newAPIHash => exact ⟨select_alike choices trivial, hosts⟩
  | @createUser user named initial other same =>
      have both := transacted_alike choices hosts
        (@createUserStatements_alike _ _ _ treated user named initial other)
      refine ⟨?_, both.2⟩
      unfold UserHost.handle
      rcases both.1.eqs with
        ⟨error, also, failed, wrong, alike⟩ | ⟨done, made, ok, fine, -⟩
      · simp only [failed, wrong]
        exact .error alike
      · simp only [ok, fine]
        exact .ok both.2.tables.userSequence
  | rotateCredential id version now same =>
      have both := transacted_alike choices hosts
        (rotateStatements_alike treated id version now same)
      exact ⟨same_of_unit both.1, both.2⟩
  | plain plain =>
      cases op with
      | now => exact ⟨choices.time, hosts⟩
      | mapOrder => exact ⟨choices.order, hosts⟩
      | randomSalt => exact ⟨select_alike choices trivial, hosts⟩
      | generatePassword => exact ⟨trivial, hosts⟩
      | selectUser id =>
          exact ⟨⟨select_alike choices (tables.userRow id),
            fun row read => tables.named row (mem_of_select read)⟩, hosts⟩
      | selectOne id =>
          exact ⟨select_alike choices
            (congrArg Option.isSome (tables.userRow id)), hosts⟩
      | updateUser user now =>
          have both := tables.updateUserRow user.id user.version now
            (fun row => row.writeUser user) fun _ => rfl
          exact change_alike choices hosts both.1 both.2
      | setUserStatus id status expectedVersion now =>
          have both := tables.updateUserRow id expectedVersion now
            (fun row => row.writeStatus status) fun _ => rfl
          exact change_alike choices hosts both.1 both.2
      | deleteUser id =>
          exact change_alike choices hosts
            (congrArg (List.countP fun row : UserRow => row.id = id)
              tables.users)
            (tables.deleteUser id)
      | sweepExpired now =>
          exact change_alike choices hosts
            (congrArg (List.countP (Database.sweeps now)) tables.users)
            (tables.updateWhere (Database.sweeps now) fun _ => rfl)
      | recordAudit entry => exact ⟨trivial, hosts⟩
      | notify actor reason =>
          refine ⟨trivial, tables, ?_⟩
          unfold UserHost.handle
          simp only [List.map_append, hosts.hookCalls]
          simp only [List.map_cons, List.map_nil, HookCall.redact,
            tables.redact]
      | newAPIHash _ | createUser _ _ | rotateCredential _ _ _ _ =>
          cases plain

end Handler

end Operations

/-! ## Programs -/

section Programs

variable {names : String → Prop} {errors : GoError → GoError → Prop}
variable {Value Result : Type}

variable (names errors) in
/-- The programs tell nothing apart that is alike. -/
abbrev Matched (ends : Value → Result → Prop) (first : UserProgram Value)
    (second : UserProgram Result) : Prop :=
  Alike (OpsAlike names) (AnswersAlike names errors) ends first second

theorem auditAction_matched (actor : Actor)
    (action target result detail : String) :
    Matched names errors Eq (auditAction actor action target result detail)
      (auditAction actor action target result detail) :=
  alike_invoke (.plain trivial) fun _ _ _ => .ret rfl

section Reading

variable [Build]

/-- What is read is the same, and has one of the names. -/
theorem getUserByID_named (treated : TreatedAlike errors) (id : Int) :
    Matched names errors
      (fun outcome other => Same errors outcome other ∧
        ∀ user, outcome = .ok user → names user.username)
      (getUserByID id) (getUserByID id) := by
  refine alike_invoke (.plain trivial) fun answer other alike => ?_
  obtain ⟨same, named⟩ := alike
  rcases same.eqs with
    ⟨error, also, rfl, rfl, alike⟩ | ⟨found, _, rfl, rfl, rfl⟩
  · exact .ret ⟨.error alike, fun user wrong => (by cases wrong)⟩
  cases found with
  | none =>
      exact .ret ⟨.error (treated.refl _), fun user wrong =>
        (by cases wrong)⟩
  | some row =>
      refine .ret ⟨?_, fun user read => ?_⟩
      · cases scanUser row with
        | error error => exact .error (treated.refl error)
        | ok user => exact .ok rfl
      · rw [(scanned_of_ok read).username]
        exact named row rfl

theorem getUserByID_matched (treated : TreatedAlike errors) (id : Int) :
    Matched names errors (Same errors) (getUserByID id) (getUserByID id) :=
  (getUserByID_named treated id).imp fun _ _ both => both.1

theorem afterUpdate_matched (treated : TreatedAlike errors) (id : Int)
    {affected other : Except GoError Nat} (same : Same errors affected other) :
    Matched names errors (Same errors) (afterUpdate id affected)
      (afterUpdate id other) := by
  rcases same.eqs with
    ⟨error, also, rfl, rfl, alike⟩ | ⟨count, _, rfl, rfl, rfl⟩
  · exact .ret (.error alike)
  cases count with
  | succ count => exact getUserByID_matched treated id
  | zero =>
      refine alike_invoke (.plain trivial) fun answer other answers => ?_
      rcases OutcomesAlike.eqs answers with
        ⟨error, also, rfl, rfl, alike⟩ | ⟨present, _, rfl, rfl, rfl⟩
      · exact .ret (.error alike)
      · cases present with
        | false => exact .ret (.error (treated.refl _))
        | true => exact .ret (.error (treated.refl _))

omit [Build] in
theorem announce_matched (treated : TreatedAlike errors) (actor : Actor)
    (action username : String) (summary : ProxyUser → String)
    {outcome other : Except GoError ProxyUser}
    (same : Same errors outcome other) :
    Matched names errors (Same errors)
      (announce actor action username summary outcome)
      (announce actor action username summary other) := by
  unfold announce
  rcases same.eqs with
    ⟨error, also, rfl, rfl, alike⟩ | ⟨updated, _, rfl, rfl, rfl⟩
  · simp only [treated.conflict error also alike]
    by_cases conflict : also.is .storeConflict = true
    · simp only [conflict, if_true]
      exact alike_bind (auditAction_matched _ _ _ _ _) fun _ _ _ =>
        .ret (.error (treated.refl _))
    · simp only [conflict]
      exact .ret (.error alike)
  · refine alike_bind (auditAction_matched _ _ _ _ _) fun _ _ _ => ?_
    exact alike_invoke (.plain trivial) fun _ _ _ => .ret (.ok rfl)

theorem update_matched (treated : TreatedAlike errors) (id : Int)
    (input : UpdateInput) (actor : Actor) :
    Matched names errors (Same errors) (update id input actor)
      (update id input actor) := by
  refine alike_bind (getUserByID_matched treated id) ?_
  intro outcome other same
  rcases same.eqs with
    ⟨error, also, rfl, rfl, alike⟩ | ⟨current, _, rfl, rfl, rfl⟩
  · exact .ret (.error alike)
  by_cases stale : input.version = 0 ∨ input.version ≠ current.version
  · simp only [stale, if_true]
    exact .ret (.error (treated.refl _))
  simp only [stale, if_false]
  refine alike_invoke (.plain trivial) fun order again alike => ?_
  obtain rfl : order = again := alike
  cases validateMutated order (input.merge current) with
  | some error => exact .ret (.error (treated.refl _))
  | none =>
      refine alike_bind ?_ fun _ _ same =>
        announce_matched treated _ _ _ _ same
      refine alike_invoke (.plain trivial) fun now again alike => ?_
      obtain rfl : now = again := alike
      exact alike_invoke (.plain trivial) fun _ _ same =>
        afterUpdate_matched treated _ same

theorem transition_matched (treated : TreatedAlike errors) (id : Int)
    (status : UserStatus) (expectedVersion : Int) (actor : Actor)
    (action : String) :
    Matched names errors (Same errors)
      (transition id status expectedVersion actor action)
      (transition id status expectedVersion actor action) := by
  refine alike_bind (getUserByID_matched treated id) ?_
  intro outcome other same
  rcases same.eqs with
    ⟨error, also, rfl, rfl, alike⟩ | ⟨current, _, rfl, rfl, rfl⟩
  · exact .ret (.error alike)
  refine alike_invoke (.plain trivial) fun now again alike => ?_
  obtain rfl : now = again := alike
  refine alike_bind ?_ fun _ _ same =>
    announce_matched treated _ _ _ _ same
  exact alike_invoke (.plain trivial) fun _ _ same =>
    afterUpdate_matched treated id same

theorem enable_matched (treated : TreatedAlike errors)
    (id expectedVersion : Int) (actor : Actor) :
    Matched names errors (Same errors) (enable id expectedVersion actor)
      (enable id expectedVersion actor) := by
  refine alike_bind (getUserByID_matched treated id) ?_
  intro outcome other same
  rcases same.eqs with
    ⟨error, also, rfl, rfl, alike⟩ | ⟨current, _, rfl, rfl, rfl⟩
  · exact .ret (.error alike)
  cases expiry : current.expiresAt with
  | none =>
      simp only [expiry]
      exact transition_matched treated _ _ _ _ _
  | some expiresAt =>
      simp only [expiry]
      refine alike_invoke (.plain trivial) fun now again alike => ?_
      obtain rfl : now = again := alike
      by_cases past : expiresAt ≤ now
      · simp only [past, if_true]
        exact .ret (.error (treated.refl _))
      · simp only [past, if_false]
        exact transition_matched treated _ _ _ _ _

theorem delete_matched (treated : TreatedAlike errors) (id : Int)
    (actor : Actor) :
    Matched names errors (Same errors) (delete id actor)
      (delete id actor) := by
  refine alike_bind (getUserByID_matched treated id) ?_
  intro outcome other same
  rcases same.eqs with
    ⟨error, also, rfl, rfl, alike⟩ | ⟨current, _, rfl, rfl, rfl⟩
  · exact .ret (.error alike)
  refine alike_invoke (.plain trivial) fun affected again answers => ?_
  rcases OutcomesAlike.eqs answers with
    ⟨error, also, rfl, rfl, alike⟩ | ⟨count, _, rfl, rfl, rfl⟩
  · exact .ret (.error alike)
  cases count with
  | zero => exact .ret (.error (treated.refl _))
  | succ count =>
      refine alike_bind (auditAction_matched _ _ _ _ _) fun _ _ _ => ?_
      exact alike_invoke (.plain trivial) fun _ _ _ => .ret (.ok rfl)

omit [Build] in
theorem sweepExpired_matched :
    Matched names errors (Same errors) sweepExpired sweepExpired := by
  refine alike_invoke (.plain trivial) fun now again alike => ?_
  obtain rfl : now = again := alike
  refine alike_invoke (.plain trivial) fun affected again answers => ?_
  rcases OutcomesAlike.eqs answers with
    ⟨error, also, rfl, rfl, alike⟩ | ⟨count, _, rfl, rfl, rfl⟩
  · exact .ret (.error alike)
  cases count with
  | zero => exact .ret (.ok rfl)
  | succ count =>
      refine alike_bind (auditAction_matched _ _ _ _ _) fun _ _ _ => ?_
      exact alike_invoke (.plain trivial) fun _ _ _ => .ret (.ok rfl)

end Reading

section Secret

variable [Build]

theorem checkNew_matched {input : CreateInput} {password : String}
    (named : names input.username)
    (alike : PasswordsAlike names input.password password) :
    Matched names errors Eq (checkNew input)
      (checkNew { input with password := password }) := by
  have same (order : MapOrder) (now : Time) :
      validateNew order now { input with password := password } =
        validateNew order now input := by
    unfold validateNew
    simp only [alike.empty, alike.checks _ named]
  unfold checkNew
  simp only [same]
  refine alike_invoke (.plain trivial) fun order again answers => ?_
  obtain rfl : order = again := answers
  cases input.expiresAt with
  | none => exact .ret rfl
  | some expiresAt =>
      refine alike_invoke (.plain trivial) fun now again answers => ?_
      obtain rfl : now = again := answers
      exact .ret rfl

theorem choosePassword_matched {password other : String}
    (alike : PasswordsAlike names password other) :
    Matched names errors (fun _ _ => True) (choosePassword password)
      (choosePassword other) := by
  unfold choosePassword
  simp only [alike.empty]
  by_cases empty : other = ""
  · rw [if_pos empty, if_pos empty]
    exact .call (.plain trivial) fun _ _ _ => .ret trivial
  · rw [if_neg empty, if_neg empty]
    exact .ret trivial

theorem replacementPassword_matched (treated : TreatedAlike errors)
    {password other username : String} (named : names username)
    (alike : PasswordsAlike names password other) :
    Matched names errors (SameError errors)
      (replacementPassword password username)
      (replacementPassword other username) := by
  unfold replacementPassword
  simp only [alike.empty, alike.checks username named]
  by_cases empty : other = ""
  · rw [if_pos empty, if_pos empty]
    exact .call (.plain trivial) fun _ _ _ => .ret (.ok trivial)
  · rw [if_neg empty, if_neg empty]
    cases validatePassword other username with
    | some error => exact .ret (.error (treated.refl error))
    | none => exact .ret (.ok trivial)

omit [Build] in
theorem createUser_matched {user : ProxyUser} (named : names user.username)
    {initial other : Credential}
    (same : initial.createdAt = other.createdAt) :
    Matched names errors (Same errors) (createUser user initial)
      (createUser user other) := by
  refine alike_invoke (.plain trivial) fun now again answers => ?_
  obtain rfl : now = again := answers
  refine alike_invoke ?_ fun answer also answers => ?_
  · apply OpsAlike.createUser
    · exact named
    · exact same
  rcases OutcomesAlike.eqs answers with
    ⟨error, also, rfl, rfl, alike⟩ | ⟨id, _, rfl, rfl, rfl⟩
  · exact .ret (.error alike)
  · exact .ret (.ok rfl)

theorem rotateCredential_matched (treated : TreatedAlike errors)
    {id version : Int} {now : Time} {next other : Credential}
    (same : next.createdAt = other.createdAt) :
    Matched names errors (Same errors)
      (rotateCredential id next version now)
      (rotateCredential id other version now) := by
  refine alike_invoke (.rotateCredential id version now same)
    fun answer also answers => ?_
  rcases OutcomesAlike.eqs answers with
    ⟨error, also, rfl, rfl, alike⟩ | ⟨done, _, rfl, rfl, rfl⟩
  · exact .ret (.error alike)
  · exact getUserByID_matched treated id

/-- The same user with passwords of their own, or alike errors. -/
abbrev HandedOut (errors : GoError → GoError → Prop) :
    Except GoError (ProxyUser × String) →
      Except GoError (ProxyUser × String) → Prop :=
  OutcomesAlike errors fun first second => first.1 = second.1

omit [Build] in
theorem announceCreated_matched (treated : TreatedAlike errors)
    (actor : Actor) (username password other : String)
    {outcome again : Except GoError ProxyUser}
    (same : Same errors outcome again) :
    Matched names errors (HandedOut errors)
      (announceCreated actor username password outcome)
      (announceCreated actor username other again) := by
  unfold announceCreated
  rcases same.eqs with
    ⟨error, also, rfl, rfl, alike⟩ | ⟨created, _, rfl, rfl, rfl⟩
  · simp only [treated.conflict error also alike]
    by_cases conflict : also.is .storeConflict = true
    · simp only [conflict, if_true]
      exact alike_bind (auditAction_matched _ _ _ _ _) fun _ _ _ =>
        .ret (.error (treated.refl _))
    · simp only [conflict]
      exact .ret (.error alike)
  · refine alike_bind (auditAction_matched _ _ _ _ _) fun _ _ _ => ?_
    exact alike_invoke (.plain trivial) fun _ _ _ => .ret (.ok rfl)

variable [Blake2b]

omit [Build] in
theorem newHashes_matched (treated : TreatedAlike errors)
    (password other : String) :
    Matched names errors (SameError errors) (newHashes password)
      (newHashes other) := by
  refine alike_invoke (.plain trivial) fun salt again answers => ?_
  rcases OutcomesAlike.eqs answers with
    ⟨error, also, rfl, rfl, alike⟩ | ⟨bytes, others, rfl, rfl, -⟩
  · exact .ret (.error
      (treated.wrap _ _ _ _ (treated.wrap _ _ _ _ alike)))
  refine alike_invoke (.newAPIHash password other)
    fun hash again answers => ?_
  rcases OutcomesAlike.eqs answers with
    ⟨error, also, rfl, rfl, alike⟩ | ⟨text, texts, rfl, rfl, -⟩
  · exact .ret (.error (treated.wrap _ _ _ _ alike))
  · exact .ret (.ok trivial)

theorem create_matched (treated : TreatedAlike errors)
    {input : CreateInput} {password : String}
    (named : names input.username)
    (alike : PasswordsAlike names input.password password)
    (actor : Actor) :
    Matched names errors (HandedOut errors) (create input actor)
      (create { input with password := password } actor) := by
  refine alike_bind (checkNew_matched named alike) ?_
  rintro refused _ rfl
  cases refused with
  | some error => exact .ret (.error (treated.refl error))
  | none =>
      refine alike_bind (choosePassword_matched alike) fun chosen other _ => ?_
      refine alike_bind (newHashes_matched treated chosen other) ?_
      intro hashes others same
      rcases same.eqs with
        ⟨error, also, rfl, rfl, alike⟩ | ⟨pair, also, rfl, rfl, -⟩
      · exact .ret (.error alike)
      refine alike_invoke (.plain trivial) fun now again answers => ?_
      obtain rfl : now = again := answers
      exact alike_bind (createUser_matched named rfl) fun _ _ same =>
        announceCreated_matched treated actor input.username chosen other
          same

theorem rotateCredentials_matched (treated : TreatedAlike errors) {id : Int}
    {password other : String} (alike : PasswordsAlike names password other)
    (actor : Actor) :
    Matched names errors (HandedOut errors)
      (rotateCredentials id password actor)
      (rotateCredentials id other actor) := by
  refine alike_bind (getUserByID_named treated id) ?_
  rintro outcome again ⟨same, named⟩
  rcases same.eqs with
    ⟨error, also, rfl, rfl, alike⟩ | ⟨current, _, rfl, rfl, rfl⟩
  · exact .ret (.error alike)
  refine alike_bind
    (replacementPassword_matched treated (named current rfl) alike) ?_
  intro first second same
  rcases same.eqs with
    ⟨error, also, rfl, rfl, alike⟩ | ⟨chosen, also, rfl, rfl, -⟩
  · exact .ret (.error alike)
  refine alike_bind (newHashes_matched treated chosen also) ?_
  intro first second same
  rcases same.eqs with
    ⟨error, also, rfl, rfl, alike⟩ | ⟨hashes, others, rfl, rfl, -⟩
  · exact .ret (.error alike)
  refine alike_invoke (.plain trivial) fun created again answers => ?_
  obtain rfl : created = again := answers
  refine alike_invoke (.plain trivial) fun now again answers => ?_
  obtain rfl : now = again := answers
  refine alike_bind (rotateCredential_matched treated rfl) ?_
  intro outcome again same
  refine alike_bind (announce_matched treated _ _ _ _ same) ?_
  intro announced again same
  rcases same.eqs with
    ⟨error, also, rfl, rfl, alike⟩ | ⟨updated, _, rfl, rfl, rfl⟩
  · exact .ret (.error alike)
  · exact .ret (.ok rfl)

omit [Build] [Blake2b] in
/-- What a call makes of the end of its program. -/
theorem matched_reply {related : Value → Value → Prop}
    {first second : UserProgram (Except GoError Value)}
    (matched : Matched names errors (OutcomesAlike errors related) first
      second)
    {make : Value → UserReply}
    (same : ∀ value other, related value other →
      (make value).redact = (make other).redact) :
    Matched names errors (RepliesAlike errors)
      (first >>= fun outcome => pure (outcome.map make))
      (second >>= fun outcome => pure (outcome.map make)) := by
  refine alike_bind matched fun outcome other alike => ?_
  cases alike with
  | error alike => exact .ret (.error alike)
  | ok pair => exact .ret (.ok (same _ _ pair))

/-- Alike calls do alike things and return the same but for a password. -/
theorem reply_matched (treated : TreatedAlike errors)
    {call other : UserCall} (alike : CallsAlike names call other) :
    Matched names errors (RepliesAlike errors) call.reply other.reply := by
  obtain ⟨number, request, actor⟩ := call
  obtain ⟨also, requested, author⟩ := other
  obtain ⟨-, actors, requests⟩ := alike
  obtain rfl : actor = author := actors
  have returned {Value : Type} (make : Value → UserReply) :
      ∀ value other : Value, value = other →
        (make value).redact = (make other).redact :=
    fun value other same => congrArg (fun value => (make value).redact) same
  unfold UserCall.reply
  cases requests with
  | create named same =>
      refine matched_reply (create_matched treated named same actor) ?_
      intro pair other same
      simp only [UserReply.redact, same, Option.map_some]
  | rotateCredentials id same =>
      refine matched_reply (rotateCredentials_matched treated same actor) ?_
      intro pair other same
      simp only [UserReply.redact, same, Option.map_some]
  | update id input =>
      exact matched_reply (update_matched treated id input actor)
        (returned _)
  | enable id version =>
      exact matched_reply (enable_matched treated id version actor)
        (returned _)
  | disable id version =>
      exact matched_reply
        (transition_matched treated id .disabled version actor _)
        (returned _)
  | delete id =>
      exact matched_reply (delete_matched treated id actor) (returned _)
  | sweepExpired => exact matched_reply sweepExpired_matched (returned _)

end Secret

end Programs

/-! ## Runs -/

section Schedules

variable [Build] [Blake2b]
variable {names : String → Prop} {errors : GoError → GoError → Prop}

/-- The service tells nothing apart that is alike. -/
theorem replyMachine_respects (treated : TreatedAlike errors) :
    (replyMachine).Respects (secrecy names errors) where
  program := fun _ _ alike => reply_matched treated alike
  handle := fun _ _ _ _ _ ops _ _ choices _ _ hosts =>
    .some (handle_alike treated hosts choices ops)
  react := by
    rintro flush _ rfl host around hosts
    exact ⟨(transact_alike (failuresAlike_refl flush.failure)
        (fun _ _ same => same)
        (applyDeltasStatements_alike flush.usage flush.destinations
          flush.cursor) hosts.tables).2,
      hosts.hookCalls⟩

theorem replyPool_alike (treated : TreatedAlike errors)
    {moves others : List UserMove}
    (alike : List.Forall₂ (MovesAlike names errors) moves others) :
    PoolsAlike (secrecy names errors) (replyPool moves)
      (replyPool others) := by
  have numbered : List.Forall₂
      (ActionsAlike (ChoicesAlike errors) Eq (CallsAlike names))
      (Machine.numbered UserCall.numbered 0 moves)
      (Machine.numbered UserCall.numbered 0 others) :=
    numbered_alike (fun _ _ _ same => ⟨rfl, same.2, same.1⟩) alike 0
  exact PoolsAlike.run (replyMachine_respects treated) numbered
    (poolsAlike_idle ⟨tablesAlike_refl (by simp), rfl⟩)

omit [Build] [Blake2b] in
theorem OpsAlike.audited {op other : UserOp}
    (alike : OpsAlike names op other) : op.audited = other.audited := by
  cases alike <;> rfl

omit [Blake2b] in
/-- Threads that are alike have returned alike replies, or none. -/
theorem result_alike
    {thread other :
      Thread UserOp UserOp.Answer (Except GoError UserReply) UserCall}
    (alike : ThreadsAlike (secrecy names errors) thread other) :
    Option.Rel (RepliesAlike errors) thread.result other.result := by
  obtain ⟨label, past, rest⟩ := thread
  obtain ⟨also, before, left⟩ := other
  obtain ⟨-, -, rests⟩ := alike
  cases rests with
  | ret related => exact .some related
  | call ops rests => exact .none

/-- Alike schedules leave the same trails. -/
theorem trails_alike (treated : TreatedAlike errors)
    {moves others : List UserMove}
    (alike : List.Forall₂ (MovesAlike names errors) moves others) :
    trails (replyPool moves) = trails (replyPool others) := by
  have pools := replyPool_alike treated alike
  have audited := map_eq_of_forall₂ pools.threads
    (fun thread also (pair :
        ThreadsAlike (secrecy names errors) thread also) =>
      filterMap_eq_of_forall₂ pair.past
        fun _ _ (events : EventsAlike (secrecy names errors) _ _) =>
          OpsAlike.audited events.op)
  unfold trails
  rw [pools.world.tables.redact, pools.world.hookCalls, audited]

omit [Build] [Blake2b] in
theorem treatedAlike_eq : TreatedAlike Eq where
  refl := fun _ => rfl
  wrap := fun before behind _ _ same =>
    congrArg (GoError.wrap before · behind) same
  conflict := fun _ _ same => congrArg (GoError.is · .storeConflict) same

omit [Build] [Blake2b] in
theorem redact_eq {first second : Except GoError UserReply}
    (alike : RepliesAlike Eq first second) :
    first.map UserReply.redact = second.map UserReply.redact := by
  cases alike with
  | error same => exact congrArg Except.error same
  | ok same => exact congrArg Except.ok same

/-- Two schedules that differ in passwords, salts and hashes only leave the
same audit trail, report the same changes, keep the same tables but for the
hashes, and return the same but for the passwords. -/
theorem secrets_unseen {moves others : List UserMove}
    (alike : List.Forall₂ (MovesAlike names Eq) moves others) :
    trails (replyPool moves) = trails (replyPool others) ∧
      replies (replyPool moves) = replies (replyPool others) := by
  refine ⟨trails_alike treatedAlike_eq alike, ?_⟩
  refine map_eq_of_forall₂ (replyPool_alike treatedAlike_eq alike).threads
    fun thread also (pair : ThreadsAlike (secrecy names Eq) thread also) => ?_
  rcases rel_cases (result_alike pair) with
    ⟨running, working⟩ | ⟨reply, other, returned, done, same⟩
  · rw [running, working]
  · rw [returned, done]
    exact congrArg some (redact_eq same)

end Schedules

/-- Alice is created with one password, and given another one. -/
def aliceMoves (first second : String) (choice : UserChoice) :
    List UserMove :=
  (.start (.create { sampleInput with password := first },
      ⟨"admin", "", "", ""⟩) ::
    List.replicate 8 (.advance 0 choice) : List UserMove) ++
  (.start (.rotateCredentials 1 second, ⟨"admin", "", "", ""⟩) ::
    List.replicate 9 (.advance 1 choice) : List UserMove)

theorem aliceMoves_alike [Build] {names : String → Prop}
    {errors : GoError → GoError → Prop} (named : names "alice")
    {first second third fourth : String} {choice another : UserChoice}
    (passwords : PasswordsAlike names first second)
    (replacements : PasswordsAlike names third fourth)
    (choices : ChoicesAlike errors choice another) :
    List.Forall₂ (MovesAlike names errors) (aliceMoves first third choice)
      (aliceMoves second fourth another) := by
  have advance (index : Nat) : ∀ count : Nat,
      List.Forall₂ (MovesAlike names errors)
        (List.replicate count (.advance index choice))
        (List.replicate count (.advance index another)) := by
    intro count
    induction count with
    | zero => exact .nil
    | succ count inductionHypothesis =>
        exact .cons (.advance index choices) inductionHypothesis
  refine .cons (.start ⟨.create named passwords, rfl⟩) ?_
  exact List.rel_append (advance 0 8)
    (.cons (.start ⟨.rotateCredentials 1 replacements, rfl⟩) (advance 1 9))

theorem passwordsAlike_alice :
    @PasswordsAlike (· = "alice") Build.dev "correct horse battery"
        "staple battery horse" ∧
      @PasswordsAlike (· = "alice") Build.dev "staple battery horse"
        "correct horse battery" := by
  let _ := Build.dev
  have first : @validatePassword Build.dev "correct horse battery" "alice" =
      none := by decide +kernel
  have second : @validatePassword Build.dev "staple battery horse" "alice" =
      none := by decide +kernel
  refine ⟨⟨by decide, ?_⟩, ⟨by decide, ?_⟩⟩
  · rintro _ rfl
    rw [first, second]
  · rintro _ rfl
    rw [first, second]

/-- The order of the passwords is not seen, and the tables do depend on
it. -/
theorem secrets_unseen_swapped :
    let pool := fun first second =>
      @replyPool Build.dev Blake2b.upstream
        (aliceMoves first second sampleChoice)
    let one := pool "correct horse battery" "staple battery horse"
    let other := pool "staple battery horse" "correct horse battery"
    trails one = trails other ∧ replies one = replies other ∧
      (trails one).entries.map (List.map AuditEntry.action) =
        [["user.create"], ["user.rotate_credentials"]] ∧
      one.world.database ≠ other.world.database := by
  intro pool one other
  have same : ChoicesAlike Eq sampleChoice sampleChoice :=
    ⟨fun _ => .none, rfl, rfl⟩
  have unseen := @secrets_unseen Build.dev Blake2b.upstream _ _ _
    (@aliceMoves_alike Build.dev (· = "alice") Eq rfl _ _ _ _ _ _
      passwordsAlike_alice.1 passwordsAlike_alice.2 same)
  exact ⟨unseen.1, unseen.2, by decide +kernel, by decide +kernel⟩

end Xoxproxy
