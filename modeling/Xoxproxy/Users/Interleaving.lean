import Xoxproxy.Store.Consistency
import Xoxproxy.Users.Service

/-!
# Interleaved calls of the user service

Calls of the service run interleaved, one operation at a time, with each
other and with flushes of the traffic ledger.  Every call keeps the tables
sound and writes exactly what it was asked to write.
-/

namespace Xoxproxy

open EffectPrograms RowTables Transactions

/-- What the service has checked before a row is written. -/
structure SoundRow (row : UserRow) : Prop where
  username : ValidUsername row.username
  protocols : ∃ protocols, ValidProtocols protocols ∧
    row.allowedProtocols = joinProtocols protocols
  limits :
    ValidLimits row.downloadBPS row.uploadBPS row.maxConnections
      row.quotaBytesDaily row.quotaBytesMonthly
  expiry : ∃ expiry, row.expiresAt = formatNullTime expiry

structure Sound (database : Database) : Prop where
  consistent : Consistent database
  rows : ∀ row ∈ database.users, SoundRow row
  hashes : ∀ credential ∈ database.credentials,
    engineHashRe credential.engineHash = true

theorem sound_empty : Sound {} where
  consistent := consistent_empty
  rows := by simp
  hashes := by simp

theorem SoundRow.of_same
    {row other : UserRow} (sound : SoundRow row)
    (same : SameUser row other) : SoundRow other := by
  rw [same]
  exact ⟨sound.username, sound.protocols, sound.limits, sound.expiry⟩

/-- Statements that only write the status, the version or stamps keep
rows sound. -/
theorem SoundRow.touch
    {row : UserRow} (sound : SoundRow row) (now : Time) :
    SoundRow (row.touch now) :=
  ⟨sound.username, sound.protocols, sound.limits, sound.expiry⟩

theorem SoundRow.writeStatus
    {row : UserRow} (sound : SoundRow row) (status : UserStatus) :
    SoundRow (row.writeStatus status) :=
  ⟨sound.username, sound.protocols, sound.limits, sound.expiry⟩

/-- So does writing a user that has passed validation. -/
theorem SoundRow.writeUser
    {row : UserRow} (sound : SoundRow row) {user : ProxyUser}
    (protocols : ValidProtocols user.allowedProtocols)
    (limits :
      ValidLimits user.downloadBPS user.uploadBPS user.maxConnections
        user.quotaBytesDaily user.quotaBytesMonthly) :
    SoundRow (row.writeUser user) :=
  ⟨sound.username, ⟨_, protocols, rfl⟩, limits, ⟨_, rfl⟩⟩

theorem Sound.updateUsers
    {database : Database} (sound : Sound database)
    {condition : UserRow → Bool} {change : UserRow → UserRow}
    (updates : Updates change)
    (kept : ∀ row, SoundRow row → SoundRow (change row)) :
    Sound { database with
      users := updateWhere condition change database.users } where
  consistent := sound.consistent.updateUsers updates
  rows := forall_updateWhere (fun row _ held => kept row held) sound.rows
  hashes := sound.hashes

theorem Sound.deleteUser
    {database : Database} (sound : Sound database) (id : Int) :
    Sound (database.deleteUser id).2 where
  consistent := sound.consistent.deleteUser id
  rows := fun row member => sound.rows row (mem_deleteWhere.mp member).1
  hashes := fun credential member =>
    sound.hashes credential (mem_deleteWhere.mp member).1

theorem Sound.traffic
    {before after : Database} (sound : Sound before)
    (only : TrafficOnly before after) : Sound after where
  consistent := only.consistent sound.consistent
  rows := by
    intro row member
    obtain ⟨old, listed, same⟩ := only.users row member
    exact (sound.rows old listed).of_same same
  hashes := by
    rw [only.credentials]
    exact sound.hashes

theorem Sound.createUser
    [Build] {database after : Database} (sound : Sound database)
    {user : ProxyUser} {initial : Credential}
    (done :
      executeAll (createUserStatements user initial) database =
        .ok after)
    (username : ValidUsername user.username)
    (protocols : ValidProtocols user.allowedProtocols)
    (limits :
      ValidLimits user.downloadBPS user.uploadBPS user.maxConnections
        user.quotaBytesDaily user.quotaBytesMonthly)
    (hash : engineHashRe initial.engineHash = true) :
    Sound after := by
  refine ⟨sound.consistent.createUser done, ?_, ?_⟩
  · obtain ⟨-, rfl⟩ := createUser_committed done
    intro row member
    rcases List.mem_append.mp member with old | new
    · exact sound.rows row old
    · rw [List.mem_singleton.mp new]
      exact ⟨username, ⟨_, protocols, rfl⟩, limits, ⟨_, rfl⟩⟩
  · obtain ⟨-, rfl⟩ := createUser_committed done
    intro credential member
    rcases List.mem_append.mp member with old | new
    · exact sound.hashes credential old
    · rw [List.mem_singleton.mp new]
      exact hash

theorem Sound.rotate
    {database after : Database} (sound : Sound database)
    {id version : Int} {next : Credential} {now : Time}
    (done :
      executeAll (rotateStatements id next version now) database =
        .ok after)
    (hash : engineHashRe next.engineHash = true) :
    Sound after := by
  refine ⟨sound.consistent.rotate done, ?_, ?_⟩
  · obtain ⟨-, rfl⟩ := rotate_committed done
    exact forall_updateWhere (fun row _ held => held.touch now)
      sound.rows
  · obtain ⟨-, rfl⟩ := rotate_committed done
    intro credential member
    rcases List.mem_append.mp member with old | new
    · obtain ⟨previous, listed, same⟩ := mem_updateWhere.mp old
      rw [← same]
      by_cases active : activeFor id previous = true
      · rw [if_pos active]
        exact sound.hashes previous listed
      · rw [if_neg active]
        exact sound.hashes previous listed
    · rw [List.mem_singleton.mp new]
      exact hash

/-! ## Exact writes -/

/-- The statement has replaced the row with the given id, which had the
given version, by what `write` makes of it, and no other row. -/
structure ExactWrite
    (before after : Database) (id version : Int) (now : Time)
    (write : UserRow → UserRow) : Prop where
  row : ∃ row, before.userRow id = some row ∧ row.version = version ∧
    after.userRow id = some ((write row).touch now)
  others : ∀ other, other ≠ id →
    after.userRow other = before.userRow other

theorem exactWrite_update
    {database after : Database} (consistent : Consistent database)
    {id version : Int} {now : Time} {write : UserRow → UserRow}
    (kept : ∀ row, (write row).id = row.id)
    (found : database.users.countP (rowHas id version) ≠ 0)
    (users :
      after.users = updateWhere (rowHas id version)
        (fun row => (write row).touch now) database.users) :
    ExactWrite database after id version now write := by
  have keyed : ∀ row, rowHas id version row = true → row.id = id := by
    intro row matched
    simp only [rowHas, decide_eq_true_eq] at matched
    exact matched.1
  have lookup (other : Int) : after.userRow other =
      (database.userRow other).map fun row =>
        if rowHas id version row then (write row).touch now else row := by
    unfold Database.userRow
    rw [users]
    exact lookup_updateWhere kept
  obtain ⟨row, present, matched⟩ :=
    (countP_lookup consistent.ids keyed).mp (Nat.pos_of_ne_zero found)
  have present : database.userRow id = some row := present
  refine ⟨⟨row, present, ?_, ?_⟩, ?_⟩
  · simp only [rowHas, decide_eq_true_eq] at matched
    exact matched.2
  · rw [lookup, present]
    simp [matched]
  · intro other different
    rw [lookup]
    cases absent : database.userRow other with
    | none => rfl
    | some found =>
        have otherId := (lookup_mem absent).2
        have unmatched : rowHas id version found = false := by
          simp [rowHas, otherId, different]
        simp [unmatched]

theorem ExactWrite.congr
    {before after : Database} {id version : Int} {now : Time}
    {write other : UserRow → UserRow}
    (exact_ : ExactWrite before after id version now write)
    (same :
      ∀ row, before.userRow id = some row → row.version = version →
        write row = other row) :
    ExactWrite before after id version now other := by
  obtain ⟨row, present, based, written⟩ := exact_.row
  refine ⟨⟨row, present, based, ?_⟩, exact_.others⟩
  rw [← same row present based]
  exact written

/-- The columns that a request changes, and no others. -/
def UpdateInput.writeRow (input : UpdateInput) (row : UserRow) :
    UserRow :=
  { row with
    allowedProtocols :=
      match input.protocols with
      | some protocols => joinProtocols protocols
      | none => row.allowedProtocols
    downloadBPS := input.downloadBPS.getD row.downloadBPS
    uploadBPS := input.uploadBPS.getD row.uploadBPS
    maxConnections := input.maxConnections.getD row.maxConnections
    quotaBytesDaily := input.quotaBytesDaily.getD row.quotaBytesDaily
    quotaBytesMonthly :=
      input.quotaBytesMonthly.getD row.quotaBytesMonthly
    expiresAt :=
      if input.clearExpiration then none
      else
        match input.expiresAt with
        | some expiresAt => some (formatTime expiresAt)
        | none => row.expiresAt }

/-- A written expiry is read back as it was. -/
theorem parseNullTime_formatNullTime
    [Build] {written read : Option Time}
    (parsed : parseNullTime (formatNullTime written) = .ok read) :
    read = written := by
  cases written with
  | none => exact (Except.ok.inj parsed).symm
  | some time =>
      have nonempty : formatTime time ≠ "" := by
        intro empty
        have text := congrArg String.toList empty
        simp [formatTime] at text
      simp only [formatNullTime, Option.map_some, parseNullTime,
        if_neg nonempty, parseTime] at parsed
      cases found : readTime (formatTime time).toList with
      | none =>
          rw [found] at parsed
          cases parsed
      | some again =>
          rw [found] at parsed
          have equal := eq_of_readTime_formatTime found
          rw [← Except.ok.inj parsed, equal]

/-- Merging a request into what was read from a row writes the columns of
the request and leaves the others as they were. -/
theorem writeUser_merge
    [Build] {row : UserRow} {current : ProxyUser}
    (sound : SoundRow row) (scanned : Scanned row current)
    (input : UpdateInput) :
    row.writeUser (input.merge current) = input.writeRow row := by
  obtain ⟨expiry, stored⟩ := sound.expiry
  have parsed := scanned.expiresAt
  rw [stored] at parsed
  have sameExpiry : current.expiresAt = expiry :=
    parseNullTime_formatNullTime parsed
  have protocols :
      joinProtocols (input.protocols.getD current.allowedProtocols) =
        match input.protocols with
        | some protocols => joinProtocols protocols
        | none => row.allowedProtocols := by
    cases input.protocols with
    | some protocols => rfl
    | none =>
        rw [Option.getD_none, scanned.protocols,
          joinProtocols_splitProtocols]
  have expires :
      formatNullTime (input.expiry current.expiresAt) =
        if input.clearExpiration then none
        else
          match input.expiresAt with
          | some expiresAt => some (formatTime expiresAt)
          | none => row.expiresAt := by
    unfold UpdateInput.expiry
    by_cases clear : input.clearExpiration = true
    · simp [clear, formatNullTime]
    · rw [if_neg clear, if_neg clear]
      cases input.expiresAt with
      | some expiresAt => rfl
      | none => rw [sameExpiry, stored]
  simp only [UserRow.writeUser, UpdateInput.merge, UpdateInput.writeRow,
    protocols, expires, scanned.downloadBPS, scanned.uploadBPS,
    scanned.maxConnections, scanned.quotaBytesDaily,
    scanned.quotaBytesMonthly]

/-- What a call's statement must have written, by its request and what
the call has read before. -/
def ExactlyWritten
    [Build] (call : UserCall) (past : List (Event UserOp UserOp.Answer)) :
    (op : UserOp) → op.Answer → Database → Database → Prop
  | .updateUser _ now, answer, before, after =>
      ∀ affected, answer = .ok (affected + 1) →
        ∃ id input, call.request = .update id input ∧
          ExactWrite before after id input.version now input.writeRow
  | .setUserStatus id status version now, answer, before, after =>
      ∀ affected, answer = .ok (affected + 1) →
        (call.request = .enable id version ∧ status = .active ∨
          call.request = .disable id version ∧ status = .disabled) ∧
        ExactWrite before after id version now
          fun row => row.writeStatus status
  | .rotateCredential id _ version now, answer, before, after =>
      answer = .ok () →
        (∃ password, call.request = .rotateCredentials id password) ∧
        (∃ row, ⟨.selectUser id, .ok (some row)⟩ ∈ past ∧
          row.version = version) ∧
        ExactWrite before after id version now fun row => row
  | _, _, _, _ => True

/-- A flush of the traffic ledger. -/
structure Flush where
  usage : List UsageDelta
  destinations : List DestinationDelta
  cursor : LogCursor
  failure : Failure GoError

section Machine

variable [Build] [Blake2b]

def userMachine :
    Machine UserOp UserOp.Answer (Option GoError) UserCall UserHost
      UserChoice Flush where
  program := UserCall.program
  handle := fun _ op choice host => some (host.handle op choice)
  react := fun flush host =>
    { host with
      database :=
        (transact flush.failure
          (applyDeltasStatements flush.usage flush.destinations
            flush.cursor) host.database).2 }

def userDiscipline :
    Discipline UserOp UserOp.Answer (Option GoError) UserCall UserHost
      UserChoice where
  invariant := fun host => Sound host.database
  rely := fun _ before after =>
    Develops before.database after.database
  rely_refl := fun _ host => Develops.refl host.database
  rely_trans := fun early late => early.trans late
  fresh := fun _ _ => True
  fresh_rely := fun _ _ => trivial
  guarantee := fun _ before after =>
    Develops before.database after.database
  condition := fun _ _ _ _ _ => True
  promise := fun call past op choice host =>
    ExactlyWritten call past op (host.handle op choice).1 host.database
      (host.handle op choice).2.database
  finished := fun _ _ _ _ => True

/-- `Ensures` for calls of the user service. -/
abbrev Orderly
    {Result : Type} (call : UserCall)
    (post :
      List (Event UserOp UserOp.Answer) → Result → UserHost → Prop)
    (rest : UserProgram Result)
    (past : List (Event UserOp UserOp.Answer)) (host : UserHost) : Prop :=
  Ensures userMachine userDiscipline call post rest past host

end Machine

/-- The operation leaves the tables alone. -/
def UserOp.Quiet : UserOp → Prop
  | .updateUser _ _ | .setUserStatus _ _ _ _ | .deleteUser _
  | .sweepExpired _ | .createUser _ _ | .rotateCredential _ _ _ _ =>
      False
  | _ => True

theorem choosePassword_quiet (password : String) :
    (choosePassword password).All UserOp.Quiet := by
  unfold choosePassword
  by_cases empty : password = ""
  · rw [if_pos empty]
    exact Program.all_perform trivial
  · rw [if_neg empty]
    exact Program.all_ret _

theorem announceCreated_quiet
    (actor : Actor) (username password : String)
    (outcome : Except GoError ProxyUser) :
    (announceCreated actor username password outcome).All
      UserOp.Quiet := by
  unfold announceCreated auditAction
  cases outcome with
  | error error =>
      by_cases conflict : error.is .storeConflict = true
      · simp only [conflict, if_true]
        exact ⟨trivial, fun _ => trivial⟩
      · simp only [conflict]
        exact trivial
  | ok created =>
      exact ⟨trivial, fun _ => ⟨trivial, fun _ => trivial⟩⟩

theorem announce_quiet
    (actor : Actor) (action username : String)
    (summary : ProxyUser → String)
    (outcome : Except GoError ProxyUser) :
    (announce actor action username summary outcome).All UserOp.Quiet := by
  unfold announce auditAction
  cases outcome with
  | error error =>
      by_cases conflict : error.is .storeConflict = true
      · simp only [conflict, if_true]
        exact ⟨trivial, fun _ => trivial⟩
      · simp only [conflict]
        exact trivial
  | ok updated =>
      exact ⟨trivial, fun _ => ⟨trivial, fun _ => trivial⟩⟩

section Rules

variable [Build]

theorem handle_quiet
    {op : UserOp} (quiet : op.Quiet) (choice : UserChoice)
    (host : UserHost) :
    (host.handle op choice).2.database = host.database := by
  cases op with
  | updateUser user now => exact quiet.elim
  | setUserStatus id status version now => exact quiet.elim
  | deleteUser id => exact quiet.elim
  | sweepExpired now => exact quiet.elim
  | createUser user initial => exact quiet.elim
  | rotateCredential id next version now => exact quiet.elim
  | _ => rfl

theorem replacementPassword_quiet (password username : String) :
    (replacementPassword password username).All UserOp.Quiet := by
  unfold replacementPassword
  by_cases empty : password = ""
  · rw [if_pos empty]
    exact ⟨trivial, fun _ => trivial⟩
  · rw [if_neg empty]
    cases validatePassword password username with
    | some error => exact Program.all_ret _
    | none => exact Program.all_ret _

theorem exactlyWritten_quiet
    {op : UserOp} (quiet : op.Quiet) (call : UserCall)
    (past : List (Event UserOp UserOp.Answer)) (answer : op.Answer)
    (before after : Database) :
    ExactlyWritten call past op answer before after := by
  cases op with
  | updateUser user now => exact quiet.elim
  | setUserStatus id status version now => exact quiet.elim
  | rotateCredential id next version now => exact quiet.elim
  | _ => exact trivial

theorem getUserByID_quiet (id : Int) :
    (getUserByID id).All UserOp.Quiet := by
  refine ⟨trivial, fun answer => ?_⟩
  rcases answer with error | _ | row <;> exact trivial

theorem afterUpdate_quiet (id : Int) (affected : Except GoError Nat) :
    (afterUpdate id affected).All UserOp.Quiet := by
  rcases affected with error | _ | affected
  · exact trivial
  · refine ⟨trivial, fun answer => ?_⟩
    rcases answer with error | _ | _ <;> exact trivial
  · exact getUserByID_quiet id

end Rules

/-! ## What a call remembers -/

/-- No user has the row's id with an older version, and one with the same
version is the same. -/
structure Remembers (row : UserRow) (database : Database) : Prop where
  issued : row.id ≤ database.userSequence
  later : ∀ current ∈ database.users, current.id = row.id →
    row.version ≤ current.version ∧
      (row.version = current.version → SameUser row current)

theorem remembers_of_mem
    {database : Database} (consistent : Consistent database)
    {row : UserRow} (listed : row ∈ database.users) :
    Remembers row database where
  issued := (consistent.issued row listed).2
  later := by
    intro current present same
    have equal := consistent.ids.eq present listed same
    rw [equal]
    exact ⟨Int.le_refl _, fun _ => rfl⟩

theorem Remembers.later_on
    {row : UserRow} {before now : Database}
    (remembers : Remembers row before) (develops : Develops before now) :
    Remembers row now where
  issued := Int.le_trans remembers.issued develops.sequence
  later := by
    intro current present same
    have known : current.id ≤ before.userSequence := by
      rw [same]
      exact remembers.issued
    obtain ⟨old, listed, oldId, lower, unchanged⟩ :=
      develops.rows current present known
    obtain ⟨oldLower, oldSame⟩ :=
      remembers.later old listed (oldId.trans same)
    refine ⟨Int.le_trans oldLower lower, ?_⟩
    intro equal
    have first : row.version = old.version := by omega
    have second : old.version = current.version := by omega
    exact (oldSame first).trans (unchanged second)

/-- What is known stays known while other calls run, and while the call
itself goes on. -/
structure Steady
    (known : List (Event UserOp UserOp.Answer) → UserHost → Prop) :
    Prop where
  later_on : ∀ past host now, known past host →
    Develops host.database now.database → known past now
  extend : ∀ past event host, known past host →
    known (past ++ [event]) host

theorem steady_trivial : Steady fun _ _ => True :=
  ⟨fun _ _ _ _ _ => trivial, fun _ _ _ _ => trivial⟩

/-- The call has read the user from a row that it still remembers. -/
structure HasRead
    [Build] (id : Int) (user : ProxyUser) (row : UserRow)
    (past : List (Event UserOp UserOp.Answer)) (host : UserHost) :
    Prop where
  rowId : row.id = id
  sound : SoundRow row
  scanned : Scanned row user
  selected : ⟨.selectUser id, .ok (some row)⟩ ∈ past
  remembers : Remembers row host.database

section Calls

variable [Build]
variable {call : UserCall} {Result : Type}
variable {post :
  List (Event UserOp UserOp.Answer) → Result → UserHost → Prop}
variable {past : List (Event UserOp UserOp.Answer)}
variable {host now after : UserHost}
variable {id : Int} {user : ProxyUser} {row : UserRow}

theorem HasRead.later_on
    (hasRead : HasRead id user row past host)
    (develops : Develops host.database now.database) :
    HasRead id user row past now where
  rowId := hasRead.rowId
  sound := hasRead.sound
  scanned := hasRead.scanned
  selected := hasRead.selected
  remembers := hasRead.remembers.later_on develops

theorem HasRead.extend
    (hasRead : HasRead id user row past host)
    (event : Event UserOp UserOp.Answer) :
    HasRead id user row (past ++ [event]) host where
  rowId := hasRead.rowId
  sound := hasRead.sound
  scanned := hasRead.scanned
  selected := List.mem_append_left _ hasRead.selected
  remembers := hasRead.remembers

theorem steady_hasRead (id : Int) (user : ProxyUser) (row : UserRow) :
    Steady (HasRead id user row) :=
  ⟨fun _ _ _ held develops => held.later_on develops,
    fun _ event _ held => held.extend event⟩

variable [Blake2b]

/-- What holds of a quiet operation. -/
theorem quiet_step
    {op : UserOp} (quiet : op.Quiet) {choice : UserChoice}
    {answer : op.Answer}
    (sound : Sound now.database)
    (handled : userMachine.handle call op choice now =
      some (answer, after)) :
    userDiscipline.promise call past op choice now ∧
      userDiscipline.guarantee call now after ∧
      userDiscipline.invariant after ∧
      after.database = now.database := by
  have same : now.handle op choice = (answer, after) :=
    Option.some.inj handled
  have database : after.database = now.database := by
    have unchanged := handle_quiet quiet choice now
    rw [same] at unchanged
    exact unchanged
  refine ⟨exactlyWritten_quiet quiet call past _ _ _, ?_, ?_, database⟩
  · change Develops now.database after.database
    rw [database]
    exact Develops.refl _
  · change Sound after.database
    rw [database]
    exact sound

variable {known : List (Event UserOp UserOp.Answer) → UserHost → Prop}

/-- A quiet program ends with what was known before it. -/
theorem orderly_quiet
    (steady : Steady known)
    {program : UserProgram Result} (quiet : program.All UserOp.Quiet)
    (holds : known past host)
    (finish :
      ∀ past value now, known past now → Sound now.database →
        post past value now) :
    Orderly call post program past host := by
  refine ensures_all known
    (fun past before now held develops =>
      steady.later_on past before now held develops) ?_ quiet holds finish
  intro op opQuiet past now choice answer after held sound _ handled
  obtain ⟨promised, guaranteed, kept, same⟩ :=
    quiet_step opQuiet sound handled
  have later := steady.later_on past now after held guaranteed
  exact ⟨promised, guaranteed, kept,
    steady.extend past ⟨op, answer⟩ after later⟩

/-- A quiet program that is not followed by anything. -/
theorem orderly_end
    {program : UserProgram Result} (quiet : program.All UserOp.Quiet) :
    Orderly call (fun _ _ _ => True) program past host :=
  orderly_quiet steady_trivial quiet trivial fun _ _ _ _ _ => trivial

/-- A quiet program in front of another one. -/
theorem orderly_then
    {Middle : Type} (steady : Steady known)
    {program : UserProgram Middle} (quiet : program.All UserOp.Quiet)
    {next : Middle → UserProgram Result}
    (sound : Sound host.database) (holds : known past host)
    (rest :
      ∀ value past now, known past now → Sound now.database →
        Orderly call post (next value) past now) :
    Orderly call post (program >>= next) past host := by
  have first : Orderly call (fun past _ now => known past now) program
      past host :=
    orderly_quiet steady quiet holds fun _ _ _ held _ => held
  exact ensures_bind sound first fun past value now kept held =>
    rest value past now held kept

/-- Reading a user. -/
theorem getUserByID_orderly :
    Orderly call
      (fun past value now =>
        ∀ user, value = .ok user → ∃ row, HasRead id user row past now)
      (getUserByID id) past host := by
  refine ensures_call (fun _ => True) (fun _ _ _ _ => trivial) trivial ?_
  intro now choice answer after _ sound _ handled
  have quiet : (UserOp.selectUser id).Quiet := trivial
  obtain ⟨promised, guaranteed, kept, same⟩ :=
    quiet_step quiet sound handled
  refine ⟨promised, guaranteed, kept, ?_⟩
  have answered : UserHost.select choice (now.database.userRow id) =
      answer :=
    congrArg Prod.fst (Option.some.inj handled)
  rcases answer with error | _ | row
  · refine ensures_ret (fun _ => True) (fun _ _ _ _ => trivial) trivial ?_
    intro later _ _ user impossible
    cases impossible
  · refine ensures_ret (fun _ => True) (fun _ _ _ _ => trivial) trivial ?_
    intro later _ _ user impossible
    cases impossible
  · have present : now.database.userRow id = some row := by
      unfold UserHost.select at answered
      split at answered
      · cases answered
      · exact Except.ok.inj answered
    obtain ⟨listed, rowId⟩ := lookup_mem present
    have remembers : Remembers row after.database := by
      rw [same]
      exact remembers_of_mem sound.consistent listed
    refine ensures_ret (fun later => Remembers row later.database)
      (fun _ _ held develops => held.later_on develops) remembers ?_
    intro later held _ user scanned
    exact ⟨row, rowId, sound.rows row listed, scanned_of_ok scanned,
      List.mem_append_right _ (List.mem_singleton_self _), held⟩

/-- A quiet operation in front of a program. -/
theorem orderly_invoke
    (steady : Steady known)
    {op : UserOp} {next : op.Answer → UserProgram Result}
    (sound : Sound host.database) (holds : known past host)
    (quiet : op.Quiet)
    (rest :
      ∀ answer past now, known past now → Sound now.database →
        Orderly call post (next answer) past now) :
    Orderly call post (invoke op >>= next) past host :=
  orderly_then steady (Program.all_perform quiet) sound holds rest

/-- The end of a program that has nothing more to do. -/
theorem orderly_ret
    (steady : Steady known) {value : Result} (holds : known past host)
    (finish :
      ∀ now, known past now → Sound now.database → post past value now) :
    Orderly call post (.ret value) past host :=
  ensures_ret (known past)
    (fun before now held develops =>
      steady.later_on past before now held develops) holds finish

/-- New verifiers are accepted by the engine. -/
theorem newHashes_orderly
    (steady : Steady known) (password : String)
    (sound : Sound host.database) (holds : known past host) :
    Orderly call
      (fun past value now => known past now ∧
        ∀ hashes, value = .ok hashes →
          engineHashRe hashes.1 = true)
      (newHashes password) past host := by
  apply orderly_invoke steady sound holds
  · exact trivial
  intro salt past now holds sound
  cases salt with
  | error error =>
      refine orderly_ret steady holds fun now holds _ => ⟨holds, ?_⟩
      intro hashes impossible
      cases impossible
  | ok salt =>
      apply orderly_invoke steady sound holds
      · exact trivial
      intro apiHash past now holds sound
      cases apiHash with
      | error error =>
          refine orderly_ret steady holds fun now holds _ => ⟨holds, ?_⟩
          intro hashes impossible
          cases impossible
      | ok apiHash =>
          refine orderly_ret steady holds fun now holds _ => ⟨holds, ?_⟩
          intro hashes chosen
          rw [← Except.ok.inj chosen]
          exact engineHashRe_newEngineHash password salt

/-- A request that passes its check is valid. -/
theorem checkNew_orderly
    {input : CreateInput} (sound : Sound host.database) :
    Orderly call
      (fun _ value _ => value = none →
        ValidUsername input.username ∧ ValidProtocols input.protocols ∧
          ValidLimits input.downloadBPS input.uploadBPS
            input.maxConnections input.quotaBytesDaily
            input.quotaBytesMonthly)
      (checkNew input) past host := by
  apply orderly_invoke steady_trivial sound trivial
  · exact trivial
  intro order past now _ sound
  cases input.expiresAt with
  | none =>
      exact orderly_ret steady_trivial trivial
        fun now _ _ accepted => valid_of_validateNew accepted
  | some expiresAt =>
      apply orderly_invoke steady_trivial sound trivial
      · exact trivial
      intro time past now _ sound
      exact orderly_ret steady_trivial trivial
        fun now _ _ accepted => valid_of_validateNew accepted

/-- What is shown of an operation that writes. -/
structure Permitted
    (call : UserCall) (past : List (Event UserOp UserOp.Answer))
    (op : UserOp) (choice : UserChoice) (now : UserHost) : Prop where
  written :
    ExactlyWritten call past op (now.handle op choice).1 now.database
      (now.handle op choice).2.database
  develops :
    Develops now.database (now.handle op choice).2.database
  sound : Sound (now.handle op choice).2.database

/-- A permitted write, and quiet operations behind it. -/
theorem orderly_write
    (steady : Steady known)
    {op : UserOp} {next : op.Answer → UserProgram Result}
    (holds : known past host)
    (permitted :
      ∀ now choice, known past now → Sound now.database →
        Permitted call past op choice now)
    (quiet : ∀ answer, (next answer).All UserOp.Quiet) :
    Orderly call (fun _ _ _ => True) (invoke op >>= next) past host := by
  refine ensures_call (known past)
    (fun before now held develops =>
      steady.later_on past before now held develops) holds ?_
  intro now choice answer after held sound _ handled
  have allowed := permitted now choice held sound
  have same : now.handle op choice = (answer, after) :=
    Option.some.inj handled
  have develops := allowed.develops
  have kept := allowed.sound
  rw [same] at develops kept
  exact ⟨allowed.written, develops, kept, orderly_end (quiet answer)⟩

end Calls

end Xoxproxy
