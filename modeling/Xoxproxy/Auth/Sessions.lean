import Xoxproxy.Auth.Licences

/-!
# Sessions over whole runs

Every acceptance of a token goes back to a login that minted it, within
the lifetime of a session and the idle timeout, and to a session that
nothing has revoked in between.
-/

namespace Xoxproxy.Auth

open EffectPrograms RowTables

abbrev AuthPerformed := Performed AuthOp AuthOp.Answer AuthCall

abbrev AuthHistory := List AuthPerformed

abbrev AuthRecorded := Recorded AuthOp AuthOp.Answer AuthCall AuthHost

/-- Two texts under one SHA-256 sum. -/
def Collision (first second : String) : Prop :=
  first ≠ second ∧
    Sha256.sum256 (bytesOf first) = Sha256.sum256 (bytesOf second)

/-- Tokens that have one hash: they are the same, or a collision. -/
def SameToken (first second : String) : Prop :=
  first = second ∨ Collision first second

theorem hashToken_eq_iff {first second : String} :
    hashToken first = hashToken second ↔ SameToken first second := by
  constructor
  · intro same
    by_cases equal : first = second
    · exact Or.inl equal
    · exact Or.inr ⟨equal, Sha256.hexEncode_injective same⟩
  · rintro (rfl | ⟨-, same⟩)
    · rfl
    · exact congrArg Sha256.hexEncode same

/-- The call has accepted the token that it presents at a time: the last
thing that an accepted validation does is to touch its session. -/
def Accepts (history : AuthHistory) (call : AuthCall) (token id : String)
    (now : Time) : Prop :=
  call.request.token? = some token ∧
    ∃ answer, (⟨call, ⟨.touchSession id now, answer⟩⟩ : AuthPerformed) ∈
      history

theorem Accepts.append {history : AuthHistory} {call : AuthCall}
    {token id : String} {now : Time} (later : AuthHistory)
    (accepts : Accepts history call token id now) :
    Accepts (history ++ later) call token id now := by
  obtain ⟨request, answer, member⟩ := accepts
  exact ⟨request, answer, List.mem_append_left _ member⟩

/-- The event deletes the session: a logout or a validation does, and a
purge of its account that does not spare it. -/
def revokes (accountID : Int) (id : String) : AuthEvent → Prop
  | ⟨.deleteSession other, answer⟩ => answer = none ∧ other = id
  | ⟨.deleteSessionsForAccount account spared, answer⟩ =>
      answer = none ∧ account = accountID ∧ id ≠ spared
  | _ => False

section Histories

variable [PasswordHashing] (options : AuthOptions)

/-- The login has minted a session, which nothing has revoked since and
which was last accepted, or minted, at the time `seen`. -/
structure Minted (history : AuthHistory) (login : AuthCall)
    (minting : Minting) (seen : Time) : Prop where
  session : ∃ earlier later,
    history = earlier ++
      ⟨login, ⟨.insertSession (minting.row options), none⟩⟩ :: later ∧
    minting.Behind login (ownEvents login earlier) ∧
    (seen = minting.now ∨ ∃ other token,
      Accepts later other token minting.id seen ∧
        SameToken minting.token token) ∧
    ∀ performed ∈ later,
      ¬revokes minting.account.id minting.id performed.event

/-- A stored session, with the stamp of its last acceptance. -/
def Grounded (history : AuthHistory) (row : SessionRow) : Prop :=
  ∃ login minting seen, Minted options history login minting seen ∧
    row = { minting.row options with lastSeenAt := formatTime seen }

/-- A login that has returned has succeeded, and handed the token out. -/
def SuccessfulLogin (pool : AuthPool) (login : AuthCall)
    (token : String) : Prop :=
  ∀ past value, ⟨login, past, .ret value⟩ ∈ pool.threads →
    ∃ result, value = .login (.ok result) ∧ SameToken result.token token

/-- What is shown of an acceptance: when the session was read, a
successful login had minted the token within the lifetime of a session, it
had been minted or accepted within the idle timeout, and nothing had
revoked it. -/
structure SoundAcceptance (pool : AuthPool) (call : AuthCall)
    (token id : String) (now : Time) : Prop where
  clock : (⟨call, ⟨.now, now⟩⟩ : AuthPerformed) ∈ pool.world.history
  grounds : ∃ before after row login minting seen,
    pool.world.history = before ++
      ⟨call, ⟨.selectSession (hashToken token), .ok (some row)⟩⟩ ::
        after ∧
    Minted options before login minting seen ∧
    SuccessfulLogin pool login token ∧
    minting.id = id ∧ SameToken minting.token token ∧
    now ≤ minting.now + options.sessionTTL ∧
    now ≤ seen + options.idleTimeout

end Histories

section Operations

variable {options : AuthOptions} {op : AuthOp} {choice : AuthChoice}
variable {host after : AuthHost} {answer : op.Answer}

/-- Where a session comes from that is stored after an operation. -/
inductive SessionOrigin (host : AuthHost) (event : AuthEvent)
    (row : SessionRow) : Prop where
  | kept (old : row ∈ host.tables.sessions)
  | inserted (insert : event = ⟨.insertSession row, none⟩)
  | touched (old : SessionRow) (now : Time)
      (listed : old ∈ host.tables.sessions)
      (touch : event = ⟨.touchSession old.id now, none⟩)
      (stamp : row = { old with lastSeenAt := formatTime now })

/-- What is stored after an operation, which leaves nothing that it
revokes. -/
theorem handle_sessions
    (handled : host.handle options op choice = some (answer, after)) :
    ∀ row ∈ after.tables.sessions,
      SessionOrigin host ⟨op, answer⟩ row ∧
        ¬revokes row.accountID row.id ⟨op, answer⟩ := by
  intro row member
  have same : after.tables.sessions = host.tables.sessions →
      (∀ account id, ¬revokes account id ⟨op, answer⟩) →
        SessionOrigin host ⟨op, answer⟩ row ∧
          ¬revokes row.accountID row.id ⟨op, answer⟩ := by
    intro sessions harmless
    rw [sessions] at member
    exact ⟨.kept member, harmless _ _⟩
  cases op with
  | now =>
      rw [AuthHost.handle] at handled
      split at handled
      · cases handled
        exact same rfl fun _ _ => not_false
      · cases handled
  | newSessionID =>
      rw [AuthHost.handle] at handled
      split at handled
      · cases handled
      · cases handled
        exact same rfl fun _ _ => not_false
  | ipBlocked ip now | ipFailure ip now | ipSuccess ip | recordAudit entry =>
      cases handled
      exact same rfl fun _ _ => not_false
  | newSalt | newToken | selectAccountByID id
  | selectAccountByUsername username | selectSession hash =>
      rw [(AuthHost.select_same handled).1] at same
      exact same rfl fun _ _ => not_false
  | insertAccount username hash created now =>
      rw [AuthHost.handle] at handled
      cases failure : choice.error with
      | some error =>
          rw [failure] at handled
          cases handled
          exact same rfl fun _ _ => not_false
      | none =>
          rw [failure, AuthHost.insertAccount] at handled
          split_ifs at handled
          · cases handled
            exact same rfl fun _ _ => not_false
          · cases handled
            exact same rfl fun _ _ => not_false
  | updatePassword id hash now
  | recordLoginFailure id attempts lock now | resetFailures id now =>
      rcases AuthHost.change_cases handled with ⟨rfl, -⟩ | ⟨rfl, rfl⟩ <;>
        exact same rfl fun _ _ => not_false
  | insertSession new =>
      rw [AuthHost.handle, AuthHost.insertSession] at handled
      cases conflict : AuthHost.sessionConflict host.tables new with
      | some error =>
          rw [conflict] at handled
          cases handled
          exact same rfl fun _ _ => not_false
      | none =>
          rw [conflict] at handled
          rcases AuthHost.execute_cases handled with ⟨rfl, -⟩ | ⟨rfl, rfl⟩
          · exact same rfl fun _ _ => not_false
          · rcases List.mem_append.mp member with old | new
            · exact ⟨.kept old, not_false⟩
            · rw [List.mem_singleton.mp new]
              exact ⟨.inserted rfl, not_false⟩
  | touchSession id now =>
      rcases AuthHost.execute_cases handled with ⟨rfl, -⟩ | ⟨rfl, rfl⟩
      · exact same rfl fun _ _ => not_false
      · refine ⟨?_, not_false⟩
        obtain ⟨old, listed, stamp⟩ := mem_updateWhere.mp member
        by_cases touched : old.id = id
        · rw [if_pos (decide_eq_true touched)] at stamp
          exact .touched old now listed (by rw [touched]) stamp.symm
        · rw [if_neg (by simpa using touched)] at stamp
          exact .kept (stamp ▸ listed)
  | deleteSession id =>
      rcases AuthHost.execute_cases handled with ⟨rfl, failed⟩ | ⟨rfl, rfl⟩
      · exact same rfl fun _ _ revoked => failed revoked.1
      · obtain ⟨old, spared⟩ := mem_deleteWhere.mp member
        refine ⟨.kept old, fun revoked => ?_⟩
        exact absurd revoked.2.symm (by simpa using spared)
  | deleteSessionsForAccount account spared =>
      rcases AuthHost.execute_cases handled with ⟨rfl, failed⟩ | ⟨rfl, rfl⟩
      · exact same rfl fun _ _ revoked => failed revoked.1
      · obtain ⟨old, kept⟩ := mem_deleteWhere.mp member
        refine ⟨.kept old, fun revoked => ?_⟩
        simp [revoked.2.1, revoked.2.2] at kept
  | deleteExpiredSessions now =>
      rcases AuthHost.change_cases handled with ⟨rfl, -⟩ | ⟨rfl, rfl⟩
      · exact same rfl fun _ _ => not_false
      · exact ⟨.kept (mem_deleteWhere.mp member).1, not_false⟩

/-- What was drawn stays drawn. -/
theorem handle_drawn
    (handled : host.handle options op choice = some (answer, after)) :
    ∀ id ∈ host.drawn, id ∈ after.drawn := by
  intro id member
  cases op with
  | now =>
      rw [AuthHost.handle] at handled
      split at handled
      · cases handled
        exact member
      · cases handled
  | newSessionID =>
      rw [AuthHost.handle] at handled
      split at handled
      · cases handled
      · cases handled
        exact List.mem_append_left _ member
  | ipBlocked ip now | ipFailure ip now | ipSuccess ip | recordAudit entry =>
      cases handled
      exact member
  | newSalt | newToken | selectAccountByID id
  | selectAccountByUsername username | selectSession hash =>
      rw [(AuthHost.select_same handled).1]
      exact member
  | insertAccount username hash created now =>
      rw [AuthHost.handle] at handled
      cases failure : choice.error with
      | some error =>
          rw [failure] at handled
          cases handled
          exact member
      | none =>
          rw [failure, AuthHost.insertAccount] at handled
          split_ifs at handled <;>
          · cases handled
            exact member
  | insertSession new =>
      rw [AuthHost.handle, AuthHost.insertSession] at handled
      cases conflict : AuthHost.sessionConflict host.tables new with
      | some error =>
          rw [conflict] at handled
          cases handled
          exact member
      | none =>
          rw [conflict] at handled
          rcases AuthHost.execute_cases handled with ⟨rfl, -⟩ | ⟨rfl, rfl⟩ <;>
            exact member
  | touchSession _ now | deleteSession _
  | deleteSessionsForAccount account spared =>
      rcases AuthHost.execute_cases handled with ⟨rfl, -⟩ | ⟨rfl, rfl⟩ <;>
        exact member
  | updatePassword _ hash now | recordLoginFailure _ attempts lock now
  | resetFailures _ now | deleteExpiredSessions now =>
      rcases AuthHost.change_cases handled with ⟨rfl, -⟩ | ⟨rfl, rfl⟩ <;>
        exact member

/-- An identifier is drawn that was not drawn before. -/
theorem handle_newSessionID {id : String}
    (handled : host.handle options .newSessionID choice =
      some (id, after)) :
    id ∉ host.drawn ∧ id ∈ after.drawn ∧ id ≠ "" := by
  rw [AuthHost.handle] at handled
  split at handled
  · cases handled
  · rename_i fresh
    cases handled
    obtain ⟨unused, long⟩ := not_or.mp fresh
    refine ⟨unused, List.mem_append_right _ List.mem_cons_self, ?_⟩
    intro empty
    rw [empty] at long
    exact long (by decide)

end Operations

/-! ## The invariant -/

section Invariant

variable [PasswordHashing] (options : AuthOptions)

/-- Sessions, stored or read, go back to logins; identifiers are drawn
once. -/
structure Traced (recorded : AuthRecorded) : Prop where
  rows : ∀ row ∈ recorded.world.tables.sessions,
    Grounded options recorded.history row
  reads : AtEach
    (fun before performed => ∀ hash row,
      performed.event = ⟨.selectSession hash, .ok (some row)⟩ →
        Grounded options before row ∧ row.tokenHash = hash)
    recorded.history
  drawn : ∀ call id,
    (⟨call, ⟨.newSessionID, id⟩⟩ : AuthPerformed) ∈ recorded.history →
      id ∈ recorded.world.drawn ∧ id ≠ ""
  draws : ∀ first second id,
    (⟨first, ⟨.newSessionID, id⟩⟩ : AuthPerformed) ∈ recorded.history →
    (⟨second, ⟨.newSessionID, id⟩⟩ : AuthPerformed) ∈ recorded.history →
      first = second
  inserts : ∀ call row,
    (⟨call, ⟨.insertSession row, none⟩⟩ : AuthPerformed) ∈
      recorded.history →
    (⟨call, ⟨.newSessionID, row.id⟩⟩ : AuthPerformed) ∈ recorded.history
  single : ∀ first second row other,
    (⟨first, ⟨.insertSession row, none⟩⟩ : AuthPerformed) ∈
      recorded.history →
    (⟨second, ⟨.insertSession other, none⟩⟩ : AuthPerformed) ∈
      recorded.history →
    row.id = other.id → row = other

theorem traced_initial (host : AuthHost)
    (empty : host.tables.sessions = []) :
    Traced options ⟨host, []⟩ where
  rows := by simp [empty]
  reads := atEach_nil
  drawn := fun _ _ member => by cases member
  draws := fun _ _ _ member => by cases member
  inserts := fun _ _ member => by cases member
  single := fun _ _ _ _ member => by cases member

variable {options} {history : AuthHistory} {login : AuthCall}
variable {minting : Minting} {seen : Time}

theorem Minted.insert
    (minted : Minted options history login minting seen) :
    (⟨login, ⟨.insertSession (minting.row options), none⟩⟩ :
      AuthPerformed) ∈ history := by
  obtain ⟨earlier, later, split, -⟩ := minted.session
  rw [split]
  exact List.mem_append_right _ List.mem_cons_self

/-- Something else is performed. -/
theorem Minted.grow (minted : Minted options history login minting seen)
    {performed : AuthPerformed}
    (spared : ¬revokes minting.account.id minting.id performed.event) :
    Minted options (history ++ [performed]) login minting seen := by
  obtain ⟨earlier, later, split, behind, stamp, kept⟩ := minted.session
  refine ⟨earlier, later ++ [performed], ?_, behind, ?_, ?_⟩
  · rw [split]
    simp
  · rcases stamp with same | ⟨other, token, accepts, same⟩
    · exact Or.inl same
    · exact Or.inr ⟨other, token, accepts.append _, same⟩
  · intro event member
    rcases List.mem_append.mp member with old | new
    · exact kept event old
    · rw [List.mem_singleton.mp new]
      exact spared

/-- The session is accepted once more. -/
theorem Minted.touch (minted : Minted options history login minting seen)
    {call : AuthCall} {token : String} {now : Time}
    (request : call.request.token? = some token)
    (same : SameToken minting.token token) :
    Minted options
      (history ++ [⟨call, ⟨.touchSession minting.id now, none⟩⟩])
      login minting now := by
  obtain ⟨earlier, later, split, behind, -, kept⟩ := minted.session
  refine ⟨earlier, later ++ [_], ?_, behind, Or.inr ⟨call, token,
    ⟨request, none, List.mem_append_right _ List.mem_cons_self⟩, same⟩, ?_⟩
  · rw [split]
    simp
  · intro event member
    rcases List.mem_append.mp member with old | new
    · exact kept event old
    · rw [List.mem_singleton.mp new]
      exact not_false

/-- What a stored session says of the login that minted it. -/
theorem Grounded.row {row : SessionRow}
    (grounded : Grounded options history row) :
    ∃ login minting seen, Minted options history login minting seen ∧
      row.id = minting.id ∧ row.accountID = minting.account.id ∧
      row.tokenHash = hashToken minting.token ∧
      row.expiresAt = formatTime (minting.now + options.sessionTTL) ∧
      row.lastSeenAt = formatTime seen := by
  obtain ⟨login, minting, seen, minted, rfl⟩ := grounded
  exact ⟨login, minting, seen, minted, rfl, rfl, rfl, rfl, rfl⟩

end Invariant

section Steps

variable [Build] [PasswordHashing] {options : AuthOptions}
variable {before after : AuthRecorded} {call : AuthCall} {op : AuthOp}
variable {choice : AuthChoice} {answer : op.Answer}

theorem handled_of_accounts
    (accounts : Accounts (authMachine options)
      (licence options.applyDefaults) before after call op choice answer) :
    before.world.handle options.applyDefaults op choice =
      some (answer, after.world) :=
  accounts.handled

/-- A call that presents the token of a session presents the token that
the session was minted with. -/
theorem Traced.same_token (traced : Traced options.applyDefaults before)
    {login : AuthCall} {minting : Minting} {seen : Time}
    (minted : Minted options.applyDefaults before.history login minting
      seen)
    {token : String} {row : SessionRow} {session : AdminSession}
    {now : Time}
    (presents : Presents options.applyDefaults call
      (ownEvents call before.history) token row session now)
    (sameID : session.id = minting.id) :
    SameToken minting.token token := by
  obtain ⟨earlier, later, split, read⟩ :=
    traced.reads.of_mem (mem_ownEvents.mp presents.lookup)
  obtain ⟨grounded, hash⟩ := read _ row rfl
  obtain ⟨other, source, last, sourced, id, -, sourceHash, -⟩ :=
    grounded.row
  have listed : (⟨other, ⟨.insertSession
      (source.row options.applyDefaults), none⟩⟩ : AuthPerformed) ∈
        before.history := by
    rw [split]
    exact List.mem_append_left _ sourced.insert
  have same := traced.single _ _ _ _ minted.insert listed
    (sameID.symm.trans ((scanSession_ok presents.scanned).1.trans id))
  have hashes : hashToken minting.token = hashToken source.token :=
    congrArg SessionRow.tokenHash same
  exact hashToken_eq_iff.mp (hashes.trans (sourceHash.symm.trans hash))

/-- The rows behind an operation. -/
theorem Traced.rows_step (traced : Traced options.applyDefaults before)
    (accounts : Accounts (authMachine options)
      (licence options.applyDefaults) before after call op choice answer) :
    ∀ row ∈ after.world.tables.sessions,
      Grounded options.applyDefaults after.history row := by
  intro row member
  have handled := handled_of_accounts accounts
  obtain ⟨origin, spared⟩ := handle_sessions handled row member
  rw [accounts.history]
  cases origin with
  | kept old =>
      obtain ⟨login, minting, seen, minted, rfl⟩ := traced.rows row old
      exact ⟨login, minting, seen, minted.grow spared, rfl⟩
  | inserted insert =>
      cases insert
      obtain ⟨-, minting, rfl, behind⟩ := accounts.licensed
      exact ⟨call, minting, minting.now,
        ⟨before.history, [], rfl, behind, Or.inl rfl,
          fun _ none => by cases none⟩, rfl⟩
  | touched old now listed touch stamp =>
      cases touch
      subst stamp
      obtain ⟨login, minting, seen, minted, rfl⟩ := traced.rows old listed
      obtain ⟨token, read, session, sameID, presents⟩ := accounts.licensed
      have same := traced.same_token minted presents sameID
      exact ⟨login, minting, now, minted.touch presents.request same, rfl⟩

theorem Traced.step (traced : Traced options.applyDefaults before)
    (accounts : Accounts (authMachine options)
      (licence options.applyDefaults) before after call op choice answer) :
    Traced options.applyDefaults after := by
  have handled := handled_of_accounts accounts
  have event : ∀ performed ∈ after.history,
      performed ∈ before.history ∨ performed = ⟨call, ⟨op, answer⟩⟩ := by
    intro performed member
    rw [accounts.history] at member
    rcases List.mem_append.mp member with old | new
    · exact Or.inl old
    · exact Or.inr (List.mem_singleton.mp new)
  have member : ∀ performed ∈ before.history,
      performed ∈ after.history := by
    intro performed old
    rw [accounts.history]
    exact List.mem_append_left _ old
  refine ⟨traced.rows_step accounts, ?_, ?_, ?_, ?_, ?_⟩
  · rw [accounts.history]
    apply traced.reads.snoc
    intro hash row same
    cases same
    obtain ⟨-, found⟩ := AuthHost.select_same handled
    obtain ⟨listed, matched⟩ := lookup_mem (found _ rfl).symm
    exact ⟨traced.rows row listed, matched⟩
  · intro drawer id listed
    rcases event _ listed with old | new
    · obtain ⟨drawn, long⟩ := traced.drawn drawer id old
      exact ⟨handle_drawn handled id drawn, long⟩
    · cases new
      exact (handle_newSessionID handled).2
  · intro first second id firstDrew secondDrew
    rcases event _ firstDrew with old | new
    · rcases event _ secondDrew with other | new
      · exact traced.draws first second id old other
      · cases new
        exact absurd (traced.drawn first id old).1
          (handle_newSessionID handled).1
    · cases new
      rcases event _ secondDrew with other | new
      · exact absurd (traced.drawn second _ other).1
          (handle_newSessionID handled).1
      · cases new
        rfl
  · intro opener row listed
    rcases event _ listed with old | new
    · exact member _ (traced.inserts opener row old)
    · cases new
      obtain ⟨-, minting, rfl, behind⟩ := accounts.licensed
      exact member _ (mem_ownEvents.mp behind.id)
  · have fresh : ∀ opener row other,
        (⟨opener, ⟨.insertSession row, none⟩⟩ : AuthPerformed) ∈
          before.history →
        (⟨call, ⟨.insertSession other, none⟩⟩ : AuthPerformed) =
          ⟨call, ⟨op, answer⟩⟩ → row.id ≠ other.id := by
      intro opener row other old new same
      cases new
      obtain ⟨unopened, minting, rfl, behind⟩ := accounts.licensed
      have drew := traced.inserts opener row old
      rw [same] at drew
      have own := traced.draws _ _ _ drew (mem_ownEvents.mp behind.id)
      subst own
      exact absurd (unopened _ (mem_ownEvents.mpr old))
        (by simp [insertsSession])
    intro first second row other firstIn secondIn same
    rcases event _ firstIn with old | new
    · rcases event _ secondIn with older | new
      · exact traced.single first second row other old older same
      · obtain ⟨rfl, -⟩ := Performed.mk.inj new
        exact absurd same (fresh first row other old new)
    · rcases event _ secondIn with older | newer
      · obtain ⟨rfl, -⟩ := Performed.mk.inj new
        exact absurd same.symm (fresh second other row older new)
      · cases new
        cases newer
        rfl

end Steps

/-! ## Every run -/

/-- What a stamp says that was written by `formatTime`. -/
theorem parseTime_formatTime [Build] {time read : Time}
    (parsed : parseTime (formatTime time) = .ok read) : read = time := by
  unfold parseTime at parsed
  cases found : readTime (formatTime time).toList with
  | none => rw [found] at parsed; cases parsed
  | some other =>
      rw [found] at parsed
      rw [← Except.ok.inj parsed]
      exact eq_of_readTime_formatTime found

section Runs

variable [Build] [PasswordHashing] (options : AuthOptions)

/-- In every run the calls are accounted for and the sessions go back to
logins. -/
theorem authRun_traced (start : Time)
    (moves : List (Action AuthRequest AuthChoice Unit)) :
    Accounted (licence options.applyDefaults)
        (returns options.applyDefaults) (authRun options start moves) ∧
      Traced options.applyDefaults (authRun options start moves).world := by
  apply recorded_invariant (licensed_program options.applyDefaults)
  · intro before after call op choice answer _ traced accounts
    exact traced.step accounts
  · intro _ recorded traced
    exact ⟨traced.rows, traced.reads, traced.drawn, traced.draws,
      traced.inserts, traced.single⟩
  · exact accounted_idle _
  · exact traced_initial _ _ rfl
  · have labelled : ∀ number request,
        (AuthCall.mk number request).number = number :=
      fun _ _ => rfl
    exact Machine.meets_numbered labelled moves
      (fun _ none => by cases none)
  · exact meets_anything _ _

variable {options} {pool : AuthPool}

theorem successfulLogin
    (accounted : Accounted (licence options.applyDefaults)
      (returns options.applyDefaults) pool)
    {login : AuthCall} {minting : Minting} {token : String}
    (request : login.request = .login minting.input)
    (inserted : (⟨login, ⟨.insertSession
      (minting.row options.applyDefaults), none⟩⟩ : AuthPerformed) ∈
        pool.world.history)
    (same : SameToken minting.token token) :
    SuccessfulLogin pool login token := by
  intro past value member
  have own : past = ownEvents login pool.world.history :=
    accounted.past _ member
  have ends : returns options.applyDefaults login past value :=
    accounted.licensed _ member
  obtain ⟨number, asked⟩ := login
  obtain rfl : asked = .login minting.input := request
  cases value with
  | login outcome =>
      have opened : (⟨.insertSession (minting.row options.applyDefaults),
          none⟩ : AuthEvent) ∈ past := by
        rw [own]
        exact mem_ownEvents.mpr inserted
      obtain ⟨result, rfl, hash⟩ := LoginEnds.opened ends _ opened
      refine ⟨result, rfl, ?_⟩
      apply hashToken_eq_iff.mp
      exact hash.symm.trans (hashToken_eq_iff.mpr same)
  | validated _ | changed _ | created _ | done _ => cases ends

theorem soundAcceptance
    (accounted : Accounted (licence options.applyDefaults)
      (returns options.applyDefaults) pool)
    (traced : Traced options.applyDefaults pool.world)
    {call : AuthCall} {token id : String} {now : Time}
    (accepts : Accepts pool.world.history call token id now) :
    SoundAcceptance options.applyDefaults pool call token id now := by
  obtain ⟨request, answer, touched⟩ := accepts
  obtain ⟨earlier, later, split, licensed⟩ :=
    accounted.lawful.of_mem touched
  obtain ⟨other, row, session, sameID, presents⟩ := licensed
  obtain rfl : other = token :=
    Option.some.inj (presents.request.symm.trans request)
  have listed : ∀ event ∈ ownEvents call earlier,
      (⟨call, event⟩ : AuthPerformed) ∈ pool.world.history := by
    intro event member
    rw [split]
    exact List.mem_append_left _ (mem_ownEvents.mp member)
  obtain ⟨before, after, reading, read⟩ :=
    traced.reads.of_mem (listed _ presents.lookup)
  obtain ⟨grounded, hash⟩ := read _ row rfl
  obtain ⟨login, minting, seen, minted, rowID, -, rowHash, expires, last⟩ :=
    grounded.row
  obtain ⟨scannedID, -, expiry, lastSeen⟩ := scanSession_ok presents.scanned
  have same : SameToken minting.token other :=
    hashToken_eq_iff.mp (rowHash.symm.trans hash)
  have inserted : (⟨login, ⟨.insertSession
      (minting.row options.applyDefaults), none⟩⟩ : AuthPerformed) ∈
        pool.world.history := by
    rw [reading]
    exact List.mem_append_left _ minted.insert
  obtain ⟨_, _, _, behind, -⟩ := minted.session
  rw [expires] at expiry
  rw [last] at lastSeen
  have current := presents.current
  rw [sessionOver, parseTime_formatTime expiry,
    parseTime_formatTime lastSeen] at current
  simp only [Bool.or_eq_false_iff, decide_eq_false_iff_not, not_lt]
    at current
  exact ⟨listed _ presents.clock, before, after, row, login, minting, seen,
    reading, minted, successfulLogin accounted behind.request inserted same,
    rowID.symm.trans (scannedID.symm.trans sameID), same, current.1,
    current.2⟩

/-- A validation that has accepted a token is an acceptance, and every
acceptance is sound. -/
theorem session_acceptance_sound (options : AuthOptions) (start : Time)
    (moves : List (Action AuthRequest AuthChoice Unit))
    {call : AuthCall} {past : AuthPast} {session : AdminSession}
    {account : AdminAccount} {token : String}
    (request : call.request = .validateSession token)
    (returned : ⟨call, past, .ret (.validated (.ok (session, account)))⟩ ∈
      (authRun options start moves).threads) :
    ∃ now, Accepts (authRun options start moves).world.history call token
        session.id now ∧
      SoundAcceptance options.applyDefaults (authRun options start moves)
        call token session.id now := by
  obtain ⟨accounted, traced⟩ := authRun_traced options start moves
  have ends : returns options.applyDefaults call past
      (.validated (.ok (session, account))) :=
    accounted.licensed _ returned
  obtain ⟨number, asked⟩ := call
  obtain rfl : asked = .validateSession token := request
  obtain ⟨row, now, answer, presents, touched⟩ := ends session account rfl
  have own : past = ownEvents ⟨number, .validateSession token⟩
      (authRun options start moves).world.history :=
    accounted.past _ returned
  rw [own] at touched
  have accepts : Accepts (authRun options start moves).world.history
      ⟨number, .validateSession token⟩ token session.id now :=
    ⟨presents.request, answer, mem_ownEvents.mp touched⟩
  exact ⟨now, accepts, soundAcceptance accounted traced accepts⟩

end Runs

/-- Hashing that keeps the password readable. -/
@[reducible] def PasswordHashing.plain : PasswordHashing where
  hashPassword := fun salt password => salt ++ "$" ++ password
  verifyPassword := fun password encoded =>
    encoded.toList.dropWhile (· ≠ '$') = '$' :: password.toList

/-- A call that runs on its own, one operation a second. -/
def alone (request : AuthRequest) (index : Nat) (start : Time)
    (texts : List String) : List (Action AuthRequest AuthChoice Unit) :=
  .start request :: texts.mapIdx fun second text =>
    .advance index { time := start + second * 1000000000, text := text }

def sampleID : String := "00112233445566778899aabbccddeeff"

/-- An account is created, a login mints a token, and the token is
presented. -/
def sampleMoves : List (Action AuthRequest AuthChoice Unit) :=
  alone (.createAccount "admin" "correct horse" "cli" "") 0 0
      ["salt", "", "", "", ""] ++
    alone (.login {
        username := "admin"
        password := "correct horse"
        sourceIP := "" }) 1 (60 * 1000000000)
      ["", "", "", "", "", "token", "csrf", sampleID, "", "", "", ""] ++
    alone (.validateSession "token") 2 (120 * 1000000000)
      ["", "", "", ""]

/-- The call at a place of the pool that has accepted a token, and its
session. -/
def validatedBy (pool : AuthPool) (index : Nat) :
    Option (AuthCall × AdminSession) :=
  match pool.threads[index]? with
  | some ⟨call, _, .ret (.validated (.ok (session, _)))⟩ =>
      some (call, session)
  | _ => none

theorem validatedBy_mem {pool : AuthPool} {index : Nat} {call : AuthCall}
    {session : AdminSession}
    (validated : validatedBy pool index = some (call, session)) :
    ∃ past account,
      ⟨call, past, .ret (.validated (.ok (session, account)))⟩ ∈
        pool.threads := by
  unfold validatedBy at validated
  split at validated
  · rename_i found
    cases validated
    exact ⟨_, _, List.mem_of_getElem? found⟩
  · cases validated

theorem sample_validated :
    (validatedBy (@authRun Build.dev .plain {} 0 sampleMoves) 2).map
        (fun found => (found.1, found.2.id, found.2.csrfToken)) =
      some (⟨2, .validateSession "token"⟩, sampleID, "csrf") := by
  decide +kernel

theorem sample_session_sound :
    ∃ now, @SoundAcceptance .plain (AuthOptions.applyDefaults {})
      (@authRun Build.dev .plain {} 0 sampleMoves)
      ⟨2, .validateSession "token"⟩ "token" sampleID now := by
  obtain ⟨⟨call, session⟩, found, same⟩ :=
    Option.map_eq_some_iff.mp sample_validated
  simp only [Prod.mk.injEq] at same
  obtain ⟨rfl, sameID, -⟩ := same
  obtain ⟨past, account, returned⟩ := validatedBy_mem found
  obtain ⟨now, -, sound⟩ := @session_acceptance_sound Build.dev .plain {} 0
    sampleMoves _ past session account "token" rfl returned
  rw [sameID] at sound
  exact ⟨now, sound⟩

end Xoxproxy.Auth
