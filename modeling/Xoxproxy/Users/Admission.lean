import Xoxproxy.Engine.ConfigFidelity
import Xoxproxy.Users.PasswordsInForce

/-!
# Who is let through

The decision of the engine about a client, and where it comes from: the
text that was rendered, the state that it was rendered from, and the tables
that the state was derived from.
-/

namespace Xoxproxy

open EffectPrograms RowTables

/-- The salt of a verifier, which ends at the next dollar sign. -/
def saltOf (hash : String) : String :=
  String.ofList ((hash.toList.drop 3).takeWhile (· ≠ '$'))

section Decision

variable [Blake2b]

/-- The engine hashes what a client has sent with the salt of the
verifier. -/
def verifies (password hash : String) : Bool :=
  decide (crHash password (saltOf hash) = hash)

/-- A client is let through if it knows the password of an account that
may use the service. -/
def admits (text : String) (service : Service) (name password : String) :
    Bool :=
  ((readRules text).accounts.any fun account =>
      decide (account.1 = name) && verifies password account.2) &&
    mayUse text service name

theorem saltOf_crHash {password salt : String}
    (plain : '$' ∉ salt.toList) : saltOf (crHash password salt) = salt := by
  have shape : (crHash password salt).toList.drop 3 =
      salt.toList ++ '$' ::
        cryptB64 (Blake2b.sum128 (bytesOf password ++ 0 :: bytesOf salt)) := by
    unfold crHash
    simp
  have kept : ∀ char ∈ salt.toList, decide (char ≠ '$') = true := by
    intro char member
    exact decide_eq_true fun same => plain (same ▸ member)
  rw [saltOf, shape, List.takeWhile_append_of_pos kept]
  simp

/-- The engine accepts the password behind a verifier. -/
theorem verifies_crHash {password salt : String}
    (plain : '$' ∉ salt.toList) :
    verifies password (crHash password salt) = true := by
  rw [verifies, saltOf_crHash plain, decide_eq_true rfl]

theorem verifies_of_verifierOf {password hash : String}
    (verifier : VerifierOf password hash) : verifies password hash = true := by
  obtain ⟨salt, rfl⟩ := verifier
  apply verifies_crHash
  intro member
  exact absurd (newSalt_isAlphanumeric salt '$' member) (by decide)

variable [Build] {state : State} {settings : Settings} {text : String}

/-- Whom a rendered text lets through. -/
theorem admits_iff_of_rendered
    (rendered : render state settings = .ok text)
    (noUID : settings.setUID = "") (noGID : settings.setGID = "")
    (service : Service) (name password : String) :
    admits text service name password = true ↔
      ∃ user ∈ state.users, user.username = name ∧
        verifies password user.engineHash = true ∧
        (service.protocol ∈ user.protocols ∨
          ∀ other ∈ state.users, service.protocol ∉ other.protocols) := by
  obtain ⟨renderable, same⟩ :=
    (render_eq_ok_iff state settings text).mp rendered
  have valid : ∀ user ∈ sortUsers state.users, ValidUser user :=
    fun user member => renderable.stateValid.users user
      ((mem_sortUsers state.users user).mp member)
  have hashes : ∀ user ∈ sortUsers state.users,
      engineHashRe user.engineHash = true :=
    fun user member => renderable.hashes user
      ((mem_sortUsers state.users user).mp member)
  have accounts : (readRules text).accounts =
      (sortUsers state.users).map fun user =>
        (user.username, user.engineHash) := by
    rw [readRules, same, ruleLines_renderText renderable.settingsValid noUID
      noGID valid hashes]
    exact accounts_rulesOf fun user member => (valid user member).name
  simp only [admits, Bool.and_eq_true, List.any_eq_true, accounts,
    List.mem_map, decide_eq_true_eq]
  constructor
  · rintro ⟨⟨_, ⟨user, listed, rfl⟩, named, verified⟩, allowed⟩
    have present := (mem_sortUsers state.users user).mp listed
    refine ⟨user, present, named, verified, ?_⟩
    rw [← named] at allowed
    exact (mayUse_iff rendered present service).mp allowed
  · rintro ⟨user, present, rfl, verified, allowed⟩
    exact ⟨⟨_, ⟨user, (mem_sortUsers state.users user).mpr present, rfl⟩,
      rfl, verified⟩, (mayUse_iff rendered present service).mpr allowed⟩

end Decision

section Tables

variable [Build] {database : Database} {now : Time}
variable {listed : List EngineUser}

/-- The row is active and has not expired, neither as text nor as a point
in time. -/
structure Served (now : Time) (row : UserRow) : Prop where
  active : row.status = .active
  unexpired : ∀ text, row.expiresAt = some text →
    formatTime now < text ∧
      ∀ expiry, parseTime text = .ok expiry → now < expiry

def Offers (row : UserRow) (service : Service) : Prop :=
  service.protocol.name ∈ splitProtocols row.allowedProtocols

/-- The user of the derived state that a row and a credential make. -/
structure DerivedFrom (user : User) (row : UserRow)
    (credential : CredentialRow) : Prop where
  username : user.username = row.username
  hash : user.engineHash = credential.engineHash
  protocols : user.protocols =
    toEngineProtocols (splitProtocols row.allowedProtocols)

/-- What an expiry that can be read says. -/
theorem expiry_cases {expires : Option String} {expiry : Option Time}
    (parsed : parseNullTime expires = .ok expiry) :
    expires = none ∧ expiry = none ∨ expires = some "" ∨
      ∃ text time, expires = some text ∧ expiry = some time ∧
        parseTime text = .ok time := by
  cases expires with
  | none => exact Or.inl ⟨rfl, (Except.ok.inj parsed).symm⟩
  | some text =>
      by_cases empty : text = ""
      · exact Or.inr (Or.inl (congrArg some empty))
      · rw [parseNullTime, if_neg empty] at parsed
        cases time : parseTime text with
        | error error =>
            rw [time] at parsed
            cases parsed
        | ok instant =>
            rw [time] at parsed
            exact Or.inr (Or.inr
              ⟨text, instant, rfl, (Except.ok.inj parsed).symm, time⟩)

theorem served_iff {row : UserRow} {user : ProxyUser}
    (read : scanUser row = .ok user) :
    Served now row ↔ inForce now row = true ∧ servedAt now user = true := by
  have scanned := scanned_of_ok read
  have never : ¬ formatTime now < "" := by
    rw [String.lt_iff_toList_lt]
    exact List.not_lt_nil _
  simp only [inForce, servedAt, Bool.and_eq_true, decide_eq_true_eq,
    scanned.status]
  rcases expiry_cases scanned.expiresAt with
    ⟨stored, expiry⟩ | blank | ⟨text, time, stored, expiry, parsed⟩
  · simp only [stored, expiry, and_true, and_self]
    exact ⟨Served.active, fun active => ⟨active, by simp [stored]⟩⟩
  · simp only [blank, never, decide_false, Bool.false_eq_true, and_false,
      false_and, iff_false]
    exact fun served => never (served.unexpired "" blank).1
  · simp only [stored, expiry, decide_eq_true_eq]
    constructor
    · intro served
      obtain ⟨later, after⟩ := served.unexpired text stored
      exact ⟨⟨served.active, later⟩, served.active, after time parsed⟩
    · rintro ⟨⟨active, later⟩, -, after⟩
      refine ⟨active, fun other same => ?_⟩
      obtain rfl := Option.some.inj (stored.symm.trans same)
      refine ⟨later, fun instant also => ?_⟩
      rw [parsed] at also
      exact Except.ok.inj also ▸ after

omit [Build] in
theorem offers_iff {user : User} {row : UserRow} {credential : CredentialRow}
    (derived : DerivedFrom user row credential) (service : Service) :
    service.protocol ∈ user.protocols ↔ Offers row service := by
  rw [derived.protocols, toEngineProtocols, Offers, List.mem_filter,
    List.mem_map]
  constructor
  · rintro ⟨⟨name, member, same⟩, -⟩
    rw [← same]
    exact member
  · intro member
    refine ⟨⟨_, member, rfl⟩, ?_⟩
    cases service <;> decide

theorem derived_of_served
    (done : database.listEngineUsers now = .ok listed) {row : UserRow}
    (stored : row ∈ database.users) (served : Served now row)
    {credential : CredentialRow} (held : credential ∈ database.credentials)
    (active : activeFor row.id credential = true) :
    ∃ user ∈ (buildEngineState listed now).users,
      DerivedFrom user row credential := by
  have texts : inForce now row = true := by
    rw [inForce, served.active]
    cases expires : row.expiresAt with
    | none => rfl
    | some text => simpa using (served.unexpired text expires).1
  obtain ⟨source, found, read⟩ :=
    mem_readAll done (mem_engineRows.mpr ⟨stored, texts, held, active⟩)
  obtain ⟨scan, hash⟩ := scanEngineUser_ok read
  have scanned := scanned_of_ok scan
  have still := ((served_iff scan).mp served).2
  exact ⟨engineUser source,
    List.mem_map_of_mem (List.mem_filter.mpr ⟨found, still⟩),
    scanned.username, hash, congrArg toEngineProtocols scanned.protocols⟩

theorem derived_of_mem
    (done : database.listEngineUsers now = .ok listed) {user : User}
    (member : user ∈ (buildEngineState listed now).users) :
    ∃ row ∈ database.users, Served now row ∧
      ∃ credential ∈ database.credentials,
        activeFor row.id credential = true ∧
          DerivedFrom user row credential := by
  obtain ⟨source, kept, rfl⟩ := List.mem_map.mp member
  obtain ⟨found, served⟩ := List.mem_filter.mp kept
  obtain ⟨row, stored, force, read, credential, joined, hash⟩ :=
    mem_of_listEngineUsers done found
  obtain ⟨held, active⟩ := List.mem_filter.mp joined
  have scanned := scanned_of_ok read
  exact ⟨row, stored, (served_iff read).mpr ⟨force, served⟩, credential,
    held, active, scanned.username, hash,
    congrArg toEngineProtocols scanned.protocols⟩

variable [Blake2b] {settings : Settings} {text : String}

/-- What the tables say of a client: it knows the password in force of a
user that is served, and the user has the protocol, or nobody has. -/
def Entitled (database : Database) (now : Time) (service : Service)
    (name password : String) : Prop :=
  ∃ row ∈ database.users, row.username = name ∧ Served now row ∧
    (∃ credential ∈ database.credentials,
      activeFor row.id credential = true ∧
        verifies password credential.engineHash = true) ∧
    (Offers row service ∨
      ∀ other ∈ database.users, Served now other → ¬ Offers other service)

omit [Blake2b] in
theorem nobody_offers_iff (consistent : Consistent database)
    (done : database.listEngineUsers now = .ok listed) (service : Service) :
    (∀ user ∈ (buildEngineState listed now).users,
        service.protocol ∉ user.protocols) ↔
      ∀ row ∈ database.users, Served now row → ¬ Offers row service := by
  constructor
  · intro nobody row stored served offers
    obtain ⟨credential, only⟩ := consistent.active row stored
    have joined : credential ∈
        database.credentials.filter (activeFor row.id) := by
      rw [only]
      exact List.mem_singleton_self credential
    obtain ⟨held, active⟩ := List.mem_filter.mp joined
    obtain ⟨user, member, derived⟩ :=
      derived_of_served done stored served held active
    exact nobody user member ((offers_iff derived service).mpr offers)
  · intro nobody user member has
    obtain ⟨row, stored, served, credential, -, -, derived⟩ :=
      derived_of_mem done member
    exact nobody row stored served ((offers_iff derived service).mp has)

/-- The text that is rendered from the tables lets through exactly the
clients that are entitled by them. -/
theorem admits_iff_entitled (consistent : Consistent database)
    (done : database.listEngineUsers now = .ok listed)
    (rendered : render (buildEngineState listed now) settings = .ok text)
    (noUID : settings.setUID = "") (noGID : settings.setGID = "")
    (service : Service) (name password : String) :
    admits text service name password = true ↔
      Entitled database now service name password := by
  rw [admits_iff_of_rendered rendered noUID noGID,
    nobody_offers_iff consistent done]
  constructor
  · rintro ⟨user, member, named, verified, allowed⟩
    obtain ⟨row, stored, served, credential, held, active, derived⟩ :=
      derived_of_mem done member
    refine ⟨row, stored, derived.username.symm.trans named, served,
      ⟨credential, held, active, derived.hash ▸ verified⟩, ?_⟩
    exact allowed.imp_left (offers_iff derived service).mp
  · rintro ⟨row, stored, named, served, ⟨credential, held, active, verified⟩,
      allowed⟩
    obtain ⟨user, member, derived⟩ :=
      derived_of_served done stored served held active
    refine ⟨user, member, derived.username.trans named,
      derived.hash ▸ verified, ?_⟩
    exact allowed.imp_left (offers_iff derived service).mpr

omit [Blake2b] in
theorem rendered_of_sound (sound : Sound database)
    (done : database.listEngineUsers now = .ok listed)
    (accepted : settings.validate = none) :
    ∃ text, render (buildEngineState listed now) settings = .ok text := by
  refine ⟨_, (render_eq_ok_iff _ _ _).mpr
    ⟨⟨accepted, validState_buildEngineState sound done, ?_⟩, rfl⟩⟩
  intro user member
  obtain ⟨row, -, -, hash⟩ := desired_of_mem sound done member
  exact hash

/-- However the calls of the service are interleaved, the tables can be
rendered under all accepted settings, to a text that lets through exactly
the clients that the tables entitle. -/
theorem reachable_admits_iff (moves : List UserMove)
    (done :
      (userPool moves).world.database.listEngineUsers now = .ok listed)
    (accepted : settings.validate = none)
    (noUID : settings.setUID = "") (noGID : settings.setGID = "") :
    ∃ text, render (buildEngineState listed now) settings = .ok text ∧
      ∀ service name password,
        admits text service name password = true ↔
          Entitled (userPool moves).world.database now service name
            password := by
  have sound : Sound (userPool moves).world.database :=
    (userPool_secure moves).invariant
  obtain ⟨text, rendered⟩ := rendered_of_sound sound done accepted
  exact ⟨text, rendered, admits_iff_entitled sound.consistent done rendered
    noUID noGID⟩

/-- A password that was handed out lets its user through, unless another
one was issued since. -/
theorem handed_password_admits (earlier later : List UserMove)
    (request : UserRequest × Actor)
    {thread : Thread UserOp UserOp.Answer (Option (ProxyUser × String))
      UserCall}
    (member : thread ∈
      (issuePool (earlier ++ .start request :: later)).threads)
    (label : thread.label =
      UserCall.numbered (Machine.starts earlier) request)
    {user : ProxyUser} {password : String}
    (handed : thread.result = some (some (user, password)))
    (done : Database.listEngineUsers
      (issuePool (earlier ++ .start request :: later)).world.database
      now = .ok listed)
    (rendered : render (buildEngineState listed now) settings = .ok text)
    (noUID : settings.setUID = "") (noGID : settings.setGID = "")
    (service : Service) {row : UserRow}
    (stored : row ∈
      (issuePool (earlier ++ .start request :: later)).world.database.users)
    (same : row.id = user.id) (served : Served now row)
    (offers : Offers row service) :
    ∃ issued ∈ (issuePool
        (earlier ++ .start request :: later)).world.database.credentials,
      issued.userID = user.id ∧
        (issuePool earlier).world.database.credentialSequence < issued.id ∧
        (admits text service user.username password = true ∨
          ∃ newer ∈ (issuePool (earlier ++
              .start request :: later)).world.database.credentials,
            newer.userID = user.id ∧ issued.id < newer.id) := by
  obtain ⟨kept, given⟩ :=
    given_of_returned earlier later request member label handed
  obtain ⟨issued, held, owner, after, verifier⟩ :=
    given.1.stored row stored same
  refine ⟨issued, held, owner, after, ?_⟩
  obtain ⟨credential, only⟩ := kept.consistent.active row stored
  have joined : credential ∈ List.filter (activeFor row.id)
      (issuePool (earlier ++ .start request :: later)).world.database.credentials := by
    rw [only]
    exact List.mem_singleton_self credential
  obtain ⟨present, active⟩ := List.mem_filter.mp joined
  obtain ⟨current, inForce⟩ := of_decide_eq_true active
  have newest := kept.generations.newest credential present inForce issued
    held (owner.trans (current.trans same).symm)
  rcases Int.lt_or_eq_of_le newest with later | latest
  · exact Or.inr ⟨credential, present, current.trans same, later⟩
  · left
    obtain rfl := kept.generations.eq held present latest
    refine (admits_iff_entitled kept.consistent done rendered noUID noGID
      service user.username password).mpr ?_
    exact ⟨row, stored, given.2.named row stored same, served,
      ⟨issued, held, active, verifies_of_verifierOf verifier⟩, Or.inl offers⟩

end Tables

/-- The columns of a user that decide whom the engine serves. -/
def aliceColumns (row : UserRow) :=
  (row.id, row.username, row.status, row.expiresAt, row.allowedProtocols)

theorem served_alice [Build] {rows : List UserRow} (now : Time)
    (users : rows.map aliceColumns =
      [(1, "alice", .active, none, "http")]) :
    ∃ row ∈ rows, row.id = 1 ∧ row.username = "alice" ∧ Served now row ∧
      Offers row .http := by
  have one := List.mem_singleton_self
    ((1 : Int), "alice", UserStatus.active, (none : Option String), "http")
  rw [← users] at one
  obtain ⟨row, stored, shape⟩ := List.mem_map.mp one
  simp only [aliceColumns, Prod.mk.injEq] at shape
  obtain ⟨id, name, active, expires, protocols⟩ := shape
  refine ⟨row, stored, id, name, ⟨active, ?_⟩, ?_⟩
  · intro text same
    rw [expires] at same
    cases same
  · rw [Offers, protocols]
    decide

/-- Alice, who has just been created, is let through with her password. -/
theorem reachable_admits_iff_alice :
    let _ := Build.dev
    let _ := Blake2b.upstream
    ∃ listed text,
      (userPool sampleMoves).world.database.listEngineUsers 0 = .ok listed ∧
        render (buildEngineState listed 0) sampleSettings = .ok text ∧
        admits text .http "alice" "correct horse battery" = true := by
  intro dev digests
  obtain ⟨read, known, users⟩ :
      ((userPool sampleMoves).world.database.listEngineUsers 0).isOk =
          true ∧
        (userPool sampleMoves).world.database.credentials.any
          (fun row => activeFor 1 row &&
            verifies "correct horse battery" row.engineHash) = true ∧
        (userPool sampleMoves).world.database.users.map aliceColumns =
          [(1, "alice", .active, none, "http")] := by
    decide +kernel
  obtain ⟨row, stored, id, name, served, offers⟩ := served_alice 0 users
  obtain ⟨credential, held, both⟩ := List.any_eq_true.mp known
  rw [Bool.and_eq_true, ← id] at both
  cases done : (userPool sampleMoves).world.database.listEngineUsers 0 with
  | error error =>
      rw [done] at read
      cases read
  | ok listed =>
      obtain ⟨text, rendered, exactly⟩ :=
        reachable_admits_iff sampleMoves done sampleSettings_valid rfl rfl
      exact ⟨listed, text, rfl, rendered, (exactly _ _ _).mpr
        ⟨row, stored, name, served, ⟨credential, held, both⟩,
          Or.inl offers⟩⟩

theorem ok_of_isOk_bind {Value Result : Type}
    {read : Except GoError Value} {next : Value → Except GoError Result}
    (both : (read.bind next).isOk = true) :
    ∃ value result, read = .ok value ∧ next value = .ok result := by
  cases read with
  | error error => cases both
  | ok value =>
      change (next value).isOk = true at both
      cases given : next value with
      | error error =>
          rw [given] at both
          cases both
      | ok result => exact ⟨value, result, rfl, given⟩

/-- The password that Alice was given in exchange lets her through. -/
theorem handed_password_admits_rotated :
    ∃ listed text,
      @Database.listEngineUsers Build.dev rotatedPool.world.database 0 =
          .ok listed ∧
        @render Build.dev (buildEngineState listed 0) sampleSettings =
          .ok text ∧
        @admits Blake2b.upstream text .http "alice"
          "staple battery horse" = true := by
  obtain ⟨thread, member, shape⟩ := List.mem_map.mp rotatedPool_threads
  obtain ⟨label, result⟩ := Prod.mk.inj shape
  obtain ⟨handed, returned, pair⟩ := Option.map_eq_some_iff.mp result
  obtain ⟨⟨user, password⟩, rfl, same⟩ := Option.map_eq_some_iff.mp pair
  simp only [Prod.mk.injEq] at same
  obtain ⟨id, name, rfl⟩ := same
  obtain ⟨read, issues, few, users⟩ :
      ((@Database.listEngineUsers Build.dev
          rotatedPool.world.database 0).bind fun listed =>
            @render Build.dev (buildEngineState listed 0)
              sampleSettings).isOk = true ∧
        (@issuePool Build.dev Blake2b.upstream
          createdAlice).world.database.credentialSequence = 1 ∧
        (∀ credential ∈ rotatedPool.world.database.credentials,
          credential.id ≤ 2) ∧
        rotatedPool.world.database.users.map aliceColumns =
          [(1, "alice", .active, none, "http")] := by
    decide +kernel
  obtain ⟨listed, text, done, rendered⟩ := ok_of_isOk_bind read
  obtain ⟨row, stored, one, -, served, offers⟩ :=
    @served_alice Build.dev _ 0 users
  obtain ⟨issued, held, owner, after, admitted⟩ :=
    @handed_password_admits Build.dev 0 listed Blake2b.upstream
      sampleSettings text createdAlice
      (List.replicate 9 (.advance 1 sampleChoice)) rotationOfAlice
      thread member label user _ returned done rendered rfl rfl
      .http row stored (one.trans id.symm) served offers
  refine ⟨listed, text, done, rendered, ?_⟩
  rw [issues] at after
  rcases admitted with through | ⟨newer, present, -, later⟩
  · rw [← name]
    exact through
  · exact absurd (few newer present) (by omega)

end Xoxproxy
