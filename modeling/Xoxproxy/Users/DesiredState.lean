import Xoxproxy.Store.Queries
import Xoxproxy.Users.ExactUpdates

/-!
# The desired state of a store

The derivation of the engine's state from the tables
(`internal/users/state.go`).  Whatever the service has let into the tables,
the derived state is one that the engine layer accepts.
-/

namespace Xoxproxy

open EffectPrograms RowTables

def engineQuota (user : ProxyUser) : Option Quota :=
  if 0 < user.quotaBytesMonthly then
    some ⟨periodMonthly, user.quotaBytesMonthly, dirAll⟩
  else if 0 < user.quotaBytesDaily then
    some ⟨periodDaily, user.quotaBytesDaily, dirAll⟩
  else none

/-- Unknown protocols are skipped. -/
def toEngineProtocols (protocols : List String) : List Protocol :=
  (protocols.map Protocol.mk).filter fun protocol =>
    protocol = protoHTTP || protocol = protoSOCKS5

/-- The check that `BuildEngineState` repeats on every row. -/
def servedAt (now : Time) (user : ProxyUser) : Bool :=
  user.status = .active &&
    match user.expiresAt with
    | none => true
    | some expiresAt => decide (now < expiresAt)

def engineUser (row : EngineUser) : User where
  username := row.user.username
  engineHash := row.engineHash
  recordNumber := row.user.id
  protocols := toEngineProtocols row.user.allowedProtocols
  downloadBPS := row.user.downloadBPS
  uploadBPS := row.user.uploadBPS
  quota := engineQuota row.user

/-- `BuildEngineState`. -/
def buildEngineState (rows : List EngineUser) (now : Time) : State :=
  ⟨(rows.filter fun row => servedAt now row.user).map engineUser⟩

theorem validQuota_engineQuota
    {user : ProxyUser} {quota : Quota}
    (monthly : ValidQuotaBytes user.quotaBytesMonthly)
    (daily : ValidQuotaBytes user.quotaBytesDaily)
    (chosen : engineQuota user = some quota) : ValidQuota quota := by
  have positive : (0 : Int) < miB := by decide
  unfold engineQuota at chosen
  by_cases perMonth : 0 < user.quotaBytesMonthly
  · rw [if_pos perMonth] at chosen
    rw [← Option.some.inj chosen]
    refine ⟨Or.inr (Or.inr rfl), Or.inr (Or.inr rfl), ?_⟩
    rcases monthly with zero | large
    · omega
    · exact large
  · rw [if_neg perMonth] at chosen
    by_cases perDay : 0 < user.quotaBytesDaily
    · rw [if_pos perDay] at chosen
      rw [← Option.some.inj chosen]
      refine ⟨Or.inl rfl, Or.inr (Or.inr rfl), ?_⟩
      rcases daily with zero | large
      · omega
      · exact large
    · rw [if_neg perDay] at chosen
      cases chosen

theorem mem_toEngineProtocols
    {protocols : List String} {protocol : Protocol}
    (member : protocol ∈ toEngineProtocols protocols) :
    protocol = protoHTTP ∨ protocol = protoSOCKS5 := by
  simpa using (List.mem_filter.mp member).2

theorem toEngineProtocols_nodup
    {protocols : List String} (distinct : protocols.Nodup) :
    (toEngineProtocols protocols).Nodup := by
  have mapped : (protocols.map Protocol.mk).Nodup :=
    distinct.map fun first second same => Protocol.mk.inj same
  exact mapped.filter _

/-- Protocols that went through the table come out as they were. -/
theorem splitProtocols_joinProtocols
    {protocols : List String} (valid : ValidProtocols protocols) :
    splitProtocols (joinProtocols protocols) = protocols := by
  have free : ∀ protocol ∈ protocols, ',' ∉ protocol.toList := by
    intro protocol member
    rcases valid.known protocol member with rfl | rfl
    · decide
    · decide
  have split : splitAt (joinProtocols protocols) ',' = protocols :=
    splitAt_join valid.nonempty free
  have nonempty : joinProtocols protocols ≠ "" := by
    intro empty
    rw [empty] at split
    have blank : "" ∈ protocols := by
      rw [← split]
      decide
    rcases valid.known "" blank with impossible | impossible
    · exact absurd impossible (by decide)
    · exact absurd impossible (by decide)
  rw [splitProtocols, if_neg nonempty, split]

/-- The engine layer accepts every user read from a sound row. -/
theorem validUser_engineUser
    [Build] {row : UserRow} {listed : EngineUser} (sound : SoundRow row)
    (issued : 1 ≤ row.id) (scanned : Scanned row listed.user) :
    ValidUser (engineUser listed) := by
  obtain ⟨protocols, valid, stored⟩ := sound.protocols
  have distinct : listed.user.allowedProtocols.Nodup := by
    rw [scanned.protocols, stored, splitProtocols_joinProtocols valid]
    exact valid.distinct
  have limits := sound.limits
  rw [← scanned.downloadBPS, ← scanned.uploadBPS,
    ← scanned.maxConnections, ← scanned.quotaBytesDaily,
    ← scanned.quotaBytesMonthly] at limits
  refine ⟨?_, ?_, limits.download, limits.upload, ?_, ?_, ?_⟩
  · change ValidUsername listed.user.username
    rw [scanned.username]
    exact sound.username
  · change 1 ≤ listed.user.id
    rw [scanned.id]
    exact issued
  · exact fun protocol member => mem_toEngineProtocols member
  · exact toEngineProtocols_nodup distinct
  · exact fun quota chosen =>
      validQuota_engineQuota limits.monthly limits.daily chosen

section States

variable [Build] {database : Database} {now : Time}
variable {listed : List EngineUser}

/-- What the desired state says of a user agrees with the tables. -/
structure Desired (database : Database) (now : Time) (user : User)
    (row : UserRow) : Prop where
  stored : row ∈ database.users
  username : user.username = row.username
  record : user.recordNumber = row.id
  active : row.status = .active
  unexpired : ∃ expiry, row.expiresAt = formatNullTime expiry ∧
    ∀ time, expiry = some time → now < time
  hash : ∃ credential,
    database.credentials.filter (activeFor row.id) = [credential] ∧
      user.engineHash = credential.engineHash
  monthly : row.quotaBytesMonthly ≠ 0 →
    user.quota = some ⟨periodMonthly, row.quotaBytesMonthly, dirAll⟩
  daily : row.quotaBytesMonthly = 0 → row.quotaBytesDaily ≠ 0 →
    user.quota = some ⟨periodDaily, row.quotaBytesDaily, dirAll⟩
  unlimited : row.quotaBytesMonthly = 0 → row.quotaBytesDaily = 0 →
    user.quota = none

/-- Every user of the desired state comes from a row and its active
credential. -/
theorem desired_of_mem
    (sound : Sound database)
    (done : database.listEngineUsers now = .ok listed) {user : User}
    (member : user ∈ (buildEngineState listed now).users) :
    ∃ row, Desired database now user row ∧ ValidUser user ∧
      engineHashRe user.engineHash = true := by
  obtain ⟨source, kept, rfl⟩ := List.mem_map.mp member
  obtain ⟨found, served⟩ := List.mem_filter.mp kept
  obtain ⟨row, stored, force, read, credential, joined, hash⟩ :=
    mem_of_listEngineUsers done found
  have scanned := scanned_of_ok read
  have soundRow := sound.rows row stored
  obtain ⟨only, one⟩ := sound.consistent.active row stored
  have same : credential = only := by
    rw [one] at joined
    exact List.mem_singleton.mp joined
  have issued : credential ∈ database.credentials :=
    (List.mem_filter.mp joined).1
  obtain ⟨expiry, expires⟩ := soundRow.expiry
  have parsed := scanned.expiresAt
  rw [expires] at parsed
  have sameExpiry := parseNullTime_formatNullTime parsed
  simp only [servedAt, Bool.and_eq_true, decide_eq_true_eq] at served
  obtain ⟨active, unexpired⟩ := served
  have positive : (0 : Int) < miB := by decide
  have monthly := soundRow.limits.monthly
  have daily := soundRow.limits.daily
  refine ⟨row, ⟨stored, scanned.username, scanned.id, ?_, ?_, ?_, ?_, ?_,
    ?_⟩, ?_, ?_⟩
  · rw [← scanned.status]
    exact active
  · refine ⟨expiry, expires, ?_⟩
    intro time expiresAt
    rw [sameExpiry, expiresAt] at unexpired
    simpa using unexpired
  · refine ⟨only, one, ?_⟩
    rw [← same]
    exact hash
  · intro nonzero
    have set : 0 < source.user.quotaBytesMonthly := by
      rw [scanned.quotaBytesMonthly]
      rcases monthly with zero | large
      · exact absurd zero nonzero
      · omega
    change engineQuota source.user = _
    rw [engineQuota, if_pos set, scanned.quotaBytesMonthly]
  · intro zero nonzero
    have unset : ¬ 0 < source.user.quotaBytesMonthly := by
      rw [scanned.quotaBytesMonthly]
      omega
    have set : 0 < source.user.quotaBytesDaily := by
      rw [scanned.quotaBytesDaily]
      rcases daily with none | large
      · exact absurd none nonzero
      · omega
    change engineQuota source.user = _
    rw [engineQuota, if_neg unset, if_pos set, scanned.quotaBytesDaily]
  · intro noMonthly noDaily
    have monthlyUnset : ¬ 0 < source.user.quotaBytesMonthly := by
      rw [scanned.quotaBytesMonthly]
      omega
    have dailyUnset : ¬ 0 < source.user.quotaBytesDaily := by
      rw [scanned.quotaBytesDaily]
      omega
    change engineQuota source.user = _
    rw [engineQuota, if_neg monthlyUnset, if_neg dailyUnset]
  · exact validUser_engineUser soundRow
      (sound.consistent.issued row stored).1 scanned
  · change engineHashRe source.engineHash = true
    rw [hash]
    exact sound.hashes credential issued

/-- Every state derived from sound tables is one that the engine layer
accepts. -/
theorem validState_buildEngineState
    (sound : Sound database)
    (done : database.listEngineUsers now = .ok listed) :
    ValidState (buildEngineState listed now) := by
  refine ⟨?_, ?_, ?_⟩
  · intro user member
    obtain ⟨row, _, valid, _⟩ := desired_of_mem sound done member
    exact valid
  · have names := listEngineUsers_nodup sound.consistent
      sound.consistent.names (fun _ _ scanned => scanned.username) done
    change ((List.map _ _).map User.username).Nodup
    rw [List.map_map]
    exact names.sublist (List.filter_sublist.map _)
  · have ids := listEngineUsers_nodup sound.consistent
      sound.consistent.ids (fun _ _ scanned => scanned.id) done
    change ((List.map _ _).map User.recordNumber).Nodup
    rw [List.map_map]
    exact ids.sublist (List.filter_sublist.map _)

end States

section Reachable

variable [Build] [Blake2b]

/-- Whatever calls have filled the tables, the state derived from them at
any moment is valid, is rendered under all valid settings, and says of
every user in it what the tables say. -/
theorem reachable_state_deployable
    (moves : List UserMove) (now : Time) {listed : List EngineUser}
    (done :
      (userPool moves).world.database.listEngineUsers now = .ok listed) :
    (buildEngineState listed now).validate = none ∧
      (∀ settings : Settings, settings.validate = none →
        ∃ text, render (buildEngineState listed now) settings =
          .ok text) ∧
      ∀ user ∈ (buildEngineState listed now).users,
        ∃ row, Desired (userPool moves).world.database now user row := by
  have sound : Sound (userPool moves).world.database :=
    (userPool_secure moves).invariant
  have valid := validState_buildEngineState sound done
  refine ⟨(State.validate_eq_none_iff _).mpr valid, ?_, ?_⟩
  · intro settings accepted
    have renderable :
        Renderable (buildEngineState listed now) settings := by
      refine ⟨accepted, valid, ?_⟩
      intro user member
      obtain ⟨row, _, _, hash⟩ := desired_of_mem sound done member
      exact hash
    exact ⟨_, (render_eq_ok_iff _ _ _).mpr ⟨renderable, rfl⟩⟩
  · intro user member
    obtain ⟨row, desired, _, _⟩ := desired_of_mem sound done member
    exact ⟨row, desired⟩

end Reachable

theorem reachable_state_deployable_alice :
    let _ := Build.dev
    let _ := Blake2b.upstream
    ∃ listed : List EngineUser,
      listed.map (fun user => user.user.username) = ["alice"] ∧
        (buildEngineState listed 0).validate = none := by
  intro dev digest
  have names :
      ((userPool sampleMoves).world.database.listEngineUsers 0).map
          (fun listed => listed.map fun user => user.user.username) =
        .ok ["alice"] := by
    decide +kernel
  cases done :
      (userPool sampleMoves).world.database.listEngineUsers 0 with
  | error error =>
      rw [done] at names
      cases names
  | ok listed =>
      rw [done] at names
      exact ⟨listed, Except.ok.inj names,
        (reachable_state_deployable sampleMoves 0 done).1⟩

end Xoxproxy
