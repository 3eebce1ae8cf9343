import Xoxproxy.Library.AssociationMaps
import Xoxproxy.Library.EffectPrograms
import Xoxproxy.Store.AdminTables
import Xoxproxy.Store.Tables

/-!
# What the authentication service does to its surroundings

The statements of the admin repositories, the clock, the sources of
randomness, the per-address limiter and the audit trail, as operations
with answers.
-/

namespace Xoxproxy

open AssociationMaps EffectPrograms RowTables

/-- `Options`, durations in nanoseconds; zero stands for the default. -/
structure AuthOptions where
  sessionTTL : Int := 0
  idleTimeout : Int := 0
  maxFailures : Int := 0
  lockout : Int := 0
  ipMaxFailures : Int := 0
  ipWindow : Int := 0
  ipLockout : Int := 0
  deriving DecidableEq, Repr

def minute : Int := 60 * 1000000000

def hour : Int := 60 * minute

def orDefault (value other : Int) : Int :=
  if value = 0 then other else value

/-- `applyDefaults`. -/
def AuthOptions.applyDefaults (options : AuthOptions) : AuthOptions where
  sessionTTL := orDefault options.sessionTTL (7 * 24 * hour)
  idleTimeout := orDefault options.idleTimeout (2 * hour)
  maxFailures := orDefault options.maxFailures 5
  lockout := orDefault options.lockout (15 * minute)
  ipMaxFailures := orDefault options.ipMaxFailures 20
  ipWindow := orDefault options.ipWindow (15 * minute)
  ipLockout := orDefault options.ipLockout (15 * minute)

/-- The range of `time.Duration`. -/
def minDuration : Int := -9223372036854775808

def maxDuration : Int := 9223372036854775807

/-- The duration that comes closest. -/
def saturate (nanos : Int) : Int :=
  if nanos < minDuration then minDuration
  else if maxDuration < nanos then maxDuration
  else nanos

/-- `Time.Sub`. -/
def timeSub (later earlier : Time) : Int := saturate (later - earlier)

theorem saturate_mono {shorter longer : Int} (order : shorter ≤ longer) :
    saturate shorter ≤ saturate longer := by
  have range : minDuration ≤ maxDuration := by decide
  unfold saturate
  by_cases early : shorter < minDuration
  · rw [if_pos early]
    split
    · exact Int.le_refl _
    · split <;> omega
  · have ahead : ¬ longer < minDuration := by omega
    rw [if_neg early, if_neg ahead]
    split <;> split <;> omega

/-- Only the longest duration is not told from what is longer still. -/
theorem saturate_le_iff {window nanos : Int} (least : minDuration ≤ window)
    (short : window < maxDuration) :
    saturate nanos ≤ window ↔ nanos ≤ window := by
  unfold saturate
  split
  · constructor <;> omega
  · split
    · constructor <;> omega
    · exact Iff.rfl

theorem timeSub_le {later earlier after before : Time}
    (follows : later ≤ after) (precedes : before ≤ earlier) :
    timeSub later earlier ≤ timeSub after before :=
  saturate_mono (Int.sub_le_sub follows precedes)

structure IPEntry where
  failures : List Time := []
  blockedUntil : Time := zeroTime
  deriving DecidableEq, Repr

/-- `ipLimiter`. -/
structure IPLimiter where
  entries : List (String × IPEntry) := []
  deriving DecidableEq, Repr

def maxTrackedIPs : Nat := 8192

namespace IPLimiter

variable (options : AuthOptions) (limiter : IPLimiter) (ip : String)
variable (now : Time)

def blocked : Bool :=
  ip ≠ "" &&
    match find? ip limiter.entries with
    | none => false
    | some entry => decide (now < entry.blockedUntil)

/-- Whether `prune` drops an entry. -/
def lapsed (entry : IPEntry) : Bool :=
  decide (entry.blockedUntil ≤ now) &&
    match entry.failures.getLast? with
    | none => true
    | some failure => decide (options.ipWindow < timeSub now failure)

def prune : IPLimiter :=
  if limiter.entries.length < maxTrackedIPs then limiter
  else
    ⟨limiter.entries.filter fun entry => !lapsed options now entry.2⟩

/-- A failure more, within the sliding window. -/
def addFailure (entry : Option IPEntry) : IPEntry :=
  let entry := entry.getD {}
  let kept := (entry.failures.filter fun failure =>
    decide (timeSub now failure ≤ options.ipWindow)) ++ [now]
  if options.ipMaxFailures ≤ kept.length then
    { failures := [], blockedUntil := now + options.ipLockout }
  else { entry with failures := kept }

def recordFailure : IPLimiter :=
  if ip = "" then limiter
  else
    ⟨adjust ip (addFailure options now)
      (limiter.prune options now).entries⟩

def recordSuccess : IPLimiter :=
  ⟨limiter.entries.filter fun entry => entry.1 ≠ ip⟩

end IPLimiter

/-- The operations of the authentication service. -/
inductive AuthOp where
  | now
  | ipBlocked (ip : String) (now : Time)
  | ipFailure (ip : String) (now : Time)
  | ipSuccess (ip : String)
  | newSalt
  | newToken
  | newSessionID
  | selectAccountByID (id : Int)
  | selectAccountByUsername (username : String)
  | insertAccount (username passwordHash : String) (created now : Time)
  | updatePassword (id : Int) (passwordHash : String) (now : Time)
  | recordLoginFailure
      (id failedAttempts : Int) (lockedUntil : Option Time) (now : Time)
  | resetFailures (id : Int) (now : Time)
  | insertSession (row : SessionRow)
  | selectSession (tokenHash : String)
  | touchSession (id : String) (lastSeen : Time)
  | deleteSession (id : String)
  | deleteSessionsForAccount (accountID : Int) (exceptSessionID : String)
  | deleteExpiredSessions (now : Time)
  | recordAudit (entry : AuditEntry)
  deriving DecidableEq

/-- The type of each operation's answer.  Statements that change accounts
answer with the number of affected rows. -/
@[reducible] def AuthOp.Answer : AuthOp → Type
  | .now => Time
  | .ipBlocked _ _ => Bool
  | .ipFailure _ _ => Unit
  | .ipSuccess _ => Unit
  | .newSalt => Except GoError String
  | .newToken => Except GoError String
  | .newSessionID => String
  | .selectAccountByID _ => Except GoError (Option AccountRow)
  | .selectAccountByUsername _ => Except GoError (Option AccountRow)
  | .insertAccount _ _ _ _ => Except GoError Int
  | .updatePassword _ _ _ => Except GoError Nat
  | .recordLoginFailure _ _ _ _ => Except GoError Nat
  | .resetFailures _ _ => Except GoError Nat
  | .insertSession _ => Option GoError
  | .selectSession _ => Except GoError (Option SessionRow)
  | .touchSession _ _ => Option GoError
  | .deleteSession _ => Option GoError
  | .deleteSessionsForAccount _ _ => Option GoError
  | .deleteExpiredSessions _ => Except GoError Nat
  | .recordAudit _ => Option GoError

abbrev AuthProgram := Program AuthOp AuthOp.Answer

abbrev Auth.ask (op : AuthOp) : AuthProgram op.Answer :=
  Program.perform op

/-- The tables with the last account identifier, the clock, the limiter,
and the session identifiers drawn so far. -/
structure AuthHost where
  tables : AdminTables := {}
  accountSequence : Int := 0
  clock : Time
  limiter : IPLimiter := {}
  drawn : List String := []
  deriving DecidableEq, Repr

/-- What an operation meets: an error of its own, the clock, and the value
of a source of randomness. -/
structure AuthChoice where
  error : Option GoError := none
  time : Time := 0
  text : String := ""

namespace AuthHost

/-- A lookup. -/
def select {Found : Type} (choice : AuthChoice) (host : AuthHost)
    (found : Found) : Except GoError Found × AuthHost :=
  match choice.error with
  | some error => (.error error, host)
  | none => (.ok found, host)

/-- A statement that counts the rows it changes. -/
def change (choice : AuthChoice) (host : AuthHost)
    (changed : Nat × AdminTables) : Except GoError Nat × AuthHost :=
  match choice.error with
  | some error => (.error error, host)
  | none => (.ok changed.1, { host with tables := changed.2 })

/-- A statement whose number of rows nobody asks for. -/
def execute (choice : AuthChoice) (host : AuthHost)
    (tables : AdminTables) : Option GoError × AuthHost :=
  match choice.error with
  | some error => (some error, host)
  | none => (none, { host with tables := tables })

/-- Usernames of administrators are compared without the case of ASCII
letters. -/
def foldCase (text : String) : String := text.map Char.toLower

/-- A row whose username is taken up to its case is refused. -/
def insertAccount (host : AuthHost) (username passwordHash : String)
    (created now : Time) : Except GoError (Int × AuthHost) :=
  if host.tables.accounts.any fun row =>
      foldCase row.username = foldCase username then
    .error (.plain ("constraint failed: UNIQUE constraint failed: " ++
      "admin_accounts.username"))
  else
    .ok (host.accountSequence + 1,
      { host with
        accountSequence := host.accountSequence + 1
        tables :=
          { host.tables with
            accounts := host.tables.accounts ++ [{
              id := host.accountSequence + 1
              username := username
              passwordHash := passwordHash
              failedAttempts := 0
              lockedUntil := none
              createdAt := formatTime created
              updatedAt := formatTime now }] } })

/-- The constraint of `admin_sessions` that a new row breaks. -/
def sessionConflict (tables : AdminTables) (row : SessionRow) :
    Option GoError :=
  if tables.sessions.any fun old => old.id = row.id then
    some (.plain ("constraint failed: UNIQUE constraint failed: " ++
      "admin_sessions.id"))
  else if tables.sessions.any fun old => old.tokenHash = row.tokenHash then
    some (.plain ("constraint failed: UNIQUE constraint failed: " ++
      "admin_sessions.token_hash"))
  else if tables.accounts.any fun account => account.id = row.accountID then
    none
  else some (.plain "constraint failed: FOREIGN KEY constraint failed")

/-- A new session. -/
def insertSession (choice : AuthChoice) (host : AuthHost)
    (row : SessionRow) : Option GoError × AuthHost :=
  match sessionConflict host.tables row with
  | some error => (some error, host)
  | none =>
      execute choice host
        { host.tables with sessions := host.tables.sessions ++ [row] }

/-- The length of a session identifier, 16 bytes in hexadecimal. -/
def sessionIDLength : Nat := 32

/-- The operations on the host.  The clock does not run backwards, and no
session identifier is drawn twice. -/
def handle (options : AuthOptions) :
    (op : AuthOp) → AuthChoice → AuthHost → Option (op.Answer × AuthHost)
  | .now, choice, host =>
      if host.clock ≤ choice.time then
        some (choice.time, { host with clock := choice.time })
      else none
  | .ipBlocked ip now, _, host =>
      some (host.limiter.blocked ip now, host)
  | .ipFailure ip now, _, host =>
      some ((), { host with
        limiter := host.limiter.recordFailure options ip now })
  | .ipSuccess ip, _, host =>
      some ((), { host with limiter := host.limiter.recordSuccess ip })
  | .newSalt, choice, host => some (select choice host choice.text)
  | .newToken, choice, host => some (select choice host choice.text)
  | .newSessionID, choice, host =>
      if choice.text ∈ host.drawn ∨
          choice.text.length ≠ sessionIDLength then none
      else some (choice.text,
        { host with drawn := host.drawn ++ [choice.text] })
  | .selectAccountByID id, choice, host =>
      some (select choice host
        (lookup AccountRow.id host.tables.accounts id))
  | .selectAccountByUsername username, choice, host =>
      some (select choice host
        (host.tables.accounts.find? fun row =>
          foldCase row.username = foldCase username))
  | .insertAccount username passwordHash created now, choice, host =>
      match choice.error, host.insertAccount username passwordHash created
          now with
      | some error, _ => some (.error error, host)
      | none, .error error => some (.error error, host)
      | none, .ok (id, after) => some (.ok id, after)
  | .updatePassword id passwordHash now, choice, host =>
      some (change choice host
        (host.tables.updatePassword id passwordHash now))
  | .recordLoginFailure id failedAttempts lockedUntil now, choice, host =>
      some (change choice host
        (host.tables.recordLoginFailure id failedAttempts lockedUntil
          now))
  | .resetFailures id now, choice, host =>
      some (change choice host (host.tables.resetFailures id now))
  | .insertSession row, choice, host =>
      some (insertSession choice host row)
  | .selectSession tokenHash, choice, host =>
      some (select choice host
        (lookup SessionRow.tokenHash host.tables.sessions tokenHash))
  | .touchSession id lastSeen, choice, host =>
      some (execute choice host (host.tables.touchSession id lastSeen))
  | .deleteSession id, choice, host =>
      some (execute choice host (host.tables.deleteSession id).2)
  | .deleteSessionsForAccount accountID exceptSessionID, choice, host =>
      some (execute choice host
        (host.tables.deleteSessionsForAccount accountID
          exceptSessionID).2)
  | .deleteExpiredSessions now, choice, host =>
      some (change choice host (host.tables.deleteExpiredSessions now))
  | .recordAudit _, choice, host => some (choice.error, host)

section Cases

variable {choice : AuthChoice} {host after : AuthHost}

/-- A lookup changes nothing. -/
theorem select_same {Found : Type} {found : Found}
    {answer : Except GoError Found}
    (handled : some (select choice host found) = some (answer, after)) :
    after = host ∧ ∀ value, answer = .ok value → value = found := by
  unfold select at handled
  cases failure : choice.error with
  | some error =>
      rw [failure] at handled
      cases handled
      exact ⟨rfl, fun _ same => by cases same⟩
  | none =>
      rw [failure] at handled
      cases handled
      exact ⟨rfl, fun _ same => (Except.ok.inj same).symm⟩

/-- A statement fails and changes nothing, or is done. -/
theorem execute_cases {tables : AdminTables} {answer : Option GoError}
    (handled : some (execute choice host tables) = some (answer, after)) :
    (after = host ∧ answer ≠ none) ∨
      (answer = none ∧ after = { host with tables := tables }) := by
  unfold execute at handled
  cases failure : choice.error with
  | some error =>
      rw [failure] at handled
      cases handled
      exact Or.inl ⟨rfl, Option.some_ne_none _⟩
  | none =>
      rw [failure] at handled
      cases handled
      exact Or.inr ⟨rfl, rfl⟩

/-- So does one that counts its rows. -/
theorem change_cases {changed : Nat × AdminTables}
    {answer : Except GoError Nat}
    (handled : some (change choice host changed) = some (answer, after)) :
    (after = host ∧ ∃ error, answer = .error error) ∨
      (answer = .ok changed.1 ∧
        after = { host with tables := changed.2 }) := by
  unfold change at handled
  cases failure : choice.error with
  | some error =>
      rw [failure] at handled
      cases handled
      exact Or.inl ⟨rfl, error, rfl⟩
  | none =>
      rw [failure] at handled
      cases handled
      exact Or.inr ⟨rfl, rfl⟩

end Cases

end AuthHost

end Xoxproxy
