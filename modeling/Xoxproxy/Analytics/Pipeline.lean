import Xoxproxy.Analytics.Ledger
import Xoxproxy.Store.TrafficQueries
import Xoxproxy.Users.Operations

/-!
# The analytics pipeline

Log file, tailer, bounded queue, aggregator and batched flush, as one
machine (`internal/analytics/service.go`, `tailer.go`).  The tailer and
the service loop are two goroutines: each of their steps is one access to
something they share.  The engine appends to the log, the user service
works on the same database, and the process may be killed and started
again at any point.

The records carry the places of their lines, and `Trace` follows every
record from the log to the ledger.  No step depends on either.
-/

namespace Xoxproxy.Analytics

open AssociationMaps RowTables Transactions

structure Options where
  logPath : String
  queueSize : Nat
  ringSize : Nat
  maxDestinationsPerUser : Nat
  retentionDays : Int
  deriving DecidableEq, Repr

/-- A record that was added, and the destination under which it was
counted. -/
structure Posting where
  entry : Entry
  slot : DestKey
  deriving DecidableEq, Repr

/-- A quota reset: its target, its place in the run, and the tables
before and after. -/
structure Reset where
  userID : Int
  time : Time
  moment : Nat
  before : Database
  after : Database
  deriving DecidableEq, Repr

/-- The history of a run.  `now` counts its steps; `stamps` tells for
every byte of the log when it was written.  The lists of records in the
process follow the pipeline: read and passed to `enqueue`, pending in the
aggregator, in a flush, kept for the next one, committed, or given up.
The other lists survive the process. -/
structure Trace where
  now : Nat := 0
  stamps : List Nat := []
  births : List (Int × Nat) := []
  deaths : List (Int × Nat) := []
  resets : List Reset := []
  enqueued : List Entry := []
  pending : List Posting := []
  batch : List Posting := []
  retried : List Posting := []
  committed : List (Int × Posting) := []
  dropped : List Entry := []
  unattributable : List Entry := []
  discarded : List Posting := []
  flushedUsage : List UsageDelta := []
  flushedDests : List DestinationDelta := []
  applied : List (Int × Posting) := []
  excused : List Nat := []
  ledger : List (RowKey × Entry) := []
  deriving DecidableEq, Repr

namespace Trace

variable (trace : Trace)

/-- When the line of an entry was completed. -/
def logged (entry : Entry) : Nat := trace.stamps.getD (entry.line - 1) 0

def append (bytes : Bytes) : Trace :=
  { trace with
    stamps := trace.stamps ++ List.replicate bytes.length trace.now }

/-- Accounts that appear and disappear; the rows of the latter go with
them. -/
def observe (before after : Database) : Trace :=
  let ids := before.users.map UserRow.id
  let others := after.users.map UserRow.id
  { trace with
    births := trace.births ++
      (others.filter (· ∉ ids)).map fun id => (id, trace.now)
    deaths := trace.deaths ++
      (ids.filter (· ∉ others)).map fun id => (id, trace.now)
    ledger := trace.ledger.filter fun booking =>
      booking.1.userID ∈ others }

def remove (gone : RowKey → Bool) : Trace :=
  { trace with
    ledger := trace.ledger.filter fun booking => !gone booking.1 }

def drop (entry : Entry) : Trace :=
  { trace with
    dropped := trace.dropped ++ [entry]
    excused := trace.excused ++ [entry.line] }

/-- A record is added; one that is nobody's goes no further. -/
def add (entry : Entry) (slot : DestKey) : Trace :=
  if entry.record.unattributable then
    { trace with
      unattributable := trace.unattributable ++ [entry]
      excused := trace.excused ++ [entry.line] }
  else { trace with pending := trace.pending ++ [⟨entry, slot⟩] }

def take : Trace :=
  { trace with
    batch := trace.retried ++ trace.pending
    retried := []
    pending := [] }

def keep : Trace :=
  { trace with retried := trace.batch, batch := [] }

/-- The rows in which a posting of an account is counted. -/
def rowsOf (id : Int) (posting : Posting) : List RowKey :=
  let day := posting.entry.record.day
  [.usage id day "day", .usage id (monthOf day) "month",
    .destination id day posting.slot]

/-- A batch is committed under the ids of its usernames; zero stands for
a name that the store does not know. -/
def commit
    (idOf : String → Int) (usage : List UsageDelta)
    (dests : List DestinationDelta) : Trace :=
  let owner := fun posting : Posting => idOf posting.entry.record.username
  let unknown := trace.batch.filter fun posting => owner posting = 0
  let charged := (trace.batch.filter fun posting => owner posting ≠ 0).map
    fun posting => (owner posting, posting)
  { trace with
    batch := []
    committed := trace.committed ++ charged
    discarded := trace.discarded ++ unknown
    flushedUsage := trace.flushedUsage ++ usage
    flushedDests := trace.flushedDests ++ dests
    applied := trace.applied ++ charged
    excused := trace.excused ++ unknown.map fun posting =>
      posting.entry.line
    ledger := trace.ledger ++ charged.flatMap fun charge =>
      (rowsOf charge.1 charge.2).map fun key => (key, charge.2.entry) }

/-- The process is gone, and with it all that it remembered. -/
def restart : Trace :=
  { trace with
    enqueued := []
    pending := []
    batch := []
    retried := []
    committed := []
    dropped := []
    unattributable := []
    discarded := []
    flushedUsage := []
    flushedDests := [] }

end Trace

/-- Where the tailer stands: between polls, with lines read whose offset
is not yet published, or inside `enqueue`. -/
inductive TailerPhase where
  | waiting
  | publishing (batch : List Entry) (offset : Nat)
  | handing (batch : List Entry)
  deriving DecidableEq, Repr

structure Tailer where
  offset : Nat
  malformed : Nat := 0
  phase : TailerPhase := .waiting
  deriving DecidableEq, Repr

/-- A `resolve` under way. -/
structure Resolution where
  pending : List PendingDelta
  remaining : List PendingDelta
  ids : List (String × Int) := []
  usage : List UsageDelta := []
  dests : List DestinationDelta := []
  offset : Nat
  deriving DecidableEq, Repr

/-- Where the service loop stands: in its `select`, or at a point of
`flush`. -/
inductive LoopPhase where
  | waiting
  | draining
  | locating (pending : List PendingDelta)
  | resolving (resolution : Resolution)
  deriving DecidableEq, Repr

structure Pipeline where
  log : Bytes := []
  host : UserHost
  tailer : Tailer
  queue : List Entry := []
  aggregator : Aggregator
  dropped : Nat := 0
  retry : List PendingDelta := []
  lastPersisted : Nat := 0
  loop : LoopPhase := .waiting
  trace : Trace := {}

/-- How a step of the tailer goes: whether the log can be opened, the
number of lines after which reading fails, and whether the service loop is
parked at an unbuffered queue. -/
structure TailerChoice where
  readable : Bool := true
  lines : Option Nat := none
  parked : Bool := false

/-- How a step of the service loop goes: whether the flush ticker fires,
the order in which maps are visited, whether a user lookup fails, and the
statement of `ApplyDeltas` that fails. -/
structure LoopChoice where
  flush : Bool := false
  order : TakeOrder := .written
  lookupFails : Bool := false
  failure : Failure GoError := none

inductive PipelineAction where
  | append (bytes : Bytes)
  | store (op : UserOp) (choice : UserChoice)
  | resetUsage (id : Int) (time : Time) (failure : Failure GoError)
  | prune (time : Time) (failed : Bool)
  | tailer (choice : TailerChoice)
  | loop (choice : LoopChoice)
  | restart

namespace Pipeline

section Steps

variable (options : Options) (s : Pipeline)

/-! ## The steps of the pipeline -/

/-- `agg.Add`. -/
def addEntry (entry : Entry) : Pipeline :=
  { s with
    aggregator := s.aggregator.add entry.record
    trace := s.trace.add entry (s.aggregator.slot entry.record) }

/-- Receive the first record of the queue. -/
def receive (entry : Entry) (rest : List Entry) : Pipeline :=
  { s with queue := rest }.addEntry entry

/-- `TakePending`, with the batch of the last failed flush in front. -/
def takePending (order : TakeOrder) : Pipeline :=
  let taken := s.aggregator.takePending order
  { s with
    aggregator := taken.2
    retry := []
    loop := .locating (s.retry ++ taken.1)
    trace := s.trace.take }

/-- Read the tailer's offset; there may be nothing to write. -/
def readOffset (pending : List PendingDelta) : Pipeline :=
  if pending = [] ∧ s.tailer.offset = s.lastPersisted then
    { s with loop := .waiting }
  else
    { s with
      loop := .resolving {
        pending := pending
        remaining := pending
        offset := s.tailer.offset } }

/-- Keep the batch for the next flush. -/
def keepBatch (resolution : Resolution) : Pipeline :=
  { s with
    retry := resolution.pending
    loop := .waiting
    trace := s.trace.keep }

/-- The database after a change by the pipeline itself. -/
def withDatabase (database : Database) : Pipeline :=
  { s with host := { s.host with database := database } }

/-- `ApplyDeltas` with the resolved batch and the cursor. -/
def applyBatch (failure : Failure GoError) (resolution : Resolution) :
    Pipeline :=
  let outcome :=
    transact failure
      (applyDeltasStatements resolution.usage resolution.dests
        ⟨options.logPath, resolution.offset⟩)
      s.host.database
  match outcome.1 with
  | .error _ => s.keepBatch resolution
  | .ok _ =>
      { s.withDatabase outcome.2 with
        lastPersisted := resolution.offset
        loop := .waiting
        trace := s.trace.commit
          (fun name => (find? name resolution.ids).getD 0)
          resolution.usage resolution.dests }

end Steps

end Pipeline

namespace Resolution

variable (resolution : Resolution)

/-- Remember the id of a username; zero for one that is not known. -/
def know (username : String) (id : Int) : Resolution :=
  { resolution with ids := resolution.ids ++ [(username, id)] }

/-- Book a contribution under an id. -/
def charge (delta : PendingDelta) (rest : List PendingDelta) (id : Int) :
    Resolution :=
  if id = 0 then { resolution with remaining := rest }
  else
    { resolution with
      remaining := rest
      usage := resolution.usage ++ delta.usage.map fun usage =>
        { usage with userID := id }
      dests := resolution.dests ++ delta.dests.map fun dest =>
        { dest with userID := id } }

end Resolution

namespace Pipeline

section Machine

variable [Build] (options : Options) (s : Pipeline)

/-- One round of `resolve`. -/
def resolveNext
    (lookupFails : Bool) (resolution : Resolution)
    (delta : PendingDelta) (rest : List PendingDelta) : Pipeline :=
  match find? delta.username resolution.ids with
  | some id =>
      { s with loop := .resolving (resolution.charge delta rest id) }
  | none =>
      if lookupFails then s.keepBatch resolution
      else
        match s.host.database.getUserByUsername delta.username with
        | .ok user =>
            { s with
              loop := .resolving
                ((resolution.know delta.username user.id).charge delta
                  rest user.id) }
        | .error error =>
            if error.is .storeNotFound then
              { s with
                loop := .resolving
                  ((resolution.know delta.username 0).charge delta
                    rest 0) }
            else s.keepBatch resolution

/-- A step of the service loop. -/
def stepLoop (choice : LoopChoice) : Pipeline :=
  match s.loop with
  | .waiting =>
      if choice.flush then { s with loop := .draining }
      else
        match s.queue with
        | [] => s
        | entry :: rest => s.receive entry rest
  | .draining =>
      match s.queue with
      | [] => s.takePending choice.order
      | entry :: rest => s.receive entry rest
  | .locating pending => s.readOffset pending
  | .resolving resolution =>
      match resolution.remaining with
      | [] => s.applyBatch options choice.failure resolution
      | delta :: rest =>
          s.resolveNext choice.lookupFails resolution delta rest

/-- The lines that a poll finds behind an offset, up to a read error. -/
def linesBehind (offset : Nat) (limit : Option Nat) : List Bytes :=
  let lines := completeLines (s.log.drop offset)
  match limit with
  | none => lines
  | some count => lines.take count

/-- Read the complete lines behind the offset; a log that is shorter than
the offset is read from its beginning. -/
def poll (limit : Option Nat) : Pipeline :=
  let start := if s.log.length < s.tailer.offset then 0 else s.tailer.offset
  let lines := s.linesBehind start limit
  { s with
    tailer := { s.tailer with
      malformed := s.tailer.malformed + malformedCount lines
      phase := .publishing (entriesOf start lines)
        (start + lines.flatten.length) } }

/-- Publish the offset, and call the sink when there are records. -/
def publish (batch : List Entry) (offset : Nat) : Pipeline :=
  { s with
    tailer := { s.tailer with
      offset := offset
      phase := if batch = [] then .waiting else .handing batch }
    trace := { s.trace with enqueued := s.trace.enqueued ++ batch } }

/-- Hand one record to the queue.  An unbuffered queue takes it only when
the service loop is parked there. -/
def handOver (parked : Bool) (entry : Entry) (rest : List Entry) :
    Pipeline :=
  let s := { s with tailer := { s.tailer with phase := .handing rest } }
  if s.queue.length < options.queueSize then
    { s with queue := s.queue ++ [entry] }
  else if options.queueSize = 0 ∧ s.loop = .waiting ∧ parked then
    s.addEntry entry
  else
    { s with
      dropped := s.dropped + 1
      trace := s.trace.drop entry }

/-- A step of the tailer. -/
def stepTailer (choice : TailerChoice) : Pipeline :=
  match s.tailer.phase with
  | .waiting => if choice.readable then s.poll choice.lines else s
  | .publishing batch offset => s.publish batch offset
  | .handing [] =>
      { s with tailer := { s.tailer with phase := .waiting } }
  | .handing (entry :: rest) =>
      s.handOver options choice.parked entry rest

/-- The rows that a reset removes. -/
def resetGone (id : Int) (time : Time) : RowKey → Bool
  | .usage userID period granularity =>
      userID = id &&
        ((granularity = "day" && !decide (period < formatDay time)) ||
          (granularity = "month" &&
            !decide (period < formatMonth time)))
  | .destination _ _ _ => false

/-- The transaction of `ResetQuota`, with the day and the month of the
service's clock. -/
def resetUsage (id : Int) (time : Time) (failure : Failure GoError) :
    Pipeline :=
  let outcome :=
    transact failure
      (resetUsageStatements id (formatDay time) (formatMonth time))
      s.host.database
  match outcome.1 with
  | .error _ => s
  | .ok _ =>
      { s.withDatabase outcome.2 with
        trace := { s.trace.remove (resetGone id time) with
          resets := s.trace.resets ++
            [⟨id, time, s.trace.now, s.host.database, outcome.2⟩] } }

/-- The day from which on destinations are retained. -/
def retainedFrom (time : Time) : String :=
  formatDay (time - options.retentionDays * 86400 * 1000000000)

def pruneGone (before : String) : RowKey → Bool
  | .usage _ _ _ => false
  | .destination _ day _ => decide (day < before)

/-- `prune`. -/
def prune (time : Time) (failed : Bool) : Pipeline :=
  if options.retentionDays ≤ 0 ∨ failed then s
  else
    { s.withDatabase
        (s.host.database.pruneDestinations
          (retainedFrom options time)).2 with
      trace := s.trace.remove (pruneGone (retainedFrom options time)) }

/-- An operation of the user service or of another client of the
store. -/
def storeOp (op : UserOp) (choice : UserChoice) : Pipeline :=
  let host := (s.host.handle op choice).2
  { s with
    host := host
    trace := s.trace.observe s.host.database host.database }

/-- The offset at which a process starts. -/
def resumeOffset (database : Database) : Nat :=
  match database.logCursor with
  | some cursor =>
      if cursor.path = options.logPath then cursor.offset.toNat else 0
  | none => 0

/-- `NewService` with the loaded cursor. -/
def restart : Pipeline where
  log := s.log
  host := s.host
  tailer := { offset := resumeOffset options s.host.database }
  aggregator :=
    newAggregator options.maxDestinationsPerUser options.ringSize
  trace := s.trace.restart

/-- The record that an action adds to the aggregator. -/
def addedBy : PipelineAction → Option Entry
  | .loop choice =>
      match s.loop with
      | .waiting => if choice.flush then none else s.queue.head?
      | .draining => s.queue.head?
      | _ => none
  | .tailer choice =>
      match s.tailer.phase with
      | .handing (entry :: _) =>
          if ¬s.queue.length < options.queueSize ∧
              options.queueSize = 0 ∧ s.loop = .waiting ∧
                choice.parked then some entry
          else none
      | _ => none
  | _ => none

/-- What an action does. -/
def act : PipelineAction → Pipeline
  | .append bytes =>
      { s with log := s.log ++ bytes, trace := s.trace.append bytes }
  | .store op choice => s.storeOp op choice
  | .resetUsage id time failure => s.resetUsage id time failure
  | .prune time failed => s.prune options time failed
  | .tailer choice => s.stepTailer options choice
  | .loop choice => s.stepLoop options choice
  | .restart => s.restart options

/-- One step of the run. -/
def step (action : PipelineAction) (s : Pipeline) : Pipeline :=
  let next := s.act options action
  { next with trace := { next.trace with now := next.trace.now + 1 } }

/-- A new installation: an empty log and empty tables. -/
def initial : Pipeline where
  host := { database := {} }
  tailer := { offset := 0 }
  aggregator :=
    newAggregator options.maxDestinationsPerUser options.ringSize

end Machine

end Pipeline

def sampleOptions : Options where
  logPath := "/var/log/xoxproxy/traffic.log"
  queueSize := 4
  ringSize := 0
  maxDestinationsPerUser := 1
  retentionDays := 0

/-- Nothing fails, at the given time. -/
def calmAt (time : Time) : UserChoice where
  failure := none
  time := time
  order := .written
  salt := .replicate 16 0
  text := ""

def sampleUser (username : String) : ProxyUser where
  id := 0
  serverID := "local"
  username := username
  status := .active
  allowedProtocols := ["http"]
  downloadBPS := 0
  uploadBPS := 0
  maxConnections := 0
  quotaBytesDaily := 0
  quotaBytesMonthly := 0
  expiresAt := none
  version := 1
  createdAt := 0
  updatedAt := 0
  lastSeenAt := none

def sampleCredential : Credential where
  engineHash := "engine"
  apiHash := "api"
  createdAt := 0

def createAccount (username : String) : PipelineAction :=
  .store (.createUser (sampleUser username) sampleCredential) (calmAt 0)

/-- A connection of a user to a host, logged in October 2025. -/
def connectionLine (username host : String) : String :=
  "1760380800.123 proxy.3128 0 " ++ username ++ " 10.0.0.1:40000 " ++
    host ++ ":80 10 20 0 GET /\n"

/-- The tailer reads the log and hands some records to the queue. -/
def tailerPass (records : Nat) : List PipelineAction :=
  List.replicate (records + 3) (.tailer {})

/-- A flush that receives some records and books some contributions. -/
def flushPass (records contributions : Nat) : List PipelineAction :=
  .loop { flush := true } ::
    List.replicate (records + contributions + 3) (.loop {})

end Xoxproxy.Analytics
