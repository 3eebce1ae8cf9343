import Xoxproxy.Analytics.Records
import Mathlib.Tactic.Abel
import Xoxproxy.Library.AssociationMaps
import Xoxproxy.Store.Days
import Xoxproxy.Store.Tables

/-!
# The in-memory stage of the pipeline

Records are folded into counters for every user and day, and for a
bounded number of destinations (`internal/analytics/aggregator.go`).
-/

namespace Xoxproxy.Analytics

open AssociationMaps

@[ext]
structure Counters where
  requests : Int := 0
  blocked : Int := 0
  bytesIn : Int := 0
  bytesOut : Int := 0
  deriving DecidableEq, Repr

namespace Counters

/-- What one record counts for. -/
def ofRecord (record : Record) : Counters where
  requests := 1
  blocked := if record.blocked then 1 else 0
  bytesIn := record.bytesIn
  bytesOut := record.bytesOut

instance : Zero Counters := ⟨{}⟩

instance : Add Counters := ⟨fun first second => {
  requests := first.requests + second.requests
  blocked := first.blocked + second.blocked
  bytesIn := first.bytesIn + second.bytesIn
  bytesOut := first.bytesOut + second.bytesOut }⟩

@[simp] theorem zero_requests : (0 : Counters).requests = 0 := rfl
@[simp] theorem zero_blocked : (0 : Counters).blocked = 0 := rfl
@[simp] theorem zero_bytesIn : (0 : Counters).bytesIn = 0 := rfl
@[simp] theorem zero_bytesOut : (0 : Counters).bytesOut = 0 := rfl

variable (first second third : Counters)

@[simp] theorem add_requests :
    (first + second).requests = first.requests + second.requests := rfl
@[simp] theorem add_blocked :
    (first + second).blocked = first.blocked + second.blocked := rfl
@[simp] theorem add_bytesIn :
    (first + second).bytesIn = first.bytesIn + second.bytesIn := rfl
@[simp] theorem add_bytesOut :
    (first + second).bytesOut = first.bytesOut + second.bytesOut := rfl

instance : AddCommMonoid Counters where
  add_assoc first second third := by ext <;> simp [Int.add_assoc]
  zero_add counters := by ext <;> simp
  add_zero counters := by ext <;> simp
  add_comm first second := by ext <;> simp [Int.add_comm]
  nsmul := nsmulRec

/-- `counters.add`. -/
def add (counters : Counters) (record : Record) : Counters :=
  counters + ofRecord record

/-- The counters that the usage ledger keeps: it does not tell blocked
requests apart. -/
def unsorted (counters : Counters) : Counters :=
  { counters with blocked := 0 }

@[simp]
theorem unsorted_add :
    (first + second).unsorted = first.unsorted + second.unsorted := by
  ext <;> simp [unsorted]

@[simp]
theorem unsorted_zero : (0 : Counters).unsorted = 0 := rfl

end Counters

def otherHost : String := "(other)"

structure DestKey where
  host : String
  port : Int
  protocol : String
  deriving DecidableEq, Repr

/-- The destination of a record. -/
def Record.destination (record : Record) : DestKey :=
  ⟨record.host, record.port, record.protocol⟩

/-- The overflow bucket for a record's port and protocol. -/
def Record.overflow (record : Record) : DestKey :=
  ⟨otherHost, record.port, record.protocol⟩

/-- One user's pending contribution for one day. -/
structure DayAgg where
  usage : Counters := {}
  dests : List (DestKey × Counters) := []
  tracked : Nat := 0
  deriving DecidableEq, Repr

structure UserAgg where
  days : List (String × DayAgg) := []
  lastSeenUnix : Int := 0
  deriving DecidableEq, Repr

/-- Add a record to the counter under a key. -/
def count (record : Record) (old : Option Counters) : Counters :=
  (old.getD {}).add record

namespace DayAgg

variable (maxDests : Nat) (record : Record) (day : DayAgg)

/-- Whether the record's destination has a counter already. -/
def follows : Bool := (find? record.destination day.dests).isSome

/-- Whether the record starts a counter for its own destination. -/
def tracks : Bool := !day.follows record && decide (day.tracked < maxDests)

/-- Whether the record is over the cap. -/
def overflows : Bool :=
  !day.follows record && !day.tracks maxDests record

/-- The destination under which the record is counted. -/
def slot : DestKey :=
  if day.overflows maxDests record then record.overflow
  else record.destination

/-- The part of `Add` that concerns the record's day. -/
def add : DayAgg where
  usage := day.usage.add record
  dests := adjust (day.slot maxDests record) (count record) day.dests
  tracked :=
    if day.tracks maxDests record then day.tracked + 1 else day.tracked

end DayAgg

/-- The UTC day of a record. -/
def Record.day (record : Record) : String :=
  formatDay (unixMilli record.unixMillis)

namespace UserAgg

/-- The counters of a day, fresh ones when it has none. -/
def day (user : UserAgg) (name : String) : DayAgg :=
  (find? name user.days).getD {}

/-- The part of `Add` that concerns the record's user. -/
def add (maxDests : Nat) (record : Record) (user : UserAgg) :
    UserAgg where
  days := adjust record.day
    (fun old => (old.getD {}).add maxDests record) user.days
  lastSeenUnix :=
    if user.lastSeenUnix < record.unixMillis then record.unixMillis
    else user.lastSeenUnix

end UserAgg

/-- The recent connections, a circular buffer. -/
structure Ring where
  buf : List (Option Record)
  next : Nat := 0
  size : Nat := 0
  deriving DecidableEq, Repr

def Ring.new (capacity : Nat) : Ring where
  buf := List.replicate capacity none

def Ring.add (ring : Ring) (record : Record) : Ring where
  buf := ring.buf.set ring.next (some record)
  next := (ring.next + 1) % ring.buf.length
  size := if ring.size < ring.buf.length then ring.size + 1 else ring.size

/-- The aggregator; `today` holds the totals of the newest day only. -/
structure Aggregator where
  maxDests : Nat
  ring : Option Ring := none
  users : List (String × UserAgg) := []
  today : List (String × Counters) := []
  todayDay : String := ""
  ingested : Nat := 0
  overflowed : Nat := 0
  deriving DecidableEq, Repr

/-- `NewAggregator`. -/
def newAggregator (maxDestinationsPerUser ringSize : Nat) :
    Aggregator where
  maxDests := maxDestinationsPerUser
  ring := if 0 < ringSize then some (.new ringSize) else none

/-- The usernames whose traffic is nobody's. -/
def Record.unattributable (record : Record) : Bool :=
  record.username == "-" || record.username == ""

namespace Aggregator

variable (aggregator : Aggregator) (record : Record)

/-- `addToday`. -/
def addToday : Aggregator :=
  let day := record.day
  let today :=
    if day = aggregator.todayDay then aggregator.today
    else aggregator.today.filter fun entry =>
      entry.1 ≠ aggregator.todayDay
  { aggregator with
    today := adjust day (count record) today
    todayDay := day }

/-- The pending counters of a user's day. -/
def day (username name : String) : DayAgg :=
  ((find? username aggregator.users).getD {}).day name

/-- The pending counters to which `Add` adds a record. -/
def dayOf : DayAgg := aggregator.day record.username record.day

/-- The destination under which `Add` counts a record. -/
def slot : DestKey := (aggregator.dayOf record).slot aggregator.maxDests record

/-- The part of `Add` behind the check for unattributable records. -/
def addUser : Aggregator :=
  { aggregator with
    users := adjust record.username
      (fun old => (old.getD {}).add aggregator.maxDests record)
      aggregator.users
    overflowed :=
      if (aggregator.dayOf record).overflows aggregator.maxDests record then
        aggregator.overflowed + 1
      else aggregator.overflowed }

/-- `Add`. -/
def add : Aggregator :=
  let live := { aggregator.addToday record with
    ingested := aggregator.ingested + 1
    ring := aggregator.ring.map fun ring => ring.add record }
  if record.unattributable then live else live.addUser record

end Aggregator

/-- One user's contribution to a flush, before the username is resolved. -/
structure PendingDelta where
  username : String
  usage : List UsageDelta := []
  dests : List DestinationDelta := []
  records : Int := 0
  deriving DecidableEq, Repr

/-- The delta of one user's day. -/
def usageDelta
    (name day : String) (lastSeenUnix : Int) (counters : Counters) :
    UsageDelta where
  userID := 0
  username := name
  day := day
  month := monthOf day
  bytesIn := counters.bytesIn
  bytesOut := counters.bytesOut
  connections := counters.requests
  lastSeenUnix := lastSeenUnix

def destinationDelta
    (day : String) (lastSeenUnix : Int) (key : DestKey)
    (counters : Counters) : DestinationDelta where
  userID := 0
  day := day
  host := key.host
  port := key.port
  protocol := key.protocol
  requests := counters.requests
  blocked := counters.blocked
  bytesIn := counters.bytesIn
  bytesOut := counters.bytesOut
  lastSeen := unixMilli lastSeenUnix

/-- The contribution of one user, with its days and destinations in the
order of their first records. -/
def pendingDelta (name : String) (user : UserAgg) : PendingDelta where
  username := name
  usage := user.days.map fun entry =>
    usageDelta name entry.1 user.lastSeenUnix entry.2.usage
  dests := user.days.flatMap fun entry =>
    entry.2.dests.map fun dest =>
      destinationDelta entry.1 user.lastSeenUnix dest.1 dest.2
  records := (user.days.map fun entry => entry.2.usage.requests).sum

/-- The same contribution with its deltas in another order. -/
structure Reordered (first second : PendingDelta) : Prop where
  username : second.username = first.username
  usage : second.usage.Perm first.usage
  dests : second.dests.Perm first.dests
  records : second.records = first.records

/-- The order in which `TakePending` visits its maps, which Go leaves
open. -/
structure TakeOrder where
  visit : List PendingDelta → List PendingDelta
  visits : ∀ deltas, ∃ reordered : List PendingDelta,
    reordered.Perm deltas ∧
      List.Forall₂ Reordered reordered (visit deltas)

/-- The order in which the entries came. -/
def TakeOrder.written : TakeOrder where
  visit := id
  visits := fun deltas => ⟨deltas, .refl _, by
    rw [id, List.forall₂_same]
    exact fun delta _ => ⟨rfl, .refl _, .refl _, rfl⟩⟩

/-- `TakePending`. -/
def Aggregator.takePending
    (aggregator : Aggregator) (order : TakeOrder) :
    List PendingDelta × Aggregator :=
  (order.visit (aggregator.users.map fun entry =>
      pendingDelta entry.1 entry.2),
    { aggregator with users := [] })

end Xoxproxy.Analytics
