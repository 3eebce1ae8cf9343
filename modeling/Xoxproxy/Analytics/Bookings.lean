import Xoxproxy.Analytics.Aggregator
import Xoxproxy.Library.Tallies

/-!
# What the aggregator's counters count

The counters of the aggregator and the deltas of a flush as bookings: an
amount for a user's day, and one for each destination of that day.
Adding a record adds the record's bookings, and taking what is pending
changes none.
-/

namespace Xoxproxy.Analytics

open AssociationMaps Tallies

/-- What a counter of the aggregator counts. -/
inductive CountKey where
  | usage (username day : String)
  | destination (username day : String) (slot : DestKey)
  deriving DecidableEq, Repr

/-- What one record books when it is counted under a destination. -/
def Record.bookings (record : Record) (slot : DestKey) :
    List (CountKey × Counters) :=
  [(.usage record.username record.day, (Counters.ofRecord record).unsorted),
    (.destination record.username record.day slot,
      Counters.ofRecord record)]

def DayAgg.bookings (name day : String) (agg : DayAgg) :
    List (CountKey × Counters) :=
  (.usage name day, agg.usage.unsorted) ::
    agg.dests.map fun dest => (.destination name day dest.1, dest.2)

def UserAgg.bookings (name : String) (user : UserAgg) :
    List (CountKey × Counters) :=
  user.days.flatMap fun entry => entry.2.bookings name entry.1

def Aggregator.bookings (aggregator : Aggregator) :
    List (CountKey × Counters) :=
  aggregator.users.flatMap fun entry => entry.2.bookings entry.1

def usageCounters (delta : UsageDelta) : Counters where
  requests := delta.connections
  bytesIn := delta.bytesIn
  bytesOut := delta.bytesOut

def destinationCounters (delta : DestinationDelta) : Counters where
  requests := delta.requests
  blocked := delta.blocked
  bytesIn := delta.bytesIn
  bytesOut := delta.bytesOut

/-- The destination of a delta. -/
def destinationKey (delta : DestinationDelta) : DestKey :=
  ⟨delta.host, delta.port, delta.protocol⟩

def PendingDelta.bookings (delta : PendingDelta) :
    List (CountKey × Counters) :=
  delta.usage.map (fun usage =>
      (.usage delta.username usage.day, usageCounters usage)) ++
    delta.dests.map fun dest =>
      (.destination delta.username dest.day (destinationKey dest),
        destinationCounters dest)

/-- What a batch of contributions books. -/
def bookingsOf (deltas : List PendingDelta) :
    List (CountKey × Counters) :=
  deltas.flatMap PendingDelta.bookings

section Adding

variable (maxDests : Nat) (record : Record)

theorem tally_dests_add (agg : DayAgg) (name day : String) :
    tally ((agg.add maxDests record).dests.map fun dest =>
        (CountKey.destination name day dest.1, dest.2)) =
      tally (agg.dests.map fun dest =>
        (CountKey.destination name day dest.1, dest.2)) +
      tally [(CountKey.destination name day (agg.slot maxDests record),
        Counters.ofRecord record)] := by
  rw [List.map_eq_flatMap, List.map_eq_flatMap]
  apply tally_adjust
    (fun key counters => [(CountKey.destination name day key, counters)])
  cases find? (agg.slot maxDests record) agg.dests with
  | none =>
      have fresh : ({} : Counters).add record = Counters.ofRecord record :=
        zero_add (Counters.ofRecord record)
      simp [count, fresh]
  | some counters =>
      simp [count, Counters.add]

/-- A day gains the record's bookings. -/
theorem tally_day_add (agg : DayAgg) :
    tally ((agg.add maxDests record).bookings record.username
        record.day) =
      tally (agg.bookings record.username record.day) +
        tally (record.bookings (agg.slot maxDests record)) := by
  have usage : (agg.add maxDests record).usage.unsorted =
      agg.usage.unsorted + (Counters.ofRecord record).unsorted :=
    Counters.unsorted_add _ _
  simp only [DayAgg.bookings, Record.bookings, tally_cons, tally_nil,
    tally_dests_add, usage, Finsupp.single_add]
  abel

/-- A fresh day books nothing. -/
theorem tally_day_fresh (name day : String) :
    tally (({} : DayAgg).bookings name day) = 0 := by
  have empty : ({} : DayAgg).bookings name day =
      [(.usage name day, 0)] := rfl
  simp [empty]

theorem tally_user_add (user : UserAgg) :
    tally ((user.add maxDests record).bookings record.username) =
      tally (user.bookings record.username) +
        tally (record.bookings
          ((user.day record.day).slot maxDests record)) := by
  apply tally_adjust
    (fun name (agg : DayAgg) => agg.bookings record.username name)
  rw [tally_day_add, UserAgg.day]
  cases find? record.day user.days with
  | none => rw [Option.getD_none, tally_day_fresh]; rfl
  | some agg => rfl

theorem tally_addUser (aggregator : Aggregator) :
    tally (aggregator.addUser record).bookings =
      tally aggregator.bookings +
        tally (record.bookings (aggregator.slot record)) := by
  apply tally_adjust
    (fun name (user : UserAgg) => user.bookings name)
  rw [tally_user_add, Aggregator.slot, Aggregator.dayOf, Aggregator.day]
  cases find? record.username aggregator.users with
  | none => rfl
  | some user => rfl

/-- `Add` books an attributable record under its slot. -/
theorem tally_add (aggregator : Aggregator) :
    tally (aggregator.add record).bookings =
      if record.unattributable then tally aggregator.bookings
      else tally aggregator.bookings +
        tally (record.bookings (aggregator.slot record)) := by
  by_cases nobody : record.unattributable = true
  · rw [Aggregator.add, if_pos nobody, if_pos nobody]
    rfl
  · rw [Aggregator.add, if_neg nobody, if_neg nobody, tally_addUser]
    rfl

end Adding

section Taking

theorem tally_pendingDelta (name : String) (user : UserAgg) :
    tally (pendingDelta name user).bookings =
      tally (user.bookings name) := by
  have shape : (pendingDelta name user).bookings =
      user.days.map (fun entry =>
        (CountKey.usage name entry.1, entry.2.usage.unsorted)) ++
      user.days.flatMap fun entry => entry.2.dests.map fun dest =>
        (CountKey.destination name entry.1 dest.1, dest.2) := by
    simp only [PendingDelta.bookings, pendingDelta, List.map_map,
      List.map_flatMap]
    rfl
  rw [shape, tally_map_append_flatMap]
  rfl

theorem tally_reordered {first second : PendingDelta}
    (reordered : Reordered first second) :
    tally second.bookings = tally first.bookings := by
  apply tally_perm
  rw [PendingDelta.bookings, PendingDelta.bookings, reordered.username]
  exact (reordered.usage.map _).append (reordered.dests.map _)

theorem tally_visit (order : TakeOrder) (deltas : List PendingDelta) :
    tally (bookingsOf (order.visit deltas)) =
      tally (bookingsOf deltas) := by
  obtain ⟨reordered, permuted, visited⟩ := order.visits deltas
  generalize order.visit deltas = result at visited
  rw [bookingsOf, bookingsOf, ← tally_perm (permuted.flatMap_right _)]
  clear permuted
  induction visited with
  | nil => rfl
  | cons first _ inductionHypothesis =>
      rw [List.flatMap_cons, List.flatMap_cons, tally_append,
        tally_append, tally_reordered first, inductionHypothesis]

/-- What is taken books what was pending, and nothing stays behind. -/
theorem tally_takePending (aggregator : Aggregator) (order : TakeOrder) :
    tally (bookingsOf (aggregator.takePending order).1) =
      tally aggregator.bookings := by
  rw [Aggregator.takePending, tally_visit, bookingsOf, Aggregator.bookings,
    tally_flatMap, tally_flatMap, List.map_map]
  congr 1
  apply List.map_congr_left
  intro entry _
  exact tally_pendingDelta entry.1 entry.2

end Taking

end Xoxproxy.Analytics
