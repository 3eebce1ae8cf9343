import Xoxproxy.Analytics.Moves

/-!
# The stages of the pipeline

Behind the queue the code keeps no records, only counters.  At every stage
they are the sums over the records that have reached it.
-/

namespace Xoxproxy.Analytics

open AssociationMaps RowTables Transactions Tallies

def Posting.bookings (posting : Posting) : List (CountKey × Counters) :=
  posting.entry.record.bookings posting.slot

/-- What a list of postings books. -/
def postingBookings (postings : List Posting) :
    List (CountKey × Counters) :=
  postings.flatMap Posting.bookings

/-- The batch of the flush that is under way, once it is taken. -/
def Pipeline.flight (s : Pipeline) : Option (List PendingDelta) :=
  match s.loop with
  | .waiting => none
  | .draining => none
  | .locating pending => some pending
  | .resolving resolution => some resolution.pending

def Pipeline.inFlight (s : Pipeline) : List PendingDelta :=
  s.flight.getD []

/-- The records that wait for a flush or are in one. -/
def Trace.waiting (trace : Trace) : List Posting :=
  trace.retried ++ trace.batch ++ trace.pending

theorem requests_postingBookings (postings : List Posting) :
    (((postingBookings postings).map Prod.snd).sum).requests =
      2 * postings.length := by
  induction postings with
  | nil => rfl
  | cons posting rest inductionHypothesis =>
      have shape : postingBookings (posting :: rest) =
          posting.bookings ++ postingBookings rest := rfl
      have one : ((posting.bookings.map Prod.snd).sum).requests = 2 := rfl
      rw [shape, List.map_append, List.sum_append,
        Counters.add_requests, one, inductionHypothesis,
        List.length_cons]
      omega

/-- Where nothing is counted there are no records. -/
theorem postings_eq_nil {postings : List Posting}
    (nothing : tally (postingBookings postings) = 0) : postings = [] := by
  have total := total_eq (nothing.trans tally_nil.symm)
  have requests := requests_postingBookings postings
  have none : (0 : Int) = 2 * postings.length := by
    rw [← requests, total]
    rfl
  apply List.eq_nil_of_length_eq_zero
  omega

theorem postingBookings_append (first second : List Posting) :
    postingBookings (first ++ second) =
      postingBookings first ++ postingBookings second :=
  List.flatMap_append

theorem bookingsOf_append (first second : List PendingDelta) :
    bookingsOf (first ++ second) =
      bookingsOf first ++ bookingsOf second :=
  List.flatMap_append

/-- Booking a contribution keeps the batch. -/
theorem Resolution.charge_pending
    (resolution : Resolution) (delta : PendingDelta)
    (rest : List PendingDelta) (id : Int) :
    (resolution.charge delta rest id).pending = resolution.pending := by
  by_cases unknown : id = 0
  · rw [Resolution.charge, if_pos unknown]
  · rw [Resolution.charge, if_neg unknown]

/-- The counters at each stage are the sums over its records. -/
structure Counted (s : Pipeline) : Prop where
  pending :
    tally s.aggregator.bookings = tally (postingBookings s.trace.pending)
  batch :
    tally (bookingsOf s.inFlight) = tally (postingBookings s.trace.batch)
  retried :
    tally (bookingsOf s.retry) = tally (postingBookings s.trace.retried)
  single : s.flight = none ∨ s.retry = []
  dropped : s.dropped = s.trace.dropped.length

theorem Counted.batch_eq_nil {s : Pipeline} (counted : Counted s)
    (idle : s.flight = none) : s.trace.batch = [] := by
  apply postings_eq_nil
  rw [← counted.batch, Pipeline.inFlight, idle]
  rfl

theorem Counted.retried_eq_nil {s : Pipeline} (counted : Counted s)
    (empty : s.retry = []) : s.trace.retried = [] := by
  apply postings_eq_nil
  rw [← counted.retried, empty]
  rfl

/-- The stages of the pipeline are the same. -/
structure SameStages (s after : Pipeline) : Prop where
  aggregator : after.aggregator = s.aggregator
  flight : after.flight = s.flight
  retry : after.retry = s.retry
  dropped : after.dropped = s.dropped
  pending : after.trace.pending = s.trace.pending
  batch : after.trace.batch = s.trace.batch
  retried : after.trace.retried = s.trace.retried
  given : after.trace.dropped = s.trace.dropped

theorem Counted.of_same {s after : Pipeline} (counted : Counted s)
    (same : SameStages s after) : Counted after := by
  refine ⟨?_, ?_, ?_, ?_, ?_⟩
  · rw [same.aggregator, same.pending]
    exact counted.pending
  · rw [Pipeline.inFlight, same.flight, same.batch]
    exact counted.batch
  · rw [same.retry, same.retried]
    exact counted.retried
  · rw [same.flight, same.retry]
    exact counted.single
  · rw [same.dropped, same.given]
    exact counted.dropped

/-- A record that is added is counted once. -/
theorem Counted.addEntry {s : Pipeline} (counted : Counted s)
    (entry : Entry) : Counted (s.addEntry entry) := by
  have added := tally_add entry.record s.aggregator
  by_cases nobody : entry.record.unattributable = true
  · rw [if_pos nobody] at added
    have trace : (s.addEntry entry).trace =
        { s.trace with
          unattributable := s.trace.unattributable ++ [entry]
          excused := s.trace.excused ++ [entry.line] } := by
      rw [Pipeline.addEntry, Trace.add, if_pos nobody]
    refine ⟨?_, ?_, ?_, counted.single, ?_⟩
    · rw [trace]
      exact added.trans counted.pending
    · rw [trace]
      exact counted.batch
    · rw [trace]
      exact counted.retried
    · rw [trace]
      exact counted.dropped
  · rw [if_neg nobody] at added
    have trace : (s.addEntry entry).trace =
        { s.trace with
          pending := s.trace.pending ++
            [⟨entry, s.aggregator.slot entry.record⟩] } := by
      rw [Pipeline.addEntry, Trace.add, if_neg nobody]
    refine ⟨?_, ?_, ?_, counted.single, ?_⟩
    · rw [trace, postingBookings_append, tally_append]
      refine added.trans ?_
      rw [counted.pending]
      simp [postingBookings, Posting.bookings]
    · rw [trace]
      exact counted.batch
    · rw [trace]
      exact counted.retried
    · rw [trace]
      exact counted.dropped

theorem Counted.takePending {s : Pipeline} (counted : Counted s)
    (order : TakeOrder) : Counted (s.takePending order) where
  pending := rfl
  batch := by
    change tally (bookingsOf (s.retry ++
        (s.aggregator.takePending order).1)) =
      tally (postingBookings (s.trace.retried ++ s.trace.pending))
    rw [bookingsOf_append, postingBookings_append, tally_append,
      tally_append, tally_takePending, counted.pending, counted.retried]
  retried := rfl
  single := Or.inr rfl
  dropped := counted.dropped

theorem Counted.keepBatch {s : Pipeline} (counted : Counted s)
    {resolution : Resolution} (resolving : s.loop = .resolving resolution) :
    Counted (s.keepBatch resolution) := by
  have batch := counted.batch
  rw [Pipeline.inFlight, Pipeline.flight, resolving] at batch
  exact ⟨counted.pending, rfl, batch, Or.inl rfl, counted.dropped⟩

theorem counted_initial (options : Options) : Counted (Pipeline.initial options) where
  pending := rfl
  batch := rfl
  retried := rfl
  single := Or.inl rfl
  dropped := rfl

section Preservation

variable [Build] {options : Options} {s after : Pipeline}
variable {action : PipelineAction}

theorem Counted.move (counted : Counted s)
    (move : Move options s action after) : Counted after := by
  cases move with
  | stay => exact counted
  | append | store | reset | prune | poll | publish | handed | enqueue =>
      exact counted.of_same ⟨rfl, rfl, rfl, rfl, rfl, rfl, rfl, rfl⟩
  | direct choice entry rest handing waiting =>
      have moved : Counted
          { s with tailer := { s.tailer with phase := .handing rest } } :=
        counted.of_same ⟨rfl, rfl, rfl, rfl, rfl, rfl, rfl, rfl⟩
      exact moved.addEntry entry
  | receive choice entry rest ready queued =>
      have moved : Counted { s with queue := rest } :=
        counted.of_same ⟨rfl, rfl, rfl, rfl, rfl, rfl, rfl, rfl⟩
      exact moved.addEntry entry
  | drop choice entry rest handing =>
      refine ⟨counted.pending, counted.batch, counted.retried,
        counted.single, ?_⟩
      change s.dropped + 1 = (s.trace.dropped ++ [entry]).length
      rw [counted.dropped, List.length_append]
      rfl
  | beginFlush choice waiting =>
      have idle : s.flight = none := by rw [Pipeline.flight, waiting]
      exact counted.of_same
        ⟨rfl, idle.symm, rfl, rfl, rfl, rfl, rfl, rfl⟩
  | take choice draining drained =>
      exact counted.takePending choice.order
  | skip choice locating same =>
      have nothing : s.inFlight = [] := by
        rw [Pipeline.inFlight, Pipeline.flight, locating]
        rfl
      refine ⟨counted.pending, ?_, counted.retried, Or.inl rfl,
        counted.dropped⟩
      have batch := counted.batch
      rw [nothing] at batch
      exact batch
  | locate choice pending locating =>
      have flying : s.flight = some pending := by
        rw [Pipeline.flight, locating]
      exact counted.of_same
        ⟨rfl, flying.symm, rfl, rfl, rfl, rfl, rfl, rfl⟩
  | resolve choice resolution delta rest id resolving =>
      have flying : s.flight = some resolution.pending := by
        rw [Pipeline.flight, resolving]
      refine counted.of_same ⟨rfl, ?_, rfl, rfl, rfl, rfl, rfl, rfl⟩
      rw [flying]
      exact congrArg some (resolution.charge_pending delta rest id)
  | learn choice resolution delta rest id resolving =>
      have flying : s.flight = some resolution.pending := by
        rw [Pipeline.flight, resolving]
      refine counted.of_same ⟨rfl, ?_, rfl, rfl, rfl, rfl, rfl, rfl⟩
      rw [flying]
      exact congrArg some ((resolution.know delta.username id).charge_pending
        delta rest id)
  | keep choice resolution resolving => exact counted.keepBatch resolving
  | commit choice resolution database resolving =>
      exact ⟨counted.pending, rfl, counted.retried, Or.inl rfl,
        counted.dropped⟩
  | restart => exact ⟨rfl, rfl, rfl, Or.inl rfl, rfl⟩

end Preservation

end Xoxproxy.Analytics
