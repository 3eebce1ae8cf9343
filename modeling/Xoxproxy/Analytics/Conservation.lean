import Xoxproxy.Analytics.Balance

/-!
# No record is lost or duplicated

Every record that was passed to `enqueue` is at one place of the pipeline,
and the counters at that place are the sums over its records.  The records
that are written are in the rows of the tables.
-/

namespace Xoxproxy.Analytics

open AssociationMaps RowTables Transactions Tallies

/-- The records that a running `enqueue` has not yet handed on. -/
def Pipeline.inHand (s : Pipeline) : List Entry :=
  match s.tailer.phase with
  | .handing batch => batch
  | .waiting => []
  | .publishing _ _ => []

def entriesIn (postings : List Posting) : List Entry :=
  postings.map Posting.entry

/-- The records that a committed flush has written. -/
def Trace.written (trace : Trace) : List Entry :=
  trace.committed.map fun charge => charge.2.entry

/-- The places at which a record can be, in the order of the pipeline. -/
def Pipeline.places (s : Pipeline) : List (List Entry) :=
  [s.inHand, s.queue, entriesIn s.trace.pending, entriesIn s.trace.batch,
    entriesIn s.trace.retried, s.trace.written, s.trace.dropped,
    s.trace.unattributable, entriesIn s.trace.discarded]

/-- Every record is at one place. -/
def Placed (s : Pipeline) : Prop :=
  s.trace.enqueued.Perm s.places.flatten

theorem placed_iff {s : Pipeline} :
    Placed s ↔ ∀ entry, s.trace.enqueued.count entry =
      s.inHand.count entry + s.queue.count entry +
        (entriesIn s.trace.pending).count entry +
        (entriesIn s.trace.batch).count entry +
        (entriesIn s.trace.retried).count entry +
        s.trace.written.count entry + s.trace.dropped.count entry +
        s.trace.unattributable.count entry +
        (entriesIn s.trace.discarded).count entry := by
  rw [Placed, List.perm_iff_count]
  simp only [Pipeline.places, List.flatten_cons, List.flatten_nil,
    List.count_append, List.count_nil, Nat.add_zero, ← Nat.add_assoc]

/-- A record that is added is pending or nobody's. -/
theorem count_add (trace : Trace) (entry : Entry) (slot : DestKey)
    (other : Entry) :
    (entriesIn (trace.add entry slot).pending).count other +
        (trace.add entry slot).unattributable.count other =
      (entriesIn trace.pending).count other +
        trace.unattributable.count other + [entry].count other := by
  rw [Trace.add]
  by_cases nobody : entry.record.unattributable = true
  · rw [if_pos nobody]
    dsimp only
    rw [List.count_append]
    omega
  · rw [if_neg nobody]
    dsimp only
    rw [entriesIn, List.map_append, List.count_append]
    change _ + [entry].count other + _ = _
    rw [entriesIn]
    omega

/-- A batch that is committed is written or discarded. -/
theorem count_commit (trace : Trace) (idOf : String → Int)
    (usage : List UsageDelta) (dests : List DestinationDelta)
    (entry : Entry) :
    (trace.commit idOf usage dests).written.count entry +
        (entriesIn (trace.commit idOf usage dests).discarded).count entry =
      trace.written.count entry +
        (entriesIn trace.discarded).count entry +
        (entriesIn trace.batch).count entry := by
  have parts := (List.filter_append_perm
    (fun posting : Posting =>
      decide (idOf posting.entry.record.username = 0)) trace.batch)
  have counts := (parts.map Posting.entry).count_eq entry
  rw [List.map_append, List.count_append] at counts
  have charged : (trace.commit idOf usage dests).written =
      trace.written ++ entriesIn (trace.batch.filter fun posting =>
        !decide (idOf posting.entry.record.username = 0)) := by
    simp only [Trace.commit, Trace.written, List.map_append, List.map_map,
      entriesIn, decide_not]
    rfl
  have unknown : entriesIn (trace.commit idOf usage dests).discarded =
      entriesIn trace.discarded ++ entriesIn (trace.batch.filter
        fun posting =>
          decide (idOf posting.entry.record.username = 0)) :=
    List.map_append
  rw [charged, unknown, List.count_append, List.count_append]
  simp only [entriesIn] at counts ⊢
  omega

theorem placed_initial (options : Options) :
    Placed (Pipeline.initial options) := .refl _

/-- A record that reaches the aggregator is still at one place. -/
theorem placed_addEntry {s : Pipeline} {entry : Entry}
    (before : ∀ other, s.trace.enqueued.count other =
      s.inHand.count other + s.queue.count other +
        (entriesIn s.trace.pending).count other +
        (entriesIn s.trace.batch).count other +
        (entriesIn s.trace.retried).count other +
        s.trace.written.count other + s.trace.dropped.count other +
        s.trace.unattributable.count other +
        (entriesIn s.trace.discarded).count other +
        [entry].count other) :
    Placed (s.addEntry entry) := by
  rw [placed_iff]
  intro other
  have old := before other
  have added := count_add s.trace entry
    (s.aggregator.slot entry.record) other
  have hand : (s.addEntry entry).inHand = s.inHand := rfl
  have trace : (s.addEntry entry).trace =
      s.trace.add entry (s.aggregator.slot entry.record) := rfl
  rw [hand, trace, s.trace.add_eq]
  dsimp only [Pipeline.addEntry, Trace.written] at old ⊢
  omega

section Preservation

variable [Build] {options : Options} {s after : Pipeline}
variable {action : PipelineAction}

theorem Placed.move (placed : Placed s) (counted : Counted s)
    (move : Move options s action after) : Placed after := by
  have before := placed_iff.mp placed
  cases move with
  | stay | append | store | reset | prune | beginFlush | skip | locate |
      resolve | learn => exact placed
  | poll choice idle =>
      have empty : s.inHand = [] := by rw [Pipeline.inHand, idle]
      rw [placed_iff]
      rw [empty] at before
      exact before
  | publish choice batch offset ready =>
      have empty : s.inHand = [] := by rw [Pipeline.inHand, ready]
      have handed : (s.publish batch offset).inHand = batch := by
        rw [Pipeline.inHand, Pipeline.publish]
        by_cases nothing : batch = []
        · rw [if_pos nothing, nothing]
        · rw [if_neg nothing]
      rw [placed_iff]
      intro entry
      have old := before entry
      rw [empty, List.count_nil] at old
      have more : (s.publish batch offset).trace.enqueued =
          s.trace.enqueued ++ batch := rfl
      rw [handed, more, List.count_append, old]
      dsimp only [Pipeline.publish, Trace.written]
      omega
  | handed choice empty =>
      have nothing : s.inHand = [] := by rw [Pipeline.inHand, empty]
      rw [placed_iff]
      rw [nothing] at before
      exact before
  | enqueue choice entry rest handing room =>
      rw [placed_iff]
      intro other
      have old := before other
      rw [Pipeline.inHand, handing] at old
      dsimp only [Pipeline.inHand] at old ⊢
      rw [List.count_cons] at old
      rw [List.count_append, List.count_singleton]
      omega
  | direct choice entry rest handing waiting =>
      apply placed_addEntry
      intro other
      have old := before other
      rw [Pipeline.inHand, handing] at old
      dsimp only [Pipeline.inHand] at old ⊢
      rw [List.count_cons] at old
      rw [List.count_singleton]
      omega
  | drop choice entry rest handing =>
      rw [placed_iff]
      intro other
      have old := before other
      rw [Pipeline.inHand, handing] at old
      dsimp only [Pipeline.inHand, Trace.drop, Trace.written] at old ⊢
      rw [List.count_cons] at old
      rw [List.count_append, List.count_singleton]
      omega
  | receive choice entry rest ready queued =>
      apply placed_addEntry
      intro other
      have old := before other
      rw [queued, List.count_cons] at old
      rw [List.count_singleton]
      dsimp only [Pipeline.inHand] at old ⊢
      omega
  | take choice draining drained =>
      have idle : s.flight = none := by rw [Pipeline.flight, draining]
      rw [placed_iff]
      intro other
      have old := before other
      rw [counted.batch_eq_nil idle] at old
      dsimp only [Pipeline.takePending, Pipeline.inHand, Trace.take,
        Trace.written, entriesIn] at old ⊢
      rw [List.map_append, List.count_append]
      rw [List.map_nil, List.count_nil] at old ⊢
      omega
  | keep choice resolution resolving =>
      have empty : s.retry = [] := by
        apply counted.single.resolve_left
        simp [Pipeline.flight, resolving]
      rw [placed_iff]
      intro other
      have old := before other
      rw [counted.retried_eq_nil empty] at old
      dsimp only [Pipeline.keepBatch, Pipeline.inHand, Trace.keep,
        Trace.written, entriesIn] at old ⊢
      rw [List.map_nil, List.count_nil] at old ⊢
      omega
  | commit choice resolution database resolving finished done =>
      rw [placed_iff]
      intro other
      have old := before other
      have committed := count_commit s.trace resolution.idOf
        resolution.usage resolution.dests other
      change s.trace.enqueued.count other =
        s.inHand.count other + s.queue.count other +
          (entriesIn s.trace.pending).count other + [].count other +
          (entriesIn s.trace.retried).count other +
          (s.trace.commit resolution.idOf resolution.usage
            resolution.dests).written.count other +
          s.trace.dropped.count other +
          s.trace.unattributable.count other +
          (entriesIn (s.trace.commit resolution.idOf resolution.usage
            resolution.dests).discarded).count other
      rw [List.count_nil]
      omega
  | restart => exact .refl _

end Preservation

/-- What some records amount to. -/
def recordTotal (entries : List Entry) : Counters :=
  (entries.map fun entry => Counters.ofRecord entry.record).sum

def CountKey.isUsage : CountKey → Bool
  | .usage _ _ => true
  | .destination _ _ _ => false

/-- What the usage counters of some bookings amount to. -/
def usageTotal (bookings : List (CountKey × Counters)) : Counters :=
  ((bookings.filter fun booking => booking.1.isUsage).map Prod.snd).sum

/-- What the destination counters of some bookings amount to. -/
def destinationTotal (bookings : List (CountKey × Counters)) : Counters :=
  ((bookings.filter fun booking => !booking.1.isUsage).map Prod.snd).sum

theorem recordTotal_append (first second : List Entry) :
    recordTotal (first ++ second) =
      recordTotal first + recordTotal second := by
  simp [recordTotal]

theorem recordTotal_perm {first second : List Entry}
    (reordered : first.Perm second) :
    recordTotal first = recordTotal second :=
  (reordered.map _).sum_eq

theorem recordTotal_flatten (places : List (List Entry)) :
    recordTotal places.flatten = (places.map recordTotal).sum := by
  induction places with
  | nil => rfl
  | cons place rest inductionHypothesis =>
      rw [List.flatten_cons, recordTotal_append, inductionHypothesis,
        List.map_cons, List.sum_cons]

/-- The counters of a stage amount to what its records amount to; the
usage counters do not tell blocked requests apart. -/
structure Totals
    (bookings : List (CountKey × Counters)) (entries : List Entry) :
    Prop where
  destinations : destinationTotal bookings = recordTotal entries
  usage : usageTotal bookings = (recordTotal entries).unsorted

theorem unsorted_sum (list : List Counters) :
    list.sum.unsorted = (list.map Counters.unsorted).sum := by
  induction list with
  | nil => rfl
  | cons counters rest inductionHypothesis =>
      rw [List.sum_cons, Counters.unsorted_add, inductionHypothesis,
        List.map_cons, List.sum_cons]

theorem totals_postings (postings : List Posting) :
    Totals (postingBookings postings) (entriesIn postings) := by
  constructor
  · induction postings with
    | nil => rfl
    | cons posting rest inductionHypothesis =>
        have split : postingBookings (posting :: rest) =
            posting.bookings ++ postingBookings rest := rfl
        have head : destinationTotal posting.bookings =
            Counters.ofRecord posting.entry.record := add_zero _
        rw [split, destinationTotal, List.filter_append, List.map_append,
          List.sum_append]
        exact congrArg₂ (· + ·) head inductionHypothesis
  · rw [recordTotal, unsorted_sum]
    induction postings with
    | nil => rfl
    | cons posting rest inductionHypothesis =>
        have split : postingBookings (posting :: rest) =
            posting.bookings ++ postingBookings rest := rfl
        have head : usageTotal posting.bookings =
            (Counters.ofRecord posting.entry.record).unsorted := add_zero _
        rw [split, usageTotal, List.filter_append, List.map_append,
          List.sum_append]
        exact congrArg₂ (· + ·) head inductionHypothesis

theorem totals_of_tally
    {bookings : List (CountKey × Counters)} {postings : List Posting}
    (counted : tally bookings = tally (postingBookings postings)) :
    Totals bookings (entriesIn postings) where
  destinations :=
    (total_congr counted fun key => !key.isUsage).trans
      (totals_postings postings).destinations
  usage :=
    (total_congr counted CountKey.isUsage).trans
      (totals_postings postings).usage

def RowKey.isDay : RowKey → Bool
  | .usage _ _ granularity => granularity == "day"
  | .destination _ _ _ => false

def RowKey.isDestination : RowKey → Bool
  | .usage _ _ _ => false
  | .destination _ _ _ => true

theorem total_day (usage : List UsageDelta)
    (dests : List DestinationDelta) :
    total RowKey.isDay (rowBookings usage dests) =
      (usage.map usageCounters).sum := by
  have none : total RowKey.isDay (dests.map destinationRowBooking) =
      0 := by
    have nothing : ∀ dest : DestinationDelta,
        total RowKey.isDay [destinationRowBooking dest] = 0 :=
      fun _ => rfl
    rw [List.map_eq_flatMap, total_flatMap nothing]
    simp
  have each : ∀ delta : UsageDelta,
      total RowKey.isDay (usageRowBookings delta) =
        usageCounters delta := by
    intro delta
    have day : total RowKey.isDay (usageRowBookings delta) =
        usageCounters delta + 0 := rfl
    rw [day, add_zero]
  rw [rowBookings, total_append, none, add_zero,
    total_flatMap each]

theorem total_destination (usage : List UsageDelta)
    (dests : List DestinationDelta) :
    total RowKey.isDestination (rowBookings usage dests) =
      (dests.map destinationCounters).sum := by
  have none : total RowKey.isDestination
      (usage.flatMap usageRowBookings) = 0 := by
    have nothing : ∀ delta : UsageDelta,
        total RowKey.isDestination (usageRowBookings delta) = 0 :=
      fun _ => rfl
    rw [total_flatMap nothing]
    simp
  have each : ∀ dest : DestinationDelta,
      total RowKey.isDestination [destinationRowBooking dest] =
        destinationCounters dest := by
    intro dest
    have own : total RowKey.isDestination
        [destinationRowBooking dest] = destinationCounters dest + 0 := rfl
    rw [own, add_zero]
  rw [rowBookings, total_append, none, zero_add,
    List.map_eq_flatMap, total_flatMap each]

theorem total_charges_day (charges : List (Int × Posting)) :
    total RowKey.isDay (charges.flatMap chargeBookings) =
      (recordTotal (charges.map fun charge => charge.2.entry)).unsorted := by
  have each : ∀ charge : Int × Posting,
      total RowKey.isDay (chargeBookings charge) =
        (Counters.ofRecord charge.2.entry.record).unsorted := by
    intro charge
    have day : total RowKey.isDay (chargeBookings charge) =
        (Counters.ofRecord charge.2.entry.record).unsorted + 0 := rfl
    rw [day, add_zero]
  rw [total_flatMap each, recordTotal, unsorted_sum, List.map_map,
    List.map_map]
  rfl

theorem total_charges_destination (charges : List (Int × Posting)) :
    total RowKey.isDestination (charges.flatMap chargeBookings) =
      recordTotal (charges.map fun charge => charge.2.entry) := by
  have each : ∀ charge : Int × Posting,
      total RowKey.isDestination (chargeBookings charge) =
        Counters.ofRecord charge.2.entry.record := by
    intro charge
    have own : total RowKey.isDestination (chargeBookings charge) =
        Counters.ofRecord charge.2.entry.record + 0 := rfl
    rw [own, add_zero]
  rw [total_flatMap each, recordTotal, List.map_map]
  rfl

/-- The deltas written amount to what the written records amount to. -/
structure TotalsWritten (trace : Trace) : Prop where
  destinations : (trace.flushedDests.map destinationCounters).sum =
    recordTotal trace.written
  usage : (trace.flushedUsage.map usageCounters).sum =
    (recordTotal trace.written).unsorted

theorem Charged.totalsWritten {s : Pipeline} (charged : Charged s) :
    TotalsWritten s.trace where
  destinations := by
    rw [← total_destination s.trace.flushedUsage]
    exact (total_congr charged.committed RowKey.isDestination).trans
      (total_charges_destination _)
  usage := by
    rw [← total_day _ s.trace.flushedDests]
    exact (total_congr charged.committed RowKey.isDay).trans
      (total_charges_day _)

/-- What holds at every point of a run: where the records are, and what
the counters at each place amount to.  The place of those that are written
is the tables: every row amounts to what was booked in it, and the next step
adds to every row what the charges book there that it commits. -/
structure Conserved [Build] (options : Options) (s : Pipeline) : Prop where
  placed : Placed s
  enqueueDone : (∀ batch, s.tailer.phase ≠ .handing batch) → s.inHand = []
  flushDone : (s.loop = .waiting ∨ s.loop = .draining) →
    s.trace.batch = []
  pending : Totals s.aggregator.bookings (entriesIn s.trace.pending)
  inFlight : Totals (bookingsOf s.inFlight) (entriesIn s.trace.batch)
  retried : Totals (bookingsOf s.retry) (entriesIn s.trace.retried)
  written : TotalsWritten s.trace
  rows : ∀ key, amountAt s.host.database key =
    tally (ledgerBookings s.trace.ledger) key
  ledger : s.trace.ledger.Sublist (s.trace.applied.flatMap chargeRows)
  applied : s.trace.committed <:+ s.trace.applied
  enters : ∀ action, ∃ charges,
    Enters s action (Pipeline.step options action s) charges
  dropped : s.dropped = s.trace.dropped.length
  destinationSum : recordTotal s.trace.enqueued =
    recordTotal s.inHand + recordTotal s.queue +
      destinationTotal s.aggregator.bookings +
      destinationTotal (bookingsOf s.inFlight) +
      destinationTotal (bookingsOf s.retry) +
      (s.trace.flushedDests.map destinationCounters).sum +
      recordTotal s.trace.dropped +
      recordTotal s.trace.unattributable +
      recordTotal (entriesIn s.trace.discarded)
  usageSum : (recordTotal s.trace.enqueued).unsorted =
    (recordTotal s.inHand).unsorted + (recordTotal s.queue).unsorted +
      usageTotal s.aggregator.bookings +
      usageTotal (bookingsOf s.inFlight) +
      usageTotal (bookingsOf s.retry) +
      (s.trace.flushedUsage.map usageCounters).sum +
      (recordTotal s.trace.dropped).unsorted +
      (recordTotal s.trace.unattributable).unsorted +
      (recordTotal (entriesIn s.trace.discarded)).unsorted

theorem conserved_of_balanced [Build] {options : Options} {s : Pipeline}
    (charged : Charged s) (balanced : Balanced s) (placed : Placed s) :
    Conserved options s := by
  have counted := charged.counted
  have pending := totals_of_tally counted.pending
  have inFlight := totals_of_tally counted.batch
  have retried := totals_of_tally counted.retried
  have written := charged.totalsWritten
  have total : recordTotal s.trace.enqueued =
      recordTotal s.inHand + recordTotal s.queue +
        recordTotal (entriesIn s.trace.pending) +
        recordTotal (entriesIn s.trace.batch) +
        recordTotal (entriesIn s.trace.retried) +
        recordTotal s.trace.written + recordTotal s.trace.dropped +
        recordTotal s.trace.unattributable +
        recordTotal (entriesIn s.trace.discarded) := by
    rw [recordTotal_perm placed, recordTotal_flatten, Pipeline.places]
    simp only [List.map_cons, List.map_nil, List.sum_cons, List.sum_nil]
    abel
  refine ⟨placed, ?_, ?_, pending, inFlight, retried, written,
    balanced.amounts, balanced.rows, balanced.applied, ?_, counted.dropped,
    ?_, ?_⟩
  · intro idle
    rw [Pipeline.inHand]
    cases phase : s.tailer.phase with
    | waiting => rfl
    | publishing batch offset => rfl
    | handing batch => exact absurd phase (idle batch)
  · intro idle
    apply counted.batch_eq_nil
    rw [Pipeline.flight]
    rcases idle with waiting | draining
    · rw [waiting]
    · rw [draining]
  · intro action
    have move : Move options s action (s.act options action) :=
      move_act action
    obtain ⟨charges, enters⟩ := balanced.enters charged move
    exact ⟨charges, enters.applied, enters.committed, enters.tables⟩
  · rw [total, pending.destinations, inFlight.destinations,
      retried.destinations, written.destinations]
  · rw [total, pending.usage, inFlight.usage, retried.usage, written.usage]
    simp only [Counters.unsorted_add]

section Runs

variable [Build] (options : Options)

/-- Nothing is lost or duplicated in the pipeline. -/
theorem run_conserved (actions : List PipelineAction) :
    Conserved options (Runs.run (Pipeline.step options) actions
      (Pipeline.initial options)) := by
  let invariant : Pipeline → Prop := fun s => Charged s ∧ Placed s
  have both : invariant (Runs.run (Pipeline.step options) actions
      (Pipeline.initial options)) := by
    apply every_run
    · rintro s action after move ⟨charged, placed⟩
      exact ⟨charged.move move, placed.move charged.counted move⟩
    · rintro s ⟨charged, placed⟩
      exact ⟨charged.tick, placed⟩
    · exact ⟨charged_initial options, placed_initial options⟩
  exact conserved_of_balanced both.1 (run_balanced options actions).2 both.2

end Runs

end Xoxproxy.Analytics
