import Xoxproxy.Analytics.Stages

/-!
# Charging a batch to accounts

A flush looks up the account of every username of its batch and books the
counters of the batch under the ids found.  What a committed flush has
written is what its records amount to under the ids of their usernames.
-/

namespace Xoxproxy.Analytics

open AssociationMaps RowTables Transactions Tallies

/-- The rows that a counter reaches. -/
def CountKey.rows (idOf : String → Int) : CountKey → List RowKey
  | .usage username day =>
      if idOf username = 0 then []
      else
        [.usage (idOf username) day "day",
          .usage (idOf username) (monthOf day) "month"]
  | .destination username day slot =>
      if idOf username = 0 then []
      else [.destination (idOf username) day slot]

def CountKey.username : CountKey → String
  | .usage username _ => username
  | .destination username _ _ => username

/-- What an entry amounts to in a row. -/
def rowAmount (key : RowKey) (entry : Entry) : Counters :=
  match key with
  | .usage _ _ _ => (Counters.ofRecord entry.record).unsorted
  | .destination _ _ _ => Counters.ofRecord entry.record

/-- What a posting books when it is charged to an account. -/
def chargeBookings (charge : Int × Posting) : List (RowKey × Counters) :=
  (Trace.rowsOf charge.1 charge.2).map fun key =>
    (key, rowAmount key charge.2.entry)

theorem CountKey.rows_congr
    {key : CountKey} {first second : String → Int}
    (same : first key.username = second key.username) :
    key.rows first = key.rows second := by
  cases key with
  | usage username day =>
      rw [CountKey.username] at same
      rw [CountKey.rows, CountKey.rows, same]
  | destination username day slot =>
      rw [CountKey.username] at same
      rw [CountKey.rows, CountKey.rows, same]

/-- The ids of other usernames do not matter. -/
theorem spread_congr
    {bookings : List (CountKey × Counters)} {first second : String → Int}
    (same : ∀ booking ∈ bookings,
      first booking.1.username = second booking.1.username) :
    spread (CountKey.rows first) bookings =
      spread (CountKey.rows second) bookings := by
  induction bookings with
  | nil => rfl
  | cons booking rest inductionHypothesis =>
      have later := inductionHypothesis fun other member =>
        same other (List.mem_cons_of_mem booking member)
      have here := same booking List.mem_cons_self
      rw [spread, spread, List.flatMap_cons, List.flatMap_cons,
        CountKey.rows_congr here]
      exact congrArg _ later

theorem username_of_mem_bookings
    {delta : PendingDelta} :
    ∀ booking ∈ delta.bookings, booking.1.username = delta.username := by
  intro booking member
  rcases List.mem_append.mp member with inUsage | inDestinations
  · obtain ⟨usage, -, rfl⟩ := List.mem_map.mp inUsage
    rfl
  · obtain ⟨dest, -, rfl⟩ := List.mem_map.mp inDestinations
    rfl

/-- A posting of a known username reaches the rows of its account. -/
theorem spread_posting_of_ne_zero
    {posting : Posting} {idOf : String → Int}
    (known : idOf posting.entry.record.username ≠ 0) :
    spread (CountKey.rows idOf) posting.bookings =
      chargeBookings (idOf posting.entry.record.username, posting) := by
  simp only [spread, Posting.bookings, Record.bookings, List.flatMap_cons,
    List.flatMap_nil, CountKey.rows, if_neg known]
  rfl

theorem spread_posting_of_eq_zero
    {posting : Posting} {idOf : String → Int}
    (unknown : idOf posting.entry.record.username = 0) :
    spread (CountKey.rows idOf) posting.bookings = [] := by
  simp only [spread, Posting.bookings, Record.bookings, List.flatMap_cons,
    List.flatMap_nil, CountKey.rows, if_pos unknown]
  rfl

/-- The postings of a batch with the accounts to which they are charged. -/
def chargesOf (idOf : String → Int) (batch : List Posting) :
    List (Int × Posting) :=
  (batch.filter fun posting => idOf posting.entry.record.username ≠ 0).map
    fun posting => (idOf posting.entry.record.username, posting)

theorem spread_postings (idOf : String → Int) (batch : List Posting) :
    spread (CountKey.rows idOf) (postingBookings batch) =
      (chargesOf idOf batch).flatMap chargeBookings := by
  induction batch with
  | nil => rfl
  | cons posting rest inductionHypothesis =>
      have split : postingBookings (posting :: rest) =
          posting.bookings ++ postingBookings rest := rfl
      rw [split, spread_append, inductionHypothesis]
      by_cases unknown : idOf posting.entry.record.username = 0
      · rw [spread_posting_of_eq_zero unknown]
        simp [chargesOf, unknown]
      · rw [spread_posting_of_ne_zero unknown]
        simp [chargesOf, unknown]

/-- The month of every usage delta is that of its day. -/
def PendingDelta.Monthly (delta : PendingDelta) : Prop :=
  ∀ usage ∈ delta.usage, usage.month = monthOf usage.day

theorem rowBookings_append
    (usage usage' : List UsageDelta) (dests dests' : List DestinationDelta) :
    tally (rowBookings (usage ++ usage') (dests ++ dests')) =
      tally (rowBookings usage dests) +
        tally (rowBookings usage' dests') := by
  simp only [rowBookings, List.flatMap_append, List.map_append,
    tally_append]
  abel

/-- A contribution under a known id books what it contributes. -/
theorem rowBookings_delta
    {delta : PendingDelta} {idOf : String → Int} (monthly : delta.Monthly)
    (known : idOf delta.username ≠ 0) :
    rowBookings
        (delta.usage.map fun usage =>
          { usage with userID := idOf delta.username })
        (delta.dests.map fun dest =>
          { dest with userID := idOf delta.username }) =
      spread (CountKey.rows idOf) delta.bookings := by
  rw [PendingDelta.bookings, spread_append, rowBookings]
  congr 1
  · rw [spread, List.flatMap_map, List.flatMap_map]
    apply List.flatMap_congr
    intro usage member
    simp only [CountKey.rows, if_neg known, usageRowBookings,
      monthly usage member]
    rfl
  · rw [spread, List.flatMap_map, List.map_map, List.map_eq_flatMap]
    apply List.flatMap_congr
    intro dest _
    simp only [CountKey.rows, if_neg known]
    rfl

theorem spread_delta_of_eq_zero
    {delta : PendingDelta} {idOf : String → Int}
    (unknown : idOf delta.username = 0) :
    spread (CountKey.rows idOf) delta.bookings = [] := by
  rw [spread, List.flatMap_eq_nil_iff]
  intro booking member
  have owner := username_of_mem_bookings booking member
  cases shape : booking.1 with
  | usage username day =>
      rw [shape, CountKey.username] at owner
      rw [CountKey.rows, owner, if_pos unknown]
      rfl
  | destination username day slot =>
      rw [shape, CountKey.username] at owner
      rw [CountKey.rows, owner, if_pos unknown]
      rfl

namespace Resolution

/-- The id of a username; zero for one that is not known. -/
def idOf (resolution : Resolution) (username : String) : Int :=
  (find? username resolution.ids).getD 0

/-- The part of the batch that is booked, under the ids known so far. -/
structure Booked
    (resolution : Resolution) (booked : List PendingDelta) : Prop where
  split : resolution.pending = booked ++ resolution.remaining
  known : ∀ delta ∈ booked,
    find? delta.username resolution.ids ≠ none
  amounts :
    tally (rowBookings resolution.usage resolution.dests) =
      tally (spread (CountKey.rows resolution.idOf) (bookingsOf booked))

variable {resolution : Resolution} {booked : List PendingDelta}

theorem Booked.know (holds : resolution.Booked booked)
    (username : String) (id : Int) :
    (resolution.know username id).Booked booked := by
  have same : ∀ delta ∈ booked,
      find? delta.username (resolution.know username id).ids =
        find? delta.username resolution.ids := by
    intro delta member
    rw [Resolution.know, find?_append]
    cases found : find? delta.username resolution.ids with
    | none => exact absurd found (holds.known delta member)
    | some other => rfl
  refine ⟨holds.split, ?_, ?_⟩
  · intro delta member
    rw [same delta member]
    exact holds.known delta member
  · refine holds.amounts.trans ?_
    apply congrArg tally
    apply spread_congr
    intro booking member
    obtain ⟨delta, listed, inDelta⟩ := List.mem_flatMap.mp member
    rw [username_of_mem_bookings booking inDelta, idOf, idOf,
      same delta listed]

theorem Booked.charge (holds : resolution.Booked booked)
    {delta : PendingDelta} {rest : List PendingDelta} {id : Int}
    (next : resolution.remaining = delta :: rest)
    (monthly : delta.Monthly)
    (known : find? delta.username resolution.ids = some id) :
    (resolution.charge delta rest id).Booked (booked ++ [delta]) := by
  have owner : resolution.idOf delta.username = id := by
    rw [idOf, known, Option.getD_some]
  have split : resolution.pending = booked ++ [delta] ++ rest := by
    rw [holds.split, next, List.append_assoc, List.singleton_append]
  have names : ∀ other ∈ booked ++ [delta],
      find? other.username resolution.ids ≠ none := by
    intro other member
    rcases List.mem_append.mp member with old | new
    · exact holds.known other old
    · rw [List.mem_singleton.mp new, known]
      exact Option.some_ne_none id
  have amounts :
      tally (spread (CountKey.rows resolution.idOf)
          (bookingsOf (booked ++ [delta]))) =
        tally (rowBookings resolution.usage resolution.dests) +
          tally (spread (CountKey.rows resolution.idOf)
            delta.bookings) := by
    rw [bookingsOf_append, spread_append, tally_append, holds.amounts]
    simp [bookingsOf]
  by_cases unknown : id = 0
  · rw [Resolution.charge, if_pos unknown]
    refine ⟨split, names, ?_⟩
    refine Eq.trans ?_ amounts.symm
    rw [spread_delta_of_eq_zero (owner.trans unknown), tally_nil, add_zero]
  · rw [Resolution.charge, if_neg unknown]
    refine ⟨split, names, ?_⟩
    refine Eq.trans ?_ amounts.symm
    have real : resolution.idOf delta.username ≠ 0 := by
      rw [owner]
      exact unknown
    rw [rowBookings_append, ← rowBookings_delta monthly real, owner]

end Resolution

/-! ## The flush that is under way -/

theorem mem_of_forall₂ {Item Other : Type} {relation : Item → Other → Prop}
    {first : List Item} {second : List Other}
    (related : List.Forall₂ relation first second) {other : Other}
    (member : other ∈ second) :
    ∃ item ∈ first, relation item other := by
  induction related with
  | nil => cases member
  | cons here _ inductionHypothesis =>
      rcases List.mem_cons.mp member with rfl | later
      · exact ⟨_, List.mem_cons_self, here⟩
      · obtain ⟨item, listed, holds⟩ := inductionHypothesis later
        exact ⟨item, List.mem_cons_of_mem _ listed, holds⟩

theorem monthly_takePending (aggregator : Aggregator) (order : TakeOrder) :
    ∀ delta ∈ (aggregator.takePending order).1, delta.Monthly := by
  intro delta member usage listed
  obtain ⟨reordered, permuted, visited⟩ :=
    order.visits (aggregator.users.map fun entry =>
      pendingDelta entry.1 entry.2)
  obtain ⟨original, from_, same⟩ := mem_of_forall₂ visited member
  obtain ⟨entry, -, rfl⟩ := List.mem_map.mp (permuted.mem_iff.mp from_)
  have origin := same.usage.mem_iff.mp listed
  obtain ⟨day, -, rfl⟩ := List.mem_map.mp origin
  rfl

/-- The flush books what its records amount to. -/
structure Charged (s : Pipeline) : Prop where
  counted : Counted s
  monthly : ∀ delta ∈ s.inFlight ++ s.retry, delta.Monthly
  resolving : ∀ resolution, s.loop = .resolving resolution →
    ∃ booked, resolution.Booked booked
  committed :
    tally (rowBookings s.trace.flushedUsage s.trace.flushedDests) =
      tally (s.trace.committed.flatMap chargeBookings)

/-- What a finished batch writes is what its records amount to. -/
theorem Charged.tally_batch {s : Pipeline} (charged : Charged s)
    {resolution : Resolution} (resolving : s.loop = .resolving resolution)
    (finished : resolution.remaining = []) :
    tally (rowBookings resolution.usage resolution.dests) =
      tally ((chargesOf resolution.idOf s.trace.batch).flatMap
        chargeBookings) := by
  obtain ⟨booked, holds⟩ := charged.resolving resolution resolving
  have whole : resolution.pending = booked := by
    rw [holds.split, finished, List.append_nil]
  have batch := charged.counted.batch
  rw [Pipeline.inFlight, Pipeline.flight, resolving] at batch
  rw [holds.amounts, ← whole, ← spread_postings]
  exact tally_spread_eq _ batch

theorem charged_initial (options : Options) :
    Charged (Pipeline.initial options) where
  counted := counted_initial options
  monthly := fun _ member => (by cases member)
  resolving := fun _ resolving => (by cases resolving)
  committed := rfl

theorem Charged.of_same {s after : Pipeline} (charged : Charged s)
    (counted : Counted after)
    (loop : after.loop = s.loop) (retry : after.retry = s.retry)
    (usage : after.trace.flushedUsage = s.trace.flushedUsage)
    (dests : after.trace.flushedDests = s.trace.flushedDests)
    (committed : after.trace.committed = s.trace.committed) :
    Charged after := by
  refine ⟨counted, ?_, ?_, ?_⟩
  · rw [Pipeline.inFlight, Pipeline.flight, loop, retry]
    exact charged.monthly
  · rw [loop]
    exact charged.resolving
  · rw [usage, dests, committed]
    exact charged.committed

/-- The fields of the trace that adding a record changes. -/
theorem Trace.add_eq (trace : Trace) (entry : Entry) (slot : DestKey) :
    trace.add entry slot =
      { trace with
        unattributable := (trace.add entry slot).unattributable
        excused := (trace.add entry slot).excused
        pending := (trace.add entry slot).pending } := by
  rw [Trace.add]
  by_cases nobody : entry.record.unattributable = true
  · rw [if_pos nobody]
  · rw [if_neg nobody]

theorem Charged.addEntry {s : Pipeline} (charged : Charged s)
    (entry : Entry) : Charged (s.addEntry entry) := by
  have trace := s.trace.add_eq entry (s.aggregator.slot entry.record)
  apply charged.of_same (charged.counted.addEntry entry) rfl rfl
  · exact (congrArg Trace.flushedUsage trace :)
  · exact (congrArg Trace.flushedDests trace :)
  · exact (congrArg Trace.committed trace :)

theorem Charged.tick {s : Pipeline} (charged : Charged s) :
    Charged s.tick :=
  charged.of_same (charged.counted.of_same
    ⟨rfl, rfl, rfl, rfl, rfl, rfl, rfl, rfl⟩) rfl rfl rfl rfl rfl

section Preservation

variable [Build] {options : Options} {s after : Pipeline}
variable {action : PipelineAction}

theorem Charged.move (charged : Charged s)
    (move : Move options s action after) : Charged after := by
  have counted := charged.counted.move move
  cases move with
  | stay => exact charged
  | append | store | reset | prune | poll | publish | handed | enqueue |
      drop =>
      exact charged.of_same counted rfl rfl rfl rfl rfl
  | direct choice entry rest handing waiting =>
      have moved : Charged
          { s with tailer := { s.tailer with phase := .handing rest } } :=
        charged.of_same (charged.counted.of_same
          ⟨rfl, rfl, rfl, rfl, rfl, rfl, rfl, rfl⟩) rfl rfl rfl rfl rfl
      exact moved.addEntry entry
  | receive choice entry rest ready queued =>
      have moved : Charged { s with queue := rest } :=
        charged.of_same (charged.counted.of_same
          ⟨rfl, rfl, rfl, rfl, rfl, rfl, rfl, rfl⟩) rfl rfl rfl rfl rfl
      exact moved.addEntry entry
  | beginFlush choice waiting =>
      refine ⟨counted, ?_, fun _ resolving => (by cases resolving),
        charged.committed⟩
      intro delta member
      exact charged.monthly delta (List.mem_append_right _ member)
  | take choice draining drained =>
      refine ⟨counted, ?_, fun _ resolving => (by cases resolving),
        charged.committed⟩
      intro delta member
      have inBatch : delta ∈ s.retry ++
          (s.aggregator.takePending choice.order).1 := by
        simpa [Pipeline.takePending, Pipeline.inFlight, Pipeline.flight]
          using member
      rcases List.mem_append.mp inBatch with retried | taken
      · exact charged.monthly delta (List.mem_append_right _ retried)
      · exact monthly_takePending _ _ delta taken
  | skip choice locating same =>
      refine ⟨counted, ?_, fun _ resolving => (by cases resolving),
        charged.committed⟩
      intro delta member
      exact charged.monthly delta (List.mem_append_right _ member)
  | locate choice pending locating =>
      refine ⟨counted, ?_, ?_, charged.committed⟩
      · have monthly := charged.monthly
        rw [Pipeline.inFlight, Pipeline.flight, locating] at monthly
        exact monthly
      · intro resolution resolving
        obtain rfl := LoopPhase.resolving.inj resolving
        exact ⟨[], rfl, by simp, rfl⟩
  | resolve choice resolution delta rest id resolving next known =>
      obtain ⟨booked, holds⟩ := charged.resolving resolution resolving
      have monthly := charged.monthly
      rw [Pipeline.inFlight, Pipeline.flight, resolving] at monthly
      have here : delta.Monthly := by
        apply monthly delta
        apply List.mem_append_left
        change delta ∈ resolution.pending
        rw [holds.split, next]
        simp
      refine ⟨counted, ?_, ?_, charged.committed⟩
      · rw [Pipeline.inFlight, Pipeline.flight]
        simp only [Option.getD_some, Resolution.charge_pending]
        exact monthly
      · intro other same
        obtain rfl := LoopPhase.resolving.inj same
        exact ⟨_, holds.charge next here known⟩
  | learn choice resolution delta rest id resolving next new =>
      obtain ⟨booked, holds⟩ := charged.resolving resolution resolving
      have monthly := charged.monthly
      rw [Pipeline.inFlight, Pipeline.flight, resolving] at monthly
      have here : delta.Monthly := by
        apply monthly delta
        apply List.mem_append_left
        change delta ∈ resolution.pending
        rw [holds.split, next]
        simp
      have known : find? delta.username
          (resolution.know delta.username id).ids = some id := by
        rw [Resolution.know, find?_append, new]
        simp [find?]
      refine ⟨counted, ?_, ?_, charged.committed⟩
      · rw [Pipeline.inFlight, Pipeline.flight]
        simp only [Option.getD_some, Resolution.charge_pending]
        exact monthly
      · intro other same
        obtain rfl := LoopPhase.resolving.inj same
        exact ⟨_, (holds.know delta.username id).charge next here known⟩
  | keep choice resolution resolving =>
      have monthly := charged.monthly
      rw [Pipeline.inFlight, Pipeline.flight, resolving] at monthly
      refine ⟨counted, ?_, fun _ resolving => (by cases resolving),
        charged.committed⟩
      intro delta member
      exact monthly delta (List.mem_append_left _ member)
  | commit choice resolution database resolving finished done =>
      refine ⟨counted, ?_, fun _ resolving => (by cases resolving), ?_⟩
      · intro delta member
        exact charged.monthly delta (List.mem_append_right _ member)
      · change tally (rowBookings
            (s.trace.flushedUsage ++ resolution.usage)
            (s.trace.flushedDests ++ resolution.dests)) =
          tally ((s.trace.committed ++
            chargesOf resolution.idOf s.trace.batch).flatMap chargeBookings)
        rw [rowBookings_append, charged.committed,
          charged.tally_batch resolving finished, List.flatMap_append,
          tally_append]
  | restart =>
      exact ⟨counted, fun _ member => (by cases member),
        fun _ resolving => (by cases resolving), rfl⟩

end Preservation

end Xoxproxy.Analytics
