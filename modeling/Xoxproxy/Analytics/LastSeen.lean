import Xoxproxy.Analytics.MemoryCap
import Xoxproxy.Analytics.Resolving
import Xoxproxy.Analytics.Stamps

/-!
# When destinations were last seen

The stamp of a `destination_stats` row is overwritten by every flush.  It
is the time of the newest record in the row as long as every flush brings,
for each of its destinations, the newest record of the username and of the
row.
-/

namespace Xoxproxy.Analytics

open AssociationMaps RowTables Transactions

section Upserts

variable {database after : Database}

theorem mem_upsert_destination {rows : List DestinationRow}
    {new row : DestinationRow}
    (member : row ∈ upsert DestinationRow.key DestinationRow.add new rows) :
    (row.key = new.key ∧ row.lastSeen = new.lastSeen) ∨
      (row.key ≠ new.key ∧ row ∈ rows) := by
  rw [upsert] at member
  cases found : lookup DestinationRow.key rows new.key with
  | none =>
      rw [found] at member
      rcases List.mem_append.mp member with old | added
      · exact .inr ⟨lookup_eq_none_iff.mp found row old, old⟩
      · rw [List.mem_singleton.mp added]
        exact .inl ⟨rfl, rfl⟩
  | some _ =>
      rw [found] at member
      obtain ⟨old, listed, rfl⟩ := mem_updateWhere.mp member
      by_cases matched : old.key = new.key
      · rw [if_pos (decide_eq_true matched)]
        exact .inl ⟨matched, rfl⟩
      · rw [if_neg (by simpa using matched)]
        exact .inr ⟨matched, listed⟩

/-- The row that a delta adds to the destinations. -/
def addDelta (rows : List DestinationRow) (delta : DestinationDelta) :
    List DestinationRow :=
  upsert DestinationRow.key DestinationRow.add (destinationRowOf delta) rows

/-- The last delta of a row has stamped it. -/
theorem mem_foldl_addDelta {dests : List DestinationDelta}
    {rows : List DestinationRow} {row : DestinationRow}
    (member : row ∈ dests.foldl addDelta rows) :
    (∃ earlier delta later, dests = earlier ++ delta :: later ∧
        (destinationRowOf delta).key = row.key ∧
        (∀ other ∈ later, (destinationRowOf other).key ≠ row.key) ∧
        row.lastSeen = formatTime delta.lastSeen) ∨
      ((∀ delta ∈ dests, (destinationRowOf delta).key ≠ row.key) ∧
        row ∈ rows) := by
  induction dests generalizing rows with
  | nil => exact .inr ⟨by simp, member⟩
  | cons delta dests inductionHypothesis =>
      rcases inductionHypothesis member with
        ⟨earlier, last, later, split, same, behind, stamp⟩ | ⟨apart, old⟩
      · exact .inl ⟨delta :: earlier, last, later, by rw [split]; rfl, same,
          behind, stamp⟩
      · rcases mem_upsert_destination old with ⟨same, stamp⟩ | ⟨other, before⟩
        · exact .inl ⟨[], delta, dests, rfl, same.symm, apart, stamp⟩
        · refine .inr ⟨?_, before⟩
          intro one listed
          rcases List.mem_cons.mp listed with rfl | later
          · exact fun equal => other equal.symm
          · exact apart one later

theorem destinations_addDeltas {dests : List DestinationDelta}
    (done : executeAll (dests.map addDestination) database = .ok after) :
    after.destinationStats =
      dests.foldl addDelta database.destinationStats := by
  induction dests generalizing database with
  | nil =>
      rw [← Except.ok.inj done]
      rfl
  | cons delta dests inductionHypothesis =>
      rw [List.map_cons, executeAll] at done
      cases run : (addDestination delta).run database with
      | error error =>
          rw [run] at done
          cases done
      | ok changed =>
          rw [run] at done
          obtain ⟨-, rfl⟩ := referring_ok run
          exact inductionHypothesis done

def SameDestinations (before after : Database) : Prop :=
  after.destinationStats = before.destinationStats

theorem sameDestinations_usage {usage : List UsageDelta}
    (done : executeAll (usage.flatMap fun delta =>
        [addUsage delta delta.day "day",
          addUsage delta delta.month "month"] ++
        if 0 < delta.lastSeenUnix then [stampLastSeen delta] else [])
      database = .ok after) : SameDestinations database after := by
  have each : ∀ statement ∈ usage.flatMap fun delta =>
        [addUsage delta delta.day "day",
          addUsage delta delta.month "month"] ++
        if 0 < delta.lastSeenUnix then [stampLastSeen delta] else [],
      ∀ before changed, statement.run before = .ok changed →
        SameDestinations before changed := by
    intro statement listed before changed ran
    obtain ⟨delta, -, inDelta⟩ := List.mem_flatMap.mp listed
    rcases List.mem_append.mp inDelta with upserts | stamp
    · rcases List.mem_pair.mp upserts with rfl | rfl
      · obtain ⟨-, rfl⟩ := referring_ok ran
        rfl
      · obtain ⟨-, rfl⟩ := referring_ok ran
        rfl
    · by_cases positive : 0 < delta.lastSeenUnix
      · rw [if_pos positive, List.mem_singleton] at stamp
        subst stamp
        rw [← Except.ok.inj ran]
        rfl
      · rw [if_neg positive] at stamp
        cases stamp
  exact executeAll_preserves (fun _ => rfl)
    (fun early late => Eq.trans late early) each done

/-- The destinations behind a committed flush. -/
theorem destinations_applyDeltas {usage : List UsageDelta}
    {dests : List DestinationDelta} {cursor : LogCursor}
    (done : executeAll (applyDeltasStatements usage dests cursor) database =
      .ok after) :
    after.destinationStats =
      dests.foldl addDelta database.destinationStats := by
  obtain ⟨applied, traffic, saved⟩ := executeAll_append.mp done
  obtain ⟨ledger, first, second⟩ := executeAll_append.mp traffic
  have stats : after.destinationStats = applied.destinationStats := by
    rw [← Except.ok.inj saved]
  have usageOnly : ledger.destinationStats = database.destinationStats :=
    sameDestinations_usage first
  rw [stats, destinations_addDeltas second, usageOnly]

end Upserts

/-- The newest record that is counted in a row. -/
structure NewestUnder
    (ledger : List (RowKey × Entry)) (key : RowKey) (newest : Int) :
    Prop where
  listed : ∃ entry, (key, entry) ∈ ledger ∧
    entry.record.unixMillis = newest
  latest : ∀ entry, (key, entry) ∈ ledger →
    entry.record.unixMillis ≤ newest

/-- Every destination shows when the newest record in its row was
logged. -/
def LastSeenKept (s : Pipeline) : Prop :=
  ∀ row ∈ s.host.database.destinationStats, ∃ newest,
    NewestUnder s.trace.ledger (destinationRowKey row) newest ∧
      row.lastSeen = formatTime (unixMilli newest)

/-- The row of a posting. -/
def Posting.row (idOf : String → Int) (posting : Posting) : RowKey :=
  .destination (idOf posting.username) posting.date posting.slot

/-- Wherever a batch reaches a row, it has a record there that is as new as
those the row counts already. -/
def CommitsNewest (idOf : String → Int) (batch : List Posting)
    (ledger : List (RowKey × Entry)) : Prop :=
  ∀ posting ∈ batch, idOf posting.username ≠ 0 →
    ∃ newest ∈ batch, SameCounter newest posting ∧
      ∀ booking ∈ ledger, booking.1 = posting.row idOf →
        booking.2.record.unixMillis ≤ newest.millis

instance (idOf : String → Int) (batch : List Posting)
    (ledger : List (RowKey × Entry)) :
    Decidable (CommitsNewest idOf batch ledger) :=
  inferInstanceAs (Decidable (∀ _ ∈ _, _))

theorem flatMap_eq_split {Item Other : Type} {image : Item → List Other}
    {items : List Item} {earlier later : List Other} {other : Other}
    (split : items.flatMap image = earlier ++ other :: later) :
    ∃ before item after early late,
      items = before ++ item :: after ∧
      image item = early ++ other :: late ∧
      later = late ++ after.flatMap image := by
  induction items generalizing earlier with
  | nil =>
      rw [List.flatMap_nil] at split
      exact absurd split.symm (by simp)
  | cons item items inductionHypothesis =>
      rw [List.flatMap_cons] at split
      rcases List.append_eq_append_iff.mp split with
        ⟨middle, first, second⟩ | ⟨middle, first, second⟩
      · obtain ⟨before, found, after, early, late, whole, inside, behind⟩ :=
          inductionHypothesis second
        exact ⟨item :: before, found, after, early, late, by rw [whole]; rfl,
          inside, behind⟩
      · cases middle with
        | nil =>
            obtain ⟨before, found, after, early, late, whole, inside,
              behind⟩ := @inductionHypothesis [] second.symm
            exact ⟨item :: before, found, after, early, late,
              by rw [whole]; rfl, inside, behind⟩
        | cons head middle =>
            obtain ⟨rfl, rfl⟩ := List.cons.inj second
            exact ⟨[], item, items, earlier, middle, rfl, first, rfl⟩

theorem rowKey_eq_iff {first second : DestinationRow} :
    destinationRowKey first = destinationRowKey second ↔
      first.key = second.key :=
  destinationImage_injective.eq_iff (a := first.key) (b := second.key)

/-- The destinations in which the records of a batch are counted. -/
theorem mem_charged_destination {idOf : String → Int}
    {batch : List Posting} {id : Int} {day : String} {slot : DestKey}
    {entry : Entry} :
    (.destination id day slot, entry) ∈
        (chargesOf idOf batch).flatMap chargeRows ↔
      ∃ posting ∈ batch, idOf posting.username ≠ 0 ∧
        idOf posting.username = id ∧ posting.date = day ∧
        posting.slot = slot ∧ posting.entry = entry := by
  constructor
  · intro listed
    obtain ⟨charge, charged, inRows⟩ := List.mem_flatMap.mp listed
    obtain ⟨posting, member, rfl⟩ := List.mem_map.mp charged
    obtain ⟨inBatch, known⟩ := List.mem_filter.mp member
    obtain ⟨key, isRow, same⟩ := List.mem_map.mp inRows
    obtain ⟨rfl, rfl⟩ := Prod.mk.inj same
    simp only [Trace.rowsOf, List.mem_cons, reduceCtorEq, false_or,
      List.not_mem_nil, or_false, RowKey.destination.injEq] at isRow
    obtain ⟨sameId, sameDay, sameSlot⟩ := isRow
    exact ⟨posting, inBatch, of_decide_eq_true known, sameId.symm,
      sameDay.symm, sameSlot.symm, rfl⟩
  · rintro ⟨posting, member, known, rfl, rfl, rfl, rfl⟩
    refine List.mem_flatMap.mpr ⟨(idOf posting.username, posting), ?_, ?_⟩
    · exact List.mem_map.mpr
        ⟨posting, List.mem_filter.mpr ⟨member, decide_eq_true known⟩, rfl⟩
    · exact List.mem_map.mpr
        ⟨.destination (idOf posting.username) posting.date posting.slot,
          by simp [Trace.rowsOf, Posting.date, Posting.username], rfl⟩

section Committing

variable {idOf : String → Int} {batch : List Posting}
variable {deltas : List PendingDelta}

/-- Every record of a contribution has a delta for its row. -/
theorem Carries.delta {delta : PendingDelta} {postings : List Posting}
    (carries : Carries delta postings) {posting : Posting}
    (member : posting ∈ postings) (known : idOf posting.username ≠ 0) :
    ∃ dest ∈ delta.destsUnder idOf,
      destinationRowKey (destinationRowOf dest) = posting.row idOf := by
  obtain ⟨dest, listed, day, slot⟩ := carries.covers posting member
  have name := carries.names posting member
  rw [name] at known
  refine ⟨{ dest with userID := idOf delta.username }, ?_, ?_⟩
  · rw [PendingDelta.destsUnder, if_neg known]
    exact List.mem_map.mpr ⟨dest, listed, rfl⟩
  · rw [Posting.row, name, ← day, ← slot]
    rfl

theorem Stamped.delta (stamped : Stamped deltas batch) {posting : Posting}
    (member : posting ∈ batch) (known : idOf posting.username ≠ 0) :
    ∃ dest ∈ deltas.flatMap (PendingDelta.destsUnder idOf),
      destinationRowKey (destinationRowOf dest) = posting.row idOf := by
  obtain ⟨parts, rfl, carries, members, -⟩ := stamped.parts
  obtain ⟨part, listed, inside⟩ := (members posting).mp member
  obtain ⟨dest, found, row⟩ := (carries part listed).delta inside known
  exact ⟨dest, List.mem_flatMap.mpr
    ⟨part.1, List.mem_map_of_mem listed, found⟩, row⟩

/-- The last delta of a row has the stamp of the newest record that the
batch has for the row. -/
theorem Stamped.last (stamped : Stamped deltas batch)
    (apart : ∀ first second, idOf first ≠ 0 → idOf first = idOf second →
      first = second)
    {earlier later : List DestinationDelta} {last : DestinationDelta}
    (split : deltas.flatMap (PendingDelta.destsUnder idOf) =
      earlier ++ last :: later)
    (behind : ∀ other ∈ later, destinationRowKey (destinationRowOf other) ≠
      destinationRowKey (destinationRowOf last)) :
    ∃ newest ∈ batch, idOf newest.username ≠ 0 ∧
      newest.row idOf = destinationRowKey (destinationRowOf last) ∧
      last.lastSeen = unixMilli newest.millis ∧
      ∀ other ∈ batch, other.row idOf = newest.row idOf →
        other.millis ≤ newest.millis := by
  obtain ⟨parts, rfl, carries, members, ordered⟩ := stamped.parts
  obtain ⟨before, delta, after, early, late, whole, inside, rest⟩ :=
    flatMap_eq_split split
  obtain ⟨front, back, rfl, rfl, backMap⟩ := List.map_eq_append_iff.mp whole
  obtain ⟨part, tail, rfl, rfl, rfl⟩ := List.map_eq_cons_iff.mp backMap
  have carried : Carries part.1 part.2 := carries part (by simp)
  have here : last ∈ part.1.destsUnder idOf := by
    rw [inside]
    simp
  by_cases unknown : idOf part.1.username = 0
  · rw [PendingDelta.destsUnder, if_pos unknown] at here
    cases here
  rw [PendingDelta.destsUnder, if_neg unknown] at here
  obtain ⟨dest, listed, rfl⟩ := List.mem_map.mp here
  obtain ⟨newest, member, day, slot, stamp, above⟩ :=
    carried.stamped dest listed
  have name := carried.names newest member
  have row : newest.row idOf = destinationRowKey
      (destinationRowOf { dest with userID := idOf part.1.username }) := by
    rw [Posting.row, name, ← day, ← slot]
    rfl
  have known : idOf newest.username ≠ 0 := by
    rw [name]
    exact unknown
  refine ⟨newest, (members newest).mpr ⟨part, by simp, member⟩, known, row,
    stamp, ?_⟩
  intro other otherListed sameRow
  obtain ⟨id, date, counted⟩ := RowKey.destination.inj sameRow
  have same : SameCounter newest other :=
    ⟨apart _ _ known id.symm, date.symm, counted.symm⟩
  obtain ⟨home, inParts, inHome⟩ := (members other).mp otherListed
  rcases List.mem_append.mp inParts with inFront | inBack
  · -- An older contribution: this one is as new wherever both reach.
    have pair := (List.pairwise_append.mp ordered).2.2 home inFront part
      List.mem_cons_self
    obtain ⟨newer, newerListed, sameNewer, order⟩ :=
      pair other inHome newest member same
    have top := above newer newerListed (sameNewer.trans same.symm)
    omega
  · rcases List.mem_cons.mp inBack with rfl | inTail
    · exact above other inHome same.symm
    · -- A newer contribution would have stamped the row later.
      have real : idOf other.username ≠ 0 := by
        rw [id]
        exact known
      obtain ⟨dest, found, otherRow⟩ :=
        (carries home (by simp [inTail])).delta inHome real
      have late : dest ∈ later := by
        rw [rest]
        exact List.mem_append_right _ (List.mem_flatMap.mpr
          ⟨home.1, List.mem_map_of_mem inTail, found⟩)
      exact absurd (otherRow.trans (sameRow.trans row)) (behind dest late)

end Committing

/-! ## The flush that is under way -/

/-- What the aggregator, the retry batch and the flush hold carries the
records that have reached them, and the rows show when their records were
logged. -/
structure Seen (s : Pipeline) : Prop where
  follows : Follows s.aggregator s.trace.pending
  retry : Stamped s.retry s.trace.retried
  flight : ∀ deltas, s.flight = some deltas →
    Stamped deltas s.trace.batch
  resolving : ∀ resolution, s.loop = .resolving resolution →
    ∃ booked, resolution.Lists booked ∧
      IdsNamed s.host.database resolution.ids
  rows : LastSeenKept s

/-- What a step has to leave alone under the destinations that remain: the
records that are counted there. -/
structure Shrinks (s after : Pipeline) : Prop where
  rows : ∀ row ∈ after.host.database.destinationStats,
    row ∈ s.host.database.destinationStats
  fewer : ∀ booking ∈ after.trace.ledger, booking ∈ s.trace.ledger
  kept : ∀ row ∈ after.host.database.destinationStats, ∀ entry,
    (destinationRowKey row, entry) ∈ s.trace.ledger →
      (destinationRowKey row, entry) ∈ after.trace.ledger

/-- A step of the flush that brings a newest record to every row it
reaches. -/
def LoopPhase.BringsNewest (s : Pipeline) : LoopPhase → Prop
  | .draining =>
      s.queue = [] → TakesNewest s.trace.pending s.trace.retried
  | .resolving resolution =>
      resolution.remaining = [] →
        CommitsNewest resolution.idOf s.trace.batch s.trace.ledger
  | _ => True

def FlushesNewest (s : Pipeline) : PipelineAction → Prop
  | .loop _ => s.loop.BringsNewest s
  | _ => True

instance (s : Pipeline) : ∀ loop : LoopPhase, Decidable (loop.BringsNewest s)
  | .draining | .resolving _ => inferInstanceAs (Decidable (_ → _))
  | .waiting | .locating _ => isTrue trivial

instance (s : Pipeline) : ∀ action, Decidable (FlushesNewest s action)
  | .loop _ => inferInstanceAs (Decidable (s.loop.BringsNewest s))
  | .append _ | .store _ _ | .resetUsage _ _ _ | .prune _ _ | .tailer _ |
    .restart => isTrue trivial

section Steps

variable {s after : Pipeline}

theorem Shrinks.of_same
    (rows : after.host.database.destinationStats =
      s.host.database.destinationStats)
    (ledger : after.trace.ledger = s.trace.ledger) : Shrinks s after where
  rows := by simp [rows]
  fewer := by simp [ledger]
  kept := by simp [ledger]

theorem Shrinks.clear {gone : RowKey → Bool}
    (clears : Clears s.host.database after.host.database gone)
    (ledger : after.trace.ledger =
      s.trace.ledger.filter fun booking => !gone booking.1) :
    Shrinks s after where
  rows := by
    intro row listed
    rw [clears.destinations] at listed
    exact (mem_deleteWhere.mp listed).1
  fewer := by
    intro booking listed
    rw [ledger] at listed
    exact (List.mem_filter.mp listed).1
  kept := by
    intro row listed entry counted
    rw [clears.destinations] at listed
    have spared := (mem_deleteWhere.mp listed).2
    rw [ledger]
    exact List.mem_filter.mpr ⟨counted, by simp [spared]⟩

theorem LastSeenKept.shrink (kept : LastSeenKept s)
    (shrinks : Shrinks s after) : LastSeenKept after := by
  intro row listed
  obtain ⟨newest, ⟨⟨entry, counted, time⟩, latest⟩, stamp⟩ :=
    kept row (shrinks.rows row listed)
  refine ⟨newest, ⟨⟨entry, ?_, time⟩, ?_⟩, stamp⟩
  · exact shrinks.kept row listed entry counted
  · intro other counted
    exact latest other (shrinks.fewer _ counted)

/-- A change of the database that concerns neither the counters nor the
flush. -/
theorem Seen.shrink (seen : Seen s) (shrinks : Shrinks s after)
    (same : SameStages s after)
    (loop : ∀ resolution, after.loop = .resolving resolution →
      s.loop = .resolving resolution)
    (named : ∀ ids, IdsNamed s.host.database ids →
      IdsNamed after.host.database ids) : Seen after := by
  refine ⟨?_, ?_, ?_, ?_, seen.rows.shrink shrinks⟩
  · rw [same.aggregator, same.pending]
    exact seen.follows
  · rw [same.retry, same.retried]
    exact seen.retry
  · rw [same.flight, same.batch]
    exact seen.flight
  · intro resolution resolving
    obtain ⟨booked, lists, known⟩ :=
      seen.resolving resolution (loop resolution resolving)
    exact ⟨booked, lists, named _ known⟩

/-- A step that changes neither the database nor the ledger. -/
theorem Seen.of_same (seen : Seen s) (same : SameStages s after)
    (loop : ∀ resolution, after.loop = .resolving resolution →
      s.loop = .resolving resolution)
    (database : after.host.database = s.host.database)
    (ledger : after.trace.ledger = s.trace.ledger) : Seen after := by
  apply seen.shrink (.of_same (by rw [database]) ledger) same loop
  rw [database]
  exact fun _ known => known

/-- A record that is added is remembered under its slot. -/
theorem Follows.addEntry (follows : Follows s.aggregator s.trace.pending)
    (entry : Entry) :
    Follows (s.addEntry entry).aggregator
      (s.addEntry entry).trace.pending := by
  obtain ⟨live, users, cap, added⟩ := add_cases entry.record s.aggregator
  have before := follows.of_same users
  have slot : live.slot entry.record = s.aggregator.slot entry.record := by
    rw [Aggregator.slot, Aggregator.slot, Aggregator.dayOf,
      Aggregator.dayOf, Aggregator.day, Aggregator.day, users, cap]
  change Follows (s.aggregator.add entry.record)
    (s.trace.add entry (s.aggregator.slot entry.record)).pending
  rw [added, Trace.add]
  by_cases nobody : entry.record.unattributable = true
  · rw [if_pos nobody, if_pos nobody]
    exact before
  · rw [if_neg nobody, if_neg nobody, ← slot]
    exact before.addUser entry

theorem Seen.addEntry (seen : Seen s) (entry : Entry) :
    Seen (s.addEntry entry) := by
  have trace := s.trace.add_eq entry (s.aggregator.slot entry.record)
  have retried := (congrArg Trace.retried trace :)
  have batch := (congrArg Trace.batch trace :)
  have ledger := (congrArg Trace.ledger trace :)
  refine ⟨seen.follows.addEntry entry, ?_, ?_, seen.resolving, ?_⟩
  · change Stamped s.retry (s.trace.add entry _).retried
    rw [retried]
    exact seen.retry
  · intro deltas flying
    change Stamped deltas (s.trace.add entry _).batch
    rw [batch]
    exact seen.flight deltas flying
  · exact seen.rows.shrink (.of_same rfl ledger)

theorem Seen.take (seen : Seen s) (order : TakeOrder)
    (newest : TakesNewest s.trace.pending s.trace.retried) :
    Seen (s.takePending order) where
  follows := follows_empty rfl
  retry := stamped_nil
  flight := by
    intro deltas flying
    obtain rfl := Option.some.inj flying
    exact seen.retry.take seen.follows newest order
  resolving := fun _ resolving => (by cases resolving)
  rows := seen.rows.shrink (.of_same rfl rfl)

theorem Seen.restart [Build] {options : Options} (seen : Seen s) :
    Seen (s.restart options) where
  follows := follows_empty rfl
  retry := stamped_nil
  flight := fun _ flying => (by cases flying)
  resolving := fun _ resolving => (by cases resolving)
  rows := seen.rows.shrink (.of_same rfl rfl)

/-- The rows behind a committed flush. -/
theorem Seen.commit (seen : Seen s) {resolution : Resolution}
    {database : Database} {cursor : LogCursor}
    (resolving : s.loop = .resolving resolution)
    (finished : resolution.remaining = [])
    (done : executeAll
      (applyDeltasStatements resolution.usage resolution.dests cursor)
      s.host.database = .ok database)
    (newest : CommitsNewest resolution.idOf s.trace.batch s.trace.ledger)
    (result : after.host.database = database)
    (ledger : after.trace.ledger = s.trace.ledger ++
      (chargesOf resolution.idOf s.trace.batch).flatMap chargeRows) :
    LastSeenKept after := by
  obtain ⟨booked, lists, named⟩ := seen.resolving resolution resolving
  have flying : s.flight = some resolution.pending := by
    rw [Pipeline.flight, resolving]
  have stamped := seen.flight _ flying
  have dests : resolution.dests =
      resolution.pending.flatMap
        (PendingDelta.destsUnder resolution.idOf) := by
    rw [lists.dests, lists.split, finished, List.append_nil]
  have rows : after.host.database.destinationStats =
      resolution.dests.foldl addDelta s.host.database.destinationStats := by
    rw [result]
    exact destinations_applyDeltas done
  have apart : ∀ first second, resolution.idOf first ≠ 0 →
      resolution.idOf first = resolution.idOf second → first = second :=
    fun _ _ real same => named.idOf_inj real same
  intro row listed
  rw [rows] at listed
  rcases mem_foldl_addDelta listed with
    ⟨earlier, last, later, split, key, behind, stamp⟩ | ⟨untouched, old⟩
  · have rowKey : destinationRowKey (destinationRowOf last) =
        destinationRowKey row := rowKey_eq_iff.mpr key
    have unstamped : ∀ other ∈ later,
        destinationRowKey (destinationRowOf other) ≠
          destinationRowKey (destinationRowOf last) := by
      intro other member same
      exact behind other member (rowKey_eq_iff.mp (same.trans rowKey))
    obtain ⟨top, member, known, place, time, above⟩ :=
      stamped.last apart (dests.symm.trans split) unstamped
    have home : top.row resolution.idOf = destinationRowKey row :=
      place.trans rowKey
    refine ⟨top.millis, ⟨⟨top.entry, ?_, rfl⟩, ?_⟩, ?_⟩
    · rw [ledger, ← home]
      exact List.mem_append_right _ (mem_charged_destination.mpr
        ⟨top, member, known, rfl, rfl, rfl, rfl⟩)
    · intro entry counted
      rw [ledger, ← home] at counted
      rcases List.mem_append.mp counted with before | now
      · obtain ⟨newer, newerListed, same, order⟩ := newest top member known
        have below : entry.record.unixMillis ≤ newer.millis :=
          order (_, entry) before rfl
        have sameRow : newer.row resolution.idOf =
            top.row resolution.idOf := by
          rw [Posting.row, Posting.row, same.username, same.date, same.slot]
        have upper := above newer newerListed sameRow
        omega
      · obtain ⟨other, otherListed, -, id, day, slot, rfl⟩ :=
          mem_charged_destination.mp now
        apply above other otherListed
        rw [Posting.row, id, day, slot]
        rfl
    · rw [stamp, time]
  · obtain ⟨top, ⟨⟨entry, counted, time⟩, latest⟩, stamp⟩ :=
      seen.rows row old
    refine ⟨top, ⟨⟨entry, ?_, time⟩, ?_⟩, stamp⟩
    · rw [ledger]
      exact List.mem_append_left _ counted
    · intro other booked
      rw [ledger] at booked
      rcases List.mem_append.mp booked with before | now
      · exact latest other before
      · obtain ⟨posting, member, known, id, day, slot, -⟩ :=
          mem_charged_destination.mp now
        obtain ⟨dest, found, place⟩ := stamped.delta member known
        refine absurd (rowKey_eq_iff.mp (place.trans ?_))
          (untouched dest (by rw [dests]; exact found))
        rw [Posting.row, id, day, slot]
        rfl

end Steps

/-! ## Runs -/

theorem AccountChange.destinations {database after : Database}
    (change : AccountChange database after) :
    ∀ row ∈ after.destinationStats, row ∈ database.destinationStats := by
  intro row listed
  cases change with
  | kept after same sequence usage destinations cursor =>
      rw [← destinations]
      exact listed
  | created after name free added sequence usage destinations cursor =>
      rw [← destinations]
      exact listed
  | deleted id => exact (mem_deleteWhere.mp listed).1

/-- No row that is there before and behind a step goes back. -/
def NeverBack (s after : Pipeline) : Prop :=
  ∀ old ∈ s.host.database.destinationStats,
    ∀ new ∈ after.host.database.destinationStats, old.key = new.key →
      ∃ early late, early ≤ late ∧
        old.lastSeen = formatTime (unixMilli early) ∧
        new.lastSeen = formatTime (unixMilli late)

theorem never_back {s after : Pipeline}
    (counts : Shrinks s after ∨
      ∀ booking ∈ s.trace.ledger, booking ∈ after.trace.ledger)
    (before : LastSeenKept s) (behind : LastSeenKept after) :
    NeverBack s after := by
  intro old oldListed new newListed same
  have place : destinationRowKey old = destinationRowKey new :=
    rowKey_eq_iff.mpr same
  obtain ⟨early, ⟨⟨entry, counted, time⟩, -⟩, oldStamp⟩ :=
    before old oldListed
  obtain ⟨late, ⟨-, latest⟩, newStamp⟩ := behind new newListed
  rw [place] at counted
  have still : (destinationRowKey new, entry) ∈ after.trace.ledger := by
    rcases counts with shrinks | grows
    · exact shrinks.kept new newListed entry counted
    · exact grows _ counted
  have order := latest entry still
  exact ⟨early, late, by omega, oldStamp, newStamp⟩

/-- What a run keeps as long as its flushes bring newest records. -/
structure SeenRun (s : Pipeline) : Prop where
  charged : Charged s
  balanced : Balanced s
  seen : Seen s

theorem seenRun_initial (options : Options) :
    SeenRun (Pipeline.initial options) where
  charged := charged_initial options
  balanced := balanced_initial options
  seen := ⟨follows_empty rfl, stamped_nil, fun _ flying => (by cases flying),
    fun _ resolving => (by cases resolving), fun _ listed => (by cases listed)⟩

section Runs

variable [Build] {options : Options} {s after : Pipeline}
variable {action : PipelineAction}

/-- An account that is deleted takes its rows and its records along. -/
theorem shrinks_store (balanced : Balanced s)
    (op : UserOp) (choice : UserChoice) :
    Shrinks s (s.storeOp op choice) where
  rows := (accountChange_handle s.host op choice).destinations
  fewer := fun _ listed => (List.mem_filter.mp listed).1
  kept := by
    intro row listed entry counted
    have traffic :=
      (accountChange_handle s.host op choice).traffic balanced.traffic
    have owner := traffic.destinationOwners row listed
    exact List.mem_filter.mpr ⟨counted, decide_eq_true owner⟩

/-- A step that commits nothing only removes. -/
theorem shrinks_or_commits (balanced : Balanced s)
    (move : Move options s action after) :
    Shrinks s after ∨
      ∀ booking ∈ s.trace.ledger, booking ∈ after.trace.ledger := by
  cases move with
  | store op choice => exact .inl (shrinks_store balanced op choice)
  | reset id time failure database done =>
      exact .inl (.clear (clears_resetUsage done) rfl)
  | prune time failed => exact .inl (.clear (clears_prune _) rfl)
  | commit choice resolution database resolving finished done =>
      exact .inr fun booking listed => List.mem_append_left _ listed
  | direct | receive => exact .inl (.of_same rfl (add_ledger _ _ _))
  | _ => exact .inl (.of_same rfl rfl)

theorem Seen.move (seen : Seen s) (balanced : Balanced s)
    (move : Move options s action after)
    (newest : FlushesNewest s action) : Seen after := by
  have resolves := Resolving.move seen.resolving balanced move
  cases move with
  | stay => exact seen
  | append | poll | publish | handed | enqueue =>
      exact seen.of_same ⟨rfl, rfl, rfl, rfl, rfl, rfl, rfl, rfl⟩
        (fun _ resolving => resolving) rfl rfl
  | store op choice =>
      have change := accountChange_handle s.host op choice
      exact seen.shrink (shrinks_store balanced op choice)
        ⟨rfl, rfl, rfl, rfl, rfl, rfl, rfl, rfl⟩
        (fun _ resolving => resolving) fun _ named => named.change change
  | reset id time failure database done =>
      have clears := clears_resetUsage done
      exact seen.shrink (.clear clears rfl)
        ⟨rfl, rfl, rfl, rfl, rfl, rfl, rfl, rfl⟩
        (fun _ resolving => resolving)
        fun _ named => named.of_accounts
          (by rw [accounts, accounts]; exact congrArg _ clears.users)
          clears.sequence
  | prune time failed =>
      exact seen.shrink (.clear (clears_prune _) rfl)
        ⟨rfl, rfl, rfl, rfl, rfl, rfl, rfl, rfl⟩
        (fun _ resolving => resolving)
        fun _ named => named.of_accounts rfl rfl
  | direct choice entry rest handing waiting =>
      have moved : Seen
          { s with tailer := { s.tailer with phase := .handing rest } } :=
        seen.of_same ⟨rfl, rfl, rfl, rfl, rfl, rfl, rfl, rfl⟩
          (fun _ resolving => resolving) rfl rfl
      exact moved.addEntry entry
  | receive choice entry rest ready queued =>
      have moved : Seen { s with queue := rest } :=
        seen.of_same ⟨rfl, rfl, rfl, rfl, rfl, rfl, rfl, rfl⟩
          (fun _ resolving => resolving) rfl rfl
      exact moved.addEntry entry
  | drop =>
      exact ⟨seen.follows, seen.retry, seen.flight, seen.resolving,
        seen.rows.shrink (.of_same rfl rfl)⟩
  | beginFlush choice waiting =>
      have idle : s.flight = none := by rw [Pipeline.flight, waiting]
      exact seen.of_same
        ⟨rfl, idle.symm, rfl, rfl, rfl, rfl, rfl, rfl⟩
        (fun _ resolving => (by cases resolving)) rfl rfl
  | take choice draining drained =>
      rw [FlushesNewest, draining] at newest
      exact seen.take choice.order (newest drained)
  | skip choice locating same =>
      refine ⟨seen.follows, seen.retry, fun _ flying => (by cases flying),
        fun _ resolving => (by cases resolving),
        seen.rows.shrink (.of_same rfl rfl)⟩
  | locate choice pending locating =>
      have flying : s.flight = some pending := by
        rw [Pipeline.flight, locating]
      refine ⟨seen.follows, seen.retry, ?_, resolves,
        seen.rows.shrink (.of_same rfl rfl)⟩
      intro deltas same
      obtain rfl := Option.some.inj same
      exact seen.flight _ flying
  | resolve choice resolution delta rest id resolving next known =>
      have flying : s.flight = some resolution.pending := by
        rw [Pipeline.flight, resolving]
      refine ⟨seen.follows, seen.retry, ?_, resolves,
        seen.rows.shrink (.of_same rfl rfl)⟩
      intro deltas same
      obtain rfl := Option.some.inj same
      rw [resolution.charge_pending]
      exact seen.flight _ flying
  | learn choice resolution delta rest id resolving next new found =>
      have flying : s.flight = some resolution.pending := by
        rw [Pipeline.flight, resolving]
      refine ⟨seen.follows, seen.retry, ?_, resolves,
        seen.rows.shrink (.of_same rfl rfl)⟩
      intro deltas same
      obtain rfl := Option.some.inj same
      rw [(resolution.know delta.username id).charge_pending]
      exact seen.flight _ flying
  | keep choice resolution resolving =>
      have flying : s.flight = some resolution.pending := by
        rw [Pipeline.flight, resolving]
      exact ⟨seen.follows, seen.flight _ flying,
        fun _ flying => (by cases flying),
        fun _ resolving => (by cases resolving),
        seen.rows.shrink (.of_same rfl rfl)⟩
  | commit choice resolution database resolving finished done =>
      rw [FlushesNewest, resolving] at newest
      exact ⟨seen.follows, seen.retry, fun _ flying => (by cases flying),
        fun _ resolving => (by cases resolving),
        seen.commit resolving finished done (newest finished) rfl
          (commit_ledger _ _)⟩
  | restart => exact seen.restart

theorem seenRun_run {actions : List PipelineAction}
    (meets : Runs.Meets (Pipeline.step options) FlushesNewest actions
      (Pipeline.initial options)) :
    SeenRun (Runs.run (Pipeline.step options) actions
      (Pipeline.initial options)) := by
  apply run_invariant ?_ ?_ (seenRun_initial options) meets
  · rintro s action after move newest ⟨charged, balanced, seen⟩
    exact ⟨charged.move move, balanced.move charged move,
      seen.move balanced move newest⟩
  · rintro s ⟨charged, balanced, seen⟩
    exact ⟨charged.tick, balanced.tick,
      seen.of_same ⟨rfl, rfl, rfl, rfl, rfl, rfl, rfl, rfl⟩
        (fun _ resolving => resolving) rfl rfl⟩

/-- While every flush brings a newest record to each row it reaches, every
destination shows when its newest record was logged, and none goes back
from one state to the next. -/
theorem last_seen_kept (options : Options) {actions : List PipelineAction}
    (meets : Runs.Meets (Pipeline.step options) FlushesNewest actions
      (Pipeline.initial options)) :
    LastSeenKept (Runs.run (Pipeline.step options) actions
        (Pipeline.initial options)) ∧
      ∀ count, NeverBack
        (Runs.run (Pipeline.step options) (actions.take count)
          (Pipeline.initial options))
        (Runs.run (Pipeline.step options) (actions.take (count + 1))
          (Pipeline.initial options)) := by
  refine ⟨(seenRun_run meets).seen.rows, ?_⟩
  intro count
  have before := seenRun_run (meets.take count)
  have behind := (seenRun_run (meets.take (count + 1))).seen.rows
  rw [List.take_add_one] at behind ⊢
  cases found : actions[count]? with
  | none =>
      rw [found, Option.toList_none, List.append_nil] at behind
      rw [Option.toList_none, List.append_nil]
      exact never_back (.inr fun _ listed => listed) before.seen.rows behind
  | some action =>
      rw [found, Option.toList_some, Runs.run_append] at behind
      rw [Option.toList_some, Runs.run_append]
      -- The clock that ticks behind the action is not in the database.
      generalize Runs.run (Pipeline.step options) (actions.take count)
        (Pipeline.initial options) = s at before behind ⊢
      have counts := shrinks_or_commits before.balanced
        (@move_act _ options s action)
      have holds : NeverBack s (s.act options action) :=
        never_back counts before.seen.rows behind
      exact holds

end Runs

def roomyOptions : Options :=
  { sampleOptions with maxDestinationsPerUser := 10 }

def visitLine (stamp host : String) : String :=
  stamp ++ " proxy.3128 0 alice 10.0.0.1:40000 " ++ host ++
    ":80 10 20 0 GET /\n"

/-- Two visits, each with a flush of its own. -/
def calmVisits : List PipelineAction :=
  [createAccount "alice",
    .append (bytesOf (visitLine "1760380800.000" "a.example"))] ++
  tailerPass 1 ++ flushPass 1 1 ++
  [.append (bytesOf (visitLine "1760384400.000" "b.example"))] ++
  tailerPass 1 ++ flushPass 1 1

theorem calm_meets :
    Runs.Meets (@Pipeline.step Build.dev roomyOptions) FlushesNewest
      calmVisits (Pipeline.initial roomyOptions) := by
  decide +kernel

theorem last_seen_calm :
    LastSeenKept (Runs.run (@Pipeline.step Build.dev roomyOptions)
        calmVisits (Pipeline.initial roomyOptions)) ∧
      ∀ count, NeverBack
        (Runs.run (@Pipeline.step Build.dev roomyOptions)
          (calmVisits.take count) (Pipeline.initial roomyOptions))
        (Runs.run (@Pipeline.step Build.dev roomyOptions)
          (calmVisits.take (count + 1)) (Pipeline.initial roomyOptions)) :=
  @last_seen_kept Build.dev roomyOptions calmVisits calm_meets

/-- The same visits in one flush. -/
def hastyVisits : List PipelineAction :=
  [createAccount "alice",
    .append (bytesOf (visitLine "1760380800.000" "a.example")),
    .append (bytesOf (visitLine "1760384400.000" "b.example"))] ++
  tailerPass 2 ++ flushPass 2 1

def hastyState : Pipeline :=
  Runs.run (@Pipeline.step Build.dev roomyOptions) hastyVisits
    (Pipeline.initial roomyOptions)

theorem hasty_stamp :
    ∃ row ∈ hastyState.host.database.destinationStats,
      ∀ booking ∈ hastyState.trace.ledger,
        booking.1 = destinationRowKey row →
          row.lastSeen ≠
            formatTime (unixMilli booking.2.record.unixMillis) := by
  decide +kernel

/-- The first destination shows the time of the visit to the second. -/
theorem hasty_visits_share_stamp :
    ¬LastSeenKept (Runs.run (@Pipeline.step Build.dev roomyOptions)
      hastyVisits (Pipeline.initial roomyOptions)) := by
  intro kept
  have whole : LastSeenKept hastyState := kept
  obtain ⟨row, listed, stamped⟩ := hasty_stamp
  obtain ⟨newest, ⟨⟨entry, counted, rfl⟩, -⟩, stamp⟩ := whole row listed
  exact stamped _ counted rfl stamp

end Xoxproxy.Analytics
