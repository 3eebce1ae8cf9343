import Xoxproxy.Analytics.LastSeen

/-!
# The cap on destinations

The aggregator bounds the destinations of a user's day between two
flushes.  The rows of the day stay within the cap as long as no record
starts a counter for one more than the cap, those in the database and
those that wait for a flush included.
-/

namespace Xoxproxy.Analytics

open AssociationMaps RowTables Transactions

/-- The row counts a destination of its own, for the user and the day. -/
def ownDestination (id : Int) (day : String) (row : DestinationRow) :
    Bool :=
  row.userID = id && row.day = day && decide (row.host ≠ otherHost)

/-- No user has more destinations on a day than the cap allows. -/
def CapKept (options : Options) (s : Pipeline) : Prop :=
  ∀ id day, s.host.database.destinationStats.countP
    (ownDestination id day) ≤ options.maxDestinationsPerUser

def destinationSlot (row : DestinationRow) : DestKey :=
  ⟨row.host, row.port, row.protocol⟩

/-- The destinations in the rows of whoever has the username. -/
def storedSlots (database : Database) (name day : String) :
    List DestKey :=
  (database.destinationStats.filter fun row =>
    (row.userID, name) ∈ accounts database && row.day = day &&
      decide (row.host ≠ otherHost)).map destinationSlot

/-- The destinations of the records that wait under the username. -/
def waitingSlots (trace : Trace) (name day : String) : List DestKey :=
  (trace.waiting.filter fun posting =>
    posting.username = name && posting.date = day &&
      decide (posting.slot.host ≠ otherHost)).map Posting.slot

/-- The destinations of a day that are stored or wait. -/
def Pipeline.claimed (s : Pipeline) (name day : String) :
    Finset DestKey :=
  (storedSlots s.host.database name day ++
    waitingSlots s.trace name day).toFinset

/-- A record that is added under a destination of its own finds room for
it among those of its day. -/
def FitsCap [Build] (options : Options) (s : Pipeline)
    (action : PipelineAction) : Prop :=
  ∀ entry ∈ s.addedBy options action,
    entry.record.unattributable = false →
      (s.aggregator.slot entry.record).host ≠ otherHost →
        (insert (s.aggregator.slot entry.record)
          (s.claimed entry.record.username entry.record.day)).card ≤
            options.maxDestinationsPerUser

instance [Build] (options : Options) (s : Pipeline)
    (action : PipelineAction) : Decidable (FitsCap options s action) :=
  inferInstanceAs (Decidable (∀ entry ∈ s.addedBy options action, _))

theorem mem_claimed {s : Pipeline} {name day : String} {slot : DestKey} :
    slot ∈ s.claimed name day ↔ slot.host ≠ otherHost ∧
      ((∃ row ∈ s.host.database.destinationStats,
          (row.userID, name) ∈ accounts s.host.database ∧
            row.day = day ∧ destinationSlot row = slot) ∨
        ∃ posting ∈ s.trace.waiting, posting.username = name ∧
          posting.date = day ∧ posting.slot = slot) := by
  simp only [Pipeline.claimed, List.mem_toFinset, List.mem_append,
    storedSlots, waitingSlots, List.mem_map, List.mem_filter,
    Bool.and_eq_true, decide_eq_true_eq]
  constructor
  · rintro (⟨row, ⟨listed, ⟨owner, day⟩, own⟩, rfl⟩ |
      ⟨posting, ⟨listed, ⟨name, day⟩, own⟩, rfl⟩)
    · exact ⟨own, .inl ⟨row, listed, owner, day, rfl⟩⟩
    · exact ⟨own, .inr ⟨posting, listed, name, day, rfl⟩⟩
  · rintro ⟨own, ⟨row, listed, owner, day, rfl⟩ |
      ⟨posting, listed, name, day, rfl⟩⟩
    · exact .inl ⟨row, ⟨listed, ⟨owner, day⟩, own⟩, rfl⟩
    · exact .inr ⟨posting, ⟨listed, ⟨name, day⟩, own⟩, rfl⟩

/-- Every destination of the contributions is that of one of the
records. -/
def Originate (deltas : List PendingDelta) (postings : List Posting) :
    Prop :=
  ∀ delta ∈ deltas, ∀ dest ∈ delta.dests, ∃ posting ∈ postings,
    posting.username = delta.username ∧ posting.date = dest.day ∧
      posting.slot = destinationKey dest

theorem originate_append {first second : List PendingDelta}
    {early late : List Posting} (before : Originate first early)
    (behind : Originate second late) :
    Originate (first ++ second) (early ++ late) := by
  intro delta listed dest member
  rcases List.mem_append.mp listed with old | new
  · obtain ⟨posting, found, same⟩ := before delta old dest member
    exact ⟨posting, List.mem_append_left _ found, same⟩
  · obtain ⟨posting, found, same⟩ := behind delta new dest member
    exact ⟨posting, List.mem_append_right _ found, same⟩

/-- What is taken from the aggregator comes from its pending records. -/
theorem Follows.originate {aggregator : Aggregator}
    {pending : List Posting} (follows : Follows aggregator pending)
    (order : TakeOrder) :
    Originate (aggregator.takePending order).1 pending := by
  intro delta listed dest member
  obtain ⟨reordered, permuted, visited⟩ :=
    order.visits (aggregator.users.map fun entry =>
      pendingDelta entry.1 entry.2)
  obtain ⟨original, source, same⟩ := mem_of_forall₂ visited listed
  obtain ⟨entry, user, rfl⟩ := List.mem_map.mp (permuted.mem_iff.mp source)
  have origin := same.dests.mem_iff.mp member
  obtain ⟨day, dayListed, counted⟩ := List.mem_flatMap.mp origin
  obtain ⟨counter, counterListed, rfl⟩ := List.mem_map.mp counted
  obtain ⟨posting, found, name, date, slot⟩ :=
    (follows.users entry user).counted day dayListed counter.1
      (List.mem_map_of_mem counterListed)
  exact ⟨posting, found, name.trans same.username.symm, date, slot⟩

/-- What the aggregator, the retry batch and the flush hold comes from the
records that wait. -/
structure Sourced (s : Pipeline) : Prop where
  follows : Follows s.aggregator s.trace.pending
  retry : Originate s.retry s.trace.retried
  flight : ∀ deltas, s.flight = some deltas →
    Originate deltas s.trace.batch
  resolving : Resolving s

/-- Nothing is claimed that was not claimed before. -/
def ClaimsNoMore (s after : Pipeline) : Prop :=
  ∀ name day, after.claimed name day ⊆ s.claimed name day

section Claims

variable {s after : Pipeline}

theorem claimsNoMore_of
    (rows : ∀ row ∈ after.host.database.destinationStats,
      row ∈ s.host.database.destinationStats)
    (owners : ∀ row ∈ after.host.database.destinationStats, ∀ name,
      (row.userID, name) ∈ accounts after.host.database →
        (row.userID, name) ∈ accounts s.host.database)
    (waiting : ∀ posting ∈ after.trace.waiting,
      posting ∈ s.trace.waiting) : ClaimsNoMore s after := by
  intro name day slot claimed
  rw [mem_claimed] at claimed ⊢
  obtain ⟨own, ⟨row, listed, owner, same⟩ | ⟨posting, listed, same⟩⟩ :=
    claimed
  · exact ⟨own, .inl ⟨row, rows row listed, owners row listed name owner,
      same⟩⟩
  · exact ⟨own, .inr ⟨posting, waiting posting listed, same⟩⟩

theorem claimsNoMore_of_same
    (database : after.host.database = s.host.database)
    (waiting : ∀ posting ∈ after.trace.waiting,
      posting ∈ s.trace.waiting) : ClaimsNoMore s after := by
  apply claimsNoMore_of
  · rw [database]
    exact fun _ listed => listed
  · rw [database]
    exact fun _ _ _ owner => owner
  · exact waiting

theorem claimsNoMore_clear {gone : RowKey → Bool}
    (clears : Clears s.host.database after.host.database gone)
    (waiting : after.trace.waiting = s.trace.waiting) :
    ClaimsNoMore s after := by
  apply claimsNoMore_of
  · intro row listed
    rw [clears.destinations] at listed
    exact (mem_deleteWhere.mp listed).1
  · intro row _ name owner
    rw [accounts, clears.users] at owner
    exact owner
  · rw [waiting]
    exact fun _ listed => listed

/-- Whoever has a row after a change had it before. -/
theorem AccountChange.owners {before behind : Database}
    (change : AccountChange before behind)
    (users : Consistent before) (traffic : TrafficConsistent before)
    {row : DestinationRow} (listed : row ∈ before.destinationStats)
    {name : String} (owner : (row.userID, name) ∈ accounts behind) :
    (row.userID, name) ∈ accounts before := by
  cases change with
  | kept _ same =>
      rw [← same]
      exact owner
  | created _ other free added sequence =>
      rw [added] at owner
      rcases List.mem_append.mp owner with old | new
      · exact old
      · obtain ⟨fresh, -⟩ := Prod.mk.inj (List.mem_singleton.mp new)
        obtain ⟨user, there, same⟩ :=
          List.mem_map.mp (traffic.destinationOwners row listed)
        have issued := (users.issued user there).2
        omega
  | deleted id =>
      obtain ⟨user, there, same⟩ := List.mem_map.mp owner
      exact List.mem_map.mpr ⟨user, (mem_deleteWhere.mp there).1, same⟩

/-- A record that is added claims its own destination at most. -/
theorem claimed_addEntry (entry : Entry) {name day : String}
    {slot : DestKey} (claimed : slot ∈ (s.addEntry entry).claimed name day) :
    slot ∈ s.claimed name day ∨
      entry.record.unattributable = false ∧ slot.host ≠ otherHost ∧
        entry.record.username = name ∧ entry.record.day = day ∧
        slot = s.aggregator.slot entry.record := by
  rw [mem_claimed] at claimed
  obtain ⟨own, stored | ⟨posting, listed, same⟩⟩ := claimed
  · exact .inl (mem_claimed.mpr ⟨own, .inl stored⟩)
  · by_cases nobody : entry.record.unattributable = true
    · have trace : (s.addEntry entry).trace.waiting = s.trace.waiting := by
        rw [Pipeline.addEntry, Trace.add, if_pos nobody]
        rfl
      rw [trace] at listed
      exact .inl (mem_claimed.mpr ⟨own, .inr ⟨posting, listed, same⟩⟩)
    · have trace : (s.addEntry entry).trace.waiting =
          s.trace.waiting ++ [⟨entry, s.aggregator.slot entry.record⟩] := by
        rw [Pipeline.addEntry, Trace.add, if_neg nobody]
        exact (List.append_assoc _ _ _).symm
      rw [trace] at listed
      rcases List.mem_append.mp listed with old | new
      · exact .inl (mem_claimed.mpr ⟨own, .inr ⟨posting, old, same⟩⟩)
      · rw [List.mem_singleton.mp new] at same
        obtain ⟨username, date, slots⟩ := same
        exact .inr ⟨by simpa using nobody, own, username, date, slots.symm⟩

/-- A row behind a committed flush is an old one, or that of a record in
the flush. -/
theorem Sourced.committed_row (sourced : Sourced s)
    {resolution : Resolution} {database : Database} {cursor : LogCursor}
    (resolving : s.loop = .resolving resolution)
    (finished : resolution.remaining = [])
    (done : executeAll
      (applyDeltasStatements resolution.usage resolution.dests cursor)
      s.host.database = .ok database)
    {row : DestinationRow} (listed : row ∈ database.destinationStats)
    {name : String} (owner : (row.userID, name) ∈ accounts s.host.database) :
    row ∈ s.host.database.destinationStats ∨
      ∃ posting ∈ s.trace.batch, posting.username = name ∧
        posting.date = row.day ∧ posting.slot = destinationSlot row := by
  obtain ⟨booked, lists, named⟩ := sourced.resolving resolution resolving
  have flying : s.flight = some resolution.pending := by
    rw [Pipeline.flight, resolving]
  rw [destinations_applyDeltas done] at listed
  rcases mem_foldl_addDelta listed with
    ⟨earlier, last, later, split, key, -, -⟩ | ⟨-, old⟩
  · have member : last ∈ resolution.dests := by simp [split]
    rw [lists.dests] at member
    obtain ⟨delta, inBooked, under⟩ := List.mem_flatMap.mp member
    by_cases unknown : resolution.idOf delta.username = 0
    · rw [PendingDelta.destsUnder, if_pos unknown] at under
      cases under
    rw [PendingDelta.destsUnder, if_neg unknown] at under
    obtain ⟨dest, inDelta, rfl⟩ := List.mem_map.mp under
    have inPending : delta ∈ resolution.pending := by
      rw [lists.split, finished, List.append_nil]
      exact inBooked
    obtain ⟨posting, found, username, date, slot⟩ :=
      sourced.flight _ flying delta inPending dest inDelta
    have place := rowKey_eq_iff.mpr key
    obtain ⟨id, day, counted⟩ := RowKey.destination.inj place
    have pair : (delta.username, resolution.idOf delta.username) ∈
        resolution.ids := by
      unfold Resolution.idOf at unknown ⊢
      cases known : find? delta.username resolution.ids with
      | none =>
          rw [known] at unknown
          exact absurd rfl unknown
      | some id => exact find?_mem known
    have same : name = delta.username :=
      named.named _ pair _ owner id.symm
    exact .inr ⟨posting, found, username.trans same.symm,
      date.trans day, slot.trans counted⟩
  · exact .inl old

/-- What a committed flush stores was claimed by its records. -/
theorem Sourced.commit (sourced : Sourced s)
    {resolution : Resolution} {database : Database} {cursor : LogCursor}
    (resolving : s.loop = .resolving resolution)
    (finished : resolution.remaining = [])
    (done : executeAll
      (applyDeltasStatements resolution.usage resolution.dests cursor)
      s.host.database = .ok database)
    (result : after.host.database = database)
    (waiting : ∀ posting ∈ after.trace.waiting,
      posting ∈ s.trace.waiting) : ClaimsNoMore s after := by
  obtain ⟨books, -⟩ := books_applyDeltas done
  intro name day slot claimed
  rw [mem_claimed] at claimed ⊢
  obtain ⟨own, ⟨row, listed, owner, rfl, rfl⟩ | ⟨posting, listed, same⟩⟩ :=
    claimed
  · rw [result] at listed owner
    rw [books.accounts] at owner
    refine ⟨own, ?_⟩
    rcases sourced.committed_row resolving finished done listed owner with
      old | ⟨posting, found, same⟩
    · exact .inl ⟨row, old, owner, rfl, rfl⟩
    · refine .inr ⟨posting, ?_, same⟩
      rw [Trace.waiting]
      simp [found]
  · exact ⟨own, .inr ⟨posting, waiting posting listed, same⟩⟩

theorem Sourced.of_same (sourced : Sourced s) (same : SameStages s after)
    (resolving : Resolving after) : Sourced after := by
  refine ⟨?_, ?_, ?_, resolving⟩
  · rw [same.aggregator, same.pending]
    exact sourced.follows
  · rw [same.retry, same.retried]
    exact sourced.retry
  · rw [same.flight, same.batch]
    exact sourced.flight

theorem Sourced.addEntry (sourced : Sourced s) (entry : Entry) :
    Sourced (s.addEntry entry) := by
  have trace := s.trace.add_eq entry (s.aggregator.slot entry.record)
  have retried := (congrArg Trace.retried trace :)
  have batch := (congrArg Trace.batch trace :)
  refine ⟨sourced.follows.addEntry entry, ?_, ?_, sourced.resolving⟩
  · change Originate s.retry (s.trace.add entry _).retried
    rw [retried]
    exact sourced.retry
  · intro deltas flying
    change Originate deltas (s.trace.add entry _).batch
    rw [batch]
    exact sourced.flight deltas flying

end Claims

/-! ## Runs -/

section Runs

variable [Build] {options : Options} {s after : Pipeline}
variable {action : PipelineAction}

theorem Sourced.move (sourced : Sourced s) (balanced : Balanced s)
    (move : Move options s action after) : Sourced after := by
  have resolves := sourced.resolving.move balanced move
  cases move with
  | stay => exact sourced
  | direct choice entry rest handing waiting =>
      have moved : Sourced
          { s with tailer := { s.tailer with phase := .handing rest } } :=
        sourced.of_same ⟨rfl, rfl, rfl, rfl, rfl, rfl, rfl, rfl⟩
          (sourced.resolving.of_same (fun _ same => same) fun _ named =>
            named)
      exact moved.addEntry entry
  | receive choice entry rest ready queued =>
      have moved : Sourced { s with queue := rest } :=
        sourced.of_same ⟨rfl, rfl, rfl, rfl, rfl, rfl, rfl, rfl⟩
          (sourced.resolving.of_same (fun _ same => same) fun _ named =>
            named)
      exact moved.addEntry entry
  | drop => exact ⟨sourced.follows, sourced.retry, sourced.flight, resolves⟩
  | beginFlush choice waiting =>
      refine ⟨sourced.follows, sourced.retry, ?_, resolves⟩
      exact fun _ flying => by cases flying
  | take choice draining drained =>
      refine ⟨follows_empty rfl, fun _ none => (by cases none), ?_, resolves⟩
      intro deltas flying
      obtain rfl := Option.some.inj flying
      exact originate_append sourced.retry
        (sourced.follows.originate choice.order)
  | skip | commit =>
      exact ⟨sourced.follows, sourced.retry, fun _ flying => (by cases flying),
        resolves⟩
  | locate choice pending locating =>
      refine ⟨sourced.follows, sourced.retry, ?_, resolves⟩
      intro deltas same
      obtain rfl := Option.some.inj same
      apply sourced.flight
      rw [Pipeline.flight, locating]
  | resolve choice resolution delta rest id resolving next known =>
      refine ⟨sourced.follows, sourced.retry, ?_, resolves⟩
      intro deltas same
      obtain rfl := Option.some.inj same
      rw [resolution.charge_pending]
      apply sourced.flight
      rw [Pipeline.flight, resolving]
  | learn choice resolution delta rest id resolving next new found =>
      refine ⟨sourced.follows, sourced.retry, ?_, resolves⟩
      intro deltas same
      obtain rfl := Option.some.inj same
      rw [(resolution.know delta.username id).charge_pending]
      apply sourced.flight
      rw [Pipeline.flight, resolving]
      rfl
  | keep choice resolution resolving =>
      have flying : s.flight = some resolution.pending := by
        rw [Pipeline.flight, resolving]
      exact ⟨sourced.follows, sourced.flight _ flying,
        fun _ flying => (by cases flying), resolves⟩
  | restart =>
      exact ⟨follows_empty rfl, fun _ none => (by cases none),
        fun _ flying => (by cases flying), resolves⟩
  | _ =>
      exact sourced.of_same ⟨rfl, rfl, rfl, rfl, rfl, rfl, rfl, rfl⟩
        resolves

/-- Only a record that is added claims a destination. -/
theorem claims_move (sourced : Sourced s) (balanced : Balanced s)
    (move : Move options s action after) :
    ClaimsNoMore s after ∨
      ∃ entry, s.addedBy options action = some entry ∧
        ∀ {name day slot}, slot ∈ after.claimed name day →
          slot ∈ s.claimed name day ∨
            entry.record.unattributable = false ∧ slot.host ≠ otherHost ∧
              entry.record.username = name ∧ entry.record.day = day ∧
              slot = s.aggregator.slot entry.record := by
  cases move with
  | direct choice entry rest handing waiting unbuffered added =>
      exact .inr ⟨entry, added, fun claimed => claimed_addEntry entry
        claimed⟩
  | receive choice entry rest ready queued added =>
      exact .inr ⟨entry, added, fun claimed => claimed_addEntry entry
        claimed⟩
  | store op choice =>
      have change := accountChange_handle s.host op choice
      refine .inl (claimsNoMore_of change.destinations ?_ fun _ old => old)
      intro row listed name owner
      exact change.owners balanced.users balanced.traffic
        (change.destinations row listed) owner
  | reset id time failure database done =>
      exact .inl (claimsNoMore_clear (clears_resetUsage done) rfl)
  | prune time failed =>
      exact .inl (claimsNoMore_clear (clears_prune _) rfl)
  | take choice draining drained =>
      refine .inl (claimsNoMore_of_same rfl fun posting listed => ?_)
      have split : posting ∈ s.trace.retried ∨ posting ∈ s.trace.pending := by
        simpa [Trace.waiting, Pipeline.takePending, Trace.take] using listed
      rcases split with old | new <;> simp [Trace.waiting, *]
  | keep choice resolution resolving =>
      refine .inl (claimsNoMore_of_same rfl fun posting listed => ?_)
      have split : posting ∈ s.trace.batch ∨ posting ∈ s.trace.pending := by
        simpa [Trace.waiting, Pipeline.keepBatch, Trace.keep] using listed
      rcases split with old | new <;> simp [Trace.waiting, *]
  | commit choice resolution database resolving finished done =>
      refine .inl (sourced.commit resolving finished done rfl
        fun posting listed => ?_)
      have split : posting ∈ s.trace.retried ∨ posting ∈ s.trace.pending := by
        simpa [Trace.waiting, Trace.commit] using listed
      rcases split with old | new <;> simp [Trace.waiting, *]
  | restart =>
      exact .inl (claimsNoMore_of_same rfl fun _ none => by cases none)
  | _ => exact .inl (claimsNoMore_of_same rfl fun _ old => old)

/-- What a run keeps as long as its records fit. -/
structure Fitting (options : Options) (s : Pipeline) : Prop where
  charged : Charged s
  balanced : Balanced s
  sourced : Sourced s
  fits : ∀ name day,
    (s.claimed name day).card ≤ options.maxDestinationsPerUser

theorem Fitting.move (fitting : Fitting options s)
    (move : Move options s action after)
    (room : FitsCap options s action) : Fitting options after := by
  obtain ⟨charged, balanced, sourced, fits⟩ := fitting
  refine ⟨charged.move move, balanced.move charged move,
    sourced.move balanced move, fun name day => ?_⟩
  rcases claims_move sourced balanced move with fewer | ⟨entry, added, one⟩
  · exact (Finset.card_le_card (fewer name day)).trans (fits name day)
  · by_cases grows : after.claimed name day ⊆ s.claimed name day
    · exact (Finset.card_le_card grows).trans (fits name day)
    · obtain ⟨slot, claimed, fresh⟩ := Finset.not_subset.mp grows
      rcases one claimed with old | ⟨somebody, own, rfl, rfl, rfl⟩
      · exact absurd old fresh
      · refine (Finset.card_le_card ?_).trans
          (room entry added somebody own)
        intro other member
        rcases one member with old | ⟨-, -, -, -, rfl⟩
        · exact Finset.mem_insert_of_mem old
        · exact Finset.mem_insert_self _ _

omit [Build] in
/-- The rows of one user and day have different destinations. -/
theorem nodup_ownSlots (balanced : Balanced s) (id : Int) (day : String) :
    ((s.host.database.destinationStats.filter
      (ownDestination id day)).map destinationSlot).Nodup := by
  have unique : (s.host.database.destinationStats.filter
      (ownDestination id day)).Nodup :=
    (List.Nodup.of_map _ balanced.traffic.destinationKeys).filter _
  refine unique.map_on fun first one second two same => ?_
  obtain ⟨firstListed, firstOwn⟩ := List.mem_filter.mp one
  obtain ⟨secondListed, secondOwn⟩ := List.mem_filter.mp two
  simp only [ownDestination, Bool.and_eq_true, decide_eq_true_eq]
    at firstOwn secondOwn
  have place : destinationRowKey first = destinationRowKey second := by
    rw [destinationRowKey, destinationRowKey, firstOwn.1.1, firstOwn.1.2,
      secondOwn.1.1, secondOwn.1.2]
    exact congrArg _ same
  exact List.inj_on_of_nodup_map balanced.traffic.destinationKeys
    firstListed secondListed (rowKey_eq_iff.mp place)

omit [Build] in
/-- The destinations of a user are claimed under the username. -/
theorem Fitting.capKept (fitting : Fitting options s) :
    CapKept options s := by
  intro id day
  by_cases known : ∃ name, (id, name) ∈ accounts s.host.database
  · obtain ⟨name, owner⟩ := known
    have subset : ((s.host.database.destinationStats.filter
        (ownDestination id day)).map destinationSlot).toFinset ⊆
          s.claimed name day := by
      intro slot member
      obtain ⟨row, filtered, rfl⟩ :=
        List.mem_map.mp (List.mem_toFinset.mp member)
      obtain ⟨listed, own⟩ := List.mem_filter.mp filtered
      simp only [ownDestination, Bool.and_eq_true, decide_eq_true_eq] at own
      obtain ⟨⟨rfl, date⟩, other⟩ := own
      exact mem_claimed.mpr ⟨other, .inl ⟨row, listed, owner, date, rfl⟩⟩
    have card := Finset.card_le_card subset
    rw [List.toFinset_card_of_nodup (nodup_ownSlots fitting.balanced id day),
      List.length_map, ← List.countP_eq_length_filter] at card
    exact card.trans (fitting.fits name day)
  · have none : s.host.database.destinationStats.countP
        (ownDestination id day) = 0 := by
      rw [List.countP_eq_zero]
      intro row listed own
      simp only [ownDestination, Bool.and_eq_true, decide_eq_true_eq] at own
      obtain ⟨⟨rfl, -⟩, -⟩ := own
      obtain ⟨user, there, same⟩ := List.mem_map.mp
        (fitting.balanced.traffic.destinationOwners row listed)
      refine known ⟨user.username, List.mem_map.mpr ⟨user, there, ?_⟩⟩
      rw [same]
    omega

omit [Build] in
theorem fitting_initial (options : Options) :
    Fitting options (Pipeline.initial options) where
  charged := charged_initial options
  balanced := balanced_initial options
  sourced := ⟨follows_empty rfl, fun _ none => (by cases none),
    fun _ flying => (by cases flying),
    fun _ resolving => (by cases resolving)⟩
  fits := fun _ _ => Nat.zero_le _

/-- While every record that starts a destination finds room for it, the
database holds no more destinations of a user and day than the cap
allows. -/
theorem destination_cap_kept (options : Options)
    {actions : List PipelineAction}
    (fits : Runs.Meets (Pipeline.step options) (FitsCap options) actions
      (Pipeline.initial options)) :
    CapKept options (Runs.run (Pipeline.step options) actions
      (Pipeline.initial options)) := by
  have kept : Fitting options (Runs.run (Pipeline.step options) actions
      (Pipeline.initial options)) := by
    apply run_invariant ?_ ?_ (fitting_initial options) fits
    · intro s action after move room fitting
      exact fitting.move move room
    · rintro s ⟨charged, balanced, sourced, fits⟩
      exact ⟨charged.tick, balanced.tick,
        sourced.of_same ⟨rfl, rfl, rfl, rfl, rfl, rfl, rfl, rfl⟩
          (sourced.resolving.of_same (fun _ same => same) fun _ named =>
            named), fits⟩
  exact kept.capKept

end Runs

/-- The smallest cap that the configuration allows. -/
def crowdedOptions : Options :=
  { roomyOptions with queueSize := 16 }

/-- One visit to each of some hosts, on the first day of 1970. -/
def visits (hosts : List Char) : Bytes :=
  bytesOf (String.join (hosts.map fun host =>
    "0 p.1 0 alice 1.1.1.1:1 " ++ String.singleton host ++ ":1 1 2 0\n"))

/-- Two destinations in one flush. -/
def oneFlush : List PipelineAction :=
  [createAccount "alice", .append (visits ['a', 'b'])] ++
    tailerPass 2 ++ flushPass 2 1

theorem one_flush_fits :
    Runs.Meets (@Pipeline.step Build.dev crowdedOptions)
      (@FitsCap Build.dev crowdedOptions) oneFlush
      (Pipeline.initial crowdedOptions) := by
  decide +kernel

theorem one_flush_capped :
    CapKept crowdedOptions (Runs.run
      (@Pipeline.step Build.dev crowdedOptions) oneFlush
        (Pipeline.initial crowdedOptions)) :=
  @destination_cap_kept Build.dev crowdedOptions oneFlush one_flush_fits

def tenHosts : List Char :=
  ['a', 'b', 'c', 'd', 'e', 'f', 'g', 'h', 'i', 'j']

/-- Ten destinations in one flush, and another one in the next. -/
def twoFlushes : List PipelineAction :=
  [createAccount "alice", .append (visits tenHosts)] ++
    tailerPass 10 ++ flushPass 10 1 ++
  [.append (visits ['k'])] ++ tailerPass 1 ++ flushPass 1 1

theorem two_flushes_rows :
    (Runs.run (@Pipeline.step Build.dev crowdedOptions) twoFlushes
        (Pipeline.initial
          crowdedOptions)).host.database.destinationStats.countP
            (ownDestination 1 "1970-01-01") = 11 := by
  decide +kernel

theorem two_flushes_exceed_cap :
    ¬CapKept crowdedOptions
      (Runs.run (@Pipeline.step Build.dev crowdedOptions) twoFlushes
        (Pipeline.initial crowdedOptions)) := by
  intro kept
  have bound := kept 1 "1970-01-01"
  rw [two_flushes_rows] at bound
  exact absurd bound (by decide)

end Xoxproxy.Analytics
