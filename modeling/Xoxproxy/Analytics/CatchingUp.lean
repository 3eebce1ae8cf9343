import Xoxproxy.Analytics.ChargedOnce
import Xoxproxy.Analytics.DatedRuns

/-!
# Catching up

The goroutines can always finish their work: from every state of a run they
reach, by steps of their own at which nothing fails, one where the whole log
is behind the cursor and nothing is on its way to the ledger.  Nothing is
dropped meanwhile.
-/

namespace Xoxproxy.Analytics

open AssociationMaps RowTables Transactions Tallies

/-- A step of the tailer or of the service loop at which nothing fails. -/
def Calm : PipelineAction → Prop
  | .tailer choice => choice.readable = true ∧ choice.lines = none
  | .loop choice => choice.lookupFails = false ∧ choice.failure = none
  | _ => False

/-- Whatever was looked up and booked so far belongs to users that are
there. -/
structure Refers (database : Database) (resolution : Resolution) : Prop where
  ids : ∀ pair ∈ resolution.ids,
    pair.2 = 0 ∨ pair.2 ∈ database.users.map UserRow.id
  usage : ∀ delta ∈ resolution.usage,
    delta.userID ∈ database.users.map UserRow.id
  dests : ∀ delta ∈ resolution.dests,
    delta.userID ∈ database.users.map UserRow.id

theorem Refers.know {database : Database} {resolution : Resolution}
    (refers : Refers database resolution) (username : String) {id : Int}
    (known : id = 0 ∨ id ∈ database.users.map UserRow.id) :
    Refers database (resolution.know username id) where
  ids := List.forall_mem_append.mpr
    ⟨refers.ids, List.forall_mem_singleton.mpr known⟩
  usage := refers.usage
  dests := refers.dests

theorem Refers.charge {database : Database} {resolution : Resolution}
    (refers : Refers database resolution) (delta : PendingDelta)
    (rest : List PendingDelta) {id : Int}
    (known : id = 0 ∨ id ∈ database.users.map UserRow.id) :
    Refers database (resolution.charge delta rest id) := by
  by_cases nobody : id = 0
  · rw [Resolution.charge, if_pos nobody]
    exact ⟨refers.ids, refers.usage, refers.dests⟩
  · have owner := known.resolve_left nobody
    rw [Resolution.charge, if_neg nobody]
    refine ⟨refers.ids, List.forall_mem_append.mpr ⟨refers.usage, ?_⟩,
      List.forall_mem_append.mpr ⟨refers.dests, ?_⟩⟩
    · exact List.forall_mem_map.mpr fun _ _ => owner
    · exact List.forall_mem_map.mpr fun _ _ => owner

theorem charge_remaining (resolution : Resolution) (delta : PendingDelta)
    (rest : List PendingDelta) (id : Int) :
    (resolution.charge delta rest id).remaining = rest := by
  by_cases nobody : id = 0
  · rw [Resolution.charge, if_pos nobody]
  · rw [Resolution.charge, if_neg nobody]

theorem referring_there {database changed : Database} {userID : Int}
    (there : userID ∈ database.users.map UserRow.id) :
    database.referring userID changed = .ok changed := by
  unfold Database.referring
  cases found : database.userRow userID with
  | some row => rfl
  | none =>
      obtain ⟨row, listed, same⟩ := List.mem_map.mp there
      exact absurd same (lookup_eq_none_iff.mp found row listed)

/-- A batch of users that are there is applied. -/
theorem Refers.applies {database : Database} {resolution : Resolution}
    (refers : Refers database resolution) (cursor : LogCursor) :
    ∃ after, executeAll (applyDeltasStatements resolution.usage
      resolution.dests cursor) database = .ok after := by
  let sameIDs := fun world : Database =>
    world.users.map UserRow.id = database.users.map UserRow.id
  refine @executeAll_succeeds _ _ _ _ sameIDs ?_ rfl
  intro statement member before same
  unfold applyDeltasStatements at member
  rcases List.mem_append.mp member with traffic | last
  · rcases List.mem_append.mp traffic with ledger | destination
    · obtain ⟨delta, listed, inDelta⟩ := List.mem_flatMap.mp ledger
      have owner : delta.userID ∈ before.users.map UserRow.id := by
        rw [show before.users.map UserRow.id = _ from same]
        exact refers.usage delta listed
      rcases List.mem_append.mp inDelta with upserts | stamp
      · rcases List.mem_pair.mp upserts with rfl | rfl
        · exact ⟨_, referring_there owner, same⟩
        · exact ⟨_, referring_there owner, same⟩
      · by_cases positive : 0 < delta.lastSeenUnix
        · rw [if_pos positive, List.mem_singleton] at stamp
          subst stamp
          refine ⟨_, rfl, Eq.trans ?_ same⟩
          exact ids_of_accounts
            (accounts_updateWhere (fun _ => rfl) fun _ => rfl)
        · rw [if_neg positive] at stamp
          cases stamp
    · obtain ⟨delta, listed, rfl⟩ := List.mem_map.mp destination
      have owner : delta.userID ∈ before.users.map UserRow.id := by
        rw [show before.users.map UserRow.id = _ from same]
        exact refers.dests delta listed
      exact ⟨_, referring_there owner, same⟩
  · rw [List.mem_singleton.mp last]
    exact ⟨_, rfl, same⟩

section CatchingUp

variable [Build] {options : Options} {start : Nat}
variable {origin s after : Pipeline} {action : PipelineAction}

/-- A state that calm steps lead to from another one: since then no line
was written, and no record was dropped. -/
structure Lively (options : Options) (start : Nat) (origin s : Pipeline) :
    Prop where
  held : Cursored options start s
  settled : Settled options start s
  before : AppliedOnce start origin → AppliedOnce start s
  dates : DatesHeld s
  years : ∀ entry ∈ logEntries s.log,
    FourDigitYear (unixMilli entry.record.unixMillis)
  persisted : s.lastPersisted ≤ s.cursor options
  log : s.log = origin.log
  dropped : s.trace.dropped = origin.trace.dropped

theorem persisted_move (held : Cursored options start s)
    (persisted : s.lastPersisted ≤ s.cursor options)
    (move : Move options s action after) :
    after.lastPersisted ≤ after.cursor options := by
  have forward := held.cursor_le move
  cases move with
  | commit choice resolution database resolving finished done =>
      exact (cursor_commit done rfl).ge
  | restart => exact Nat.zero_le _
  | _ => exact persisted.trans forward

omit [Build] in
/-- What is added was under way. -/
theorem addedBy_underway {entry : Entry}
    (added : entry ∈ s.addedBy options action) : entry ∈ s.underway := by
  rw [mem_underway]
  cases action with
  | loop choice =>
      right
      left
      simp only [Pipeline.addedBy] at added
      split at added
      · split at added
        · cases added
        · exact List.mem_of_mem_head? added
      · exact List.mem_of_mem_head? added
      · cases added
  | tailer choice =>
      left
      simp only [Pipeline.addedBy] at added
      split at added
      · rename_i handing
        split at added
        · obtain rfl := Option.some.inj added
          rw [Pipeline.inHand, handing]
          exact List.mem_cons_self
        · cases added
      · cases added
  | _ => cases added

theorem Cursored.inLog (held : Cursored options start s) {entry : Entry}
    (underway : entry ∈ s.underway) : entry ∈ logEntries s.log :=
  (held.accounts.bounds (held.accounts.placed.published underway)).1

theorem Lively.act (lively : Lively options start origin s)
    (calm : Calm action) (made : s.act options action = after)
    (log : after.log = s.log)
    (dropped : after.trace.dropped = s.trace.dropped) :
    Lively options start origin after.tick := by
  have move : Move options s action after := made ▸ move_act action
  have inRange : DatesInRange options s action := by
    refine ⟨?_, fun entry added => lively.years entry
      (lively.held.inLog (addedBy_underway added))⟩
    cases action with
    | store op choice => exact absurd calm id
    | _ => exact fun _ listed => (by cases listed)
  have running : action ≠ .restart := by
    rintro rfl
    exact calm
  have before : AppliedOnce start origin → AppliedOnce start after :=
    fun once => (lively.before once).move lively.held running move
  have persisted := persisted_move lively.held lively.persisted move
  refine ⟨(lively.held.move running move).tick,
    (lively.settled.move lively.held running move).tick, before,
    (lively.dates.move inRange move).tick, ?_, persisted,
    log.trans lively.log, dropped.trans lively.dropped⟩
  rw [show after.tick.log = s.log from log]
  exact lively.years

/-- By calm steps the pipeline comes from a state to the goal. -/
def Pipeline.Leads (options : Options) (goal : Pipeline → Prop)
    (s : Pipeline) : Prop :=
  Runs.Leads (Pipeline.step options) Calm goal s

variable {goal : Pipeline → Prop}

theorem Lively.leads (lively : Lively options start origin s)
    (action : PipelineAction) (calm : Calm action) (made : s.act options action = after)
    (log : after.log = s.log)
    (dropped : after.trace.dropped = s.trace.dropped)
    (rest : Lively options start origin after.tick →
      Pipeline.Leads options goal after.tick) :
    Pipeline.Leads options goal s := by
  apply Runs.Leads.after calm
  rw [show s.step options action = after.tick by rw [← made]; rfl]
  exact rest (lively.act calm made log dropped)

/-- The service loop waits again; the tailer has not moved. -/
structure Rested (options : Options) (start : Nat) (origin : Pipeline)
    (tailer : Tailer) (s : Pipeline) : Prop where
  lively : Lively options start origin s
  tailer : s.tailer = tailer
  idle : s.loop = .waiting

/-- A flush has written everything up to the offset of the tailer that was
not in the queue. -/
structure AfterFlush (options : Options) (start : Nat) (origin : Pipeline)
    (tailer : Tailer) (queue : List Entry) (s : Pipeline) : Prop where
  rested : Rested options start origin tailer s
  queue : s.queue = queue
  written : s.trace.waiting = []
  cursor : s.cursor options = tailer.offset

/-- No lookup of a dated user fails. -/
theorem resolveNext_calm (dates : DatesHeld s) {resolution : Resolution}
    {delta : PendingDelta} {rest : List PendingDelta} :
    ∃ further, s.resolveNext false resolution delta rest =
        { s with loop := .resolving further } ∧
      further.remaining = rest ∧ further.offset = resolution.offset ∧
      (Refers s.host.database resolution →
        Refers s.host.database further) := by
  unfold Pipeline.resolveNext
  cases known : find? delta.username resolution.ids with
  | some id =>
      refine ⟨_, rfl, charge_remaining _ _ _ _,
        resolution.charge_offset delta rest id, fun refers => ?_⟩
      exact refers.charge delta rest (refers.ids _ (find?_mem known))
  | none =>
      have offset : ∀ id, ((resolution.know delta.username id).charge delta
          rest id).offset = resolution.offset := fun id =>
        (resolution.know delta.username id).charge_offset delta rest id
      have learned : ∀ id,
          id = 0 ∨ id ∈ s.host.database.users.map UserRow.id →
            Refers s.host.database resolution →
              Refers s.host.database
                ((resolution.know delta.username id).charge delta rest id) :=
        fun id owner refers =>
          (refers.know delta.username owner).charge delta rest owner
      unfold Database.getUserByUsername
      cases found : lookup UserRow.username s.host.database.users
          delta.username with
      | none =>
          exact ⟨_, rfl, charge_remaining _ _ _ _, offset 0,
            learned 0 (.inl rfl)⟩
      | some row =>
          have listed := (lookup_mem found).1
          obtain ⟨user, read, -⟩ :=
            scanUser_of_dated (dates.tables.users row listed)
          have same := (scanned_of_ok read).id
          have owner : user.id ∈ s.host.database.users.map UserRow.id := by
            rw [same]
            exact List.mem_map_of_mem listed
          simp only [scanFound, read]
          exact ⟨_, rfl, charge_remaining _ _ _ _, offset user.id,
            learned user.id (.inr owner)⟩

/-- Every contribution of a resolution can be booked. -/
theorem leads_booked {resolution : Resolution}
    (lively : Lively options start origin s)
    (resolving : s.loop = .resolving resolution)
    (rest : ∀ next last, Lively options start origin next →
      next.tailer = s.tailer → next.queue = s.queue →
      next.loop = .resolving last → last.remaining = [] →
      last.offset = resolution.offset →
      (Refers s.host.database resolution →
        Refers next.host.database last) →
          Pipeline.Leads options goal next) :
    Pipeline.Leads options goal s := by
  generalize work : resolution.remaining = remaining
  induction remaining generalizing s resolution with
  | nil => exact rest s resolution lively rfl rfl resolving work rfl id
  | cons delta later inductionHypothesis =>
      obtain ⟨further, made, fewer, offset, refers⟩ :=
        @resolveNext_calm _ _ lively.dates resolution delta later
      have acted : s.act options (.loop {}) =
          { s with loop := .resolving further } := by
        rw [← made]
        simp only [Pipeline.act, Pipeline.stepLoop, resolving, work]
      apply lively.leads (.loop {}) ⟨rfl, rfl⟩ acted rfl rfl
      intro here
      refine inductionHypothesis here rfl ?_ fewer
      intro next last lively tailer queue phase finished located referring
      exact rest next last lively tailer queue phase finished
        (located.trans offset) fun known => referring (refers known)

/-- While a batch is in a flush, no other one waits. -/
theorem Cursored.flying (held : Cursored options start s)
    (flying : s.flight ≠ none) :
    s.trace.pending = [] ∧ s.trace.retried = [] := by
  have counted := held.accounts.charged.counted
  exact ⟨held.taken flying,
    counted.retried_eq_nil (counted.single.resolve_left flying)⟩

/-- A flush that has found its users commits. -/
theorem leads_committed {resolution : Resolution}
    (lively : Lively options start origin s)
    (resolving : s.loop = .resolving resolution)
    (finished : resolution.remaining = [])
    (refers : Refers s.host.database resolution)
    (rest : ∀ next, Rested options start origin s.tailer next →
      next.queue = s.queue → next.trace.waiting = [] →
      next.cursor options = resolution.offset →
        Pipeline.Leads options goal next) :
    Pipeline.Leads options goal s := by
  obtain ⟨database, done⟩ :=
    refers.applies ⟨options.logPath, resolution.offset⟩
  have acted : s.act options (.loop {}) =
      { s.withDatabase database with
        lastPersisted := resolution.offset
        loop := .waiting
        trace := s.trace.commit resolution.idOf resolution.usage
          resolution.dests } := by
    simp only [Pipeline.act, Pipeline.stepLoop, resolving, finished]
    rw [Pipeline.applyBatch, transact_none done]
    rfl
  apply lively.leads (.loop {}) ⟨rfl, rfl⟩ acted rfl rfl
  intro here
  refine rest _ ⟨here, rfl, rfl⟩ rfl ?_ (cursor_commit done rfl)
  have held := lively.held
  have flying : s.flight ≠ none := by
    rw [Pipeline.flight, resolving]
    exact Option.some_ne_none _
  obtain ⟨pending, retried⟩ := held.flying flying
  simp only [Pipeline.tick, Trace.waiting, Trace.commit, pending, retried,
    List.append_nil]

/-- A flush that has taken its batch comes to its end. -/
theorem leads_flushed_of_locating {pending : List PendingDelta}
    (lively : Lively options start origin s)
    (locating : s.loop = .locating pending)
    (rest : ∀ next, AfterFlush options start origin s.tailer s.queue next →
      Pipeline.Leads options goal next) :
    Pipeline.Leads options goal s := by
  by_cases nothing : pending = [] ∧ s.tailer.offset = s.lastPersisted
  · have acted : s.act options (.loop {}) = { s with loop := .waiting } := by
      simp only [Pipeline.act, Pipeline.stepLoop, locating]
      rw [Pipeline.readOffset, if_pos nothing]
    apply lively.leads (.loop {}) ⟨rfl, rfl⟩ acted rfl rfl
    intro here
    have held := lively.held
    have flying : s.flight ≠ none := by
      rw [Pipeline.flight, locating]
      exact Option.some_ne_none _
    obtain ⟨none, retried⟩ := held.flying flying
    have batch : s.trace.batch = [] := by
      apply postings_eq_nil
      rw [← held.accounts.charged.counted.batch, Pipeline.inFlight,
        Pipeline.flight, locating, nothing.1]
      rfl
    have persisted := lively.persisted
    have late := held.late
    refine rest _ ⟨⟨here, rfl, rfl⟩, rfl, ?_, ?_⟩
    · simp only [Pipeline.tick, Trace.waiting, none, retried, batch,
        List.append_nil]
    · have cursor : s.cursor options = s.tailer.offset := by omega
      exact cursor
  · have acted : s.act options (.loop {}) =
        { s with
          loop := .resolving {
            pending := pending
            remaining := pending
            offset := s.tailer.offset } } := by
      simp only [Pipeline.act, Pipeline.stepLoop, locating]
      rw [Pipeline.readOffset, if_neg nothing]
    apply lively.leads (.loop {}) ⟨rfl, rfl⟩ acted rfl rfl
    intro here
    apply leads_booked here rfl
    intro booked last lively tailer queue phase finished offset refers
    have known : Refers booked.host.database last :=
      refers ⟨fun _ listed => (by cases listed),
        fun _ listed => (by cases listed), fun _ listed => (by cases listed)⟩
    apply leads_committed lively phase finished known
    intro next rested same written cursor
    rw [tailer] at rested
    exact rest next ⟨rested, same.trans queue, written,
      cursor.trans offset⟩

/-- A flush that has begun comes to its end. -/
theorem leads_flushed_of_draining (lively : Lively options start origin s)
    (draining : s.loop = .draining)
    (rest : ∀ next, AfterFlush options start origin s.tailer [] next →
      Pipeline.Leads options goal next) :
    Pipeline.Leads options goal s := by
  generalize waiting : s.queue = queue
  induction queue generalizing s with
  | nil =>
      have acted : s.act options (.loop {}) = s.takePending .written := by
        simp only [Pipeline.act, Pipeline.stepLoop, draining, waiting]
      apply lively.leads (.loop {}) ⟨rfl, rfl⟩ acted rfl rfl
      intro here
      apply leads_flushed_of_locating here rfl
      rw [show (s.takePending .written).tick.queue = [] from waiting]
      exact rest
  | cons entry later inductionHypothesis =>
      have acted : s.act options (.loop {}) = s.receive entry later := by
        simp only [Pipeline.act, Pipeline.stepLoop, draining, waiting]
      have same := congrArg Trace.dropped
        (s.trace.add_eq entry (s.aggregator.slot entry.record))
      apply lively.leads (.loop {}) ⟨rfl, rfl⟩ acted rfl same
      exact fun here => inductionHypothesis here draining rest rfl

/-- The flush ticker fires, and everything handed over is written. -/
theorem leads_flushed (lively : Lively options start origin s)
    (idle : s.loop = .waiting)
    (rest : ∀ next, AfterFlush options start origin s.tailer [] next →
      Pipeline.Leads options goal next) :
    Pipeline.Leads options goal s := by
  have acted : s.act options (.loop { flush := true }) =
      { s with loop := .draining } := by
    simp only [Pipeline.act, Pipeline.stepLoop, idle, if_true]
  apply lively.leads (.loop { flush := true }) ⟨rfl, rfl⟩ acted rfl rfl
  exact fun here => leads_flushed_of_draining here rfl rest

/-- Wherever the service loop stands, it can come back to its `select`. -/
theorem leads_rested (lively : Lively options start origin s)
    (rest : ∀ next, Rested options start origin s.tailer next →
      Pipeline.Leads options goal next) :
    Pipeline.Leads options goal s := by
  cases phase : s.loop with
  | waiting => exact rest s ⟨lively, rfl, phase⟩
  | draining =>
      exact leads_flushed_of_draining lively phase
        fun next flushed => rest next flushed.rested
  | locating pending =>
      exact leads_flushed_of_locating lively phase
        fun next flushed => rest next flushed.rested
  | resolving resolution =>
      apply leads_booked lively phase
      intro booked last lively tailer queue phase finished offset refers
      have acted : booked.act options (.loop {}) =
          booked.applyBatch options none last := by
        simp only [Pipeline.act, Pipeline.stepLoop, phase, finished]
      rw [← tailer] at rest
      -- The batch is kept when an account was deleted behind its lookup.
      rcases @transact_cases Database GoError none
          (applyDeltasStatements last.usage last.dests
            ⟨options.logPath, last.offset⟩) booked.host.database with
        ⟨error, failed⟩ | ⟨after, committed, -⟩
      · rw [Pipeline.applyBatch, failed] at acted
        apply lively.leads (.loop {}) ⟨rfl, rfl⟩ acted rfl rfl
        exact fun here => rest _ ⟨here, rfl, rfl⟩
      · rw [Pipeline.applyBatch, committed] at acted
        apply lively.leads (.loop {}) ⟨rfl, rfl⟩ acted rfl rfl
        exact fun here => rest _ ⟨here, rfl, rfl⟩

/-! ## The tailer -/

/-- Neither goroutine has anything at hand, and the tailer has read up to
an offset. -/
structure Idle (options : Options) (start : Nat) (origin : Pipeline)
    (offset : Nat) (s : Pipeline) : Prop where
  lively : Lively options start origin s
  loop : s.loop = .waiting
  phase : s.tailer.phase = .waiting
  offset : s.tailer.offset = offset

/-- Records are handed over without loss when each is flushed before the
next one comes. -/
theorem leads_handed {batch : List Entry} {offset : Nat}
    (lively : Lively options start origin s) (idle : s.loop = .waiting)
    (handing : s.tailer.phase = .handing batch)
    (published : s.tailer.offset = offset)
    (rest : ∀ next, Idle options start origin offset next →
      Pipeline.Leads options goal next) :
    Pipeline.Leads options goal s := by
  induction batch generalizing s with
  | nil =>
      have acted : s.act options (.tailer {}) =
          { s with tailer := { s.tailer with phase := .waiting } } := by
        simp only [Pipeline.act, Pipeline.stepTailer, handing]
      apply lively.leads (.tailer {}) ⟨rfl, rfl⟩ acted rfl rfl
      exact fun here => rest _ ⟨here, idle, rfl, published⟩
  | cons entry later inductionHypothesis =>
      apply leads_flushed lively idle
      intro next flushed
      have lively := flushed.rested.lively
      have idle := flushed.rested.idle
      have tailer := flushed.rested.tailer
      rw [← tailer] at handing published
      by_cases unbuffered : options.queueSize = 0
      · have acted : next.act options (.tailer { parked := true }) =
            Pipeline.addEntry
              { next with
                tailer := { next.tailer with phase := .handing later } }
              entry := by
          simp only [Pipeline.act, Pipeline.stepTailer, handing]
          rw [Pipeline.handOver, if_neg (by omega)]
          exact if_pos ⟨unbuffered, idle, rfl⟩
        have same := congrArg Trace.dropped
          (next.trace.add_eq entry (next.aggregator.slot entry.record))
        apply lively.leads (.tailer { parked := true }) ⟨rfl, rfl⟩ acted rfl
          same
        exact fun here => inductionHypothesis here idle rfl published
      · have acted : next.act options (.tailer {}) =
            { next with
              tailer := { next.tailer with phase := .handing later }
              queue := next.queue ++ [entry] } := by
          have room : next.queue.length < options.queueSize := by
            rw [flushed.queue, List.length_nil]
            omega
          simp only [Pipeline.act, Pipeline.stepTailer, handing]
          rw [Pipeline.handOver, if_pos room]
        apply lively.leads (.tailer {}) ⟨rfl, rfl⟩ acted rfl rfl
        exact fun here => inductionHypothesis here idle rfl published

/-- What was read is published and handed over. -/
theorem leads_published {batch : List Entry} {offset : Nat}
    (lively : Lively options start origin s) (idle : s.loop = .waiting)
    (ready : s.tailer.phase = .publishing batch offset)
    (rest : ∀ next, Idle options start origin offset next →
      Pipeline.Leads options goal next) :
    Pipeline.Leads options goal s := by
  have acted : s.act options (.tailer {}) = s.publish batch offset := by
    simp only [Pipeline.act, Pipeline.stepTailer, ready]
  apply lively.leads (.tailer {}) ⟨rfl, rfl⟩ acted rfl rfl
  intro here
  by_cases nothing : batch = []
  · have phase : (s.publish batch offset).tailer.phase = .waiting :=
      if_pos nothing
    exact rest _ ⟨here, idle, phase, rfl⟩
  · have phase : (s.publish batch offset).tailer.phase = .handing batch :=
      if_neg nothing
    exact leads_handed here idle phase rfl rest

/-- Whatever the goroutines are doing, they can finish it. -/
theorem leads_idle (lively : Lively options start origin s)
    (rest : ∀ next, Idle options start origin s.tailer.readEnd next →
      Pipeline.Leads options goal next) :
    Pipeline.Leads options goal s := by
  apply leads_rested lively
  intro next rested
  have lively := rested.lively
  have idle := rested.idle
  rw [← rested.tailer, Tailer.readEnd] at rest
  cases phase : next.tailer.phase with
  | waiting =>
      rw [phase] at rest
      exact rest next ⟨lively, idle, phase, rfl⟩
  | publishing batch offset =>
      rw [phase] at rest
      exact leads_published lively idle phase rest
  | handing batch =>
      rw [phase] at rest
      exact leads_handed lively idle phase rfl rest

/-- A poll reads the rest of the log. -/
theorem leads_read {offset : Nat}
    (idle : Idle options start origin offset s)
    (rest : ∀ next, Idle options start origin
      (completeLines s.log).flatten.length next →
        Pipeline.Leads options goal next) :
    Pipeline.Leads options goal s := by
  have boundary := idle.lively.held.accounts.tailed.published
  have acted : s.act options (.tailer {}) = s.poll none := by
    simp only [Pipeline.act, Pipeline.stepTailer, idle.phase, if_true]
  apply idle.lively.leads (.tailer {}) ⟨rfl, rfl⟩ acted rfl rfl
  intro here
  have inside : ¬s.log.length < s.tailer.offset :=
    Nat.not_lt_of_le boundary.inside
  have phase : (s.poll none).tailer.phase =
      .publishing (entriesOf s.tailer.offset
        (completeLines (s.log.drop s.tailer.offset)))
          (completeLines s.log).flatten.length := by
    rw [← boundary.last]
    simp only [Pipeline.poll, Pipeline.linesBehind, if_neg inside]
  exact leads_published here idle.loop phase rest

/-- The work is done: nothing is on its way to the ledger, the cursor stands
behind the last complete line of the same log, and no record was dropped for
it.  Every line that was still ahead of the cursor is charged once, those
exempted apart, and the tables hold what is charged; when no line had been
missed before, none is. -/
structure AllDone (options : Options) (origin s : Pipeline) : Prop where
  log : s.log = origin.log
  dropped : s.trace.dropped = origin.trace.dropped
  nothing : s.underway = []
  cursor : s.cursor options = (completeLines s.log).flatten.length
  charged : ∀ entry ∈ logEntries s.log,
    origin.cursor options < entry.line → ¬s.trace.Exempts entry →
      s.trace.appliedEntries.count entry = 1
  tables : NeverAhead options s
  caught : CaughtUp options origin → CaughtUp options s

theorem AfterFlush.allDone {tailer : Tailer}
    (flushed : AfterFlush options start origin tailer [] s)
    (early : start ≤ origin.cursor options)
    (phase : s.tailer.phase = .waiting)
    (last : s.cursor options = (completeLines s.log).flatten.length) :
    AllDone options origin s := by
  have lively := flushed.rested.lively
  have nothing : s.underway = [] := by
    rw [Pipeline.underway, Pipeline.inHand, phase, flushed.queue,
      flushed.written]
    rfl
  have kept : Kept options s := ⟨start, lively.held, lively.settled⟩
  refine ⟨lively.log, lively.dropped, nothing, last, ?_, kept.neverAhead,
    ?_⟩
  · intro entry listed ahead bears
    have within := (bounds_of_mem_lines listed).2
    have late := lively.held.late
    refine lively.settled.count_eq_one lively.held listed (by omega)
      (by omega) ?_ bears
    rw [nothing]
    exact List.not_mem_nil
  · intro caught
    have before : AppliedOnce start s := lively.before
      fun entry listed within =>
        caught.lines entry listed (within.trans early)
    rw [kept.caughtUp_iff,
      appliedOnce_cursor_iff lively.held lively.settled before,
      NothingMissed, nothing]
    exact fun _ listed => (by cases listed)

theorem Lively.finishes (lively : Lively options start origin s)
    (early : start ≤ origin.cursor options) :
    Pipeline.Leads options (AllDone options origin) s := by
  apply leads_idle lively
  intro idle here
  apply leads_read here
  intro read done
  apply leads_flushed done.lively done.loop
  intro target flushed
  apply Runs.Leads.here
  have tailer := flushed.rested.tailer
  have log : target.log = idle.log :=
    flushed.rested.lively.log.trans here.lively.log.symm
  refine flushed.allDone early ?_ ?_
  · rw [tailer]
    exact done.phase
  · rw [flushed.cursor, log]
    exact done.offset

/-- Wherever a run has led to, the tailer and the service loop can finish
without dropping a record: by steps of their own at which nothing fails, the
whole log gets into the ledger, each line once.  The dates that reach the
store and those of the log lie in the years 0 to 9999. -/
theorem can_always_catch_up (options : Options)
    (actions : List PipelineAction)
    (dates : Runs.Meets (Pipeline.step options) (DatesInRange options)
      actions (Pipeline.initial options))
    (years : ∀ entry ∈ logEntries (Runs.run (Pipeline.step options) actions
        (Pipeline.initial options)).log,
      FourDigitYear (unixMilli entry.record.unixMillis)) :
    Runs.Leads (Pipeline.step options) Calm
      (AllDone options (Runs.run (Pipeline.step options) actions
        (Pipeline.initial options)))
      (Runs.run (Pipeline.step options) actions
        (Pipeline.initial options)) := by
  let fits : Pipeline → Prop := fun s =>
    Kept options s ∧ s.lastPersisted ≤ s.cursor options ∧ DatesHeld s
  have here : fits (Runs.run (Pipeline.step options) actions
      (Pipeline.initial options)) := by
    refine @run_invariant _ options fits _ ?_ ?_ ?_ _ dates
    · rintro s action after move inRange ⟨kept, persisted, dated⟩
      have moved := kept.move move
      obtain ⟨start, held, -⟩ := kept
      exact ⟨moved, persisted_move held persisted move,
        dated.move inRange move⟩
    · exact fun s held => ⟨held.1.tick, held.2.1, held.2.2.tick⟩
    · exact ⟨kept_initial options, Nat.le_refl _, datesHeld_initial options⟩
  obtain ⟨⟨start, held, settled⟩, persisted, dated⟩ := here
  exact Lively.finishes ⟨held, settled, id, dated, years, persisted, rfl, rfl⟩
    held.early

end CatchingUp

/-- A user is deleted while its traffic is being written, and the process is
killed between two polls. -/
def interruptedFlush : List PipelineAction :=
  [createAccount "alice", createAccount "bob",
    .append (bytesOf (connectionLine "alice" "a.example")),
    .append (bytesOf (connectionLine "bob" "b.example"))] ++
    tailerPass 2 ++ [.restart] ++ tailerPass 2 ++ flushPass 1 1 ++
    [.store (.deleteUser 1) (calmAt 0)]

theorem can_always_catch_up_from_interrupted :
    Runs.Leads (@Pipeline.step Build.dev sampleOptions) Calm
      (@AllDone Build.dev sampleOptions
        (Runs.run (@Pipeline.step Build.dev sampleOptions) interruptedFlush
          (Pipeline.initial sampleOptions)))
      (Runs.run (@Pipeline.step Build.dev sampleOptions) interruptedFlush
        (Pipeline.initial sampleOptions)) :=
  @can_always_catch_up Build.dev sampleOptions interruptedFlush
    (by decide +kernel) (by decide +kernel)

end Xoxproxy.Analytics
