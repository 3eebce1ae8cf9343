import Xoxproxy.Analytics.LogTotals

/-!
# The ledger and the cursor

A process that starts again reads the log behind the cursor.  No line is
charged twice, and none behind the cursor.  Every line before it is charged
as long as no flush saves an offset that is ahead of the queue.
-/

namespace Xoxproxy.Analytics

open AssociationMaps RowTables Transactions Tallies

/-- The entry is not to be applied: it is nobody's, or its line was given
up. -/
def Trace.Exempts (trace : Trace) (entry : Entry) : Prop :=
  entry.record.unattributable = true ∨ entry.line ∈ trace.excused

instance (trace : Trace) (entry : Entry) :
    Decidable (trace.Exempts entry) :=
  inferInstanceAs (Decidable (_ ∨ _))

section Applying

variable [Build] {options : Options} {start : Nat} {s after : Pipeline}
variable {action : PipelineAction}

/-- What earlier processes have applied: each line once, and none behind
the start. -/
structure AppliedBefore (start : Nat) (s : Pipeline)
    (earlier : List (Int × Posting)) : Prop where
  split : s.trace.applied = earlier ++ s.trace.committed
  once : (earlier.map fun charge => charge.2.entry).Nodup
  logged : ∀ charge ∈ earlier, charge.2.entry ∈ logEntries s.log
  behind : ∀ charge ∈ earlier, charge.2.entry.line ≤ start

/-- What is given up is noted, and what is applied lies before the
cursor. -/
structure Settled (options : Options) (start : Nat) (s : Pipeline) :
    Prop where
  excused : ∀ entry, entry ∈ s.trace.dropped ∨
    entry ∈ s.trace.unattributable ∨ entry ∈ entriesIn s.trace.discarded →
      entry.line ∈ s.trace.excused
  earlier : ∃ earlier, AppliedBefore start s earlier
  written : ∀ entry ∈ s.trace.written, entry.line ≤ s.cursor options

theorem settled_initial (options : Options) :
    Settled options 0 (Pipeline.initial options) where
  excused := by
    rintro entry (given | given | given) <;> cases given
  earlier := ⟨[], rfl, List.nodup_nil, fun _ listed => (by cases listed),
    fun _ listed => (by cases listed)⟩
  written := fun _ listed => (by cases listed)

theorem Settled.of_same (settled : Settled options start s)
    (cursor : s.cursor options ≤ after.cursor options)
    (log : logEntries s.log ⊆ logEntries after.log)
    (dropped : after.trace.dropped = s.trace.dropped)
    (unattributable : after.trace.unattributable = s.trace.unattributable)
    (discarded : after.trace.discarded = s.trace.discarded)
    (excused : after.trace.excused = s.trace.excused)
    (applied : after.trace.applied = s.trace.applied)
    (committed : after.trace.committed = s.trace.committed) :
    Settled options start after := by
  refine ⟨?_, ?_, ?_⟩
  · rw [dropped, unattributable, discarded, excused]
    exact settled.excused
  · obtain ⟨earlier, before⟩ := settled.earlier
    refine ⟨earlier, ?_, before.once, ?_, before.behind⟩
    · rw [applied, committed]
      exact before.split
    · exact fun charge listed => log (before.logged charge listed)
  · rw [Trace.written, committed]
    exact fun entry listed => (settled.written entry listed).trans cursor

theorem Settled.addEntry (settled : Settled options start s)
    (entry : Entry) : Settled options start (s.addEntry entry) := by
  have written := settled.written
  by_cases nobody : entry.record.unattributable = true
  · have trace : (s.addEntry entry).trace =
        { s.trace with
          unattributable := s.trace.unattributable ++ [entry]
          excused := s.trace.excused ++ [entry.line] } := by
      rw [Pipeline.addEntry, Trace.add, if_pos nobody]
    refine ⟨?_, ?_, ?_⟩
    · rw [trace]
      intro other given
      simp only [List.mem_append, List.mem_singleton] at given ⊢
      rcases given with dropped | (before | rfl) | discarded
      · exact .inl (settled.excused other (.inl dropped))
      · exact .inl (settled.excused other (.inr (.inl before)))
      · exact .inr rfl
      · exact .inl (settled.excused other (.inr (.inr discarded)))
    · obtain ⟨earlier, before⟩ := settled.earlier
      refine ⟨earlier, ?_, before.once, before.logged, before.behind⟩
      rw [trace]
      exact before.split
    · rw [trace]
      exact written
  · have trace : (s.addEntry entry).trace =
        { s.trace with
          pending := s.trace.pending ++
            [⟨entry, s.aggregator.slot entry.record⟩] } := by
      rw [Pipeline.addEntry, Trace.add, if_neg nobody]
    refine ⟨?_, ?_, ?_⟩
    · rw [trace]
      exact settled.excused
    · obtain ⟨earlier, before⟩ := settled.earlier
      refine ⟨earlier, ?_, before.once, before.logged, before.behind⟩
      rw [trace]
      exact before.split
    · rw [trace]
      exact written

theorem Settled.drop (settled : Settled options start s)
    (entry : Entry) (phase : TailerPhase) :
    Settled options start
      { s with
        tailer := { s.tailer with phase := phase }
        dropped := s.dropped + 1
        trace := s.trace.drop entry } where
  excused := by
    intro other given
    simp only [Trace.drop, List.mem_append, List.mem_singleton] at given ⊢
    rcases given with (before | rfl) | unattributable | discarded
    · exact .inl (settled.excused other (.inl before))
    · exact .inr rfl
    · exact .inl (settled.excused other (.inr (.inl unattributable)))
    · exact .inl (settled.excused other (.inr (.inr discarded)))
  earlier := by
    obtain ⟨earlier, before⟩ := settled.earlier
    exact ⟨earlier, before.split, before.once, before.logged, before.behind⟩
  written := settled.written

omit [Build] in
theorem mem_written_commit {trace : Trace} {idOf : String → Int}
    {usage : List UsageDelta} {dests : List DestinationDelta}
    {entry : Entry}
    (listed : entry ∈ (trace.commit idOf usage dests).written) :
    entry ∈ trace.written ∨ entry ∈ entriesIn trace.batch := by
  simp only [Trace.written, Trace.commit, List.map_append, List.mem_append]
    at listed
  refine listed.imp id fun new => ?_
  obtain ⟨charge, charged, rfl⟩ := List.mem_map.mp new
  obtain ⟨posting, known, rfl⟩ := List.mem_map.mp charged
  exact List.mem_map.mpr ⟨posting, (List.mem_filter.mp known).1, rfl⟩

theorem Settled.commit (settled : Settled options start s)
    (held : Cursored options start s)
    {resolution : Resolution} {database : Database}
    (resolving : s.loop = .resolving resolution)
    (done : executeAll
      (applyDeltasStatements resolution.usage resolution.dests
        ⟨options.logPath, resolution.offset⟩) s.host.database =
          .ok database)
    (result : after.host.database = database) (log : after.log = s.log)
    (trace : after.trace =
      s.trace.commit resolution.idOf resolution.usage resolution.dests) :
    Settled options start after := by
  have located := held.located resolution resolving
  have cursor := cursor_commit done result
  obtain ⟨earlier, before⟩ := settled.earlier
  refine ⟨?_, ?_, ?_⟩
  · rw [trace]
    intro entry given
    simp only [Trace.commit, entriesIn, List.map_append, List.mem_append]
      at given ⊢
    rcases given with dropped | unattributable | discarded | unknown
    · exact .inl (settled.excused entry (.inl dropped))
    · exact .inl (settled.excused entry (.inr (.inl unattributable)))
    · exact .inl (settled.excused entry (.inr (.inr discarded)))
    · right
      obtain ⟨posting, listed, rfl⟩ := List.mem_map.mp unknown
      exact List.mem_map.mpr ⟨posting, listed, rfl⟩
  · refine ⟨earlier, ?_, before.once, ?_, before.behind⟩
    · rw [trace]
      simp only [Trace.commit, before.split, List.append_assoc]
    · rw [log]
      exact before.logged
  · rw [trace, cursor]
    intro entry listed
    rcases mem_written_commit listed with old | new
    · exact (settled.written entry old).trans located.behind
    · exact located.covers entry new

theorem Settled.move (settled : Settled options start s)
    (held : Cursored options start s)
    (running : action ≠ .restart) (move : Move options s action after) :
    Settled options start after := by
  have cursor := held.cursor_le move
  cases move with
  | store | reset | prune =>
      exact settled.of_same cursor (List.Subset.refl _)
        rfl rfl rfl rfl rfl rfl
  | direct choice entry rest handing waiting =>
      have moved : Settled options start
          { s with tailer := { s.tailer with phase := .handing rest } } :=
        settled.of_same (Nat.le_refl _) (List.Subset.refl _) rfl rfl
          rfl rfl rfl rfl
      exact moved.addEntry entry
  | receive choice entry rest ready queued =>
      have moved : Settled options start { s with queue := rest } :=
        settled.of_same (Nat.le_refl _) (List.Subset.refl _) rfl rfl
          rfl rfl rfl rfl
      exact moved.addEntry entry
  | drop choice entry rest handing => exact settled.drop entry _
  | commit choice resolution database resolving finished done =>
      exact settled.commit held resolving done rfl rfl rfl
  | restart => exact absurd rfl running
  | append bytes =>
      exact settled.of_same cursor
        (fun _ listed => mem_logEntries_grow bytes listed)
        rfl rfl rfl rfl rfl rfl
  | _ =>
      exact settled.of_same cursor (List.Subset.refl _)
        rfl rfl rfl rfl rfl rfl

/-- What is applied by a process is what it has published. -/
theorem Accountable.written_bounds (held : Accountable start s)
    {entry : Entry} (listed : entry ∈ s.trace.written) :
    entry ∈ logEntries s.log ∧ start < entry.line := by
  have published : entry ∈ s.trace.enqueued := by
    rw [held.placed.mem_iff]
    simp [Pipeline.places, listed]
  have bounds := held.bounds published
  exact ⟨bounds.1, bounds.2.1⟩

theorem Accountable.enqueued_nodup (held : Accountable start s) :
    s.trace.enqueued.Nodup := by
  rw [held.tailed.handed]
  exact entriesBetween_nodup

theorem Accountable.written_nodup (held : Accountable start s) :
    s.trace.written.Nodup := by
  rw [List.nodup_iff_count_le_one]
  intro entry
  have places := placed_iff.mp held.placed entry
  have once := List.nodup_iff_count_le_one.mp held.enqueued_nodup entry
  omega

theorem appliedEntries_split {earlier : List (Int × Posting)}
    (before : AppliedBefore start s earlier) :
    s.trace.appliedEntries =
      (earlier.map fun charge => charge.2.entry) ++ s.trace.written := by
  rw [Trace.appliedEntries, before.split, List.map_append]
  rfl

theorem Settled.logged (settled : Settled options start s)
    (held : Cursored options start s) {entry : Entry}
    (listed : entry ∈ s.trace.appliedEntries) :
    entry ∈ logEntries s.log ∧ entry.line ≤ s.cursor options := by
  obtain ⟨earlier, before⟩ := settled.earlier
  rw [appliedEntries_split before, List.mem_append] at listed
  rcases listed with old | new
  · obtain ⟨charge, charged, rfl⟩ := List.mem_map.mp old
    exact ⟨before.logged charge charged,
      (before.behind charge charged).trans held.early⟩
  · exact ⟨(held.accounts.written_bounds new).1,
      settled.written entry new⟩

theorem Settled.once (settled : Settled options start s)
    (held : Cursored options start s) : s.trace.appliedEntries.Nodup := by
  obtain ⟨earlier, before⟩ := settled.earlier
  rw [appliedEntries_split before]
  refine before.once.append held.accounts.written_nodup ?_
  intro entry old new
  obtain ⟨charge, charged, rfl⟩ := List.mem_map.mp old
  have early := before.behind charge charged
  have late := (held.accounts.written_bounds new).2
  omega

/-- Behind a restart everything applied lies before the start. -/
theorem Settled.restart (settled : Settled options start s)
    (held : Cursored options start s) :
    Settled options (s.cursor options) (s.restart options) where
  excused := by
    rintro entry (given | given | given) <;> cases given
  earlier := by
    refine ⟨s.trace.applied, (List.append_nil _).symm, settled.once held,
      ?_, ?_⟩
    · exact fun charge listed =>
        (settled.logged held (List.mem_map_of_mem listed)).1
    · exact fun charge listed =>
        (settled.logged held (List.mem_map_of_mem listed)).2
  written := fun _ listed => (by cases listed)

theorem Settled.grounded (settled : Settled options start s)
    (held : Cursored options start s) : Grounded s where
  balanced := held.accounts.balanced
  once := settled.once held
  logged := fun _ listed => (settled.logged held listed).1

/-- The ledger is exact as far as it goes: no line is applied twice, every
line applied ends before the cursor, and the cursor stands behind a complete
line that the tailer has published.  As long as the figures of the log stay
in range, every row amounts to what was applied to it, less what was
removed, and nothing that is counted overflows. -/
structure NeverAhead (options : Options) (s : Pipeline) : Prop where
  lines : (s.trace.appliedEntries.map Entry.line).Nodup
  logged : ∀ entry ∈ s.trace.appliedEntries,
    entry ∈ logEntries s.log ∧ entry.line ≤ s.cursor options
  boundary : LineBoundary s.log (s.cursor options)
  published : s.cursor options ≤ s.tailer.offset
  rows : s.trace.ledger.Sublist (s.trace.applied.flatMap chargeRows)
  amounts : LogFits s.log → ∀ key, amountAt s.host.database key =
    tally (ledgerBookings s.trace.ledger) key
  counters : LogFits s.log → CountersFit s

theorem Settled.neverAhead (settled : Settled options start s)
    (held : Cursored options start s) : NeverAhead options s where
  lines := by
    apply (settled.once held).map_on
    intro first firstListed second secondListed same
    exact List.inj_on_of_nodup_map (logEntries_lines_nodup s.log)
      (settled.logged held firstListed).1
      (settled.logged held secondListed).1 same
  logged := fun _ listed => settled.logged held listed
  boundary := held.boundary
  published := held.late
  rows := held.accounts.balanced.rows
  amounts := fun _ => held.accounts.balanced.amounts
  counters := (settled.grounded held).countersFit held.accounts

/-- What holds in every state of a run. -/
def Kept (options : Options) (s : Pipeline) : Prop :=
  ∃ start, Cursored options start s ∧ Settled options start s

theorem Kept.move (kept : Kept options s)
    (move : Move options s action after) : Kept options after := by
  obtain ⟨start, held, settled⟩ := kept
  by_cases restarts : action = .restart
  · subst restarts
    cases move with
    | stay => exact ⟨start, held, settled⟩
    | restart => exact ⟨_, held.restart, settled.restart held⟩
  · exact ⟨start, held.move restarts move, settled.move held restarts move⟩

theorem Settled.tick (settled : Settled options start s) :
    Settled options start s.tick :=
  settled.of_same (Nat.le_refl _) (List.Subset.refl _)
    rfl rfl rfl rfl rfl rfl

theorem Kept.tick (kept : Kept options s) : Kept options s.tick := by
  obtain ⟨start, held, settled⟩ := kept
  exact ⟨start, held.tick, settled.tick⟩

theorem kept_initial (options : Options) :
    Kept options (Pipeline.initial options) :=
  ⟨0, cursored_initial options, settled_initial options⟩

theorem kept_run (options : Options) (actions : List PipelineAction) :
    Kept options (Runs.run (Pipeline.step options) actions
      (Pipeline.initial options)) :=
  every_run (fun _ _ _ move kept => kept.move move)
    (fun _ kept => kept.tick) (kept_initial options) actions

theorem Kept.grounded (kept : Kept options s) : Grounded s := by
  obtain ⟨start, held, settled⟩ := kept
  exact settled.grounded held

theorem Kept.neverAhead (kept : Kept options s) : NeverAhead options s := by
  obtain ⟨start, held, settled⟩ := kept
  exact settled.neverAhead held

/-- However the log grows, the goroutines take turns and the process is
killed and started again: no line is charged twice, no line behind the
cursor is charged, and the cursor never goes back. -/
theorem never_charged_twice (options : Options)
    (actions later : List PipelineAction) :
    let s := Runs.run (Pipeline.step options) actions
      (Pipeline.initial options)
    NeverAhead options s ∧
      s.cursor options ≤
        (Runs.run (Pipeline.step options) later s).cursor options := by
  intro s
  have kept : Kept options s := kept_run options actions
  refine ⟨kept.neverAhead, ?_⟩
  let forward : Pipeline → Prop := fun next =>
    Kept options next ∧ s.cursor options ≤ next.cursor options
  have moved : forward (Runs.run (Pipeline.step options) later s) := by
    refine @Runs.invariant_of_run _ _ _ forward ?_ later _
      ⟨kept, Nat.le_refl _⟩
    rintro next action ⟨here, order⟩
    have move : Move options next action (next.act options action) :=
      move_act action
    have goesOn : next.cursor options ≤
        (next.act options action).cursor options := by
      obtain ⟨start, held, settled⟩ := here
      exact held.cursor_le move
    exact ⟨(here.move move).tick, order.trans goesOn⟩
  exact moved.2

/-- Every line up to a position has been applied once, those exempted
apart. -/
def AppliedOnce (position : Nat) (s : Pipeline) : Prop :=
  ∀ entry ∈ logEntries s.log, entry.line ≤ position →
    ¬s.trace.Exempts entry → s.trace.appliedEntries.count entry = 1

/-- Nothing that is still under way lies before the cursor. -/
def NothingMissed (options : Options) (s : Pipeline) : Prop :=
  ∀ entry ∈ s.underway, entry.line ≤ s.cursor options →
    s.trace.Exempts entry

theorem count_places (held : Accountable start s) (entry : Entry) :
    s.trace.enqueued.count entry =
      s.underway.count entry + s.trace.written.count entry +
        s.trace.dropped.count entry + s.trace.unattributable.count entry +
        (entriesIn s.trace.discarded).count entry := by
  have places := placed_iff.mp held.placed entry
  simp only [Pipeline.underway, Trace.waiting, entriesIn, List.map_append,
    List.count_append] at places ⊢
  omega

theorem count_applied {earlier : List (Int × Posting)}
    (before : AppliedBefore start s earlier) {entry : Entry}
    (behind : start < entry.line) :
    s.trace.appliedEntries.count entry = s.trace.written.count entry := by
  have absent : entry ∉ earlier.map fun charge => charge.2.entry := by
    intro listed
    obtain ⟨charge, charged, rfl⟩ := List.mem_map.mp listed
    have early := before.behind charge charged
    omega
  rw [appliedEntries_split before, List.count_append,
    List.count_eq_zero.mpr absent, Nat.zero_add]

/-- A line that a process has read is applied once it is no longer under
way. -/
theorem Settled.count_eq_one (settled : Settled options start s)
    (held : Cursored options start s) {entry : Entry}
    (listed : entry ∈ logEntries s.log) (behind : start < entry.line)
    (read : entry.line ≤ s.tailer.offset) (absent : entry ∉ s.underway)
    (bears : ¬s.trace.Exempts entry) :
    s.trace.appliedEntries.count entry = 1 := by
  obtain ⟨earlier, applied⟩ := settled.earlier
  have tailed := held.accounts.tailed
  have published : entry ∈ s.trace.enqueued := by
    rw [tailed.handed]
    exact (mem_entriesBetween tailed.started tailed.published
      tailed.behind).mpr ⟨listed, behind, read⟩
  have once := List.count_eq_one_of_mem held.accounts.enqueued_nodup
    published
  have places := count_places held.accounts entry
  have excused : entry.line ∉ s.trace.excused :=
    fun given => bears (.inr given)
  have dropped : entry ∉ s.trace.dropped :=
    fun given => excused (settled.excused entry (.inl given))
  have nobody : entry ∉ s.trace.unattributable :=
    fun given => excused (settled.excused entry (.inr (.inl given)))
  have unknown : entry ∉ entriesIn s.trace.discarded :=
    fun given => excused (settled.excused entry (.inr (.inr given)))
  rw [List.count_eq_zero.mpr absent, List.count_eq_zero.mpr dropped,
    List.count_eq_zero.mpr nobody, List.count_eq_zero.mpr unknown]
    at places
  rw [count_applied applied behind]
  omega

/-- The lines up to the cursor are applied as long as none of them is
under way. -/
theorem appliedOnce_cursor_iff (held : Cursored options start s)
    (settled : Settled options start s) (before : AppliedOnce start s) :
    AppliedOnce (s.cursor options) s ↔ NothingMissed options s := by
  obtain ⟨earlier, applied⟩ := settled.earlier
  constructor
  · intro once entry underway within
    by_contra bears
    have published := held.accounts.placed.published underway
    obtain ⟨listed, behind, -⟩ := held.accounts.bounds published
    have written := once entry listed within bears
    rw [count_applied applied behind] at written
    have here := List.count_pos_iff.mpr underway
    have places := count_places held.accounts entry
    have single :=
      List.nodup_iff_count_le_one.mp held.accounts.enqueued_nodup entry
    omega
  · intro nothing entry listed within bears
    by_cases early : entry.line ≤ start
    · exact before entry listed early bears
    have behind : start < entry.line := Nat.lt_of_not_le early
    have late := held.late
    exact settled.count_eq_one held listed behind (by omega)
      (fun underway => bears (nothing entry underway within)) bears

/-! ## Commits -/

/-- The offset that a step saves together with its deltas. -/
def Pipeline.saves (options : Options) (s : Pipeline) :
    PipelineAction → Option Nat
  | .loop choice =>
      match s.loop with
      | .resolving resolution =>
          if resolution.remaining = [] ∧
              (transact choice.failure
                (applyDeltasStatements resolution.usage resolution.dests
                  ⟨options.logPath, resolution.offset⟩)
                s.host.database).1.isOk then some resolution.offset
          else none
      | _ => none
  | _ => none

/-- When deltas are saved with an offset, no record before the offset is
still being handed to the queue or waits in it, those exempted apart. -/
def SavesAll (options : Options) (s : Pipeline)
    (action : PipelineAction) : Prop :=
  ∀ offset ∈ s.saves options action, ∀ entry ∈ s.inHand ++ s.queue,
    entry.line ≤ offset → s.trace.Exempts entry

instance (options : Options) (s : Pipeline) (action : PipelineAction) :
    Decidable (SavesAll options s action) :=
  inferInstanceAs (Decidable (∀ offset ∈ s.saves options action, _))

theorem cursor_act_of_unfinished {action : PipelineAction}
    (unfinished : ∀ choice resolution, action = .loop choice →
      s.loop = .resolving resolution → resolution.remaining ≠ []) :
    (s.act options action).cursor options = s.cursor options := by
  rcases cursor_of_move (@move_act _ options s action) with
    same | ⟨choice, resolution, loop, resolving, finished, -⟩
  · exact same
  · exact absurd finished (unfinished choice resolution loop resolving)

/-- A step saves nothing and leaves the cursor alone, or it commits. -/
theorem saves_cases (options : Options) (s : Pipeline)
    (action : PipelineAction) :
    (s.saves options action = none ∧
        (s.act options action).cursor options = s.cursor options) ∨
      ∃ resolution database, s.loop = .resolving resolution ∧
        s.saves options action = some resolution.offset ∧
        executeAll
          (applyDeltasStatements resolution.usage resolution.dests
            ⟨options.logPath, resolution.offset⟩) s.host.database =
              .ok database ∧
        s.act options action =
          { s.withDatabase database with
            lastPersisted := resolution.offset
            loop := .waiting
            trace := s.trace.commit resolution.idOf resolution.usage
              resolution.dests } := by
  cases action with
  | loop choice =>
      cases phase : s.loop with
      | resolving resolution =>
          by_cases finished : resolution.remaining = []
          · have made : s.act options (.loop choice) =
                s.applyBatch options choice.failure resolution := by
              simp only [Pipeline.act, Pipeline.stepLoop, phase, finished]
            simp only [Pipeline.saves, phase, finished, true_and]
            rw [made, Pipeline.applyBatch]
            rcases @transact_cases Database GoError choice.failure
                (applyDeltasStatements resolution.usage resolution.dests
                  ⟨options.logPath, resolution.offset⟩) s.host.database with
              ⟨error, failed⟩ | ⟨after, committed, done⟩
            · rw [failed]
              exact .inl ⟨if_neg Bool.false_ne_true, rfl⟩
            · rw [committed]
              exact .inr ⟨resolution, after, rfl, if_pos rfl, done, rfl⟩
          · left
            refine ⟨?_, cursor_act_of_unfinished ?_⟩
            · simp only [Pipeline.saves, phase, finished, false_and, if_false]
            · intro _ other _ resolving
              rw [phase] at resolving
              obtain rfl := LoopPhase.resolving.inj resolving
              exact finished
      | _ =>
          left
          refine ⟨by simp only [Pipeline.saves, phase],
            cursor_act_of_unfinished ?_⟩
          intro _ other _ resolving
          rw [phase] at resolving
          cases resolving
  | _ =>
      exact .inl ⟨rfl, cursor_act_of_unfinished fun _ _ loop =>
        (by cases loop)⟩

theorem excused_subset (move : Move options s action after) :
    s.trace.excused ⊆ after.trace.excused := by
  have added : ∀ entry slot,
      s.trace.excused ⊆ (s.trace.add entry slot).excused := by
    intro entry slot
    unfold Trace.add
    by_cases nobody : entry.record.unattributable = true
    · rw [if_pos nobody]
      exact List.subset_append_left _ _
    · rw [if_neg nobody]
      exact List.Subset.refl _
  cases move with
  | drop => exact List.subset_append_left _ _
  | direct | receive => exact added _ _
  | commit => exact List.subset_append_left _ _
  | _ => exact List.Subset.refl _

/-- A step that leaves the cursor alone misses nothing. -/
theorem NothingMissed.keep (nothing : NothingMissed options s)
    (held : Cursored options start s)
    (move : Move options s action after)
    (same : after.cursor options = s.cursor options) :
    NothingMissed options after := by
  intro entry underway within
  rw [same] at within
  rcases held.arrives move underway with old | ⟨-, behind⟩
  · exact (nothing entry old within).imp id fun given =>
      excused_subset move given
  · omega

/-- A commit misses what is not in its batch. -/
theorem nothingMissed_commit_iff (held : Cursored options start s)
    {resolution : Resolution} {database : Database}
    (resolving : s.loop = .resolving resolution)
    (done : executeAll
      (applyDeltasStatements resolution.usage resolution.dests
        ⟨options.logPath, resolution.offset⟩) s.host.database =
          .ok database)
    (result : after.host.database = database)
    (tailer : after.tailer = s.tailer) (queue : after.queue = s.queue)
    (trace : after.trace =
      s.trace.commit resolution.idOf resolution.usage resolution.dests) :
    NothingMissed options after ↔
      ∀ entry ∈ s.inHand ++ s.queue, entry.line ≤ resolution.offset →
        s.trace.Exempts entry := by
  have flying : s.flight = some resolution.pending := by
    rw [Pipeline.flight, resolving]
  have pending : s.trace.pending = [] :=
    held.taken (by rw [flying]; exact Option.some_ne_none _)
  have counted := held.accounts.charged.counted
  have single : s.retry = [] := by
    apply counted.single.resolve_left
    rw [flying]
    exact Option.some_ne_none _
  have retried := counted.retried_eq_nil single
  have underway : after.underway = s.inHand ++ s.queue := by
    have waiting : (s.trace.commit resolution.idOf resolution.usage
        resolution.dests).waiting = [] := by
      simp only [Trace.waiting, Trace.commit, pending, retried,
        List.append_nil]
    rw [Pipeline.underway, Pipeline.inHand, tailer, queue, trace, waiting]
    exact List.append_nil _
  rw [NothingMissed, underway, cursor_commit done result, trace]
  refine forall₂_congr fun entry listed => imp_congr_right fun _ => ?_
  constructor
  · rintro (nobody | given)
    · exact .inl nobody
    rcases List.mem_append.mp given with before | unknown
    · exact .inr before
    -- The line of a record in the batch is not that of another one.
    obtain ⟨posting, discarded, same⟩ := List.mem_map.mp unknown
    have batched : posting.entry ∈ entriesIn s.trace.batch :=
      List.mem_map_of_mem (List.mem_filter.mp discarded).1
    have first : entry ∈ s.underway := by
      rw [Pipeline.underway]
      exact List.mem_append_left _ listed
    have second : posting.entry ∈ s.underway :=
      mem_underway.mpr (.inr (.inr (.inr (.inl batched))))
    have equal : posting.entry = entry :=
      List.inj_on_of_nodup_map (logEntries_lines_nodup s.log)
        (held.accounts.bounds (held.accounts.placed.published second)).1
        (held.accounts.bounds (held.accounts.placed.published first)).1 same
    rw [equal] at batched
    have places := placed_iff.mp held.accounts.placed entry
    have once :=
      List.nodup_iff_count_le_one.mp held.accounts.enqueued_nodup entry
    have here := List.count_pos_iff.mpr listed
    have there := List.count_pos_iff.mpr batched
    rw [List.count_append] at here
    omega
  · exact Or.imp id fun given => List.mem_append_left _ given

omit [Build] in
theorem add_appliedEntries (trace : Trace) (entry : Entry)
    (slot : DestKey) :
    (trace.add entry slot).appliedEntries = trace.appliedEntries := by
  rw [Trace.appliedEntries, trace.add_eq entry slot]
  rfl

/-- What was applied up to the start is applied for good. -/
theorem AppliedOnce.move (once : AppliedOnce start s)
    (held : Cursored options start s) (running : action ≠ .restart)
    (move : Move options s action after) : AppliedOnce start after := by
  have inside := held.accounts.tailed.started.inside
  have listed : ∀ entry ∈ logEntries after.log, entry.line ≤ start →
      entry ∈ logEntries s.log := by
    intro entry member early
    cases move with
    | append bytes =>
        rcases mem_logEntries_append bytes member with old | new
        · exact old
        · omega
    | _ => exact member
  have applied : ∀ entry, entry.line ≤ start →
      after.trace.appliedEntries.count entry =
        s.trace.appliedEntries.count entry := by
    intro entry early
    cases move with
    | commit choice resolution database resolving finished done =>
        have absent : entry ∉ (chargesOf resolution.idOf
            s.trace.batch).map fun charge => charge.2.entry := by
          intro charged
          obtain ⟨charge, made, rfl⟩ := List.mem_map.mp charged
          obtain ⟨posting, known, rfl⟩ := List.mem_map.mp made
          have batched : posting.entry ∈ entriesIn s.trace.batch :=
            List.mem_map_of_mem (List.mem_filter.mp known).1
          have bounds := held.accounts.bounds
            (held.accounts.placed.published
              (mem_underway.mpr (.inr (.inr (.inr (.inl batched))))))
          have late := bounds.2.1
          change posting.entry.line ≤ start at early
          omega
        have split : (s.trace.commit resolution.idOf resolution.usage
            resolution.dests).appliedEntries = s.trace.appliedEntries ++
              (chargesOf resolution.idOf s.trace.batch).map fun charge =>
                charge.2.entry := List.map_append
        refine (congrArg (List.count entry) split).trans ?_
        rw [List.count_append, List.count_eq_zero.mpr absent, Nat.add_zero]
    | direct | receive =>
        exact congrArg (List.count entry) (add_appliedEntries _ _ _)
    | _ => rfl
  intro entry member early bears
  rw [applied entry early]
  apply once entry (listed entry member early) early
  exact fun exempt => bears (exempt.imp id fun given =>
    excused_subset move given)

/-- What is needed to tell whether the next step misses a line. -/
def Tracked (options : Options) (s : Pipeline) : Prop :=
  ∃ start, Cursored options start s ∧ Settled options start s ∧
    AppliedOnce start s

theorem tracked_initial (options : Options) :
    Tracked options (Pipeline.initial options) :=
  ⟨0, cursored_initial options, settled_initial options,
    fun _ listed => (by cases listed)⟩

theorem Tracked.act (tracked : Tracked options s)
    (caught : AppliedOnce (s.cursor options) s) (action : PipelineAction) :
    Tracked options (s.act options action) ∧
      (AppliedOnce ((s.act options action).cursor options)
          (s.act options action) ↔
        SavesAll options s action) := by
  obtain ⟨start, held, settled, before⟩ := tracked
  have move : Move options s action (s.act options action) :=
    move_act action
  by_cases restarts : action = .restart
  · subst restarts
    have held' := held.restart
    have settled' := settled.restart held
    have before' : AppliedOnce (s.cursor options) (s.restart options) :=
      caught
    refine ⟨⟨_, held', settled', before'⟩, ?_⟩
    refine iff_of_true before' fun _ saved => ?_
    cases saved
  have held' := held.move restarts move
  have settled' := settled.move held restarts move
  have before' := before.move held restarts move
  refine ⟨⟨start, held', settled', before'⟩, ?_⟩
  have nothing := (appliedOnce_cursor_iff held settled before).mp caught
  rw [appliedOnce_cursor_iff held' settled' before']
  rcases saves_cases options s action with
    ⟨none, same⟩ | ⟨resolution, database, resolving, some, done, made⟩
  · refine iff_of_true (nothing.keep held move same) ?_
    rw [SavesAll, none]
    exact fun _ saved => (by cases saved)
  · rw [SavesAll, some, made]
    refine Iff.trans (nothingMissed_commit_iff held resolving done
      rfl rfl rfl rfl) ?_
    simp

theorem Tracked.tick (tracked : Tracked options s) :
    Tracked options s.tick := by
  obtain ⟨start, held, settled, before⟩ := tracked
  exact ⟨start, held.tick, settled.tick, before⟩

/-- Every line up to the cursor has been applied once in every state of
exactly those runs in which each flush saves all that lies before its
offset. -/
theorem applied_states_iff (options : Options)
    (actions : List PipelineAction) :
    (∀ count, AppliedOnce ((Runs.run (Pipeline.step options)
          (actions.take count) (Pipeline.initial options)).cursor options)
        (Runs.run (Pipeline.step options) (actions.take count)
          (Pipeline.initial options))) ↔
      Runs.Meets (Pipeline.step options) (SavesAll options) actions
        (Pipeline.initial options) := by
  apply @Runs.states_iff_meets_of_invariant _ _ _ _ (Tracked options)
    fun s => AppliedOnce (s.cursor options) s
  · intro s action tracked caught
    obtain ⟨next, iff⟩ := tracked.act caught action
    exact ⟨next.tick, iff⟩
  · exact tracked_initial options
  · exact fun _ listed => (by cases listed)

/-- What a step applies is what it adds to the rows. -/
theorem Kept.enters (kept : Kept options s) (action : PipelineAction) :
    ∃ charges,
      Enters s action (Pipeline.step options action s) charges := by
  have charged : Charged s := by
    obtain ⟨start, held, -⟩ := kept
    exact held.accounts.charged
  obtain ⟨charges, enters⟩ := kept.grounded.balanced.enters charged
    (@move_act _ options s action)
  exact ⟨charges, enters.applied, enters.committed, enters.tables⟩

/-- Every line up to the cursor has been applied once, those exempted
apart; what is applied is in the tables: every row amounts to what was
applied to it, less what was removed, and the next step adds to the rows
what it applies. -/
structure CaughtUp (options : Options) (s : Pipeline) : Prop where
  lines : AppliedOnce (s.cursor options) s
  rows : s.trace.ledger.Sublist (s.trace.applied.flatMap chargeRows)
  amounts : LogFits s.log → ∀ key, amountAt s.host.database key =
    tally (ledgerBookings s.trace.ledger) key
  enters : LogFits s.log → ∀ action, ∃ charges,
    Enters s action (Pipeline.step options action s) charges

theorem Kept.caughtUp_iff (kept : Kept options s) :
    CaughtUp options s ↔ AppliedOnce (s.cursor options) s := by
  refine ⟨CaughtUp.lines, fun lines => ?_⟩
  have balanced := kept.grounded.balanced
  exact ⟨lines, balanced.rows, fun _ => balanced.amounts,
    fun _ => kept.enters⟩

/-- The records up to the cursor are in the tables, each once, in every
state of exactly those runs in which no flush saves an offset before which
records are still on their way from the tailer to the queue. -/
theorem caught_up_iff (options : Options) (actions : List PipelineAction) :
    (∀ count, CaughtUp options
        (Runs.run (Pipeline.step options) (actions.take count)
          (Pipeline.initial options))) ↔
      Runs.Meets (Pipeline.step options) (SavesAll options) actions
        (Pipeline.initial options) := by
  rw [← applied_states_iff]
  refine forall_congr' fun count => ?_
  exact (kept_run options (actions.take count)).caughtUp_iff

/-- The cursor stands for what is in the ledger: every line up to it has
been applied once, those exempted apart, and no line behind it has been;
and a step adds to the rows what it applies. -/
structure CursorExact (options : Options) (s : Pipeline) : Prop where
  once : AppliedOnce (s.cursor options) s
  behind : ∀ entry ∈ s.trace.appliedEntries,
    entry.line ≤ s.cursor options
  enters : LogFits s.log → ∀ action, ∃ charges,
    Enters s action (Pipeline.step options action s) charges

/-- The cursor never runs ahead of the ledger in exactly those runs in which
every record before a saved offset has left the tailer and the queue. -/
theorem cursor_exact_iff (options : Options)
    (actions : List PipelineAction) :
    (∀ count, CursorExact options
        (Runs.run (Pipeline.step options) (actions.take count)
          (Pipeline.initial options))) ↔
      Runs.Meets (Pipeline.step options) (SavesAll options) actions
        (Pipeline.initial options) := by
  rw [← applied_states_iff]
  refine forall_congr' fun count => ?_
  have kept := kept_run options (actions.take count)
  refine ⟨CursorExact.once, fun once => ⟨once, ?_, fun _ => kept.enters⟩⟩
  exact fun entry listed => (kept.neverAhead.logged entry listed).2

end Applying

/-- A flush between the publication of an offset and the queue. -/
def overtakingFlush : List PipelineAction :=
  [createAccount "alice",
    .append (bytesOf (connectionLine "alice" "a.example")),
    .tailer {}, .tailer {}] ++ flushPass 0 0

/-- The process is killed behind that flush, and a new one reads on. -/
def overtakenLine : List PipelineAction :=
  overtakingFlush ++ .restart :: (tailerPass 1 ++ flushPass 1 1)

/-- The state in which that ends. -/
def overtaken : Pipeline :=
  Runs.run (@Pipeline.step Build.dev sampleOptions) overtakenLine
    (Pipeline.initial sampleOptions)

theorem overtaken_unapplied :
    ∃ entry ∈ @logEntries Build.dev overtaken.log,
      entry.line ≤ overtaken.cursor sampleOptions ∧
        ¬overtaken.trace.Exempts entry ∧
        overtaken.trace.appliedEntries.count entry = 0 := by
  decide +kernel

/-- The cursor has passed a line that nobody will ever apply. -/
theorem crash_loses_line :
    ¬ ∀ actions, @CursorExact Build.dev sampleOptions
      (Runs.run (@Pipeline.step Build.dev sampleOptions) actions
        (Pipeline.initial sampleOptions)) := by
  intro always
  have once := @CursorExact.once Build.dev _ _ (always overtakenLine)
  obtain ⟨entry, listed, before, bears, none⟩ := overtaken_unapplied
  have one : overtaken.trace.appliedEntries.count entry = 1 :=
    once entry listed before bears
  omega

/-- A flush behind the tailer. -/
def orderlyFlush : List PipelineAction :=
  [createAccount "alice",
    .append (bytesOf (connectionLine "alice" "a.example"))] ++
    tailerPass 1 ++ flushPass 1 1

example :
    Runs.Meets (@Pipeline.step Build.dev sampleOptions)
        (SavesAll sampleOptions) orderlyFlush
        (Pipeline.initial sampleOptions) ∧
      amountAt (Runs.run (@Pipeline.step Build.dev sampleOptions)
          orderlyFlush (Pipeline.initial sampleOptions)).host.database
        (.usage 1 "2025-10-13" "day") =
          { requests := 1, bytesIn := 20, bytesOut := 10 } := by
  decide +kernel

end Xoxproxy.Analytics
