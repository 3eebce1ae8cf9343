import Xoxproxy.Analytics.Balance
import Xoxproxy.Analytics.Conservation
import Xoxproxy.Analytics.Tailing

/-!
# The persisted cursor

The cursor is saved with the deltas of a flush, and a process that starts
reads behind it.  However the log grows and whenever the process is killed,
it stands behind a complete line that the tailer has published, and never
goes back.
-/

namespace Xoxproxy.Analytics

open AssociationMaps RowTables Transactions

section LogEntries

variable [Build] {log : Bytes} {start stop : Nat} {entry : Entry}

/-- The records of all complete lines. -/
def logEntries (log : Bytes) : List Entry :=
  entriesOf 0 (completeLines log)

/-- The records of the complete lines between two positions. -/
def entriesBetween (log : Bytes) (start stop : Nat) : List Entry :=
  entriesOf start (linesBetween log start stop)

theorem bounds_of_mem_lines {bytes : Bytes}
    (listed : entry ∈ entriesOf start (completeLines bytes)) :
    start < entry.line ∧
      entry.line ≤ start + (completeLines bytes).flatten.length :=
  entriesOf_bounds (completeLines_nonempty bytes) entry listed

theorem bounds_of_mem_between (startBoundary : LineBoundary log start)
    (stopBoundary : LineBoundary log stop) (ordered : start ≤ stop)
    (listed : entry ∈ entriesBetween log start stop) :
    start < entry.line ∧ entry.line ≤ stop := by
  have bounds := bounds_of_mem_lines listed
  have length := length_linesBetween startBoundary stopBoundary ordered
  rw [linesBetween] at length
  omega

/-- The entries up to a boundary, those up to the next and those behind
it. -/
theorem logEntries_split (startBoundary : LineBoundary log start)
    (stopBoundary : LineBoundary log stop) (ordered : start ≤ stop) :
    logEntries log =
      entriesBetween log 0 start ++ entriesBetween log start stop ++
        entriesOf stop (completeLines (log.drop stop)) := by
  have lines : completeLines log =
      linesBetween log 0 stop ++ completeLines (log.drop stop) := by
    rw [linesBetween, List.drop_zero,
      ← completeLines_whole_append stopBoundary.whole,
      List.take_append_drop]
  have early := length_linesBetween (boundary_zero log) startBoundary
    (Nat.zero_le start)
  have late := length_linesBetween (boundary_zero log) stopBoundary
    (Nat.zero_le stop)
  rw [logEntries, lines, entriesOf_append, late,
    linesBetween_trans (boundary_zero log) startBoundary (Nat.zero_le start)
      ordered, entriesOf_append, early]
  rfl

/-- The entries between two boundaries are those with lines there. -/
theorem mem_entriesBetween (startBoundary : LineBoundary log start)
    (stopBoundary : LineBoundary log stop) (ordered : start ≤ stop) :
    entry ∈ entriesBetween log start stop ↔
      entry ∈ logEntries log ∧ start < entry.line ∧ entry.line ≤ stop := by
  constructor
  · intro listed
    refine ⟨?_, bounds_of_mem_between startBoundary stopBoundary ordered
      listed⟩
    rw [logEntries_split startBoundary stopBoundary ordered]
    simp [listed]
  · rintro ⟨listed, behind, within⟩
    rw [logEntries_split startBoundary stopBoundary ordered,
      List.mem_append, List.mem_append] at listed
    rcases listed with (before | between) | after
    · have bounds := bounds_of_mem_between (boundary_zero log) startBoundary
        (Nat.zero_le start) before
      omega
    · exact between
    · have bounds := bounds_of_mem_lines after
      omega

theorem entriesBetween_nodup : (entriesBetween log start stop).Nodup :=
  (entriesOf_sorted (completeLines_nonempty _)).imp fun ordered same => by
    rw [same] at ordered
    exact Nat.lt_irrefl _ ordered

theorem logEntries_lines_nodup (log : Bytes) :
    ((logEntries log).map Entry.line).Nodup := by
  rw [List.Nodup, List.pairwise_map]
  exact (entriesOf_sorted (completeLines_nonempty log)).imp Nat.ne_of_lt

omit [Build] in
theorem unfinished_free (bytes : Bytes) : newline ∉ unfinished bytes := by
  induction bytes with
  | nil => simp [unfinished]
  | cons byte rest inductionHypothesis =>
      by_cases ends : byte = newline
      · subst ends
        rw [unfinished, completeLines_cons_newline]
        exact inductionHypothesis
      · cases lines : completeLines rest with
        | nil =>
            have shape : completeLines (byte :: rest) = [] := by
              rw [completeLines_cons_of_ne _ ends, lines]
            rw [unfinished, lines] at inductionHypothesis
            rw [unfinished, shape]
            intro listed
            rcases List.mem_cons.mp listed with same | later
            · exact ends same.symm
            · exact inductionHypothesis later
        | cons line later =>
            have shape : completeLines (byte :: rest) =
                (byte :: line) :: later := by
              rw [completeLines_cons_of_ne _ ends, lines]
            rw [unfinished, lines] at inductionHypothesis
            rw [unfinished, shape]
            exact inductionHypothesis

omit [Build] in
/-- A text without newline is part of the first line that is complete. -/
theorem length_first_line {rest : Bytes} (free : newline ∉ rest)
    (more : Bytes) :
    ∀ line ∈ (completeLines (rest ++ more)).head?,
      rest.length < line.length := by
  induction rest with
  | nil =>
      intro line first
      exact List.length_pos_of_ne_nil (completeLines_nonempty more line
        (List.mem_of_mem_head? first))
  | cons byte rest inductionHypothesis =>
      have ends : byte ≠ newline := fun same => free (by simp [same])
      have shorter := inductionHypothesis fun listed =>
        free (List.mem_cons_of_mem byte listed)
      rw [List.cons_append, completeLines_cons_of_ne _ ends]
      intro line first
      cases lines : completeLines (rest ++ more) with
      | nil =>
          rw [lines] at first
          cases first
      | cons one later =>
          rw [lines] at first shorter
          obtain rfl := Option.some.inj first
          have one := shorter one rfl
          rw [List.length_cons, List.length_cons]
          omega

theorem le_of_mem_entriesOf {lines : List Bytes}
    (listed : entry ∈ entriesOf start lines) : start ≤ entry.line := by
  induction lines generalizing start with
  | nil => cases listed
  | cons line lines inductionHypothesis =>
      rw [entriesOf] at listed
      cases record : readRecord line with
      | none =>
          rw [record] at listed
          exact Nat.le_trans (Nat.le_add_right _ _)
            (inductionHypothesis listed)
      | some found =>
          rw [record] at listed
          rcases List.mem_cons.mp listed with rfl | later
          · exact Nat.le_add_right _ _
          · exact Nat.le_trans (Nat.le_add_right _ _)
              (inductionHypothesis later)

theorem behind_first_line {lines : List Bytes}
    (listed : entry ∈ entriesOf start lines) :
    ∃ line ∈ lines.head?, start + line.length ≤ entry.line := by
  cases lines with
  | nil => cases listed
  | cons line lines =>
      refine ⟨line, rfl, ?_⟩
      rw [entriesOf] at listed
      cases record : readRecord line with
      | none =>
          rw [record] at listed
          exact le_of_mem_entriesOf listed
      | some found =>
          rw [record] at listed
          rcases List.mem_cons.mp listed with rfl | later
          · exact Nat.le_refl _
          · exact le_of_mem_entriesOf later

/-- Lines that an appended text completes end in it. -/
theorem mem_logEntries_append (more : Bytes)
    (listed : entry ∈ logEntries (log ++ more)) :
    entry ∈ logEntries log ∨ log.length < entry.line := by
  rw [logEntries, completeLines_append, entriesOf_append, List.mem_append]
    at listed
  rcases listed with old | new
  · exact .inl old
  · obtain ⟨line, first, behind⟩ := behind_first_line new
    have longer := length_first_line (unfinished_free log) more line first
    have parts := congrArg List.length (flatten_completeLines_append log)
    rw [List.length_append] at parts
    exact .inr (by omega)

theorem mem_logEntries_grow (more : Bytes)
    (listed : entry ∈ logEntries log) : entry ∈ logEntries (log ++ more) := by
  rw [logEntries, completeLines_append, entriesOf_append]
  exact List.mem_append_left _ listed

end LogEntries

/-! ## Where the cursor stands -/

/-- The position behind which a restarted process reads. -/
def Pipeline.cursor (options : Options) (s : Pipeline) : Nat :=
  Pipeline.resumeOffset options s.host.database

/-- The records that the tailer has published and that have not reached
the ledger. -/
def Pipeline.underway (s : Pipeline) : List Entry :=
  s.inHand ++ s.queue ++ entriesIn s.trace.waiting

theorem mem_underway {s : Pipeline} {entry : Entry} :
    entry ∈ s.underway ↔ entry ∈ s.inHand ∨ entry ∈ s.queue ∨
      entry ∈ entriesIn s.trace.pending ∨ entry ∈ entriesIn s.trace.batch ∨
        entry ∈ entriesIn s.trace.retried := by
  simp only [Pipeline.underway, Trace.waiting, entriesIn, List.map_append,
    List.mem_append]
  tauto

/-- An offset that was read for a flush: it covers the batch. -/
structure Located (options : Options) (s : Pipeline) (offset : Nat) :
    Prop where
  boundary : LineBoundary s.log offset
  behind : s.cursor options ≤ offset
  within : offset ≤ s.tailer.offset
  covers : ∀ entry ∈ entriesIn s.trace.batch, entry.line ≤ offset

section Cursors

variable [Build]

/-- What the tailer, the flush and the tables keep. -/
structure Accountable (start : Nat) (s : Pipeline) : Prop where
  tailed : Tailed start s
  charged : Charged s
  placed : Placed s
  balanced : Balanced s

/-- The cursor of a process that started at a position. -/
structure Cursored (options : Options) (start : Nat) (s : Pipeline) :
    Prop where
  accounts : Accountable start s
  boundary : LineBoundary s.log (s.cursor options)
  early : start ≤ s.cursor options
  late : s.cursor options ≤ s.tailer.offset
  located : ∀ resolution, s.loop = .resolving resolution →
    Located options s resolution.offset
  taken : s.flight ≠ none → s.trace.pending = []

variable {options : Options} {start : Nat} {s after : Pipeline}
variable {action : PipelineAction}

omit [Build] in
/-- What is under way was published. -/
theorem Placed.published (placed : Placed s) {entry : Entry}
    (underway : entry ∈ s.underway) : entry ∈ s.trace.enqueued := by
  rw [placed.mem_iff]
  simp only [Pipeline.places, List.flatten_cons, List.flatten_nil,
    List.mem_append]
  rcases mem_underway.mp underway with
    hand | queued | pending | batch | retried
  · exact .inl hand
  · exact .inr (.inl queued)
  · exact .inr (.inr (.inl pending))
  · exact .inr (.inr (.inr (.inl batch)))
  · exact .inr (.inr (.inr (.inr (.inl retried))))

theorem Accountable.bounds (held : Accountable start s)
    {entry : Entry} (listed : entry ∈ s.trace.enqueued) :
    entry ∈ logEntries s.log ∧ start < entry.line ∧
      entry.line ≤ s.tailer.offset := by
  rw [held.tailed.handed] at listed
  exact (mem_entriesBetween held.tailed.started held.tailed.published
    held.tailed.behind).mp listed

theorem Accountable.move (held : Accountable start s)
    (running : action ≠ .restart) (move : Move options s action after) :
    Accountable start after where
  tailed := held.tailed.move running move
  charged := held.charged.move move
  placed := held.placed.move held.charged.counted move
  balanced := held.balanced.move held.charged move

omit [Build] in
theorem cursor_of_same
    (same : after.host.database.logCursor = s.host.database.logCursor) :
    after.cursor options = s.cursor options := by
  rw [Pipeline.cursor, Pipeline.cursor, Pipeline.resumeOffset,
    Pipeline.resumeOffset, same]

omit [Build] in
theorem AccountChange.cursor {database changed : Database}
    (change : AccountChange database changed) :
    changed.logCursor = database.logCursor := by
  cases change with
  | kept _ _ _ _ _ cursor => exact cursor
  | created _ _ _ _ _ _ _ cursor => exact cursor
  | deleted id => rfl

omit [Build] in
theorem Resolution.charge_offset (resolution : Resolution)
    (delta : PendingDelta) (rest : List PendingDelta) (id : Int) :
    (resolution.charge delta rest id).offset = resolution.offset := by
  by_cases unknown : id = 0
  · rw [Resolution.charge, if_pos unknown]
  · rw [Resolution.charge, if_neg unknown]

/-- The cursor stands where it stood, and the log has grown at most. -/
structure CursorStays (options : Options) (s after : Pipeline) : Prop where
  log : ∃ more, after.log = s.log ++ more
  cursor : after.cursor options = s.cursor options
  offset : s.tailer.offset ≤ after.tailer.offset
  located : ∀ resolution, after.loop = .resolving resolution →
    after.trace.batch = s.trace.batch ∧
      ∃ before, s.loop = .resolving before ∧
        before.offset = resolution.offset

theorem Cursored.of_stays (held : Cursored options start s)
    (stays : CursorStays options s after)
    (accounts : Accountable start after)
    (taken : after.flight ≠ none → after.trace.pending = []) :
    Cursored options start after := by
  obtain ⟨more, log⟩ := stays.log
  have offset := stays.offset
  have late := held.late
  refine ⟨accounts, ?_, ?_, ?_, ?_, taken⟩
  · rw [log, stays.cursor]
    exact held.boundary.append more
  · rw [stays.cursor]
    exact held.early
  · rw [stays.cursor]
    omega
  · intro resolution resolving
    obtain ⟨batch, before, found, same⟩ := stays.located resolution resolving
    have located := held.located before found
    have within := located.within
    rw [same] at located within
    refine ⟨?_, ?_, by omega, ?_⟩
    · rw [log]
      exact located.boundary.append more
    · rw [stays.cursor]
      exact located.behind
    · rw [batch]
      exact located.covers

omit [Build] in
/-- Neither the log nor the offsets are touched. -/
theorem cursorStays_of_same (log : after.log = s.log)
    (cursor : after.host.database.logCursor = s.host.database.logCursor)
    (offset : after.tailer.offset = s.tailer.offset)
    (located : ∀ resolution, after.loop = .resolving resolution →
      after.trace.batch = s.trace.batch ∧
        ∃ before, s.loop = .resolving before ∧
          before.offset = resolution.offset) :
    CursorStays options s after where
  log := ⟨[], by rw [log, List.append_nil]⟩
  cursor := cursor_of_same cursor
  offset := by rw [offset]
  located := located

omit [Build] in
theorem cursorStays_of_loop (log : after.log = s.log)
    (cursor : after.host.database.logCursor = s.host.database.logCursor)
    (offset : after.tailer.offset = s.tailer.offset)
    (loop : after.loop = s.loop)
    (batch : after.trace.batch = s.trace.batch) :
    CursorStays options s after := by
  apply cursorStays_of_same log cursor offset
  intro resolution resolving
  rw [loop] at resolving
  exact ⟨batch, resolution, resolving, rfl⟩

omit [Build] in
theorem add_batch (trace : Trace) (entry : Entry) (slot : DestKey) :
    (trace.add entry slot).batch = trace.batch := by
  rw [trace.add_eq entry slot]

omit [Build] in
/-- A commit moves the cursor to the offset that was read for it. -/
theorem cursor_commit {resolution : Resolution} {database : Database}
    (done : executeAll
      (applyDeltasStatements resolution.usage resolution.dests
        ⟨options.logPath, resolution.offset⟩) s.host.database =
          .ok database)
    (result : after.host.database = database) :
    after.cursor options = resolution.offset := by
  obtain ⟨-, saved⟩ := books_applyDeltas done
  rw [Pipeline.cursor, Pipeline.resumeOffset, result, saved]
  simp

theorem Cursored.commit (held : Cursored options start s)
    {resolution : Resolution} {database : Database}
    (resolving : s.loop = .resolving resolution)
    (done : executeAll
      (applyDeltasStatements resolution.usage resolution.dests
        ⟨options.logPath, resolution.offset⟩) s.host.database =
          .ok database)
    (result : after.host.database = database)
    (log : after.log = s.log) (tailer : after.tailer = s.tailer)
    (idle : after.loop = .waiting) (accounts : Accountable start after) :
    Cursored options start after := by
  have located := held.located resolution resolving
  have behind := located.behind
  have early := held.early
  have cursor := cursor_commit done result
  refine ⟨accounts, ?_, ?_, ?_, ?_, ?_⟩
  · rw [cursor, log]
    exact located.boundary
  · rw [cursor]
    omega
  · rw [cursor, tailer]
    exact located.within
  · rw [idle]
    exact fun _ wrong => (by cases wrong)
  · rw [Pipeline.flight, idle]
    exact fun flying => absurd rfl flying

theorem Cursored.move (held : Cursored options start s)
    (running : action ≠ .restart) (move : Move options s action after) :
    Cursored options start after := by
  have accounts := held.accounts.move running move
  have taken := held.taken
  cases move with
  | stay => exact held
  | append bytes =>
      exact held.of_stays
        ⟨⟨bytes, rfl⟩, cursor_of_same rfl, Nat.le_refl _,
          fun resolution resolving => ⟨rfl, resolution, resolving, rfl⟩⟩
        accounts taken
  | store op choice =>
      have change := accountChange_handle s.host op choice
      exact held.of_stays
        (cursorStays_of_loop rfl change.cursor rfl rfl rfl) accounts taken
  | reset id time failure database done =>
      have clears := clears_resetUsage done
      exact held.of_stays
        (cursorStays_of_loop rfl clears.cursor rfl rfl rfl) accounts taken
  | publish choice batch offset ready =>
      have forward := held.accounts.tailed.forward
      rw [Tailer.readEnd, ready] at forward
      exact held.of_stays
        ⟨⟨[], (List.append_nil _).symm⟩, cursor_of_same rfl, forward,
          fun resolution resolving => ⟨rfl, resolution, resolving, rfl⟩⟩
        accounts taken
  | prune | poll | handed | enqueue | drop =>
      exact held.of_stays (cursorStays_of_loop rfl rfl rfl rfl rfl)
        accounts taken
  | direct choice entry rest handing waiting =>
      refine held.of_stays (cursorStays_of_loop rfl rfl rfl rfl
        (add_batch _ _ _)) accounts ?_
      change s.flight ≠ none → _
      rw [Pipeline.flight, waiting]
      exact fun flying => absurd rfl flying
  | receive choice entry rest ready queued =>
      refine held.of_stays (cursorStays_of_loop rfl rfl rfl rfl
        (add_batch _ _ _)) accounts ?_
      change s.flight ≠ none → _
      rw [Pipeline.flight]
      rcases ready with waiting | draining
      · rw [waiting]
        exact fun flying => absurd rfl flying
      · rw [draining]
        exact fun flying => absurd rfl flying
  | beginFlush | skip | keep =>
      exact held.of_stays (cursorStays_of_same rfl rfl rfl
        fun _ wrong => (by cases wrong)) accounts
        fun flying => absurd rfl flying
  | take choice draining drained =>
      exact held.of_stays (cursorStays_of_same rfl rfl rfl
        fun _ wrong => (by cases wrong)) accounts fun _ => rfl
  | locate choice pending locating =>
      have flying : s.flight ≠ none := by
        rw [Pipeline.flight, locating]
        exact Option.some_ne_none pending
      refine ⟨accounts, held.boundary, held.early, held.late, ?_,
        fun _ => taken flying⟩
      intro resolution resolving
      obtain rfl := LoopPhase.resolving.inj resolving
      refine ⟨held.accounts.tailed.published, held.late, Nat.le_refl _, ?_⟩
      intro entry listed
      have underway : entry ∈ s.underway := by
        rw [mem_underway]
        exact .inr (.inr (.inr (.inl listed)))
      exact (held.accounts.bounds
        (held.accounts.placed.published underway)).2.2
  | resolve choice resolution delta rest id resolving next known =>
      have flying : s.flight ≠ none := by
        rw [Pipeline.flight, resolving]
        exact Option.some_ne_none _
      refine held.of_stays (cursorStays_of_same rfl rfl rfl ?_) accounts
        fun _ => taken flying
      intro other same
      obtain rfl := LoopPhase.resolving.inj same
      exact ⟨rfl, resolution, resolving,
        (resolution.charge_offset delta rest id).symm⟩
  | learn choice resolution delta rest id resolving next new =>
      have flying : s.flight ≠ none := by
        rw [Pipeline.flight, resolving]
        exact Option.some_ne_none _
      refine held.of_stays (cursorStays_of_same rfl rfl rfl ?_) accounts
        fun _ => taken flying
      intro other same
      obtain rfl := LoopPhase.resolving.inj same
      exact ⟨rfl, resolution, resolving,
        ((resolution.know delta.username id).charge_offset delta rest
          id).symm⟩
  | commit choice resolution database resolving finished done =>
      exact held.commit resolving done rfl rfl rfl rfl accounts
  | restart => exact absurd rfl running

/-- A process that has just started goes on behind the cursor. -/
theorem Cursored.restart (held : Cursored options start s) :
    Cursored options (s.cursor options) (s.restart options) where
  accounts := {
    tailed := tailed_restart held.boundary
    charged := held.accounts.charged.move .restart
    placed := held.accounts.placed.move held.accounts.charged.counted
      .restart
    balanced := held.accounts.balanced.move held.accounts.charged .restart }
  boundary := held.boundary
  early := Nat.le_refl _
  late := Nat.le_refl _
  located := fun _ wrong => (by cases wrong)
  taken := fun flying => absurd rfl flying

theorem Cursored.tick (held : Cursored options start s) :
    Cursored options start s.tick where
  accounts := {
    tailed := held.accounts.tailed.of_untouched rfl rfl rfl
    charged := held.accounts.charged.tick
    placed := held.accounts.placed
    balanced := held.accounts.balanced.tick }
  boundary := held.boundary
  early := held.early
  late := held.late
  located := fun resolution resolving =>
    have located := held.located resolution resolving
    ⟨located.boundary, located.behind, located.within, located.covers⟩
  taken := held.taken

theorem cursored_initial (options : Options) :
    Cursored options 0 (Pipeline.initial options) where
  accounts := {
    tailed := @tailed_restart _ options (Pipeline.initial options)
      (boundary_zero [])
    charged := charged_initial options
    placed := placed_initial options
    balanced := balanced_initial options }
  boundary := boundary_zero []
  early := Nat.le_refl _
  late := Nat.le_refl _
  located := fun _ wrong => (by cases wrong)
  taken := fun flying => absurd rfl flying

/-! ## What comes under way -/

omit [Build] in
theorem inHand_publish (batch : List Entry) (offset : Nat) :
    (s.publish batch offset).inHand = batch := by
  rw [Pipeline.inHand, Pipeline.publish]
  by_cases nothing : batch = []
  · rw [if_pos nothing, nothing]
  · rw [if_neg nothing]

omit [Build] in
theorem mem_add_waiting {trace : Trace} {entry other : Entry}
    {slot : DestKey}
    (listed : other ∈ entriesIn (trace.add entry slot).waiting) :
    other ∈ entriesIn trace.waiting ∨ other = entry := by
  unfold Trace.add at listed
  by_cases nobody : entry.record.unattributable = true
  · rw [if_pos nobody] at listed
    exact .inl listed
  · rw [if_neg nobody] at listed
    simp only [Trace.waiting, entriesIn, List.map_append, List.mem_append,
      List.map_cons, List.map_nil, List.mem_singleton, ← or_assoc] at listed ⊢
    exact listed

omit [Build] in
theorem mem_underway_of_fewer {waiting : List Posting}
    (fewer : waiting ⊆ s.trace.waiting) {entry : Entry}
    (listed : entry ∈ s.inHand ++ s.queue ++ entriesIn waiting) :
    entry ∈ s.underway := by
  rw [List.mem_append] at listed
  rw [Pipeline.underway, List.mem_append]
  exact listed.imp id fun waits => List.map_subset Posting.entry fewer waits

/-- A record comes under way from behind the cursor. -/
theorem Cursored.arrives (held : Cursored options start s)
    (move : Move options s action after) {entry : Entry}
    (underway : entry ∈ after.underway) :
    entry ∈ s.underway ∨
      entry ∈ logEntries s.log ∧ s.cursor options < entry.line := by
  cases move with
  | publish choice batch offset ready =>
      have tailed := held.accounts.tailed
      have read := tailed.read
      have forward := tailed.forward
      have late := held.late
      rw [Tailer.readEnd, ready] at read forward
      rw [Pipeline.underway, inHand_publish, List.append_assoc,
        List.mem_append] at underway
      rcases underway with new | old
      · rw [tailed.reading batch offset ready] at new
        obtain ⟨listed, behind, -⟩ :=
          (mem_entriesBetween tailed.published read forward).mp new
        exact .inr ⟨listed, by omega⟩
      · left
        rw [Pipeline.underway, List.append_assoc]
        exact List.mem_append_right _ old
  | stay | append | store | reset | prune | beginFlush | skip | locate |
      resolve | learn => exact .inl underway
  | poll choice idle =>
      have nothing : s.inHand = [] := by rw [Pipeline.inHand, idle]
      left
      rw [Pipeline.underway, nothing]
      exact underway
  | handed choice empty =>
      have nothing : s.inHand = [] := by rw [Pipeline.inHand, empty]
      left
      rw [Pipeline.underway, nothing]
      exact underway
  | enqueue choice head rest handing room =>
      have hand : s.inHand = head :: rest := by
        rw [Pipeline.inHand, handing]
      left
      simp only [Pipeline.underway, hand, List.mem_append, List.mem_cons]
      simp only [Pipeline.underway, Pipeline.inHand, List.mem_append,
        List.mem_singleton] at underway
      tauto
  | direct choice head rest handing waiting =>
      have hand : s.inHand = head :: rest := by
        rw [Pipeline.inHand, handing]
      left
      simp only [Pipeline.underway, hand, List.mem_append, List.mem_cons]
      simp only [Pipeline.underway, Pipeline.addEntry, Pipeline.inHand,
        List.mem_append] at underway
      rcases underway with (inHand | queued) | waits
      · exact .inl (.inl (.inr inHand))
      · exact .inl (.inr queued)
      · rcases mem_add_waiting waits with old | rfl
        · exact .inr old
        · exact .inl (.inl (.inl rfl))
  | drop choice head rest handing =>
      have hand : s.inHand = head :: rest := by
        rw [Pipeline.inHand, handing]
      left
      simp only [Pipeline.underway, hand, List.mem_append, List.mem_cons]
      simp only [Pipeline.underway, Pipeline.inHand, List.mem_append]
        at underway
      rcases underway with (inHand | queued) | waits
      · exact .inl (.inl (.inr inHand))
      · exact .inl (.inr queued)
      · exact .inr waits
  | receive choice head rest ready queued =>
      left
      simp only [Pipeline.underway, queued, List.mem_append, List.mem_cons]
      simp only [Pipeline.underway, Pipeline.receive, Pipeline.addEntry,
        Pipeline.inHand, List.mem_append] at underway
      rcases underway with (inHand | later) | waits
      · exact .inl (.inl inHand)
      · exact .inl (.inr (.inr later))
      · rcases mem_add_waiting waits with old | rfl
        · exact .inr old
        · exact .inl (.inr (.inl rfl))
  | take choice draining drained =>
      have fewer : (s.takePending choice.order).trace.waiting ⊆
          s.trace.waiting := by
        intro posting listed
        simp only [Pipeline.takePending, Trace.take, Trace.waiting,
          List.nil_append, List.append_nil, List.mem_append] at listed ⊢
        exact listed.imp .inl id
      exact .inl (mem_underway_of_fewer fewer underway)
  | keep choice resolution resolving =>
      have fewer : (s.keepBatch resolution).trace.waiting ⊆
          s.trace.waiting := by
        intro posting listed
        simp only [Pipeline.keepBatch, Trace.keep, Trace.waiting,
          List.append_nil, List.mem_append] at listed ⊢
        exact listed.imp .inr id
      exact .inl (mem_underway_of_fewer fewer underway)
  | commit choice resolution database resolving finished done =>
      have fewer : (s.trace.commit resolution.idOf resolution.usage
          resolution.dests).waiting ⊆ s.trace.waiting := by
        intro posting listed
        simp only [Trace.commit, Trace.waiting, List.append_nil,
          List.mem_append] at listed ⊢
        exact listed.imp .inl id
      exact .inl (mem_underway_of_fewer fewer underway)
  | restart => cases underway

/-- Only a finished flush moves the cursor. -/
theorem cursor_of_move (move : Move options s action after) :
    after.cursor options = s.cursor options ∨
      ∃ choice resolution, action = .loop choice ∧
        s.loop = .resolving resolution ∧ resolution.remaining = [] ∧
        after.cursor options = resolution.offset := by
  cases move with
  | store op choice =>
      exact .inl (cursor_of_same (accountChange_handle s.host op choice).cursor)
  | reset id time failure database done =>
      exact .inl (cursor_of_same (clears_resetUsage done).cursor)
  | commit choice resolution database resolving finished done =>
      exact .inr ⟨choice, resolution, rfl, resolving, finished,
        cursor_commit done rfl⟩
  | _ => exact .inl rfl

/-- The cursor never goes back. -/
theorem Cursored.cursor_le (held : Cursored options start s)
    (move : Move options s action after) :
    s.cursor options ≤ after.cursor options := by
  rcases cursor_of_move move with
    same | ⟨choice, resolution, -, resolving, -, moved⟩
  · rw [same]
  · rw [moved]
    exact (held.located resolution resolving).behind

end Cursors

end Xoxproxy.Analytics
