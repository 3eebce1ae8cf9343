import Xoxproxy.Analytics.Pipeline
import Xoxproxy.Library.Runs

/-!
# What one step of the pipeline can do

Every action of the machine makes one of the moves below.  Invariants are
proved for the moves, not by taking the step functions apart.
-/

namespace Xoxproxy.Analytics

open AssociationMaps RowTables Transactions

section Scanning

variable [Build]

theorem parseTime_error {text : String} {error : GoError}
    (failed : parseTime text = .error error) (sentinel : Sentinel) :
    error.is sentinel = false := by
  rw [parseTime] at failed
  cases read : readTime text.toList with
  | some time =>
      rw [read] at failed
      cases failed
  | none =>
      rw [read] at failed
      rw [← Except.error.inj failed, GoError.plain_is]

theorem parseNullTime_error {text : Option String} {error : GoError}
    (failed : parseNullTime text = .error error) (sentinel : Sentinel) :
    error.is sentinel = false := by
  cases text with
  | none => cases failed
  | some text =>
      by_cases empty : text = ""
      · rw [parseNullTime, if_pos empty] at failed
        cases failed
      · rw [parseNullTime, if_neg empty] at failed
        cases read : parseTime text with
        | ok time =>
            rw [read] at failed
            cases failed
        | error other =>
            rw [read] at failed
            rw [← Except.error.inj failed]
            exact parseTime_error read sentinel

/-- A row that cannot be scanned is not taken for a missing one. -/
theorem scanUser_error {row : UserRow} {error : GoError}
    (failed : scanUser row = .error error) (sentinel : Sentinel) :
    error.is sentinel = false := by
  simp only [scanUser, bind, Except.bind, pure, Except.pure] at failed
  split at failed
  · rename_i expires
    rw [← Except.error.inj failed]
    exact parseNullTime_error expires sentinel
  · split at failed
    · rename_i seen
      rw [← Except.error.inj failed]
      exact parseNullTime_error seen sentinel
    · split at failed
      · rename_i created
        rw [← Except.error.inj failed]
        exact parseTime_error created sentinel
      · split at failed
        · rename_i updated
          rw [← Except.error.inj failed]
          exact parseTime_error updated sentinel
        · cases failed

end Scanning

section Moves

variable [Build] (options : Options)

/-- The moves, with what is known when each is made. -/
inductive Move (s : Pipeline) : PipelineAction → Pipeline → Prop where
  | stay (action : PipelineAction) : Move s action s
  | append (bytes : Bytes) :
      Move s (.append bytes)
        { s with log := s.log ++ bytes, trace := s.trace.append bytes }
  | store (op : UserOp) (choice : UserChoice) :
      Move s (.store op choice) (s.storeOp op choice)
  | reset (id : Int) (time : Time) (failure : Failure GoError)
      (after : Database)
      (done : executeAll
        (resetUsageStatements id (formatDay time) (formatMonth time))
        s.host.database = .ok after) :
      Move s (.resetUsage id time failure)
        { s.withDatabase after with
          trace := { s.trace.remove (Pipeline.resetGone id time) with
            resets := s.trace.resets ++
              [⟨id, time, s.trace.now, s.host.database, after⟩] } }
  | prune (time : Time) (failed : Bool) :
      Move s (.prune time failed)
        { s.withDatabase
            (s.host.database.pruneDestinations
              (Pipeline.retainedFrom options time)).2 with
          trace := s.trace.remove
            (Pipeline.pruneGone (Pipeline.retainedFrom options time)) }
  | poll (choice : TailerChoice)
      (idle : s.tailer.phase = .waiting) :
      Move s (.tailer choice) (s.poll choice.lines)
  | publish (choice : TailerChoice) (batch : List Entry) (offset : Nat)
      (ready : s.tailer.phase = .publishing batch offset) :
      Move s (.tailer choice) (s.publish batch offset)
  | handed (choice : TailerChoice)
      (empty : s.tailer.phase = .handing []) :
      Move s (.tailer choice)
        { s with tailer := { s.tailer with phase := .waiting } }
  | enqueue (choice : TailerChoice) (entry : Entry) (rest : List Entry)
      (handing : s.tailer.phase = .handing (entry :: rest))
      (room : s.queue.length < options.queueSize) :
      Move s (.tailer choice)
        { s with
          tailer := { s.tailer with phase := .handing rest }
          queue := s.queue ++ [entry] }
  | direct (choice : TailerChoice) (entry : Entry) (rest : List Entry)
      (handing : s.tailer.phase = .handing (entry :: rest))
      (waiting : s.loop = .waiting)
      (unbuffered : options.queueSize = 0)
      (added : s.addedBy options (.tailer choice) = some entry) :
      Move s (.tailer choice)
        (Pipeline.addEntry
          { s with tailer := { s.tailer with phase := .handing rest } }
          entry)
  | drop (choice : TailerChoice) (entry : Entry) (rest : List Entry)
      (handing : s.tailer.phase = .handing (entry :: rest)) :
      Move s (.tailer choice)
        { s with
          tailer := { s.tailer with phase := .handing rest }
          dropped := s.dropped + 1
          trace := s.trace.drop entry }
  | beginFlush (choice : LoopChoice) (waiting : s.loop = .waiting) :
      Move s (.loop choice) { s with loop := .draining }
  | receive (choice : LoopChoice) (entry : Entry) (rest : List Entry)
      (ready : s.loop = .waiting ∨ s.loop = .draining)
      (queued : s.queue = entry :: rest)
      (added : s.addedBy options (.loop choice) = some entry) :
      Move s (.loop choice)
        (s.receive entry rest)
  | take (choice : LoopChoice) (draining : s.loop = .draining)
      (drained : s.queue = []) :
      Move s (.loop choice) (s.takePending choice.order)
  | skip (choice : LoopChoice) (locating : s.loop = .locating [])
      (same : s.tailer.offset = s.lastPersisted) :
      Move s (.loop choice) { s with loop := .waiting }
  | locate (choice : LoopChoice) (pending : List PendingDelta)
      (locating : s.loop = .locating pending) :
      Move s (.loop choice)
        { s with
          loop := .resolving {
            pending := pending
            remaining := pending
            offset := s.tailer.offset } }
  | resolve (choice : LoopChoice) (resolution : Resolution)
      (delta : PendingDelta) (rest : List PendingDelta) (id : Int)
      (resolving : s.loop = .resolving resolution)
      (next : resolution.remaining = delta :: rest)
      (known : find? delta.username resolution.ids = some id) :
      Move s (.loop choice)
        { s with loop := .resolving (resolution.charge delta rest id) }
  | learn (choice : LoopChoice) (resolution : Resolution)
      (delta : PendingDelta) (rest : List PendingDelta) (id : Int)
      (resolving : s.loop = .resolving resolution)
      (next : resolution.remaining = delta :: rest)
      (new : find? delta.username resolution.ids = none)
      (found :
        (id = 0 ∧
          lookup UserRow.username s.host.database.users
            delta.username = none) ∨
        ∃ row,
          lookup UserRow.username s.host.database.users
            delta.username = some row ∧ row.id = id) :
      Move s (.loop choice)
        { s with
          loop := .resolving
            ((resolution.know delta.username id).charge delta rest id) }
  | keep (choice : LoopChoice) (resolution : Resolution)
      (resolving : s.loop = .resolving resolution) :
      Move s (.loop choice) (s.keepBatch resolution)
  | commit (choice : LoopChoice) (resolution : Resolution)
      (after : Database)
      (resolving : s.loop = .resolving resolution)
      (finished : resolution.remaining = [])
      (done : executeAll
        (applyDeltasStatements resolution.usage resolution.dests
          ⟨options.logPath, resolution.offset⟩) s.host.database =
            .ok after) :
      Move s (.loop choice)
        { s.withDatabase after with
          lastPersisted := resolution.offset
          loop := .waiting
          trace := s.trace.commit
            (fun name => (find? name resolution.ids).getD 0)
            resolution.usage resolution.dests }
  | restart : Move s .restart (s.restart options)

variable {options} {s : Pipeline}

theorem move_resolveNext
    (choice : LoopChoice) {resolution : Resolution}
    {delta : PendingDelta} {rest : List PendingDelta}
    (resolving : s.loop = .resolving resolution)
    (next : resolution.remaining = delta :: rest) :
    Move options s (.loop choice)
      (s.resolveNext choice.lookupFails resolution delta rest) := by
  rw [Pipeline.resolveNext]
  cases known : find? delta.username resolution.ids with
  | some id => exact .resolve choice resolution delta rest id resolving next known
  | none =>
      by_cases fails : choice.lookupFails = true
      · rw [if_pos fails]
        exact .keep choice resolution resolving
      · rw [if_neg fails]
        cases found : lookup UserRow.username s.host.database.users
            delta.username with
        | none =>
            have absent :
                s.host.database.getUserByUsername delta.username =
                  .error errNotFound := by
              rw [Database.getUserByUsername, found]
              rfl
            rw [absent]
            exact .learn choice resolution delta rest 0 resolving next known
              (Or.inl ⟨rfl, found⟩)
        | some row =>
            have present :
                s.host.database.getUserByUsername delta.username =
                  scanUser row := by
              rw [Database.getUserByUsername, found]
              rfl
            rw [present]
            cases scanned : scanUser row with
            | ok user =>
                exact .learn choice resolution delta rest user.id resolving
                  next known
                  (Or.inr ⟨row, found, (scanned_of_ok scanned).id.symm⟩)
            | error error =>
                change Move options s _
                  (if error.is .storeNotFound then _ else _)
                rw [if_neg (by simp [scanUser_error scanned])]
                exact .keep choice resolution resolving

theorem move_applyBatch
    (choice : LoopChoice) {resolution : Resolution}
    (resolving : s.loop = .resolving resolution)
    (finished : resolution.remaining = []) :
    Move options s (.loop choice)
      (s.applyBatch options choice.failure resolution) := by
  rw [Pipeline.applyBatch]
  rcases @transact_cases Database GoError choice.failure
      (applyDeltasStatements resolution.usage resolution.dests
        ⟨options.logPath, resolution.offset⟩) s.host.database with
    ⟨error, failed⟩ | ⟨after, committed, done⟩
  · rw [failed]
    exact .keep choice resolution resolving
  · rw [committed]
    exact .commit choice resolution after resolving finished done

theorem move_stepLoop (choice : LoopChoice) :
    Move options s (.loop choice) (s.stepLoop options choice) := by
  rw [Pipeline.stepLoop]
  cases phase : s.loop with
  | waiting =>
      by_cases flush : choice.flush = true
      · rw [if_pos flush]
        exact .beginFlush choice phase
      · rw [if_neg flush]
        cases queued : s.queue with
        | nil => exact .stay _
        | cons entry rest =>
            refine .receive choice entry rest (Or.inl phase) queued ?_
            simp [Pipeline.addedBy, phase, flush, queued]
  | draining =>
      cases queued : s.queue with
      | nil => exact .take choice phase queued
      | cons entry rest =>
          refine .receive choice entry rest (Or.inr phase) queued ?_
          simp [Pipeline.addedBy, phase, queued]
  | locating pending =>
      change Move options s _ (s.readOffset pending)
      rw [Pipeline.readOffset]
      by_cases nothing :
          pending = [] ∧ s.tailer.offset = s.lastPersisted
      · rw [if_pos nothing]
        rw [nothing.1] at phase
        exact .skip choice phase nothing.2
      · rw [if_neg nothing]
        exact .locate choice pending phase
  | resolving resolution =>
      cases next : resolution.remaining with
      | nil =>
          simp only [next]
          exact move_applyBatch choice phase next
      | cons delta rest =>
          simp only [next]
          exact move_resolveNext choice phase next

theorem move_handOver
    (choice : TailerChoice) {entry : Entry} {rest : List Entry}
    (handing : s.tailer.phase = .handing (entry :: rest)) :
    Move options s (.tailer choice)
      (s.handOver options choice.parked entry rest) := by
  simp only [Pipeline.handOver]
  by_cases room : s.queue.length < options.queueSize
  · rw [if_pos room]
    exact .enqueue choice entry rest handing room
  · rw [if_neg room]
    by_cases direct :
        options.queueSize = 0 ∧ s.loop = .waiting ∧ choice.parked = true
    · rw [if_pos direct]
      refine .direct choice entry rest handing direct.2.1 direct.1 ?_
      simp only [Pipeline.addedBy, handing]
      exact if_pos ⟨room, direct⟩
    · rw [if_neg direct]
      exact .drop choice entry rest handing

theorem move_stepTailer (choice : TailerChoice) :
    Move options s (.tailer choice) (s.stepTailer options choice) := by
  rw [Pipeline.stepTailer]
  cases phase : s.tailer.phase with
  | waiting =>
      by_cases readable : choice.readable = true
      · rw [if_pos readable]
        exact .poll choice phase
      · rw [if_neg readable]
        exact .stay _
  | publishing batch offset => exact .publish choice batch offset phase
  | handing batch =>
      cases batch with
      | nil => exact .handed choice phase
      | cons entry rest => exact move_handOver choice phase

/-- Every action makes a move. -/
theorem move_act (action : PipelineAction) :
    Move options s action (s.act options action) := by
  cases action with
  | append bytes => exact .append bytes
  | store op choice => exact .store op choice
  | resetUsage id time failure =>
      rw [Pipeline.act, Pipeline.resetUsage]
      rcases @transact_cases Database GoError failure
          (resetUsageStatements id (formatDay time) (formatMonth time))
          s.host.database with
        ⟨error, failed⟩ | ⟨after, committed, done⟩
      · rw [failed]
        exact .stay _
      · rw [committed]
        exact .reset id time failure after done
  | prune time failed =>
      rw [Pipeline.act, Pipeline.prune]
      by_cases idle : options.retentionDays ≤ 0 ∨ failed = true
      · rw [if_pos idle]
        exact .stay _
      · rw [if_neg idle]
        exact .prune time failed
  | tailer choice => exact move_stepTailer choice
  | loop choice => exact move_stepLoop choice
  | restart => exact .restart

/-- The clock ticks behind every move. -/
def Pipeline.tick (s : Pipeline) : Pipeline :=
  { s with trace := { s.trace with now := s.trace.now + 1 } }

/-- What every move and the clock preserve holds in every state. -/
theorem run_invariant
    {invariant : Pipeline → Prop}
    {condition : Pipeline → PipelineAction → Prop}
    (moves : ∀ s action after, Move options s action after →
      condition s action → invariant s → invariant after)
    (ticks : ∀ s, invariant s → invariant s.tick)
    (start : invariant (Pipeline.initial options))
    {actions : List PipelineAction}
    (meets : Runs.Meets (Pipeline.step options) condition actions
      (Pipeline.initial options)) :
    invariant (Runs.run (Pipeline.step options) actions
      (Pipeline.initial options)) := by
  apply Runs.invariant_of_meets ?_ start meets
  intro s action holds allowed
  exact ticks _ (moves s action _ (move_act action) allowed holds)

/-- The same for runs without restrictions. -/
theorem every_run
    {invariant : Pipeline → Prop}
    (moves : ∀ s action after, Move options s action after →
      invariant s → invariant after)
    (ticks : ∀ s, invariant s → invariant s.tick)
    (start : invariant (Pipeline.initial options))
    (actions : List PipelineAction) :
    invariant (Runs.run (Pipeline.step options) actions
      (Pipeline.initial options)) :=
  run_invariant (fun s action after move _ => moves s action after move)
    ticks start (Runs.meets_trivial actions _)

end Moves

end Xoxproxy.Analytics
