import Xoxproxy.Analytics.Conservation

/-!
# The server process and its end

`runServer` of `cmd/xoxproxy/server.go` with the analytics goroutines that
it starts (`Service.Start`, `Tailer.Run`), from the loaded configuration
to its return.  A step is one statement of `runServer`, one step of an
analytics goroutine, or an event around the process.
-/

namespace Xoxproxy.Command

open Runs Analytics Transactions

/-- The contexts of the server: the one that `main` passes, and those
that `signal.NotifyContext` derives. -/
inductive Context where
  | background
  | notify (parent : Context)
  deriving DecidableEq, Repr

/-- Whether a context is done, by whether a signal has arrived. -/
def Context.isDone (signalled : Bool) : Context → Bool
  | .background => false
  | .notify parent => signalled || parent.isDone signalled

/-- How `runServer` ends: before it serves, because the listener failed,
because `Shutdown` failed at its deadline or otherwise, or with `stopped`,
after the wait for the final flush has timed out or not. -/
inductive Outcome where
  | unprepared
  | listen
  | closed
  | shutdown (deadline : Bool)
  | stopped (timedOut : Bool)
  deriving DecidableEq, Repr

/-- The outcomes behind the `ctx.Done()` of `runServer`. -/
def Outcome.bySignal : Outcome → Bool
  | .shutdown _ => true
  | .stopped _ => true
  | _ => false

/-- The next statement of `runServer`.  A signal that nobody registered
for ends the process where it stands. -/
inductive ServerPhase where
  | preparing
  | startingAnalytics
  | registering
  | selecting
  | shuttingDown
  | awaiting
  | returned (outcome : Outcome)
  | killed
  deriving DecidableEq, Repr

/-- Where `Service.Start` stands: before the first `prune`, in its loop,
in the final flush, or behind it with `done` closed. -/
inductive StartPhase where
  | pruning
  | looping
  | flushing
  | finished
  deriving DecidableEq, Repr

/-- The goroutine of `Start`, with the context that it was given; the
tailer runs under the same one. -/
structure Start where
  ctx : Context
  phase : StartPhase := .pruning
  tailing : Bool := true
  deriving DecidableEq, Repr

/-- The process.  `ctx` is the variable of `runServer`, `errCh` holds
whether `ListenAndServe` returned `ErrServerClosed`, and `atSignal` the
records that were in the queue or the aggregator when the signal came. -/
structure Process where
  phase : ServerPhase := .preparing
  ctx : Context := .background
  registered : Bool := false
  signalled : Bool := false
  errCh : Option Bool := none
  start : Option Start := none
  pipeline : Pipeline
  atSignal : List Entry := []

/-- How a statement of `runServer` goes: whether a part of the preparation
fails, whether the `select` takes `errCh`, how `Shutdown` fails if it
does, and whether the timer behind the wait has fired. -/
structure ServerChoice where
  fails : Bool := false
  listenEnded : Bool := false
  shutdownFails : Option Bool := none
  timerFired : Bool := false

/-- The case that the `select` of `Start` takes. -/
inductive StartCase where
  | record
  | flushTick
  | pruneTick (time : Time) (failed : Bool)
  | cancelled

/-- The case that the `select` of `Run` takes. -/
inductive TailCase where
  | tick (choice : TailerChoice)
  | cancelled

inductive ProcessAction where
  | advance (choice : ServerChoice)
  | listenEnds (closed : Bool)
  | signal
  | start (case : StartCase) (choice : LoopChoice)
  | tail (case : TailCase)
  | append (bytes : Bytes)
  | store (op : UserOp) (choice : UserChoice)
  | resetUsage (id : Int) (time : Time) (failure : Failure GoError)

namespace Process

section Steps

variable [Build] (options : Analytics.Options) (s : Process)

/-- A step of the pipeline. -/
def drive (action : PipelineAction) : Process :=
  { s with pipeline := s.pipeline.step options action }

/-- `Start` goes on to another phase. -/
def goOn (start : Start) (phase : StartPhase) : Process :=
  { s with start := some { start with phase := phase } }

/-- One statement of `runServer`. -/
def advance (choice : ServerChoice) : Process :=
  match s.phase with
  | .preparing =>
      if choice.fails then { s with phase := .returned .unprepared }
      else { s.drive options .restart with phase := .startingAnalytics }
  | .startingAnalytics =>
      { s with start := some { ctx := s.ctx }, phase := .registering }
  | .registering =>
      -- The inner `ctx` hides the one that the goroutines were given.
      { s with
        ctx := .notify s.ctx
        registered := true
        phase := .selecting }
  | .selecting =>
      match choice.listenEnded, s.errCh with
      | true, some true => { s with phase := .returned .closed }
      | true, some false => { s with phase := .returned .listen }
      | _, _ =>
          if s.ctx.isDone s.signalled then { s with phase := .shuttingDown }
          else s
  | .shuttingDown =>
      match choice.shutdownFails with
      | some deadline => { s with phase := .returned (.shutdown deadline) }
      | none => { s with phase := .awaiting }
  | .awaiting =>
      if choice.timerFired then { s with phase := .returned (.stopped true) }
      else if s.start.any fun start => start.phase = .finished then
        { s with phase := .returned (.stopped false) }
      else s
  | .returned _ => s
  | .killed => s

/-- A signal is delivered. -/
def deliver : Process :=
  if s.registered then
    { s with
      signalled := true
      atSignal :=
        if s.signalled then s.atSignal
        else s.pipeline.queue ++ entriesIn s.pipeline.trace.pending }
  else { s with phase := .killed }

/-- One round of the loop in `Start`, or a step of the `flush` that it is
in. -/
def loopStep (start : Start) (case : StartCase) (choice : LoopChoice) :
    Process :=
  match s.pipeline.loop, case with
  | .waiting, .record => s.drive options (.loop {})
  | .waiting, .flushTick => s.drive options (.loop { flush := true })
  | .waiting, .pruneTick time failed =>
      s.drive options (.prune time failed)
  | .waiting, .cancelled =>
      if start.ctx.isDone s.signalled then
        (s.goOn start .flushing).drive options (.loop { flush := true })
      else s
  | _, _ => s.drive options (.loop choice)

/-- A step of `Start`. -/
def stepStart (case : StartCase) (choice : LoopChoice) : Process :=
  match s.start with
  | none => s
  | some start =>
      match start.phase with
      | .pruning =>
          match case with
          | .pruneTick time failed =>
              (s.goOn start .looping).drive options (.prune time failed)
          | _ => s
      | .looping => s.loopStep options start case choice
      | .flushing =>
          if s.pipeline.loop = .waiting then s.goOn start .finished
          else s.drive options (.loop choice)
      | .finished => s

/-- A step of `Tailer.Run`. -/
def stepTail (case : TailCase) : Process :=
  match s.start with
  | none => s
  | some start =>
      match start.tailing, case with
      | true, .tick choice => s.drive options (.tailer choice)
      | true, .cancelled =>
          if start.ctx.isDone s.signalled ∧
              s.pipeline.tailer.phase = .waiting then
            { s with start := some { start with tailing := false } }
          else s
      | false, _ => s

/-- Whether the process is still there. -/
def isAlive : Bool :=
  match s.phase with
  | .returned _ => false
  | .killed => false
  | _ => true

/-- One step. -/
def step (action : ProcessAction) (s : Process) : Process :=
  match action with
  | .append bytes => s.drive options (.append bytes)
  | .store op choice => s.drive options (.store op choice)
  | .resetUsage id time failure =>
      s.drive options (.resetUsage id time failure)
  | .advance choice => s.advance options choice
  | .signal => if s.isAlive then s.deliver else s
  | .listenEnds closed =>
      if s.phase = .selecting then { s with errCh := some closed } else s
  | .start case choice =>
      if s.isAlive then s.stepStart options case choice else s
  | .tail case => if s.isAlive then s.stepTail options case else s

end Steps

end Process

/-- The loop has seen the end of its context and done its final flush.
What it had when the signal came is in the ledger or was given up, and
lies before the persisted cursor. -/
structure LeavesNothing
    (options : Analytics.Options) (s : Process) : Prop where
  finished : ∃ start, s.start = some start ∧ start.phase = .finished
  settled : ∀ entry ∈ s.atSignal,
    entry.line ∈ s.pipeline.trace.excused ∨
      ∃ charge ∈ s.pipeline.trace.applied, charge.2.entry = entry
  covered : ∀ entry ∈ s.atSignal,
    entry.line ≤ Pipeline.resumeOffset options s.pipeline.host.database

/-- The action brings no storage failure and no passed deadline. -/
def ProcessAction.isSmooth : ProcessAction → Bool
  | .advance choice =>
      !choice.fails && choice.shutdownFails ≠ some true &&
        !choice.timerFired
  | .start case choice =>
      choice.failure.isNone && !choice.lookupFails &&
        match case with
        | .pruneTick _ failed => !failed
        | _ => true
  | _ => true

/-! ## What the goroutines see -/

/-- `Start` runs under the context of `main` and has not left its
loop. -/
def Start.Deaf (start : Start) : Prop :=
  start.ctx = .background ∧ (start.phase = .pruning ∨ start.phase = .looping)

/-- The loop is never told to end, and `runServer` never hears that it
has. -/
structure Unheard (s : Process) : Prop where
  context :
    s.phase = .preparing ∨ s.phase = .startingAnalytics →
      s.ctx = .background
  deaf : ∀ start, s.start = some start → start.Deaf
  timed : s.phase ≠ .returned (.stopped false)

section Preservation

variable {s : Process}

theorem Start.Deaf.not_done {start : Start} (deaf : start.Deaf)
    (signalled : Bool) : start.ctx.isDone signalled = false := by
  rw [deaf.1, Context.isDone]

theorem Start.Deaf.not_finished {start : Start} (deaf : start.Deaf) :
    start.phase ≠ .finished := by
  rcases deaf.2 with pruning | looping
  · simp [pruning]
  · simp [looping]

/-- `runServer` goes on to a phase before which nothing new is started. -/
theorem Unheard.goTo (unheard : Unheard s) {phase : ServerPhase}
    (later : phase ≠ .preparing ∧ phase ≠ .startingAnalytics)
    (timed : phase ≠ .returned (.stopped false)) :
    Unheard { s with phase := phase } where
  context early := by
    rcases early with early | early
    · exact absurd early later.1
    · exact absurd early later.2
  deaf := unheard.deaf
  timed := timed

theorem Unheard.deliver (unheard : Unheard s) : Unheard s.deliver := by
  rw [Process.deliver]
  split
  · exact ⟨unheard.context, unheard.deaf, unheard.timed⟩
  · exact unheard.goTo (by simp) (by simp)

variable [Build] {options : Analytics.Options}

theorem Unheard.drive (unheard : Unheard s) (action : PipelineAction) :
    Unheard (s.drive options action) :=
  ⟨unheard.context, unheard.deaf, unheard.timed⟩

theorem Unheard.advance (unheard : Unheard s) (choice : ServerChoice) :
    Unheard (s.advance options choice) := by
  rw [Process.advance]
  split
  case h_1 phase =>
    split
    · exact unheard.goTo (by simp) (by simp)
    · exact ⟨fun _ => unheard.context (.inl phase), unheard.deaf, by simp⟩
  case h_2 phase =>
    have context : s.ctx = .background := unheard.context (.inr phase)
    refine ⟨by simp, ?_, by simp⟩
    intro start started
    rw [← Option.some.inj started]
    exact ⟨context, .inl rfl⟩
  case h_3 phase =>
    exact ⟨by simp, unheard.deaf, by simp⟩
  case h_4 phase =>
    split
    · exact unheard.goTo (by simp) (by simp)
    · exact unheard.goTo (by simp) (by simp)
    · split
      · exact unheard.goTo (by simp) (by simp)
      · exact unheard
  case h_5 phase =>
    split
    · exact unheard.goTo (by simp) (by simp)
    · exact unheard.goTo (by simp) (by simp)
  case h_6 phase =>
    split
    · exact unheard.goTo (by simp) (by simp)
    · -- The wait can end in only one way: `done` is never closed.
      split
      case isTrue finished =>
        obtain ⟨start, started, closed⟩ := Option.any_eq_true .. |>.mp finished
        exact absurd (of_decide_eq_true closed)
          (unheard.deaf start started).not_finished
      case isFalse => exact unheard
  case h_7 => exact unheard
  case h_8 => exact unheard

theorem Unheard.loopStep (unheard : Unheard s) {start : Start}
    (deaf : start.Deaf) (case : StartCase) (choice : LoopChoice) :
    Unheard (s.loopStep options start case choice) := by
  unfold Process.loopStep
  split
  case h_4 =>
    rw [deaf.not_done, if_neg (by simp)]
    exact unheard
  all_goals exact unheard.drive _

theorem Unheard.stepStart (unheard : Unheard s) (case : StartCase)
    (choice : LoopChoice) : Unheard (s.stepStart options case choice) := by
  rw [Process.stepStart]
  cases started : s.start with
  | none => exact unheard
  | some start =>
      have deaf := unheard.deaf start started
      dsimp only
      rcases deaf.2 with pruning | looping
      · rw [pruning]
        dsimp only
        split
        · refine Unheard.drive ?_ _
          refine ⟨unheard.context, ?_, unheard.timed⟩
          intro after same
          rw [← Option.some.inj same]
          exact ⟨deaf.1, .inr rfl⟩
        · exact unheard
      · rw [looping]
        exact unheard.loopStep deaf case choice

theorem Unheard.stepTail (unheard : Unheard s) (case : TailCase) :
    Unheard (s.stepTail options case) := by
  rw [Process.stepTail]
  cases started : s.start with
  | none => exact unheard
  | some start =>
      have deaf := unheard.deaf start started
      dsimp only
      split
      · exact unheard.drive _
      · rw [deaf.not_done, if_neg (by simp)]
        exact unheard
      · exact unheard

/-- Every step keeps the loop uninformed. -/
theorem Unheard.step (unheard : Unheard s) (action : ProcessAction) :
    Unheard (Process.step options action s) := by
  cases action with
  | advance choice => exact unheard.advance choice
  | listenEnds closed =>
      rw [Process.step]
      split
      · exact ⟨unheard.context, unheard.deaf, unheard.timed⟩
      · exact unheard
  | signal =>
      rw [Process.step]
      split
      · exact unheard.deliver
      · exact unheard
  | start case choice =>
      rw [Process.step]
      split
      · exact unheard.stepStart case choice
      · exact unheard
  | tail case =>
      rw [Process.step]
      split
      · exact unheard.stepTail case
      · exact unheard
  | append bytes => exact unheard.drive _
  | store op choice => exact unheard.drive _
  | resetUsage id time failure => exact unheard.drive _

end Preservation

section ServerRuns

/-- The process that `main` starts on an installation. -/
def Process.booting (installation : Pipeline) : Process where
  pipeline := installation

theorem unheard_booting (installation : Pipeline) :
    Unheard (.booting installation) where
  context _ := by rw [Process.booting]
  deaf start started := by cases started
  timed := by simp [Process.booting]

variable [Build]

theorem unheard_run (options : Analytics.Options)
    (installation : Pipeline) (actions : List ProcessAction) :
    Unheard (run (Process.step options) actions (.booting installation)) :=
  invariant_of_run (fun _ action unheard => unheard.step action) actions
    (unheard_booting installation)

/-- In no run that a signal ends does the loop come to its final flush.
`runServer` returns because `Shutdown` fails or because it has waited for
the whole timeout. -/
theorem shutdown_never_graceful
    (options : Analytics.Options) (installation : Pipeline)
    (actions : List ProcessAction) (outcome : Outcome)
    (returned :
      (run (Process.step options) actions (.booting installation)).phase =
        .returned outcome)
    (ended : outcome.bySignal = true) :
    ¬LeavesNothing options
        (run (Process.step options) actions (.booting installation)) ∧
      (outcome = .stopped true ∨ ∃ deadline, outcome = .shutdown deadline) := by
  have unheard := unheard_run options installation actions
  constructor
  · rintro ⟨⟨start, started, finished⟩, -, -⟩
    exact (unheard.deaf start started).not_finished finished
  · cases outcome with
    | shutdown deadline => exact .inr ⟨deadline, rfl⟩
    | stopped timedOut =>
        cases timedOut with
        | true => exact .inl rfl
        | false => exact absurd returned unheard.timed
    | _ => cases ended

end ServerRuns

/-- A process that serves, with one record in its queue, receives a signal
and begins to shut down. -/
def signalledActions : List ProcessAction :=
  [.store (.createUser (sampleUser "alice") sampleCredential) (calmAt 0),
    .append (bytesOf (connectionLine "alice" "a.example")),
    .advance {}, .advance {}, .advance {},
    .tail (.tick {}), .tail (.tick {}), .tail (.tick {}),
    .signal, .advance {}]

/-- A listener that cannot be closed ends the shutdown at once. -/
def stuckListener : List ProcessAction :=
  signalledActions ++ [.advance { shutdownFails := some false }]

/-- The connections end at once, and then nothing more comes. -/
def quietShutdown : List ProcessAction :=
  signalledActions ++ [.advance {}, .advance { timerFired := true }]

/-- The process after some actions on a new installation. -/
def sampleProcess (actions : List ProcessAction) : Process :=
  run (@Process.step Build.dev sampleOptions) actions
    (.booting (Pipeline.initial sampleOptions))

/-- What the process leaves: its phase, where the lines of the records at
the signal end, and the offset that the next process starts from. -/
def Process.remains (s : Process) : ServerPhase × List Nat × Nat :=
  (s.phase, s.atSignal.map Entry.line,
    Pipeline.resumeOffset sampleOptions s.pipeline.host.database)

theorem not_leavesNothing {s : Process} {outcome : Outcome} {line : Nat}
    (remains : s.remains = (.returned outcome, [line + 1], 0)) :
    ¬LeavesNothing sampleOptions s := by
  intro nothing
  have lines : s.atSignal.map Entry.line = [line + 1] :=
    congrArg (fun parts => parts.2.1) remains
  have offset :
      Pipeline.resumeOffset sampleOptions s.pipeline.host.database = 0 :=
    congrArg (fun parts => parts.2.2) remains
  obtain ⟨entry, member, ends⟩ : ∃ entry ∈ s.atSignal, entry.line = line + 1 :=
    List.mem_map.mp (lines ▸ List.mem_singleton_self _)
  have covered := nothing.covered entry member
  rw [offset, ends] at covered
  exact absurd covered (by simp)

theorem queued_record_left :
    (stuckListener.all ProcessAction.isSmooth = true ∧
      (sampleProcess stuckListener).phase = .returned (.shutdown false) ∧
      ¬LeavesNothing sampleOptions (sampleProcess stuckListener)) ∧
    (sampleProcess quietShutdown).phase = .returned (.stopped true) ∧
      ¬LeavesNothing sampleOptions (sampleProcess quietShutdown) := by
  have stuck : (sampleProcess stuckListener).remains =
      (.returned (.shutdown false), [75 + 1], 0) := by
    decide +kernel
  have quiet : (sampleProcess quietShutdown).remains =
      (.returned (.stopped true), [75 + 1], 0) := by
    decide +kernel
  exact ⟨⟨by decide, congrArg Prod.fst stuck, not_leavesNothing stuck⟩,
    congrArg Prod.fst quiet, not_leavesNothing quiet⟩

/-- In the second run the wait ends by its timer. -/
theorem quiet_shutdown_never_graceful :
    (sampleProcess quietShutdown).phase = .returned (.stopped true) ∧
      ¬LeavesNothing sampleOptions (sampleProcess quietShutdown) ∧
        (Outcome.stopped true = .stopped true ∨
          ∃ deadline, Outcome.stopped true = .shutdown deadline) := by
  have returned : (sampleProcess quietShutdown).phase =
      .returned (.stopped true) := by
    decide +kernel
  have ended : (Outcome.stopped true).bySignal = true := rfl
  exact ⟨returned, @shutdown_never_graceful Build.dev sampleOptions
    (Pipeline.initial sampleOptions) quietShutdown (.stopped true)
      returned ended⟩

end Xoxproxy.Command
