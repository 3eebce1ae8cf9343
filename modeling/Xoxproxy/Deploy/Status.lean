import Xoxproxy.Deploy.Pipeline

/-!
# What a recorded deployment status says about the disk

One call of `DeployNow` against surroundings that answer every operation
as they like, except that files behave like files.
-/

namespace Xoxproxy

open EffectPrograms EffectPrograms.Program

/-- The answers that one deployment receives.  Operations that a
deployment performs repeatedly have an answer for each repetition. -/
structure Surroundings where
  now : Time
  source : Time → Except GoError State
  readFault : Option Fault
  dirError : Option GoError
  backUpFault : Option Fault
  configWriteFault : Nat → Option Fault
  removeFault : Option Fault
  pidFile : Except GoError String
  alive : Nat → Bool
  identity : Int → Option GoError
  signal : Int → Option GoError
  contextError : Nat → Option GoError
  deadline : Nat → Bool
  recorded : Except GoError Int
  auditError : Option GoError

/-- The files, how often each repeated operation was performed, and the
versions handed to the history. -/
structure DeployWorld where
  files : Files
  configWrites : Nat
  aliveChecks : Nat
  contextChecks : Nat
  deadlineChecks : Nat
  versions : List ConfigurationVersion

namespace DeployWorld

/-- Before the call. -/
def start (files : Files) : DeployWorld := ⟨files, 0, 0, 0, 0, []⟩

variable (files : Files)

@[simp]
theorem start_files : (start files).files = files := rfl

@[simp]
theorem start_configWrites : (start files).configWrites = 0 := rfl

@[simp]
theorem start_aliveChecks : (start files).aliveChecks = 0 := rfl

@[simp]
theorem start_contextChecks : (start files).contextChecks = 0 := rfl

@[simp]
theorem start_deadlineChecks : (start files).deadlineChecks = 0 := rfl

@[simp]
theorem start_versions : (start files).versions = [] := rfl

end DeployWorld

namespace Surroundings

variable (surroundings : Surroundings)

/-- The answer to each operation and its effect. -/
def handle :
    (op : DeployOp) → DeployWorld → op.Answer × DeployWorld
  | .readConfigFile, world =>
      (world.files.read surroundings.readFault, world)
  | .makeConfigDir, world => (surroundings.dirError, world)
  | .writeAtomic .previous data, world =>
      let written :=
        world.files.write surroundings.backUpFault .previous data
      (written.1, { world with files := written.2 })
  | .writeAtomic .config data, world =>
      let written := world.files.write
        (surroundings.configWriteFault world.configWrites) .config data
      (written.1, { world with
        files := written.2, configWrites := world.configWrites + 1 })
  | .removeConfigFile, world =>
      let removed := world.files.remove surroundings.removeFault
      (removed.1, { world with files := removed.2 })
  | .readPidFile, world => (surroundings.pidFile, world)
  | .procAlive _, world =>
      (surroundings.alive world.aliveChecks,
        { world with aliveChecks := world.aliveChecks + 1 })
  | .pidIsEngine pid, world => (surroundings.identity pid, world)
  | .signalReload pid, world => (surroundings.signal pid, world)
  | .contextError, world =>
      (surroundings.contextError world.contextChecks,
        { world with contextChecks := world.contextChecks + 1 })
  | .deadlinePassed, world =>
      (surroundings.deadline world.deadlineChecks,
        { world with deadlineChecks := world.deadlineChecks + 1 })
  | .lockDeploy, world => ((), world)
  | .unlockDeploy, world => ((), world)
  | .now, world => (surroundings.now, world)
  | .stateSource now, world => (surroundings.source now, world)
  | .recordVersion version, world =>
      (surroundings.recorded,
        { world with versions := world.versions ++ [version] })
  | .recordAudit _, world => (surroundings.auditError, world)

end Surroundings

/-- What a status says, given the file before and after the call and the
rendered text. -/
def StatusTrue
    (status : DeploymentStatus) (before after : Option Bytes)
    (rendered : Except GoError String) : Prop :=
  match status with
  | .failed | .rolledBack => after = before
  | .deployed | .unchanged =>
      ∃ text, rendered = .ok text ∧ after = some (bytesOf text)

/-! ## Health checks -/

namespace Surroundings

variable (surroundings : Surroundings)

/-- The round of the health check passes and asks for another one. -/
def RoundContinues (index : Nat) : Prop :=
  surroundings.contextError index = none ∧
    surroundings.alive (index + 1) = true ∧
    surroundings.deadline index = false

/-- The round of the health check finds a cancelled context or a dead
engine. -/
def RoundFails (index : Nat) : Prop :=
  surroundings.contextError index ≠ none ∨
    surroundings.alive (index + 1) = false

/-- Some round among the next `sleeps + 1` fails, and all before it ask
for another one. -/
def HealthCheckFails (first sleeps : Nat) : Prop :=
  ∃ count ≤ sleeps,
    (∀ index < count, surroundings.RoundContinues (first + index)) ∧
      surroundings.RoundFails (first + count)

theorem healthCheckFails_zero (first : Nat) :
    surroundings.HealthCheckFails first 0 ↔
      surroundings.RoundFails first := by
  constructor
  · rintro ⟨count, bound, -, fails⟩
    obtain rfl : count = 0 := Nat.le_zero.mp bound
    exact fails
  · intro fails
    exact ⟨0, Nat.le_refl 0, fun index below =>
      absurd below (Nat.not_lt_zero index), fails⟩

theorem healthCheckFails_succ (first sleeps : Nat) :
    surroundings.HealthCheckFails first (sleeps + 1) ↔
      surroundings.RoundFails first ∨
        surroundings.RoundContinues first ∧
          surroundings.HealthCheckFails (first + 1) sleeps := by
  constructor
  · rintro ⟨count, bound, continues, fails⟩
    cases count with
    | zero => exact Or.inl fails
    | succ count =>
        refine Or.inr ⟨continues 0 (Nat.succ_pos count), count,
          Nat.le_of_succ_le_succ bound, ?_, ?_⟩
        · intro index below
          have later := continues (index + 1) (Nat.succ_lt_succ below)
          rwa [← Nat.add_assoc, Nat.add_right_comm] at later
        · rwa [← Nat.add_assoc, Nat.add_right_comm] at fails
  · rintro (fails | ⟨continues, count, bound, later, fails⟩)
    · exact ⟨0, Nat.zero_le _, fun index below =>
        absurd below (Nat.not_lt_zero index), fails⟩
    · refine ⟨count + 1, Nat.succ_le_succ bound, ?_, ?_⟩
      · intro index below
        cases index with
        | zero => exact continues
        | succ index =>
            have next := later index (Nat.lt_of_succ_lt_succ below)
            rwa [Nat.add_right_comm, Nat.add_assoc] at next
      · rwa [Nat.add_right_comm, Nat.add_assoc] at fails

end Surroundings

/-- Only the counters of the checks have moved. -/
structure DeployWorld.OnlyChecked (before after : DeployWorld) :
    Prop where
  files : after.files = before.files
  configWrites : after.configWrites = before.configWrites
  versions : after.versions = before.versions

section Runs

variable (surroundings : Surroundings)

theorem verifyAfterReload_run (pid : Int) (sleeps : Nat) :
    ∀ (world : DeployWorld) (first : Nat),
      world.contextChecks = first → world.aliveChecks = first + 1 →
      world.deadlineChecks = first →
      (((verifyAfterReload pid sleeps).run surroundings.handle
          world).1 ≠ none ↔ surroundings.HealthCheckFails first sleeps) ∧
        world.OnlyChecked ((verifyAfterReload pid sleeps).run
          surroundings.handle world).2 := by
  induction sleeps with
  | zero =>
      intro world first contextAt aliveAt deadlineAt
      rw [surroundings.healthCheckFails_zero, Surroundings.RoundFails,
        verifyAfterReload]
      cases context : surroundings.contextError first with
      | some error =>
          simp [Surroundings.handle, contextAt, context]
          exact ⟨rfl, rfl, rfl⟩
      | none =>
          cases alive : surroundings.alive (first + 1) <;>
            simp [Surroundings.handle, contextAt, aliveAt, context,
              alive] <;>
            exact ⟨rfl, rfl, rfl⟩
  | succ sleeps inductionHypothesis =>
      intro world first contextAt aliveAt deadlineAt
      rw [surroundings.healthCheckFails_succ, Surroundings.RoundFails,
        Surroundings.RoundContinues, verifyAfterReload]
      cases context : surroundings.contextError first with
      | some error =>
          simp [Surroundings.handle, contextAt, context]
          exact ⟨rfl, rfl, rfl⟩
      | none =>
          cases alive : surroundings.alive (first + 1) with
          | false =>
              simp [Surroundings.handle, contextAt, aliveAt, context,
                alive]
              exact ⟨rfl, rfl, rfl⟩
          | true =>
              cases deadline : surroundings.deadline first with
              | true =>
                  simp [Surroundings.handle, contextAt, aliveAt,
                    deadlineAt, context, alive, deadline]
                  exact ⟨rfl, rfl, rfl⟩
              | false =>
                  have later := inductionHypothesis
                    { world with
                      contextChecks := first + 1
                      aliveChecks := first + 1 + 1
                      deadlineChecks := first + 1 }
                    (first + 1) rfl rfl rfl
                  simp [Surroundings.handle, contextAt, aliveAt,
                    deadlineAt, context, alive, deadline]
                  exact ⟨later.1, later.2.files, later.2.configWrites,
                    later.2.versions⟩

/-- The pid file names a process that is alive. -/
def Surroundings.EngineFound (pid : Int) : Prop :=
  ∃ data, surroundings.pidFile = .ok data ∧
    atoi (trimSpace data) = some pid ∧ 2 ≤ pid ∧
    surroundings.alive 0 = true

theorem enginePID_run
    [Build] {world : DeployWorld} (aliveAt : world.aliveChecks = 0) :
    (∃ pid, surroundings.EngineFound pid ∧
      (enginePID.run surroundings.handle world).1 = .ok pid ∧
      (enginePID.run surroundings.handle world).2 =
        { world with aliveChecks := 1 }) ∨
    ((∀ pid, ¬ surroundings.EngineFound pid) ∧
      (∃ error,
        (enginePID.run surroundings.handle world).1 = .error error) ∧
      world.OnlyChecked (enginePID.run surroundings.handle world).2) := by
  unfold enginePID Surroundings.EngineFound
  cases pidFile : surroundings.pidFile with
  | error error =>
      right
      simp only [run_bind, run_perform, run_ret, pure_eq,
        Surroundings.handle, pidFile]
      refine ⟨?_, ⟨_, rfl⟩, rfl, rfl, rfl⟩
      intro pid found
      obtain ⟨data, same, -⟩ := found
      cases same
  | ok data =>
      simp only [run_bind, run_perform, Surroundings.handle, pidFile]
      cases number : atoi (trimSpace data) with
      | none =>
          right
          simp only [run_ret, pure_eq]
          refine ⟨?_, ⟨_, rfl⟩, rfl, rfl, rfl⟩
          intro pid found
          obtain ⟨data, same, parsed, -⟩ := found
          rw [← Except.ok.inj same, number] at parsed
          cases parsed
      | some pid =>
          by_cases small : pid < 2
          · right
            simp only [if_pos small, run_ret, pure_eq]
            refine ⟨?_, ⟨_, rfl⟩, rfl, rfl, rfl⟩
            intro other found
            obtain ⟨text, same, parsed, large, -⟩ := found
            rw [← Except.ok.inj same, number] at parsed
            have equal := Option.some.inj parsed
            omega
          · have large : 2 ≤ pid := by omega
            simp only [if_neg small, run_bind, run_perform,
              Surroundings.handle, aliveAt]
            cases alive : surroundings.alive 0 with
            | true =>
                left
                exact ⟨pid, ⟨data, rfl, number, large, rfl⟩, rfl, rfl⟩
            | false =>
                right
                refine ⟨?_, ⟨_, rfl⟩, rfl, rfl, rfl⟩
                intro other found
                obtain ⟨-, -, -, -, found⟩ := found
                cases found

/-- What was there before cannot be put back. -/
def Surroundings.RestoreFails : Option Bytes → Prop
  | some _ => surroundings.configWriteFault 1 ≠ none
  | none => surroundings.removeFault ≠ none

theorem rollBack_run
    {world : DeployWorld} {new : Bytes}
    (current : Option Bytes) (sum : String) (error : GoError)
    (installed : world.files.config = some new)
    (writes : world.configWrites = 1) :
    ∃ result problem after,
      (rollBack current sum error).run surroundings.handle world =
        ((result, some problem), after) ∧
      result.rolledBack = true ∧ after.versions = world.versions ∧
      (surroundings.RestoreFails current ∧
          after.files.config = some new ∨
        ¬ surroundings.RestoreFails current ∧
          after.files.config = current) := by
  cases current with
  | some data =>
      cases fault : surroundings.configWriteFault 1 with
      | some problem =>
          simp [rollBack, Surroundings.handle, Files.write,
            Surroundings.RestoreFails, writes, fault, installed]
      | none =>
          simp [rollBack, Surroundings.handle, Files.write,
            Surroundings.RestoreFails, writes, fault]
  | none =>
      cases fault : surroundings.removeFault with
      | some problem =>
          have other := problem.property
          simp [rollBack, Surroundings.handle, Files.remove,
            Surroundings.RestoreFails, fault, installed, other]
      | none =>
          simp [rollBack, Surroundings.handle, Files.remove,
            Surroundings.RestoreFails, fault, installed]

/-- The engine is there, but the signal that should make it reload is
not delivered. -/
def Surroundings.SignalLost : Prop :=
  ∃ pid error, surroundings.EngineFound pid ∧
    surroundings.identity pid = none ∧
    surroundings.signal pid = some error ∧
    error.is .engineNotRunning = false

/-- The engine fails its health check after the signal, and what was
there before cannot be put back. -/
def Surroundings.RestoreLost
    (sleeps : Nat) (current : Option Bytes) : Prop :=
  ∃ pid, surroundings.EngineFound pid ∧
    surroundings.identity pid = none ∧ surroundings.signal pid = none ∧
    surroundings.HealthCheckFails 0 sleeps ∧
    surroundings.RestoreFails current

variable {surroundings}

theorem Surroundings.EngineFound.unique
    {first second : Int}
    (firstFound : surroundings.EngineFound first)
    (secondFound : surroundings.EngineFound second) :
    first = second := by
  obtain ⟨data, pidFile, number, -, -⟩ := firstFound
  obtain ⟨other, otherFile, otherNumber, -, -⟩ := secondFound
  rw [pidFile] at otherFile
  cases otherFile
  rw [number] at otherNumber
  exact Option.some.inj otherNumber

/-- With the new configuration on disk, what is left of `Deploy` yields a
true status unless a signal or a restoration is lost. -/
theorem applyConfig_run
    [Build] (surroundings : Surroundings) (deployer : Deployer)
    (world : DeployWorld) {current : Option Bytes} {text : String} (sum : String)
    (installed : world.files.config = some (bytesOf text))
    (different : current ≠ some (bytesOf text))
    (writes : world.configWrites = 1)
    (aliveAt : world.aliveChecks = 0)
    (contextAt : world.contextChecks = 0)
    (deadlineAt : world.deadlineChecks = 0) :
    ∃ result error after,
      (applyConfig deployer current sum).run surroundings.handle world =
        ((result, error), after) ∧
      after.versions = world.versions ∧
      (StatusTrue (deploymentStatus result error) current
          after.files.config (.ok text) ↔
        ¬ surroundings.SignalLost ∧
          ¬ surroundings.RestoreLost deployer.sleeps current) := by
  rcases enginePID_run surroundings aliveAt with
    ⟨pid, found, pidOk, pidWorld⟩ | ⟨missing, ⟨problem, pidError⟩, same⟩
  · rw [applyConfig, Program.run_bind, pidOk, pidWorld]
    cases identity : surroundings.identity pid with
    | some problem =>
        have noSignal : ¬ surroundings.SignalLost := by
          rintro ⟨other, _, otherFound, confirmed, -, -⟩
          rw [← found.unique otherFound, identity] at confirmed
          cases confirmed
        have noRestore :
            ¬ surroundings.RestoreLost deployer.sleeps current := by
          rintro ⟨other, otherFound, confirmed, -, -, -⟩
          rw [← found.unique otherFound, identity] at confirmed
          cases confirmed
        simp [reload, Surroundings.handle, identity, noSignal, noRestore,
          errEngineNotRunning, GoError.wrap, GoError.is, StatusTrue,
          deploymentStatus, installed]
    | none =>
        cases signal : surroundings.signal pid with
        | some problem =>
            have noRestore :
                ¬ surroundings.RestoreLost deployer.sleeps current := by
              rintro ⟨other, otherFound, -, sent, -, -⟩
              rw [← found.unique otherFound, signal] at sent
              cases sent
            cases gone : problem.is .engineNotRunning with
            | true =>
                have noSignal : ¬ surroundings.SignalLost := by
                  rintro ⟨other, error, otherFound, -, sent, present⟩
                  rw [← found.unique otherFound, signal] at sent
                  cases sent
                  rw [gone] at present
                  cases present
                simp [reload, Surroundings.handle, identity, signal,
                  gone, noSignal, noRestore, StatusTrue,
                  deploymentStatus, installed]
            | false =>
                have lost : surroundings.SignalLost :=
                  ⟨pid, problem, found, identity, signal, gone⟩
                simp [reload, Surroundings.handle, identity, signal,
                  gone, lost, StatusTrue, deploymentStatus, installed,
                  different.symm]
        | none =>
            have noSignal : ¬ surroundings.SignalLost := by
              rintro ⟨other, error, otherFound, -, sent, -⟩
              rw [← found.unique otherFound, signal] at sent
              cases sent
            have reloaded (start : DeployWorld) :
                (reload pid).run surroundings.handle start =
                  (none, start) := by
              simp [reload, Surroundings.handle, identity, signal]
            simp only [Program.run_bind, reloaded]
            obtain ⟨fails, same⟩ := verifyAfterReload_run surroundings
              pid deployer.sleeps { world with aliveChecks := 1 } 0
              contextAt rfl deadlineAt
            rcases verified :
                (verifyAfterReload pid deployer.sleeps).run
                  surroundings.handle { world with aliveChecks := 1 } with
              ⟨verdict, later⟩
            rw [verified] at fails same
            cases verdict with
            | none =>
                have healthy :
                    ¬ surroundings.HealthCheckFails 0
                      deployer.sleeps := by
                  simpa using fails
                have noRestore :
                    ¬ surroundings.RestoreLost deployer.sleeps
                      current := by
                  rintro ⟨-, -, -, -, unhealthy, -⟩
                  exact healthy unhealthy
                have kept : later.files.config =
                    some (bytesOf text) := by
                  rw [same.files]
                  exact installed
                refine ⟨_, _, _, rfl, same.versions, ?_⟩
                simp [StatusTrue, deploymentStatus, kept, noSignal,
                  noRestore]
            | some problem =>
                have unhealthy :
                    surroundings.HealthCheckFails 0 deployer.sleeps :=
                  fails.mp (by simp)
                obtain ⟨result, error, after, rolled, flagged, versions,
                    restored⟩ :=
                  rollBack_run surroundings current sum problem
                    (same.files ▸ installed)
                    (same.configWrites.trans writes)
                refine ⟨result, some error, after, rolled,
                  versions.trans same.versions, ?_⟩
                rcases restored with ⟨stuck, config⟩ | ⟨free, config⟩
                · have lost :
                      surroundings.RestoreLost deployer.sleeps current :=
                    ⟨pid, found, identity, signal, unhealthy, stuck⟩
                  simp [StatusTrue, deploymentStatus, flagged, config,
                    lost, different.symm]
                · have noRestore :
                      ¬ surroundings.RestoreLost deployer.sleeps
                        current := by
                    rintro ⟨-, -, -, -, -, stuck⟩
                    exact free stuck
                  simp [StatusTrue, deploymentStatus, flagged, config,
                    noSignal, noRestore]
  · have noSignal : ¬ surroundings.SignalLost := by
      rintro ⟨pid, _, found, -⟩
      exact missing pid found
    have noRestore :
        ¬ surroundings.RestoreLost deployer.sleeps current := by
      rintro ⟨pid, found, -⟩
      exact missing pid found
    rw [applyConfig, Program.run_bind, pidError]
    refine ⟨_, _, _, rfl, same.versions, ?_⟩
    simp [StatusTrue, deploymentStatus, same.files, installed, noSignal,
      noRestore]

/-- Nothing stops the deployment before the new text is on disk. -/
structure Surroundings.Installs
    (surroundings : Surroundings) (files : Files) (text : String) :
    Prop where
  readable : surroundings.readFault = none
  different : files.config ≠ some (bytesOf text)
  directory : surroundings.dirError = none
  backedUp : files.config ≠ none → surroundings.backUpFault = none
  written : surroundings.configWriteFault 0 = none

/-- The new text is on disk, and then the signal or the restoration of
the old text is lost. -/
def Surroundings.LosesInstall
    (surroundings : Surroundings) (files : Files)
    (rendered : Except GoError String) (sleeps : Nat) : Prop :=
  ∃ text, rendered = .ok text ∧ surroundings.Installs files text ∧
    (surroundings.SignalLost ∨
      surroundings.RestoreLost sleeps files.config)

theorem Surroundings.losesInstall_iff
    {files : Files} {text : String} {sleeps : Nat} :
    surroundings.LosesInstall files (.ok text) sleeps ↔
      surroundings.Installs files text ∧
        (surroundings.SignalLost ∨
          surroundings.RestoreLost sleeps files.config) := by
  simp [Surroundings.LosesInstall]

/-- Backing up a file is one write, and there may be no file. -/
theorem backUp_run
    (surroundings : Surroundings) (current : Option Bytes)
    (world : DeployWorld) :
    (∃ problem after,
      (backUp current).run surroundings.handle world =
        (some problem, after) ∧
      current ≠ none ∧ surroundings.backUpFault ≠ none ∧
      after.files = world.files ∧ after.versions = world.versions) ∨
    (∃ files,
      (backUp current).run surroundings.handle world =
        (none, { world with files := files }) ∧
      (current ≠ none → surroundings.backUpFault = none) ∧
      files.config = world.files.config) := by
  cases current with
  | none => exact Or.inr ⟨world.files, rfl, by simp, rfl⟩
  | some data =>
      cases fault : surroundings.backUpFault with
      | some problem =>
          left
          simp [backUp, Surroundings.handle, Files.write, fault]
      | none =>
          right
          refine ⟨world.files.install data .previous, ?_, by simp, rfl⟩
          simp [backUp, Surroundings.handle, Files.write, fault]

/-- A text that differs from the file: what `Deploy` does from there on
yields a true status unless an installed text is lost. -/
theorem installConfig_run
    [Build] (deployer : Deployer) (files : Files) {text : String}
    (readable : surroundings.readFault = none)
    (different : files.config ≠ some (bytesOf text)) :
    ∃ result error after,
      (installConfig deployer text files.config).run surroundings.handle
          (.start files) = ((result, error), after) ∧
      after.versions = [] ∧
      (StatusTrue (deploymentStatus result error) files.config
          after.files.config (.ok text) ↔
        ¬ surroundings.LosesInstall files (.ok text)
          deployer.sleeps) := by
  rw [Surroundings.losesInstall_iff]
  cases directory : surroundings.dirError with
  | some problem =>
      have stopped : ¬ surroundings.Installs files text := by
        intro installs
        rw [installs.directory] at directory
        cases directory
      simp [installConfig, Surroundings.handle, directory, stopped,
        StatusTrue, deploymentStatus]
  | none =>
      rcases backUp_run surroundings files.config (.start files) with
        ⟨problem, after, backed, present, fault, same, versions⟩ |
        ⟨kept, backed, backedUp, same⟩
      · have stopped : ¬ surroundings.Installs files text := fun installs =>
          fault (installs.backedUp present)
        simp [installConfig, Surroundings.handle, directory, backed,
          Program.run_bind, stopped, StatusTrue, deploymentStatus, same,
          versions]
      · cases write : surroundings.configWriteFault 0 with
        | some problem =>
            have stopped : ¬ surroundings.Installs files text := by
              intro installs
              rw [installs.written] at write
              cases write
            simp [installConfig, writeConfig, Surroundings.handle, directory, backed,
              Program.run_bind, stopped, StatusTrue, deploymentStatus,
              same, Files.write, write]
        | none =>
            have installs : surroundings.Installs files text :=
              ⟨readable, different, directory, backedUp, write⟩
            let installed : DeployWorld :=
              ⟨kept.install (bytesOf text) .config, 1, 0, 0, 0, []⟩
            obtain ⟨result, error, after, applied, versions, truth⟩ :=
              applyConfig_run surroundings deployer installed
                (checksum text) rfl different rfl rfl rfl rfl
            refine ⟨result, error, after, ?_, versions, ?_⟩
            · simpa [installConfig, writeConfig, Surroundings.handle, directory,
                backed, Program.run_bind, Files.write,
                write] using applied
            · simp [truth, installs, not_or]

/-- The status of a deployment is true unless an installed text is
lost. -/
theorem deploy_run
    [Build] (surroundings : Surroundings) (deployer : Deployer) (state : State) (files : Files) :
    ∃ result error after,
      (deploy deployer state).run surroundings.handle (.start files) =
        ((result, error), after) ∧
      after.versions = [] ∧
      (StatusTrue (deploymentStatus result error) files.config
          after.files.config (render state deployer.settings) ↔
        ¬ surroundings.LosesInstall files
          (render state deployer.settings) deployer.sleeps) := by
  unfold deploy
  cases rendered : render state deployer.settings with
  | error problem =>
      simp [Surroundings.LosesInstall, StatusTrue, deploymentStatus]
  | ok text =>
      cases reading : files.read surroundings.readFault with
      | ok current =>
          have found := files.read_eq_ok _ reading
          by_cases same : current = bytesOf text
          · have unchanged : ¬ surroundings.Installs files text :=
              fun installs => installs.different (found.trans
                (congrArg some same))
            simp [Surroundings.handle, reading, same,
              Surroundings.losesInstall_iff, unchanged, StatusTrue,
              deploymentStatus, found]
          · have readable : surroundings.readFault = none := by
              cases fault : surroundings.readFault with
              | none => rfl
              | some problem => simp [Files.read, fault] at reading
            have different : files.config ≠ some (bytesOf text) := by
              simpa [found] using same
            have installed := installConfig_run deployer files readable
              different
            rw [found] at installed ⊢
            simpa [Surroundings.handle, reading, same]
              using installed
      | error problem =>
          rcases files.read_eq_error _ reading with
            ⟨fault, faulty, rfl⟩ | ⟨readable, missing, rfl⟩
          · have other := fault.property
            have stopped : ¬ surroundings.Installs files text := by
              intro installs
              rw [installs.readable] at faulty
              cases faulty
            simp [Surroundings.handle, reading, other,
              Surroundings.losesInstall_iff, stopped, StatusTrue,
              deploymentStatus]
          · have gone : Files.notExist.is .osNotExist = true := rfl
            have different : files.config ≠ some (bytesOf text) := by
              simp [missing]
            have installed := installConfig_run deployer files readable
              different
            rw [missing] at installed ⊢
            simpa [Surroundings.handle, reading, gone]
              using installed

/-! ## The recorded status -/

/-- Recording adds the version to the history, whether or not the
database takes it. -/
theorem recordRow_run
    (version : ConfigurationVersion) (detail : String)
    (world : DeployWorld) :
    (recordRow version detail).run surroundings.handle world =
      ((), { world with versions := world.versions ++ [version] }) := by
  unfold recordRow auditDeploy
  cases recorded : surroundings.recorded with
  | ok revision => simp [Surroundings.handle, recorded]
  | error problem => simp [Surroundings.handle, recorded]

/-- With a valid state, `DeployNow` deploys it and records one version
with the status of the outcome. -/
theorem deployNow_run
    [Build] (deployer : Deployer) (actor reason : String)
    (files : Files) {state : State} {result : DeployResult}
    {error : Option GoError} {after : DeployWorld}
    (derived : surroundings.source surroundings.now = .ok state)
    (valid : state.validate = none)
    (deployed :
      (deploy deployer state).run surroundings.handle (.start files) =
        ((result, error), after)) :
    ∃ version,
      version.deploymentStatus = deploymentStatus result error ∧
      ((deployNow deployer actor reason).run surroundings.handle
        (.start files)).2 =
          { after with versions := after.versions ++ [version] } := by
  refine ⟨{
    generatedAt := surroundings.now
    generatedBy := actor
    reason := reason
    validationStatus := .valid
    deploymentStatus := deploymentStatus result error
    checksum := result.checksum }, rfl, ?_⟩
  simp [deployNow, deployLocked, deployDerived, deployState, recordOutcome,
    Surroundings.handle, Program.run_bind, derived, valid, deployed,
    recordRow_run]

/-- `DeployNow` chose one status, and it is true of the file. -/
def RecordsTrueStatus
    [Build] (surroundings : Surroundings) (deployer : Deployer)
    (actor reason : String) (files : Files) (state : State) : Prop :=
  let after := ((deployNow deployer actor reason).run
    surroundings.handle (.start files)).2
  ∃ version, after.versions = [version] ∧
    StatusTrue version.deploymentStatus files.config
      after.files.config (render state deployer.settings)

theorem recordsTrueStatus_iff
    [Build] (deployer : Deployer) (actor reason : String)
    (files : Files) {state : State}
    (derived : surroundings.source surroundings.now = .ok state)
    (valid : state.validate = none) :
    RecordsTrueStatus surroundings deployer actor reason files state ↔
      ¬ surroundings.LosesInstall files
        (render state deployer.settings) deployer.sleeps := by
  obtain ⟨result, error, after, deployed, versions, truth⟩ :=
    deploy_run surroundings deployer state files
  obtain ⟨version, status, final⟩ :=
    deployNow_run deployer actor reason files derived valid deployed
  rw [← truth, RecordsTrueStatus, final, versions]
  constructor
  · rintro ⟨recorded, only, true_⟩
    cases only
    rwa [status] at true_
  · intro true_
    refine ⟨version, rfl, ?_⟩
    rwa [status]

end Runs

/-- The recorded status is true of the file unless the new text was
installed and then the reload signal, or the restoration after a failed
health check, was lost. -/
theorem deployNow_status_true_iff
    [Build] {surroundings : Surroundings} (deployer : Deployer)
    (actor reason : String) (files : Files) {state : State}
    (derived : surroundings.source surroundings.now = .ok state)
    (valid : state.validate = none) :
    RecordsTrueStatus surroundings deployer actor reason files state ↔
      ¬ surroundings.LosesInstall files
        (render state deployer.settings) deployer.sleeps :=
  recordsTrueStatus_iff deployer actor reason files derived valid

/-- One account with both protocols, a file system without faults, and a
running engine that answers the reload signal as given. -/
def sampleSurroundings (signal : Option GoError) : Surroundings where
  now := 0
  source := fun _ => .ok (sampleState [protoHTTP, protoSOCKS5])
  readFault := none
  dirError := none
  backUpFault := none
  configWriteFault := fun _ => none
  removeFault := none
  pidFile := .ok "4711\n"
  alive := fun _ => true
  identity := fun _ => none
  signal := fun _ => signal
  contextError := fun _ => none
  deadline := fun _ => true
  recorded := .ok 1
  auditError := none

def refusedSignal : GoError :=
  .plain "SIGUSR1 to 4711: operation not permitted"

theorem sampleSurroundings_engineFound (signal : Option GoError) :
    (sampleSurroundings signal).EngineFound 4711 :=
  ⟨"4711\n", rfl, by decide, by decide, rfl⟩

theorem sampleSurroundings_loses_iff
    [Build] (signal : Option GoError) :
    (sampleSurroundings signal).LosesInstall
        ⟨some (bytesOf "old"), none⟩
        (render (sampleState [protoHTTP, protoSOCKS5]) sampleSettings)
        sampleDeployer.sleeps ↔
      (sampleSurroundings signal).SignalLost := by
  have rendered :=
    sampleState_rendered [protoHTTP, protoSOCKS5] sampleState_both_valid
  have other : some (bytesOf "old") ≠ some (bytesOf
      (renderText sampleSettings
        (sortUsers (sampleState [protoHTTP, protoSOCKS5]).users))) := by
    intro same
    exact bytesOf_ne_rendered "old" rendered (by decide)
      (Option.some.inj same)
  rw [rendered, Surroundings.losesInstall_iff]
  constructor
  · rintro ⟨-, lost | ⟨-, -, -, -, -, stuck⟩⟩
    · exact lost
    · exact absurd rfl stuck
  · intro lost
    exact ⟨⟨rfl, other, rfl, fun _ => rfl, rfl⟩, Or.inl lost⟩

/-- The signal is refused after the new text was installed: the status
`failed` is recorded although the file has changed. -/
theorem refused_signal_recorded_as_failed :
    ¬ @RecordsTrueStatus Build.dev (sampleSurroundings refusedSignal)
      (@sampleDeployer Build.dev) "admin" "user.disable:alice"
      ⟨some (bytesOf "old"), none⟩
      (sampleState [protoHTTP, protoSOCKS5]) := by
  let _ := Build.dev
  rw [recordsTrueStatus_iff sampleDeployer _ _ _ rfl
    sampleState_both_valid]
  have lost : (sampleSurroundings refusedSignal).SignalLost :=
    ⟨4711, refusedSignal, sampleSurroundings_engineFound _, rfl, rfl,
      by decide⟩
  exact not_not_intro ((sampleSurroundings_loses_iff _).mpr lost)

/-- With the signal delivered, the recorded status is true. -/
theorem delivered_signal_status_true :
    @RecordsTrueStatus Build.dev (sampleSurroundings none)
      (@sampleDeployer Build.dev) "admin" "user.disable:alice"
      ⟨some (bytesOf "old"), none⟩
      (sampleState [protoHTTP, protoSOCKS5]) := by
  let _ := Build.dev
  refine (deployNow_status_true_iff sampleDeployer _ _ _ rfl
    sampleState_both_valid).mpr ?_
  intro loses
  obtain ⟨_, _, -, -, sent, -⟩ :=
    (sampleSurroundings_loses_iff _).mp loses
  cases sent

end Xoxproxy
