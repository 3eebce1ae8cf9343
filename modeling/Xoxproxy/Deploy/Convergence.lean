import Xoxproxy.Engine.Deployer

/-!
# Deployments and the running engine

Calls of `Deploy`, one after the other, while engines start and exit, the
control plane crashes and operations fail.  An engine holds the text that
it loaded at its start or at its last reload signal.
-/

namespace Xoxproxy

open EffectPrograms

/-- A process: an engine with the text it has loaded, or another
program. -/
inductive Process where
  | engine (loaded : Bytes)
  | other
  deriving DecidableEq

/-- The files of the deployer, the engine's pid file and the processes by
their identifiers. -/
structure Host where
  files : Files
  pidFile : Option String
  process : Int → Option Process

/-- The error that makes an operation fail, and the reading of the clock
where the operation reads it. -/
structure HostChoice where
  fault : Option Fault
  late : Bool

/-- What happens on the host apart from deployments. -/
inductive HostEvent where
  | engineStart (pid : Int) (pidText : String)
  | processStart (pid : Int)
  | processExit (pid : Int)
  | pidFileLost

namespace Host

def setProcess (host : Host) (pid : Int) (process : Option Process) :
    Host :=
  { host with
    process := fun other =>
      if other = pid then process else host.process other }

@[simp]
theorem setProcess_files
    (host : Host) (pid : Int) (process : Option Process) :
    (host.setProcess pid process).files = host.files := rfl

@[simp]
theorem setProcess_pidFile
    (host : Host) (pid : Int) (process : Option Process) :
    (host.setProcess pid process).pidFile = host.pidFile := rfl

/-- The reload signal: an engine loads the file on disk, another program
is terminated. -/
def reloadSignal (host : Host) (pid : Int) : Option GoError × Host :=
  match host.process pid with
  | some (.engine loaded) =>
      (none, host.setProcess pid
        (some (.engine (host.files.config.getD loaded))))
  | some .other => (none, host.setProcess pid none)
  | none => (some (.plain "os: process already finished"), host)

/-- `pidIsEngine`. -/
def identify (host : Host) (pid : Int) : Option GoError :=
  match host.process pid with
  | some (.engine _) => none
  | some .other =>
      some (.plain ("pid " ++ toString pid ++ " is another program"))
  | none =>
      some (.plain "cannot verify process identity: no such process")

/-- The operations of `Deploy`.  The operations of the pipeline around it
are not performed here. -/
def handle :
    (op : DeployOp) → HostChoice → Host → Option (op.Answer × Host)
  | .readConfigFile, choice, host =>
      some (host.files.read choice.fault, host)
  | .makeConfigDir, choice, host =>
      some (Files.faultError choice.fault, host)
  | .writeAtomic file data, choice, host =>
      let written := host.files.write choice.fault file data
      some (written.1, { host with files := written.2 })
  | .removeConfigFile, choice, host =>
      let removed := host.files.remove choice.fault
      some (removed.1, { host with files := removed.2 })
  | .readPidFile, choice, host =>
      match choice.fault, host.pidFile with
      | some error, _ => some (.error error.val, host)
      | none, some text => some (.ok text, host)
      | none, none => some (.error Files.notExist, host)
  | .procAlive pid, choice, host =>
      some (choice.fault.isNone && (host.process pid).isSome, host)
  | .pidIsEngine pid, choice, host =>
      match choice.fault with
      | some error => some (some error.val, host)
      | none => some (host.identify pid, host)
  | .signalReload pid, choice, host =>
      match choice.fault with
      | some error => some (some error.val, host)
      | none => some (host.reloadSignal pid)
  | .contextError, choice, host =>
      some (Files.faultError choice.fault, host)
  | .deadlinePassed, choice, host => some (choice.late, host)
  | _, _, _ => none

/-- A starting engine loads the file on disk and writes its pid file; it
does not start without the file or under a pid that is taken. -/
def startEngine (host : Host) (pid : Int) (pidText : String) : Host :=
  match host.process pid, host.files.config with
  | none, some data =>
      if atoi (trimSpace pidText) = some pid then
        { host.setProcess pid (some (.engine data)) with
          pidFile := some pidText }
      else host
  | _, _ => host

/-- Another program takes a free pid. -/
def startProcess (host : Host) (pid : Int) : Host :=
  match host.process pid with
  | none => host.setProcess pid (some .other)
  | some _ => host

def react : HostEvent → Host → Host
  | .engineStart pid pidText, host => host.startEngine pid pidText
  | .processStart pid, host => host.startProcess pid
  | .processExit pid, host => host.setProcess pid none
  | .pidFileLost, host => { host with pidFile := none }

/-- The engine named by the pid file is alive, passes the identity check
and has loaded the given text. -/
def Serves (host : Host) (pid : Int) (loaded : Bytes) : Prop :=
  (∃ text, host.pidFile = some text ∧
    atoi (trimSpace text) = some pid) ∧
  2 ≤ pid ∧ host.process pid = some (.engine loaded)

/-- The file is as given, and an engine that serves something else is one
of the exceptions. -/
structure SettledBut
    (config : Option Bytes) (exception : Int → Prop) (host : Host) :
    Prop where
  onDisk : host.files.config = config
  serving :
    ∀ pid loaded, host.Serves pid loaded →
      config = some loaded ∨ exception pid

/-- The engine named by the pid file, if it is alive, has loaded the file
on disk. -/
def Settled (host : Host) : Prop :=
  ∀ pid loaded, host.Serves pid loaded →
    host.files.config = some loaded

theorem SettledBut.mono
    {config : Option Bytes} {exception weaker : Int → Prop}
    {host : Host} (settled : SettledBut config exception host)
    (implied : ∀ pid, exception pid → weaker pid) :
    SettledBut config weaker host :=
  ⟨settled.onDisk, fun pid loaded serves =>
    (settled.serving pid loaded serves).imp id (implied pid)⟩

theorem settledBut_none_iff
    {config : Option Bytes} {host : Host} :
    SettledBut config (fun _ => False) host ↔
      host.files.config = config ∧ Settled host := by
  constructor
  · intro settled
    refine ⟨settled.onDisk, fun pid loaded serves => ?_⟩
    rw [settled.onDisk]
    exact (settled.serving pid loaded serves).resolve_right id
  · rintro ⟨rfl, settled⟩
    exact ⟨rfl, fun pid loaded serves =>
      Or.inl (settled pid loaded serves)⟩

/-- No file changes, and an engine that serves now either served the same
before or has loaded the file on disk. -/
structure Evolves (before now : Host) : Prop where
  files : now.files = before.files
  serving :
    ∀ pid loaded, now.Serves pid loaded →
      before.Serves pid loaded ∨ before.files.config = some loaded

theorem Evolves.refl (host : Host) : Evolves host host :=
  ⟨rfl, fun _ _ serves => Or.inl serves⟩

theorem Evolves.trans
    {first second third : Host}
    (before : Evolves first second) (after : Evolves second third) :
    Evolves first third := by
  refine ⟨after.files.trans before.files, fun pid loaded serves => ?_⟩
  rcases after.serving pid loaded serves with earlier | config
  · exact before.serving pid loaded earlier
  · exact Or.inr (before.files ▸ config)

theorem SettledBut.evolve
    {config : Option Bytes} {exception : Int → Prop}
    {before now : Host} (settled : SettledBut config exception before)
    (evolves : Evolves before now) : SettledBut config exception now := by
  refine ⟨evolves.files ▸ settled.onDisk, fun pid loaded serves => ?_⟩
  rcases evolves.serving pid loaded serves with earlier | loadedFile
  · exact settled.serving pid loaded earlier
  · exact Or.inl (settled.onDisk ▸ loadedFile)

theorem Settled.evolve
    {before now : Host} (settled : Settled before)
    (evolves : Evolves before now) : Settled now :=
  (settledBut_none_iff.mp
    ((settledBut_none_iff.mpr ⟨rfl, settled⟩).evolve evolves)).2

/-- An exit takes an engine away and adds none. -/
theorem evolves_of_exit (host : Host) (pid : Int) :
    Evolves host (host.setProcess pid none) := by
  refine ⟨rfl, ?_⟩
  rintro other loaded ⟨named, large, alive⟩
  by_cases same : other = pid
  · simp [setProcess, same] at alive
  · exact Or.inl ⟨named, large, by simpa [setProcess, same] using alive⟩

/-- A starting engine has loaded the file on disk, and the pid file names
no other engine. -/
theorem evolves_of_startEngine
    (host : Host) (pid : Int) (pidText : String) :
    Evolves host (host.startEngine pid pidText) := by
  unfold startEngine
  split
  · rename_i data free config
    by_cases named : atoi (trimSpace pidText) = some pid
    · rw [if_pos named]
      refine ⟨setProcess_files host pid (some (.engine data)), ?_⟩
      rintro other loaded ⟨⟨text, written, number⟩, -, alive⟩
      have same : pidText = text := Option.some.inj written
      rw [← same, named] at number
      have self : pid = other := Option.some.inj number
      right
      simpa [setProcess, self, config] using alive
    · rw [if_neg named]
      exact Evolves.refl host
  · exact Evolves.refl host

theorem evolves_of_startProcess (host : Host) (pid : Int) :
    Evolves host (host.startProcess pid) := by
  unfold startProcess
  split
  · refine ⟨setProcess_files host pid _, ?_⟩
    rintro other loaded ⟨named, large, alive⟩
    by_cases same : other = pid
    · simp [setProcess, same] at alive
    · exact Or.inl
        ⟨named, large, by simpa [setProcess, same] using alive⟩
  · exact Evolves.refl host

theorem evolves_of_react (event : HostEvent) (host : Host) :
    Evolves host (host.react event) := by
  cases event with
  | engineStart pid pidText => exact evolves_of_startEngine host pid pidText
  | processStart pid => exact evolves_of_startProcess host pid
  | processExit pid => exact evolves_of_exit host pid
  | pidFileLost =>
      refine ⟨rfl, ?_⟩
      rintro pid loaded ⟨⟨text, written, -⟩, -, -⟩
      have missing : (none : Option String) = some text := written
      cases missing

/-! ## What each operation does -/

section Operations

variable {choice : HostChoice} {host after : Host}

theorem readPidFile_cases
    {answer : Except GoError String}
    (handled : handle .readPidFile choice host = some (answer, after)) :
    after = host ∧
      ((∃ error, answer = .error error ∧
          (choice.fault ≠ none ∨ host.pidFile = none)) ∨
        ∃ text, answer = .ok text ∧ host.pidFile = some text) := by
  unfold handle at handled
  cases fault : choice.fault with
  | some error =>
      simp only [fault, Option.some.injEq, Prod.mk.injEq] at handled
      exact ⟨handled.2.symm,
        Or.inl ⟨error.val, handled.1.symm, Or.inl (by simp)⟩⟩
  | none =>
      cases pidFile : host.pidFile with
      | some text =>
          simp only [fault, pidFile, Option.some.injEq, Prod.mk.injEq]
            at handled
          exact ⟨handled.2.symm, Or.inr ⟨text, handled.1.symm, rfl⟩⟩
      | none =>
          simp only [fault, pidFile, Option.some.injEq, Prod.mk.injEq]
            at handled
          exact ⟨handled.2.symm,
            Or.inl ⟨_, handled.1.symm, Or.inr rfl⟩⟩

theorem procAlive_cases
    {pid : Int} {answer : Bool}
    (handled :
      handle (.procAlive pid) choice host = some (answer, after)) :
    after = host ∧
      (answer = true ∨
        answer = false ∧
          (choice.fault ≠ none ∨ host.process pid = none)) := by
  unfold handle at handled
  simp only [Option.some.injEq, Prod.mk.injEq] at handled
  refine ⟨handled.2.symm, ?_⟩
  rw [← handled.1]
  cases choice.fault with
  | some error => simp
  | none => cases host.process pid <;> simp

theorem pidIsEngine_cases
    {pid : Int} {answer : Option GoError}
    (handled :
      handle (.pidIsEngine pid) choice host = some (answer, after)) :
    after = host ∧
      (answer = none ∨
        ∃ error, answer = some error ∧
          (choice.fault ≠ none ∨
            ∀ loaded, host.process pid ≠ some (.engine loaded))) := by
  unfold handle at handled
  cases fault : choice.fault with
  | some error =>
      simp only [fault, Option.some.injEq, Prod.mk.injEq] at handled
      exact ⟨handled.2.symm,
        Or.inr ⟨error.val, handled.1.symm, Or.inl (by simp)⟩⟩
  | none =>
      simp only [fault, Option.some.injEq, Prod.mk.injEq] at handled
      refine ⟨handled.2.symm, ?_⟩
      rw [← handled.1, identify]
      rcases host.process pid with _ | _ | _ <;> simp

/-- After a delivered signal an engine under that pid has loaded the file
on disk. -/
theorem signalReload_cases
    {pid : Int} {answer : Option GoError} {data : Bytes}
    (config : host.files.config = some data)
    (handled :
      handle (.signalReload pid) choice host = some (answer, after)) :
    (∃ error, answer = some error ∧ after = host ∧
        (choice.fault ≠ none ∨ host.process pid = none)) ∨
      answer = none ∧
        (after = host.setProcess pid (some (.engine data)) ∨
          after = host.setProcess pid none) := by
  unfold handle at handled
  cases fault : choice.fault with
  | some error =>
      simp only [fault, Option.some.injEq, Prod.mk.injEq] at handled
      exact Or.inl ⟨error.val, handled.1.symm, handled.2.symm,
        Or.inl (by simp)⟩
  | none =>
      simp only [fault, reloadSignal, config, Option.getD_some] at handled
      cases alive : host.process pid with
      | none =>
          simp only [alive, Option.some.injEq, Prod.mk.injEq] at handled
          exact Or.inl ⟨_, handled.1.symm, handled.2.symm, Or.inr rfl⟩
      | some process =>
          cases process with
          | engine loaded =>
              simp only [alive, Option.some.injEq, Prod.mk.injEq]
                at handled
              exact Or.inr ⟨handled.1.symm, Or.inl handled.2.symm⟩
          | other =>
              simp only [alive, Option.some.injEq, Prod.mk.injEq]
                at handled
              exact Or.inr ⟨handled.1.symm, Or.inr handled.2.symm⟩

/-- A write that succeeds replaces one file and touches no process. -/
theorem writeAtomic_cases
    {file : DeployFile} {data : Bytes} {answer : Option GoError}
    (handled :
      handle (.writeAtomic file data) choice host =
        some (answer, after)) :
    (∃ error, answer = some error ∧ after = host) ∨
      answer = none ∧ choice.fault = none ∧
        after = { host with files := host.files.install data file } := by
  unfold handle at handled
  simp only [Option.some.injEq, Prod.mk.injEq] at handled
  cases fault : choice.fault with
  | some error =>
      simp only [Files.write, fault] at handled
      exact Or.inl ⟨error.val, handled.1.symm, handled.2.symm⟩
  | none =>
      simp only [Files.write, fault] at handled
      exact Or.inr ⟨handled.1.symm, rfl, handled.2.symm⟩

theorem removeConfigFile_cases
    {answer : Option GoError}
    (handled :
      handle .removeConfigFile choice host = some (answer, after)) :
    after = host ∨
      choice.fault = none ∧
        after = { host with
          files := { host.files with config := none } } := by
  unfold handle at handled
  simp only [Option.some.injEq, Prod.mk.injEq] at handled
  cases fault : choice.fault with
  | some error =>
      simp only [Files.remove, fault] at handled
      exact Or.inl handled.2.symm
  | none =>
      cases config : host.files.config with
      | none =>
          simp only [Files.remove, fault, config] at handled
          exact Or.inl handled.2.symm
      | some data =>
          simp only [Files.remove, fault, config] at handled
          exact Or.inr ⟨rfl, handled.2.symm⟩

/-- Operations that only look leave the host as it is. -/
theorem readConfigFile_cases
    {answer : Except GoError Bytes}
    (handled :
      handle .readConfigFile choice host = some (answer, after)) :
    after = host ∧ answer = host.files.read choice.fault := by
  unfold handle at handled
  simp only [Option.some.injEq, Prod.mk.injEq] at handled
  exact ⟨handled.2.symm, handled.1.symm⟩

end Operations

section Settling

variable {config : Option Bytes} {exception : Int → Prop} {host : Host}

/-- An exception that does not serve is none. -/
theorem SettledBut.resolve
    {pid : Int} (settled : SettledBut config (fun other => other = pid) host)
    (idle : ∀ loaded, ¬ host.Serves pid loaded) :
    SettledBut config (fun _ => False) host := by
  refine ⟨settled.onDisk, fun other loaded serves => Or.inl ?_⟩
  rcases settled.serving other loaded serves with loadedFile | rfl
  · exact loadedFile
  · exact absurd serves (idle loaded)

/-- A host that is settled has no exceptions, whatever was allowed. -/
theorem SettledBut.of_settled
    (settled : SettledBut config exception host)
    (quiet : Settled host) : SettledBut config (fun _ => False) host :=
  settledBut_none_iff.mpr ⟨settled.onDisk, quiet⟩

theorem SettledBut.settled
    (settled : SettledBut config (fun _ => False) host) : Settled host :=
  (settledBut_none_iff.mp settled).2

/-- Reading the pid file singles out the engine it names. -/
theorem SettledBut.named
    {text : String} (settled : SettledBut config exception host)
    (pidFile : host.pidFile = some text) :
    SettledBut config
      (fun pid => atoi (trimSpace text) = some pid ∧ 2 ≤ pid) host := by
  refine ⟨settled.onDisk, fun pid loaded serves => Or.inr ?_⟩
  obtain ⟨⟨other, written, number⟩, large, -⟩ := serves
  rw [pidFile] at written
  cases written
  exact ⟨number, large⟩

/-- Without a pid file no engine is named. -/
theorem settled_of_no_pidFile
    (missing : host.pidFile = none) : Settled host := by
  rintro pid loaded ⟨⟨text, written, -⟩, -⟩
  rw [missing] at written
  cases written

/-- Reloading or ending the excepted engine settles the host. -/
theorem SettledBut.reloaded
    {data : Bytes} {pid : Int} {after : Host}
    (settled :
      SettledBut (some data) (fun other => other = pid) host)
    (changed :
      after = host.setProcess pid (some (.engine data)) ∨
        after = host.setProcess pid none) :
    SettledBut (some data) (fun _ => False) after := by
  rcases changed with rfl | rfl
  · refine ⟨settled.onDisk, fun other loaded serves => Or.inl ?_⟩
    obtain ⟨named, large, alive⟩ := serves
    by_cases same : other = pid
    · simp only [setProcess, same, if_true, Option.some.injEq,
        Process.engine.injEq] at alive
      rw [alive]
    · simp only [setProcess, same, if_false] at alive
      exact (settled.serving other loaded
        ⟨named, large, alive⟩).resolve_right same
  · refine ⟨settled.onDisk, fun other loaded serves => Or.inl ?_⟩
    obtain ⟨named, large, alive⟩ := serves
    by_cases same : other = pid
    · simp [setProcess, same] at alive
    · simp only [setProcess, same, if_false] at alive
      exact (settled.serving other loaded
        ⟨named, large, alive⟩).resolve_right same

/-- Replacing the configuration leaves every engine an exception. -/
theorem settledBut_install (host : Host) (data : Bytes) :
    SettledBut (some data) (fun _ => True)
      { host with files := host.files.install data .config } :=
  ⟨rfl, fun _ _ _ => Or.inr trivial⟩

/-- Backing up does not touch the configuration. -/
theorem SettledBut.backedUp
    (settled : SettledBut config exception host) (data : Bytes) :
    SettledBut config exception
      { host with files := host.files.install data .previous } :=
  ⟨settled.onDisk, settled.serving⟩

end Settling

end Host

open Host

/-- A reload signal has been sent in this call. -/
def Signalled (past : List (Event DeployOp DeployOp.Answer)) : Prop :=
  ∃ event ∈ past, ∃ pid, event.op = .signalReload pid

theorem Signalled.later
    {past : List (Event DeployOp DeployOp.Answer)}
    (signalled : Signalled past)
    (event : Event DeployOp DeployOp.Answer) :
    Signalled (past ++ [event]) := by
  obtain ⟨earlier, member, sent⟩ := signalled
  exact ⟨earlier, List.mem_append_left _ member, sent⟩

/-- Looking for the engine and signalling it fail only while the engine
named by the pid file, if alive, has loaded the file on disk.  A rollback
puts back a text only if that engine has loaded this text, and removes
the file only if there is no such engine. -/
def Harmless
    (past : List (Event DeployOp DeployOp.Answer)) (op : DeployOp)
    (choice : HostChoice) (host : Host) : Prop :=
  match op with
  | .readPidFile | .procAlive _ | .pidIsEngine _ | .signalReload _ =>
      choice.fault ≠ none → host.Settled
  | .writeAtomic .config data =>
      Signalled past → choice.fault = none →
        ∀ pid loaded, host.Serves pid loaded → loaded = data
  | .removeConfigFile =>
      choice.fault = none → ∀ pid loaded, ¬ host.Serves pid loaded
  | _ => True

/-- A call that returned without an error has left its text on disk. -/
def Installed
    [Build] (settings : Settings) (state : State)
    (error : Option GoError) (host : Host) : Prop :=
  error = none →
    ∃ text, render state settings = .ok text ∧
      host.files.config = some (bytesOf text)

section Calls

variable [Build] (deployer : Deployer)

def deployMachine :
    Machine DeployOp DeployOp.Answer (DeployResult × Option GoError)
      State Host HostChoice HostEvent where
  program := deploy deployer
  handle := fun _ => Host.handle
  react := Host.react

theorem deployMachine_program :
    (deployMachine deployer).program = deploy deployer := by
  rw [deployMachine]

/-- Calls return in a settled host. -/
def deployDiscipline :
    Discipline DeployOp DeployOp.Answer (DeployResult × Option GoError)
      State Host HostChoice where
  invariant := fun _ => True
  rely := fun _ => Evolves
  rely_refl := fun _ => Evolves.refl
  rely_trans := Evolves.trans
  fresh := fun _ _ => True
  fresh_rely := fun _ _ => trivial
  guarantee := fun _ _ _ => True
  condition := fun _ => Harmless
  promise := fun _ _ _ _ _ => True
  finished := fun state _ value host =>
    host.Settled ∧ Installed deployer.settings state value.2 host

/-- `Ensures` for calls of `Deploy`. -/
abbrev Keeps
    {Result : Type} (state : State)
    (post : List (Event DeployOp DeployOp.Answer) → Result → Host → Prop)
    (rest : DeployProgram Result)
    (past : List (Event DeployOp DeployOp.Answer)) (host : Host) : Prop :=
  Ensures (deployMachine deployer) (deployDiscipline deployer) state post
    rest past host

@[simp]
theorem deployDiscipline_condition (state : State) :
    (deployDiscipline deployer).condition state = Harmless := rfl

variable {deployer}
variable {Result : Type} {state : State}
variable {post : List (Event DeployOp DeployOp.Answer) → Result → Host →
  Prop}
variable {past : List (Event DeployOp DeployOp.Answer)} {host : Host}
variable {config : Option Bytes} {exception : Int → Prop}

theorem keeps_call
    {op : DeployOp} {next : op.Answer → DeployProgram Result}
    (settled : SettledBut config exception host)
    (performed :
      ∀ now choice answer after,
        SettledBut config exception now → Harmless past op choice now →
        Host.handle op choice now = some (answer, after) →
          Keeps deployer state post (next answer)
            (past ++ [⟨op, answer⟩]) after) :
    Keeps deployer state post (.call op next) past host :=
  ensures_call (SettledBut config exception)
    (fun _ _ before evolves => before.evolve evolves) settled
    fun now choice answer after before _ harmless handled =>
      ⟨trivial, trivial, trivial,
        performed now choice answer after before harmless handled⟩

theorem keeps_ask
    {op : DeployOp} {next : op.Answer → DeployProgram Result}
    (settled : SettledBut config exception host)
    (performed :
      ∀ now choice answer after,
        SettledBut config exception now → Harmless past op choice now →
        Host.handle op choice now = some (answer, after) →
          Keeps deployer state post (next answer)
            (past ++ [⟨op, answer⟩]) after) :
    Keeps deployer state post (ask op >>= next) past host :=
  keeps_call settled performed

theorem keeps_ret
    {value : Result} (settled : SettledBut config exception host)
    (finish :
      ∀ now, SettledBut config exception now → post past value now) :
    Keeps deployer state post (.ret value) past host :=
  ensures_ret (SettledBut config exception)
    (fun _ _ before evolves => before.evolve evolves) settled
    fun now before _ => finish now before

theorem keeps_bind
    {Middle : Type} {program : DeployProgram Middle}
    {continuation : Middle → DeployProgram Result}
    {between :
      List (Event DeployOp DeployOp.Answer) → Middle → Host → Prop}
    (first : Keeps deployer state between program past host)
    (second :
      ∀ later value now, between later value now →
        Keeps deployer state post (continuation value) later now) :
    Keeps deployer state post (program >>= continuation) past host :=
  ensures_bind trivial first fun later value now _ =>
    second later value now

/-! ## The parts of a call -/

/-- With an error the host is settled; otherwise only the engine that was
found may lag behind. -/
theorem enginePID_keeps
    (settled : SettledBut config (fun _ => True) host) :
    Keeps deployer state
      (fun _ found now =>
        match found with
        | .error _ => SettledBut config (fun _ => False) now
        | .ok pid => SettledBut config (fun other => other = pid) now)
      enginePID past host := by
  refine keeps_ask settled ?_
  intro now choice answer after settled harmless handled
  obtain ⟨rfl, ⟨error, rfl, failed⟩ | ⟨text, rfl, pidFile⟩⟩ :=
    readPidFile_cases handled
  · have quiet : after.Settled := by
      rcases failed with fault | missing
      · exact harmless fault
      · exact settled_of_no_pidFile missing
    exact keeps_ret (settled.of_settled quiet) fun _ before => before
  · have named := settled.named pidFile
    dsimp only
    cases number : atoi (trimSpace text) with
    | none =>
        refine keeps_ret (named.mono fun pid claimed => ?_)
          fun _ before => before
        rw [number] at claimed
        cases claimed.1
    | some pid =>
        by_cases small : pid < 2
        · simp only [small, if_true]
          refine keeps_ret (named.mono fun other claimed => ?_)
            fun _ before => before
          rw [number] at claimed
          cases claimed.1
          omega
        · have only :
              SettledBut config (fun other => other = pid) after := by
            refine named.mono fun other claimed => ?_
            rw [number] at claimed
            exact (Option.some.inj claimed.1).symm
          simp only [small, if_false]
          refine keeps_ask only ?_
          intro later choice answer afterwards only harmless handled
          obtain ⟨rfl, rfl | ⟨rfl, failed⟩⟩ := procAlive_cases handled
          · exact keeps_ret only fun _ before => before
          · have resolved :
                SettledBut config (fun _ => False) afterwards := by
              rcases failed with fault | gone
              · exact only.of_settled (harmless fault)
              · refine only.resolve fun loaded serves => ?_
                rw [serves.2.2] at gone
                cases gone
            exact keeps_ret resolved fun _ before => before

/-- After `reload` the host is settled; if it returned no error, a signal
was sent. -/
theorem reload_keeps
    {pid : Int} {data : Bytes}
    (settled : SettledBut (some data) (fun other => other = pid) host) :
    Keeps deployer state
      (fun later error now =>
        SettledBut (some data) (fun _ => False) now ∧
          (error = none → Signalled later))
      (reload pid) past host := by
  refine keeps_ask settled ?_
  intro now choice answer after settled harmless handled
  obtain ⟨rfl, rfl | ⟨error, rfl, failed⟩⟩ := pidIsEngine_cases handled
  · refine keeps_call settled ?_
    intro later choice answer afterwards settled harmless handled
    rcases signalReload_cases settled.onDisk handled with
      ⟨error, rfl, rfl, failed⟩ | ⟨rfl, changed⟩
    · have resolved :
          SettledBut (some data) (fun _ => False) afterwards := by
        rcases failed with fault | gone
        · exact settled.of_settled (harmless fault)
        · refine settled.resolve fun loaded serves => ?_
          rw [serves.2.2] at gone
          cases gone
      exact keeps_ret resolved fun _ before =>
        ⟨before, fun missing => by cases missing⟩
    · exact keeps_ret (settled.reloaded changed) fun _ before =>
        ⟨before, fun _ => ⟨⟨.signalReload pid, none⟩, by simp, pid, rfl⟩⟩
  · have resolved : SettledBut (some data) (fun _ => False) after := by
      rcases failed with fault | other
      · exact settled.of_settled (harmless fault)
      · exact settled.resolve fun loaded serves =>
          other loaded serves.2.2
    exact keeps_ret resolved fun _ before =>
      ⟨before, fun missing => by cases missing⟩

/-- The health check changes nothing. -/
theorem verifyAfterReload_keeps
    {pid : Int} {sleeps : Nat}
    (settled : SettledBut config (fun _ => False) host)
    (signalled : Signalled past) :
    Keeps deployer state
      (fun later _ now =>
        SettledBut config (fun _ => False) now ∧ Signalled later)
      (verifyAfterReload pid sleeps) past host := by
  induction sleeps generalizing past host with
  | zero =>
      rw [verifyAfterReload]
      refine keeps_ask settled ?_
      intro now choice answer after settled _ handled
      cases handled
      cases choice.fault with
      | some error =>
          exact keeps_ret settled fun _ before =>
            ⟨before, signalled.later _⟩
      | none =>
          refine keeps_ask settled ?_
          intro now choice answer after settled _ handled
          obtain ⟨rfl, -⟩ := procAlive_cases handled
          cases answer with
          | true =>
              exact keeps_ret settled fun _ before =>
                ⟨before, (signalled.later _).later _⟩
          | false =>
              exact keeps_ret settled fun _ before =>
                ⟨before, (signalled.later _).later _⟩
  | succ sleeps inductionHypothesis =>
      rw [verifyAfterReload]
      refine keeps_ask settled ?_
      intro now choice answer after settled _ handled
      cases handled
      cases choice.fault with
      | some error =>
          exact keeps_ret settled fun _ before =>
            ⟨before, signalled.later _⟩
      | none =>
          refine keeps_ask settled ?_
          intro now choice answer after settled _ handled
          obtain ⟨rfl, -⟩ := procAlive_cases handled
          cases answer with
          | false =>
              exact keeps_ret settled fun _ before =>
                ⟨before, (signalled.later _).later _⟩
          | true =>
              refine keeps_ask settled ?_
              intro now choice answer after settled _ handled
              cases handled
              cases choice.late with
              | true =>
                  exact keeps_ret settled fun _ before =>
                    ⟨before, ((signalled.later _).later _).later _⟩
              | false =>
                  exact inductionHypothesis settled
                    (((signalled.later _).later _).later _)

/-- Returning with an error from a settled host. -/
theorem keeps_failed
    {result : DeployResult} {error : GoError}
    (settled : SettledBut config (fun _ => False) host) :
    Keeps deployer state ((deployDiscipline deployer).finished state)
      (.ret (result, some error)) past host :=
  keeps_ret settled fun _ before =>
    ⟨before.settled, fun missing => by cases missing⟩

/-- Returning without an error from a settled host with the rendered text
on disk. -/
theorem keeps_succeeded
    {result : DeployResult} {text : String}
    (rendered : render state deployer.settings = .ok text)
    (settled :
      SettledBut (some (bytesOf text)) (fun _ => False) host) :
    Keeps deployer state ((deployDiscipline deployer).finished state)
      (.ret (result, none)) past host :=
  keeps_ret settled fun _ before =>
    ⟨before.settled, fun _ => ⟨text, rendered, before.onDisk⟩⟩

theorem rollBack_keeps
    (current : Option Bytes) (sum : String) (error : GoError)
    (settled : SettledBut config (fun _ => False) host)
    (signalled : Signalled past) :
    Keeps deployer state ((deployDiscipline deployer).finished state)
      (rollBack current sum error) past host := by
  cases current with
  | some data =>
      refine keeps_ask settled ?_
      intro now choice answer after settled harmless handled
      rcases writeAtomic_cases handled with
        ⟨problem, rfl, rfl⟩ | ⟨rfl, successful, rfl⟩
      · exact keeps_failed settled
      · have loaded := harmless signalled successful
        have restored :
            SettledBut (some data) (fun _ => False)
              { now with files := now.files.install data .config } :=
          ⟨rfl, fun pid text serves =>
            Or.inl (congrArg some (loaded pid text serves).symm)⟩
        exact keeps_failed restored
  | none =>
      refine keeps_ask settled ?_
      intro now choice answer after settled harmless handled
      have quiet :
          SettledBut after.files.config (fun _ => False) after := by
        rcases removeConfigFile_cases handled with
          rfl | ⟨successful, rfl⟩
        · exact settledBut_none_iff.mpr ⟨rfl, settled.settled⟩
        · exact ⟨rfl, fun pid loaded serves =>
            absurd serves (harmless successful pid loaded)⟩
      cases answer with
      | none => exact keeps_failed quiet
      | some problem =>
          dsimp only
          cases problem.is .osNotExist with
          | true => exact keeps_failed quiet
          | false => exact keeps_failed quiet

theorem applyConfig_keeps
    {text : String} (current : Option Bytes) (sum : String)
    (rendered : render state deployer.settings = .ok text)
    (settled :
      SettledBut (some (bytesOf text)) (fun _ => True) host) :
    Keeps deployer state ((deployDiscipline deployer).finished state)
      (applyConfig deployer current sum) past host := by
  refine keeps_bind (enginePID_keeps settled) ?_
  intro past found host settled
  cases found with
  | error error => exact keeps_succeeded rendered settled
  | ok pid =>
      refine keeps_bind (reload_keeps settled) ?_
      intro past outcome host outcomeSettled
      obtain ⟨settled, sent⟩ := outcomeSettled
      cases outcome with
      | some error =>
          dsimp only
          cases error.is .engineNotRunning with
          | true => exact keeps_succeeded rendered settled
          | false => exact keeps_failed settled
      | none =>
          refine keeps_bind
            (verifyAfterReload_keeps settled (sent rfl)) ?_
          intro past verdict host verdictSettled
          obtain ⟨settled, signalled⟩ := verdictSettled
          cases verdict with
          | some error =>
              exact rollBack_keeps current sum error settled signalled
          | none => exact keeps_succeeded rendered settled

theorem installConfig_keeps
    {text : String} (current : Option Bytes)
    (rendered : render state deployer.settings = .ok text)
    (settled : SettledBut config (fun _ => False) host) :
    Keeps deployer state ((deployDiscipline deployer).finished state)
      (installConfig deployer text current) past host := by
  have install : ∀ past host,
      SettledBut config (fun _ => False) host →
        Keeps deployer state
          ((deployDiscipline deployer).finished state)
          (writeConfig deployer text current) past host := by
    intro past host settled
    refine keeps_ask settled ?_
    intro now choice answer after settled _ handled
    rcases writeAtomic_cases handled with
      ⟨problem, rfl, rfl⟩ | ⟨rfl, -, rfl⟩
    · exact keeps_failed settled
    · exact applyConfig_keeps current _ rendered
        (settledBut_install now (bytesOf text))
  refine keeps_ask settled ?_
  intro now choice answer after settled _ handled
  cases handled
  cases choice.fault with
  | some error => exact keeps_failed settled
  | none =>
      cases current with
      | none => exact install _ now settled
      | some data =>
          refine keeps_ask settled ?_
          intro now choice answer after settled _ handled
          rcases writeAtomic_cases handled with
            ⟨problem, rfl, rfl⟩ | ⟨rfl, -, rfl⟩
          · exact keeps_failed settled
          · exact install _ _ (settled.backedUp data)

/-- A call that starts in a settled host ends in one. -/
theorem deploy_keeps
    (settled : host.Settled) :
    Secure (deployMachine deployer) (deployDiscipline deployer) state
      (deploy deployer state) past host := by
  have unexcepted :
      SettledBut host.files.config (fun _ => False) host :=
    settledBut_none_iff.mpr ⟨rfl, settled⟩
  unfold deploy
  cases rendered : render state deployer.settings with
  | error error => exact keeps_failed unexcepted
  | ok text =>
      refine keeps_ask unexcepted ?_
      intro now choice answer after unexcepted _ handled
      obtain ⟨rfl, reading⟩ := readConfigFile_cases handled
      cases answer with
      | ok current =>
          have found := Files.read_eq_ok _ _ reading.symm
          dsimp only
          by_cases same : current = bytesOf text
          · rw [if_pos same]
            have onDisk :
                SettledBut (some (bytesOf text)) (fun _ => False)
                  after :=
              settledBut_none_iff.mpr
                ⟨found.trans (congrArg some same), unexcepted.settled⟩
            exact keeps_succeeded rendered onDisk
          · rw [if_neg same]
            exact installConfig_keeps _ rendered unexcepted
      | error error =>
          dsimp only
          cases error.is .osNotExist with
          | true => exact installConfig_keeps _ rendered unexcepted
          | false => exact keeps_failed unexcepted

theorem deployObligations :
    SoloObligations (deployMachine deployer) (deployDiscipline deployer)
      Host.Settled where
  start := by
    intro state host _ settled
    rw [deployMachine_program]
    exact deploy_keeps settled
  finished := by
    intro state past value host _ done
    exact done.1
  outside := by
    intro event host _
    have evolves := evolves_of_react event host
    exact ⟨fun _ => evolves, trivial,
      fun settled => settled.evolve evolves⟩

variable (deployer) in
/-- Where a call has returned without an error, the engine named by the
pid file, if it is alive, has loaded the text that the call rendered. -/
def Converged
    (pool : Pool DeployOp DeployOp.Answer
      (DeployResult × Option GoError) State Host) : Prop :=
  ∀ state past result pid loaded,
    ⟨state, past, .ret (result, none)⟩ ∈ pool.threads →
      pool.world.Serves pid loaded →
        ∃ text, render state deployer.settings = .ok text ∧
          loaded = bytesOf text

/-- Calls one after the other, with everything that may happen in
between. -/
abbrev deployRun
    (deployer : Deployer)
    (actions : List (Action State HostChoice HostEvent)) (host : Host) :
    Pool DeployOp DeployOp.Answer (DeployResult × Option GoError) State
      Host :=
  Runs.run (deployMachine deployer).soloStep actions (.idle host)

/-- A call that has returned without an error has settled the host and
left its text on disk. -/
theorem converged_of_secure
    {pool : Pool DeployOp DeployOp.Answer
      (DeployResult × Option GoError) State Host}
    (secure :
      SoloSecure (deployMachine deployer) (deployDiscipline deployer)
        Host.Settled pool) :
    Converged deployer pool := by
  intro state past result pid loaded returned serves
  have done :
      pool.world.Settled ∧
        Installed deployer.settings state none pool.world :=
    secure.of_returned returned
  obtain ⟨settled, installed⟩ := done
  obtain ⟨text, rendered, onDisk⟩ := installed rfl
  refine ⟨text, rendered, ?_⟩
  have loadedFile := settled pid loaded serves
  rw [onDisk] at loadedFile
  exact (Option.some.inj loadedFile).symm

/-- In every run whose crashes, faults and rollbacks are harmless, each
call that returns without an error leaves the running engine with the
rendered text. -/
theorem deploy_converges
    (deployer : Deployer) {host : Host} (settled : host.Settled)
    {actions : List (Action State HostChoice HostEvent)}
    (harmless :
      Runs.Meets (deployMachine deployer).soloStep
        ((deployDiscipline deployer).AllowsSolo Host.Settled)
        actions (.idle host)) :
    Converged deployer (deployRun deployer actions host) :=
  converged_of_secure
    (SoloSecure.run deployObligations (.idle trivial settled) harmless)

end Calls

/-! ## A crash after the rename -/

/-- A host without processes whose configuration file holds the given
bytes. -/
def quietHost (config : Bytes) : Host where
  files := ⟨some config, none⟩
  pidFile := none
  process := fun _ => none

def noFault : HostChoice := ⟨none, false⟩

def engineStarts : Action State HostChoice HostEvent :=
  .outside (.engineStart 4711 "4711\n")

/-- An engine starts, a call crashes right after it has replaced the
configuration, and the next call finds nothing to do. -/
def crashAfterRename (state : State) :
    List (Action State HostChoice HostEvent) :=
  [engineStarts, .start state, .advance 0 noFault, .advance 0 noFault,
    .advance 0 noFault, .advance 0 noFault, .cut 0, .start state,
    .advance 0 noFault]

theorem crashAfterRename_run
    [Build] (deployer : Deployer) {state : State} {text : String}
    (rendered : render state deployer.settings = .ok text)
    (other : bytesOf "old" ≠ bytesOf text) :
    (∃ past result,
      ⟨state, past, .ret (result, none)⟩ ∈
        (deployRun deployer (crashAfterRename state)
          (quietHost (bytesOf "old"))).threads) ∧
      (deployRun deployer (crashAfterRename state)
        (quietHost (bytesOf "old"))).world.Serves 4711
          (bytesOf "old") := by
  have number : atoi (trimSpace "4711\n") = some 4711 := by decide
  constructor
  · simp [deployRun, crashAfterRename, engineStarts, Machine.soloStep,
      Machine.step, deployMachine, deploy, rendered, noFault, Host.react,
      Host.startEngine, quietHost, number, Host.handle, Files.read, other,
      installConfig, writeConfig, Files.faultError, backUp, Files.write]
  · simp [deployRun, crashAfterRename, engineStarts, Machine.soloStep,
      Machine.step, deployMachine, deploy, rendered, noFault, Host.react,
      Host.startEngine, quietHost, number, Host.handle, Files.read, other,
      installConfig, writeConfig, Files.faultError, backUp, Files.write, Host.Serves,
      Host.setProcess]

/-- After the crash the next call reports success, and the engine keeps
the text it started with. -/
theorem crash_leaves_stale_engine :
    ¬ @Converged Build.dev (@sampleDeployer Build.dev)
      (@deployRun Build.dev (@sampleDeployer Build.dev)
        (crashAfterRename (sampleState [protoHTTP, protoSOCKS5]))
        (quietHost (bytesOf "old"))) := by
  let _ := Build.dev
  intro converged
  have rendered :=
    sampleState_rendered [protoHTTP, protoSOCKS5] sampleState_both_valid
  have other := bytesOf_ne_rendered "old" rendered (by decide)
  obtain ⟨⟨past, result, returned⟩, serves⟩ :=
    crashAfterRename_run sampleDeployer rendered other
  obtain ⟨text, renderedText, loaded⟩ :=
    converged _ past result 4711 (bytesOf "old") returned serves
  exact bytesOf_ne_rendered "old" renderedText (by decide) loaded

def diskFull : HostChoice :=
  ⟨some ⟨.plain "no space left on device", rfl⟩, false⟩

def deadlinePasses : HostChoice := ⟨none, true⟩

/-- An engine starts, a call fails to replace the configuration, and the
next call replaces it and signals the engine. -/
def retriedDeploy (state : State) :
    List (Action State HostChoice HostEvent) :=
  [engineStarts, .start state, .advance 0 noFault, .advance 0 noFault,
    .advance 0 noFault, .advance 0 diskFull, .start state] ++
  List.replicate 10 (.advance 0 noFault) ++ [.advance 0 deadlinePasses]

section Retrying

variable [Build] (deployer : Deployer) {state : State} {text : String}

theorem retriedDeploy_run
    (rendered : render state deployer.settings = .ok text)
    (other : bytesOf "old" ≠ bytesOf text) :
    (∃ past result,
      ⟨state, past, .ret (result, none)⟩ ∈
        (deployRun deployer (retriedDeploy state)
          (quietHost (bytesOf "old"))).threads) ∧
      (deployRun deployer (retriedDeploy state)
        (quietHost (bytesOf "old"))).world.Serves 4711 (bytesOf text) := by
  have number : atoi (trimSpace "4711\n") = some 4711 := by decide
  simp [deployRun, retriedDeploy, engineStarts, Machine.soloStep,
    Machine.step, deployMachine, deploy, rendered, noFault, diskFull,
    deadlinePasses, Host.react, Host.startEngine, quietHost, number,
    Host.handle, Files.read, other, installConfig, writeConfig,
    Files.faultError, backUp, Files.write, Thread.returned,
    List.replicate, Files.install, applyConfig, enginePID, reload,
    Host.identify, Host.setProcess, Host.reloadSignal, Deployer.sleeps,
    verifyAfterReload, Host.Serves]

/-- The fault hits no look at the engine, and nothing is rolled back. -/
theorem retriedDeploy_harmless
    (rendered : render state deployer.settings = .ok text)
    (other : bytesOf "old" ≠ bytesOf text) :
    Runs.Meets (deployMachine deployer).soloStep
      ((deployDiscipline deployer).AllowsSolo Host.Settled)
      (retriedDeploy state) (.idle (quietHost (bytesOf "old"))) := by
  have number : atoi (trimSpace "4711\n") = some 4711 := by decide
  simp [Runs.Meets, Discipline.allowsSolo_advance_iff,
    Discipline.AllowsNext, Harmless, Signalled, retriedDeploy,
    engineStarts, Machine.soloStep, Machine.step, deployMachine, deploy,
    rendered, noFault, diskFull, deadlinePasses, Host.react,
    Host.startEngine, quietHost, number, Host.handle, Files.read, other,
    installConfig, writeConfig, Files.faultError, backUp, Files.write,
    Thread.returned, List.replicate, Files.install, applyConfig,
    enginePID, reload, Host.identify, Host.setProcess,
    Host.reloadSignal, Deployer.sleeps, verifyAfterReload]

end Retrying

/-- The engine has started with another text and serves what the second
call has rendered. -/
theorem retried_deploy_converges :
    ∃ text,
      @render Build.dev (sampleState [protoHTTP, protoSOCKS5])
          sampleSettings = .ok text ∧
        ((∃ past result,
          ⟨sampleState [protoHTTP, protoSOCKS5], past,
              .ret (result, none)⟩ ∈
            (@deployRun Build.dev (@sampleDeployer Build.dev)
              (retriedDeploy (sampleState [protoHTTP, protoSOCKS5]))
              (quietHost (bytesOf "old"))).threads) ∧
          (@deployRun Build.dev (@sampleDeployer Build.dev)
            (retriedDeploy (sampleState [protoHTTP, protoSOCKS5]))
            (quietHost (bytesOf "old"))).world.Serves 4711
              (bytesOf text)) ∧
        @Converged Build.dev (@sampleDeployer Build.dev)
          (@deployRun Build.dev (@sampleDeployer Build.dev)
            (retriedDeploy (sampleState [protoHTTP, protoSOCKS5]))
            (quietHost (bytesOf "old"))) := by
  let _ := Build.dev
  have rendered :=
    sampleState_rendered [protoHTTP, protoSOCKS5] sampleState_both_valid
  have other := bytesOf_ne_rendered "old" rendered (by decide)
  refine ⟨_, rendered,
    retriedDeploy_run sampleDeployer rendered other,
    deploy_converges sampleDeployer ?_
      (retriedDeploy_harmless sampleDeployer rendered other)⟩
  rintro pid loaded ⟨⟨text, written, -⟩, -⟩
  cases written

end Xoxproxy
