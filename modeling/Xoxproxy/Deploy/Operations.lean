import Xoxproxy.Engine.Config
import Xoxproxy.Library.EffectPrograms
import Xoxproxy.Store.Records

/-!
# What a deployment does to its surroundings

The files, processes, clock and tables that `Deployer.Deploy` and the
deploy pipeline touch, as operations with answers.  Errors that the
operating system reports are answers like any other.
-/

namespace Xoxproxy

open EffectPrograms

/-- A file that does not begin with the comment sign was not rendered. -/
theorem bytesOf_ne_rendered
    [Build] {text : String} {state : State} {settings : Settings}
    (old : String) (rendered : render state settings = .ok text)
    (head : old.toList.head? ≠ some '#') :
    bytesOf old ≠ bytesOf text := by
  intro same
  rw [bytesOf_injective same] at head
  exact head (head_of_render rendered)

/-- The files a deployment replaces: the engine configuration and its
last-known-good copy `<config>.prev`. -/
inductive DeployFile where
  | config
  | previous
  deriving DecidableEq, Repr

/-- Whether the derived state passed validation. -/
inductive ValidationStatus where
  | valid
  | invalid
  | error
  deriving DecidableEq, Repr

/-- How a deployment went. -/
inductive DeploymentStatus where
  | deployed
  | unchanged
  | failed
  | rolledBack
  deriving DecidableEq, Repr

def DeploymentStatus.text : DeploymentStatus → String
  | .deployed => "deployed"
  | .unchanged => "unchanged"
  | .failed => "failed"
  | .rolledBack => "rolled_back"

/-- `store.ConfigurationVersion`; the database assigns the revision. -/
structure ConfigurationVersion where
  generatedAt : Time
  generatedBy : String
  reason : String
  validationStatus : ValidationStatus
  deploymentStatus : DeploymentStatus
  checksum : String
  deriving DecidableEq, Repr

/-- The operations of a deployment. -/
inductive DeployOp where
  | readConfigFile
  | makeConfigDir
  | writeAtomic (file : DeployFile) (data : Bytes)
  | removeConfigFile
  | readPidFile
  | procAlive (pid : Int)
  | pidIsEngine (pid : Int)
  | signalReload (pid : Int)
  | contextError
  | deadlinePassed
  | lockDeploy
  | unlockDeploy
  | now
  | stateSource (now : Time)
  | recordVersion (version : ConfigurationVersion)
  | recordAudit (entry : AuditEntry)
  deriving DecidableEq

/-- The type of each operation's answer.  An answer of type
`Option GoError` is the error the source operation returns, if any. -/
@[reducible] def DeployOp.Answer : DeployOp → Type
  | .readConfigFile => Except GoError Bytes
  | .readPidFile => Except GoError String
  | .procAlive _ => Bool
  | .deadlinePassed => Bool
  | .lockDeploy => Unit
  | .unlockDeploy => Unit
  | .now => Time
  | .stateSource _ => Except GoError State
  | .recordVersion _ => Except GoError Int
  | _ => Option GoError

abbrev DeployProgram := Program DeployOp DeployOp.Answer

abbrev ask (op : DeployOp) : DeployProgram op.Answer :=
  Program.perform op

/-- The contents of the two files; `none` where there is no file. -/
structure Files where
  config : Option Bytes
  previous : Option Bytes
  deriving DecidableEq

namespace Files

/-- Replace one file. -/
def install (files : Files) (data : Bytes) : DeployFile → Files
  | .config => { files with config := some data }
  | .previous => { files with previous := some data }

@[simp]
theorem install_previous_config (files : Files) (data : Bytes) :
    (files.install data .previous).config = files.config := rfl

@[simp]
theorem install_config_config (files : Files) (data : Bytes) :
    (files.install data .config).config = some data := rfl

/-- What opening or removing a missing file reports. -/
def notExist : GoError := ⟨"no such file or directory", [.osNotExist]⟩

end Files

/-- An operating system error other than a missing file. -/
abbrev Fault := { error : GoError // error.is .osNotExist = false }

namespace Files

variable (fault : Option Fault) (files : Files)

/-- `os.ReadFile` on the configuration. -/
def read : Except GoError Bytes :=
  match fault, files.config with
  | some error, _ => .error error.val
  | none, some data => .ok data
  | none, none => .error notExist

/-- The error of an operation that has no other result. -/
def faultError : Option GoError := fault.map Subtype.val

@[simp]
theorem faultError_none : faultError none = none := rfl

/-- `writeAtomic`: a failed write leaves its target as it was. -/
def write (file : DeployFile) (data : Bytes) : Option GoError × Files :=
  match fault with
  | some error => (some error.val, files)
  | none => (none, files.install data file)

/-- `os.Remove` on the configuration. -/
def remove : Option GoError × Files :=
  match fault, files.config with
  | some error, _ => (some error.val, files)
  | none, some _ => (none, { files with config := none })
  | none, none => (some notExist, files)

/-- A read reports a missing file exactly when there is none. -/
theorem read_eq_error
    {error : GoError} (failed : files.read fault = .error error) :
    (∃ problem, fault = some problem ∧ error = problem.val) ∨
      fault = none ∧ files.config = none ∧ error = notExist := by
  cases fault with
  | some problem =>
      exact Or.inl ⟨problem, rfl, (Except.error.inj failed).symm⟩
  | none =>
      cases config : files.config with
      | some data => simp [read, config] at failed
      | none =>
          simp only [read, config, Except.error.injEq] at failed
          exact Or.inr ⟨rfl, rfl, failed.symm⟩

theorem read_eq_ok
    {data : Bytes} (succeeded : files.read fault = .ok data) :
    files.config = some data := by
  cases fault with
  | some problem => simp [read] at succeeded
  | none =>
      cases config : files.config with
      | some found =>
          simp only [read, config, Except.ok.injEq] at succeeded
          rw [succeeded]
      | none => simp [read, config] at succeeded

end Files

end Xoxproxy
