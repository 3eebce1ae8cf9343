import Xoxproxy.Deploy.Operations
import Xoxproxy.Engine.Access
import Xoxproxy.Library.Sha256

/-!
# The engine deployer

`internal/engine/threeproxy/deploy.go`: render, back up, replace, signal,
verify and roll back, with every exit of the source.
-/

namespace Xoxproxy

open EffectPrograms

/-- What a deployment did. -/
structure DeployResult where
  changed : Bool := false
  reloaded : Bool := false
  rolledBack : Bool := false
  checksum : String := ""
  deriving DecidableEq, Repr

/-- The engine's pid file is missing or stale. -/
def errEngineNotRunning : GoError :=
  ⟨"engine process not running", [.engineNotRunning]⟩

section Deploying

variable [Build]

/-- A deployer and the settings it has validated.  Tests shrink the
window and the tick of the health check. -/
structure Deployer where
  settings : Settings
  valid : settings.validate = none
  verifyWindow : Nat
  verifyTick : Nat
  tickPositive : 0 < verifyTick

/-- `NewDeployer`. -/
def newDeployer (settings : Settings) : Except GoError Deployer :=
  match valid : settings.validate with
  | some error => .error (.wrap "threeproxy: " error "")
  | none => .ok {
      settings := settings
      valid := valid
      verifyWindow := 3 * 10 ^ 9
      verifyTick := 200 * 10 ^ 6
      tickPositive := by decide }

/-- The deployer for the sample settings. -/
def sampleDeployer : Deployer where
  settings := sampleSettings
  valid := sampleSettings_valid
  verifyWindow := 3 * 10 ^ 9
  verifyTick := 200 * 10 ^ 6
  tickPositive := by decide

/-- How many times the health check can sleep before its deadline has
passed for certain. -/
def Deployer.sleeps (deployer : Deployer) : Nat :=
  deployer.verifyWindow / deployer.verifyTick + 1

/-- The deadline lies within that many sleeps. -/
theorem Deployer.window_lt_sleeps (deployer : Deployer) :
    deployer.verifyWindow < deployer.sleeps * deployer.verifyTick := by
  unfold sleeps
  exact Nat.lt_mul_of_div_lt (Nat.lt_succ_self _) deployer.tickPositive

/-- The checksum of a rendered configuration. -/
def checksum (rendered : String) : String :=
  Sha256.hexEncode (Sha256.sum256 (bytesOf rendered))

/-- `enginePID`. -/
def enginePID : DeployProgram (Except GoError Int) := do
  match ← ask .readPidFile with
  | .error error =>
      pure (.error (.wrap "" errEngineNotRunning
        (": read pid file: " ++ error.text)))
  | .ok data =>
      match atoi (trimSpace data) with
      | some pid =>
          if pid < 2 then
            pure (.error (.wrap "" errEngineNotRunning
              (": pid file contents " ++ quote data)))
          else if ← ask (.procAlive pid) then pure (.ok pid)
          else
            pure (.error (.wrap "" errEngineNotRunning
              (": stale pid " ++ toString pid)))
      | none =>
          pure (.error (.wrap "" errEngineNotRunning
            (": pid file contents " ++ quote data)))

/-- `reload`. -/
def reload (pid : Int) : DeployProgram (Option GoError) := do
  match ← ask (.pidIsEngine pid) with
  | some error =>
      pure (some (.wrap "" errEngineNotRunning
        (": pid " ++ toString pid ++ ": " ++ error.text)))
  | none => ask (.signalReload pid)

/-- `verifyAfterReload`, with the number of sleeps that are left before
the deadline. -/
def verifyAfterReload (pid : Int) (remaining : Nat) :
    DeployProgram (Option GoError) := do
  match ← ask .contextError with
  | some error => pure (some error)
  | none =>
      if ← ask (.procAlive pid) then
        match remaining with
        | 0 => pure none
        | remaining + 1 =>
            if ← ask .deadlinePassed then pure none
            else verifyAfterReload pid remaining
      else
        pure (some (.plain ("engine process " ++ toString pid ++
          " exited after reload")))

/-- The end of `Deploy` after a failed health check. -/
def rollBack (current : Option Bytes) (sum : String) (error : GoError) :
    DeployProgram (DeployResult × Option GoError) :=
  let result : DeployResult :=
    { changed := true, rolledBack := true, checksum := sum }
  let restored := GoError.wrap
    "threeproxy: engine unhealthy after reload, previous config restored: "
    error ""
  match current with
  | some data => do
      match ← ask (.writeAtomic .config data) with
      | some problem =>
          pure (result, some (.wrap "threeproxy: verify: " error
            (" (rollback failed: " ++ problem.text ++ ")")))
      | none => pure (result, some restored)
  | none => do
      match ← ask .removeConfigFile with
      | some problem =>
          if problem.is .osNotExist then pure (result, some restored)
          else
            pure (result, some (.wrap "threeproxy: verify: " error
              (" (cleanup failed: " ++ problem.text ++ ")")))
      | none => pure (result, some restored)

/-- `Deploy` from the point where the new configuration is on disk. -/
def applyConfig
    (deployer : Deployer) (current : Option Bytes) (sum : String) :
    DeployProgram (DeployResult × Option GoError) := do
  match ← enginePID with
  | .error _ => pure ({ changed := true, checksum := sum }, none)
  | .ok pid =>
      match ← reload pid with
      | some error =>
          if error.is .engineNotRunning then
            pure ({ changed := true, checksum := sum }, none)
          else
            pure ({ changed := true, checksum := sum },
              some (.wrap "threeproxy: reload: " error ""))
      | none =>
          match ← verifyAfterReload pid deployer.sleeps with
          | some error => rollBack current sum error
          | none =>
              pure ({ changed := true, reloaded := true, checksum := sum },
                none)

/-- Keep the last-known-good configuration, if there is one. -/
def backUp : Option Bytes → DeployProgram (Option GoError)
  | none => pure none
  | some data => ask (.writeAtomic .previous data)

/-- `Deploy` from the point where the backup is taken. -/
def writeConfig
    (deployer : Deployer) (rendered : String) (current : Option Bytes) :
    DeployProgram (DeployResult × Option GoError) := do
  match ← ask (.writeAtomic .config (bytesOf rendered)) with
  | some error =>
      pure ({}, some (.wrap "threeproxy: install config: " error ""))
  | none => applyConfig deployer current (checksum rendered)

/-- `Deploy` from the point where the rendered text is known to differ
from the file. -/
def installConfig
    (deployer : Deployer) (rendered : String) (current : Option Bytes) :
    DeployProgram (DeployResult × Option GoError) := do
  match ← ask .makeConfigDir with
  | some error =>
      pure ({}, some (.wrap "threeproxy: create config dir: " error ""))
  | none =>
      match ← backUp current with
      | some error =>
          pure ({},
            some (.wrap "threeproxy: back up current config: " error ""))
      | none => writeConfig deployer rendered current

/-- `Deploy`. -/
def deploy (deployer : Deployer) (state : State) :
    DeployProgram (DeployResult × Option GoError) :=
  match render state deployer.settings with
  | .error error => pure ({}, some error)
  | .ok rendered => do
      match ← ask .readConfigFile with
      | .ok current =>
          if current = bytesOf rendered then
            pure ({ checksum := checksum rendered }, none)
          else installConfig deployer rendered (some current)
      | .error error =>
          if error.is .osNotExist then
            installConfig deployer rendered none
          else
            pure ({},
              some (.wrap "threeproxy: read current config: " error ""))

end Deploying

end Xoxproxy
