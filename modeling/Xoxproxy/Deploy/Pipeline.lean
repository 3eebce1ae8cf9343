import Xoxproxy.Engine.Deployer

/-!
# The deploy pipeline

`DeployNow` of `internal/deploy/pipeline.go`: derive the state under the
process-wide lock, deploy it, and record the outcome.
-/

namespace Xoxproxy

open EffectPrograms

/-- `auditRecord`; the audit service logs its own failures. -/
def auditDeploy
    (actor reason : String) (deployment : DeploymentStatus)
    (revision : Int) (detail : String) : DeployProgram Unit := do
  let result :=
    if deployment = .failed ∨ deployment = .rolledBack then "failure"
    else "success"
  let detail :=
    if revision > 0 then
      "revision " ++ toString revision ++ ", " ++ detail
    else detail
  let _ ← ask (.recordAudit {
    actor := actor
    action := "config.deploy"
    target := reason
    result := result
    detail := detail })
  pure ()

/-- `recordRow`. -/
def recordRow
    (version : ConfigurationVersion) (detail : String) :
    DeployProgram Unit := do
  match ← ask (.recordVersion version) with
  | .ok revision =>
      auditDeploy version.generatedBy version.reason
        version.deploymentStatus revision detail
  | .error _ =>
      auditDeploy version.generatedBy version.reason
        version.deploymentStatus 0 detail

/-- `record`: the failures before the engine is touched. -/
def recordFailure
    (actor reason : String) (validation : ValidationStatus) (now : Time) :
    DeployProgram Unit :=
  recordRow {
    generatedAt := now
    generatedBy := actor
    reason := reason
    validationStatus := validation
    deploymentStatus := .failed
    checksum := "" } DeploymentStatus.failed.text

/-- The status that `DeployNow` derives from what `Deploy` returned. -/
def deploymentStatus
    (result : DeployResult) (error : Option GoError) :
    DeploymentStatus :=
  if error.isSome ∧ result.rolledBack then .rolledBack
  else if error.isSome then .failed
  else if ¬ result.changed then .unchanged
  else .deployed

/-- The text that `recordOutcome` adds to the audit trail. -/
def outcomeDetail (status : DeploymentStatus) (result : DeployResult) :
    String :=
  status.text ++ ", checksum " ++ result.checksum ++
    (if status = .deployed ∧ ¬ result.reloaded then
      ", engine not running (applies on next start)" else "") ++
    (if result.rolledBack then ", previous config restored" else "")

/-- `recordOutcome`. -/
def recordOutcome
    (actor reason : String) (status : DeploymentStatus)
    (result : DeployResult) (now : Time) : DeployProgram Unit :=
  recordRow {
    generatedAt := now
    generatedBy := actor
    reason := reason
    validationStatus := .valid
    deploymentStatus := status
    checksum := result.checksum } (outcomeDetail status result)

section Pipeline

variable [Build]

/-- The part of `DeployNow` that follows a valid state. -/
def deployState
    (deployer : Deployer) (actor reason : String) (now : Time)
    (state : State) : DeployProgram (DeployResult × Option GoError) := do
  let (result, error) ← deploy deployer state
  recordOutcome actor reason (deploymentStatus result error) result now
  pure (result, error.map fun error => .wrap "deploy: " error "")

/-- The part of `DeployNow` that follows the derivation of a state. -/
def deployDerived (deployer : Deployer) (actor reason : String) (now : Time)
    (state : State) : DeployProgram (DeployResult × Option GoError) :=
  match state.validate with
  | some error => do
      recordFailure actor reason .invalid now
      pure ({}, some (.wrap "deploy: invalid state: " error ""))
  | none => deployState deployer actor reason now state

/-- `DeployNow` while it holds the lock. -/
def deployLocked (deployer : Deployer) (actor reason : String) :
    DeployProgram (DeployResult × Option GoError) := do
  let now ← ask .now
  match ← ask (.stateSource now) with
  | .error error => do
      recordFailure actor reason .error now
      pure ({}, some (.wrap "deploy: derive state: " error ""))
  | .ok state => deployDerived deployer actor reason now state

/-- `DeployNow`. -/
def deployNow (deployer : Deployer) (actor reason : String) :
    DeployProgram (DeployResult × Option GoError) := do
  ask .lockDeploy
  let outcome ← deployLocked deployer actor reason
  ask .unlockDeploy
  pure outcome

end Pipeline

end Xoxproxy
