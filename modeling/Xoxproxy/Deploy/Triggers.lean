import Xoxproxy.Deploy.Pipeline

/-!
# Triggered deployments

`Trigger` and `Start` of `internal/deploy/pipeline.go`.  Any number of
mutators, workers and direct `DeployNow` calls share the one-slot wake
channel, the reason behind its lock, and the deploy lock.
-/

namespace Xoxproxy

open EffectPrograms

/-- The operations of the goroutines.  `offerWake` is the send that gives
up when the channel is full; `awaitWake` tells whether a token came or the
context was done. -/
inductive TriggerOp where
  | commit
  | lockReason
  | unlockReason
  | loadNext
  | storeNext (actor reason : String)
  | offerWake
  | awaitWake
  | deploy (op : DeployOp)
  deriving DecidableEq

@[reducible] def TriggerOp.Answer : TriggerOp → Type
  | .commit => Option GoError
  | .loadNext => String × String
  | .awaitWake => Bool
  | .deploy op => op.Answer
  | _ => Unit

abbrev TriggerProgram := Program TriggerOp TriggerOp.Answer

abbrev perform (op : TriggerOp) : TriggerProgram op.Answer :=
  Program.perform op

/-- A deployment among the other operations. -/
def ofDeploy {Value : Type} :
    DeployProgram Value → TriggerProgram Value
  | .ret value => .ret value
  | .call op next => .call (.deploy op) fun answer => ofDeploy (next answer)

/-- The first part of `Trigger`: the first reason of a batch wins. -/
def proposeReason (actor reason : String) : TriggerProgram Unit := do
  perform .lockReason
  let next ← perform .loadNext
  if next.2 = "" then perform (.storeNext actor reason)
  perform .unlockReason

/-- `Trigger`. -/
def trigger (actor reason : String) : TriggerProgram Unit := do
  proposeReason actor reason
  perform .offerWake

/-- A caller that changes the store and announces the change. -/
def mutate (actor reason : String) : TriggerProgram Unit := do
  match ← perform .commit with
  | some _ => pure ()
  | none => trigger actor reason

section Worker

variable [Build] (deployer : Deployer)

/-- A round of `Start` behind the receive. -/
def runTriggered : TriggerProgram Unit := do
  perform .lockReason
  let next ← perform .loadNext
  perform (.storeNext "" "")
  perform .unlockReason
  let (actor, reason) :=
    if next.2 = "" then ("system", "state-change") else next
  let _ ← ofDeploy (deployNow deployer actor reason)

/-- `Start`, for at most the given number of rounds. -/
def start : Nat → TriggerProgram Unit
  | 0 => pure ()
  | rounds + 1 => do
      if ← perform .awaitWake then
        runTriggered deployer
        start rounds

/-- What a goroutine is started for. -/
inductive PipelineRequest where
  | mutator (actor reason : String)
  | worker (rounds : Nat)
  | direct (actor reason : String)
  deriving DecidableEq

/-- A goroutine, told from the others by its number. -/
structure PipelineCall where
  number : Nat
  request : PipelineRequest
  deriving DecidableEq

def PipelineCall.isWorker (call : PipelineCall) : Prop :=
  ∃ rounds, call.request = .worker rounds

def PipelineCall.program (call : PipelineCall) : TriggerProgram Unit :=
  match call.request with
  | .mutator actor reason => mutate actor reason
  | .worker rounds => start deployer rounds
  | .direct actor reason => do
      let _ ← ofDeploy (deployNow deployer actor reason)

end Worker

/-- What a goroutine has done: the number of the change it committed,
whether its trigger is sent, and whether it has received a token and not
yet called the state source. -/
structure TriggerProgress where
  committed : Option Nat := none
  triggered : Bool := false
  armed : Bool := false
  deriving DecidableEq

/-- The changes committed so far, how many of them the last call of the
state source came after, the channel, and what is behind the locks. -/
structure TriggerHost where
  commits : Nat := 0
  derived : Nat := 0
  wake : Bool := false
  nextActor : String := ""
  nextReason : String := ""
  reasonHeld : Bool := false
  deployHeld : Bool := false
  progress : PipelineCall → TriggerProgress := fun _ => {}

/-- How an operation goes: whether the mutation or the context fails, and
what the operations of a deployment answer. -/
structure TriggerChoice where
  error : Option GoError
  done : Bool
  answer : (op : DeployOp) → op.Answer

namespace TriggerHost

variable (host : TriggerHost) (call : PipelineCall)

def note (change : TriggerProgress → TriggerProgress) : TriggerHost :=
  { host with
    progress := fun other =>
      if other = call then change (host.progress call)
      else host.progress other }

/-- The operations of a goroutine; one that would block is not
performed. -/
def handle :
    (op : TriggerOp) → TriggerChoice → Option (op.Answer × TriggerHost)
  | .commit, choice =>
      match choice.error with
      | some error => some (some error, host)
      | none =>
          some (none,
            { host with commits := host.commits + 1 }.note call fun progress =>
              { progress with
                committed := some (host.commits + 1), triggered := false })
  | .lockReason, _ =>
      if host.reasonHeld then none
      else some ((), { host with reasonHeld := true })
  | .unlockReason, _ => some ((), { host with reasonHeld := false })
  | .loadNext, _ => some ((host.nextActor, host.nextReason), host)
  | .storeNext actor reason, _ =>
      some ((), { host with nextActor := actor, nextReason := reason })
  | .offerWake, _ =>
      some ((), { host with wake := true }.note call fun progress =>
        { progress with triggered := true })
  | .awaitWake, choice =>
      if choice.done then some (false, host)
      else if host.wake then
        some (true, { host with wake := false }.note call fun progress =>
          { progress with armed := true })
      else none
  | .deploy .lockDeploy, _ =>
      if host.deployHeld then none
      else some ((), { host with deployHeld := true })
  | .deploy .unlockDeploy, _ =>
      some ((), { host with deployHeld := false })
  | .deploy (.stateSource now), choice =>
      some (choice.answer (.stateSource now),
        { host with derived := host.commits }.note call fun progress =>
          { progress with armed := false })
  | .deploy op, choice => some (choice.answer op, host)

end TriggerHost

section Machine

variable [Build] (deployer : Deployer)

def triggerMachine :
    Machine TriggerOp TriggerOp.Answer Unit PipelineCall TriggerHost
      TriggerChoice Empty where
  program := fun call => call.program deployer
  handle := fun call op choice host => host.handle call op choice
  react := fun event _ => by cases event

/-- A move of the scheduler; goroutines are not stopped from outside. -/
inductive TriggerMove where
  | go (request : PipelineRequest)
  | advance (index : Nat) (choice : TriggerChoice)

def TriggerMove.action :
    TriggerMove → Action PipelineRequest TriggerChoice Empty
  | .go request => .start request
  | .advance index choice => .advance index choice

abbrev TriggerPool :=
  Pool TriggerOp TriggerOp.Answer Unit PipelineCall TriggerHost

/-- The pool after the moves, from a process that has just started. -/
def triggerRun (moves : List TriggerMove) : TriggerPool :=
  Runs.run (triggerMachine deployer).step
    (Machine.numbered PipelineCall.mk 0 (moves.map TriggerMove.action))
    (.idle {})

end Machine

end Xoxproxy
