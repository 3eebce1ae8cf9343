import Xoxproxy.Deploy.Triggers

/-!
# No trigger is lost

A change whose trigger was sent is owed a deployment: until the state
source is called after it, there is a token in the channel or in the
hands of a worker on its way to the state source.
-/

namespace Xoxproxy

open EffectPrograms

namespace TriggerHost

variable {host after : TriggerHost} {call other : PipelineCall}
variable {op : TriggerOp} {choice : TriggerChoice} {answer : op.Answer}

/-- A deployment that is on its way: a token, or a goroutine that has
received one and not yet called the state source. -/
def Coming (host : TriggerHost) : Prop :=
  host.wake = true ∨ ∃ call, (host.progress call).armed = true

/-- Every change that was triggered is seen or about to be seen. -/
structure Sound (host : TriggerHost) : Prop where
  bounded : ∀ call number,
    (host.progress call).committed = some number → number ≤ host.commits
  owed : ∀ call number,
    (host.progress call).committed = some number →
      (host.progress call).triggered = true →
        number ≤ host.derived ∨ host.Coming
  workers : ∀ call, (host.progress call).armed = true → call.isWorker

theorem sound_initial : Sound {} where
  bounded := fun _ _ none => (by cases none)
  owed := fun _ _ none => (by cases none)
  workers := fun _ unarmed => (by cases unarmed)

@[simp]
theorem note_progress_self
    (host : TriggerHost) (call : PipelineCall)
    (change : TriggerProgress → TriggerProgress) :
    (host.note call change).progress call =
      change (host.progress call) := if_pos rfl

theorem note_progress_other
    (host : TriggerHost) {call : PipelineCall}
    (change : TriggerProgress → TriggerProgress)
    (different : other ≠ call) :
    (host.note call change).progress other = host.progress other :=
  if_neg different

/-- What a change keeps is the same for every goroutine. -/
theorem note_kept {Field : Type} (field : TriggerProgress → Field)
    (host : TriggerHost) (call asked : PipelineCall)
    {change : TriggerProgress → TriggerProgress}
    (kept : ∀ progress, field (change progress) = field progress) :
    field ((host.note call change).progress asked) =
      field (host.progress asked) := by
  by_cases same : asked = call
  · rw [same, note_progress_self, kept]
  · rw [note_progress_other _ _ same]

/-- The operations that are neither a change nor a use of the channel nor
a call of the state source. -/
def Minor : TriggerOp → Prop
  | .commit | .offerWake | .awaitWake | .deploy (.stateSource _) => False
  | _ => True

/-- Minor operations leave alone what deployments are owed. -/
structure Unmoved (host after : TriggerHost) : Prop where
  commits : after.commits = host.commits
  derived : after.derived = host.derived
  wake : after.wake = host.wake
  progress : after.progress = host.progress

theorem unmoved_of_minor (minor : Minor op)
    (handled : host.handle call op choice = some (answer, after)) :
    Unmoved host after := by
  cases op with
  | commit => exact minor.elim
  | offerWake => exact minor.elim
  | awaitWake => exact minor.elim
  | lockReason =>
      rw [handle] at handled
      by_cases held : host.reasonHeld = true
      · rw [if_pos held] at handled
        cases handled
      · rw [if_neg held] at handled
        obtain ⟨-, rfl⟩ := Prod.mk.inj (Option.some.inj handled)
        exact ⟨rfl, rfl, rfl, rfl⟩
  | unlockReason =>
      obtain ⟨-, rfl⟩ := Prod.mk.inj (Option.some.inj handled)
      exact ⟨rfl, rfl, rfl, rfl⟩
  | loadNext =>
      obtain ⟨-, rfl⟩ := Prod.mk.inj (Option.some.inj handled)
      exact ⟨rfl, rfl, rfl, rfl⟩
  | storeNext actor reason =>
      obtain ⟨-, rfl⟩ := Prod.mk.inj (Option.some.inj handled)
      exact ⟨rfl, rfl, rfl, rfl⟩
  | deploy op =>
      cases op with
      | stateSource now => exact minor.elim
      | lockDeploy =>
          rw [handle] at handled
          by_cases held : host.deployHeld = true
          · rw [if_pos held] at handled
            cases handled
          · rw [if_neg held] at handled
            obtain ⟨-, rfl⟩ := Prod.mk.inj (Option.some.inj handled)
            exact ⟨rfl, rfl, rfl, rfl⟩
      | _ =>
          obtain ⟨-, rfl⟩ := Prod.mk.inj (Option.some.inj handled)
          exact ⟨rfl, rfl, rfl, rfl⟩

/-- What an operation can do to what deployments are owed. -/
inductive Effect (host : TriggerHost) (call : PipelineCall) :
    TriggerOp → TriggerHost → Prop where
  | none (op : TriggerOp) (after : TriggerHost)
      (unmoved : Unmoved host after) : Effect host call op after
  | commit :
      Effect host call .commit
        ({ host with commits := host.commits + 1 }.note call
          fun progress =>
            { progress with
              committed := some (host.commits + 1), triggered := false })
  | offer :
      Effect host call .offerWake
        ({ host with wake := true }.note call fun progress =>
          { progress with triggered := true })
  | receive :
      Effect host call .awaitWake
        ({ host with wake := false }.note call fun progress =>
          { progress with armed := true })
  | derive (now : Time) :
      Effect host call (.deploy (.stateSource now))
        ({ host with derived := host.commits }.note call fun progress =>
          { progress with armed := false })

theorem effect_of_handle
    (handled : host.handle call op choice = some (answer, after)) :
    Effect host call op after := by
  by_cases minor : Minor op
  · exact .none op after (unmoved_of_minor minor handled)
  cases op with
  | commit =>
      rw [handle] at handled
      cases error : choice.error with
      | some problem =>
          rw [error] at handled
          obtain ⟨-, rfl⟩ := Prod.mk.inj (Option.some.inj handled)
          exact .none _ _ ⟨rfl, rfl, rfl, rfl⟩
      | none =>
          rw [error] at handled
          obtain ⟨-, rfl⟩ := Prod.mk.inj (Option.some.inj handled)
          exact .commit
  | offerWake =>
      obtain ⟨-, rfl⟩ := Prod.mk.inj (Option.some.inj handled)
      exact .offer
  | awaitWake =>
      rw [handle] at handled
      by_cases done : choice.done = true
      · rw [if_pos done] at handled
        obtain ⟨-, rfl⟩ := Prod.mk.inj (Option.some.inj handled)
        exact .none _ _ ⟨rfl, rfl, rfl, rfl⟩
      · rw [if_neg done] at handled
        by_cases wake : host.wake = true
        · rw [if_pos wake] at handled
          obtain ⟨-, rfl⟩ := Prod.mk.inj (Option.some.inj handled)
          exact .receive
        · rw [if_neg wake] at handled
          cases handled
  | deploy op =>
      cases op with
      | stateSource now =>
          obtain ⟨-, rfl⟩ := Prod.mk.inj (Option.some.inj handled)
          exact .derive now
      | _ => exact absurd trivial minor
  | _ => exact absurd trivial minor

/-- An operation concerns the progress of its own goroutine only. -/
theorem Effect.frame (effect : Effect host call op after)
    (different : other ≠ call) :
    after.progress other = host.progress other := by
  cases effect with
  | none op after unmoved => rw [unmoved.progress]
  | commit | offer | receive | derive =>
      exact note_progress_other _ _ different

/-- Only a commit gives a goroutine a change of its own. -/
theorem Effect.committed (effect : Effect host call op after)
    (other : op ≠ .commit) :
    (after.progress call).committed = (host.progress call).committed := by
  cases effect with
  | none op after unmoved => rw [unmoved.progress]
  | commit => exact absurd rfl other
  | offer | receive | derive => simp

/-- What deployments are owed is owed after every operation, if only
workers wait at the channel. -/
theorem Effect.sound (sound : Sound host)
    (effect : Effect host call op after)
    (worker : op = .awaitWake → call.isWorker) : Sound after := by
  cases effect with
  | none op after unmoved =>
      refine ⟨?_, ?_, ?_⟩
      · rw [unmoved.progress, unmoved.commits]
        exact sound.bounded
      · rw [Coming, unmoved.progress, unmoved.derived, unmoved.wake]
        exact sound.owed
      · rw [unmoved.progress]
        exact sound.workers
  | commit =>
      refine ⟨?_, ?_, ?_⟩
      · intro asked number committed
        by_cases same : asked = call
        · rw [same, note_progress_self] at committed
          exact Nat.le_of_eq (Option.some.inj committed).symm
        · rw [note_progress_other _ _ same] at committed
          exact Nat.le_succ_of_le (sound.bounded asked number committed)
      · intro asked number committed triggered
        by_cases same : asked = call
        · rw [same, note_progress_self] at triggered
          cases triggered
        · rw [note_progress_other _ _ same] at committed triggered
          rcases sound.owed asked number committed triggered with
            seen | token | ⟨holder, armed⟩
          · exact Or.inl seen
          · exact Or.inr (Or.inl token)
          · refine Or.inr (Or.inr ⟨holder, ?_⟩)
            rw [note_kept TriggerProgress.armed]
            · exact armed
            · exact fun _ => rfl
      · intro asked armed
        rw [note_kept TriggerProgress.armed] at armed
        · exact sound.workers asked armed
        · exact fun _ => rfl
  | offer =>
      refine ⟨?_, fun _ _ _ _ => Or.inr (Or.inl rfl), ?_⟩
      · intro asked number committed
        rw [note_kept TriggerProgress.committed] at committed
        · exact sound.bounded asked number committed
        · exact fun _ => rfl
      · intro asked armed
        rw [note_kept TriggerProgress.armed] at armed
        · exact sound.workers asked armed
        · exact fun _ => rfl
  | receive =>
      refine ⟨?_, ?_, ?_⟩
      · intro asked number committed
        rw [note_kept TriggerProgress.committed] at committed
        · exact sound.bounded asked number committed
        · exact fun _ => rfl
      · intro asked number _ _
        refine Or.inr (Or.inr ⟨call, ?_⟩)
        rw [note_progress_self]
      · intro asked armed
        by_cases same : asked = call
        · rw [same]
          exact worker rfl
        · rw [note_progress_other _ _ same] at armed
          exact sound.workers asked armed
  | derive now =>
      have kept : ∀ asked number,
          (({ host with derived := host.commits }.note call
            fun progress => { progress with armed := false }).progress
              asked).committed = some number → number ≤ host.commits := by
        intro asked number committed
        rw [note_kept TriggerProgress.committed] at committed
        · exact sound.bounded asked number committed
        · exact fun _ => rfl
      refine ⟨kept, ?_, ?_⟩
      · intro asked number committed _
        exact Or.inl (kept asked number committed)
      · intro asked armed
        by_cases same : asked = call
        · rw [same, note_progress_self] at armed
          cases armed
        · rw [note_progress_other _ _ same] at armed
          exact sound.workers asked armed

end TriggerHost

/-- A deployment performs its own operations only. -/
theorem all_ofDeploy {Value : Type} {property : TriggerOp → Prop}
    (deploys : ∀ op, property (.deploy op))
    (program : DeployProgram Value) : (ofDeploy program).All property := by
  induction program with
  | ret value => exact trivial
  | call op next inductionHypothesis =>
      exact ⟨deploys op, fun answer => inductionHypothesis answer⟩

theorem all_proposeReason {property : TriggerOp → Prop}
    (locks : property .lockReason ∧ property .unlockReason)
    (loads : property .loadNext)
    (stores : ∀ actor reason, property (.storeNext actor reason))
    (actor reason : String) :
    (proposeReason actor reason).All property := by
  apply Program.all_bind (Program.all_perform locks.1)
  intro _
  apply Program.all_bind (Program.all_perform loads)
  intro next
  split
  · apply Program.all_bind (Program.all_perform (stores actor reason))
    intro _
    exact Program.all_perform locks.2
  · exact Program.all_perform locks.2

/-! ## The discipline -/

section Discipline

variable [Build] (deployer : Deployer)

/-- Goroutines leave the progress of the others alone; one that has
returned has triggered what it committed. -/
def triggerDiscipline :
    Discipline TriggerOp TriggerOp.Answer Unit PipelineCall TriggerHost
      TriggerChoice where
  invariant := TriggerHost.Sound
  rely := fun call before now => now.progress call = before.progress call
  rely_refl := fun _ _ => rfl
  rely_trans := fun first second => second.trans first
  fresh := fun call host => host.progress call = {}
  fresh_rely := fun fresh same => same.trans fresh
  guarantee := fun call before after =>
    ∀ other, other ≠ call → after.progress other = before.progress other
  condition := fun _ _ _ _ _ => True
  promise := fun _ _ _ _ _ => True
  finished := fun call _ _ host => ∀ number,
    (host.progress call).committed = some number →
      (host.progress call).triggered = true

variable {deployer} {call : PipelineCall} {host : TriggerHost}
variable {past : List (Event TriggerOp TriggerOp.Answer)}

/-- A program that commits no change keeps the one its goroutine has. -/
theorem ensures_committed {Value : Type}
    {program : TriggerProgram Value} {committed : Option Nat}
    {post : List (Event TriggerOp TriggerOp.Answer) → Value →
      TriggerHost → Prop}
    (all : program.All fun op =>
      op ≠ .commit ∧ (op = .awaitWake → call.isWorker))
    (holds : (host.progress call).committed = committed)
    (finish : ∀ past value now,
      (now.progress call).committed = committed → post past value now) :
    Ensures (triggerMachine deployer) triggerDiscipline call post program
      past host := by
  refine ensures_all
    (fun _ now => (now.progress call).committed = committed)
    ?_ ?_ all holds fun past value now same _ => finish past value now same
  · intro _ before now same unchanged
    rw [unchanged]
    exact same
  · intro op allowed _ now choice answer after same sound _ handled
    have effect := TriggerHost.effect_of_handle handled
    exact ⟨trivial, fun _ different => effect.frame different,
      effect.sound sound allowed.2, (effect.committed allowed.1).trans same⟩

theorem all_runTriggered {property : TriggerOp → Prop}
    (locks : property .lockReason ∧ property .unlockReason)
    (loads : property .loadNext)
    (stores : ∀ actor reason, property (.storeNext actor reason))
    (deploys : ∀ op, property (.deploy op)) :
    (runTriggered deployer).All property := by
  apply Program.all_bind (Program.all_perform locks.1)
  intro _
  apply Program.all_bind (Program.all_perform loads)
  intro next
  apply Program.all_bind (Program.all_perform (stores "" ""))
  intro _
  apply Program.all_bind (Program.all_perform locks.2)
  intro _
  apply Program.all_bind (all_ofDeploy deploys _)
  intro _
  exact trivial

/-- A worker performs no commit. -/
theorem all_start {property : TriggerOp → Prop}
    (round : (runTriggered deployer).All property)
    (waits : property .awaitWake) (rounds : Nat) :
    (start deployer rounds).All property := by
  induction rounds with
  | zero => exact trivial
  | succ rounds inductionHypothesis =>
      apply Program.all_bind (Program.all_perform waits)
      intro token
      cases token with
      | false => exact trivial
      | true =>
          apply Program.all_bind round
          intro _
          exact inductionHypothesis

theorem ensures_proposeReason (actor reason : String) :
    Ensures (triggerMachine deployer) triggerDiscipline call
      (fun _ _ _ => True) (proposeReason actor reason) past host :=
  ensures_committed (by apply all_proposeReason <;> simp) rfl
    fun _ _ _ _ => trivial

/-- A call of `Trigger` that returns has sent its trigger. -/
theorem secure_trigger (actor reason : String) (sound : host.Sound) :
    Secure (triggerMachine deployer) triggerDiscipline call
      (trigger actor reason) past host := by
  refine ensures_bind sound (ensures_proposeReason actor reason) ?_
  intro later _ _ _ _
  refine ensures_call (fun _ => True) (fun _ _ _ _ => trivial) trivial ?_
  intro now choice answer sent _ sound _ handled
  change now.handle call .offerWake choice = some (answer, sent) at handled
  have effect := TriggerHost.effect_of_handle handled
  refine ⟨trivial, fun _ different => effect.frame different,
    effect.sound sound (fun wrong => by cases wrong), ?_⟩
  obtain ⟨-, rfl⟩ := Prod.mk.inj (Option.some.inj handled)
  refine ensures_ret (fun now => (now.progress call).triggered = true)
    ?_ ?_ (fun _ triggered _ _ _ => triggered)
  · intro _ _ triggered unchanged
    rw [unchanged]
    exact triggered
  · rw [TriggerHost.note_progress_self]

/-- A mutator that returns has triggered what it committed. -/
theorem secure_mutate (actor reason : String)
    (fresh : host.progress call = {}) :
    Secure (triggerMachine deployer) triggerDiscipline call
      (mutate actor reason) past host := by
  refine ensures_call (fun now => now.progress call = {})
    (fun _ _ own unchanged => unchanged.trans own) fresh ?_
  intro now choice answer after own sound _ handled
  change now.handle call .commit choice = some (answer, after) at handled
  have effect := TriggerHost.effect_of_handle handled
  have kept := effect.sound sound (fun wrong => by cases wrong)
  refine ⟨trivial, fun _ different => effect.frame different, kept, ?_⟩
  rw [TriggerHost.handle] at handled
  cases error : choice.error with
  | some problem =>
      rw [error] at handled
      obtain ⟨rfl, rfl⟩ := Prod.mk.inj (Option.some.inj handled)
      refine ensures_ret (fun later => later.progress call = {})
        (fun _ _ same unchanged => unchanged.trans same) own ?_
      intro later same _ number committed
      rw [same] at committed
      cases committed
  | none =>
      rw [error] at handled
      obtain ⟨rfl, rfl⟩ := Prod.mk.inj (Option.some.inj handled)
      exact secure_trigger actor reason kept

/-- A goroutine that commits no change has nothing to trigger. -/
theorem secure_uncommitted {program : TriggerProgram Unit}
    (all : program.All fun op =>
      op ≠ .commit ∧ (op = .awaitWake → call.isWorker))
    (fresh : host.progress call = {}) :
    Secure (triggerMachine deployer) triggerDiscipline call program past
      host := by
  apply ensures_committed all (congrArg TriggerProgress.committed fresh)
  intro _ _ now uncommitted number committed
  rw [uncommitted] at committed
  cases committed

theorem triggerObligations :
    Obligations (triggerMachine deployer) triggerDiscipline where
  start := by
    intro call host _ fresh
    change Secure _ _ call (call.program deployer) [] host
    rw [PipelineCall.program]
    cases request : call.request with
    | mutator actor reason => exact secure_mutate actor reason fresh
    | worker rounds =>
        apply secure_uncommitted ?_ fresh
        apply all_start
        · apply all_runTriggered <;> simp
        · exact ⟨(fun wrong => by cases wrong), fun _ => ⟨rounds, request⟩⟩
    | direct actor reason =>
        apply secure_uncommitted ?_ fresh
        apply Program.all_bind (all_ofDeploy (by simp) _)
        intro _
        exact trivial
  compatible := fun _ _ _ _ different guaranteed =>
    guaranteed _ different
  outside := fun event => by cases event

end Discipline

section Runs

variable [Build] (deployer : Deployer) (moves : List TriggerMove)

theorem triggerRun_secure :
    PoolSecure (triggerMachine deployer) triggerDiscipline
      (triggerRun deployer moves) := by
  apply PoolSecure.run triggerObligations
  · exact poolSecure_idle TriggerHost.sound_initial fun _ => rfl
  · have labelled : ∀ number request,
        (PipelineCall.mk number request).number = number := fun _ _ => rfl
    apply meets_of_unconditional fun _ _ _ _ _ => trivial
    exact Machine.meets_numbered labelled _ (by simp)

theorem triggerRun_present :
    (triggerRun deployer moves).threads.map Thread.label =
      (triggerRun deployer moves).started := by
  apply Machine.labels_eq_started ?_ rfl
  rintro _ member index rfl
  obtain ⟨move, -, cut⟩ :=
    List.mem_map.mp (Machine.cut_mem_of_numbered member)
  cases move with
  | go request => cases cut
  | advance other choice => cases cut

end Runs

/-- The state source has been called after a change, or a token is in the
channel, or a worker has received one and not yet called the state
source. -/
def SeenOrComing (pool : TriggerPool) (number : Nat) : Prop :=
  number ≤ pool.world.derived ∨ pool.world.wake = true ∨
    ∃ worker ∈ pool.threads, worker.label.isWorker ∧
      (pool.world.progress worker.label).armed = true

/-- No mutation's redeploy is lost: in every state, a change whose trigger
has returned is seen by a deployment or about to be seen. -/
theorem no_trigger_lost [Build]
    (deployer : Deployer) (moves : List TriggerMove) :
    ∀ thread ∈ (triggerRun deployer moves).threads,
      thread.returned = true →
        ∀ number,
          ((triggerRun deployer moves).world.progress
            thread.label).committed = some number →
              SeenOrComing (triggerRun deployer moves) number := by
  intro thread member returned number committed
  have secure := triggerRun_secure deployer moves
  have present := triggerRun_present deployer moves
  generalize triggerRun deployer moves = pool at *
  have triggered : (pool.world.progress thread.label).triggered = true := by
    obtain ⟨label, past, rest⟩ := thread
    cases rest with
    | call op next => cases returned
    | ret value => exact secure.finished member number committed
  rcases secure.invariant.owed thread.label number committed triggered with
    seen | token | ⟨call, armed⟩
  · exact Or.inl seen
  · exact Or.inr (Or.inl token)
  · refine Or.inr (Or.inr ?_)
    have started : call ∈ pool.started := by
      by_contra unknown
      have fresh := secure.fresh call unknown
      change pool.world.progress call = {} at fresh
      rw [fresh] at armed
      cases armed
    rw [← present] at started
    obtain ⟨worker, listed, rfl⟩ := List.mem_map.mp started
    exact ⟨worker, listed, secure.invariant.workers _ armed, armed⟩

/-- Everything succeeds; a mutator needs its own operations only. -/
def sampleTriggerChoice : TriggerChoice where
  error := none
  done := false
  answer
    | .readConfigFile => .error Files.notExist
    | .makeConfigDir => none
    | .writeAtomic _ _ => none
    | .removeConfigFile => none
    | .readPidFile => .error Files.notExist
    | .procAlive _ => false
    | .pidIsEngine _ => none
    | .signalReload _ => none
    | .contextError => none
    | .deadlinePassed => true
    | .lockDeploy => ()
    | .unlockDeploy => ()
    | .now => 0
    | .stateSource _ => .error errNotFound
    | .recordVersion _ => .ok 1
    | .recordAudit _ => none

/-- A change is committed and triggered, and a worker derives the state;
behind that another change is committed and triggered, and the worker
receives its token. -/
def sampleTrigger : List TriggerMove :=
  (.go (.mutator "admin" "user.create:alice") ::
    List.replicate 6 (.advance 0 sampleTriggerChoice) : List TriggerMove) ++
  (.go (.worker 2) ::
    List.replicate 8 (.advance 1 sampleTriggerChoice) : List TriggerMove) ++
  (.go (.mutator "admin" "user.create:bob") ::
    List.replicate 6 (.advance 2 sampleTriggerChoice) : List TriggerMove) ++
  (List.replicate 5 (.advance 1 sampleTriggerChoice) : List TriggerMove)

/-- The pool in which both mutators have returned. -/
def triggeredPool : TriggerPool :=
  @triggerRun Build.dev (@sampleDeployer Build.dev) sampleTrigger

/-- The second change is not seen yet, its token has left the channel, and
the worker is on its way. -/
theorem no_trigger_lost_sample :
    triggeredPool.world.derived = 1 ∧ triggeredPool.world.wake = false ∧
      ∃ thread ∈ triggeredPool.threads, thread.returned = true ∧
        (triggeredPool.world.progress thread.label).committed = some 2 ∧
        ∃ worker ∈ triggeredPool.threads, worker.label.isWorker ∧
          (triggeredPool.world.progress worker.label).armed = true := by
  have derived : triggeredPool.world.derived = 1 := by decide +kernel
  have wake : triggeredPool.world.wake = false := by decide +kernel
  have shape : triggeredPool.threads.map (fun thread =>
      (thread.label, thread.returned)) =
        [(⟨0, .mutator "admin" "user.create:alice"⟩, true),
          (⟨1, .worker 2⟩, false),
          (⟨2, .mutator "admin" "user.create:bob"⟩, true)] := by
    decide +kernel
  have committed : (triggeredPool.world.progress
      ⟨2, .mutator "admin" "user.create:bob"⟩).committed = some 2 := by
    decide +kernel
  have listed : ((⟨2, .mutator "admin" "user.create:bob"⟩, true) :
      PipelineCall × Bool) ∈ triggeredPool.threads.map fun thread =>
        (thread.label, thread.returned) := by
    rw [shape]
    simp
  obtain ⟨thread, member, same⟩ := List.mem_map.mp listed
  obtain ⟨label, returned⟩ := Prod.mk.inj same
  rw [← label] at committed
  have coming := @no_trigger_lost Build.dev (@sampleDeployer Build.dev)
    sampleTrigger thread member returned 2 committed
  refine ⟨derived, wake, thread, member, returned, committed, ?_⟩
  rcases coming with seen | token | worker
  · exact absurd (seen.trans_eq derived) (by decide)
  · exact absurd (token.symm.trans wake) (by decide)
  · exact worker

end Xoxproxy
