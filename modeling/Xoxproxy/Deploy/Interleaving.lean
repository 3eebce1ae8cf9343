import Xoxproxy.Deploy.Pipeline

/-!
# Deployments from several processes

Any number of `DeployNow` calls run interleaved with mutations of the
store.  The calls of one process exclude each other by its lock; the
calls of different processes share the store and the configuration file
and nothing else.
-/

namespace Xoxproxy

open EffectPrograms

/-- One call of `DeployNow`: its arguments, the process that issues it
and a number that tells it from all other calls. -/
structure DeployCall where
  process : Nat
  number : Nat
  actor : String
  reason : String
  deriving DecidableEq

/-- What a call has done so far: how many mutations were committed when
it took the lock and when it derived its state, whether it holds the
lock, has read the configuration file and has sent a reload signal, and
whether it has put an earlier configuration back. -/
structure CallProgress where
  started : Option Nat := none
  derived : Option Nat := none
  holding : Bool := false
  hasRead : Bool := false
  signalled : Bool := false
  rolledBack : Bool := false
  deriving DecidableEq

/-- What the processes share, the holders of their locks, and the
progress of all calls. -/
structure SharedHost (Store : Type) where
  store : Store
  commits : Nat
  files : Files
  holder : Nat → Option DeployCall
  progress : DeployCall → CallProgress

/-- The error that makes an operation fail, and what the operations
answer that only look at processes, clocks and the history. -/
structure CallChoice where
  fault : Option Fault
  flag : Bool
  pidText : String
  time : Time
  revision : Int

namespace SharedHost

variable {Store : Type}

/-- Change what is known of one call. -/
def note
    (host : SharedHost Store) (call : DeployCall)
    (change : CallProgress → CallProgress) : SharedHost Store :=
  { host with
    progress := fun other =>
      if other = call then change (host.progress call)
      else host.progress other }

section Note

variable
  (host : SharedHost Store) (call : DeployCall)
  (change : CallProgress → CallProgress)

@[simp]
theorem note_store : (host.note call change).store = host.store := rfl

@[simp]
theorem note_commits :
    (host.note call change).commits = host.commits := rfl

@[simp]
theorem note_files : (host.note call change).files = host.files := rfl

@[simp]
theorem note_progress_self :
    (host.note call change).progress call =
      change (host.progress call) := by
  simp [note]

theorem note_progress_other {other : DeployCall}
    (different : other ≠ call) :
    (host.note call change).progress other = host.progress other := by
  simp [note, different]

end Note

def setHolder
    (host : SharedHost Store) (process : Nat)
    (holder : Option DeployCall) : SharedHost Store :=
  { host with
    holder := fun other =>
      if other = process then holder else host.holder other }

/-- Replacing the configuration after the signal is a rollback. -/
def markRollBack (progress : CallProgress) : CallProgress :=
  { progress with rolledBack := progress.rolledBack || progress.signalled }

theorem markRollBack_of_unsignalled
    {progress : CallProgress} (unsignalled : progress.signalled = false) :
    markRollBack progress = progress := by
  cases progress
  simp_all [markRollBack]

/-- The operations of a call.  `derive` is the state that the source
derives from the store as long as no account expires. -/
def handle (derive : Store → State) (call : DeployCall) :
    (op : DeployOp) → CallChoice → SharedHost Store →
      Option (op.Answer × SharedHost Store)
  | .lockDeploy, _, host =>
      match host.holder call.process with
      | some _ => none
      | none =>
          some ((), (host.setHolder call.process (some call)).note call
            fun progress =>
              { progress with
                started := some host.commits, holding := true })
  | .unlockDeploy, _, host =>
      some ((), (host.setHolder call.process none).note call
        fun progress => { progress with holding := false })
  | .now, choice, host => some (choice.time, host)
  | .stateSource _, choice, host =>
      match choice.fault with
      | some error => some (.error error.val, host)
      | none =>
          some (.ok (derive host.store), host.note call fun progress =>
            { progress with derived := some host.commits })
  | .readConfigFile, choice, host =>
      some (host.files.read choice.fault, host.note call fun progress =>
        { progress with hasRead := true })
  | .makeConfigDir, choice, host =>
      some (Files.faultError choice.fault, host)
  | .writeAtomic .previous data, choice, host =>
      let written := host.files.write choice.fault .previous data
      some (written.1, { host with files := written.2 })
  | .writeAtomic .config data, choice, host =>
      match choice.fault with
      | some error => some (some error.val, host)
      | none =>
          some (none, { host with
            files := host.files.install data .config }.note call
              markRollBack)
  | .removeConfigFile, choice, host =>
      let removed := host.files.remove choice.fault
      some (removed.1,
        { host with files := removed.2 }.note call markRollBack)
  | .readPidFile, choice, host =>
      match choice.fault with
      | some error => some (.error error.val, host)
      | none => some (.ok choice.pidText, host)
  | .procAlive _, choice, host => some (choice.flag, host)
  | .pidIsEngine _, choice, host =>
      some (Files.faultError choice.fault, host)
  | .signalReload _, choice, host =>
      some (Files.faultError choice.fault, host.note call fun progress =>
        { progress with signalled := true })
  | .contextError, choice, host =>
      some (Files.faultError choice.fault, host)
  | .deadlinePassed, choice, host => some (choice.flag, host)
  | .recordVersion _, choice, host =>
      match choice.fault with
      | some error => some (.error error.val, host)
      | none => some (.ok choice.revision, host)
  | .recordAudit _, choice, host =>
      some (Files.faultError choice.fault, host)

/-- The operation leaves the store, the configuration, the locks and the
progress of all calls alone. -/
def Looks : DeployOp → Prop
  | .lockDeploy | .unlockDeploy | .stateSource _ | .readConfigFile
  | .removeConfigFile | .signalReload _ | .writeAtomic .config _ =>
      False
  | _ => True

theorem handle_looks
    {derive : Store → State} {call : DeployCall}
    {host after : SharedHost Store} {op : DeployOp} (looks : Looks op)
    {choice : CallChoice} {answer : op.Answer}
    (handled :
      handle derive call op choice host = some (answer, after)) :
    after.store = host.store ∧ after.commits = host.commits ∧
      after.files.config = host.files.config ∧
      after.holder = host.holder ∧
      after.progress = host.progress := by
  cases op with
  | writeAtomic file data =>
      cases file with
      | config => exact looks.elim
      | previous =>
          cases fault : choice.fault <;>
            simp only [handle, Files.write, fault,
              Option.some.injEq, Prod.mk.injEq] at handled <;>
            simp [← handled.2]
  | lockDeploy => exact looks.elim
  | stateSource now => exact looks.elim
  | readConfigFile => exact looks.elim
  | removeConfigFile => exact looks.elim
  | signalReload pid => exact looks.elim
  | readPidFile =>
      cases fault : choice.fault <;>
        simp only [handle, fault, Option.some.injEq,
          Prod.mk.injEq] at handled <;>
        simp [← handled.2]
  | recordVersion version =>
      cases fault : choice.fault <;>
        simp only [handle, fault, Option.some.injEq,
          Prod.mk.injEq] at handled <;>
        simp [← handled.2]
  | unlockDeploy => exact looks.elim
  | _ =>
      simp only [handle, Option.some.injEq, Prod.mk.injEq]
        at handled
      simp [← handled.2]

/-- A committed mutation of the store. -/
def commit (mutation : Store → Store) (host : SharedHost Store) :
    SharedHost Store :=
  { host with
    store := mutation host.store, commits := host.commits + 1 }

/-- The configuration on disk is rendered from the store. -/
def Right
    [Build] (derive : Store → State) (settings : Settings)
    (host : SharedHost Store) : Prop :=
  ∃ text, render (derive host.store) settings = .ok text ∧
    host.files.config = some (bytesOf text)

/-- No call has put an earlier configuration back. -/
def Calm (host : SharedHost Store) : Prop :=
  ∀ call, (host.progress call).rolledBack = false

/-- No call has derived its state from a later store than the present
one. -/
def Dated (host : SharedHost Store) : Prop :=
  ∀ call commits, (host.progress call).derived = some commits →
    commits ≤ host.commits

theorem dated_of_unused
    {host : SharedHost Store}
    (unused : ∀ call, host.progress call = {}) : host.Dated := by
  intro call commits derived
  rw [unused call] at derived
  cases derived

theorem Dated.commit
    {host : SharedHost Store} (dated : host.Dated)
    (mutation : Store → Store) : (host.commit mutation).Dated :=
  fun call commits derived =>
    Nat.le_succ_of_le (dated call commits derived)

/-- Noting progress keeps the dates, if a noted date is not late. -/
theorem Dated.note
    {host : SharedHost Store} (dated : host.Dated) (call : DeployCall)
    (change : CallProgress → CallProgress)
    (kept :
      ∀ progress, (change progress).derived = progress.derived ∨
        (change progress).derived = some host.commits) :
    (host.note call change).Dated := by
  intro asked commits derived
  by_cases same : asked = call
  · subst same
    rw [note_progress_self] at derived
    rcases kept (host.progress asked) with before | present
    · exact dated asked commits (before ▸ derived)
    · rw [present] at derived
      exact Nat.le_of_eq (Option.some.inj derived).symm
  · rw [note_progress_other _ _ _ same] at derived
    exact dated asked commits derived

theorem calm_of_note
    {host : SharedHost Store} {call : DeployCall}
    {change : CallProgress → CallProgress}
    (kept :
      ∀ progress, (change progress).rolledBack = progress.rolledBack)
    (calm : (host.note call change).Calm) : host.Calm := by
  intro asked
  have quiet := calm asked
  by_cases same : asked = call
  · subst same
    rwa [note_progress_self, kept] at quiet
  · rwa [note_progress_other _ _ _ same] at quiet

end SharedHost

/-! ## What the others may do to a call -/

open SharedHost

section Steps

variable {Store : Type}

/-- What a step of `call` leaves alone: the store, the locks of the other
processes, a lock that another call of the process holds, and the
progress of the others. -/
structure OwnStep
    (call : DeployCall) (before after : SharedHost Store) : Prop where
  store : after.store = before.store
  commits : after.commits = before.commits
  lock :
    before.holder call.process = none ∨
      before.holder call.process = some call
  otherLocks :
    ∀ process, process ≠ call.process →
      after.holder process = before.holder process
  progress :
    ∀ other, other ≠ call →
      after.progress other = before.progress other
  dated : before.Dated → after.Dated

variable {call : DeployCall} {before after : SharedHost Store}

/-- While another call holds its own lock, a step of `call` moves nobody
else in that process. -/
theorem OwnStep.locked
    (own : OwnStep call before after) {other : DeployCall}
    (different : other ≠ call)
    (held : before.holder other.process = some other) :
    after.holder other.process = some other ∧
      ∀ third, third ≠ other → third.process = other.process →
        after.progress third = before.progress third := by
  have apart : other.process ≠ call.process := by
    intro same
    rcases own.lock with free | mine
    · rw [same, free] at held
      cases held
    · rw [same, mine] at held
      exact different (Option.some.inj held).symm
  refine ⟨(own.otherLocks _ apart).trans held, ?_⟩
  intro third _ sibling
  refine own.progress third ?_
  rintro rfl
  exact apart sibling.symm

/-- Noting progress under one's own lock. -/
theorem ownStep_note
    {files : Files} (held : before.holder call.process = some call)
    (change : CallProgress → CallProgress)
    (dates :
      ∀ progress, (change progress).derived = progress.derived ∨
        (change progress).derived = some before.commits) :
    OwnStep call before
      ({ before with files := files }.note call change) where
  store := rfl
  commits := rfl
  lock := Or.inr held
  otherLocks := fun _ _ => rfl
  progress := fun _ different => note_progress_other _ _ _ different
  dated := fun dated =>
    have sameDates :
        ({ before with files := files } : SharedHost Store).Dated := dated
    sameDates.note call change dates

end Steps

section Relations

variable [Build] {Store : Type}
variable (derive : Store → State) (settings : Settings)

/-- Between two operations of `call` its own progress stays, mutations
are counted, no call of the same process moves while `call` holds the
lock, and a configuration that is right stays right for a call that has
read it with the newest state in hand. -/
structure Meanwhile
    (call : DeployCall) (before now : SharedHost Store) : Prop where
  progress : now.progress call = before.progress call
  commits : before.commits ≤ now.commits
  store : now.commits = before.commits → now.store = before.store
  dated : before.Dated → now.Dated
  locked :
    before.holder call.process = some call →
      now.holder call.process = some call ∧
        ∀ other, other ≠ call → other.process = call.process →
          now.progress other = before.progress other
  calm : now.Calm → before.Calm
  right :
    now.Calm → now.commits = before.commits →
      (before.progress call).hasRead = true →
        (before.progress call).derived = some before.commits →
          before.Right derive settings → now.Right derive settings

variable {derive settings}
variable {call : DeployCall} {before now after : SharedHost Store}

theorem Meanwhile.refl (call : DeployCall) (host : SharedHost Store) :
    Meanwhile derive settings call host host :=
  ⟨rfl, Nat.le_refl _, fun _ => rfl, id,
    fun held => ⟨held, fun _ _ _ => rfl⟩, id,
    fun _ _ _ _ right => right⟩

theorem Meanwhile.trans
    (first : Meanwhile derive settings call before now)
    (second : Meanwhile derive settings call now after) :
    Meanwhile derive settings call before after := by
  have between : after.commits = before.commits →
      now.commits = before.commits ∧ after.commits = now.commits := by
    intro same
    have lower := first.commits
    have upper := second.commits
    omega
  refine ⟨second.progress.trans first.progress,
    Nat.le_trans first.commits second.commits, ?_,
    fun dated => second.dated (first.dated dated), ?_,
    fun calm => first.calm (second.calm calm), ?_⟩
  · intro same
    obtain ⟨early, late⟩ := between same
    exact (second.store late).trans (first.store early)
  · intro held
    obtain ⟨stillHeld, frozen⟩ := first.locked held
    obtain ⟨finallyHeld, stillFrozen⟩ := second.locked stillHeld
    exact ⟨finallyHeld, fun other different sibling =>
      (stillFrozen other different sibling).trans
        (frozen other different sibling)⟩
  · intro calm same hasRead derived right
    obtain ⟨early, late⟩ := between same
    have middle := first.right (second.calm calm) early hasRead derived
      right
    exact second.right calm late
      ((congrArg CallProgress.hasRead first.progress).trans hasRead)
      ((congrArg CallProgress.derived first.progress).trans
        (derived.trans (congrArg some early.symm))) middle

/-- A mutation makes every state in hand an old one. -/
theorem meanwhile_commit
    (call : DeployCall) (mutation : Store → Store)
    (host : SharedHost Store) :
    Meanwhile derive settings call host (host.commit mutation) where
  progress := rfl
  commits := Nat.le_succ _
  store := fun same => absurd same (Nat.succ_ne_self _)
  dated := fun dated => dated.commit mutation
  locked := fun held => ⟨held, fun _ _ _ => rfl⟩
  calm := id
  right := fun _ same => absurd same (Nat.succ_ne_self _)

/-- A step that leaves the configuration alone and takes back no rollback
disturbs no other call. -/
theorem OwnStep.quiet
    (own : OwnStep call before after)
    (config : after.files.config = before.files.config)
    (calm : after.Calm → before.Calm)
    {other : DeployCall} (different : other ≠ call) :
    Meanwhile derive settings other before after where
  progress := own.progress other different
  commits := Nat.le_of_eq own.commits.symm
  store := fun _ => own.store
  dated := own.dated
  locked := own.locked different
  calm := calm
  right := by
    rintro - - - - ⟨text, rendered, onDisk⟩
    exact ⟨text, own.store.symm ▸ rendered, config.trans onDisk⟩

/-- A rollback ends the calm, and with it every promise. -/
theorem OwnStep.storm
    (own : OwnStep call before after) (storm : ¬ after.Calm)
    {other : DeployCall} (different : other ≠ call) :
    Meanwhile derive settings other before after where
  progress := own.progress other different
  commits := Nat.le_of_eq own.commits.symm
  store := fun _ => own.store
  dated := own.dated
  locked := own.locked different
  calm := fun calm => absurd calm storm
  right := fun calm => absurd calm storm

/-- Noting progress other than a rollback disturbs no other call. -/
theorem meanwhile_note
    {other : DeployCall} (different : other ≠ call)
    (held : before.holder call.process = some call)
    (change : CallProgress → CallProgress)
    (dates :
      ∀ progress, (change progress).derived = progress.derived ∨
        (change progress).derived = some before.commits)
    (kept :
      ∀ progress, (change progress).rolledBack = progress.rolledBack) :
    Meanwhile derive settings other before (before.note call change) :=
  (ownStep_note held change dates).quiet rfl (calm_of_note kept) different

end Relations

end Xoxproxy
