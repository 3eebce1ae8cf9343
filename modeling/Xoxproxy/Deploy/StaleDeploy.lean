import Xoxproxy.Deploy.Interleaving

/-!
# The last deployment wins

The discipline that the calls of several processes keep as long as no
call writes the configuration after a call of another process with a
newer state has read it, and what it says once all calls have returned.
-/

namespace Xoxproxy

open EffectPrograms SharedHost

section Calls

variable [Build] {Store : Type}
variable (derive : Store → State) (deployer : Deployer)

/-- What a call knows: its own progress, that its state is the newest one
while no further mutation is committed, that no call of its process has a
newer state while it holds the lock, and, once `good`, that the
configuration is right if the state is the newest one. -/
structure Knows
    (call : DeployCall) (progress : CallProgress) (state : Option State)
    (good : Prop) (host : SharedHost Store) : Prop where
  own : host.progress call = progress
  dated : host.Dated
  started :
    ∀ commits, progress.started = some commits → commits ≤ host.commits
  derived :
    ∀ commits, progress.derived = some commits → commits ≤ host.commits
  state :
    progress.derived = some host.commits →
      ∀ known, state = some known → derive host.store = known
  held :
    progress.holding = true →
      host.holder call.process = some call ∧
        ∀ other, other ≠ call → other.process = call.process →
          ∀ commits own, (host.progress other).derived = some commits →
            progress.derived = some own → commits ≤ own
  right :
    good → progress.hasRead = true ∧
      (host.Calm → progress.derived = some host.commits →
        host.Right derive deployer.settings)

variable {derive deployer}
variable {call : DeployCall} {progress : CallProgress}
variable {state : Option State} {good : Prop}
variable {before now after host : SharedHost Store}

/-- What a call knows is not lost while the others run. -/
theorem Knows.later
    (knows : Knows derive deployer call progress state good before)
    (meanwhile :
      Meanwhile derive deployer.settings call before now) :
    Knows derive deployer call progress state good now := by
  have same : progress.derived = some now.commits →
      now.commits = before.commits := by
    intro newest
    have lower := knows.derived _ newest
    have upper := meanwhile.commits
    omega
  refine ⟨meanwhile.progress.trans knows.own,
    meanwhile.dated knows.dated, ?_, ?_, ?_, ?_, ?_⟩
  · intro commits started
    exact Nat.le_trans (knows.started commits started) meanwhile.commits
  · intro commits derived
    exact Nat.le_trans (knows.derived commits derived) meanwhile.commits
  · intro newest known found
    rw [meanwhile.store (same newest)]
    exact knows.state (same newest ▸ newest) known found
  · intro holding
    obtain ⟨held, newest⟩ := knows.held holding
    obtain ⟨stillHeld, frozen⟩ := meanwhile.locked held
    refine ⟨stillHeld, fun other different sibling => ?_⟩
    rw [frozen other different sibling]
    exact newest other different sibling
  · intro isGood
    obtain ⟨hasRead, right⟩ := knows.right isGood
    refine ⟨hasRead, fun calm newest => ?_⟩
    have earlier : progress.derived = some before.commits :=
      same newest ▸ newest
    refine meanwhile.right calm (same newest) ?_ ?_
      (right (meanwhile.calm calm) earlier)
    · rw [knows.own]
      exact hasRead
    · rw [knows.own]
      exact earlier

/-- No call writes the configuration after a call of another process with
a newer state has read it. -/
def InOrder
    (call : DeployCall) (op : DeployOp) (choice : CallChoice)
    (host : SharedHost Store) : Prop :=
  match op with
  | .writeAtomic .config _ =>
      choice.fault = none → (host.progress call).signalled = false →
        ∀ other commits, other.process ≠ call.process →
          (host.progress other).hasRead = true →
          (host.progress other).derived = some commits →
            ∃ own, (host.progress call).derived = some own ∧
              commits ≤ own
  | _ => True

variable (derive deployer)

/-- A call that has returned without an error has rolled nothing back,
has derived its state after it took the lock, and leaves the right
configuration if its state is the newest one. -/
def Returned
    (call : DeployCall) (error : Option GoError)
    (host : SharedHost Store) : Prop :=
  error = none →
    ∃ progress started derived,
      host.progress call = progress ∧ progress.rolledBack = false ∧
        progress.started = some started ∧
        progress.derived = some derived ∧
        started ≤ derived ∧ derived ≤ host.commits ∧
        (host.Calm → derived = host.commits →
          host.Right derive deployer.settings)

def callMachine :
    Machine DeployOp DeployOp.Answer (DeployResult × Option GoError)
      DeployCall (SharedHost Store) CallChoice (Store → Store) where
  program := fun call => deployNow deployer call.actor call.reason
  handle := SharedHost.handle derive
  react := SharedHost.commit

def callDiscipline :
    Discipline DeployOp DeployOp.Answer (DeployResult × Option GoError)
      DeployCall (SharedHost Store) CallChoice where
  invariant := fun _ => True
  rely := Meanwhile derive deployer.settings
  rely_refl := Meanwhile.refl
  rely_trans := Meanwhile.trans
  fresh := fun call host => host.Dated ∧ host.progress call = {}
  fresh_rely := fun blank meanwhile =>
    ⟨meanwhile.dated blank.1, meanwhile.progress.trans blank.2⟩
  guarantee := fun call before after =>
    ∀ other, other ≠ call →
      Meanwhile derive deployer.settings other before after
  condition := fun call _ => InOrder call
  promise := fun _ _ _ _ _ => True
  finished := fun call _ value host =>
    Returned derive deployer call value.2 host

@[simp]
theorem callDiscipline_condition
    (call : DeployCall) (past : List (Event DeployOp DeployOp.Answer)) :
    (callDiscipline derive deployer).condition call past = InOrder call :=
  rfl

/-- `Ensures` for calls of `DeployNow`; the history of the call does not
matter. -/
abbrev Obeys
    {Result : Type} (call : DeployCall)
    (post : Result → SharedHost Store → Prop)
    (rest : DeployProgram Result)
    (past : List (Event DeployOp DeployOp.Answer))
    (host : SharedHost Store) : Prop :=
  Ensures (callMachine derive deployer) (callDiscipline derive deployer)
    call (fun _ => post) rest past host

theorem callMachine_program (call : DeployCall) :
    (callMachine derive deployer).program call =
      deployNow deployer call.actor call.reason := by
  rw [callMachine]

variable {derive deployer}
variable {Result : Type} {post : Result → SharedHost Store → Prop}
variable {past : List (Event DeployOp DeployOp.Answer)}

theorem obeys_call
    {op : DeployOp} {next : op.Answer → DeployProgram Result}
    (knows : Knows derive deployer call progress state good host)
    (performed :
      ∀ now choice answer after,
        Knows derive deployer call progress state good now →
        InOrder call op choice now →
        SharedHost.handle derive call op choice now =
          some (answer, after) →
          (∀ other, other ≠ call →
            Meanwhile derive deployer.settings other now after) ∧
            ∀ past, Obeys derive deployer call post (next answer) past
              after) :
    Obeys derive deployer call post (.call op next) past host :=
  ensures_call (Knows derive deployer call progress state good)
    (fun _ _ known meanwhile => known.later meanwhile) knows
    fun now choice answer after known _ inOrder handled =>
      have done := performed now choice answer after known inOrder handled
      ⟨trivial, done.1, trivial, done.2 _⟩

theorem obeys_ret
    {value : Result}
    (knows : Knows derive deployer call progress state good host)
    (finish :
      ∀ now, Knows derive deployer call progress state good now →
        post value now) :
    Obeys derive deployer call post (.ret value) past host :=
  ensures_ret (Knows derive deployer call progress state good)
    (fun _ _ known meanwhile => known.later meanwhile) knows
    fun now known _ => finish now known

theorem obeys_bind
    {Middle : Type} {program : DeployProgram Middle}
    {continuation : Middle → DeployProgram Result}
    {between : Middle → SharedHost Store → Prop}
    (first : Obeys derive deployer call between program past host)
    (second :
      ∀ past value now, between value now →
        Obeys derive deployer call post (continuation value) past now) :
    Obeys derive deployer call post (program >>= continuation) past
      host :=
  ensures_bind trivial first fun past value now _ =>
    second past value now

/-- An operation that only looks disturbs nobody. -/
theorem meanwhile_of_looks
    {op : DeployOp} (looks : Looks op) {choice : CallChoice}
    {answer : op.Answer}
    (handled :
      SharedHost.handle derive call op choice now = some (answer, after))
    (other : DeployCall) :
    Meanwhile derive deployer.settings other now after := by
  obtain ⟨store, commits, config, holder, all⟩ :=
    handle_looks looks handled
  refine ⟨by rw [all], Nat.le_of_eq commits.symm, fun _ => store, ?_, ?_,
    ?_, ?_⟩
  · intro dated asked
    rw [all, commits]
    exact dated asked
  · intro held
    rw [all, holder]
    exact ⟨held, fun _ _ _ => rfl⟩
  · intro calm asked
    rw [← all]
    exact calm asked
  · rintro - - - - ⟨text, rendered, onDisk⟩
    exact ⟨text, store.symm ▸ rendered, config.trans onDisk⟩

/-- An operation that only looks keeps all that is known. -/
theorem obeys_look
    {op : DeployOp} {next : op.Answer → DeployProgram Result}
    (looks : Looks op)
    (knows : Knows derive deployer call progress state good host)
    (rest :
      ∀ answer past now,
        Knows derive deployer call progress state good now →
          Obeys derive deployer call post (next answer) past now) :
    Obeys derive deployer call post (ask op >>= next) past host := by
  refine obeys_call knows ?_
  intro now choice answer after knows _ handled
  have meanwhile (other : DeployCall) :
      Meanwhile derive deployer.settings other now after :=
    meanwhile_of_looks looks handled other
  exact ⟨fun other _ => meanwhile other, fun past =>
    rest answer past after (knows.later (meanwhile call))⟩

/-- Noting progress under one's own lock keeps the lock and the dates of
the other calls of the process. -/
theorem Knows.held_noted
    (knows : Knows derive deployer call progress state good host)
    (holding : progress.holding = true) (files : Files)
    (change : CallProgress → CallProgress)
    (derived : (change progress).derived = progress.derived) :
    let noted := { host with files := files }.note call change
    noted.holder call.process = some call ∧
      ∀ other, other ≠ call → other.process = call.process →
        ∀ commits own, (noted.progress other).derived = some commits →
          (change progress).derived = some own → commits ≤ own := by
  obtain ⟨held, newest⟩ := knows.held holding
  refine ⟨held, fun other different sibling commits own dated mine => ?_⟩
  rw [note_progress_other _ _ _ different] at dated
  rw [derived] at mine
  exact newest other different sibling commits own dated mine

/-- Installing the text of one's own state: in order, it disturbs no call
with a newer state, and it makes the configuration right. -/
theorem obeys_install
    {known : State} {text : String} {date : Nat}
    {next : Option GoError → DeployProgram Result}
    (rendered : render known deployer.settings = .ok text)
    (holding : progress.holding = true)
    (dated : progress.derived = some date)
    (unsignalled : progress.signalled = false)
    (hasRead : progress.hasRead = true)
    (knows :
      Knows derive deployer call progress (some known) good host)
    (failed :
      ∀ error past now,
        Knows derive deployer call progress (some known) good now →
          Obeys derive deployer call post (next (some error)) past now)
    (installed :
      ∀ past now,
        Knows derive deployer call progress (some known) True now →
          Obeys derive deployer call post (next none) past now) :
    Obeys derive deployer call post
      (.call (.writeAtomic .config (bytesOf text)) next) past host := by
  refine obeys_call knows ?_
  intro now choice answer after knows inOrder handled
  cases fault : choice.fault with
  | some error =>
      simp only [SharedHost.handle, fault, Option.some.injEq,
        Prod.mk.injEq] at handled
      obtain ⟨rfl, rfl⟩ := handled
      exact ⟨fun other _ => Meanwhile.refl other now, fun past =>
        failed error.val past now knows⟩
  | none =>
      simp only [SharedHost.handle, fault, Option.some.injEq,
        Prod.mk.injEq] at handled
      obtain ⟨rfl, rfl⟩ := handled
      obtain ⟨held, siblings⟩ := knows.held holding
      have own : OwnStep call now
          ({ now with
            files := now.files.install (bytesOf text)
              .config }.note call markRollBack) :=
        ownStep_note held markRollBack fun _ => Or.inl rfl
      have calmBefore :
          ({ now with
            files := now.files.install (bytesOf text)
              .config }.note call markRollBack).Calm → now.Calm := by
        intro calm asked
        have quiet := calm asked
        by_cases same : asked = call
        · subst same
          rw [note_progress_self] at quiet
          exact (Bool.or_eq_false_iff.mp quiet).1
        · rwa [note_progress_other _ _ _ same] at quiet
      have newest :
          progress.derived = some now.commits →
            ({ now with
              files := now.files.install (bytesOf text)
                .config }.note call markRollBack).Right derive
                  deployer.settings := by
        intro derived
        refine ⟨text, ?_, rfl⟩
        rw [note_store, knows.state derived known rfl]
        exact rendered
      have bound := knows.derived date dated
      refine ⟨?_, fun past => installed past _ ?_⟩
      · intro other different
        refine ⟨own.progress other different, Nat.le_refl _,
          fun _ => rfl, own.dated, own.locked different, calmBefore, ?_⟩
        intro _ _ otherRead otherDated _
        have least : now.commits ≤ date := by
          by_cases sibling : other.process = call.process
          · exact siblings other different sibling _ _ otherDated dated
          · obtain ⟨mine, mineDated, least⟩ := inOrder fault
              (by rw [knows.own]; exact unsignalled) other _ sibling
              otherRead otherDated
            rw [knows.own, dated] at mineDated
            exact Option.some.inj mineDated ▸ least
        exact newest (dated.trans
          (congrArg some (Nat.le_antisymm bound least)))
      · have unmarked := markRollBack_of_unsignalled unsignalled
        refine ⟨?_, own.dated knows.dated, knows.started, knows.derived,
          knows.state, ?_, fun _ => ⟨hasRead, fun _ => newest⟩⟩
        · rw [note_progress_self]
          exact (congrArg markRollBack knows.own).trans unmarked
        · intro _
          have noted := knows.held_noted holding
            (now.files.install (bytesOf text) .config) markRollBack rfl
          exact unmarked ▸ noted

/-- What is known after a step that marks a rollback. -/
theorem Knows.rolledBack
    (knows : Knows derive deployer call progress state good host)
    (holding : progress.holding = true)
    (signalled : progress.signalled = true) (files : Files) :
    (∀ other, other ≠ call →
      Meanwhile derive deployer.settings other host
        ({ host with files := files }.note call markRollBack)) ∧
      Knows derive deployer call (markRollBack progress) state False
        ({ host with files := files }.note call markRollBack) := by
  have marked :
      ({ host with files := files }.note call markRollBack).progress
        call = markRollBack progress :=
    (note_progress_self _ call markRollBack).trans
      (congrArg markRollBack knows.own)
  have storm :
      ¬ ({ host with
        files := files }.note call markRollBack).Calm := by
    intro calm
    have quiet := calm call
    rw [marked] at quiet
    simp [markRollBack, signalled] at quiet
  have own : OwnStep call host
      ({ host with files := files }.note call markRollBack) :=
    ownStep_note (knows.held holding).1 markRollBack fun _ => Or.inl rfl
  exact ⟨fun other different => own.storm storm different,
    marked, own.dated knows.dated, knows.started, knows.derived,
    knows.state,
    fun _ => knows.held_noted holding files markRollBack rfl,
    False.elim⟩

/-! ## The parts of a call -/

theorem enginePID_obeys
    (knows : Knows derive deployer call progress state good host) :
    Obeys derive deployer call
      (fun _ now => Knows derive deployer call progress state good now)
      enginePID past host := by
  refine obeys_look trivial knows ?_
  intro answer past now knows
  cases answer with
  | error error => exact obeys_ret knows fun _ known => known
  | ok data =>
      dsimp only
      cases atoi (trimSpace data) with
      | none => exact obeys_ret knows fun _ known => known
      | some pid =>
          by_cases small : pid < 2
          · simp only [small, if_true]
            exact obeys_ret knows fun _ known => known
          · simp only [small, if_false]
            refine obeys_look trivial knows ?_
            intro answer past now knows
            cases answer with
            | true => exact obeys_ret knows fun _ known => known
            | false => exact obeys_ret knows fun _ known => known

/-- `reload` without an error has sent the signal. -/
theorem reload_obeys
    {pid : Int} (holding : progress.holding = true)
    (knows : Knows derive deployer call progress state good host) :
    Obeys derive deployer call
      (fun error now =>
        ∃ signalled,
          Knows derive deployer call
            { progress with signalled := signalled } state good now ∧
          (error = none → signalled = true))
      (reload pid) past host := by
  refine obeys_look trivial knows ?_
  intro answer past now knows
  cases answer with
  | some error =>
      exact obeys_ret knows fun _ known =>
        ⟨progress.signalled, known, fun missing => by cases missing⟩
  | none =>
      refine obeys_call knows ?_
      intro now choice answer after knows _ handled
      simp only [SharedHost.handle, Option.some.injEq, Prod.mk.injEq]
        at handled
      obtain ⟨-, rfl⟩ := handled
      have signalled :
          Knows derive deployer call { progress with signalled := true }
            state good
            (now.note call fun progress =>
              { progress with signalled := true }) := by
        refine ⟨?_, knows.dated.note call _ fun _ => Or.inl rfl,
          knows.started, knows.derived, knows.state,
          fun _ => knows.held_noted holding now.files _ rfl, ?_⟩
        · rw [note_progress_self, knows.own]
        · intro isGood
          obtain ⟨hasRead, right⟩ := knows.right isGood
          refine ⟨hasRead, fun calm newest => ?_⟩
          refine right (calm_of_note ?_ calm) newest
          exact fun _ => rfl
      exact ⟨fun other different =>
          meanwhile_note different (knows.held holding).1 _
            (fun _ => Or.inl rfl) fun _ => rfl,
        fun past => obeys_ret signalled fun _ known =>
          ⟨true, known, fun _ => rfl⟩⟩

theorem verifyAfterReload_obeys
    {pid : Int} {sleeps : Nat}
    (knows : Knows derive deployer call progress state good host) :
    Obeys derive deployer call
      (fun _ now => Knows derive deployer call progress state good now)
      (verifyAfterReload pid sleeps) past host := by
  induction sleeps generalizing past host with
  | zero =>
      rw [verifyAfterReload]
      refine obeys_look trivial knows ?_
      intro answer past now knows
      cases answer with
      | some error => exact obeys_ret knows fun _ known => known
      | none =>
          refine obeys_look trivial knows ?_
          intro answer past now knows
          cases answer with
          | true => exact obeys_ret knows fun _ known => known
          | false => exact obeys_ret knows fun _ known => known
  | succ sleeps inductionHypothesis =>
      rw [verifyAfterReload]
      refine obeys_look trivial knows ?_
      intro answer past now knows
      cases answer with
      | some error => exact obeys_ret knows fun _ known => known
      | none =>
          refine obeys_look trivial knows ?_
          intro answer past now knows
          cases answer with
          | false => exact obeys_ret knows fun _ known => known
          | true =>
              refine obeys_look trivial knows ?_
              intro answer past now knows
              cases answer with
              | true => exact obeys_ret knows fun _ known => known
              | false => exact inductionHypothesis knows

/-- How a call ends after its state was derived: what it still knows, and
what it has achieved if there was no error. -/
def Outcome
    (derive : Store → State) (deployer : Deployer) (call : DeployCall)
    (progress : CallProgress) (state : Option State)
    (value : DeployResult × Option GoError) (host : SharedHost Store) :
    Prop :=
  ∃ reached good,
    Knows derive deployer call reached state good host ∧
      reached.holding = true ∧
      (value.2 = none →
        good ∧ reached.rolledBack = false ∧
          reached.started = progress.started ∧
          reached.derived = progress.derived)

/-- Returning with an error. -/
theorem obeys_failed
    {origin : CallProgress} {result : DeployResult} {error : GoError}
    (knows : Knows derive deployer call progress state good host)
    (holding : progress.holding = true) :
    Obeys derive deployer call
      (Outcome derive deployer call origin state)
      (.ret (result, some error)) past host :=
  obeys_ret knows fun _ known =>
    ⟨progress, good, known, holding, fun same => by cases same⟩

/-- Returning without an error. -/
theorem obeys_succeeded
    {origin : CallProgress} {result : DeployResult}
    (knows : Knows derive deployer call progress state True host)
    (holding : progress.holding = true)
    (quiet : progress.rolledBack = false)
    (started : progress.started = origin.started)
    (derived : progress.derived = origin.derived) :
    Obeys derive deployer call
      (Outcome derive deployer call origin state)
      (.ret (result, none)) past host :=
  obeys_ret knows fun _ known =>
    ⟨progress, True, known, holding,
      fun _ => ⟨trivial, quiet, started, derived⟩⟩

theorem rollBack_obeys
    {origin : CallProgress} (current : Option Bytes) (sum : String)
    (error : GoError)
    (knows : Knows derive deployer call progress state good host)
    (holding : progress.holding = true)
    (signalled : progress.signalled = true) :
    Obeys derive deployer call
      (Outcome derive deployer call origin state)
      (rollBack current sum error) past host := by
  cases current with
  | some data =>
      refine obeys_call knows ?_
      intro now choice answer after knows _ handled
      cases fault : choice.fault with
      | some problem =>
          simp only [SharedHost.handle, fault, Option.some.injEq,
            Prod.mk.injEq] at handled
          obtain ⟨rfl, rfl⟩ := handled
          exact ⟨fun other _ => Meanwhile.refl other now,
            fun past => obeys_failed knows holding⟩
      | none =>
          simp only [SharedHost.handle, fault, Option.some.injEq,
            Prod.mk.injEq] at handled
          obtain ⟨rfl, rfl⟩ := handled
          obtain ⟨others, known⟩ := knows.rolledBack holding signalled
            (now.files.install data .config)
          exact ⟨others, fun past => obeys_failed known holding⟩
  | none =>
      refine obeys_call knows ?_
      intro now choice answer after knows _ handled
      simp only [SharedHost.handle, Option.some.injEq, Prod.mk.injEq]
        at handled
      obtain ⟨-, rfl⟩ := handled
      obtain ⟨others, known⟩ := knows.rolledBack holding signalled
        (now.files.remove choice.fault).2
      refine ⟨others, fun past => ?_⟩
      cases answer with
      | none => exact obeys_failed known holding
      | some problem =>
          change Obeys derive deployer call _
            (if problem.is .osNotExist then _ else _) _ _
          cases problem.is .osNotExist with
          | true => exact obeys_failed known holding
          | false => exact obeys_failed known holding

theorem applyConfig_obeys
    (current : Option Bytes) (sum : String)
    (holding : progress.holding = true)
    (quiet : progress.rolledBack = false)
    (knows : Knows derive deployer call progress state True host) :
    Obeys derive deployer call
      (Outcome derive deployer call progress state)
      (applyConfig deployer current sum) past host := by
  refine obeys_bind (enginePID_obeys knows) ?_
  intro past found host knows
  cases found with
  | error error => exact obeys_succeeded knows holding quiet rfl rfl
  | ok pid =>
      refine obeys_bind (reload_obeys holding knows) ?_
      rintro past outcome host ⟨signalled, knows, sent⟩
      cases outcome with
      | some error =>
          dsimp only
          cases error.is .engineNotRunning with
          | true => exact obeys_succeeded knows holding quiet rfl rfl
          | false => exact obeys_failed knows holding
      | none =>
          refine obeys_bind (verifyAfterReload_obeys knows) ?_
          intro past verdict host knows
          cases verdict with
          | some error =>
              exact rollBack_obeys current sum error knows holding
                (sent rfl)
          | none => exact obeys_succeeded knows holding quiet rfl rfl

theorem installConfig_obeys
    {known : State} {text : String} {date : Nat} (current : Option Bytes)
    (rendered : render known deployer.settings = .ok text)
    (knows :
      Knows derive deployer call progress (some known) good host)
    (holding : progress.holding = true)
    (dated : progress.derived = some date)
    (unsignalled : progress.signalled = false)
    (hasRead : progress.hasRead = true)
    (quiet : progress.rolledBack = false) :
    Obeys derive deployer call
      (Outcome derive deployer call progress (some known))
      (installConfig deployer text current) past host := by
  have install : ∀ past host,
      Knows derive deployer call progress (some known) good host →
        Obeys derive deployer call
          (Outcome derive deployer call progress (some known))
          (writeConfig deployer text current) past host := by
    intro past host knows
    refine obeys_install rendered holding dated unsignalled hasRead knows
      ?_ ?_
    · intro error past now knows
      exact obeys_failed knows holding
    · intro past now knows
      exact applyConfig_obeys current _ holding quiet knows
  refine obeys_look trivial knows ?_
  intro answer past now knows
  cases answer with
  | some error => exact obeys_failed knows holding
  | none =>
      cases current with
      | none => exact install _ now knows
      | some data =>
          refine obeys_look trivial knows ?_
          intro answer past now knows
          cases answer with
          | some error => exact obeys_failed knows holding
          | none => exact install _ now knows

/-- Reading the configuration: an unchanged text is right, if the state in
hand is the newest one. -/
theorem obeys_read
    {known : State} {text : String}
    {next : Except GoError Bytes → DeployProgram Result}
    (rendered : render known deployer.settings = .ok text)
    (holding : progress.holding = true)
    (knows :
      Knows derive deployer call progress (some known) False host)
    (unchanged :
      ∀ past now,
        Knows derive deployer call { progress with hasRead := true }
          (some known) True now →
          Obeys derive deployer call post (next (.ok (bytesOf text)))
            past now)
    (rest :
      ∀ answer past now,
        Knows derive deployer call { progress with hasRead := true }
          (some known) False now →
          answer ≠ .ok (bytesOf text) →
          Obeys derive deployer call post (next answer) past now) :
    Obeys derive deployer call post (ask .readConfigFile >>= next) past
      host := by
  refine obeys_call knows ?_
  intro now choice answer after knows _ handled
  simp only [SharedHost.handle, Option.some.injEq, Prod.mk.injEq]
    at handled
  obtain ⟨reading, rfl⟩ := handled
  have own :
      (now.note call fun progress =>
        { progress with hasRead := true }).progress call =
          { progress with hasRead := true } := by
    rw [note_progress_self, knows.own]
  have dated := knows.dated.note call
    (fun progress => { progress with hasRead := true })
    fun _ => Or.inl rfl
  have held := knows.held_noted holding now.files
    (fun progress => { progress with hasRead := true }) rfl
  refine ⟨fun other different =>
    meanwhile_note different (knows.held holding).1 _
      (fun _ => Or.inl rfl) fun _ => rfl, fun past => ?_⟩
  by_cases same : answer = .ok (bytesOf text)
  · subst same
    have onDisk := Files.read_eq_ok _ _ reading
    refine unchanged past _ ⟨own, dated, knows.started, knows.derived,
      knows.state, fun _ => held, fun _ => ⟨rfl, fun _ newest => ⟨text, ?_, onDisk⟩⟩⟩
    rw [note_store, knows.state newest known rfl]
    exact rendered
  · exact rest answer past _
      ⟨own, dated, knows.started, knows.derived, knows.state,
        fun _ => held, False.elim⟩ same

/-- `Deploy`, from the derived state on. -/
theorem deploy_obeys
    {known : State} {date : Nat}
    (holding : progress.holding = true)
    (dated : progress.derived = some date)
    (unsignalled : progress.signalled = false)
    (quiet : progress.rolledBack = false)
    (knows :
      Knows derive deployer call progress (some known) False host) :
    Obeys derive deployer call
      (Outcome derive deployer call progress (some known))
      (deploy deployer known) past host := by
  unfold deploy
  cases rendered : render known deployer.settings with
  | error error => exact obeys_failed knows holding
  | ok text =>
      refine obeys_read rendered holding knows ?_ ?_
      · intro past now knows
        dsimp only
        rw [if_pos rfl]
        exact obeys_succeeded knows holding quiet rfl rfl
      · intro answer past now knows different
        have installs (current : Option Bytes) :
            Obeys derive deployer call
              (Outcome derive deployer call progress (some known))
              (installConfig deployer text current) past now :=
          have installed := installConfig_obeys current rendered knows
            holding dated unsignalled rfl quiet
          installed
        cases answer with
        | ok current =>
            have other : current ≠ bytesOf text := fun same =>
              different (congrArg Except.ok same)
            dsimp only
            rw [if_neg other]
            exact installs (some current)
        | error error =>
            dsimp only
            cases error.is .osNotExist with
            | true => exact installs none
            | false => exact obeys_failed knows holding

/-- Recording only looks. -/
theorem recordRow_obeys
    (version : ConfigurationVersion) (detail : String)
    (knows : Knows derive deployer call progress state good host) :
    Obeys derive deployer call
      (fun _ now => Knows derive deployer call progress state good now)
      (recordRow version detail) past host := by
  refine obeys_look trivial knows ?_
  intro answer past now knows
  cases answer with
  | ok revision =>
      refine obeys_look trivial knows ?_
      intro answer past now knows
      exact obeys_ret knows fun _ known => known
  | error error =>
      refine obeys_look trivial knows ?_
      intro answer past now knows
      exact obeys_ret knows fun _ known => known

/-- How a call ends while it holds the lock. -/
def LockedOutcome
    (derive : Store → State) (deployer : Deployer) (call : DeployCall)
    (value : DeployResult × Option GoError) (host : SharedHost Store) :
    Prop :=
  ∃ progress state,
    Outcome derive deployer call progress state value host ∧
      (value.2 = none →
        ∃ started derived, progress.started = some started ∧
          progress.derived = some derived ∧ started ≤ derived)

theorem lockedOutcome_of_failed
    {result : DeployResult} {error : GoError}
    (knows : Knows derive deployer call progress state good host)
    (holding : progress.holding = true) :
    LockedOutcome derive deployer call (result, some error) host :=
  ⟨progress, state,
    ⟨progress, good, knows, holding, fun same => by cases same⟩,
    fun same => by cases same⟩

theorem recordFailure_obeys
    {actor reason : String} {validation : ValidationStatus} {time : Time}
    {result : DeployResult} {error : GoError}
    (knows : Knows derive deployer call progress state good host)
    (holding : progress.holding = true) :
    Obeys derive deployer call (LockedOutcome derive deployer call)
      (do
        recordFailure actor reason validation time
        pure (result, some error)) past host := by
  refine obeys_bind (recordRow_obeys _ _ knows) ?_
  intro past value now knows
  exact obeys_ret knows fun _ known =>
    lockedOutcome_of_failed known holding

theorem deployState_obeys
    {actor reason : String} {time : Time} {known : State}
    {started derived : Nat}
    (knows :
      Knows derive deployer call progress (some known) False host)
    (begun : progress.started = some started)
    (dated : progress.derived = some derived)
    (ordered : started ≤ derived)
    (holding : progress.holding = true)
    (unsignalled : progress.signalled = false)
    (quiet : progress.rolledBack = false) :
    Obeys derive deployer call (LockedOutcome derive deployer call)
      (deployState deployer actor reason time known) past host := by
  refine obeys_bind
    (deploy_obeys holding dated unsignalled quiet knows) ?_
  rintro past ⟨result, error⟩ now
    ⟨reached, isGood, knows, stillHolding, achieved⟩
  refine obeys_bind (recordRow_obeys _ _ knows) ?_
  intro past value now knows
  refine obeys_ret knows fun later known => ?_
  refine ⟨progress, _, ⟨reached, isGood, known, stillHolding, ?_⟩, ?_⟩
  · intro missing
    exact achieved (Option.map_eq_none_iff.mp missing)
  · intro _
    exact ⟨started, derived, begun, dated, ordered⟩

theorem deployLocked_obeys
    {actor reason : String} {started : Nat}
    (begun : progress.started = some started)
    (holding : progress.holding = true)
    (unsignalled : progress.signalled = false)
    (quiet : progress.rolledBack = false)
    (knows : Knows derive deployer call progress none False host) :
    Obeys derive deployer call (LockedOutcome derive deployer call)
      (deployLocked deployer actor reason) past host := by
  refine obeys_look trivial knows ?_
  intro time past now knows
  refine obeys_call knows ?_
  intro now choice answer after knows _ handled
  cases fault : choice.fault with
  | some error =>
      simp only [SharedHost.handle, fault, Option.some.injEq,
        Prod.mk.injEq] at handled
      obtain ⟨rfl, rfl⟩ := handled
      exact ⟨fun other _ => Meanwhile.refl other now,
        fun past => recordFailure_obeys knows holding⟩
  | none =>
      simp only [SharedHost.handle, fault, Option.some.injEq,
        Prod.mk.injEq] at handled
      obtain ⟨rfl, rfl⟩ := handled
      have derived :
          Knows derive deployer call
            { progress with derived := some now.commits }
            (some (derive now.store)) False
            (now.note call fun progress =>
              { progress with derived := some now.commits }) := by
        obtain ⟨held, -⟩ := knows.held holding
        refine ⟨?_, knows.dated.note call _ fun _ => Or.inr rfl,
          knows.started, ?_, ?_, ?_, False.elim⟩
        · rw [note_progress_self, knows.own]
        · intro commits newest
          exact Nat.le_of_eq (Option.some.inj newest).symm
        · intro _ known found
          exact Option.some.inj found
        · refine fun _ => ⟨held, ?_⟩
          intro other different _ commits own otherDated mine
          rw [note_progress_other _ _ _ different] at otherDated
          exact Option.some.inj mine ▸
            knows.dated other commits otherDated
      refine ⟨fun other different =>
        meanwhile_note different (knows.held holding).1 _
          (fun _ => Or.inr rfl) fun _ => rfl, fun past => ?_⟩
      change Obeys derive deployer call _
        (deployDerived deployer actor reason time (derive now.store)) _ _
      rw [deployDerived]
      cases (derive now.store).validate with
      | some error => exact recordFailure_obeys derived holding
      | none =>
          exact deployState_obeys derived begun rfl
            (knows.started started begun) holding unsignalled quiet

/-- Taking the lock. -/
theorem begin_step
    (knows : Knows derive deployer call {} none False host)
    (free : host.holder call.process = none) :
    let begun := (host.setHolder call.process (some call)).note call
      fun progress => { progress with
        started := some host.commits, holding := true }
    OwnStep call host begun ∧ (begun.Calm → host.Calm) ∧
      Knows derive deployer call
        { started := some host.commits, holding := true } none False
        begun := by
  intro begun
  have own : OwnStep call host begun := by
    refine ⟨rfl, rfl, Or.inl free, ?_, ?_, ?_⟩
    · intro process different
      simp [begun, note, setHolder, different]
    · intro other different
      exact note_progress_other _ _ _ different
    · intro dated
      have kept : (host.setHolder call.process (some call)).Dated := dated
      exact kept.note call _ fun _ => Or.inl rfl
  refine ⟨own, calm_of_note fun _ => rfl, ?_, own.dated knows.dated, ?_,
    fun _ same => (by cases same), fun same => (by cases same), ?_,
    False.elim⟩
  · have blank : (host.setHolder call.process (some call)).progress call =
        {} := knows.own
    simp only [begun]
    rw [note_progress_self, blank]
  · intro commits started
    exact Nat.le_of_eq (Option.some.inj started).symm
  · intro _
    refine ⟨by simp [begun, note, setHolder], ?_⟩
    intro _ _ _ _ _ _ mine
    cases mine

/-- Giving the lock back. -/
theorem end_step
    (knows : Knows derive deployer call progress state good host)
    (holding : progress.holding = true) :
    let ended := (host.setHolder call.process none).note call
      fun progress => { progress with holding := false }
    OwnStep call host ended ∧ (ended.Calm → host.Calm) ∧
      Knows derive deployer call { progress with holding := false } state
        good ended := by
  intro ended
  have own : OwnStep call host ended := by
    refine ⟨rfl, rfl, Or.inr (knows.held holding).1, ?_, ?_, ?_⟩
    · intro process different
      simp [ended, note, setHolder, different]
    · intro other different
      exact note_progress_other _ _ _ different
    · intro dated
      have kept : (host.setHolder call.process none).Dated := dated
      exact kept.note call _ fun _ => Or.inl rfl
  have calm : ended.Calm → host.Calm := calm_of_note fun _ => rfl
  refine ⟨own, calm, ?_, own.dated knows.dated, knows.started,
    knows.derived, knows.state, fun same => (by cases same), ?_⟩
  · have mine : (host.setHolder call.process none).progress call =
        progress := knows.own
    simp only [ended]
    rw [note_progress_self, mine]
  · intro isGood
    obtain ⟨hasRead, right⟩ := knows.right isGood
    exact ⟨hasRead, fun stillCalm newest => right (calm stillCalm) newest⟩

/-- A whole call, from its start. -/
theorem deployNow_obeys
    {actor reason : String} (dated : host.Dated)
    (blank : host.progress call = {}) :
    Obeys derive deployer call
      (fun value now => Returned derive deployer call value.2 now)
      (deployNow deployer actor reason) past host := by
  have nothing : Knows derive deployer call {} none False host :=
    ⟨blank, dated, fun _ same => (by cases same), fun _ same => (by cases same),
      fun same => (by cases same), fun same => (by cases same), False.elim⟩
  refine obeys_call nothing ?_
  intro now choice answer after knows _ handled
  cases held : now.holder call.process with
  | some other => simp [SharedHost.handle, held] at handled
  | none =>
      simp only [SharedHost.handle, held, Option.some.injEq,
        Prod.mk.injEq] at handled
      obtain ⟨-, rfl⟩ := handled
      obtain ⟨own, calm, begun⟩ := begin_step knows held
      refine ⟨fun other different => own.quiet rfl calm different,
        fun past => ?_⟩
      change Obeys derive deployer call _
        (deployLocked deployer actor reason >>= _) _ _
      refine obeys_bind (deployLocked_obeys rfl rfl rfl rfl begun) ?_
      rintro past value later ⟨progress, state,
        ⟨reached, isGood, knows, holding, achieved⟩, dates⟩
      refine obeys_call knows ?_
      intro now choice answer after knows _ handled
      simp only [SharedHost.handle, Option.some.injEq, Prod.mk.injEq]
        at handled
      obtain ⟨-, rfl⟩ := handled
      obtain ⟨own, calm, ended⟩ := end_step knows holding
      refine ⟨fun other different => own.quiet rfl calm different,
        fun past => obeys_ret ended fun final known missing => ?_⟩
      obtain ⟨holds, quiet, started, derived⟩ := achieved missing
      obtain ⟨first, second, startedAt, derivedAt, ordered⟩ :=
        dates missing
      obtain ⟨-, right⟩ := known.right holds
      have date : reached.derived = some second :=
        derived.trans derivedAt
      refine ⟨_, first, second, known.own, quiet,
        started.trans startedAt, date, ordered,
        known.derived second date, fun stillCalm newest => ?_⟩
      exact right stillCalm (date.trans (congrArg some newest))

theorem callObligations :
    Obligations (callMachine derive deployer)
      (callDiscipline derive deployer) where
  start := by
    intro call host _ blank
    rw [callMachine_program]
    exact deployNow_obeys blank.1 blank.2
  compatible := by
    intro call other before after different guaranteed
    exact guaranteed call different
  outside := by
    intro mutation host _
    exact ⟨fun call => meanwhile_commit call mutation host, trivial⟩

end Calls

/-! ## Runs -/

section Runs

variable [Build] {Store : Type}
variable (derive : Store → State) (deployer : Deployer)

/-- Calls of several processes and mutations of the store, in any order
of their steps. -/
abbrev callRun
    (actions :
      List (Action DeployCall CallChoice (Store → Store)))
    (host : SharedHost Store) :
    Pool DeployOp DeployOp.Answer (DeployResult × Option GoError)
      DeployCall (SharedHost Store) :=
  Runs.run (callMachine derive deployer).step actions (.idle host)

/-- Every call that was started has returned without an error. -/
def AllReturned
    (pool :
      Pool DeployOp DeployOp.Answer (DeployResult × Option GoError)
        DeployCall (SharedHost Store)) : Prop :=
  ∀ call ∈ pool.started, ∃ past result,
    ⟨call, past, .ret (result, none)⟩ ∈ pool.threads

/-- Some call took its lock after the last mutation was committed. -/
def LastAnnounced
    (pool :
      Pool DeployOp DeployOp.Answer (DeployResult × Option GoError)
        DeployCall (SharedHost Store)) : Prop :=
  ∃ call ∈ pool.started, ∃ started,
    (pool.world.progress call).started = some started ∧
      pool.world.commits ≤ started

variable {derive deployer}

/-- Every call that is started is a new one, of the given process. -/
def StartsIn
    (process : Nat)
    (pool :
      Pool DeployOp DeployOp.Answer (DeployResult × Option GoError)
        DeployCall (SharedHost Store))
    (action : Action DeployCall CallChoice (Store → Store)) : Prop :=
  ∀ call, action = .start call →
    call ∉ pool.started ∧ call.process = process

/-- Within one process the lock keeps all writes in order. -/
theorem allows_of_one_process
    {process : Nat}
    {pool :
      Pool DeployOp DeployOp.Answer (DeployResult × Option GoError)
        DeployCall (SharedHost Store)}
    (secure :
      PoolSecure (callMachine derive deployer)
        (callDiscipline derive deployer) pool)
    (siblings : ∀ call ∈ pool.started, call.process = process)
    {action : Action DeployCall CallChoice (Store → Store)}
    (starts : StartsIn process pool action) :
    (callDiscipline derive deployer).Allows pool action := by
  cases action with
  | start call => exact (starts call rfl).1
  | cut index => exact trivial
  | outside mutation => exact trivial
  | advance index choice =>
      intro call past op next found
      have begun := secure.started _ (List.mem_of_getElem? found)
      have strangers : ∀ other : DeployCall,
          other.process ≠ call.process →
            (pool.world.progress other).hasRead = false := by
        intro other apart
        have absent : other ∉ pool.started := fun listed =>
          apart ((siblings other listed).trans (siblings call begun).symm)
        rw [(secure.fresh other absent).2]
      change InOrder call op choice pool.world
      unfold InOrder
      split
      · intro _ _ other commits apart hasRead
        rw [strangers other apart] at hasRead
        cases hasRead
      · exact trivial

/-- The calls keep the discipline and all belong to one process. -/
structure OfOneProcess
    (derive : Store → State) (deployer : Deployer) (process : Nat)
    (pool :
      Pool DeployOp DeployOp.Answer (DeployResult × Option GoError)
        DeployCall (SharedHost Store)) : Prop where
  secure :
    PoolSecure (callMachine derive deployer)
      (callDiscipline derive deployer) pool
  siblings : ∀ call ∈ pool.started, call.process = process

/-- Calls of one process never overtake each other. -/
theorem one_process_in_order
    {process : Nat} {host : SharedHost Store}
    (unused : ∀ call, host.progress call = {})
    {actions : List (Action DeployCall CallChoice (Store → Store))}
    (starts :
      Runs.Meets (callMachine derive deployer).step (StartsIn process)
        actions (.idle host)) :
    Runs.Meets (callMachine derive deployer).step
      (callDiscipline derive deployer).Allows actions (.idle host) := by
  have implied : ∀ pool action,
      OfOneProcess derive deployer process pool →
        StartsIn process pool action →
          (callDiscipline derive deployer).Allows pool action :=
    fun pool action one starts =>
      allows_of_one_process one.secure one.siblings starts
  refine Runs.meets_of_invariant implied ?_ ?_ starts
  · intro pool action one start
    refine ⟨one.secure.step callObligations (implied pool action one start),
      ?_⟩
    intro call started
    rcases Machine.mem_started_step started with before | rfl
    · exact one.siblings call before
    · exact (start call rfl).2
  · exact ⟨poolSecure_idle trivial fun call =>
      ⟨dated_of_unused unused, unused call⟩, by simp⟩

/-- Once all calls have returned, the newest state is on disk, provided no
call wrote the configuration after a call of another process with a newer
state had read it. -/
theorem last_deploy_wins
    {host : SharedHost Store} (unused : ∀ call, host.progress call = {})
    {actions : List (Action DeployCall CallChoice (Store → Store))}
    (inOrder :
      Runs.Meets (callMachine derive deployer).step
        (callDiscipline derive deployer).Allows actions (.idle host))
    (returned : AllReturned (callRun derive deployer actions host))
    (announced : LastAnnounced (callRun derive deployer actions host)) :
    (callRun derive deployer actions host).world.Right derive
      deployer.settings := by
  have secure :
      PoolSecure (callMachine derive deployer)
        (callDiscipline derive deployer)
        (callRun derive deployer actions host) :=
    PoolSecure.run callObligations
      (poolSecure_idle trivial fun call =>
        ⟨dated_of_unused unused, unused call⟩) inOrder
  have done : ∀ call ∈ (callRun derive deployer actions host).started,
      Returned derive deployer call none
        (callRun derive deployer actions host).world := by
    intro call started
    obtain ⟨past, result, member⟩ := returned call started
    exact secure.finished member
  have calm : (callRun derive deployer actions host).world.Calm := by
    intro call
    by_cases started :
        call ∈ (callRun derive deployer actions host).started
    · obtain ⟨_, _, _, own, quiet, -⟩ := done call started rfl
      rw [own]
      exact quiet
    · have blank :
          (callRun derive deployer actions host).world.progress call =
            {} :=
        (secure.fresh call started).2
      rw [blank]
  obtain ⟨call, started, after, afterAt, newest⟩ := announced
  obtain ⟨progress, first, derived, own, -, firstAt, -, ordered, most,
    right⟩ := done call started rfl
  rw [own, firstAt] at afterAt
  obtain rfl : first = after := Option.some.inj afterAt
  exact right calm (by omega)

end Runs

/-- A host on which no deployment has happened; here the store is the
state itself. -/
def untouchedHost (state : State) (config : Option Bytes) :
    SharedHost State where
  store := state
  commits := 0
  files := ⟨config, none⟩
  holder := fun _ => none
  progress := fun _ => {}

/-- Nothing fails, and the engine is not running. -/
def withoutEngine : CallChoice := ⟨none, false, "", 0, 1⟩

abbrev DeployMove := Action DeployCall CallChoice (State → State)

def startupCall : DeployCall := ⟨1, 0, "system", "startup"⟩

def cliCall : DeployCall := ⟨2, 0, "cli", "user.disable:alice"⟩

/-- The server derives its state; then a command commits a newer state and
derives it; then the server deploys, and the command after it. -/
def followed (newer : State) : List DeployMove :=
  (.start startupCall :: List.replicate 3 (.advance 0 withoutEngine) :
      List DeployMove) ++
    ([.outside fun _ => newer, .start cliCall] : List DeployMove) ++
    (List.replicate 3 (.advance 1 withoutEngine) : List DeployMove) ++
    (List.replicate 7 (.advance 0 withoutEngine) : List DeployMove) ++
    (List.replicate 8 (.advance 1 withoutEngine) : List DeployMove)

theorem bytesOf_rendered_ne
    [Build] {settings : Settings} {older newer : State}
    {olderText newerText : String}
    (olderRendered : render older settings = .ok olderText)
    (newerRendered : render newer settings = .ok newerText)
    (different :
      (sortUsers older.users).map User.username ≠
        (sortUsers newer.users).map User.username) :
    bytesOf olderText ≠ bytesOf newerText := by
  intro same
  rw [bytesOf_injective same] at olderRendered
  exact different (usernames_of_render_eq olderRendered newerRendered)

section Followed

variable [Build] (deployer : Deployer) {older newer : State}
variable {olderText newerText : String}

theorem followed_run
    (olderValid : older.validate = none)
    (newerValid : newer.validate = none)
    (olderRendered : render older deployer.settings = .ok olderText)
    (newerRendered : render newer deployer.settings = .ok newerText)
    (different : bytesOf olderText ≠ bytesOf newerText) :
    let final := callRun id deployer (followed newer)
      (untouchedHost older none)
    AllReturned final ∧ LastAnnounced final := by
  have number : atoi (trimSpace "") = none := by decide
  simp [AllReturned, LastAnnounced, followed, List.replicate,
    Machine.step, callMachine, deployNow, deployLocked, deployDerived,
    deployState, deploy, olderRendered, newerRendered, olderValid,
    newerValid, untouchedHost, withoutEngine, startupCall, cliCall,
    SharedHost.handle, setHolder, note, SharedHost.commit, Files.read,
    Files.notExist, installConfig, writeConfig, backUp, Files.write,
    Files.install, applyConfig, enginePID, number, different, GoError.is,
    recordOutcome, recordRow, auditDeploy, markRollBack]

/-- The server writes while the command has not read, and the command
writes with the newer state. -/
theorem followed_in_order
    (olderValid : older.validate = none)
    (newerValid : newer.validate = none)
    (olderRendered : render older deployer.settings = .ok olderText)
    (newerRendered : render newer deployer.settings = .ok newerText)
    (different : bytesOf olderText ≠ bytesOf newerText) :
    Runs.Meets (callMachine id deployer).step
      (callDiscipline id deployer).Allows (followed newer)
      (.idle (untouchedHost older none)) := by
  have number : atoi (trimSpace "") = none := by decide
  have apart : cliCall ≠ startupCall := by decide
  have server : startupCall.process = 1 := rfl
  have command : cliCall.process = 2 := rfl
  simp [Runs.Meets, Discipline.allows_start_iff,
    Discipline.allows_advance_iff, Discipline.AllowsNext, InOrder,
    followed, List.replicate, Machine.step, callMachine, deployNow,
    deployLocked, deployDerived, deployState, deploy, olderRendered,
    newerRendered, olderValid, newerValid, untouchedHost, withoutEngine,
    apart, apart.symm, server, command, SharedHost.handle, setHolder,
    note, SharedHost.commit, Files.read, Files.notExist, installConfig,
    writeConfig, backUp, Files.write, Files.install, applyConfig,
    enginePID, number, different, GoError.is, recordOutcome, recordRow,
    auditDeploy, markRollBack]
  constructor
  · intro other commits stranger hasRead
    by_cases first : other = startupCall
    · exact absurd (congrArg DeployCall.process first) stranger
    · by_cases second : other = cliCall <;>
        simp [first, second, apart] at hasRead
  · intro other commits stranger hasRead
    by_cases second : other = cliCall
    · exact absurd (congrArg DeployCall.process second) stranger
    · by_cases first : other = startupCall
      · simp [first, apart.symm]
        omega
      · simp [first, second] at hasRead

end Followed

theorem sampleDeployer_settings [Build] :
    sampleDeployer.settings = sampleSettings := by
  rw [sampleDeployer]

theorem emptyState_rendered [Build] :
    render ⟨[]⟩ sampleSettings =
      .ok (renderText sampleSettings (sortUsers [])) := by
  refine (render_eq_ok_iff _ _ _).mpr ⟨⟨sampleSettings_valid,
    (State.validate_eq_none_iff _).mp rfl, ?_⟩, rfl⟩
  intro user member
  cases member

/-- The account that the command has removed is off the disk. -/
theorem followed_calls_right :
    @Right State Build.dev id
      (@Deployer.settings Build.dev (@sampleDeployer Build.dev))
      (@callRun Build.dev State id (@sampleDeployer Build.dev)
        (followed ⟨[]⟩)
        (untouchedHost (sampleState [protoHTTP, protoSOCKS5])
          none)).world := by
  let _ := Build.dev
  have olderRendered :=
    sampleState_rendered [protoHTTP, protoSOCKS5] sampleState_both_valid
  have newerRendered := emptyState_rendered
  rw [← sampleDeployer_settings] at olderRendered newerRendered
  have different :=
    bytesOf_rendered_ne olderRendered newerRendered (by decide)
  have final := followed_run sampleDeployer sampleState_both_valid rfl
    olderRendered newerRendered different
  have ordered := followed_in_order sampleDeployer sampleState_both_valid
    rfl olderRendered newerRendered different
  exact last_deploy_wins (fun _ => rfl) ordered final.1 final.2

/-- The server derives its state; then a command commits a newer state
and deploys it; then the server goes on with the older one. -/
def overtaken (newer : State) : List DeployMove :=
  (.start startupCall :: List.replicate 3 (.advance 0 withoutEngine) :
      List DeployMove) ++
    ([.outside fun _ => newer, .start cliCall] : List DeployMove) ++
    (List.replicate 10 (.advance 1 withoutEngine) : List DeployMove) ++
    (List.replicate 8 (.advance 0 withoutEngine) : List DeployMove)

theorem overtaken_run
    [Build] (deployer : Deployer) {older newer : State}
    {olderText newerText : String}
    (olderValid : older.validate = none)
    (newerValid : newer.validate = none)
    (olderRendered : render older deployer.settings = .ok olderText)
    (newerRendered : render newer deployer.settings = .ok newerText)
    (different : bytesOf olderText ≠ bytesOf newerText) :
    let final := callRun id deployer (overtaken newer)
      (untouchedHost older none)
    AllReturned final ∧ LastAnnounced final ∧
      final.world.store = newer ∧
      final.world.files.config = some (bytesOf olderText) := by
  have number : atoi (trimSpace "") = none := by decide
  simp [AllReturned, LastAnnounced, overtaken, List.replicate,
    Machine.step, callMachine, deployNow, deployLocked, deployDerived,
    deployState,
    deploy, olderRendered, newerRendered, olderValid, newerValid,
    untouchedHost, withoutEngine, startupCall, cliCall,
    SharedHost.handle, setHolder, note, SharedHost.commit, Files.read,
    Files.notExist, installConfig, writeConfig, backUp, Files.write, Files.install,
    applyConfig, enginePID, number, different.symm, GoError.is,
    recordOutcome, recordRow, auditDeploy, markRollBack]

theorem overtaken_not_right
    [Build] (deployer : Deployer) {older newer : State}
    {olderText newerText : String}
    (olderValid : older.validate = none)
    (newerValid : newer.validate = none)
    (olderRendered : render older deployer.settings = .ok olderText)
    (newerRendered : render newer deployer.settings = .ok newerText)
    (different :
      (sortUsers older.users).map User.username ≠
        (sortUsers newer.users).map User.username) :
    let final := callRun id deployer (overtaken newer)
      (untouchedHost older none)
    AllReturned final ∧ LastAnnounced final ∧
      ¬ final.world.Right id deployer.settings := by
  have texts : ∀ text, render newer deployer.settings = .ok text →
      bytesOf olderText ≠ bytesOf text := fun text rendered =>
    bytesOf_rendered_ne olderRendered rendered different
  obtain ⟨returned, announced, store, config⟩ :=
    overtaken_run deployer olderValid newerValid olderRendered
      newerRendered (texts newerText newerRendered)
  refine ⟨returned, announced, ?_⟩
  rintro ⟨text, rendered, onDisk⟩
  rw [config] at onDisk
  rw [store] at rendered
  exact texts text rendered (Option.some.inj onDisk)

/-- Every call has returned without an error, the last mutation was
deployed after its commit, and the account it removed is back on disk. -/
theorem overtaken_call_wins :
    let final := @callRun Build.dev State id (@sampleDeployer Build.dev)
      (overtaken ⟨[]⟩)
      (untouchedHost (sampleState [protoHTTP, protoSOCKS5]) none)
    AllReturned final ∧ LastAnnounced final ∧
      ¬ @Right State Build.dev id
        (@Deployer.settings Build.dev (@sampleDeployer Build.dev))
        final.world := by
  let _ := Build.dev
  have olderRendered :=
    sampleState_rendered [protoHTTP, protoSOCKS5] sampleState_both_valid
  have newerRendered := emptyState_rendered
  rw [← sampleDeployer_settings] at olderRendered newerRendered
  refine overtaken_not_right sampleDeployer sampleState_both_valid rfl
    olderRendered newerRendered ?_
  decide

end Xoxproxy
