import Xoxproxy.Library.Runs

/-!
# Programs over effects, alone and interleaved

A `Program` performs operations of a signature and continues with their
answers.  The same program is given two meanings: run alone against a
handler, and run as one thread of a pool in which the scheduler picks,
step by step, which thread performs its next operation.

`Ensures` is the proof rule for threads: each operation does what the
discipline promises, provided the other threads change the world only as
`rely` says.  Pools whose threads are all secure stay so.
-/

namespace EffectPrograms

/-- A program that performs operations of `Op`, whose answers have the
types given by `Answer`, and returns a value. -/
inductive Program (Op : Type) (Answer : Op → Type) (Value : Type) where
  | ret (value : Value)
  | call (op : Op) (next : Answer op → Program Op Answer Value)

variable {Op : Type} {Answer : Op → Type} {Value Result World : Type}

namespace Program

/-- Continue a program with its returned value. -/
def bind :
    Program Op Answer Value →
      (Value → Program Op Answer Result) → Program Op Answer Result
  | .ret value, continuation => continuation value
  | .call op next, continuation =>
      .call op fun answer => (next answer).bind continuation

/-- Perform one operation and return its answer. -/
def perform (op : Op) : Program Op Answer (Answer op) :=
  .call op .ret

instance : Monad (Program Op Answer) where
  pure := .ret
  bind := .bind

@[simp]
theorem pure_eq (value : Value) :
    (pure value : Program Op Answer Value) = .ret value := rfl

@[simp]
theorem ret_bind
    (value : Value)
    (continuation : Value → Program Op Answer Result) :
    (Program.ret value >>= continuation) = continuation value := rfl

@[simp]
theorem call_bind
    (op : Op) (next : Answer op → Program Op Answer Value)
    (continuation : Value → Program Op Answer Result) :
    (Program.call op next >>= continuation) =
      .call op fun answer => next answer >>= continuation := rfl

@[simp]
theorem perform_bind
    (op : Op)
    (continuation : Answer op → Program Op Answer Result) :
    (perform op >>= continuation) = .call op continuation := rfl

/-- Run a program alone: the handler answers each operation and updates
the world. -/
def run
    (handle : (op : Op) → World → Answer op × World) :
    Program Op Answer Value → World → Value × World
  | .ret value, world => (value, world)
  | .call op next, world =>
      (next (handle op world).1).run handle (handle op world).2

section Run

variable (handle : (op : Op) → World → Answer op × World)

@[simp]
theorem run_ret (value : Value) (world : World) :
    (Program.ret value : Program Op Answer Value).run handle world =
      (value, world) := rfl

@[simp]
theorem run_call
    (op : Op) (next : Answer op → Program Op Answer Value)
    (world : World) :
    (Program.call op next).run handle world =
      (next (handle op world).1).run handle (handle op world).2 := rfl

@[simp]
theorem run_perform (op : Op) (world : World) :
    (perform op : Program Op Answer (Answer op)).run handle world =
      handle op world := rfl

/-- Running a sequence runs its parts one after the other. -/
theorem run_bind
    (program : Program Op Answer Value)
    (continuation : Value → Program Op Answer Result)
    (world : World) :
    (program >>= continuation).run handle world =
      (continuation (program.run handle world).1).run handle
        (program.run handle world).2 := by
  induction program generalizing world with
  | ret value => rfl
  | call op next inductionHypothesis =>
      simpa using
        inductionHypothesis (handle op world).1 (handle op world).2

end Run

end Program

/-- Every operation that the program may perform has the property. -/
def Program.All (property : Op → Prop) :
    Program Op Answer Value → Prop
  | .ret _ => True
  | .call op next => property op ∧ ∀ answer, (next answer).All property

namespace Program

variable {property : Op → Prop}

theorem all_ret (value : Value) :
    (Program.ret value : Program Op Answer Value).All property :=
  trivial

theorem all_perform {op : Op} (holds : property op) :
    (perform op : Program Op Answer (Answer op)).All property :=
  ⟨holds, fun _ => trivial⟩

theorem all_bind
    {program : Program Op Answer Value}
    {continuation : Value → Program Op Answer Result}
    (first : program.All property)
    (second : ∀ value, (continuation value).All property) :
    (program >>= continuation).All property := by
  induction program with
  | ret value => exact second value
  | call op next induction =>
      exact ⟨first.1, fun answer => induction answer (first.2 answer)⟩

/-- Whatever the answers are, the program ends as `post` says. -/
def Yields (post : Value → Prop) : Program Op Answer Value → Prop
  | .ret value => post value
  | .call _ next => ∀ answer, (next answer).Yields post

theorem yields_of_forall {post : Value → Prop} (all : ∀ value, post value)
    (program : Program Op Answer Value) : program.Yields post := by
  induction program with
  | ret value => exact all value
  | call op next induction => exact induction

/-- A sequence ends as its second part does. -/
theorem yields_bind
    {post : Result → Prop} {program : Program Op Answer Value}
    {continuation : Value → Program Op Answer Result}
    (second : ∀ value, (continuation value).Yields post) :
    (program >>= continuation).Yields post := by
  induction program with
  | ret value => exact second value
  | call op next induction => exact induction

end Program

/-! ## Pools of interleaved threads -/

variable {Label Choice Outside : Type}

/-- One operation together with the answer it received. -/
structure Event (Op : Type) (Answer : Op → Type) where
  op : Op
  answer : Answer op

/-- A thread: what it was started as, what it has done, and what is left
of its program. -/
structure Thread
    (Op : Type) (Answer : Op → Type) (Value Label : Type) where
  label : Label
  past : List (Event Op Answer)
  rest : Program Op Answer Value

/-- The thread, by its label, and the operation it performs next. -/
def Thread.upcoming :
    Thread Op Answer Value Label → Option (Label × Op)
  | ⟨_, _, .ret _⟩ => none
  | ⟨label, _, .call op _⟩ => some (label, op)

/-- What the thread has returned. -/
def Thread.result : Thread Op Answer Value Label → Option Value
  | ⟨_, _, .ret value⟩ => some value
  | ⟨_, _, .call _ _⟩ => none

/-- Threads that share a world, and the labels of all threads that were
ever started. -/
structure Pool
    (Op : Type) (Answer : Op → Type) (Value Label World : Type) where
  world : World
  threads : List (Thread Op Answer Value Label)
  started : List Label

/-- A world in which nothing was started yet. -/
def Pool.idle (world : World) : Pool Op Answer Value Label World :=
  ⟨world, [], []⟩

@[simp]
theorem Pool.idle_world (world : World) :
    (idle world : Pool Op Answer Value Label World).world = world := rfl

@[simp]
theorem Pool.idle_threads (world : World) :
    (idle world : Pool Op Answer Value Label World).threads = [] := rfl

@[simp]
theorem Pool.idle_started (world : World) :
    (idle world : Pool Op Answer Value Label World).started = [] := rfl

/-- The scheduler's moves: start a thread, let a thread perform its next
operation, cut a thread off, or let the surroundings change the world. -/
inductive Action (Label Choice Outside : Type) where
  | start (label : Label)
  | advance (index : Nat) (choice : Choice)
  | cut (index : Nat)
  | outside (event : Outside)

/-- The meaning of the operations and of the surroundings.  A handler that
gives `none` blocks the thread: the operation is not performed. -/
structure Machine
    (Op : Type) (Answer : Op → Type)
    (Value Label World Choice Outside : Type) where
  program : Label → Program Op Answer Value
  handle :
    Label → (op : Op) → Choice → World → Option (Answer op × World)
  react : Outside → World → World

namespace Machine

variable (machine :
  Machine Op Answer Value Label World Choice Outside)

/-- One move of the scheduler. -/
def step :
    Action Label Choice Outside →
      Pool Op Answer Value Label World →
      Pool Op Answer Value Label World
  | .start label, pool =>
      { pool with
        threads := pool.threads ++ [⟨label, [], machine.program label⟩]
        started := pool.started ++ [label] }
  | .advance index choice, pool =>
      match pool.threads[index]? with
      | some ⟨label, past, .call op next⟩ =>
          match machine.handle label op choice pool.world with
          | some (answer, world) =>
              { pool with
                world := world
                threads := pool.threads.set index
                  ⟨label, past ++ [⟨op, answer⟩], next answer⟩ }
          | none => pool
      | _ => pool
  | .cut index, pool =>
      { pool with threads := pool.threads.eraseIdx index }
  | .outside event, pool =>
      { pool with world := machine.react event pool.world }

/-- The pool's thread at `index` performs `op` with the given choice,
receives `answer` and leaves the world `after`. -/
structure Performs
    (pool : Pool Op Answer Value Label World)
    (index : Nat) (choice : Choice)
    (label : Label) (past : List (Event Op Answer))
    (op : Op) (next : Answer op → Program Op Answer Value)
    (answer : Answer op) (after : World) : Prop where
  thread : pool.threads[index]? = some ⟨label, past, .call op next⟩
  handled :
    machine.handle label op choice pool.world = some (answer, after)

variable {machine}

theorem step_of_performs
    {pool : Pool Op Answer Value Label World}
    {index : Nat} {choice : Choice}
    {label : Label} {past : List (Event Op Answer)}
    {op : Op} {next : Answer op → Program Op Answer Value}
    {answer : Answer op} {after : World}
    (performs :
      machine.Performs pool index choice label past op next answer after) :
    machine.step (.advance index choice) pool =
      { pool with
        world := after
        threads := pool.threads.set index
          ⟨label, past ++ [⟨op, answer⟩], next answer⟩ } := by
  simp only [step, performs.thread, performs.handled]

/-- A thread whose next operation is known and answered performs it. -/
theorem performs_of_upcoming
    {pool : Pool Op Answer Value Label World}
    {index : Nat} {choice : Choice} {label : Label} {op : Op}
    {answer : Answer op} {after : World}
    (upcoming :
      pool.threads[index]?.bind Thread.upcoming = some (label, op))
    (handled :
      machine.handle label op choice pool.world = some (answer, after)) :
    ∃ past next,
      machine.Performs pool index choice label past op next answer
        after := by
  obtain ⟨thread, found, shape⟩ := Option.bind_eq_some_iff.mp upcoming
  obtain ⟨other, past, rest⟩ := thread
  cases rest with
  | ret value => cases shape
  | call performed next =>
      obtain ⟨rfl, rfl⟩ := Prod.mk.inj (Option.some.inj shape)
      exact ⟨past, next, found, handled⟩
/-- An `advance` either performs an operation or changes nothing. -/
theorem advance_cases
    (pool : Pool Op Answer Value Label World)
    (index : Nat) (choice : Choice) :
    (∃ label past op next answer after,
      machine.Performs pool index choice label past op next answer
        after) ∨
      machine.step (.advance index choice) pool = pool := by
  rcases found : pool.threads[index]? with _ | ⟨label, past, rest⟩
  · exact Or.inr (by simp only [step, found])
  cases rest with
  | ret value => exact Or.inr (by simp only [step, found])
  | call op next =>
      rcases handled : machine.handle label op choice pool.world with
        _ | ⟨answer, after⟩
      · exact Or.inr (by simp only [step, found, handled])
      · exact Or.inl
          ⟨label, past, op, next, answer, after, found, handled⟩

/-- Only a start adds to the labels that were started. -/
theorem mem_started_step
    {action : Action Label Choice Outside}
    {pool : Pool Op Answer Value Label World} {label : Label}
    (started : label ∈ (machine.step action pool).started) :
    label ∈ pool.started ∨ action = .start label := by
  cases action with
  | start other =>
      rcases List.mem_append.mp started with before | new
      · exact Or.inl before
      · exact Or.inr (congrArg _ (List.mem_singleton.mp new).symm)
  | advance index choice =>
      rcases machine.advance_cases pool index choice with
        ⟨_, _, _, _, _, _, performs⟩ | same
      · rw [step_of_performs performs] at started
        exact Or.inl started
      · rw [same] at started
        exact Or.inl started
  | cut index => exact Or.inl started
  | outside event => exact Or.inl started

/-- What every operation and the surroundings preserve, every run
preserves. -/
theorem run_preserves
    {invariant : World → Prop}
    (performed :
      ∀ label op choice world answer after,
        invariant world →
          machine.handle label op choice world = some (answer, after) →
            invariant after)
    (reacted :
      ∀ event world, invariant world →
        invariant (machine.react event world))
    (actions : List (Action Label Choice Outside))
    {pool : Pool Op Answer Value Label World}
    (initial : invariant pool.world) :
    invariant (Runs.run machine.step actions pool).world := by
  have stepped : ∀ (pool : Pool Op Answer Value Label World) action,
      invariant pool.world → invariant (machine.step action pool).world := by
    intro pool action holds
    cases action with
    | start label => exact holds
    | cut index => exact holds
    | outside event => exact reacted event pool.world holds
    | advance index choice =>
        rcases machine.advance_cases pool index choice with
          ⟨label, past, op, next, answer, after, performs⟩ | same
        · rw [step_of_performs performs]
          exact performed label op choice pool.world answer after holds
            performs.handled
        · rw [same]
          exact holds
  exact @Runs.invariant_of_run _ _ machine.step
    (fun pool => invariant pool.world) stepped actions pool initial

/-- Every thread of a pool ends as its program does. -/
def AllYield (post : Label → Value → Prop)
    (pool : Pool Op Answer Value Label World) : Prop :=
  ∀ thread ∈ pool.threads, thread.rest.Yields (post thread.label)

theorem allYield_step {post : Label → Value → Prop}
    (programs : ∀ label, (machine.program label).Yields (post label))
    (pool : Pool Op Answer Value Label World)
    (action : Action Label Choice Outside) (all : AllYield post pool) :
    AllYield post (machine.step action pool) := by
  intro thread member
  cases action with
  | start label =>
      rcases List.mem_append.mp member with old | new
      · exact all thread old
      · rw [List.mem_singleton.mp new]
        exact programs label
  | cut index => exact all thread (List.mem_of_mem_eraseIdx member)
  | outside event => exact all thread member
  | advance index choice =>
      rcases machine.advance_cases pool index choice with
        ⟨label, past, op, next, answer, after, performs⟩ | same
      · rw [step_of_performs performs] at member
        rcases List.mem_or_eq_of_mem_set member with old | rfl
        · exact all thread old
        · exact all _ (List.mem_of_getElem? performs.thread) answer
      · rw [same] at member
        exact all thread member

/-- In every run, every thread ends as its program does. -/
theorem allYield_run {post : Label → Value → Prop}
    (programs : ∀ label, (machine.program label).Yields (post label))
    (actions : List (Action Label Choice Outside)) (world : World) :
    AllYield post (Runs.run machine.step actions (.idle world)) := by
  apply Runs.invariant_of_run (allYield_step programs)
  exact fun _ none => by cases none

/-- Number the starts of a list of moves. -/
def numbered {Request : Type} (label : Nat → Request → Label) :
    Nat → List (Action Request Choice Outside) →
      List (Action Label Choice Outside)
  | _, [] => []
  | number, .start request :: rest =>
      .start (label number request) :: numbered label (number + 1) rest
  | number, .advance index choice :: rest =>
      .advance index choice :: numbered label number rest
  | number, .cut index :: rest =>
      .cut index :: numbered label number rest
  | number, .outside event :: rest =>
      .outside event :: numbered label number rest

/-- How many threads the moves start. -/
def starts {Request : Type} : List (Action Request Choice Outside) → Nat
  | [] => 0
  | .start _ :: rest => starts rest + 1
  | .advance _ _ :: rest => starts rest
  | .cut _ :: rest => starts rest
  | .outside _ :: rest => starts rest

theorem numbered_append
    {Request : Type} (label : Nat → Request → Label) (number : Nat)
    (first second : List (Action Request Choice Outside)) :
    numbered label number (first ++ second) =
      numbered label number first ++
        numbered label (number + starts first) second := by
  induction first generalizing number with
  | nil => rfl
  | cons action rest induction =>
      cases action with
      | start request =>
          rw [List.cons_append, numbered, numbered, induction, starts,
            List.cons_append, Nat.add_right_comm, Nat.add_assoc]
      | advance index choice | cut index | outside event =>
          rw [List.cons_append, numbered, numbered, induction, starts,
            List.cons_append]

/-- Numbering the starts cuts no thread off. -/
theorem cut_mem_of_numbered
    {Request : Type} {label : Nat → Request → Label} {index : Nat}
    {actions : List (Action Request Choice Outside)} {number : Nat}
    (member : .cut index ∈ numbered label number actions) :
    .cut index ∈ actions := by
  induction actions generalizing number with
  | nil => cases member
  | cons action rest induction =>
      cases action with
      | cut other =>
          rcases List.mem_cons.mp member with same | later
          · rw [Action.cut.inj same]
            exact List.mem_cons_self
          · exact List.mem_cons_of_mem _ (induction later)
      | start request | advance other choice | outside event =>
          rcases List.mem_cons.mp member with same | later
          · cases same
          · exact List.mem_cons_of_mem _ (induction later)

/-- Numbered starts are fresh. -/
theorem meets_numbered
    {Request : Type} {label : Nat → Request → Label}
    {numberOf : Label → Nat}
    (labelled : ∀ number request, numberOf (label number request) = number)
    (actions : List (Action Request Choice Outside))
    {number : Nat} {pool : Pool Op Answer Value Label World}
    (below : ∀ label ∈ pool.started, numberOf label < number) :
    Runs.Meets machine.step
      (fun pool action =>
        ∀ label, action = .start label → label ∉ pool.started)
      (numbered label number actions) pool := by
  induction actions generalizing number pool with
  | nil => exact trivial
  | cons action rest induction =>
      cases action with
      | start request =>
          refine ⟨?_, induction ?_⟩
          · intro other same started
            have bound := below other started
            have equal := Action.start.inj same
            rw [← equal, labelled] at bound
            omega
          · intro other started
            rcases mem_started_step started with before | new
            · have bound := below other before
              omega
            · have equal := Action.start.inj new
              rw [← equal, labelled]
              omega
      | advance index choice =>
          refine ⟨fun _ impossible => (by cases impossible), induction ?_⟩
          intro other started
          rcases mem_started_step started with before | new
          · exact below other before
          · cases new
      | cut index =>
          refine ⟨fun _ impossible => (by cases impossible), induction ?_⟩
          intro other started
          exact below other started
      | outside event =>
          refine ⟨fun _ impossible => (by cases impossible), induction ?_⟩
          intro other started
          exact below other started

end Machine

/-- The thread has no operation left. -/
def Thread.returned : Thread Op Answer Value Label → Bool
  | ⟨_, _, .ret _⟩ => true
  | ⟨_, _, .call _ _⟩ => false

/-- The same moves where programs run one after the other: a start waits
until the thread before it has returned, and takes its place. -/
def Machine.soloStep
    (machine : Machine Op Answer Value Label World Choice Outside) :
    Action Label Choice Outside →
      Pool Op Answer Value Label World →
      Pool Op Answer Value Label World
  | .start label, pool =>
      if pool.threads.all Thread.returned then
        { pool with
          threads := [⟨label, [], machine.program label⟩]
          started := pool.started ++ [label] }
      else pool
  | action, pool => machine.step action pool

/-! ## Thread-modular reasoning -/

/-- The promises that a group of threads makes and relies on.

* `invariant` holds of the world at every step;
* `rely label` is a preorder that contains every change which the thread
  `label` must tolerate;
* `fresh label` holds as long as no thread carries the label;
* `guarantee label` contains every change which that thread makes;
* `condition` restricts the runs that are considered;
* `promise` is what is shown of every operation performed;
* `finished` is what is shown when a thread returns. -/
structure Discipline
    (Op : Type) (Answer : Op → Type)
    (Value Label World Choice : Type) where
  invariant : World → Prop
  rely : Label → World → World → Prop
  rely_refl : ∀ label world, rely label world world
  rely_trans :
    ∀ {label first second third},
      rely label first second → rely label second third →
        rely label first third
  fresh : Label → World → Prop
  fresh_rely :
    ∀ {label before after},
      fresh label before → rely label before after → fresh label after
  guarantee : Label → World → World → Prop
  condition :
    Label → List (Event Op Answer) → Op → Choice → World → Prop
  promise :
    Label → List (Event Op Answer) → Op → Choice → World → Prop
  finished : Label → List (Event Op Answer) → Value → World → Prop

section Secure

variable (machine :
  Machine Op Answer Value Label World Choice Outside)
variable (discipline :
  Discipline Op Answer Value Label World Choice)

/-- The rest of a thread keeps the discipline from `world` on, whatever
the other threads do in between, and ends as `post` says. -/
def Ensures
    (label : Label) (post : List (Event Op Answer) → Result → World → Prop) :
    Program Op Answer Result → List (Event Op Answer) → World → Prop
  | .ret value, past, world =>
      ∀ now, discipline.rely label world now →
        discipline.invariant now → post past value now
  | .call op next, past, world =>
      ∀ now, discipline.rely label world now →
        discipline.invariant now →
        ∀ choice, discipline.condition label past op choice now →
          ∀ answer after,
            machine.handle label op choice now = some (answer, after) →
              discipline.promise label past op choice now ∧
                discipline.guarantee label now after ∧
                discipline.invariant after ∧
                Ensures label post (next answer)
                  (past ++ [⟨op, answer⟩]) after

/-- A thread that keeps the discipline to its end. -/
abbrev Secure (label : Label) :
    Program Op Answer Value → List (Event Op Answer) → World → Prop :=
  Ensures machine discipline label (discipline.finished label)

variable {machine discipline}

section Rules

variable {label : Label} {past : List (Event Op Answer)} {world : World}
variable {post : List (Event Op Answer) → Result → World → Prop}

/-- What is ensured survives what the others do. -/
theorem Ensures.rely
    {rest : Program Op Answer Result} {now : World}
    (ensures : Ensures machine discipline label post rest past world)
    (changed : discipline.rely label world now) :
    Ensures machine discipline label post rest past now := by
  cases rest with
  | ret value =>
      intro later laterChange
      exact ensures later (discipline.rely_trans changed laterChange)
  | call op next =>
      intro later laterChange
      exact ensures later (discipline.rely_trans changed laterChange)

/-- An assertion that the others cannot break stands in front of a
call. -/
theorem ensures_call
    {op : Op} {next : Answer op → Program Op Answer Result}
    (assertion : World → Prop)
    (stable :
      ∀ before now,
        assertion before → discipline.rely label before now →
          assertion now)
    (holds : assertion world)
    (perform :
      ∀ now choice answer after,
        assertion now → discipline.invariant now →
        discipline.condition label past op choice now →
        machine.handle label op choice now = some (answer, after) →
          discipline.promise label past op choice now ∧
            discipline.guarantee label now after ∧
            discipline.invariant after ∧
            Ensures machine discipline label post (next answer)
              (past ++ [⟨op, answer⟩]) after) :
    Ensures machine discipline label post (.call op next) past world := by
  intro now changed invariant choice allowed answer after handled
  exact perform now choice answer after
    (stable world now holds changed) invariant allowed handled

/-- An assertion that the others cannot break stands at the return. -/
theorem ensures_ret
    {value : Result}
    (assertion : World → Prop)
    (stable :
      ∀ before now,
        assertion before → discipline.rely label before now →
          assertion now)
    (holds : assertion world)
    (finish :
      ∀ now, assertion now → discipline.invariant now →
        post past value now) :
    Ensures machine discipline label post (.ret value) past world := by
  intro now changed invariant
  exact finish now (stable world now holds changed) invariant

/-- A sequence ensures what its second part ensures from every end of its
first part. -/
theorem ensures_bind
    {Middle : Type} {program : Program Op Answer Middle}
    {continuation : Middle → Program Op Answer Result}
    {between : List (Event Op Answer) → Middle → World → Prop}
    (invariant : discipline.invariant world)
    (first :
      Ensures machine discipline label between program past world)
    (second :
      ∀ later value now, discipline.invariant now →
        between later value now →
          Ensures machine discipline label post (continuation value)
            later now) :
    Ensures machine discipline label post (program >>= continuation)
      past world := by
  induction program generalizing past world with
  | ret value =>
      exact second past value world invariant
        (first world (discipline.rely_refl label world) invariant)
  | call op next inductionHypothesis =>
      intro now changed held choice allowed answer after handled
      obtain ⟨promised, guaranteed, kept, rest⟩ :=
        first now changed held choice allowed answer after handled
      exact ⟨promised, guaranteed, kept,
        inductionHypothesis answer kept rest⟩

/-- A program all of whose operations keep an assertion, and what the
discipline asks, keeps it to its end. -/
theorem ensures_all
    {property : Op → Prop}
    (assertion : List (Event Op Answer) → World → Prop)
    (stable :
      ∀ past before now,
        assertion past before → discipline.rely label before now →
          assertion past now)
    (operations :
      ∀ op, property op → ∀ past now choice answer after,
        assertion past now → discipline.invariant now →
        discipline.condition label past op choice now →
        machine.handle label op choice now = some (answer, after) →
          discipline.promise label past op choice now ∧
            discipline.guarantee label now after ∧
            discipline.invariant after ∧
            assertion (past ++ [⟨op, answer⟩]) after)
    {program : Program Op Answer Result} (all : program.All property)
    (holds : assertion past world)
    (finish :
      ∀ past value now,
        assertion past now → discipline.invariant now →
          post past value now) :
    Ensures machine discipline label post program past world := by
  induction program generalizing past world with
  | ret value =>
      exact ensures_ret (assertion past) (stable past) holds
        fun now held invariant => finish past value now held invariant
  | call op next induction =>
      refine ensures_call (assertion past) (stable past) holds ?_
      intro now choice answer after held invariant allowed handled
      obtain ⟨promised, guaranteed, kept, still⟩ :=
        operations op all.1 past now choice answer after held invariant
          allowed handled
      exact ⟨promised, guaranteed, kept,
        induction answer (all.2 answer) still⟩

/-- Where every operation does what the discipline asks, a program keeps
what the others cannot break, and ends as it does alone. -/
theorem ensures_yields
    {ends : Result → Prop}
    (assertion : World → Prop)
    (stable :
      ∀ before now,
        assertion before → discipline.rely label before now →
          assertion now)
    (operations :
      ∀ op past now choice answer after,
        assertion now → discipline.invariant now →
        discipline.condition label past op choice now →
        machine.handle label op choice now = some (answer, after) →
          discipline.promise label past op choice now ∧
            discipline.guarantee label now after ∧
            discipline.invariant after ∧ assertion after)
    {program : Program Op Answer Result} (yields : program.Yields ends)
    (holds : assertion world)
    (finish :
      ∀ past value now,
        assertion now → discipline.invariant now → ends value →
          post past value now) :
    Ensures machine discipline label post program past world := by
  induction program generalizing past world with
  | ret value =>
      exact ensures_ret assertion stable holds fun now held invariant =>
        finish past value now held invariant yields
  | call op next induction =>
      refine ensures_call assertion stable holds ?_
      intro now choice answer after held invariant allowed handled
      obtain ⟨promised, guaranteed, kept, still⟩ :=
        operations op past now choice answer after held invariant allowed
          handled
      exact ⟨promised, guaranteed, kept,
        induction answer (yields answer) still⟩

/-- The same rules for the operations, with other expectations of starts
and returns. -/
def Discipline.expecting
    (discipline : Discipline Op Answer Value Label World Choice)
    (fresh : Label → World → Prop)
    (fresh_rely :
      ∀ {label before after},
        fresh label before → discipline.rely label before after →
          fresh label after)
    (finished : Label → List (Event Op Answer) → Value → World → Prop) :
    Discipline Op Answer Value Label World Choice :=
  { discipline with
    fresh := fresh
    fresh_rely := fresh_rely
    finished := finished }

theorem Ensures.expecting
    {fresh : Label → World → Prop}
    {fresh_rely :
      ∀ {label before after},
        fresh label before → discipline.rely label before after →
          fresh label after}
    {finished : Label → List (Event Op Answer) → Value → World → Prop}
    {weaker : List (Event Op Answer) → Result → World → Prop}
    {rest : Program Op Answer Result}
    (ensures : Ensures machine discipline label post rest past world)
    (ends : ∀ past value now, post past value now → weaker past value now) :
    Ensures machine (discipline.expecting fresh fresh_rely finished) label
      weaker rest past world := by
  induction rest generalizing past world with
  | ret value =>
      intro now changed invariant
      exact ends past value now (ensures now changed invariant)
  | call op next induction =>
      intro now changed invariant choice allowed answer after handled
      obtain ⟨promised, guaranteed, kept, still⟩ :=
        ensures now changed invariant choice allowed answer after handled
      exact ⟨promised, guaranteed, kept, induction answer still⟩

end Rules

/-- All threads of the pool are secure, no two carry the same label, the
labels that were not started are fresh, and the world is as promised. -/
structure PoolSecure
    (machine : Machine Op Answer Value Label World Choice Outside)
    (discipline : Discipline Op Answer Value Label World Choice)
    (pool : Pool Op Answer Value Label World) : Prop where
  invariant : discipline.invariant pool.world
  labels : (pool.threads.map Thread.label).Nodup
  started :
    ∀ thread ∈ pool.threads, thread.label ∈ pool.started
  fresh :
    ∀ label, label ∉ pool.started → discipline.fresh label pool.world
  threads :
    ∀ thread ∈ pool.threads,
      Secure machine discipline thread.label thread.rest thread.past
        pool.world

/-- From some point of a run on, more may be expected of the threads that
are not started yet. -/
theorem PoolSecure.expecting
    {pool : Pool Op Answer Value Label World}
    (secure : PoolSecure machine discipline pool)
    {fresh : Label → World → Prop}
    {finished : Label → List (Event Op Answer) → Value → World → Prop}
    (fresh_rely :
      ∀ {label before after},
        fresh label before → discipline.rely label before after →
          fresh label after)
    (starts : ∀ label, label ∉ pool.started → fresh label pool.world)
    (returns :
      ∀ label ∈ pool.started, ∀ past value now,
        discipline.finished label past value now →
          finished label past value now) :
    PoolSecure machine (discipline.expecting fresh fresh_rely finished)
      pool where
  invariant := secure.invariant
  labels := secure.labels
  started := secure.started
  fresh := starts
  threads := fun thread member =>
    (secure.threads thread member).expecting
      (returns thread.label (secure.started thread member))

/-- The condition of a discipline, read as a condition on moves: labels
are fresh, and the operation performed next is allowed. -/
def Discipline.Allows
    (discipline : Discipline Op Answer Value Label World Choice)
    (pool : Pool Op Answer Value Label World) :
    Action Label Choice Outside → Prop
  | .start label => label ∉ pool.started
  | .advance index choice =>
      ∀ label past op next,
        pool.threads[index]? = some ⟨label, past, .call op next⟩ →
          discipline.condition label past op choice pool.world
  | _ => True

/-- The condition of a discipline on what a thread does next. -/
def Discipline.AllowsNext
    (discipline : Discipline Op Answer Value Label World Choice)
    (choice : Choice) (world : World) :
    Thread Op Answer Value Label → Prop
  | ⟨label, past, .call op _⟩ =>
      discipline.condition label past op choice world
  | ⟨_, _, .ret _⟩ => True

section Allowing

variable {discipline : Discipline Op Answer Value Label World Choice}
variable {pool : Pool Op Answer Value Label World}

theorem Discipline.allows_start_iff {label : Label} :
    discipline.Allows pool
        (.start label : Action Label Choice Outside) ↔
      label ∉ pool.started := Iff.rfl

@[simp]
theorem Discipline.allows_outside (event : Outside) :
    discipline.Allows pool
      (.outside event : Action Label Choice Outside) := trivial

theorem Discipline.allows_advance_iff {index : Nat} {choice : Choice} :
    discipline.Allows pool
        (.advance index choice : Action Label Choice Outside) ↔
      ∀ thread ∈ pool.threads[index]?,
        discipline.AllowsNext choice pool.world thread := by
  constructor
  · intro allowed thread found
    obtain ⟨label, past, rest⟩ := thread
    cases rest with
    | ret value => exact trivial
    | call op next => exact allowed label past op next found
  · intro allowed label past op next found
    exact allowed _ found

end Allowing

/-- What a secure pool says about the operation performed next. -/
theorem PoolSecure.performs
    {pool : Pool Op Answer Value Label World}
    {index : Nat} {choice : Choice}
    {label : Label} {past : List (Event Op Answer)}
    {op : Op} {next : Answer op → Program Op Answer Value}
    {answer : Answer op} {after : World}
    (secure : PoolSecure machine discipline pool)
    (allowed :
      discipline.Allows pool
        (Action.advance index choice : Action Label Choice Outside))
    (performs :
      machine.Performs pool index choice label past op next answer
        after) :
    discipline.promise label past op choice pool.world ∧
      discipline.guarantee label pool.world after ∧
      discipline.invariant after ∧
      Secure machine discipline label (next answer)
        (past ++ [⟨op, answer⟩]) after :=
  secure.threads _ (List.mem_of_getElem? performs.thread)
    pool.world (discipline.rely_refl label pool.world) secure.invariant
    choice (allowed label past op next performs.thread)
    answer after performs.handled

/-- What must be checked once for a machine and a discipline. -/
structure Obligations
    (machine : Machine Op Answer Value Label World Choice Outside)
    (discipline : Discipline Op Answer Value Label World Choice) :
    Prop where
  start :
    ∀ label world, discipline.invariant world →
      discipline.fresh label world →
        Secure machine discipline label (machine.program label) [] world
  compatible :
    ∀ label other before after, label ≠ other →
      discipline.guarantee other before after →
        discipline.rely label before after
  outside :
    ∀ event world, discipline.invariant world →
      (∀ label,
        discipline.rely label world (machine.react event world)) ∧
        discipline.invariant (machine.react event world)

/-- In a pool with distinct labels, threads at two places carry two
labels. -/
theorem label_ne_of_index_ne
    {threads : List (Thread Op Answer Value Label)}
    (labels : (threads.map Thread.label).Nodup)
    {index other : Nat} {first second : Thread Op Answer Value Label}
    (firstAt : threads[index]? = some first)
    (secondAt : threads[other]? = some second)
    (apart : index ≠ other) : first.label ≠ second.label := by
  intro same
  have bound : index < (threads.map Thread.label).length := by
    simpa using (List.getElem?_eq_some_iff.mp firstAt).1
  have equal :
      (threads.map Thread.label)[index]? =
        (threads.map Thread.label)[other]? := by
    simp only [List.getElem?_map, firstAt, secondAt, Option.map_some,
      same]
  exact apart ((List.getElem?_inj bound labels).mp equal)

/-- Advancing a thread keeps the labels of the pool. -/
theorem map_label_set
    {threads : List (Thread Op Answer Value Label)}
    {index : Nat} {thread : Thread Op Answer Value Label}
    (found : threads[index]? = some thread)
    (moved : Thread Op Answer Value Label)
    (same : moved.label = thread.label) :
    (threads.set index moved).map Thread.label =
      threads.map Thread.label := by
  obtain ⟨bound, value⟩ := List.getElem?_eq_some_iff.mp found
  rw [List.map_set, same, ← value]
  apply List.ext_getElem?
  intro other
  by_cases here : index = other
  · subst here
    simp [bound]
  · simp [here]

/-- Every allowed move keeps a pool secure. -/
theorem PoolSecure.step
    (obligations : Obligations machine discipline)
    {pool : Pool Op Answer Value Label World}
    (secure : PoolSecure machine discipline pool)
    {action : Action Label Choice Outside}
    (allowed : discipline.Allows pool action) :
    PoolSecure machine discipline (machine.step action pool) := by
  cases action with
  | start label =>
      have unused : label ∉ pool.started := allowed
      refine ⟨secure.invariant, ?_, ?_, ?_, ?_⟩
      · have distinct : ∀ thread ∈ pool.threads,
            thread.label ≠ label := by
          intro thread member same
          exact unused (same ▸ secure.started thread member)
        simpa [Machine.step, List.nodup_append] using
          And.intro secure.labels distinct
      · intro thread member
        rcases List.mem_append.mp member with old | new
        · exact List.mem_append_left _ (secure.started thread old)
        · rw [List.mem_singleton.mp new]
          exact List.mem_append_right _ (List.mem_singleton_self label)
      · intro other absent
        exact secure.fresh other fun listed =>
          absent (List.mem_append_left _ listed)
      · intro thread member
        rcases List.mem_append.mp member with old | new
        · exact secure.threads thread old
        · rw [List.mem_singleton.mp new]
          exact obligations.start label pool.world secure.invariant
            (secure.fresh label unused)
  | advance index choice =>
      rcases machine.advance_cases pool index choice with
        ⟨label, past, op, next, answer, after, performs⟩ | same
      · obtain ⟨-, guaranteed, invariant, rest⟩ :=
          secure.performs allowed performs
        have labels := map_label_set performs.thread
          ⟨label, past ++ [⟨op, answer⟩], next answer⟩ rfl
        have begun : label ∈ pool.started :=
          secure.started _ (List.mem_of_getElem? performs.thread)
        rw [Machine.step_of_performs performs]
        refine ⟨invariant, labels.symm ▸ secure.labels, ?_, ?_, ?_⟩
        · intro thread member
          have listed := List.mem_map_of_mem (f := Thread.label) member
          rw [labels] at listed
          obtain ⟨old, oldMember, same⟩ := List.mem_map.mp listed
          exact same ▸ secure.started old oldMember
        · intro other absent
          have different : other ≠ label := fun same =>
            absent (same ▸ begun)
          exact discipline.fresh_rely (secure.fresh other absent)
            (obligations.compatible _ _ _ _ different guaranteed)
        · intro thread member
          obtain ⟨other, found⟩ := List.mem_iff_getElem?.mp member
          by_cases apart : index = other
          · subst apart
            have bound := (List.getElem?_eq_some_iff.mp performs.thread).1
            rw [List.getElem?_set_self bound] at found
            cases found
            exact rest
          · rw [List.getElem?_set_ne apart] at found
            have different : thread.label ≠ label :=
              label_ne_of_index_ne secure.labels found performs.thread
                (Ne.symm apart)
            exact
              (secure.threads thread (List.mem_of_getElem? found)).rely
                (obligations.compatible _ _ _ _ different guaranteed)
      · rw [same]
        exact secure
  | cut index =>
      refine ⟨secure.invariant, ?_, ?_, secure.fresh, ?_⟩
      · exact secure.labels.sublist
          ((List.eraseIdx_sublist _ _).map _)
      · intro thread member
        exact secure.started thread (List.mem_of_mem_eraseIdx member)
      · intro thread member
        exact secure.threads thread (List.mem_of_mem_eraseIdx member)
  | outside event =>
      obtain ⟨changed, invariant⟩ :=
        obligations.outside event pool.world secure.invariant
      exact ⟨invariant, secure.labels, secure.started,
        fun label absent =>
          discipline.fresh_rely (secure.fresh label absent)
            (changed label),
        fun thread member =>
          (secure.threads thread member).rely (changed thread.label)⟩

/-- Where no thread is cut off, every thread that was started is there. -/
theorem Machine.labels_eq_started
    {actions : List (Action Label Choice Outside)}
    (uncut : ∀ action ∈ actions, ∀ index, action ≠ .cut index)
    {pool : Pool Op Answer Value Label World}
    (present : pool.threads.map Thread.label = pool.started) :
    (Runs.run machine.step actions pool).threads.map Thread.label =
      (Runs.run machine.step actions pool).started := by
  induction actions generalizing pool with
  | nil => exact present
  | cons action rest induction =>
      apply induction fun other member =>
        uncut other (List.mem_cons_of_mem action member)
      cases action with
      | start label => simp [Machine.step, present]
      | cut index =>
          exact absurd rfl (uncut (.cut index) List.mem_cons_self index)
      | outside event => exact present
      | advance index choice =>
          rcases machine.advance_cases pool index choice with
            ⟨label, past, op, next, answer, after, performs⟩ | same
          · rw [Machine.step_of_performs performs]
            have moved := map_label_set performs.thread
              ⟨label, past ++ [⟨op, answer⟩], next answer⟩ rfl
            exact moved.trans present
          · rw [same]
            exact present

/-- Every allowed run keeps a pool secure. -/
theorem PoolSecure.run
    (obligations : Obligations machine discipline)
    {pool : Pool Op Answer Value Label World}
    (secure : PoolSecure machine discipline pool)
    {actions : List (Action Label Choice Outside)}
    (allowed :
      Runs.Meets machine.step discipline.Allows actions pool) :
    PoolSecure machine discipline
      (Runs.run machine.step actions pool) :=
  Runs.invariant_of_meets
    (fun _ _ held permitted => held.step obligations permitted)
    secure allowed

/-- Where every operation is allowed, only starts are restricted. -/
theorem meets_of_unconditional
    (unconditional :
      ∀ label past op choice world,
        discipline.condition label past op choice world)
    {actions : List (Action Label Choice Outside)}
    {pool : Pool Op Answer Value Label World}
    (fresh :
      Runs.Meets machine.step
        (fun pool action =>
          ∀ label, action = .start label → label ∉ pool.started)
        actions pool) :
    Runs.Meets machine.step discipline.Allows actions pool := by
  refine @Runs.meets_of_invariant _ _ machine.step _ (fun _ => True) _
    ?_ (fun _ _ _ _ => trivial) actions pool trivial fresh
  intro pool action _ starts
  cases action with
  | start label => exact starts label rfl
  | cut index => exact trivial
  | outside event => exact trivial
  | advance index choice =>
      intro label past op next _
      exact unconditional label past op choice pool.world

/-- What a secure pool says about a thread that has returned. -/
theorem PoolSecure.finished
    {pool : Pool Op Answer Value Label World}
    (secure : PoolSecure machine discipline pool)
    {label : Label} {past : List (Event Op Answer)} {value : Value}
    (member : ⟨label, past, .ret value⟩ ∈ pool.threads) :
    discipline.finished label past value pool.world :=
  secure.threads _ member pool.world
    (discipline.rely_refl label pool.world) secure.invariant

theorem PoolSecure.finished_of_result
    {pool : Pool Op Answer Value Label World}
    (secure : PoolSecure machine discipline pool)
    {thread : Thread Op Answer Value Label} (member : thread ∈ pool.threads)
    {value : Value} (returned : thread.result = some value) :
    discipline.finished thread.label thread.past value pool.world := by
  obtain ⟨label, past, rest⟩ := thread
  cases rest with
  | ret other =>
      obtain rfl := Option.some.inj returned
      exact secure.finished member
  | call op next => cases returned

/-- A world in which nothing was started is secure once its invariant
holds and every label is fresh. -/
theorem poolSecure_idle
    {world : World} (invariant : discipline.invariant world)
    (fresh : ∀ label, discipline.fresh label world) :
    PoolSecure machine discipline (.idle world) where
  invariant := invariant
  labels := List.nodup_nil
  started := by simp [Pool.idle]
  fresh := fun label _ => fresh label
  threads := by simp [Pool.idle]

/-- Either nothing is running and the world is ready for a start, or the
one thread there is is secure. -/
inductive SoloSecure
    (machine : Machine Op Answer Value Label World Choice Outside)
    (discipline : Discipline Op Answer Value Label World Choice)
    (ready : World → Prop) :
    Pool Op Answer Value Label World → Prop where
  | idle {world started}
      (invariant : discipline.invariant world)
      (isReady : ready world) :
      SoloSecure machine discipline ready ⟨world, [], started⟩
  | busy {world label past rest started}
      (invariant : discipline.invariant world)
      (secure : Secure machine discipline label rest past world) :
      SoloSecure machine discipline ready
        ⟨world, [⟨label, past, rest⟩], started⟩

/-- The condition of a discipline, read as a condition on moves: the
operation performed next is allowed, and a program is cut off only in a
world that is ready for the next one. -/
def Discipline.AllowsSolo
    (discipline : Discipline Op Answer Value Label World Choice)
    (ready : World → Prop)
    (pool : Pool Op Answer Value Label World) :
    Action Label Choice Outside → Prop
  | .advance index choice =>
      ∀ label past op next,
        pool.threads[index]? = some ⟨label, past, .call op next⟩ →
          discipline.condition label past op choice pool.world
  | .cut _ => ready pool.world
  | _ => True

section AllowingSolo

variable {discipline : Discipline Op Answer Value Label World Choice}
variable {ready : World → Prop} {pool : Pool Op Answer Value Label World}

@[simp]
theorem Discipline.allowsSolo_start (label : Label) :
    discipline.AllowsSolo ready pool
      (.start label : Action Label Choice Outside) := trivial

@[simp]
theorem Discipline.allowsSolo_outside (event : Outside) :
    discipline.AllowsSolo ready pool
      (.outside event : Action Label Choice Outside) := trivial

theorem Discipline.allowsSolo_advance_iff {index : Nat} {choice : Choice} :
    discipline.AllowsSolo ready pool
        (.advance index choice : Action Label Choice Outside) ↔
      ∀ thread ∈ pool.threads[index]?,
        discipline.AllowsNext choice pool.world thread := by
  have allowed : discipline.Allows pool
      (.advance index choice : Action Label Choice Outside) ↔ _ :=
    Discipline.allows_advance_iff
  exact allowed

end AllowingSolo

/-- What must be checked once for programs that run one after the
other. -/
structure SoloObligations
    (machine : Machine Op Answer Value Label World Choice Outside)
    (discipline : Discipline Op Answer Value Label World Choice)
    (ready : World → Prop) : Prop where
  start :
    ∀ label world, discipline.invariant world → ready world →
      Secure machine discipline label (machine.program label) [] world
  finished :
    ∀ label past value world, discipline.invariant world →
      discipline.finished label past value world → ready world
  outside :
    ∀ event world, discipline.invariant world →
      (∀ label,
        discipline.rely label world (machine.react event world)) ∧
        discipline.invariant (machine.react event world) ∧
        (ready world → ready (machine.react event world))

variable {ready : World → Prop}

/-- Every allowed move of the one thread keeps it secure. -/
theorem SoloSecure.step
    (obligations : SoloObligations machine discipline ready)
    {pool : Pool Op Answer Value Label World}
    (secure : SoloSecure machine discipline ready pool)
    {action : Action Label Choice Outside}
    (allowed : discipline.AllowsSolo ready pool action) :
    SoloSecure machine discipline ready
      (machine.soloStep action pool) := by
  cases secure with
  | @idle world started invariant isReady =>
      cases action with
      | start label =>
          exact .busy invariant
            (obligations.start label world invariant isReady)
      | advance index choice => exact .idle invariant isReady
      | cut index => exact .idle invariant isReady
      | outside event =>
          obtain ⟨-, kept, stillReady⟩ :=
            obligations.outside event world invariant
          exact .idle kept (stillReady isReady)
  | @busy world label past rest started invariant secure =>
      cases action with
      | start other =>
          cases rest with
          | ret value =>
              have done := secure world
                (discipline.rely_refl label world) invariant
              have isReady :=
                obligations.finished label past value world invariant done
              exact .busy invariant
                (obligations.start other world invariant isReady)
          | call op next => exact .busy invariant secure
      | advance index choice =>
          cases index with
          | succ index => exact .busy invariant secure
          | zero =>
              cases rest with
              | ret value => exact .busy invariant secure
              | call op next =>
                  have permitted := allowed label past op next rfl
                  rcases handled :
                      machine.handle label op choice world with
                    _ | ⟨answer, after⟩
                  · simpa [Machine.soloStep, Machine.step, handled]
                      using SoloSecure.busy invariant secure
                  · obtain ⟨-, -, kept, later⟩ :=
                      secure world (discipline.rely_refl label world)
                        invariant choice permitted answer after handled
                    simpa [Machine.soloStep, Machine.step, handled]
                      using SoloSecure.busy kept later
      | cut index =>
          cases index with
          | zero => exact .idle invariant allowed
          | succ index => exact .busy invariant secure
      | outside event =>
          obtain ⟨changed, kept, -⟩ :=
            obligations.outside event world invariant
          exact .busy kept (secure.rely (changed label))

/-- Every allowed run of programs, one after the other, is secure. -/
theorem SoloSecure.run
    (obligations : SoloObligations machine discipline ready)
    {pool : Pool Op Answer Value Label World}
    (secure : SoloSecure machine discipline ready pool)
    {actions : List (Action Label Choice Outside)}
    (allowed :
      Runs.Meets machine.soloStep (discipline.AllowsSolo ready)
        actions pool) :
    SoloSecure machine discipline ready
      (Runs.run machine.soloStep actions pool) :=
  Runs.invariant_of_meets
    (fun _ _ held permitted => held.step obligations permitted)
    secure allowed

/-- What is known of the program that has just returned. -/
theorem SoloSecure.of_returned
    {pool : Pool Op Answer Value Label World}
    (secure : SoloSecure machine discipline ready pool)
    {label : Label} {past : List (Event Op Answer)} {value : Value}
    (member : ⟨label, past, .ret value⟩ ∈ pool.threads) :
    discipline.finished label past value pool.world := by
  cases secure with
  | idle => simp at member
  | @busy world _ _ _ _ invariant secure =>
      cases List.mem_singleton.mp member
      exact secure world (discipline.rely_refl label world) invariant

end Secure

-- From here on the rules are used, not the recursion: the elaborator must
-- not run a program to find out what is ensured of it.
attribute [irreducible] Ensures

end EffectPrograms
