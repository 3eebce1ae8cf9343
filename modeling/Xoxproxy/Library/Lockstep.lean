import Mathlib.Data.List.Forall2
import Xoxproxy.Library.EffectPrograms
import Xoxproxy.Library.Transactions

/-!
# Runs in lockstep

Two runs of one machine whose schedules are alike move by move.  Where alike
operations are answered alike, the threads perform alike operations and the
worlds stay alike: nothing else of the schedules can be seen in them.
-/

namespace Transactions

variable {Error Value Result World : Type}

/-- Errors that are alike, or results that are related. -/
inductive OutcomesAlike (errors : Error → Error → Prop)
    (related : Value → Result → Prop) :
    Except Error Value → Except Error Result → Prop
  | error {error other : Error} (alike : errors error other) :
      OutcomesAlike errors related (.error error) (.error other)
  | ok {value : Value} {result : Result} (pair : related value result) :
      OutcomesAlike errors related (.ok value) (.ok result)

theorem OutcomesAlike.eqs {errors : Error → Error → Prop}
    {related : Value → Result → Prop}
    {first : Except Error Value} {second : Except Error Result}
    (alike : OutcomesAlike errors related first second) :
    (∃ error other, first = .error error ∧ second = .error other ∧
        errors error other) ∨
      ∃ value result, first = .ok value ∧ second = .ok result ∧
        related value result := by
  cases alike with
  | error alike => exact Or.inl ⟨_, _, rfl, rfl, alike⟩
  | ok pair => exact Or.inr ⟨_, _, rfl, rfl, pair⟩

theorem rel_cases {Item Also : Type} {related : Item → Also → Prop}
    {first : Option Item} {second : Option Also}
    (pair : Option.Rel related first second) :
    (first = none ∧ second = none) ∨
      ∃ item other, first = some item ∧ second = some other ∧
        related item other := by
  cases pair with
  | none => exact Or.inl ⟨rfl, rfl⟩
  | some pair => exact Or.inr ⟨_, _, rfl, rfl, pair⟩

/-- Failures of the same statement. -/
def FailuresAlike (injected : Error → Error → Prop)
    (first second : Failure Error) : Prop :=
  ∀ index, Option.Rel injected (first.at index) (second.at index)

/-- Statements that do alike things in alike worlds, and report alike
errors. -/
structure StatementsAlike (injected errors : Error → Error → Prop)
    (related : World → World → Prop)
    (first second : Statement World Error) : Prop where
  run : ∀ world other, related world other →
    OutcomesAlike
      (fun error also => errors (first.report error) (second.report also))
      related (first.run world) (second.run other)
  report : ∀ error other, injected error other →
    errors (first.report error) (second.report other)

variable {injected errors : Error → Error → Prop}
variable {related : World → World → Prop} {failure another : Failure Error}
variable {first second : List (Statement World Error)}

theorem execute_alike (failures : FailuresAlike injected failure another)
    (weaker : ∀ error other, injected error other → errors error other)
    (alike : List.Forall₂ (StatementsAlike injected errors related) first
      second)
    (index : Nat) {world other : World} (pair : related world other) :
    OutcomesAlike errors related (execute failure first index world)
      (execute another second index other) := by
  induction alike generalizing index world other with
  | nil =>
      unfold execute
      rcases rel_cases (failures index) with
        ⟨sound, fine⟩ | ⟨error, also, failed, wrong, same⟩
      · simp only [sound, fine]
        exact .ok pair
      · simp only [failed, wrong]
        exact .error (weaker _ _ same)
  | cons statements _ inductionHypothesis =>
      unfold execute
      rcases rel_cases (failures index) with
        ⟨sound, fine⟩ | ⟨error, also, failed, wrong, same⟩
      · simp only [sound, fine]
        rcases (statements.run world other pair).eqs with
          ⟨error, also, failed, wrong, same⟩ |
            ⟨changed, also, done, made, pair⟩
        · simp only [failed, wrong]
          exact .error same
        · simp only [done, made]
          exact inductionHypothesis (index + 1) pair
      · simp only [failed, wrong]
        exact .error (statements.report error also same)

/-- Alike statements are committed with alike results, or rolled back for
alike reasons. -/
theorem transact_alike (failures : FailuresAlike injected failure another)
    (weaker : ∀ error other, injected error other → errors error other)
    (alike : List.Forall₂ (StatementsAlike injected errors related) first
      second)
    {world other : World} (pair : related world other) :
    OutcomesAlike errors (fun _ _ => True)
        (transact failure first world).1 (transact another second other).1 ∧
      related (transact failure first world).2
        (transact another second other).2 := by
  unfold transact
  rcases rel_cases (failures 0) with
    ⟨sound, fine⟩ | ⟨error, also, failed, wrong, same⟩
  · simp only [sound, fine]
    rcases (execute_alike failures weaker alike 1 pair).eqs with
      ⟨error, also, failed, wrong, same⟩ | ⟨changed, also, done, made, after⟩
    · simp only [failed, wrong]
      exact ⟨.error same, pair⟩
    · simp only [done, made]
      exact ⟨.ok trivial, after⟩
  · simp only [failed, wrong]
    exact ⟨.error (weaker _ _ same), pair⟩

end Transactions

namespace EffectPrograms

open Transactions (rel_cases)

variable {Op : Type} {Answer : Op → Type}
variable {Value Result Middle Other Label World Choice Outside : Type}

/-- What counts as alike. -/
structure Likeness
    (Op : Type) (Answer : Op → Type)
    (Value Label World Choice Outside : Type) where
  op : Op → Op → Prop
  answer : (first second : Op) → Answer first → Answer second → Prop
  value : Value → Value → Prop
  label : Label → Label → Prop
  world : World → World → Prop
  choice : Choice → Choice → Prop
  outside : Outside → Outside → Prop

namespace Program

variable {ops : Op → Op → Prop}
variable {answers : (first second : Op) → Answer first → Answer second → Prop}

variable (ops answers) in
/-- The programs perform alike operations as long as they get alike answers,
and return values that are related. -/
inductive Alike (ends : Value → Result → Prop) :
    Program Op Answer Value → Program Op Answer Result → Prop
  | ret {value : Value} {result : Result} (related : ends value result) :
      Alike ends (.ret value) (.ret result)
  | call {first second : Op}
      {next : Answer first → Program Op Answer Value}
      {later : Answer second → Program Op Answer Result}
      (like : ops first second)
      (rest : ∀ answer other, answers first second answer other →
        Alike ends (next answer) (later other)) :
      Alike ends (.call first next) (.call second later)

theorem alike_bind {between : Value → Middle → Prop}
    {ends : Result → Other → Prop}
    {first : Program Op Answer Value} {second : Program Op Answer Middle}
    {next : Value → Program Op Answer Result}
    {later : Middle → Program Op Answer Other}
    (alike : Alike ops answers between first second)
    (rest : ∀ value other, between value other →
      Alike ops answers ends (next value) (later other)) :
    Alike ops answers ends (first >>= next) (second >>= later) := by
  induction alike with
  | ret related => exact rest _ _ related
  | call like _ inductionHypothesis => exact .call like inductionHypothesis

theorem Alike.imp {ends also : Value → Result → Prop}
    {first : Program Op Answer Value} {second : Program Op Answer Result}
    (alike : Alike ops answers ends first second)
    (weaker : ∀ value result, ends value result → also value result) :
    Alike ops answers also first second := by
  induction alike with
  | ret related => exact .ret (weaker _ _ related)
  | call like _ inductionHypothesis => exact .call like inductionHypothesis

/-- An operation in front of a program. -/
theorem alike_invoke {ends : Value → Result → Prop} {first second : Op}
    {next : Answer first → Program Op Answer Value}
    {later : Answer second → Program Op Answer Result}
    (like : ops first second)
    (rest : ∀ answer other, answers first second answer other →
      Alike ops answers ends (next answer) (later other)) :
    Alike ops answers ends (perform first >>= next)
      (perform second >>= later) :=
  .call like rest

end Program

/-! ## Pools -/

section Moves

variable {Request : Type}
variable {choices : Choice → Choice → Prop}
variable {outsides : Outside → Outside → Prop}

variable (choices outsides) in
/-- The same move, for alike labels, choices and events. -/
inductive ActionsAlike (labels : Label → Label → Prop) :
    Action Label Choice Outside → Action Label Choice Outside → Prop
  | start {first second : Label} (like : labels first second) :
      ActionsAlike labels (.start first) (.start second)
  | advance (index : Nat) {first second : Choice}
      (like : choices first second) :
      ActionsAlike labels (.advance index first) (.advance index second)
  | cut (index : Nat) : ActionsAlike labels (.cut index) (.cut index)
  | outside {first second : Outside} (like : outsides first second) :
      ActionsAlike labels (.outside first) (.outside second)

/-- Numbering the requests keeps moves alike. -/
theorem numbered_alike {requests : Request → Request → Prop}
    {labels : Label → Label → Prop} {label : Nat → Request → Label}
    (named : ∀ number first second, requests first second →
      labels (label number first) (label number second))
    {moves others : List (Action Request Choice Outside)}
    (alike : List.Forall₂ (ActionsAlike choices outsides requests) moves
      others) (number : Nat) :
    List.Forall₂ (ActionsAlike choices outsides labels)
      (Machine.numbered label number moves)
      (Machine.numbered label number others) := by
  induction alike generalizing number with
  | nil => exact .nil
  | cons like _ inductionHypothesis =>
      cases like with
      | start like =>
          exact .cons (.start (named number _ _ like))
            (inductionHypothesis (number + 1))
      | advance index like =>
          exact .cons (.advance index like) (inductionHypothesis number)
      | cut index => exact .cons (.cut index) (inductionHypothesis number)
      | outside like =>
          exact .cons (.outside like) (inductionHypothesis number)

end Moves

section Pools

variable (likeness : Likeness Op Answer Value Label World Choice Outside)

structure EventsAlike (first second : Event Op Answer) : Prop where
  op : likeness.op first.op second.op
  answer : likeness.answer first.op second.op first.answer second.answer

structure ThreadsAlike (first second : Thread Op Answer Value Label) :
    Prop where
  label : likeness.label first.label second.label
  past : List.Forall₂ (EventsAlike likeness) first.past second.past
  rest : Program.Alike likeness.op likeness.answer likeness.value
    first.rest second.rest

structure PoolsAlike (first second : Pool Op Answer Value Label World) :
    Prop where
  world : likeness.world first.world second.world
  threads : List.Forall₂ (ThreadsAlike likeness) first.threads second.threads
  started : List.Forall₂ likeness.label first.started second.started

/-- The machine tells nothing apart that is alike. -/
structure Machine.Respects
    (machine : Machine Op Answer Value Label World Choice Outside) : Prop where
  program : ∀ first second, likeness.label first second →
    Program.Alike likeness.op likeness.answer likeness.value
      (machine.program first) (machine.program second)
  handle : ∀ label other, likeness.label label other →
    ∀ op also, likeness.op op also →
    ∀ choice another, likeness.choice choice another →
    ∀ world around, likeness.world world around →
      Option.Rel
        (fun outcome result =>
          likeness.answer op also outcome.1 result.1 ∧
            likeness.world outcome.2 result.2)
        (machine.handle label op choice world)
        (machine.handle other also another around)
  react : ∀ event other, likeness.outside event other →
    ∀ world around, likeness.world world around →
      likeness.world (machine.react event world)
        (machine.react other around)

variable {likeness}
variable {machine : Machine Op Answer Value Label World Choice Outside}

theorem getElem?_rel_of_forall₂ {Item Also : Type}
    {related : Item → Also → Prop} {first : List Item} {second : List Also}
    (pairs : List.Forall₂ related first second) (index : Nat) :
    Option.Rel related first[index]? second[index]? := by
  induction pairs generalizing index with
  | nil => exact .none
  | cons pair _ inductionHypothesis =>
      cases index with
      | zero => exact .some pair
      | succ index => exact inductionHypothesis index

theorem forall₂_set {Item Also : Type} {related : Item → Also → Prop}
    {first : List Item} {second : List Also}
    (pairs : List.Forall₂ related first second) {item : Item} {other : Also}
    (pair : related item other) (index : Nat) :
    List.Forall₂ related (first.set index item) (second.set index other) := by
  induction pairs generalizing index with
  | nil => exact .nil
  | cons head tail inductionHypothesis =>
      cases index with
      | zero => exact .cons pair tail
      | succ index => exact .cons head (inductionHypothesis index)

theorem forall₂_eraseIdx {Item Also : Type}
    {related : Item → Also → Prop} {first : List Item} {second : List Also}
    (pairs : List.Forall₂ related first second) (index : Nat) :
    List.Forall₂ related (first.eraseIdx index) (second.eraseIdx index) := by
  induction pairs generalizing index with
  | nil => exact .nil
  | cons head tail inductionHypothesis =>
      cases index with
      | zero => exact tail
      | succ index => exact .cons head (inductionHypothesis index)

theorem forall₂_concat {Item Also : Type}
    {related : Item → Also → Prop} {first : List Item} {second : List Also}
    (pairs : List.Forall₂ related first second) {item : Item} {other : Also}
    (pair : related item other) :
    List.Forall₂ related (first ++ [item]) (second ++ [other]) :=
  List.rel_append pairs (.cons pair .nil)

theorem map_eq_of_forall₂ {Item Also Image : Type}
    {related : Item → Also → Prop} {first : List Item} {second : List Also}
    (pairs : List.Forall₂ related first second) {project : Item → Image}
    {other : Also → Image}
    (same : ∀ item also, related item also → project item = other also) :
    first.map project = second.map other := by
  induction pairs with
  | nil => rfl
  | cons pair _ inductionHypothesis =>
      rw [List.map_cons, List.map_cons, same _ _ pair, inductionHypothesis]

theorem filterMap_eq_of_forall₂ {Item Also Image : Type}
    {related : Item → Also → Prop} {first : List Item} {second : List Also}
    (pairs : List.Forall₂ related first second)
    {project : Item → Option Image} {other : Also → Option Image}
    (same : ∀ item also, related item also → project item = other also) :
    first.filterMap project = second.filterMap other := by
  induction pairs with
  | nil => rfl
  | cons pair _ inductionHypothesis =>
      rw [List.filterMap_cons, List.filterMap_cons, same _ _ pair,
        inductionHypothesis]

/-- Threads that are alike perform alike operations and stay alike. -/
theorem PoolsAlike.advance (respects : machine.Respects likeness)
    {first second : Pool Op Answer Value Label World}
    (alike : PoolsAlike likeness first second) (index : Nat)
    {choice another : Choice} (like : likeness.choice choice another) :
    PoolsAlike likeness (machine.step (.advance index choice) first)
      (machine.step (.advance index another) second) := by
  rcases rel_cases (getElem?_rel_of_forall₂ alike.threads index) with
    ⟨absent, missing⟩ | ⟨thread, other, found, listed, same⟩
  · simpa only [Machine.step, absent, missing] using alike
  obtain ⟨label, past, rest⟩ := thread
  obtain ⟨also, before, left⟩ := other
  obtain ⟨labels, pasts, rests⟩ := same
  cases rests with
  | ret related => simpa only [Machine.step, found, listed] using alike
  | @call op performed next later ops rests =>
      rcases rel_cases (respects.handle label also labels op performed ops
          choice another like first.world second.world alike.world) with
        ⟨blocked, stuck⟩ |
          ⟨⟨answer, after⟩, ⟨reply, around⟩, handled, done, answers, worlds⟩
      · simpa only [Machine.step, found, listed, blocked, stuck] using alike
      · have events : EventsAlike likeness ⟨op, answer⟩ ⟨performed, reply⟩ :=
          ⟨ops, answers⟩
        have moved : ThreadsAlike likeness
            ⟨label, past ++ [⟨op, answer⟩], next answer⟩
            ⟨also, before ++ [⟨performed, reply⟩], later reply⟩ :=
          ⟨labels, forall₂_concat pasts events, rests answer reply answers⟩
        rw [Machine.step_of_performs ⟨found, handled⟩,
          Machine.step_of_performs ⟨listed, done⟩]
        exact ⟨worlds, forall₂_set alike.threads moved index,
          alike.started⟩

/-- Alike moves keep pools alike. -/
theorem PoolsAlike.step (respects : machine.Respects likeness)
    {first second : Pool Op Answer Value Label World}
    (alike : PoolsAlike likeness first second)
    {action other : Action Label Choice Outside}
    (like : ActionsAlike likeness.choice likeness.outside likeness.label
      action other) :
    PoolsAlike likeness (machine.step action first)
      (machine.step other second) := by
  cases like with
  | start like =>
      exact ⟨alike.world,
        forall₂_concat alike.threads
          ⟨like, .nil, respects.program _ _ like⟩,
        forall₂_concat alike.started like⟩
  | cut index =>
      exact ⟨alike.world, forall₂_eraseIdx alike.threads index,
        alike.started⟩
  | outside like =>
      exact ⟨respects.react _ _ like _ _ alike.world, alike.threads,
        alike.started⟩
  | advance index like => exact alike.advance respects index like

/-- Alike schedules keep pools alike. -/
theorem PoolsAlike.run (respects : machine.Respects likeness)
    {actions others : List (Action Label Choice Outside)}
    (like : List.Forall₂
      (ActionsAlike likeness.choice likeness.outside likeness.label)
      actions others)
    {first second : Pool Op Answer Value Label World}
    (alike : PoolsAlike likeness first second) :
    PoolsAlike likeness (Runs.run machine.step actions first)
      (Runs.run machine.step others second) := by
  induction like generalizing first second with
  | nil => exact alike
  | cons like _ inductionHypothesis =>
      exact inductionHypothesis (alike.step respects like)

theorem poolsAlike_idle {world around : World}
    (like : likeness.world world around) :
    PoolsAlike likeness
      (.idle world : Pool Op Answer Value Label World) (.idle around) :=
  ⟨like, .nil, .nil⟩

end Pools

end EffectPrograms
