import Xoxproxy.Library.EffectPrograms

/-!
# Runs that are recorded

A program runs alone.  How each of its operations goes is given by a
sequence of choices, one for every operation, and the run keeps what was
performed.  `Always` is the proof rule: however the operations go, the
program ends as it should.
-/

namespace EffectPrograms

variable {Op : Type} {Answer : Op → Type}
variable {Value Result World Choice : Type}

/-- Perform an operation with the choice that is due, and keep it. -/
def recorded
    (handle : (op : Op) → Choice → World → Answer op × World)
    (choices : Nat → Choice) (op : Op)
    (state : World × List (Event Op Answer)) :
    Answer op × World × List (Event Op Answer) :=
  let done := handle op (choices state.2.length) state.1
  (done.1, done.2, state.2 ++ [⟨op, done.1⟩])

section Rules

variable {handle : (op : Op) → Choice → World → Answer op × World}
variable {post : Value → World → List (Event Op Answer) → Prop}
variable {world : World} {past : List (Event Op Answer)}

/-- However its operations go, the program ends as `post` says of its
value, the world and what was performed. -/
def Always
    (handle : (op : Op) → Choice → World → Answer op × World)
    (post : Value → World → List (Event Op Answer) → Prop) :
    Program Op Answer Value → World → List (Event Op Answer) → Prop
  | .ret value, world, past => post value world past
  | .call op next, world, past =>
      ∀ choice, Always handle post (next (handle op choice world).1)
        (handle op choice world).2
        (past ++ [⟨op, (handle op choice world).1⟩])

theorem always_call {op : Op} {next : Answer op → Program Op Answer Value}
    (rest : ∀ choice answer after, handle op choice world = (answer, after) →
      Always handle post (next answer) after (past ++ [⟨op, answer⟩])) :
    Always handle post (.call op next) world past :=
  fun choice => rest choice _ _ rfl

/-- A sequence, by what its first part leaves. -/
theorem always_bind {program : Program Op Answer Result}
    {next : Result → Program Op Answer Value}
    (first : Always handle
      (fun value world past => Always handle post (next value) world past)
      program world past) :
    Always handle post (program >>= next) world past := by
  induction program generalizing world past with
  | ret value => exact first
  | call op continuation inductionHypothesis =>
      exact fun choice => inductionHypothesis _ (first choice)

theorem Always.mono {weaker : Value → World → List (Event Op Answer) → Prop}
    {program : Program Op Answer Value}
    (always : Always handle post program world past)
    (implied : ∀ value world past, post value world past →
      weaker value world past) :
    Always handle weaker program world past := by
  induction program generalizing world past with
  | ret value => exact implied value world past always
  | call op continuation inductionHypothesis =>
      exact fun choice => inductionHypothesis _ (always choice)

/-- What all operations of a program preserve holds at its end. -/
theorem always_all {property : Op → Prop}
    {invariant : World → List (Event Op Answer) → Prop}
    (preserved : ∀ op, property op → ∀ choice world past answer after,
      handle op choice world = (answer, after) → invariant world past →
        invariant after (past ++ [⟨op, answer⟩]))
    {program : Program Op Answer Value} (all : program.All property)
    (holds : invariant world past) :
    Always handle (fun _ world past => invariant world past) program world
      past := by
  induction program generalizing world past with
  | ret value => exact holds
  | call op continuation inductionHypothesis =>
      intro choice
      apply inductionHypothesis _ (all.2 _)
      exact preserved op all.1 choice world past _ _ rfl holds

/-- The recorded run ends as every run does. -/
theorem Always.run {program : Program Op Answer Value}
    (always : Always handle post program world past)
    (choices : Nat → Choice) :
    post (program.run (recorded handle choices) (world, past)).1
      (program.run (recorded handle choices) (world, past)).2.1
      (program.run (recorded handle choices) (world, past)).2.2 := by
  induction program generalizing world past with
  | ret value => exact always
  | call op continuation inductionHypothesis =>
      exact inductionHypothesis _ (always (choices past.length))

end Rules

end EffectPrograms
