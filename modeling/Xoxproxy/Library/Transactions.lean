import Mathlib.Data.List.Basic

/-!
# Transactions

A transaction executes its statements one after the other and commits, or
fails at one of them and leaves everything as it was.
-/

namespace Transactions

variable {World Error : Type}

/-- A statement of a transaction, and what its caller makes of an error
that the statement reports. -/
structure Statement (World Error : Type) where
  run : World → Except Error World
  report : Error → Error := id

/-- The statement that is made to fail, counted from the beginning of the
transaction, and the error it reports. -/
abbrev Failure (Error : Type) := Option (Nat × Error)

/-- The error that is injected at a statement. -/
def Failure.at (failure : Failure Error) (index : Nat) : Option Error :=
  match failure with
  | some (failing, error) => if failing = index then some error else none
  | none => none

/-- Execute the statements from number `index` on, and commit. -/
def execute (failure : Failure Error) :
    List (Statement World Error) → Nat → World → Except Error World
  | [], index, world =>
      match failure.at index with
      | some error => .error error
      | none => .ok world
  | statement :: rest, index, world =>
      match failure.at index with
      | some error => .error (statement.report error)
      | none =>
          match statement.run world with
          | .error error => .error (statement.report error)
          | .ok changed => execute failure rest (index + 1) changed

/-- A transaction: number zero is its beginning.  What an unfinished
transaction did is rolled back. -/
def transact
    (failure : Failure Error) (statements : List (Statement World Error))
    (world : World) : Except Error Unit × World :=
  match failure.at 0 with
  | some error => (.error error, world)
  | none =>
      match execute failure statements 1 world with
      | .error error => (.error error, world)
      | .ok changed => (.ok (), changed)

variable {failure : Failure Error}
variable {statements : List (Statement World Error)}
variable {world after : World}

/-- Execute the statements without an injected failure. -/
def executeAll :
    List (Statement World Error) → World → Except Error World
  | [], world => .ok world
  | statement :: rest, world =>
      match statement.run world with
      | .error error => .error (statement.report error)
      | .ok changed => executeAll rest changed

/-- What is committed is what the statements do one after the other. -/
theorem execute_ok
    {index : Nat} (done : execute failure statements index world = .ok after) :
    executeAll statements world = .ok after := by
  induction statements generalizing index world with
  | nil =>
      unfold execute at done
      split at done
      · cases done
      · exact done
  | cons statement rest induction =>
      unfold execute at done
      unfold executeAll
      split at done
      · cases done
      · split at done
        · cases done
        · exact induction done

theorem executeAll_append {more : List (Statement World Error)} :
    executeAll (statements ++ more) world = .ok after ↔
      ∃ middle, executeAll statements world = .ok middle ∧
        executeAll more middle = .ok after := by
  induction statements generalizing world with
  | nil => simp [executeAll]
  | cons statement rest induction =>
      rw [List.cons_append, executeAll, executeAll]
      cases statement.run world with
      | error error => simp
      | ok changed => exact induction

/-- A transaction does everything or nothing. -/
theorem transact_cases :
    (∃ error, transact failure statements world = (.error error, world)) ∨
      (∃ after, transact failure statements world = (.ok (), after) ∧
        executeAll statements world = .ok after) := by
  unfold transact
  split
  · rename_i error _
    exact Or.inl ⟨error, rfl⟩
  · split
    · rename_i error _
      exact Or.inl ⟨error, rfl⟩
    · rename_i after done
      exact Or.inr ⟨after, rfl, execute_ok done⟩

/-- What every statement preserves, the transaction preserves. -/
theorem executeAll_preserves
    {property : World → World → Prop}
    (refl : ∀ world, property world world)
    (trans :
      ∀ {first second third},
        property first second → property second third →
          property first third)
    (each :
      ∀ statement ∈ statements, ∀ before after,
        statement.run before = .ok after → property before after)
    (done : executeAll statements world = .ok after) :
    property world after := by
  induction statements generalizing world with
  | nil =>
      have same : world = after := Except.ok.inj done
      rw [← same]
      exact refl world
  | cons statement rest induction =>
      unfold executeAll at done
      split at done
      · cases done
      · rename_i changed executed
        have first := each statement (by simp) world changed executed
        have later := induction
          (fun other member => each other (by simp [member])) done
        exact trans first later

/-- A transaction is committed when every statement succeeds wherever the
statements before it keep an invariant. -/
theorem executeAll_succeeds
    {invariant : World → Prop}
    (each :
      ∀ statement ∈ statements, ∀ before, invariant before →
        ∃ changed, statement.run before = .ok changed ∧ invariant changed)
    (start : invariant world) :
    ∃ after, executeAll statements world = .ok after := by
  induction statements generalizing world with
  | nil => exact ⟨world, rfl⟩
  | cons statement rest induction =>
      obtain ⟨changed, executed, kept⟩ :=
        each statement List.mem_cons_self world start
      obtain ⟨after, done⟩ := induction
        (fun other member => each other (List.mem_cons_of_mem _ member)) kept
      refine ⟨after, ?_⟩
      rw [executeAll, executed]
      exact done

theorem execute_none {index : Nat}
    (done : executeAll statements world = .ok after) :
    execute none statements index world = .ok after := by
  induction statements generalizing index world with
  | nil => exact done
  | cons statement rest induction =>
      rw [executeAll] at done
      rw [execute, Failure.at]
      cases executed : statement.run world with
      | error error =>
          rw [executed] at done
          cases done
      | ok changed =>
          rw [executed] at done
          exact induction done

/-- Where nothing is made to fail, what the statements do is committed. -/
theorem transact_none (done : executeAll statements world = .ok after) :
    transact none statements world = (.ok (), after) := by
  rw [transact, Failure.at, execute_none done]

end Transactions
