import Reckoner.Proofs.Phrase

/-!
# Phrases as trees

A phrase of literals is a tree without unreadable places, and evaluating that tree gives what the
phrase denotes (`Phrase.outcome_evaluate`): the lines that evaluation records do not touch values.
Evaluation is strict, so the parts of a tree that has a value have values too
(`Tree.Evaluates`).
-/

namespace Reckoner

/-- What the names of functions stand for in a lookup, the recorded lines left aside. -/
def Lookup.outcomes (lookup : Lookup) : Functions (Except Fault) := fun name =>
  (lookup name).map fun callee values => (callee values).outcome

theorem ok_bind {ε α β : Type} (value : α) (next : α → Except ε β) :
    (Except.ok value >>= next) = next value := rfl

theorem bind_ok {ε α : Type} (outcome : Except ε α) :
    (do let value ← outcome; Except.ok value) = outcome := bind_pure outcome

/-- A bind that has a value has one at both of its steps. -/
theorem exists_of_bind_eq_ok {ε α β : Type} {first : Except ε α} {next : α → Except ε β}
    {result : β} (bound : first >>= next = .ok result) :
    ∃ value, first = .ok value ∧ next value = .ok result := by
  cases first with
  | error fault => cases bound
  | ok value => exact ⟨value, rfl, bound⟩

namespace Precision

/-- The value of a literal at a precision. -/
def ofLiteral (precision : Precision) (literal : Literal) : Except Fault Decimal :=
  precision.literal literal.text

end Precision

/-- Evaluates what a phrase of a rule is read as. -/
def Level.evaluate (settings : Settings) (lookup : Lookup) :
    (level : Level) → level.Form → Run level.Value
  | operand, tree => Tree.evaluate settings lookup tree
  | factor, tree => Tree.evaluate settings lookup tree
  | product, tree => Tree.evaluate settings lookup tree
  | sum, tree => Tree.evaluate settings lookup tree
  | list, trees => Tree.evaluateAll settings lookup trees

namespace Phrase

/-- The tree of a phrase. -/
def tree {level : Level} : Phrase Literal level → level.Form
  | atom literal => .number literal.text
  | group inner => .group inner.tree
  | call function => .call function.name []
  | apply function arguments => .call function.name arguments.tree
  | plain operand => operand.tree
  | power base exponent => .operation .power base.tree exponent.tree
  | plus operand => .plus operand.tree
  | minus operand => .minus operand.tree
  | single factor => factor.tree
  | multiplied left operator _ right => .operation operator left.tree right.tree
  | alone product => product.tree
  | added left operator _ right => .operation operator left.tree right.tree
  | last argument => [argument.tree]
  | cons argument others => argument.tree :: others.tree

/-- The value of a phrase of literals. -/
def value (precision : Precision) (lookup : Lookup) {level : Level}
    (phrase : Phrase Literal level) : Except Fault level.Value :=
  phrase.denote precision lookup.outcomes precision.ofLiteral

end Phrase

namespace Tree

variable (settings : Settings) (lookup : Lookup)

@[simp]
theorem outcome_evaluate_number (text : List Char) :
    ((number text).evaluate settings lookup).outcome = settings.calculation.literal text := by
  rw [evaluate, Run.outcome_ofExcept]

@[simp]
theorem outcome_evaluate_group (inner : Tree) :
    ((group inner).evaluate settings lookup).outcome =
      (inner.evaluate settings lookup).outcome := by
  rw [evaluate]

@[simp]
theorem outcome_evaluate_plus (operand : Tree) :
    ((plus operand).evaluate settings lookup).outcome =
      (operand.evaluate settings lookup).outcome := by
  rw [evaluate]

@[simp]
theorem outcome_evaluate_minus (operand : Tree) :
    ((minus operand).evaluate settings lookup).outcome =
      (do return -(← (operand.evaluate settings lookup).outcome)) := by
  rw [evaluate, Run.outcome_bind]
  rfl

@[simp]
theorem outcome_evaluate_operation (operator : Operator) (left right : Tree) :
    ((operation operator left right).evaluate settings lookup).outcome =
      (do
        let leftValue ← (left.evaluate settings lookup).outcome
        let rightValue ← (right.evaluate settings lookup).outcome
        operator.apply settings.calculation leftValue rightValue) := by
  simp only [evaluate, Run.outcome_bind, Run.outcome_ofExcept, Run.outcome_pure,
    Settings.outcome_note]
  exact congrArg _ (funext fun _ => congrArg _ (funext fun _ => bind_pure _))

@[simp]
theorem outcome_evaluate_call (name : String) (arguments : List Tree) :
    ((call name arguments).evaluate settings lookup).outcome =
      (match lookup.outcomes name with
      | none => .error (.unknownFunction name)
      | some run => do
        let values ← (evaluateAll settings lookup arguments).outcome
        run values) := by
  rw [evaluate, Lookup.outcomes]
  cases lookup name with
  | none => rfl
  | some callee =>
      simp only [Option.map_some, Run.outcome_bind, Run.outcome_pure, Settings.outcome_note]
      exact congrArg _ (funext fun _ => bind_pure _)

@[simp]
theorem outcome_evaluate_unreadable (fault : Fault) :
    ((unreadable fault).evaluate settings lookup).outcome = .error fault := by
  rw [evaluate]
  rfl

@[simp]
theorem outcome_evaluateAll_nil : (evaluateAll settings lookup []).outcome = .ok [] := by
  rw [evaluateAll, Run.outcome_pure]

@[simp]
theorem outcome_evaluateAll_cons (tree : Tree) (trees : List Tree) :
    (evaluateAll settings lookup (tree :: trees)).outcome =
      (do
        let value ← (tree.evaluate settings lookup).outcome
        let values ← (evaluateAll settings lookup trees).outcome
        return value :: values) := by
  simp [evaluateAll]

/-- Whether a tree has a value. -/
def Evaluates (tree : Tree) : Prop := ∃ value, (tree.evaluate settings lookup).outcome = .ok value

/-- Whether each of several trees has a value. -/
def EvaluateAll (trees : List Tree) : Prop :=
  ∃ values, (evaluateAll settings lookup trees).outcome = .ok values

variable {settings lookup}

theorem not_evaluates_unreadable (fault : Fault) :
    ¬ (unreadable fault).Evaluates settings lookup := by
  rintro ⟨value, evaluated⟩
  simp at evaluated

theorem Evaluates.of_group {inner : Tree} (evaluates : (group inner).Evaluates settings lookup) :
    inner.Evaluates settings lookup := by
  simpa [Evaluates] using evaluates

theorem Evaluates.of_plus {operand : Tree}
    (evaluates : (plus operand).Evaluates settings lookup) :
    operand.Evaluates settings lookup := by
  simpa [Evaluates] using evaluates

theorem Evaluates.of_minus {operand : Tree}
    (evaluates : (minus operand).Evaluates settings lookup) :
    operand.Evaluates settings lookup := by
  obtain ⟨value, evaluated⟩ := evaluates
  rw [outcome_evaluate_minus] at evaluated
  obtain ⟨number, found, -⟩ := exists_of_bind_eq_ok evaluated
  exact ⟨number, found⟩

theorem Evaluates.of_operation {operator : Operator} {left right : Tree}
    (evaluates : (operation operator left right).Evaluates settings lookup) :
    left.Evaluates settings lookup ∧ right.Evaluates settings lookup := by
  obtain ⟨value, evaluated⟩ := evaluates
  rw [outcome_evaluate_operation] at evaluated
  obtain ⟨leftValue, leftFound, evaluated⟩ := exists_of_bind_eq_ok evaluated
  obtain ⟨rightValue, rightFound, -⟩ := exists_of_bind_eq_ok evaluated
  exact ⟨⟨leftValue, leftFound⟩, ⟨rightValue, rightFound⟩⟩

theorem Evaluates.of_call {name : String} {arguments : List Tree}
    (evaluates : (call name arguments).Evaluates settings lookup) :
    EvaluateAll settings lookup arguments := by
  obtain ⟨value, evaluated⟩ := evaluates
  rw [outcome_evaluate_call] at evaluated
  cases found : lookup.outcomes name with
  | none => simp [found] at evaluated
  | some run =>
      rw [found] at evaluated
      obtain ⟨values, argumentsFound, -⟩ := exists_of_bind_eq_ok evaluated
      exact ⟨values, argumentsFound⟩

theorem EvaluateAll.of_cons {tree : Tree} {trees : List Tree}
    (evaluate : EvaluateAll settings lookup (tree :: trees)) :
    tree.Evaluates settings lookup ∧ EvaluateAll settings lookup trees := by
  obtain ⟨values, evaluated⟩ := evaluate
  rw [outcome_evaluateAll_cons] at evaluated
  obtain ⟨value, found, evaluated⟩ := exists_of_bind_eq_ok evaluated
  obtain ⟨others, othersFound, -⟩ := exists_of_bind_eq_ok evaluated
  exact ⟨⟨value, found⟩, ⟨others, othersFound⟩⟩

end Tree

/-- Evaluating the tree of a phrase gives what the phrase denotes. -/
theorem Phrase.outcome_evaluate (settings : Settings) (lookup : Lookup) {level : Level}
    (phrase : Phrase Literal level) :
    (level.evaluate settings lookup phrase.tree).outcome =
      phrase.value settings.calculation lookup := by
  unfold Phrase.value
  induction phrase with
  | atom literal => exact Tree.outcome_evaluate_number settings lookup literal.text
  | group inner ih => simpa [Level.evaluate, tree, denote] using ih
  | call function =>
      simp only [Level.evaluate, tree, denote, Tree.outcome_evaluate_call,
        Tree.outcome_evaluateAll_nil]
      cases lookup.outcomes function.name <;> rfl
  | apply function arguments ih =>
      simp only [Level.evaluate, tree, denote, Tree.outcome_evaluate_call] at ih ⊢
      rw [ih]
      cases lookup.outcomes function.name <;> rfl
  | plain operand ih => simpa [Level.evaluate, tree, denote] using ih
  | power base exponent ihBase ihExponent =>
      simp only [Level.evaluate, tree, denote, Tree.outcome_evaluate_operation] at *
      rw [ihBase, ihExponent]
      rfl
  | plus operand ih => simpa [Level.evaluate, tree, denote] using ih
  | minus operand ih =>
      simp only [Level.evaluate, tree, denote, Tree.outcome_evaluate_minus] at *
      rw [ih]
  | single factor ih => simpa [Level.evaluate, tree, denote] using ih
  | multiplied left operator fits right ihLeft ihRight =>
      simp only [Level.evaluate, tree, denote, Tree.outcome_evaluate_operation] at *
      rw [ihLeft, ihRight]
      rfl
  | alone product ih => simpa [Level.evaluate, tree, denote] using ih
  | added left operator fits right ihLeft ihRight =>
      simp only [Level.evaluate, tree, denote, Tree.outcome_evaluate_operation] at *
      rw [ihLeft, ihRight]
      rfl
  | last argument ih =>
      simp only [Level.evaluate, tree, denote, Tree.outcome_evaluateAll_cons,
        Tree.outcome_evaluateAll_nil] at *
      rw [ih]
      rfl
  | cons argument others ihArgument ihOthers =>
      simp only [Level.evaluate, tree, denote, Tree.outcome_evaluateAll_cons] at *
      rw [ihArgument, ihOthers]

end Reckoner
