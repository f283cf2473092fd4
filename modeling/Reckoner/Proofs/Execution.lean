import Reckoner.Proofs.Invocations
import Reckoner.Proofs.Refinement

/-!
# Execution

The equations of a block that runs: what a call of a local function comes to, what an expression of
a statement does, and where a run stands after some statements (`Engine.Reaches`).  From each such
place the rest of the run has the outcome of the whole (`Engine.Reaches.outcome_run`).
-/

namespace Reckoner

/-- The function that gives its first argument. -/
def Function.first : Function := fun _ arguments => .ok (arguments.headD .zero)

/-- One name with its value. -/
def Bindings.single {α : Type} (name : String) (value : α) : Bindings α :=
  ⟨[(name, value)], List.pairwise_singleton _ _⟩

/-- Where one name is bound, what holds of its value holds of whatever is found. -/
theorem Bindings.forall_find?_single {α : Type} {key : String} {value : α} {property : α → Prop}
    (holds : property value) (name : String) (found : α)
    (bound : (single key value).find? name = some found) : property found := by
  obtain ⟨-, rfl⟩ := Prod.mk.inj (List.mem_singleton.mp (mem_of_lookup bound))
  exact holds

/-- A function applied to a literal. -/
def Phrase.applied (name : FunctionName) (literal : Literal) : Phrase Literal .sum :=
  .alone (.single (.plain (.apply name (.last (.alone (.single (.plain (.atom literal))))))))

namespace Scope

variable {engine : Engine} {scope : Scope} {text : List Char} {texts : List (List Char)}

/-- The functions of the scope when `levels` more calls of them may become active. -/
def callees (engine : Engine) (scope : Scope) (levels : Nat) : Lookup := fun name =>
  (scope.functions.find? name).map (scope.call engine levels)

/-- What a text comes to in the scope when `levels` more calls may become active. -/
def evaluateWithin (engine : Engine) (scope : Scope) (levels : Nat) (text : List Char) :
    Except Fault Decimal :=
  (engine.settings.evaluate (engine.lookup (scope.callees engine levels)) text).outcome

/-- A local function is called by its name if this is not that of a built-in one. -/
theorem lookup_of_defined {name : String} {function : LocalFunction} (absent : builtin? name = none)
    (found : scope.functions.find? name = some function) (levels : Nat) :
    engine.lookup (scope.callees engine levels) name = some (scope.call engine levels function) :=
  Engine.lookup_of_local absent (by rw [callees, found, Option.map_some])

/-- A function of the host is called where no local one is defined. -/
theorem lookup_of_undefined {name : String} (absent : builtin? name = none)
    (unbound : scope.functions.find? name = none) (levels : Nat) :
    engine.lookup (scope.callees engine levels) name =
      (engine.functions.find? name).map engine.callee :=
  Engine.lookup_of_host absent (by rw [callees, unbound, Option.map_none])

theorem outcome_call_zero (function : LocalFunction) (arguments : List Decimal) :
    (scope.call engine 0 function arguments).outcome = (do
      checkArity function arguments
      .error (.callDepthExceeded engine.settings.callLimit)) := by
  rw [call, Run.outcome_bind]
  rfl

theorem outcome_call_succ (levels : Nat) (function : LocalFunction) (arguments : List Decimal) :
    (scope.call engine (levels + 1) function arguments).outcome = (do
      checkArity function arguments
      let resolved ← (engine.settings.resolve (scope.bindings function arguments)
        function.body.toList).outcome
      scope.evaluateWithin engine levels resolved) := by
  rw [call]
  simp only [Run.outcome_bind, Run.outcome_ofExcept, Settings.outcome_note, Run.outcome_pure,
    ok_bind, bind_ok]
  rfl

/-- A call that succeeds has a level left, and so does the body of its function. -/
theorem exists_of_call_eq_ok {levels : Nat} {function : LocalFunction} {arguments : List Decimal}
    {result : Decimal}
    (called : (scope.call engine levels function arguments).outcome = .ok result) :
    ∃ below resolved, levels = below + 1 ∧ checkArity function arguments = .ok () ∧
      (engine.settings.resolve (scope.bindings function arguments) function.body.toList).outcome =
          .ok resolved ∧
        scope.evaluateWithin engine below resolved = .ok result := by
  cases levels with
  | zero =>
      rw [outcome_call_zero] at called
      obtain ⟨_, -, failed⟩ := exists_of_bind_eq_ok called
      exact nomatch failed
  | succ below =>
      rw [outcome_call_succ] at called
      obtain ⟨_, arity, called⟩ := exists_of_bind_eq_ok called
      obtain ⟨resolved, body, called⟩ := exists_of_bind_eq_ok called
      exact ⟨below, resolved, rfl, arity, body, called⟩

/-- A text that applies a function to a literal comes to what the call does. -/
theorem evaluateWithin_applied (name : FunctionName) (literal : Literal) {levels : Nat}
    {callee : Callee} {value : Decimal}
    (found : engine.lookup (scope.callees engine levels) name.name = some callee)
    (read : engine.settings.calculation.ofLiteral literal = .ok value)
    (spaced : Spaced [name.name.toList, ['('], literal.text, [')']] text) :
    scope.evaluateWithin engine levels text =
      (callee [value]).outcome.mapError (.inExpression (String.ofList (trim text))) := by
  have denoted : (Phrase.applied name literal).value engine.settings.calculation
      (engine.lookup (scope.callees engine levels)) = (callee [value]).outcome := by
    simp [Phrase.value, Phrase.applied, Phrase.denote, Lookup.outcomes, found, read, pure,
      Except.pure, ok_bind]
  have spelled : Spaced ((Phrase.applied name literal).lexemes.map (Lexeme.text Literal.text))
      text := spaced
  rw [evaluateWithin, Phrase.outcome_evaluate_spelled spelled, denoted]

/-- What holds of all functions of a scope, and of one that is defined, holds after that. -/
theorem forall_define {holds : LocalFunction → Prop}
    (all : ∀ name other, scope.functions.find? name = some other → holds other)
    {function : LocalFunction} (new : holds function) :
    ∀ name other, (scope.define function).functions.find? name = some other → holds other := by
  intro name other found
  rw [define, Bindings.find?_insert] at found
  split at found
  case isTrue => exact Option.some.inj found ▸ new
  case isFalse => exact all name other found

theorem outcome_value (expression : String) :
    (scope.value engine expression).outcome = (do
      let resolved ← (engine.settings.resolve scope.bag expression.toList).outcome
      scope.evaluateWithin engine engine.settings.callLimit resolved) := by
  rw [value, Run.outcome_bind]
  rfl

theorem outcome_run_unreadable {fault : Fault} (read : Statement.ofText? text = .error fault) :
    (scope.run engine (text :: texts)).outcome = .error fault := by
  rw [run, read, Run.outcome_bind, Run.outcome_ofExcept]
  rfl

end Scope

/-- The values that names have been bound to, oldest first. -/
abbrev History := List (String × Option Decimal)

namespace Engine

variable {engine : Engine} {bag : Bag}

/-- The calculation of a block rounds what the block answers. -/
theorem outcome_calculate_of_isBlock (block : engine.IsBlock) (bag : Bag) :
    (engine.calculate bag).outcome = (do
      let value ← (engine.runBlock (engine.admitted bag)).outcome
      engine.settings.result.round value) := by
  rw [outcome_calculate, value_of_isBlock block]

/-- A block that has a result has a value. -/
theorem exists_of_calculate (block : engine.IsBlock) {result : Decimal}
    (calculated : (engine.calculate bag).outcome = .ok result) :
    ∃ value, (engine.runBlock (engine.admitted bag)).outcome = .ok value := by
  rw [outcome_calculate_of_isBlock block] at calculated
  obtain ⟨value, found, -⟩ := exists_of_bind_eq_ok calculated
  exact ⟨value, found⟩

/--
Whether a run of the engine's block with a bag gets to a scope with some texts still to be read.
The history is everything that has been bound to a name, oldest first: the parameters, and then the
variables with the values that were assigned.
-/
inductive Reaches (engine : Engine) (bag : Bag) : History → Scope → List (List Char) → Prop
  /-- Nothing has been read. -/
  | start : Reaches engine bag bag.entries ⟨bag, .empty⟩
      (splitAtEach ';' engine.settings.expression.toList)
  /-- A text without a statement is passed over. -/
  | blank {history scope text texts} (reaches : Reaches engine bag history scope (text :: texts))
      (read : Statement.ofText? text = .ok none) : Reaches engine bag history scope texts
  /-- A variable gets the value of an expression. -/
  | assigned {history scope text texts name expression value}
      (reaches : Reaches engine bag history scope (text :: texts))
      (read : Statement.ofText? text = .ok (some (.assignment name expression)))
      (evaluated : (scope.value engine expression).outcome = .ok value) :
      Reaches engine bag (history ++ [(name, some value)]) (scope.assign name value) texts
  /-- A function is defined. -/
  | defined {history scope text texts function}
      (reaches : Reaches engine bag history scope (text :: texts))
      (read : Statement.ofText? text = .ok (some (.definition function))) :
      Reaches engine bag history (scope.define function) texts

/-- The rest of a run has the outcome of the whole. -/
theorem Reaches.outcome_run {history : History} {scope : Scope} {texts : List (List Char)}
    (reaches : engine.Reaches bag history scope texts) :
    (scope.run engine texts).outcome = (engine.runBlock bag).outcome := by
  induction reaches with
  | start => rfl
  | blank _ read ih => rw [← ih, Scope.outcome_run_blank read]
  | assigned _ read evaluated ih =>
      rw [← ih, Scope.outcome_run_assignment read, evaluated, ok_bind]
  | defined _ read ih => rw [← ih, Scope.outcome_run_definition read]

end Engine
end Reckoner
