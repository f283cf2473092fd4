import Reckoner.Proofs.Execution

/-!
# The limit of active calls

Raising the limit changes no answer and no fault but the one about the limit itself
(`calculate_of_le`).  One outcome refines another if it is the same wherever the other does not run
into a limit; every step of a calculation with more levels refines the step with fewer, by induction
on the levels that are left.
-/

namespace Reckoner

/-! ## Outcomes that are settled -/

/-- Whether an outcome has nothing to do with a limit of active calls. -/
def IsSettled {α : Type} (outcome : Except Fault α) : Prop :=
  ∀ fault limit, outcome = .error fault → fault.root ≠ .callDepthExceeded limit

/-- Whether a second outcome is the first one, provided that this is settled. -/
def Refines {α : Type} (first second : Except Fault α) : Prop :=
  IsSettled first → second = first

namespace Refines

variable {α β : Type}

theorem refl (outcome : Except Fault α) : Refines outcome outcome := fun _ => rfl

theorem bind {first second : Except Fault α} (refines : Refines first second)
    {next other : α → Except Fault β} (later : ∀ value, Refines (next value) (other value)) :
    Refines (first >>= next) (second >>= other) := by
  intro settled
  cases first with
  | error fault =>
      have same : second = .error fault := refines fun problem limit failed =>
        settled problem limit (by rw [← Except.error.inj failed]; rfl)
      rw [same]
      rfl
  | ok value =>
      have same : second = .ok value := refines fun problem limit failed => nomatch failed
      rw [same]
      exact later value settled

/-- A call that finds no level left is refined by every other with the same arguments. -/
theorem of_callDepthExceeded (limit : Nat) (other : Except Fault α) :
    Refines (.error (.callDepthExceeded limit)) other :=
  fun settled => absurd rfl (settled _ limit rfl)

end Refines

/-! ## Functions -/

/-- Whether the calls of one lookup refine those of another. -/
def Lookup.Refines (lookup other : Lookup) : Prop :=
  ∀ name, Option.Rel (fun callee second => ∀ values,
    Reckoner.Refines (callee values).outcome (second values).outcome) (lookup name) (other name)

/-- Evaluation refines where all calls do. -/
theorem Settings.refines_evaluate (settings other : Settings) {lookup second : Lookup}
    (precision : settings.calculation = other.calculation) (refines : lookup.Refines second)
    (text : List Char) :
    Refines (settings.evaluate lookup text).outcome (other.evaluate second text).outcome := by
  intro settled
  have names : lookup.SameNames second := fun name => by
    obtain ⟨left, right⟩ | ⟨callee, larger, left, right, -⟩ := rel_cases (refines name)
    · rw [left, right]
    · rw [left, right]
      rfl
  refine (Settings.outcome_evaluate_congr precision names fun name values invokes => ?_).symm
  obtain ⟨left, right⟩ | ⟨callee, larger, left, right, same⟩ := rel_cases (refines name)
  · rw [Lookup.outcome?, Lookup.outcome?, left, right]
  · have calls : lookup.outcome? name values = some (callee values).outcome := by
      rw [Lookup.outcome?, left, Option.map_some]
    -- A call that ran into the limit would have made the whole text do so.
    have calm : IsSettled (callee values).outcome := fun fault limit failed =>
      settled (.inExpression _ fault) limit
        (invokes.outcome_of_error (calls.trans (congrArg some failed)))
    rw [calls, Lookup.outcome?, right, Option.map_some, same values calm]

/-- The settings with another limit of active calls. -/
def Settings.limited (settings : Settings) (limit : Nat) : Settings :=
  { settings with callLimit := limit }

/-- Whether a function does the same under every limit of active calls. -/
def Function.IgnoresLimit (function : Function) : Prop :=
  ∀ settings limit, function (settings.limited limit) = function settings

theorem Builtin.ignoresLimit {name : String} {function : Function}
    (found : builtin? name = some function) : function.IgnoresLimit :=
  fun _ _ => (usesPrecision found).congr rfl

namespace Engine

variable (engine : Engine)

/-- The engine with another limit of active calls. -/
def limited (limit : Nat) : Engine := { engine with settings := engine.settings.limited limit }

/-- Whether no function of the host looks at the limit. -/
def HostIgnoresLimit : Prop :=
  ∀ name function, engine.functions.find? name = some function → function.IgnoresLimit

variable {engine}

/-- What a function that ignores the limit comes to. -/
theorem outcome_callee_limited {function : Function} (ignores : function.IgnoresLimit)
    (limit : Nat) (values : List Decimal) :
    ((engine.limited limit).callee function values).outcome = function engine.settings values :=
  congrFun (ignores engine.settings limit) values

/-- The functions of the host do not depend on the limit. -/
theorem functions_limited (limit : Nat) : (engine.limited limit).functions = engine.functions := rfl

/-- Where the local functions refine, all functions do. -/
theorem refines_lookup (ignoring : engine.HostIgnoresLimit) {low high : Nat}
    {locals others : Lookup} (refines : locals.Refines others) :
    ((engine.limited low).lookup locals).Refines ((engine.limited high).lookup others) := by
  have same {function : Function} (ignores : function.IgnoresLimit) (values : List Decimal) :
      Refines ((engine.limited low).callee function values).outcome
        ((engine.limited high).callee function values).outcome := by
    rw [outcome_callee_limited ignores, outcome_callee_limited ignores]
    exact .refl _
  intro name
  cases builtin : builtin? name with
  | some function =>
      rw [lookup_of_builtin builtin, lookup_of_builtin builtin]
      exact .some (same (Builtin.ignoresLimit builtin))
  | none =>
      obtain ⟨left, right⟩ | ⟨callee, larger, left, right, called⟩ := rel_cases (refines name)
      · rw [lookup_of_host builtin left, lookup_of_host builtin right, functions_limited,
          functions_limited]
        cases host : engine.functions.find? name with
        | none => exact .none
        | some function => exact .some (same (ignoring name function host))
      · rw [lookup_of_local builtin left, lookup_of_local builtin right]
        exact .some called

/-- An expression has the same outcome under another limit where local functions refine. -/
theorem refines_evaluate (ignoring : engine.HostIgnoresLimit) {low high : Nat}
    {locals others : Lookup} (refines : locals.Refines others) (text : List Char) :
    Refines
      ((engine.limited low).settings.evaluate ((engine.limited low).lookup locals) text).outcome
      ((engine.limited high).settings.evaluate
        ((engine.limited high).lookup others) text).outcome :=
  Settings.refines_evaluate (engine.limited low).settings (engine.limited high).settings rfl
    (refines_lookup ignoring refines) text

end Engine

/-! ## Calls and statements -/

namespace Scope

variable {engine : Engine} {low high : Nat}

/-- The local functions of a scope refine where their calls do. -/
theorem refines_callees (scope : Scope) {levels more : Nat}
    (refines : ∀ function arguments,
      Refines (scope.call (engine.limited low) levels function arguments).outcome
        (scope.call (engine.limited high) more function arguments).outcome) :
    (scope.callees (engine.limited low) levels).Refines
      (scope.callees (engine.limited high) more) := by
  intro name
  rw [callees, callees]
  cases scope.functions.find? name with
  | none => exact .none
  | some callee => exact .some (refines callee)

/-- A call with more levels left refines the call with fewer. -/
theorem refines_call (ignoring : engine.HostIgnoresLimit) (scope : Scope) {levels more : Nat}
    (le : levels ≤ more) (function : LocalFunction) (arguments : List Decimal) :
    Refines (scope.call (engine.limited low) levels function arguments).outcome
      (scope.call (engine.limited high) more function arguments).outcome := by
  induction levels generalizing more function arguments with
  | zero =>
      rw [outcome_call_zero]
      cases more with
      | zero =>
          rw [outcome_call_zero]
          exact (Refines.refl _).bind fun _ => .of_callDepthExceeded _ _
      | succ more =>
          rw [outcome_call_succ]
          exact (Refines.refl _).bind fun _ => .of_callDepthExceeded _ _
  | succ levels ih =>
      obtain ⟨more, rfl⟩ := Nat.exists_eq_add_of_le' le
      have fewer : levels ≤ more + levels := Nat.le_add_left levels more
      rw [← Nat.add_assoc, outcome_call_succ, outcome_call_succ]
      refine (Refines.refl _).bind fun _ => (Refines.refl _).bind fun resolved => ?_
      exact Engine.refines_evaluate ignoring (scope.refines_callees (ih fewer)) resolved

/-- The expression of a statement under a higher limit. -/
theorem refines_value (ignoring : engine.HostIgnoresLimit) (le : low ≤ high) (scope : Scope)
    (expression : String) :
    Refines (scope.value (engine.limited low) expression).outcome
      (scope.value (engine.limited high) expression).outcome := by
  rw [outcome_value, outcome_value]
  refine (Refines.refl _).bind fun resolved => ?_
  exact Engine.refines_evaluate ignoring
    (scope.refines_callees (refines_call ignoring scope le)) resolved

/-- Statements under a higher limit. -/
theorem refines_run (ignoring : engine.HostIgnoresLimit) (le : low ≤ high) (scope : Scope)
    (texts : List (List Char)) :
    Refines (scope.run (engine.limited low) texts).outcome
      (scope.run (engine.limited high) texts).outcome := by
  induction texts generalizing scope with
  | nil => exact .refl _
  | cons text texts ih =>
      cases read : Statement.ofText? text with
      | error fault =>
          rw [outcome_run_unreadable read, outcome_run_unreadable read]
          exact .refl _
      | ok found =>
          match found with
          | none =>
              rw [outcome_run_blank read, outcome_run_blank read]
              exact ih scope
          | some (.answer expression) =>
              rw [outcome_run_answer read, outcome_run_answer read]
              exact refines_value ignoring le scope expression
          | some (.assignment name expression) =>
              rw [outcome_run_assignment read, outcome_run_assignment read]
              exact (refines_value ignoring le scope expression).bind fun value => ih _
          | some (.definition function) =>
              rw [outcome_run_definition read, outcome_run_definition read]
              exact ih _

end Scope

/-! ## Calculations -/

/-- The value before the final rounding under a higher limit. -/
theorem Engine.refines_value {engine : Engine} (ignoring : engine.HostIgnoresLimit) {low high : Nat}
    (le : low ≤ high) (bag : Bag) :
    Refines ((engine.limited low).value bag).outcome ((engine.limited high).value bag).outcome := by
  have none : Lookup.Refines (fun _ => none) (fun _ => none) := fun _ => .none
  unfold Engine.value
  dsimp only [limited, Settings.limited]
  cases Operator.ofExpression? engine.settings.expression.toList with
  | some operator => exact .refl _
  | none =>
      dsimp only
      split
      · exact Scope.refines_run ignoring le ⟨bag, .empty⟩ _
      · rw [Run.outcome_bind, Run.outcome_bind]
        refine (Refines.refl _).bind fun resolved => ?_
        exact refines_evaluate ignoring none resolved

/--
Raising the limit of active calls changes neither a result nor a fault, with all contexts around it,
unless the root cause of the fault is a limit of active calls.  This is so for every expression,
whether a block or not, if no function of the host looks at the limit.
-/
theorem calculate_of_le (engine : Engine) (ignoring : engine.HostIgnoresLimit) (bag : Bag)
    {low high : Nat} (le : low ≤ high)
    (settled : IsSettled ((engine.limited low).calculate bag).outcome) :
    ((engine.limited high).calculate bag).outcome =
      ((engine.limited low).calculate bag).outcome := by
  have refines : Refines ((engine.limited low).calculate bag).outcome
      ((engine.limited high).calculate bag).outcome := by
    rw [Engine.outcome_calculate, Engine.outcome_calculate]
    exact (Engine.refines_value ignoring le _).bind fun value => .refl _
  exact refines settled

namespace Nested

/-- The name of the function of the host, which is called last. -/
def hostName : FunctionName := ⟨"h", isFunctionName_h⟩

/-- The name of the function that calls that of the host. -/
def innerName : FunctionName := ⟨"f", isFunctionName_f⟩

/-- The name of the function that calls the other one. -/
def outerName : FunctionName := ⟨"g", isFunctionName_g⟩

/-- The function that calls that of the host. -/
def inner : LocalFunction := ⟨"f", ["x"], "h(x)"⟩

/-- The function that calls the other one. -/
def outer : LocalFunction := ⟨"g", ["x"], "f(x)"⟩

/-- The engine with a block in which two calls of local functions are active at once, and a function
of the host is called in the inner one. -/
def engine : Engine :=
  { settings :=
      { expression := "f(x) = h(x); g(x) = f(x); return g(1);", calculation := { scale := 0 },
        result := { scale := 0 } }
    functions := .single "h" .first }

/-- The scope of the last statement. -/
def scope : Scope := ((⟨.empty, .empty⟩ : Scope).define inner).define outer

/-- The number 1. -/
def one : Decimal := .ofInt 1

theorem outcome_inner (limit levels : Nat) :
    (scope.call (engine.limited limit) (levels + 1) inner [one]).outcome = .ok one := by
  have resolved : ((engine.limited limit).settings.resolve (scope.bindings inner [one])
      inner.body.toList).outcome = .ok "h(1)".toList := by rfl
  have arity : Scope.checkArity inner [one] = .ok () := rfl
  have found : (engine.limited limit).lookup (scope.callees (engine.limited limit) levels)
      hostName.name = some ((engine.limited limit).callee .first) :=
    Scope.lookup_of_undefined (by decide +kernel) rfl levels
  have spaced : Spaced [hostName.name.toList, ['('], ['1'], [')']] "h(1)".toList :=
    .cons ['h'] (.cons ['('] (.cons ['1'] (.single [')'])))
  rw [Scope.outcome_call_succ, arity, resolved, ok_bind, ok_bind,
    Scope.evaluateWithin_applied hostName (.ofDigit '1' rfl) found rfl spaced]
  rfl

theorem outcome_outer (limit levels : Nat) :
    (scope.call (engine.limited limit) (levels + 2) outer [one]).outcome = .ok one := by
  have resolved : ((engine.limited limit).settings.resolve (scope.bindings outer [one])
      outer.body.toList).outcome = .ok "f(1)".toList := by rfl
  have arity : Scope.checkArity outer [one] = .ok () := rfl
  have found : (engine.limited limit).lookup (scope.callees (engine.limited limit) (levels + 1))
      innerName.name = some (scope.call (engine.limited limit) (levels + 1) inner) :=
    Scope.lookup_of_defined (by decide +kernel) rfl (levels + 1)
  have spaced : Spaced [innerName.name.toList, ['('], ['1'], [')']] "f(1)".toList :=
    .cons ['f'] (.cons ['('] (.cons ['1'] (.single [')'])))
  rw [Scope.outcome_call_succ, arity, resolved, ok_bind, ok_bind,
    Scope.evaluateWithin_applied innerName (.ofDigit '1' rfl) found rfl spaced]
  exact congrArg _ (outcome_inner limit levels)

theorem outcome_value (limit : Nat) :
    (scope.value (engine.limited (limit + 2)) "g(1)").outcome = .ok one := by
  have resolved : ((engine.limited (limit + 2)).settings.resolve scope.bag
      "g(1)".toList).outcome = .ok "g(1)".toList := by rfl
  have levels : (engine.limited (limit + 2)).settings.callLimit = limit + 2 := rfl
  have found : (engine.limited (limit + 2)).lookup (scope.callees (engine.limited (limit + 2))
      (limit + 2)) outerName.name = some (scope.call (engine.limited (limit + 2)) _ outer) :=
    Scope.lookup_of_defined (by decide +kernel) rfl (limit + 2)
  have spaced : Spaced [outerName.name.toList, ['('], ['1'], [')']] "g(1)".toList :=
    .cons ['g'] (.cons ['('] (.cons ['1'] (.single [')'])))
  rw [Scope.outcome_value, resolved, ok_bind, levels,
    Scope.evaluateWithin_applied outerName (.ofDigit '1' rfl) found rfl spaced]
  exact congrArg _ (outcome_outer (limit + 2) limit)

theorem read_inner :
    Statement.ofText? "f(x) = h(x)".toList = .ok (some (.definition inner)) := by rfl

theorem read_outer :
    Statement.ofText? " g(x) = f(x)".toList = .ok (some (.definition outer)) := by rfl

theorem read_answer :
    Statement.ofText? " return g(1)".toList = .ok (some (.answer "g(1)")) := by rfl

theorem split_expression : splitAtEach ';' engine.settings.expression.toList =
    ["f(x) = h(x)".toList, " g(x) = f(x)".toList, " return g(1)".toList, []] := by decide

theorem isBlock : engine.IsBlock := by decide

theorem outcome_calculate (limit : Nat) :
    ((engine.limited (limit + 2)).calculate .empty).outcome = .ok one := by
  have run : ((engine.limited (limit + 2)).runBlock .empty).outcome = .ok one := by
    have texts : splitAtEach ';' (engine.limited (limit + 2)).settings.expression.toList = _ :=
      split_expression
    rw [Engine.runBlock, texts, Scope.outcome_run_definition read_inner,
      Scope.outcome_run_definition read_outer, Scope.outcome_run_answer read_answer]
    exact outcome_value limit
  have admitted : (engine.limited (limit + 2)).admitted .empty = .empty := rfl
  have block : (engine.limited (limit + 2)).IsBlock := isBlock
  rw [Engine.outcome_calculate_of_isBlock block, admitted, run]
  rfl

theorem hostIgnoresLimit : engine.HostIgnoresLimit :=
  Bindings.forall_find?_single fun _ _ => rfl

end Nested

/-- Two levels are as good as the default for a block with two local calls inside each other. -/
theorem calculate_two_levels :
    ((Nested.engine.limited 64).calculate .empty).outcome =
      ((Nested.engine.limited 2).calculate .empty).outcome :=
  calculate_of_le Nested.engine Nested.hostIgnoresLimit .empty (by decide) fun _ _ failed =>
    nomatch (Nested.outcome_calculate 0).symm.trans failed

end Reckoner
