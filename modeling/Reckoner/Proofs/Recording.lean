import Reckoner.Proofs.Execution
import Reckoner.Proofs.Folds

/-!
# Recording

Whether the steps of a calculation are recorded has no influence on its outcome, if no function of
the host looks at the switch (`Engine.outcome_calculate_recording`).  A note has no value, and two
lookups in which all calls come to the same lead to the same outcomes of expressions; for the local
functions this follows by induction on the levels that are left.
-/

namespace Reckoner

/-- The settings with the record switched on or off. -/
def Settings.recording (settings : Settings) (tracing : Bool) : Settings :=
  { settings with tracing }

/-- The outcome of resolving a text depends only on the precision of the calculation. -/
theorem Settings.outcome_resolve_recording (settings : Settings) (tracing : Bool) (bag : Bag)
    (text : List Char) :
    ((settings.recording tracing).resolve bag text).outcome =
      (settings.resolve bag text).outcome := by
  rw [outcome_resolve, outcome_resolve]
  rfl

/-- Whether a function does the same whether or not its steps are recorded. -/
def Function.IgnoresRecording (function : Function) : Prop :=
  ∀ settings tracing, function (settings.recording tracing) = function settings

theorem Builtin.ignoresRecording {name : String} {function : Function}
    (found : builtin? name = some function) : function.IgnoresRecording :=
  fun _ _ => (usesPrecision found).congr rfl

/-! ## Calls that come to the same -/

/-- Whether the calls of two lookups come to the same. -/
def Lookup.Agrees (lookup other : Lookup) : Prop :=
  ∀ name values, lookup.outcome? name values = other.outcome? name values

theorem Lookup.Agrees.sameNames {lookup other : Lookup} (agrees : lookup.Agrees other) :
    lookup.SameNames other := by
  intro name
  have same := congrArg Option.isSome (agrees name [])
  rwa [outcome?, outcome?, Option.isSome_map, Option.isSome_map] at same

namespace Engine

/-- The engine with the record switched on or off. -/
def recording (engine : Engine) (tracing : Bool) : Engine :=
  { engine with settings := engine.settings.recording tracing }

/-- Whether no function of the host looks at the switch. -/
def HostIgnoresRecording (engine : Engine) : Prop :=
  ∀ name function, engine.functions.find? name = some function → function.IgnoresRecording

variable {engine : Engine} {tracing : Bool}

theorem outcome_callee_recording {function : Function} (ignores : function.IgnoresRecording)
    (tracing : Bool) (values : List Decimal) :
    ((engine.recording tracing).callee function values).outcome =
      (engine.callee function values).outcome :=
  congrFun (ignores engine.settings tracing) values

/-- Where the calls of local functions come to the same, all calls do. -/
theorem lookup_recording (ignoring : engine.HostIgnoresRecording) (tracing : Bool)
    {locals others : Lookup} (agrees : locals.Agrees others) :
    ((engine.recording tracing).lookup locals).Agrees (engine.lookup others) := by
  intro name values
  rw [Lookup.outcome?, Lookup.outcome?]
  cases builtin : builtin? name with
  | some function =>
      rw [lookup_of_builtin builtin, lookup_of_builtin builtin]
      exact congrArg some (outcome_callee_recording (Builtin.ignoresRecording builtin) tracing _)
  | none =>
      have same := agrees name values
      have known := agrees.sameNames name
      rw [Lookup.outcome?, Lookup.outcome?] at same
      cases found : locals name with
      | some callee =>
          rw [found] at known same
          obtain ⟨other, otherFound⟩ := Option.isSome_iff_exists.mp known.symm
          rw [otherFound] at same
          rw [lookup_of_local builtin found, lookup_of_local builtin otherFound]
          exact same
      | none =>
          rw [found] at known
          have unbound := Option.isNone_iff_eq_none.mp (Option.isSome_eq_false_iff.mp known.symm)
          rw [lookup_of_host builtin found, lookup_of_host builtin unbound, Option.map_map,
            Option.map_map]
          change (engine.functions.find? name).map _ = _
          cases host : engine.functions.find? name with
          | none => rfl
          | some function =>
              exact congrArg some (outcome_callee_recording (ignoring name function host) tracing _)

/-- An expression has the same outcome where the local functions do. -/
theorem outcome_evaluate_recording (ignoring : engine.HostIgnoresRecording)
    {locals others : Lookup} (agrees : locals.Agrees others) (text : List Char) :
    ((engine.recording tracing).settings.evaluate
        ((engine.recording tracing).lookup locals) text).outcome =
      (engine.settings.evaluate (engine.lookup others) text).outcome := by
  have all := lookup_recording ignoring tracing agrees
  exact Settings.outcome_evaluate_congr rfl all.sameNames fun name values _ => all name values

end Engine

/-! ## Calls and statements -/

namespace Scope

variable {engine : Engine} {tracing : Bool}

/-- The local functions of a scope agree where their calls do. -/
theorem agrees_callees (scope : Scope) {levels : Nat}
    (same : ∀ function arguments,
      (scope.call (engine.recording tracing) levels function arguments).outcome =
        (scope.call engine levels function arguments).outcome) :
    (scope.callees (engine.recording tracing) levels).Agrees (scope.callees engine levels) := by
  intro name values
  rw [Lookup.outcome?, Lookup.outcome?, callees, callees, Option.map_map, Option.map_map]
  cases scope.functions.find? name with
  | none => rfl
  | some function => exact congrArg some (same function values)

theorem outcome_call_recording (ignoring : engine.HostIgnoresRecording) (scope : Scope)
    (levels : Nat) (function : LocalFunction) (arguments : List Decimal) :
    (scope.call (engine.recording tracing) levels function arguments).outcome =
      (scope.call engine levels function arguments).outcome := by
  induction levels generalizing function arguments with
  | zero =>
      rw [outcome_call_zero, outcome_call_zero]
      rfl
  | succ levels ih =>
      have body (resolved : List Char) :
          scope.evaluateWithin (engine.recording tracing) levels resolved =
            scope.evaluateWithin engine levels resolved :=
        Engine.outcome_evaluate_recording ignoring (scope.agrees_callees ih) resolved
      have names : (engine.recording tracing).settings = engine.settings.recording tracing := rfl
      rw [outcome_call_succ, outcome_call_succ, names, Settings.outcome_resolve_recording]
      simp only [body]

theorem outcome_value_recording (ignoring : engine.HostIgnoresRecording) (scope : Scope)
    (expression : String) :
    (scope.value (engine.recording tracing) expression).outcome =
      (scope.value engine expression).outcome := by
  have levels : (engine.recording tracing).settings.callLimit = engine.settings.callLimit := rfl
  have text (resolved : List Char) :
      scope.evaluateWithin (engine.recording tracing) engine.settings.callLimit resolved =
        scope.evaluateWithin engine engine.settings.callLimit resolved :=
    Engine.outcome_evaluate_recording ignoring
      (scope.agrees_callees (outcome_call_recording ignoring scope _)) resolved
  have names : (engine.recording tracing).settings = engine.settings.recording tracing := rfl
  rw [outcome_value, outcome_value, levels, names, Settings.outcome_resolve_recording]
  simp only [text]

theorem outcome_run_recording (ignoring : engine.HostIgnoresRecording) (scope : Scope)
    (texts : List (List Char)) :
    (scope.run (engine.recording tracing) texts).outcome = (scope.run engine texts).outcome := by
  induction texts generalizing scope with
  | nil => rfl
  | cons text texts ih =>
      cases read : Statement.ofText? text with
      | error fault => rw [outcome_run_unreadable read, outcome_run_unreadable read]
      | ok found =>
          match found with
          | none => rw [outcome_run_blank read, outcome_run_blank read, ih]
          | some (.answer expression) =>
              rw [outcome_run_answer read, outcome_run_answer read,
                outcome_value_recording ignoring]
          | some (.assignment name expression) =>
              rw [outcome_run_assignment read, outcome_run_assignment read,
                outcome_value_recording ignoring]
              simp only [ih]
          | some (.definition function) =>
              rw [outcome_run_definition read, outcome_run_definition read, ih]

end Scope

/-! ## Calculations -/

namespace Engine

variable {engine : Engine}

theorem outcome_value_recording (ignoring : engine.HostIgnoresRecording) (tracing : Bool)
    (bag : Bag) :
    ((engine.recording tracing).value bag).outcome = (engine.value bag).outcome := by
  have names : (engine.recording tracing).settings = engine.settings.recording tracing := rfl
  by_cases block : engine.IsBlock
  · have recordingBlock : (engine.recording tracing).IsBlock := block
    rw [value_of_isBlock block, value_of_isBlock recordingBlock]
    exact Scope.outcome_run_recording ignoring _ _
  · have noBlock : ¬ (engine.recording tracing).IsBlock := block
    cases lone : Operator.ofExpression? engine.settings.expression.toList with
    | some operator =>
        have recordingLone : Operator.ofExpression?
            (engine.recording tracing).settings.expression.toList = some operator := lone
        rw [value, value, lone, recordingLone]
        dsimp only
        rw [Operator.outcome_fold, Operator.outcome_fold]
        rfl
    | none =>
        have nothing : Lookup.Agrees (fun _ => none) (fun _ => none) := fun _ _ => rfl
        rw [outcome_value_of_single block lone, outcome_value_of_single noBlock lone]
        simp only [outcome_evaluate_recording ignoring nothing]
        rw [names, Settings.outcome_resolve_recording]
        rfl

/-- Whether steps are recorded has no influence on the outcome of a calculation. -/
theorem outcome_calculate_recording (ignoring : engine.HostIgnoresRecording) (tracing : Bool)
    (bag : Bag) :
    ((engine.recording tracing).calculate bag).outcome = (engine.calculate bag).outcome := by
  have admitted : (engine.recording tracing).admitted bag = engine.admitted bag := rfl
  rw [outcome_calculate, outcome_calculate, admitted, outcome_value_recording ignoring]
  rfl

end Engine
end Reckoner
