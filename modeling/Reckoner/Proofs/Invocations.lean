import Reckoner.Proofs.Parsing

/-!
# Invocations

Which functions are called, and with which arguments, while an expression is evaluated.  Evaluation
is strict, so the fault of a function that is called is the fault of the expression
(`Tree.Invokes.outcome_of_error`); and of the functions nothing matters but what the calls that are
made come to (`Tree.outcome_evaluate_congr`).
-/

namespace Reckoner

/-- What a call of a function comes to, if the name stands for one. -/
def Lookup.outcome? (lookup : Lookup) (name : String) (values : List Decimal) :
    Option (Except Fault Decimal) :=
  (lookup name).map fun callee => (callee values).outcome

/-- Whether the same names stand for functions in two lookups. -/
def Lookup.SameNames (lookup other : Lookup) : Prop :=
  ∀ name, (lookup name).isSome = (other name).isSome

namespace Tree

mutual

/-- Whether evaluating a tree calls the named function with the given values. -/
def Invokes (settings : Settings) (lookup : Lookup) (name : String) (values : List Decimal) :
    Tree → Prop
  | number _ => False
  | call other arguments =>
    (lookup other).isSome = true ∧
      (AnyInvokes settings lookup name values arguments ∨
        other = name ∧ (evaluateAll settings lookup arguments).outcome = .ok values)
  | group inner => inner.Invokes settings lookup name values
  | plus operand => operand.Invokes settings lookup name values
  | minus operand => operand.Invokes settings lookup name values
  | operation _ left right =>
    left.Invokes settings lookup name values ∨
      left.Evaluates settings lookup ∧ right.Invokes settings lookup name values
  | unreadable _ => False

/-- Whether evaluating several trees in turn calls the named function with the given values. -/
def AnyInvokes (settings : Settings) (lookup : Lookup) (name : String) (values : List Decimal) :
    List Tree → Prop
  | [] => False
  | tree :: trees =>
    tree.Invokes settings lookup name values ∨
      tree.Evaluates settings lookup ∧ AnyInvokes settings lookup name values trees

end

variable {settings other : Settings} {lookup second : Lookup} {name : String}
  {values : List Decimal}

/-! ## The fault of a call -/

mutual

/-- The fault of a function that is called is that of the whole tree. -/
theorem Invokes.outcome_of_error {fault : Fault}
    (failed : lookup.outcome? name values = some (.error fault)) :
    (tree : Tree) → tree.Invokes settings lookup name values →
      (tree.evaluate settings lookup).outcome = .error fault
  | number _, invokes => absurd invokes (by simp [Invokes])
  | unreadable _, invokes => absurd invokes (by simp [Invokes])
  | call function arguments, invokes => by
      rw [Invokes] at invokes
      obtain ⟨known, inner | ⟨rfl, evaluated⟩⟩ := invokes
      · obtain ⟨callee, found⟩ := Option.isSome_iff_exists.mp known
        rw [outcome_evaluate_call, Lookup.outcomes, found]
        rw [AnyInvokes.outcome_of_error failed arguments inner]
        rfl
      · obtain ⟨callee, found, same⟩ := Option.map_eq_some_iff.mp failed
        rw [outcome_evaluate_call, Lookup.outcomes, found]
        rw [evaluated]
        exact same
  | group inner, invokes => by
      rw [Invokes] at invokes
      rw [outcome_evaluate_group]
      exact Invokes.outcome_of_error failed inner invokes
  | plus operand, invokes => by
      rw [Invokes] at invokes
      rw [outcome_evaluate_plus]
      exact Invokes.outcome_of_error failed operand invokes
  | minus operand, invokes => by
      rw [Invokes] at invokes
      rw [outcome_evaluate_minus, Invokes.outcome_of_error failed operand invokes]
      rfl
  | operation operator left right, invokes => by
      rw [Invokes] at invokes
      rw [outcome_evaluate_operation]
      obtain inLeft | ⟨⟨leftValue, evaluated⟩, inRight⟩ := invokes
      · rw [Invokes.outcome_of_error failed left inLeft]
        rfl
      · rw [evaluated, Invokes.outcome_of_error failed right inRight]
        rfl

theorem AnyInvokes.outcome_of_error {fault : Fault}
    (failed : lookup.outcome? name values = some (.error fault)) :
    (trees : List Tree) → AnyInvokes settings lookup name values trees →
      (evaluateAll settings lookup trees).outcome = .error fault
  | [], invokes => absurd invokes (by simp [AnyInvokes])
  | tree :: trees, invokes => by
      rw [AnyInvokes] at invokes
      rw [outcome_evaluateAll_cons]
      obtain first | ⟨⟨value, evaluated⟩, later⟩ := invokes
      · rw [Invokes.outcome_of_error failed tree first]
        rfl
      · rw [evaluated, AnyInvokes.outcome_of_error failed trees later]
        rfl

end

/-! ## What evaluation depends on -/

mutual

/-- Evaluation depends on the precision and on what the calls that are made come to. -/
theorem outcome_evaluate_congr (precision : settings.calculation = other.calculation)
    (names : lookup.SameNames second) : (tree : Tree) →
    (∀ name values, tree.Invokes settings lookup name values →
      lookup.outcome? name values = second.outcome? name values) →
    (tree.evaluate settings lookup).outcome = (tree.evaluate other second).outcome
  | number text, _ => by rw [outcome_evaluate_number, outcome_evaluate_number, precision]
  | unreadable fault, _ => by rw [outcome_evaluate_unreadable, outcome_evaluate_unreadable]
  | call function arguments, same => by
      simp only [Invokes] at same
      rw [outcome_evaluate_call, outcome_evaluate_call, Lookup.outcomes, Lookup.outcomes]
      have known := names function
      cases found : lookup function with
      | none =>
          rw [found] at known
          rw [Option.isSome_eq_false_iff.mp known.symm |> Option.isNone_iff_eq_none.mp]
          rfl
      | some callee =>
          rw [found] at known
          obtain ⟨secondCallee, secondFound⟩ := Option.isSome_iff_exists.mp known.symm
          have isKnown : (lookup function).isSome = true := by rw [found]; rfl
          have all := outcome_evaluateAll_congr precision names arguments
            fun name values inner => same name values ⟨isKnown, .inl inner⟩
          rw [secondFound]
          dsimp only [Option.map_some]
          rw [← all]
          cases evaluated : (evaluateAll settings lookup arguments).outcome with
          | error fault => rfl
          | ok values =>
              have called := same function values ⟨isKnown, .inr ⟨rfl, evaluated⟩⟩
              rw [Lookup.outcome?, Lookup.outcome?, found, secondFound] at called
              exact Option.some.inj called
  | group inner, same => by
      simp only [Invokes] at same
      rw [outcome_evaluate_group, outcome_evaluate_group]
      exact outcome_evaluate_congr precision names inner same
  | plus operand, same => by
      simp only [Invokes] at same
      rw [outcome_evaluate_plus, outcome_evaluate_plus]
      exact outcome_evaluate_congr precision names operand same
  | minus operand, same => by
      simp only [Invokes] at same
      rw [outcome_evaluate_minus, outcome_evaluate_minus,
        outcome_evaluate_congr precision names operand same]
  | operation operator left right, same => by
      simp only [Invokes] at same
      rw [outcome_evaluate_operation, outcome_evaluate_operation, ← precision,
        ← outcome_evaluate_congr precision names left fun name values inner =>
          same name values (.inl inner)]
      cases evaluated : (left.evaluate settings lookup).outcome with
      | error fault => rfl
      | ok leftValue =>
          rw [← outcome_evaluate_congr precision names right fun name values inner =>
            same name values (.inr ⟨⟨leftValue, evaluated⟩, inner⟩)]

theorem outcome_evaluateAll_congr (precision : settings.calculation = other.calculation)
    (names : lookup.SameNames second) : (trees : List Tree) →
    (∀ name values, AnyInvokes settings lookup name values trees →
      lookup.outcome? name values = second.outcome? name values) →
    (evaluateAll settings lookup trees).outcome = (evaluateAll other second trees).outcome
  | [], _ => by rw [outcome_evaluateAll_nil, outcome_evaluateAll_nil]
  | tree :: trees, same => by
      simp only [AnyInvokes] at same
      rw [outcome_evaluateAll_cons, outcome_evaluateAll_cons,
        ← outcome_evaluate_congr precision names tree fun name values inner =>
          same name values (.inl inner)]
      cases evaluated : (tree.evaluate settings lookup).outcome with
      | error fault => rfl
      | ok value =>
          rw [← outcome_evaluateAll_congr precision names trees fun name values inner =>
            same name values (.inr ⟨⟨value, evaluated⟩, inner⟩)]

end

end Tree

/-! ## Texts -/

/-- Whether evaluating a text calls the named function with the given values. -/
def Settings.Invokes (settings : Settings) (lookup : Lookup) (text : List Char) (name : String)
    (values : List Decimal) : Prop :=
  trim text ≠ [] ∧
    (Tree.ofTokens (Token.scan (trim text))).value.Invokes settings lookup name values

section Texts

variable {settings other : Settings} {lookup second : Lookup} {text : List Char} {name : String}
  {values : List Decimal}

/-- The fault of a function that is called comes out with the text around it. -/
theorem Settings.Invokes.outcome_of_error (invokes : settings.Invokes lookup text name values)
    {fault : Fault} (failed : lookup.outcome? name values = some (.error fault)) :
    (settings.evaluate lookup text).outcome =
      .error (.inExpression (String.ofList (trim text)) fault) := by
  obtain ⟨visible, inner⟩ := invokes
  rw [Settings.outcome_evaluate visible, Reading.evaluate, Run.outcome_bind,
    Tree.Invokes.outcome_of_error failed _ inner]
  rfl

/-- A function that is called while a text is given a value has a value. -/
theorem Settings.Invokes.exists_of_ok (invokes : settings.Invokes lookup text name values)
    (known : (lookup name).isSome = true) {value : Decimal}
    (evaluated : (settings.evaluate lookup text).outcome = .ok value) :
    ∃ result, lookup.outcome? name values = some (.ok result) := by
  obtain ⟨callee, found⟩ := Option.isSome_iff_exists.mp known
  cases called : (callee values).outcome with
  | ok result => exact ⟨result, by rw [Lookup.outcome?, found, Option.map_some, called]⟩
  | error fault =>
      have failed : lookup.outcome? name values = some (.error fault) := by
        rw [Lookup.outcome?, found, Option.map_some, called]
      rw [invokes.outcome_of_error failed] at evaluated
      exact nomatch evaluated

/-- The value of a text depends on the precision and on what the calls that are made come to. -/
theorem Settings.outcome_evaluate_congr (precision : settings.calculation = other.calculation)
    (names : lookup.SameNames second)
    (same : ∀ name values, settings.Invokes lookup text name values →
      lookup.outcome? name values = second.outcome? name values) :
    (settings.evaluate lookup text).outcome = (other.evaluate second text).outcome := by
  by_cases visible : trim text = []
  · simp [Settings.evaluate, visible, Precision.zero, precision]
  · have tree := Tree.outcome_evaluate_congr precision names
      (Tree.ofTokens (Token.scan (trim text))).value
      fun name values inner => same name values ⟨visible, inner⟩
    rw [Settings.outcome_evaluate visible, Settings.outcome_evaluate visible, Reading.evaluate,
      Reading.evaluate, Run.outcome_bind, Run.outcome_bind, tree]

end Texts

/-! ## Functions of an engine -/

/-- Whether all that a function knows of the settings is the precision of the calculation. -/
def Function.UsesPrecision (function : Function) : Prop :=
  ∀ settings, function settings = function { calculation := settings.calculation }

theorem Function.UsesPrecision.congr {function : Function} (uses : function.UsesPrecision)
    {settings other : Settings} (precision : settings.calculation = other.calculation) :
    function settings = function other := by
  rw [uses settings, uses other, precision]

/-- A built-in function knows of the settings no more than the precision. -/
theorem Builtin.usesPrecision {name : String} {function : Function}
    (found : builtin? name = some function) : function.UsesPrecision := by
  have all : ∀ entry ∈ Builtin.names, Function.UsesPrecision entry.2 := by
    simp only [Builtin.names, List.forall_mem_cons, List.not_mem_nil, false_implies,
      implies_true, and_true]
    refine ⟨?_, ?_, ?_, ?_, ?_, ?_, ?_, ?_, ?_, ?_, ?_, ?_, ?_, ?_, ?_, ?_, ?_, ?_, ?_⟩ <;>
      exact fun settings => rfl
  exact all _ (Bindings.mem_of_lookup found)

namespace Engine

variable {engine : Engine} {locals : Lookup} {name : String} {function : Function}

/-- A built-in function hides all others of its name. -/
theorem lookup_of_builtin (found : builtin? name = some function) (locals : Lookup) :
    engine.lookup locals name = some (engine.callee function) := by
  rw [lookup, found]

/-- A local function is called by its name if this is not that of a built-in one. -/
theorem lookup_of_local {callee : Callee} (absent : builtin? name = none)
    (found : locals name = some callee) : engine.lookup locals name = some callee := by
  rw [lookup, absent]
  dsimp only
  rw [found]

/-- A function of the host is called where there is no other of its name. -/
theorem lookup_of_host (absent : builtin? name = none) (unbound : locals name = none) :
    engine.lookup locals name = (engine.functions.find? name).map engine.callee := by
  rw [lookup, absent]
  dsimp only
  rw [unbound]

end Engine
end Reckoner
