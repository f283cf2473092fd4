import Reckoner.Block.Statement
import Reckoner.Evaluation
import Reckoner.Resolution

/-!
# Blocks and calculations

A block runs its statements in order against a scope of variables and local functions, until a
`return`.  A local function is kept as text and sees the variables of the scope at the time of the
call, with its arguments bound over them.  Calls of local functions inside each other are limited:
a call consumes one of the levels that are left, so evaluation ends whatever the functions do.

A calculation takes the engine's expression and a bag of parameters to one decimal.  A lone operator
folds the parameters, a text with a semicolon is a block, and everything else is one expression.
-/

namespace Reckoner

/-! ## Blocks -/

/-- The variables and local functions of a block at one moment. -/
structure Scope where
  /-- Parameters and variables. -/
  bag : Bag
  /-- The functions that statements have defined, the last definition of each name. -/
  functions : Bindings LocalFunction := .empty

namespace Scope

/-- The scope with a variable bound to a value. -/
def assign (scope : Scope) (name : String) (value : Decimal) : Scope :=
  { scope with bag := scope.bag.insert name (some value) }

/-- The scope with a local function added. -/
def define (scope : Scope) (function : LocalFunction) : Scope :=
  { scope with functions := scope.functions.insert function.name function }

/-- The variables with the arguments of a call bound to the parameters. -/
def bindings (scope : Scope) (function : LocalFunction) (arguments : List Decimal) : Bag :=
  scope.bag.insertAll ((function.parameters.zip arguments).map fun (name, value) =>
    (name, some value))

/-- Refuses a call with a wrong number of arguments. -/
def checkArity (function : LocalFunction) (arguments : List Decimal) : Except Fault Unit :=
  if arguments.length = function.parameters.length then
    .ok ()
  else
    .error (.arity function.name (toString function.parameters.length) arguments.length)

/--
Calls a local function when `levels` more calls may become active.  The body is resolved with the
bindings of the call and evaluated with one level less.
-/
def call (engine : Engine) (scope : Scope) : Nat → LocalFunction → Callee
  | 0, function, arguments => do
    Run.ofExcept (checkArity function arguments)
    Run.fail (.callDepthExceeded engine.settings.callLimit)
  | levels + 1, function, arguments => do
    Run.ofExcept (checkArity function arguments)
    let settings := engine.settings
    let resolved ← settings.resolve (scope.bindings function arguments) function.body.toList
    let locals := fun name => (scope.functions.find? name).map (call engine scope levels)
    let result ← settings.evaluate (engine.lookup locals) resolved
    settings.note fun _ =>
      s!"Calculated function: '{function.name}'. Expression: '{function.body}'. " ++
        s!"Resolved expression: '{String.ofList resolved}'. Result: {result.plain}"
    return result

/-- What the names of functions stand for in the scope when `depth` local calls are active. -/
def lookup (engine : Engine) (scope : Scope) (depth : Nat) : Lookup :=
  engine.lookup fun name =>
    (scope.functions.find? name).map (scope.call engine (engine.settings.callLimit - depth))

/-- The value of an expression in which names are already replaced. -/
def evaluate (engine : Engine) (scope : Scope) (depth : Nat) (text : List Char) : Run Decimal :=
  engine.settings.evaluate (scope.lookup engine depth) text

/-- The value of an expression of a statement. -/
def value (engine : Engine) (scope : Scope) (expression : String) : Run Decimal := do
  let resolved ← engine.settings.resolve scope.bag expression.toList
  scope.evaluate engine 0 resolved

/-- The value that the statements in the given texts return; texts after a `return` are not read. -/
def run (engine : Engine) : Scope → List (List Char) → Run Decimal
  | _, [] => Run.fail .missingReturn
  | scope, text :: texts => do
    let settings := engine.settings
    match ← Run.ofExcept (Statement.ofText? text) with
    | none => run engine scope texts
    | some (.answer expression) => do
      let result ← scope.value engine expression
      settings.note fun _ =>
        s!"Calculated return statement. Expression: '{expression}'. Result: {result.plain}"
      return result
    | some (.assignment name expression) => do
      let result ← scope.value engine expression
      settings.note fun _ =>
        s!"Calculated variable: '{name}'. Expression: '{expression}'. Result: {result.plain}"
      run engine (scope.assign name result) texts
    | some (.definition function) => do
      settings.note fun _ =>
        let parameters := ", ".intercalate function.parameters
        s!"Defined function '{function.name}({parameters})' as '{function.body}'"
      run engine (scope.define function) texts

end Scope

/-- The value of the engine's expression as a block, not rounded. -/
def Engine.runBlock (engine : Engine) (bag : Bag) : Run Decimal :=
  Scope.run engine ⟨bag, .empty⟩ (splitAtEach ';' engine.settings.expression.toList)

/-! ## Calculations -/

namespace Engine

/-- The parameters that a calculation works with. -/
def admitted (engine : Engine) (bag : Bag) : Bag :=
  if engine.settings.dropNulls then bag.withoutNulls else bag

/-- The value of the engine's expression before the final rounding. -/
def value (engine : Engine) (bag : Bag) : Run Decimal :=
  let expression := engine.settings.expression.toList
  match Operator.ofExpression? expression with
  | some operator => operator.fold engine.settings bag
  | none =>
    if expression.contains ';' then
      engine.runBlock bag
    else do
      let resolved ← engine.settings.resolve bag expression
      engine.evaluate resolved

/-- The value of the engine's expression, rounded to the precision of the result. -/
def calculate (engine : Engine) (bag : Bag) : Run Decimal := do
  let settings := engine.settings
  let value ← engine.value (engine.admitted bag)
  let result ← Run.ofExcept (settings.result.round value)
  settings.note fun _ => s!"Result of '{settings.expression}': {result.plain}"
  return result

/-- The outcomes of one expression for several bags, in their order. -/
def calculateAll (engine : Engine) (bags : List Bag) : List (Run Decimal) :=
  bags.map engine.calculate

end Engine

end Reckoner
