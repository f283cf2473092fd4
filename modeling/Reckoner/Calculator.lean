import Reckoner.Block
import Reckoner.Converter

/-!
# Calculators

A calculator holds an engine, converters and the parameters bound so far.  Parameters are bound in
any number type; a calculation answers in the calculator's own type and, if it succeeds, forgets the
parameters.  A session is a sequence of commands to one calculator.
-/

namespace Reckoner

/-- An engine with converters and a bag of parameters; its results are of the type `result`. -/
structure Calculator (result : NumberType) where
  /-- What is calculated, and how. -/
  engine : Engine
  /-- How values enter and leave. -/
  converters : Converters
  /-- The parameters bound since the last successful calculation. -/
  bag : Bag := .empty

/-- Something that a calculator can be told to do. -/
inductive Command
  /-- Bind a name to a value. -/
  | bind (name : String) (type : NumberType) (value : type.Carrier)
  /-- Bind several names to values, one after the other. -/
  | bindEach (type : NumberType) (entries : List (String × type.Carrier))
  /-- Bind values without names. -/
  | bindValues (type : NumberType) (values : List type.Carrier)
  /-- Bind a name to nothing. -/
  | bindNull (name : String)
  /-- Forget all parameters. -/
  | reset
  /-- Calculate with the bound parameters. -/
  | calculate
  /-- Calculate with other parameters. -/
  | calculateWith (bag : Bag)

namespace Calculator

variable {result : NumberType}

/-- The calculator with a name bound to a value. -/
def bind (calculator : Calculator result) (name : String) (type : NumberType)
    (value : type.Carrier) : Except Fault (Calculator result) := do
  let number ← calculator.converters.toDecimal type value
  return { calculator with bag := calculator.bag.insert name (some number) }

/-- Binds names to values up to the first value that cannot be converted. -/
def bindEach (type : NumberType) (calculator : Calculator result) :
    List (String × type.Carrier) → Except Fault Unit × Calculator result
  | [] => (.ok (), calculator)
  | (name, value) :: rest =>
    match calculator.bind name type value with
    | .ok bound => bindEach type bound rest
    | .error fault => (.error fault, calculator)

/-- The name that a value without a name gets when `size` parameters are bound. -/
def positionalName (size : Nat) : String := s!"_p{size}"

/-- Binds values to positional names up to the first value that cannot be converted. -/
def bindValues (type : NumberType) (calculator : Calculator result) :
    List type.Carrier → Except Fault Unit × Calculator result
  | [] => (.ok (), calculator)
  | value :: rest =>
    match calculator.bind (positionalName calculator.bag.size) type value with
    | .ok bound => bindValues type bound rest
    | .error fault => (.error fault, calculator)

/-- The calculator with a name bound to nothing. -/
def bindNull (calculator : Calculator result) (name : String) : Calculator result :=
  { calculator with bag := calculator.bag.insert name none }

/-- The calculator without parameters. -/
def reset (calculator : Calculator result) : Calculator result :=
  { calculator with bag := .empty }

/-- The result for the given parameters, in the calculator's type. -/
def calculateWith (calculator : Calculator result) (bag : Bag) : Run result.Carrier :=
  let answer := do
    let number ← calculator.engine.calculate bag
    Run.ofExcept (calculator.converters.ofDecimal result number)
  answer.mapFault (.inCalculation calculator.engine.settings.expression bag.describe)

/-- The results for several bags, in their order. -/
def calculateAll (calculator : Calculator result) (bags : List Bag) : List (Run result.Carrier) :=
  bags.map calculator.calculateWith

/-- The result for the bound parameters, which are forgotten if there is one. -/
def calculate (calculator : Calculator result) : Run result.Carrier × Calculator result :=
  let answer := calculator.calculateWith calculator.bag
  match answer.outcome with
  | .ok _ => (answer, calculator.reset)
  | .error _ => (answer, calculator)

/-- Carries out a command: what it answers, a value only after a calculation, and what it leaves. -/
def perform (calculator : Calculator result) :
    Command → Run (Option result.Carrier) × Calculator result
  | .bind name type value =>
    match calculator.bind name type value with
    | .ok bound => (pure none, bound)
    | .error fault => (Run.fail fault, calculator)
  | .bindEach type entries =>
    let (outcome, bound) := calculator.bindEach type entries
    (Run.ofExcept (outcome.map fun _ => none), bound)
  | .bindValues type values =>
    let (outcome, bound) := calculator.bindValues type values
    (Run.ofExcept (outcome.map fun _ => none), bound)
  | .bindNull name => (pure none, calculator.bindNull name)
  | .reset => (pure none, calculator.reset)
  | .calculate =>
    let (answer, left) := calculator.calculate
    (some <$> answer, left)
  | .calculateWith bag => (some <$> calculator.calculateWith bag, calculator)

end Calculator
end Reckoner
