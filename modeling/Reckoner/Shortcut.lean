import Reckoner.Registry

/-!
# Shortcuts

Calculations in one call: the sum of a list, a rounded value, and an expression over doubles.
-/

namespace Reckoner

/-- Runs a calculation once the parameters are bound. -/
def Calculator.finish {result : NumberType} (bound : Except Fault Unit × Calculator result) :
    Run result.Carrier :=
  match bound.1 with
  | .ok () => bound.2.calculate.1
  | .error fault => Run.fail fault

/-- The sum of a list of values. -/
def summarize (result type : NumberType) (values : List type.Carrier) : Run result.Carrier :=
  let builder : Builder := {}
  let calculator := (builder.withOperator .add).build result
  Calculator.finish (calculator.bindValues type values)

/-- A value rounded to the given precision. -/
def roundValue (result type : NumberType) (value : type.Carrier) (precision : Precision) :
    Run result.Carrier :=
  let builder : Builder :=
    { settings :=
        { expression := "return ALL_PARAMS;", calculation := precision, result := precision } }
  Calculator.finish ((builder.build result).bindValues type [value])

/-- The value of an expression over doubles, with the names bound in code point order. -/
def evaluateExpression (expression : String) (context : Bindings Float) : Run Float :=
  let builder : Builder := { settings := { expression } }
  let entries := context.sortedKeys.filterMap fun name =>
    (context.find? name).map fun value => (name, value)
  Calculator.finish ((builder.build .float64).bindEach .float64 entries)

end Reckoner
