import Reckoner.Bindings
import Reckoner.Precision
import Reckoner.Text.Quoted

/-!
# Settings

What a calculation needs to know besides its parameters: the expression, the two precisions and a
few switches.  An engine adds the functions of the host, which see the settings of the calculation
that calls them.
-/

namespace Reckoner

/-- How an expression is calculated. -/
structure Settings where
  /-- The text that is calculated. -/
  expression : String := ""
  /-- Precision of literals, quotients, powers and floating-point results. -/
  calculation : Precision := {}
  /-- Precision of the final result. -/
  result : Precision := {}
  /-- Whether parameters without a value are dropped before the calculation. -/
  dropNulls : Bool := false
  /-- How many calls of local functions may be active at once. -/
  callLimit : Nat := 64
  /-- Whether the steps of a calculation are recorded. -/
  tracing : Bool := false
  deriving DecidableEq, Repr

/-- A function on decimals, told the settings of the calculation. -/
abbrev Function := Settings → List Decimal → Except Fault Decimal

/-- Settings together with the functions that the host adds. -/
structure Engine where
  /-- How expressions are calculated. -/
  settings : Settings := {}
  /-- The functions of the host under the names that call them. -/
  functions : Bindings Function := .empty

/-- A precision as descriptions show it. -/
def Precision.describe (precision : Precision) : String :=
  s!"MathContext \x7b scale: {precision.scale}, rounding: {precision.rounding.name} \x7d"

/-- A truth value as descriptions show it. -/
def describeSwitch (switch : Bool) : String := if switch then "true" else "false"

/-- The settings and the names of the host's functions in one line. -/
def Engine.describe (engine : Engine) : String :=
  let settings := engine.settings
  let names := ", ".intercalate (engine.functions.sortedKeys.map Quoted.text)
  "CalculationOptions \x7b " ++ ", ".intercalate
    ["expression: " ++ Quoted.text settings.expression,
      "calculation: " ++ settings.calculation.describe,
      "result: " ++ settings.result.describe,
      "functions: [" ++ names ++ "]",
      "debug: " ++ describeSwitch settings.tracing,
      "remove_null_parameters: " ++ describeSwitch settings.dropNulls,
      "max_call_depth: " ++ toString settings.callLimit] ++ " \x7d"

end Reckoner
