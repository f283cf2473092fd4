import Reckoner.Function.Parameters
import Reckoner.Text.Characters

/-!
# Built-in functions

The functions that every expression can call: aggregates, powers and roots, rounding, and the
floating-point functions.  Each has one or more names, which are looked up without regard to case.
-/

namespace Reckoner

namespace Builtin

/-- The sum of all arguments at their largest scale; zero of the calculation's scale for none. -/
def total (settings : Settings) : List Decimal → Decimal
  | [] => settings.calculation.zero
  | first :: others => others.foldl Decimal.sum first

/-- `sum(values…)`. -/
def sum : Function :=
  .declare "sum" ⟨[], .rest⟩ fun settings ((), values) => .ok (total settings values)

/-- `avg(values…)`: the sum divided by the number of values; zero for none. -/
def avg : Function :=
  .declare "avg" ⟨[], .rest⟩ fun settings ((), values) =>
    if values.isEmpty then
      .ok settings.calculation.zero
    else
      settings.calculation.divide (total settings values) (.ofInt values.length)

/-- `min(value, values…)`: the first of the smallest arguments. -/
def min : Function :=
  .declare "min" ⟨[.decimal], .rest⟩ fun _ ((first, ()), others) =>
    .ok (others.foldl Decimal.min first)

/-- `max(value, values…)`: the first of the largest arguments. -/
def max : Function :=
  .declare "max" ⟨[.decimal], .rest⟩ fun _ ((first, ()), others) =>
    .ok (others.foldl Decimal.max first)

/-- `root(value, degree)`: the power with the reciprocal degree, which is 2 if left out. -/
def root : Function :=
  .declare "root" ⟨[.float], .optional [.float]⟩ fun settings ((value, ()), (given, ())) =>
    let degree : Float := given.getD 2.0
    if degree == 0.0 then
      .error .divisionByZero
    else
      settings.calculation.ofFloat (Float.pow value (1.0 / degree))
        s!"root({floatText value}, {floatText degree})"

/-- `pow(base, exponent)`; without an exponent the square root of the base. -/
def pow : Function :=
  .declare "pow" ⟨[.float], .optional [.float]⟩ fun settings ((base, ()), (given, ())) =>
    match given with
    | some exponent =>
      settings.calculation.ofFloat (Float.pow base exponent)
        s!"pow({floatText base}, {floatText exponent})"
    | none => settings.calculation.ofFloat (Float.sqrt base) s!"pow({floatText base})"

/-- The scale that `round` rounds to if it is given none. -/
def roundScale : Int := 2

/-- `round(value, scale, mode)`: the mode is one of the codes of `Rounding.ofCode?`. -/
def round : Function :=
  .declare "round" ⟨[.decimal], .optional [.integer, .integer]⟩
    fun _ ((value, ()), (scale, code, ())) => do
      let mode ←
        match code with
        | none => pure Rounding.halfUp
        | some code =>
          match Rounding.ofCode? code with
          | some mode => pure mode
          | none => throw (.invalidRoundingMode (toString code))
      value.setScale (scale.getD roundScale) mode

/-- `abs(value)`. -/
def abs : Function :=
  .declare "abs" ⟨[.decimal], .optional []⟩ fun _ ((value, ()), ()) => .ok value.abs

/-- A function of one double whose result is named after it. -/
def floatFunction (name : String) (apply : Float → Float) : Function :=
  .declare name ⟨[.float], .optional []⟩ fun settings ((value, ()), ()) =>
    settings.calculation.ofFloat (apply value) name

/-- `sin(angle)`, the angle in radians. -/
def sin : Function := floatFunction "sin" Float.sin

/-- `cos(angle)`, the angle in radians. -/
def cos : Function := floatFunction "cos" Float.cos

/-- `tan(angle)`, the angle in radians. -/
def tan : Function := floatFunction "tan" Float.tan

/-- `ln(value)`, the natural logarithm. -/
def ln : Function := floatFunction "ln" Float.log

/-- `log(value)`, the logarithm to base ten. -/
def log : Function := floatFunction "log" Float.log10

/-- Every name of a built-in function, in small letters. -/
def names : List (String × Function) :=
  [("sum", sum), ("∑", sum), ("summe", sum), ("avg", avg), ("durchschnitt", avg),
    ("min", min), ("max", max),
    ("sqrt", root), ("root", root), ("√", root), ("wurzel", root), ("pow", pow),
    ("round", round), ("abs", abs),
    ("sin", sin), ("cos", cos), ("tan", tan), ("ln", ln), ("log", log)]

end Builtin

/--
The built-in function of a name, in any case.  Folding ASCII capitals is enough: the one other
character with a lone ASCII small letter is the Kelvin sign, and no name has a `k`.
-/
def builtin? (name : String) : Option Function :=
  Bindings.lookup (String.ofList (foldCase name.toList)) Builtin.names

end Reckoner
