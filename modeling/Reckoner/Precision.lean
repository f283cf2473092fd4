import Reckoner.Binary
import Reckoner.Decimal.Numeral

/-!
# Precision

A precision is a scale with a rounding mode.  Every operation that can produce an inexact value
rounds to a precision, and rounds exactly once: literals, quotients, powers, and values that come
from floating-point functions.
-/

namespace Reckoner

namespace Decimal

/-- The largest magnitude of an exponent for which a power is computed exactly. -/
def exactPowerLimit : Nat := 1024

/-- The integer that a number is equal to, if it is one of at most `exactPowerLimit`. -/
def smallInteger? (number : Decimal) : Option Int :=
  match number.truncate with
  | .error _ => none
  | .ok whole =>
    if number.digits % tenPower number.scale.toNat = 0 ∧ whole.natAbs ≤ exactPowerLimit then
      some whole
    else
      none

/-- The exact power with a natural exponent: the scale grows with the digits. -/
def natPower (base : Decimal) (exponent : Nat) : Decimal :=
  let magnitude : Int := Nat.pow base.digits.natAbs exponent
  ⟨if base.digits < 0 ∧ exponent % 2 = 1 then -magnitude else magnitude, base.scale * exponent⟩

end Decimal

/-- A scale to work at and the mode that rounds to it. -/
structure Precision where
  /-- Digits after the point. -/
  scale : Int := 10
  /-- How digits beyond the scale are rounded. -/
  rounding : Rounding := .halfUp
  deriving DecidableEq, Repr

namespace Precision

/-- The zero of the precision's scale. -/
def zero (precision : Precision) : Decimal := ⟨0, precision.scale⟩

/-- A number rounded to the precision. -/
def round (precision : Precision) (number : Decimal) : Except Fault Decimal :=
  number.setScale precision.scale precision.rounding

/-- The number that a literal writes, rounded to the precision. -/
def literal (precision : Precision) (text : List Char) : Except Fault Decimal :=
  match Decimal.ofNumeral text with
  | .ok number => precision.round number
  | .error defect =>
    .error (.malformed s!"invalid number '{String.ofList text}': {defect.message}")

/--
The quotient rounded to the precision.  The digits of one operand are shifted so that the integer
quotient has the wanted scale; the sign of the divisor goes to the dividend.
-/
def divide (precision : Precision) (dividend divisor : Decimal) : Except Fault Decimal :=
  if divisor.digits = 0 then
    .error .divisionByZero
  else
    let numerator := if divisor.digits < 0 then -dividend.digits else dividend.digits
    let denominator := divisor.digits.natAbs
    let shift := precision.scale - dividend.scale + divisor.scale
    if 0 ≤ shift then do
      let factor ← Decimal.shiftFactor shift.toNat
      return ⟨precision.rounding.quotient (numerator * factor) denominator, precision.scale⟩
    else do
      let factor ← Decimal.shiftFactor (-shift).toNat
      return ⟨precision.rounding.quotient numerator (denominator * factor), precision.scale⟩

/-- The shortest decimal of a double, rounded to the precision; `what` names an impossible value. -/
def ofFloat (precision : Precision) (value : Float) (what : String) : Except Fault Decimal :=
  match floatDecimal? value with
  | some number => precision.round number
  | none => .error (.nonFinite what)

/--
A power rounded to the precision.  A small integer exponent gives the exact power, or its exact
reciprocal; every other exponent goes through doubles.
-/
def power (precision : Precision) (base exponent : Decimal) : Except Fault Decimal :=
  match exponent.smallInteger? with
  | some count =>
    let exact := base.natPower count.natAbs
    if count < 0 then precision.divide (.ofInt 1) exact else precision.round exact
  | none => do
    let floatBase ← base.toFloat
    let floatExponent ← exponent.toFloat
    precision.ofFloat (Float.pow floatBase floatExponent) s!"{base.plain} ^ {exponent.plain}"

end Precision
end Reckoner
