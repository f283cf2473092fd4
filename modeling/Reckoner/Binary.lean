import Reckoner.Decimal

/-!
# Binary floating-point numbers

The two binary interchange formats in use, `Binary.double` and `Binary.single`, as bit patterns:
what number a pattern stands for, the pattern nearest to a fraction (`Binary.nearest`, a tie to the
even significand), and the decimal with the fewest digits that is read back as the same pattern
(`Binary.shortest`, the nearest of those to the number, a tie upward).  All of it is exact integer
arithmetic.
-/

namespace Reckoner

/-- The layout of a binary interchange format: a sign bit, an exponent and a fraction. -/
structure Binary where
  /-- Bits of the significand after its leading one. -/
  fractionBits : Nat
  /-- Bits of the biased exponent. -/
  exponentBits : Nat
  deriving DecidableEq, Repr

namespace Binary

/-- The format of 64 bits. -/
def double : Binary := ⟨52, 11⟩

/-- The format of 32 bits. -/
def single : Binary := ⟨23, 8⟩

/-- What a bit pattern stands for. -/
inductive Value
  /-- The number `significand * 2 ^ exponent` with a sign, which zero has too. -/
  | finite (negative : Bool) (significand : Nat) (exponent : Int)
  /-- One of the two infinities. -/
  | infinite (negative : Bool)
  /-- Not a number. -/
  | undefined
  deriving DecidableEq, Repr

/-- The weight of a pattern's implicit leading bit, and of one step of its exponent. -/
def unit (format : Binary) : Nat := 1 <<< format.fractionBits

/-- The exponent field of infinities and undefined values. -/
def topExponent (format : Binary) : Nat := (1 <<< format.exponentBits) - 1

/-- The weight of the sign bit. -/
def signBit (format : Binary) : Nat := 1 <<< (format.fractionBits + format.exponentBits)

/-- The pattern of positive infinity. -/
def infinity (format : Binary) : Nat := format.topExponent * format.unit

/-- The binary exponent of the last significand bit of the smallest numbers. -/
def leastExponent (format : Binary) : Int :=
  1 - (format.topExponent / 2 : Nat) - format.fractionBits

/-- The value of a bit pattern. -/
def decode (format : Binary) (bits : Nat) : Value :=
  let negative := decide (bits / format.signBit % 2 = 1)
  let biased := bits / format.unit % (format.topExponent + 1)
  let fraction := bits % format.unit
  if biased = format.topExponent then
    if fraction = 0 then .infinite negative else .undefined
  else if biased = 0 then
    .finite negative fraction format.leastExponent
  else
    .finite negative (format.unit + fraction) (format.leastExponent + (biased - 1))

/-- The factors by which a fraction is divided by a power of two. -/
def scaledDown (numerator denominator : Nat) (exponent : Int) : Nat × Nat :=
  if 0 ≤ exponent then
    (numerator, denominator <<< exponent.toNat)
  else
    (numerator <<< (-exponent).toNat, denominator)

/-- The largest exponent of two that is not above a positive fraction. -/
def leadingExponent (numerator denominator : Nat) : Int :=
  let guess : Int := numerator.log2 - denominator.log2
  let (above, below) := scaledDown numerator denominator guess
  if below ≤ above then guess else guess - 1

/--
The pattern of the number nearest to a fraction that is not negative, infinity beyond the largest
number.  The significand is rounded at the exponent that leaves it `fractionBits + 1` bits, or at
the least exponent; one that rounds up to a further bit carries into the exponent field by itself.
-/
def nearest (format : Binary) (numerator denominator : Nat) : Nat :=
  if numerator = 0 then
    0
  else
    let fine := leadingExponent numerator denominator - format.fractionBits
    let exponent := if fine < format.leastExponent then format.leastExponent else fine
    let (above, below) := scaledDown numerator denominator exponent
    let significand := (Rounding.halfEven.quotient above below).toNat
    let bits := (exponent - format.leastExponent).toNat * format.unit + significand
    if bits < format.infinity then bits else format.infinity

/--
Whether `numerator / 10 ^ power` is sure to be below half of the least positive number, because the
numerator has `log2 + 1` binary digits and each division by ten takes away at least three of them.
-/
def vanishes (format : Binary) (numerator power : Nat) : Bool :=
  decide ((numerator.log2 : Int) + 2 - 3 * power ≤ format.leastExponent)

/--
The pattern of the number nearest to a decimal.  A decimal with more than `Decimal.shiftLimit` zeros
in front of the point is beyond every format unless it is zero, and no power of ten is formed for a
decimal that is too small for the format.
-/
def ofDecimal (format : Binary) (number : Decimal) : Nat :=
  let numerator := number.digits.natAbs
  let magnitude :=
    if numerator = 0 then 0
    else if number.scale < -Decimal.shiftLimit then format.infinity
    else if number.scale ≤ 0 then
      format.nearest (numerator * tenPower (-number.scale).toNat) 1
    else if format.vanishes numerator number.scale.toNat then 0
    else format.nearest numerator (tenPower number.scale.toNat)
  if number.digits < 0 then format.signBit + magnitude else magnitude

/-- The reals that round to a number: its own value and the ends of the interval around it. -/
structure Interval where
  /-- Numerator of the number. -/
  value : Nat
  /-- Numerator of the lower end. -/
  lower : Nat
  /-- Numerator of the upper end. -/
  upper : Nat
  /-- Common denominator. -/
  denominator : Nat
  /-- Whether the ends round to the number too. -/
  closed : Bool
  deriving DecidableEq, Repr

/--
The interval around `significand * 2 ^ exponent`.  Its ends lie halfway to the neighbours, the lower
one nearer below a power of two, where the neighbours are closer.  They belong to the interval if
the significand is even, since ties go to even.
-/
def interval (format : Binary) (significand : Nat) (exponent : Int) : Interval :=
  let below :=
    if significand = format.unit ∧ format.leastExponent < exponent then 1 else 2
  let (factor, denominator) := scaledDown 1 1 (2 - exponent)
  { value := 4 * significand * factor
    lower := (4 * significand - below) * factor
    upper := (4 * significand + 2) * factor
    denominator
    closed := significand % 2 = 0 }

/-- Whether the multiple `count` of a grid step lies in an interval that is given in grid steps. -/
def Interval.holds (interval : Interval) (step count : Nat) : Bool :=
  let point := count * step
  if interval.closed then
    decide (interval.lower ≤ point) && decide (point ≤ interval.upper)
  else
    decide (interval.lower < point) && decide (point < interval.upper)

/-- The same interval in units of a power of ten, and the grid step of that power. -/
def Interval.onGrid (interval : Interval) (power : Int) : Interval × Nat :=
  if 0 ≤ power then
    (interval, interval.denominator * tenPower power.toNat)
  else
    let factor := tenPower (-power).toNat
    ({ interval with
        value := interval.value * factor
        lower := interval.lower * factor
        upper := interval.upper * factor },
      interval.denominator)

/-- The multiple of `10 ^ power` in the interval nearest to the number, the larger on a tie. -/
def Interval.onGrid? (interval : Interval) (power : Int) : Option Nat :=
  let (interval, step) := interval.onGrid power
  let below := interval.value / step
  let belowFits := interval.holds step below
  let aboveFits := interval.holds step (below + 1)
  if belowFits && aboveFits then
    some (if step ≤ 2 * (interval.value % step) then below + 1 else below)
  else if belowFits then some below
  else if aboveFits then some (below + 1)
  else none

/-- The first hit on the grids from `10 ^ power` downward, within the given number of grids. -/
def Interval.search (interval : Interval) : Nat → Int → Option Decimal
  | 0, _ => none
  | grids + 1, power =>
    match interval.onGrid? power with
    | some count =>
      some (if 0 ≤ power then ⟨count * tenPower power.toNat, 0⟩ else ⟨count, -power⟩)
    | none => interval.search grids (power - 1)

/-- The exponent of a power of ten that is above `significand * 2 ^ exponent` by a few places. -/
def decimalReach (significand : Nat) (exponent : Int) : Int :=
  ((significand.log2 + exponent + 1) * 30103).fdiv 100000 + 2

/-- The number of grids on which the shortest decimal is looked for. -/
def gridCount : Nat := 24

/--
The decimal with the fewest digits among those that round to `significand * 2 ^ exponent`, and the
nearest to it of those.  A grid of powers of ten has a point in the interval exactly if one of the
two multiples around the number is in it, so the first grid with a hit has the fewest digits.
-/
def shortest (format : Binary) (significand : Nat) (exponent : Int) : Decimal :=
  if significand = 0 then
    .zero
  else
    ((format.interval significand exponent).search gridCount
      (decimalReach significand exponent)).getD .zero

/-- The shortest decimal of a pattern, unless it is infinite or undefined. -/
def toDecimal? (format : Binary) (bits : Nat) : Option Decimal :=
  match format.decode bits with
  | .finite negative significand exponent =>
    let magnitude := format.shortest significand exponent
    some (if negative then -magnitude else magnitude)
  | .infinite _ => none
  | .undefined => none

/--
The text of a pattern: the shortest decimal in positional notation, with a sign for a negative zero
too, or the name of an infinite or undefined value.
-/
def text (format : Binary) (bits : Nat) : String :=
  match format.decode bits with
  | .finite negative significand exponent =>
    let magnitude := (format.shortest significand exponent).plain
    if negative then s!"-{magnitude}" else magnitude
  | .infinite negative => if negative then "-inf" else "inf"
  | .undefined => "NaN"

/-- The pattern of the number nearest to a decimal, unless that is infinite. -/
def ofDecimal? (format : Binary) (number : Decimal) : Option Nat :=
  let bits := format.ofDecimal number
  match format.decode bits with
  | .finite _ _ _ => some bits
  | .infinite _ => none
  | .undefined => none

end Binary

/-!
## Decimals and machine numbers

The conversions between decimals and the two machine types that functions compute with: integers of
64 bits, which are the integer part of a decimal, and doubles, which are the nearest ones to a
decimal and become the shortest decimal that reads back.
-/

namespace Decimal

/-- The integer part of a number as an integer of 64 bits. -/
def toWord (number : Decimal) : Except Fault Int := do
  let whole ← number.truncate
  if -wordBound ≤ whole ∧ whole < wordBound then
    return whole
  else
    throw (.conversion s!"{number.plain} does not fit into i64")

/-- The number as a double, unless it is too large for one. -/
def toFloat (number : Decimal) : Except Fault Float :=
  match Binary.double.ofDecimal? number with
  | some bits => .ok (Float.ofBits (UInt64.ofNat bits))
  | none => .error (.conversion s!"{number.plain} cannot be represented as f64")

end Decimal

/-- The text of a double: its shortest decimal in positional notation. -/
def floatText (value : Float) : String := Binary.double.text value.toBits.toNat

/-- The decimal with the fewest digits that reads back as a double, if that is finite. -/
def floatDecimal? (value : Float) : Option Decimal := Binary.double.toDecimal? value.toBits.toNat

end Reckoner
