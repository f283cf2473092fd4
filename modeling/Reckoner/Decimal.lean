import Reckoner.Digits
import Reckoner.Fault
import Reckoner.Rounding

/-!
# Decimal numbers

A decimal is an integer of digits with a scale; it denotes `digits / 10 ^ scale`, and equal numbers
of different scale are different decimals.  Addition, subtraction and multiplication are exact and
say which scale the result has.  A change of scale is the only operation here that rounds, and it
shifts by at most `Decimal.shiftLimit` digits.

A decimal is written in positional notation: all of its digits, with as many of them after the
point as its scale says.  Different decimals have different texts as long as their scales are not
negative, because trailing zeros are written too.
-/

namespace Reckoner

/-- A decimal number of arbitrary precision, denoting `digits / 10 ^ scale`. -/
structure Decimal where
  /-- All digits with the sign, the point left out. -/
  digits : Int
  /-- How many digits stand after the point; negative for trailing zeros left out. -/
  scale : Int
  deriving DecidableEq, Repr

namespace Decimal

/-- The largest number of digits by which a scale may change in one step. -/
def shiftLimit : Nat := 1000000

/-- The integers of 64 bits with a sign are those from `-wordBound` to below `wordBound`. -/
def wordBound : Int := 9223372036854775808

/-- The factor for a change of scale by the given number of digits. -/
def shiftFactor (shift : Nat) : Except Fault Nat :=
  if shiftLimit < shift then .error (.scaleOutOfRange shift) else .ok (tenPower shift)

/-- An integer as a decimal of scale zero. -/
def ofInt (number : Int) : Decimal := ⟨number, 0⟩

/-- The zero of scale zero. -/
def zero : Decimal := ofInt 0

/--
The digits at a scale that is at least the decimal's own.  A zero has the same digits at every
scale, and the power is not formed for it.
-/
def digitsAt (number : Decimal) (scale : Int) : Int :=
  if number.digits = 0 then 0 else number.digits * tenPower (scale - number.scale).toNat

theorem digitsAt_eq (number : Decimal) (scale : Int) :
    number.digitsAt scale = number.digits * tenPower (scale - number.scale).toNat := by
  unfold digitsAt
  split <;> simp_all

/-- The larger scale of two decimals. -/
def commonScale (left right : Decimal) : Int :=
  if left.scale ≤ right.scale then right.scale else left.scale

/-- The same number with the sign reversed. -/
def neg (number : Decimal) : Decimal := ⟨-number.digits, number.scale⟩

/-- The sum at the larger of the two scales. -/
def sum (left right : Decimal) : Decimal :=
  let scale := commonScale left right
  ⟨left.digitsAt scale + right.digitsAt scale, scale⟩

/-- The difference at the larger of the two scales. -/
def sub (left right : Decimal) : Decimal :=
  let scale := commonScale left right
  ⟨left.digitsAt scale - right.digitsAt scale, scale⟩

/-- How many digits of scale a number takes over from a zero that is added to it, at most. -/
def zeroWidth : Nat := 15

/-- The number with its scale raised toward that of an added zero, by at most `zeroWidth`. -/
def widen (number : Decimal) (scale : Int) : Decimal :=
  let gap := (scale - number.scale).toNat
  let shift := if gap ≤ zeroWidth then gap else zeroWidth
  ⟨number.digits * tenPower shift, number.scale + shift⟩

/-- The value of the operator `+`: a sum that takes only part of the scale of a zero operand. -/
def add (left right : Decimal) : Decimal :=
  if right.digits = 0 then left.widen right.scale
  else if left.digits = 0 then right.widen left.scale
  else left.sum right

/-- The largest scale at which a one is recognised as a neutral factor. -/
def unitScale : Int := 38

/-- Whether the number is one, written with a scale between zero and `unitScale`. -/
def isUnit (number : Decimal) : Bool :=
  decide (0 ≤ number.scale) && decide (number.scale ≤ unitScale) &&
    decide (number.digits = tenPower number.scale.toNat)

/-- Divides out the listed powers of ten, largest first, where they divide. -/
def stripZeros : List Nat → Nat → Decimal → Decimal
  | [], _, number => number
  | power :: powers, width, number =>
    stripZeros powers (width / 2)
      (if number.digits % power = 0 then
        ⟨number.digits / power, number.scale - width⟩
      else
        number)

/-- The same number without trailing zero digits; zero gets scale zero. -/
def normalized (number : Decimal) : Decimal :=
  if number.digits = 0 then
    zero
  else
    let level := Digits.level number.digits.natAbs
    stripZeros (Digits.halves level) (1 <<< (level - 1)) number

/--
The value of the operator `*`: digits multiply and scales add, except that a factor of one leaves
the other factor without its trailing zeros.
-/
def mul (left right : Decimal) : Decimal :=
  if left.isUnit then right.normalized
  else if right.isUnit then left.normalized
  else ⟨left.digits * right.digits, left.scale + right.scale⟩

instance : Neg Decimal := ⟨neg⟩
instance : Add Decimal := ⟨add⟩
instance : Sub Decimal := ⟨sub⟩
instance : Mul Decimal := ⟨mul⟩

theorem neg_def (number : Decimal) : -number = ⟨-number.digits, number.scale⟩ := rfl

@[simp]
theorem scale_neg (number : Decimal) : (-number).scale = number.scale := rfl

/--
Compares `left` with `right * 10 ^ shift`, both positive.  When the zeros to add outnumber the
binary digits of `left` the answer is known without forming the power.
-/
def comparePositive (left right shift : Nat) : Ordering :=
  if left.log2 < 3 * shift then .lt else compare left (right * tenPower shift)

/-- Compares the magnitudes of two numbers other than zero. -/
def compareMagnitude (left right : Decimal) : Ordering :=
  if right.scale ≤ left.scale then
    comparePositive left.digits.natAbs right.digits.natAbs (left.scale - right.scale).toNat
  else
    (comparePositive right.digits.natAbs left.digits.natAbs (right.scale - left.scale).toNat).swap

/-- The numeric order, which does not see the scale. -/
def compare (left right : Decimal) : Ordering :=
  if left.digits.sign < right.digits.sign then .lt
  else if right.digits.sign < left.digits.sign then .gt
  else if left.digits < 0 then compareMagnitude right left
  else if left.digits = 0 then .eq
  else compareMagnitude left right

/-- The smaller of two numbers, the first one if they are equal. -/
def min (left right : Decimal) : Decimal := if right.compare left = .lt then right else left

/-- The larger of two numbers, the first one if they are equal. -/
def max (left right : Decimal) : Decimal := if right.compare left = .gt then right else left

/-- The number itself, or its negation if it is negative. -/
def abs (number : Decimal) : Decimal := if number.digits < 0 then -number else number

/-- The decimal of the given scale whose digits are the number's, rounded by the given mode. -/
def setScale (number : Decimal) (scale : Int) (mode : Rounding) : Except Fault Decimal :=
  let shift := scale - number.scale
  if 0 ≤ shift then do
    let factor ← shiftFactor shift.toNat
    return ⟨number.digits * factor, scale⟩
  else do
    let divisor ← shiftFactor (-shift).toNat
    return ⟨mode.quotient number.digits divisor, scale⟩

/-- The integer part, which is toward zero. -/
def truncate (number : Decimal) : Except Fault Int :=
  if number.scale ≤ 0 then do
    let factor ← shiftFactor (-number.scale).toNat
    return number.digits * factor
  else do
    let divisor ← shiftFactor number.scale.toNat
    return number.digits.tdiv divisor

/-! ## Positional notation -/

/-- The digits of an integer with its sign. -/
def integerText (number : Int) : List Char :=
  if number < 0 then '-' :: Digits.ofNat number.natAbs else Digits.ofNat number.natAbs

/-- The digits of a magnitude with a point before the last `places` of them. -/
def pointText (magnitude places : Nat) : List Char :=
  let digits := Digits.ofNat magnitude
  let wide :=
    if digits.length ≤ places then
      List.replicate (places + 1 - digits.length) '0' ++ digits
    else
      digits
  wide.take (wide.length - places) ++ '.' :: wide.drop (wide.length - places)

/--
The number in positional notation: as many digits after the point as its scale says, none for a
scale of zero or less.  Only a number that would end in more than `shiftLimit` zeros is written
with an exponent.
-/
def plainDigits (number : Decimal) : List Char :=
  if number.scale ≤ 0 then
    match shiftFactor (-number.scale).toNat with
    | .ok factor => integerText (number.digits * factor)
    | .error _ =>
      if number.digits = 0 then
        ['0']
      else
        integerText number.digits ++ 'e' :: '+' :: Digits.ofNat (-number.scale).toNat
  else
    let magnitude := pointText number.digits.natAbs number.scale.toNat
    if number.digits < 0 then '-' :: magnitude else magnitude

/-- The number in positional notation, as a string. -/
def plain (number : Decimal) : String := String.ofList number.plainDigits

end Decimal
end Reckoner
