/-!
# Rounding modes

The seven ways to round a quotient of integers to an integer.  A mode only decides whether the
truncated quotient is moved one unit away from zero, and it never moves an exact quotient.
-/

namespace Reckoner

/-- A rule that picks one of the two integers around a fraction. -/
inductive Rounding
  /-- Away from zero. -/
  | up
  /-- Toward zero. -/
  | down
  /-- Toward positive infinity. -/
  | ceiling
  /-- Toward negative infinity. -/
  | floor
  /-- To the nearer integer, halves away from zero. -/
  | halfUp
  /-- To the nearer integer, halves toward zero. -/
  | halfDown
  /-- To the nearer integer, halves to the even one. -/
  | halfEven
  deriving DecidableEq, Repr

namespace Rounding

/-- Every mode, in the order of declaration. -/
def all : List Rounding := [up, down, ceiling, floor, halfUp, halfDown, halfEven]

/-- The name of a mode as descriptions show it. -/
def name : Rounding → String
  | up => "Up"
  | down => "Down"
  | ceiling => "Ceiling"
  | floor => "Floor"
  | halfUp => "HalfUp"
  | halfDown => "HalfDown"
  | halfEven => "HalfEven"

/-- The mode with the given name. -/
def ofName? (name : String) : Option Rounding := all.find? fun mode => mode.name == name

/-- The mode that an expression selects by a numeric code. -/
def ofCode? (code : Int) : Option Rounding :=
  if code = 0 then some halfUp
  else if code = 1 then some halfEven
  else if code = 2 then some halfDown
  else none

/--
Whether a division that truncated to `quotient` and left `remainder` rounds away from zero.  The
remainder carries the sign of the fraction, and twice its size against the divisor tells on which
side of the middle the fraction lies.
-/
def movesAway (mode : Rounding) (quotient remainder : Int) (divisor : Nat) : Bool :=
  if remainder = 0 then
    false
  else
    match mode with
    | up => true
    | down => false
    | ceiling => decide (0 < remainder)
    | floor => decide (remainder < 0)
    | halfUp => decide (divisor ≤ 2 * remainder.natAbs)
    | halfDown => decide (divisor < 2 * remainder.natAbs)
    | halfEven =>
      decide (divisor < 2 * remainder.natAbs) ||
        (decide (divisor = 2 * remainder.natAbs) && decide (quotient.natAbs % 2 = 1))

/-- The quotient of an integer by a positive divisor, rounded to an integer. -/
def quotient (mode : Rounding) (numerator : Int) (divisor : Nat) : Int :=
  let truncated := numerator.tdiv divisor
  if mode.movesAway truncated (numerator.tmod divisor) divisor then
    if numerator < 0 then truncated - 1 else truncated + 1
  else
    truncated

/-- No mode moves an exact quotient. -/
theorem quotient_mul (mode : Rounding) (number : Int) {divisor : Nat} (positive : 0 < divisor) :
    mode.quotient (number * divisor) divisor = number := by
  have nonzero : (divisor : Int) ≠ 0 := by omega
  simp [quotient, movesAway, Int.mul_tdiv_cancel number nonzero]

end Rounding
end Reckoner
