import Mathlib.Algebra.Order.Field.Rat
import Mathlib.Algebra.Order.Ring.Int
import Mathlib.Tactic.FieldSimp
import Mathlib.Tactic.NormNum
import Mathlib.Tactic.Ring
import Reckoner.Proofs.Denotation
import Reckoner.Proofs.Rationals

/-!
# Scales

A decimal is a rational number with a scale, and a change of scale sees only the number: decimals of
one number that can both be rounded to a precision are rounded to the same decimal
(`Decimal.setScale_eq_of_toRat_eq`).  Negation turns the modes toward the two infinities into each
other, so it is respected by the other modes and by exact roundings
(`Decimal.setScale_reflected_iff`).
-/

namespace Reckoner

/-! ## Numbers -/

namespace Decimal

/-- The number that a decimal is. -/
def toRat (number : Decimal) : ℚ := number.digits * (10 : ℚ) ^ (-number.scale)

/-- The same number with more digits after the point. -/
def rescaled (number : Decimal) (count : Nat) : Decimal :=
  ⟨number.digits * tenPower count, number.scale + count⟩

theorem tenPower_pos (count : Nat) : 0 < tenPower count := Nat.pow_pos (by decide)

theorem cast_tenPower {exponent : Int} (nonneg : 0 ≤ exponent) :
    (tenPower exponent.toNat : ℚ) = 10 ^ exponent := by
  have power : (tenPower exponent.toNat : ℚ) = (10 : ℚ) ^ exponent.toNat := by
    simp [tenPower]
  rw [power, ← zpow_natCast, Int.toNat_of_nonneg nonneg]

theorem toRat_rescaled (number : Decimal) (count : Nat) :
    (number.rescaled count).toRat = number.toRat := by
  have power : ((tenPower count : Int) : ℚ) = (10 : ℚ) ^ (count : Int) := by
    simp [tenPower]
  rw [toRat, rescaled, toRat, Int.cast_mul, power, neg_add, zpow_add₀ (by norm_num), zpow_neg,
    zpow_neg]
  field_simp

@[simp]
theorem toRat_neg (number : Decimal) : (-number).toRat = -number.toRat := by
  rw [neg_def, toRat, toRat, Int.cast_neg, neg_mul]

theorem neg_neg (number : Decimal) : - -number = number :=
  congrArg (Decimal.mk · number.scale) (Int.neg_neg number.digits)

/-- The sign of a number is that of its digits. -/
theorem toRat_neg_iff (number : Decimal) : number.toRat < 0 ↔ number.digits < 0 := by
  have power : (0 : ℚ) < (10 : ℚ) ^ (-number.scale) := zpow_pos (by norm_num) _
  rw [toRat, ← not_le, mul_nonneg_iff_of_pos_right power, not_le, Int.cast_lt_zero]

theorem toRat_eq_zero_iff {number : Decimal} : number.toRat = 0 ↔ number.digits = 0 := by
  have power : (10 : ℚ) ^ (-number.scale) ≠ 0 := zpow_ne_zero _ (by norm_num)
  rw [toRat, mul_eq_zero, or_iff_left power, Int.cast_eq_zero]

theorem digits_neg_iff_of_toRat_eq {left right : Decimal} (same : left.toRat = right.toRat) :
    left.digits < 0 ↔ right.digits < 0 := by
  rw [← toRat_neg_iff, same, toRat_neg_iff]

/-! ## Changes of scale -/

variable {number base : Decimal} {scale : Int} {mode : Rounding}

/-- A number is taken to a scale in one step. -/
def RescalesTo (number : Decimal) (scale : Int) : Prop :=
  (scale - number.scale).natAbs ≤ shiftLimit

instance (number : Decimal) (scale : Int) : Decidable (number.RescalesTo scale) :=
  inferInstanceAs (Decidable ((scale - number.scale).natAbs ≤ shiftLimit))

/-- A change of scale has a result if it shifts by few enough digits. -/
theorem map_shiftFactor_eq_ok {shift : Nat} {change : Nat → Decimal} {result : Decimal} :
    (do let factor ← shiftFactor shift; return change factor) = Except.ok result ↔
      shift ≤ shiftLimit ∧ result = change (tenPower shift) := by
  rw [shiftFactor]
  split
  case isTrue far =>
    refine ⟨fun impossible => (nomatch impossible), fun ⟨near, _⟩ => ?_⟩
    omega
  case isFalse near =>
    rw [ok_bind]
    refine ⟨fun same => ⟨by omega, (Except.ok.inj same).symm⟩, ?_⟩
    rintro ⟨_, rfl⟩
    rfl

/-- The digits of a number at a scale, rounded where the scale is smaller. -/
def digitsRounded (number : Decimal) (scale : Int) (mode : Rounding) : Int :=
  if number.scale ≤ scale then number.digits * tenPower (scale - number.scale).toNat
  else mode.quotient number.digits (tenPower (number.scale - scale).toNat)

/-- A number is rounded to every scale that it can be taken to, and to no other. -/
theorem setScale_eq_ok {result : Decimal} :
    number.setScale scale mode = .ok result ↔
      number.RescalesTo scale ∧ result = ⟨number.digitsRounded scale mode, scale⟩ := by
  unfold setScale RescalesTo digitsRounded
  by_cases below : number.scale ≤ scale
  · have shift : (scale - number.scale).toNat = (scale - number.scale).natAbs := by omega
    rw [if_pos (by omega), if_pos below, map_shiftFactor_eq_ok, shift]
  · have shift : (-(scale - number.scale)).toNat = (scale - number.scale).natAbs := by omega
    have places : (number.scale - scale).toNat = (scale - number.scale).natAbs := by omega
    rw [if_neg (by omega), if_neg below, map_shiftFactor_eq_ok, shift, places]

/-- The digits at a scale are the number of units of that scale, rounded. -/
theorem digitsRounded_eq (number : Decimal) (scale : Int) (mode : Rounding) :
    number.digitsRounded scale mode = mode.integer (number.toRat * 10 ^ scale) := by
  have ten : (10 : ℚ) ≠ 0 := by norm_num
  have units : number.toRat * 10 ^ scale = number.digits * 10 ^ (scale - number.scale) := by
    rw [toRat, mul_assoc, ← zpow_add₀ ten, neg_add_eq_sub]
  rw [digitsRounded, units]
  split
  case isTrue above =>
    have whole : (number.digits : ℚ) * 10 ^ (scale - number.scale) =
        (number.digits * tenPower (scale - number.scale).toNat : Int) := by
      rw [Int.cast_mul, Int.cast_natCast, cast_tenPower (by omega)]
    rw [whole, mode.integer_intCast]
  case isFalse below =>
    rw [mode.quotient_eq_integer _ (tenPower_pos _), cast_tenPower (by omega), div_eq_mul_inv,
      ← zpow_neg, neg_sub]

/-- A change of scale sees only the number. -/
theorem digitsRounded_eq_of_toRat_eq {left right : Decimal} (same : left.toRat = right.toRat)
    (scale : Int) (mode : Rounding) :
    left.digitsRounded scale mode = right.digitsRounded scale mode := by
  rw [digitsRounded_eq, digitsRounded_eq, same]

/-- Decimals of one number are rounded to the same decimal, if both can be rounded. -/
theorem setScale_eq_of_toRat_eq {left right first second : Decimal}
    (same : left.toRat = right.toRat) (leftRounded : left.setScale scale mode = .ok first)
    (rightRounded : right.setScale scale mode = .ok second) : first = second := by
  obtain ⟨-, rfl⟩ := setScale_eq_ok.mp leftRounded
  obtain ⟨-, rfl⟩ := setScale_eq_ok.mp rightRounded
  rw [digitsRounded_eq_of_toRat_eq same]

/-- Nothing is lost where the number has a decimal of the scale. -/
theorem digitsRounded_of_toRat_eq (same : base.toRat = number.toRat) (mode : Rounding) :
    number.digitsRounded base.scale mode = base.digits := by
  rw [← digitsRounded_eq_of_toRat_eq same, digitsRounded, if_pos le_rfl]
  simp [tenPower]

theorem setScale_of_toRat_eq (same : base.toRat = number.toRat)
    (rescales : number.RescalesTo base.scale) (mode : Rounding) :
    number.setScale base.scale mode = .ok base :=
  setScale_eq_ok.mpr ⟨rescales, by rw [digitsRounded_of_toRat_eq same]⟩

/-! ## Signs -/

theorem digitsRounded_neg (number : Decimal) (scale : Int) (mode : Rounding) :
    (-number).digitsRounded scale mode = -number.digitsRounded scale mode.reflected := by
  rw [digitsRounded_eq, digitsRounded_eq, toRat_neg, neg_mul, mode.integer_neg]

/-- The modes toward the infinities agree where nothing is lost. -/
theorem toRat_of_floor_eq
    (same : number.digitsRounded scale .floor = number.digitsRounded scale .ceiling) :
    (⟨number.digitsRounded scale .floor, scale⟩ : Decimal).toRat = number.toRat := by
  have power : (10 : ℚ) ^ scale ≠ 0 := zpow_ne_zero _ (by norm_num)
  rw [digitsRounded_eq, digitsRounded_eq] at same
  have whole : (⌊number.toRat * 10 ^ scale⌋ : ℚ) = number.toRat * 10 ^ scale := by
    refine le_antisymm (Int.floor_le _) ?_
    calc number.toRat * 10 ^ scale
      _ ≤ ⌈number.toRat * 10 ^ scale⌉ := Int.le_ceil _
      _ = ⌊number.toRat * 10 ^ scale⌋ := congrArg Int.cast same.symm
  rw [digitsRounded_eq, toRat, Rounding.integer, whole, zpow_neg, mul_inv_cancel_right₀ power]

/-- Rounding in the reflected mode is the same if the mode has no direction, or nothing is lost. -/
theorem digitsRounded_reflected_iff (number : Decimal) (scale : Int) (mode : Rounding) :
    number.digitsRounded scale mode.reflected = number.digitsRounded scale mode ↔
      mode.reflected = mode ∨
        (⟨number.digitsRounded scale mode, scale⟩ : Decimal).toRat = number.toRat := by
  constructor
  · intro same
    cases mode with
    | floor => exact .inr (toRat_of_floor_eq same.symm)
    | ceiling =>
        right
        rw [← same]
        exact toRat_of_floor_eq same
    | _ => exact .inl rfl
  · rintro (symmetric | lossless)
    · rw [symmetric]
    · exact digitsRounded_of_toRat_eq lossless mode.reflected

end Decimal
end Reckoner
