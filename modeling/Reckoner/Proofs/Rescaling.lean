import Reckoner.Proofs.Powers

/-!
# Rounding once

A change of scale, a quotient and a power with a small integer exponent are computed by shifting
digits and dividing integers, and each of them is one rounding of an exact rational number
(`Precision.roundOnce`): it has the digits that the mode gives for the number of units of the scale,
and it fails for a shift by too many digits and for nothing else
(`round_and_divide_eq_roundOnce`, `power_eq_roundOnce`).  So what is true of the modes as functions
of a number is true of changes of scale: they keep the order of numbers, negation exchanges the
infinities, and the modes with a direction may go by way of a finer scale (`setScale_laws`).
-/

namespace Reckoner

/-! ## One rounding -/

/-- The decimal of the precision's scale that a rational number is rounded to. -/
def Precision.ofRat (precision : Precision) (number : ℚ) : Decimal :=
  ⟨precision.rounding.integer (number * 10 ^ precision.scale), precision.scale⟩

/-- A rational number rounded to the precision, which takes a shift by the given number of digits
in either direction. -/
def Precision.roundOnce (precision : Precision) (shift : Int) (number : ℚ) :
    Except Fault Decimal :=
  if Decimal.shiftLimit < shift.natAbs then
    .error (.scaleOutOfRange shift.natAbs)
  else
    .ok (precision.ofRat number)

namespace Precision

variable {precision : Precision} {number : Decimal}

theorem roundOnce_eq_ok {shift : Int} {exact : ℚ} {result : Decimal} :
    precision.roundOnce shift exact = .ok result ↔
      shift.natAbs ≤ Decimal.shiftLimit ∧ result = precision.ofRat exact := by
  rw [roundOnce]
  split
  case isTrue far => exact ⟨nofun, fun near => absurd near.1 (not_le.mpr far)⟩
  case isFalse near =>
    rw [Except.ok.injEq, and_iff_right (not_lt.mp near)]
    exact eq_comm

theorem rounded_eq_ofRat (precision : Precision) (number : Decimal) :
    precision.rounded number = precision.ofRat number.toRat :=
  congrArg (Decimal.mk · precision.scale) (number.digitsRounded_eq _ _)

/-- Rounding keeps the order of numbers. -/
theorem toRat_ofRat_mono (precision : Precision) :
    Monotone fun number => (precision.ofRat number).toRat := by
  intro left right ordered
  have power (exponent : Int) : (0 : ℚ) ≤ 10 ^ exponent := zpow_nonneg (by norm_num) exponent
  have units := mul_le_mul_of_nonneg_right ordered (power precision.scale)
  have digits : ((precision.ofRat left).digits : ℚ) ≤ (precision.ofRat right).digits :=
    Int.cast_le.mpr (precision.rounding.integer_mono units)
  exact mul_le_mul_of_nonneg_right digits (power (-precision.scale))

/-- Digits are multiplied for a shift to the left, and divided for one to the right. -/
theorem shifted_eq_roundOnce {shift : Int} {left right : Nat → Decimal} {exact : ℚ}
    (above : 0 ≤ shift → left (tenPower shift.toNat) = precision.ofRat exact)
    (below : shift < 0 → right (tenPower (-shift).toNat) = precision.ofRat exact) :
    (if 0 ≤ shift then do
      let factor ← Decimal.shiftFactor shift.toNat
      return left factor
    else do
      let factor ← Decimal.shiftFactor (-shift).toNat
      return right factor) = precision.roundOnce shift exact := by
  have shifted {places : Nat} {change : Nat → Decimal} (size : places = shift.natAbs)
      (same : change (tenPower places) = precision.ofRat exact) :
      (do let factor ← Decimal.shiftFactor places; return change factor) =
        precision.roundOnce shift exact := by
    rw [Decimal.shiftFactor, roundOnce, ← size]
    split
    case isTrue => rfl
    case isFalse => exact congrArg Except.ok same
  split
  case isTrue nonneg => exact shifted (by omega) (above nonneg)
  case isFalse negative => exact shifted (by omega) (below (by omega))

/-! ## Changes of scale -/

theorem round_eq_roundOnce (precision : Precision) (number : Decimal) :
    precision.round number =
      precision.roundOnce (precision.scale - number.scale) number.toRat := by
  have digits := number.digitsRounded_eq precision.scale precision.rounding
  rw [Decimal.digitsRounded] at digits
  refine shifted_eq_roundOnce (fun above => ?_) (fun below => ?_)
  · rw [if_pos (by omega)] at digits
    exact congrArg (Decimal.mk · precision.scale) digits
  · rw [if_neg (by omega)] at digits
    rw [neg_sub]
    exact congrArg (Decimal.mk · precision.scale) digits

/-! ## Quotients -/

/-- The sign of the divisor may go to the dividend. -/
theorem cast_div_natAbs (number divisor : Int) :
    ((if divisor < 0 then -number else number : Int) : ℚ) / divisor.natAbs = number / divisor := by
  split
  case isTrue negative =>
    have size : ((divisor.natAbs : Int) : ℚ) = -divisor := by
      rw [Int.ofNat_natAbs_of_nonpos negative.le, Int.cast_neg]
    rw [← Int.cast_natCast, size, Int.cast_neg, neg_div_neg_eq]
  case isFalse nonneg =>
    have size : ((divisor.natAbs : Int) : ℚ) = divisor := by
      rw [Int.natAbs_of_nonneg (Int.not_lt.mp nonneg)]
    rw [← Int.cast_natCast, size]

theorem divide_of_toRat_eq_zero (dividend : Decimal) {divisor : Decimal}
    (zero : divisor.toRat = 0) : precision.divide dividend divisor = .error .divisionByZero :=
  if_pos (Decimal.toRat_eq_zero_iff.mp zero)

/-- The digits of one operand are shifted, but it is the ratio of the numbers that is rounded. -/
theorem divide_eq_roundOnce (dividend : Decimal) {divisor : Decimal} (nonzero : divisor.toRat ≠ 0) :
    precision.divide dividend divisor =
      precision.roundOnce (precision.scale - dividend.scale + divisor.scale)
        (dividend.toRat / divisor.toRat) := by
  have filled : divisor.digits ≠ 0 := fun zero => nonzero (Decimal.toRat_eq_zero_iff.mpr zero)
  have positive : 0 < divisor.digits.natAbs := Int.natAbs_pos.mpr filled
  have ten : (10 : ℚ) ≠ 0 := by norm_num
  have ratio := cast_div_natAbs dividend.digits divisor.digits
  have units : dividend.toRat / divisor.toRat * 10 ^ precision.scale =
      dividend.digits / divisor.digits *
        10 ^ (precision.scale - dividend.scale + divisor.scale) := by
    have cast : (divisor.digits : ℚ) ≠ 0 := by exact_mod_cast filled
    rw [Decimal.toRat, Decimal.toRat, zpow_add₀ ten, zpow_sub₀ ten, zpow_neg, zpow_neg]
    field_simp
  rw [divide, if_neg filled]
  generalize (if divisor.digits < 0 then -dividend.digits else dividend.digits) = numerator
    at ratio ⊢
  refine shifted_eq_roundOnce (fun above => ?_) (fun below => ?_)
  · rw [Rounding.quotient_eq_integer _ _ positive, ofRat, units, ← ratio, Int.cast_mul,
      Int.cast_natCast, Decimal.cast_tenPower above, mul_div_right_comm]
  · have opposite : 0 ≤ -(precision.scale - dividend.scale + divisor.scale) := by omega
    rw [Rounding.quotient_eq_integer _ _ (Nat.mul_pos positive (Decimal.tenPower_pos _)), ofRat,
      units, ← ratio, Nat.cast_mul, Decimal.cast_tenPower opposite, zpow_neg, ← div_div,
      div_inv_eq_mul]

end Precision

namespace Precision

/-- A power by way of doubles, rounded to the precision. -/
def floatPower (precision : Precision) (base exponent : Decimal) : Except Fault Decimal := do
  let floatBase ← base.toFloat
  let floatExponent ← exponent.toFloat
  precision.ofFloat (Float.pow floatBase floatExponent) s!"{base.plain} ^ {exponent.plain}"

variable {precision : Precision} {base exponent : Decimal} {count : Int}

theorem power_eq_floatPower (large : exponent.smallInteger? = none) :
    precision.power base exponent = precision.floatPower base exponent := by
  rw [power, large]
  rfl

/-- A power with an integer exponent is formed exactly, and so is the reciprocal of one. -/
theorem power_of_smallInteger?_eq_some (small : exponent.smallInteger? = some count) :
    precision.power base exponent =
      if base.toRat = 0 ∧ count < 0 then
        .error .divisionByZero
      else
        precision.roundOnce (precision.scale - base.scale * count) (base.toRat ^ count) := by
  have scale (size : Nat) : (base.natPower size).scale = base.scale * size := rfl
  rcases lt_or_ge count 0 with negative | nonneg
  · obtain ⟨size, rfl⟩ := Int.exists_eq_neg_ofNat negative.le
    have unit : (Decimal.ofInt 1).toRat = 1 ∧ (Decimal.ofInt 1).scale = 0 :=
      ⟨by simp [Decimal.toRat, Decimal.ofInt], rfl⟩
    have exact := Decimal.toRat_natPower base size
    rw [power, small]
    dsimp only
    rw [if_pos negative, Int.natAbs_neg, Int.natAbs_natCast]
    by_cases zero : base.toRat = 0
    · have some : size ≠ 0 := by omega
      rw [if_pos ⟨zero, negative⟩]
      exact divide_of_toRat_eq_zero _ (by rw [exact, zero, zero_pow some])
    · have nonzero : (base.natPower size).toRat ≠ 0 := exact ▸ pow_ne_zero size zero
      have shift : precision.scale - 0 + base.scale * size =
          precision.scale - base.scale * -size := by ring
      rw [if_neg (fun both => zero both.1), divide_eq_roundOnce _ nonzero, unit.1, unit.2, scale,
        shift, exact, zpow_neg, zpow_natCast, one_div]
  · obtain ⟨size, rfl⟩ := Int.eq_ofNat_of_zero_le nonneg
    rw [power_of_smallInteger? _ _ small, if_neg (fun both => not_lt.mpr nonneg both.2),
      round_eq_roundOnce, Decimal.toRat_natPower, scale, zpow_natCast]

end Precision

namespace Decimal

variable {number left right first second middle result direct : Decimal} {scale finer : Int}
  {mode : Rounding}

theorem setScale_eq_roundOnce (number : Decimal) (scale : Int) (mode : Rounding) :
    number.setScale scale mode =
      Precision.roundOnce ⟨scale, mode⟩ (scale - number.scale) number.toRat :=
  Precision.round_eq_roundOnce ⟨scale, mode⟩ number

/-- A change of scale that succeeds counts the units of the scale. -/
theorem eq_of_setScale_eq_ok (rounded : number.setScale scale mode = .ok first) :
    first = ⟨mode.integer (number.toRat * 10 ^ scale), scale⟩ := by
  rw [setScale_eq_roundOnce, Precision.roundOnce_eq_ok] at rounded
  exact rounded.2

/-- A change of scale keeps the order of numbers. -/
theorem toRat_le_of_setScale_eq_ok (ordered : left.toRat ≤ right.toRat)
    (rounded : left.setScale scale mode = .ok first)
    (otherRounded : right.setScale scale mode = .ok second) : first.toRat ≤ second.toRat := by
  obtain rfl := eq_of_setScale_eq_ok rounded
  obtain rfl := eq_of_setScale_eq_ok otherRounded
  exact Precision.toRat_ofRat_mono ⟨scale, mode⟩ ordered

/-- Opposite numbers are rounded to opposite numbers, the infinities exchanged. -/
theorem setScale_neg (number : Decimal) (scale : Int) (mode : Rounding) :
    (-number).setScale scale mode =
      (fun result => -result) <$> number.setScale scale mode.reflected := by
  have opposite : Precision.ofRat ⟨scale, mode⟩ (-number.toRat) =
      -Precision.ofRat ⟨scale, mode.reflected⟩ number.toRat := by
    rw [Precision.ofRat, neg_mul, mode.integer_neg]
    rfl
  rw [setScale_eq_roundOnce, setScale_eq_roundOnce, toRat_neg, scale_neg, Precision.roundOnce,
    Precision.roundOnce, opposite]
  split
  case isTrue => rfl
  case isFalse => rfl

/-- A mode with a direction may go by way of a finer scale. -/
theorem eq_of_setScale_setScale (directed : mode.isDirected = true) (coarser : scale ≤ finer)
    (rounded : number.setScale finer mode = .ok middle)
    (again : middle.setScale scale mode = .ok result)
    (directly : number.setScale scale mode = .ok direct) : result = direct := by
  have ten : (10 : ℚ) ≠ 0 := by norm_num
  have positive := tenPower_pos (finer - scale).toNat
  have factor : (10 : ℚ) ^ finer = 10 ^ scale * tenPower (finer - scale).toNat := by
    rw [cast_tenPower (by omega), ← zpow_add₀ ten, add_sub_cancel]
  obtain rfl := eq_of_setScale_eq_ok rounded
  obtain rfl := eq_of_setScale_eq_ok again
  obtain rfl := eq_of_setScale_eq_ok directly
  generalize units_eq : number.toRat * 10 ^ scale = units
  have finerUnits : number.toRat * 10 ^ finer = units * tenPower (finer - scale).toNat := by
    rw [factor, ← mul_assoc, units_eq]
  have ratio : (⟨mode.integer (number.toRat * 10 ^ finer), finer⟩ : Decimal).toRat * 10 ^ scale =
      mode.integer (units * tenPower (finer - scale).toNat) / tenPower (finer - scale).toNat := by
    rw [toRat, finerUnits, zpow_neg, factor]
    field_simp
  rw [ratio, mode.integer_integer_mul_div directed units positive]

end Decimal

/--
A change of scale keeps the order of numbers, in every mode; it takes opposite numbers to opposite
numbers if the modes toward the two infinities are exchanged; and in a mode with a direction it may
go by way of a finer scale.
-/
theorem setScale_laws (mode : Rounding) (scale : Int) :
    (∀ left right first second : Decimal, left.toRat ≤ right.toRat →
      left.setScale scale mode = .ok first → right.setScale scale mode = .ok second →
        first.toRat ≤ second.toRat) ∧
      (∀ number : Decimal, (-number).setScale scale mode =
        (fun result => -result) <$> number.setScale scale mode.reflected) ∧
      (mode.isDirected = true → ∀ (finer : Int) (number middle result direct : Decimal),
        scale ≤ finer → number.setScale finer mode = .ok middle →
          middle.setScale scale mode = .ok result → number.setScale scale mode = .ok direct →
            result = direct) :=
  ⟨fun _ _ _ _ => Decimal.toRat_le_of_setScale_eq_ok,
    fun number => number.setScale_neg scale mode,
    fun directed _ _ _ _ _ => Decimal.eq_of_setScale_setScale directed⟩

/-- The number -1.145 is rounded down, directly and by way of two digits, and stays below -1.04. -/
theorem setScale_of_short :
    Decimal.setScale ⟨-1145, 3⟩ 1 .floor = .ok ⟨-12, 1⟩ ∧
      Decimal.setScale ⟨-104, 2⟩ 1 .floor = .ok ⟨-11, 1⟩ ∧
      Decimal.toRat ⟨-12, 1⟩ ≤ Decimal.toRat ⟨-11, 1⟩ ∧
      Decimal.setScale ⟨-1145, 3⟩ 2 .floor = .ok ⟨-115, 2⟩ ∧
      ∀ result, Decimal.setScale ⟨-115, 2⟩ 1 .floor = .ok result → result = ⟨-12, 1⟩ := by
  obtain ⟨ordered, -, twice⟩ := setScale_laws .floor 1
  have below : Decimal.toRat ⟨-1145, 3⟩ ≤ Decimal.toRat ⟨-104, 2⟩ := by
    norm_num [Decimal.toRat]
  have first : Decimal.setScale ⟨-1145, 3⟩ 1 .floor = .ok ⟨-12, 1⟩ := by decide +kernel
  have second : Decimal.setScale ⟨-104, 2⟩ 1 .floor = .ok ⟨-11, 1⟩ := by decide +kernel
  have finer : Decimal.setScale ⟨-1145, 3⟩ 2 .floor = .ok ⟨-115, 2⟩ := by decide +kernel
  exact ⟨first, second, ordered _ _ _ _ below first second, finer,
    fun result again => twice rfl 2 _ _ result _ (by decide) finer again first⟩

end Reckoner
