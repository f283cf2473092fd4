import Mathlib.Data.Int.Log
import Mathlib.Data.Rat.Floor
import Reckoner.Proofs.Exactness

/-!
# The doubles nearest to decimals

Of a fraction only the ratio counts when the nearest pattern is looked for: its leading exponent is
the binary logarithm of the ratio (`Binary.leadingExponent_eq_log`), and the significand is a
rounded quotient.  A decimal that is too small for the format, for which no power of ten is formed,
would be rounded to zero as well.  So decimals of one number have the same pattern
(`Binary.ofDecimal_eq_of_toRat_eq`), unless they leave out more zeros than a change of scale may.
-/

namespace Reckoner
namespace Binary

/-! ## Fractions -/

/-- Dividing by a power of two divides the ratio. -/
theorem scaledDown_facts (numerator : Nat) {denominator : Nat} (positive : 0 < denominator)
    (exponent : Int) :
    0 < (scaledDown numerator denominator exponent).2 ∧
      ((scaledDown numerator denominator exponent).1 : ℚ) /
          (scaledDown numerator denominator exponent).2 =
        numerator / denominator / 2 ^ exponent := by
  have power {shift : Int} (above : 0 ≤ shift) : (2 : ℚ) ^ shift.toNat = 2 ^ shift := by
    rw [← zpow_natCast, Int.toNat_of_nonneg above]
  rw [scaledDown]
  split
  case isTrue above =>
    refine ⟨by simpa [Nat.shiftLeft_eq] using positive, ?_⟩
    rw [Nat.shiftLeft_eq, Nat.cast_mul, Nat.cast_pow, Nat.cast_ofNat, power above, div_div]
  case isFalse below =>
    have opposite : 0 ≤ -exponent := by omega
    refine ⟨positive, ?_⟩
    rw [Nat.shiftLeft_eq, Nat.cast_mul, Nat.cast_pow, Nat.cast_ofNat, power opposite, zpow_neg]
    field_simp

/-- The logarithm is between the two exponents whose powers are around the ratio. -/
theorem log_eq_of_between {ratio : ℚ} (positive : 0 < ratio) {exponent : Int}
    (above : 2 ^ exponent ≤ ratio) (below : ratio < 2 ^ (exponent + 1)) :
    Int.log 2 ratio = exponent := by
  have least := (Int.zpow_le_iff_le_log one_lt_two positive).mp (by exact_mod_cast above)
  have most := (Int.lt_zpow_iff_log_lt one_lt_two positive).mp (by exact_mod_cast below)
  omega

/-- A ratio is within a factor of two from the ratio of the leading powers. -/
theorem ratio_between {numerator denominator : Nat} (filled : 0 < numerator)
    (positive : 0 < denominator) :
    (2 : ℚ) ^ ((numerator.log2 : Int) - denominator.log2 - 1) ≤ numerator / denominator ∧
      (numerator : ℚ) / denominator < 2 ^ ((numerator.log2 : Int) - denominator.log2 + 1) := by
  have least : (2 : ℚ) ^ numerator.log2 ≤ numerator := by
    exact_mod_cast Nat.log2_self_le filled.ne'
  have most : (numerator : ℚ) < 2 ^ (numerator.log2 + 1) := by exact_mod_cast Nat.lt_log2_self
  have least' : (2 : ℚ) ^ denominator.log2 ≤ denominator := by
    exact_mod_cast Nat.log2_self_le positive.ne'
  have most' : (denominator : ℚ) < 2 ^ (denominator.log2 + 1) := by
    exact_mod_cast Nat.lt_log2_self
  have split (left right : Nat) : (2 : ℚ) ^ ((left : Int) - right) = 2 ^ left / 2 ^ right := by
    rw [zpow_sub₀ two_ne_zero, zpow_natCast, zpow_natCast]
  have lower : (numerator.log2 : Int) - denominator.log2 - 1 =
      numerator.log2 - (denominator.log2 + 1 : Nat) := by omega
  have upper : (numerator.log2 : Int) - denominator.log2 + 1 =
      (numerator.log2 + 1 : Nat) - denominator.log2 := by omega
  rw [lower, upper, split, split]
  constructor
  · exact div_le_div₀ (by positivity) least (by positivity) most'.le
  · exact div_lt_div₀ most least' (by positivity) (by positivity)

/-- The leading exponent is the binary logarithm of the ratio. -/
theorem leadingExponent_eq_log {numerator denominator : Nat} (filled : 0 < numerator)
    (positive : 0 < denominator) :
    leadingExponent numerator denominator = Int.log 2 ((numerator : ℚ) / denominator) := by
  have ratio : (0 : ℚ) < numerator / denominator := by positivity
  obtain ⟨lower, upper⟩ := ratio_between filled positive
  have facts := scaledDown_facts numerator positive (numerator.log2 - denominator.log2)
  rw [leadingExponent]
  generalize (numerator.log2 : Int) - denominator.log2 = guess at lower upper facts ⊢
  generalize scaledDown numerator denominator guess = factors at facts ⊢
  obtain ⟨above, below⟩ := factors
  obtain ⟨belowPositive, same⟩ := facts
  have power : (0 : ℚ) < 2 ^ guess := zpow_pos two_pos _
  have reaches : below ≤ above ↔ (2 : ℚ) ^ guess ≤ numerator / denominator := by
    have belowCast : (0 : ℚ) < below := by exact_mod_cast belowPositive
    rw [← one_le_div power, ← same, one_le_div belowCast, Nat.cast_le]
  dsimp only
  split
  case isTrue enough => exact (log_eq_of_between ratio (reaches.mp enough) upper).symm
  case isFalse short =>
    rw [reaches, not_le] at short
    rw [log_eq_of_between ratio lower (by rwa [sub_add_cancel])]

/-! ## Patterns -/

/-- A fraction below one half is rounded to zero. -/
theorem quotient_halfEven_eq_zero {number : Int} {divisor : Nat} (nonneg : 0 ≤ number)
    (small : 2 * number < divisor) : Rounding.halfEven.quotient number divisor = 0 := by
  have truncated : number.tdiv divisor = 0 := Int.tdiv_eq_zero_of_lt nonneg (by omega)
  have remainder : number.tmod divisor = number := Int.tmod_eq_of_lt nonneg (by omega)
  have stays : Rounding.halfEven.movesAway 0 number divisor = false := by
    rw [Rounding.movesAway]
    split
    · rfl
    · simp
      omega
  rw [Rounding.quotient, truncated, remainder, stays]
  rfl

variable (format : Binary)

/-- The exponent of the last bit of the significand of a number. -/
def lastExponent (ratio : ℚ) : Int :=
  if Int.log 2 ratio - format.fractionBits < format.leastExponent then format.leastExponent
  else Int.log 2 ratio - format.fractionBits

/-- The pattern of the number nearest to a rational number that is not negative. -/
def pattern (ratio : ℚ) : Nat :=
  if ratio = 0 then
    0
  else
    let exponent := format.lastExponent ratio
    let scaled := ratio / 2 ^ exponent
    let significand := (Rounding.halfEven.quotient scaled.num scaled.den).toNat
    let bits := (exponent - format.leastExponent).toNat * format.unit + significand
    if bits < format.infinity then bits else format.infinity

/-- Only the ratio of a fraction counts. -/
theorem nearest_eq_pattern (numerator : Nat) {denominator : Nat} (positive : 0 < denominator) :
    format.nearest numerator denominator = format.pattern (numerator / denominator) := by
  have nonzero : (denominator : ℚ) ≠ 0 := by positivity
  by_cases zero : numerator = 0
  · simp [nearest, pattern, zero]
  · have filled : 0 < numerator := Nat.pos_of_ne_zero zero
    have some : (numerator : ℚ) / denominator ≠ 0 := by positivity
    rw [nearest, pattern, if_neg zero, if_neg some, leadingExponent_eq_log filled positive]
    dsimp only
    rw [← lastExponent]
    obtain ⟨below, same⟩ :=
      scaledDown_facts numerator positive (format.lastExponent (numerator / denominator))
    rw [Rounding.halfEven.quotient_eq_integer _ below,
      Rounding.halfEven.quotient_eq_integer _ (Rat.den_pos _), Rat.num_div_den, ← same,
      Int.cast_natCast]

/-- Half of the least number and what is below it are rounded to zero. -/
theorem pattern_eq_zero {ratio : ℚ} (nonneg : 0 ≤ ratio)
    (small : ratio < 2 ^ (format.leastExponent - 1)) : format.pattern ratio = 0 := by
  rw [pattern]
  split
  case isTrue => rfl
  case isFalse nonzero =>
    have positive : 0 < ratio := lt_of_le_of_ne nonneg (Ne.symm nonzero)
    have low := (Int.lt_zpow_iff_log_lt one_lt_two positive).mp (by exact_mod_cast small)
    have least : format.lastExponent ratio = format.leastExponent := if_pos (by omega)
    dsimp only
    rw [least]
    have power : (0 : ℚ) < 2 ^ format.leastExponent := zpow_pos two_pos _
    generalize scaled_eq : ratio / 2 ^ format.leastExponent = scaled
    have scaledNonneg : 0 ≤ scaled := scaled_eq ▸ div_nonneg nonneg power.le
    have half : 2 * scaled < 1 := by
      rw [← scaled_eq, mul_div_assoc', div_lt_one power, mul_comm, ← lt_div_iff₀ two_pos]
      rwa [zpow_sub_one₀ two_ne_zero, ← div_eq_mul_inv] at small
    have below : 2 * scaled.num < scaled.den := by
      have cast : (2 * scaled.num : ℚ) < scaled.den := by
        rwa [← Rat.num_div_den scaled, mul_div_assoc', div_lt_one (by positivity)] at half
      exact_mod_cast cast
    rw [quotient_halfEven_eq_zero (Rat.num_nonneg.mpr scaledNonneg) below, Int.sub_self]
    simp

/-! ## Decimals -/

/-- A decimal that vanishes would be rounded to zero. -/
theorem nearest_eq_zero_of_vanishes {numerator power : Nat} (filled : 0 < numerator)
    (vanishes : format.vanishes numerator power = true) :
    format.nearest numerator (tenPower power) = 0 := by
  have positive := Decimal.tenPower_pos power
  rw [nearest_eq_pattern format numerator positive]
  refine format.pattern_eq_zero (by positivity) ?_
  rw [Binary.vanishes, decide_eq_true_eq] at vanishes
  have above : (numerator : ℚ) < 2 ^ (numerator.log2 + 1) := by exact_mod_cast Nat.lt_log2_self
  have below : (2 : ℚ) ^ (3 * power) ≤ tenPower power := by
    rw [pow_mul]
    have tenth : (tenPower power : ℚ) = 10 ^ power := by simp [tenPower]
    rw [tenth]
    exact pow_le_pow_left₀ (by norm_num) (by norm_num) power
  calc (numerator : ℚ) / tenPower power
      < 2 ^ (numerator.log2 + 1) / 2 ^ (3 * power) :=
        div_lt_div₀ above below (by positivity) (by positivity)
    _ = 2 ^ ((numerator.log2 + 1 : Nat) - (3 * power : Nat) : Int) := by
        rw [zpow_sub₀ two_ne_zero, zpow_natCast, zpow_natCast]
    _ ≤ 2 ^ (format.leastExponent - 1) := zpow_le_zpow_right₀ (by norm_num) (by omega)

theorem abs_toRat (number : Decimal) :
    |number.toRat| = number.digits.natAbs * (10 : ℚ) ^ (-number.scale) := by
  have power : (0 : ℚ) < 10 ^ (-number.scale) := zpow_pos (by norm_num) _
  rw [Decimal.toRat, abs_mul, abs_of_pos power, Nat.cast_natAbs, Int.cast_abs]

/-- The pattern of a decimal is that of its number, unless it leaves out too many zeros. -/
theorem ofDecimal_eq_pattern {number : Decimal}
    (above : -(Decimal.shiftLimit : Int) ≤ number.scale) :
    format.ofDecimal number =
      if number.toRat < 0 then format.signBit + format.pattern |number.toRat|
      else format.pattern |number.toRat| := by
  rw [ofDecimal]
  simp only [Decimal.toRat_neg_iff]
  suffices magnitude : (if number.digits.natAbs = 0 then 0
      else if number.scale < -(Decimal.shiftLimit : Int) then format.infinity
      else if number.scale ≤ 0 then
        format.nearest (number.digits.natAbs * tenPower (-number.scale).toNat) 1
      else if format.vanishes number.digits.natAbs number.scale.toNat then 0
      else format.nearest number.digits.natAbs (tenPower number.scale.toNat)) =
        format.pattern |number.toRat| by rw [magnitude]
  rw [if_neg (not_lt.mpr above), abs_toRat]
  split
  case isTrue zero => simp [zero, pattern]
  case isFalse nonzero =>
    split
    case isTrue whole =>
      rw [nearest_eq_pattern format _ one_pos, Nat.cast_mul,
        Decimal.cast_tenPower (by omega : 0 ≤ -number.scale), Nat.cast_one, div_one]
    case isFalse fraction =>
      have places : 0 ≤ number.scale := by omega
      have nearest := nearest_eq_pattern format number.digits.natAbs
        (Decimal.tenPower_pos number.scale.toNat)
      rw [Decimal.cast_tenPower places, div_eq_mul_inv, ← zpow_neg] at nearest
      rw [← nearest]
      split
      case isTrue vanishes =>
        exact (nearest_eq_zero_of_vanishes format (Nat.pos_of_ne_zero nonzero) vanishes).symm
      case isFalse => rfl

/-- Decimals of one number have the same pattern. -/
theorem ofDecimal_eq_of_toRat_eq {left right : Decimal} (same : left.toRat = right.toRat)
    (leftAbove : -(Decimal.shiftLimit : Int) ≤ left.scale)
    (rightAbove : -(Decimal.shiftLimit : Int) ≤ right.scale) :
    format.ofDecimal left = format.ofDecimal right := by
  rw [format.ofDecimal_eq_pattern leftAbove, format.ofDecimal_eq_pattern rightAbove, same]

end Binary

/-- Decimals of one number become the same double. -/
theorem Decimal.toFloat_eq_of_toRat_eq {left right : Decimal} (same : left.toRat = right.toRat)
    (leftAbove : -(shiftLimit : Int) ≤ left.scale) (rightAbove : -(shiftLimit : Int) ≤ right.scale)
    {first second : Float} (leftFloat : left.toFloat = .ok first)
    (rightFloat : right.toFloat = .ok second) : first = second := by
  have pattern : Binary.double.ofDecimal? left = Binary.double.ofDecimal? right := by
    rw [Binary.ofDecimal?, Binary.ofDecimal?,
      Binary.double.ofDecimal_eq_of_toRat_eq same leftAbove rightAbove]
  rw [toFloat, pattern] at leftFloat
  rw [toFloat] at rightFloat
  cases found : Binary.double.ofDecimal? right with
  | none =>
      rw [found] at rightFloat
      exact nomatch rightFloat
  | some bits =>
      rw [found] at leftFloat rightFloat
      exact Except.ok.inj (leftFloat.symm.trans rightFloat)

end Reckoner
