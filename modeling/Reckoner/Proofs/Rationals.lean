import Mathlib.Algebra.Ring.Int.Parity
import Mathlib.Data.Int.ConditionallyCompleteOrder
import Mathlib.Data.Rat.Floor
import Mathlib.Tactic.Linarith
import Mathlib.Tactic.Ring
import Reckoner.Rounding

/-!
# Rounding rational numbers

What the seven modes do to a rational number, said without a division of integers: away from zero,
toward zero, up, down, and to the nearest integer with three ways out of the middle
(`Rounding.integer`).  A quotient of integers is rounded as the number that it is
(`Rounding.quotient_eq_integer`).  Every mode keeps the order of numbers
(`Rounding.integer_mono`), and a mode with a direction may round to a finer grid first
(`Rounding.integer_integer_mul_div`).
-/

namespace Reckoner
namespace Rounding

/-! ## Modes as functions of a number -/

/-- The integer next to a number on the side of zero. -/
def towardZero (number : ℚ) : Int := if 0 ≤ number then ⌊number⌋ else ⌈number⌉

/-- The integer next to a number on the side away from zero. -/
def awayFromZero (number : ℚ) : Int := if 0 ≤ number then ⌈number⌉ else ⌊number⌋

/-- The even one of the two integers around a number. -/
def evenAround (number : ℚ) : Int := if Even ⌊number⌋ then ⌊number⌋ else ⌈number⌉

/-- The integer nearest to a number, and the given one if the number is in the middle of two. -/
def nearest (middle : Int) (number : ℚ) : Int :=
  if Int.fract number < 1 / 2 then ⌊number⌋
  else if 1 / 2 < Int.fract number then ⌈number⌉
  else middle

/-- The integer that a mode rounds a number to. -/
def integer (mode : Rounding) (number : ℚ) : Int :=
  match mode with
  | up => awayFromZero number
  | down => towardZero number
  | ceiling => ⌈number⌉
  | floor => ⌊number⌋
  | halfUp => nearest (awayFromZero number) number
  | halfDown => nearest (towardZero number) number
  | halfEven => nearest (evenAround number) number

variable {number other : ℚ}

/-- No mode moves an integer. -/
@[simp]
theorem integer_intCast (mode : Rounding) (whole : Int) : mode.integer whole = whole := by
  cases mode <;> simp [integer, awayFromZero, towardZero, nearest]

/-! ## Signs -/

/-- The mode that rounds the opposite of a number to the opposite of what this mode rounds to. -/
def reflected : Rounding → Rounding
  | ceiling => floor
  | floor => ceiling
  | mode => mode

theorem movesAway_neg (mode : Rounding) (quotient remainder : Int) (divisor : Nat) :
    mode.movesAway (-quotient) (-remainder) divisor =
      mode.reflected.movesAway quotient remainder divisor := by
  cases mode <;> simp [movesAway, reflected]

theorem quotient_neg (mode : Rounding) (number : Int) (divisor : Nat) :
    mode.quotient (-number) divisor = -mode.reflected.quotient number divisor := by
  rw [quotient, quotient, Int.neg_tdiv, Int.neg_tmod, movesAway_neg]
  split
  case isTrue moves =>
    have nonzero : number ≠ 0 := by
      rintro rfl
      simp [movesAway] at moves
    rcases lt_or_gt_of_ne nonzero with negative | positive
    · rw [if_neg (by omega), if_pos negative]
      ring
    · rw [if_pos (by omega), if_neg (by omega)]
      ring
  case isFalse => rfl

@[simp]
theorem reflected_reflected (mode : Rounding) : mode.reflected.reflected = mode := by
  cases mode <;> rfl

theorem towardZero_neg (number : ℚ) : towardZero (-number) = -towardZero number := by
  unfold towardZero
  rcases lt_trichotomy number 0 with negative | rfl | positive
  · rw [if_pos (by linarith), if_neg (by linarith), Int.floor_neg]
  · simp
  · rw [if_neg (by linarith), if_pos (by linarith), Int.ceil_neg]

theorem awayFromZero_neg (number : ℚ) : awayFromZero (-number) = -awayFromZero number := by
  unfold awayFromZero
  rcases lt_trichotomy number 0 with negative | rfl | positive
  · rw [if_pos (by linarith), if_neg (by linarith), Int.ceil_neg]
  · simp
  · rw [if_neg (by linarith), if_pos (by linarith), Int.floor_neg]

/-- A number is an integer, or the integers around it are neighbours. -/
theorem ceil_cases (number : ℚ) :
    (Int.fract number = 0 ∧ ⌈number⌉ = ⌊number⌋) ∨
      (0 < Int.fract number ∧ ⌈number⌉ = ⌊number⌋ + 1) := by
  rcases (Int.fract_nonneg number).eq_or_lt with whole | inexact
  · refine .inl ⟨whole.symm, ?_⟩
    obtain ⟨integer, rfl⟩ := Int.fract_eq_zero_iff.mp whole.symm
    simp
  · refine .inr ⟨inexact, (Int.ceil_eq_floor_add_one_iff_notMem number).mpr ?_⟩
    exact fun whole => inexact.ne' (Int.fract_eq_zero_iff.mpr whole)

theorem evenAround_neg (number : ℚ) : evenAround (-number) = -evenAround number := by
  unfold evenAround
  simp only [Int.floor_neg, Int.ceil_neg, even_neg]
  obtain ⟨-, same⟩ | ⟨-, next⟩ := ceil_cases number
  · simp [same]
  · by_cases even : Even ⌊number⌋
    · simp [next, even]
    · simp [next, even]

theorem nearest_neg (middle : Int) (number : ℚ) :
    nearest (-middle) (-number) = -nearest middle number := by
  unfold nearest
  rw [Int.floor_neg, Int.ceil_neg]
  obtain ⟨whole, same⟩ | ⟨inexact, -⟩ := ceil_cases number
  · rw [Int.fract_neg_eq_zero.mpr whole, whole, same]
    norm_num
  · rw [Int.fract_neg inexact.ne']
    rcases lt_trichotomy (Int.fract number) (1 / 2) with less | half | more
    · rw [if_neg (by linarith), if_pos (by linarith), if_pos less]
    · rw [half]
      norm_num
    · rw [if_pos (by linarith), if_neg (by linarith), if_pos more]

/-- Opposite numbers are rounded to opposite integers, the infinities exchanged. -/
theorem integer_neg (mode : Rounding) (number : ℚ) :
    mode.integer (-number) = -mode.reflected.integer number := by
  cases mode with
  | up => exact awayFromZero_neg number
  | down => exact towardZero_neg number
  | ceiling => exact Int.ceil_neg
  | floor => exact Int.floor_neg
  | halfUp => rw [integer, awayFromZero_neg, nearest_neg]; rfl
  | halfDown => rw [integer, towardZero_neg, nearest_neg]; rfl
  | halfEven => rw [integer, evenAround_neg, nearest_neg]; rfl

/-! ## Quotients of integers -/

section Ratio

variable {dividend divisor : Nat}

/-- The integers around a ratio that is not one, and on which side of their middle it lies. -/
theorem ratio_facts (positive : 0 < divisor) (inexact : dividend % divisor ≠ 0) :
    ⌊(dividend : ℚ) / divisor⌋ = (dividend / divisor : Nat) ∧
      ⌈(dividend : ℚ) / divisor⌉ = (dividend / divisor : Nat) + 1 ∧
      (Int.fract ((dividend : ℚ) / divisor) < 1 / 2 ↔ 2 * (dividend % divisor) < divisor) ∧
      (1 / 2 < Int.fract ((dividend : ℚ) / divisor) ↔ divisor < 2 * (dividend % divisor)) := by
  have cast : (0 : ℚ) < divisor := by exact_mod_cast positive
  have below : ⌊(dividend : ℚ) / divisor⌋ = (dividend / divisor : Nat) := by
    rw [Rat.floor_natCast_div_natCast, Int.natCast_div]
  have part : Int.fract ((dividend : ℚ) / divisor) = (dividend % divisor : Nat) / divisor :=
    Int.fract_div_natCast_eq_div_natCast_mod
  refine ⟨below, ?_, ?_, ?_⟩
  · obtain ⟨whole, -⟩ | ⟨-, next⟩ := ceil_cases ((dividend : ℚ) / divisor)
    · rw [part, div_eq_zero_iff, or_iff_left cast.ne', Nat.cast_eq_zero] at whole
      exact absurd whole inexact
    · rw [next, below]
  · rw [part, div_lt_div_iff₀ cast two_pos, one_mul, mul_comm]
    exact_mod_cast Iff.rfl
  · rw [part, div_lt_div_iff₀ two_pos cast, one_mul, mul_comm]
    exact_mod_cast Iff.rfl

/-- The quotient of natural numbers that leaves a remainder. -/
theorem quotient_eq_integer_of_inexact (mode : Rounding) (positive : 0 < divisor)
    (inexact : dividend % divisor ≠ 0) :
    mode.quotient dividend divisor = mode.integer ((dividend : ℚ) / divisor) := by
  obtain ⟨below, above, less, more⟩ := ratio_facts positive inexact
  have nonneg : (0 : ℚ) ≤ (dividend : ℚ) / divisor := by positivity
  have truncated : (dividend : Int).tdiv divisor = (dividend / divisor : Nat) := by
    rw [Int.tdiv_eq_ediv_of_nonneg (Int.natCast_nonneg dividend), Int.natCast_div]
  have remainder : (dividend : Int).tmod divisor = (dividend % divisor : Nat) := by
    rw [Int.tmod_eq_emod_of_nonneg (Int.natCast_nonneg dividend), Int.natCast_mod]
  have even : Even ((dividend / divisor : Nat) : Int) ↔ dividend / divisor % 2 ≠ 1 := by
    rw [Int.even_coe_nat, Nat.even_iff]
    omega
  have positivePart : (0 : Int) < (dividend % divisor : Nat) := by omega
  rw [quotient, truncated, remainder, if_neg (not_lt.mpr (Int.natCast_nonneg dividend))]
  cases mode <;>
    simp only [movesAway, integer, awayFromZero, towardZero, evenAround, nearest, if_pos nonneg,
      below, above, less, more, even, positivePart, positivePart.ne', positivePart.not_gt,
      Int.natAbs_natCast] <;>
    grind

end Ratio

/-- A quotient of integers is rounded as the number that it is. -/
theorem quotient_eq_integer (mode : Rounding) (number : Int) {divisor : Nat}
    (positive : 0 < divisor) :
    mode.quotient number divisor = mode.integer ((number : ℚ) / divisor) := by
  have cast : (divisor : ℚ) ≠ 0 := by exact_mod_cast positive.ne'
  have natural (mode : Rounding) (dividend : Nat) :
      mode.quotient dividend divisor = mode.integer ((dividend : ℚ) / divisor) := by
    by_cases inexact : dividend % divisor = 0
    · obtain ⟨whole, rfl⟩ := Nat.dvd_of_mod_eq_zero inexact
      have exactly : ((divisor * whole : Nat) : ℚ) / divisor = (whole : Int) := by
        rw [Nat.cast_mul, mul_div_cancel_left₀ _ cast, Int.cast_natCast]
      rw [exactly, integer_intCast, Nat.mul_comm, Nat.cast_mul, quotient_mul mode whole positive]
    · exact mode.quotient_eq_integer_of_inexact positive inexact
  obtain ⟨dividend, rfl | rfl⟩ := number.eq_nat_or_neg
  · exact natural mode dividend
  · rw [quotient_neg, natural, Int.cast_neg, neg_div, integer_neg, Int.cast_natCast]

example : all.map (integer · (-5 / 2)) = [-3, -2, -2, -3, -3, -2, -2] := by decide +kernel

/-! ## Order -/

theorem towardZero_mono : Monotone towardZero := by
  intro number other ordered
  unfold towardZero
  split
  case isTrue nonneg =>
    rw [if_pos (nonneg.trans ordered)]
    exact Int.floor_mono ordered
  case isFalse negative =>
    split
    case isTrue nonneg =>
      calc ⌈number⌉
        _ ≤ 0 := Int.ceil_nonpos.mpr (not_le.mp negative).le
        _ ≤ ⌊other⌋ := Int.floor_nonneg.mpr nonneg
    case isFalse => exact Int.ceil_mono ordered

theorem awayFromZero_mono : Monotone awayFromZero := by
  intro number other ordered
  unfold awayFromZero
  split
  case isTrue nonneg =>
    rw [if_pos (nonneg.trans ordered)]
    exact Int.ceil_mono ordered
  case isFalse negative =>
    split
    case isTrue nonneg =>
      calc ⌊number⌋
        _ ≤ 0 := Int.floor_nonpos (not_le.mp negative).le
        _ ≤ ⌈other⌉ := Int.ceil_nonneg nonneg
    case isFalse => exact Int.floor_mono ordered

/-- Whether an integer is one of those around a number. -/
def IsAround (number : ℚ) (whole : Int) : Prop := ⌊number⌋ ≤ whole ∧ whole ≤ ⌈number⌉

theorem isAround_towardZero (number : ℚ) : IsAround number (towardZero number) := by
  have ordered := Int.floor_le_ceil number
  unfold IsAround towardZero
  split <;> simp [ordered]

theorem isAround_awayFromZero (number : ℚ) : IsAround number (awayFromZero number) := by
  have ordered := Int.floor_le_ceil number
  unfold IsAround awayFromZero
  split <;> simp [ordered]

theorem isAround_evenAround (number : ℚ) : IsAround number (evenAround number) := by
  have ordered := Int.floor_le_ceil number
  unfold IsAround evenAround
  split <;> simp [ordered]

/-- The nearest integer is no more than a half away. -/
theorem abs_nearest_sub_le {middle : Int} (around : IsAround number middle) :
    |(nearest middle number : ℚ) - number| ≤ 1 / 2 := by
  have whole := Int.floor_add_fract number
  have ceil : (⌈number⌉ : ℚ) ≤ ⌊number⌋ + 1 := by exact_mod_cast Int.ceil_le_floor_add_one number
  have above := Int.le_ceil number
  have low : (⌊number⌋ : ℚ) ≤ middle := by exact_mod_cast around.1
  have high : (middle : ℚ) ≤ ⌈number⌉ := by exact_mod_cast around.2
  have nonneg := Int.fract_nonneg number
  unfold nearest
  rw [abs_le]
  split
  case isTrue less => constructor <;> linarith
  case isFalse =>
    split
    case isTrue more => constructor <;> linarith
    case isFalse => constructor <;> linarith

/-- Choosing nearest integers keeps the order, whatever is chosen in the middle. -/
theorem nearest_mono {middle : ℚ → Int} (around : ∀ number, IsAround number (middle number)) :
    Monotone fun number => nearest (middle number) number := by
  intro number other ordered
  rcases ordered.eq_or_lt with rfl | less
  · exact le_rfl
  · -- Integers in the wrong order would be one apart, and each is half of that away.
    by_contra wrong
    have apart : (nearest (middle other) other : ℚ) + 1 ≤ nearest (middle number) number := by
      exact_mod_cast not_le.mp wrong
    have first := abs_le.mp (abs_nearest_sub_le (around number))
    have second := abs_le.mp (abs_nearest_sub_le (around other))
    linarith

/-- Every mode keeps the order of numbers. -/
theorem integer_mono (mode : Rounding) : Monotone mode.integer := by
  cases mode with
  | up => exact awayFromZero_mono
  | down => exact towardZero_mono
  | ceiling => exact Int.ceil_mono
  | floor => exact Int.floor_mono
  | halfUp => exact nearest_mono isAround_awayFromZero
  | halfDown => exact nearest_mono isAround_towardZero
  | halfEven => exact nearest_mono isAround_evenAround

/-! ## Rounding twice -/

/-- Whether a mode rounds every number in a direction, and none to the nearest integer. -/
def isDirected : Rounding → Bool
  | up | down | ceiling | floor => true
  | halfUp | halfDown | halfEven => false

@[simp]
theorem isDirected_reflected (mode : Rounding) : mode.reflected.isDirected = mode.isDirected := by
  cases mode <;> rfl

theorem floor_floor_mul_div (number : ℚ) {factor : Nat} (positive : 0 < factor) :
    ⌊(⌊number * factor⌋ : ℚ) / factor⌋ = ⌊number⌋ := by
  have cast : (factor : ℚ) ≠ 0 := by exact_mod_cast positive.ne'
  rw [Rat.floor_intCast_div_natCast, ← Int.floor_div_natCast, mul_div_cancel_right₀ number cast]

theorem ceil_ceil_mul_div (number : ℚ) {factor : Nat} (positive : 0 < factor) :
    ⌈(⌈number * factor⌉ : ℚ) / factor⌉ = ⌈number⌉ := by
  have opposite := floor_floor_mul_div (-number) positive
  rw [neg_mul, Int.floor_neg, Int.cast_neg, neg_div, Int.floor_neg, Int.floor_neg] at opposite
  exact neg_inj.mp opposite

/-- A number that is not negative is rounded down toward zero, and up away from it. -/
theorem integer_of_nonneg (nonneg : 0 ≤ number) :
    down.integer number = ⌊number⌋ ∧ up.integer number = ⌈number⌉ :=
  ⟨if_pos nonneg, if_pos nonneg⟩

/--
A mode with a direction may round to a multiple of a unit fraction first.  (A mode to the nearest
may not: what is rounded up to the middle of two integers may be rounded up once more.)
-/
theorem integer_integer_mul_div {mode : Rounding} (directed : mode.isDirected = true)
    (number : ℚ) {factor : Nat} (positive : 0 < factor) :
    mode.integer (mode.integer (number * factor) / factor) = mode.integer number := by
  have nonnegative (mode : Rounding) (directed : mode.isDirected = true) {number : ℚ}
      (nonneg : 0 ≤ number) :
      mode.integer (mode.integer (number * factor) / factor) = mode.integer number := by
    have product : 0 ≤ number * factor := by positivity
    have below : (0 : ℚ) ≤ ⌊number * factor⌋ := by exact_mod_cast Int.floor_nonneg.mpr product
    have above : (0 : ℚ) ≤ ⌈number * factor⌉ := by exact_mod_cast Int.ceil_nonneg product
    cases mode with
    | down =>
        rw [(integer_of_nonneg product).1, (integer_of_nonneg (by positivity)).1,
          (integer_of_nonneg nonneg).1, floor_floor_mul_div number positive]
    | up =>
        rw [(integer_of_nonneg product).2, (integer_of_nonneg (by positivity)).2,
          (integer_of_nonneg nonneg).2, ceil_ceil_mul_div number positive]
    | ceiling => exact ceil_ceil_mul_div number positive
    | floor => exact floor_floor_mul_div number positive
    | _ => contradiction
  rcases le_total 0 number with nonneg | nonpos
  · exact nonnegative mode directed nonneg
  · have opposite := nonnegative mode.reflected (by simpa using directed) (neg_nonneg.mpr nonpos)
    rw [neg_mul, integer_neg, integer_neg, Int.cast_neg, neg_div, integer_neg, reflected_reflected]
      at opposite
    exact neg_inj.mp opposite

end Rounding
end Reckoner
