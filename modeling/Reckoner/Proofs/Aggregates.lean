import Mathlib.Algebra.Order.BigOperators.Group.List
import Mathlib.Order.Compare
import Reckoner.Function.Builtin
import Reckoner.Proofs.Rescaling

/-!
# Aggregates

The functions of any number of arguments are folds, and yet the order of the arguments does not
matter: a sum is exact and has the largest scale of its terms, so it is one decimal in every order,
and the extremes are characterized by being arguments that bound all others.  Comparison sees the
numbers only (`Decimal.compares`), although it may answer from the number of binary digits alone.
The rounded mean lies between the extremes if these have decimals of the scale that it is rounded
to, whatever the mode (`aggregates_agree`).
-/

namespace Reckoner

/-! ## Comparison -/

namespace Decimal

variable {left right : Decimal}

/-- A number with fewer than three binary digits for each zero of the other one is smaller. -/
theorem lt_mul_tenPower {left right shift : Nat} (short : left.log2 < 3 * shift)
    (positive : 0 < right) : left < right * tenPower shift :=
  calc
    left < 2 ^ (left.log2 + 1) := Nat.lt_log2_self
    _ ≤ 2 ^ (3 * shift) := Nat.pow_le_pow_right (by decide) short
    _ = 8 ^ shift := Nat.pow_mul 2 3 shift
    _ ≤ tenPower shift := Nat.pow_le_pow_left (by decide) shift
    _ ≤ right * tenPower shift := Nat.le_mul_of_pos_left _ positive

theorem compares_positive {left right : Nat} (shift : Nat) (positive : 0 < right) :
    (comparePositive left right shift).Compares left (right * tenPower shift) := by
  unfold comparePositive
  split
  case isTrue short => exact lt_mul_tenPower short positive
  case isFalse => exact (compare_iff _ _).mp rfl

theorem abs_toRat_eq (number : Decimal) :
    |number.toRat| = number.digits.natAbs * (10 : ℚ) ^ (-number.scale) := by
  have power : (0 : ℚ) ≤ 10 ^ (-number.scale) := zpow_nonneg (by norm_num) _
  rw [toRat, abs_mul, abs_of_nonneg power, Nat.cast_natAbs, Int.cast_abs]

/-- A magnitude in units of a larger scale. -/
theorem abs_toRat_eq_of_le {number : Decimal} {scale : Int} (larger : number.scale ≤ scale) :
    |number.toRat| =
      (number.digits.natAbs * tenPower (scale - number.scale).toNat : Nat) *
        (10 : ℚ) ^ (-scale) := by
  have ten : (10 : ℚ) ≠ 0 := by norm_num
  have nonneg : 0 ≤ scale - number.scale := by omega
  have exponent : -number.scale = (scale - number.scale) + -scale := by ring
  rw [abs_toRat_eq, Nat.cast_mul, cast_tenPower nonneg, mul_assoc, ← zpow_add₀ ten, ← exponent]

/-- Units of one scale are ordered as the numbers that they count. -/
theorem strictMono_units (scale : Int) :
    StrictMono fun count : Nat => (count : ℚ) * 10 ^ (-scale) :=
  fun _ _ less => mul_lt_mul_of_pos_right (Nat.cast_lt.mpr less) (zpow_pos (by norm_num) _)

theorem compares_magnitude (leftNonzero : left.digits ≠ 0) (rightNonzero : right.digits ≠ 0) :
    (compareMagnitude left right).Compares |left.toRat| |right.toRat| := by
  have leftPositive := Int.natAbs_pos.mpr leftNonzero
  have rightPositive := Int.natAbs_pos.mpr rightNonzero
  unfold compareMagnitude
  split
  case isTrue larger =>
    rw [abs_toRat_eq left, abs_toRat_eq_of_le larger]
    exact (strictMono_units left.scale).compares.mpr (compares_positive _ rightPositive)
  case isFalse smaller =>
    rw [abs_toRat_eq right, abs_toRat_eq_of_le (not_le.mp smaller).le, Ordering.compares_swap]
    exact (strictMono_units right.scale).compares.mpr (compares_positive _ leftPositive)

theorem toRat_pos_iff (number : Decimal) : 0 < number.toRat ↔ 0 < number.digits := by
  have power : (0 : ℚ) < (10 : ℚ) ^ (-number.scale) := zpow_pos (by norm_num) _
  rw [toRat, mul_pos_iff_of_pos_right power, Int.cast_pos]

/-- Numbers of different signs are ordered as the signs are. -/
theorem toRat_lt_of_sign_lt (signs : left.digits.sign < right.digits.sign) :
    left.toRat < right.toRat := by
  have cases : left.digits < 0 ∧ 0 ≤ right.digits ∨ left.digits = 0 ∧ 0 < right.digits := by grind
  rcases cases with ⟨negative, nonneg⟩ | ⟨zero, positive⟩
  · have below := (toRat_neg_iff left).mpr negative
    have above : 0 ≤ right.toRat := not_lt.mp fun less =>
      not_lt.mpr nonneg ((toRat_neg_iff right).mp less)
    exact below.trans_le above
  · rw [toRat_eq_zero_iff.mpr zero]
    exact (toRat_pos_iff right).mpr positive

/-- Comparison gives the order of the numbers. -/
theorem compares (left right : Decimal) :
    (left.compare right).Compares left.toRat right.toRat := by
  unfold compare
  split
  case isTrue less => exact toRat_lt_of_sign_lt less
  case isFalse notLess =>
    split
    case isTrue greater => exact toRat_lt_of_sign_lt greater
    case isFalse notGreater =>
      have signs : left.digits.sign = right.digits.sign := by omega
      split
      case isTrue negative =>
        have other : right.digits < 0 := by grind
        have magnitudes := compares_magnitude other.ne negative.ne
        rw [abs_of_neg ((toRat_neg_iff right).mpr other),
          abs_of_neg ((toRat_neg_iff left).mpr negative)] at magnitudes
        exact (StrictAnti.compares fun _ _ => neg_lt_neg).mp magnitudes
      case isFalse nonneg =>
        split
        case isTrue zero =>
          have other : right.digits = 0 := by grind
          exact (toRat_eq_zero_iff.mpr zero).trans (toRat_eq_zero_iff.mpr other).symm
        case isFalse nonzero =>
          have positive : 0 < left.digits := by omega
          have other : 0 < right.digits := by grind
          have magnitudes := compares_magnitude nonzero other.ne'
          rwa [abs_of_pos ((toRat_pos_iff left).mpr positive),
            abs_of_pos ((toRat_pos_iff right).mpr other)] at magnitudes

end Decimal

/-! ## Folds -/

section Folds

variable {κ : Type} {combine : Decimal → Decimal → Decimal}

/-- A key of one of the values to which the keys of all values are related. -/
structure IsExtreme (relation : κ → κ → Prop) (key : Decimal → κ) (values : List Decimal)
    (extreme : κ) : Prop where
  /-- It is the key of a value. -/
  attained : ∃ value ∈ values, key value = extreme
  /-- It bounds the keys of all values. -/
  bounds : ∀ value ∈ values, relation extreme (key value)

variable {relation : κ → κ → Prop} {key : Decimal → κ}

theorem IsExtreme.of_perm {values others : List Decimal} {extreme : κ}
    (isExtreme : IsExtreme relation key values extreme) (perm : values.Perm others) :
    IsExtreme relation key others extreme := by
  obtain ⟨⟨value, member, same⟩, bounds⟩ := isExtreme
  exact ⟨⟨value, perm.mem_iff.mp member, same⟩,
    fun other found => bounds other (perm.mem_iff.mpr found)⟩

theorem IsExtreme.eq [Std.Antisymm relation] {values : List Decimal} {first second : κ}
    (isExtreme : IsExtreme relation key values first)
    (other : IsExtreme relation key values second) : first = second := by
  obtain ⟨firstValue, firstMember, rfl⟩ := isExtreme.attained
  obtain ⟨secondValue, secondMember, rfl⟩ := other.attained
  exact Std.Antisymm.antisymm _ _ (isExtreme.bounds _ secondMember) (other.bounds _ firstMember)

/-- A fold by an operation that has the key of one operand keeps the key of a value. -/
theorem exists_mem_foldl (key : Decimal → κ)
    (picks : ∀ left right, key (combine left right) = key left ∨
      key (combine left right) = key right) (first : Decimal) (others : List Decimal) :
    ∃ value ∈ first :: others, key value = key (others.foldl combine first) := by
  induction others generalizing first with
  | nil => exact ⟨first, List.mem_singleton_self first, rfl⟩
  | cons next others ih =>
      obtain ⟨value, member, same⟩ := ih (combine first next)
      rw [List.foldl_cons, ← same]
      rcases List.mem_cons.mp member with rfl | later
      · rcases picks first next with left | right
        · exact ⟨first, List.mem_cons_self, left.symm⟩
        · exact ⟨next, List.mem_cons_of_mem _ List.mem_cons_self, right.symm⟩
      · exact ⟨value, List.mem_cons_of_mem _ (List.mem_cons_of_mem _ later), rfl⟩

/-- A fold by an operation that is related to both operands is related to all values. -/
theorem foldl_bounds (relation : κ → κ → Prop) [Std.Refl relation] [IsTrans κ relation]
    (key : Decimal → κ)
    (bounds : ∀ left right, relation (key (combine left right)) (key left) ∧
      relation (key (combine left right)) (key right)) (first : Decimal) (others : List Decimal) :
    ∀ value ∈ first :: others, relation (key (others.foldl combine first)) (key value) := by
  induction others generalizing first with
  | nil =>
      intro value member
      rw [List.mem_singleton.mp member]
      exact Std.Refl.refl _
  | cons next others ih =>
      have below := ih (combine first next)
      have start := below _ List.mem_cons_self
      rw [List.forall_mem_cons, List.forall_mem_cons]
      exact ⟨IsTrans.trans _ _ _ start (bounds first next).1,
        IsTrans.trans _ _ _ start (bounds first next).2,
        fun value member => below value (List.mem_cons_of_mem _ member)⟩

/-- A fold by an operation that picks the smaller operand, or the larger one, picks an extreme. -/
theorem foldl_isExtreme (relation : κ → κ → Prop) [Std.Refl relation] [IsTrans κ relation]
    (key : Decimal → κ)
    (cases : ∀ left right, (combine left right = left ∨ combine left right = right) ∧
      relation (key (combine left right)) (key left) ∧
        relation (key (combine left right)) (key right))
    (first : Decimal) (others : List Decimal) :
    others.foldl combine first ∈ first :: others ∧
      IsExtreme relation key (first :: others) (key (others.foldl combine first)) := by
  obtain ⟨_, inside, rfl⟩ : ∃ value ∈ first :: others, value = others.foldl combine first :=
    exists_mem_foldl id (fun left right => (cases left right).1) first others
  exact ⟨inside, ⟨_, inside, rfl⟩,
    foldl_bounds relation key (fun left right => (cases left right).2) first others⟩

end Folds

/-! ## Sums and extremes -/

namespace Decimal

theorem min_cases (left right : Decimal) :
    (left.min right = left ∨ left.min right = right) ∧
      (left.min right).toRat ≤ left.toRat ∧ (left.min right).toRat ≤ right.toRat := by
  have order := (right.compares left).eq_lt
  unfold min
  split
  case isTrue less => exact ⟨.inr rfl, (order.mp less).le, le_rfl⟩
  case isFalse other => exact ⟨.inl rfl, le_rfl, not_lt.mp fun less => other (order.mpr less)⟩

theorem max_cases (left right : Decimal) :
    (left.max right = left ∨ left.max right = right) ∧
      left.toRat ≤ (left.max right).toRat ∧ right.toRat ≤ (left.max right).toRat := by
  have order := (right.compares left).eq_gt
  unfold max
  split
  case isTrue greater => exact ⟨.inr rfl, (order.mp greater).le, le_rfl⟩
  case isFalse other => exact ⟨.inl rfl, le_rfl, not_lt.mp fun less => other (order.mpr less)⟩

theorem scale_sum_cases (left right : Decimal) :
    ((left.sum right).scale = left.scale ∨ (left.sum right).scale = right.scale) ∧
      left.scale ≤ (left.sum right).scale ∧ right.scale ≤ (left.sum right).scale := by
  change (commonScale left right = _ ∨ commonScale left right = _) ∧
    _ ≤ commonScale left right ∧ _ ≤ commonScale left right
  unfold commonScale
  split <;> omega

/-- A decimal is determined by its number and its scale. -/
theorem eq_of_toRat_eq {left right : Decimal} (same : left.toRat = right.toRat)
    (scale : left.scale = right.scale) : left = right := by
  obtain ⟨leftDigits, leftScale⟩ := left
  obtain ⟨rightDigits, rightScale⟩ := right
  obtain rfl : leftScale = rightScale := scale
  have power : (10 : ℚ) ^ (-leftScale) ≠ 0 := zpow_ne_zero _ (by norm_num)
  have digits : (leftDigits : ℚ) = rightDigits := mul_right_cancel₀ power same
  rw [Int.cast_inj.mp digits]

theorem toRat_foldl_sum (first : Decimal) (others : List Decimal) :
    (others.foldl sum first).toRat = ((first :: others).map toRat).sum := by
  induction others generalizing first with
  | nil => simp
  | cons next others ih =>
      rw [List.foldl_cons, ih, List.map_cons, List.sum_cons, toRat_sum, List.map_cons,
        List.map_cons, List.sum_cons, List.sum_cons, add_assoc]

end Decimal

namespace Builtin

variable {settings : Settings} {values others : List Decimal}

theorem avg_eq (settings : Settings) (nonempty : values ≠ []) :
    avg settings values =
      settings.calculation.divide (total settings values) (.ofInt values.length) := by
  obtain ⟨first, others, rfl⟩ := List.exists_cons_of_ne_nil nonempty
  rfl

theorem toRat_total (settings : Settings) (nonempty : values ≠ []) :
    (total settings values).toRat = (values.map Decimal.toRat).sum := by
  obtain ⟨first, others, rfl⟩ := List.exists_cons_of_ne_nil nonempty
  exact Decimal.toRat_foldl_sum first others

/-- A sum has the largest scale of its terms. -/
theorem isExtreme_total (settings : Settings) (nonempty : values ≠ []) :
    IsExtreme (· ≥ ·) Decimal.scale values (total settings values).scale := by
  obtain ⟨first, others, rfl⟩ := List.exists_cons_of_ne_nil nonempty
  have picks (left right : Decimal) := (left.scale_sum_cases right).1
  have larger (left right : Decimal) := (left.scale_sum_cases right).2
  exact ⟨exists_mem_foldl Decimal.scale picks first others,
    foldl_bounds (· ≥ ·) Decimal.scale larger first others⟩

/-- A sum does not depend on the order of its terms. -/
theorem total_perm (settings : Settings) (perm : values.Perm others) :
    total settings values = total settings others := by
  by_cases empty : values = []
  · subst empty
    rw [perm.nil_eq]
  · have filled : others ≠ [] := fun none => empty (none ▸ perm).eq_nil
    have number : (total settings values).toRat = (total settings others).toRat := by
      rw [toRat_total settings empty, toRat_total settings filled,
        (perm.map Decimal.toRat).sum_eq]
    have scale := ((isExtreme_total settings empty).of_perm perm).eq
      (isExtreme_total settings filled)
    exact Decimal.eq_of_toRat_eq number scale

theorem exists_min (settings : Settings) (nonempty : values ≠ []) :
    ∃ low, min settings values = .ok low ∧ low ∈ values ∧
      IsExtreme (· ≤ ·) Decimal.toRat values low.toRat := by
  obtain ⟨first, others, rfl⟩ := List.exists_cons_of_ne_nil nonempty
  exact ⟨_, rfl, foldl_isExtreme (· ≤ ·) Decimal.toRat Decimal.min_cases first others⟩

theorem exists_max (settings : Settings) (nonempty : values ≠ []) :
    ∃ high, max settings values = .ok high ∧ high ∈ values ∧
      IsExtreme (· ≥ ·) Decimal.toRat values high.toRat := by
  obtain ⟨first, others, rfl⟩ := List.exists_cons_of_ne_nil nonempty
  exact ⟨_, rfl, foldl_isExtreme (· ≥ ·) Decimal.toRat Decimal.max_cases first others⟩

/-! ## The mean -/

/-- The exact mean of some numbers. -/
def mean (values : List Decimal) : ℚ := (values.map Decimal.toRat).sum / values.length

theorem le_mean {low : ℚ} (nonempty : values ≠ []) (bounds : ∀ value ∈ values, low ≤ value.toRat) :
    low ≤ mean values := by
  have positive : (0 : ℚ) < values.length := Nat.cast_pos.mpr (List.length_pos_iff.mpr nonempty)
  have counted := List.card_nsmul_le_sum (values.map Decimal.toRat) low
    (List.forall_mem_map.mpr bounds)
  rw [List.length_map, nsmul_eq_mul, mul_comm] at counted
  exact (le_div_iff₀ positive).mpr counted

theorem mean_le {high : ℚ} (nonempty : values ≠ [])
    (bounds : ∀ value ∈ values, value.toRat ≤ high) : mean values ≤ high := by
  have positive : (0 : ℚ) < values.length := Nat.cast_pos.mpr (List.length_pos_iff.mpr nonempty)
  have counted := List.sum_le_card_nsmul (values.map Decimal.toRat) high
    (List.forall_mem_map.mpr bounds)
  rw [List.length_map, nsmul_eq_mul, mul_comm] at counted
  exact (div_le_iff₀ positive).mpr counted

/-- An average is the exact mean, rounded once. -/
theorem avg_eq_roundOnce (settings : Settings) (nonempty : values ≠ []) :
    avg settings values =
      settings.calculation.roundOnce
        (settings.calculation.scale - (total settings values).scale) (mean values) := by
  have count : (Decimal.ofInt values.length).toRat = values.length := by
    simp [Decimal.toRat, Decimal.ofInt]
  have positive : (values.length : ℚ) ≠ 0 :=
    Nat.cast_ne_zero.mpr (List.length_pos_iff.mpr nonempty).ne'
  have scale : (Decimal.ofInt values.length).scale = 0 := rfl
  rw [avg_eq settings nonempty, Precision.divide_eq_roundOnce _ (count ▸ positive), count, scale,
    add_zero, toRat_total settings nonempty, mean]

end Builtin

/--
Aggregates do not depend on the order of their arguments: the sum, which is exact, and the average
are the same decimals, and the extremes the same numbers.  The extremes are arguments that bound
all arguments, and the average lies between them if the arguments have decimals of the scale that
it is rounded to.
-/
theorem aggregates_agree {settings : Settings} {values others : List Decimal}
    (nonempty : values ≠ []) (perm : values.Perm others) :
    (∃ total, Builtin.sum settings values = .ok total ∧ Builtin.sum settings others = .ok total ∧
      total.toRat = (values.map Decimal.toRat).sum) ∧
    Builtin.avg settings values = Builtin.avg settings others ∧
    ∃ low high otherLow otherHigh,
      Builtin.min settings values = .ok low ∧ Builtin.max settings values = .ok high ∧
      Builtin.min settings others = .ok otherLow ∧ Builtin.max settings others = .ok otherHigh ∧
      otherLow.toRat = low.toRat ∧ otherHigh.toRat = high.toRat ∧ low ∈ values ∧ high ∈ values ∧
      (∀ value ∈ values, low.toRat ≤ value.toRat ∧ value.toRat ≤ high.toRat) ∧
      ((∀ value ∈ values, value.IsAt settings.calculation.scale) →
        ∀ average, Builtin.avg settings values = .ok average →
          low.toRat ≤ average.toRat ∧ average.toRat ≤ high.toRat) := by
  have filled : others ≠ [] := fun none => nonempty (none ▸ perm).eq_nil
  have total := Builtin.total_perm settings perm
  have average : Builtin.avg settings values = Builtin.avg settings others := by
    rw [Builtin.avg_eq settings nonempty, Builtin.avg_eq settings filled, total, perm.length_eq]
  obtain ⟨low, least, lowMember, lowest⟩ := Builtin.exists_min settings nonempty
  obtain ⟨high, greatest, highMember, highest⟩ := Builtin.exists_max settings nonempty
  obtain ⟨otherLow, otherLeast, -, otherLowest⟩ := Builtin.exists_min settings filled
  obtain ⟨otherHigh, otherGreatest, -, otherHighest⟩ := Builtin.exists_max settings filled
  refine ⟨⟨_, rfl, congrArg Except.ok total.symm, Builtin.toRat_total settings nonempty⟩, average,
    low, high, otherLow, otherHigh, least, greatest, otherLeast, otherGreatest,
    otherLowest.eq (lowest.of_perm perm), otherHighest.eq (highest.of_perm perm), lowMember,
    highMember, fun value member => ⟨lowest.bounds value member, highest.bounds value member⟩, ?_⟩
  intro representable result succeeded
  rw [Builtin.avg_eq_roundOnce settings nonempty, Precision.roundOnce_eq_ok] at succeeded
  obtain ⟨-, rfl⟩ := succeeded
  have exact {bound : Decimal} (member : bound ∈ values) :
      (settings.calculation.ofRat bound.toRat).toRat = bound.toRat := by
    rw [← Precision.rounded_eq_ofRat, Precision.toRat_rounded (representable bound member)]
  rw [← exact lowMember, ← exact highMember]
  exact ⟨settings.calculation.toRat_ofRat_mono (Builtin.le_mean nonempty lowest.bounds),
    settings.calculation.toRat_ofRat_mono (Builtin.mean_le nonempty highest.bounds)⟩

namespace Debts

/-- Averages in tenths, toward negative infinity. -/
def settings : Settings := { calculation := ⟨1, .floor⟩ }

/-- Debts of 1.5 and 1.50 and an asset of 1. -/
def values : List Decimal := [⟨-15, 1⟩, ⟨-150, 2⟩, ⟨1, 0⟩]

theorem representable : ∀ value ∈ values, value.IsAt settings.calculation.scale := by
  have rescaled : (⟨-15, 1⟩ : Decimal).toRat = (⟨-150, 2⟩ : Decimal).toRat := by
    norm_num [Decimal.toRat]
  rw [values, List.forall_mem_cons, List.forall_mem_cons, List.forall_mem_singleton]
  exact ⟨⟨-15, rfl⟩, ⟨-15, rescaled⟩, Decimal.isAt_of_scale_le (by decide)⟩

/-- The average is below the mean, which is two thirds of a debt of 1, but not below the debts. -/
theorem aggregates_of_debts :
    values ≠ [] ∧ values.Perm values.reverse ∧
      Builtin.sum settings values = Builtin.sum settings values.reverse ∧
      Builtin.avg settings values.reverse = .ok ⟨-7, 1⟩ ∧
      ∃ low high, Builtin.min settings values = .ok low ∧ Builtin.max settings values = .ok high ∧
        low.toRat ≤ (⟨-7, 1⟩ : Decimal).toRat ∧ (⟨-7, 1⟩ : Decimal).toRat ≤ high.toRat := by
  have nonempty : values ≠ [] := by decide
  have perm : values.Perm values.reverse := (List.reverse_perm values).symm
  have average : Builtin.avg settings values = .ok ⟨-7, 1⟩ := by decide
  obtain ⟨⟨total, sum, otherSum, -⟩, same, low, high, -, -, least, greatest, -, -, -, -, -, -, -,
    between⟩ := @aggregates_agree settings values values.reverse nonempty perm
  exact ⟨nonempty, perm, sum.trans otherSum.symm, same ▸ average, low, high, least, greatest,
    between representable _ average⟩

end Debts
end Reckoner
