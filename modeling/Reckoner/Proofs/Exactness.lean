import Reckoner.Proofs.Rescaling

/-!
# Operations on numbers

Of its operands an operator sees the numbers, and not with which scales they are written: sums,
differences and products are exact (`Decimal.toRat_add`, `Decimal.toRat_sub`, `Decimal.toRat_mul`),
whatever is done for a zero or a one, and a quotient is rounded as the ratio of the numbers is
(`Precision.divide_eq_roundOnce`).  So operands that are the same numbers lead to the same number,
unless a change of scale is too large (`Operator.concur_apply`).
-/

namespace Reckoner

/-! ## Sums, differences and products -/

namespace Decimal

variable {number left right : Decimal}

/-- Wherever an added zero leads to, it does not change the number. -/
theorem toRat_widen (number : Decimal) (scale : Int) : (number.widen scale).toRat = number.toRat :=
  toRat_rescaled number _

theorem toRat_add (left right : Decimal) : (left + right).toRat = left.toRat + right.toRat := by
  change (left.add right).toRat = _
  rw [add]
  split
  case isTrue zero => rw [toRat_widen, toRat_eq_zero_iff.mpr zero, add_zero]
  case isFalse =>
    split
    case isTrue zero => rw [toRat_widen, toRat_eq_zero_iff.mpr zero, zero_add]
    case isFalse => exact toRat_sum left right

theorem toRat_sub (left right : Decimal) : (left - right).toRat = left.toRat - right.toRat := by
  have above : left.scale ≤ commonScale left right ∧ right.scale ≤ commonScale left right := by
    unfold commonScale
    split <;> omega
  change (left.sub right).toRat = _
  rw [← toRat_digitsAt above.1, ← toRat_digitsAt above.2, sub, toRat, toRat, toRat, Int.cast_sub,
    sub_mul]

/-- A recognised one is a one. -/
theorem toRat_of_isUnit (unit : number.isUnit = true) : number.toRat = 1 := by
  simp only [isUnit, Bool.and_eq_true, decide_eq_true_eq] at unit
  obtain ⟨⟨nonneg, -⟩, digits⟩ := unit
  rw [toRat, digits, Int.cast_natCast, cast_tenPower nonneg, ← zpow_add₀ (by norm_num),
    add_neg_cancel, zpow_zero]

/-- Zeros that are stripped do not change the number. -/
theorem toRat_stripZeros (level : Nat) (number : Decimal) :
    (stripZeros (Digits.halves level) (1 <<< (level - 1)) number).toRat = number.toRat := by
  induction level generalizing number with
  | zero => rfl
  | succ level ih =>
      have narrower (number : Decimal) :
          stripZeros (Digits.halves level) (1 <<< level / 2) number =
            stripZeros (Digits.halves level) (1 <<< (level - 1)) number := by
        cases level with
        | zero => rfl
        | succ level =>
            rw [Nat.add_sub_cancel, Nat.shiftLeft_succ, Nat.mul_div_cancel_left _ two_pos]
      rw [Digits.halves_succ, stripZeros, Nat.add_sub_cancel, narrower, ih]
      split
      case isFalse => rfl
      case isTrue divides =>
        obtain ⟨quotient, product⟩ := Int.dvd_of_emod_eq_zero divides
        have positive : ((10 ^ 2 ^ level : Nat) : Int) ≠ 0 := by positivity
        have stripped : number.digits / (10 ^ 2 ^ level : Nat) = quotient := by
          rw [product, Int.mul_ediv_cancel_left _ positive]
        have width : (1 <<< level : Nat) = 2 ^ level := by rw [Nat.shiftLeft_eq, one_mul]
        have raised : number = (⟨quotient, number.scale - (2 ^ level : Nat)⟩ : Decimal).rescaled
            (2 ^ level) := by
          have digits : number.digits = quotient * tenPower (2 ^ level) := by
            rw [product, mul_comm]
            rfl
          have scale : number.scale =
              number.scale - (2 ^ level : Nat) + (2 ^ level : Nat) := by omega
          exact congrArg₂ Decimal.mk digits scale
        rw [stripped, width]
        conv_rhs => rw [raised, toRat_rescaled]

theorem toRat_normalized (number : Decimal) : number.normalized.toRat = number.toRat := by
  rw [normalized]
  split
  case isTrue zero => rw [toRat_eq_zero_iff.mpr zero, toRat_eq_zero_iff.mpr rfl]
  case isFalse => exact toRat_stripZeros _ number

theorem toRat_mul (left right : Decimal) : (left * right).toRat = left.toRat * right.toRat := by
  change (left.mul right).toRat = _
  rw [mul]
  split
  case isTrue unit => rw [toRat_normalized, toRat_of_isUnit unit, one_mul]
  case isFalse =>
    split
    case isTrue unit => rw [toRat_normalized, toRat_of_isUnit unit, mul_one]
    case isFalse =>
      rw [toRat, toRat, toRat, Int.cast_mul, neg_add, zpow_add₀ (by norm_num)]
      ring

end Decimal

/-! ## Outcomes -/

/-- Whether an outcome has nothing to do with a change of scale that is too large. -/
def IsWithinLimit {α : Type} (outcome : Except Fault α) : Prop :=
  ∀ shift, rootCause outcome ≠ .error (.scaleOutOfRange shift)

/-- Whether an outcome is a value, unless a change of scale is too large. -/
def Rescales {α : Type} (outcome : Except Fault α) : Prop :=
  (∃ value, outcome = .ok value) ∨ ∃ shift, outcome = .error (.scaleOutOfRange shift)

/--
Whether two outcomes, if no change of scale is too large, are values that are related, or both are
divisions by zero.
-/
def Concur {α β : Type} (related : α → β → Prop) (first : Except Fault α)
    (second : Except Fault β) : Prop :=
  IsWithinLimit first → IsWithinLimit second →
    (∃ value other, first = .ok value ∧ second = .ok other ∧ related value other) ∨
      rootCause first = .error .divisionByZero ∧ rootCause second = .error .divisionByZero

/-- Two decimals of one number. -/
def SameNumber (left right : Decimal) : Prop := left.toRat = right.toRat

namespace IsWithinLimit

variable {α β : Type} {first : Except Fault α}

theorem of_bind {next : α → Except Fault β} (within : IsWithinLimit (first >>= next)) :
    IsWithinLimit first := by
  intro shift far
  cases first with
  | ok value => exact nomatch far
  | error fault => exact within shift (congrArg Except.error (Except.error.inj far))

theorem not_scaleOutOfRange (shift : Nat) :
    ¬ IsWithinLimit (.error (.scaleOutOfRange shift) : Except Fault α) :=
  fun within => within shift rfl

end IsWithinLimit

theorem IsWithinLimit.of_rootCause {α : Type} {outcome expected : Except Fault α}
    (same : rootCause outcome = expected)
    (near : ∀ shift, expected ≠ .error (.scaleOutOfRange shift)) : IsWithinLimit outcome :=
  fun shift far => near shift (same.symm.trans far)

namespace Concur

variable {α β γ δ : Type} {related : α → β → Prop} {others : γ → δ → Prop} {first : Except Fault α}
  {second : Except Fault β}

theorem of_ok {value : α} {other : β} (same : related value other) :
    Concur related (.ok value) (.ok other) := fun _ _ => .inl ⟨value, other, rfl, rfl, same⟩

theorem imp (concur : Concur related first second) {weaker : α → β → Prop}
    (implies : ∀ value other, related value other → weaker value other) :
    Concur weaker first second := fun within withinSecond =>
  (concur within withinSecond).imp_left fun ⟨value, other, isFirst, isSecond, same⟩ =>
    ⟨value, other, isFirst, isSecond, implies value other same⟩

/-- Only the root cause of a fault counts. -/
theorem congr_rootCause (concur : Concur related first second) {whole : Except Fault β}
    (same : rootCause whole = rootCause second) : Concur related first whole := by
  intro within withinWhole
  have withinSecond : IsWithinLimit second := fun shift far => withinWhole shift (same.trans far)
  obtain ⟨value, other, isFirst, rfl, both⟩ | ⟨isFirst, zero⟩ := concur within withinSecond
  · exact .inl ⟨value, other, isFirst, eq_ok_of_rootCause same, both⟩
  · exact .inr ⟨isFirst, same.trans zero⟩

theorem bind (concur : Concur related first second) {next : α → Except Fault γ}
    {after : β → Except Fault δ}
    (later : ∀ value other, related value other → Concur others (next value) (after other)) :
    Concur others (first >>= next) (second >>= after) := by
  intro within withinSecond
  obtain ⟨value, other, rfl, rfl, same⟩ | ⟨zero, zeroSecond⟩ :=
    concur within.of_bind withinSecond.of_bind
  · exact later value other same within withinSecond
  · cases first with
    | ok value => exact nomatch zero
    | error fault =>
        cases second with
        | ok other => exact nomatch zeroSecond
        | error problem =>
            exact .inr ⟨congrArg Except.error (Except.error.inj zero),
              congrArg Except.error (Except.error.inj zeroSecond)⟩

/-- Steps of one side that only change scales. -/
theorem bind_right {rescaled : Except Fault γ} (rescales : Rescales rescaled)
    {after : γ → Except Fault β} (later : ∀ value, Concur related first (after value)) :
    Concur related first (rescaled >>= after) := by
  intro within withinSecond
  obtain ⟨value, rfl⟩ | ⟨shift, rfl⟩ := rescales
  · exact later value within withinSecond
  · exact absurd withinSecond.of_bind (IsWithinLimit.not_scaleOutOfRange shift)

/-- The second of two outcomes that concur is the value that the first one is. -/
theorem eq_ok {first second : Except Fault α} (concur : Concur (· = ·) first second) {value : α}
    (found : first = .ok value) (within : IsWithinLimit second) : second = .ok value := by
  subst found
  obtain ⟨_, other, same, found, rfl⟩ | ⟨zero, -⟩ := concur (fun _ far => nomatch far) within
  · rw [found, Except.ok.inj same]
  · exact nomatch zero

/-- The second of two outcomes that concur is a division by zero if the first one is. -/
theorem eq_divisionByZero (concur : Concur related first second)
    (found : rootCause first = .error .divisionByZero) (within : IsWithinLimit second) :
    rootCause second = .error .divisionByZero := by
  have near : IsWithinLimit first := .of_rootCause found nofun
  obtain ⟨value, _, rfl, -, -⟩ | ⟨-, zero⟩ := concur near within
  · exact nomatch found
  · exact zero

/-- Folds concur if their steps do. -/
theorem foldlM {next : α → γ → Except Fault α} {after : β → δ → Except Fault β}
    (step : ∀ value other element image, related value other → others element image →
      Concur related (next value element) (after other image))
    {elements : List γ} {images : List δ} (same : List.Forall₂ others elements images)
    {start : α} {begin : β} (starts : related start begin) :
    Concur related (elements.foldlM next start) (images.foldlM after begin) := by
  induction same generalizing start begin with
  | nil => exact of_ok starts
  | cons first later ih =>
      rw [List.foldlM_cons, List.foldlM_cons]
      exact (step _ _ _ _ starts first).bind fun _ _ => ih

end Concur

/-! ## Roundings and operators -/

namespace Precision

variable {precision : Precision} {number : Decimal}

theorem roundOnce_cases (precision : Precision) (shift : Int) (exact : ℚ) :
    precision.roundOnce shift exact = .ok (precision.ofRat exact) ∨
      ∃ places, precision.roundOnce shift exact = .error (.scaleOutOfRange places) := by
  rw [roundOnce]
  split
  case isTrue => exact .inr ⟨_, rfl⟩
  case isFalse => exact .inl rfl

theorem round_cases (precision : Precision) (number : Decimal) :
    precision.round number = .ok (precision.rounded number) ∨
      ∃ shift, precision.round number = .error (.scaleOutOfRange shift) := by
  rw [round_eq_roundOnce, rounded_eq_ofRat]
  exact roundOnce_cases precision _ _

theorem rescales_round (precision : Precision) (number : Decimal) :
    Rescales (precision.round number) :=
  (round_cases precision number).imp_left fun rounded => ⟨_, rounded⟩

/-- The shift by which a number is rounded makes no difference. -/
theorem concur_roundOnce (precision : Precision) (shift other : Int) (exact : ℚ) :
    Concur (· = ·) (precision.roundOnce shift exact) (precision.roundOnce other exact) := by
  intro within withinSecond
  obtain rounded | ⟨places, far⟩ := roundOnce_cases precision shift exact
  · obtain again | ⟨places, far⟩ := roundOnce_cases precision other exact
    · exact .inl ⟨_, _, rounded, again, rfl⟩
    · exact absurd (far ▸ withinSecond) (IsWithinLimit.not_scaleOutOfRange places)
  · exact absurd (far ▸ within) (IsWithinLimit.not_scaleOutOfRange places)

/-- The same numbers are rounded to the same decimal. -/
theorem concur_round (precision : Precision) {left right : Decimal} (same : SameNumber left right) :
    Concur (· = ·) (precision.round left) (precision.round right) := by
  rw [SameNumber] at same
  rw [round_eq_roundOnce, round_eq_roundOnce, same]
  exact precision.concur_roundOnce _ _ _

/-- The same numbers have the same quotient. -/
theorem concur_divide (precision : Precision) {left right first second : Decimal}
    (sameLeft : SameNumber left first) (sameRight : SameNumber right second) :
    Concur (· = ·) (precision.divide left right) (precision.divide first second) := by
  rw [SameNumber] at sameLeft sameRight
  by_cases zero : right.toRat = 0
  · rw [divide_of_toRat_eq_zero left zero, divide_of_toRat_eq_zero first (sameRight ▸ zero)]
    exact fun _ _ => .inr ⟨rfl, rfl⟩
  · rw [divide_eq_roundOnce left zero, divide_eq_roundOnce first (sameRight ▸ zero), sameLeft,
      sameRight]
    exact precision.concur_roundOnce _ _ _

/-- What a referent is, where a null counts as zero, has a decimal of the precision's scale. -/
def Holds (precision : Precision) (referent : Option Decimal) : Prop :=
  (referent.getD .zero).IsAt precision.scale

/-- A referent that the precision holds is read as the number that it is. -/
theorem concur_referred {referent : Option Decimal} (holds : precision.Holds referent) :
    Concur SameNumber (.ok (referent.getD .zero)) (precision.referred referent) := by
  have rounded {number : Decimal} (isAt : number.IsAt precision.scale) :
      Concur SameNumber (.ok number) (precision.round number.written) := by
    have isAtWritten : number.written.IsAt precision.scale := by
      obtain ⟨digits, same⟩ := isAt
      exact ⟨digits, same.trans (Decimal.toRat_written number).symm⟩
    obtain rounded | ⟨shift, far⟩ := round_cases precision number.written
    · rw [rounded]
      refine .of_ok ?_
      rw [SameNumber, toRat_rounded isAtWritten, Decimal.toRat_written]
    · rw [far]
      exact fun _ within => absurd within (IsWithinLimit.not_scaleOutOfRange shift)
  cases referent with
  | none => exact rounded holds
  | some number =>
      have whole : number.IsAt precision.scale := holds
      rw [referred, Option.getD_some]
      split
      case isFalse => exact rounded whole
      case isTrue =>
        have opposite : Concur SameNumber (.ok (-number) >>= fun number => .ok (-number))
            (precision.round (-number).written >>= fun magnitude => .ok (-magnitude)) :=
          (rounded whole.neg).bind fun value other same => .of_ok (by
            rw [SameNumber, Decimal.toRat_neg, Decimal.toRat_neg, same])
        rwa [ok_bind, Decimal.neg_neg] at opposite

end Precision

/-- An operator that is no power sees only the numbers of its operands. -/
theorem Operator.concur_apply {operator : Operator} (noPower : operator ≠ .power)
    (precision : Precision) {left right first second : Decimal} (sameLeft : SameNumber left first)
    (sameRight : SameNumber right second) :
    Concur SameNumber (operator.apply precision left right)
      (operator.apply precision first second) := by
  rw [SameNumber] at sameLeft sameRight
  cases operator with
  | add =>
      refine .of_ok ?_
      rw [SameNumber, Decimal.toRat_add, Decimal.toRat_add, sameLeft, sameRight]
  | subtract =>
      refine .of_ok ?_
      rw [SameNumber, Decimal.toRat_sub, Decimal.toRat_sub, sameLeft, sameRight]
  | multiply =>
      refine .of_ok ?_
      rw [SameNumber, Decimal.toRat_mul, Decimal.toRat_mul, sameLeft, sameRight]
  | divide =>
      exact (precision.concur_divide sameLeft sameRight).imp fun _ _ same => congrArg _ same
  | power => contradiction

end Reckoner
