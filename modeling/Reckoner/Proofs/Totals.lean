import Reckoner.Proofs.Shortcuts

/-!
# Sums of machine integers

The sum of a list in one call is folded over decimals, so it is exact whatever the partial sums are;
only the total has to fit the type of the result (`summarize_integers`).
-/

namespace Reckoner

/-! ## Integers in a calculation -/

namespace Decimal

theorem ofInt_add (left right : Int) : ofInt left + ofInt right = ofInt (left + right) := by
  change add (ofInt left) (ofInt right) = ofInt (left + right)
  unfold add
  split
  case isTrue none =>
    have zero : right = 0 := none
    simp [zero, widen, ofInt, tenPower]
  case isFalse =>
    split
    case isTrue none =>
      have zero : left = 0 := none
      simp [zero, widen, ofInt, tenPower]
    case isFalse => simp [sum, commonScale, digitsAt_eq, ofInt, tenPower]

/-- An integer is written with places without loss. -/
theorem setScale_ofInt (number : Int) {places : Nat} (small : places ≤ shiftLimit)
    (mode : Rounding) :
    (ofInt number).setScale places mode = .ok ⟨number * tenPower places, places⟩ := by
  refine setScale_eq_ok.mpr ⟨?_, ?_⟩
  · simpa [RescalesTo, ofInt] using small
  · simp [digitsRounded, ofInt]

/-- The integer part of an integer that is written with places. -/
theorem truncate_scaled (number : Int) {places : Nat} (small : places ≤ shiftLimit) :
    truncate ⟨number * tenPower places, places⟩ = .ok number := by
  have power : (tenPower places : Int) ≠ 0 := by simp [tenPower]
  rw [truncate]
  split
  case isTrue whole =>
    have none : places = 0 := by simpa using whole
    subst none
    simp [shiftFactor, tenPower]
  case isFalse =>
    dsimp only
    rw [Int.toNat_natCast, shiftFactor, if_neg (Nat.not_lt.mpr small), ok_bind,
      Int.mul_tdiv_cancel _ power]
    rfl

end Decimal

/-- Folding integers by addition sums them. -/
theorem Operator.combine_add_ofInt (precision : Precision) (first : Int) (others : List Int) :
    add.combine precision ((first :: others).map .ofInt) = .ok (.ofInt (first :: others).sum) := by
  induction others generalizing first with
  | nil => simp [combine, pure, Except.pure]
  | cons second others ih =>
      have next := ih (first + second)
      rw [List.map_cons, combine] at next ⊢
      rw [List.map_cons, List.foldlM_cons, apply, ok_bind, Decimal.ofInt_add, next,
        List.sum_cons, List.sum_cons, List.sum_cons, Int.add_assoc]

/-- The lone operator `+` with the default precisions sums integers. -/
theorem Engine.outcome_calculate_integers (numbers : List Int) :
    ((withExpression {} Operator.add.lone).calculate
        (.ofValues (numbers.map fun number => some (.ofInt number)))).outcome =
      .ok ⟨numbers.sum * tenPower 10, 10⟩ := by
  have combined : (Operator.add.combine {} (numbers.map .ofInt) >>= Precision.round {}) =
      .ok ⟨numbers.sum * tenPower 10, 10⟩ := by
    cases numbers with
    | nil => rfl
    | cons first others =>
        rw [Operator.combine_add_ofInt, ok_bind]
        exact Decimal.setScale_ofInt _ (by decide) _
  rw [outcome_calculate, admitted_eq_self (.inl rfl), outcome_value_lone, Bag.values_ofValues,
    List.map_map]
  exact combined

/-! ## Machine integers -/

/-- A number type whose values are integers with a sign. -/
inductive IntegerType
  /-- Integers of 64 bits. -/
  | int64
  /-- Integers of 32 bits. -/
  | int32
  /-- Integers of 16 bits. -/
  | int16
  deriving DecidableEq, Repr

namespace IntegerType

/-- The number type. -/
abbrev type : IntegerType → NumberType
  | int64 => .int64
  | int32 => .int32
  | int16 => .int16

/-- The least magnitude beyond the positive values. -/
def bound : IntegerType → Nat
  | int64 => 0x8000000000000000
  | int32 => 0x80000000
  | int16 => 0x8000

/-- The integer that a value is. -/
def toInt : (integer : IntegerType) → integer.type.Carrier → Int
  | int64 => Int64.toInt
  | int32 => Int32.toInt
  | int16 => Int16.toInt

/-- The value that an integer is, if it is in range. -/
def ofInt : (integer : IntegerType) → Int → integer.type.Carrier
  | int64 => Int64.ofInt
  | int32 => Int32.ofInt
  | int16 => Int16.ofInt

/-- Whether an integer is in the range of a type. -/
def Fits (integer : IntegerType) (number : Int) : Prop :=
  -integer.bound ≤ number ∧ number < integer.bound

instance (integer : IntegerType) (number : Int) : Decidable (integer.Fits number) := by
  unfold Fits
  infer_instance

theorem toInt_ofInt {integer : IntegerType} {number : Int} (fits : integer.Fits number) :
    integer.toInt (integer.ofInt number) = number := by
  cases integer with
  | int64 => exact Int64.toInt_ofInt_of_le fits.1 fits.2
  | int32 => exact Int32.toInt_ofInt_of_le fits.1 fits.2
  | int16 => exact Int16.toInt_ofInt_of_le fits.1 fits.2

/-- A value enters a calculation as the integer that it is. -/
theorem toDecimal_eq (integer : IntegerType) (value : integer.type.Carrier) :
    Converters.standard.toDecimal integer.type value = .ok (.ofInt (integer.toInt value)) := by
  cases integer <;> rfl

theorem convertAll (integer : IntegerType) (values : List integer.type.Carrier) :
    Converters.standard.ConvertAll integer.type values ((values.map integer.toInt).map .ofInt) := by
  rw [List.map_map, Converters.ConvertAll, List.forall₂_map_right_iff]
  exact List.forall₂_same.mpr fun value _ => integer.toDecimal_eq value

/-- A decimal leaves a calculation as its integer part. -/
theorem ofDecimal_eq (integer : IntegerType) (number : Decimal) :
    Converters.standard.ofDecimal integer.type number =
      integer.ofInt <$> Converter.integer integer.type integer.bound number := by
  cases integer <;> rfl

/-- An integer that is written with places leaves a calculation unchanged, if it fits. -/
theorem ofDecimal_scaled (integer : IntegerType) (number : Int) {places : Nat}
    (small : places ≤ Decimal.shiftLimit) :
    Converters.standard.ofDecimal integer.type ⟨number * tenPower places, places⟩ =
      if integer.Fits number then .ok (integer.ofInt number)
      else .error (integer.type.outOfRange ⟨number * tenPower places, places⟩) := by
  rw [ofDecimal_eq, Converter.integer, Decimal.truncate_scaled number small, ok_bind]
  change integer.ofInt <$> (if integer.Fits number then _ else _) = _
  split
  case isTrue => rfl
  case isFalse => rfl

end IntegerType

/-- A sum in one call is the total of the integers, brought into the type of the result. -/
theorem rootCause_summarize (result item : IntegerType) (values : List item.type.Carrier) :
    rootCause (summarize result.type item.type values).outcome =
      rootCause (Converters.standard.ofDecimal result.type
        ⟨(values.map item.toInt).sum * tenPower 10, 10⟩) := by
  let calculator : Calculator result.type :=
    { engine := Engine.withExpression {} Operator.add.lone, converters := .standard }
  have empty : calculator.bag = .ofValues [] := rfl
  have start : summarize result.type item.type values =
      Calculator.finish (calculator.bindValues item.type values) := rfl
  have calculated := Engine.outcome_calculate_integers (values.map item.toInt)
  rw [start, Calculator.outcome_finish empty (item.convertAll values),
    rootCause_mapError_inCalculation, List.map_map]
  exact congrArg (fun outcome : Except Fault Decimal =>
    rootCause (outcome >>= Converters.standard.ofDecimal result.type)) calculated

/--
Summing up a list of machine integers in one call is exact.  The answer is the sum if that fits the
type of the result, whatever the partial sums are; otherwise the root cause of the failure is a
conversion that names the sum and the type.
-/
theorem summarize_integers (result item : IntegerType) (values : List item.type.Carrier) :
    if result.Fits (values.map item.toInt).sum then
      (summarize result.type item.type values).outcome =
          .ok (result.ofInt (values.map item.toInt).sum) ∧
        result.toInt (result.ofInt (values.map item.toInt).sum) = (values.map item.toInt).sum
    else
      rootCause (summarize result.type item.type values).outcome =
        .error (.conversion ((Decimal.plain ⟨(values.map item.toInt).sum * tenPower 10, 10⟩) ++
          " cannot be represented as " ++ result.type.name)) := by
  have summarized := rootCause_summarize result item values
  generalize (values.map item.toInt).sum = total at summarized ⊢
  have left : Converters.standard.ofDecimal result.type ⟨total * tenPower 10, 10⟩ =
      if result.Fits total then .ok (result.ofInt total)
      else .error (result.type.outOfRange ⟨total * tenPower 10, 10⟩) :=
    result.ofDecimal_scaled total (by decide)
  rw [left] at summarized
  split
  case isTrue fits =>
    rw [if_pos fits] at summarized
    exact ⟨eq_ok_of_rootCause summarized, IntegerType.toInt_ofInt fits⟩
  case isFalse outside =>
    rw [if_neg outside] at summarized
    rw [summarized]
    rfl

/-- Integers of 16 bits with a partial sum that is out of range, none, and too large a sum. -/
theorem summarize_int16 :
    (summarize .int16 .int16 [32767, 1, -1]).outcome = .ok 32767 ∧
      (summarize .int16 .int16 []).outcome = .ok 0 ∧
      rootCause (summarize .int16 .int16 [32767, 1]).outcome =
        .error (.conversion "32768.0000000000 cannot be represented as i16") := by
  refine ⟨?_, ?_, ?_⟩
  · exact (summarize_integers .int16 .int16 [32767, 1, -1]).1
  · exact (summarize_integers .int16 .int16 []).1
  · exact summarize_integers .int16 .int16 [32767, 1]

end Reckoner
