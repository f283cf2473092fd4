import Mathlib.Data.List.Permutation
import Reckoner.Proofs.Execution
import Reckoner.Proofs.Scales

/-!
# The sum of two parameters

Adding two parameters rounds three times: each of them when it is read from the resolved text, which
is without its sign, and the sum for the result (`calculate_sum`).  Where both parameters have
decimals of the calculation's scale the first two change nothing, and the result is the exact sum,
rounded once.
-/

namespace Reckoner

/-! ## Rounding without a limit -/

namespace Decimal

variable {number left right : Decimal} {scale : Int}

/-- Whether a number has a decimal of the given scale. -/
def IsAt (number : Decimal) (scale : Int) : Prop :=
  ∃ digits, (⟨digits, scale⟩ : Decimal).toRat = number.toRat

theorem IsAt.neg (isAt : number.IsAt scale) : (-number).IsAt scale := by
  obtain ⟨digits, same⟩ := isAt
  refine ⟨-digits, ?_⟩
  rw [toRat_neg, ← same]
  exact toRat_neg ⟨digits, scale⟩

/-- The digits of a number at a larger scale denote the number. -/
theorem toRat_digitsAt (larger : number.scale ≤ scale) :
    (⟨number.digitsAt scale, scale⟩ : Decimal).toRat = number.toRat := by
  have places : scale = number.scale + (scale - number.scale).toNat := by omega
  have raised : ⟨number.digitsAt scale, scale⟩ =
      number.rescaled (scale - number.scale).toNat :=
    congrArg₂ Decimal.mk (number.digitsAt_eq scale) places
  rw [raised, toRat_rescaled]

theorem isAt_of_scale_le (larger : number.scale ≤ scale) : number.IsAt scale :=
  ⟨number.digitsAt scale, toRat_digitsAt larger⟩

/-- A sum is exact. -/
theorem toRat_sum (left right : Decimal) : (left.sum right).toRat = left.toRat + right.toRat := by
  have above : left.scale ≤ commonScale left right ∧ right.scale ≤ commonScale left right := by
    unfold commonScale
    split <;> omega
  rw [← toRat_digitsAt above.1, ← toRat_digitsAt above.2, sum, toRat, toRat, toRat, Int.cast_add,
    add_mul]

/-- At one scale, an added zero makes no difference to how a sum is computed. -/
theorem add_eq_sum (same : left.scale = right.scale) : left + right = left.sum right := by
  have digits (number : Decimal) : number.digitsAt number.scale = number.digits := by
    rw [digitsAt_eq, Int.sub_self]
    simp [tenPower]
  have common : commonScale left right = right.scale := if_pos same.le
  have exact : left.sum right = ⟨left.digits + right.digits, right.scale⟩ := by
    rw [sum, common, digits right, ← same, digits left]
  have widen {number other : Decimal} (same : number.scale = other.scale) :
      number.widen other.scale = number := by
    simp [Decimal.widen, ← same, tenPower]
  change left.add right = _
  rw [add, exact]
  split
  case isTrue zero => rw [widen same, zero, Int.add_zero, ← same]
  case isFalse =>
    split
    case isTrue zero => rw [widen same.symm, zero, Int.zero_add]
    case isFalse => rfl

theorem scale_written (number : Decimal) :
    number.written.scale = if number.scale ≤ 0 then 0 else number.scale := by
  unfold written
  split <;> rfl

/-- A number is read again from its positional notation at the scales that it can be taken to, if
the constants are read there. -/
theorem rescalesTo_written (constants : piNumber.RescalesTo scale)
    (rescales : number.RescalesTo scale) : number.written.RescalesTo scale := by
  have places : piNumber.scale = 15 := rfl
  unfold RescalesTo shiftLimit at constants rescales ⊢
  rw [scale_written]
  split <;> omega

end Decimal

namespace Precision

variable {precision : Precision} {number : Decimal}

/-- The decimal that a number is rounded to, however many digits this shifts by. -/
def rounded (precision : Precision) (number : Decimal) : Decimal :=
  ⟨number.digitsRounded precision.scale precision.rounding, precision.scale⟩

theorem round_eq_rounded (rescales : number.RescalesTo precision.scale) :
    precision.round number = .ok (precision.rounded number) :=
  Decimal.setScale_eq_ok.mpr ⟨rescales, rfl⟩

/-- The constants are written with the same scale, so they are rounded together. -/
theorem constants_rounded (rescales : piNumber.RescalesTo precision.scale) :
    Constants.rounded precision =
      .ok ⟨precision.rounded piNumber, precision.rounded eulerNumber⟩ := by
  have euler : eulerNumber.RescalesTo precision.scale := rescales
  rw [Constants.rounded, round_eq_rounded rescales, round_eq_rounded euler]
  rfl

theorem rounded_eq_of_toRat_eq {left right : Decimal} (same : left.toRat = right.toRat) :
    precision.rounded left = precision.rounded right := by
  rw [rounded, rounded, Decimal.digitsRounded_eq_of_toRat_eq same]

theorem toRat_rounded (isAt : number.IsAt precision.scale) :
    (precision.rounded number).toRat = number.toRat := by
  obtain ⟨digits, same⟩ := isAt
  have kept : number.digitsRounded precision.scale precision.rounding = digits :=
    Decimal.digitsRounded_of_toRat_eq same precision.rounding
  rw [rounded, kept, same]

/-- What a reference to a number denotes: the magnitude is rounded, and the sign put back. -/
def carried (precision : Precision) (number : Decimal) : Decimal :=
  if number.digits < 0 then -precision.rounded (-number) else precision.rounded number

theorem scale_carried (precision : Precision) (number : Decimal) :
    (precision.carried number).scale = precision.scale := by
  unfold carried
  split <;> rfl

theorem toRat_carried (isAt : number.IsAt precision.scale) :
    (precision.carried number).toRat = number.toRat := by
  unfold carried
  split
  case isTrue => rw [Decimal.toRat_neg, toRat_rounded isAt.neg, Decimal.toRat_neg, neg_neg]
  case isFalse => exact toRat_rounded isAt

/-- A reference is rounded as its positional notation is. -/
theorem referred_eq_carried (rescales : number.written.RescalesTo precision.scale) :
    precision.referred (some number) = .ok (precision.carried number) := by
  have opposite : (-number).written.RescalesTo precision.scale := by
    rw [Decimal.RescalesTo, Decimal.scale_written, Decimal.scale_neg, ← Decimal.scale_written]
    exact rescales
  rw [referred, carried]
  split
  case isTrue =>
    rw [round_eq_rounded opposite, ok_bind, rounded_eq_of_toRat_eq (Decimal.toRat_written _)]
    rfl
  case isFalse =>
    rw [round_eq_rounded rescales, rounded_eq_of_toRat_eq (Decimal.toRat_written _)]

end Precision

/-! ## The expression `a + b` -/

/-- Whether no change of scale in the sum of two parameters is too large: of the constants, of the
parameters as they are written and read again, and of the result. -/
structure Settings.AddsWithinLimit (settings : Settings) (left right : Decimal) : Prop where
  /-- The constants are rounded before any expression is resolved. -/
  constants : piNumber.RescalesTo settings.calculation.scale
  /-- The left operand is written in full. -/
  leftShown : left.Shows
  /-- The left operand is read at the scale of the calculation. -/
  left : left.written.RescalesTo settings.calculation.scale
  /-- The right operand is written in full. -/
  rightShown : right.Shows
  /-- The right operand is read at the scale of the calculation. -/
  right : right.written.RescalesTo settings.calculation.scale
  /-- The sum is rounded from the scale of the calculation to that of the result. -/
  result : settings.calculation.zero.RescalesTo settings.result.scale

namespace SumOfTwo

/-- The name of the left operand. -/
def leftName : Identifier := ⟨"a", isIdentifier_a⟩

/-- The name of the right operand. -/
def rightName : Identifier := ⟨"b", by decide +kernel⟩

/-- A name as a product. -/
def reference (name : Identifier) : Phrase Atom .product :=
  .single (.plain (.atom (.reference name)))

/-- The expression `a + b`. -/
def expression : Phrase Atom .sum :=
  .added (.alone (reference leftName)) .add Operator.isAdditive_add (reference rightName)

/-- The text of the expression. -/
def text : List Char := "a + b".toList

theorem callsWords : expression.CallsWords := by
  intro function member
  simp [expression, reference, Phrase.pieces] at member

theorem spaced : Spaced (expression.pieces.map Piece.text) text :=
  .cons ['a'] (.space rfl (.cons ['+'] (.space rfl (.single ['b']))))

section

variable {engine : Engine} {bag : Bag} {left right : Decimal}

theorem isNamed (bound : bag.entries.Perm [("a", some left), ("b", some right)]) : bag.IsNamed := by
  have valid : ∀ name ∈ ["a", "b"], isIdentifier name = true := by decide +kernel
  intro name member
  exact valid name ((bound.map Prod.fst).mem_iff.mp member)

theorem environment_eq (bound : bag.entries.Perm [("a", some left), ("b", some right)]) :
    bag.environment leftName.key = some (some left) ∧
      bag.environment rightName.key = some (some right) := by
  have leftKey : foldCase ['a'] = leftName.key := rfl
  have rightKey : foldCase ['b'] = rightName.key := rfl
  have apart : leftName.key ≠ rightName.key := by decide
  unfold Bag.environment
  rcases List.perm_pair.mp bound with order | order
  · simp [order, leftKey, rightKey, apart]
  · simp [order, leftKey, rightKey, apart.symm]

/-- The meaning of the expression is the sum of what the names denote. -/
theorem evaluate_eq {environment : Environment} (functions : Functions Stated)
    (limits : engine.settings.AddsWithinLimit left right)
    (leftBound : environment leftName.key = some (some left))
    (rightBound : environment rightName.key = some (some right)) :
    environment.evaluate engine functions expression =
      liftM (.ok ((engine.settings.calculation.carried left).sum
        (engine.settings.calculation.carried right)) : Except Fault Decimal) := by
  have constants := Precision.constants_rounded limits.constants
  have stated (constants : Constants) : expression.isStated environment constants = true := by
    simp [Phrase.isStated, expression, reference, Phrase.leaves, Phrase.bases, Atom.isDefined,
      Environment.referent?, leftBound, rightBound, limits.leftShown, limits.rightShown]
  have value (constants : Constants) {name : Identifier} {number : Decimal}
      (bound : environment name.key = some (some number))
      (rescales : number.written.RescalesTo engine.settings.calculation.scale) :
      (Atom.reference name).value environment constants engine.settings.calculation =
        liftM (.ok (engine.settings.calculation.carried number) : Except Fault Decimal) := by
    rw [Atom.value, Environment.referent?, bound]
    exact congrArg _ (Precision.referred_eq_carried rescales)
  have same : (engine.settings.calculation.carried left).scale =
      (engine.settings.calculation.carried right).scale := by
    rw [Precision.scale_carried, Precision.scale_carried]
  rw [Environment.evaluate, constants, ← Decimal.add_eq_sum same, Stated.liftM_ok_bind,
    if_pos (stated _)]
  simp only [expression, reference, Phrase.denote]
  rw [value _ leftBound limits.left, value _ rightBound limits.right, Stated.liftM_ok_bind,
    Stated.liftM_ok_bind]
  rfl

/-- No parameter is dropped that has a value. -/
theorem entries_admitted (engine : Engine)
    (bound : bag.entries.Perm [("a", some left), ("b", some right)]) :
    (engine.admitted bag).entries = bag.entries := by
  have valued : ∀ entry ∈ bag.entries, entry.2.isSome = true := by
    intro entry member
    have either := bound.mem_iff.mp member
    simp only [List.mem_cons, List.not_mem_nil, or_false] at either
    rcases either with rfl | rfl <;> rfl
  unfold Engine.admitted
  split
  case isTrue => exact List.filter_eq_self.mpr valued
  case isFalse => rfl

theorem outcome_value (written : engine.settings.expression = "a + b")
    (bound : bag.entries.Perm [("a", some left), ("b", some right)])
    (limits : engine.settings.AddsWithinLimit left right) :
    (engine.value bag).outcome = .ok ((engine.settings.calculation.carried left).sum
      (engine.settings.calculation.carried right)) := by
  have noOperator : Operator.ofExpression? text = none := by decide
  have noBlock : ';' ∉ text := by decide
  have environment := environment_eq bound
  let lookup := engine.lookup fun _ => none
  have agrees := agrees_evaluate engine (isNamed bound) lookup.agree_meanings callsWords spaced
  rw [evaluate_eq lookup.meanings limits environment.1 environment.2] at agrees
  have letters : engine.settings.expression.toList = text := congrArg String.toList written
  rw [← letters] at noOperator noBlock
  rw [Engine.outcome_value_of_single noBlock noOperator, letters]
  exact eq_ok_of_rootCause (agrees _ rfl)

/-- The sum of what the references denote is rounded for the result. -/
theorem outcome_calculate (written : engine.settings.expression = "a + b")
    (bound : bag.entries.Perm [("a", some left), ("b", some right)])
    (limits : engine.settings.AddsWithinLimit left right) :
    (engine.calculate bag).outcome = .ok (engine.settings.result.rounded
      ((engine.settings.calculation.carried left).sum
        (engine.settings.calculation.carried right))) := by
  have admitted : (engine.admitted bag).entries.Perm [("a", some left), ("b", some right)] :=
    entries_admitted engine bound ▸ bound
  have value := outcome_value written admitted limits
  have scale : ((engine.settings.calculation.carried left).sum
      (engine.settings.calculation.carried right)).scale = engine.settings.calculation.scale := by
    simp [Decimal.sum, Decimal.commonScale, Precision.scale_carried]
  have rescales : ((engine.settings.calculation.carried left).sum
      (engine.settings.calculation.carried right)).RescalesTo engine.settings.result.scale := by
    rw [Decimal.RescalesTo, scale]
    exact limits.result
  rw [Engine.outcome_calculate, value, ok_bind, Precision.round_eq_rounded rescales]

end

end SumOfTwo

/--
Two parameters are added as what references to them denote: the magnitude of each is rounded for
the calculation, and its sign put back.  The sum itself is exact, and it is rounded once for the
result.  If both parameters have decimals of the calculation's scale, the result is thus the exact
sum of the parameters, rounded for the result.
-/
theorem calculate_sum (engine : Engine) (written : engine.settings.expression = "a + b") {bag : Bag}
    {left right : Decimal} (bound : bag.entries.Perm [("a", some left), ("b", some right)])
    (limits : engine.settings.AddsWithinLimit left right) :
    (engine.calculate bag).outcome = .ok (engine.settings.result.rounded
        ((engine.settings.calculation.carried left).sum
          (engine.settings.calculation.carried right))) ∧
      (left.IsAt engine.settings.calculation.scale →
        right.IsAt engine.settings.calculation.scale →
        (engine.calculate bag).outcome =
          .ok (engine.settings.result.rounded (left.sum right))) := by
  have outcome := SumOfTwo.outcome_calculate written bound limits
  refine ⟨outcome, fun leftIsAt rightIsAt => ?_⟩
  have exact : ((engine.settings.calculation.carried left).sum
      (engine.settings.calculation.carried right)).toRat = (left.sum right).toRat := by
    rw [Decimal.toRat_sum, Decimal.toRat_sum, Precision.toRat_carried leftIsAt,
      Precision.toRat_carried rightIsAt]
  rw [outcome, Precision.rounded_eq_of_toRat_eq exact]

namespace SumOfTwo

/-- The engine of the expression, at the default precisions. -/
def engine : Engine := { settings := { expression := "a + b" } }

/-- The bag of the two operands. -/
def operands (left right : Decimal) : Bag :=
  Bindings.insert (Bindings.insert .empty "a" (some left)) "b" (some right)

theorem addsWithinLimit (left right : Decimal)
    (places : 0 ≤ left.scale ∧ left.scale ≤ 20 ∧ 0 ≤ right.scale ∧ right.scale ≤ 20) :
    engine.settings.AddsWithinLimit left right := by
  have calculation : engine.settings.calculation.scale = 10 := rfl
  have rescales (number : Decimal) (least : 0 ≤ number.scale) (most : number.scale ≤ 20) :
      number.Shows ∧ number.written.RescalesTo 10 := by
    rw [Decimal.Shows, Decimal.RescalesTo, Decimal.scale_written, Decimal.wordBound,
      Decimal.shiftLimit]
    split <;> omega
  obtain ⟨leftLeast, leftMost, rightLeast, rightMost⟩ := places
  exact ⟨by decide, (rescales left leftLeast leftMost).1, (rescales left leftLeast leftMost).2,
    (rescales right rightLeast rightMost).1, (rescales right rightLeast rightMost).2, by decide⟩

end SumOfTwo

/-- The sum of 1.5 and -2.25. -/
theorem calculate_sum_of_short :
    (SumOfTwo.engine.calculate (SumOfTwo.operands ⟨15, 1⟩ ⟨-225, 2⟩)).outcome =
      .ok ⟨-7500000000, 10⟩ :=
  ((calculate_sum SumOfTwo.engine rfl (.refl _) (SumOfTwo.addsWithinLimit _ _ (by decide))).2
    (Decimal.isAt_of_scale_le (by decide)) (Decimal.isAt_of_scale_le (by decide))).trans (by rfl)

/-- Two parameters that the precision of the calculation does not hold add up to nothing, although
their sum rounds to more than that. -/
theorem calculate_sum_of_small :
    SumOfTwo.engine.settings.AddsWithinLimit ⟨4, 11⟩ ⟨4, 11⟩ ∧
    (SumOfTwo.engine.calculate (SumOfTwo.operands ⟨4, 11⟩ ⟨4, 11⟩)).outcome = .ok ⟨0, 10⟩ ∧
    SumOfTwo.engine.settings.result.rounded (Decimal.sum ⟨4, 11⟩ ⟨4, 11⟩) = ⟨1, 10⟩ := by
  have limits : SumOfTwo.engine.settings.AddsWithinLimit ⟨4, 11⟩ ⟨4, 11⟩ :=
    SumOfTwo.addsWithinLimit _ _ (by decide)
  exact ⟨limits, (SumOfTwo.outcome_calculate rfl (.refl _) limits).trans (by rfl), by rfl⟩

end Reckoner
