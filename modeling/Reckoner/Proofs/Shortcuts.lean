import Reckoner.Proofs.Folds
import Reckoner.Shortcut

/-!
# Rounding in one call

A value that is rounded in one call is written into the text of a block, and read back from there.
What is read is the magnitude of the value with its sign in front of it, and it is the magnitude
that the mode is applied to: a negative value is rounded with the infinities exchanged
(`outcome_roundValue`).  So a negative value is rounded as the mode asks for just if the mode goes
to no infinity, or nothing is lost (`roundValue_eq_ok_iff`).
-/

namespace Reckoner

/-! ## The sign of a rounded number -/

namespace Precision

variable {precision : Precision} {value result : Decimal}

/-- The mode that a number is rounded in if its magnitude is rounded and its sign put back. -/
def signedRounding (precision : Precision) (number : Decimal) : Rounding :=
  if number.digits < 0 then precision.rounding.reflected else precision.rounding

theorem carried_eq (precision : Precision) (number : Decimal) :
    precision.carried number =
      ⟨number.digitsRounded precision.scale (precision.signedRounding number),
        precision.scale⟩ := by
  rw [carried, signedRounding]
  split
  case isTrue => rw [Decimal.neg_def, rounded, Decimal.digitsRounded_neg, Int.neg_neg]
  case isFalse => rfl

/-- Rounding a magnitude is rounding the number, unless a direction is turned around. -/
theorem setScale_signedRounding_eq_ok_iff (rounded : precision.round value = .ok result) :
    value.setScale precision.scale (precision.signedRounding value) = .ok result ↔
      0 ≤ value.digits ∨ precision.rounding.reflected = precision.rounding ∨
        result.toRat = value.toRat := by
  obtain ⟨rescales, rfl⟩ := Decimal.setScale_eq_ok.mp rounded
  rw [Decimal.setScale_eq_ok, and_iff_right rescales, Decimal.mk.injEq, and_iff_left rfl, eq_comm,
    ← Decimal.digitsRounded_reflected_iff, signedRounding]
  split
  case isTrue negative => rw [or_iff_right (not_le.mpr negative)]
  case isFalse nonneg => exact iff_of_true rfl (.inl (not_lt.mp nonneg))

end Precision

/-! ## The text of one value -/

namespace SignedLiteral

/-- The expression that a signed literal is by itself. -/
def phrase (signed : SignedLiteral) : Phrase Literal .sum :=
  if signed.negative then .alone (.single (.minus (.plain (.atom signed.literal))))
  else .alone (.single (.plain (.atom signed.literal)))

theorem spaced_phrase (signed : SignedLiteral) :
    Spaced (signed.phrase.lexemes.map (Lexeme.text Literal.text)) signed.text := by
  unfold phrase text
  split
  case isTrue => exact .cons ['-'] (.single _)
  case isFalse => exact .single _

theorem value_phrase (signed : SignedLiteral) (precision : Precision) (lookup : Lookup) :
    signed.phrase.value precision lookup = signed.value precision := by
  unfold phrase value
  split
  case isTrue => rfl
  case isFalse => rfl

end SignedLiteral

/-- The text of a number is evaluated to the number, as a reference to it is. -/
theorem Settings.rootCause_evaluate_plainDigits (settings : Settings) (lookup : Lookup)
    {value : Decimal} (shown : value.Shows) :
    rootCause (settings.evaluate lookup value.plainDigits).outcome =
      rootCause (settings.calculation.referred (some value)) := by
  rw [← value.text_signedLiteral shown,
    Phrase.outcome_evaluate_spelled (value.signedLiteral shown).spaced_phrase,
    rootCause_mapError_inExpression, SignedLiteral.value_phrase, value.value_signedLiteral]

/-- What stands for all parameters is resolved to the list of them. -/
theorem Settings.outcome_resolve_allName (settings : Settings) {bag : Bag}
    (vocabulary : IsVocabulary bag.keys) (leaves : bag.LeavesAllName) :
    (settings.resolve bag Candidate.allName.toList).outcome =
      (fun _ => Candidate.allValues bag) <$> Constants.rounded settings.calculation := by
  have starts : inWord none = false := rfl
  have ends : inWord ([] : List Char).head? = false ∧ ([] : List Char).head? ≠ some '(' := by decide
  have replaced (constants : Constants) :
      replaceNames (Candidate.all bag constants.pi.plainDigits constants.euler.plainDigits)
        constants.pi.plainDigits 0 none Candidate.allName.toList = Candidate.allValues bag := by
    obtain ⟨after, same⟩ := exists_replaceNames_reference constants.pi.plainDigits
      (Candidate.isWord_of_mem_all vocabulary.identifiers) Candidate.isWordCharacter_of_mem_allName
      (by decide) starts ends.1 ends.2
      (Bag.replaces_allName leaves constants.pi.plainDigits constants.euler.plainDigits)
    rwa [List.append_nil, replaceNames, List.append_nil] at same
  rw [outcome_resolve]
  simp only [replaced]

/-! ## One value -/

/-- The text of the block that returns all parameters. -/
def returnAllText : String := "return ALL_PARAMS;"

/-- A block that returns all parameters returns the only one as a reference to it is read. -/
theorem Engine.rootCause_value_returnAll (engine : Engine) {value : Decimal}
    (shown : value.Shows) :
    rootCause ((engine.withExpression returnAllText).value (.ofValues [some value])).outcome =
      rootCause (do
        let _ ← Constants.rounded engine.settings.calculation
        engine.settings.calculation.referred (some value)) := by
  let reference := (engine.showing returnAllText).withExpression Candidate.allName
  have single : ¬ reference.IsBlock := (by decide : ';' ∉ Candidate.allName.toList)
  have noOperator : Operator.ofExpression? reference.settings.expression.toList = none :=
    (by decide : Operator.ofExpression? Candidate.allName.toList = none)
  have text : returnAllText = returnBlock Candidate.allName := by decide
  have list : Candidate.allValues (.ofValues [some value]) = value.plainDigits := by
    rw [Candidate.allValues, Bag.values_ofValues]
    exact List.intercalate_singleton
  have resolved : (reference.settings.resolve (.ofValues [some value])
      reference.settings.expression.toList).outcome = _ :=
    reference.settings.outcome_resolve_allName (Bag.isVocabulary_ofValues [some value])
      (Bag.leavesAllName_ofValues [some value])
  have same : reference.settings.calculation = engine.settings.calculation := rfl
  rw [list, same] at resolved
  have like := (ActsLike.of_showing engine Candidate.allName returnAllText).symm
  rw [like.outcome_value_return text single noOperator,
    outcome_value_of_single single noOperator, resolved, bind_map_left]
  cases Constants.rounded engine.settings.calculation with
  | error fault => rfl
  | ok constants => exact Settings.rootCause_evaluate_plainDigits _ _ shown

/-- What a calculator answers does not depend on what becomes of its parameters. -/
theorem Calculator.fst_calculate {result : NumberType} (calculator : Calculator result) :
    calculator.calculate.1 = calculator.calculateWith calculator.bag := by
  rw [calculate]
  split <;> rfl

/-- Binding values to a new calculator and calculating is one calculation with these values. -/
theorem Calculator.outcome_finish {result type : NumberType} {calculator : Calculator result}
    (empty : calculator.bag = .ofValues []) {values : List type.Carrier} {numbers : List Decimal}
    (converted : calculator.converters.ConvertAll type values numbers) :
    (finish (calculator.bindValues type values)).outcome =
      (do
        let number ← (calculator.engine.calculate (.ofValues (numbers.map some))).outcome
        calculator.converters.ofDecimal result number).mapError
          (.inCalculation calculator.engine.settings.expression
            (Bag.ofValues (numbers.map some)).describe) := by
  rw [bindValues_ofValues converted rfl empty, List.nil_append, finish, fst_calculate,
    calculateWith, Run.outcome_mapFault, Run.outcome_bind]
  simp only [Run.outcome_ofExcept]

/-- The engine that rounds to a precision. -/
def Precision.engine (precision : Precision) : Engine :=
  { settings := { calculation := precision, result := precision } }

/-- Rounding in one call is a calculation with one value. -/
theorem outcome_roundValue_eq (value : Decimal) (precision : Precision) :
    (roundValue .decimal .decimal value precision).outcome =
      (precision.engine.outcomeFor returnAllText [some value]).mapError
        (.inCalculation returnAllText (Bag.ofValues [some value]).describe) := by
  let calculator : Calculator .decimal :=
    { engine := precision.engine.withExpression returnAllText, converters := .standard }
  have converted : calculator.converters.ConvertAll .decimal [value] [value] := .cons rfl .nil
  have empty : calculator.bag = .ofValues [] := rfl
  have start : roundValue .decimal .decimal value precision =
      Calculator.finish (calculator.bindValues .decimal [value]) := rfl
  have answered (number : Decimal) :
      calculator.converters.ofDecimal .decimal number = .ok number := rfl
  rw [start, Calculator.outcome_finish empty converted]
  simp only [answered, bind_ok]
  rfl

section Rounding

variable {precision : Precision} {value result : Decimal}

/-- A value is rounded in one call as its magnitude is, with the sign put back. -/
theorem outcome_roundValue (shown : value.Shows) (constants : piNumber.RescalesTo precision.scale)
    (rescales : value.RescalesTo precision.scale) :
    (roundValue .decimal .decimal value precision).outcome =
      value.setScale precision.scale (precision.signedRounding value) := by
  have calculation : precision.engine.settings.calculation = precision := rfl
  have target : precision.engine.settings.result = precision := rfl
  have read : (do
      let _ ← Constants.rounded precision
      precision.referred (some value)) = .ok (precision.carried value) := by
    rw [Precision.constants_rounded constants, ok_bind,
      Precision.referred_eq_carried (Decimal.rescalesTo_written constants rescales)]
  have returned := precision.engine.rootCause_value_returnAll shown
  rw [calculation, read] at returned
  have calculated := Engine.rootCause_outcomeFor returned
  -- What is read has the scale of the result, so it is not rounded again.
  have near : (precision.carried value).RescalesTo (precision.carried value).scale := by
    simp [Decimal.RescalesTo]
  have again := Decimal.setScale_of_toRat_eq rfl near precision.rounding
  rw [Precision.scale_carried] at again
  rw [ok_bind, target, Precision.round, again] at calculated
  rw [outcome_roundValue_eq, eq_ok_of_rootCause calculated, eq_comm, Except.mapError,
    Decimal.setScale_eq_ok, and_iff_right rescales, Precision.carried_eq]

/--
Rounding a value in one call is rounding it just if it is not negative, or the mode does the same on
both sides of zero, or nothing is lost.  Otherwise a negative value goes toward the other infinity.
The scales leave room for the constants, which are rounded although they are not used.
-/
theorem roundValue_eq_ok_iff (precision : Precision) (value : Decimal)
    (near : value.scale.natAbs ≤ 900000) (nearTarget : precision.scale.natAbs ≤ 900000)
    (rounded : value.setScale precision.scale precision.rounding = .ok result) :
    (roundValue .decimal .decimal value precision).outcome =
        value.setScale precision.scale (precision.signedRounding value) ∧
      ((roundValue .decimal .decimal value precision).outcome = .ok result ↔
        0 ≤ value.digits ∨ precision.rounding.reflected = precision.rounding ∨
          result.toRat = value.toRat) := by
  have places : piNumber.scale = 15 := rfl
  have constants : piNumber.RescalesTo precision.scale := by
    unfold Decimal.RescalesTo Decimal.shiftLimit
    omega
  have shown : value.Shows := by
    unfold Decimal.Shows Decimal.shiftLimit Decimal.wordBound
    omega
  have outcome := outcome_roundValue shown constants (Decimal.setScale_eq_ok.mp rounded).1
  exact ⟨outcome, outcome ▸ Precision.setScale_signedRounding_eq_ok_iff rounded⟩

end Rounding

/-- The number -1.005 is rounded to the nearer number of two digits, but not down. -/
theorem roundValue_of_negative :
    (roundValue .decimal .decimal ⟨-1005, 3⟩ ⟨2, .halfUp⟩).outcome = .ok ⟨-101, 2⟩ ∧
      (roundValue .decimal .decimal ⟨-1005, 3⟩ ⟨2, .floor⟩).outcome ≠ .ok ⟨-101, 2⟩ := by
  have nearer : Decimal.setScale ⟨-1005, 3⟩ 2 .halfUp = .ok ⟨-101, 2⟩ := by decide +kernel
  have below : Decimal.setScale ⟨-1005, 3⟩ 2 .floor = .ok ⟨-101, 2⟩ := by decide +kernel
  have lossy : Decimal.toRat ⟨-101, 2⟩ ≠ Decimal.toRat ⟨-1005, 3⟩ := by
    norm_num [Decimal.toRat]
  have nearest := roundValue_eq_ok_iff ⟨2, .halfUp⟩ _ (by decide) (by decide) nearer
  have down := roundValue_eq_ok_iff ⟨2, .floor⟩ _ (by decide) (by decide) below
  refine ⟨nearest.2.mpr (.inr (.inl rfl)), fun same => ?_⟩
  rcases down.2.mp same with nonneg | symmetric | exact
  · exact absurd nonneg (by decide)
  · exact absurd symmetric (by decide)
  · exact lossy exact

/-- Rounded down in one call, the number -1.005 goes up. -/
theorem roundValue_floor_of_negative :
    Decimal.setScale ⟨-1005, 3⟩ 2 .floor = .ok ⟨-101, 2⟩ ∧
      (roundValue .decimal .decimal ⟨-1005, 3⟩ ⟨2, .floor⟩).outcome = .ok ⟨-100, 2⟩ := by
  refine ⟨by decide +kernel, ?_⟩
  exact (outcome_roundValue (by decide) (by decide) (by decide)).trans (by decide +kernel)

end Reckoner
