import Mathlib.Algebra.Order.Ring.Abs
import Mathlib.Data.List.Nodup
import Reckoner.Proofs.Sums

/-!
# Powers of names

A name that is the base of a power is replaced by the numeral of its value, sign included, and the
sign of a numeral stands before the whole power.  So the text of the power is evaluated to the power
of the magnitude with the sign of the value (`Settings.outcome_raised`), and this is the power of
the value just where the sign does not matter (`raised_iff`).
-/

namespace Reckoner

/-! ## Exact powers -/

namespace Decimal

variable {number base : Decimal} {count : Nat}

theorem natPower_eq (base : Decimal) (count : Nat) :
    base.natPower count = ⟨base.digits ^ count, base.scale * count⟩ := by
  have magnitude : ((Nat.pow base.digits.natAbs count : Nat) : Int) = |base.digits| ^ count := by
    rw [Nat.pow_eq, Nat.cast_pow, Int.natCast_natAbs]
  unfold natPower
  dsimp only
  rw [magnitude]
  split
  case isTrue odd =>
    rw [abs_of_neg odd.1, Odd.neg_pow (Nat.odd_iff.mpr odd.2), Int.neg_neg]
  case isFalse other =>
    rcases lt_or_ge base.digits 0 with negative | nonneg
    · have even : Even count := by
        rw [← Nat.not_odd_iff_even, Nat.odd_iff]
        exact fun odd => other ⟨negative, odd⟩
      rw [even.pow_abs]
    · rw [abs_of_nonneg nonneg]

theorem toRat_natPower (base : Decimal) (count : Nat) :
    (base.natPower count).toRat = base.toRat ^ count := by
  have scale : (10 : ℚ) ^ (-(base.scale * count)) = ((10 : ℚ) ^ (-base.scale)) ^ count := by
    rw [← zpow_natCast, ← zpow_mul, neg_mul]
  rw [natPower_eq, toRat, toRat, mul_pow, Int.cast_pow, scale]

theorem natPower_neg_of_even (even : Even count) (base : Decimal) :
    (-base).natPower count = base.natPower count := by
  rw [natPower_eq, natPower_eq, neg_def, even.neg_pow]

theorem natPower_neg_of_odd (odd : Odd count) (base : Decimal) :
    (-base).natPower count = -base.natPower count := by
  rw [natPower_eq, natPower_eq, neg_def, neg_def, odd.neg_pow]

/-- The integer part, and that it is the number where nothing stands after the point. -/
theorem exists_truncate (rescales : number.RescalesTo 0) :
    ∃ whole, number.truncate = .ok whole ∧ ∀ other : Int,
      number.digits % tenPower number.scale.toNat = 0 ∧ whole = other ↔ number.toRat = other := by
  have near : number.scale.natAbs ≤ shiftLimit := by
    unfold RescalesTo at rescales
    omega
  have factor {shift : Nat} (small : shift ≤ number.scale.natAbs) :
      shiftFactor shift = .ok (tenPower shift) := by
    rw [shiftFactor, if_neg (by omega)]
  rw [truncate]
  by_cases low : number.scale ≤ 0
  · have places : number.scale.toNat = 0 := by omega
    have value : number.toRat = (number.digits * tenPower (-number.scale).toNat : Int) := by
      rw [toRat, Int.cast_mul, Int.cast_natCast, cast_tenPower (by omega)]
    rw [if_pos low, factor (by omega), value, places]
    refine ⟨_, rfl, fun other => ?_⟩
    have nothing : number.digits % (tenPower 0 : Nat) = 0 := Int.emod_one number.digits
    rw [and_iff_right nothing, Int.cast_inj]
  · -- The division drops nothing exactly where the remainder is zero.
    have positive : (0 : Int) < tenPower number.scale.toNat := by
      exact_mod_cast tenPower_pos number.scale.toNat
    have value : number.toRat = number.digits / (tenPower number.scale.toNat : Int) := by
      rw [toRat, Int.cast_natCast, cast_tenPower (by omega), zpow_neg, div_eq_mul_inv]
    rw [if_neg low, factor (by omega), value]
    refine ⟨_, rfl, fun other => ?_⟩
    rw [div_eq_iff (by exact_mod_cast positive.ne'), ← Int.cast_mul, Int.cast_inj]
    constructor
    · rintro ⟨divides, rfl⟩
      exact (Int.tdiv_mul_cancel (Int.dvd_of_emod_eq_zero divides)).symm
    · intro product
      rw [product]
      exact ⟨Int.mul_emod_left _ _, Int.mul_tdiv_cancel _ positive.ne'⟩

/-- An exponent is taken for an integer because of its number. -/
theorem smallInteger?_eq_some_iff (rescales : number.RescalesTo 0) {whole : Int} :
    number.smallInteger? = some whole ↔
      number.toRat = whole ∧ whole.natAbs ≤ exactPowerLimit := by
  obtain ⟨part, truncated, whenWhole⟩ := exists_truncate rescales
  rw [smallInteger?, truncated, ← whenWhole]
  simp only [Option.ite_none_right_eq_some, Option.some.injEq]
  constructor
  · rintro ⟨⟨divides, small⟩, rfl⟩
    exact ⟨⟨divides, rfl⟩, small⟩
  · rintro ⟨⟨divides, rfl⟩, small⟩
    exact ⟨⟨divides, small⟩, rfl⟩

/-- Whatever the scale of an exponent, it is taken for no other integer than the one that it is. -/
theorem toRat_of_smallInteger? {whole : Int} (found : number.smallInteger? = some whole) :
    number.toRat = whole ∧ whole.natAbs ≤ exactPowerLimit := by
  by_cases rescales : number.RescalesTo 0
  · exact (smallInteger?_eq_some_iff rescales).mp found
  · -- The integer part of a number is not formed where that takes a shift by too many digits.
    have far {shift : Nat} (same : shift = number.scale.natAbs) :
        shiftFactor shift = .error (.scaleOutOfRange shift) := by
      unfold RescalesTo at rescales
      exact if_pos (by omega)
    have failed : ∃ fault, number.truncate = .error fault := by
      rw [truncate]
      split
      case isTrue => exact ⟨_, by rw [far (by omega)]; rfl⟩
      case isFalse => exact ⟨_, by rw [far (by omega)]; rfl⟩
    obtain ⟨fault, failed⟩ := failed
    rw [smallInteger?, failed] at found
    contradiction

theorem smallInteger?_ofInt {whole : Int} (small : whole.natAbs ≤ exactPowerLimit) :
    (ofInt whole).smallInteger? = some whole := by
  have rescales : (ofInt whole).RescalesTo 0 := Nat.zero_le _
  have number : (ofInt whole).toRat = whole := by simp [toRat, ofInt]
  exact (smallInteger?_eq_some_iff rescales).mpr ⟨number, small⟩

end Decimal

theorem Precision.power_of_smallInteger? (precision : Precision) (base : Decimal)
    {exponent : Decimal} {count : Nat} (small : exponent.smallInteger? = some (count : Int)) :
    precision.power base exponent = precision.round (base.natPower count) := by
  rw [power, small]
  simp

/-! ## The text of a power -/

/-- What is written after a name to raise it to a power. -/
inductive Exponent
  /-- The mark `^` and a literal. -/
  | literal (numeral : Literal)
  /-- The character `²`. -/
  | square
  /-- The character `³`. -/
  | cube

namespace Exponent

/-- The characters after the name. -/
def text : Exponent → List Char
  | literal numeral => '^' :: numeral.text
  | square => ['²']
  | cube => ['³']

/-- The literal that the name is raised to. -/
def numeral : Exponent → Literal
  | literal numeral => numeral
  | square => .two
  | cube => .ofDigit '3' rfl

/-- A name ends before its exponent, and it does not begin a call. -/
theorem head_text (exponent : Exponent) :
    inWord exponent.text.head? = false ∧ exponent.text.head? ≠ some '(' := by
  have outside : ∀ character ∈ ['^', '²', '³'], isWordCharacter character = false :=
    forall_mem_of_all (by decide +kernel)
  cases exponent with
  | literal numeral => exact ⟨outside '^' (by simp), by simp [text]⟩
  | square => exact ⟨outside '²' (by simp), by simp [text]⟩
  | cube => exact ⟨outside '³' (by simp), by simp [text]⟩

/-- Replacing names leaves an exponent as the mark `^` and its literal. -/
theorem replaceNames_text {candidates : List Candidate}
    (isWord : ∀ candidate ∈ candidates, candidate.IsWord) (pi : List Char) (before : Option Char)
    (exponent : Exponent) :
    replaceNames candidates pi 0 before exponent.text = '^' :: exponent.numeral.text := by
  have special (character : Char) (outside : isWordCharacter character = false) :
      replaceNames candidates pi 0 before [character] = resolveCharacter pi character := by
    rw [replaceNames, Candidate.first?_eq_none isWord (.inl outside)]
    exact List.append_nil _
  cases exponent with
  | literal numeral =>
      have plain : IsPlain '^' := by
        unfold IsPlain
        decide
      obtain ⟨after, copied⟩ :=
        exists_replaceNames_numeral pi (some '^') [] isWord numeral.digits
      rw [List.append_nil, replaceNames, List.append_nil] at copied
      rw [text, replaceNames_outside pi plain isWord (.inl (by decide)), copied]
      rfl
  | square => exact special '²' (by decide +kernel)
  | cube => exact special '³' (by decide +kernel)

end Exponent

section Resolved

variable {settings : Settings} {bag : Bag} {name : Identifier} {value : Decimal}

/-- In the text of a power the name is replaced by the numeral of its value. -/
theorem Settings.outcome_resolve_power {constants : Constants} (named : bag.IsNamed)
    (rounded : Constants.rounded settings.calculation = .ok constants)
    (bound : bag.environment name.key = some (some value)) (exponent : Exponent) :
    (settings.resolve bag (name.name.toList ++ exponent.text)).outcome =
      .ok (value.plainDigits ++ '^' :: exponent.numeral.text) := by
  have isWord : ∀ candidate ∈
      Candidate.all bag constants.pi.plainDigits constants.euler.plainDigits, candidate.IsWord :=
    Candidate.isWord_of_mem_all named
  have referent : bag.environment.referent? constants name = some (some value) := by
    rw [Environment.referent?, bound]
  obtain ⟨first, others, cons, -⟩ := name.exists_cons
  obtain ⟨ends, noCall⟩ := exponent.head_text
  have starts : inWord none = false := rfl
  obtain ⟨after, replaced⟩ := exists_replaceNames_reference constants.pi.plainDigits isWord
    name.isWordCharacter_of_mem (by simp [cons]) starts ends noCall
    (replaces_of_referent referent)
  rw [Settings.outcome_resolve, rounded]
  exact congrArg Except.ok (replaced.trans (by rw [exponent.replaceNames_text isWord]; rfl))

/-- The phrase that such a text spells: a sign stands before the whole power. -/
def SignedLiteral.raised (signed : SignedLiteral) (numeral : Literal) : Phrase Literal .sum :=
  if signed.negative then
    .alone (.single (.minus (.power (.atom signed.literal) (.plain (.atom numeral)))))
  else
    .alone (.single (.power (.atom signed.literal) (.plain (.atom numeral))))

theorem SignedLiteral.spaced_raised (signed : SignedLiteral) (numeral : Literal) :
    Spaced ((signed.raised numeral).lexemes.map (Lexeme.text Literal.text))
      (signed.text ++ '^' :: numeral.text) := by
  unfold raised SignedLiteral.text
  split
  case isTrue => exact .cons ['-'] (.cons _ (.cons ['^'] (.single _)))
  case isFalse => exact .cons _ (.cons ['^'] (.single _))

/-- The power of the magnitude of a value, with the sign of the value. -/
def Precision.raised (precision : Precision) (value : Decimal) (numeral : Literal) :
    Except Fault Decimal := do
  let magnitude ← precision.round value.abs.written
  let exponent ← precision.ofLiteral numeral
  let power ← precision.power magnitude exponent
  return if value.digits < 0 then -power else power

theorem Phrase.value_raised (precision : Precision) (lookup : Lookup) (shown : value.Shows)
    (numeral : Literal) :
    ((value.signedLiteral shown).raised numeral).value precision lookup =
      precision.raised value numeral := by
  rw [SignedLiteral.raised, Decimal.negative_signedLiteral, Precision.raised,
    ← Decimal.ofLiteral_signedLiteral precision value shown]
  by_cases negative : value.digits < 0
  · simp [negative, Phrase.value, Phrase.denote]
  · simp [negative, Phrase.value, Phrase.denote]

/-- The text of a power is evaluated to the power of the magnitude, with the sign of the value. -/
theorem Settings.outcome_raised {constants : Constants} (named : bag.IsNamed)
    (rounded : Constants.rounded settings.calculation = .ok constants)
    (bound : bag.environment name.key = some (some value)) (shown : value.Shows)
    (exponent : Exponent) (lookup : Lookup) :
    rootCause (do
      let resolved ← (settings.resolve bag (name.name.toList ++ exponent.text)).outcome
      (settings.evaluate lookup resolved).outcome) =
      rootCause (settings.calculation.raised value exponent.numeral) := by
  rw [Settings.outcome_resolve_power named rounded bound, ok_bind,
    ← value.text_signedLiteral shown,
    Phrase.outcome_evaluate_spelled ((value.signedLiteral shown).spaced_raised exponent.numeral),
    rootCause_mapError_inExpression, Phrase.value_raised]

end Resolved

/-! ## When the sign does not matter -/

namespace Decimal

variable {value base : Decimal}

/-- Where a value has a decimal of the precision's scale, its positional notation is read as it. -/
theorem round_written_abs {precision : Precision} {constants : Constants}
    (rounded : Constants.rounded precision = .ok constants)
    (found : precision.round value = .ok base) (same : base.toRat = value.toRat) :
    precision.round value.abs.written = .ok base.abs := by
  obtain ⟨pi, piFound, -⟩ := exists_of_bind_eq_ok rounded
  obtain ⟨near, -⟩ := setScale_eq_ok.mp piFound
  obtain ⟨rescales, equality⟩ := setScale_eq_ok.mp found
  have scale : base.scale = precision.scale := by rw [equality]
  have absScale (number : Decimal) : number.abs.scale = number.scale := by
    unfold abs
    split <;> rfl
  have number : base.abs.toRat = value.abs.written.toRat := by
    rw [toRat_written, abs, abs]
    simp only [digits_neg_iff_of_toRat_eq same]
    split
    case isTrue => rw [toRat_neg, toRat_neg, same]
    case isFalse => exact same
  have magnitude : value.abs.RescalesTo precision.scale := by rwa [RescalesTo, absScale]
  have result := setScale_of_toRat_eq number
    (by rw [absScale, scale]; exact rescalesTo_written near magnitude) precision.rounding
  rwa [absScale, scale] at result

end Decimal

namespace Precision

variable {precision : Precision} {value base result : Decimal} {count : Nat}

/-- Whether a sign may as well stand before a power as before its base: nothing is left of an even
power, and an odd one is rounded alike on both sides of zero. -/
def IgnoresSign (precision : Precision) (base : Decimal) (count : Nat) (result : Decimal) : Prop :=
  (Even count ∧ result.digits = 0) ∨
    (Odd count ∧ (precision.rounding.reflected = precision.rounding ∨
      result.toRat = base.toRat ^ count))

/-- The power of the opposite number, and when its opposite is the power of the number. -/
theorem exists_round_natPower_neg (found : precision.round (base.natPower count) = .ok result) :
    ∃ opposite, precision.round ((-base).natPower count) = .ok opposite ∧
      (-opposite = result ↔ precision.IgnoresSign base count result) := by
  rcases Nat.even_or_odd count with even | odd
  · refine ⟨result, by rwa [Decimal.natPower_neg_of_even even], ?_⟩
    have notOdd : ¬ Odd count := Nat.not_odd_iff_even.mpr even
    obtain ⟨digits, scale⟩ := result
    simp only [IgnoresSign, even, notOdd, true_and, false_and, or_false, Decimal.neg_def,
      Decimal.mk.injEq, and_true]
    omega
  · have notEven : ¬ Even count := Nat.not_even_iff_odd.mpr odd
    obtain ⟨rescales, rfl⟩ := Decimal.setScale_eq_ok.mp found
    refine ⟨_, Decimal.setScale_eq_ok.mpr ⟨?_, rfl⟩, ?_⟩
    · rw [Decimal.natPower_neg_of_odd odd]
      exact rescales
    · have number := Decimal.toRat_natPower base count
      rw [Decimal.natPower_neg_of_odd odd, Decimal.digitsRounded_neg, Decimal.neg_def]
      simp only [IgnoresSign, odd, notEven, true_and, false_and, false_or, neg_neg,
        Decimal.mk.injEq, and_true, Decimal.digitsRounded_reflected_iff, number]

variable {constants : Constants} {numeral : Literal} {exponent : Decimal}

/-- The magnitude of a value that has a decimal of the scale is that of the decimal. -/
theorem raised_eq (rounded : Constants.rounded precision = .ok constants)
    (represented : precision.round value = .ok base) (same : base.toRat = value.toRat)
    (read : precision.ofLiteral numeral = .ok exponent)
    (small : exponent.smallInteger? = some (count : Int)) :
    precision.raised value numeral = (do
      let power ← precision.round (base.abs.natPower count)
      return if base.digits < 0 then -power else power) := by
  rw [raised, Decimal.round_written_abs rounded represented same, ok_bind, read, ok_bind,
    power_of_smallInteger? _ _ small]
  simp only [Decimal.digits_neg_iff_of_toRat_eq same]

/-- The sign of a negative number may stand before its power if it is ignored there. -/
theorem neg_power_eq_ok_iff (negative : base.digits < 0)
    (unique : ∀ other, precision.round (base.natPower count) = .ok other → other = result) :
    (do let power ← precision.round (base.abs.natPower count)
        return if base.digits < 0 then -power else power) = Except.ok result ↔
      (∃ other, precision.round (base.natPower count) = .ok other) ∧
        precision.IgnoresSign base count result := by
  rw [Decimal.abs, if_pos negative]
  simp only [if_pos negative]
  constructor
  · intro evaluated
    obtain ⟨opposite, found, finish⟩ := exists_of_bind_eq_ok evaluated
    obtain ⟨other, otherFound, -⟩ := exists_round_natPower_neg found
    rw [Decimal.neg_neg] at otherFound
    obtain rfl := unique other otherFound
    obtain ⟨again, againFound, when⟩ := exists_round_natPower_neg otherFound
    obtain rfl : again = opposite := Except.ok.inj (againFound.symm.trans found)
    exact ⟨⟨other, otherFound⟩, when.mp (Except.ok.inj finish)⟩
  · rintro ⟨⟨other, found⟩, without⟩
    obtain rfl := unique other found
    obtain ⟨opposite, oppositeFound, when⟩ := exists_round_natPower_neg found
    rw [oppositeFound, ok_bind, when.mpr without]
    rfl

/--
What the text of a power is evaluated to is the power of the value in two cases only: the value is
not negative, or its sign may as well stand before the power.
-/
theorem raised_eq_ok_iff (rounded : Constants.rounded precision = .ok constants)
    (represented : precision.round value = .ok base) (same : base.toRat = value.toRat)
    (read : precision.ofLiteral numeral = .ok exponent)
    (small : exponent.smallInteger? = some (count : Int))
    (expected : precision.power value (.ofInt count) = .ok result) :
    precision.raised value numeral = .ok result ↔
      (∃ other, precision.power base (.ofInt count) = .ok other) ∧
        (0 ≤ value.digits ∨ precision.IgnoresSign value count result) := by
  have integer := Decimal.smallInteger?_ofInt (Decimal.toRat_of_smallInteger? small).2
  have sign := Decimal.digits_neg_iff_of_toRat_eq same
  have ignores : precision.IgnoresSign value count result ↔
      precision.IgnoresSign base count result := by rw [IgnoresSign, IgnoresSign, same]
  rw [power_of_smallInteger? _ _ integer] at expected
  have unique (other : Decimal) (found : precision.round (base.natPower count) = .ok other) :
      other = result := by
    have power : (base.natPower count).toRat = (value.natPower count).toRat := by
      rw [Decimal.toRat_natPower, Decimal.toRat_natPower, same]
    exact Decimal.setScale_eq_of_toRat_eq power found expected
  rw [raised_eq rounded represented same read small, power_of_smallInteger? _ _ integer, ignores]
  rcases lt_or_ge value.digits 0 with negative | nonneg
  · rw [or_iff_right (not_le.mpr negative)]
    exact neg_power_eq_ok_iff (sign.mpr negative) unique
  · have positive : ¬ base.digits < 0 := fun below => not_lt.mpr nonneg (sign.mp below)
    rw [Decimal.abs, if_neg positive, and_iff_left (.inl nonneg)]
    simp only [if_neg positive]
    constructor
    · intro evaluated
      obtain ⟨other, found, -⟩ := exists_of_bind_eq_ok evaluated
      exact ⟨other, found⟩
    · rintro ⟨other, found⟩
      rw [found, ok_bind, unique other found]
      rfl

end Precision

/-! ## Three ways to bind a name -/

namespace Environment

variable {environment : Environment} {bindings : List (Identifier × Decimal)}

theorem bindAll_of_not_mem {key : List Char}
    (absent : key ∉ bindings.map fun binding => binding.1.key) :
    environment.bindAll bindings key = environment key := by
  induction bindings generalizing environment with
  | nil => rfl
  | cons binding bindings ih =>
      rw [List.map_cons, List.mem_cons, not_or] at absent
      exact (ih absent.2).trans (if_neg absent.1)

/-- Among names that folding tells apart, each is bound to its own value. -/
theorem bindAll_of_mem (distinct : (bindings.map fun binding => binding.1.key).Nodup)
    {name : Identifier} {value : Decimal} (member : (name, value) ∈ bindings) :
    environment.bindAll bindings name.key = some (some value) := by
  induction bindings generalizing environment with
  | nil => exact absurd member List.not_mem_nil
  | cons binding bindings ih =>
      rw [List.map_cons, List.nodup_cons] at distinct
      rcases List.mem_cons.mp member with rfl | later
      · exact (bindAll_of_not_mem distinct.1).trans (if_pos rfl)
      · exact ih distinct.2 later

end Environment

/-- Whether an outcome is that of the power of a name that is bound to a value. -/
inductive Raises (engine : Engine) (name : Identifier) (value : Decimal) (exponent : Exponent) :
    Except Fault Decimal → Prop
  /-- The name is a parameter, and the power is the whole expression. -/
  | parameter {bag : Bag} (named : bag.IsNamed)
      (bound : bag.environment name.key = some (some value))
      (written : engine.settings.expression.toList = name.name.toList ++ exponent.text) :
      Raises engine name value exponent (engine.value bag).outcome
  /-- The name is a variable of a block, and the power is the expression of a later statement. -/
  | assigned {scope : Scope} {text : String}
      (vocabulary : IsVocabulary (name.name :: scope.bag.keys))
      (written : text.toList = name.name.toList ++ exponent.text) :
      Raises engine name value exponent ((scope.assign name.name value).value engine text).outcome
  /-- The name is a parameter of a local function, and the power is its body. -/
  | argument {scope : Scope} {function : LocalFunction} {parameters : List Identifier}
      {arguments : List Decimal} {levels : Nat}
      (vocabulary : IsVocabulary (parameters.map Identifier.name ++ scope.bag.keys))
      (declared : function.parameters = parameters.map Identifier.name)
      (distinct : parameters.Nodup) (length : arguments.length = parameters.length)
      (bound : (name, value) ∈ parameters.zip arguments)
      (written : function.body.toList = name.name.toList ++ exponent.text) :
      Raises engine name value exponent (scope.call engine (levels + 1) function arguments).outcome

/-- The keys of names of a vocabulary are distinct if the names are. -/
theorem IsVocabulary.nodup_keys {names : List String} (vocabulary : IsVocabulary names)
    {identifiers : List Identifier} (members : identifiers.map Identifier.name ⊆ names)
    (distinct : identifiers.Nodup) : (identifiers.map Identifier.key).Nodup := by
  refine List.Nodup.map_on (fun first firstMember second secondMember same => ?_) distinct
  have equality := vocabulary.distinct _ (members (List.mem_map_of_mem firstMember)) _
    (members (List.mem_map_of_mem secondMember)) same
  obtain ⟨firstName, _⟩ := first
  obtain ⟨secondName, _⟩ := second
  obtain rfl : firstName = secondName := equality
  rfl

namespace Scope

variable {scope : Scope} {name : Identifier} {value : Decimal}

/-- A variable that is assigned is bound to its value. -/
theorem bound_assign (vocabulary : IsVocabulary (name.name :: scope.bag.keys)) (value : Decimal) :
    Bag.IsNamed (scope.assign name.name value).bag ∧
      Bag.environment (scope.assign name.name value).bag name.key = some (some value) := by
  have member : name.name ∈ name.name :: scope.bag.keys := List.mem_cons_self
  have keys : scope.bag.keys ⊆ name.name :: scope.bag.keys := List.subset_cons_self _ _
  refine ⟨fun key found => ?_, ?_⟩
  · exact vocabulary.identifiers key (Bag.keys_insert_subset keys member (some value) found)
  · rw [Scope.assign, Bag.environment_insert vocabulary keys member]
    exact if_pos rfl

/-- A parameter of a function is bound to its argument in a call. -/
theorem bound_bindings {function : LocalFunction} {parameters : List Identifier}
    {arguments : List Decimal}
    (vocabulary : IsVocabulary (parameters.map Identifier.name ++ scope.bag.keys))
    (declared : function.parameters = parameters.map Identifier.name) (distinct : parameters.Nodup)
    (length : arguments.length = parameters.length)
    (bound : (name, value) ∈ parameters.zip arguments) :
    Bag.IsNamed (scope.bindings function arguments) ∧
      Bag.environment (scope.bindings function arguments) name.key = some (some value) := by
  have members : ∀ parameter ∈ parameters,
      parameter.name ∈ parameters.map Identifier.name ++ scope.bag.keys :=
    fun parameter member => List.mem_append_left _ (List.mem_map_of_mem member)
  obtain ⟨keys, environment⟩ := Scope.environment_bindings vocabulary
    (List.subset_append_right _ _) declared members arguments
  have distinctKeys : ((parameters.zip arguments).map fun binding => binding.1.key).Nodup := by
    have firsts : (parameters.zip arguments).map (fun binding => binding.1.key) =
        parameters.map Identifier.key := by
      calc (parameters.zip arguments).map (fun binding => binding.1.key)
        _ = ((parameters.zip arguments).map Prod.fst).map Identifier.key :=
          (List.map_map (f := Prod.fst) (g := Identifier.key)).symm
        _ = parameters.map Identifier.key := by rw [List.map_fst_zip length.ge]
    rw [firsts]
    exact vocabulary.nodup_keys (List.subset_append_left _ _) distinct
  refine ⟨fun key found => vocabulary.identifiers key (keys found), ?_⟩
  rw [environment]
  exact Environment.bindAll_of_mem distinctKeys bound

end Scope

namespace Raises

variable {engine : Engine} {name : Identifier} {value : Decimal} {exponent : Exponent}
  {outcome : Except Fault Decimal}

/-- The text of a power is no block and no lone operator. -/
theorem text_facts (name : Identifier) (exponent : Exponent) :
    ';' ∉ name.name.toList ++ exponent.text ∧
      Operator.ofExpression? (name.name.toList ++ exponent.text) = none := by
  have word := name.isWordCharacter_of_mem
  have numeric (numeral : Literal) : ';' ∉ numeral.text := fun member =>
    nomatch numeral.digits ';' member
  constructor
  · rw [List.mem_append, not_or]
    refine ⟨fun member => (nomatch word ';' member), ?_⟩
    cases exponent with
    | literal numeral => simp [Exponent.text, numeric numeral]
    | square => decide
    | cube => decide
  · obtain ⟨first, others, cons, -⟩ := name.exists_cons
    have member : first ∈ name.name.toList := by simp [cons]
    refine Operator.ofExpression?_eq_none (List.mem_append_left _ member)
      (not_isBlank_of_isWordCharacter (word first member)) ?_
    rintro operator rfl
    have isWord := word _ member
    revert isWord
    cases operator <;> decide

/-- In all three ways the power is evaluated alike. -/
theorem rootCause_eq (raises : Raises engine name value exponent outcome) {constants : Constants}
    (rounded : Constants.rounded engine.settings.calculation = .ok constants)
    (shown : value.Shows) :
    rootCause outcome = rootCause (engine.settings.calculation.raised value exponent.numeral) := by
  cases raises with
  | @parameter bag named bound written =>
      obtain ⟨noBlock, noOperator⟩ := text_facts name exponent
      rw [← written] at noBlock noOperator
      rw [Engine.outcome_value_of_single noBlock noOperator, written]
      exact Settings.outcome_raised named rounded bound shown exponent _
  | @assigned scope text vocabulary written =>
      obtain ⟨named, bound⟩ := Scope.bound_assign vocabulary value
      rw [Scope.value, Run.outcome_bind, written]
      exact Settings.outcome_raised named rounded bound shown exponent _
  | @argument scope function parameters arguments levels vocabulary declared distinct length bound
      written =>
      obtain ⟨named, referent⟩ :=
        Scope.bound_bindings vocabulary declared distinct length bound
      have arity : Scope.checkArity function arguments = .ok () := by
        rw [Scope.checkArity, declared, List.length_map, if_pos length]
      rw [Scope.call, Run.outcome_bind, Run.outcome_ofExcept, arity, ok_bind, written]
      simp only [Run.outcome_bind, Settings.outcome_note, Run.outcome_pure, ok_bind, bind_ok]
      exact Settings.outcome_raised named rounded referent shown exponent _

end Raises

/--
The power of a name is the power of the value that it is bound to, in all three ways to bind a name,
in two cases only: the value is not negative, or its sign may as well stand before the power.  The
value and the exponent are ones of the calculation's scale.
-/
theorem raises_iff {engine : Engine} {name : Identifier} {value : Decimal} {exponent : Exponent}
    {outcome : Except Fault Decimal} (raises : Raises engine name value exponent outcome)
    (shown : value.Shows) {constants : Constants}
    (rounded : Constants.rounded engine.settings.calculation = .ok constants) {base : Decimal}
    (represented : engine.settings.calculation.round value = .ok base)
    (same : base.toRat = value.toRat) {number : Decimal} {count : Nat}
    (read : engine.settings.calculation.ofLiteral exponent.numeral = .ok number)
    (small : number.smallInteger? = some (count : Int)) {result : Decimal}
    (expected : engine.settings.calculation.power value (.ofInt count) = .ok result) :
    outcome = .ok result ↔
      (∃ other, engine.settings.calculation.power base (.ofInt count) = .ok other) ∧
        (0 ≤ value.digits ∨ engine.settings.calculation.IgnoresSign value count result) := by
  rw [← Precision.raised_eq_ok_iff rounded represented same read small expected]
  have cause := raises.rootCause_eq rounded shown
  constructor
  · rintro rfl
    exact eq_ok_of_rootCause cause.symm
  · intro evaluated
    rw [evaluated] at cause
    exact eq_ok_of_rootCause cause

namespace NegativeSquare

/-- The name `x`. -/
def base : Identifier := ⟨"x", by decide +kernel⟩

/-- The exponent `^2`. -/
def exponent : Exponent := .literal .two

/-- The number -5. -/
def minusFive : Decimal := .ofInt (-5)

/-- The number -5 at the scale of the calculation. -/
def minusFiveRounded : Decimal := ⟨-50000000000, 10⟩

/-- The engine with the expression `x^2`. -/
def engine : Engine := { settings := { expression := "x^2" } }

/-- The parameters of the expression. -/
def bag : Bag := Bindings.insert .empty "x" (some minusFive)

theorem raises : Raises engine base minusFive exponent (engine.value bag).outcome :=
  .parameter (by unfold Bag.IsNamed; decide +kernel) (by decide +kernel) (by decide)

/-- The constants at the scale of the calculation. -/
def constants : Constants := ⟨⟨31415926536, 10⟩, ⟨27182818285, 10⟩⟩

theorem rounded_constants : Constants.rounded engine.settings.calculation = .ok constants := rfl

theorem round_minusFive : engine.settings.calculation.round minusFive = .ok minusFiveRounded := by
  decide +kernel

theorem ofLiteral_exponent :
    engine.settings.calculation.ofLiteral exponent.numeral = .ok ⟨20000000000, 10⟩ := by
  decide +kernel

theorem smallInteger?_exponent :
    (⟨20000000000, 10⟩ : Decimal).smallInteger? = some ((2 : Nat) : Int) := by
  decide +kernel

theorem power_minusFive :
    engine.settings.calculation.power minusFive (.ofInt (2 : Nat)) = .ok ⟨250000000000, 10⟩ := by
  decide +kernel

end NegativeSquare

/-- The square of -5 is 25, but that of a name that is bound to -5 is not. -/
theorem value_square_ne : (NegativeSquare.engine.value NegativeSquare.bag).outcome ≠
    .ok ⟨250000000000, 10⟩ := by
  have when := raises_iff NegativeSquare.raises (by decide) NegativeSquare.rounded_constants
    NegativeSquare.round_minusFive (NegativeSquare.minusFive.toRat_rescaled 10)
    NegativeSquare.ofLiteral_exponent NegativeSquare.smallInteger?_exponent
    NegativeSquare.power_minusFive
  intro same
  rcases (when.mp same).2 with nonneg | ⟨-, zero⟩ | ⟨odd, -⟩
  · exact absurd nonneg (by decide)
  · exact absurd zero (by decide)
  · exact absurd odd (by decide)

namespace NegativeSquare

/-- The engine with a block that squares. -/
def blockEngine : Engine := { settings := { expression := "f(x) = x^2; return f(e);" } }

/-- The parameters of the block. -/
def blockBag : Bag := Bindings.insert .empty "e" (some minusFive)

/-- The function that the block defines. -/
def function : LocalFunction := ⟨"f", ["x"], "x^2"⟩

/-- The scope of the last statement of the block. -/
def scope : Scope := Scope.define ⟨blockBag, .empty⟩ function

/-- The expression `f(-5)`. -/
def call : Phrase Literal .sum :=
  .alone (.single (.plain (.apply ⟨"f", isFunctionName_f⟩
    (.last (.alone (.single (.minus (.plain (.atom (.ofDigit '5' rfl))))))))))

theorem vocabulary : IsVocabulary ([base].map Identifier.name ++ scope.bag.keys) := by
  constructor
  · decide +kernel
  · decide

theorem outcome_call :
    (scope.call blockEngine 64 function [minusFiveRounded]).outcome =
      .ok ⟨-250000000000, 10⟩ := by
  have raises : Raises blockEngine base minusFiveRounded exponent
      (scope.call blockEngine 64 function [minusFiveRounded]).outcome :=
    .argument vocabulary rfl (by decide) rfl (by simp) (by decide)
  have raised : blockEngine.settings.calculation.raised minusFiveRounded exponent.numeral =
      .ok ⟨-250000000000, 10⟩ := by decide +kernel
  have cause := raises.rootCause_eq rounded_constants (by decide)
  rw [raised] at cause
  exact eq_ok_of_rootCause cause

theorem outcome_value : (scope.value blockEngine "f(e)").outcome = .ok ⟨-250000000000, 10⟩ := by
  have resolved : (blockEngine.settings.resolve scope.bag "f(e)".toList).outcome =
      .ok "f(-5)".toList := by rfl
  have spaced : Spaced (call.lexemes.map (Lexeme.text Literal.text)) "f(-5)".toList :=
    .cons ['f'] (.cons ['('] (.cons ['-'] (.cons ['5'] (.single [')']))))
  have denoted : call.value blockEngine.settings.calculation (scope.lookup blockEngine 0) =
      (scope.call blockEngine 64 function [minusFiveRounded]).outcome := by rfl
  rw [Scope.value, Run.outcome_bind, resolved, ok_bind, Scope.evaluate,
    Phrase.outcome_evaluate_spelled spaced, denoted, outcome_call]
  rfl

theorem outcome_calculate_block :
    (blockEngine.calculate blockBag).outcome = .ok ⟨-250000000000, 10⟩ := by
  have defined : Statement.ofText? "f(x) = x^2".toList = .ok (some (.definition function)) := by
    rfl
  have answered : Statement.ofText? " return f(e)".toList = .ok (some (.answer "f(e)")) := by rfl
  have joined : blockEngine.settings.expression.toList =
      [';'].intercalate ["f(x) = x^2".toList, " return f(e)".toList, []] := by decide
  have block := Engine.value_of_block _ (by decide) (by decide) joined blockBag
  have admitted : blockEngine.admitted blockBag = blockBag := rfl
  have last : Scope.define ⟨blockBag, .empty⟩ function = scope := rfl
  rw [Engine.calculate, admitted, block, Run.outcome_bind, Scope.outcome_run_definition defined,
    Scope.outcome_run_answer answered, last, outcome_value]
  rfl

theorem outcome_calculate : (engine.calculate bag).outcome = .ok ⟨-250000000000, 10⟩ := by
  have raised : engine.settings.calculation.raised minusFive exponent.numeral =
      .ok ⟨-250000000000, 10⟩ := by decide +kernel
  have cause := raises.rootCause_eq rounded_constants (by decide)
  rw [raised] at cause
  have admitted : engine.admitted bag = bag := rfl
  rw [Engine.calculate, admitted, Run.outcome_bind, eq_ok_of_rootCause cause]
  rfl

end NegativeSquare

/-- A power of a negative number comes out with the wrong sign, for a parameter and for an
argument. -/
theorem calculate_square_of_negative :
    NegativeSquare.engine.settings.calculation.power NegativeSquare.minusFive (.ofInt (2 : Nat)) =
        .ok ⟨250000000000, 10⟩ ∧
      (NegativeSquare.engine.calculate NegativeSquare.bag).outcome = .ok ⟨-250000000000, 10⟩ ∧
      (NegativeSquare.blockEngine.calculate NegativeSquare.blockBag).outcome =
        .ok ⟨-250000000000, 10⟩ :=
  ⟨NegativeSquare.power_minusFive, NegativeSquare.outcome_calculate,
    NegativeSquare.outcome_calculate_block⟩

end Reckoner
