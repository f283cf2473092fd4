import Reckoner.Proofs.Shortcuts
import Reckoner.Proofs.Twins

/-!
# Decimals are written and read

Values take the places of names as texts, so a calculation depends on the text that is written for a
decimal and on two readers: that of numerals, and that of expressions.  The text has a sign just for
a negative number, and a point just where there are places (`Decimal.isPointed_plainDigits`).  Read
as a numeral it is the decimal again (`Decimal.ofNumeral_plainDigits`); read as an expression it is
the rounded magnitude behind the sign (`Decimal.outcome_evaluate_plainDigits`).
-/

namespace Reckoner

/-! ## Reading a sign -/

namespace Numeral

variable {text : List Char}

theorem withoutPoint_cons {character : Char} (other : character ≠ '.') (text : List Char) :
    withoutPoint (character :: text) =
      (character :: (withoutPoint text).1, (withoutPoint text).2) := by
  simp [withoutPoint, other]

/-- Taking out the point keeps the other characters. -/
theorem mem_of_mem_withoutPoint {character : Char} (member : character ∈ (withoutPoint text).1) :
    character ∈ text := by
  rw [withoutPoint, List.mem_append] at member
  rcases member with front | back
  · exact (List.takeWhile_sublist _).subset front
  · exact List.mem_of_mem_drop (List.mem_of_mem_drop back)

/-- An integer that does not begin with a sign is negated by a sign `-` before it. -/
theorem signed_minus (unsigned : ∀ first ∈ text.head?, first ≠ '-' ∧ first ≠ '+') :
    signed ('-' :: text) = (signed text).map fun number => -number := by
  have same : signed text = (magnitude text).map fun number => (number : Int) := by
    unfold signed
    split
    · exact absurd rfl (unsigned _ rfl).1
    · exact absurd rfl (unsigned _ rfl).2
    · cases magnitude text <;> rfl
  rw [same, signed]
  cases magnitude text <;> rfl

end Numeral

namespace Decimal

open Numeral

variable {text : List Char} {number : Decimal}

/-- A numeral after a sign `-` is read as the negated number. -/
theorem ofNumeral_minus (numeral : IsNumeral text number) :
    ofNumeral ('-' :: text) = .ok (-number) := by
  obtain ⟨digits, found, fits, rfl⟩ := exists_of_ofNumeral numeral.digits numeral.read
  have plain : ∀ character ∈ '-' :: text, isExponentMark character = false := by
    rw [List.forall_mem_cons]
    exact ⟨by decide, fun character member =>
      isExponentMark_of_isNumberCharacter (numeral.digits character member)⟩
  have unsigned : ∀ first ∈ (withoutPoint text).1.head?, first ≠ '-' ∧ first ≠ '+' := by
    intro first member
    have digit := numeral.digits first (mem_of_mem_withoutPoint (List.mem_of_mem_head? member))
    constructor <;>
    · rintro rfl
      exact absurd digit (by decide)
  rw [ofNumeral_eq_of_plain (List.cons_ne_nil _ _) plain, withoutPoint_cons (by decide),
    if_pos fits, signed_minus unsigned, found]
  rfl

theorem written_neg (number : Decimal) : (-number).written = -number.written := by
  unfold written
  rw [scale_neg]
  split
  case isTrue => exact congrArg (Decimal.mk · 0) (Int.neg_mul _ _)
  case isFalse => rfl

/-- A decimal is written as it is, unless its scale is negative. -/
theorem written_of_scale_nonneg (places : 0 ≤ number.scale) : number.written = number := by
  unfold written
  split
  case isTrue whole =>
    have none : number.scale = 0 := le_antisymm whole places
    rw [none]
    obtain ⟨digits, scale⟩ := number
    simp_all [tenPower]
  case isFalse => rfl

/-- Positional notation is read as the number that it shows. -/
theorem ofNumeral_plainDigits (shown : number.Shows) :
    ofNumeral number.plainDigits = .ok number.written := by
  by_cases negative : number.digits < 0
  · rw [plainDigits_of_neg negative shown,
      ofNumeral_minus (isNumeral_plainDigits_neg negative shown), written_neg, neg_neg]
  · exact (isNumeral_plainDigits (Int.not_lt.mp negative) shown).read

end Decimal

/-! ## The form of positional notation -/

/--
Whether a text is the positional notation of a magnitude: at least one digit and, just where there
are places, a point with as many digits after it.
-/
inductive IsPointed : Nat → List Char → Prop
  /-- Digits without a point. -/
  | whole {digits : List Char} (nonempty : digits ≠ [])
    (all : ∀ character ∈ digits, character.isDigit = true) : IsPointed 0 digits
  /-- Digits on both sides of a point. -/
  | point {left right : List Char} (leftNonempty : left ≠ []) (rightNonempty : right ≠ [])
    (leftDigits : ∀ character ∈ left, character.isDigit = true)
    (rightDigits : ∀ character ∈ right, character.isDigit = true) :
    IsPointed right.length (left ++ '.' :: right)

namespace Decimal

variable {number : Decimal}

theorem isPointed_plainDigits_of_nonneg (nonneg : 0 ≤ number.digits) (shown : number.Shows) :
    IsPointed number.scale.toNat number.plainDigits := by
  rw [plainDigits]
  split
  case isTrue whole =>
    have none : number.scale.toNat = 0 := by omega
    have factor : 0 ≤ number.digits * (tenPower (-number.scale).toNat : Int) :=
      Int.mul_nonneg nonneg (Int.natCast_nonneg _)
    rw [shiftFactor_of_shows shown, none]
    dsimp only
    rw [integerText, if_neg (by omega)]
    exact .whole (Digits.ofNat_ne_nil _) (Digits.isDigit_of_mem_ofNat _)
  case isFalse places =>
    obtain ⟨left, right, written, leftNonempty, length, -, leftDigits, rightDigits, -⟩ :=
      exists_pointText number.digits.natAbs number.scale.toNat
    have rightNonempty : right ≠ [] := by
      rintro rfl
      rw [List.length_nil] at length
      omega
    dsimp only
    rw [if_neg (by omega), written, ← length]
    exact .point leftNonempty rightNonempty leftDigits rightDigits

/-- A number is written as its magnitude, with a sign before it if it is negative. -/
theorem isPointed_plainDigits (shown : number.Shows) :
    ∃ magnitude, IsPointed number.scale.toNat magnitude ∧
      number.plainDigits = if number.digits < 0 then '-' :: magnitude else magnitude := by
  by_cases negative : number.digits < 0
  · have nonneg : 0 ≤ (-number).digits := Int.neg_nonneg_of_nonpos negative.le
    refine ⟨(-number).plainDigits, isPointed_plainDigits_of_nonneg nonneg shown, ?_⟩
    rw [if_pos negative, plainDigits_of_neg negative shown]
  · refine ⟨number.plainDigits, isPointed_plainDigits_of_nonneg (not_lt.mp negative) shown, ?_⟩
    rw [if_neg negative]

/-! ## Evaluating positional notation -/

/-- The text of a number is evaluated to its rounded magnitude with the sign put back. -/
theorem outcome_evaluate_plainDigits (shown : number.Shows) (settings : Settings) (lookup : Lookup)
    (rescales : number.RescalesTo settings.calculation.scale)
    (writtenReaches : number.written.RescalesTo settings.calculation.scale) :
    ∃ rounded, settings.calculation.round number.abs = .ok rounded ∧
      (settings.evaluate lookup number.plainDigits).outcome =
        .ok (if number.digits < 0 then -rounded else rounded) := by
  have evaluated := settings.rootCause_evaluate_plainDigits lookup shown
  rw [Precision.referred_eq_carried writtenReaches] at evaluated
  refine ⟨settings.calculation.rounded number.abs, Precision.round_eq_rounded ?_, ?_⟩
  · unfold abs
    split
    case isTrue => exact rescales
    case isFalse => exact rescales
  · rw [eq_ok_of_rootCause evaluated, Precision.carried, abs]
    split <;> rfl

end Decimal

/--
Positional notation is faithful.  It has a sign just for a negative number, at least one digit, and
a point just for a positive scale, with as many digits after it as the scale says.  It is read back
as the same number, and as the same decimal unless the scale is negative.  Evaluated as an
expression it is the number rounded for the calculation, where the sign of a negative number is put
before its rounded magnitude.
-/
theorem plainDigits_faithful (number : Decimal) (shown : number.Shows) :
    (∃ magnitude, IsPointed number.scale.toNat magnitude ∧
      number.plainDigits = if number.digits < 0 then '-' :: magnitude else magnitude) ∧
    (∃ read, Decimal.ofNumeral number.plainDigits = .ok read ∧ read.toRat = number.toRat ∧
      (0 ≤ number.scale → read = number)) ∧
    ∀ (settings : Settings) (lookup : Lookup), number.RescalesTo settings.calculation.scale →
      number.written.RescalesTo settings.calculation.scale →
        ∃ rounded, settings.calculation.round number.abs = .ok rounded ∧
          (settings.evaluate lookup number.plainDigits).outcome =
            .ok (if number.digits < 0 then -rounded else rounded) := by
  refine ⟨Decimal.isPointed_plainDigits shown, ⟨number.written, ?_⟩, ?_⟩
  · exact ⟨Decimal.ofNumeral_plainDigits shown, number.toRat_written,
      Decimal.written_of_scale_nonneg⟩
  · exact Decimal.outcome_evaluate_plainDigits shown

/-- A small negative number in a mode that goes up: it goes down, as its magnitude goes up. -/
theorem plainDigits_of_small :
    Decimal.plainDigits ⟨-5, 3⟩ = "-0.005".toList ∧
      Decimal.ofNumeral "-0.005".toList = .ok ⟨-5, 3⟩ ∧
      (Settings.evaluate { calculation := ⟨2, .ceiling⟩ } (fun _ => none) "-0.005".toList).outcome =
        .ok ⟨-1, 2⟩ := by
  have shown : Decimal.Shows ⟨-5, 3⟩ := by decide
  have text : Decimal.plainDigits ⟨-5, 3⟩ = "-0.005".toList := by decide +kernel
  obtain ⟨-, ⟨read, isRead, -, same⟩, evaluated⟩ := plainDigits_faithful ⟨-5, 3⟩ shown
  obtain ⟨rounded, round, outcome⟩ :=
    evaluated { calculation := ⟨2, .ceiling⟩ } (fun _ => none) (by decide) (by decide)
  have up : Precision.round ⟨2, .ceiling⟩ (Decimal.abs ⟨-5, 3⟩) = .ok ⟨1, 2⟩ := by decide +kernel
  obtain rfl := same (by decide)
  obtain rfl := Except.ok.inj (up.symm.trans round)
  rw [text] at isRead outcome
  exact ⟨text, isRead, outcome⟩

end Reckoner
