import Mathlib.Data.List.Induction
import Mathlib.Data.List.TakeWhile
import Mathlib.Data.Nat.Digits.Defs
import Mathlib.Tactic.IntervalCases
import Mathlib.Tactic.Linarith
import Mathlib.Tactic.Ring
import Reckoner.Decimal
import Reckoner.Decimal.Numeral
import Reckoner.Proofs.Characters

/-!
# Numerals

The halving algorithms for digits do what they are meant to do digit by digit, and a decimal that
is not negative is read back from its positional notation: unchanged if it has digits after the
point, and with its zeros written out otherwise (`Decimal.isNumeral_plainDigits`).
-/

namespace Reckoner
namespace Digits

/-- The number that a text of digits denotes, taken one digit at a time. -/
def decode (digits : List Char) : Nat :=
  digits.foldl (fun number digit => number * 10 + value digit) 0

theorem foldl_decode (digits : List Char) (start : Nat) :
    digits.foldl (fun number digit => number * 10 + value digit) start =
      start * 10 ^ digits.length + decode digits := by
  induction digits generalizing start with
  | nil => simp [decode]
  | cons digit rest ih =>
      rw [decode, List.foldl_cons, List.foldl_cons, ih, ih (0 * 10 + value digit),
        List.length_cons, pow_succ]
      ring

theorem decode_append (left right : List Char) :
    decode (left ++ right) = decode left * 10 ^ right.length + decode right := by
  rw [decode, List.foldl_append, foldl_decode]
  rfl

/-- Zeros in front do not count. -/
theorem decode_replicate_zero (count : Nat) : decode (List.replicate count '0') = 0 := by
  induction count with
  | zero => rfl
  | succ count ih =>
      rw [List.replicate_succ', decode_append, ih]
      rfl

theorem decode_zeros_append (count : Nat) (digits : List Char) :
    decode (List.replicate count '0' ++ digits) = decode digits := by
  rw [decode_append, decode_replicate_zero, Nat.zero_mul, Nat.zero_add]

theorem value_digitChar {digit : Nat} (small : digit < 10) :
    value (Nat.digitChar digit) = digit := by
  interval_cases digit <;> rfl

theorem isDigit_digitChar {digit : Nat} (small : digit < 10) :
    (Nat.digitChar digit).isDigit = true := by
  interval_cases digit <;> rfl

/-! ## Reading -/

/-- A block of `2 ^ level` digits is read as its value, its length and the text after it. -/
theorem block_eq (level : Nat) (text : List Char) :
    block level text =
      (decode (text.take (2 ^ level)), (text.take (2 ^ level)).length, text.drop (2 ^ level)) := by
  induction level generalizing text with
  | zero =>
      cases text with
      | nil => rfl
      | cons digit rest =>
          have first : (digit :: rest).take 1 = [digit] := rfl
          simp [block, decode, first]
  | succ level ih =>
      have halves : 2 ^ (level + 1) = 2 ^ level + 2 ^ level := by ring
      rw [block, ih text]
      dsimp only
      rw [ih, halves, List.take_add, List.drop_drop, decode_append, List.length_append]
      rfl

/-- Reading by halves is reading digit by digit. -/
theorem toNat_eq_decode (digits : List Char) : toNat digits = decode digits := by
  rw [toNat, block_eq, List.take_of_length_le Nat.lt_log2_self.le]

/-! ## Writing -/

theorem halves_succ (level : Nat) : halves (level + 1) = 10 ^ 2 ^ level :: halves level := by
  induction level with
  | zero => rfl
  | succ level ih =>
      rw [halves, ih]
      dsimp only
      rw [← pow_add, ← two_mul, ← pow_succ']

/-- The digits of a number at a fixed width. -/
theorem padded_halves (level number : Nat) :
    (padded (halves level) number).length = 2 ^ level ∧
      decode (padded (halves level) number) = number % 10 ^ 2 ^ level ∧
      ∀ character ∈ padded (halves level) number, character.isDigit = true := by
  induction level generalizing number with
  | zero =>
      have small : number % 10 < 10 := Nat.mod_lt _ (by decide)
      simp [halves, padded, decode, value_digitChar small, isDigit_digitChar small]
  | succ level ih =>
      obtain ⟨highLength, highValue, highDigits⟩ := ih (number / 10 ^ 2 ^ level)
      obtain ⟨lowLength, lowValue, lowDigits⟩ := ih (number % 10 ^ 2 ^ level)
      rw [halves_succ, padded]
      refine ⟨?_, ?_, ?_⟩
      · rw [List.length_append, highLength, lowLength]
        ring
      · have square : 10 ^ 2 ^ (level + 1) = 10 ^ 2 ^ level * 10 ^ 2 ^ level := by
          rw [← pow_add, ← two_mul, ← pow_succ']
        rw [decode_append, highValue, lowValue, lowLength, square, Nat.mod_mul, Nat.mod_mod]
        ring
      · rw [List.forall_mem_append]
        exact ⟨highDigits, lowDigits⟩

/-- The digits of a number without zeros in front. -/
theorem trimmed_halves (level number : Nat) (small : number < 10 ^ 2 ^ level) :
    decode (trimmed (halves level) number) = number ∧
      ∀ character ∈ trimmed (halves level) number, character.isDigit = true := by
  induction level generalizing number with
  | zero =>
      have digit : number < 10 := by simpa using small
      rw [halves, trimmed]
      split
      case isTrue zero => simp [zero, decode]
      case isFalse => simp [decode, value_digitChar digit, isDigit_digitChar digit]
  | succ level ih =>
      rw [halves_succ, trimmed]
      split
      case isTrue below => exact ih number below
      case isFalse =>
        have high : number / 10 ^ 2 ^ level < 10 ^ 2 ^ level := by
          rw [Nat.div_lt_iff_lt_mul (by positivity), ← pow_add, ← two_mul, ← pow_succ']
          exact small
        obtain ⟨highValue, highDigits⟩ := ih _ high
        obtain ⟨lowLength, lowValue, lowDigits⟩ := padded_halves level (number % 10 ^ 2 ^ level)
        refine ⟨?_, ?_⟩
        · rw [decode_append, highValue, lowValue, lowLength, Nat.mod_mod]
          exact Nat.div_add_mod' number _
        · rw [List.forall_mem_append]
          exact ⟨highDigits, lowDigits⟩

theorem lt_level (number : Nat) : number < 10 ^ 2 ^ level number := by
  have binary : number < 2 ^ (number.log2 + 1) := Nat.lt_log2_self
  have width : number.log2 + 1 ≤ 2 ^ level number := Nat.lt_log2_self
  calc number < 2 ^ (number.log2 + 1) := binary
    _ ≤ 2 ^ 2 ^ level number := Nat.pow_le_pow_right (by decide) width
    _ ≤ 10 ^ 2 ^ level number := Nat.pow_le_pow_left (by decide) _

/-- Reading what was written. -/
theorem decode_ofNat (number : Nat) : decode (ofNat number) = number := by
  rw [ofNat]
  split
  case isTrue zero => simp [zero, decode, value]
  case isFalse => exact (trimmed_halves _ _ (lt_level number)).1

theorem isDigit_of_mem_ofNat (number : Nat) :
    ∀ character ∈ ofNat number, character.isDigit = true := by
  rw [ofNat]
  split
  case isTrue => simp
  case isFalse => exact (trimmed_halves _ _ (lt_level number)).2

theorem ofNat_ne_nil (number : Nat) : ofNat number ≠ [] := by
  rw [ofNat]
  split
  case isTrue => simp
  case isFalse nonzero =>
    intro empty
    have digits := (trimmed_halves _ _ (lt_level number)).1
    rw [empty] at digits
    exact nonzero digits.symm

/-! ## Uniqueness -/

theorem value_lt {character : Char} (digit : character.isDigit = true) : value character < 10 := by
  have range := (isDigit_iff character).mp digit
  have zero : '0'.toNat = 48 := rfl
  rw [value, zero]
  omega

theorem eq_of_value_eq {left right : Char} (leftDigit : left.isDigit = true)
    (rightDigit : right.isDigit = true) (same : value left = value right) : left = right := by
  have leftRange := (isDigit_iff left).mp leftDigit
  have rightRange := (isDigit_iff right).mp rightDigit
  have zero : '0'.toNat = 48 := rfl
  rw [value, value, zero] at same
  exact Char.toNat_inj.mp (by omega)

theorem eq_of_map_value_eq {left right : List Char}
    (leftAll : ∀ character ∈ left, character.isDigit = true)
    (rightAll : ∀ character ∈ right, character.isDigit = true)
    (same : left.map value = right.map value) : left = right := by
  induction left generalizing right with
  | nil => exact (List.map_eq_nil_iff.mp same.symm).symm
  | cons first rest ih =>
      obtain ⟨second, others, rfl, equal, later⟩ := List.map_eq_cons_iff.mp same.symm
      rw [List.forall_mem_cons] at leftAll rightAll
      rw [eq_of_value_eq leftAll.1 rightAll.1 equal.symm, ih leftAll.2 rightAll.2 later.symm]

theorem decode_eq_ofDigits (digits : List Char) :
    decode digits = Nat.ofDigits 10 (digits.map value).reverse := by
  induction digits using List.reverseRecOn with
  | nil => rfl
  | append_singleton front last ih =>
      rw [decode_append, ih, List.map_append, List.reverse_append, List.map_singleton,
        List.reverse_singleton, List.singleton_append, Nat.ofDigits_cons]
      simp [decode]
      ring

/-- Digits after each other are below the power of ten of their number. -/
theorem decode_lt {digits : List Char} (all : ∀ character ∈ digits, character.isDigit = true) :
    decode digits < 10 ^ digits.length := by
  rw [decode_eq_ofDigits]
  have bounded := Nat.ofDigits_lt_base_pow_length (b := 10) (l := (digits.map value).reverse)
    (by decide) (by simpa using fun character member => value_lt (all character member))
  simpa using bounded

/-- The digits of a number other than zero have no zero in front. -/
theorem head?_trimmed {level number : Nat} (small : number < 10 ^ 2 ^ level)
    (positive : 0 < number) :
    ∀ first ∈ (trimmed (halves level) number).head?, first ≠ '0' := by
  induction level generalizing number with
  | zero =>
      have digit : number < 10 := by simpa using small
      rw [halves, trimmed, if_neg positive.ne']
      rintro first found rfl
      have zero := congrArg value (Option.some.inj found)
      rw [value_digitChar digit] at zero
      exact positive.ne' zero
  | succ level ih =>
      rw [halves_succ, trimmed]
      split
      case isTrue below => exact ih below positive
      case isFalse above =>
        have high : number / 10 ^ 2 ^ level < 10 ^ 2 ^ level := by
          rw [Nat.div_lt_iff_lt_mul (by positivity), ← pow_add, ← two_mul, ← pow_succ']
          exact small
        have some : 0 < number / 10 ^ 2 ^ level :=
          Nat.div_pos (Nat.le_of_not_lt above) (by positivity)
        have filled : trimmed (halves level) (number / 10 ^ 2 ^ level) ≠ [] := by
          intro empty
          have value := (trimmed_halves level _ high).1
          rw [empty] at value
          exact some.ne value
        have leading := ih high some
        obtain ⟨first, rest, cons⟩ := List.exists_cons_of_ne_nil filled
        rw [cons] at leading ⊢
        exact leading

/-- Digits without a zero in front are those of positional notation in the library. -/
theorem map_value_eq_digits {digits : List Char}
    (all : ∀ character ∈ digits, character.isDigit = true)
    (first : ∀ character ∈ digits.head?, character ≠ '0') :
    (digits.map value).reverse = Nat.digits 10 (decode digits) := by
  rw [decode_eq_ofDigits, Nat.digits_ofDigits 10 (by decide)]
  · simpa using fun character member => value_lt (all character member)
  · intro nonempty zero
    obtain ⟨head, tail, rfl⟩ := List.exists_cons_of_ne_nil (by simpa using nonempty)
    have isZero : value head = 0 := by simpa using zero
    exact first head rfl (eq_of_value_eq (all head List.mem_cons_self) rfl isZero)

/-- Whether digits have no zero in front, but for a single zero. -/
def IsTrimmed (digits : List Char) : Prop :=
  digits = ['0'] ∨ ∀ first ∈ digits.head?, first ≠ '0'

theorem isTrimmed_ofNat (number : Nat) : IsTrimmed (ofNat number) := by
  rw [ofNat]
  split
  case isTrue => exact .inl rfl
  case isFalse nonzero => exact .inr (head?_trimmed (lt_level _) (Nat.pos_of_ne_zero nonzero))

/-- The first digits of some without a zero in front. -/
theorem IsTrimmed.take {digits : List Char} (trim : IsTrimmed digits) {count : Nat}
    (positive : 0 < count) : IsTrimmed (digits.take count) := by
  obtain rfl | first := trim
  · exact .inl (List.take_of_length_le positive)
  · refine .inr ?_
    rwa [List.head?_take, if_neg positive.ne']

/-- Digits without a zero in front are those that their number is written with. -/
theorem IsTrimmed.eq_ofNat_decode {digits : List Char} (trim : IsTrimmed digits)
    (nonempty : digits ≠ []) (all : ∀ character ∈ digits, character.isDigit = true) :
    digits = ofNat (decode digits) := by
  obtain rfl | first := trim
  · rfl
  have same := map_value_eq_digits all first
  have positive : decode digits ≠ 0 := by
    intro zero
    rw [zero, Nat.digits_zero] at same
    simp [nonempty] at same
  have written := trimmed_halves _ _ (lt_level (decode digits))
  have other := map_value_eq_digits written.2
    (head?_trimmed (lt_level _) (Nat.pos_of_ne_zero positive))
  rw [written.1, ← same, List.reverse_inj] at other
  rw [ofNat, if_neg positive]
  exact eq_of_map_value_eq all written.2 other.symm

end Digits

/-! ## Numerals of digits and a point -/

namespace Numeral

variable {digits left right : List Char}

/-- What the scanner of numerals compares a digit with. -/
theorem digit_facts {character : Char} (digit : character.isDigit = true) :
    character ≠ '_' ∧ character ≠ '-' ∧ character ≠ '+' ∧ character ≠ '.' ∧
      isExponentMark character = false := by
  refine ⟨?_, ?_, ?_, ?_, ?_⟩
  · rintro rfl
    simp at digit
  · rintro rfl
    simp at digit
  · rintro rfl
    simp at digit
  · rintro rfl
    simp at digit
  · rw [isExponentMark, Bool.or_eq_false_iff, beq_eq_false_iff_ne, beq_eq_false_iff_ne]
    refine ⟨?_, ?_⟩ <;>
    · rintro rfl
      simp at digit

theorem signed_of_digits (nonempty : digits ≠ [])
    (all : ∀ character ∈ digits, character.isDigit = true) :
    signed digits = .ok (Digits.decode digits : Int) := by
  obtain ⟨first, rest, rfl⟩ := List.exists_cons_of_ne_nil nonempty
  obtain ⟨noUnderscore, noMinus, noPlus, -⟩ := digit_facts (all first List.mem_cons_self)
  have kept : (first :: rest).filter (fun character => character != '_') = first :: rest :=
    List.filter_eq_self.mpr fun character member => by
      simpa using (digit_facts (all character member)).1
  have accepted : (first :: rest).all (fun character => character.isDigit || character == '_') :=
    List.all_eq_true.mpr fun character member => by simp [all character member]
  have whole : magnitude (first :: rest) = .ok (Digits.decode (first :: rest)) := by
    unfold magnitude
    split
    · contradiction
    · simp_all
    · rw [if_pos accepted, kept, Digits.toNat_eq_decode]
  unfold signed
  split
  · simp_all
  · simp_all
  · rw [whole]
    rfl

/-- The characters of a text that are no exponent marks come before the exponent. -/
theorem takeWhile_of_digits {text : List Char}
    (plain : ∀ character ∈ text, isExponentMark character = false) :
    text.takeWhile (fun character => !isExponentMark character) = text :=
  List.takeWhile_eq_self_iff.mpr fun character member => by simp [plain character member]

theorem withoutPoint_of_digits (all : ∀ character ∈ digits, character.isDigit = true) :
    withoutPoint digits = (digits, 0) := by
  have whole : digits.takeWhile (fun character => character != '.') = digits :=
    List.takeWhile_eq_self_iff.mpr fun character member => by
      simpa using (digit_facts (all character member)).2.2.2.1
  simp [withoutPoint, whole]

theorem withoutPoint_of_point (leftAll : ∀ character ∈ left, character.isDigit = true)
    (rightAll : ∀ character ∈ right, character.isDigit = true) :
    withoutPoint (left ++ '.' :: right) = (left ++ right, right.length) := by
  have whole : (left ++ '.' :: right).takeWhile (fun character => character != '.') = left := by
    rw [List.takeWhile_append_of_pos]
    · simp
    · intro character member
      simpa using (digit_facts (leftAll character member)).2.2.2.1
  have kept : right.filter (fun character => character != '_') = right :=
    List.filter_eq_self.mpr fun character member => by
      simpa using (digit_facts (rightAll character member)).1
  simp [withoutPoint, whole, kept]

end Numeral

namespace Decimal

open Numeral

theorem isExponentMark_of_isNumberCharacter {character : Char}
    (number : isNumberCharacter character = true) : isExponentMark character = false := by
  rcases (isNumberCharacter_iff character).mp number with digit | rfl
  · exact (digit_facts digit).2.2.2.2
  · decide

/-- A numeral without an exponent is read if its scale is not too large. -/
theorem ofNumeral_eq_of_plain {text : List Char} (nonempty : text ≠ [])
    (plain : ∀ character ∈ text, isExponentMark character = false) :
    ofNumeral text =
      if scaleFits (withoutPoint text).2 = true then
        (signed (withoutPoint text).1).map fun digits => ⟨digits, (withoutPoint text).2⟩
      else .error (.scaleOverflow (String.ofList text)) := by
  rw [ofNumeral, takeWhile_of_digits plain, List.drop_length]
  simp only [List.isEmpty_iff, nonempty, if_false, pure_bind, sub_zero]
  split
  case isTrue => cases signed (withoutPoint text).1 <;> rfl
  case isFalse => rfl

theorem ofNumeral_of_plain {text : List Char} (nonempty : text ≠ [])
    (plain : ∀ character ∈ text, isExponentMark character = false)
    (fits : scaleFits (withoutPoint text).2 = true) :
    ofNumeral text = (signed (withoutPoint text).1).map fun digits =>
      ⟨digits, (withoutPoint text).2⟩ := by
  rw [ofNumeral_eq_of_plain nonempty plain, if_pos fits]

/-- The decimal that positional notation shows: the same number, its trailing zeros written out. -/
def written (number : Decimal) : Decimal :=
  if number.scale ≤ 0 then ⟨number.digits * tenPower (-number.scale).toNat, 0⟩ else number

/-- Whether positional notation shows all digits of a number: its scale is one of 64 bits and does
not ask for more zeros than are written out. -/
def Shows (number : Decimal) : Prop := -(shiftLimit : Int) ≤ number.scale ∧ number.scale < wordBound

instance (number : Decimal) : Decidable number.Shows := by
  unfold Shows
  infer_instance

/-- Positional notation of a magnitude: digits, a point, and digits after it. -/
theorem exists_pointText (magnitude : Nat) (places : Nat) :
    ∃ left right, pointText magnitude places = left ++ '.' :: right ∧ left ≠ [] ∧
      right.length = places ∧ Digits.decode (left ++ right) = magnitude ∧
      (∀ character ∈ left, character.isDigit = true) ∧
      (∀ character ∈ right, character.isDigit = true) ∧ Digits.IsTrimmed left := by
  have written := Digits.isDigit_of_mem_ofNat magnitude
  obtain ⟨wide, same, long, value, digits, trim⟩ : ∃ wide,
      (if (Digits.ofNat magnitude).length ≤ places then
        List.replicate (places + 1 - (Digits.ofNat magnitude).length) '0' ++ Digits.ofNat magnitude
      else Digits.ofNat magnitude) = wide ∧ places < wide.length ∧
      Digits.decode wide = magnitude ∧ (∀ character ∈ wide, character.isDigit = true) ∧
      Digits.IsTrimmed (wide.take (wide.length - places)) := by
    refine ⟨_, rfl, ?_⟩
    split
    case isTrue short =>
      refine ⟨by simp; omega, ?_, ?_, ?_⟩
      · rw [Digits.decode_zeros_append, Digits.decode_ofNat]
      · rw [List.forall_mem_append]
        refine ⟨fun character member => ?_, written⟩
        rw [List.eq_of_mem_replicate member]
        rfl
      · have zeros : places + 1 - (Digits.ofNat magnitude).length =
            places - (Digits.ofNat magnitude).length + 1 := by omega
        have first : (List.replicate (places + 1 - (Digits.ofNat magnitude).length) '0' ++
            Digits.ofNat magnitude).length - places = 1 := by
          rw [List.length_append, List.length_replicate]
          omega
        rw [first, zeros, List.replicate_succ]
        exact .inl rfl
    case isFalse long =>
      refine ⟨by omega, Digits.decode_ofNat magnitude, written, ?_⟩
      exact (Digits.isTrimmed_ofNat magnitude).take (by omega)
  refine ⟨wide.take (wide.length - places), wide.drop (wide.length - places), ?_, ?_, ?_, ?_, ?_,
    ?_, trim⟩
  · rw [pointText, same]
  · rw [ne_eq, List.take_eq_nil_iff]
    rintro (none | rfl)
    · omega
    · simp at long
  · rw [List.length_drop]
    omega
  · rw [List.take_append_drop, value]
  · exact fun character member => digits character (List.mem_of_mem_take member)
  · exact fun character member => digits character (List.mem_of_mem_drop member)

/-- Positional notation of a magnitude has the whole before the point and the rest after it. -/
theorem pointText_eq (magnitude places : Nat) :
    ∃ fraction, pointText magnitude places =
        Digits.ofNat (magnitude / 10 ^ places) ++ '.' :: fraction ∧ fraction.length = places ∧
      (∀ character ∈ fraction, character.isDigit = true) ∧
        Digits.decode fraction = magnitude % 10 ^ places := by
  obtain ⟨left, right, same, nonempty, length, value, leftDigits, rightDigits, trim⟩ :=
    exists_pointText magnitude places
  have small := Digits.decode_lt rightDigits
  rw [Digits.decode_append] at value
  rw [length] at value small
  have positive : 0 < 10 ^ places := by positivity
  have whole : magnitude / 10 ^ places = Digits.decode left := by
    rw [← value, Nat.add_comm, Nat.add_mul_div_right _ _ positive, Nat.div_eq_of_lt small,
      Nat.zero_add]
  have rest : magnitude % 10 ^ places = Digits.decode right := by
    rw [← value, Nat.add_comm, Nat.add_mul_mod_self_right, Nat.mod_eq_of_lt small]
  refine ⟨right, ?_, length, rightDigits, rest.symm⟩
  rw [same, whole, ← trim.eq_ofNat_decode nonempty leftDigits]

variable {number : Decimal}

theorem shiftFactor_of_shows (shown : number.Shows) :
    shiftFactor (-number.scale).toNat = .ok (tenPower (-number.scale).toNat) := by
  have bound := shown.1
  rw [shiftFactor, if_neg (by omega)]

/-- Whether a text is a numeral of digits and points that is read as a number. -/
structure IsNumeral (text : List Char) (number : Decimal) : Prop where
  /-- There is a character. -/
  nonempty : text ≠ []
  /-- Each is a digit or a point. -/
  digits : ∀ character ∈ text, isNumberCharacter character = true
  /-- The number that is read. -/
  read : ofNumeral text = .ok number

theorem isNumeral_ofNat (magnitude : Nat) : IsNumeral (Digits.ofNat magnitude) ⟨magnitude, 0⟩ := by
  have digits := Digits.isDigit_of_mem_ofNat magnitude
  have nonempty := Digits.ofNat_ne_nil magnitude
  have read := withoutPoint_of_digits digits
  have fits : scaleFits ((0 : Nat) : Int) = true := by decide
  refine ⟨nonempty, fun character member => ?_, ?_⟩
  · simp [isNumberCharacter, digits character member]
  · rw [ofNumeral_of_plain nonempty (fun character member =>
        (digit_facts (digits character member)).2.2.2.2) (by rw [read]; exact fits), read,
      signed_of_digits nonempty digits, Digits.decode_ofNat]
    rfl

theorem isNumeral_pointText (magnitude : Nat) {places : Nat} (small : (places : Int) < wordBound) :
    IsNumeral (pointText magnitude places) ⟨magnitude, places⟩ := by
  obtain ⟨left, right, same, nonempty, length, value, leftDigits, rightDigits, -⟩ :=
    exists_pointText magnitude places
  have read := withoutPoint_of_point leftDigits rightDigits
  have digits : ∀ character ∈ left ++ right, character.isDigit = true := by
    rw [List.forall_mem_append]
    exact ⟨leftDigits, rightDigits⟩
  have characters : ∀ character ∈ left ++ '.' :: right,
      character.isDigit = true ∨ character = '.' := by
    intro character member
    rcases List.mem_append.mp member with inLeft | inRest
    · exact .inl (leftDigits character inLeft)
    · rcases List.mem_cons.mp inRest with point | inRight
      · exact .inr point
      · exact .inl (rightDigits character inRight)
  have fits : scaleFits (withoutPoint (left ++ '.' :: right)).2 = true := by
    rw [read, length, scaleFits, Bool.and_eq_true, decide_eq_true_eq, decide_eq_true_eq]
    unfold wordBound at small ⊢
    omega
  rw [same]
  refine ⟨by simp, fun character member => ?_, ?_⟩
  · rw [isNumberCharacter, Bool.or_eq_true, beq_iff_eq]
    exact characters character member
  · rw [ofNumeral_of_plain (by simp) ?_ fits, read, signed_of_digits (by simp [nonempty]) digits,
      value, length]
    · rfl
    · intro character member
      rcases characters character member with digit | rfl
      · exact (digit_facts digit).2.2.2.2
      · decide

/-- A number that is not negative is written with digits and at most one point. -/
theorem isNumeral_plainDigits (nonneg : 0 ≤ number.digits) (shown : number.Shows) :
    IsNumeral number.plainDigits number.written := by
  rw [plainDigits, written]
  split
  case isTrue whole =>
    have factor : 0 ≤ number.digits * (tenPower (-number.scale).toNat : Int) :=
      Int.mul_nonneg nonneg (Int.natCast_nonneg _)
    have numeral := isNumeral_ofNat (number.digits * (tenPower (-number.scale).toNat : Int)).natAbs
    rw [Int.natAbs_of_nonneg factor] at numeral
    rw [shiftFactor_of_shows shown]
    dsimp only
    rwa [integerText, if_neg (by omega)]
  case isFalse fraction =>
    have places : (number.scale.toNat : Int) = number.scale := by omega
    have numeral := isNumeral_pointText number.digits.natAbs (places.symm ▸ shown.2)
    rw [Int.natAbs_of_nonneg nonneg, places] at numeral
    dsimp only
    rwa [if_neg (by omega)]

/-- The magnitude of a negative number is written with digits and at most one point. -/
theorem isNumeral_plainDigits_neg (negative : number.digits < 0) (shown : number.Shows) :
    IsNumeral (-number).plainDigits (-number).written := by
  have nonneg : 0 ≤ (-number).digits := Int.neg_nonneg_of_nonpos negative.le
  exact isNumeral_plainDigits nonneg shown

/-- A negative number is written as its magnitude after a sign. -/
theorem plainDigits_of_neg (negative : number.digits < 0) (shown : number.Shows) :
    number.plainDigits = '-' :: (-number).plainDigits := by
  rw [plainDigits, plainDigits, neg_def]
  split
  case isTrue whole =>
    have power : 0 < (tenPower (-number.scale).toNat : Int) := by
      have positive : 0 < tenPower (-number.scale).toNat := Nat.pow_pos (by decide)
      exact_mod_cast positive
    have below : number.digits * (tenPower (-number.scale).toNat : Int) < 0 :=
      Int.mul_neg_of_neg_of_pos negative power
    rw [shiftFactor_of_shows shown]
    dsimp only
    rw [integerText, integerText, if_pos below, Int.neg_mul, if_neg (by omega), Int.natAbs_neg]
  case isFalse =>
    dsimp only
    rw [if_neg (by omega : ¬ -number.digits < 0), Int.natAbs_neg]

end Decimal
end Reckoner
