import Reckoner.Decimal

/-!
# Reading decimals

A numeral is a sign, digits with at most one point among them, underscores after the first digit,
and an exponent after `e` or `E`.  `Decimal.ofNumeral` keeps every written digit: the scale is the
number of digits after the point less the exponent.  What makes a text no numeral is reported for
its first defect, the exponent before the digits.
-/

namespace Reckoner

/-- Why a text is not a numeral. -/
inductive NumeralDefect
  /-- Nothing stands before the exponent. -/
  | empty
  /-- A sign, a point or an exponent mark without any digit. -/
  | noDigits
  /-- A character that is no digit where one has to be. -/
  | invalidDigit
  /-- A positive exponent that no 128-bit integer holds. -/
  | exponentTooLarge
  /-- A negative exponent that no 128-bit integer holds. -/
  | exponentTooSmall
  /-- A scale that no 64-bit integer holds. -/
  | scaleOverflow (text : String)
  deriving DecidableEq, Repr

/-- The phrase that reports a defect. -/
def NumeralDefect.message : NumeralDefect → String
  | empty => "Failed to parse empty string"
  | noDigits => "cannot parse integer from empty string"
  | invalidDigit => "invalid digit found in string"
  | exponentTooLarge => "number too large to fit in target type"
  | exponentTooSmall => "number too small to fit in target type"
  | scaleOverflow text => s!"Exponent overflow when parsing '{text}'"

namespace Numeral

/-- The least magnitude beyond the positive exponents that can be read. -/
def exponentBound : Nat := 170141183460469231731687303715884105728

/--
Adds the digits of an exponent to what was read of it before.  `limit` is the largest magnitude that
is allowed, and the first character that is no digit or leads beyond it decides the defect.
-/
def exponentDigits (limit : Nat) (beyond : NumeralDefect) :
    Nat → List Char → Except NumeralDefect Nat
  | magnitude, [] => .ok magnitude
  | magnitude, digit :: rest =>
    if digit.isDigit then
      let next := magnitude * 10 + Digits.value digit
      if limit < next then .error beyond else exponentDigits limit beyond next rest
    else
      .error .invalidDigit

/-- The exponent after its mark: an optional sign and at least one digit. -/
def exponent : List Char → Except NumeralDefect Int
  | [] => .error .noDigits
  | ['+'] => .error .invalidDigit
  | ['-'] => .error .invalidDigit
  | '-' :: digits => do
    let magnitude ← exponentDigits exponentBound .exponentTooSmall 0 digits
    return -magnitude
  | '+' :: digits => do
    let magnitude ← exponentDigits (exponentBound - 1) .exponentTooLarge 0 digits
    return magnitude
  | digits => do
    let magnitude ← exponentDigits (exponentBound - 1) .exponentTooLarge 0 digits
    return magnitude

/-- Whether a character separates the numeral from its exponent. -/
def isExponentMark (character : Char) : Bool := character == 'e' || character == 'E'

/-- The digits without underscores, which may stand anywhere but in front. -/
def magnitude (digits : List Char) : Except NumeralDefect Nat :=
  match digits with
  | [] => .error .noDigits
  | '_' :: _ => .error .invalidDigit
  | _ =>
    if digits.all fun character => character.isDigit || character == '_' then
      .ok (Digits.toNat (digits.filter fun character => character != '_'))
    else
      .error .invalidDigit

/-- An integer with at most one sign. -/
def signed : List Char → Except NumeralDefect Int
  | '-' :: digits => do
    let number ← magnitude digits
    return -number
  | '+' :: digits => do
    let number ← magnitude digits
    return number
  | digits => do
    let number ← magnitude digits
    return number

/-- The digits of a numeral with its first point taken out, and how many of them were after it. -/
def withoutPoint (text : List Char) : List Char × Nat :=
  let whole := text.takeWhile fun character => character != '.'
  let fraction := (text.drop whole.length).drop 1
  (whole ++ fraction, (fraction.filter fun character => character != '_').length)

end Numeral

/-- The range of scales that a numeral may have. -/
def Decimal.scaleFits (scale : Int) : Bool :=
  decide (-Decimal.wordBound ≤ scale) && decide (scale < Decimal.wordBound)

/-- The decimal that a numeral writes, with the scale it is written in. -/
def Decimal.ofNumeral (text : List Char) : Except NumeralDefect Decimal := do
  let base := text.takeWhile fun character => !Numeral.isExponentMark character
  let exponent ←
    match text.drop base.length with
    | [] => pure 0
    | _ :: exponentText => Numeral.exponent exponentText
  if base.isEmpty then
    throw .empty
  let (digits, places) := Numeral.withoutPoint base
  let scale := places - exponent
  if Decimal.scaleFits scale then
    return ⟨← Numeral.signed digits, scale⟩
  else
    throw (.scaleOverflow (String.ofList text))

end Reckoner
