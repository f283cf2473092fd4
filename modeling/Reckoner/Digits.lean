/-!
# Decimal digits of natural numbers

Writing a number in base ten and reading it back.  Both directions halve the digit string instead
of working one digit at a time, so that numbers of a million digits cost a few multiplications of
that size; `Digits.ofNat` and `Digits.toNat` are what they would be digit by digit.
-/

namespace Reckoner

/-- Ten raised to the given exponent. -/
def tenPower (exponent : Nat) : Nat := Nat.pow 10 exponent

namespace Digits

/-- The powers `10 ^ 2 ^ (level - 1)`, …, `10 ^ 2`, `10 ^ 1`, by repeated squaring. -/
def halves : Nat → List Nat
  | 0 => []
  | level + 1 =>
    match halves level with
    | [] => [10]
    | power :: powers => power * power :: power :: powers

/-- The last `2 ^ level` digits of a number, leading zeros included, for `halves level`. -/
def padded : List Nat → Nat → List Char
  | [], number => [Nat.digitChar (number % 10)]
  | power :: powers, number => padded powers (number / power) ++ padded powers (number % power)

/-- The digits of a number below `10 ^ 2 ^ level` without leading zeros, for `halves level`. -/
def trimmed : List Nat → Nat → List Char
  | [], number => if number = 0 then [] else [Nat.digitChar number]
  | power :: powers, number =>
    if number < power then
      trimmed powers number
    else
      trimmed powers (number / power) ++ padded powers (number % power)

/-- A level whose `2 ^ level` digits hold the number: the binary length of its binary length. -/
def level (number : Nat) : Nat := number.log2.log2 + 1

/-- The decimal digits of a number, most significant first; zero is a single `0`. -/
def ofNat (number : Nat) : List Char :=
  if number = 0 then ['0'] else trimmed (halves (level number)) number

/-- The value of a digit character. -/
def value (character : Char) : Nat := character.toNat - '0'.toNat

/--
Reads up to `2 ^ level` digits from the front of a text: their value, how many there were, and the
text after them.
-/
def block : Nat → List Char → Nat × Nat × List Char
  | 0, [] => (0, 0, [])
  | 0, digit :: rest => (value digit, 1, rest)
  | level + 1, text =>
    let (high, highCount, afterHigh) := block level text
    let (low, lowCount, afterLow) := block level afterHigh
    (high * tenPower lowCount + low, highCount + lowCount, afterLow)

/-- The number that a text of digits denotes; the empty text denotes zero. -/
def toNat (digits : List Char) : Nat :=
  (block (digits.length.log2 + 1) digits).1

end Digits
end Reckoner
