import Reckoner.Run
import Reckoner.Text.Characters

/-!
# Operators

The five operators on two decimals, and the calculation that is a lone operator: it folds all
parameters in their order, from the left.
-/

namespace Reckoner

/-- An operator between two operands. -/
inductive Operator
  /-- `+` -/
  | add
  /-- `-` -/
  | subtract
  /-- `*` -/
  | multiply
  /-- `/` -/
  | divide
  /-- `^` -/
  | power
  deriving DecidableEq, Repr

namespace Operator

/-- The character that writes an operator. -/
def symbol : Operator → Char
  | add => '+'
  | subtract => '-'
  | multiply => '*'
  | divide => '/'
  | power => '^'

/-- Every operator. -/
def all : List Operator := [add, subtract, multiply, divide, power]

/-- The operator that an expression consists of, if it is nothing else but blanks. -/
def ofExpression? (expression : List Char) : Option Operator :=
  all.find? fun operator => trim expression == [operator.symbol]

/-- The value of an operation; only quotients and powers are rounded. -/
def apply (operator : Operator) (precision : Precision) (left right : Decimal) :
    Except Fault Decimal :=
  match operator with
  | add => .ok (left + right)
  | subtract => .ok (left - right)
  | multiply => .ok (left * right)
  | divide => precision.divide left right
  | power => precision.power left right

/--
Folds all parameters of a bag, a null as zero.  A single parameter is the result as it is, and
without parameters the result is zero.
-/
def fold (operator : Operator) (settings : Settings) (bag : Bag) : Run Decimal :=
  match bag.values.map fun value => value.getD .zero with
  | [] => pure settings.calculation.zero
  | first :: others => do
    let result ← Run.ofExcept (others.foldlM (operator.apply settings.calculation) first)
    settings.note fun _ =>
      s!"Folded {bag.size} parameter(s) with '{operator.symbol}'. Result: {result.plain}"
    return result

end Operator
end Reckoner
