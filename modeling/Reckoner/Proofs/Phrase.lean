import Reckoner.Block

/-!
# Phrases

The documented grammar of expressions as a family of trees, indexed by the rule that derives them.
Sums and products are chains to the left, a sign stands before a whole factor, and the exponent of
a power is a whole factor; so a phrase says everything about precedence that a text has to say with
its parentheses.  The leaves are left open: literals in a resolved text, literals and names in the
text of a block.

A phrase is written as a row of lexemes, and it denotes a value in every monad above the faults.
Operands and arguments are evaluated from left to right, each function being looked up before its
arguments.
-/

namespace Reckoner

/-- The rules of the grammar. -/
inductive Level
  /-- An atom, a group or a call. -/
  | operand
  /-- A signed factor, a power, or an operand by itself. -/
  | factor
  /-- Factors with `*` and `/` between them. -/
  | product
  /-- Products with `+` and `-` between them. -/
  | sum
  /-- Sums with commas between them, at least one. -/
  | list
  deriving DecidableEq

/-- What a phrase of a rule denotes. -/
abbrev Level.Value : Level → Type
  | operand => Decimal
  | factor => Decimal
  | product => Decimal
  | sum => Decimal
  | list => List Decimal

/-- What a phrase of a rule is read as. -/
abbrev Level.Form : Level → Type
  | operand => Tree
  | factor => Tree
  | product => Tree
  | sum => Tree
  | list => List Tree

/-- A name that a call can write. -/
structure FunctionName where
  /-- The name itself. -/
  name : String
  /-- It consists of function characters. -/
  valid : isFunctionName name = true
  deriving DecidableEq

theorem isFunctionName_f : isFunctionName "f" = true := by decide

theorem isFunctionName_g : isFunctionName "g" = true := by decide

theorem isFunctionName_h : isFunctionName "h" = true := by decide

/-- A run of digits and points. -/
structure Literal where
  /-- The characters of the run. -/
  text : List Char
  /-- There is at least one. -/
  nonempty : text ≠ []
  /-- Each is a digit or a point. -/
  digits : ∀ character ∈ text, isNumberCharacter character = true
  deriving DecidableEq

/-- The literal of one digit. -/
def Literal.ofDigit (digit : Char) (valid : isNumberCharacter digit = true) : Literal :=
  ⟨[digit], List.cons_ne_nil digit [], List.forall_mem_singleton.mpr valid⟩

namespace Operator

/-- Whether an operator joins products to a sum. -/
def isAdditive : Operator → Bool
  | add | subtract => true
  | multiply | divide | power => false

theorem isAdditive_add : add.isAdditive = true := rfl

/-- Whether an operator joins factors to a product. -/
def isMultiplicative : Operator → Bool
  | multiply | divide => true
  | add | subtract | power => false

end Operator

/-- The syntax trees of the grammar over leaves of type `α`. -/
inductive Phrase (α : Type) : Level → Type
  /-- A leaf. -/
  | atom (leaf : α) : Phrase α .operand
  /-- A sum in parentheses. -/
  | group (inner : Phrase α .sum) : Phrase α .operand
  /-- A call with an empty argument list. -/
  | call (function : FunctionName) : Phrase α .operand
  /-- A call with arguments. -/
  | apply (function : FunctionName) (arguments : Phrase α .list) : Phrase α .operand
  /-- An operand that is not raised to a power. -/
  | plain (operand : Phrase α .operand) : Phrase α .factor
  /-- An operand raised to a factor. -/
  | power (base : Phrase α .operand) (exponent : Phrase α .factor) : Phrase α .factor
  /-- A factor after a sign `+`. -/
  | plus (operand : Phrase α .factor) : Phrase α .factor
  /-- A factor after a sign `-`. -/
  | minus (operand : Phrase α .factor) : Phrase α .factor
  /-- A single factor. -/
  | single (factor : Phrase α .factor) : Phrase α .product
  /-- A product with one more factor. -/
  | multiplied (left : Phrase α .product) (operator : Operator)
      (fits : operator.isMultiplicative = true) (right : Phrase α .factor) : Phrase α .product
  /-- A single product. -/
  | alone (product : Phrase α .product) : Phrase α .sum
  /-- A sum with one more product. -/
  | added (left : Phrase α .sum) (operator : Operator) (fits : operator.isAdditive = true)
      (right : Phrase α .product) : Phrase α .sum
  /-- The last argument of a list. -/
  | last (argument : Phrase α .sum) : Phrase α .list
  /-- An argument with others after it. -/
  | cons (argument : Phrase α .sum) (others : Phrase α .list) : Phrase α .list

/-- The lexical units of a phrase. -/
inductive Lexeme (α : Type)
  /-- A leaf. -/
  | atom (leaf : α)
  /-- The name of a function. -/
  | name (function : FunctionName)
  /-- A mark that may not be left out. -/
  | mark (character : Char)
  /-- The opening parenthesis of a list of arguments. -/
  | opening
  /-- The closing parenthesis of a group or of a list of arguments. -/
  | closing

namespace Lexeme

variable {α β : Type}

/-- The characters of a lexeme, for given texts of the leaves. -/
def text (write : α → List Char) : Lexeme α → List Char
  | atom leaf => write leaf
  | name function => function.name.toList
  | mark character => [character]
  | opening => ['(']
  | closing => [')']

/-- The lexemes that the grammar tolerates to be missing. -/
def isOmissible : Lexeme α → Bool
  | opening | closing => true
  | atom _ | name _ | mark _ => false

end Lexeme

/-- What the names of functions stand for: computations on lists of arguments. -/
abbrev Functions (m : Type → Type) := String → Option (List Decimal → m Decimal)

namespace Phrase

variable {α : Type}

/-- The lexemes of a phrase.  The parentheses of an empty argument list are marks. -/
def lexemes {level : Level} : Phrase α level → List (Lexeme α)
  | atom leaf => [.atom leaf]
  | group inner => .mark '(' :: (inner.lexemes ++ [.closing])
  | call function => [.name function, .mark '(', .mark ')']
  | apply function arguments => .name function :: .opening :: (arguments.lexemes ++ [.closing])
  | plain operand => operand.lexemes
  | power base exponent => base.lexemes ++ .mark '^' :: exponent.lexemes
  | plus operand => .mark '+' :: operand.lexemes
  | minus operand => .mark '-' :: operand.lexemes
  | single factor => factor.lexemes
  | multiplied left operator _ right => left.lexemes ++ .mark operator.symbol :: right.lexemes
  | alone product => product.lexemes
  | added left operator _ right => left.lexemes ++ .mark operator.symbol :: right.lexemes
  | last argument => argument.lexemes
  | cons argument others => argument.lexemes ++ .mark ',' :: others.lexemes

/--
The value of a phrase.  Sums, differences and products are exact, quotients and powers are rounded
to the precision, and the leaves and the functions mean what they are given to mean.
-/
def denote {m : Type → Type} [Monad m] [MonadLiftT (Except Fault) m] (precision : Precision)
    (functions : Functions m) (value : α → m Decimal) {level : Level} :
    Phrase α level → m level.Value
  | atom leaf => value leaf
  | group inner => inner.denote precision functions value
  | call function =>
    match functions function.name with
    | none => liftM (.error (.unknownFunction function.name) : Except Fault Decimal)
    | some run => run []
  | apply function arguments =>
    match functions function.name with
    | none => liftM (.error (.unknownFunction function.name) : Except Fault Decimal)
    | some run => do
      let values ← arguments.denote precision functions value
      run values
  | plain operand => operand.denote precision functions value
  | power base exponent => do
    let base ← base.denote precision functions value
    let exponent ← exponent.denote precision functions value
    liftM (precision.power base exponent)
  | plus operand => operand.denote precision functions value
  | minus operand => do
    let number ← operand.denote precision functions value
    return -number
  | single factor => factor.denote precision functions value
  | multiplied left operator _ right => do
    let left ← left.denote precision functions value
    let right ← right.denote precision functions value
    liftM (operator.apply precision left right)
  | alone product => product.denote precision functions value
  | added left operator _ right => do
    let left ← left.denote precision functions value
    let right ← right.denote precision functions value
    liftM (operator.apply precision left right)
  | last argument => do
    let number ← argument.denote precision functions value
    return [number]
  | cons argument others => do
    let number ← argument.denote precision functions value
    let numbers ← others.denote precision functions value
    return number :: numbers

end Phrase
end Reckoner
