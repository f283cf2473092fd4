import Reckoner.Function.Builtin
import Reckoner.Grammar

/-!
# Evaluation

The value of an expression tree.  Operands and arguments are evaluated from left to right, and a
function is looked up before its arguments are evaluated; so the first fault in that order is the
fault of the whole.  Evaluation follows the tree: what a function does with its values is up to the
lookup.
-/

namespace Reckoner

/-- A function as a call runs it: the steps of its own are part of the run. -/
abbrev Callee := List Decimal → Run Decimal

/-- What the names of functions stand for while an expression is evaluated. -/
abbrev Lookup := String → Option Callee

namespace Tree

mutual

/-- The value of a tree. -/
def evaluate (settings : Settings) (lookup : Lookup) : Tree → Run Decimal
  | number text => Run.ofExcept (settings.calculation.literal text)
  | call name arguments =>
    match lookup name with
    | none => Run.fail (.unknownFunction name)
    | some callee => do
      let values ← evaluateAll settings lookup arguments
      let result ← callee values
      settings.note fun _ =>
        let shown := ", ".intercalate (values.map Decimal.plain)
        s!"Called function '{name}'. Params: [{shown}]. Result: {result.plain}"
      return result
  | group inner => inner.evaluate settings lookup
  | plus operand => operand.evaluate settings lookup
  | minus operand => do
    let value ← operand.evaluate settings lookup
    return -value
  | operation operator left right => do
    let leftValue ← left.evaluate settings lookup
    let rightValue ← right.evaluate settings lookup
    let result ← Run.ofExcept (operator.apply settings.calculation leftValue rightValue)
    settings.note fun _ =>
      s!"Calculated term. Expression: '{operator.symbol}'. Left: '{leftValue.plain}'. " ++
        s!"Right: '{rightValue.plain}'. Result: {result.plain}"
    return result
  | unreadable fault => Run.fail fault

/-- The values of several trees. -/
def evaluateAll (settings : Settings) (lookup : Lookup) : List Tree → Run (List Decimal)
  | [] => return []
  | tree :: trees => do
    let value ← tree.evaluate settings lookup
    let values ← evaluateAll settings lookup trees
    return value :: values

end

end Tree

/-- The value of the tree at the front of some tokens, which must be all of them. -/
def Reading.evaluate {bound : Nat} (settings : Settings) (lookup : Lookup)
    (reading : Reading Tree bound) : Run Decimal := do
  let value ← reading.value.evaluate settings lookup
  match reading.rest with
  | [] => return value
  | token :: _ => Run.fail (.unexpectedCharacter token.head token.position)

/--
The value of an expression text: zero for blanks, else that of its tree.  The text loses its margins
first, and a fault is reported with what is left.
-/
def Settings.evaluate (settings : Settings) (lookup : Lookup) (text : List Char) : Run Decimal := do
  let trimmed := trim text
  let shown := String.ofList trimmed
  settings.note fun _ => s!"Calculating expression: {shown}"
  if trimmed.isEmpty then
    return settings.calculation.zero
  else
    ((Tree.ofTokens (Token.scan trimmed)).evaluate settings lookup).mapFault
      (.inExpression shown)

namespace Engine

/-- A function of the host as a call runs it. -/
def callee (engine : Engine) (function : Function) : Callee := fun values =>
  Run.ofExcept (function engine.settings values)

/-- Looks a name up among the built-in functions, then by `locals`, then among the host's. -/
def lookup (engine : Engine) (locals : Lookup) : Lookup := fun name =>
  match builtin? name with
  | some function => some (engine.callee function)
  | none =>
    match locals name with
    | some callee => some callee
    | none => (engine.functions.find? name).map engine.callee

/-- The value of an expression without local functions. -/
def evaluate (engine : Engine) (text : List Char) : Run Decimal :=
  engine.settings.evaluate (engine.lookup fun _ => none) text

end Engine
end Reckoner
