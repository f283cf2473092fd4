import Reckoner.Block.Signature
import Reckoner.Text.Characters

/-!
# Statements

The statements of a block: `return` with an expression, the assignment of an expression to a
variable, and the definition of a local function.  A text without anything in it is no statement.
-/

namespace Reckoner

/-- One step of a block. -/
inductive Statement
  /-- Ends the block with the value of an expression. -/
  | answer (expression : String)
  /-- Binds a variable to the value of an expression. -/
  | assignment (name expression : String)
  /-- Adds a local function. -/
  | definition (function : LocalFunction)
  deriving DecidableEq, Repr

/-- The parts of a text between the occurrences of a separator, at least one. -/
def splitAtEach (separator : Char) (text : List Char) : List (List Char) :=
  text.foldr
    (fun character parts =>
      if character = separator then
        [] :: parts
      else
        match parts with
        | [] => [[character]]
        | first :: others => (character :: first) :: others)
    [[]]

theorem splitAtEach_ne_nil (separator : Char) (text : List Char) :
    splitAtEach separator text ≠ [] := by
  induction text with
  | nil => simp [splitAtEach]
  | cons character rest ih =>
    rw [splitAtEach, List.foldr_cons, ← splitAtEach]
    split
    · simp
    · split <;> simp

/-- No part of a split text has a separator. -/
theorem not_mem_splitAtEach {separator : Char} {text part : List Char}
    (found : part ∈ splitAtEach separator text) : separator ∉ part := by
  induction text generalizing part with
  | nil => simp_all [splitAtEach]
  | cons character rest ih =>
    rw [splitAtEach, List.foldr_cons, ← splitAtEach] at found
    grind

/-- The parts of a split text with separators between them are the text. -/
theorem intercalate_splitAtEach (separator : Char) (text : List Char) :
    List.intercalate [separator] (splitAtEach separator text) = text := by
  induction text with
  | nil => rfl
  | cons character rest ih =>
    rw [splitAtEach, List.foldr_cons, ← splitAtEach]
    have parts := splitAtEach_ne_nil separator rest
    cases found : splitAtEach separator rest with
    | nil => exact absurd found parts
    | cons first others =>
      rw [found] at ih
      by_cases same : character = separator
      · cases others <;> simp_all [List.intercalate]
      · cases others <;> simp_all [List.intercalate]

namespace Statement

/-- The keyword that ends a block. -/
def returnKeyword : List Char := ['r', 'e', 't', 'u', 'r', 'n']

/-- The text after the keyword, if a text begins with it as a word of its own. -/
def afterReturn? (text : List Char) : Option (List Char) :=
  if returnKeyword.isPrefixOf text then
    let rest := text.drop returnKeyword.length
    if rest.head?.any extendsKeyword then none else some rest
  else
    none

/-- The assignment or definition of a trimmed text, which has one equality sign. -/
def binding (text : List Char) : Except Fault Statement :=
  let shown := String.ofList text
  match splitAtEach '=' text with
  | [left, right] =>
    let target := trim left
    let expression := trim right
    if target.isEmpty || expression.isEmpty then
      .error (.malformed s!"Definition '{shown}' needs a name and an expression")
    else if target.contains '(' && target.contains ')' then do
      let function ← LocalFunction.ofTexts target expression
      return definition function
    else
      .ok (assignment (String.ofList target) (String.ofList expression))
  | _ => .error (.malformed s!"Definition '{shown}' must have exactly one '='")

/-- The statement that a text writes, if there is anything in it. -/
def ofText? (text : List Char) : Except Fault (Option Statement) :=
  let trimmed := trim text
  if trimmed.isEmpty then
    .ok none
  else
    match afterReturn? trimmed with
    | some expression => .ok (some (answer (String.ofList (trim expression))))
    | none => do
      let statement ← binding trimmed
      return some statement

end Statement
end Reckoner
