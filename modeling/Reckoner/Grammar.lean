import Reckoner.Operator
import Reckoner.Token

/-!
# The grammar of expressions

The trees of expressions, and how one is read from tokens.  A place where no tree can be read is a
leaf that holds the fault, so every text has a tree, and whether the fault is ever met is a question
of evaluation.

Sums are chains of products and products chains of factors, both to the left.  A factor is a signed
factor, or a number, a group or a call, which may be raised to a factor; so a power binds closer
than a sign before it and chains to the right.

Closing parentheses may be missing everywhere.  The arguments of a call may stand without
parentheses, and then reach as far as their comma list does; empty arguments need both.

A reading never leaves more tokens than it was given, and every loop takes a token before it reads
on; that is why reading ends.  After a fault nothing is left to read.
-/

namespace Reckoner

/-! ## Trees -/

/-- The syntax tree of an expression. -/
inductive Tree
  /-- A run of digits and points. -/
  | number (text : List Char)
  /-- A call of a function. -/
  | call (name : String) (arguments : List Tree)
  /-- A tree in parentheses. -/
  | group (inner : Tree)
  /-- An operand after a sign `+`. -/
  | plus (operand : Tree)
  /-- An operand after a sign `-`. -/
  | minus (operand : Tree)
  /-- Two operands with an operator between them. -/
  | operation (operator : Operator) (left right : Tree)
  /-- A place where the text does not continue as an expression. -/
  | unreadable (fault : Fault)

/-! ## Readings -/

/-- Something read from the front of at most `bound` tokens, and the tokens after it. -/
structure Reading (α : Type) (bound : Nat) where
  /-- What was read. -/
  value : α
  /-- The tokens that were not used. -/
  rest : List Token
  /-- Reading adds no tokens. -/
  short : rest.length ≤ bound

namespace Reading

variable {α β : Type} {bound larger : Nat}

/-- Nothing used of the given tokens. -/
def done (value : α) (tokens : List Token) : Reading α tokens.length :=
  ⟨value, tokens, Nat.le_refl _⟩

/-- A tree that ends in a fault, with nothing left to read. -/
def fault (fault : Fault) : Reading Tree bound := ⟨.unreadable fault, [], Nat.zero_le bound⟩

/-- The same reading from more tokens. -/
def within (reading : Reading α bound) (fits : bound ≤ larger) : Reading α larger :=
  ⟨reading.value, reading.rest, Nat.le_trans reading.short fits⟩

/-- The same reading with a changed value. -/
def map (change : α → β) (reading : Reading α bound) : Reading β bound :=
  ⟨change reading.value, reading.rest, reading.short⟩

/-- The same reading, a mark after it passed over if it is there. -/
def skip (mark : Char) (reading : Reading α bound) : Reading α bound :=
  match reading with
  | ⟨value, [], short⟩ => ⟨value, [], short⟩
  | ⟨value, token :: rest, short⟩ =>
    if token.head = mark then
      ⟨value, rest, Nat.le_of_succ_le short⟩
    else
      ⟨value, token :: rest, short⟩

end Reading

namespace Grammar

/-- The operator of sums that a mark writes. -/
def sumOperator? (mark : Char) : Option Operator :=
  if mark = '+' then some .add else if mark = '-' then some .subtract else none

/-- The operator of products that a mark writes. -/
def productOperator? (mark : Char) : Option Operator :=
  if mark = '*' then some .multiply else if mark = '/' then some .divide else none

mutual

/-- Products with `+` and `-` between them. -/
def sum (tokens : List Token) : Reading Tree tokens.length :=
  match product tokens with
  | ⟨first, rest, short⟩ => (sumAfter first rest).within short
termination_by 6 * tokens.length + 2

/-- Continues a sum after its first products. -/
def sumAfter (left : Tree) (tokens : List Token) : Reading Tree tokens.length :=
  match tokens with
  | [] => .done left []
  | token :: rest =>
    match sumOperator? token.head with
    | some operator =>
      match product rest with
      | ⟨right, later, short⟩ =>
        (sumAfter (.operation operator left right) later).within (Nat.le_succ_of_le short)
    | none => .done left (token :: rest)
termination_by 6 * tokens.length

/-- Factors with `*` and `/` between them. -/
def product (tokens : List Token) : Reading Tree tokens.length :=
  match factor tokens with
  | ⟨first, rest, short⟩ => (productAfter first rest).within short
termination_by 6 * tokens.length + 1

/-- Continues a product after its first factors. -/
def productAfter (left : Tree) (tokens : List Token) : Reading Tree tokens.length :=
  match tokens with
  | [] => .done left []
  | token :: rest =>
    match productOperator? token.head with
    | some operator =>
      match factor rest with
      | ⟨right, later, short⟩ =>
        (productAfter (.operation operator left right) later).within (Nat.le_succ_of_le short)
    | none => .done left (token :: rest)
termination_by 6 * tokens.length

/-- A signed factor, or an operand with the power it is raised to. -/
def factor (tokens : List Token) : Reading Tree tokens.length :=
  match tokens with
  | [] => .fault .unexpectedEnd
  | token :: rest =>
    if token.head = '+' then
      ((factor rest).map .plus).within (Nat.le_succ _)
    else if token.head = '-' then
      ((factor rest).map .minus).within (Nat.le_succ _)
    else
      match operand token rest with
      | ⟨base, later, short⟩ => (powerAfter base later).within (Nat.le_succ_of_le short)
termination_by 6 * tokens.length

/-- A group, a number or a call. -/
def operand (token : Token) (rest : List Token) : Reading Tree rest.length :=
  if token.head = '(' then
    ((sum rest).map .group).skip ')'
  else
    match token.kind with
    | .number => .done (.number token.text) rest
    | .name => (arguments rest).map (.call (String.ofList token.text))
    | .mark => .fault (.unexpectedCharacter token.head token.position)
termination_by 6 * rest.length + 5

/-- The power that an operand is raised to, if `^` follows it. -/
def powerAfter (base : Tree) (tokens : List Token) : Reading Tree tokens.length :=
  match tokens with
  | [] => .done base []
  | token :: rest =>
    if token.head = '^' then
      ((factor rest).map (.operation .power base)).within (Nat.le_succ _)
    else
      .done base (token :: rest)
termination_by 6 * tokens.length

/-- The arguments of a call, with or without parentheses. -/
def arguments (tokens : List Token) : Reading (List Tree) tokens.length :=
  match tokens with
  | [] => (list []).skip ')'
  | token :: rest =>
    if token.head = '(' then
      if (rest.head?.map Token.head) = some ')' then
        (Reading.done [] rest).skip ')' |>.within (Nat.le_succ _)
      else
        ((list rest).skip ')').within (Nat.le_succ _)
    else
      (list (token :: rest)).skip ')'
termination_by 6 * tokens.length + 4

/-- Sums with commas between them. -/
def list (tokens : List Token) : Reading (List Tree) tokens.length :=
  match sum tokens with
  | ⟨first, rest, short⟩ => ((listAfter rest).map (first :: ·)).within short
termination_by 6 * tokens.length + 3

/-- Continues a list after its first sums. -/
def listAfter (tokens : List Token) : Reading (List Tree) tokens.length :=
  match tokens with
  | [] => .done [] []
  | token :: rest =>
    if token.head = ',' then
      (list rest).within (Nat.le_succ _)
    else
      .done [] (token :: rest)
termination_by 6 * tokens.length

end

end Grammar

/-- The tree that a text of tokens begins with, and the tokens after it. -/
def Tree.ofTokens (tokens : List Token) : Reading Tree tokens.length := Grammar.sum tokens

end Reckoner
