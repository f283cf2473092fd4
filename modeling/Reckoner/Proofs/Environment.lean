import Reckoner.Block
import Reckoner.Proofs.Numerals
import Reckoner.Proofs.Phrase

/-!
# Blocks with environments

What a block means when its expressions are phrases and its names are looked up.  No text occurs: a
reference denotes the value that its name is bound to, and a call runs the body of a definition with
its arguments bound over the variables of the moment.

The meaning of a computation is partial.  It says nothing where an expression refers to a name that
is not bound, or to a value that has no positional notation, or where a reference to a negative
value is the base of a power.
-/

namespace Reckoner

/-! ## Names and values -/

/-- Whether a text is a name that can be bound: word characters, the first of them no digit, and
not the keyword of the last statement. -/
def isIdentifier (name : String) : Bool :=
  name.toList.all isWordCharacter && !name.toList.head?.all Char.isDigit &&
    name.toList != Statement.returnKeyword

theorem isIdentifier_a : isIdentifier "a" = true := by decide +kernel

/-- A name of a parameter or of a variable. -/
structure Identifier where
  /-- The name itself. -/
  name : String
  /-- It can be bound. -/
  valid : isIdentifier name = true
  deriving DecidableEq

/-- A name without regard to the case of ASCII letters. -/
def Identifier.key (identifier : Identifier) : List Char := foldCase identifier.name.toList

/-- A leaf of an expression in a block. -/
inductive Atom
  /-- A run of digits and points. -/
  | literal (literal : Literal)
  /-- A name. -/
  | reference (name : Identifier)

/-- What folded names are bound to: nothing, a null or a value. -/
abbrev Environment := List Char → Option (Option Decimal)

/-- The bindings of a bag, the first one for each folded name. -/
def Bag.environment (bag : Bag) : Environment := fun key =>
  (bag.entries.find? fun entry => foldCase entry.1.toList == key).map Prod.snd

namespace Environment

/-- The environment with a name bound to a value. -/
def bind (environment : Environment) (name : Identifier) (value : Decimal) : Environment :=
  fun key => if key = name.key then some (some value) else environment key

/-- The environment with names bound to values from left to right. -/
def bindAll (environment : Environment) (bindings : List (Identifier × Decimal)) : Environment :=
  bindings.foldl (fun environment binding => environment.bind binding.1 binding.2) environment

end Environment

/-- The two constants at the precision of the calculation. -/
structure Constants where
  /-- The circle constant. -/
  pi : Decimal
  /-- The base of natural logarithms. -/
  euler : Decimal

namespace Constants

/-- The constants rounded to a precision. -/
def rounded (precision : Precision) : Except Fault Constants := do
  let pi ← precision.round piNumber
  let euler ← precision.round eulerNumber
  return ⟨pi, euler⟩

/-- The folded names that are bound everywhere: the codes of rounding modes and the constants. -/
def entries (constants : Constants) : List (List Char × Decimal) :=
  [("half_up".toList, .ofInt 0), ("half_even".toList, .ofInt 1), ("half_down".toList, .ofInt 2),
    ("pi".toList, constants.pi), ("e".toList, constants.euler), ("π".toList, constants.pi)]

/-- The value of a name that is bound everywhere. -/
def find? (constants : Constants) (key : List Char) : Option Decimal :=
  (constants.entries.find? fun entry => entry.1 == key).map Prod.snd

end Constants

/-- What a name refers to: its binding, or else a constant. -/
def Environment.referent? (environment : Environment) (constants : Constants)
    (name : Identifier) : Option (Option Decimal) :=
  match environment name.key with
  | some value => some value
  | none => (constants.find? name.key).map some

/-- The value of a reference: that of its referent with the magnitude rounded, a null being zero. -/
def Precision.referred (precision : Precision) (referent : Option Decimal) : Except Fault Decimal :=
  match referent with
  | none => precision.round .zero
  | some number =>
    if number.digits < 0 then do
      let magnitude ← precision.round (-number).written
      return -magnitude
    else
      precision.round number.written

/-! ## Meanings -/

/-- A computation as the meaning of blocks has it: nothing is said, or it fails, or has a value. -/
abbrev Stated := ExceptT Fault Option

namespace Stated

/-- Nothing is said. -/
def silent {α : Type} : Stated α := ExceptT.mk none

end Stated

namespace Phrase

variable {α : Type} {level : Level}

/-- The leaves of a phrase from left to right. -/
def leaves {level : Level} : Phrase α level → List α
  | atom leaf => [leaf]
  | group inner => inner.leaves
  | call _ => []
  | apply _ arguments => arguments.leaves
  | plain operand => operand.leaves
  | power base exponent => base.leaves ++ exponent.leaves
  | plus operand => operand.leaves
  | minus operand => operand.leaves
  | single factor => factor.leaves
  | multiplied left _ _ right => left.leaves ++ right.leaves
  | alone product => product.leaves
  | added left _ _ right => left.leaves ++ right.leaves
  | last argument => argument.leaves
  | cons argument others => argument.leaves ++ others.leaves

/-- The leaf that a phrase consists of. -/
def leaf? {level : Level} : Phrase α level → Option α
  | atom leaf => some leaf
  | _ => none

/-- The leaves that are the base of a power. -/
def bases {level : Level} : Phrase α level → List α
  | atom _ => []
  | group inner => inner.bases
  | call _ => []
  | apply _ arguments => arguments.bases
  | plain operand => operand.bases
  | power base exponent => base.leaf?.toList ++ base.bases ++ exponent.bases
  | plus operand => operand.bases
  | minus operand => operand.bases
  | single factor => factor.bases
  | multiplied left _ _ right => left.bases ++ right.bases
  | alone product => product.bases
  | added left _ _ right => left.bases ++ right.bases
  | last argument => argument.bases
  | cons argument others => argument.bases ++ others.bases

end Phrase

namespace Atom

variable (environment : Environment) (constants : Constants)

/-- Whether a leaf has a value: a reference is bound, and to a value with positional notation. -/
def isDefined : Atom → Bool
  | literal _ => true
  | reference name =>
    match environment.referent? constants name with
    | none => false
    | some none => true
    | some (some number) => decide number.Shows

/-- Whether a leaf is a reference to a negative value. -/
def isNegative : Atom → Bool
  | literal _ => false
  | reference name =>
    match environment.referent? constants name with
    | some (some number) => decide (number.digits < 0)
    | _ => false

/-- The value of a leaf. -/
def value (precision : Precision) : Atom → Stated Decimal
  | literal numeral => liftM (precision.literal numeral.text)
  | reference name =>
    match environment.referent? constants name with
    | none => Stated.silent
    | some referent => liftM (precision.referred referent)

end Atom

/-- Whether the meaning of an expression is stated. -/
def Phrase.isStated (environment : Environment) (constants : Constants) {level : Level}
    (phrase : Phrase Atom level) : Bool :=
  phrase.leaves.all (Atom.isDefined environment constants) &&
    phrase.bases.all fun leaf => !leaf.isNegative environment constants

/-- What the names of functions mean: a built-in function, a local one, or one of the host. -/
def Engine.meanings (engine : Engine) (locals : Functions Stated) : Functions Stated := fun name =>
  match builtin? name with
  | some function => some fun values => liftM (function engine.settings values)
  | none =>
    match locals name with
    | some run => some run
    | none =>
      (engine.functions.find? name).map fun function values =>
        liftM (function engine.settings values)

/-- The value of an expression.  The constants are rounded first, whether they occur or not. -/
def Environment.evaluate (engine : Engine) (environment : Environment)
    (functions : Functions Stated) (expression : Phrase Atom .sum) : Stated Decimal := do
  let precision := engine.settings.calculation
  let constants ← liftM (Constants.rounded precision)
  if expression.isStated environment constants then
    expression.denote precision functions (Atom.value environment constants precision)
  else
    Stated.silent

/-! ## Blocks -/

/-- A local function. -/
structure Definition where
  /-- The names that the arguments are bound to. -/
  parameters : List Identifier
  /-- The expression that a call evaluates. -/
  body : Phrase Atom .sum

/-- A statement of a block. -/
inductive Clause
  /-- `return E`. -/
  | answer (expression : Phrase Atom .sum)
  /-- `n = E`. -/
  | assign (name : Identifier) (expression : Phrase Atom .sum)
  /-- `f(p, …) = E`. -/
  | define (name : FunctionName) (definition : Definition)

/-- The variables and the local functions of a block at one moment. -/
structure Moment where
  /-- What the parameters and variables are bound to. -/
  environment : Environment
  /-- The last definition of each name. -/
  definitions : String → Option Definition

namespace Moment

/-- The moment after a local function is defined. -/
def define (moment : Moment) (name : FunctionName) (definition : Definition) : Moment :=
  { moment with
    definitions := fun other =>
      if other = name.name then some definition else moment.definitions other }

/-- The moment after a variable is assigned. -/
def assign (moment : Moment) (name : Identifier) (value : Decimal) : Moment :=
  { moment with environment := moment.environment.bind name value }

/-- Refuses a call with a wrong number of arguments. -/
def checkArity (name : String) (definition : Definition) (arguments : List Decimal) :
    Except Fault Unit :=
  if arguments.length = definition.parameters.length then
    .ok ()
  else
    .error (.arity name (toString definition.parameters.length) arguments.length)

/-- Calls a local function when `levels` more calls may become active. -/
def call (engine : Engine) (moment : Moment) :
    Nat → String → Definition → List Decimal → Stated Decimal
  | 0, name, definition, arguments => do
    liftM (checkArity name definition arguments)
    throw (.callDepthExceeded engine.settings.callLimit)
  | levels + 1, name, definition, arguments => do
    liftM (checkArity name definition arguments)
    let environment := moment.environment.bindAll (definition.parameters.zip arguments)
    let locals := fun other => (moment.definitions other).map (call engine moment levels other)
    environment.evaluate engine (engine.meanings locals) definition.body

/-- What the names of functions mean outside of calls. -/
def functions (engine : Engine) (moment : Moment) : Functions Stated :=
  engine.meanings fun name =>
    (moment.definitions name).map (moment.call engine engine.settings.callLimit name)

/-- The value that the rest of a block returns; statements after a `return` mean nothing. -/
def run (engine : Engine) : Moment → List Clause → Stated Decimal
  | _, [] => throw .missingReturn
  | moment, .answer expression :: _ =>
    moment.environment.evaluate engine (moment.functions engine) expression
  | moment, .assign name expression :: clauses => do
    let value ← moment.environment.evaluate engine (moment.functions engine) expression
    run engine (moment.assign name value) clauses
  | moment, .define name definition :: clauses =>
    run engine (moment.define name definition) clauses

end Moment

/-- The result of a block for a bag of parameters. -/
def Engine.denote (engine : Engine) (bag : Bag) (clauses : List Clause) : Stated Decimal := do
  let value ← Moment.run engine ⟨(engine.admitted bag).environment, fun _ => none⟩ clauses
  liftM (engine.settings.result.round value)

end Reckoner
