import Reckoner.Settings

/-!
# Parameters of functions

A function declares the kinds of its parameters: required ones, then either optional ones or one
that takes all remaining arguments.  Arguments are counted before any of them is converted, and
they are converted from left to right, so `Parameters.bind` never looks past the end of the list
and reports the leftmost failure.
-/

namespace Reckoner

/-- A kind of number that a function takes. -/
inductive Scalar
  /-- A decimal as it is. -/
  | decimal
  /-- A double. -/
  | float
  /-- The integer part, if 64 bits hold it. -/
  | integer
  deriving DecidableEq, Repr

/-- The type of the numbers of a kind. -/
abbrev Scalar.Carrier : Scalar → Type
  | .decimal => Decimal
  | .float => Float
  | .integer => Int

/-- An argument as a number of the given kind. -/
def Scalar.read : (kind : Scalar) → Decimal → Except Fault kind.Carrier
  | .decimal, argument => .ok argument
  | .float, argument => argument.toFloat
  | .integer, argument => argument.toWord

/-- What may follow the required parameters. -/
inductive Extra
  /-- Parameters that may be left out, from the last one backward. -/
  | optional (kinds : List Scalar)
  /-- All further arguments. -/
  | rest
  deriving DecidableEq, Repr

/-- The parameters of a function. -/
structure Parameters where
  /-- Kinds of the parameters that every call has to supply. -/
  required : List Scalar
  /-- The parameters after those. -/
  extra : Extra
  deriving DecidableEq, Repr

/-- One value for each of several required parameters. -/
abbrev RequiredValues : List Scalar → Type
  | [] => Unit
  | kind :: kinds => kind.Carrier × RequiredValues kinds

/-- A value or nothing for each of several optional parameters. -/
abbrev OptionalValues : List Scalar → Type
  | [] => Unit
  | kind :: kinds => Option kind.Carrier × OptionalValues kinds

/-- The values of the parameters after the required ones. -/
abbrev Extra.Values : Extra → Type
  | .optional kinds => OptionalValues kinds
  | .rest => List Decimal

/-- The values that a call supplies for all parameters. -/
abbrev Parameters.Values (parameters : Parameters) : Type :=
  RequiredValues parameters.required × parameters.extra.Values

namespace Parameters

/-- Whether a call may have the given number of arguments. -/
def accepts (parameters : Parameters) (count : Nat) : Bool :=
  decide (parameters.required.length ≤ count) &&
    match parameters.extra with
    | .optional kinds => decide (count ≤ parameters.required.length + kinds.length)
    | .rest => true

/-- How many arguments a call has, as the fault about a wrong number says it. -/
def expected (parameters : Parameters) : String :=
  let least := parameters.required.length
  match parameters.extra with
  | .optional [] => toString least
  | .optional kinds => s!"{least} to {least + kinds.length}"
  | .rest => if least = 0 then "any number of" else s!"at least {least}"

/-- Converts the arguments of the optional parameters; those left out have no value. -/
def bindOptional : (kinds : List Scalar) → List Decimal → Except Fault (OptionalValues kinds)
  | [], _ => .ok ()
  | _ :: kinds, [] => do
    let values ← bindOptional kinds []
    return (none, values)
  | kind :: kinds, argument :: arguments => do
    let value ← kind.read argument
    let values ← bindOptional kinds arguments
    return (some value, values)

/-- Converts the arguments after the required ones. -/
def bindExtra : (extra : Extra) → List Decimal → Except Fault extra.Values
  | .optional kinds, arguments => bindOptional kinds arguments
  | .rest, arguments => .ok arguments

/-- Converts the arguments of the required parameters, and then the arguments after them. -/
def bindRequired (extra : Extra) : (kinds : List Scalar) → (arguments : List Decimal) →
    kinds.length ≤ arguments.length → Except Fault (RequiredValues kinds × extra.Values)
  | [], arguments, _ => do
    let values ← bindExtra extra arguments
    return ((), values)
  | kind :: kinds, argument :: arguments, enough => do
    let value ← kind.read argument
    let (values, extraValues) ←
      bindRequired extra kinds arguments (Nat.le_of_succ_le_succ enough)
    return ((value, values), extraValues)

theorem required_le_of_accepts {parameters : Parameters} {count : Nat}
    (accepted : parameters.accepts count = true) : parameters.required.length ≤ count := by
  rw [accepts, Bool.and_eq_true, decide_eq_true_eq] at accepted
  exact accepted.1

/-- The values that the arguments of a call give to the parameters. -/
def bind (parameters : Parameters) (name : String) (arguments : List Decimal) :
    Except Fault parameters.Values :=
  if accepted : parameters.accepts arguments.length = true then
    bindRequired parameters.extra parameters.required arguments (required_le_of_accepts accepted)
  else
    .error (.arity name parameters.expected arguments.length)

end Parameters

/-- The function with the given parameters that computes its result by `body`. -/
def Function.declare (name : String) (parameters : Parameters)
    (body : Settings → parameters.Values → Except Fault Decimal) : Function :=
  fun settings arguments => do
    let values ← parameters.bind name arguments
    body settings values

end Reckoner
