import Reckoner.Function.Parameters

/-!
# Declarations of functions

The row of parameters that a function is declared with.  Required parameters come first; after them
there may be optional ones, or one that takes all further arguments, and nothing comes after that
one.  A row is read from the left, and the first parameter out of place is reported.
-/

namespace Reckoner

/-- A parameter as a function declares it. -/
inductive Form
  /-- A number that every call has to supply. -/
  | required (kind : Scalar)
  /-- A number that a call may leave out. -/
  | optional (kind : Scalar)
  /-- All further numbers, which are decimals as they are. -/
  | rest (kind : Scalar)
  deriving DecidableEq, Repr

namespace Form

/-- Why a parameter cannot stand in its place. -/
inductive Defect
  /-- A parameter that follows one that takes everything. -/
  | afterRest
  /-- A required parameter that follows an optional one. -/
  | requiredAfterOptional
  /-- A parameter that takes everything after optional ones. -/
  | restAfterOptional
  /-- A parameter of a type that no arguments are converted to. -/
  | unsupported
  deriving DecidableEq, Repr

/-- The sentence that reports a defect. -/
def Defect.message : Defect → String
  | afterRest => "the rest parameter has to be the last one"
  | requiredAfterOptional => "required parameters cannot follow optional ones"
  | restAfterOptional => "a rest parameter cannot follow optional ones"
  | unsupported => "expected BigDecimal, f64, i64, Option<_> of those, or &[BigDecimal]"

/-- The kinds of the parameters that follow an optional one. -/
def optionalKinds : List Form → Except Defect (List Scalar)
  | [] => .ok []
  | optional kind :: forms => do
    let kinds ← optionalKinds forms
    return kind :: kinds
  | required _ :: _ => .error .requiredAfterOptional
  | rest .decimal :: _ => .error .restAfterOptional
  | rest _ :: _ => .error .unsupported

end Form

/-- The parameters that a row declares. -/
def Parameters.ofForms : List Form → Except Form.Defect Parameters
  | [] => .ok ⟨[], .optional []⟩
  | .required kind :: forms => do
    let parameters ← ofForms forms
    return ⟨kind :: parameters.required, parameters.extra⟩
  | .optional kind :: forms => do
    let kinds ← Form.optionalKinds forms
    return ⟨[], .optional (kind :: kinds)⟩
  | [.rest .decimal] => .ok ⟨[], .rest⟩
  | .rest .decimal :: _ => .error .afterRest
  | .rest _ :: _ => .error .unsupported

end Reckoner
