/-!
# Faults

What can go wrong in a calculation, as causes.  A fault that arises inside an expression or inside
a whole calculation is wrapped with that context, so a fault is a chain that ends in its root
cause; the kind of a chain is the kind of its root.
-/

namespace Reckoner

/-- The families that faults fall into. -/
inductive FaultKind
  /-- A text that cannot be read. -/
  | malformedText
  /-- A name that stands for nothing. -/
  | unresolvedReference
  /-- A call with the wrong number of arguments. -/
  | arityMismatch
  /-- A value that does not exist or cannot be represented. -/
  | numericFailure
  /-- A block without a final statement. -/
  | missingTerminal
  /-- A bound on nesting that was reached. -/
  | limitExceeded
  /-- A file that could not be read. -/
  | inputOutput
  deriving DecidableEq, Repr

/-- The reason why a calculation has no result. -/
inductive Fault
  /-- A text that is not of the form its place requires. -/
  | malformed (detail : String)
  /-- A character that no rule of the expression grammar accepts at its position. -/
  | unexpectedCharacter (character : Char) (position : Nat)
  /-- An expression that stops where an operand has to follow. -/
  | unexpectedEnd
  /-- A call of a function that is neither built in nor local nor added by the host. -/
  | unknownFunction (name : String)
  /-- A call with a number of arguments that the function does not take. -/
  | arity (function expected : String) (found : Nat)
  /-- A function name with characters that function names do not have. -/
  | invalidFunctionName (name : String)
  /-- A code that stands for no rounding mode. -/
  | invalidRoundingMode (code : String)
  /-- A division by a zero of any scale. -/
  | divisionByZero
  /-- A floating-point result that is infinite or undefined. -/
  | nonFinite (what : String)
  /-- A change of scale by more digits than are allowed. -/
  | scaleOutOfRange (shift : Nat)
  /-- A value that another number type cannot hold. -/
  | conversion (detail : String)
  /-- A number type that no converter is registered for. -/
  | missingConverter (typeName : String)
  /-- A block that ends before any `return` statement. -/
  | missingReturn
  /-- Local function calls inside each other beyond the limit. -/
  | callDepthExceeded (limit : Nat)
  /-- A file that cannot be read as text. -/
  | unreadable (path : String)
  /-- A fault together with the expression that was being evaluated. -/
  | inExpression (expression : String) (cause : Fault)
  /-- A fault together with the calculation and the parameters that led to it. -/
  | inCalculation (expression parameters : String) (cause : Fault)
  deriving DecidableEq, Repr

namespace Fault

/-- The family of the innermost cause. -/
def kind : Fault → FaultKind
  | malformed _ => .malformedText
  | unexpectedCharacter _ _ => .malformedText
  | unexpectedEnd => .malformedText
  | invalidFunctionName _ => .malformedText
  | invalidRoundingMode _ => .malformedText
  | unknownFunction _ => .unresolvedReference
  | arity _ _ _ => .arityMismatch
  | divisionByZero => .numericFailure
  | nonFinite _ => .numericFailure
  | scaleOutOfRange _ => .numericFailure
  | conversion _ => .numericFailure
  | missingConverter _ => .numericFailure
  | missingReturn => .missingTerminal
  | callDepthExceeded _ => .limitExceeded
  | unreadable _ => .inputOutput
  | inExpression _ cause => cause.kind
  | inCalculation _ _ cause => cause.kind

/-- The innermost cause, without the contexts around it. -/
def root : Fault → Fault
  | inExpression _ cause => cause.root
  | inCalculation _ _ cause => cause.root
  | cause => cause

/-- The faults nested inside this one, outermost first. -/
def causes : Fault → List Fault
  | inExpression _ cause => cause :: cause.causes
  | inCalculation _ _ cause => cause :: cause.causes
  | _ => []

/-- The sentence that reports the outermost layer of a fault. -/
def message : Fault → String
  | malformed detail => s!"Malformed expression: {detail}"
  | unexpectedCharacter character position =>
    s!"Unexpected character '{character}' at position {position}"
  | unexpectedEnd => "Unexpected end of expression"
  | unknownFunction name => s!"Unknown function: {name}"
  | arity function expected found =>
    s!"Function '{function}' expects {expected} argument(s), but got {found}"
  | invalidFunctionName name =>
    s!"Invalid function name '{name}': only ASCII letters, '√', '∑', German umlauts, 'ß' and " ++
      "'_' are allowed"
  | invalidRoundingMode code =>
    s!"Invalid rounding mode '{code}'. Possible values: HALF_UP (0), HALF_EVEN (1), HALF_DOWN (2)"
  | divisionByZero => "Division by zero"
  | nonFinite what => s!"Result of '{what}' is not a finite number"
  | scaleOutOfRange shift => s!"Changing the scale by {shift} digits is out of range"
  | conversion detail => s!"Conversion failed: {detail}"
  | missingConverter typeName => s!"Cannot find converter for '{typeName}'"
  | missingReturn => "No 'return ...' statement was found in the given expression"
  | callDepthExceeded limit => s!"Local function calls nested deeper than {limit} levels"
  | unreadable path => s!"Could not read expression from '{path}'"
  | inExpression expression _ =>
    s!"Unexpected error on calculation of expression: {expression}"
  | inCalculation expression parameters _ =>
    s!"Unexpected error on calculation of expression: {expression} using params: {parameters}"

@[simp]
theorem kind_root (fault : Fault) : fault.root.kind = fault.kind := by
  induction fault <;> simp_all [root, kind]

@[simp]
theorem root_root (fault : Fault) : fault.root.root = fault.root := by
  induction fault <;> simp_all [root]

end Fault
end Reckoner
