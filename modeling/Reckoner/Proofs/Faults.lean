import Reckoner.Proofs.Exactness
import Reckoner.Proofs.Execution

/-!
# The faults of computations

Which faults an outcome may fail with, stated through binds (`FailsWith`).  No computation with
numbers, no built-in function and no replacement of names fails with an unexpected character
(`Fault.IsOrdinary`): such a fault comes from a text that is read, or from a function of the host.
-/

namespace Reckoner

/-! ## Outcomes -/

/-- Whether the fault of an outcome, if it is one, has a property. -/
def FailsWith {α : Type} (allowed : Fault → Prop) (outcome : Except Fault α) : Prop :=
  ∀ fault, outcome = .error fault → allowed fault

namespace FailsWith

variable {α β : Type} {allowed weaker : Fault → Prop} {first : Except Fault α}

theorem ok (value : α) : FailsWith allowed (.ok value) := fun _ same => nomatch same

theorem error {fault : Fault} (member : allowed fault) :
    FailsWith allowed (.error fault : Except Fault α) := by
  rintro _ ⟨⟩
  exact member

theorem bind_of_ok (fails : FailsWith allowed first) {next : α → Except Fault β}
    (later : ∀ value, first = .ok value → FailsWith allowed (next value)) :
    FailsWith allowed (first >>= next) := by
  cases first with
  | ok value => exact later value rfl
  | error fault => exact error (fails fault rfl)

theorem bind (fails : FailsWith allowed first) {next : α → Except Fault β}
    (later : ∀ value, FailsWith allowed (next value)) : FailsWith allowed (first >>= next) :=
  fails.bind_of_ok fun value _ => later value

theorem imp (fails : FailsWith allowed first) (weaken : ∀ fault, allowed fault → weaker fault) :
    FailsWith weaker first := fun fault same => weaken fault (fails fault same)

end FailsWith

/-! ## Ordinary faults -/

/-- Whether the root cause of a fault is no unexpected character. -/
def Fault.IsOrdinary (fault : Fault) : Prop :=
  ∀ character position, fault.root ≠ .unexpectedCharacter character position

/-- Whether an outcome is a value or an ordinary fault. -/
abbrev IsOrdinary {α : Type} (outcome : Except Fault α) : Prop := FailsWith Fault.IsOrdinary outcome

namespace Decimal

theorem isOrdinary_shiftFactor (shift : Nat) : IsOrdinary (shiftFactor shift) := by
  unfold shiftFactor
  split
  case isTrue => exact .error nofun
  case isFalse => exact .ok _

theorem isOrdinary_toFloat (number : Decimal) : IsOrdinary number.toFloat := by
  unfold toFloat
  split
  case h_1 => exact .ok _
  case h_2 => exact .error nofun

theorem isOrdinary_truncate (number : Decimal) : IsOrdinary number.truncate := by
  unfold truncate
  split
  case isTrue => exact (isOrdinary_shiftFactor _).bind fun _ => .ok _
  case isFalse => exact (isOrdinary_shiftFactor _).bind fun _ => .ok _

theorem isOrdinary_toWord (number : Decimal) : IsOrdinary number.toWord := by
  refine (isOrdinary_truncate number).bind fun whole => ?_
  split
  case isTrue => exact .ok _
  case isFalse => exact .error nofun

end Decimal

namespace Precision

variable (precision : Precision)

theorem isOrdinary_roundOnce (shift : Int) (exact : ℚ) :
    IsOrdinary (precision.roundOnce shift exact) := by
  unfold roundOnce
  split
  case isTrue => exact .error nofun
  case isFalse => exact .ok _

theorem isOrdinary_round (number : Decimal) : IsOrdinary (precision.round number) := by
  rw [round_eq_roundOnce]
  exact precision.isOrdinary_roundOnce _ _

theorem isOrdinary_divide (dividend divisor : Decimal) :
    IsOrdinary (precision.divide dividend divisor) := by
  by_cases zero : divisor.toRat = 0
  · rw [divide_of_toRat_eq_zero dividend zero]
    exact .error nofun
  · rw [divide_eq_roundOnce dividend zero]
    exact precision.isOrdinary_roundOnce _ _

theorem isOrdinary_ofFloat (value : Float) (what : String) :
    IsOrdinary (precision.ofFloat value what) := by
  unfold ofFloat
  split
  case h_1 => exact precision.isOrdinary_round _
  case h_2 => exact .error nofun

theorem isOrdinary_power (base exponent : Decimal) :
    IsOrdinary (precision.power base exponent) := by
  cases small : exponent.smallInteger? with
  | none =>
      rw [power_eq_floatPower small]
      exact (base.isOrdinary_toFloat).bind fun _ => (exponent.isOrdinary_toFloat).bind fun _ =>
        precision.isOrdinary_ofFloat _ _
  | some count =>
      rw [power_of_smallInteger?_eq_some small]
      split
      case isTrue => exact .error nofun
      case isFalse => exact precision.isOrdinary_roundOnce _ _

theorem isOrdinary_literal (text : List Char) : IsOrdinary (precision.literal text) := by
  unfold literal
  split
  case h_1 => exact precision.isOrdinary_round _
  case h_2 => exact .error nofun

end Precision

theorem Operator.isOrdinary_apply (operator : Operator) (precision : Precision)
    (left right : Decimal) : IsOrdinary (operator.apply precision left right) := by
  cases operator with
  | add => exact .ok _
  | subtract => exact .ok _
  | multiply => exact .ok _
  | divide => exact precision.isOrdinary_divide left right
  | power => exact precision.isOrdinary_power left right

theorem Settings.isOrdinary_resolve (settings : Settings) (bag : Bag) (text : List Char) :
    IsOrdinary (settings.resolve bag text).outcome := by
  rw [resolve]
  simp only [Run.outcome_bind, Run.outcome_ofExcept, outcome_note, Run.outcome_pure, ok_bind]
  exact (settings.calculation.isOrdinary_round _).bind fun _ =>
    (settings.calculation.isOrdinary_round _).bind fun _ => .ok _

theorem Scope.isOrdinary_checkArity (function : LocalFunction) (arguments : List Decimal) :
    IsOrdinary (checkArity function arguments) := by
  unfold checkArity
  split
  case isTrue => exact .ok _
  case isFalse => exact .error nofun

/-! ## Built-in functions -/

theorem Scalar.isOrdinary_read (kind : Scalar) (argument : Decimal) :
    IsOrdinary (kind.read argument) := by
  cases kind with
  | decimal => exact .ok argument
  | float => exact argument.isOrdinary_toFloat
  | integer => exact argument.isOrdinary_toWord

namespace Parameters

theorem isOrdinary_bindOptional (kinds : List Scalar) (arguments : List Decimal) :
    IsOrdinary (bindOptional kinds arguments) := by
  induction kinds generalizing arguments with
  | nil => exact .ok ()
  | cons kind kinds ih =>
      cases arguments with
      | nil => exact (ih []).bind fun _ => .ok _
      | cons argument arguments =>
          exact (kind.isOrdinary_read argument).bind fun _ => (ih arguments).bind fun _ => .ok _

theorem isOrdinary_bindExtra (extra : Extra) (arguments : List Decimal) :
    IsOrdinary (bindExtra extra arguments) := by
  cases extra with
  | optional kinds => exact isOrdinary_bindOptional kinds arguments
  | rest => exact .ok arguments

theorem isOrdinary_bindRequired (extra : Extra) (kinds : List Scalar) (arguments : List Decimal)
    (enough : kinds.length ≤ arguments.length) :
    IsOrdinary (bindRequired extra kinds arguments enough) := by
  induction kinds generalizing arguments with
  | nil => exact (isOrdinary_bindExtra extra arguments).bind fun _ => .ok _
  | cons kind kinds ih =>
      cases arguments with
      | nil => exact absurd enough (by simp)
      | cons argument arguments =>
          exact (kind.isOrdinary_read argument).bind fun _ => (ih arguments _).bind fun _ => .ok _

theorem isOrdinary_bind (parameters : Parameters) (name : String) (arguments : List Decimal) :
    IsOrdinary (parameters.bind name arguments) := by
  unfold bind
  split
  case isTrue => exact isOrdinary_bindRequired _ _ _ _
  case isFalse => exact .error nofun

end Parameters

/-- Whether a function fails with ordinary faults only. -/
def Function.IsOrdinary (function : Function) : Prop :=
  ∀ settings values, Reckoner.IsOrdinary (function settings values)

theorem Function.isOrdinary_declare {name : String} {parameters : Parameters}
    {body : Settings → parameters.Values → Except Fault Decimal}
    (ordinary : ∀ settings values, Reckoner.IsOrdinary (body settings values)) :
    (Function.declare name parameters body).IsOrdinary := fun settings values =>
  (parameters.isOrdinary_bind name values).bind fun bound => ordinary settings bound

namespace Builtin

theorem isOrdinary_avg : avg.IsOrdinary := Function.isOrdinary_declare fun settings values => by
  dsimp only
  split
  case isTrue => exact .ok _
  case isFalse => exact settings.calculation.isOrdinary_divide _ _

theorem isOrdinary_root : root.IsOrdinary := Function.isOrdinary_declare fun settings values => by
  dsimp only
  split
  case isTrue => exact .error nofun
  case isFalse => exact settings.calculation.isOrdinary_ofFloat _ _

theorem isOrdinary_pow : pow.IsOrdinary := Function.isOrdinary_declare fun settings values => by
  dsimp only
  split
  case h_1 => exact settings.calculation.isOrdinary_ofFloat _ _
  case h_2 => exact settings.calculation.isOrdinary_ofFloat _ _

theorem isOrdinary_round : round.IsOrdinary := Function.isOrdinary_declare fun settings values => by
  obtain ⟨⟨value, -⟩, scale, code, -⟩ := values
  cases code with
  | none => exact Precision.isOrdinary_round ⟨_, .halfUp⟩ value
  | some code =>
      dsimp only
      split
      case h_1 mode _ => exact Precision.isOrdinary_round ⟨_, mode⟩ value
      case h_2 => exact .error nofun

theorem isOrdinary_floatFunction (name : String) (apply : Float → Float) :
    (floatFunction name apply).IsOrdinary :=
  Function.isOrdinary_declare fun settings _ => settings.calculation.isOrdinary_ofFloat _ _

/-- A built-in function fails with ordinary faults only. -/
theorem isOrdinary {name : String} {function : Function} (found : builtin? name = some function) :
    function.IsOrdinary := by
  have sum : sum.IsOrdinary := Function.isOrdinary_declare fun _ _ => .ok _
  have min : min.IsOrdinary := Function.isOrdinary_declare fun _ _ => .ok _
  have max : max.IsOrdinary := Function.isOrdinary_declare fun _ _ => .ok _
  have abs : abs.IsOrdinary := Function.isOrdinary_declare fun _ _ => .ok _
  have all : ∀ entry ∈ names, Function.IsOrdinary entry.2 := by
    simp only [names, List.forall_mem_cons, List.not_mem_nil, false_implies, implies_true,
      and_true]
    exact ⟨sum, sum, sum, isOrdinary_avg, isOrdinary_avg, min, max, isOrdinary_root,
      isOrdinary_root, isOrdinary_root, isOrdinary_root, isOrdinary_pow, isOrdinary_round, abs,
      isOrdinary_floatFunction _ _, isOrdinary_floatFunction _ _, isOrdinary_floatFunction _ _,
      isOrdinary_floatFunction _ _, isOrdinary_floatFunction _ _⟩
  exact all _ (Bindings.mem_of_lookup found)

end Builtin
end Reckoner
