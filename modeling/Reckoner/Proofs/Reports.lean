import Reckoner.Proofs.Locality
import Reckoner.Proofs.Recursion

/-!
# Where faults are reported

An unexpected character is reported where it stands and depends on nothing behind it
(`evaluate_reports_position`): the innermost text around the fault has this character at the
position reported, however many calls of local functions lead to it, and every text that begins
alike fails on it, whatever follows.  Only a function of the host can report a character that nobody
has read, since it may fail with anything.

The proof asks of one text what it may fail with (`exists_of_evaluateWithin_eq_error`), and then
follows the calls of local functions, of which each has one level less.
-/

namespace Reckoner

/-- The text of the innermost expression around the root cause of a fault. -/
def Fault.innermost? : Fault → Option String
  | inExpression expression cause => some (cause.innermost?.getD expression)
  | inCalculation _ _ cause => cause.innermost?
  | _ => none

/-- A token stands at its position, with its first character. -/
theorem Token.getElem?_position {token : Token} {text : List Char} (member : token ∈ scan text) :
    text[token.position]? = some token.head := by
  obtain ⟨front, back, split, place⟩ := exists_of_mem_scanFrom text 0 token member
  rw [split, place, Nat.zero_add, Token.text, List.append_assoc, List.getElem?_append_right le_rfl,
    Nat.sub_self]
  rfl

namespace Scope

variable {engine : Engine} {scope : Scope} {levels : Nat} {text : List Char}

/-! ## What a text may fail with -/

/-- Whether the evaluation of a text calls a function of the host that fails with a fault. -/
structure HostFails (engine : Engine) (scope : Scope) (levels : Nat) (text : List Char)
    (name : String) (values : List Decimal) (fault : Fault) : Prop where
  /-- There is a call of the name with these values. -/
  invokes :
    engine.settings.Invokes (engine.lookup (scope.callees engine levels)) text name values
  /-- The name is not that of a built-in function. -/
  absent : builtin? name = none
  /-- It is not that of a local function. -/
  unbound : scope.functions.find? name = none
  /-- The function of the host that has this name fails. -/
  failed : ∃ function, engine.functions.find? name = some function ∧
    function engine.settings values = .error fault

/-- Whether a local function is called in a text and its body, with the names in it replaced, is
another text; `levels` more calls may become active in the body. -/
def EntersBody (engine : Engine) (scope : Scope) (levels : Nat) (text resolved : List Char) :
    Prop :=
  ∃ name function values, Enters engine scope (levels + 1) text name function values ∧
    checkArity function values = .ok () ∧
      (engine.settings.resolve (scope.bindings function values) function.body.toList).outcome =
        .ok resolved

/-- What a call in a text may fail with, when `levels` more calls may become active. -/
inductive CallFails (engine : Engine) (scope : Scope) : Nat → List Char → Fault → Prop
  /-- An ordinary fault. -/
  | ordinary {levels text fault} (ordinary : fault.IsOrdinary) :
      CallFails engine scope levels text fault
  /-- A fault of a function of the host. -/
  | host {levels text name values fault}
      (fails : HostFails engine scope levels text name values fault) :
      CallFails engine scope levels text fault
  /-- A fault of the body of a local function. -/
  | body {levels text resolved fault} (enters : EntersBody engine scope levels text resolved)
      (failed : scope.evaluateWithin engine levels resolved = .error fault) :
      CallFails engine scope (levels + 1) text fault

/-- A local function fails with an ordinary fault, or as its body does. -/
theorem failsWith_call {name : String} {function : LocalFunction} {values : List Decimal}
    (enters : Enters engine scope levels text name function values) :
    FailsWith (CallFails engine scope levels text)
      (scope.call engine levels function values).outcome := by
  have arity : FailsWith (CallFails engine scope levels text) (checkArity function values) :=
    (isOrdinary_checkArity function values).imp fun _ => .ordinary
  cases levels with
  | zero =>
      rw [outcome_call_zero]
      exact arity.bind fun _ => .error (.ordinary nofun)
  | succ levels =>
      rw [outcome_call_succ]
      refine arity.bind_of_ok fun _ enough => ?_
      refine ((engine.settings.isOrdinary_resolve _ _).imp fun _ => .ordinary).bind_of_ok
        fun resolved body => ?_
      exact fun fault failed => .body ⟨name, function, values, enters, enough, body⟩ failed

/-- The calls in a text fail with what a call may fail with. -/
theorem callsFailWith_callFails :
    (engine.lookup (scope.callees engine levels)).CallsFailWith
      (engine.settings.Invokes (engine.lookup (scope.callees engine levels)) text)
      (CallFails engine scope levels text) := by
  intro name values outcome invokes called
  rw [Lookup.outcome?] at called
  cases builtin : builtin? name with
  | some function =>
      rw [Engine.lookup_of_builtin builtin, Option.map_some] at called
      rw [← Option.some.inj called]
      exact (Builtin.isOrdinary builtin engine.settings values).imp fun _ => .ordinary
  | none =>
      cases found : scope.functions.find? name with
      | some function =>
          have callee : scope.callees engine levels name =
              some (scope.call engine levels function) := by rw [callees, found, Option.map_some]
          rw [Engine.lookup_of_local builtin callee, Option.map_some] at called
          rw [← Option.some.inj called]
          exact failsWith_call ⟨invokes, builtin, found⟩
      | none =>
          have unbound : scope.callees engine levels name = none := by
            rw [callees, found, Option.map_none]
          rw [Engine.lookup_of_host builtin unbound, Option.map_map] at called
          obtain ⟨function, registered, rfl⟩ := Option.map_eq_some_iff.mp called
          exact fun fault failed => .host ⟨invokes, builtin, found, function, registered, failed⟩

/-- A text fails with itself around what is about one of its tokens or what a call fails with. -/
theorem exists_of_evaluateWithin_eq_error {fault : Fault}
    (failed : scope.evaluateWithin engine levels text = .error fault) :
    ∃ cause, fault = .inExpression (String.ofList (trim text)) cause ∧
      ((∃ token ∈ Token.scan (trim text), cause = token.blame) ∨
        CallFails engine scope levels text cause) := by
  have calls : (engine.lookup (scope.callees engine levels)).CallsFailWith _
      fun cause => (∃ token ∈ Token.scan (trim text), cause = token.blame) ∨
        CallFails engine scope levels text cause :=
    fun name values outcome invokes called =>
      (callsFailWith_callFails name values outcome invokes called).imp fun _ => .inr
  exact Settings.exists_of_evaluate_eq_error (fun _ ordinary => .inr (.ordinary ordinary))
    (fun token member => .inl ⟨token, member, rfl⟩) calls failed

/-! ## Reports -/

/-- Whether the evaluation of a text evaluates another one, as the body of a local function that is
called in it, or in the body of such a function and so on, or is the same. -/
inductive Nests (engine : Engine) (scope : Scope) :
    Nat → List Char → Nat → List Char → Prop
  /-- It is the same. -/
  | here (levels : Nat) (text : List Char) : Nests engine scope levels text levels text
  /-- The body of a function that was called is evaluated. -/
  | within {levels text resolved below inner}
      (enters : EntersBody engine scope levels text resolved)
      (nests : Nests engine scope levels resolved below inner) :
      Nests engine scope (levels + 1) text below inner

/-- Whether the evaluation of a text itself fails on a character: no function does so for it. -/
structure FailsAt (engine : Engine) (scope : Scope) (levels : Nat) (text : List Char)
    (character : Char) (position : Nat) : Prop where
  /-- It fails on the character. -/
  failed : scope.evaluateWithin engine levels text =
    .error (.inExpression (String.ofList (trim text)) (.unexpectedCharacter character position))
  /-- The fault is not that of a function of the host. -/
  own : ∀ name values,
    ¬ HostFails engine scope levels text name values (.unexpectedCharacter character position)

variable {character : Char} {position : Nat}

/-- Where a text itself fails, every text that begins alike fails. -/
theorem FailsAt.evaluateWithin_of_prefix
    (fails : FailsAt engine scope levels text character position) {other : List Char}
    (begins : (trim text).take (position + 1) <+: trim other) :
    scope.evaluateWithin engine levels other =
      .error (.inExpression (String.ofList (trim other))
        (.unexpectedCharacter character position)) := by
  refine Settings.outcome_evaluate_of_prefix ?_ fails.failed begins
  intro name values outcome invokes called fault failed same
  subst same
  cases callsFailWith_callFails name values outcome invokes called _ failed with
  | ordinary ordinary => exact ordinary character position rfl
  | host reported => exact fails.own _ _ reported
  | body _ inner =>
      obtain ⟨cause, wrapped, -⟩ := exists_of_evaluateWithin_eq_error inner
      exact nomatch wrapped

/--
An unexpected character is reported by a text that is evaluated on the way, with this text
innermost, unless a function of the host reports it.
-/
theorem exists_nests_of_evaluateWithin {fault : Fault}
    (failed : scope.evaluateWithin engine levels text = .error fault)
    (root : fault.root = .unexpectedCharacter character position) :
    ∃ below inner, Nests engine scope levels text below inner ∧
      ((∃ name values cause, HostFails engine scope below inner name values cause ∧
          cause.root = .unexpectedCharacter character position) ∨
        FailsAt engine scope below inner character position ∧
          fault.innermost? = some (String.ofList (trim inner)) ∧
            (trim inner)[position]? = some character) := by
  induction levels using Nat.strong_induction_on generalizing text fault with
  | _ levels ih =>
      obtain ⟨cause, rfl, ⟨token, member, rfl⟩ | fails⟩ := exists_of_evaluateWithin_eq_error failed
      · obtain ⟨rfl, rfl⟩ := Fault.unexpectedCharacter.inj root
        refine ⟨levels, text, .here levels text, ?_⟩
        by_cases host : ∃ name values, HostFails engine scope levels text name values token.blame
        · obtain ⟨name, values, fails⟩ := host
          exact .inl ⟨name, values, token.blame, fails, rfl⟩
        · have own (name : String) (values : List Decimal) :
              ¬ HostFails engine scope levels text name values token.blame :=
            fun fails => host ⟨name, values, fails⟩
          exact .inr ⟨⟨failed, own⟩, rfl, Token.getElem?_position member⟩
      · cases fails with
        | ordinary ordinary => exact absurd root (ordinary character position)
        | host fails => exact ⟨levels, text, .here levels text, .inl ⟨_, _, cause, fails, root⟩⟩
        | body enters inner =>
            obtain ⟨below, last, nests, reports⟩ := ih _ (Nat.lt_succ_self _) inner root
            refine ⟨below, last, .within enters nests, reports.imp_right ?_⟩
            rintro ⟨fails, innermost, found⟩
            refine ⟨fails, ?_, found⟩
            rw [Fault.innermost?, innermost, Option.getD_some]

end Scope

/--
Positions are reported exactly and depend only on what was read.  Whatever the options, the scope
and the depth are, if an evaluation fails with an unexpected character as the root cause, then the
evaluation of a text that is nested in it raised this: the text is the innermost one around the
fault, and it has the character at the position; or a function of the host that was called failed
so.  Where the evaluation of a text itself raises such a fault, with however many levels left, it
does so however the text goes on: every text that without its margins begins with the same
characters up to this one fails with the same character and position.  An evaluation without a scope
is one in a scope without functions.
-/
theorem evaluate_reports_position (engine : Engine) (scope : Scope) (depth : Nat) :
    (∀ text fault character position,
      (scope.evaluate engine depth text).outcome = .error fault →
      fault.root = .unexpectedCharacter character position →
        ∃ levels inner,
          Scope.Nests engine scope (engine.settings.callLimit - depth) text levels inner ∧
            ((∃ name values cause, Scope.HostFails engine scope levels inner name values cause ∧
                cause.root = .unexpectedCharacter character position) ∨
              Scope.FailsAt engine scope levels inner character position ∧
                fault.innermost? = some (String.ofList (trim inner)) ∧
                  (trim inner)[position]? = some character)) ∧
    (∀ levels text character position,
      Scope.FailsAt engine scope levels text character position →
        ∀ other, (trim text).take (position + 1) <+: trim other →
          scope.evaluateWithin engine levels other =
            .error (.inExpression (String.ofList (trim other))
              (.unexpectedCharacter character position))) ∧
    ∀ text, engine.evaluate text = Scope.evaluate engine ⟨scope.bag, .empty⟩ depth text :=
  ⟨fun _ _ _ _ failed root => Scope.exists_nests_of_evaluateWithin failed root,
    fun _ _ _ _ fails _ begins => fails.evaluateWithin_of_prefix begins, fun _ => rfl⟩

namespace Misplaced

/-- A function `f(x) = x +* 2`, which nobody can call with success. -/
def scope : Scope := Scope.define ⟨.empty, .empty⟩ ⟨"f", ["x"], "x +* 2"⟩

theorem outcome_call : (scope.evaluate {} 0 "1 + f(3)".toList).outcome =
    .error (.inExpression "1 + f(3)"
      (.inExpression "3.0000000000 +* 2" (.unexpectedCharacter '*' 14))) := by
  decide +kernel

/-- The body itself fails, as there are no functions of the host. -/
theorem failsAt : Scope.FailsAt {} scope 63 "3.0000000000 +* 2".toList '*' 14 where
  failed := by decide +kernel
  own _ _ fails := by
    obtain ⟨function, found, -⟩ := fails.failed
    exact nomatch found

end Misplaced

/-- The mistake is reported in the body of the function, and in every body that begins alike. -/
theorem evaluate_reports_position_in_body :
    (∃ levels inner, Scope.Nests {} Misplaced.scope 64 "1 + f(3)".toList levels inner ∧
      ((∃ name values cause, Scope.HostFails {} Misplaced.scope levels inner name values cause ∧
          cause.root = .unexpectedCharacter '*' 14) ∨
        Scope.FailsAt {} Misplaced.scope levels inner '*' 14 ∧
          some "3.0000000000 +* 2" = some (String.ofList (trim inner)) ∧
            (trim inner)[14]? = some '*')) ∧
      Misplaced.scope.evaluateWithin {} 63 "3.0000000000 +* (".toList =
        .error (.inExpression "3.0000000000 +* (" (.unexpectedCharacter '*' 14)) := by
  obtain ⟨located, prefixed, -⟩ := evaluate_reports_position {} Misplaced.scope 0
  refine ⟨located _ _ '*' 14 Misplaced.outcome_call rfl, ?_⟩
  exact prefixed 63 _ '*' 14 Misplaced.failsAt "3.0000000000 +* (".toList (by decide)

namespace ReportingHost

/-- A function that reports a character which nobody has read. -/
def function : Function := fun _ _ => .error (.unexpectedCharacter 'x' 99)

/-- An engine with this function. -/
def engine : Engine := { functions := .single "h" function }

theorem outcome_call : (Scope.evaluate engine ⟨.empty, .empty⟩ 0 "h(1)".toList).outcome =
    .error (.inExpression "h(1)" (.unexpectedCharacter 'x' 99)) := by
  decide +kernel

/-- What a function of the host reports need not stand in the innermost text. -/
theorem not_in_innermost_text :
    ¬ ∀ (engine : Engine) (scope : Scope) (depth : Nat) (text : List Char) (fault : Fault)
      (character : Char) (position : Nat),
      (scope.evaluate engine depth text).outcome = .error fault →
        fault.root = .unexpectedCharacter character position →
          ∃ inner, fault.innermost? = some inner ∧ inner.toList[position]? = some character := by
  intro located
  obtain ⟨inner, innermost, stands⟩ := located _ _ _ _ _ 'x' 99 outcome_call rfl
  obtain rfl := Option.some.inj innermost
  exact absurd stands (by decide)

end ReportingHost

end Reckoner
