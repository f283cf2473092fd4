import Reckoner.Proofs.Doubles
import Reckoner.Proofs.Folds
import Reckoner.Proofs.Powers
import Reckoner.Proofs.Representatives

/-!
# Numbers and their representation

What is calculated depends on the numbers of the parameters and not on the scales in which they are
given (`calculate_eq_of_sameNumbers`).  Two runs with bags of the same numbers are compared step by
step: their texts are twins, so their literals are rounded to the same decimals, and from there on
all values are equal.  Only a lone operator works on the parameters themselves; there the operators
respect the numbers, a power too, since the doubles nearest to equal numbers are equal.
-/

namespace Reckoner

/-! ## Outcomes of two runs -/

/-- Whether two outcomes are related as soon as both are values. -/
def Coincide {α β : Type} (related : α → β → Prop) (first : Except Fault α)
    (second : Except Fault β) : Prop :=
  ∀ value other, first = .ok value → second = .ok other → related value other

namespace Coincide

variable {α β γ δ : Type} {related : α → β → Prop} {others : γ → δ → Prop} {first : Except Fault α}
  {second : Except Fault β}

theorem refl (outcome : Except Fault α) : Coincide Eq outcome outcome :=
  fun _ _ found same => Except.ok.inj (found.symm.trans same)

theorem of_ok {value : α} {other : β} (same : related value other) :
    Coincide related (.ok value) (.ok other) := fun _ _ found also =>
  Except.ok.inj found ▸ Except.ok.inj also ▸ same

theorem of_error (fault : Fault) : Coincide related (.error fault) second :=
  fun _ _ found => nomatch found

theorem of_error_right (fault : Fault) : Coincide related first (.error fault) :=
  fun _ _ _ also => nomatch also

theorem bind (coincide : Coincide related first second) {next : α → Except Fault γ}
    {after : β → Except Fault δ}
    (later : ∀ value other, related value other → Coincide others (next value) (after other)) :
    Coincide others (first >>= next) (second >>= after) := by
  intro result image found also
  obtain ⟨value, isFirst, found⟩ := exists_of_bind_eq_ok found
  obtain ⟨other, isSecond, also⟩ := exists_of_bind_eq_ok also
  exact later value other (coincide value other isFirst isSecond) result image found also

/-- The same step after values that are equal. -/
theorem bind_eq {first second : Except Fault α} (coincide : Coincide Eq first second)
    {next : α → Except Fault γ} {after : α → Except Fault δ}
    (later : ∀ value, Coincide others (next value) (after value)) :
    Coincide others (first >>= next) (second >>= after) :=
  coincide.bind fun value _ same => same ▸ later value

theorem mapError (coincide : Coincide related first second) (change another : Fault → Fault) :
    Coincide related (first.mapError change) (second.mapError another) := by
  intro value other found also
  cases first with
  | error fault => exact nomatch found
  | ok _ =>
      cases second with
      | error fault => exact nomatch also
      | ok _ =>
          exact coincide value other (congrArg Except.ok (Except.ok.inj found))
            (congrArg Except.ok (Except.ok.inj also))

/-- Folds coincide if their steps do. -/
theorem foldlM {next : α → γ → Except Fault α} {after : β → δ → Except Fault β}
    (step : ∀ value other element image, related value other → others element image →
      Coincide related (next value element) (after other image))
    {elements : List γ} {images : List δ} (same : List.Forall₂ others elements images)
    {start : α} {begin : β} (starts : related start begin) :
    Coincide related (elements.foldlM next start) (images.foldlM after begin) := by
  induction same generalizing start begin with
  | nil => exact of_ok starts
  | cons first later ih =>
      rw [List.foldlM_cons, List.foldlM_cons]
      exact (step _ _ _ _ starts first).bind fun _ _ => ih

end Coincide

/-- Outcomes that concur coincide. -/
theorem Concur.coincide {α β : Type} {related : α → β → Prop} {first : Except Fault α}
    {second : Except Fault β} (concur : Concur related first second) :
    Coincide related first second := by
  rintro value other rfl rfl
  obtain ⟨_, _, isFirst, isSecond, same⟩ | ⟨zero, -⟩ :=
    concur (fun _ far => nomatch far) (fun _ far => nomatch far)
  · exact Except.ok.inj isFirst ▸ Except.ok.inj isSecond ▸ same
  · exact nomatch zero

/-! ## Literals -/

/-- Texts that are read as decimals of one number if both are numerals. -/
def SameNumeral (left right : List Char) : Prop :=
  ∀ first second, Decimal.ofNumeral left = .ok first → Decimal.ofNumeral right = .ok second →
    SameNumber first second

theorem Token.Corresponds.sameNumeral {left right : Token}
    (corresponds : Corresponds Twins left right) : Corresponds SameNumeral left right := by
  cases corresponds with
  | number leftFormed rightFormed leftKind rightKind texts =>
      obtain ⟨literal, leftText⟩ := leftFormed.exists_literal leftKind
      obtain ⟨other, rightText⟩ := rightFormed.exists_literal rightKind
      exact .number leftFormed rightFormed leftKind rightKind fun first second =>
        texts.sameNumber (leftText ▸ literal.digits) (rightText ▸ other.digits)
  | other kinds noNumber texts => exact .other kinds noNumber texts

namespace Precision

variable (precision : Precision)

theorem coincide_literal {left right : List Char} (same : SameNumeral left right) :
    Coincide Eq (precision.literal left) (precision.literal right) := by
  rw [literal, literal]
  cases first : Decimal.ofNumeral left with
  | error defect => exact .of_error _
  | ok number =>
      cases second : Decimal.ofNumeral right with
      | error defect => exact .of_error_right _
      | ok other => exact (precision.concur_round (same number other first second)).coincide

end Precision

/-! ## Functions -/

/-- Whether functions of one name have the same result as soon as both have one. -/
def Lookup.Coincide (lookup other : Lookup) : Prop :=
  ∀ name, Option.Rel (fun callee second => ∀ values,
    Reckoner.Coincide Eq (callee values).outcome (second values).outcome) (lookup name) (other name)

/-- Where the local functions coincide, all functions do. -/
theorem Engine.coincide_lookup (engine : Engine) {locals others : Lookup}
    (coincide : locals.Coincide others) :
    (engine.lookup locals).Coincide (engine.lookup others) := by
  have same (function : Function) (values : List Decimal) :
      Coincide Eq (engine.callee function values).outcome (engine.callee function values).outcome :=
    .refl _
  intro name
  cases builtin : builtin? name with
  | some function =>
      rw [lookup_of_builtin builtin, lookup_of_builtin builtin]
      exact .some (same function)
  | none =>
      obtain ⟨left, right⟩ | ⟨callee, other, left, right, called⟩ := rel_cases (coincide name)
      · rw [lookup_of_host builtin left, lookup_of_host builtin right]
        cases engine.functions.find? name with
        | none => exact .none
        | some function => exact .some (same function)
      · rw [lookup_of_local builtin left, lookup_of_local builtin right]
        exact .some called

/-! ## Trees -/

section Trees

variable {settings : Settings} {lookup other : Lookup}

mutual

/-- Trees whose numerals are the same numbers have the same value. -/
theorem Tree.Corresponds.coincide {left right : Tree}
    (corresponds : left.Corresponds SameNumeral right) (calls : lookup.Coincide other) :
    Coincide Eq (left.evaluate settings lookup).outcome
      (right.evaluate settings other).outcome := by
  cases corresponds with
  | number texts =>
      rw [Tree.outcome_evaluate_number, Tree.outcome_evaluate_number]
      exact settings.calculation.coincide_literal texts
  | call name arguments =>
      rw [Tree.outcome_evaluate_call, Tree.outcome_evaluate_call, Lookup.outcomes, Lookup.outcomes]
      obtain ⟨left, right⟩ | ⟨callee, second, left, right, same⟩ := rel_cases (calls name)
      · rw [left, right]
        exact .of_error _
      · rw [left, right]
        exact (arguments.coincide calls).bind_eq same
  | group inner =>
      rw [Tree.outcome_evaluate_group, Tree.outcome_evaluate_group]
      exact inner.coincide calls
  | plus operand =>
      rw [Tree.outcome_evaluate_plus, Tree.outcome_evaluate_plus]
      exact operand.coincide calls
  | minus operand =>
      rw [Tree.outcome_evaluate_minus, Tree.outcome_evaluate_minus]
      exact (operand.coincide calls).bind_eq fun value => .refl _
  | operation operator first second =>
      rw [Tree.outcome_evaluate_operation, Tree.outcome_evaluate_operation]
      exact (first.coincide calls).bind_eq fun leftValue =>
        (second.coincide calls).bind_eq fun rightValue => .refl _
  | unreadable fault problem =>
      rw [Tree.outcome_evaluate_unreadable]
      exact .of_error fault

theorem Tree.AllCorrespond.coincide {lefts rights : List Tree}
    (correspond : Tree.AllCorrespond SameNumeral lefts rights) (calls : lookup.Coincide other) :
    Coincide Eq (Tree.evaluateAll settings lookup lefts).outcome
      (Tree.evaluateAll settings other rights).outcome := by
  cases correspond with
  | nil =>
      rw [Tree.outcome_evaluateAll_nil, Tree.outcome_evaluateAll_nil]
      exact .refl _
  | cons first others =>
      rw [Tree.outcome_evaluateAll_cons, Tree.outcome_evaluateAll_cons]
      exact (first.coincide calls).bind_eq fun value =>
        (others.coincide calls).bind_eq fun values => .refl _

end

/-- Texts of equal numbers have the same value. -/
theorem Settings.coincide_evaluate {left right : List Char} (twins : Twins left right)
    (calls : lookup.Coincide other) :
    Coincide Eq (settings.evaluate lookup left).outcome
      (settings.evaluate other right).outcome := by
  have trimmed := twins.trim
  by_cases blank : trim left = []
  · have otherBlank := trimmed.eq_nil_iff.mp blank
    have zero {lookup : Lookup} {text : List Char} (empty : trim text = []) :
        (settings.evaluate lookup text).outcome = .ok settings.calculation.zero := by
      simp [Settings.evaluate, empty]
    rw [zero blank, zero otherBlank]
    exact .refl _
  · have otherVisible := trimmed.eq_nil_iff.not.mp blank
    rw [Settings.outcome_evaluate blank, Settings.outcome_evaluate otherVisible]
    refine Coincide.mapError ?_ _ _
    obtain ⟨trees, -⟩ := correspond_sum (Token.scan (trim left)) (Token.scan (trim right))
      (trimmed.rows.imp fun _ _ => Token.Corresponds.sameNumeral)
    intro value image found also
    exact trees.coincide calls value image (Reading.eq_of_outcome_evaluate found).2
      (Reading.eq_of_outcome_evaluate also).2

end Trees

/-- A text in which bags of the same numbers replace names has the same value. -/
theorem Bag.Twins.coincide_resolved {first second : Bag} (twins : first.Twins second)
    {settings : Settings} {lookup other : Lookup} (calls : lookup.Coincide other)
    (text : List Char) :
    Coincide Eq
      (do
        let resolved ← (settings.resolve first text).outcome
        (settings.evaluate lookup resolved).outcome)
      (do
        let resolved ← (settings.resolve second text).outcome
        (settings.evaluate other resolved).outcome) :=
  Coincide.bind (fun _ _ => twins.resolve) fun _ _ texts =>
    Settings.coincide_evaluate texts calls

/-! ## Blocks -/

/-- The names that a statement binds to values, now or in a later call. -/
def Statement.bound : Statement → List String
  | answer _ => []
  | assignment name _ => [name]
  | definition function => function.parameters

/-- Scopes with variables of the same numbers and with the same functions. -/
structure Scope.Twins (first second : Scope) : Prop where
  /-- The variables are the same numbers. -/
  bag : first.bag.Twins second.bag
  /-- The same functions are defined. -/
  functions : first.functions = second.functions
  /-- Nothing can stand directly in front of the value of a parameter. -/
  parameters : ∀ name function, first.functions.find? name = some function →
    ∀ parameter ∈ function.parameters, StartsWord parameter.toList

namespace Scope.Twins

variable {first second : Scope}

theorem assign (twins : first.Twins second) {name : String} (starts : StartsWord name.toList)
    (value : Decimal) : Twins (first.assign name value) (second.assign name value) where
  bag := twins.bag.insert starts (some value)
  functions := twins.functions
  parameters := twins.parameters

theorem define (twins : first.Twins second) {function : LocalFunction}
    (starts : ∀ parameter ∈ function.parameters, StartsWord parameter.toList) :
    Twins (first.define function) (second.define function) where
  bag := twins.bag
  functions := congrArg (Bindings.insert · function.name function) twins.functions
  parameters := forall_define twins.parameters starts

theorem bindings (twins : first.Twins second) {function : LocalFunction}
    (starts : ∀ parameter ∈ function.parameters, StartsWord parameter.toList)
    (arguments : List Decimal) :
    Bag.Twins (first.bindings function arguments) (second.bindings function arguments) := by
  refine twins.bag.insertAll fun entry member => ?_
  obtain ⟨⟨parameter, argument⟩, inZip, rfl⟩ := List.mem_map.mp member
  exact starts parameter (List.of_mem_zip inZip).1

/-- The functions of the scopes coincide where their calls do. -/
theorem coincide_callees (twins : first.Twins second) (engine : Engine) {levels : Nat}
    (calls : ∀ function : LocalFunction,
      (∀ parameter ∈ function.parameters, StartsWord parameter.toList) → ∀ arguments,
        Coincide Eq (first.call engine levels function arguments).outcome
          (second.call engine levels function arguments).outcome) :
    (first.callees engine levels).Coincide (second.callees engine levels) := by
  intro name
  rw [callees, callees, ← twins.functions]
  cases found : first.functions.find? name with
  | none => exact .none
  | some function => exact .some (calls function (twins.parameters name function found))

/-- A call of a function with the same arguments has the same result. -/
theorem coincide_call (twins : first.Twins second) (engine : Engine) (levels : Nat)
    {function : LocalFunction}
    (starts : ∀ parameter ∈ function.parameters, StartsWord parameter.toList)
    (arguments : List Decimal) :
    Coincide Eq (first.call engine levels function arguments).outcome
      (second.call engine levels function arguments).outcome := by
  induction levels generalizing function arguments with
  | zero =>
      rw [outcome_call_zero, outcome_call_zero]
      exact .refl _
  | succ levels ih =>
      -- The arguments are equal in both runs, so only the variables around them have twin texts.
      rw [outcome_call_succ, outcome_call_succ]
      exact (Coincide.refl _).bind_eq fun _ =>
        (twins.bindings starts arguments).coincide_resolved
          (engine.coincide_lookup (twins.coincide_callees engine fun _ => ih)) _

/-- An expression of a statement has the same value. -/
theorem coincide_value (twins : first.Twins second) (engine : Engine) (expression : String) :
    Coincide Eq (first.value engine expression).outcome
      (second.value engine expression).outcome := by
  rw [outcome_value, outcome_value]
  exact twins.bag.coincide_resolved (engine.coincide_lookup (twins.coincide_callees engine
    fun _ starts => twins.coincide_call engine _ starts)) _

/-- Statements return the same value. -/
theorem coincide_run (twins : first.Twins second) (engine : Engine) {texts : List (List Char)}
    (starts : ∀ text ∈ texts, ∀ statement, Statement.ofText? text = .ok (some statement) →
      ∀ name ∈ statement.bound, StartsWord name.toList) :
    Coincide Eq (first.run engine texts).outcome (second.run engine texts).outcome := by
  induction texts generalizing first second with
  | nil =>
      rw [run, run]
      exact .of_error .missingReturn
  | cons text texts ih =>
      rw [List.forall_mem_cons] at starts
      cases read : Statement.ofText? text with
      | error fault =>
          rw [outcome_run_unreadable read]
          exact .of_error fault
      | ok found =>
          cases found with
          | none =>
              rw [outcome_run_blank read, outcome_run_blank read]
              exact ih twins starts.2
          | some statement =>
              have bound := starts.1 statement read
              cases statement with
              | answer expression =>
                  rw [outcome_run_answer read, outcome_run_answer read]
                  exact twins.coincide_value engine expression
              | assignment name expression =>
                  -- The variable has one value in both runs, so its name may end in any way.
                  rw [outcome_run_assignment read, outcome_run_assignment read]
                  exact (twins.coincide_value engine expression).bind_eq fun value =>
                    ih (twins.assign (bound name List.mem_cons_self) value) starts.2
              | definition function =>
                  rw [outcome_run_definition read, outcome_run_definition read]
                  exact ih (twins.define bound) starts.2

end Scope.Twins

/-! ## Lone operators -/

/-- Decimals of one number that are the same, or that have scales within the limit. -/
def Interchangeable (first second : Decimal) : Prop :=
  SameNumber first second ∧ (first = second ∨ first.RescalesTo 0 ∧ second.RescalesTo 0)

namespace Decimal

theorem smallInteger?_eq_of_interchangeable {first second : Decimal}
    (same : Interchangeable first second) : first.smallInteger? = second.smallInteger? := by
  obtain ⟨number, rfl | ⟨rescales, otherRescales⟩⟩ := same
  · rfl
  · refine Option.ext fun whole => ?_
    rw [smallInteger?_eq_some_iff rescales, smallInteger?_eq_some_iff otherRescales,
      show first.toRat = second.toRat from number]

theorem coincide_toFloat {first second : Decimal} (same : Interchangeable first second) :
    Coincide Eq first.toFloat second.toFloat := by
  obtain ⟨number, rfl | ⟨rescales, otherRescales⟩⟩ := same
  · exact .refl _
  · exact fun _ _ => toFloat_eq_of_toRat_eq number (shows_of_rescalesTo rescales).1
      (shows_of_rescalesTo otherRescales).1

end Decimal

namespace Precision

variable {precision : Precision}

theorem coincide_ofFloat (value : Float) (what other : String) :
    Coincide Eq (precision.ofFloat value what) (precision.ofFloat value other) := by
  rw [ofFloat, ofFloat]
  cases floatDecimal? value with
  | none => exact .of_error _
  | some number => exact .refl _

/-- A power depends on the numbers. -/
theorem coincide_power {left right first second : Decimal} (bases : Interchangeable left first)
    (exponents : Interchangeable right second) :
    Coincide Eq (precision.power left right) (precision.power first second) := by
  rw [power, power, Decimal.smallInteger?_eq_of_interchangeable exponents]
  cases second.smallInteger? with
  | none =>
      exact (Decimal.coincide_toFloat bases).bind_eq fun base =>
        (Decimal.coincide_toFloat exponents).bind_eq fun exponent => coincide_ofFloat _ _ _
  | some count =>
      have exactly : SameNumber (left.natPower count.natAbs) (first.natPower count.natAbs) := by
        rw [SameNumber, Decimal.toRat_natPower, Decimal.toRat_natPower,
          show left.toRat = first.toRat from bases.1]
      dsimp only
      split
      · exact (precision.concur_divide rfl exactly).coincide
      · exact (precision.concur_round exactly).coincide

end Precision

namespace Operator

/-- An operator that folds the same numbers gives the same number. -/
theorem coincide_combine (operator : Operator) (precision : Precision)
    {numbers others : List Decimal} (same : List.Forall₂ Interchangeable numbers others) :
    Coincide SameNumber (operator.combine precision numbers)
      (operator.combine precision others) := by
  cases same with
  | nil => exact .of_ok rfl
  | cons first later =>
      rw [combine, combine]
      by_cases power : operator = .power
      · -- After the first power the bases are equal, although the bag's scales need not be.
        subst power
        have step (value other element image : Decimal) (bases : Interchangeable value other)
            (exponents : Interchangeable element image) :
            Coincide Interchangeable (Operator.power.apply precision value element)
              (Operator.power.apply precision other image) := by
          intro result second found also
          obtain rfl := Precision.coincide_power bases exponents result second found also
          exact ⟨rfl, .inl rfl⟩
        intro value other found also
        exact (Coincide.foldlM step later first value other found also).1
      · exact Coincide.foldlM (fun _ _ _ _ lefts rights =>
          (operator.concur_apply power precision lefts rights.1).coincide) later first.1

end Operator

/-! ## Calculations -/

namespace Bag

variable {first second : Bag}

/--
Whether two bags have the same names, in the same order, for the same numbers, at whatever scales
within the limit, and for the same nulls.
-/
def SameNumbers (first second : Bag) : Prop :=
  List.Forall₂ (fun entry other => entry.1 = other.1 ∧ SameValue entry.2 other.2) first.entries
    second.entries

/-- Whether every name of a bag begins and ends with a character of a word. -/
def IsDelimited (bag : Bag) : Prop :=
  ∀ name ∈ bag.keys, StartsWord name.toList ∧ EndsWord name.toList

theorem SameNumbers.twins (same : first.SameNumbers second) (delimited : first.IsDelimited) :
    first.Twins second := by
  have named : ∀ entry ∈ first.entries, StartsWord entry.1.toList ∧ EndsWord entry.1.toList :=
    fun entry member => delimited entry.1 (List.mem_map_of_mem member)
  exact ((List.forall₂_and_left _ _).mpr ⟨named, same⟩).imp fun _ _ both =>
    ⟨both.2.1, both.1.1, .inr ⟨both.1.2, both.2.2⟩⟩

/-- The numbers that a lone operator folds. -/
theorem SameNumbers.interchangeable (same : first.SameNumbers second) :
    List.Forall₂ Interchangeable (first.values.map fun value => value.getD .zero)
      (second.values.map fun value => value.getD .zero) := by
  rw [Bindings.values, Bindings.values, List.map_map, List.map_map, List.forall₂_map_left_iff,
    List.forall₂_map_right_iff]
  refine same.imp fun entry other both => ?_
  obtain ⟨left, right⟩ | ⟨number, image, left, right, numbers⟩ := rel_cases both.2
  · rw [Function.comp, Function.comp, left, right]
    exact ⟨rfl, .inl rfl⟩
  · rw [Function.comp, Function.comp, left, right]
    exact ⟨numbers.1, .inr numbers.2⟩

end Bag

namespace Engine

variable {engine : Engine} {first second : Bag}

/-- Whether a statement of the engine's block binds a name. -/
def Introduces (engine : Engine) (name : String) : Prop :=
  engine.IsBlock ∧ ∃ text ∈ splitAtEach ';' engine.settings.expression.toList, ∃ statement,
    Statement.ofText? text = .ok (some statement) ∧ name ∈ statement.bound

/-- The same nulls are dropped. -/
theorem sameNumbers_admitted (engine : Engine) (same : first.SameNumbers second) :
    Bag.SameNumbers (engine.admitted first) (engine.admitted second) := by
  unfold admitted
  split
  case isFalse => exact same
  case isTrue =>
    refine List.rel_filter (fun entry other both => ?_) same
    obtain ⟨left, right⟩ | ⟨number, image, left, right, -⟩ := rel_cases both.2
    · simp [left, right]
    · simp [left, right]

/-- The value before the final rounding is the same number. -/
theorem coincide_value (same : first.SameNumbers second)
    (delimited : Operator.ofExpression? engine.settings.expression.toList = none →
      first.IsDelimited)
    (bound : ∀ name, engine.Introduces name → StartsWord name.toList) :
    Coincide SameNumber (engine.value first).outcome (engine.value second).outcome := by
  have weaken {left right : Except Fault Decimal} (coincide : Coincide Eq left right) :
      Coincide SameNumber left right :=
    fun value other found also => congrArg Decimal.toRat (coincide value other found also)
  by_cases block : engine.IsBlock
  · rw [value_of_isBlock block, value_of_isBlock block]
    have twins := same.twins (delimited (ofExpression?_of_isBlock block))
    have scopes : Scope.Twins ⟨first, .empty⟩ ⟨second, .empty⟩ :=
      ⟨twins, rfl, fun _ _ found => nomatch found⟩
    exact weaken (scopes.coincide_run engine fun text member statement read name inside =>
      bound name ⟨block, text, member, statement, read, inside⟩)
  · cases found : Operator.ofExpression? engine.settings.expression.toList with
    | some operator =>
        have lone (bag : Bag) : (engine.value bag).outcome =
            (operator.fold engine.settings bag).outcome := by rw [value, found]
        rw [lone, lone, Operator.outcome_fold, Operator.outcome_fold]
        exact operator.coincide_combine _ same.interchangeable
    | none =>
        have twins := same.twins (delimited found)
        have calls : Lookup.Coincide (fun _ => none) (fun _ => none) := fun _ => .none
        rw [outcome_value_of_single block found, outcome_value_of_single block found]
        exact weaken (twins.coincide_resolved (engine.coincide_lookup calls) _)

end Engine

/--
A result depends on the numbers of the parameters and not on the scales in which they are given.
Two calculations of one expression, whose bags have the same names for the same numbers, have the
same result if both have one, digit by digit.  The value of a parameter takes the place of its name
as a text; so every name has to begin and end with a character of a word, and the names that a
block binds have to begin with one, or else digits of the expression may come to stand beside the
value.  A lone operator replaces no names, and there the names may be any.
-/
theorem calculate_eq_of_sameNumbers (engine : Engine) {first second : Bag}
    (same : first.SameNumbers second)
    (delimited : Operator.ofExpression? engine.settings.expression.toList = none →
      first.IsDelimited)
    (bound : ∀ name, engine.Introduces name → StartsWord name.toList) {result other : Decimal}
    (calculated : (engine.calculate first).outcome = .ok result)
    (otherCalculated : (engine.calculate second).outcome = .ok other) : result = other := by
  have admitted (noOperator : Operator.ofExpression? engine.settings.expression.toList = none) :
      (engine.admitted first).IsDelimited := fun name member =>
    delimited noOperator name (engine.keys_admitted_subset first member)
  rw [Engine.outcome_calculate] at calculated otherCalculated
  exact (Engine.coincide_value (engine.sameNumbers_admitted same) admitted bound).bind
    (fun value image number => (engine.settings.result.concur_round number).coincide) result other
    calculated otherCalculated

namespace Rescaled

/-- A block that gives a parameter another name. -/
def engine : Engine := { settings := { expression := "y = x; return y;" } }

/-- The bag with a value for the parameter. -/
def bag (value : Decimal) : Bag := ⟨[("x", some value)], by simp⟩

/-- The number 3. -/
def whole : Decimal := ⟨3, 0⟩

/-- The number 3 with two digits after the point. -/
def padded : Decimal := ⟨300, 2⟩

/-- The number 3 at the scale of the calculation. -/
def three : Decimal := ⟨30000000000, 10⟩

theorem sameNumbers : Bag.SameNumbers (bag whole) (bag padded) :=
  .cons ⟨rfl, .some ⟨Decimal.toRat_rescaled whole 2 |>.symm, by decide, by decide⟩⟩ .nil

theorem isDelimited (value : Decimal) : (bag value).IsDelimited := by
  have word : "x".toList.all isWordCharacter = true := by decide +kernel
  intro name member
  obtain rfl := List.mem_singleton.mp member
  exact edges_of_word (List.all_eq_true.mp word)

theorem split_expression : splitAtEach ';' engine.settings.expression.toList =
    ["y = x".toList, " return y".toList, []] := by decide

theorem read_assignment :
    Statement.ofText? "y = x".toList = .ok (some (.assignment "y" "x")) := by rfl

theorem read_answer : Statement.ofText? " return y".toList = .ok (some (.answer "y")) := by rfl

theorem startsWord_of_introduces :
    ∀ name, engine.Introduces name → StartsWord name.toList := by
  rintro name ⟨-, text, member, statement, read, bound⟩
  rw [split_expression] at member
  simp only [List.mem_cons, List.not_mem_nil, or_false] at member
  rcases member with rfl | rfl | rfl
  · obtain rfl := Option.some.inj (Except.ok.inj (read_assignment.symm.trans read))
    obtain rfl := List.mem_singleton.mp bound
    exact (edges_of_word (List.all_eq_true.mp (by decide +kernel))).1
  · obtain rfl := Option.some.inj (Except.ok.inj (read_answer.symm.trans read))
    exact nomatch bound
  · exact nomatch read

theorem outcome_answer (value : Decimal) :
    (Scope.value engine (Scope.assign ⟨bag value, .empty⟩ "y" three) "y").outcome = .ok three := by
  let literal : Literal := ⟨"3.0000000000".toList, by decide, List.all_eq_true.mp (by decide)⟩
  have resolved : (engine.settings.resolve ((bag value).insert "y" (some three))
      "y".toList).outcome = .ok literal.text := by rfl
  have read : engine.settings.calculation.literal literal.text = .ok three := by decide +kernel
  rw [Scope.outcome_value, show (Scope.assign ⟨bag value, .empty⟩ "y" three).bag =
    (bag value).insert "y" (some three) from rfl, resolved, ok_bind, Scope.evaluateWithin,
    literal.outcome_evaluate, read]
  rfl

/-- The block returns a parameter that is written as a literal of the number 3. -/
theorem outcome_calculate {value : Decimal} (literal : Literal)
    (resolved : (engine.settings.resolve (bag value) "x".toList).outcome = .ok literal.text)
    (read : engine.settings.calculation.literal literal.text = .ok three) :
    (engine.calculate (bag value)).outcome = .ok three := by
  have admitted : engine.admitted (bag value) = bag value := rfl
  have block : engine.IsBlock := by decide
  have assigned : (Scope.value engine ⟨bag value, .empty⟩ "x").outcome = .ok three := by
    rw [Scope.outcome_value, resolved, ok_bind, Scope.evaluateWithin, literal.outcome_evaluate,
      read]
    rfl
  rw [Engine.outcome_calculate_of_isBlock block, admitted, Engine.runBlock, split_expression,
    Scope.outcome_run_assignment read_assignment, assigned, ok_bind,
    Scope.outcome_run_answer read_answer, outcome_answer, ok_bind]
  rfl

theorem outcome_calculate_whole : (engine.calculate (bag whole)).outcome = .ok three :=
  outcome_calculate (.ofDigit '3' rfl) rfl rfl

theorem outcome_calculate_padded : (engine.calculate (bag padded)).outcome = .ok three :=
  outcome_calculate ⟨"3.00".toList, by decide, List.all_eq_true.mp (by decide)⟩
    (by decide +kernel) (by decide +kernel)

end Rescaled

/-- A block returns the same for 3 and for 3.00. -/
theorem calculate_eq_of_rescaled :
    ∃ result other, (Rescaled.engine.calculate (Rescaled.bag Rescaled.whole)).outcome =
        .ok result ∧
      (Rescaled.engine.calculate (Rescaled.bag Rescaled.padded)).outcome = .ok other ∧
        result = other :=
  ⟨_, _, Rescaled.outcome_calculate_whole, Rescaled.outcome_calculate_padded,
    calculate_eq_of_sameNumbers Rescaled.engine Rescaled.sameNumbers
      (fun _ => Rescaled.isDelimited Rescaled.whole) Rescaled.startsWord_of_introduces
      Rescaled.outcome_calculate_whole Rescaled.outcome_calculate_padded⟩

namespace PointName

/-- An engine with a decimal fraction. -/
def engine : Engine := { settings := { expression := "5.7" } }

/-- A bag in which the point is a name. -/
def bag (value : Decimal) : Bag := ⟨[(".", some value)], by simp⟩

/-- A literal in which the point is replaced. -/
theorem outcome_calculate {value result : Decimal} (literal : Literal)
    (resolved : (engine.settings.resolve (bag value) "5.7".toList).outcome = .ok literal.text)
    (read : engine.settings.calculation.literal literal.text = .ok result)
    (scale : engine.settings.result.round result = .ok result) :
    (engine.calculate (bag value)).outcome = .ok result := by
  have noBlock : ¬ engine.IsBlock := by decide
  have noOperator : Operator.ofExpression? engine.settings.expression.toList = none := by decide
  have admitted : engine.admitted (bag value) = bag value := rfl
  rw [Engine.outcome_calculate, admitted, Engine.outcome_value_of_single noBlock noOperator,
    show engine.settings.expression = "5.7" from rfl, resolved, ok_bind, literal.outcome_evaluate,
    read]
  exact scale

end PointName

/-- A parameter whose name is a point joins the digits around it, with as many zeros as it has. -/
theorem PointName.not_calculate_eq :
    ¬ ∀ (engine : Engine) (first second : Bag), first.SameNumbers second →
      ∀ result other, (engine.calculate first).outcome = .ok result →
        (engine.calculate second).outcome = .ok other → result = other := by
  intro depends
  have joined : (engine.calculate (bag ⟨3, 0⟩)).outcome = .ok ⟨5370000000000, 10⟩ :=
    outcome_calculate ⟨"537".toList, by decide, List.all_eq_true.mp (by decide)⟩
      (by decide +kernel) (by decide +kernel) (by decide +kernel)
  have pointed : (engine.calculate (bag ⟨30, 1⟩)).outcome = .ok ⟨530700000000, 10⟩ :=
    outcome_calculate ⟨"53.07".toList, by decide, List.all_eq_true.mp (by decide)⟩
      (by decide +kernel) (by decide +kernel) (by decide +kernel)
  have same : Bag.SameNumbers (bag ⟨3, 0⟩) (bag ⟨30, 1⟩) :=
    .cons ⟨rfl, .some ⟨Decimal.toRat_rescaled ⟨3, 0⟩ 1 |>.symm, by decide, by decide⟩⟩ .nil
  exact absurd (depends engine _ _ same _ _ joined pointed) (by decide)

end Reckoner
