import Reckoner.Proofs.Limits
import Reckoner.Proofs.Margins

/-!
# Definitions at the front of a block

A function is looked up when it is called, so functions that are added do no harm where a
calculation succeeds: every call that has a value keeps it, by induction on the levels that are left
(`Scope.Extends.call`), and so does every run of statements (`Scope.Extends.run`).  Hence a
definition may be moved to the front of its block, if no statement before it defines the name and
the host has no function of this name, which the definition would hide (`calculate_hoisted`).  The
block has another text then, which a function of the host could see.
-/

namespace Reckoner

/-! ## More functions -/

/-- Whether every call that has a value in one lookup has it in another one. -/
def Lookup.Extends (lookup larger : Lookup) : Prop :=
  ∀ name values result, lookup.outcome? name values = some (.ok result) →
    larger.outcome? name values = some (.ok result)

namespace Tree

variable {settings other : Settings} {lookup larger : Lookup}

mutual

/-- A tree with a value has the same value where more functions are known. -/
theorem evaluate_of_extends (precision : settings.calculation = other.calculation)
    (more : lookup.Extends larger) : (tree : Tree) → {value : Decimal} →
    (tree.evaluate settings lookup).outcome = .ok value →
    (tree.evaluate other larger).outcome = .ok value
  | number text, _, evaluated => by
      rw [outcome_evaluate_number] at evaluated ⊢
      rw [← precision, evaluated]
  | unreadable fault, _, evaluated => by
      rw [outcome_evaluate_unreadable] at evaluated
      exact nomatch evaluated
  | call name arguments, value, evaluated => by
      rw [outcome_evaluate_call, Lookup.outcomes] at evaluated
      cases found : lookup name with
      | none =>
          rw [found] at evaluated
          exact nomatch evaluated
      | some callee =>
          rw [found] at evaluated
          obtain ⟨values, all, called⟩ := exists_of_bind_eq_ok evaluated
          have known : lookup.outcome? name values = some (.ok value) := by
            rw [Lookup.outcome?, found, Option.map_some]
            exact congrArg some called
          obtain ⟨second, secondFound, same⟩ :=
            Option.map_eq_some_iff.mp (more name values value known)
          rw [outcome_evaluate_call, Lookup.outcomes, secondFound]
          dsimp only [Option.map_some]
          rw [evaluateAll_of_extends precision more arguments all]
          exact same
  | group inner, _, evaluated => by
      rw [outcome_evaluate_group] at evaluated ⊢
      exact evaluate_of_extends precision more inner evaluated
  | plus operand, _, evaluated => by
      rw [outcome_evaluate_plus] at evaluated ⊢
      exact evaluate_of_extends precision more operand evaluated
  | minus operand, _, evaluated => by
      rw [outcome_evaluate_minus] at evaluated ⊢
      obtain ⟨inner, found, negated⟩ := exists_of_bind_eq_ok evaluated
      rw [evaluate_of_extends precision more operand found]
      exact negated
  | operation operator left right, _, evaluated => by
      rw [outcome_evaluate_operation] at evaluated ⊢
      obtain ⟨leftValue, first, evaluated⟩ := exists_of_bind_eq_ok evaluated
      obtain ⟨rightValue, second, applied⟩ := exists_of_bind_eq_ok evaluated
      rw [evaluate_of_extends precision more left first, ok_bind,
        evaluate_of_extends precision more right second, ok_bind, ← precision, applied]

theorem evaluateAll_of_extends (precision : settings.calculation = other.calculation)
    (more : lookup.Extends larger) : (trees : List Tree) → {values : List Decimal} →
    (evaluateAll settings lookup trees).outcome = .ok values →
    (evaluateAll other larger trees).outcome = .ok values
  | [], _, evaluated => by
      rw [outcome_evaluateAll_nil] at evaluated ⊢
      exact evaluated
  | tree :: trees, _, evaluated => by
      rw [outcome_evaluateAll_cons] at evaluated ⊢
      obtain ⟨value, first, evaluated⟩ := exists_of_bind_eq_ok evaluated
      obtain ⟨values, later, whole⟩ := exists_of_bind_eq_ok evaluated
      rw [evaluate_of_extends precision more tree first, ok_bind,
        evaluateAll_of_extends precision more trees later]
      exact whole

end

end Tree

/-- A text with a value has the same value where more functions are known. -/
theorem Settings.evaluate_of_extends {settings other : Settings} {lookup larger : Lookup}
    (precision : settings.calculation = other.calculation) (more : lookup.Extends larger)
    {text : List Char} {value : Decimal}
    (evaluated : (settings.evaluate lookup text).outcome = .ok value) :
    (other.evaluate larger text).outcome = .ok value := by
  by_cases visible : trim text = []
  · simpa [Settings.evaluate, visible, Precision.zero, precision] using evaluated
  · rw [outcome_evaluate visible] at evaluated ⊢
    generalize Tree.ofTokens (Token.scan (trim text)) = reading at evaluated ⊢
    cases read : (reading.evaluate settings lookup).outcome with
    | error fault =>
        rw [read] at evaluated
        cases evaluated
    | ok number =>
        rw [read] at evaluated
        obtain rfl := Except.ok.inj evaluated
        obtain ⟨finished, found⟩ := Reading.eq_of_outcome_evaluate read
        have result : reading.result = (reading.value, []) := Prod.ext rfl finished
        rw [Reading.outcome_evaluate_of_result result,
          Tree.evaluate_of_extends precision more reading.value found]
        rfl

/-- The functions of an engine with more local functions, none of which hides one of the host. -/
theorem Engine.lookup_extends {engine : Engine} {locals others : Lookup}
    (more : locals.Extends others)
    (apart : ∀ name, locals name = none → others name = none ∨ engine.functions.find? name = none) :
    (engine.lookup locals).Extends (engine.lookup others) := by
  intro name values result called
  cases builtin : builtin? name with
  | some function =>
      rw [Lookup.outcome?, lookup_of_builtin builtin] at called ⊢
      exact called
  | none =>
      cases found : locals name with
      | some callee =>
          rw [Lookup.outcome?, lookup_of_local builtin found, ← found] at called
          obtain ⟨larger, largerFound, same⟩ :=
            Option.map_eq_some_iff.mp (more name values result called)
          rw [Lookup.outcome?, lookup_of_local builtin largerFound, Option.map_some, same]
      | none =>
          rw [Lookup.outcome?, lookup_of_host builtin found] at called
          obtain unbound | unhosted := apart name found
          · rw [Lookup.outcome?, lookup_of_host builtin unbound]
            exact called
          · rw [unhosted] at called
            exact nomatch called

/-! ## Scopes with more functions -/

/-- Whether a scope differs from another one only by functions that the host does not have. -/
structure Scope.Extends (engine : Engine) (scope larger : Scope) : Prop where
  /-- The variables are the same. -/
  bag : larger.bag = scope.bag
  /-- No function is lost or changed. -/
  functions : ∀ name function, scope.functions.find? name = some function →
    larger.functions.find? name = some function
  /-- A function that is added hides none of the host. -/
  apart : ∀ name, scope.functions.find? name = none →
    larger.functions.find? name = none ∨ engine.functions.find? name = none

namespace Scope.Extends

variable {engine other : Engine} {scope larger : Scope} {result : Decimal}

theorem assign (more : scope.Extends engine larger) (name : String) (value : Decimal) :
    (scope.assign name value).Extends engine (larger.assign name value) where
  bag := by rw [Scope.assign, Scope.assign, more.bag]
  functions := more.functions
  apart := more.apart

theorem define (more : scope.Extends engine larger) (function : LocalFunction) :
    (scope.define function).Extends engine (larger.define function) where
  bag := more.bag
  functions name other found := by
    rw [Scope.define, Bindings.find?_insert] at found ⊢
    split at found
    case isTrue same => rw [if_pos same, found]
    case isFalse different => rw [if_neg different, more.functions name other found]
  apart name unbound := by
    rw [Scope.define, Bindings.find?_insert] at unbound
    split at unbound
    case isTrue => cases unbound
    case isFalse different =>
      rw [Scope.define, Bindings.find?_insert, if_neg different]
      exact more.apart name unbound

/-- The definition of a function that the larger scope already has. -/
theorem define_left (more : scope.Extends engine larger) {function : LocalFunction}
    (defined : larger.functions.find? function.name = some function) :
    (scope.define function).Extends engine larger where
  bag := more.bag
  functions name other found := by
    rw [Scope.define, Bindings.find?_insert] at found
    split at found
    case isTrue same => rw [same, defined, found]
    case isFalse => exact more.functions name other found
  apart name unbound := by
    rw [Scope.define, Bindings.find?_insert] at unbound
    split at unbound
    case isTrue => cases unbound
    case isFalse => exact more.apart name unbound

section Calls

variable (more : scope.Extends engine larger) (like : other.ActsLike engine)

include more like

/-- An expression with a value keeps it where the local functions do. -/
theorem evaluateWithin_of_calls {levels : Nat}
    (calls : ∀ function arguments result,
      (scope.call engine levels function arguments).outcome = .ok result →
        (larger.call other levels function arguments).outcome = .ok result)
    {text : List Char} (evaluated : scope.evaluateWithin engine levels text = .ok result) :
    larger.evaluateWithin other levels text = .ok result := by
  rw [evaluateWithin, like.lookup_eq]
  refine Settings.evaluate_of_extends like.calculation_eq.symm (Engine.lookup_extends ?_ ?_)
    evaluated
  · intro name values result called
    obtain ⟨callee, found, same⟩ := Option.map_eq_some_iff.mp called
    obtain ⟨function, defined, rfl⟩ := Option.map_eq_some_iff.mp found
    rw [Lookup.outcome?, callees, more.functions name function defined, Option.map_some,
      Option.map_some, calls function values result same]
  · intro name unbound
    rw [callees, Option.map_eq_none_iff] at unbound ⊢
    exact more.apart name unbound

/-- A call with a value keeps it where more functions are defined. -/
theorem call {levels : Nat} {function : LocalFunction} {arguments : List Decimal}
    (called : (scope.call engine levels function arguments).outcome = .ok result) :
    (larger.call other levels function arguments).outcome = .ok result := by
  induction levels generalizing function arguments result with
  | zero =>
      obtain ⟨below, _, levels, -⟩ := exists_of_call_eq_ok called
      exact nomatch levels
  | succ levels ih =>
      obtain ⟨below, resolved, same, arity, body, inner⟩ := exists_of_call_eq_ok called
      obtain rfl := Nat.succ.inj same
      have bindings : larger.bindings function arguments = scope.bindings function arguments := by
        rw [Scope.bindings, Scope.bindings, more.bag]
      rw [outcome_call_succ, arity, ok_bind, like.resolve_eq, bindings, body, ok_bind]
      exact more.evaluateWithin_of_calls like (fun _ _ _ => ih) inner

/-- The expression of a statement keeps its value where more functions are defined. -/
theorem value {text : String} (evaluated : (scope.value engine text).outcome = .ok result) :
    (larger.value other text).outcome = .ok result := by
  have limit : other.settings.callLimit = engine.settings.callLimit :=
    like.setting_eq (·.callLimit) fun _ _ => rfl
  rw [outcome_value] at evaluated ⊢
  obtain ⟨resolved, resolves, inner⟩ := exists_of_bind_eq_ok evaluated
  rw [like.resolve_eq, more.bag, resolves, ok_bind, limit]
  exact more.evaluateWithin_of_calls like (fun _ _ _ => more.call like) inner

end Calls

/-- A run with a result has the same result where more functions are defined. -/
theorem run (more : scope.Extends engine larger) (like : other.ActsLike engine)
    {texts : List (List Char)} (ran : (scope.run engine texts).outcome = .ok result) :
    (larger.run other texts).outcome = .ok result := by
  induction texts generalizing scope larger with
  | nil => exact nomatch ran
  | cons text texts ih =>
      cases read : Statement.ofText? text with
      | error fault =>
          rw [outcome_run_unreadable read] at ran
          exact nomatch ran
      | ok found =>
          match found with
          | none =>
              rw [outcome_run_blank read] at ran ⊢
              exact ih more ran
          | some (.answer answer) =>
              rw [outcome_run_answer read] at ran ⊢
              exact more.value like ran
          | some (.assignment name assigned) =>
              rw [outcome_run_assignment read] at ran ⊢
              obtain ⟨value, evaluated, later⟩ := exists_of_bind_eq_ok ran
              rw [more.value like evaluated, ok_bind]
              exact ih (more.assign name value) later
          | some (.definition function) =>
              rw [outcome_run_definition read] at ran ⊢
              exact ih (more.define function) ran

/--
A run with a result has the same result without a definition in it, if the function is defined from
the start, and no statement before the definition ends the run or defines the name.
-/
theorem run_without_definition (more : scope.Extends engine larger)
    (like : other.ActsLike engine) {before after : List (List Char)} {text : List Char}
    {function : LocalFunction}
    (read : Statement.ofText? text = .ok (some (.definition function)))
    (noAnswer : ∀ part ∈ before, ∀ answer, Statement.ofText? part ≠ .ok (some (.answer answer)))
    (noOther : ∀ part ∈ before, ∀ earlier,
      Statement.ofText? part = .ok (some (.definition earlier)) → earlier.name ≠ function.name)
    (defined : larger.functions.find? function.name = some function)
    (ran : (scope.run engine (before ++ text :: after)).outcome = .ok result) :
    (larger.run other (before ++ after)).outcome = .ok result := by
  induction before generalizing scope larger with
  | nil =>
      rw [List.nil_append, outcome_run_definition read] at ran
      exact (more.define_left defined).run like ran
  | cons part before ih =>
      rw [List.forall_mem_cons] at noAnswer noOther
      rw [List.cons_append] at ran ⊢
      cases partRead : Statement.ofText? part with
      | error fault =>
          rw [outcome_run_unreadable partRead] at ran
          exact nomatch ran
      | ok found =>
          match found with
          | none =>
              rw [outcome_run_blank partRead] at ran ⊢
              exact ih more noAnswer.2 noOther.2 defined ran
          | some (.answer answer) => exact absurd partRead (noAnswer.1 answer)
          | some (.assignment name assigned) =>
              rw [outcome_run_assignment partRead] at ran ⊢
              obtain ⟨value, evaluated, later⟩ := exists_of_bind_eq_ok ran
              rw [more.value like evaluated, ok_bind]
              exact ih (more.assign name value) noAnswer.2 noOther.2 defined later
          | some (.definition earlier) =>
              rw [outcome_run_definition partRead] at ran ⊢
              have kept : (larger.define earlier).functions.find? function.name =
                  some function := by
                rw [Scope.define, Bindings.find?_insert,
                  if_neg (Ne.symm (noOther.1 earlier partRead)), defined]
              exact ih (more.define earlier) noAnswer.2 noOther.2 kept ran

end Scope.Extends

/-! ## Blocks -/

/-- A block is split into several parts. -/
theorem Engine.two_le_length_of_isBlock {engine : Engine} (block : engine.IsBlock) :
    2 ≤ (splitAtEach ';' engine.settings.expression.toList).length := by
  have joined := intercalate_splitAtEach ';' engine.settings.expression.toList
  match split : splitAtEach ';' engine.settings.expression.toList with
  | [] => exact absurd split (splitAtEach_ne_nil _ _)
  | [only] =>
      have absent : ';' ∉ only := not_mem_splitAtEach (split ▸ List.mem_cons_self)
      rw [split, List.intercalate_singleton] at joined
      exact absurd (joined ▸ block) absent
  | first :: second :: later => exact Nat.le_add_left 2 later.length

/-- The text of a block with the given parts. -/
def blockText (parts : List (List Char)) : String := String.ofList ([';'].intercalate parts)

/-- A block with a definition moved to the front has the result of the block. -/
theorem Engine.ActsLike.outcome_calculate_hoisted {engine other : Engine}
    (like : other.ActsLike engine) (block : engine.IsBlock) (bag : Bag)
    {before after : List (List Char)} {text : List Char} {function : LocalFunction}
    (parts : splitAtEach ';' engine.settings.expression.toList = before ++ text :: after)
    (hoisted : other.settings.expression = blockText (text :: (before ++ after)))
    (read : Statement.ofText? text = .ok (some (.definition function)))
    (noAnswer : ∀ part ∈ before, ∀ answer, Statement.ofText? part ≠ .ok (some (.answer answer)))
    (noOther : ∀ part ∈ before, ∀ earlier,
      Statement.ofText? part = .ok (some (.definition earlier)) → earlier.name ≠ function.name)
    (unhosted : engine.functions.find? function.name = none) {result : Decimal}
    (calculated : (engine.calculate bag).outcome = .ok result) :
    (other.calculate bag).outcome = .ok result := by
  have several : 2 ≤ (text :: (before ++ after)).length := by
    have long := Engine.two_le_length_of_isBlock block
    rw [parts, List.length_append, List.length_cons] at long
    rw [List.length_cons, List.length_append]
    omega
  have absent : ∀ part ∈ text :: (before ++ after), ';' ∉ part := fun part member =>
    not_mem_splitAtEach (parts ▸ (List.perm_middle.mem_iff.mpr member))
  have joined : other.settings.expression.toList =
      [';'].intercalate (text :: (before ++ after)) := by
    rw [hoisted, blockText, String.toList_ofList]
  rw [Engine.outcome_calculate_of_isBlock block, Engine.runBlock, parts] at calculated
  obtain ⟨value, ran, rounded⟩ := exists_of_bind_eq_ok calculated
  -- At the start the hoisted block knows one function more than the block does.
  have more : Scope.Extends engine ⟨engine.admitted bag, .empty⟩
      (Scope.define ⟨engine.admitted bag, .empty⟩ function) := by
    have none (name : String) : (Bindings.empty : Bindings LocalFunction).find? name = none := rfl
    refine ⟨rfl, fun name other found => absurd found (by simp [none]), fun name _ => ?_⟩
    rw [Scope.define, Bindings.find?_insert]
    split
    case isTrue same => exact .inr (same ▸ unhosted)
    case isFalse => exact .inl rfl
  have defined : (Scope.define ⟨engine.admitted bag, .empty⟩ function).functions.find?
      function.name = some function := by
    rw [Scope.define, Bindings.find?_insert, if_pos rfl]
  have target : other.settings.result = engine.settings.result :=
    like.setting_eq (·.result) fun _ _ => rfl
  rw [Engine.outcome_calculate, like.admitted_eq, target,
    Engine.value_of_block _ several absent joined, Scope.outcome_run_definition read,
    more.run_without_definition like read noAnswer noOther defined ran]
  exact rounded

/--
A definition may be moved to the front of its block: if the calculation has a result, it has the
same result then, if the functions of the host still see the block as it was; and so it has if none
of them tells the two texts apart.  It is asked that the definition is carried out, so that no
`return` stands before it, that no statement before it defines a function of the same name, and that
the host has no such function.
-/
theorem calculate_hoisted (engine : Engine) (block : engine.IsBlock) (bag : Bag)
    {before after : List (List Char)} {text : List Char} {function : LocalFunction}
    (parts : splitAtEach ';' engine.settings.expression.toList = before ++ text :: after)
    (read : Statement.ofText? text = .ok (some (.definition function)))
    (noAnswer : ∀ part ∈ before, ∀ answer, Statement.ofText? part ≠ .ok (some (.answer answer)))
    (noOther : ∀ part ∈ before, ∀ earlier,
      Statement.ofText? part = .ok (some (.definition earlier)) → earlier.name ≠ function.name)
    (unhosted : engine.functions.find? function.name = none) {result : Decimal}
    (calculated : (engine.calculate bag).outcome = .ok result) :
    (((engine.showing engine.settings.expression).withExpression
        (blockText (text :: (before ++ after)))).calculate bag).outcome = .ok result ∧
      (engine.HostConfuses (blockText (text :: (before ++ after))) engine.settings.expression →
        ((engine.withExpression (blockText (text :: (before ++ after)))).calculate bag).outcome =
          .ok result) :=
  ⟨(Engine.ActsLike.of_showing engine _ _).outcome_calculate_hoisted block bag parts rfl read
      noAnswer noOther unhosted calculated,
    fun same => (Engine.ActsLike.of_hostConfuses same).outcome_calculate_hoisted block bag parts
      rfl read noAnswer noOther unhosted calculated⟩

/-- A function may be defined before the one that it calls, which calls one of the host. -/
theorem calculate_caller_hoisted :
    ((Nested.engine.withExpression " g(x) = f(x);f(x) = h(x); return g(1);").calculate
      .empty).outcome = .ok Nested.one := by
  have text : blockText [" g(x) = f(x)".toList, "f(x) = h(x)".toList, " return g(1)".toList, []] =
      " g(x) = f(x);f(x) = h(x); return g(1);" := by decide
  have inner {other : Statement}
      (read : Statement.ofText? "f(x) = h(x)".toList = .ok (some other)) :
      other = .definition Nested.inner :=
    Option.some.inj (Except.ok.inj (read.symm.trans Nested.read_inner))
  have parts : splitAtEach ';' Nested.engine.settings.expression.toList =
      ["f(x) = h(x)".toList] ++ " g(x) = f(x)".toList :: [" return g(1)".toList, []] :=
    Nested.split_expression
  rw [← text]
  refine (calculate_hoisted Nested.engine Nested.isBlock .empty parts Nested.read_outer ?_ ?_ rfl
    (Nested.outcome_calculate 62)).2 (Bindings.forall_find?_single rfl)
  · intro part member answer read
    obtain rfl := List.mem_singleton.mp member
    exact nomatch inner read
  · intro part member earlier read
    obtain rfl := List.mem_singleton.mp member
    obtain rfl := Statement.definition.inj (inner read)
    decide

namespace ReadingHost

/-- The function that the block defines. -/
def identity : LocalFunction := ⟨"f", ["x"], "x"⟩

theorem read_definition :
    Statement.ofText? "f(x) = x".toList = .ok (some (.definition identity)) := by rfl

theorem outcome_before :
    ((engine.withExpression "a = 1;f(x) = x;return h();").calculate .empty).outcome =
      .ok (.ofInt 97) := by
  decide +kernel

theorem outcome_after :
    ((engine.withExpression "f(x) = x;a = 1;return h();").calculate .empty).outcome =
      .ok (.ofInt 102) := by
  decide +kernel

/-- A function of the host that reads the expression tells a block from the same block with a
definition moved to the front. -/
theorem hoisting_changes_outcome :
    ¬ ∀ (engine : Engine) (bag : Bag) (before after : List (List Char)) (text : List Char)
      (function : LocalFunction) (result : Decimal), engine.IsBlock →
        splitAtEach ';' engine.settings.expression.toList = before ++ text :: after →
        Statement.ofText? text = .ok (some (.definition function)) →
        (∀ part ∈ before, ∀ answer, Statement.ofText? part ≠ .ok (some (.answer answer))) →
        (∀ part ∈ before ++ after, ∀ other,
          Statement.ofText? part = .ok (some (.definition other)) → other.name ≠ function.name) →
        engine.functions.find? function.name = none →
        (engine.calculate bag).outcome = .ok result →
          ((engine.withExpression (blockText (text :: (before ++ after)))).calculate bag).outcome =
            .ok result := by
  intro hoisted
  have assigned : Statement.ofText? "a = 1".toList = .ok (some (.assignment "a" "1")) := by rfl
  have answered : Statement.ofText? "return h()".toList = .ok (some (.answer "h()")) := by rfl
  have blank : Statement.ofText? [] = .ok none := by rfl
  have moved := hoisted (engine.withExpression "a = 1;f(x) = x;return h();") .empty
    ["a = 1".toList] ["return h()".toList, []] "f(x) = x".toList identity (.ofInt 97) (by decide)
    (by decide) read_definition ?_ ?_ rfl outcome_before
  · exact absurd (Except.ok.inj (outcome_after.symm.trans moved)) (by decide)
  · intro part member answer read
    obtain rfl := List.mem_singleton.mp member
    exact nomatch assigned.symm.trans read
  · intro part member other read
    rw [List.mem_append, List.mem_singleton, List.mem_pair] at member
    rcases member with rfl | rfl | rfl
    · exact nomatch assigned.symm.trans read
    · exact nomatch answered.symm.trans read
    · exact nomatch blank.symm.trans read

end ReadingHost

end Reckoner
