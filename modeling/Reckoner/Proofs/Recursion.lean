import Mathlib.Data.List.Dedup
import Reckoner.Proofs.Likeness
import Reckoner.Proofs.Limits

/-!
# Recursion

A local function that is called again while it is active makes the calculation fail
(`calculate_without_recursion`).  For if a call of it succeeded, it would have called every function
that its body mentions, with fewer levels left; and the body mentions the same functions in every
call, whatever the arguments are.  So in a calculation with a result, no more calls are active at
once than there are functions, and every limit from this number on is as good as any other.
-/

namespace Reckoner

namespace Scope

variable {engine : Engine} {scope : Scope} {levels : Nat} {text : List Char}

/-- Whether the evaluation of a text calls a local function, when `levels` more calls may become
active. -/
structure Enters (engine : Engine) (scope : Scope) (levels : Nat) (text : List Char)
    (name : String) (function : LocalFunction) (values : List Decimal) : Prop where
  /-- There is a call of the name with these values. -/
  invokes :
    engine.settings.Invokes (engine.lookup (scope.callees engine levels)) text name values
  /-- The name is not that of a built-in function. -/
  absent : builtin? name = none
  /-- It is that of a local function. -/
  found : scope.functions.find? name = some function

/--
Whether local functions, outermost first, have been called each in the body of the one before it and
are all active at some moment of the evaluation of a text.
-/
inductive Active (engine : Engine) (scope : Scope) : Nat → List Char → List String → Prop
  /-- No function has been called. -/
  | idle (levels : Nat) (text : List Char) : Active engine scope levels text []
  /-- A function is called. -/
  | called {levels text name function values}
      (enters : Enters engine scope levels text name function values) :
      Active engine scope levels text [name]
  /-- The body of a function that was called is evaluated. -/
  | within {levels text name function values resolved stack}
      (enters : Enters engine scope (levels + 1) text name function values)
      (arity : checkArity function values = .ok ())
      (body : (engine.settings.resolve (scope.bindings function values)
        function.body.toList).outcome = .ok resolved)
      (inner : Active engine scope levels resolved stack) :
      Active engine scope (levels + 1) text (name :: stack)

/-- A local function that is called by a text with a value has one itself, and so has its body. -/
theorem Enters.exists_of_ok {name : String} {function : LocalFunction} {values : List Decimal}
    (enters : Enters engine scope levels text name function values) {value : Decimal}
    (evaluated : scope.evaluateWithin engine levels text = .ok value) :
    ∃ below resolved result, levels = below + 1 ∧ checkArity function values = .ok () ∧
      (engine.settings.resolve (scope.bindings function values) function.body.toList).outcome =
          .ok resolved ∧
        scope.evaluateWithin engine below resolved = .ok result ∧
          (scope.call engine levels function values).outcome = .ok result := by
  have callee : scope.callees engine levels name = some (scope.call engine levels function) := by
    rw [callees, enters.found, Option.map_some]
  have found : engine.lookup (scope.callees engine levels) name =
      some (scope.call engine levels function) := Engine.lookup_of_local enters.absent callee
  obtain ⟨result, called⟩ := enters.invokes.exists_of_ok (by rw [found]; rfl) evaluated
  rw [Lookup.outcome?, found, Option.map_some] at called
  replace called := Option.some.inj called
  obtain ⟨below, resolved, rfl, arity, body, inner⟩ := exists_of_call_eq_ok called
  exact ⟨below, resolved, result, rfl, arity, body, inner, called⟩

/-- The arguments of a call that is not refused are as many as the parameters. -/
theorem length_of_checkArity {function : LocalFunction} {arguments : List Decimal}
    (arity : checkArity function arguments = .ok ()) :
    arguments.length = function.parameters.length := by
  unfold checkArity at arity
  split at arity
  · assumption
  · exact nomatch arity

/-! ## Cycles -/

/-- Whether a name is that of a local function. -/
structure IsLocal (scope : Scope) (name : String) : Prop where
  /-- It is not that of a built-in function. -/
  absent : builtin? name = none
  /-- There is such a function. -/
  defined : (scope.functions.find? name).isSome = true

/-- Whether the body of a local function mentions another one, with some arguments. -/
def Mentions (engine : Engine) (scope : Scope) (name other : String) : Prop :=
  scope.IsLocal other ∧ ∃ function arguments resolved,
    scope.functions.find? name = some function ∧
      arguments.length = function.parameters.length ∧
        (engine.settings.resolve (scope.bindings function arguments)
            function.body.toList).outcome = .ok resolved ∧
          other.toList ∈ mentions false resolved

/-- Whether some call of a local function succeeds. -/
def Succeeds (engine : Engine) (scope : Scope) (levels : Nat) (name : String) : Prop :=
  ∃ function values result, scope.functions.find? name = some function ∧
    (scope.call engine levels function values).outcome = .ok result

variable {name other : String}

/-- A text with a value calls each local function that it mentions, and the call succeeds. -/
theorem IsLocal.succeeds (isLocal : scope.IsLocal name) {value : Decimal}
    (evaluated : scope.evaluateWithin engine levels text = .ok value)
    (mentioned : name.toList ∈ mentions false text) :
    ∃ function values, Enters engine scope levels text name function values ∧
      scope.Succeeds engine levels name := by
  obtain ⟨function, found⟩ := Option.isSome_iff_exists.mp isLocal.defined
  obtain ⟨values, invokes⟩ := (Settings.mem_mentions_iff evaluated name).mp mentioned
  have enters : Enters engine scope levels text name function values :=
    ⟨invokes, isLocal.absent, found⟩
  obtain ⟨_, _, result, -, -, -, -, called⟩ := enters.exists_of_ok evaluated
  exact ⟨function, values, enters, function, values, result, found, called⟩

/-- What a function that succeeds mentions succeeds with fewer levels. -/
theorem Succeeds.below (succeeds : scope.Succeeds engine levels name)
    (mentioned : scope.Mentions engine name other) :
    ∃ below < levels, scope.Succeeds engine below other := by
  obtain ⟨function, values, result, found, called⟩ := succeeds
  obtain ⟨isLocal, second, arguments, mention, same, length, resolves, member⟩ := mentioned
  obtain rfl := Option.some.inj (found.symm.trans same)
  obtain ⟨below, body, rfl, arity, resolved, evaluated⟩ := exists_of_call_eq_ok called
  rw [← mentions_body (length_of_checkArity arity) length resolved resolves] at member
  obtain ⟨_, _, -, inner⟩ := isLocal.succeeds evaluated member
  exact ⟨below, Nat.lt_succ_self below, inner⟩

theorem Succeeds.below_of_transGen (succeeds : scope.Succeeds engine levels name)
    (path : Relation.TransGen (scope.Mentions engine) name other) :
    ∃ below < levels, scope.Succeeds engine below other := by
  induction path with
  | single mentioned => exact succeeds.below mentioned
  | tail _ mentioned ih =>
      obtain ⟨middle, less, inner⟩ := ih
      obtain ⟨below, lower, last⟩ := inner.below mentioned
      exact ⟨below, lower.trans less, last⟩

/-- No function succeeds that leads back to itself, since the levels would run out. -/
theorem not_succeeds_of_cycle (cycle : Relation.TransGen (scope.Mentions engine) name name)
    (levels : Nat) : ¬ scope.Succeeds engine levels name := by
  induction levels using Nat.strong_induction_on with
  | _ levels ih =>
      intro succeeds
      obtain ⟨below, less, again⟩ := succeeds.below_of_transGen cycle
      exact ih below less again

/-! ## Active calls -/

/-- The functions that are active mention each other in turn, if the text has a value, and every one
of them succeeds. -/
theorem Active.isChain {stack : List String} (active : scope.Active engine levels text stack)
    {value : Decimal} (evaluated : scope.evaluateWithin engine levels text = .ok value) :
    stack.IsChain (scope.Mentions engine) ∧
      (∀ name ∈ stack, scope.IsLocal name ∧ ∃ levels, scope.Succeeds engine levels name) ∧
        ∀ name ∈ stack.head?, name.toList ∈ mentions false text := by
  have entered {levels : Nat} {text : List Char} {value : Decimal} {name : String}
      {function : LocalFunction} {values : List Decimal}
      (enters : Enters engine scope levels text name function values)
      (evaluated : scope.evaluateWithin engine levels text = .ok value) :
      (scope.IsLocal name ∧ ∃ levels, scope.Succeeds engine levels name) ∧
        name.toList ∈ mentions false text := by
    obtain ⟨_, _, result, -, -, -, -, called⟩ := enters.exists_of_ok evaluated
    exact ⟨⟨⟨enters.absent, by rw [enters.found]; rfl⟩, levels, function, values, result,
      enters.found, called⟩, (Settings.mem_mentions_iff evaluated name).mpr ⟨_, enters.invokes⟩⟩
  induction active generalizing value with
  | idle => exact ⟨.nil, by simp, by simp⟩
  | called enters =>
      obtain ⟨facts, mentioned⟩ := entered enters evaluated
      exact ⟨.singleton _, by simpa using facts, by simpa using mentioned⟩
  | @within levels text name function values resolved stack enters arity body inner ih =>
      obtain ⟨facts, mentioned⟩ := entered enters evaluated
      obtain ⟨below, other, result, same, -, otherBody, bodyValue, -⟩ :=
        enters.exists_of_ok evaluated
      obtain rfl := Nat.succ.inj same
      obtain rfl := Except.ok.inj (body.symm.trans otherBody)
      obtain ⟨chain, members, first⟩ := ih bodyValue
      refine ⟨List.isChain_cons.mpr ⟨fun next head => ?_, chain⟩, ?_, by simpa using mentioned⟩
      · exact ⟨(members next (List.mem_of_mem_head? head)).1, function, values, resolved,
          enters.found, length_of_checkArity arity, body, first next head⟩
      · exact List.forall_mem_cons.mpr ⟨facts, members⟩

/-- No function is active twice, if the text has a value. -/
theorem Active.nodup {stack : List String} (active : scope.Active engine levels text stack)
    {value : Decimal} (evaluated : scope.evaluateWithin engine levels text = .ok value) :
    stack.Nodup := by
  obtain ⟨chain, members, -⟩ := active.isChain evaluated
  have pairs : stack.Pairwise (Relation.TransGen (scope.Mentions engine)) :=
    (chain.imp fun _ _ => Relation.TransGen.single).pairwise
  refine pairs.imp_of_mem fun {first second} member _ path => ?_
  rintro rfl
  obtain ⟨-, levels, succeeds⟩ := members first member
  exact not_succeeds_of_cycle path levels succeeds

end Scope

/-! ## Lower limits -/

/-- The same names stand for functions under every limit. -/
theorem Engine.sameNames_lookup (engine : Engine) {locals others : Lookup}
    (same : locals.SameNames others) (low high : Nat) :
    ((engine.limited high).lookup locals).SameNames ((engine.limited low).lookup others) := by
  intro name
  have known := same name
  unfold lookup
  rw [functions_limited, functions_limited]
  cases builtin? name with
  | some function => rfl
  | none =>
      cases first : locals name with
      | none =>
          rw [first] at known
          rw [Option.isNone_iff_eq_none.mp (Option.isSome_eq_false_iff.mp known.symm)]
          cases engine.functions.find? name <;> rfl
      | some callee =>
          rw [first] at known
          obtain ⟨second, found⟩ := Option.isSome_iff_exists.mp known.symm
          rw [found]
          rfl

namespace Scope

variable {engine : Engine} {low high levels more : Nat} {text : List Char}

/-- With other levels left, and under another limit, a text has the same outcome if the local
functions that it calls have. -/
theorem outcome_evaluate_congr (ignoring : engine.HostIgnoresLimit) (scope : Scope)
    (same : ∀ name function values,
      Enters (engine.limited high) scope more text name function values →
        (scope.call (engine.limited high) more function values).outcome =
          (scope.call (engine.limited low) levels function values).outcome) :
    scope.evaluateWithin (engine.limited high) more text =
      scope.evaluateWithin (engine.limited low) levels text := by
  have names : (scope.callees (engine.limited high) more).SameNames
      (scope.callees (engine.limited low) levels) := fun name => by
    rw [callees, callees, Option.isSome_map, Option.isSome_map]
  refine Settings.outcome_evaluate_congr (by rfl) (engine.sameNames_lookup names low high)
    fun name values invokes => ?_
  have shared {function : Function} (ignores : function.IgnoresLimit) :
      ((engine.limited high).callee function values).outcome =
        ((engine.limited low).callee function values).outcome := by
    rw [Engine.outcome_callee_limited ignores, Engine.outcome_callee_limited ignores]
  cases builtin : builtin? name with
  | some function =>
      rw [Lookup.outcome?, Lookup.outcome?, Engine.lookup_of_builtin builtin,
        Engine.lookup_of_builtin builtin]
      exact congrArg some (shared (Builtin.ignoresLimit builtin))
  | none =>
      cases found : scope.functions.find? name with
      | some function =>
          have callee (engine : Engine) (levels : Nat) : scope.callees engine levels name =
              some (scope.call engine levels function) := by rw [callees, found, Option.map_some]
          rw [Lookup.outcome?, Lookup.outcome?, Engine.lookup_of_local builtin (callee _ _),
            Engine.lookup_of_local builtin (callee _ _)]
          exact congrArg some (same name function values ⟨invokes, builtin, found⟩)
      | none =>
          have unbound (engine : Engine) (levels : Nat) : scope.callees engine levels name =
              none := by rw [callees, found, Option.map_none]
          rw [Lookup.outcome?, Lookup.outcome?, Engine.lookup_of_host builtin (unbound _ _),
            Engine.lookup_of_host builtin (unbound _ _), Engine.functions_limited,
            Engine.functions_limited]
          cases host : engine.functions.find? name with
          | none => rfl
          | some function => exact congrArg some (shared (ignoring name function host))

/--
A text that has a value has it with as many levels as there are ever calls active, whatever the
limits are that a refused call would report.
-/
theorem evaluate_of_length_le (ignoring : engine.HostIgnoresLimit) (scope : Scope)
    (short : ∀ stack, scope.Active (engine.limited high) more text stack → stack.length ≤ levels)
    {value : Decimal}
    (evaluated : scope.evaluateWithin (engine.limited high) more text = .ok value) :
    scope.evaluateWithin (engine.limited low) levels text = .ok value := by
  induction levels generalizing more text value with
  | zero =>
      rw [← evaluated]
      refine (outcome_evaluate_congr ignoring scope fun name function values enters => ?_).symm
      exact absurd (short [name] (.called enters)) (by simp)
  | succ levels ih =>
      rw [← evaluated]
      refine (outcome_evaluate_congr ignoring scope fun name function values enters => ?_).symm
      obtain ⟨below, resolved, result, rfl, arity, body, inner, called⟩ :=
        enters.exists_of_ok evaluated
      have lower := ih (fun stack active =>
        Nat.le_of_succ_le_succ (short (name :: stack) (.within enters arity body active))) inner
      have sameBody : ((engine.limited low).settings.resolve (scope.bindings function values)
          function.body.toList).outcome = .ok resolved := body
      rw [called, outcome_call_succ, arity, ok_bind, sameBody, ok_bind]
      exact lower.symm

end Scope

/-! ## Blocks -/

/-- The expression that a statement evaluates. -/
def Statement.expression? : Statement → Option String
  | answer expression => some expression
  | assignment _ expression => some expression
  | definition _ => none

/-- The names of the functions that statements define, up to a `return`. -/
def definedNames : List (List Char) → List String
  | [] => []
  | text :: texts =>
    match Statement.ofText? text with
    | .ok (some (.answer _)) => []
    | .ok (some (.definition function)) => function.name :: definedNames texts
    | .ok _ => definedNames texts
    | .error _ => []

namespace Engine

variable {engine : Engine} {bag : Bag}

/-- The names of the functions that the engine's block defines. -/
def definedNames (engine : Engine) : List String :=
  Reckoner.definedNames (splitAtEach ';' engine.settings.expression.toList)

/-- How many different names of functions the engine's block defines. -/
def definitionCount (engine : Engine) : Nat := engine.definedNames.dedup.length

/-- Whether local functions are active inside each other at some moment of a calculation. -/
inductive Active (engine : Engine) (bag : Bag) (stack : List String) : Prop
  /-- In the expression of a statement that the calculation gets to. -/
  | intro {history scope text texts statement expression resolved}
      (reaches : engine.Reaches bag history scope (text :: texts))
      (read : Statement.ofText? text = .ok (some statement))
      (holds : statement.expression? = some expression)
      (resolves : (engine.settings.resolve scope.bag expression.toList).outcome = .ok resolved)
      (active : scope.Active engine engine.settings.callLimit resolved stack)

/-- Every function that can be called is defined by the block. -/
theorem Reaches.definedNames_subset {history : History} {scope : Scope}
    {texts : List (List Char)} (reaches : engine.Reaches bag history scope texts) :
    Reckoner.definedNames texts ⊆ engine.definedNames ∧
      ∀ name, (scope.functions.find? name).isSome = true → name ∈ engine.definedNames := by
  induction reaches with
  | start => exact ⟨List.Subset.refl _, fun name found => nomatch found⟩
  | blank reaches read ih =>
      rw [Reckoner.definedNames, read] at ih
      exact ih
  | assigned reaches read evaluated ih =>
      rw [Reckoner.definedNames, read] at ih
      exact ih
  | @defined history scope text texts function reaches read ih =>
      rw [Reckoner.definedNames, read] at ih
      obtain ⟨later, known⟩ := ih
      rw [List.cons_subset] at later
      refine ⟨later.2, fun name found => ?_⟩
      rw [Scope.define, Bindings.find?_insert] at found
      split at found
      case isTrue same => exact same ▸ later.1
      case isFalse => exact known name found

/-- Every expression that a calculation with a result gets to has a value. -/
theorem Reaches.exists_value {history : History} {scope : Scope}
    {text : List Char} {texts : List (List Char)}
    (reaches : engine.Reaches bag history scope (text :: texts)) {result : Decimal}
    (ran : (engine.runBlock bag).outcome = .ok result) {statement : Statement}
    (read : Statement.ofText? text = .ok (some statement)) {expression : String}
    (holds : statement.expression? = some expression) :
    ∃ value, (scope.value engine expression).outcome = .ok value := by
  have rest := reaches.outcome_run.trans ran
  cases statement with
  | answer other =>
      obtain rfl := Option.some.inj holds
      rw [Scope.outcome_run_answer read] at rest
      exact ⟨result, rest⟩
  | assignment name other =>
      obtain rfl := Option.some.inj holds
      rw [Scope.outcome_run_assignment read] at rest
      obtain ⟨value, evaluated, -⟩ := exists_of_bind_eq_ok rest
      exact ⟨value, evaluated⟩
  | definition function => exact nomatch holds

/-- In a calculation with a result no function is active twice, and so no more of them than there
are. -/
theorem Active.nodup {stack : List String} (active : engine.Active bag stack) {result : Decimal}
    (ran : (engine.runBlock bag).outcome = .ok result) :
    stack.Nodup ∧ stack.length ≤ engine.definitionCount := by
  obtain ⟨reaches, read, holds, resolves, inner⟩ := active
  obtain ⟨value, evaluated⟩ := reaches.exists_value ran read holds
  rw [Scope.outcome_value, resolves, ok_bind] at evaluated
  have distinct := inner.nodup evaluated
  have members := (inner.isChain evaluated).2.1
  have known : stack ⊆ engine.definedNames.dedup := fun name member =>
    List.mem_dedup.mpr (reaches.definedNames_subset.2 name (members name member).1.defined)
  exact ⟨distinct, (List.subperm_of_subset distinct known).length_le⟩

section Limits

variable {low high : Nat} {history : History} {scope : Scope} {result : Decimal}

/-- The number of definitions is enough as a limit for an expression. -/
theorem Reaches.value_of_le (ignoring : engine.HostIgnoresLimit)
    (enough : engine.definitionCount ≤ low) {text : List Char} {texts : List (List Char)}
    (reaches : (engine.limited high).Reaches bag history scope (text :: texts))
    (ran : ((engine.limited high).runBlock bag).outcome = .ok result) {statement : Statement}
    (read : Statement.ofText? text = .ok (some statement)) {expression : String}
    (holds : statement.expression? = some expression) {value : Decimal}
    (evaluated : (scope.value (engine.limited high) expression).outcome = .ok value) :
    (scope.value (engine.limited low) expression).outcome = .ok value := by
  rw [Scope.outcome_value] at evaluated ⊢
  obtain ⟨resolved, resolves, inner⟩ := exists_of_bind_eq_ok evaluated
  have same : ((engine.limited low).settings.resolve scope.bag expression.toList).outcome =
      .ok resolved := resolves
  rw [same, ok_bind]
  refine scope.evaluate_of_length_le ignoring (fun stack active => ?_) inner
  exact ((Active.intro reaches read holds resolves active).nodup ran).2.trans enough

/-- The number of definitions is enough as a limit for the rest of a run. -/
theorem Reaches.run_of_le (ignoring : engine.HostIgnoresLimit)
    (enough : engine.definitionCount ≤ low) {texts : List (List Char)}
    (reaches : (engine.limited high).Reaches bag history scope texts)
    (ran : ((engine.limited high).runBlock bag).outcome = .ok result) :
    (scope.run (engine.limited low) texts).outcome = .ok result := by
  have rest := reaches.outcome_run.trans ran
  induction texts generalizing history scope with
  | nil => exact nomatch rest
  | cons text texts ih =>
      cases read : Statement.ofText? text with
      | error fault =>
          rw [Scope.outcome_run_unreadable read] at rest
          exact nomatch rest
      | ok found =>
          match found with
          | none =>
              rw [Scope.outcome_run_blank read] at rest ⊢
              exact ih (reaches.blank read) rest
          | some (.answer expression) =>
              rw [Scope.outcome_run_answer read] at rest ⊢
              exact reaches.value_of_le ignoring enough ran read rfl rest
          | some (.assignment name expression) =>
              rw [Scope.outcome_run_assignment read] at rest ⊢
              obtain ⟨value, evaluated, later⟩ := exists_of_bind_eq_ok rest
              rw [reaches.value_of_le ignoring enough ran read rfl evaluated, ok_bind]
              exact ih (reaches.assigned read evaluated) later
          | some (.definition function) =>
              rw [Scope.outcome_run_definition read] at rest ⊢
              exact ih (reaches.defined read) rest

/-- The number of definitions is enough as a limit for a calculation. -/
theorem calculate_of_definitionCount_le (block : engine.IsBlock)
    (ignoring : engine.HostIgnoresLimit) (enough : engine.definitionCount ≤ low)
    (calculated : ((engine.limited high).calculate bag).outcome = .ok result) :
    ((engine.limited low).calculate bag).outcome = .ok result := by
  have both (limit : Nat) : ((engine.limited limit).calculate bag).outcome = (do
      let value ← ((engine.limited limit).runBlock (engine.admitted bag)).outcome
      engine.settings.result.round value) :=
    (engine.limited limit).outcome_calculate_of_isBlock block bag
  rw [both] at calculated ⊢
  obtain ⟨value, ran, rounded⟩ := exists_of_bind_eq_ok calculated
  have started : (engine.limited high).Reaches (engine.admitted bag) _ _ _ := .start
  have lower : ((engine.limited low).runBlock (engine.admitted bag)).outcome = .ok value :=
    started.run_of_le ignoring enough ran
  rw [lower, ok_bind, rounded]

end Limits
end Engine

/--
Recursion never succeeds.  If the calculation of a block has a result, no local function was called
while a call of it was active, so there were never more active calls than functions that the block
defines; and if no function of the host looks at the limit, every two limits that are at least this
number lead to the same results.
-/
theorem calculate_without_recursion (engine : Engine) (block : engine.IsBlock)
    (ignoring : engine.HostIgnoresLimit) (bag : Bag) :
    (∀ result, (engine.calculate bag).outcome = .ok result →
      ∀ stack, engine.Active (engine.admitted bag) stack →
        stack.Nodup ∧ stack.length ≤ engine.definitionCount) ∧
    ∀ low high, engine.definitionCount ≤ low → engine.definitionCount ≤ high →
      ∀ result, ((engine.limited low).calculate bag).outcome = .ok result ↔
        ((engine.limited high).calculate bag).outcome = .ok result := by
  refine ⟨fun result calculated stack active => ?_, fun low high enoughLow enoughHigh result => ?_⟩
  · obtain ⟨value, ran⟩ := Engine.exists_of_calculate block calculated
    exact active.nodup ran
  · exact ⟨Engine.calculate_of_definitionCount_le block ignoring enoughHigh,
      Engine.calculate_of_definitionCount_le block ignoring enoughLow⟩

namespace Nested

theorem definitionCount_eq : engine.definitionCount = 2 := by rfl

/-- At some moment both functions are active, one inside the other. -/
theorem active : engine.Active .empty ["g", "f"] := by
  have outerIsLocal : scope.IsLocal "g" := ⟨by decide +kernel, rfl⟩
  have innerIsLocal : scope.IsLocal "f" := ⟨by decide +kernel, rfl⟩
  have begun : engine.Reaches .empty [] ⟨.empty, .empty⟩
      ["f(x) = h(x)".toList, " g(x) = f(x)".toList, " return g(1)".toList, []] :=
    split_expression ▸ .start
  have value : (scope.value engine "g(1)").outcome = .ok one := outcome_value 62
  have resolved : (engine.settings.resolve scope.bag "g(1)".toList).outcome =
      .ok "g(1)".toList := by rfl
  rw [Scope.outcome_value, resolved, ok_bind] at value
  obtain ⟨function, values, enters, -⟩ := outerIsLocal.succeeds value (by decide)
  obtain ⟨below, body, result, levels, arity, resolves, inner, -⟩ := enters.exists_of_ok value
  have found : scope.functions.find? "g" = some outer := rfl
  obtain rfl := Option.some.inj (found.symm.trans enters.found)
  have other : (engine.settings.resolve (scope.bindings outer [one]) outer.body.toList).outcome =
      .ok "f(1)".toList := by rfl
  have mentioned : "f".toList ∈ mentions false body := by
    rw [Scope.mentions_body (Scope.length_of_checkArity arity) rfl resolves other]
    decide
  obtain ⟨_, _, inside, -⟩ := innerIsLocal.succeeds inner mentioned
  have stack : scope.Active engine (below + 1) "g(1)".toList ["g", "f"] :=
    .within (levels ▸ enters) arity resolves (.called inside)
  exact .intro ((begun.defined read_inner).defined read_outer) read_answer rfl resolved
    (levels ▸ stack)

end Nested

/-- Two functions of a block are active at once, and so two levels are as good as the default. -/
theorem calculate_nested_without_recursion :
    (Nested.engine.Active .empty ["g", "f"] ∧ Nested.engine.definitionCount = 2) ∧
      (∀ stack, Nested.engine.Active .empty stack → stack.Nodup ∧ stack.length ≤ 2) ∧
      ((Nested.engine.limited 64).calculate .empty).outcome = .ok Nested.one := by
  obtain ⟨bounded, limits⟩ := calculate_without_recursion Nested.engine Nested.isBlock
    Nested.hostIgnoresLimit .empty
  have count := Nested.definitionCount_eq
  refine ⟨⟨Nested.active, count⟩, bounded Nested.one (Nested.outcome_calculate 62), ?_⟩
  exact (limits 2 64 count.le (count.le.trans (by decide)) Nested.one).mp
    (Nested.outcome_calculate 0)

end Reckoner
