import Reckoner.Proofs.Recording
import Reckoner.Proofs.Recursion

/-!
# Lines about calls

Recording changes no outcome, the last line of a calculation is the one about its result, and the
line about a call comes right after the lines of its arguments and of the function that is called
(`calculate_recorded`).

A calculation visits trees: those of its expressions, their parts, and the trees of the bodies of
the local functions that it calls (`Engine.Visits`).  The lines of a tree that is visited stand
together in the record of the whole, so a call that is completed has its line there.  The other way
round, a line about a call belongs to a call that is visited; the proof follows the binds of a run
(`Run.Accounts.bind`), with one case by constructor of the tree and an induction on the levels that
are left.
-/

namespace Reckoner

/-! ## Lines -/

/-- The line about a call that has a result. -/
def callLine (name : String) (values : List Decimal) (result : Decimal) : String :=
  let shown := ", ".intercalate (values.map Decimal.plain)
  s!"Called function '{name}'. Params: [{shown}]. Result: {result.plain}"

/-- The line about the result of a calculation. -/
def resultLine (expression : String) (result : Decimal) : String :=
  s!"Result of '{expression}': {result.plain}"

/-- Whether a line says that a function was called. -/
def IsCallLine (line : String) : Prop := "Called function '".toList <+: line.toList

theorem isCallLine_callLine (name : String) (values : List Decimal) (result : Decimal) :
    IsCallLine (callLine name values result) := by
  unfold callLine
  generalize ", ".intercalate (values.map Decimal.plain) = shown
  simp [IsCallLine, toString]

theorem not_isCallLine_resultLine (expression : String) (result : Decimal) :
    ¬ IsCallLine (resultLine expression result) := by
  simp [IsCallLine, resultLine, toString]

namespace Run

variable {α β : Type}

theorem trace_bind_of_ok {run : Run α} {value : α} (evaluated : run.outcome = .ok value)
    (next : α → Run β) : (run >>= next).trace = run.trace ++ (next value).trace := by
  obtain ⟨trace, outcome⟩ := run
  obtain rfl : outcome = .ok value := evaluated
  rfl

theorem trace_bind_of_error {run : Run α} {fault : Fault} (failed : run.outcome = .error fault)
    (next : α → Run β) : (run >>= next).trace = run.trace := by
  obtain ⟨trace, outcome⟩ := run
  obtain rfl : outcome = .error fault := failed
  rfl

@[simp]
theorem ofExcept_ok_bind (value : α) (next : α → Run β) :
    (ofExcept (.ok value) >>= next) = next value := pure_bind value next

/-- A run begins with the lines of its first step. -/
theorem trace_infix_bind (run : Run α) (next : α → Run β) :
    run.trace <:+: (run >>= next).trace := by
  cases evaluated : run.outcome with
  | error fault => exact (trace_bind_of_error evaluated next).symm ▸ List.infix_rfl
  | ok value =>
      rw [trace_bind_of_ok evaluated]
      exact (List.prefix_append _ _).isInfix

/-! ### Lines about calls in a run -/

/-- Whether every line about a call is acceptable after the lines before it. -/
def Accounts (run : Run α) (accepts : List String → String → Prop) : Prop :=
  ∀ early line late, run.trace = early ++ line :: late → IsCallLine line → accepts early line

namespace Accounts

variable {accepts : List String → String → Prop}

theorem of_silent {run : Run α} (silent : run.trace = []) : run.Accounts accepts := by
  intro early line late split
  simp [silent] at split

theorem pure (value : α) : (Pure.pure value : Run α).Accounts accepts := of_silent rfl

theorem ofExcept (outcome : Except Fault α) : (Run.ofExcept outcome).Accounts accepts :=
  of_silent rfl

theorem mapFault {run : Run α} (accounts : run.Accounts accepts) (change : Fault → Fault) :
    (run.mapFault change).Accounts accepts := accounts

theorem imp {run : Run α} (accounts : run.Accounts accepts)
    {admits : List String → String → Prop}
    (weaker : ∀ early line, accepts early line → admits early line) : run.Accounts admits :=
  fun early line late split isCall => weaker early line (accounts early line late split isCall)

/-- What follows a step comes after the lines of this step. -/
theorem bind {run : Run α} (first : run.Accounts accepts) {next : α → Run β}
    (later : ∀ value, run.outcome = .ok value →
      (next value).Accounts fun early => accepts (run.trace ++ early)) :
    (run >>= next).Accounts accepts := by
  intro early line late split isCall
  cases evaluated : run.outcome with
  | error fault =>
      rw [trace_bind_of_error evaluated] at split
      exact first early line late split isCall
  | ok value =>
      rw [trace_bind_of_ok evaluated] at split
      obtain ⟨rest, rfl, back⟩ | ⟨rest, front, back⟩ := List.append_eq_append_iff.mp split
      · exact later value evaluated rest line late back isCall
      · obtain ⟨rfl, tail⟩ | ⟨others, rfl, tail⟩ := List.cons_eq_append_iff.mp back
        · rw [List.append_nil] at front
          simpa [front] using later value evaluated [] line late tail isCall
        · exact first early line others front isCall

end Accounts
end Run

theorem Settings.accounts_note {accepts : List String → String → Prop} (settings : Settings)
    {line : Unit → String} (accepted : IsCallLine (line ()) → accepts [] (line ())) :
    (settings.note line).Accounts accepts := by
  intro early found late split isCall
  rw [note] at split
  cases tracing : settings.tracing with
  | false => simp [tracing] at split
  | true =>
      have single : [line ()] = early ++ found :: late := by simpa [tracing] using split
      obtain ⟨rfl, same⟩ | ⟨others, -, same⟩ := List.cons_eq_append_iff.mp single
      · obtain rfl := (List.cons.inj same).1
        exact accepted isCall
      · simp at same

/-! ## Trees -/

namespace Tree

variable {settings : Settings} {lookup : Lookup}

/--
Whether a tree is a call that is completed when the tree is evaluated: the arguments have values and
the function has a result.  The lines are those of the arguments and then those of the function, and
one about the call.
-/
inductive Completes (settings : Settings) (lookup : Lookup) : Tree → List String → String → Prop
  | call {name arguments callee values result}
      (found : lookup name = some callee)
      (evaluated : (evaluateAll settings lookup arguments).outcome = .ok values)
      (called : (callee values).outcome = .ok result) :
      Completes settings lookup (.call name arguments)
        ((evaluateAll settings lookup arguments).trace ++ (callee values).trace)
        (callLine name values result)

/-- The record of a call that is completed. -/
theorem Completes.trace_eq {tree : Tree} {lines : List String} {line : String}
    (completes : tree.Completes settings lookup lines line) (tracing : settings.tracing = true) :
    (tree.evaluate settings lookup).trace = lines ++ [line] := by
  obtain ⟨found, evaluated, called⟩ := completes
  rw [evaluate, found]
  dsimp only
  rw [Run.trace_bind_of_ok evaluated, Run.trace_bind_of_ok called]
  simp only [Settings.note, tracing, if_true, List.append_assoc]
  rfl

theorem Completes.isCallLine {tree : Tree} {lines : List String} {line : String}
    (completes : tree.Completes settings lookup lines line) : IsCallLine line := by
  cases completes
  exact isCallLine_callLine _ _ _

/-- The lines of an argument that is evaluated are among those of all arguments. -/
theorem trace_infix_evaluateAll {before after : List Tree} {tree : Tree}
    (earlier : ∀ other ∈ before, other.Evaluates settings lookup) :
    (tree.evaluate settings lookup).trace <:+:
      (evaluateAll settings lookup (before ++ tree :: after)).trace := by
  induction before with
  | nil =>
      rw [List.nil_append, evaluateAll]
      exact Run.trace_infix_bind _ _
  | cons first before ih =>
      obtain ⟨⟨value, evaluated⟩, others⟩ := List.forall_mem_cons.mp earlier
      rw [List.cons_append, evaluateAll]
      have rest := Run.trace_infix_bind (evaluateAll settings lookup (before ++ tree :: after))
        fun values => pure (value :: values)
      refine ((ih others).trans rest).trans ?_
      rw [Run.trace_bind_of_ok evaluated]
      exact (List.suffix_append _ _).isInfix

/-- The lines of the arguments are among those of a call. -/
theorem trace_infix_arguments {name : String} {callee : Callee} (found : lookup name = some callee)
    (arguments : List Tree) :
    (evaluateAll settings lookup arguments).trace <:+:
      ((call name arguments).evaluate settings lookup).trace := by
  rw [evaluate, found]
  exact Run.trace_infix_bind _ _

/-- The lines of a function are among those of a call that gets to it. -/
theorem trace_infix_callee {name : String} {callee : Callee} (found : lookup name = some callee)
    {arguments : List Tree} {values : List Decimal}
    (evaluated : (evaluateAll settings lookup arguments).outcome = .ok values) :
    (callee values).trace <:+: ((call name arguments).evaluate settings lookup).trace := by
  rw [evaluate, found]
  dsimp only
  rw [Run.trace_bind_of_ok evaluated]
  exact (Run.trace_infix_bind _ _).trans (List.suffix_append _ _).isInfix

/-- The tree of a text without its margins. -/
def ofText (text : List Char) : Tree := (ofTokens (Token.scan (trim text))).value

end Tree

/-- The lines of the tree are among those of a reading. -/
theorem Reading.trace_infix_evaluate {settings : Settings} {lookup : Lookup} {bound : Nat}
    (reading : Reading Tree bound) :
    (reading.value.evaluate settings lookup).trace <:+:
      (reading.evaluate settings lookup).trace := by
  rw [evaluate]
  exact Run.trace_infix_bind _ _

/-- The lines of a text's tree are among those of the text. -/
theorem Settings.trace_infix_evaluate {settings : Settings} {lookup : Lookup} {text : List Char}
    (visible : trim text ≠ []) :
    ((Tree.ofText text).evaluate settings lookup).trace <:+:
      (settings.evaluate lookup text).trace := by
  rw [Settings.evaluate, Run.trace_bind_of_ok (settings.outcome_note _)]
  simp only [List.isEmpty_iff, visible, if_false]
  exact (Reading.trace_infix_evaluate _).trans (List.suffix_append _ _).isInfix

/-! ## Places that a calculation visits -/

/-- The run of a tree in a scope when `levels` more local calls may become active. -/
abbrev Scope.runTree (engine : Engine) (scope : Scope) (levels : Nat) (tree : Tree) : Run Decimal :=
  tree.evaluate engine.settings (engine.lookup (scope.callees engine levels))

/-- The run of several trees in a scope when `levels` more local calls may become active. -/
abbrev Scope.runTrees (engine : Engine) (scope : Scope) (levels : Nat) (trees : List Tree) :
    Run (List Decimal) :=
  Tree.evaluateAll engine.settings (engine.lookup (scope.callees engine levels)) trees

namespace Engine

/--
Whether a calculation evaluates a tree in a scope, when `levels` more local calls may become active.
-/
inductive Visits (engine : Engine) (bag : Bag) : Scope → Nat → Tree → Prop
  /-- The expression is no block. -/
  | single {resolved} (noBlock : ¬ engine.IsBlock)
      (noOperator : Operator.ofExpression? engine.settings.expression.toList = none)
      (resolves : (engine.settings.resolve bag engine.settings.expression.toList).outcome =
        .ok resolved)
      (visible : trim resolved ≠ []) :
      Visits engine bag ⟨bag, .empty⟩ engine.settings.callLimit (.ofText resolved)
  /-- A statement of a block has an expression. -/
  | statement {history scope text texts statement expression resolved} (block : engine.IsBlock)
      (reaches : engine.Reaches bag history scope (text :: texts))
      (read : Statement.ofText? text = .ok (some statement))
      (holds : statement.expression? = some expression)
      (resolves : (engine.settings.resolve scope.bag expression.toList).outcome = .ok resolved)
      (visible : trim resolved ≠ []) :
      Visits engine bag scope engine.settings.callLimit (.ofText resolved)
  /-- A local function is called. -/
  | body {scope levels name arguments function values resolved}
      (visits : Visits engine bag scope (levels + 1) (.call name arguments))
      (absent : builtin? name = none) (found : scope.functions.find? name = some function)
      (evaluated : (scope.runTrees engine (levels + 1) arguments).outcome = .ok values)
      (arity : Scope.checkArity function values = .ok ())
      (resolves : (engine.settings.resolve (scope.bindings function values)
        function.body.toList).outcome = .ok resolved)
      (visible : trim resolved ≠ []) : Visits engine bag scope levels (.ofText resolved)
  /-- An argument, if those before it have values. -/
  | argument {scope levels name before tree after}
      (visits : Visits engine bag scope levels (.call name (before ++ tree :: after)))
      (known : (engine.lookup (scope.callees engine levels) name).isSome = true)
      (earlier : ∀ other ∈ before, ∃ value, (scope.runTree engine levels other).outcome =
        .ok value) : Visits engine bag scope levels tree
  /-- A tree in parentheses. -/
  | group {scope levels inner} (visits : Visits engine bag scope levels (.group inner)) :
      Visits engine bag scope levels inner
  /-- An operand after a sign `+`. -/
  | plus {scope levels operand} (visits : Visits engine bag scope levels (.plus operand)) :
      Visits engine bag scope levels operand
  /-- An operand after a sign `-`. -/
  | minus {scope levels operand} (visits : Visits engine bag scope levels (.minus operand)) :
      Visits engine bag scope levels operand
  /-- A left operand. -/
  | left {scope levels operator left right}
      (visits : Visits engine bag scope levels (.operation operator left right)) :
      Visits engine bag scope levels left
  /-- A right operand, if the left one has a value. -/
  | right {scope levels operator left right value}
      (visits : Visits engine bag scope levels (.operation operator left right))
      (evaluated : (scope.runTree engine levels left).outcome = .ok value) :
      Visits engine bag scope levels right

end Engine

/-! ## The lines of a place -/

namespace Scope

variable {engine : Engine} {scope : Scope} {text : List Char} {texts : List (List Char)}

theorem run_blank (read : Statement.ofText? text = .ok none) :
    scope.run engine (text :: texts) = scope.run engine texts := by
  rw [run, read, Run.ofExcept_ok_bind]

theorem run_answer {expression : String}
    (read : Statement.ofText? text = .ok (some (.answer expression))) :
    scope.run engine (text :: texts) = (do
      let result ← scope.value engine expression
      engine.settings.note fun _ =>
        s!"Calculated return statement. Expression: '{expression}'. Result: {result.plain}"
      return result) := by
  rw [run, read, Run.ofExcept_ok_bind]

theorem run_assignment {name expression : String}
    (read : Statement.ofText? text = .ok (some (.assignment name expression))) :
    scope.run engine (text :: texts) = (do
      let result ← scope.value engine expression
      engine.settings.note fun _ =>
        s!"Calculated variable: '{name}'. Expression: '{expression}'. Result: {result.plain}"
      (scope.assign name result).run engine texts) := by
  rw [run, read, Run.ofExcept_ok_bind]

theorem run_definition {function : LocalFunction}
    (read : Statement.ofText? text = .ok (some (.definition function))) :
    scope.run engine (text :: texts) = (do
      engine.settings.note fun _ =>
        let parameters := ", ".intercalate function.parameters
        s!"Defined function '{function.name}({parameters})' as '{function.body}'"
      (scope.define function).run engine texts) := by
  rw [run, read, Run.ofExcept_ok_bind]

theorem call_succ {levels : Nat} {function : LocalFunction} {arguments : List Decimal}
    (arity : checkArity function arguments = .ok ()) :
    scope.call engine (levels + 1) function arguments = (do
      let resolved ← engine.settings.resolve (scope.bindings function arguments)
        function.body.toList
      let result ← engine.settings.evaluate (engine.lookup (scope.callees engine levels)) resolved
      engine.settings.note fun _ =>
        s!"Calculated function: '{function.name}'. Expression: '{function.body}'. " ++
          s!"Resolved expression: '{String.ofList resolved}'. Result: {result.plain}"
      return result) := by
  rw [call, arity, Run.ofExcept_ok_bind]
  rfl

/-- The lines of an expression are the last ones of the statement that it belongs to. -/
theorem trace_infix_value {expression : String} {resolved : List Char}
    (resolves : (engine.settings.resolve scope.bag expression.toList).outcome = .ok resolved)
    (visible : trim resolved ≠ []) :
    (scope.runTree engine engine.settings.callLimit (.ofText resolved)).trace <:+:
      (scope.value engine expression).trace := by
  rw [value, Run.trace_bind_of_ok resolves]
  exact (Settings.trace_infix_evaluate visible).trans (List.suffix_append _ _).isInfix

/-- The lines of the body of a function are among those of its call. -/
theorem trace_infix_call {levels : Nat} {function : LocalFunction} {values : List Decimal}
    {resolved : List Char} (arity : checkArity function values = .ok ())
    (resolves : (engine.settings.resolve (scope.bindings function values)
      function.body.toList).outcome = .ok resolved)
    (visible : trim resolved ≠ []) :
    (scope.runTree engine levels (.ofText resolved)).trace <:+:
      (scope.call engine (levels + 1) function values).trace := by
  rw [call_succ arity, Run.trace_bind_of_ok resolves]
  refine (Settings.trace_infix_evaluate visible).trans ?_
  exact (Run.trace_infix_bind _ _).trans (List.suffix_append _ _).isInfix

end Scope

namespace Engine

variable {engine : Engine} {bag : Bag}

/-- The lines of the rest of a run are the last ones of the whole. -/
theorem Reaches.trace_suffix {history : History} {scope : Scope} {texts : List (List Char)}
    (reaches : engine.Reaches bag history scope texts) :
    (scope.run engine texts).trace <:+ (engine.runBlock bag).trace := by
  induction reaches with
  | start => exact List.suffix_rfl
  | blank _ read ih => rwa [Scope.run_blank read] at ih
  | assigned _ read evaluated ih =>
      rw [Scope.run_assignment read, Run.trace_bind_of_ok evaluated] at ih
      exact ((List.suffix_append _ _).trans (List.suffix_append _ _)).trans ih
  | defined _ read ih =>
      rw [Scope.run_definition read] at ih
      exact (List.suffix_append _ _).trans ih

/-- The value of an expression is calculated where a run gets to it. -/
theorem Reaches.trace_infix_value {history : History} {scope : Scope} {text : List Char}
    {texts : List (List Char)} (reaches : engine.Reaches bag history scope (text :: texts))
    {statement : Statement} (read : Statement.ofText? text = .ok (some statement))
    {expression : String} (holds : statement.expression? = some expression) :
    (scope.value engine expression).trace <:+: (engine.runBlock bag).trace := by
  refine List.IsInfix.trans ?_ reaches.trace_suffix.isInfix
  cases statement with
  | answer other =>
      obtain rfl := Option.some.inj holds
      rw [Scope.run_answer read]
      exact Run.trace_infix_bind _ _
  | assignment name other =>
      obtain rfl := Option.some.inj holds
      rw [Scope.run_assignment read]
      exact Run.trace_infix_bind _ _
  | definition function => exact nomatch holds

/-- The lines of a tree that is visited stand together in the record of a calculation. -/
theorem Visits.trace_infix {scope : Scope} {levels : Nat} {tree : Tree}
    (visits : engine.Visits bag scope levels tree) :
    (scope.runTree engine levels tree).trace <:+: (engine.value bag).trace := by
  induction visits with
  | single noBlock noOperator resolves visible =>
      have contains : engine.settings.expression.toList.contains ';' = false := by
        simpa [IsBlock] using noBlock
      rw [value, noOperator]
      simp only [contains, Bool.false_eq_true, if_false]
      rw [Run.trace_bind_of_ok resolves]
      exact (Settings.trace_infix_evaluate visible).trans (List.suffix_append _ _).isInfix
  | statement block reaches read holds resolves visible =>
      rw [value_of_isBlock block]
      exact (Scope.trace_infix_value resolves visible).trans (reaches.trace_infix_value read holds)
  | @body scope levels name arguments function values resolved visits absent found evaluated arity
      resolves visible ih =>
      have callee : engine.lookup (scope.callees engine (levels + 1)) name =
          some (scope.call engine (levels + 1) function) := Scope.lookup_of_defined absent found _
      have called := Tree.trace_infix_callee callee evaluated
      exact ((Scope.trace_infix_call arity resolves visible).trans called).trans ih
  | @argument scope levels name before tree after visits known earlier ih =>
      obtain ⟨callee, found⟩ := Option.isSome_iff_exists.mp known
      exact ((Tree.trace_infix_evaluateAll earlier).trans
        (Tree.trace_infix_arguments found _)).trans ih
  | group visits ih =>
      rwa [Scope.runTree, Tree.evaluate] at ih
  | plus visits ih =>
      rwa [Scope.runTree, Tree.evaluate] at ih
  | minus visits ih =>
      rw [Scope.runTree, Tree.evaluate] at ih
      exact (Run.trace_infix_bind _ _).trans ih
  | left visits ih =>
      rw [Scope.runTree, Tree.evaluate] at ih
      exact (Run.trace_infix_bind _ _).trans ih
  | right visits evaluated ih =>
      rw [Scope.runTree, Tree.evaluate, Run.trace_bind_of_ok evaluated] at ih
      exact ((Run.trace_infix_bind _ _).trans (List.suffix_append _ _).isInfix).trans ih

/-! ## What a line about a call belongs to -/

/--
Whether a line is that of a call which a calculation visits and completes, and the lines before it
end with those of this call.
-/
def Ascribes (engine : Engine) (bag : Bag) (early : List String) (line : String) : Prop :=
  ∃ scope levels tree lines, engine.Visits bag scope levels tree ∧
    tree.Completes engine.settings (engine.lookup (scope.callees engine levels)) lines line ∧
      lines <:+ early

theorem Ascribes.append {early : List String} {line : String}
    (ascribes : engine.Ascribes bag early line) (earlier : List String) :
    engine.Ascribes bag (earlier ++ early) line := by
  obtain ⟨scope, levels, tree, lines, visits, completes, ends⟩ := ascribes
  exact ⟨scope, levels, tree, lines, visits, completes, ends.trans (List.suffix_append _ _)⟩

/-- Lines that belong to calls still do so after other lines. -/
theorem accounts_bind {α β : Type} {run : Run α} (first : run.Accounts (engine.Ascribes bag))
    {next : α → Run β}
    (later : ∀ value, run.outcome = .ok value → (next value).Accounts (engine.Ascribes bag)) :
    (run >>= next).Accounts (engine.Ascribes bag) :=
  first.bind fun value evaluated =>
    (later value evaluated).imp fun _ _ ascribes => ascribes.append run.trace

/-- Another line, after which a value is returned. -/
theorem accounts_note {α : Type} {line : Unit → String} (other : ¬ IsCallLine (line ()))
    {next : Unit → Run α} (later : (next ()).Accounts (engine.Ascribes bag)) :
    (engine.settings.note line >>= next).Accounts (engine.Ascribes bag) :=
  accounts_bind (Settings.accounts_note _ fun isCall => absurd isCall other) fun _ _ => later

section Trees

variable {scope : Scope} {levels : Nat}

mutual

/-- In the record of a tree that is visited, all lines about calls belong to calls, if this is so
for the functions that are called. -/
theorem accounts_runTree
    (called : ∀ name arguments callee values,
      engine.Visits bag scope levels (.call name arguments) →
        engine.lookup (scope.callees engine levels) name = some callee →
          (scope.runTrees engine levels arguments).outcome = .ok values →
            (callee values).Accounts (engine.Ascribes bag)) :
    (tree : Tree) → engine.Visits bag scope levels tree →
      (scope.runTree engine levels tree).Accounts (engine.Ascribes bag)
  | .number text, _ => by
      rw [Scope.runTree, Tree.evaluate]
      exact .ofExcept _
  | .unreadable fault, _ => by
      rw [Scope.runTree, Tree.evaluate]
      exact .ofExcept _
  | .call name arguments, visits => by
      rw [Scope.runTree, Tree.evaluate]
      cases found : engine.lookup (scope.callees engine levels) name with
      | none => exact .ofExcept _
      | some callee =>
          have known : (engine.lookup (scope.callees engine levels) name).isSome = true := by
            rw [found]
            rfl
          have all := accounts_runTrees called arguments fun before tree after split earlier =>
            (split ▸ visits).argument known earlier
          refine all.bind fun values evaluated => ?_
          have function := called name arguments callee values visits found evaluated
          refine (function.imp fun _ _ ascribes => ascribes.append _).bind fun result returned => ?_
          refine (Settings.accounts_note _ fun _ => ?_).bind fun _ _ => .pure result
          exact ⟨scope, levels, _, _, visits, .call found evaluated returned, by simp⟩
  | .group inner, visits => by
      rw [Scope.runTree, Tree.evaluate]
      exact accounts_runTree called inner visits.group
  | .plus operand, visits => by
      rw [Scope.runTree, Tree.evaluate]
      exact accounts_runTree called operand visits.plus
  | .minus operand, visits => by
      rw [Scope.runTree, Tree.evaluate]
      exact accounts_bind (accounts_runTree called operand visits.minus) fun _ _ => .pure _
  | .operation operator left right, visits => by
      rw [Scope.runTree, Tree.evaluate]
      refine accounts_bind (accounts_runTree called left visits.left) fun _ evaluated => ?_
      refine accounts_bind (accounts_runTree called right (visits.right evaluated)) fun _ _ => ?_
      refine accounts_bind (.ofExcept _) fun _ _ => accounts_note ?_ (.pure _)
      simp [IsCallLine, toString]

theorem accounts_runTrees
    (called : ∀ name arguments callee values,
      engine.Visits bag scope levels (.call name arguments) →
        engine.lookup (scope.callees engine levels) name = some callee →
          (scope.runTrees engine levels arguments).outcome = .ok values →
            (callee values).Accounts (engine.Ascribes bag)) :
    (trees : List Tree) →
      (∀ before tree after, trees = before ++ tree :: after →
        (∀ other ∈ before, ∃ value, (scope.runTree engine levels other).outcome = .ok value) →
          engine.Visits bag scope levels tree) →
      (scope.runTrees engine levels trees).Accounts (engine.Ascribes bag)
  | [], _ => by
      rw [Scope.runTrees, Tree.evaluateAll]
      exact .pure []
  | tree :: trees, visits => by
      rw [Scope.runTrees, Tree.evaluateAll]
      have first := accounts_runTree called tree (visits [] tree trees rfl (by simp))
      refine accounts_bind first fun value evaluated => ?_
      have rest := accounts_runTrees called trees fun before other after split earlier =>
        visits (tree :: before) other after (by rw [split, List.cons_append])
          (List.forall_mem_cons.mpr ⟨⟨value, evaluated⟩, earlier⟩)
      exact accounts_bind rest fun _ _ => .pure _

end
end Trees

theorem accounts_resolve (bindings : Bag) (text : List Char) :
    (engine.settings.resolve bindings text).Accounts (engine.Ascribes bag) := by
  rw [Settings.resolve]
  refine accounts_bind (.ofExcept _) fun pi _ => accounts_bind (.ofExcept _) fun euler _ => ?_
  refine accounts_note ?_ (.pure _)
  simp [IsCallLine, toString]

theorem accounts_evaluate {lookup : Lookup} {text : List Char}
    (tree : trim text ≠ [] → ((Tree.ofText text).evaluate engine.settings lookup).Accounts
      (engine.Ascribes bag)) :
    (engine.settings.evaluate lookup text).Accounts (engine.Ascribes bag) := by
  rw [Settings.evaluate]
  refine accounts_note (by simp [IsCallLine, toString]) ?_
  split
  case isTrue => exact .pure _
  case isFalse visible =>
    refine .mapFault (accounts_bind (tree (by simpa using visible)) fun value _ => ?_) _
    split
    · exact .pure value
    · exact .ofExcept _

/-- What a name finds is a local function, or it records nothing. -/
theorem silent_or_local {scope : Scope} {levels : Nat} {name : String} {callee : Callee}
    (found : engine.lookup (scope.callees engine levels) name = some callee) :
    (∀ values, (callee values).trace = []) ∨
      ∃ function, builtin? name = none ∧ scope.functions.find? name = some function ∧
        callee = scope.call engine levels function := by
  cases builtin : builtin? name with
  | some function =>
      rw [lookup_of_builtin builtin] at found
      obtain rfl := Option.some.inj found
      exact .inl fun _ => rfl
  | none =>
      cases bound : scope.functions.find? name with
      | some function =>
          rw [Scope.lookup_of_defined builtin bound] at found
          exact .inr ⟨function, rfl, rfl, (Option.some.inj found).symm⟩
      | none =>
          rw [Scope.lookup_of_undefined builtin bound] at found
          obtain ⟨function, -, rfl⟩ := Option.map_eq_some_iff.mp found
          exact .inl fun _ => rfl

/-- In the record of a function that is called, all lines about calls belong to calls. -/
theorem accounts_callee {scope : Scope} {levels : Nat} {name : String} {arguments : List Tree}
    {callee : Callee} {values : List Decimal}
    (visits : engine.Visits bag scope levels (.call name arguments))
    (found : engine.lookup (scope.callees engine levels) name = some callee)
    (evaluated : (scope.runTrees engine levels arguments).outcome = .ok values) :
    (callee values).Accounts (engine.Ascribes bag) := by
  obtain silent | ⟨function, absent, bound, rfl⟩ := silent_or_local found
  · exact .of_silent (silent values)
  induction levels generalizing name arguments values function with
  | zero =>
      rw [Scope.call]
      exact accounts_bind (.ofExcept _) fun _ _ => .of_silent rfl
  | succ levels ih =>
      cases arity : Scope.checkArity function values with
      | error fault =>
          rw [Scope.call, arity]
          exact .of_silent rfl
      | ok accepted =>
          rw [Scope.call_succ arity]
          refine accounts_bind (accounts_resolve _ _) fun resolved resolves => ?_
          refine accounts_bind (accounts_evaluate fun visible => ?_) fun _ _ =>
            accounts_note (by simp [IsCallLine, toString]) (.pure _)
          have body := visits.body absent bound evaluated arity resolves visible
          refine accounts_runTree (fun name arguments callee values inner called ready => ?_) _ body
          obtain silent | ⟨function, absent, bound, rfl⟩ := silent_or_local called
          · exact .of_silent (silent values)
          · exact ih inner ready function absent bound called

/-- In the record of a tree that is visited, all lines about calls belong to calls. -/
theorem Visits.accounts {scope : Scope} {levels : Nat} {tree : Tree}
    (visits : engine.Visits bag scope levels tree) :
    (scope.runTree engine levels tree).Accounts (engine.Ascribes bag) :=
  accounts_runTree (fun _ _ _ _ => accounts_callee) tree visits

/-- The value of an expression that a run gets to. -/
theorem Reaches.accounts_value {history : History} {scope : Scope} {text : List Char}
    {texts : List (List Char)} (block : engine.IsBlock)
    (reaches : engine.Reaches bag history scope (text :: texts)) {statement : Statement}
    (read : Statement.ofText? text = .ok (some statement)) {expression : String}
    (holds : statement.expression? = some expression) :
    (scope.value engine expression).Accounts (engine.Ascribes bag) := by
  rw [Scope.value]
  refine accounts_bind (accounts_resolve _ _) fun resolved resolves => ?_
  exact accounts_evaluate fun visible =>
    (Visits.statement block reaches read holds resolves visible).accounts

/-- The rest of a run. -/
theorem Reaches.accounts_run {history : History} {scope : Scope} {texts : List (List Char)}
    (block : engine.IsBlock) (reaches : engine.Reaches bag history scope texts) :
    (scope.run engine texts).Accounts (engine.Ascribes bag) := by
  induction texts generalizing history scope with
  | nil =>
      rw [Scope.run]
      exact .ofExcept _
  | cons text texts ih =>
      cases read : Statement.ofText? text with
      | error fault =>
          rw [Scope.run, read]
          exact .of_silent rfl
      | ok found =>
          cases found with
          | none =>
              rw [Scope.run_blank read]
              exact ih (reaches.blank read)
          | some statement =>
              cases statement with
              | answer expression =>
                  rw [Scope.run_answer read]
                  refine accounts_bind (reaches.accounts_value block read rfl) fun value _ => ?_
                  exact accounts_note (by simp [IsCallLine, toString]) (.pure _)
              | assignment name expression =>
                  rw [Scope.run_assignment read]
                  refine accounts_bind (reaches.accounts_value block read rfl)
                    fun value evaluated => ?_
                  exact accounts_note (by simp [IsCallLine, toString])
                    (ih (reaches.assigned read evaluated))
              | definition function =>
                  rw [Scope.run_definition read]
                  exact accounts_note (by simp [IsCallLine, toString]) (ih (reaches.defined read))

/-- The value before the final rounding. -/
theorem accounts_value (engine : Engine) (bag : Bag) :
    (engine.value bag).Accounts (engine.Ascribes bag) := by
  by_cases block : engine.IsBlock
  · rw [value_of_isBlock block]
    exact Reaches.accounts_run block .start
  · cases lone : Operator.ofExpression? engine.settings.expression.toList with
    | some operator =>
        rw [value, lone]
        dsimp only
        rw [Operator.fold]
        split
        · exact .pure _
        · refine accounts_bind (.ofExcept _) fun result _ => accounts_note ?_ (.pure _)
          simp [IsCallLine, toString]
    | none =>
        have contains : engine.settings.expression.toList.contains ';' = false := by
          simpa [IsBlock] using block
        rw [value, lone]
        simp only [contains, Bool.false_eq_true, if_false]
        refine accounts_bind (accounts_resolve _ _) fun resolved resolves => ?_
        exact accounts_evaluate fun visible =>
          (Visits.single block lone resolves visible).accounts

theorem accounts_calculate (engine : Engine) (bag : Bag) :
    (engine.calculate bag).Accounts (engine.Ascribes (engine.admitted bag)) := by
  rw [calculate]
  refine accounts_bind (accounts_value engine _) fun value _ => ?_
  refine accounts_bind (.ofExcept _) fun result _ => ?_
  exact accounts_note (not_isCallLine_resultLine _ _) (.pure _)

/-- The record of a calculation with a result ends with the line about it. -/
theorem getLast?_calculate (engine : Engine) (tracing : engine.settings.tracing = true) (bag : Bag)
    {result : Decimal} (calculated : (engine.calculate bag).outcome = .ok result) :
    (engine.calculate bag).trace.getLast? =
      some (resultLine engine.settings.expression result) := by
  rw [outcome_calculate] at calculated
  obtain ⟨value, evaluated, rounded⟩ := exists_of_bind_eq_ok calculated
  rw [calculate, Run.trace_bind_of_ok evaluated, rounded, Run.ofExcept_ok_bind]
  simp only [Settings.note, tracing, if_true]
  exact List.getLast?_concat

end Engine

/--
Recording changes neither a result nor a fault, with all contexts around it, if no function of the
host looks at the switch.  If there is a result, the last line is the one about it.  Every call that
the calculation visits and completes has its line right after those of its arguments and of its
function, which stand together; and there is no other line about a call.
-/
theorem calculate_recorded (engine : Engine) (ignoring : engine.HostIgnoresRecording) (bag : Bag) :
    ((engine.recording true).calculate bag).outcome =
        ((engine.recording false).calculate bag).outcome ∧
      (∀ result, ((engine.recording true).calculate bag).outcome = .ok result →
        ((engine.recording true).calculate bag).trace.getLast? =
          some (resultLine engine.settings.expression result)) ∧
      (∀ scope levels tree lines line,
        (engine.recording true).Visits (engine.admitted bag) scope levels tree →
          tree.Completes (engine.recording true).settings
            ((engine.recording true).lookup (scope.callees (engine.recording true) levels))
            lines line →
          IsCallLine line ∧
            lines ++ [line] <:+: ((engine.recording true).calculate bag).trace) ∧
      ∀ early line late,
        ((engine.recording true).calculate bag).trace = early ++ line :: late →
          IsCallLine line → (engine.recording true).Ascribes (engine.admitted bag) early line := by
  have admitted : (engine.recording true).admitted bag = engine.admitted bag := rfl
  refine ⟨?_, fun result calculated => ?_, fun _ _ _ _ _ visits completes => ?_, ?_⟩
  · rw [Engine.outcome_calculate_recording ignoring, Engine.outcome_calculate_recording ignoring]
  · exact (engine.recording true).getLast?_calculate rfl bag calculated
  · refine ⟨completes.isCallLine, ?_⟩
    rw [← completes.trace_eq rfl]
    exact visits.trace_infix.trans (Run.trace_infix_bind _ _)
  · exact (engine.recording true).accounts_calculate bag

namespace Nested

theorem hostIgnoresRecording : engine.HostIgnoresRecording :=
  Bindings.forall_find?_single fun _ _ => rfl

/-- The call in the last statement. -/
def outerCall : Tree := .call "g" [.number ['1']]

theorem ofText_answer : Tree.ofText "g(1)".toList = outerCall := by
  let phrase : Phrase Literal .sum := .applied outerName (.ofDigit '1' rfl)
  have split : phrase.lexemes = phrase.lexemes ++ [] := (List.append_nil _).symm
  have spaced : Spaced (phrase.lexemes.map (Lexeme.text Literal.text)) "g(1)".toList :=
    .cons ['g'] (.cons ['('] (.cons ['1'] (.single [')'])))
  exact congrArg Prod.fst (Phrase.result_sum_scan split (by simp) spaced).2

theorem visits_outerCall :
    (engine.recording true).Visits .empty scope 64 outerCall := by
  have begun : (engine.recording true).Reaches .empty [] ⟨.empty, .empty⟩
      ["f(x) = h(x)".toList, " g(x) = f(x)".toList, " return g(1)".toList, []] :=
    split_expression ▸ .start
  have resolved : ((engine.recording true).settings.resolve scope.bag "g(1)".toList).outcome =
      .ok "g(1)".toList := by rfl
  rw [← ofText_answer]
  exact .statement isBlock ((begun.defined read_inner).defined read_outer) read_answer rfl resolved
    (by decide)

theorem completes_outerCall : ∃ lines, outerCall.Completes (engine.recording true).settings
    ((engine.recording true).lookup (scope.callees (engine.recording true) 64)) lines
      "Called function 'g'. Params: [1]. Result: 1" := by
  have found : (engine.recording true).lookup (scope.callees (engine.recording true) 64) "g" =
      some (scope.call (engine.recording true) 64 outer) :=
    Scope.lookup_of_defined (by decide +kernel) rfl 64
  have called : (scope.call (engine.recording true) 64 outer [one]).outcome = .ok one :=
    (Scope.outcome_call_recording hostIgnoresRecording scope 64 outer [one]).trans
      (outcome_outer 64 62)
  exact ⟨_, .call found rfl called⟩

end Nested

/-- The record of a block with a call in a call. -/
theorem calculate_nested_recorded :
    ((Nested.engine.recording true).calculate .empty).outcome = .ok Nested.one ∧
      ((Nested.engine.recording true).calculate .empty).trace.getLast? =
        some "Result of 'f(x) = h(x); g(x) = f(x); return g(1);': 1" ∧
      ∃ lines, lines ++ ["Called function 'g'. Params: [1]. Result: 1"] <:+:
        ((Nested.engine.recording true).calculate .empty).trace := by
  obtain ⟨same, last, completed, -⟩ :=
    calculate_recorded Nested.engine Nested.hostIgnoresRecording .empty
  have result : ((Nested.engine.recording false).calculate .empty).outcome = .ok Nested.one :=
    Nested.outcome_calculate 62
  obtain ⟨lines, completes⟩ := Nested.completes_outerCall
  exact ⟨same.trans result, last _ (same.trans result), lines,
    (completed _ _ _ _ _ Nested.visits_outerCall completes).2⟩

end Reckoner
