import Reckoner.Proofs.Passes
import Reckoner.Proofs.Recursion

/-!
# Progress

Evaluation in one pass ends because every activation leads only to activations with less left: to
larger positions of the same text, or to the body of a local function with one level less, however
long the body is (`Pass.step_eq`).  A rule that comes to something has used a token and stands at a
larger position (`Activation.progress`), so each further activation of a loop is in front of less.
No local function is called when the limit is reached, and so there are never more active calls than
the limit allows (`evaluate_in_one_pass`).
-/

namespace Reckoner

/-- A step that has a value leads to the same, if what depends on the value does. -/
theorem Run.bind_congr_of_ok {α β : Type} {run : Run α} {next other : α → Run β}
    (same : ∀ value, run.outcome = .ok value → next value = other value) :
    (run >>= next) = run >>= other := by
  obtain ⟨trace, outcome⟩ := run
  cases outcome with
  | error fault => rfl
  | ok value =>
      exact congrArg (fun rest : Run β => (⟨trace ++ rest.trace, rest.outcome⟩ : Run β))
        (same value rfl)

/-! ## Progress -/

/-- Whether a rule is the rest of a loop, which may find nothing more to read. -/
def Rule.isLoop : Rule → Bool
  | sumAfter _ => true
  | productAfter _ => true
  | _ => false

namespace Grammar

theorem result_sum_nil : (sum []).result = (.unreadable .unexpectedEnd, []) := by
  rw [result_sum, result_product, result_factor_nil,
    result_productAfter_nil, result_sumAfter_nil]

theorem result_product_nil : (product []).result = (.unreadable .unexpectedEnd, []) := by
  rw [result_product, result_factor_nil, result_productAfter_nil]

end Grammar

namespace Rule

variable {settings : Settings} {lookup : Lookup}

theorem eq_of_paired {α β : Type} {run : α → Run β} {result : α × List Token}
    {read : β × List Token} (evaluated : (paired run result).outcome = .ok read) :
    (run result.1).outcome = .ok read.1 ∧ read.2 = result.2 := by
  rw [paired, Run.outcome_bind] at evaluated
  obtain ⟨value, found, same⟩ := exists_of_bind_eq_ok evaluated
  obtain rfl := Except.ok.inj same
  exact ⟨found, rfl⟩

/-- What was read and has a value used the first token, if there is no value without tokens. -/
theorem exists_of_paired {α β : Type} {run : α → Run β} (reading : List Token → α × List Token)
    {tokens : List Token} (suffix : (reading tokens).2 <:+ tokens.tail)
    (fails : (run (reading []).1).outcome = .error .unexpectedEnd) {read : β × List Token}
    (evaluated : (paired run (reading tokens)).outcome = .ok read) :
    ∃ token rest, tokens = token :: rest ∧ read.2 <:+ rest := by
  obtain ⟨found, same⟩ := eq_of_paired evaluated
  cases tokens with
  | nil => exact nomatch fails.symm.trans found
  | cons token rest => exact ⟨token, rest, rfl, same ▸ suffix⟩

/-- What comes to something has used the first token, unless it is the rest of a loop. -/
theorem exists_of_read {rule : Rule} (strict : rule.isLoop = false) {tokens : List Token}
    {read : rule.Value × List Token}
    (evaluated : (rule.read settings lookup tokens).outcome = .ok read) :
    ∃ token rest, tokens = token :: rest ∧ read.2 <:+ rest := by
  cases rule with
  | sumAfter => exact nomatch strict
  | productAfter => exact nomatch strict
  | sum =>
      refine exists_of_paired (fun tokens => (Grammar.sum tokens).result)
        (Grammar.suffix_sum tokens) ?_ evaluated
      rw [Grammar.result_sum_nil, Tree.outcome_evaluate_unreadable]
  | product =>
      refine exists_of_paired (fun tokens => (Grammar.product tokens).result)
        (Grammar.suffix_product tokens) ?_ evaluated
      rw [Grammar.result_product_nil, Tree.outcome_evaluate_unreadable]
  | factor =>
      refine exists_of_paired (fun tokens => (Grammar.factor tokens).result)
        (Grammar.suffix_factor tokens) ?_ evaluated
      rw [Grammar.result_factor_nil, Tree.outcome_evaluate_unreadable]
  | list =>
      refine exists_of_paired (fun tokens => (Grammar.list tokens).result)
        (Grammar.suffix_list tokens) ?_ evaluated
      rw [Grammar.result_list, Grammar.result_sum_nil, Tree.outcome_evaluateAll_cons,
        Tree.outcome_evaluate_unreadable]
      rfl

end Rule

namespace Pass

variable {engine : Engine} {scope : Scope} {frame : Frame} {position : Nat} {rule : Rule}

/-- What comes to something ends at a larger position inside the text. -/
theorem progress (strict : rule.isLoop = false) {read : rule.Value × Nat}
    (evaluated : (answer (Activation.value engine scope) frame position rule).outcome =
      .ok read) : position < read.2 ∧ read.2 ≤ frame.text.length := by
  rw [answer_value, Frame.conclude, Run.outcome_bind] at evaluated
  obtain ⟨found, seen, same⟩ := exists_of_bind_eq_ok evaluated
  obtain rfl := Except.ok.inj same
  obtain ⟨token, rest, split, suffix⟩ := Rule.exists_of_read strict seen
  exact Token.advance split suffix

end Pass

/-! ## The measure -/

theorem Frame.advance {frame : Frame} {position : Nat} {token : Token} {rest later : List Token}
    (seen : frame.tokens position = token :: rest) (suffix : later <:+ rest) :
    position < frame.placeOf later ∧ frame.placeOf later ≤ frame.text.length :=
  Token.advance seen suffix

namespace Activation

/-- What an activation has left when at most `limit` local calls may be active: further levels, and
characters of the text. -/
def measure (limit : Nat) (activation : Activation) : Nat × Nat :=
  (limit - activation.depth, activation.text.length - activation.position)

/-- Whether an activation has less left than another one: fewer levels, or as many and fewer
characters. -/
def Below (limit : Nat) (first second : Activation) : Prop :=
  Prod.Lex (· < ·) (· < ·) (first.measure limit) (second.measure limit)

theorem wellFounded_below (limit : Nat) : WellFounded (Below limit) :=
  InvImage.wf (measure limit) (WellFounded.prod_lex Nat.lt_wfRel.wf Nat.lt_wfRel.wf)

variable {limit position next : Nat} {frame : Frame}

/-- A later position of the same text. -/
theorem below_of_lt (ahead : position < next) (inside : next ≤ frame.text.length)
    (first second : Rule) : Below limit ⟨frame, next, first⟩ ⟨frame, position, second⟩ :=
  Prod.Lex.right _ (Nat.sub_lt_sub_left (ahead.trans_le inside) ahead)

/-- Any text one level deeper. -/
theorem below_of_depth (below : frame.depth < limit) (text : List Char) (first second : Rule) :
    Below limit ⟨⟨frame.depth + 1, text⟩, next, first⟩ ⟨frame, position, second⟩ :=
  Prod.Lex.left _ _ (Nat.sub_lt_sub_left below (Nat.lt_succ_self _))

end Activation

namespace Pass

/-- Whether it is known what the rules come to at later positions of a text, and one level deeper at
the beginning of every text. -/
structure Knows (engine : Engine) (scope : Scope) (pass : Pass) (frame : Frame) (position : Nat) :
    Prop where
  /-- At later positions. -/
  later : ∀ next rule, position < next → next ≤ frame.text.length →
    answer pass frame next rule = answer (Activation.value engine scope) frame next rule
  /-- One level deeper. -/
  deeper : frame.depth < engine.settings.callLimit → ∀ text rule,
    answer pass ⟨frame.depth + 1, text⟩ 0 rule =
      answer (Activation.value engine scope) ⟨frame.depth + 1, text⟩ 0 rule

variable {engine : Engine} {scope : Scope} {pass : Pass} {frame : Frame} {position : Nat}
  {token : Token} {rest tokens : List Token}

/-- What is known about a place is known about the later ones. -/
theorem Knows.mono (knows : Knows engine scope pass frame position) {next : Nat}
    (ahead : position ≤ next) : Knows engine scope pass frame next :=
  ⟨fun other rule less inside => knows.later other rule (ahead.trans_lt less) inside, knows.deeper⟩

/-- What is known in front of the tokens that are left behind the first one. -/
theorem Knows.answer_eq (knows : Knows engine scope pass frame position)
    (seen : frame.tokens position = token :: rest) (suffix : tokens <:+ rest) (rule : Rule) :
    answer pass frame (frame.placeOf tokens) rule =
      answer (Activation.value engine scope) frame (frame.placeOf tokens) rule := by
  obtain ⟨ahead, inside⟩ := Frame.advance seen suffix
  exact knows.later _ rule ahead inside

theorem Knows.call_eq (knows : Knows engine scope pass frame position) (function : LocalFunction) :
    call engine scope pass frame.depth function =
      call engine scope (Activation.value engine scope) frame.depth function := by
  funext arguments
  rw [call, call]
  by_cases below : frame.depth < engine.settings.callLimit
  · simp only [below, if_true, evaluate, knows.deeper below]
  · simp only [below, if_false]

theorem Knows.lookup_eq (knows : Knows engine scope pass frame position) :
    lookup engine scope pass frame.depth =
      lookup engine scope (Activation.value engine scope) frame.depth := by
  rw [lookup, lookup, funext knows.call_eq]

theorem Knows.closedList_eq (knows : Knows engine scope pass frame position)
    (seen : frame.tokens position = token :: rest) (suffix : tokens <:+ rest) :
    closedList pass frame (frame.placeOf tokens) =
      closedList (Activation.value engine scope) frame (frame.placeOf tokens) := by
  rw [closedList, closedList, knows.answer_eq seen suffix]

theorem Knows.arguments_eq (knows : Knows engine scope pass frame position)
    (seen : frame.tokens position = token :: rest) :
    arguments pass frame rest = arguments (Activation.value engine scope) frame rest := by
  match rest, seen with
  | [], seen => exact knows.closedList_eq seen List.suffix_rfl
  | next :: others, seen =>
      rw [arguments, arguments, knows.closedList_eq seen (List.suffix_cons next others),
        knows.closedList_eq seen List.suffix_rfl]

theorem Knows.operand_eq (knows : Knows engine scope pass frame position)
    (seen : frame.tokens position = token :: rest) :
    operand engine scope pass frame token rest =
      operand engine scope (Activation.value engine scope) frame token rest := by
  rw [operand, operand, knows.answer_eq seen List.suffix_rfl, knows.lookup_eq,
    knows.arguments_eq seen]

theorem Knows.power_eq (knows : Knows engine scope pass frame position) (base : Decimal) :
    power engine pass frame base position =
      power engine (Activation.value engine scope) frame base position := by
  rw [power, power]
  cases seen : frame.tokens position with
  | nil => rfl
  | cons token rest =>
      dsimp only
      rw [knows.answer_eq seen List.suffix_rfl]

theorem Knows.factor_eq (knows : Knows engine scope pass frame position) :
    factor engine scope pass frame position =
      factor engine scope (Activation.value engine scope) frame position := by
  rw [factor, factor]
  cases seen : frame.tokens position with
  | nil => rfl
  | cons token rest =>
      have behind : rest <:+ frame.tokens position := seen ▸ List.suffix_cons token rest
      dsimp only
      rw [knows.answer_eq seen List.suffix_rfl, knows.operand_eq seen]
      split_ifs
      · rfl
      · rfl
      · refine Run.bind_congr_of_ok fun base evaluated => ?_
        rw [operand_value behind, Frame.conclude, Run.outcome_bind] at evaluated
        obtain ⟨found, read, same⟩ := exists_of_bind_eq_ok evaluated
        obtain rfl := Except.ok.inj same
        have suffix : found.2 <:+ rest :=
          (Rule.eq_of_paired read).2 ▸ Grammar.suffix_operand token rest
        exact (knows.mono (Frame.advance seen suffix).1.le).power_eq _

theorem Knows.product_eq (knows : Knows engine scope pass frame position) :
    product engine scope pass frame position =
      product engine scope (Activation.value engine scope) frame position := by
  rw [product, product, knows.factor_eq, factor_value]
  refine Run.bind_congr_of_ok fun first evaluated => ?_
  obtain ⟨ahead, inside⟩ := progress rfl evaluated
  exact knows.later _ _ ahead inside

theorem Knows.sum_eq (knows : Knows engine scope pass frame position) :
    sum engine scope pass frame position =
      sum engine scope (Activation.value engine scope) frame position := by
  rw [sum, sum, knows.product_eq, product_value]
  refine Run.bind_congr_of_ok fun first evaluated => ?_
  obtain ⟨ahead, inside⟩ := progress rfl evaluated
  exact knows.later _ _ ahead inside

theorem Knows.list_eq (knows : Knows engine scope pass frame position) :
    list engine scope pass frame position =
      list engine scope (Activation.value engine scope) frame position := by
  rw [list, list, knows.sum_eq, sum_value]
  refine Run.bind_congr_of_ok fun first evaluated => ?_
  obtain ⟨ahead, -⟩ := progress rfl evaluated
  cases seen : frame.tokens first.2 with
  | nil => rfl
  | cons token rest =>
      dsimp only
      rw [(knows.mono ahead.le).answer_eq seen List.suffix_rfl]

/-- One more round of a loop is the same if the operands and the other rounds are. -/
theorem after_congr (operator? : Char → Option Operator) {next other : Nat → Run (Decimal × Nat)}
    {others : Decimal → Nat → Run (Decimal × Nat)} {again : Decimal → Nat → Run (Decimal × Nat)}
    (operands : ∀ place, position < place → place ≤ frame.text.length → next place = other place)
    (ends : ∀ place read, (other place).outcome = .ok read →
      place < read.2 ∧ read.2 ≤ frame.text.length)
    (rounds : ∀ place, position < place → place ≤ frame.text.length →
      ∀ result, others result place = again result place) (left : Decimal) :
    after engine frame operator? next others left position =
      after engine frame operator? other again left position := by
  rw [after, after]
  cases seen : frame.tokens position with
  | nil => rfl
  | cons token rest =>
      obtain ⟨ahead, inside⟩ := Frame.advance seen List.suffix_rfl
      dsimp only
      cases operator? token.head with
      | none => rfl
      | some operator =>
          dsimp only
          rw [operands _ ahead inside]
          refine Run.bind_congr_of_ok fun right evaluated => ?_
          obtain ⟨further, bound⟩ := ends _ _ evaluated
          simp only [rounds _ (ahead.trans further) bound]

/-- One step of an activation looks at activations with less left, and nothing else. -/
theorem step_eq (activation : Activation)
    (known : ∀ other, other.Below engine.settings.callLimit activation →
      pass other = Activation.value engine scope other) :
    step engine scope pass activation = Activation.value engine scope activation := by
  rw [← step_value]
  obtain ⟨frame, position, rule⟩ := activation
  have knows : Knows engine scope pass frame position :=
    ⟨fun next other ahead inside => known _ (Activation.below_of_lt ahead inside other rule),
      fun below text other => known _ (Activation.below_of_depth below text other rule)⟩
  cases rule with
  | sum => exact knows.sum_eq
  | sumAfter left =>
      rw [step, step]
      refine after_congr _ (fun place => ?_) (fun place read => ?_) (fun place => ?_) left
      · exact knows.later place .product
      · exact progress rfl
      · exact fun ahead inside result => knows.later place (.sumAfter result) ahead inside
  | product => exact knows.product_eq
  | productAfter left =>
      rw [step, step]
      refine after_congr _ (fun place => ?_) (fun place read => ?_) (fun place => ?_) left
      · exact knows.later place .factor
      · exact progress rfl
      · exact fun ahead inside result => knows.later place (.productAfter result) ahead inside
  | factor => exact knows.factor_eq
  | list => exact knows.list_eq

/-- What satisfies the description of one step is what the rules come to. -/
theorem eq_value (satisfies : ∀ activation, pass activation = step engine scope pass activation) :
    pass = Activation.value engine scope := by
  funext activation
  induction activation using (Activation.wellFounded_below engine.settings.callLimit).induction with
  | _ activation ih => exact (satisfies activation).trans (step_eq activation ih)

end Pass

/-! ## Calls -/

namespace Scope

/-- Whether evaluating a text calls a local function when `depth` local calls are active, and the
call is not refused. -/
structure EntersAt (engine : Engine) (scope : Scope) (depth : Nat) (text : List Char)
    (name : String) (function : LocalFunction) (values : List Decimal) : Prop where
  /-- There is a call of the name with these values. -/
  invokes : engine.settings.Invokes (scope.lookup engine depth) text name values
  /-- The name is not that of a built-in function. -/
  absent : builtin? name = none
  /-- It is that of a local function. -/
  found : scope.functions.find? name = some function
  /-- The number of arguments is right. -/
  arity : checkArity function values = .ok ()
  /-- The limit is not reached. -/
  admitted : (scope.lookup engine depth).outcome? name values ≠
    some (.error (.callDepthExceeded engine.settings.callLimit))

/-- Whether local functions, outermost first, are active at once: each was called in the body of the
one before it, and the first one in a text when `depth` local calls were active. -/
inductive Running (engine : Engine) (scope : Scope) : Nat → List Char → List String → Prop
  /-- No function has been called. -/
  | idle (depth : Nat) (text : List Char) : Running engine scope depth text []
  /-- A function has been called. -/
  | called {depth text name function values}
      (enters : EntersAt engine scope depth text name function values) :
      Running engine scope depth text [name]
  /-- The body of a function that was called is evaluated. -/
  | within {depth text name function values resolved stack}
      (enters : EntersAt engine scope depth text name function values)
      (body : (engine.settings.resolve (scope.bindings function values)
        function.body.toList).outcome = .ok resolved)
      (inner : Running engine scope (depth + 1) resolved stack) :
      Running engine scope depth text (name :: stack)

variable {engine : Engine} {scope : Scope} {depth : Nat} {text : List Char} {name : String}
  {function : LocalFunction} {values : List Decimal}

/-- What a call of a local function comes to. -/
theorem outcome?_of_local (absent : builtin? name = none)
    (found : scope.functions.find? name = some function) (values : List Decimal) :
    (scope.lookup engine depth).outcome? name values =
      some (scope.call engine (engine.settings.callLimit - depth) function values).outcome := by
  have known : scope.lookup engine depth name =
      some (scope.call engine (engine.settings.callLimit - depth) function) :=
    lookup_of_defined absent found _
  rw [Lookup.outcome?, known, Option.map_some]

/-- A call is refused when the limit is reached. -/
theorem EntersAt.depth_lt (enters : EntersAt engine scope depth text name function values) :
    depth < engine.settings.callLimit := by
  by_contra reached
  have none_left : engine.settings.callLimit - depth = 0 := by omega
  refine enters.admitted ?_
  rw [outcome?_of_local enters.absent enters.found, none_left, outcome_call_zero, enters.arity]
  rfl

/-- The body of a function is evaluated one level deeper. -/
theorem EntersAt.outcome_body (enters : EntersAt engine scope depth text name function values) :
    (scope.lookup engine depth).outcome? name values = some (do
      let resolved ← (engine.settings.resolve (scope.bindings function values)
        function.body.toList).outcome
      (scope.evaluate engine (depth + 1) resolved).outcome) := by
  have below := enters.depth_lt
  have left : engine.settings.callLimit - depth =
      engine.settings.callLimit - (depth + 1) + 1 := by omega
  rw [outcome?_of_local enters.absent enters.found, left, outcome_call_succ, enters.arity]
  rfl

/-- In a text that has a value no call is refused. -/
theorem Enters.entersAt
    (enters : Enters engine scope (engine.settings.callLimit - depth) text name function values)
    {value : Decimal}
    (evaluated : scope.evaluateWithin engine (engine.settings.callLimit - depth) text =
      .ok value) : EntersAt engine scope depth text name function values := by
  obtain ⟨below, body, result, levels, arity, -, -, called⟩ := enters.exists_of_ok evaluated
  refine ⟨enters.invokes, enters.absent, enters.found, arity, ?_⟩
  rw [outcome?_of_local enters.absent enters.found, called]
  exact nofun

/-- No more local functions are active at once than the limit allows. -/
theorem Running.length_le {stack : List String} (running : Running engine scope depth text stack) :
    stack.length ≤ engine.settings.callLimit - depth := by
  induction running with
  | idle => exact Nat.zero_le _
  | called enters =>
      have below := enters.depth_lt
      rw [List.length_singleton]
      omega
  | within enters body inner ih =>
      have below := enters.depth_lt
      rw [List.length_cons]
      omega

end Scope

/--
Evaluation makes progress and ends.  A sum, a product or a factor that comes to something ends at a
larger position, which is at most the length of the text.  One step of the evaluation in one pass
looks only at activations with less left, in levels of calls and then in characters; so there is
exactly one evaluation in one pass, and it is that of the text.  A local function that is called
without being refused is called below the limit and has its body evaluated one level deeper; and
there are never more calls active than the levels that were left.
-/
theorem evaluate_in_one_pass (engine : Engine) (scope : Scope) :
    (∀ (frame : Frame) (position : Nat) (rule : Rule), rule.isLoop = false →
      ∀ read, (Pass.answer (Activation.value engine scope) frame position rule).outcome =
        .ok read → position < read.2 ∧ read.2 ≤ frame.text.length) ∧
      (∀ (activation : Activation) (pass : Pass),
        (∀ other, other.Below engine.settings.callLimit activation →
          pass other = Activation.value engine scope other) →
        Pass.step engine scope pass activation = Activation.value engine scope activation) ∧
      (∀ pass : Pass, (∀ activation, pass activation = Pass.step engine scope pass activation) ↔
        pass = Activation.value engine scope) ∧
      (∀ depth text, scope.evaluate engine depth text =
        Pass.evaluate engine (Activation.value engine scope) depth text) ∧
      (∀ depth text name function values,
        scope.EntersAt engine depth text name function values →
          depth < engine.settings.callLimit ∧
            (scope.lookup engine depth).outcome? name values = some (do
              let resolved ← (engine.settings.resolve (scope.bindings function values)
                function.body.toList).outcome
              (scope.evaluate engine (depth + 1) resolved).outcome)) ∧
      ∀ depth text stack, scope.Running engine depth text stack →
        stack.length ≤ engine.settings.callLimit - depth := by
  refine ⟨fun _ _ _ strict _ => Pass.progress strict, fun activation _ => Pass.step_eq activation,
    fun pass => ⟨Pass.eq_value, ?_⟩, fun depth text => (Pass.evaluate_value depth text).symm,
    fun _ _ _ _ _ enters => ⟨enters.depth_lt, enters.outcome_body⟩,
    fun _ _ _ running => running.length_le⟩
  rintro rfl activation
  exact (Pass.step_value activation).symm

namespace Nested

/-- The text of the last statement, before a call is made. -/
def frame : Frame := ⟨0, "g(1)".toList⟩

theorem evaluateWithin_answer : scope.evaluateWithin engine 64 frame.text = .ok one := by
  have value : (scope.value engine "g(1)").outcome = .ok one := outcome_value 62
  have resolved : (engine.settings.resolve scope.bag "g(1)".toList).outcome =
      .ok "g(1)".toList := by rfl
  rwa [Scope.outcome_value, resolved, ok_bind] at value

/-- At some moment both functions are active, one inside the other. -/
theorem running : scope.Running engine 0 frame.text ["g", "f"] := by
  have outerIsLocal : scope.IsLocal "g" := ⟨by decide +kernel, rfl⟩
  have innerIsLocal : scope.IsLocal "f" := ⟨by decide +kernel, rfl⟩
  obtain ⟨function, values, enters, -⟩ := outerIsLocal.succeeds evaluateWithin_answer (by decide)
  obtain ⟨below, body, result, levels, arity, resolves, inner, -⟩ :=
    enters.exists_of_ok evaluateWithin_answer
  obtain rfl : below = 63 := by omega
  have found : scope.functions.find? "g" = some outer := rfl
  obtain rfl := Option.some.inj (found.symm.trans enters.found)
  have other : (engine.settings.resolve (scope.bindings outer [one]) outer.body.toList).outcome =
      .ok "f(1)".toList := by rfl
  have mentioned : "f".toList ∈ mentions false body := by
    rw [Scope.mentions_body (Scope.length_of_checkArity arity) rfl resolves other]
    decide
  obtain ⟨_, _, inside, -⟩ := innerIsLocal.succeeds inner mentioned
  exact .within (enters.entersAt evaluateWithin_answer) resolves (.called (inside.entersAt inner))

/-- Reading the whole text ends behind its last character. -/
theorem answer_frame :
    (Pass.answer (Activation.value engine scope) frame 0 .sum).outcome = .ok (one, 4) := by
  have visible : trim frame.text ≠ [] := by decide
  have trimmed : trim frame.text = frame.text := by decide
  have evaluated := evaluateWithin_answer
  rw [Scope.evaluateWithin, Settings.outcome_evaluate visible, trimmed] at evaluated
  obtain ⟨nothing, value⟩ := Reading.eq_of_outcome_evaluate (eq_ok_of_mapError evaluated)
  have first : ((Grammar.sum (frame.tokens 0)).result.1.evaluate engine.settings
      (scope.lookup engine frame.depth)).outcome = .ok one := value
  have rest : (Grammar.sum (frame.tokens 0)).result.2 = [] := nothing
  rw [Pass.answer_value, Rule.read, Frame.conclude_paired, Run.outcome_bind, first, rest]
  rfl

end Nested

/-- The call in a call is evaluated in one pass, with two functions active at once. -/
theorem evaluate_nested_in_one_pass :
    Pass.evaluate Nested.engine (Activation.value Nested.engine Nested.scope) 0 "g(1)".toList =
        Nested.scope.evaluate Nested.engine 0 "g(1)".toList ∧
      (0 < 4 ∧ 4 ≤ "g(1)".toList.length) ∧
      Nested.scope.Running Nested.engine 0 "g(1)".toList ["g", "f"] ∧
        ["g", "f"].length ≤ Nested.engine.settings.callLimit := by
  obtain ⟨ahead, -, -, whole, -, bounded⟩ := evaluate_in_one_pass Nested.engine Nested.scope
  exact ⟨(whole 0 _).symm, ahead Nested.frame 0 .sum rfl _ Nested.answer_frame, Nested.running,
    bounded 0 _ _ Nested.running⟩

end Reckoner
