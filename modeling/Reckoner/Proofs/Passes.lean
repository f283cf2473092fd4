import Reckoner.Proofs.Cursors
import Reckoner.Proofs.Execution

/-!
# Evaluation in one pass

An expression can be evaluated while it is read, from the left to the right, without a tree.  What a
rule of the grammar does at a position of a text is described here in terms of the same for other
places (`Pass.step`): later positions of the text, and the bodies of the local functions that are
called, which are other texts, one level deeper.  The values of the trees that the rules read
satisfy this description (`Pass.step_value`).
-/

namespace Reckoner

/-! ## Activations -/

/-- A text whose evaluation has begun when `depth` local calls are active. -/
structure Frame where
  /-- How many local calls are active. -/
  depth : Nat
  /-- The text, without its margins. -/
  text : List Char

/-- What is read at a position: a rule of the grammar, or the rest of a loop. -/
inductive Rule
  /-- Products with `+` and `-` between them. -/
  | sum
  /-- A sum after its first products, which have a value. -/
  | sumAfter (left : Decimal)
  /-- Factors with `*` and `/` between them. -/
  | product
  /-- A product after its first factors, which have a value. -/
  | productAfter (left : Decimal)
  /-- A signed factor, or an operand with the power it is raised to. -/
  | factor
  /-- Sums with commas between them. -/
  | list

/-- What a rule comes to. -/
abbrev Rule.Value : Rule → Type
  | list => List Decimal
  | _ => Decimal

/-- A rule that is read at a position of a text. -/
structure Activation extends Frame where
  /-- Where the rule is read. -/
  position : Nat
  /-- The rule. -/
  rule : Rule

namespace Frame

variable (frame : Frame)

/-- The tokens from a position on. -/
def tokens (position : Nat) : List Token := Token.tokensFrom frame.text position

/-- Where the first of some tokens stands, or the end of the text if there is none. -/
def placeOf (tokens : List Token) : Nat := Token.placeOf frame.text tokens

/-- The position after a mark, if it is there, and after the spacing in front of it otherwise. -/
def passOver (mark : Char) (position : Nat) : Nat :=
  frame.placeOf (Reading.passOver mark (frame.tokens position))

end Frame

/-- The operation of two values. -/
def Settings.operate (settings : Settings) (operator : Operator) (left right : Decimal) :
    Run Decimal := do
  let result ← Run.ofExcept (operator.apply settings.calculation left right)
  settings.note fun _ =>
    s!"Calculated term. Expression: '{operator.symbol}'. Left: '{left.plain}'. " ++
      s!"Right: '{right.plain}'. Result: {result.plain}"
  return result

/-! ## One step -/

/-- What a rule comes to at every place, and the position after it. -/
abbrev Pass := (activation : Activation) → Run (activation.rule.Value × Nat)

namespace Pass

variable (engine : Engine) (scope : Scope) (pass : Pass)

/-- What a rule comes to at a position of a text. -/
def answer (frame : Frame) (position : Nat) (rule : Rule) : Run (rule.Value × Nat) :=
  pass ⟨frame, position, rule⟩

/-- The value of a text, one pass over it. -/
def evaluate (depth : Nat) (text : List Char) : Run Decimal := do
  let frame : Frame := ⟨depth, trim text⟩
  let shown := String.ofList frame.text
  engine.settings.note fun _ => s!"Calculating expression: {shown}"
  if frame.text.isEmpty then
    return engine.settings.calculation.zero
  else
    let run := do
      let read ← pass.answer frame 0 .sum
      match frame.tokens read.2 with
      | [] => return read.1
      | token :: _ => Run.fail (.unexpectedCharacter token.head token.position)
    run.mapFault (.inExpression shown)

/-- A call of a local function in a text; its body is evaluated one level deeper. -/
def call (depth : Nat) (function : LocalFunction) : Callee := fun arguments => do
  let settings := engine.settings
  Run.ofExcept (Scope.checkArity function arguments)
  if depth < settings.callLimit then
    let resolved ← settings.resolve (scope.bindings function arguments) function.body.toList
    let result ← evaluate engine pass (depth + 1) resolved
    settings.note fun _ =>
      s!"Calculated function: '{function.name}'. Expression: '{function.body}'. " ++
        s!"Resolved expression: '{String.ofList resolved}'. Result: {result.plain}"
    return result
  else
    Run.fail (.callDepthExceeded settings.callLimit)

/-- What the names of functions stand for in a text. -/
def lookup (depth : Nat) : Lookup :=
  engine.lookup fun name => (scope.functions.find? name).map (call engine scope pass depth)

variable (frame : Frame)

/-- A list of arguments, and the closing parenthesis behind it passed over if it is there. -/
def closedList (position : Nat) : Run (List Decimal × Nat) := do
  let read ← pass.answer frame position .list
  return (read.1, frame.passOver ')' read.2)

/-- The arguments of a call, which are evaluated at the depth of the call. -/
def arguments (tokens : List Token) : Run (List Decimal × Nat) :=
  match tokens with
  | [] => closedList pass frame (frame.placeOf [])
  | token :: rest =>
    if token.head = '(' then
      if (rest.head?.map Token.head) = some ')' then
        return ([], frame.placeOf rest.tail)
      else
        closedList pass frame (frame.placeOf rest)
    else
      closedList pass frame (frame.placeOf (token :: rest))

/-- A group, a number or a call. -/
def operand (token : Token) (rest : List Token) : Run (Decimal × Nat) :=
  if token.head = '(' then do
    let inner ← pass.answer frame (frame.placeOf rest) .sum
    return (inner.1, frame.passOver ')' inner.2)
  else
    match token.kind with
    | .number => do
      let value ← Run.ofExcept (engine.settings.calculation.literal token.text)
      return (value, frame.placeOf rest)
    | .name =>
      let name := String.ofList token.text
      match lookup engine scope pass frame.depth name with
      | none => Run.fail (.unknownFunction name)
      | some callee => do
        let read ← arguments pass frame rest
        let result ← callee read.1
        engine.settings.note fun _ =>
          let shown := ", ".intercalate (read.1.map Decimal.plain)
          s!"Called function '{name}'. Params: [{shown}]. Result: {result.plain}"
        return (result, read.2)
    | .mark => Run.fail (.unexpectedCharacter token.head token.position)

/-- The power that an operand is raised to, if `^` follows it. -/
def power (base : Decimal) (position : Nat) : Run (Decimal × Nat) :=
  match frame.tokens position with
  | [] => return (base, frame.placeOf [])
  | token :: rest =>
    if token.head = '^' then do
      let exponent ← pass.answer frame (frame.placeOf rest) .factor
      let result ← engine.settings.operate .power base exponent.1
      return (result, exponent.2)
    else
      return (base, frame.placeOf (token :: rest))

/-- A signed factor, or an operand with the power it is raised to. -/
def factor (position : Nat) : Run (Decimal × Nat) :=
  match frame.tokens position with
  | [] => Run.fail .unexpectedEnd
  | token :: rest =>
    if token.head = '+' then
      pass.answer frame (frame.placeOf rest) .factor
    else if token.head = '-' then do
      let read ← pass.answer frame (frame.placeOf rest) .factor
      return (-read.1, read.2)
    else do
      let base ← operand engine scope pass frame token rest
      power engine pass frame base.1 base.2

/-- Factors with `*` and `/` between them. -/
def product (position : Nat) : Run (Decimal × Nat) := do
  let first ← factor engine scope pass frame position
  pass.answer frame first.2 (.productAfter first.1)

/-- Products with `+` and `-` between them. -/
def sum (position : Nat) : Run (Decimal × Nat) := do
  let first ← product engine scope pass frame position
  pass.answer frame first.2 (.sumAfter first.1)

/-- One more round of a loop, if an operator follows: the next operand, and the other rounds. -/
def after (operator? : Char → Option Operator) (next : Nat → Run (Decimal × Nat))
    (others : Decimal → Nat → Run (Decimal × Nat)) (left : Decimal) (position : Nat) :
    Run (Decimal × Nat) :=
  match frame.tokens position with
  | [] => return (left, frame.placeOf [])
  | token :: rest =>
    match operator? token.head with
    | none => return (left, frame.placeOf (token :: rest))
    | some operator => do
      let right ← next (frame.placeOf rest)
      let result ← engine.settings.operate operator left right.1
      others result right.2

/-- Sums with commas between them. -/
def list (position : Nat) : Run (List Decimal × Nat) := do
  let first ← sum engine scope pass frame position
  match frame.tokens first.2 with
  | [] => return ([first.1], frame.placeOf [])
  | token :: rest =>
    if token.head = ',' then do
      let others ← pass.answer frame (frame.placeOf rest) .list
      return (first.1 :: others.1, others.2)
    else
      return ([first.1], frame.placeOf (token :: rest))

/-- What a rule comes to at a place, if it is known what all rules come to at other places. -/
def step : Pass
  | ⟨frame, position, .sum⟩ => sum engine scope pass frame position
  | ⟨frame, position, .sumAfter left⟩ =>
    after engine frame Grammar.sumOperator? (fun next => pass.answer frame next .product)
      (fun result next => pass.answer frame next (.sumAfter result)) left position
  | ⟨frame, position, .product⟩ => product engine scope pass frame position
  | ⟨frame, position, .productAfter left⟩ =>
    after engine frame Grammar.productOperator? (fun next => pass.answer frame next .factor)
      (fun result next => pass.answer frame next (.productAfter result)) left position
  | ⟨frame, position, .factor⟩ => factor engine scope pass frame position
  | ⟨frame, position, .list⟩ => list engine scope pass frame position

end Pass

/-! ## What the rules come to -/

namespace Rule

variable (settings : Settings) (lookup : Lookup)

/-- The value of what was read, with the tokens after it. -/
def paired {α β : Type} (run : α → Run β) (result : α × List Token) : Run (β × List Token) := do
  let value ← run result.1
  return (value, result.2)

/-- The value of a chain of operands after the first ones, which have a value. -/
def follow (operator? : Char → Option Operator)
    (reading : (tokens : List Token) → Reading Tree tokens.length) (left : Decimal)
    (tokens : List Token) : Run (Decimal × List Token) :=
  match tokens with
  | [] => return (left, [])
  | token :: rest =>
    match operator? token.head with
    | none => return (left, token :: rest)
    | some operator => do
      let right ← (reading rest).result.1.evaluate settings lookup
      let result ← settings.operate operator left right
      follow operator? reading result (reading rest).result.2
termination_by tokens.length
decreasing_by exact Nat.lt_succ_of_le (reading rest).length_result_le

/-- What a rule comes to in front of some tokens, and the tokens after it. -/
def read : (rule : Rule) → List Token → Run (rule.Value × List Token)
  | sum, tokens => paired (Tree.evaluate settings lookup) (Grammar.sum tokens).result
  | sumAfter left, tokens =>
    follow settings lookup Grammar.sumOperator? Grammar.product left tokens
  | product, tokens => paired (Tree.evaluate settings lookup) (Grammar.product tokens).result
  | productAfter left, tokens =>
    follow settings lookup Grammar.productOperator? Grammar.factor left tokens
  | factor, tokens => paired (Tree.evaluate settings lookup) (Grammar.factor tokens).result
  | list, tokens => paired (Tree.evaluateAll settings lookup) (Grammar.list tokens).result

variable {settings lookup}

theorem follow_nil (operator? : Char → Option Operator)
    (reading : (tokens : List Token) → Reading Tree tokens.length) (left : Decimal) :
    follow settings lookup operator? reading left [] = pure (left, []) := by
  rw [follow]

theorem follow_stop {operator? : Char → Option Operator} {token : Token}
    (absent : operator? token.head = none)
    (reading : (tokens : List Token) → Reading Tree tokens.length) (left : Decimal)
    (rest : List Token) :
    follow settings lookup operator? reading left (token :: rest) =
      pure (left, token :: rest) := by
  rw [follow]
  simp only [absent]

theorem follow_operator {operator? : Char → Option Operator} {token : Token} {operator : Operator}
    (found : operator? token.head = some operator)
    (reading : (tokens : List Token) → Reading Tree tokens.length) (left : Decimal)
    (rest : List Token) :
    follow settings lookup operator? reading left (token :: rest) = (do
      let right ← (reading rest).result.1.evaluate settings lookup
      let result ← settings.operate operator left right
      follow settings lookup operator? reading result (reading rest).result.2) := by
  rw [follow]
  simp only [found]

/-- A chain comes to what its first operands and then the others come to. -/
theorem paired_chain (settings : Settings) (lookup : Lookup) {operator? : Char → Option Operator}
    {reading : (tokens : List Token) → Reading Tree tokens.length}
    (chain : Tree → List Token → Tree × List Token)
    (nil : ∀ left, chain left [] = (left, []))
    (stop : ∀ token, operator? token.head = none →
      ∀ left rest, chain left (token :: rest) = (left, token :: rest))
    (step : ∀ token operator, operator? token.head = some operator →
      ∀ left rest, chain left (token :: rest) =
        chain (.operation operator left (reading rest).result.1) (reading rest).result.2)
    (left : Tree) (tokens : List Token) :
    paired (Tree.evaluate settings lookup) (chain left tokens) = (do
      let value ← left.evaluate settings lookup
      follow settings lookup operator? reading value tokens) := by
  cases tokens with
  | nil =>
      rw [nil]
      simp only [follow_nil]
      rfl
  | cons token rest =>
      cases found : operator? token.head with
      | none =>
          rw [stop token found]
          simp only [follow_stop found]
          rfl
      | some operator =>
          have short := (reading rest).length_result_le
          rw [step token operator found, paired_chain settings lookup chain nil stop step,
            Tree.evaluate]
          simp only [follow_operator found, Settings.operate, bind_assoc, pure_bind]
termination_by tokens.length

/-- A sum comes to what its first products and then the others come to. -/
theorem read_sum (tokens : List Token) :
    read settings lookup sum tokens = (do
      let first ← read settings lookup product tokens
      read settings lookup (sumAfter first.1) first.2) := by
  have chain := paired_chain settings lookup
    (fun left tokens => (Grammar.sumAfter left tokens).result)
    Grammar.result_sumAfter_nil (fun _ => Grammar.result_sumAfter_stop)
    (fun _ _ => Grammar.result_sumAfter_operator)
  rw [read, Grammar.result_sum, chain, read, paired, bind_assoc]
  rfl

/-- A product comes to what its first factors and then the others come to. -/
theorem read_product (tokens : List Token) :
    read settings lookup product tokens = (do
      let first ← read settings lookup factor tokens
      read settings lookup (productAfter first.1) first.2) := by
  have chain := paired_chain settings lookup
    (fun left tokens => (Grammar.productAfter left tokens).result)
    Grammar.result_productAfter_nil (fun _ => Grammar.result_productAfter_stop)
    (fun _ _ => Grammar.result_productAfter_operator)
  rw [read, Grammar.result_product, chain, read, paired, bind_assoc]
  rfl

end Rule

/-- The same with the position of the tokens that are left, in place of the tokens. -/
def Frame.conclude {α : Type} (frame : Frame) (run : Run (α × List Token)) : Run (α × Nat) := do
  let read ← run
  return (read.1, frame.placeOf read.2)

/-- What a rule comes to at a place: the value of the tree that it reads, and the position of what
is left. -/
def Activation.value (engine : Engine) (scope : Scope) : Pass := fun activation =>
  activation.conclude (activation.rule.read engine.settings (scope.lookup engine activation.depth)
    (activation.tokens activation.position))

namespace Frame

variable {α β : Type} (frame : Frame)

theorem conclude_pure (value : α) (tokens : List Token) :
    frame.conclude (pure (value, tokens)) = pure (value, frame.placeOf tokens) := rfl

theorem conclude_bind (run : Run β) (next : β → Run (α × List Token)) :
    frame.conclude (run >>= next) = run >>= fun value => frame.conclude (next value) :=
  bind_assoc _ _ _

theorem conclude_paired (run : α → Run β) (result : α × List Token) :
    frame.conclude (Rule.paired run result) = (do
      let value ← run result.1
      return (value, frame.placeOf result.2)) := by
  rw [Rule.paired, conclude_bind]
  rfl

end Frame

/-! ## One step leads to what the rules come to -/

namespace Pass

variable {engine : Engine} {scope : Scope} {frame : Frame} {position : Nat} {later : List Token}

/-- The tokens that are left are those behind the position after what was read. -/
theorem tokens_placeOf (suffix : later <:+ frame.tokens position) :
    frame.tokens (frame.placeOf later) = later := Token.tokensFrom_placeOf suffix

theorem answer_value (position : Nat) (rule : Rule) :
    answer (Activation.value engine scope) frame position rule =
      frame.conclude (rule.read engine.settings (scope.lookup engine frame.depth)
        (frame.tokens position)) := rfl

/-- What a rule comes to in front of tokens that are left. -/
theorem answer_placeOf (suffix : later <:+ frame.tokens position) (rule : Rule) :
    answer (Activation.value engine scope) frame (frame.placeOf later) rule =
      frame.conclude (rule.read engine.settings (scope.lookup engine frame.depth) later) := by
  rw [answer_value, tokens_placeOf suffix]

theorem evaluate_value (depth : Nat) (text : List Char) :
    evaluate engine (Activation.value engine scope) depth text =
      scope.evaluate engine depth text := by
  have whole : (Frame.mk depth (trim text)).tokens 0 = Token.scan (trim text) := rfl
  have suffix : (Grammar.sum (Token.scan (trim text))).result.2 <:+
      (Frame.mk depth (trim text)).tokens 0 :=
    (Grammar.suffix_sum _).trans (List.tail_suffix _)
  rw [evaluate, Scope.evaluate, Settings.evaluate]
  refine bind_congr fun _ => ?_
  dsimp only
  split
  · rfl
  · rw [answer_value, whole, Rule.read, Frame.conclude_paired, bind_assoc]
    simp only [pure_bind, tokens_placeOf suffix]
    rfl

theorem call_value (depth : Nat) (function : LocalFunction) :
    call engine scope (Activation.value engine scope) depth function =
      scope.call engine (engine.settings.callLimit - depth) function := by
  funext arguments
  rw [call]
  by_cases below : depth < engine.settings.callLimit
  · obtain ⟨levels, left⟩ := Nat.exists_eq_add_of_lt below
    have levels_eq : engine.settings.callLimit - depth = levels + 1 := by omega
    have deeper : engine.settings.callLimit - (depth + 1) = levels := by omega
    rw [levels_eq, Scope.call]
    simp only [below, if_true, evaluate_value, Scope.evaluate, Scope.lookup, deeper]
  · have none_left : engine.settings.callLimit - depth = 0 := by omega
    rw [none_left, Scope.call]
    simp only [below, if_false]

theorem lookup_value (depth : Nat) :
    lookup engine scope (Activation.value engine scope) depth = scope.lookup engine depth := by
  have calls : call engine scope (Activation.value engine scope) depth =
      scope.call engine (engine.settings.callLimit - depth) := funext (call_value depth)
  rw [lookup, Scope.lookup, calls]

theorem closedList_value (suffix : later <:+ frame.tokens position) :
    closedList (Activation.value engine scope) frame (frame.placeOf later) =
      frame.conclude (Rule.paired
        (Tree.evaluateAll engine.settings (scope.lookup engine frame.depth))
        ((Grammar.list later).result.1,
          Reading.passOver ')' (Grammar.list later).result.2)) := by
  have rest : (Grammar.list later).result.2 <:+ frame.tokens position :=
    ((Grammar.suffix_list later).trans (List.tail_suffix _)).trans suffix
  rw [closedList, answer_placeOf suffix, Rule.read, Frame.conclude_paired, Frame.conclude_paired]
  simp only [bind_assoc, pure_bind, Frame.passOver, tokens_placeOf rest]

theorem arguments_value (suffix : later <:+ frame.tokens position) :
    arguments (Activation.value engine scope) frame later =
      frame.conclude (Rule.paired
        (Tree.evaluateAll engine.settings (scope.lookup engine frame.depth))
        (Grammar.arguments later).result) := by
  cases later with
  | nil => rw [arguments, closedList_value suffix, Grammar.result_arguments_bare (by simp)]
  | cons token rest =>
      have behind : rest <:+ frame.tokens position := (List.suffix_cons token rest).trans suffix
      rw [arguments]
      split_ifs with opening closing
      · match rest, closing with
        | second :: others, closing =>
            rw [Grammar.result_arguments_empty opening (Option.some.inj closing),
              Frame.conclude_paired, Tree.evaluateAll]
            rfl
      · rw [closedList_value behind, Grammar.result_arguments_opening opening closing]
      · rw [closedList_value suffix, Grammar.result_arguments_bare (by simpa using opening)]

theorem operand_value {token : Token} {rest : List Token}
    (suffix : rest <:+ frame.tokens position) :
    operand engine scope (Activation.value engine scope) frame token rest =
      frame.conclude (Rule.paired
        (Tree.evaluate engine.settings (scope.lookup engine frame.depth))
        (Grammar.operand token rest).result) := by
  rw [operand, Frame.conclude_paired]
  split_ifs with opening
  · have inner : (Grammar.sum rest).result.2 <:+ frame.tokens position :=
      ((Grammar.suffix_sum rest).trans (List.tail_suffix _)).trans suffix
    rw [Grammar.result_operand_group opening, answer_placeOf suffix, Rule.read,
      Frame.conclude_paired, Tree.evaluate]
    simp only [bind_assoc, pure_bind, Frame.passOver, tokens_placeOf inner]
  · cases kind : token.kind with
    | number =>
        rw [Grammar.result_operand_number opening kind, Tree.evaluate]
    | name =>
        rw [Grammar.result_operand_name opening kind, Tree.evaluate, lookup_value]
        dsimp only
        cases scope.lookup engine frame.depth (String.ofList token.text) with
        | none => rfl
        | some callee =>
            dsimp only
            rw [arguments_value suffix, Frame.conclude_paired]
            simp only [bind_assoc, pure_bind]
    | mark =>
        rw [Grammar.result_operand_mark opening kind, Tree.evaluate]
        rfl

theorem power_value (suffix : later <:+ frame.tokens position) (base : Tree) :
    (do
      let value ← base.evaluate engine.settings (scope.lookup engine frame.depth)
      power engine (Activation.value engine scope) frame value (frame.placeOf later)) =
      frame.conclude (Rule.paired
        (Tree.evaluate engine.settings (scope.lookup engine frame.depth))
        (Grammar.powerAfter base later).result) := by
  rw [Frame.conclude_paired]
  simp only [power, tokens_placeOf suffix]
  cases later with
  | nil => rw [Grammar.result_powerAfter_nil]
  | cons token rest =>
      have behind : rest <:+ frame.tokens position := (List.suffix_cons token rest).trans suffix
      dsimp only
      split_ifs with power
      · rw [Grammar.result_powerAfter_power power, answer_placeOf behind, Rule.read,
          Frame.conclude_paired, Tree.evaluate]
        simp only [bind_assoc, pure_bind, Settings.operate]
      · rw [Grammar.result_powerAfter_stop power]

theorem factor_value (position : Nat) :
    factor engine scope (Activation.value engine scope) frame position =
      answer (Activation.value engine scope) frame position .factor := by
  rw [factor, answer_value, Rule.read]
  cases seen : frame.tokens position with
  | nil =>
      rw [Grammar.result_factor_nil, Frame.conclude_paired, Tree.evaluate]
      rfl
  | cons token rest =>
      have behind : rest <:+ frame.tokens position := seen ▸ List.suffix_cons token rest
      have operandBehind : (Grammar.operand token rest).result.2 <:+ frame.tokens position :=
        (Grammar.suffix_operand token rest).trans behind
      dsimp only
      split_ifs with plus minus
      · rw [Grammar.result_factor_plus plus, answer_placeOf behind, Rule.read,
          Frame.conclude_paired, Frame.conclude_paired, Tree.evaluate]
      · rw [Grammar.result_factor_minus minus, answer_placeOf behind, Rule.read,
          Frame.conclude_paired, Frame.conclude_paired, Tree.evaluate]
        simp only [bind_assoc, pure_bind]
      · rw [Grammar.result_factor_operand plus minus, ← power_value operandBehind,
          operand_value behind, Frame.conclude_paired, bind_assoc]
        simp only [pure_bind]

theorem product_value (position : Nat) :
    product engine scope (Activation.value engine scope) frame position =
      answer (Activation.value engine scope) frame position .product := by
  have suffix : (Grammar.factor (frame.tokens position)).result.2 <:+ frame.tokens position :=
    (Grammar.suffix_factor _).trans (List.tail_suffix _)
  rw [product, factor_value, answer_value, answer_value, Rule.read_product, Rule.read,
    Frame.conclude_paired, Rule.paired, bind_assoc, bind_assoc, Frame.conclude_bind]
  simp only [pure_bind, answer_placeOf suffix]

theorem sum_value (position : Nat) :
    sum engine scope (Activation.value engine scope) frame position =
      answer (Activation.value engine scope) frame position .sum := by
  have suffix : (Grammar.product (frame.tokens position)).result.2 <:+ frame.tokens position :=
    (Grammar.suffix_product _).trans (List.tail_suffix _)
  rw [sum, product_value, answer_value, answer_value, Rule.read_sum, Rule.read,
    Frame.conclude_paired, Rule.paired, bind_assoc, bind_assoc, Frame.conclude_bind]
  simp only [pure_bind, answer_placeOf suffix]

/-- A round of a loop, if operands leave a final part of the tokens. -/
theorem after_value {operator? : Char → Option Operator}
    (reading : (tokens : List Token) → Reading Tree tokens.length)
    (leaves : ∀ tokens, (reading tokens).result.2 <:+ tokens.tail)
    {next : Nat → Run (Decimal × Nat)} {others : Decimal → Nat → Run (Decimal × Nat)}
    (reads : ∀ tokens, tokens <:+ frame.tokens position → next (frame.placeOf tokens) =
      frame.conclude (Rule.paired
        (Tree.evaluate engine.settings (scope.lookup engine frame.depth)) (reading tokens).result))
    (follows : ∀ tokens, tokens <:+ frame.tokens position → ∀ left,
      others left (frame.placeOf tokens) = frame.conclude
        (Rule.follow engine.settings (scope.lookup engine frame.depth) operator? reading left
          tokens))
    (left : Decimal) :
    after engine frame operator? next others left position =
      frame.conclude (Rule.follow engine.settings (scope.lookup engine frame.depth) operator?
        reading left (frame.tokens position)) := by
  rw [after]
  cases seen : frame.tokens position with
  | nil => rw [Rule.follow_nil, Frame.conclude_pure]
  | cons token rest =>
      have behind : rest <:+ frame.tokens position := seen ▸ List.suffix_cons token rest
      have left_over : (reading rest).result.2 <:+ frame.tokens position :=
        ((leaves rest).trans (List.tail_suffix _)).trans behind
      dsimp only
      cases found : operator? token.head with
      | none => rw [Rule.follow_stop found, Frame.conclude_pure]
      | some operator =>
          dsimp only
          rw [Rule.follow_operator found, reads rest behind, Frame.conclude_paired, bind_assoc]
          simp only [pure_bind, follows _ left_over, Frame.conclude_bind]

theorem list_value (position : Nat) :
    list engine scope (Activation.value engine scope) frame position =
      answer (Activation.value engine scope) frame position .list := by
  have suffix : (Grammar.sum (frame.tokens position)).result.2 <:+ frame.tokens position :=
    (Grammar.suffix_sum _).trans (List.tail_suffix _)
  rw [list, sum_value, answer_value, answer_value, Rule.read, Rule.read, Frame.conclude_paired,
    Frame.conclude_paired, Grammar.result_list, bind_assoc, Tree.evaluateAll, bind_assoc]
  refine bind_congr fun first => ?_
  rw [pure_bind]
  dsimp only
  rw [tokens_placeOf suffix]
  generalize (Grammar.sum (frame.tokens position)).result.2 = later at suffix
  cases later with
  | nil =>
      rw [Grammar.result_listAfter_nil, Tree.evaluateAll]
      rfl
  | cons token rest =>
      have behind : rest <:+ frame.tokens position := (List.suffix_cons token rest).trans suffix
      dsimp only
      split_ifs with comma
      · rw [Grammar.result_listAfter_comma comma, answer_placeOf behind, Rule.read,
          Frame.conclude_paired]
        simp only [bind_assoc, pure_bind]
      · rw [Grammar.result_listAfter_stop comma, Tree.evaluateAll]
        rfl

/-- What the rules come to satisfies the description of one step. -/
theorem step_value (activation : Activation) :
    step engine scope (Activation.value engine scope) activation =
      Activation.value engine scope activation := by
  obtain ⟨frame, position, rule⟩ := activation
  cases rule with
  | sum => exact sum_value position
  | sumAfter left =>
      rw [step]
      refine after_value Grammar.product Grammar.suffix_product (fun tokens suffix => ?_)
        (fun tokens suffix result => ?_) left
      · exact answer_placeOf suffix .product
      · exact answer_placeOf suffix (.sumAfter result)
  | product => exact product_value position
  | productAfter left =>
      rw [step]
      refine after_value Grammar.factor Grammar.suffix_factor (fun tokens suffix => ?_)
        (fun tokens suffix result => ?_) left
      · exact answer_placeOf suffix .factor
      · exact answer_placeOf suffix (.productAfter result)
  | factor => exact factor_value position
  | list => exact list_value position

end Pass
end Reckoner
