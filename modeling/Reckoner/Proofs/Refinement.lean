import Reckoner.Proofs.Simulation

/-!
# Calculating a block

The calculation of the text of a block agrees with the meaning of the block: the same result, or the
same root cause (`calculate_agrees`).  Statements, names and functions may be written with any
spacing, and any values may be bound.  The one name that a defined function may not have is that of
the keyword, which would be taken for a `return` statement (`return_is_no_function`).
-/

namespace Reckoner

/-! ## The text of a block -/

/-- The text of a statement has no semicolon. -/
theorem Clause.Writes.not_mem {clause : Clause} {text : List Char} (writes : clause.Writes text)
    (words : clause.UsesWords) : ';' ∉ text := by
  have separator : ';' ∈ separators := by decide
  intro member
  cases writes with
  | answer spacing apart written =>
      rcases List.mem_append.mp member with inGap | inRest
      · exact nomatch spacing ';' inGap
      rcases List.mem_append.mp inRest with inKeyword | inBody
      · exact absurd inKeyword (by decide)
      · exact Phrase.not_mem_separators words written ';' inBody separator
  | @assign name expression left right target written =>
      rcases List.mem_append.mp member with inLeft | inRest
      · rcases target.mem_cases inLeft with spacing | ⟨unit, found, inUnit⟩
        · exact nomatch spacing
        · obtain rfl := List.mem_singleton.mp found
          exact nomatch name.isWordCharacter_of_mem ';' inUnit
      · rcases List.mem_cons.mp inRest with equality | inRight
        · exact absurd equality (by decide)
        · exact Phrase.not_mem_separators words written ';' inRight separator
  | @define name definition left right target written =>
      rcases List.mem_append.mp member with inLeft | inRest
      · exact Signature.not_mem_separators target ';' inLeft separator
      · rcases List.mem_cons.mp inRest with equality | inRight
        · exact absurd equality (by decide)
        · exact Phrase.not_mem_separators words.2 written ';' inRight separator

theorem Clause.WriteAll.not_mem {clauses : List Clause} {texts : List (List Char)}
    (writes : Clause.WriteAll clauses texts) (words : ∀ clause ∈ clauses, clause.UsesWords) :
    ∀ text ∈ texts, ';' ∉ text := by
  induction writes with
  | nil => simp
  | blank spacing _ ih =>
      rw [List.forall_mem_cons]
      exact ⟨fun member => (nomatch spacing ';' member), ih words⟩
  | cons first _ ih =>
      rw [List.forall_mem_cons] at words ⊢
      exact ⟨first.not_mem words.1, ih words.2⟩

/-- Trimming loses only blanks. -/
theorem mem_trim {character : Char} {text : List Char} (member : character ∈ text)
    (visible : isBlank character = false) : character ∈ trim text := by
  have kept {row : List Char} (inRow : character ∈ row) : character ∈ row.dropWhile isBlank := by
    rw [← List.takeWhile_append_dropWhile (p := isBlank) (l := row), List.mem_append] at inRow
    exact inRow.resolve_left fun dropped => by
      simp [List.mem_takeWhile_imp dropped] at visible
  rw [trim, List.mem_reverse]
  exact kept (List.mem_reverse.mpr (kept member))

/-- A text with a visible character that is no operator is no lone operator. -/
theorem Operator.ofExpression?_eq_none {character : Char} {text : List Char}
    (member : character ∈ text) (visible : isBlank character = false)
    (other : ∀ operator : Operator, operator.symbol ≠ character) : ofExpression? text = none := by
  rw [ofExpression?, List.find?_eq_none]
  intro operator _ same
  rw [beq_iff_eq] at same
  have inTrimmed := mem_trim member visible
  rw [same, List.mem_singleton] at inTrimmed
  exact other operator inTrimmed.symm

namespace Engine

variable {engine : Engine}

/-- Whether the engine's expression is a block. -/
def IsBlock (engine : Engine) : Prop := ';' ∈ engine.settings.expression.toList

instance : DecidablePred IsBlock := fun engine =>
  inferInstanceAs (Decidable (';' ∈ engine.settings.expression.toList))

/-- A block is no lone operator. -/
theorem ofExpression?_of_isBlock (block : engine.IsBlock) :
    Operator.ofExpression? engine.settings.expression.toList = none :=
  Operator.ofExpression?_eq_none block (by decide) fun operator => by cases operator <;> decide

theorem value_of_isBlock (block : engine.IsBlock) (bag : Bag) :
    engine.value bag = engine.runBlock bag := by
  have contains : engine.settings.expression.toList.contains ';' = true := by
    simpa [IsBlock] using block
  rw [value, ofExpression?_of_isBlock block]
  simp only [contains, if_true]

/-- An expression that is neither a block nor a lone operator is resolved and evaluated. -/
theorem outcome_value_of_single (noBlock : ¬ engine.IsBlock)
    (noOperator : Operator.ofExpression? engine.settings.expression.toList = none) (bag : Bag) :
    (engine.value bag).outcome = (do
      let resolved ← (engine.settings.resolve bag engine.settings.expression.toList).outcome
      (engine.settings.evaluate (engine.lookup fun _ => none) resolved).outcome) := by
  have contains : engine.settings.expression.toList.contains ';' = false := by
    simpa [IsBlock] using noBlock
  rw [value, noOperator]
  simp only [contains, Bool.false_eq_true, if_false]
  rw [Run.outcome_bind]
  rfl

/-- A calculation rounds the value of its expression for the result. -/
theorem outcome_calculate (engine : Engine) (bag : Bag) :
    (engine.calculate bag).outcome = (do
      let value ← (engine.value (engine.admitted bag)).outcome
      engine.settings.result.round value) := by
  rw [calculate]
  simp only [Run.outcome_bind, Run.outcome_ofExcept, Settings.outcome_note, Run.outcome_pure,
    ok_bind, bind_ok]

end Engine

/-- The value of an expression with a semicolon is that of a block of its parts. -/
theorem Engine.value_of_block {engine : Engine} (texts : List (List Char))
    (several : 2 ≤ texts.length) (absent : ∀ text ∈ texts, ';' ∉ text)
    (joined : engine.settings.expression.toList = [';'].intercalate texts) (bag : Bag) :
    engine.value bag = Scope.run engine ⟨bag, .empty⟩ texts := by
  have member : ';' ∈ engine.settings.expression.toList := by
    obtain ⟨first, next, later, rfl⟩ : ∃ first next later, texts = first :: next :: later := by
      match texts, several with
      | first :: next :: later, _ => exact ⟨first, next, later, rfl⟩
    rw [joined, List.intercalate_cons_cons]
    simp
  have nonempty : texts ≠ [] := by
    rintro rfl
    simp at several
  rw [value_of_isBlock member, Engine.runBlock, joined, splitAtEach_intercalate nonempty absent]

/-- Nulls that are dropped leave no new names. -/
theorem Engine.keys_admitted_subset (engine : Engine) (bag : Bag) :
    (engine.admitted bag).keys ⊆ bag.keys := by
  unfold Engine.admitted
  split
  · exact (List.filter_sublist.map Prod.fst).subset
  · exact List.Subset.refl _

/--
The calculation of the text of a block agrees with the meaning of the block: where the meaning is
stated, it has the same value, or fails with the same root cause.  Names are identifiers, and no two
of them differ only in case; functions are named by words, and none that the block defines is named
like the keyword `return`.
-/
theorem calculate_agrees (engine : Engine) (bag : Bag) (clauses : List Clause)
    (vocabulary : IsVocabulary (bag.keys ++ clauses.flatMap Clause.names))
    (words : ∀ clause ∈ clauses, clause.UsesWords)
    (avoids : ∀ clause ∈ clauses, clause.AvoidsKeyword)
    (writes : Clause.WriteBlock clauses engine.settings.expression.toList) :
    (engine.denote bag clauses).Agrees (engine.calculate bag).outcome := by
  obtain ⟨texts, several, joined, all⟩ := writes
  have proper : ∀ clause ∈ clauses,
      clause.IsProper (bag.keys ++ clauses.flatMap Clause.names) := fun clause member =>
    ⟨fun name found => List.mem_append_right _ (List.mem_flatMap.mpr ⟨clause, member, found⟩),
      words clause member, avoids clause member⟩
  have represents : Represents (bag.keys ++ clauses.flatMap Clause.names)
      ⟨(engine.admitted bag).environment, fun _ => none⟩ ⟨engine.admitted bag, .empty⟩ :=
    ⟨rfl, List.Subset.trans (engine.keys_admitted_subset bag) (List.subset_append_left _ _),
      fun _ => .none⟩
  have run := represents.agrees_run vocabulary engine all proper
  have block := Engine.value_of_block texts several (all.not_mem words) joined (engine.admitted bag)
  have whole := run.bind fun value => Stated.agrees_liftM (engine.settings.result.round value)
  rw [Engine.calculate, block]
  simpa [Engine.denote, bind_ok] using whole

/-! ## A function that sees a later variable -/

namespace LateBinding

/-- The name of the parameter. -/
def parameter : Identifier := ⟨"p", by decide +kernel⟩

/-- The name of the variable. -/
def outer : Identifier := ⟨"a", isIdentifier_a⟩

/-- The name of the function. -/
def function : FunctionName := ⟨"g", isFunctionName_g⟩

/-- A name as a product. -/
def reference (name : Identifier) : Phrase Atom .product :=
  .single (.plain (.atom (.reference name)))

/-- The expression `p + a`. -/
def body : Phrase Atom .sum :=
  .added (.alone (reference parameter)) .add Operator.isAdditive_add (reference outer)

/-- The expression `-4`. -/
def minusFour : Phrase Atom .sum :=
  .alone (.single (.minus (.plain (.atom (.literal (.ofDigit '4' rfl))))))

/-- The expression `g(a)`. -/
def call : Phrase Atom .sum :=
  .alone (.single (.plain (.apply function (.last (.alone (reference outer))))))

/-- The statements of the block. -/
def clauses : List Clause :=
  [.define function ⟨[parameter], body⟩, .assign outer minusFour, .answer call]

/-- The engine with the text of the block. -/
def engine : Engine := { settings := { expression := "g(p) = p + a; a = -4; return g(a);" } }

theorem vocabulary :
    IsVocabulary (Bindings.keys (.empty : Bag) ++ clauses.flatMap Clause.names) := by
  constructor
  · decide +kernel
  · decide

theorem words : ∀ clause ∈ clauses, clause.UsesWords := by
  have word : function.IsWord := forall_mem_of_all (by decide +kernel)
  have callless : body.CallsWords := by
    intro other member
    simp [body, reference, Phrase.pieces] at member
  have number : minusFour.CallsWords := by
    intro other member
    simp [minusFour, Phrase.pieces] at member
  have one : call.CallsWords := by
    intro other member
    simp only [call, reference, Phrase.pieces, List.mem_cons, List.mem_append, reduceCtorEq,
      List.not_mem_nil, or_false, Piece.calling.injEq] at member
    exact member ▸ word
  rw [clauses, List.forall_mem_cons, List.forall_mem_cons, List.forall_mem_singleton]
  exact ⟨⟨word, callless⟩, number, one⟩

theorem avoids : ∀ clause ∈ clauses, clause.AvoidsKeyword := by
  rw [clauses, List.forall_mem_cons, List.forall_mem_cons, List.forall_mem_singleton]
  exact ⟨by unfold Clause.AvoidsKeyword; decide, trivial, trivial⟩

theorem writes : Clause.WriteBlock clauses engine.settings.expression.toList := by
  have signature : Spaced ((Signature.pieces function [parameter]).map Signature.Piece.text)
      "g(p) ".toList :=
    .cons _ (.cons _ (.cons _ (.cons _ (.space rfl .nil))))
  have sum : Spaced (body.pieces.map Piece.text) " p + a".toList :=
    .space rfl (.cons _ (.space rfl (.cons _ (.space rfl (.single _)))))
  have target : Spaced [outer.name.toList] " a ".toList :=
    .space rfl (.cons _ (.space rfl .nil))
  have number : Spaced (minusFour.pieces.map Piece.text) " -4".toList :=
    .space rfl (.cons _ (.single _))
  have result : Spaced (call.pieces.map Piece.text) " g(a)".toList :=
    .space rfl (.cons _ (.cons _ (.single _)))
  have first : Clause.Writes (.define function ⟨[parameter], body⟩)
      ("g(p) ".toList ++ '=' :: " p + a".toList) := .define signature sum
  have second : Clause.Writes (.assign outer minusFour) (" a ".toList ++ '=' :: " -4".toList) :=
    .assign target number
  have third : Clause.Writes (.answer call)
      ([' '] ++ (Statement.returnKeyword ++ " g(a)".toList)) :=
    .answer (forall_mem_of_all (by decide)) (by decide) result
  refine ⟨["g(p) = p + a".toList, " a = -4".toList, " return g(a)".toList, []], by decide,
    by decide, ?_⟩
  exact .cons first (.cons second (.cons third (.blank (by simp) .nil)))

theorem run_denote : (engine.denote .empty clauses).run = some (.ok ⟨-80000000000, 10⟩) := by rfl

end LateBinding

/-- A function sees a variable that is assigned after it was defined. -/
theorem calculate_late_binding :
    (LateBinding.engine.calculate .empty).outcome = .ok ⟨-80000000000, 10⟩ :=
  eq_ok_of_rootCause (calculate_agrees LateBinding.engine .empty LateBinding.clauses
    LateBinding.vocabulary LateBinding.words LateBinding.avoids LateBinding.writes
    _ LateBinding.run_denote)

/-! ## Blocks that do not have their meaning -/

namespace KeywordFunction

/-- The name `return` for a function. -/
def function : FunctionName := ⟨"return", by decide⟩

/-- The name `y`. -/
def parameter : Identifier := ⟨"y", by decide +kernel⟩

/-- The expression `y`. -/
def body : Phrase Atom .sum := .alone (.single (.plain (.atom (.reference parameter))))

/-- The expression `1`. -/
def one : Phrase Atom .sum :=
  .alone (.single (.plain (.atom (.literal (.ofDigit '1' rfl)))))

/-- The expression `return(1)`. -/
def call : Phrase Atom .sum := .alone (.single (.plain (.apply function (.last one))))

/-- The statements of the block. -/
def clauses : List Clause := [.define function ⟨[parameter], body⟩, .answer call]

/-- The engine with the text of the block. -/
def engine : Engine := { settings := { expression := "return(y) = y; return return(1);" } }

theorem vocabulary :
    IsVocabulary (Bindings.keys (.empty : Bag) ++ clauses.flatMap Clause.names) := by
  constructor
  · decide +kernel
  · decide

theorem words : ∀ clause ∈ clauses, clause.UsesWords := by
  have word : function.IsWord := forall_mem_of_all (by decide +kernel)
  have callless : body.CallsWords := by
    intro other member
    simp [body, Phrase.pieces] at member
  have only : call.CallsWords := by
    intro other member
    simp only [call, one, Phrase.pieces, List.mem_cons, List.mem_append, reduceCtorEq,
      List.not_mem_nil, or_false, Piece.calling.injEq] at member
    exact member ▸ word
  rw [clauses, List.forall_mem_cons, List.forall_mem_singleton]
  exact ⟨⟨word, callless⟩, only⟩

theorem writes : Clause.WriteBlock clauses engine.settings.expression.toList := by
  have signature : Spaced ((Signature.pieces function [parameter]).map Signature.Piece.text)
      "return(y) ".toList :=
    .cons _ (.cons _ (.cons _ (.cons _ (.space rfl .nil))))
  have name : Spaced (body.pieces.map Piece.text) " y".toList := .space rfl (.single _)
  have result : Spaced (call.pieces.map Piece.text) " return(1)".toList :=
    .space rfl (.cons _ (.cons _ (.single _)))
  have first : Clause.Writes (.define function ⟨[parameter], body⟩)
      ("return(y) ".toList ++ '=' :: " y".toList) := .define signature name
  have second : Clause.Writes (.answer call)
      ([' '] ++ (Statement.returnKeyword ++ " return(1)".toList)) :=
    .answer (forall_mem_of_all (by decide)) (by decide) result
  refine ⟨["return(y) = y".toList, " return return(1)".toList, []], by decide, by decide, ?_⟩
  exact .cons first (.cons second (.blank (by simp) .nil))

theorem run_denote : (engine.denote .empty clauses).run = some (.ok ⟨10000000000, 10⟩) := by rfl

/-- The tokens of `(y) = y`, which is taken for the expression of a statement. -/
def tokens : List Token :=
  [⟨.mark, '(', [], 0⟩, ⟨.name, 'y', [], 1⟩, ⟨.mark, ')', [], 2⟩, ⟨.mark, '=', [], 4⟩,
    ⟨.name, 'y', [], 6⟩]

open Grammar in
/-- The name in the group is read as a call without its parenthesis. -/
theorem result_tokens : (Grammar.sum tokens).result =
    (.group (.call "y" [.unreadable (.unexpectedCharacter ')' 2)]), []) := by
  have argument : (Grammar.sum (tokens.drop 2)).result =
      (.unreadable (.unexpectedCharacter ')' 2), []) :=
    result_sum_of_operand (by decide) (by decide) (result_operand_mark (by decide) rfl _)
  have arguments : (Grammar.arguments (tokens.drop 2)).result =
      ([.unreadable (.unexpectedCharacter ')' 2)], []) := by
    rw [result_arguments_bare (by decide), result_list, argument, result_listAfter_nil]
    rfl
  have inner : (Grammar.sum (tokens.drop 1)).result =
      (.call "y" [.unreadable (.unexpectedCharacter ')' 2)], []) := by
    refine result_sum_of_operand (by decide) (by decide) ?_
    exact (result_operand_name (by decide) rfl (tokens.drop 2)).trans (by rw [arguments]; rfl)
  refine result_sum_of_operand (by decide) (by decide) ?_
  exact (result_operand_group rfl (tokens.drop 1)).trans (by rw [inner]; rfl)

/-- Without a binding, `y` is an unknown function. -/
theorem outcome_evaluate : (Scope.evaluate engine ⟨.empty, .empty⟩ 0 "(y) = y".toList).outcome =
    .error (.inExpression "(y) = y" (.unknownFunction "y")) := by
  have visible : trim "(y) = y".toList ≠ [] := by decide
  have trimmed : trim "(y) = y".toList = "(y) = y".toList := by decide
  have scanned : Token.scan "(y) = y".toList = tokens := by decide
  have unknown : (Scope.lookup engine ⟨.empty, .empty⟩ 0).outcomes "y" = none := by rfl
  rw [Scope.evaluate, Settings.outcome_evaluate visible, trimmed, scanned, Tree.ofTokens,
    Reading.outcome_evaluate_of_result result_tokens, Tree.outcome_evaluate_group,
    Tree.outcome_evaluate_call, unknown]
  rfl

theorem outcome_calculate : (engine.calculate .empty).outcome =
    .error (.inExpression "(y) = y" (.unknownFunction "y")) := by
  have read : Statement.ofText? "return(y) = y".toList = .ok (some (.answer "(y) = y")) := by rfl
  have resolved : (engine.settings.resolve .empty "(y) = y".toList).outcome =
      .ok "(y) = y".toList := by rfl
  have joined : engine.settings.expression.toList =
      [';'].intercalate ["return(y) = y".toList, " return return(1)".toList, []] := by decide
  have block := Engine.value_of_block _ (by decide) (by decide) joined .empty
  have value : (Scope.value engine ⟨.empty, .empty⟩ "(y) = y").outcome =
      .error (.inExpression "(y) = y" (.unknownFunction "y")) := by
    rw [Scope.value, Run.outcome_bind, resolved, ok_bind, outcome_evaluate]
  have admitted : engine.admitted .empty = .empty := rfl
  rw [Engine.calculate, admitted, block, Run.outcome_bind, Scope.outcome_run_answer read, value]
  rfl

end KeywordFunction

namespace CoarseConstants

/-- The engine of the block `return 1;` at a precision that the constants cannot be rounded to. -/
def engine : Engine :=
  { settings := { expression := "return 1;", calculation := { scale := -999990 } } }

/-- The number itself can be rounded, to both precisions. -/
theorem round_literal :
    (engine.settings.calculation.literal ['1'] >>= engine.settings.result.round) =
      .ok ⟨0, 10⟩ := by
  decide +kernel

theorem outcome_calculate :
    (engine.calculate .empty).outcome = .error (.scaleOutOfRange 1000005) := by
  have read : Statement.ofText? "return 1".toList = .ok (some (.answer "1")) := by rfl
  have pi : engine.settings.calculation.round piNumber = .error (.scaleOutOfRange 1000005) := by
    decide +kernel
  have constants : Constants.rounded engine.settings.calculation =
      .error (.scaleOutOfRange 1000005) := by
    rw [Constants.rounded, pi]
    rfl
  have joined : engine.settings.expression.toList =
      [';'].intercalate ["return 1".toList, []] := by decide
  have block := Engine.value_of_block _ (by decide) (by decide) joined .empty
  have value : (Scope.value engine ⟨.empty, .empty⟩ "1").outcome =
      .error (.scaleOutOfRange 1000005) := by
    rw [Scope.value, Run.outcome_bind, Settings.outcome_resolve, constants]
    rfl
  have admitted : engine.admitted .empty = .empty := rfl
  rw [Engine.calculate, admitted, block, Run.outcome_bind, Scope.outcome_run_answer read, value]
  rfl

end CoarseConstants

/--
Agreement has two limits.  A function that is named like the keyword is not defined, although its
block has a meaning.  And where the constants cannot be rounded to the precision of a calculation,
not even a literal is evaluated that can be.
-/
theorem return_is_no_function :
    (¬ ∀ (engine : Engine) (bag : Bag) (clauses : List Clause),
      IsVocabulary (bag.keys ++ clauses.flatMap Clause.names) →
      (∀ clause ∈ clauses, clause.UsesWords) →
      Clause.WriteBlock clauses engine.settings.expression.toList →
      (engine.denote bag clauses).Agrees (engine.calculate bag).outcome) ∧
    (CoarseConstants.engine.calculate .empty).outcome = .error (.scaleOutOfRange 1000005) ∧
    (CoarseConstants.engine.settings.calculation.literal ['1'] >>=
      CoarseConstants.engine.settings.result.round) = .ok ⟨0, 10⟩ := by
  refine ⟨fun agrees => ?_, CoarseConstants.outcome_calculate, CoarseConstants.round_literal⟩
  have same := agrees KeywordFunction.engine .empty KeywordFunction.clauses
    KeywordFunction.vocabulary KeywordFunction.words KeywordFunction.writes _
    KeywordFunction.run_denote
  rw [KeywordFunction.outcome_calculate] at same
  exact nomatch same

end Reckoner
