import Reckoner.Proofs.Lexical
import Reckoner.Proofs.Reading

/-!
# What was read is a phrase

Whatever tokens the grammar reads a tree with a value from, the tree is that of a phrase, and the
tokens are the lexemes of the phrase in their order, some omissible parentheses left out.  One
statement for each reading function follows its recursion; the loops that continue a chain extend
the phrase to their left.
-/

namespace Reckoner

open Grammar Reading

/-- The texts that are left of some lexemes when parentheses are omitted that may be missing. -/
inductive Shortens : List (Lexeme Literal) → List (List Char) → Prop
  | nil : Shortens [] []
  | keep (lexeme : Lexeme Literal) {lexemes : List (Lexeme Literal)} {texts : List (List Char)}
      (rest : Shortens lexemes texts) :
      Shortens (lexeme :: lexemes) (lexeme.text Literal.text :: texts)
  | omit {lexeme : Lexeme Literal} (omissible : lexeme.isOmissible = true)
      {lexemes : List (Lexeme Literal)} {texts : List (List Char)}
      (rest : Shortens lexemes texts) : Shortens (lexeme :: lexemes) texts

namespace Shortens

variable {left right : List (Lexeme Literal)} {leftTexts rightTexts texts : List (List Char)}

theorem append (first : Shortens left leftTexts) (second : Shortens right rightTexts) :
    Shortens (left ++ right) (leftTexts ++ rightTexts) := by
  induction first with
  | nil => exact second
  | keep lexeme _ ih => exact .keep lexeme ih
  | «omit» omissible _ ih => exact .omit omissible ih

/-- A mark at the front that is written. -/
theorem mark (character : Char) (rest : Shortens left texts) :
    Shortens (.mark character :: left) ([character] :: texts) := .keep (.mark character) rest

/-- A closing parenthesis that is passed over, or missing. -/
theorem closing (first : Shortens left leftTexts) {used : List (List Char)}
    (passed : used = [] ∨ used = [[')']]) :
    Shortens (left ++ [.closing]) (leftTexts ++ used) := by
  refine first.append ?_
  rcases passed with rfl | rfl
  · exact .omit rfl .nil
  · exact .keep .closing .nil

end Shortens

namespace Token

/-- Whether all of some tokens came from a scan. -/
def AllWellFormed (tokens : List Token) : Prop := ∀ token ∈ tokens, token.WellFormed

theorem AllWellFormed.of_append {first second : List Token}
    (wellFormed : AllWellFormed (first ++ second)) : AllWellFormed second :=
  fun token member => wellFormed token (List.mem_append_right first member)

theorem AllWellFormed.of_cons {token : Token} {tokens : List Token}
    (wellFormed : AllWellFormed (token :: tokens)) : AllWellFormed tokens :=
  fun other member => wellFormed other (List.mem_cons_of_mem token member)

/-- A token that begins with a mark is that mark. -/
theorem WellFormed.text_of_mark {token : Token} (wellFormed : token.WellFormed)
    {character : Char} (head : token.head = character)
    (mark : character ∈ grammarMarks) : token.text = [character] := by
  obtain ⟨kind, first, tail, position⟩ := token
  obtain ⟨-, lexical⟩ := wellFormed
  subst head
  cases lexical with
  | lone => rfl
  | run _ _ run => exact absurd (grammarMarks_facts _ mark).1 run

/-- A token of digits and points is a literal. -/
theorem WellFormed.exists_literal {token : Token} (wellFormed : token.WellFormed)
    (kind : token.kind = .number) : ∃ literal : Literal, literal.text = token.text := by
  have headKind := wellFormed.kind.symm.trans kind
  refine ⟨⟨token.text, List.cons_ne_nil _ _, fun character member => ?_⟩, rfl⟩
  rw [← TokenKind.ofCharacter_eq_number_iff, wellFormed.lexical.uniform character member]
  exact headKind

/-- A token of function characters is the name of a function. -/
theorem WellFormed.exists_functionName {token : Token} (wellFormed : token.WellFormed)
    (kind : token.kind = .name) :
    ∃ function : FunctionName, function.name = String.ofList token.text := by
  have headKind := wellFormed.kind.symm.trans kind
  have members : ∀ character ∈ token.text, isFunctionCharacter character = true := by
    intro character member
    rw [← TokenKind.ofCharacter_eq_name_iff, wellFormed.lexical.uniform character member]
    exact headKind
  refine ⟨⟨String.ofList token.text, ?_⟩, rfl⟩
  rw [isFunctionName, String.toList_ofList, Bool.and_eq_true, List.all_eq_true]
  exact ⟨rfl, members⟩

end Token

open Token (AllWellFormed)

/-- Whether a reading took the text of a phrase: its tree was read, and the tokens before the rest
are its lexemes with parentheses omitted. -/
def Level.Derives (level : Level) (tokens : List Token)
    (result : level.Form × List Token) : Prop :=
  ∃ used, tokens = used ++ result.2 ∧ ∃ phrase : Phrase Literal level,
    phrase.tree = result.1 ∧ Shortens phrase.lexemes (used.map Token.text)

/-- Whether a loop read on from a tree: whatever phrase the tree belongs to, the result is a phrase
that goes on with the tokens before the rest. -/
def Level.Extends (level : Level) (left : level.Form) (tokens : List Token)
    (result : level.Form × List Token) : Prop :=
  ∃ used, tokens = used ++ result.2 ∧ ∀ phrase : Phrase Literal level, phrase.tree = left →
    ∀ seen, Shortens phrase.lexemes seen → ∃ longer : Phrase Literal level,
      longer.tree = result.1 ∧ Shortens longer.lexemes (seen ++ used.map Token.text)

/-- The tokens after a derived phrase came from the same scan. -/
theorem Level.Derives.allWellFormed {level : Level} {tokens : List Token}
    {result : level.Form × List Token} (derives : level.Derives tokens result)
    (wellFormed : AllWellFormed tokens) : AllWellFormed result.2 := by
  obtain ⟨used, rfl, -⟩ := derives
  exact wellFormed.of_append

theorem Level.extends_nothing (level : Level) (left : level.Form) (tokens : List Token) :
    level.Extends left tokens (left, tokens) :=
  ⟨[], rfl, fun phrase same seen shortens => ⟨phrase, same, by simpa using shortens⟩⟩

/-- Reading on twice. -/
theorem Level.Extends.trans {level : Level} {left middle : level.Form} {tokens rest : List Token}
    {result : level.Form × List Token} (first : level.Extends left tokens (middle, rest))
    (second : level.Extends middle rest result) : level.Extends left tokens result := by
  obtain ⟨used, rfl, grow⟩ := first
  obtain ⟨more, rfl, growMore⟩ := second
  refine ⟨used ++ more, by simp, fun phrase same seen shortens => ?_⟩
  obtain ⟨longer, longerSame, longerShortens⟩ := grow phrase same seen shortens
  simpa using growMore longer longerSame _ longerShortens

/-- A phrase followed by what a loop reads. -/
theorem Level.Derives.extend {level : Level} {tokens : List Token} {left : level.Form}
    {rest : List Token} {result : level.Form × List Token}
    (derives : level.Derives tokens (left, rest)) (extend : level.Extends left rest result) :
    level.Derives tokens result := by
  obtain ⟨used, rfl, phrase, same, shortens⟩ := derives
  obtain ⟨more, rfl, grow⟩ := extend
  obtain ⟨longer, longerSame, longerShortens⟩ := grow phrase same _ shortens
  exact ⟨used ++ more, by simp, longer, longerSame, by simpa using longerShortens⟩

/-- What passing over a closing parenthesis uses. -/
theorem exists_passOver {tokens : List Token} (wellFormed : AllWellFormed tokens) :
    ∃ used, tokens = used ++ passOver ')' tokens ∧
      (used.map Token.text = [] ∨ used.map Token.text = [[')']]) := by
  cases tokens with
  | nil => exact ⟨[], rfl, .inl rfl⟩
  | cons token rest =>
      by_cases closing : token.head = ')'
      · have text := (wellFormed token List.mem_cons_self).text_of_mark closing (by decide)
        exact ⟨[token], by simp [passOver, closing], .inr (by simp [text])⟩
      · exact ⟨[], by simp [passOver, closing], .inl rfl⟩

/-! ## The parts of a reading -/

section Parts

variable {token : Token} {tokens rest later : List Token} {tree left right : Tree}
  {trees : List Tree} {operator : Operator}

theorem Level.Derives.alone (derives : Level.product.Derives tokens (tree, rest)) :
    Level.sum.Derives tokens (tree, rest) := by
  obtain ⟨used, split, phrase, same, shortens⟩ := derives
  exact ⟨used, split, .alone phrase, same, shortens⟩

theorem Level.Derives.single (derives : Level.factor.Derives tokens (tree, rest)) :
    Level.product.Derives tokens (tree, rest) := by
  obtain ⟨used, split, phrase, same, shortens⟩ := derives
  exact ⟨used, split, .single phrase, same, shortens⟩

theorem Level.Derives.plain (derives : Level.operand.Derives tokens (tree, rest)) :
    Level.factor.Derives tokens (tree, rest) := by
  obtain ⟨used, split, phrase, same, shortens⟩ := derives
  exact ⟨used, split, .plain phrase, same, shortens⟩

theorem Level.Derives.plus (sign : token.text = ['+'])
    (derives : Level.factor.Derives tokens (tree, rest)) :
    Level.factor.Derives (token :: tokens) (.plus tree, rest) := by
  obtain ⟨used, rfl, phrase, same, shortens⟩ := derives
  refine ⟨token :: used, rfl, .plus phrase, congrArg Tree.plus same, ?_⟩
  rw [List.map_cons, sign]
  exact shortens.mark '+'

theorem Level.Derives.minus (sign : token.text = ['-'])
    (derives : Level.factor.Derives tokens (tree, rest)) :
    Level.factor.Derives (token :: tokens) (.minus tree, rest) := by
  obtain ⟨used, rfl, phrase, same, shortens⟩ := derives
  refine ⟨token :: used, rfl, .minus phrase, congrArg Tree.minus same, ?_⟩
  rw [List.map_cons, sign]
  exact shortens.mark '-'

/-- An operand, the mark of a power, and a factor. -/
theorem Level.Derives.power (base : Level.operand.Derives tokens (left, token :: rest))
    (mark : token.text = ['^']) (exponent : Level.factor.Derives rest (right, later)) :
    Level.factor.Derives tokens (.operation .power left right, later) := by
  obtain ⟨used, rfl, phrase, same, shortens⟩ := base
  obtain ⟨more, rfl, other, otherSame, otherShortens⟩ := exponent
  refine ⟨used ++ token :: more, by simp, .power phrase other, ?_, ?_⟩
  · exact congrArg₂ (Tree.operation .power) same otherSame
  · rw [List.map_append, List.map_cons, mark]
    exact shortens.append (otherShortens.mark '^')

/-- A sum in parentheses, the closing one perhaps missing. -/
theorem Level.Derives.group (opening : token.text = ['('])
    (derives : Level.sum.Derives tokens (tree, rest)) (wellFormed : AllWellFormed rest) :
    Level.operand.Derives (token :: tokens) (.group tree, passOver ')' rest) := by
  obtain ⟨used, rfl, phrase, same, shortens⟩ := derives
  obtain ⟨more, split, passed⟩ := exists_passOver wellFormed
  refine ⟨token :: (used ++ more), by simp [← split], .group phrase, congrArg Tree.group same, ?_⟩
  rw [List.map_cons, List.map_append, opening]
  exact (shortens.closing passed).mark '('

theorem Level.Derives.last (derives : Level.sum.Derives tokens (tree, rest)) :
    Level.list.Derives tokens ([tree], rest) := by
  obtain ⟨used, split, phrase, same, shortens⟩ := derives
  exact ⟨used, split, .last phrase, congrArg (fun argument => [argument]) same, shortens⟩

theorem Level.Derives.cons (argument : Level.sum.Derives tokens (tree, token :: rest))
    (comma : token.text = [',']) (others : Level.list.Derives rest (trees, later)) :
    Level.list.Derives tokens (tree :: trees, later) := by
  obtain ⟨used, rfl, phrase, same, shortens⟩ := argument
  obtain ⟨more, rfl, other, otherSame, otherShortens⟩ := others
  refine ⟨used ++ token :: more, by simp, .cons phrase other,
    congrArg₂ List.cons same otherSame, ?_⟩
  rw [List.map_append, List.map_cons, comma]
  exact shortens.append (otherShortens.mark ',')

/-- A function name with an empty pair of parentheses. -/
theorem Level.derives_call {first second : Token} {function : FunctionName}
    (name : function.name = String.ofList token.text) (opening : first.text = ['('])
    (closing : second.text = [')']) :
    Level.operand.Derives (token :: first :: second :: rest)
      (.call (String.ofList token.text) [], rest) := by
  refine ⟨[token, first, second], rfl, .call function, by rw [Phrase.tree, name], ?_⟩
  have text : token.text = (Lexeme.name function).text Literal.text := by simp [Lexeme.text, name]
  simp only [List.map_cons, List.map_nil, opening, closing, text]
  exact .keep _ ((Shortens.nil.mark ')').mark '(')

/-- A function name and a list of arguments, each parenthesis perhaps missing. -/
theorem Level.Derives.apply {function : FunctionName} (opening : List Token)
    (name : function.name = String.ofList token.text)
    (opened : opening.map Token.text = [] ∨ opening.map Token.text = [['(']])
    (derives : Level.list.Derives tokens (trees, rest)) (wellFormed : AllWellFormed rest) :
    Level.operand.Derives (token :: (opening ++ tokens))
      (.call (String.ofList token.text) trees, passOver ')' rest) := by
  obtain ⟨used, rfl, phrase, same, shortens⟩ := derives
  obtain ⟨more, split, passed⟩ := exists_passOver wellFormed
  refine ⟨token :: (opening ++ (used ++ more)), by simp [← split], .apply function phrase, ?_, ?_⟩
  · rw [Phrase.tree, name, same]
  · have text : token.text = (Lexeme.name function).text Literal.text := by
      simp [Lexeme.text, name]
    rw [List.map_cons, List.map_append, List.map_append, text]
    refine .keep _ ?_
    rcases opened with opened | opened
    · rw [opened]
      exact .omit rfl (shortens.closing passed)
    · rw [opened]
      exact .keep .opening (shortens.closing passed)

/-- One more product in a sum. -/
theorem Level.Derives.added (derives : Level.product.Derives rest (right, later))
    (fits : operator.isAdditive = true) (mark : token.text = [operator.symbol]) :
    Level.sum.Extends left (token :: rest) (.operation operator left right, later) := by
  obtain ⟨used, rfl, other, otherSame, otherShortens⟩ := derives
  refine ⟨token :: used, rfl, fun phrase same seen shortens => ?_⟩
  refine ⟨.added phrase operator fits other, ?_, ?_⟩
  · exact congrArg₂ (Tree.operation operator) same otherSame
  · rw [List.map_cons, mark]
    exact shortens.append (otherShortens.mark operator.symbol)

/-- One more factor in a product. -/
theorem Level.Derives.multiplied (derives : Level.factor.Derives rest (right, later))
    (fits : operator.isMultiplicative = true) (mark : token.text = [operator.symbol]) :
    Level.product.Extends left (token :: rest) (.operation operator left right, later) := by
  obtain ⟨used, rfl, other, otherSame, otherShortens⟩ := derives
  refine ⟨token :: used, rfl, fun phrase same seen shortens => ?_⟩
  refine ⟨.multiplied phrase operator fits other, ?_, ?_⟩
  · exact congrArg₂ (Tree.operation operator) same otherSame
  · rw [List.map_cons, mark]
    exact shortens.append (otherShortens.mark operator.symbol)

end Parts

/-! ## Marks that were found -/

theorem Token.WellFormed.text_of_sumOperator {token : Token} (wellFormed : token.WellFormed)
    {operator : Operator} (found : sumOperator? token.head = some operator) :
    operator.isAdditive = true ∧ token.text = [operator.symbol] := by
  unfold sumOperator? at found
  split at found
  case isTrue plus =>
    obtain rfl := Option.some.inj found
    exact ⟨rfl, wellFormed.text_of_mark plus (by decide)⟩
  case isFalse noPlus =>
    split at found
    case isTrue minus =>
      obtain rfl := Option.some.inj found
      exact ⟨rfl, wellFormed.text_of_mark minus (by decide)⟩
    case isFalse noMinus => exact absurd found (by simp)

theorem Token.WellFormed.text_of_productOperator {token : Token} (wellFormed : token.WellFormed)
    {operator : Operator} (found : productOperator? token.head = some operator) :
    operator.isMultiplicative = true ∧ token.text = [operator.symbol] := by
  unfold productOperator? at found
  split at found
  case isTrue times =>
    obtain rfl := Option.some.inj found
    exact ⟨rfl, wellFormed.text_of_mark times (by decide)⟩
  case isFalse noTimes =>
    split at found
    case isTrue slash =>
      obtain rfl := Option.some.inj found
      exact ⟨rfl, wellFormed.text_of_mark slash (by decide)⟩
    case isFalse noOver => exact absurd found (by simp)

/-! ## Loops that end with a value -/

section

variable {settings : Settings} {lookup : Lookup}

/-- A chain that has a value began with one. -/
theorem evaluates_of_sumAfter (left : Tree) (tokens : List Token)
    (evaluates : (sumAfter left tokens).result.1.Evaluates settings lookup) :
    left.Evaluates settings lookup := by
  match tokens, evaluates with
  | [], evaluates =>
      rw [result_sumAfter_nil] at evaluates
      exact evaluates
  | token :: rest, evaluates =>
      cases found : sumOperator? token.head with
      | none =>
          rw [result_sumAfter_stop found] at evaluates
          exact evaluates
      | some operator =>
          rw [result_sumAfter_operator found] at evaluates
          have short : (product rest).result.2.length ≤ rest.length := (product rest).short
          exact (evaluates_of_sumAfter _ _ evaluates).of_operation.1
termination_by tokens.length

theorem evaluates_of_productAfter (left : Tree) (tokens : List Token)
    (evaluates : (productAfter left tokens).result.1.Evaluates settings lookup) :
    left.Evaluates settings lookup := by
  match tokens, evaluates with
  | [], evaluates =>
      rw [result_productAfter_nil] at evaluates
      exact evaluates
  | token :: rest, evaluates =>
      cases found : productOperator? token.head with
      | none =>
          rw [result_productAfter_stop found] at evaluates
          exact evaluates
      | some operator =>
          rw [result_productAfter_operator found] at evaluates
          have short : (factor rest).result.2.length ≤ rest.length := (factor rest).short
          exact (evaluates_of_productAfter _ _ evaluates).of_operation.1
termination_by tokens.length

theorem evaluates_of_powerAfter (base : Tree) (tokens : List Token)
    (evaluates : (powerAfter base tokens).result.1.Evaluates settings lookup) :
    base.Evaluates settings lookup := by
  match tokens, evaluates with
  | [], evaluates =>
      rw [result_powerAfter_nil] at evaluates
      exact evaluates
  | token :: rest, evaluates =>
      by_cases power : token.head = '^'
      · rw [result_powerAfter_power power] at evaluates
        exact evaluates.of_operation.1
      · rw [result_powerAfter_stop power] at evaluates
        exact evaluates

/-! ## Readings -/

mutual

theorem derives_sum (tokens : List Token) (wellFormed : AllWellFormed tokens)
    (evaluates : (Grammar.sum tokens).result.1.Evaluates settings lookup) :
    Level.sum.Derives tokens (Grammar.sum tokens).result := by
  rw [result_sum] at evaluates ⊢
  have short := (product tokens).short
  have first := derives_product tokens wellFormed (evaluates_of_sumAfter _ _ evaluates)
  exact first.alone.extend (extends_sum _ _ (first.allWellFormed wellFormed) evaluates)
termination_by 6 * tokens.length + 2

theorem extends_sum (left : Tree) (tokens : List Token) (wellFormed : AllWellFormed tokens)
    (evaluates : (sumAfter left tokens).result.1.Evaluates settings lookup) :
    Level.sum.Extends left tokens (sumAfter left tokens).result := by
  match tokens, wellFormed, evaluates with
  | [], wellFormed, evaluates =>
      rw [result_sumAfter_nil]
      exact Level.extends_nothing .sum left []
  | token :: rest, wellFormed, evaluates =>
      cases found : sumOperator? token.head with
      | none =>
          rw [result_sumAfter_stop found]
          exact Level.extends_nothing .sum left (token :: rest)
      | some operator =>
          rw [result_sumAfter_operator found] at evaluates ⊢
          have short := (product rest).short
          obtain ⟨fits, mark⟩ := (wellFormed token List.mem_cons_self).text_of_sumOperator found
          have right := derives_product rest wellFormed.of_cons
            (evaluates_of_sumAfter _ _ evaluates).of_operation.2
          exact (right.added fits mark).trans
            (extends_sum _ _ (right.allWellFormed wellFormed.of_cons) evaluates)
termination_by 6 * tokens.length

theorem derives_product (tokens : List Token) (wellFormed : AllWellFormed tokens)
    (evaluates : (product tokens).result.1.Evaluates settings lookup) :
    Level.product.Derives tokens (product tokens).result := by
  rw [result_product] at evaluates ⊢
  have short := (factor tokens).short
  have first := derives_factor tokens wellFormed (evaluates_of_productAfter _ _ evaluates)
  exact first.single.extend (extends_product _ _ (first.allWellFormed wellFormed) evaluates)
termination_by 6 * tokens.length + 1

theorem extends_product (left : Tree) (tokens : List Token) (wellFormed : AllWellFormed tokens)
    (evaluates : (productAfter left tokens).result.1.Evaluates settings lookup) :
    Level.product.Extends left tokens (productAfter left tokens).result := by
  match tokens, wellFormed, evaluates with
  | [], wellFormed, evaluates =>
      rw [result_productAfter_nil]
      exact Level.extends_nothing .product left []
  | token :: rest, wellFormed, evaluates =>
      cases found : productOperator? token.head with
      | none =>
          rw [result_productAfter_stop found]
          exact Level.extends_nothing .product left (token :: rest)
      | some operator =>
          rw [result_productAfter_operator found] at evaluates ⊢
          have short := (factor rest).short
          obtain ⟨fits, mark⟩ :=
            (wellFormed token List.mem_cons_self).text_of_productOperator found
          have right := derives_factor rest wellFormed.of_cons
            (evaluates_of_productAfter _ _ evaluates).of_operation.2
          exact (right.multiplied fits mark).trans
            (extends_product _ _ (right.allWellFormed wellFormed.of_cons) evaluates)
termination_by 6 * tokens.length

theorem derives_factor (tokens : List Token) (wellFormed : AllWellFormed tokens)
    (evaluates : (factor tokens).result.1.Evaluates settings lookup) :
    Level.factor.Derives tokens (factor tokens).result := by
  match tokens, wellFormed, evaluates with
  | [], wellFormed, evaluates =>
      rw [result_factor_nil] at evaluates
      exact absurd evaluates (Tree.not_evaluates_unreadable _)
  | token :: rest, wellFormed, evaluates =>
      have front := wellFormed token List.mem_cons_self
      by_cases plus : token.head = '+'
      · rw [result_factor_plus plus] at evaluates ⊢
        exact (derives_factor rest wellFormed.of_cons evaluates.of_plus).plus
          (front.text_of_mark plus (by decide))
      by_cases minus : token.head = '-'
      · rw [result_factor_minus minus] at evaluates ⊢
        exact (derives_factor rest wellFormed.of_cons evaluates.of_minus).minus
          (front.text_of_mark minus (by decide))
      rw [result_factor_operand plus minus] at evaluates ⊢
      have short : (operand token rest).result.2.length ≤ rest.length := (operand token rest).short
      have base := derives_operand token rest wellFormed (evaluates_of_powerAfter _ _ evaluates)
      exact derives_power _ _ base (base.allWellFormed wellFormed) evaluates
termination_by 6 * tokens.length

theorem derives_operand (token : Token) (rest : List Token)
    (wellFormed : AllWellFormed (token :: rest))
    (evaluates : (operand token rest).result.1.Evaluates settings lookup) :
    Level.operand.Derives (token :: rest) (operand token rest).result := by
  have front := wellFormed token List.mem_cons_self
  by_cases opening : token.head = '('
  · rw [result_operand_group opening] at evaluates ⊢
    have inner := derives_sum rest wellFormed.of_cons evaluates.of_group
    exact inner.group (front.text_of_mark opening (by decide))
      (inner.allWellFormed wellFormed.of_cons)
  cases kind : token.kind with
  | number =>
      rw [result_operand_number opening kind]
      obtain ⟨literal, text⟩ := front.exists_literal kind
      refine ⟨[token], rfl, .atom literal, congrArg Tree.number text, ?_⟩
      rw [List.map_cons, ← text]
      exact .keep (.atom literal) .nil
  | name =>
      rw [result_operand_name opening kind] at evaluates ⊢
      obtain ⟨function, name⟩ := front.exists_functionName kind
      exact derives_arguments token rest name wellFormed.of_cons evaluates.of_call
  | mark =>
      rw [result_operand_mark opening kind] at evaluates
      exact absurd evaluates (Tree.not_evaluates_unreadable _)
termination_by 6 * rest.length + 5

theorem derives_power {whole : List Token} (base : Tree) (tokens : List Token)
    (derives : Level.operand.Derives whole (base, tokens)) (wellFormed : AllWellFormed tokens)
    (evaluates : (powerAfter base tokens).result.1.Evaluates settings lookup) :
    Level.factor.Derives whole (powerAfter base tokens).result := by
  match tokens, derives, wellFormed, evaluates with
  | [], derives, wellFormed, evaluates =>
      rw [result_powerAfter_nil]
      exact derives.plain
  | token :: rest, derives, wellFormed, evaluates =>
      by_cases power : token.head = '^'
      · rw [result_powerAfter_power power] at evaluates ⊢
        have mark := (wellFormed token List.mem_cons_self).text_of_mark power (by decide)
        exact derives.power mark
          (derives_factor rest wellFormed.of_cons evaluates.of_operation.2)
      · rw [result_powerAfter_stop power]
        exact derives.plain
termination_by 6 * tokens.length

theorem derives_arguments (token : Token) (tokens : List Token) {function : FunctionName}
    (name : function.name = String.ofList token.text) (wellFormed : AllWellFormed tokens)
    (evaluates : Tree.EvaluateAll settings lookup (arguments tokens).result.1) :
    Level.operand.Derives (token :: tokens)
      (.call (String.ofList token.text) (arguments tokens).result.1,
        (arguments tokens).result.2) := by
  by_cases opened : ∃ first rest, tokens = first :: rest ∧ first.head = '('
  · obtain ⟨first, rest, rfl, opening⟩ := opened
    have text := (wellFormed first List.mem_cons_self).text_of_mark opening (by decide)
    by_cases closed : rest.head?.map Token.head = some ')'
    · obtain ⟨second, others, rfl, closing⟩ : ∃ second others, rest = second :: others ∧
          second.head = ')' := by
        cases rest with
        | nil => exact absurd closed (by simp)
        | cons second others => exact ⟨second, others, rfl, by simpa using closed⟩
      rw [result_arguments_empty opening closing]
      exact Level.derives_call name text
        ((wellFormed second (by simp)).text_of_mark closing (by decide))
    · rw [result_arguments_opening opening closed] at evaluates ⊢
      have list := derives_list rest wellFormed.of_cons evaluates
      exact list.apply [first] name (.inr (by simp [text]))
        (list.allWellFormed wellFormed.of_cons)
  · have bare : ∀ token ∈ tokens.head?, token.head ≠ '(' := by
      intro first found opening
      obtain ⟨rest, rfl⟩ := List.head?_eq_some_iff.mp found
      exact opened ⟨first, rest, rfl, opening⟩
    rw [result_arguments_bare bare] at evaluates ⊢
    have list := derives_list tokens wellFormed evaluates
    exact list.apply [] name (.inl rfl) (list.allWellFormed wellFormed)
termination_by 6 * tokens.length + 4

theorem derives_list (tokens : List Token) (wellFormed : AllWellFormed tokens)
    (evaluates : Tree.EvaluateAll settings lookup (Grammar.list tokens).result.1) :
    Level.list.Derives tokens (Grammar.list tokens).result := by
  rw [result_list] at evaluates ⊢
  have short : (Grammar.sum tokens).result.2.length ≤ tokens.length := (Grammar.sum tokens).short
  have first := derives_sum tokens wellFormed evaluates.of_cons.1
  exact derives_listAfter _ _ first (first.allWellFormed wellFormed) evaluates.of_cons.2
termination_by 6 * tokens.length + 3

theorem derives_listAfter {whole : List Token} (argument : Tree) (tokens : List Token)
    (derives : Level.sum.Derives whole (argument, tokens)) (wellFormed : AllWellFormed tokens)
    (evaluates : Tree.EvaluateAll settings lookup (listAfter tokens).result.1) :
    Level.list.Derives whole
      (argument :: (listAfter tokens).result.1, (listAfter tokens).result.2) := by
  match tokens, derives, wellFormed, evaluates with
  | [], derives, wellFormed, evaluates =>
      rw [result_listAfter_nil]
      exact derives.last
  | token :: rest, derives, wellFormed, evaluates =>
      by_cases comma : token.head = ','
      · rw [result_listAfter_comma comma] at evaluates ⊢
        have mark := (wellFormed token List.mem_cons_self).text_of_mark comma (by decide)
        exact derives.cons mark (derives_list rest wellFormed.of_cons evaluates)
      · rw [result_listAfter_stop comma]
        exact derives.last
termination_by 6 * tokens.length

end

end

end Reckoner
