import Reckoner.Proofs.Lexical
import Reckoner.Proofs.Reading

/-!
# Phrases are read as their trees

The tokens that spell a phrase are read as the tree of that phrase, whatever tokens follow that
cannot extend it, and also when closing parentheses are missing at the very end.  Chains go to the
left, so what a phrase leaves to its reader is stated with the loop that continues the chain: after
the tokens of a sum, reading a sum goes on as the loop of sums does with the tree of that sum.
-/

namespace Reckoner

open Grammar Reading

namespace Level

/-- How phrases of a level are read. -/
def read : (level : Level) → List Token → level.Form × List Token
  | operand, tokens => (Grammar.factor tokens).result
  | factor, tokens => (Grammar.factor tokens).result
  | product, tokens => (Grammar.product tokens).result
  | sum, tokens => (Grammar.sum tokens).result
  | list, tokens => (Grammar.list tokens).result

/-- How reading goes on after a phrase of a level. -/
def resume : (level : Level) → level.Form → List Token → level.Form × List Token
  | operand, base, rest => (powerAfter base rest).result
  | factor, tree, rest => (tree, rest)
  | product, tree, rest => (productAfter tree rest).result
  | sum, tree, rest => (sumAfter tree rest).result
  | list, trees, rest => (trees, rest)

/-- The marks that would extend a phrase of a level. -/
def extensions : Level → List Char
  | operand => []
  | factor => ['^']
  | product => ['^']
  | sum => ['^', '*', '/']
  | list => ['^', '*', '/', '+', '-', ',']

/-- Whether some tokens cannot extend a phrase of a level. -/
def Stops (level : Level) (rest : List Token) : Prop :=
  ∀ token ∈ rest.head?, token.head ∉ level.extensions

theorem stops_nil (level : Level) : level.Stops [] := by simp [Stops]

theorem stops_cons {level : Level} {token : Token} {rest : List Token} :
    level.Stops (token :: rest) ↔ token.head ∉ level.extensions := by simp [Stops]

theorem Stops.of_subset {level other : Level} {rest : List Token} (stops : level.Stops rest)
    (subset : other.extensions ⊆ level.extensions) : other.Stops rest :=
  fun token found extends_ => stops token found (subset extends_)

end Level

namespace Grammar

variable {rest : List Token}

theorem result_powerAfter_of_stops (stops : Level.factor.Stops rest) (base : Tree) :
    (powerAfter base rest).result = (base, rest) := by
  cases rest with
  | nil => exact result_powerAfter_nil base
  | cons token rest =>
      rw [Level.stops_cons] at stops
      exact result_powerAfter_stop (by simpa [Level.extensions] using stops) base rest

theorem result_productAfter_of_stops (stops : Level.sum.Stops rest) (left : Tree) :
    (productAfter left rest).result = (left, rest) := by
  cases rest with
  | nil => exact result_productAfter_nil left
  | cons token rest =>
      rw [Level.stops_cons] at stops
      refine result_productAfter_stop ?_ left rest
      simp [Level.extensions] at stops
      simp [productOperator?, stops]

theorem result_sumAfter_of_stops (stops : Level.list.Stops rest) (left : Tree) :
    (sumAfter left rest).result = (left, rest) := by
  cases rest with
  | nil => exact result_sumAfter_nil left
  | cons token rest =>
      rw [Level.stops_cons] at stops
      refine result_sumAfter_stop ?_ left rest
      simp [Level.extensions] at stops
      simp [sumOperator?, stops]

theorem result_listAfter_of_stops (stops : Level.list.Stops rest) :
    (listAfter rest).result = ([], rest) := by
  cases rest with
  | nil => exact result_listAfter_nil
  | cons token rest =>
      rw [Level.stops_cons] at stops
      exact result_listAfter_stop (by simp [Level.extensions] at stops; simp [stops]) rest

theorem productOperator?_symbol {operator : Operator} (fits : operator.isMultiplicative = true) :
    productOperator? operator.symbol = some operator := by
  cases operator <;> simp_all [Operator.isMultiplicative, Operator.symbol, productOperator?]

theorem sumOperator?_symbol {operator : Operator} (fits : operator.isAdditive = true) :
    sumOperator? operator.symbol = some operator := by
  cases operator <;> simp_all [Operator.isAdditive, Operator.symbol, sumOperator?]

theorem symbol_not_mem_product {operator : Operator} (fits : operator.isMultiplicative = true) :
    operator.symbol ∉ Level.product.extensions := by
  cases operator <;> revert fits <;> decide

theorem symbol_not_mem_sum {operator : Operator} (fits : operator.isAdditive = true) :
    operator.symbol ∉ Level.sum.extensions := by
  cases operator <;> revert fits <;> decide

end Grammar

/-! ## Rows that end early -/

section Early

variable {left right front back : List (Lexeme Literal)} {lexeme : Lexeme Literal}

/-- A row that loses closing parentheses at its end keeps everything up to another lexeme. -/
theorem split_at_lexeme (split : left ++ lexeme :: right = front ++ back)
    (closers : ∀ last ∈ back, last = .closing) (other : lexeme ≠ .closing) :
    ∃ middle, front = left ++ lexeme :: middle ∧ right = middle ++ back := by
  rcases List.append_eq_append_iff.mp split with ⟨middle, rfl, tail⟩ | ⟨middle, rfl, tail⟩
  · cases middle with
    | nil =>
        rw [List.nil_append] at tail
        exact absurd (closers lexeme (tail ▸ List.mem_cons_self)) other
    | cons first middle =>
        obtain ⟨rfl, rfl⟩ := List.cons.inj tail
        exact ⟨middle, rfl, rfl⟩
  · have member : lexeme ∈ back := tail ▸ List.mem_append_right middle List.mem_cons_self
    exact absurd (closers lexeme member) other

/-- A closing parenthesis at the end of a row is kept or is the last one that is lost. -/
theorem split_at_closing (split : left ++ [.closing] = front ++ back) :
    (back = [] ∧ front = left ++ [.closing]) ∨
      ∃ lost, back = lost ++ [.closing] ∧ left = front ++ lost := by
  rcases List.eq_nil_or_concat back with rfl | ⟨lost, last, rfl⟩
  · exact .inl ⟨rfl, by simpa using split.symm⟩
  · rw [List.concat_eq_append, ← List.append_assoc] at split
    obtain ⟨same, lastSame⟩ := List.append_inj' split rfl
    obtain rfl := List.singleton_inj.mp lastSame
    exact .inr ⟨lost, List.concat_eq_append, same⟩

end Early

namespace Phrase

open Token (Spells)

/-- What it takes to be read as one's tree: the tokens of the phrase, or all but lost closing
parentheses at the end of the text, lead to its tree and to the reader's next step. -/
def ReadsBack {level : Level} (phrase : Phrase Literal level) : Prop :=
  ∀ front back : List (Lexeme Literal), phrase.lexemes = front ++ back →
    (∀ lexeme ∈ back, lexeme = .closing) → ∀ tokens rest : List Token,
    List.Forall₂ Spells tokens front → (back = [] ∨ rest = []) → level.Stops rest →
    level.read (tokens ++ rest) = level.resume phrase.tree rest

theorem exists_of_spells_append {tokens : List Token} {left right : List (Lexeme Literal)}
    (spells : List.Forall₂ Spells tokens (left ++ right)) :
    ∃ first second, tokens = first ++ second ∧ List.Forall₂ Spells first left ∧
      List.Forall₂ Spells second right :=
  ⟨tokens.take left.length, tokens.drop left.length, (List.take_append_drop _ tokens).symm,
    List.forall₂_take_append tokens left right spells,
    List.forall₂_drop_append tokens left right spells⟩

section Chain

variable {leftLevel rightLevel : Level} {left : Phrase Literal leftLevel}
  {right : Phrase Literal rightLevel} {mark : Char} {front back : List (Lexeme Literal)}
  {tokens rest : List Token}

/-- Two phrases with a mark between them: the left one is read, and the right one is read after
the mark. -/
theorem ReadsBack.chain (leftReads : left.ReadsBack) (rightReads : right.ReadsBack)
    (split : left.lexemes ++ .mark mark :: right.lexemes = front ++ back)
    (closers : ∀ lexeme ∈ back, lexeme = .closing)
    (spells : List.Forall₂ Spells tokens front) (complete : back = [] ∨ rest = [])
    (known : mark ∉ leftLevel.extensions) (stops : rightLevel.Stops rest) :
    ∃ token later, token.head = mark ∧
      leftLevel.read (tokens ++ rest) = leftLevel.resume left.tree (token :: later) ∧
      rightLevel.read later = rightLevel.resume right.tree rest := by
  obtain ⟨middle, rfl, rightSplit⟩ := split_at_lexeme split closers (by simp)
  obtain ⟨first, second, rfl, leftSpells, markSpells⟩ := exists_of_spells_append spells
  obtain ⟨token, others, markSpell, rightSpells, rfl⟩ :=
    List.forall₂_cons_right_iff.mp markSpells
  have head : token.head = mark := markSpell.head_of_character rfl
  refine ⟨token, others ++ rest, head, ?_, ?_⟩
  · rw [List.append_assoc, List.cons_append]
    refine leftReads left.lexemes [] (by simp) (by simp) first _ leftSpells (.inl rfl) ?_
    rwa [Level.stops_cons, head]
  · exact rightReads middle back rightSplit closers others rest rightSpells complete stops

end Chain

section Operand

variable {front back : List (Lexeme Literal)} {tokens rest : List Token}

/-- A leaf or a name in front of a row that loses only closing parentheses. -/
theorem exists_of_spells_cons {first : Lexeme Literal} {others : List (Lexeme Literal)}
    (split : first :: others = front ++ back) (closers : ∀ lexeme ∈ back, lexeme = .closing)
    (other : first ≠ .closing) (spells : List.Forall₂ Spells tokens front) :
    ∃ token later middle, tokens = token :: later ∧ token.Spells first ∧
      others = middle ++ back ∧ List.Forall₂ Spells later middle := by
  obtain ⟨middle, rfl, rightSplit⟩ :=
    split_at_lexeme (show [] ++ first :: others = front ++ back from split) closers other
  obtain ⟨token, later, spell, laterSpells, rfl⟩ := List.forall₂_cons_right_iff.mp spells
  exact ⟨token, later, middle, rfl, spell, rightSplit, laterSpells⟩

/-- Reading a factor that begins with an operand reads the operand and then its power. -/
theorem read_operand {token : Token} (noPlus : token.head ≠ '+') (noMinus : token.head ≠ '-')
    {tree : Tree} {later : List Token} (read : (operand token later).result = (tree, rest)) :
    Level.operand.read (token :: later) = Level.operand.resume tree rest := by
  simp only [Level.read, Level.resume]
  rw [result_factor_operand noPlus noMinus, read]

/-- A phrase and its closing parenthesis, which may be lost at the end of the text. -/
theorem ReadsBack.closed {level : Level} {inner : Phrase Literal level}
    (innerReads : inner.ReadsBack) (split : inner.lexemes ++ [.closing] = front ++ back)
    (closers : ∀ lexeme ∈ back, lexeme = .closing)
    (spells : List.Forall₂ Spells tokens front) (complete : back = [] ∨ rest = [])
    (closing : ')' ∉ level.extensions) :
    ∃ later, level.read (tokens ++ rest) = level.resume inner.tree later ∧
      level.Stops later ∧ passOver ')' later = rest ∧
      ∀ token ∈ later.head?, token.head = ')' := by
  rcases split_at_closing split with ⟨rfl, rfl⟩ | ⟨lost, rfl, innerSplit⟩
  · obtain ⟨first, second, rfl, innerSpells, closingSpells⟩ := exists_of_spells_append spells
    obtain ⟨token, others, closingSpell, nilSpells, rfl⟩ :=
      List.forall₂_cons_right_iff.mp closingSpells
    obtain rfl := List.forall₂_nil_right_iff.mp nilSpells
    have head : token.head = ')' := closingSpell.head_of_character rfl
    have stops : level.Stops (token :: rest) := by rwa [Level.stops_cons, head]
    refine ⟨token :: rest, ?_, stops, by rw [passOver, if_pos head], by simpa using head⟩
    rw [List.append_assoc]
    exact innerReads inner.lexemes [] (by simp) (by simp) first _ innerSpells (.inl rfl) stops
  · obtain rfl : rest = [] := complete.resolve_left (by simp)
    refine ⟨[], ?_, Level.stops_nil level, rfl, by simp⟩
    exact innerReads front lost innerSplit
      (fun lexeme member => closers lexeme (List.mem_append_left _ member)) tokens [] spells
      (.inr rfl) (Level.stops_nil level)

end Operand

/-- The first token of a phrase is no closing parenthesis. -/
theorem head_ne_of_spells {level : Level} {phrase : Phrase Literal level}
    {front back : List (Lexeme Literal)} {tokens rest : List Token}
    (split : phrase.lexemes ++ [.closing] = front ++ back)
    (closers : ∀ lexeme ∈ back, lexeme = .closing) (spells : List.Forall₂ Spells tokens front) :
    ((tokens ++ rest).head?.map Token.head) ≠ some ')' := by
  obtain ⟨first, others, shape, start, other⟩ := phrase.lexemes_eq_cons
  rw [shape, List.cons_append] at split
  obtain ⟨token, later, _, rfl, spell, -, -⟩ := exists_of_spells_cons split closers other spells
  have head : token.head ≠ ')' := by
    cases found : first.character? with
    | none => exact spell.head_ne_of_run found (by decide)
    | some character =>
        rw [spell.head_of_character found]
        rw [found] at start
        rintro rfl
        revert start
        decide
  simpa using head

/-! ## One lemma for each rule -/

theorem readsBack_atom (literal : Literal) : (atom literal).ReadsBack := by
  intro front back split closers tokens rest spells _ _
  obtain ⟨token, later, middle, rfl, spell, nilSplit, laterSpells⟩ :=
    exists_of_spells_cons split closers (by simp) spells
  obtain ⟨rfl, rfl⟩ := List.append_eq_nil_iff.mp nilSplit.symm
  obtain rfl := List.forall₂_nil_right_iff.mp laterSpells
  have start {character : Char} (mark : character ∈ grammarMarks) : token.head ≠ character :=
    spell.head_ne_of_run rfl mark
  rw [List.cons_append]
  refine read_operand (start (by decide)) (start (by decide)) ?_
  rw [result_operand_number (start (by decide)) spell.kind_of_atom, spell.text]
  rfl

theorem readsBack_group {inner : Phrase Literal .sum} (reads : inner.ReadsBack) :
    (group inner).ReadsBack := by
  intro front back split closers tokens rest spells complete _
  obtain ⟨token, later, middle, rfl, spell, innerSplit, laterSpells⟩ :=
    exists_of_spells_cons split closers (by simp) spells
  obtain ⟨following, read, stops, passed, closes⟩ :=
    reads.closed innerSplit closers laterSpells complete (by decide)
  have head : token.head = '(' := spell.head_of_character rfl
  have whole : (Grammar.sum (later ++ rest)).result = (inner.tree, following) :=
    read.trans (result_sumAfter_of_stops (fun token found => by
      rw [closes token found]
      decide) inner.tree)
  rw [List.cons_append]
  refine read_operand (by rw [head]; decide) (by rw [head]; decide) ?_
  rw [result_operand_group head, whole, passed]
  rfl

theorem readsBack_call (function : FunctionName) : (call function).ReadsBack := by
  intro front back split closers tokens rest spells _ _
  obtain ⟨token, later, middle, rfl, spell, openSplit, laterSpells⟩ :=
    exists_of_spells_cons split closers (by simp) spells
  obtain ⟨opening, later, middle, rfl, openSpell, closeSplit, laterSpells⟩ :=
    exists_of_spells_cons openSplit closers (by simp) laterSpells
  obtain ⟨closing, later, middle, rfl, closeSpell, nilSplit, laterSpells⟩ :=
    exists_of_spells_cons closeSplit closers (by simp) laterSpells
  obtain ⟨rfl, rfl⟩ := List.append_eq_nil_iff.mp nilSplit.symm
  obtain rfl := List.forall₂_nil_right_iff.mp laterSpells
  have start {character : Char} (mark : character ∈ grammarMarks) : token.head ≠ character :=
    spell.head_ne_of_run rfl mark
  rw [List.cons_append, List.cons_append, List.cons_append, List.nil_append]
  refine read_operand (start (by decide)) (start (by decide)) ?_
  rw [result_operand_name (start (by decide)) spell.kind_of_name, spell.text,
    result_arguments_empty (openSpell.head_of_character rfl)
      (closeSpell.head_of_character rfl)]
  simp [Lexeme.text, tree]

theorem readsBack_apply (function : FunctionName) {arguments : Phrase Literal .list}
    (reads : arguments.ReadsBack) :
    (apply function arguments).ReadsBack := by
  intro front back split closers tokens rest spells complete _
  obtain ⟨token, later, middle, rfl, spell, openSplit, laterSpells⟩ :=
    exists_of_spells_cons split closers (by simp) spells
  obtain ⟨opening, later, middle, rfl, openSpell, listSplit, laterSpells⟩ :=
    exists_of_spells_cons openSplit closers (by simp) laterSpells
  obtain ⟨following, read, -, passed, -⟩ :=
    reads.closed listSplit closers laterSpells complete (by decide)
  have start {character : Char} (mark : character ∈ grammarMarks) : token.head ≠ character :=
    spell.head_ne_of_run rfl mark
  have whole : (Grammar.list (later ++ rest)).result = (arguments.tree, following) := read
  rw [List.cons_append, List.cons_append]
  refine read_operand (start (by decide)) (start (by decide)) ?_
  rw [result_operand_name (start (by decide)) spell.kind_of_name, spell.text,
    result_arguments_opening (openSpell.head_of_character rfl)
      (head_ne_of_spells listSplit closers laterSpells), whole, passed]
  simp [Lexeme.text, tree]

theorem readsBack_plain {operand : Phrase Literal .operand} (reads : operand.ReadsBack) :
    (plain operand).ReadsBack := by
  intro front back split closers tokens rest spells complete stops
  have operandRead := reads front back split closers tokens rest spells complete
    (stops.of_subset (by simp [Level.extensions]))
  exact operandRead.trans (result_powerAfter_of_stops stops operand.tree)

theorem readsBack_power {base : Phrase Literal .operand} {exponent : Phrase Literal .factor}
    (baseReads : base.ReadsBack) (exponentReads : exponent.ReadsBack) :
    (power base exponent).ReadsBack := by
  intro front back split closers tokens rest spells complete stops
  obtain ⟨token, later, head, baseRead, exponentRead⟩ :=
    baseReads.chain exponentReads split closers spells complete (by decide) stops
  have whole : (Grammar.factor later).result = (exponent.tree, rest) := exponentRead
  refine baseRead.trans ?_
  rw [Level.resume, result_powerAfter_power head, whole]
  rfl

theorem readsBack_plus {operand : Phrase Literal .factor} (reads : operand.ReadsBack) :
    (plus operand).ReadsBack := by
  intro front back split closers tokens rest spells complete stops
  obtain ⟨token, later, middle, rfl, spell, operandSplit, laterSpells⟩ :=
    exists_of_spells_cons split closers (by simp) spells
  have operandRead : (Grammar.factor (later ++ rest)).result = (operand.tree, rest) :=
    reads middle back operandSplit closers later rest laterSpells complete stops
  rw [Level.read, List.cons_append, result_factor_plus (spell.head_of_character rfl),
    operandRead]
  rfl

theorem readsBack_minus {operand : Phrase Literal .factor} (reads : operand.ReadsBack) :
    (minus operand).ReadsBack := by
  intro front back split closers tokens rest spells complete stops
  obtain ⟨token, later, middle, rfl, spell, operandSplit, laterSpells⟩ :=
    exists_of_spells_cons split closers (by simp) spells
  have operandRead : (Grammar.factor (later ++ rest)).result = (operand.tree, rest) :=
    reads middle back operandSplit closers later rest laterSpells complete stops
  rw [Level.read, List.cons_append, result_factor_minus (spell.head_of_character rfl),
    operandRead]
  rfl

theorem readsBack_single {factor : Phrase Literal .factor} (reads : factor.ReadsBack) :
    (single factor).ReadsBack := by
  intro front back split closers tokens rest spells complete stops
  have factorRead : (Grammar.factor (tokens ++ rest)).result = (factor.tree, rest) :=
    reads front back split closers tokens rest spells complete stops
  rw [Level.read, result_product, factorRead]
  rfl

theorem readsBack_multiplied {left : Phrase Literal .product} {operator : Operator}
    (fits : operator.isMultiplicative = true) {right : Phrase Literal .factor}
    (leftReads : left.ReadsBack) (rightReads : right.ReadsBack) :
    (multiplied left operator fits right).ReadsBack := by
  intro front back split closers tokens rest spells complete stops
  obtain ⟨token, later, head, leftRead, rightRead⟩ :=
    leftReads.chain rightReads split closers spells complete (symbol_not_mem_product fits) stops
  have whole : (Grammar.factor later).result = (right.tree, rest) := rightRead
  refine leftRead.trans ?_
  rw [Level.resume,
    result_productAfter_operator (by rw [head]; exact productOperator?_symbol fits), whole]
  rfl

theorem readsBack_alone {product : Phrase Literal .product} (reads : product.ReadsBack) :
    (alone product).ReadsBack := by
  intro front back split closers tokens rest spells complete stops
  have productRead := reads front back split closers tokens rest spells complete
    (stops.of_subset (by simp [Level.extensions]))
  have whole : (Grammar.product (tokens ++ rest)).result = (product.tree, rest) :=
    productRead.trans (result_productAfter_of_stops stops product.tree)
  rw [Level.read, result_sum, whole]
  rfl

theorem readsBack_added {left : Phrase Literal .sum} {operator : Operator}
    (fits : operator.isAdditive = true) {right : Phrase Literal .product}
    (leftReads : left.ReadsBack) (rightReads : right.ReadsBack) :
    (added left operator fits right).ReadsBack := by
  intro front back split closers tokens rest spells complete stops
  obtain ⟨token, later, head, leftRead, rightRead⟩ :=
    leftReads.chain rightReads split closers spells complete (symbol_not_mem_sum fits)
      (stops.of_subset (by simp [Level.extensions]))
  have whole : (Grammar.product later).result = (right.tree, rest) :=
    rightRead.trans (result_productAfter_of_stops stops right.tree)
  refine leftRead.trans ?_
  rw [Level.resume,
    result_sumAfter_operator (by rw [head]; exact sumOperator?_symbol fits), whole]
  rfl

theorem readsBack_last {argument : Phrase Literal .sum} (reads : argument.ReadsBack) :
    (last argument).ReadsBack := by
  intro front back split closers tokens rest spells complete stops
  have argumentRead := reads front back split closers tokens rest spells complete
    (stops.of_subset (by simp [Level.extensions]))
  have whole : (Grammar.sum (tokens ++ rest)).result = (argument.tree, rest) :=
    argumentRead.trans (result_sumAfter_of_stops stops argument.tree)
  rw [Level.read, result_list, whole, result_listAfter_of_stops stops]
  rfl

theorem readsBack_cons {argument : Phrase Literal .sum} {others : Phrase Literal .list}
    (argumentReads : argument.ReadsBack) (othersReads : others.ReadsBack) :
    (cons argument others).ReadsBack := by
  intro front back split closers tokens rest spells complete stops
  obtain ⟨token, later, head, argumentRead, othersRead⟩ :=
    argumentReads.chain othersReads split closers spells complete (by decide) stops
  have noOperator : sumOperator? token.head = none := by
    rw [head]
    decide
  have whole : (Grammar.sum (tokens ++ rest)).result = (argument.tree, token :: later) :=
    argumentRead.trans (result_sumAfter_stop noOperator argument.tree later)
  have listRead : (Grammar.list later).result = (others.tree, rest) := othersRead
  rw [Level.read, result_list, whole, result_listAfter_comma head, listRead]
  rfl

/-- Every phrase is read back. -/
theorem readsBack {level : Level} (phrase : Phrase Literal level) : phrase.ReadsBack := by
  induction phrase with
  | atom literal => exact readsBack_atom literal
  | group inner ih => exact readsBack_group ih
  | call function => exact readsBack_call function
  | apply function arguments ih => exact readsBack_apply function ih
  | plain operand ih => exact readsBack_plain ih
  | power base exponent ihBase ihExponent => exact readsBack_power ihBase ihExponent
  | plus operand ih => exact readsBack_plus ih
  | minus operand ih => exact readsBack_minus ih
  | single factor ih => exact readsBack_single ih
  | multiplied left operator fits right ihLeft ihRight =>
      exact readsBack_multiplied fits ihLeft ihRight
  | alone product ih => exact readsBack_alone ih
  | added left operator fits right ihLeft ihRight =>
      exact readsBack_added fits ihLeft ihRight
  | last argument ih => exact readsBack_last ih
  | cons argument others ihArgument ihOthers => exact readsBack_cons ihArgument ihOthers

end Phrase
end Reckoner
