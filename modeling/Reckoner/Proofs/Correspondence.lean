import Mathlib.Data.List.Forall2
import Reckoner.Proofs.Soundness

/-!
# Corresponding tokens

Two rows of tokens that differ in where they stand, and in how their numbers are written, are read
in step: the trees have the same shape (`Tree.Corresponds`), and the tokens that are left correspond
again.  What has to hold between two numbers is a parameter; with equality as this parameter the
trees are equal wherever nothing is unreadable.
-/

namespace Reckoner

open Grammar Reading

variable {same : List Char → List Char → Prop}

/-! ## Tokens -/

/-- Tokens that differ at most in their positions, or numbers whose texts are related. -/
inductive Token.Corresponds (same : List Char → List Char → Prop) : Token → Token → Prop
  /-- Two numbers. -/
  | number {left right : Token} (leftFormed : left.WellFormed) (rightFormed : right.WellFormed)
      (leftKind : left.kind = .number) (rightKind : right.kind = .number)
      (texts : same left.text right.text) : Corresponds same left right
  /-- Two tokens of another kind, with one text. -/
  | other {left right : Token} (kinds : left.kind = right.kind) (noNumber : left.kind ≠ .number)
      (texts : left.text = right.text) : Corresponds same left right

/-- Rows of tokens that correspond one by one. -/
abbrev Token.Rows (same : List Char → List Char → Prop) : List Token → List Token → Prop :=
  List.Forall₂ (Token.Corresponds same)

namespace Token

theorem WellFormed.head_not_mem {token : Token} (wellFormed : token.WellFormed)
    (kind : token.kind = .number) : token.head ∉ grammarMarks := fun member => by
  have mark := (grammarMarks_facts _ member).1
  rw [← wellFormed.kind, kind] at mark
  exact nomatch mark

namespace Corresponds

variable {left right : Token}

theorem kind (corresponds : Corresponds same left right) : left.kind = right.kind := by
  cases corresponds with
  | number _ _ leftKind rightKind => exact leftKind.trans rightKind.symm
  | other kinds => exact kinds

/-- A mark of the grammar begins both tokens or none. -/
theorem head_iff (corresponds : Corresponds same left right) (mark : Char)
    (known : mark ∈ grammarMarks) : left.head = mark ↔ right.head = mark := by
  cases corresponds with
  | number leftFormed rightFormed leftKind rightKind =>
      have leftHead := leftFormed.head_not_mem leftKind
      have rightHead := rightFormed.head_not_mem rightKind
      constructor <;> rintro rfl <;> contradiction
  | other _ _ texts => rw [(List.cons.inj texts).1]

theorem texts_of_number (corresponds : Corresponds same left right)
    (kind : left.kind = .number) : same left.text right.text := by
  cases corresponds with
  | number _ _ _ _ texts => exact texts
  | other _ noNumber => exact absurd kind noNumber

theorem text_eq (corresponds : Corresponds same left right) (kind : left.kind ≠ .number) :
    left.text = right.text := by
  cases corresponds with
  | number _ _ leftKind => exact absurd leftKind kind
  | other _ _ texts => exact texts

theorem sumOperator?_eq (corresponds : Corresponds same left right) :
    sumOperator? left.head = sumOperator? right.head := by
  simp only [sumOperator?, corresponds.head_iff '+' (by decide),
    corresponds.head_iff '-' (by decide)]

theorem productOperator?_eq (corresponds : Corresponds same left right) :
    productOperator? left.head = productOperator? right.head := by
  simp only [productOperator?, corresponds.head_iff '*' (by decide),
    corresponds.head_iff '/' (by decide)]

end Corresponds

variable {left right : List Token}

/-- The tokens after a mark that both rows may begin with. -/
theorem Rows.passOver {mark : Char} (known : mark ∈ grammarMarks) (rows : Rows same left right) :
    Rows same (passOver mark left) (passOver mark right) := by
  cases rows with
  | nil => exact .nil
  | @cons first second rest others corresponds later =>
      rw [Reading.passOver, Reading.passOver]
      by_cases found : first.head = mark
      · rwa [if_pos found, if_pos ((corresponds.head_iff mark known).mp found)]
      · rw [if_neg found, if_neg fun other => found ((corresponds.head_iff mark known).mpr other)]
        exact .cons corresponds later

end Token

/-! ## Trees -/

mutual

/-- Trees of one shape whose numbers are related and that are unreadable at the same places. -/
inductive Tree.Corresponds (same : List Char → List Char → Prop) : Tree → Tree → Prop
  | number {left right : List Char} (texts : same left right) :
      Corresponds same (.number left) (.number right)
  | call (name : String) {left right : List Tree} (arguments : AllCorrespond same left right) :
      Corresponds same (.call name left) (.call name right)
  | group {left right : Tree} (inner : Corresponds same left right) :
      Corresponds same (.group left) (.group right)
  | plus {left right : Tree} (operand : Corresponds same left right) :
      Corresponds same (.plus left) (.plus right)
  | minus {left right : Tree} (operand : Corresponds same left right) :
      Corresponds same (.minus left) (.minus right)
  | operation (operator : Operator) {left right leftOther rightOther : Tree}
      (first : Corresponds same left leftOther) (second : Corresponds same right rightOther) :
      Corresponds same (.operation operator left right) (.operation operator leftOther rightOther)
  | unreadable (left right : Fault) : Corresponds same (.unreadable left) (.unreadable right)

/-- Lists of trees that correspond one by one. -/
inductive Tree.AllCorrespond (same : List Char → List Char → Prop) : List Tree → List Tree → Prop
  | nil : AllCorrespond same [] []
  | cons {left right : Tree} {lefts rights : List Tree} (first : Corresponds same left right)
      (others : AllCorrespond same lefts rights) :
      AllCorrespond same (left :: lefts) (right :: rights)

end

/-! ## Trees without unreadable places -/

namespace Tree

mutual

/-- Whether no place of a tree is unreadable. -/
def IsReadable : Tree → Prop
  | number _ => True
  | call _ arguments => AreReadable arguments
  | group inner => inner.IsReadable
  | plus operand => operand.IsReadable
  | minus operand => operand.IsReadable
  | operation _ left right => left.IsReadable ∧ right.IsReadable
  | unreadable _ => False

/-- Whether no place of several trees is unreadable. -/
def AreReadable : List Tree → Prop
  | [] => True
  | tree :: trees => tree.IsReadable ∧ AreReadable trees

end

variable {settings : Settings} {lookup : Lookup}

mutual

/-- A tree with a value has no unreadable place. -/
theorem isReadable_of_evaluates :
    ∀ tree : Tree, tree.Evaluates settings lookup → tree.IsReadable
  | .number _, _ => trivial
  | .call _ arguments, evaluates => areReadable_of_evaluateAll arguments evaluates.of_call
  | .group inner, evaluates => isReadable_of_evaluates inner evaluates.of_group
  | .plus operand, evaluates => isReadable_of_evaluates operand evaluates.of_plus
  | .minus operand, evaluates => isReadable_of_evaluates operand evaluates.of_minus
  | .operation _ left right, evaluates =>
    ⟨isReadable_of_evaluates left evaluates.of_operation.1,
      isReadable_of_evaluates right evaluates.of_operation.2⟩
  | .unreadable fault, evaluates => not_evaluates_unreadable fault evaluates

theorem areReadable_of_evaluateAll :
    ∀ trees : List Tree, EvaluateAll settings lookup trees → AreReadable trees
  | [], _ => trivial
  | tree :: trees, evaluate =>
    ⟨isReadable_of_evaluates tree evaluate.of_cons.1,
      areReadable_of_evaluateAll trees evaluate.of_cons.2⟩

end

mutual

/-- Trees that correspond with equal numbers are equal wherever they are readable. -/
theorem Corresponds.eq_of_isReadable {left right : Tree} (corresponds : left.Corresponds Eq right)
    (readable : left.IsReadable) : right = left := by
  cases corresponds with
  | number texts => rw [texts]
  | call name arguments => rw [arguments.eq_of_areReadable readable]
  | group inner => rw [inner.eq_of_isReadable readable]
  | plus operand => rw [operand.eq_of_isReadable readable]
  | minus operand => rw [operand.eq_of_isReadable readable]
  | operation operator first second =>
      rw [first.eq_of_isReadable readable.1, second.eq_of_isReadable readable.2]
  | unreadable => exact readable.elim

theorem AllCorrespond.eq_of_areReadable {lefts rights : List Tree}
    (correspond : AllCorrespond Eq lefts rights) (readable : AreReadable lefts) :
    rights = lefts := by
  cases correspond with
  | nil => rfl
  | cons first others =>
      rw [first.eq_of_isReadable readable.1, others.eq_of_areReadable readable.2]

end

end Tree

/-! ## Readings -/

/-- Whether two readings of a tree correspond. -/
def Reading.Correspond (same : List Char → List Char → Prop) (left right : Tree × List Token) :
    Prop := left.1.Corresponds same right.1 ∧ Token.Rows same left.2 right.2

/-- Whether two readings of a list of trees correspond. -/
def Reading.AllCorrespond (same : List Char → List Char → Prop)
    (left right : List Tree × List Token) : Prop :=
  Tree.AllCorrespond same left.1 right.1 ∧ Token.Rows same left.2 right.2

open Reading (Correspond AllCorrespond)

mutual

theorem correspond_sum (left right : List Token) (rows : Token.Rows same left right) :
    Correspond same (Grammar.sum left).result (Grammar.sum right).result := by
  have short := (product left).length_result_le
  obtain ⟨tree, rest⟩ := correspond_product left right rows
  rw [result_sum, result_sum]
  exact correspond_sumAfter _ _ tree _ _ rest
termination_by 6 * left.length + 2

theorem correspond_sumAfter (first second : Tree) (trees : first.Corresponds same second)
    (left right : List Token) (rows : Token.Rows same left right) :
    Correspond same (sumAfter first left).result (sumAfter second right).result := by
  match left, right, rows with
  | [], [], .nil =>
      rw [result_sumAfter_nil, result_sumAfter_nil]
      exact ⟨trees, .nil⟩
  | token :: rest, token' :: rest', .cons corresponds later =>
      have heads := corresponds.sumOperator?_eq
      cases found : sumOperator? token.head with
      | none =>
          rw [result_sumAfter_stop found, result_sumAfter_stop (heads ▸ found)]
          exact ⟨trees, .cons corresponds later⟩
      | some operator =>
          have short := (product rest).length_result_le
          obtain ⟨tree, after⟩ := correspond_product rest rest' later
          rw [result_sumAfter_operator found, result_sumAfter_operator (heads ▸ found)]
          exact correspond_sumAfter _ _ (.operation operator trees tree) _ _ after
termination_by 6 * left.length

theorem correspond_product (left right : List Token) (rows : Token.Rows same left right) :
    Correspond same (product left).result (product right).result := by
  have short := (factor left).length_result_le
  obtain ⟨tree, rest⟩ := correspond_factor left right rows
  rw [result_product, result_product]
  exact correspond_productAfter _ _ tree _ _ rest
termination_by 6 * left.length + 1

theorem correspond_productAfter (first second : Tree) (trees : first.Corresponds same second)
    (left right : List Token) (rows : Token.Rows same left right) :
    Correspond same (productAfter first left).result (productAfter second right).result := by
  match left, right, rows with
  | [], [], .nil =>
      rw [result_productAfter_nil, result_productAfter_nil]
      exact ⟨trees, .nil⟩
  | token :: rest, token' :: rest', .cons corresponds later =>
      have heads := corresponds.productOperator?_eq
      cases found : productOperator? token.head with
      | none =>
          rw [result_productAfter_stop found, result_productAfter_stop (heads ▸ found)]
          exact ⟨trees, .cons corresponds later⟩
      | some operator =>
          have short := (factor rest).length_result_le
          obtain ⟨tree, after⟩ := correspond_factor rest rest' later
          rw [result_productAfter_operator found, result_productAfter_operator (heads ▸ found)]
          exact correspond_productAfter _ _ (.operation operator trees tree) _ _ after
termination_by 6 * left.length

theorem correspond_factor (left right : List Token) (rows : Token.Rows same left right) :
    Correspond same (factor left).result (factor right).result := by
  match left, right, rows with
  | [], [], .nil =>
      rw [result_factor_nil]
      exact ⟨.unreadable _ _, .nil⟩
  | token :: rest, token' :: rest', .cons corresponds later =>
      have plusIff := corresponds.head_iff '+' (by decide)
      have minusIff := corresponds.head_iff '-' (by decide)
      by_cases plus : token.head = '+'
      · rw [result_factor_plus plus, result_factor_plus (plusIff.mp plus)]
        exact (correspond_factor rest rest' later).imp .plus id
      by_cases minus : token.head = '-'
      · rw [result_factor_minus minus, result_factor_minus (minusIff.mp minus)]
        exact (correspond_factor rest rest' later).imp .minus id
      have short := (operand token rest).length_result_le
      obtain ⟨tree, after⟩ := correspond_operand token token' corresponds rest rest' later
      rw [result_factor_operand plus minus,
        result_factor_operand (plusIff.not.mp plus) (minusIff.not.mp minus)]
      exact correspond_powerAfter _ _ tree _ _ after
termination_by 6 * left.length

theorem correspond_operand (token token' : Token) (corresponds : token.Corresponds same token')
    (left right : List Token) (rows : Token.Rows same left right) :
    Correspond same (operand token left).result (operand token' right).result := by
  have openingIff := corresponds.head_iff '(' (by decide)
  by_cases opening : token.head = '('
  · rw [result_operand_group opening, result_operand_group (openingIff.mp opening)]
    exact (correspond_sum left right rows).imp .group (Token.Rows.passOver (by decide))
  have otherOpening := openingIff.not.mp opening
  cases kind : token.kind with
  | number =>
      rw [result_operand_number opening kind,
        result_operand_number otherOpening (corresponds.kind.symm.trans kind)]
      exact ⟨.number (corresponds.texts_of_number kind), rows⟩
  | name =>
      rw [result_operand_name opening kind,
        result_operand_name otherOpening (corresponds.kind.symm.trans kind),
        corresponds.text_eq (by simp [kind])]
      exact (correspond_arguments left right rows).imp (.call _) id
  | mark =>
      rw [result_operand_mark opening kind,
        result_operand_mark otherOpening (corresponds.kind.symm.trans kind)]
      exact ⟨.unreadable _ _, .nil⟩
termination_by 6 * left.length + 5

theorem correspond_powerAfter (first second : Tree) (trees : first.Corresponds same second)
    (left right : List Token) (rows : Token.Rows same left right) :
    Correspond same (powerAfter first left).result (powerAfter second right).result := by
  match left, right, rows with
  | [], [], .nil =>
      rw [result_powerAfter_nil, result_powerAfter_nil]
      exact ⟨trees, .nil⟩
  | token :: rest, token' :: rest', .cons corresponds later =>
      have powerIff := corresponds.head_iff '^' (by decide)
      by_cases power : token.head = '^'
      · rw [result_powerAfter_power power, result_powerAfter_power (powerIff.mp power)]
        exact (correspond_factor rest rest' later).imp (.operation .power trees) id
      · rw [result_powerAfter_stop power, result_powerAfter_stop (powerIff.not.mp power)]
        exact ⟨trees, .cons corresponds later⟩
termination_by 6 * left.length

theorem correspond_arguments (left right : List Token) (rows : Token.Rows same left right) :
    AllCorrespond same (arguments left).result (arguments right).result := by
  by_cases opened : ∃ token rest, left = token :: rest ∧ token.head = '('
  · obtain ⟨token, rest, rfl, opening⟩ := opened
    obtain ⟨token', rest', corresponds, later, rfl⟩ := List.forall₂_cons_left_iff.mp rows
    have otherOpening := (corresponds.head_iff '(' (by decide)).mp opening
    by_cases closed : ∃ next after, rest = next :: after ∧ next.head = ')'
    · obtain ⟨next, after, rfl, closing⟩ := closed
      obtain ⟨next', after', nextCorresponds, afterRows, rfl⟩ :=
        List.forall₂_cons_left_iff.mp later
      rw [result_arguments_empty opening closing, result_arguments_empty otherOpening
        ((nextCorresponds.head_iff ')' (by decide)).mp closing)]
      exact ⟨.nil, afterRows⟩
    · have filled : ∀ next ∈ rest.head?, next.head ≠ ')' := by
        rintro next found closing
        obtain ⟨after, rfl⟩ := List.head?_eq_some_iff.mp found
        exact closed ⟨next, after, rfl, closing⟩
      have otherFilled : ∀ next ∈ rest'.head?, next.head ≠ ')' := by
        cases later with
        | nil => simp
        | cons first =>
            have headIff := first.head_iff ')' (by decide)
            simpa [← headIff] using filled
      rw [result_arguments_opening opening (by simpa using filled),
        result_arguments_opening otherOpening (by simpa using otherFilled)]
      exact (correspond_list rest rest' later).imp id (Token.Rows.passOver (by decide))
  · have bare : ∀ token ∈ left.head?, token.head ≠ '(' := by
      rintro token found opening
      obtain ⟨rest, rfl⟩ := List.head?_eq_some_iff.mp found
      exact opened ⟨token, rest, rfl, opening⟩
    have otherBare : ∀ token ∈ right.head?, token.head ≠ '(' := by
      cases rows with
      | nil => simp
      | cons first =>
          have headIff := first.head_iff '(' (by decide)
          simpa [← headIff] using bare
    rw [result_arguments_bare bare, result_arguments_bare otherBare]
    exact (correspond_list left right rows).imp id (Token.Rows.passOver (by decide))
termination_by 6 * left.length + 4

theorem correspond_list (left right : List Token) (rows : Token.Rows same left right) :
    AllCorrespond same (Grammar.list left).result (Grammar.list right).result := by
  have short := (Grammar.sum left).length_result_le
  obtain ⟨tree, rest⟩ := correspond_sum left right rows
  obtain ⟨trees, after⟩ := correspond_listAfter _ _ rest
  rw [result_list, result_list]
  exact ⟨.cons tree trees, after⟩
termination_by 6 * left.length + 3

theorem correspond_listAfter (left right : List Token) (rows : Token.Rows same left right) :
    AllCorrespond same (listAfter left).result (listAfter right).result := by
  match left, right, rows with
  | [], [], .nil =>
      rw [result_listAfter_nil]
      exact ⟨.nil, .nil⟩
  | token :: rest, token' :: rest', .cons corresponds later =>
      have commaIff := corresponds.head_iff ',' (by decide)
      by_cases comma : token.head = ','
      · rw [result_listAfter_comma comma, result_listAfter_comma (commaIff.mp comma)]
        exact correspond_list rest rest' later
      · rw [result_listAfter_stop comma, result_listAfter_stop (commaIff.not.mp comma)]
        exact ⟨.nil, .cons corresponds later⟩
termination_by 6 * left.length

end

end Reckoner
