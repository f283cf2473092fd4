import Mathlib.Data.List.Infix
import Reckoner.Proofs.Reading

/-!
# Positions while reading

A reading stands at a position of a text and sees the tokens from there on (`Token.tokensFrom`).
Every rule of the grammar that reads something uses the token in front, whether or not it can make
sense of it, and what it leaves is a final part of the tokens behind (`Grammar.suffix_sum`).  So the
position after a token is a larger one inside the text (`Token.advance`), and reading on from there
sees what was left (`Token.tokensFrom_placeOf`).
-/

namespace Reckoner
namespace Token

/-! ## Tokens from a position on -/

/-- The first token of a text and what is behind it: reading from the token, or from its end, is
reading on. -/
theorem exists_of_scanFrom_cons {input : List Char} {position : Nat} {token : Token}
    {rest : List Token} (scanned : scanFrom position input = token :: rest) :
    ∃ front back, input = front ++ (token.text ++ back) ∧
      token.position = position + front.length ∧
        scanFrom token.position (token.text ++ back) = token :: rest ∧
          scanFrom (token.position + token.text.length) back = rest := by
  induction input generalizing position token rest with
  | nil => exact nomatch scanned
  | cons character input ih =>
      have whole := scanned
      rw [scanFrom_cons] at scanned
      rcases attach_cases character position (scanFrom (position + 1) input) with
        ⟨-, same⟩ | ⟨-, next, others, split, -, -, adjacent, joined⟩ | ⟨-, apart⟩
      · obtain ⟨front, back, rfl, place, again, behind⟩ := ih (same.symm.trans scanned)
        refine ⟨character :: front, back, rfl, ?_, again, behind⟩
        rw [place, List.length_cons]
        omega
      · obtain ⟨rfl, rfl⟩ := List.cons.inj (joined.symm.trans scanned)
        obtain ⟨front, back, rfl, place, -, behind⟩ := ih split
        obtain rfl : front = [] := List.length_eq_zero_iff.mp (by omega)
        refine ⟨[], back, rfl, rfl, whole, ?_⟩
        rw [← behind, adjacent]
        congr 1
        simp only [text, List.length_cons]
        omega
      · obtain ⟨rfl, rfl⟩ := List.cons.inj (apart.symm.trans scanned)
        exact ⟨[], input, rfl, rfl, whole, rfl⟩

/-- The tokens that a reading sees which stands at a position of a text. -/
def tokensFrom (input : List Char) (position : Nat) : List Token :=
  scanFrom position (input.drop position)

/-- Where the first of some tokens stands, or the end of the text if there is none. -/
def placeOf (input : List Char) (tokens : List Token) : Nat :=
  (tokens.head?.map Token.position).getD input.length

variable {input : List Char} {position : Nat} {token : Token} {rest later : List Token}

/-- A token that is seen stands further on in the text, and so do the tokens behind it. -/
theorem exists_of_tokensFrom_cons (seen : tokensFrom input position = token :: rest) :
    position ≤ token.position ∧ token.position < input.length ∧
      tokensFrom input token.position = token :: rest ∧
        ∃ next, token.position < next ∧ next ≤ input.length ∧ tokensFrom input next = rest := by
  obtain ⟨front, back, split, place, again, behind⟩ := exists_of_scanFrom_cons seen
  have size := congrArg List.length split
  simp only [List.length_drop, List.length_append] at size
  have filled : 0 < token.text.length := Nat.succ_pos _
  have skipped : input.drop token.position = token.text ++ back := by
    rw [place, ← List.drop_drop, split, List.drop_left]
  have passed : input.drop (token.position + token.text.length) = back := by
    rw [← List.drop_drop, skipped, List.drop_left]
  refine ⟨by omega, by omega, ?_, token.position + token.text.length, by omega, by omega, ?_⟩
  · rw [tokensFrom, skipped, again]
  · rw [tokensFrom, passed, behind]

/-- A final part of the tokens is what a reading sees that stands further on. -/
theorem exists_of_suffix (inside : position ≤ input.length)
    (suffix : later <:+ tokensFrom input position) :
    ∃ next, position ≤ next ∧ next ≤ input.length ∧ tokensFrom input next = later := by
  generalize seen : tokensFrom input position = tokens at suffix
  induction tokens generalizing position with
  | nil =>
      rw [List.suffix_nil] at suffix
      exact ⟨position, le_rfl, inside, seen.trans suffix.symm⟩
  | cons token rest ih =>
      rcases List.suffix_cons_iff.mp suffix with rfl | suffix
      · exact ⟨position, le_rfl, inside, seen⟩
      · obtain ⟨before, -, -, next, after, bound, behind⟩ := exists_of_tokensFrom_cons seen
        obtain ⟨last, more, end_le, left⟩ := ih bound behind suffix
        exact ⟨last, by omega, end_le, left⟩

theorem placeOf_tokensFrom (inside : position ≤ input.length) :
    position ≤ placeOf input (tokensFrom input position) ∧
      placeOf input (tokensFrom input position) ≤ input.length ∧
        tokensFrom input (placeOf input (tokensFrom input position)) =
          tokensFrom input position := by
  cases seen : tokensFrom input position with
  | nil =>
      refine ⟨inside, le_rfl, ?_⟩
      change scanFrom input.length (input.drop input.length) = []
      rw [List.drop_length, scanFrom_nil]
  | cons token rest =>
      obtain ⟨before, bound, again, -⟩ := exists_of_tokensFrom_cons seen
      exact ⟨before, bound.le, again⟩

/-- Reading on from what is left sees just this. -/
theorem tokensFrom_placeOf (suffix : later <:+ tokensFrom input position) :
    tokensFrom input (placeOf input later) = later := by
  have bounded : tokensFrom input position = tokensFrom input (min position input.length) := by
    rcases Nat.le_total position input.length with inside | beyond
    · rw [Nat.min_eq_left inside]
    · rw [Nat.min_eq_right beyond, tokensFrom, tokensFrom, List.drop_eq_nil_of_le beyond,
        List.drop_length, scanFrom_nil, scanFrom_nil]
  rw [bounded] at suffix
  obtain ⟨next, -, inside, rfl⟩ := exists_of_suffix (Nat.min_le_right _ _) suffix
  exact (placeOf_tokensFrom inside).2.2

/-- What is left by a reading that uses the token in front stands at a larger position, which is
inside the text. -/
theorem advance (seen : tokensFrom input position = token :: rest) (suffix : later <:+ rest) :
    position < placeOf input later ∧ placeOf input later ≤ input.length := by
  obtain ⟨before, -, -, next, after, bound, rfl⟩ := exists_of_tokensFrom_cons seen
  obtain ⟨last, more, inside, rfl⟩ := exists_of_suffix bound suffix
  obtain ⟨ahead, fits, -⟩ := placeOf_tokensFrom inside
  exact ⟨by omega, fits⟩

end Token

/-! ## What the rules of the grammar leave -/

namespace Grammar

open Reading (result passOver)

theorem passOver_suffix (mark : Char) (tokens : List Token) : passOver mark tokens <:+ tokens := by
  cases tokens with
  | nil => exact List.suffix_rfl
  | cons token rest =>
      rw [passOver]
      split
      · exact List.suffix_cons token rest
      · exact List.suffix_rfl

/-- What is left of the tokens behind the second one is left of all of them. -/
theorem suffix_cons_of_tail {later rest : List Token} (suffix : later <:+ rest.tail)
    (token : Token) : later <:+ token :: rest :=
  (suffix.trans (List.tail_suffix rest)).trans (List.suffix_cons token rest)

mutual

/-- What a sum leaves is a final part of the tokens behind the first one. -/
theorem suffix_sum (tokens : List Token) : (sum tokens).result.2 <:+ tokens.tail := by
  rw [result_sum]
  have short := (product tokens).length_result_le
  exact (suffix_sumAfter _ _).trans (suffix_product tokens)
termination_by 6 * tokens.length + 2

theorem suffix_sumAfter (left : Tree) (tokens : List Token) :
    (sumAfter left tokens).result.2 <:+ tokens := by
  match tokens with
  | [] => rw [result_sumAfter_nil]
  | token :: rest =>
      cases found : sumOperator? token.head with
      | none => rw [result_sumAfter_stop found]
      | some operator =>
          rw [result_sumAfter_operator found]
          have short := (product rest).length_result_le
          exact suffix_cons_of_tail ((suffix_sumAfter _ _).trans (suffix_product rest)) token
termination_by 6 * tokens.length

theorem suffix_product (tokens : List Token) : (product tokens).result.2 <:+ tokens.tail := by
  rw [result_product]
  have short := (factor tokens).length_result_le
  exact (suffix_productAfter _ _).trans (suffix_factor tokens)
termination_by 6 * tokens.length + 1

theorem suffix_productAfter (left : Tree) (tokens : List Token) :
    (productAfter left tokens).result.2 <:+ tokens := by
  match tokens with
  | [] => rw [result_productAfter_nil]
  | token :: rest =>
      cases found : productOperator? token.head with
      | none => rw [result_productAfter_stop found]
      | some operator =>
          rw [result_productAfter_operator found]
          have short := (factor rest).length_result_le
          exact suffix_cons_of_tail ((suffix_productAfter _ _).trans (suffix_factor rest)) token
termination_by 6 * tokens.length

theorem suffix_factor (tokens : List Token) : (factor tokens).result.2 <:+ tokens.tail := by
  match tokens with
  | [] =>
      rw [result_factor_nil]
      exact List.nil_suffix
  | token :: rest =>
      rw [List.tail_cons]
      by_cases plus : token.head = '+'
      · rw [result_factor_plus plus]
        exact (suffix_factor rest).trans (List.tail_suffix rest)
      by_cases minus : token.head = '-'
      · rw [result_factor_minus minus]
        exact (suffix_factor rest).trans (List.tail_suffix rest)
      rw [result_factor_operand plus minus]
      have short := (operand token rest).length_result_le
      exact (suffix_powerAfter _ _).trans (suffix_operand token rest)
termination_by 6 * tokens.length

theorem suffix_operand (token : Token) (rest : List Token) :
    (operand token rest).result.2 <:+ rest := by
  by_cases opening : token.head = '('
  · rw [result_operand_group opening]
    exact ((passOver_suffix _ _).trans (suffix_sum rest)).trans (List.tail_suffix rest)
  cases kind : token.kind with
  | number =>
      rw [result_operand_number opening kind]
  | name =>
      rw [result_operand_name opening kind]
      exact suffix_arguments rest
  | mark =>
      rw [result_operand_mark opening kind]
      exact List.nil_suffix
termination_by 6 * rest.length + 5

theorem suffix_powerAfter (base : Tree) (tokens : List Token) :
    (powerAfter base tokens).result.2 <:+ tokens := by
  match tokens with
  | [] => rw [result_powerAfter_nil]
  | token :: rest =>
      by_cases power : token.head = '^'
      · rw [result_powerAfter_power power]
        exact suffix_cons_of_tail (suffix_factor rest) token
      · rw [result_powerAfter_stop power]
termination_by 6 * tokens.length

theorem suffix_arguments (tokens : List Token) : (arguments tokens).result.2 <:+ tokens := by
  match tokens with
  | [] =>
      rw [result_arguments_bare (by simp)]
      exact ((passOver_suffix _ _).trans (suffix_list [])).trans List.nil_suffix
  | token :: rest =>
      by_cases opening : token.head = '('
      · by_cases closing : rest.head?.map Token.head = some ')'
        · match rest, closing with
          | second :: others, closing =>
              rw [result_arguments_empty opening (Option.some.inj closing)]
              exact (List.suffix_cons second others).trans (List.suffix_cons token _)
        · rw [result_arguments_opening opening closing]
          exact suffix_cons_of_tail ((passOver_suffix _ _).trans (suffix_list rest)) token
      · rw [result_arguments_bare (by simpa using opening)]
        exact ((passOver_suffix _ _).trans (suffix_list (token :: rest))).trans
          (List.tail_suffix _)
termination_by 6 * tokens.length + 4

theorem suffix_list (tokens : List Token) : (list tokens).result.2 <:+ tokens.tail := by
  rw [result_list]
  have short := (sum tokens).length_result_le
  exact (suffix_listAfter _).trans (suffix_sum tokens)
termination_by 6 * tokens.length + 3

theorem suffix_listAfter (tokens : List Token) : (listAfter tokens).result.2 <:+ tokens := by
  match tokens with
  | [] => rw [result_listAfter_nil]
  | token :: rest =>
      by_cases comma : token.head = ','
      · rw [result_listAfter_comma comma]
        exact suffix_cons_of_tail (suffix_list rest) token
      · rw [result_listAfter_stop comma]
termination_by 6 * tokens.length

end

end Grammar
end Reckoner
