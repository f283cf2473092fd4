import Reckoner.Proofs.Denotation
import Reckoner.Proofs.Scanning

/-!
# Reading

The reading functions of the grammar as equations between results: what was read, and the tokens
after it.  Each equation says what one rule does with the token in front; the proofs about whole
readings use these and never open a rule again.
-/

namespace Reckoner

namespace Reading

variable {α β : Type} {bound larger : Nat}

/-- What was read together with the tokens after it. -/
def result (reading : Reading α bound) : α × List Token := (reading.value, reading.rest)

@[simp]
theorem result_done (value : α) (tokens : List Token) :
    (done value tokens).result = (value, tokens) := rfl

@[simp]
theorem result_fault (problem : Fault) :
    (fault problem : Reading Tree bound).result = (.unreadable problem, []) := rfl

@[simp]
theorem result_within (reading : Reading α bound) (fits : bound ≤ larger) :
    (reading.within fits).result = reading.result := rfl

@[simp]
theorem result_map (change : α → β) (reading : Reading α bound) :
    (reading.map change).result = (change reading.result.1, reading.result.2) := rfl

/-- What every function of the grammar leaves behind is short enough to go on with. -/
theorem length_result_le (reading : Reading α bound) : reading.result.2.length ≤ bound :=
  reading.short

/-- What passing over a mark leaves. -/
def passOver (mark : Char) : List Token → List Token
  | [] => []
  | token :: rest => if token.head = mark then rest else token :: rest

@[simp]
theorem result_skip (mark : Char) (reading : Reading α bound) :
    (reading.skip mark).result = (reading.result.1, passOver mark reading.result.2) := by
  obtain ⟨value, rest, short⟩ := reading
  cases rest with
  | nil => rfl
  | cons token rest =>
      unfold skip result passOver
      dsimp only
      split <;> rfl

end Reading

namespace Grammar

open Reading (result passOver)

theorem result_sum (tokens : List Token) :
    (sum tokens).result =
      (sumAfter (product tokens).result.1 (product tokens).result.2).result := by
  rw [sum]
  rfl

@[simp]
theorem result_sumAfter_nil (left : Tree) : (sumAfter left []).result = (left, []) := by
  rw [sumAfter]
  rfl

theorem result_sumAfter_operator {token : Token} {operator : Operator}
    (found : sumOperator? token.head = some operator) (left : Tree) (rest : List Token) :
    (sumAfter left (token :: rest)).result =
      (sumAfter (.operation operator left (product rest).result.1)
        (product rest).result.2).result := by
  rw [sumAfter]
  split
  · rename_i other same
    obtain rfl := Option.some.inj (found.symm.trans same)
    rfl
  · rename_i absent
    exact absurd (found.symm.trans absent) (by simp)

theorem result_sumAfter_stop {token : Token} (absent : sumOperator? token.head = none)
    (left : Tree) (rest : List Token) :
    (sumAfter left (token :: rest)).result = (left, token :: rest) := by
  rw [sumAfter]
  split
  · rename_i other same
    exact absurd (absent.symm.trans same) (by simp)
  · rfl

theorem result_product (tokens : List Token) :
    (product tokens).result =
      (productAfter (factor tokens).result.1 (factor tokens).result.2).result := by
  rw [product]
  rfl

@[simp]
theorem result_productAfter_nil (left : Tree) : (productAfter left []).result = (left, []) := by
  rw [productAfter]
  rfl

theorem result_productAfter_operator {token : Token} {operator : Operator}
    (found : productOperator? token.head = some operator) (left : Tree) (rest : List Token) :
    (productAfter left (token :: rest)).result =
      (productAfter (.operation operator left (factor rest).result.1)
        (factor rest).result.2).result := by
  rw [productAfter]
  split
  · rename_i other same
    obtain rfl := Option.some.inj (found.symm.trans same)
    rfl
  · rename_i absent
    exact absurd (found.symm.trans absent) (by simp)

theorem result_productAfter_stop {token : Token} (absent : productOperator? token.head = none)
    (left : Tree) (rest : List Token) :
    (productAfter left (token :: rest)).result = (left, token :: rest) := by
  rw [productAfter]
  split
  · rename_i other same
    exact absurd (absent.symm.trans same) (by simp)
  · rfl

@[simp]
theorem result_factor_nil : (factor []).result = (.unreadable .unexpectedEnd, []) := by
  rw [factor]
  rfl

theorem result_factor_plus {token : Token} (sign : token.head = '+') (rest : List Token) :
    (factor (token :: rest)).result =
      (.plus (factor rest).result.1, (factor rest).result.2) := by
  rw [factor, if_pos sign]
  rfl

theorem result_factor_minus {token : Token} (sign : token.head = '-') (rest : List Token) :
    (factor (token :: rest)).result =
      (.minus (factor rest).result.1, (factor rest).result.2) := by
  rw [factor, if_neg (by rw [sign]; decide), if_pos sign]
  rfl

theorem result_factor_operand {token : Token} (noPlus : token.head ≠ '+')
    (noMinus : token.head ≠ '-') (rest : List Token) :
    (factor (token :: rest)).result =
      (powerAfter (operand token rest).result.1 (operand token rest).result.2).result := by
  rw [factor, if_neg noPlus, if_neg noMinus]
  rfl

theorem result_operand_group {token : Token} (opening : token.head = '(') (rest : List Token) :
    (operand token rest).result =
      (.group (sum rest).result.1, passOver ')' (sum rest).result.2) := by
  rw [operand, if_pos opening, Reading.result_skip, Reading.result_map]

theorem result_operand_number {token : Token} (noGroup : token.head ≠ '(')
    (kind : token.kind = .number) (rest : List Token) :
    (operand token rest).result = (.number token.text, rest) := by
  rw [operand, if_neg noGroup, kind]
  rfl

theorem result_operand_name {token : Token} (noGroup : token.head ≠ '(')
    (kind : token.kind = .name) (rest : List Token) :
    (operand token rest).result =
      (.call (String.ofList token.text) (arguments rest).result.1,
        (arguments rest).result.2) := by
  rw [operand, if_neg noGroup, kind]
  rfl

theorem result_operand_mark {token : Token} (noGroup : token.head ≠ '(')
    (kind : token.kind = .mark) (rest : List Token) :
    (operand token rest).result =
      (.unreadable (.unexpectedCharacter token.head token.position), []) := by
  rw [operand, if_neg noGroup, kind]
  rfl

@[simp]
theorem result_powerAfter_nil (base : Tree) : (powerAfter base []).result = (base, []) := by
  rw [powerAfter]
  rfl

theorem result_powerAfter_power {token : Token} (power : token.head = '^') (base : Tree)
    (rest : List Token) :
    (powerAfter base (token :: rest)).result =
      (.operation .power base (factor rest).result.1, (factor rest).result.2) := by
  rw [powerAfter, if_pos power]
  rfl

theorem result_powerAfter_stop {token : Token} (noPower : token.head ≠ '^') (base : Tree)
    (rest : List Token) :
    (powerAfter base (token :: rest)).result = (base, token :: rest) := by
  rw [powerAfter, if_neg noPower]
  rfl

/-- An argument list whose opening parenthesis is closed at once. -/
theorem result_arguments_empty {first second : Token} (opening : first.head = '(')
    (closing : second.head = ')') (rest : List Token) :
    (arguments (first :: second :: rest)).result = ([], rest) := by
  rw [arguments, if_pos opening, if_pos (by simp [closing]), Reading.result_within,
    Reading.result_skip, Reading.result_done]
  simp [passOver, closing]

/-- An argument list in parentheses. -/
theorem result_arguments_opening {token : Token} (opening : token.head = '(')
    {rest : List Token} (filled : (rest.head?.map Token.head) ≠ some ')') :
    (arguments (token :: rest)).result =
      ((list rest).result.1, passOver ')' (list rest).result.2) := by
  rw [arguments, if_pos opening, if_neg filled, Reading.result_within, Reading.result_skip]

/-- An argument list that lacks its opening parenthesis. -/
theorem result_arguments_bare {tokens : List Token}
    (noOpening : ∀ token ∈ tokens.head?, token.head ≠ '(') :
    (arguments tokens).result =
      ((list tokens).result.1, passOver ')' (list tokens).result.2) := by
  cases tokens with
  | nil => rw [arguments, Reading.result_skip]
  | cons token rest =>
      rw [arguments, if_neg (noOpening token (by simp)), Reading.result_skip]

theorem result_list (tokens : List Token) :
    (list tokens).result =
      ((sum tokens).result.1 :: (listAfter (sum tokens).result.2).result.1,
        (listAfter (sum tokens).result.2).result.2) := by
  rw [list]
  rfl

@[simp]
theorem result_listAfter_nil : (listAfter []).result = ([], []) := by
  rw [listAfter]
  rfl

theorem result_listAfter_comma {token : Token} (comma : token.head = ',') (rest : List Token) :
    (listAfter (token :: rest)).result = (list rest).result := by
  rw [listAfter, if_pos comma, Reading.result_within]

theorem result_listAfter_stop {token : Token} (noComma : token.head ≠ ',')
    (rest : List Token) : (listAfter (token :: rest)).result = ([], token :: rest) := by
  rw [listAfter, if_neg noComma]
  rfl

/-- A sum that is nothing but an operand up to the end of the tokens. -/
theorem result_sum_of_operand {token : Token} (noPlus : token.head ≠ '+')
    (noMinus : token.head ≠ '-') {rest : List Token} {tree : Tree}
    (read : (operand token rest).result = (tree, [])) :
    (sum (token :: rest)).result = (tree, []) := by
  rw [result_sum, result_product, result_factor_operand noPlus noMinus, read,
    result_powerAfter_nil, result_productAfter_nil, result_sumAfter_nil]

end Grammar
end Reckoner
