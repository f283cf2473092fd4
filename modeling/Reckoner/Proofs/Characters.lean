import Reckoner.Token

/-!
# Classes of characters

How the classes of characters lie to each other: numbers and names share no character, neither has
a blank, and the marks of the grammar belong to none of the classes.
-/

namespace Reckoner

/-- What holds of the listed elements, one by one. -/
theorem forall_mem_of_all {α : Type} {property : α → Prop} [DecidablePred property] {list : List α}
    (all : list.all (fun element => decide (property element)) = true) :
    ∀ element ∈ list, property element := fun element member =>
  of_decide_eq_true (List.all_eq_true.mp all element member)

theorem isDigit_iff (character : Char) :
    character.isDigit = true ↔ 48 ≤ character.toNat ∧ character.toNat ≤ 57 := by
  simp only [Char.isDigit, Bool.and_eq_true, decide_eq_true_eq, ge_iff_le,
    UInt32.le_iff_toNat_le]
  exact Iff.rfl

theorem isAlpha_iff (character : Char) :
    character.isAlpha = true ↔
      (65 ≤ character.toNat ∧ character.toNat ≤ 90) ∨
        (97 ≤ character.toNat ∧ character.toNat ≤ 122) := by
  have cases : character.isAlpha =
      (decide (character.val ≥ 'A'.val ∧ character.val ≤ 'Z'.val) ||
        (decide (character.val ≥ 'a'.val) && decide (character.val ≤ 'z'.val))) := rfl
  simp only [cases, Bool.or_eq_true, Bool.and_eq_true, decide_eq_true_eq, ge_iff_le,
    UInt32.le_iff_toNat_le]
  exact Iff.rfl

/-- A function character is a letter of ASCII or one of the special ones. -/
theorem isFunctionCharacter_iff (character : Char) :
    isFunctionCharacter character = true ↔
      character.isAlpha = true ∨ character ∈ specialFunctionCharacters := by
  simp [isFunctionCharacter]

theorem isNumberCharacter_iff (character : Char) :
    isNumberCharacter character = true ↔ character.isDigit = true ∨ character = '.' := by
  simp [isNumberCharacter]

/-- No special function character is a digit, a point or a blank. -/
theorem special_facts : ∀ character ∈ specialFunctionCharacters,
    isNumberCharacter character = false ∧ isBlank character = false :=
  forall_mem_of_all (by decide)

theorem not_isNumberCharacter_of_isFunctionCharacter {character : Char}
    (member : isFunctionCharacter character = true) : isNumberCharacter character = false := by
  rcases (isFunctionCharacter_iff character).mp member with letter | special
  · rw [Bool.eq_false_iff, Ne, isNumberCharacter_iff, isDigit_iff]
    rw [isAlpha_iff] at letter
    rintro (digit | rfl)
    · omega
    · revert letter
      decide
  · exact (special_facts _ special).1

theorem not_isBlank_of_isNumberCharacter {character : Char}
    (digit : isNumberCharacter character = true) : isBlank character = false := by
  rcases (isNumberCharacter_iff character).mp digit with digit | rfl
  · rw [isDigit_iff] at digit
    simp only [isBlank, Bool.or_eq_false_iff, Bool.and_eq_false_iff, decide_eq_false_iff_not,
      beq_eq_false_iff_ne]
    omega
  · decide

theorem not_isBlank_of_isFunctionCharacter {character : Char}
    (member : isFunctionCharacter character = true) : isBlank character = false := by
  rcases (isFunctionCharacter_iff character).mp member with letter | special
  · rw [isAlpha_iff] at letter
    simp only [isBlank, Bool.or_eq_false_iff, Bool.and_eq_false_iff, decide_eq_false_iff_not,
      beq_eq_false_iff_ne]
    omega
  · exact (special_facts _ special).2

namespace TokenKind

theorem ofCharacter_of_isNumberCharacter {character : Char}
    (digit : isNumberCharacter character = true) : ofCharacter character = number := by
  rw [ofCharacter, if_pos digit]

theorem ofCharacter_of_isFunctionCharacter {character : Char}
    (member : isFunctionCharacter character = true) : ofCharacter character = name := by
  rw [ofCharacter, if_pos member,
    if_neg (by simp [not_isNumberCharacter_of_isFunctionCharacter member])]

theorem ofCharacter_eq_number_iff (character : Char) :
    ofCharacter character = number ↔ isNumberCharacter character = true := by
  unfold ofCharacter
  split
  · simp_all
  · split <;> simp_all

theorem ofCharacter_eq_name_iff (character : Char) :
    ofCharacter character = name ↔ isFunctionCharacter character = true := by
  constructor
  · unfold ofCharacter
    split
    · simp
    · split <;> simp_all
  · exact ofCharacter_of_isFunctionCharacter

end TokenKind
end Reckoner
