import Reckoner.Proofs.Environment
import Reckoner.Proofs.Lexical

/-!
# Words in a text

Case folding keeps the class of a character, so a candidate for replacement fits exactly the words
that fold to its name (`Candidate.fits_iff_of_word`): it cannot end inside a word, and it cannot
begin at a character that no name begins with.
-/

namespace Reckoner

/-! ## Characters of words -/

theorem toLower_of_not_upper {character : Char}
    (other : ¬ (65 ≤ character.toNat ∧ character.toNat ≤ 90)) : character.toLower = character := by
  have outside : ¬ (character.val ≥ 'A'.val ∧ character.val ≤ 'Z'.val) := by
    simp only [ge_iff_le, UInt32.le_iff_toNat_le]
    exact other
  exact dif_neg outside

theorem toNat_toLower_of_upper {character : Char} (low : 65 ≤ character.toNat)
    (high : character.toNat ≤ 90) : character.toLower.toNat = character.toNat + 32 := by
  have upper : character.val ≥ 'A'.val ∧ character.val ≤ 'Z'.val := by
    simp only [ge_iff_le, UInt32.le_iff_toNat_le]
    exact ⟨low, high⟩
  have lowered : character.toLower.val = character.val + 32 := congrArg Char.val (dif_pos upper)
  have small : character.val.toNat + 32 < 2 ^ 32 := by
    have bound : character.val.toNat ≤ 90 := high
    omega
  rw [Char.toNat, lowered, UInt32.toNat_add]
  exact Nat.mod_eq_of_lt small

/-- A letter of ASCII belongs to words. -/
theorem isWordCharacter_of_isAlpha {character : Char} (letter : character.isAlpha = true) :
    isWordCharacter character = true := by
  simp [isWordCharacter, isAlphabetic, letter]

@[simp]
theorem isWordCharacter_toLower (character : Char) :
    isWordCharacter character.toLower = isWordCharacter character := by
  by_cases upper : 65 ≤ character.toNat ∧ character.toNat ≤ 90
  · have lower := toNat_toLower_of_upper upper.1 upper.2
    rw [isWordCharacter_of_isAlpha ((isAlpha_iff _).mpr (.inl upper)),
      isWordCharacter_of_isAlpha ((isAlpha_iff _).mpr (.inr (by omega)))]
  · rw [toLower_of_not_upper upper]

@[simp]
theorem isDigit_toLower (character : Char) :
    character.toLower.isDigit = character.isDigit := by
  by_cases upper : 65 ≤ character.toNat ∧ character.toNat ≤ 90
  · have lower := toNat_toLower_of_upper upper.1 upper.2
    rw [Bool.eq_iff_iff, isDigit_iff, isDigit_iff]
    omega
  · rw [toLower_of_not_upper upper]

/-- The code points of blanks. -/
def blankCodes : List Nat :=
  [9, 10, 11, 12, 13, 0x20, 0x85, 0xA0, 0x1680, 0x2000, 0x2001, 0x2002, 0x2003, 0x2004, 0x2005,
    0x2006, 0x2007, 0x2008, 0x2009, 0x200A, 0x2028, 0x2029, 0x202F, 0x205F, 0x3000]

theorem mem_blankCodes {character : Char} (blank : isBlank character = true) :
    character.toNat ∈ blankCodes := by
  simp only [isBlank, Bool.or_eq_true, Bool.and_eq_true, decide_eq_true_eq, beq_iff_eq] at blank
  simp only [blankCodes, List.mem_cons, List.not_mem_nil, or_false]
  omega

theorem not_isWordCharacter_of_isBlank {character : Char} (blank : isBlank character = true) :
    isWordCharacter character = false := by
  have table : ∀ code ∈ blankCodes, CharacterRanges.member code false alphabeticRanges.changes =
      false := by decide +kernel
  have code := mem_blankCodes blank
  have outside := table _ code
  have small : character.isAlpha = false ∧ character.isDigit = false ∧ character ≠ '_' := by
    have range : character.toNat ≤ 0x20 ∨ 0x80 ≤ character.toNat := by
      revert code
      generalize character.toNat = number
      revert number
      decide
    refine ⟨?_, ?_, ?_⟩
    · rw [Bool.eq_false_iff, Ne, isAlpha_iff]
      omega
    · rw [Bool.eq_false_iff, Ne, isDigit_iff]
      omega
    · rintro rfl
      revert range
      decide
  simp [isWordCharacter, isAlphabetic, CharacterRanges.contains, outside, small]

theorem not_isWordCharacter_of_isSpacing {character : Char} (spacing : isSpacing character = true) :
    isWordCharacter character = false :=
  not_isWordCharacter_of_isBlank (isBlank_of_isSpacing spacing)

/-- A keyword cannot be told from the word that it begins. -/
theorem extendsKeyword_of_isWordCharacter {character : Char}
    (word : isWordCharacter character = true) : extendsKeyword character = true := by
  simp only [isWordCharacter, Bool.or_eq_true] at word
  simp only [extendsKeyword, isNumeric, Bool.or_eq_true]
  tauto

theorem not_isWordCharacter_of_mem_grammarMarks :
    ∀ character ∈ grammarMarks, isWordCharacter character = false :=
  forall_mem_of_all (by decide)

/-! ## Identifiers -/

namespace Identifier

variable (identifier : Identifier)

theorem isWordCharacter_of_mem :
    ∀ character ∈ identifier.name.toList, isWordCharacter character = true := by
  have valid := identifier.valid
  simp only [isIdentifier, Bool.and_eq_true, List.all_eq_true] at valid
  exact valid.1.1

theorem exists_cons :
    ∃ first rest, identifier.name.toList = first :: rest ∧ first.isDigit = false := by
  have valid := identifier.valid
  simp only [isIdentifier, Bool.and_eq_true] at valid
  have starts := valid.1.2
  cases found : identifier.name.toList with
  | nil => simp [found] at starts
  | cons first rest => exact ⟨first, rest, rfl, by simpa [found] using starts⟩

theorem ne_returnKeyword : identifier.name.toList ≠ Statement.returnKeyword := by
  have valid := identifier.valid
  simp only [isIdentifier, Bool.and_eq_true, bne_iff_ne] at valid
  exact valid.2

end Identifier

/-! ## Candidates -/

namespace Candidate

/-- A candidate whose name is a word that does not begin with a digit. -/
structure IsWord (candidate : Candidate) : Prop where
  /-- The name consists of word characters. -/
  word : ∀ character ∈ candidate.name, isWordCharacter character = true
  /-- The name begins, and with no digit. -/
  head : ∃ first rest, candidate.name = first :: rest ∧ first.isDigit = false

/-- Whether all names consist of word characters; they may be empty or begin with a digit. -/
def AreWords (candidates : List Candidate) : Prop :=
  ∀ candidate ∈ candidates, ∀ character ∈ candidate.name, isWordCharacter character = true

theorem areWords_of_isWord {candidates : List Candidate}
    (isWord : ∀ candidate ∈ candidates, candidate.IsWord) : AreWords candidates :=
  fun candidate member => (isWord candidate member).word

variable {candidate : Candidate} {run rest : List Char}

theorem isWordCharacter_of_foldCase_eq {left right : List Char}
    (same : foldCase left = foldCase right)
    (word : ∀ character ∈ right, isWordCharacter character = true) :
    ∀ character ∈ left, isWordCharacter character = true := by
  intro character member
  have lowered : character.toLower ∈ foldCase right := same ▸ List.mem_map_of_mem member
  obtain ⟨other, found, equal⟩ := List.mem_map.mp lowered
  rw [← isWordCharacter_toLower, ← equal, isWordCharacter_toLower]
  exact word other found

/-- A name of word characters fits nothing but a word that ends and does not begin a call. -/
theorem exists_of_fits {text : List Char}
    (names : ∀ character ∈ candidate.name, isWordCharacter character = true)
    (fits : candidate.fits text = true) :
    ∃ run rest, text = run ++ rest ∧ run ≠ [] ∧ foldCase run = foldCase candidate.name ∧
      (∀ character ∈ run, isWordCharacter character = true) ∧ inWord rest.head? = false ∧
        rest.head? ≠ some '(' := by
  simp only [Candidate.fits, Bool.and_eq_true, beq_iff_eq, bne_iff_ne] at fits
  obtain ⟨⟨⟨nonempty, same⟩, edge⟩, noCall⟩ := fits
  have split := List.take_append_drop candidate.name.length text
  generalize text.take candidate.name.length = run at same edge split
  generalize text.drop candidate.name.length = rest at edge noCall split
  have word := isWordCharacter_of_foldCase_eq same names
  have filled : run ≠ [] := by
    rintro rfl
    have empty : candidate.name = [] := by
      rw [← List.length_eq_zero_iff]
      simpa [foldCase] using (congrArg List.length same).symm
    simp [empty] at nonempty
  obtain ⟨front, last, rfl⟩ := (List.eq_nil_or_concat' run).resolve_left filled
  have wordLast := word last (by simp)
  have next : inWord rest.head? = false := by simpa [isWordEdge, inWord, wordLast] using edge
  exact ⟨_, rest, split.symm, filled, same, word, next, noCall⟩

/--
A candidate of word characters fits a word if it folds to the same name and the word does not begin
a call.
-/
theorem fits_iff_of_word (names : ∀ character ∈ candidate.name, isWordCharacter character = true)
    (nonempty : candidate.name ≠ [])
    (word : ∀ character ∈ run, isWordCharacter character = true)
    (ends : inWord rest.head? = false) :
    candidate.fits (run ++ rest) = true ↔
      foldCase candidate.name = foldCase run ∧ rest.head? ≠ some '(' := by
  obtain ⟨first, others, name⟩ := List.exists_cons_of_ne_nil nonempty
  have length_eq {left right : List Char} (same : foldCase left = foldCase right) :
      left.length = right.length := by simpa [foldCase] using congrArg List.length same
  constructor
  · intro found
    obtain ⟨taken, remaining, split, -, same, takenWord, next, noCall⟩ := exists_of_fits names found
    rcases List.append_eq_append_iff.mp split with ⟨middle, rfl, rfl⟩ | ⟨middle, rfl, rfl⟩
    · cases middle with
      | nil => exact ⟨by simpa using same.symm, by simpa using noCall⟩
      | cons character tail =>
          have inTaken := takenWord character (by simp)
          simp [inWord, inTaken] at ends
    · cases middle with
      | nil => exact ⟨by simpa using same.symm, by simpa using noCall⟩
      | cons character tail =>
          have inRun := word character (by simp)
          simp [inWord, inRun] at next
  · rintro ⟨same, noCall⟩
    have length := length_eq same
    have runSome : run ≠ [] := by
      rintro rfl
      simp [name] at length
    obtain ⟨front, last, rfl⟩ := (List.eq_nil_or_concat' run).resolve_left runSome
    have wordLast := word last (by simp)
    simp only [Candidate.fits, length, List.take_left, List.drop_left, Bool.and_eq_true, beq_iff_eq,
      bne_iff_ne]
    refine ⟨⟨⟨by simp [name], same.symm⟩, ?_⟩, noCall⟩
    simp [isWordEdge, inWord, wordLast] at ends ⊢
    simpa [inWord] using ends

/-- The same for a word that is not empty, where nothing needs to be known of the name's length. -/
theorem fits_iff_of_run (names : ∀ character ∈ candidate.name, isWordCharacter character = true)
    (word : ∀ character ∈ run, isWordCharacter character = true) (nonempty : run ≠ [])
    (ends : inWord rest.head? = false) :
    candidate.fits (run ++ rest) = true ↔
      foldCase candidate.name = foldCase run ∧ rest.head? ≠ some '(' := by
  by_cases named : candidate.name = []
  · have other : foldCase [] ≠ foldCase run := by simpa [foldCase] using nonempty.symm
    simp [Candidate.fits, named, other]
  · exact fits_iff_of_word names named word ends

theorem fits_iff (isWord : candidate.IsWord)
    (word : ∀ character ∈ run, isWordCharacter character = true)
    (ends : inWord rest.head? = false) :
    candidate.fits (run ++ rest) = true ↔
      foldCase candidate.name = foldCase run ∧ rest.head? ≠ some '(' := by
  obtain ⟨first, others, name, -⟩ := isWord.head
  exact fits_iff_of_word isWord.word (name ▸ List.cons_ne_nil first others) word ends

/-- No candidate fits where no name begins. -/
theorem not_fits_of_head (isWord : candidate.IsWord) {character : Char}
    (outside : isWordCharacter character = false ∨ character.isDigit = true) (text : List Char) :
    candidate.fits (character :: text) = false := by
  obtain ⟨first, others, name, noDigit⟩ := isWord.head
  rw [Bool.eq_false_iff]
  intro found
  simp only [Candidate.fits, Bool.and_eq_true, beq_iff_eq] at found
  have same := found.1.1.2
  simp only [name, List.length_cons, List.take_succ_cons, foldCase, List.map_cons,
    List.cons.injEq] at same
  have wordFirst := isWord.word first (by simp [name])
  rw [← isWordCharacter_toLower, ← same.1, isWordCharacter_toLower] at wordFirst
  rw [← isDigit_toLower, ← same.1, isDigit_toLower] at noDigit
  rcases outside with noWord | digit
  · simp [wordFirst] at noWord
  · simp [noDigit] at digit

end Candidate
end Reckoner
