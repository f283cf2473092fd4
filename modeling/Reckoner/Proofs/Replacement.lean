import Mathlib.Data.List.Find
import Reckoner.Proofs.Words

/-!
# Names replaced in the text of an expression

The text of an expression in a block is a spaced row of pieces: leaves, marks, and names of
functions, each with the opening parenthesis that directly follows it.  Replacing names puts the
numerals of the referents in the places of references and copies everything else
(`spaced_replaceNames`): nothing is found inside a numeral, and a function that is named like a
variable is protected by its parenthesis.
-/

namespace Reckoner

/-- A unit of the text of an expression in a block. -/
inductive Piece
  /-- A literal or a name. -/
  | leaf (atom : Atom)
  /-- The name of a function and the parenthesis after it. -/
  | calling (function : FunctionName)
  /-- Any other mark. -/
  | mark (character : Char)

/-- The characters of a leaf. -/
def Atom.text : Atom → List Char
  | literal numeral => numeral.text
  | reference name => name.name.toList

namespace Piece

/-- The characters of a piece. -/
def text : Piece → List Char
  | leaf atom => atom.text
  | calling function => function.name.toList ++ ['(']
  | mark character => [character]

end Piece

/-- The pieces of an expression in their order. -/
def Phrase.pieces {level : Level} : Phrase Atom level → List Piece
  | atom leaf => [.leaf leaf]
  | group inner => .mark '(' :: (inner.pieces ++ [.mark ')'])
  | call function => [.calling function, .mark ')']
  | apply function arguments => .calling function :: (arguments.pieces ++ [.mark ')'])
  | plain operand => operand.pieces
  | power base exponent => base.pieces ++ .mark '^' :: exponent.pieces
  | plus operand => .mark '+' :: operand.pieces
  | minus operand => .mark '-' :: operand.pieces
  | single factor => factor.pieces
  | multiplied left operator _ right => left.pieces ++ .mark operator.symbol :: right.pieces
  | alone product => product.pieces
  | added left operator _ right => left.pieces ++ .mark operator.symbol :: right.pieces
  | last argument => argument.pieces
  | cons argument others => argument.pieces ++ .mark ',' :: others.pieces

/-- Whether a function is named by a word. -/
def FunctionName.IsWord (function : FunctionName) : Prop :=
  ∀ character ∈ function.name.toList, isWordCharacter character = true

namespace Piece

/-- What is known of a piece: a mark of the grammar, or a function that is named by a word. -/
def IsKnown : Piece → Prop
  | leaf _ => True
  | calling function => function.IsWord
  | mark character => character ∈ grammarMarks

/-- Whether a piece is a literal or a name. -/
def isLeaf : Piece → Bool
  | leaf _ => true
  | calling _ | mark _ => false

/-- Whether a piece is a mark that opens nothing. -/
def isContinuing : Piece → Bool
  | mark character => character != '('
  | leaf _ | calling _ => false

/-- A leaf is followed by a mark that opens nothing. -/
def Follows (left right : Piece) : Prop := left.isLeaf = true → right.isContinuing = true

end Piece

namespace Phrase

variable {level : Level}

/-- Whether all functions that an expression calls are named by words. -/
def CallsWords (phrase : Phrase Atom level) : Prop :=
  ∀ function, Piece.calling function ∈ phrase.pieces → function.IsWord

theorem isKnown_of_mem_pieces (phrase : Phrase Atom level) (words : phrase.CallsWords) :
    ∀ piece ∈ phrase.pieces, piece.IsKnown := by
  have symbols (operator : Operator) : operator.symbol ∈ grammarMarks := by
    cases operator <;> decide
  have marks : ∀ character, Piece.mark character ∈ phrase.pieces → character ∈ grammarMarks := by
    clear words
    induction phrase with
    | multiplied left operator fits right ihLeft ihRight =>
        simpa [pieces, or_imp, forall_and, symbols] using ⟨ihLeft, ihRight⟩
    | added left operator fits right ihLeft ihRight =>
        simpa [pieces, or_imp, forall_and, symbols] using ⟨ihLeft, ihRight⟩
    | _ => simp_all [pieces, or_imp, grammarMarks]
  intro piece member
  cases piece with
  | leaf => trivial
  | calling function => exact words function member
  | mark character => exact marks character member

theorem isChain_pieces (phrase : Phrase Atom level) : phrase.pieces.IsChain Piece.Follows := by
  have symbols (operator : Operator) : operator.symbol ≠ '(' := by
    cases operator <;> decide
  induction phrase with
  | _ =>
      simp_all [pieces, List.isChain_append, List.isChain_cons, Piece.Follows, Piece.isLeaf,
        Piece.isContinuing]

end Phrase

/-! ## Replacing names -/

/-- Whether replacing has no other text for a character. -/
def IsPlain (character : Char) : Prop := character ≠ 'π' ∧ character ≠ '²' ∧ character ≠ '³'

theorem resolveCharacter_of_isPlain {character : Char} (plain : IsPlain character)
    (pi : List Char) : resolveCharacter pi character = [character] := by
  rw [resolveCharacter, if_neg plain.1, if_neg plain.2.1, if_neg plain.2.2]

/-- What is known of a digit or a point: it is copied, and no name begins with it. -/
theorem facts_of_isNumberCharacter {character : Char}
    (number : isNumberCharacter character = true) :
    IsPlain character ∧ (isWordCharacter character = false ∨ character.isDigit = true) := by
  rcases (isNumberCharacter_iff character).mp number with digit | rfl
  · refine ⟨⟨?_, ?_, ?_⟩, .inr digit⟩ <;>
    · rintro rfl
      revert digit
      decide
  · exact ⟨by unfold IsPlain; decide, .inl (by decide)⟩

section Replacing

variable {candidates : List Candidate} (pi : List Char) {before : Option Char}
  {run rest : List Char}

theorem Candidate.first?_eq_none {character : Char}
    (isWord : ∀ candidate ∈ candidates, candidate.IsWord)
    (outside : isWordCharacter character = false ∨ character.isDigit = true) :
    Candidate.first? candidates before (character :: rest) = none := by
  rw [Candidate.first?]
  split
  case isTrue =>
    rw [List.find?_eq_none]
    intro candidate member
    simp [Candidate.not_fits_of_head (isWord candidate member) outside rest]
  case isFalse => rfl

/-- A character is copied where no candidate is found. -/
theorem replaceNames_of_none {character : Char} (plain : IsPlain character)
    (absent : Candidate.first? candidates before (character :: rest) = none) :
    replaceNames candidates pi 0 before (character :: rest) =
      character :: replaceNames candidates pi 0 (some character) rest := by
  rw [replaceNames, absent]
  dsimp only
  rw [resolveCharacter_of_isPlain plain, List.singleton_append]

/-- No name begins with this character. -/
theorem replaceNames_outside {character : Char} (plain : IsPlain character)
    (isWord : ∀ candidate ∈ candidates, candidate.IsWord)
    (outside : isWordCharacter character = false ∨ character.isDigit = true) :
    replaceNames candidates pi 0 before (character :: rest) =
      character :: replaceNames candidates pi 0 (some character) rest :=
  replaceNames_of_none pi plain (Candidate.first?_eq_none isWord outside)

/-- Numerals are copied. -/
theorem exists_replaceNames_numeral (before : Option Char) (rest : List Char)
    (isWord : ∀ candidate ∈ candidates, candidate.IsWord)
    (numeral : ∀ character ∈ run, isNumberCharacter character = true) :
    ∃ after, replaceNames candidates pi 0 before (run ++ rest) =
      run ++ replaceNames candidates pi 0 after rest := by
  induction run generalizing before with
  | nil => exact ⟨before, rfl⟩
  | cons character run ih =>
      rw [List.forall_mem_cons] at numeral
      obtain ⟨after, copied⟩ := ih (some character) numeral.2
      have facts := facts_of_isNumberCharacter numeral.1
      refine ⟨after, ?_⟩
      rw [List.cons_append, replaceNames_outside pi facts.1 isWord facts.2, copied,
        List.cons_append]

/-- The characters inside a word are resolved one by one. -/
theorem exists_replaceNames_within (candidates : List Candidate) (rest : List Char)
    (word : ∀ character ∈ run, isWordCharacter character = true) (inside : inWord before = true) :
    ∃ after, replaceNames candidates pi 0 before (run ++ rest) =
      run.flatMap (resolveCharacter pi) ++ replaceNames candidates pi 0 after rest := by
  induction run generalizing before with
  | nil => exact ⟨before, rfl⟩
  | cons character run ih =>
      rw [List.forall_mem_cons] at word
      have next : inWord (some character) = true := word.1
      obtain ⟨after, resolved⟩ := ih word.2 next
      have absent : Candidate.first? candidates before (character :: (run ++ rest)) = none := by
        simp [Candidate.first?, isWordEdge, inside, next]
      refine ⟨after, ?_⟩
      rw [List.cons_append, replaceNames, absent, List.flatMap_cons, List.append_assoc, ← resolved]

/-- Characters that replacing has no other text for are copied inside a word. -/
theorem exists_replaceNames_inside (candidates : List Candidate) (rest : List Char)
    (plain : ∀ character ∈ run, IsPlain character)
    (word : ∀ character ∈ run, isWordCharacter character = true) (inside : inWord before = true) :
    ∃ after, replaceNames candidates pi 0 before (run ++ rest) =
      run ++ replaceNames candidates pi 0 after rest := by
  have copied : run.flatMap (resolveCharacter pi) = run := by
    rw [List.flatMap_congr fun character member =>
      resolveCharacter_of_isPlain (plain character member) pi, List.flatMap_singleton']
  simpa only [copied] using exists_replaceNames_within pi candidates rest word inside

/-- The rest of a name that was replaced is passed over. -/
theorem exists_replaceNames_pass (candidates : List Candidate) (before : Option Char)
    (run rest : List Char) :
    ∃ after, replaceNames candidates pi run.length before (run ++ rest) =
      replaceNames candidates pi 0 after rest := by
  induction run generalizing before with
  | nil => exact ⟨before, rfl⟩
  | cons character run ih => exact ih (some character)

/-- What is found where a word begins: a candidate that folds to it, unless it begins a call. -/
theorem Candidate.first?_word (words : AreWords candidates)
    (word : ∀ character ∈ run, isWordCharacter character = true) (nonempty : run ≠ [])
    (starts : inWord before = false) (ends : inWord rest.head? = false) :
    Candidate.first? candidates before (run ++ rest) =
      if rest.head? = some '(' then none
      else candidates.find? fun candidate => foldCase candidate.name == foldCase run := by
  have edge : isWordEdge before (run ++ rest).head? = true := by
    obtain ⟨first, tail, rfl⟩ := List.exists_cons_of_ne_nil nonempty
    have wordFirst : inWord (some first) = true := word first List.mem_cons_self
    simp [isWordEdge, starts, wordFirst]
  rw [Candidate.first?, if_pos edge]
  split
  case isTrue call =>
    rw [List.find?_eq_none]
    intro candidate member found
    exact ((fits_iff_of_run (words candidate member) word nonempty ends).mp found).2 call
  case isFalse noCall =>
    refine List.find?_congr fun candidate member => ?_
    rw [Bool.eq_iff_iff, fits_iff_of_run (words candidate member) word nonempty ends, beq_iff_eq]
    exact and_iff_left noCall

/-- A name that is found where a word begins is as long as the word. -/
theorem Candidate.length_of_first? (words : AreWords candidates)
    (word : ∀ character ∈ run, isWordCharacter character = true) (nonempty : run ≠ [])
    (starts : inWord before = false) (ends : inWord rest.head? = false) {candidate : Candidate}
    (found : first? candidates before (run ++ rest) = some candidate) :
    candidate.name.length = run.length := by
  rw [first?_word words word nonempty starts ends] at found
  split at found
  case isTrue => exact nomatch found
  case isFalse =>
    have folds := List.find?_some found
    rw [beq_iff_eq] at folds
    simpa [foldCase] using congrArg List.length folds

/-- The name of a function is copied, whatever is bound, because its parenthesis follows. -/
theorem exists_replaceNames_calling (rest : List Char)
    (isWord : ∀ candidate ∈ candidates, candidate.IsWord)
    (word : ∀ character ∈ run, isWordCharacter character = true)
    (plain : ∀ character ∈ run, IsPlain character) (nonempty : run ≠ [])
    (starts : inWord before = false) :
    ∃ after, replaceNames candidates pi 0 before (run ++ '(' :: rest) =
      run ++ replaceNames candidates pi 0 after ('(' :: rest) := by
  have ends : inWord ('(' :: rest).head? = false := rfl
  have absent :=
    Candidate.first?_word (Candidate.areWords_of_isWord isWord) word nonempty starts ends
  rw [List.head?_cons, if_pos rfl] at absent
  obtain ⟨first, tail, rfl⟩ := List.exists_cons_of_ne_nil nonempty
  rw [List.forall_mem_cons] at word plain
  obtain ⟨after, copied⟩ := exists_replaceNames_inside pi candidates ('(' :: rest) plain.2 word.2
    (show inWord (some first) = true from word.1)
  rw [List.cons_append] at absent
  refine ⟨after, ?_⟩
  rw [List.cons_append, replaceNames_of_none pi plain.1 absent, copied, List.cons_append]

/-- The text that a name is replaced by: that of the first candidate that folds to it. -/
def Candidate.Replaces (candidates : List Candidate) (pi name text : List Char) : Prop :=
  match candidates.find? fun candidate => foldCase candidate.name == foldCase name with
  | some candidate => candidate.value = text
  | none => name = ['π'] ∧ text = pi

/-- A name that does not begin a call is replaced. -/
theorem exists_replaceNames_reference (isWord : ∀ candidate ∈ candidates, candidate.IsWord)
    (word : ∀ character ∈ run, isWordCharacter character = true) (nonempty : run ≠ [])
    (starts : inWord before = false) (ends : inWord rest.head? = false)
    (noCall : rest.head? ≠ some '(') {text : List Char}
    (replaces : Candidate.Replaces candidates pi run text) :
    ∃ after, replaceNames candidates pi 0 before (run ++ rest) =
      text ++ replaceNames candidates pi 0 after rest := by
  have words := Candidate.areWords_of_isWord isWord
  have first := Candidate.first?_word words word nonempty starts ends
  rw [if_neg noCall] at first
  unfold Candidate.Replaces at replaces
  split at replaces
  case h_1 candidate found =>
    rw [found] at first
    have length := Candidate.length_of_first? words word nonempty starts ends first
    obtain ⟨head, tail, rfl⟩ := List.exists_cons_of_ne_nil nonempty
    obtain ⟨after, passed⟩ := exists_replaceNames_pass pi candidates (some head) tail rest
    refine ⟨after, ?_⟩
    rw [List.cons_append] at first ⊢
    rw [replaceNames, first]
    dsimp only
    rw [length, List.length_cons, Nat.add_sub_cancel, passed, replaces]
  case h_2 absent =>
    obtain ⟨rfl, rfl⟩ := replaces
    rw [absent] at first
    refine ⟨some 'π', ?_⟩
    rw [List.singleton_append] at first ⊢
    rw [replaceNames, first]
    rfl

end Replacing

/-! ## Replacing names in pieces -/

/-- A literal with a sign `-` that may stand before it. -/
structure SignedLiteral where
  /-- Whether the sign stands there. -/
  negative : Bool
  /-- The literal after the sign. -/
  literal : Literal

namespace SignedLiteral

/-- The lexical units of a signed literal. -/
def units (signed : SignedLiteral) : List (List Char) :=
  if signed.negative then [['-'], signed.literal.text] else [signed.literal.text]

/-- The characters of a signed literal. -/
def text (signed : SignedLiteral) : List Char :=
  if signed.negative then '-' :: signed.literal.text else signed.literal.text

theorem spaced_text (signed : SignedLiteral) : Spaced signed.units signed.text := by
  unfold units text
  split
  · exact .cons ['-'] (.single _)
  · exact .single _

end SignedLiteral

/-- The lexical units of a piece when leaves are resolved to signed literals. -/
def Piece.units (resolve : Atom → SignedLiteral) : Piece → List (List Char)
  | leaf atom => (resolve atom).units
  | calling function => [function.name.toList, ['(']]
  | mark character => [[character]]

theorem isPlain_of_isFunctionCharacter {character : Char}
    (member : isFunctionCharacter character = true) : IsPlain character := by
  refine ⟨?_, ?_, ?_⟩ <;>
  · rintro rfl
    revert member
    decide

theorem isPlain_of_mem_grammarMarks {character : Char} (mark : character ∈ grammarMarks) :
    IsPlain character := by
  refine ⟨?_, ?_, ?_⟩ <;>
  · rintro rfl
    revert mark
    decide

theorem isPlain_of_isSpacing {character : Char} (spacing : isSpacing character = true) :
    IsPlain character := by
  refine ⟨?_, ?_, ?_⟩ <;>
  · rintro rfl
    revert spacing
    decide

/-- Before a mark that opens nothing a word ends, and it does not begin a call. -/
theorem ends_of_isContinuing {pieces : List Piece} {text : List Char}
    (spaced : Spaced (pieces.map Piece.text) text) (known : ∀ piece ∈ pieces, piece.IsKnown)
    (continuing : ∀ piece ∈ pieces.head?, piece.isContinuing = true) :
    inWord text.head? = false ∧ text.head? ≠ some '(' := by
  generalize units : pieces.map Piece.text = row at spaced
  cases spaced with
  | nil => exact ⟨rfl, by simp⟩
  | @space character _ _ blank =>
      refine ⟨not_isWordCharacter_of_isSpacing blank, ?_⟩
      rintro same
      obtain rfl := Option.some.inj same
      revert blank
      decide
  | cons unit rest =>
      obtain ⟨piece, others, rfl, rfl, -⟩ := List.map_eq_cons_iff.mp units
      have facts := continuing piece (by simp)
      cases piece with
      | leaf | calling => simp [Piece.isContinuing] at facts
      | mark character =>
          have mark := known (.mark character) List.mem_cons_self
          refine ⟨not_isWordCharacter_of_mem_grammarMarks _ mark, ?_⟩
          simpa [Piece.text, Piece.isContinuing] using facts

section Pieces

variable {candidates : List Candidate} {pi : List Char} {resolve : Atom → SignedLiteral}

/-- Replacing names in one piece gives what it is resolved to, and leaves a word open only after a
leaf. -/
theorem exists_replaceNames_piece (isWord : ∀ candidate ∈ candidates, candidate.IsWord)
    (literals : ∀ numeral, resolve (.literal numeral) = ⟨false, numeral⟩) {piece : Piece}
    (before : Option Char) (text : List Char) (known : piece.IsKnown)
    (reference : ∀ name, piece = .leaf (.reference name) →
      Candidate.Replaces candidates pi name.name.toList (resolve (.reference name)).text)
    (starts : inWord before = true → piece.isContinuing = true)
    (ends : piece.isLeaf = true → inWord text.head? = false ∧ text.head? ≠ some '(') :
    ∃ after value, replaceNames candidates pi 0 before (piece.text ++ text) =
        value ++ replaceNames candidates pi 0 after text ∧
      Spaced (piece.units resolve) value ∧ (inWord after = true → piece.isLeaf = true) := by
  cases piece with
  | mark character =>
      have outside := not_isWordCharacter_of_mem_grammarMarks _ known
      refine ⟨some character, [character], ?_, .single _, fun inside => ?_⟩
      · exact replaceNames_outside pi (isPlain_of_mem_grammarMarks known) isWord (.inl outside)
      · exact absurd inside (by simp [inWord, outside])
  | calling function =>
      have free : inWord before = false := by simpa [Piece.isContinuing] using starts
      obtain ⟨after, copied⟩ := exists_replaceNames_calling pi text isWord known
        (fun character member =>
          isPlain_of_isFunctionCharacter (function.isFunctionCharacter_of_mem character member))
        function.name_ne_nil free
      have opening : replaceNames candidates pi 0 after ('(' :: text) =
          '(' :: replaceNames candidates pi 0 (some '(') text :=
        replaceNames_outside pi (isPlain_of_mem_grammarMarks (by decide)) isWord
          (.inl (by decide))
      refine ⟨some '(', function.name.toList ++ ['('], ?_, ?_, fun inside => ?_⟩
      · rw [Piece.text, List.append_assoc, List.singleton_append, copied, opening,
          List.append_assoc, List.singleton_append]
      · exact .cons _ (.single _)
      · exact absurd inside (by decide)
  | leaf atom =>
      have free : inWord before = false := by simpa [Piece.isContinuing] using starts
      obtain ⟨wordEnds, noCall⟩ := ends rfl
      cases atom with
      | literal numeral =>
          obtain ⟨after, copied⟩ :=
            exists_replaceNames_numeral pi before text isWord numeral.digits
          refine ⟨after, numeral.text, copied, ?_, fun _ => rfl⟩
          rw [Piece.units, literals]
          exact .single _
      | reference name =>
          obtain ⟨first, others, split, -⟩ := name.exists_cons
          obtain ⟨after, replaced⟩ := exists_replaceNames_reference pi isWord
            name.isWordCharacter_of_mem (by simp [split]) free wordEnds noCall
            (reference name rfl)
          exact ⟨after, _, replaced, SignedLiteral.spaced_text _, fun _ => rfl⟩

/-- Replacing names in a row of pieces gives the row of what they are resolved to, spaced as they
were. -/
theorem spaced_replaceNames (isWord : ∀ candidate ∈ candidates, candidate.IsWord)
    (literals : ∀ numeral, resolve (.literal numeral) = ⟨false, numeral⟩) {pieces : List Piece}
    {text : List Char} (spaced : Spaced (pieces.map Piece.text) text)
    (known : ∀ piece ∈ pieces, piece.IsKnown) (chain : pieces.IsChain Piece.Follows)
    (references : ∀ name, Piece.leaf (.reference name) ∈ pieces →
      Candidate.Replaces candidates pi name.name.toList (resolve (.reference name)).text)
    {before : Option Char}
    (apart : inWord before = true → ∀ piece ∈ pieces.head?, piece.isContinuing = true) :
    Spaced (pieces.flatMap (Piece.units resolve)) (replaceNames candidates pi 0 before text) := by
  generalize units : pieces.map Piece.text = row at spaced
  induction spaced generalizing pieces before with
  | nil =>
      obtain rfl := List.map_eq_nil_iff.mp units
      exact .nil
  | @space character _ _ blank _ ih =>
      have outside := not_isWordCharacter_of_isSpacing blank
      rw [replaceNames_outside pi (isPlain_of_isSpacing blank) isWord (.inl outside)]
      refine .space blank (ih known chain references (fun inside => ?_) units)
      exact absurd inside (by simp [inWord, outside])
  | @cons unit row text rest ih =>
      obtain ⟨piece, others, rfl, rfl, rfl⟩ := List.map_eq_cons_iff.mp units
      rw [List.forall_mem_cons] at known
      rw [List.isChain_cons] at chain
      have follows (leaf : piece.isLeaf = true) :
          ∀ next ∈ others.head?, next.isContinuing = true :=
        fun next found => chain.1 next found leaf
      obtain ⟨after, value, replaced, spaced, opened⟩ := exists_replaceNames_piece isWord literals
        before text known.1 (fun name same => references name (same ▸ List.mem_cons_self))
        (fun inside => apart inside piece (by simp))
        (fun leaf => ends_of_isContinuing rest known.2 (follows leaf))
      rw [List.flatMap_cons, replaced]
      refine spaced.append (ih known.2 chain.2 (fun name member => ?_) ?_ rfl)
      · exact references name (List.mem_cons_of_mem _ member)
      · exact fun inside => follows (opened inside)

end Pieces
end Reckoner
