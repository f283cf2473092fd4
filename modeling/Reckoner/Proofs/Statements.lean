import Reckoner.Proofs.Replacement
import Reckoner.Proofs.Signatures

/-!
# The texts of statements

How the statements of a block are written, and that they are read back: the parts of a block between
its semicolons are the statements (`splitAtEach_intercalate`), and each part is read as the
statement that it writes, with the text of its expression (`Clause.exists_statement`).  A name is
never taken for the keyword, unless a function is called `return`.
-/

namespace Reckoner

/-! ## Splitting and trimming -/

section Splitting

variable {separator : Char} {left right text : List Char}

theorem splitAtEach_cons_self (separator : Char) (text : List Char) :
    splitAtEach separator (separator :: text) = [] :: splitAtEach separator text := by
  simp [splitAtEach]

theorem splitAtEach_append (absent : separator ∉ left) :
    splitAtEach separator (left ++ separator :: right) = left :: splitAtEach separator right := by
  induction left with
  | nil => exact splitAtEach_cons_self separator right
  | cons character left ih =>
      rw [List.mem_cons, not_or] at absent
      rw [List.cons_append, splitAtEach, List.foldr_cons, ← splitAtEach, ih absent.2,
        if_neg (Ne.symm absent.1)]

theorem splitAtEach_of_not_mem (absent : separator ∉ text) :
    splitAtEach separator text = [text] := by
  induction text with
  | nil => rfl
  | cons character text ih =>
      rw [List.mem_cons, not_or] at absent
      rw [splitAtEach, List.foldr_cons, ← splitAtEach, ih absent.2, if_neg (Ne.symm absent.1)]

/-- Parts that are joined by a separator are found again. -/
theorem splitAtEach_intercalate {parts : List (List Char)} (nonempty : parts ≠ [])
    (absent : ∀ part ∈ parts, separator ∉ part) :
    splitAtEach separator ([separator].intercalate parts) = parts := by
  induction parts with
  | nil => contradiction
  | cons part others ih =>
      rw [List.forall_mem_cons] at absent
      cases others with
      | nil => simpa using splitAtEach_of_not_mem absent.1
      | cons next later =>
          have rest := ih (by simp) absent.2
          rw [List.intercalate_cons_cons, List.append_assoc, List.singleton_append,
            splitAtEach_append absent.1, rest]

/-- What trimming leaves of a text whose first visible run is solid. -/
theorem trim_append {gap core : List Char} (blank : ∀ character ∈ gap, isBlank character = true)
    (solid : IsSolid core) (rest : List Char) :
    trim (gap ++ core ++ rest) = core ++ rest.rdropWhile isBlank := by
  have starts : (core ++ rest).dropWhile isBlank = core ++ rest := by
    obtain ⟨first, others, rfl⟩ := List.exists_cons_of_ne_nil solid.nonempty
    have visible : ¬ isBlank first = true := by simpa using solid.head
    rw [List.cons_append, List.dropWhile_cons_of_neg visible]
  have ends : core.reverse.dropWhile isBlank = core.reverse := by
    obtain ⟨others, last, rfl⟩ := (List.eq_nil_or_concat' core).resolve_left solid.nonempty
    have visible : ¬ isBlank last = true := by simpa using solid.last
    rw [List.reverse_append, List.reverse_singleton, List.singleton_append,
      List.dropWhile_cons_of_neg visible]
  rw [trim, List.append_assoc, List.dropWhile_append_of_pos blank, starts, List.reverse_append,
    List.dropWhile_append, ends, List.rdropWhile]
  split
  case isTrue empty =>
    rw [List.isEmpty_iff.mp empty]
    simp
  case isFalse => simp

theorem rdropWhile_of_blank (blank : ∀ character ∈ text, isBlank character = true) :
    text.rdropWhile isBlank = [] := List.rdropWhile_eq_nil_iff.mpr blank

/-- Trimming finds the only unit of a text. -/
theorem Spaced.trim_eq {unit : List Char} (spaced : Spaced [unit] text) (solid : IsSolid unit) :
    Reckoner.trim text = unit := by
  obtain ⟨gap, rest, rfl, spacing, later⟩ := spaced.exists_of_cons
  rw [trim_append (fun character member => isBlank_of_isSpacing (spacing character member)) solid,
    rdropWhile_of_blank fun character member =>
      isBlank_of_isSpacing (later.isSpacing_of_mem character member), List.append_nil]

end Splitting
/-! ## Separators -/

/-- The characters that separate statements and the sides of a statement. -/
def separators : List Char := [';', '=']

theorem separators_facts : ∀ character ∈ separators,
    isWordCharacter character = false ∧ isFunctionCharacter character = false ∧
      isNumberCharacter character = false ∧ character ∉ grammarMarks ∧
      isSpacing character = false :=
  forall_mem_of_all (by decide)

/-! ## Signatures -/

namespace Signature

/-- What is known of a part of a signature that is no gap: it has no separator. -/
def Piece.IsKnown : Piece → Prop
  | word text => text ≠ [] ∧ ∀ character ∈ text, isMark character = false ∧
      isBlank character = false ∧ character ∉ separators
  | mark character => isMark character = true ∧ character ∉ separators
  | gap => False

theorem Piece.IsKnown.isLexical {piece : Piece} (known : piece.IsKnown) : piece.IsLexical := by
  cases piece with
  | gap => exact absurd known id
  | mark character => exact known.1
  | word run =>
      refine ⟨known.1, fun character member => ?_⟩
      obtain ⟨plain, visible, -⟩ := known.2 character member
      exact ⟨not_isSpacing_of_not_isBlank visible, plain⟩

theorem Piece.isSolid_text {piece : Piece} (known : piece.IsKnown) : IsSolid piece.text := by
  cases piece with
  | gap => exact absurd known id
  | mark character =>
      exact .of_visible (List.cons_ne_nil _ _) (by
        simpa [Piece.text] using not_isBlank_of_isMark known.1)
  | word run => exact .of_visible known.1 fun character member => (known.2 character member).2.1

theorem Piece.not_mem_separators {piece : Piece} (known : piece.IsKnown) :
    ∀ character ∈ piece.text, character ∉ separators := by
  intro character member
  cases piece with
  | gap => exact absurd known id
  | mark other => exact List.mem_singleton.mp member ▸ known.2
  | word run => exact (known.2 character member).2.2

/-- The parts of a list of parameters. -/
def parameterPieces : List Identifier → List Piece
  | [] => []
  | [last] => [.word last.name.toList]
  | first :: next :: later =>
    .word first.name.toList :: .mark ',' :: parameterPieces (next :: later)

/-- The parts of the left side of a definition. -/
def pieces (name : FunctionName) (parameters : List Identifier) : List Piece :=
  .word name.name.toList :: .mark '(' :: (parameterPieces parameters ++ [.mark ')'])

theorem pieces_eq_row (name : FunctionName) (parameters : List Identifier) :
    pieces name parameters = row name.name (parameters.map Identifier.name) := by
  have list : parameterPieces parameters = listPieces (parameters.map Identifier.name) := by
    induction parameters using parameterPieces.induct with
    | case1 => rfl
    | case2 last => rfl
    | case3 first next later ih =>
        rw [parameterPieces, ih]
        rfl
  rw [pieces, list, row]

end Signature

/-! ## Words of statements -/

/-- The marks of a signature belong to no word and to no name of a function. -/
theorem not_isMark {character : Char}
    (member : isWordCharacter character = true ∨ isFunctionCharacter character = true) :
    Signature.isMark character = false := by
  rw [Bool.eq_false_iff]
  intro mark
  simp only [Signature.isMark, Bool.or_eq_true, beq_iff_eq] at mark
  rcases mark with ((rfl | rfl) | rfl) | rfl <;> revert member <;> decide

theorem not_isBlank_of_isWordCharacter {character : Char}
    (word : isWordCharacter character = true) : isBlank character = false := by
  rw [Bool.eq_false_iff]
  intro blank
  simp [not_isWordCharacter_of_isBlank blank] at word

namespace Piece

variable {piece : Piece}

theorem text_ne_nil (piece : Piece) : piece.text ≠ [] := by
  cases piece with
  | leaf atom =>
      cases atom with
      | literal numeral => exact numeral.nonempty
      | reference name =>
          obtain ⟨first, rest, split, -⟩ := name.exists_cons
          simp [text, Atom.text, split]
  | calling function => simp [text]
  | mark character => simp [text]

/-- The characters of a piece are visible, and none separates statements. -/
theorem facts_of_mem_text (known : piece.IsKnown) :
    ∀ character ∈ piece.text, isBlank character = false ∧ character ∉ separators := by
  have separate {character : Char} (other : ¬ (isWordCharacter character = false ∧
      isFunctionCharacter character = false ∧ isNumberCharacter character = false ∧
      character ∉ grammarMarks)) : character ∉ separators := fun member =>
    have facts := separators_facts _ member
    other ⟨facts.1, facts.2.1, facts.2.2.1, facts.2.2.2.1⟩
  have marked {character : Char} (mark : character ∈ grammarMarks) :
      isBlank character = false ∧ character ∉ separators :=
    ⟨(grammarMarks_facts _ mark).2.1, separate (by simp [mark])⟩
  intro character member
  cases piece with
  | leaf atom =>
      cases atom with
      | literal numeral =>
          have digit := numeral.digits character member
          exact ⟨not_isBlank_of_isNumberCharacter digit, separate (by simp [digit])⟩
      | reference name =>
          have word := name.isWordCharacter_of_mem character member
          exact ⟨not_isBlank_of_isWordCharacter word, separate (by simp [word])⟩
  | calling function =>
      rcases List.mem_append.mp member with inName | opening
      · have letter := function.isFunctionCharacter_of_mem character inName
        exact ⟨not_isBlank_of_isFunctionCharacter letter, separate (by simp [letter])⟩
      · exact marked (by rw [List.mem_singleton.mp opening]; decide)
  | mark other => exact marked (List.mem_singleton.mp member ▸ known)

theorem isSolid_text (known : piece.IsKnown) : IsSolid piece.text :=
  .of_visible piece.text_ne_nil fun character member =>
    (facts_of_mem_text known character member).1

end Piece

namespace Phrase

variable {level : Level} {phrase : Phrase Atom level} {text : List Char}

theorem pieces_ne_nil (phrase : Phrase Atom level) : phrase.pieces ≠ [] := by
  induction phrase with
  | _ => simp_all [pieces]

theorem isSolid_of_mem_pieces (words : phrase.CallsWords) :
    ∀ unit ∈ phrase.pieces.map Piece.text, IsSolid unit := by
  intro unit member
  obtain ⟨piece, found, rfl⟩ := List.mem_map.mp member
  exact Piece.isSolid_text (phrase.isKnown_of_mem_pieces words piece found)

/-- No character separates statements inside the text of an expression. -/
theorem not_mem_separators (words : phrase.CallsWords)
    (spaced : Spaced (phrase.pieces.map Piece.text) text) :
    ∀ character ∈ text, character ∉ separators := by
  intro character member separator
  rcases spaced.mem_cases member with spacing | ⟨unit, found, inUnit⟩
  · simp [(separators_facts _ separator).2.2.2.2] at spacing
  · obtain ⟨piece, pieceFound, rfl⟩ := List.mem_map.mp found
    have known := phrase.isKnown_of_mem_pieces words piece pieceFound
    exact (Piece.facts_of_mem_text known character inUnit).2 separator

end Phrase
/-! ## Statements -/

namespace Statement

/-- A word other than the keyword is not taken for it. -/
theorem afterReturn?_eq_none {run rest : List Char}
    (word : ∀ character ∈ run, isWordCharacter character = true) (other : run ≠ returnKeyword)
    (ends : inWord rest.head? = false) : afterReturn? (run ++ rest) = none := by
  rw [afterReturn?]
  split
  case isFalse => rfl
  case isTrue begins =>
    obtain ⟨remaining, split⟩ := List.isPrefixOf_iff_prefix.mp begins
    have letters : ∀ character ∈ returnKeyword, isWordCharacter character = true :=
      forall_mem_of_all (by decide)
    rw [← split, List.drop_left]
    rcases List.append_eq_append_iff.mp split with ⟨middle, same, rfl⟩ | ⟨middle, same, rfl⟩
    · cases middle with
      | nil => exact absurd (by simpa using same) other
      | cons character tail =>
          have inRun := word character (by simp [same])
          simp [extendsKeyword_of_isWordCharacter inRun]
    · cases middle with
      | nil => exact absurd (by simpa using same.symm) other
      | cons character tail =>
          have inKeyword := letters character (by simp [same])
          simp [inWord, inKeyword] at ends

/-- A part that begins with the keyword is read as a `return` statement. -/
theorem ofText?_return {gap body : List Char}
    (spacing : ∀ character ∈ gap, isSpacing character = true)
    (apart : body.head?.all fun character => !extendsKeyword character) :
    ofText? (gap ++ (returnKeyword ++ body)) =
      .ok (some (answer (String.ofList (trim (body.rdropWhile isBlank))))) := by
  have solid : IsSolid returnKeyword := .of_visible (by decide) (forall_mem_of_all (by decide))
  have trimmed : trim (gap ++ (returnKeyword ++ body)) =
      returnKeyword ++ body.rdropWhile isBlank := by
    rw [← List.append_assoc]
    exact trim_append (fun character member => isBlank_of_isSpacing (spacing character member))
      solid _
  have head : ((body.rdropWhile isBlank).head?.any extendsKeyword) = false := by
    obtain ⟨dropped, same⟩ := List.rdropWhile_prefix isBlank body
    cases found : body.rdropWhile isBlank with
    | nil => rfl
    | cons first rest =>
        rw [← same, found] at apart
        simpa using apart
  have keyword : afterReturn? (returnKeyword ++ body.rdropWhile isBlank) =
      some (body.rdropWhile isBlank) := by
    rw [afterReturn?, if_pos (List.isPrefixOf_iff_prefix.mpr (List.prefix_append _ _)),
      List.drop_left]
    simp [head]
  rw [ofText?, trimmed, keyword]
  simp [returnKeyword]

/-- A part that begins with another word and has an equality sign is read by its two sides. -/
theorem ofText?_binding {gap run rest right : List Char}
    (spacing : ∀ character ∈ gap, isSpacing character = true)
    (word : ∀ character ∈ run, isWordCharacter character = true) (nonempty : run ≠ [])
    (other : run ≠ returnKeyword) (ends : inWord rest.head? = false) :
    ofText? (gap ++ run ++ rest ++ '=' :: right) = (do
      let statement ← binding (run ++ rest ++ '=' :: right.rdropWhile isBlank)
      return some statement) := by
  have solid : IsSolid (run ++ rest ++ ['=']) := by
    obtain ⟨first, others, rfl⟩ := List.exists_cons_of_ne_nil nonempty
    refine ⟨by simp, ?_, ?_⟩
    · simp [not_isBlank_of_isWordCharacter (word first List.mem_cons_self)]
    · rw [List.getLast?_concat]
      decide
  have trimmed : trim (gap ++ run ++ rest ++ '=' :: right) =
      run ++ (rest ++ '=' :: right.rdropWhile isBlank) := by
    have blank : ∀ character ∈ gap, isBlank character = true := fun character member =>
      isBlank_of_isSpacing (spacing character member)
    simpa using trim_append blank solid right
  have noKeyword : afterReturn? (run ++ (rest ++ '=' :: right.rdropWhile isBlank)) = none := by
    refine afterReturn?_eq_none word other ?_
    cases rest with
    | nil => rfl
    | cons first others => exact ends
  rw [ofText?, trimmed, noKeyword]
  simp [nonempty]

/-- The sides of an assignment. -/
theorem binding_assignment {left right : List Char} (noLeft : '=' ∉ left) (noRight : '=' ∉ right)
    (target : trim left ≠ []) (expression : trim right ≠ []) (noCall : '(' ∉ trim left) :
    binding (left ++ '=' :: right) =
      .ok (assignment (String.ofList (trim left)) (String.ofList (trim right))) := by
  rw [binding, splitAtEach_append noLeft, splitAtEach_of_not_mem noRight]
  simp [target, expression, noCall]

/-- The sides of a definition. -/
theorem binding_definition {left right : List Char} (noLeft : '=' ∉ left) (noRight : '=' ∉ right)
    (expression : trim right ≠ []) (opening : '(' ∈ trim left) (closing : ')' ∈ trim left) :
    binding (left ++ '=' :: right) = (do
      let function ← LocalFunction.ofTexts (trim left) (trim right)
      return definition function) := by
  have target : trim left ≠ [] := List.ne_nil_of_mem opening
  rw [binding, splitAtEach_append noLeft, splitAtEach_of_not_mem noRight]
  simp [target, expression, opening, closing]

end Statement
end Reckoner
