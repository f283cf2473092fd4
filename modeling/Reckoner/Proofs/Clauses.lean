import Reckoner.Proofs.Statements

/-!
# The texts of blocks

A block is written as a row of statements with semicolons between them, in which parts without a
statement do not count.  Each part is read back as the statement that it writes
(`Clause.Writes.exists_statement`), with its expression as a text of the same pieces.
-/

namespace Reckoner

/-! ## Writing -/

/-- Whether a text writes a statement.  After `return` the expression has to begin with a character
that does not go on with the keyword. -/
inductive Clause.Writes : Clause → List Char → Prop
  | answer {expression : Phrase Atom .sum} {gap body : List Char}
      (spacing : ∀ character ∈ gap, isSpacing character = true)
      (apart : body.head?.all fun character => !extendsKeyword character)
      (written : Spaced (expression.pieces.map Piece.text) body) :
      Writes (.answer expression) (gap ++ (Statement.returnKeyword ++ body))
  | assign {name : Identifier} {expression : Phrase Atom .sum} {left right : List Char}
      (target : Spaced [name.name.toList] left)
      (written : Spaced (expression.pieces.map Piece.text) right) :
      Writes (.assign name expression) (left ++ '=' :: right)
  | define {name : FunctionName} {definition : Definition} {left right : List Char}
      (target :
        Spaced ((Signature.pieces name definition.parameters).map Signature.Piece.text) left)
      (written : Spaced (definition.body.pieces.map Piece.text) right) :
      Writes (.define name definition) (left ++ '=' :: right)

/-- Whether the parts of a text write the statements of a block, some parts being blank. -/
inductive Clause.WriteAll : List Clause → List (List Char) → Prop
  | nil : WriteAll [] []
  | blank {clauses : List Clause} {text : List Char} {texts : List (List Char)}
      (spacing : ∀ character ∈ text, isSpacing character = true) (rest : WriteAll clauses texts) :
      WriteAll clauses (text :: texts)
  | cons {clause : Clause} {clauses : List Clause} {text : List Char} {texts : List (List Char)}
      (first : clause.Writes text) (rest : WriteAll clauses texts) :
      WriteAll (clause :: clauses) (text :: texts)

/-- Whether a text writes a block: its parts, of which a semicolon ends at least one, write the
statements. -/
def Clause.WriteBlock (clauses : List Clause) (text : List Char) : Prop :=
  ∃ texts, 2 ≤ texts.length ∧ text = [';'].intercalate texts ∧ WriteAll clauses texts

namespace Clause

/-- Whether all functions that a statement calls or defines are named by words. -/
def UsesWords : Clause → Prop
  | answer expression => expression.CallsWords
  | assign _ expression => expression.CallsWords
  | define name definition => name.IsWord ∧ definition.body.CallsWords

/-- Whether a statement defines no function under the name of the keyword. -/
def AvoidsKeyword : Clause → Prop
  | answer _ | assign _ _ => True
  | define name _ => name.name.toList ≠ Statement.returnKeyword

end Clause

/-! ## Reading -/

/-- Whether a local function is a definition kept as text. -/
structure Definition.IsKept (name : String) (definition : Definition) (function : LocalFunction) :
    Prop where
  /-- The name that it was defined under. -/
  name : function.name = name
  /-- The names of its parameters. -/
  parameters : function.parameters = definition.parameters.map Identifier.name
  /-- Its expression. -/
  body : Spaced (definition.body.pieces.map Piece.text) function.body.toList

namespace Clause

/-- Whether a statement was read as it is meant. -/
def IsRead : Clause → Statement → Prop
  | answer expression, .answer text => Spaced (expression.pieces.map Piece.text) text.toList
  | assign name expression, .assignment target text =>
    target = name.name ∧ Spaced (expression.pieces.map Piece.text) text.toList
  | define name definition, .definition function => definition.IsKept name.name function
  | _, _ => False

end Clause

namespace Phrase

variable {expression : Phrase Atom .sum} {text : List Char}

/-- The text of an expression without its margins. -/
theorem spaced_trim (words : expression.CallsWords)
    (spaced : Spaced (expression.pieces.map Piece.text) text) :
    Spaced (expression.pieces.map Piece.text) (trim (text.rdropWhile isBlank)) :=
  (spaced.rdropWhile_isBlank (isSolid_of_mem_pieces words)).trim (isSolid_of_mem_pieces words)

theorem trim_ne_nil (words : expression.CallsWords)
    (spaced : Spaced (expression.pieces.map Piece.text) text) :
    trim (text.rdropWhile isBlank) ≠ [] :=
  (spaced_trim words spaced).ne_nil (by simpa using expression.pieces_ne_nil)
    fun unit member => (isSolid_of_mem_pieces words unit member).nonempty

/-- The text of an expression has no equality sign, also without its last blanks. -/
theorem not_mem_rdropWhile (words : expression.CallsWords)
    (spaced : Spaced (expression.pieces.map Piece.text) text) :
    '=' ∉ text.rdropWhile isBlank := fun member =>
  not_mem_separators words spaced '=' ((List.rdropWhile_prefix isBlank text).subset member)
    (by decide)

end Phrase

namespace Signature

/-- What is known of the parts of a signature. -/
theorem isKnown_of_mem_pieces (name : FunctionName) (parameters : List Identifier) :
    ∀ piece ∈ pieces name parameters, piece.IsKnown := by
  have parameter (identifier : Identifier) : (Piece.word identifier.name.toList).IsKnown := by
    obtain ⟨first, rest, split, -⟩ := identifier.exists_cons
    refine ⟨by simp [split], fun character member => ?_⟩
    have word := identifier.isWordCharacter_of_mem character member
    refine ⟨not_isMark (.inl word), not_isBlank_of_isWordCharacter word, fun separator => ?_⟩
    simp [(separators_facts _ separator).1] at word
  have function : (Piece.word name.name.toList).IsKnown := by
    refine ⟨name.name_ne_nil, fun character member => ?_⟩
    have letter := name.isFunctionCharacter_of_mem character member
    refine ⟨not_isMark (.inr letter), not_isBlank_of_isFunctionCharacter letter,
      fun separator => ?_⟩
    simp [(separators_facts _ separator).2.1] at letter
  have list : ∀ piece ∈ parameterPieces parameters, piece.IsKnown := by
    induction parameters using parameterPieces.induct with
    | case1 => simp [parameterPieces]
    | case2 last => simpa [parameterPieces] using parameter last
    | case3 first next later ih =>
        rw [parameterPieces, List.forall_mem_cons, List.forall_mem_cons]
        exact ⟨parameter first, ⟨rfl, by decide⟩, ih⟩
  rw [pieces, List.forall_mem_cons, List.forall_mem_cons, List.forall_mem_append,
    List.forall_mem_singleton]
  exact ⟨function, ⟨rfl, by decide⟩, list, ⟨rfl, by decide⟩⟩

section Target

variable {name : FunctionName} {parameters : List Identifier} {text : List Char}

theorem isSolid_of_mem (name : FunctionName) (parameters : List Identifier) :
    ∀ unit ∈ (pieces name parameters).map Piece.text, IsSolid unit := by
  intro unit member
  obtain ⟨piece, found, rfl⟩ := List.mem_map.mp member
  exact Piece.isSolid_text (isKnown_of_mem_pieces name parameters piece found)

/-- A signature has no separator. -/
theorem not_mem_separators (spaced : Spaced ((pieces name parameters).map Piece.text) text) :
    ∀ character ∈ text, character ∉ separators := by
  intro character member separator
  rcases spaced.mem_cases member with spacing | ⟨unit, found, inUnit⟩
  · simp [(separators_facts _ separator).2.2.2.2] at spacing
  · obtain ⟨piece, pieceFound, rfl⟩ := List.mem_map.mp found
    have known := isKnown_of_mem_pieces name parameters piece pieceFound
    exact Piece.not_mem_separators known character inUnit separator

/-- A signature has both parentheses. -/
theorem mem_of_spaced (spaced : Spaced ((pieces name parameters).map Piece.text) text) :
    '(' ∈ text ∧ ')' ∈ text :=
  have units : ['('] ∈ (pieces name parameters).map Piece.text ∧
      [')'] ∈ (pieces name parameters).map Piece.text := by simp [pieces, Piece.text]
  ⟨spaced.mem_of_mem_unit units.1 (by simp), spaced.mem_of_mem_unit units.2 (by simp)⟩

/-- The function that is kept for a definition. -/
theorem ofTexts_of_spaced (spaced : Spaced ((pieces name parameters).map Piece.text) text)
    (body : List Char) :
    LocalFunction.ofTexts text body =
      .ok ⟨name.name, parameters.map Identifier.name, String.ofList (trim body)⟩ := by
  have words : ∀ word ∈ name.name :: parameters.map Identifier.name, IsWord word.toList := by
    intro word member
    have inRow := mem_row_of_mem member
    rw [← pieces_eq_row] at inRow
    exact (isKnown_of_mem_pieces name parameters _ inRow).isLexical
  rw [pieces_eq_row, map_text_row] at spaced
  exact LocalFunction.ofTexts_eq_ok_iff.mpr ⟨⟨words, spaced⟩, name.valid, rfl⟩

/-- After the name of a function in a signature its word ends. -/
theorem inWord_head?_of_spaced
    (spaced : Spaced
      ((Piece.mark '(' :: (parameterPieces parameters ++ [.mark ')'])).map Piece.text) text) :
    inWord text.head? = false := by
  obtain ⟨gap, rest, rfl, spacing, -⟩ := spaced.exists_of_cons
  cases gap with
  | nil => rfl
  | cons character gap =>
      exact not_isWordCharacter_of_isSpacing (spacing character List.mem_cons_self)

end Target

end Signature

section Statements

variable {left right : List Char}

/-- A `return` statement is read back. -/
theorem Clause.exists_answer {expression : Phrase Atom .sum} {gap body : List Char}
    (spacing : ∀ character ∈ gap, isSpacing character = true)
    (apart : body.head?.all fun character => !extendsKeyword character)
    (words : expression.CallsWords) (written : Spaced (expression.pieces.map Piece.text) body) :
    ∃ statement, Statement.ofText? (gap ++ (Statement.returnKeyword ++ body)) =
      .ok (some statement) ∧ (Clause.answer expression).IsRead statement := by
  refine ⟨_, Statement.ofText?_return spacing apart, ?_⟩
  rw [Clause.IsRead, String.toList_ofList]
  exact Phrase.spaced_trim words written

/-- An assignment is read back. -/
theorem Clause.exists_assignment {name : Identifier} {expression : Phrase Atom .sum}
    (target : Spaced [name.name.toList] left) (words : expression.CallsWords)
    (written : Spaced (expression.pieces.map Piece.text) right) :
    ∃ statement, Statement.ofText? (left ++ '=' :: right) = .ok (some statement) ∧
      (Clause.assign name expression).IsRead statement := by
  obtain ⟨gap, rest, rfl, spacing, ending⟩ := target.exists_of_cons
  have word := name.isWordCharacter_of_mem
  have solid : IsSolid name.name.toList := by
    obtain ⟨first, others, split, -⟩ := name.exists_cons
    exact .of_visible (by simp [split]) fun character member =>
      not_isBlank_of_isWordCharacter (word character member)
  have ends : inWord rest.head? = false := by
    cases rest with
    | nil => rfl
    | cons character rest =>
        exact not_isWordCharacter_of_isSpacing
          (ending.isSpacing_of_mem character List.mem_cons_self)
  have trimmed : trim (name.name.toList ++ rest) = name.name.toList :=
    Spaced.trim_eq (.cons _ ending) solid
  have noLeft : '=' ∉ name.name.toList ++ rest := by
    intro member
    rcases List.mem_append.mp member with inName | inRest
    · exact nomatch word '=' inName
    · exact nomatch ending.isSpacing_of_mem '=' inRest
  refine ⟨.assignment name.name (String.ofList (trim (right.rdropWhile isBlank))), ?_, ?_⟩
  · rw [Statement.ofText?_binding spacing word solid.nonempty name.ne_returnKeyword ends,
      Statement.binding_assignment noLeft (Phrase.not_mem_rdropWhile words written)
        (by rw [trimmed]; exact solid.nonempty) (Phrase.trim_ne_nil words written)
        (by rw [trimmed]; exact fun member => nomatch word '(' member),
      trimmed, String.ofList_toList]
    rfl
  · rw [Clause.IsRead, String.toList_ofList]
    exact ⟨rfl, Phrase.spaced_trim words written⟩

/-- The definition of a function that is not named like the keyword is read back. -/
theorem Clause.exists_definition {name : FunctionName} {definition : Definition}
    (target : Spaced ((Signature.pieces name definition.parameters).map Signature.Piece.text) left)
    (word : name.IsWord) (avoids : name.name.toList ≠ Statement.returnKeyword)
    (words : definition.body.CallsWords)
    (written : Spaced (definition.body.pieces.map Piece.text) right) :
    ∃ statement, Statement.ofText? (left ++ '=' :: right) = .ok (some statement) ∧
      (Clause.define name definition).IsRead statement := by
  obtain ⟨gap, rest, rfl, spacing, later⟩ := target.exists_of_cons
  have signature : Spaced
      ((Signature.pieces name definition.parameters).map Signature.Piece.text)
      (name.name.toList ++ rest) := .cons _ later
  have trimmed := signature.trim (Signature.isSolid_of_mem name definition.parameters)
  have noLeft : '=' ∉ name.name.toList ++ rest := fun member =>
    Signature.not_mem_separators signature '=' member (by decide)
  have marks := Signature.mem_of_spaced trimmed
  refine ⟨.definition ⟨name.name, definition.parameters.map Identifier.name,
    String.ofList (trim (trim (right.rdropWhile isBlank)))⟩, ?_, ?_⟩
  · rw [Signature.Piece.text, Statement.ofText?_binding spacing word name.name_ne_nil avoids
        (Signature.inWord_head?_of_spaced later),
      Statement.binding_definition noLeft (Phrase.not_mem_rdropWhile words written)
        (Phrase.trim_ne_nil words written) marks.1 marks.2,
      Signature.ofTexts_of_spaced trimmed]
    rfl
  · refine ⟨rfl, rfl, ?_⟩
    rw [String.toList_ofList]
    exact (Phrase.spaced_trim words written).trim (Phrase.isSolid_of_mem_pieces words)

/-- A statement is read back from every text that writes it. -/
theorem Clause.Writes.exists_statement {clause : Clause} {text : List Char}
    (writes : clause.Writes text) (words : clause.UsesWords) (avoids : clause.AvoidsKeyword) :
    ∃ statement, Statement.ofText? text = .ok (some statement) ∧ clause.IsRead statement := by
  cases writes with
  | answer spacing apart written => exact Clause.exists_answer spacing apart words written
  | assign target written => exact Clause.exists_assignment target words written
  | define target written => exact Clause.exists_definition target words.1 avoids words.2 written

end Statements
end Reckoner
