import Mathlib.Data.List.Forall2
import Reckoner.Proofs.Characters
import Reckoner.Proofs.Phrase
import Reckoner.Proofs.Scanning

/-!
# Lexemes and tokens

The lexemes of a phrase are units of scanning, and of two neighbours one is always a mark
(`Phrase.isChain_lexemes`).  So a spaced row of them, also one that ends early, is scanned as
tokens that spell them, one for one (`Token.spells_of_spaced`).
-/

namespace Reckoner

/-- The marks that phrases are written with. -/
def grammarMarks : List Char := ['(', ')', '+', '-', '*', '/', '^', ',']

theorem grammarMarks_facts : ∀ character ∈ grammarMarks,
    TokenKind.ofCharacter character = .mark ∧ isBlank character = false ∧
      isSpacing character = false :=
  forall_mem_of_all (by decide)

namespace Lexeme

variable {α : Type}

/-- Whether a lexeme is a single mark. -/
def isMark : Lexeme α → Bool
  | mark _ | opening | closing => true
  | atom _ | name _ => false

/-- Whether one of two neighbours is a mark. -/
def Apart (left right : Lexeme α) : Prop := left.isMark = true ∨ right.isMark = true

/-- Whether a lexeme, if it is a mark, is one of the grammar's. -/
def IsKnown : Lexeme α → Prop
  | mark character => character ∈ grammarMarks
  | atom _ | name _ | opening | closing => True

/-- The mark that a lexeme is written as. -/
def character? : Lexeme α → Option Char
  | mark character => some character
  | opening => some '('
  | closing => some ')'
  | atom _ | name _ => none

end Lexeme

namespace Literal

theorem isLexical (literal : Literal) : Token.IsLexical literal.text := by
  obtain ⟨text, nonempty, digits⟩ := literal
  cases text with
  | nil => exact absurd rfl nonempty
  | cons head tail =>
      rw [List.forall_mem_cons] at digits
      have kind := TokenKind.ofCharacter_of_isNumberCharacter digits.1
      refine .run head tail (by simp [kind]) fun character member => ?_
      rw [kind, TokenKind.ofCharacter_of_isNumberCharacter (digits.2 character member)]

end Literal

namespace FunctionName

theorem name_ne_nil (function : FunctionName) : function.name.toList ≠ [] := by
  have valid := function.valid
  rw [isFunctionName, Bool.and_eq_true] at valid
  simpa using valid.1

theorem isFunctionCharacter_of_mem (function : FunctionName) :
    ∀ character ∈ function.name.toList, isFunctionCharacter character = true := by
  have valid := function.valid
  rw [isFunctionName, Bool.and_eq_true, List.all_eq_true] at valid
  exact valid.2

theorem isLexical (function : FunctionName) : Token.IsLexical function.name.toList := by
  have nonempty := function.name_ne_nil
  have members := function.isFunctionCharacter_of_mem
  cases found : function.name.toList with
  | nil => exact absurd found nonempty
  | cons head tail =>
      rw [found, List.forall_mem_cons] at members
      have kind := TokenKind.ofCharacter_of_isFunctionCharacter members.1
      refine .run head tail (by simp [kind]) fun character member => ?_
      rw [kind, TokenKind.ofCharacter_of_isFunctionCharacter (members.2 character member)]

end FunctionName

namespace Lexeme

theorem isLexical {lexeme : Lexeme Literal} (known : lexeme.IsKnown) :
    Token.IsLexical (lexeme.text Literal.text) := by
  cases lexeme with
  | atom literal => exact literal.isLexical
  | name function => exact function.isLexical
  | mark character => exact .lone character (grammarMarks_facts _ known).2.2
  | opening => exact .lone '(' rfl
  | closing => exact .lone ')' rfl

/-- No blank is at the edges of a lexeme, nor anywhere in it. -/
theorem not_isBlank_of_mem {lexeme : Lexeme Literal} (known : lexeme.IsKnown) :
    ∀ character ∈ lexeme.text Literal.text, isBlank character = false := by
  cases lexeme with
  | atom literal =>
      exact fun character member =>
        not_isBlank_of_isNumberCharacter (literal.digits character member)
  | name function =>
      exact fun character member =>
        not_isBlank_of_isFunctionCharacter (function.isFunctionCharacter_of_mem character member)
  | mark character => simpa [text] using (grammarMarks_facts _ known).2.1
  | opening => simp [text]; decide
  | closing => simp [text]; decide

theorem text_ne_nil {lexeme : Lexeme Literal} : lexeme.text Literal.text ≠ [] := by
  cases lexeme with
  | atom literal => exact literal.nonempty
  | name function => exact function.name_ne_nil
  | mark | opening | closing => exact List.cons_ne_nil _ _

theorem kindOf_text {lexeme : Lexeme Literal} (known : lexeme.IsKnown)
    (mark : lexeme.isMark = true) : Token.kindOf (lexeme.text Literal.text) = .mark := by
  cases lexeme with
  | atom | name => exact absurd mark (by simp [isMark])
  | mark character => exact (grammarMarks_facts _ known).1
  | opening | closing => decide

end Lexeme

namespace Phrase

variable {α : Type} {level : Level}

/-- Phrases are written with the marks of the grammar. -/
theorem isKnown_of_mem (phrase : Phrase α level) :
    ∀ lexeme ∈ phrase.lexemes, lexeme.IsKnown := by
  have symbols (operator : Operator) : operator.symbol ∈ grammarMarks := by
    cases operator <;> decide
  induction phrase with
  | multiplied left operator fits right ihLeft ihRight =>
      simpa [lexemes, Lexeme.IsKnown, or_imp, forall_and, symbols] using ⟨ihLeft, ihRight⟩
  | added left operator fits right ihLeft ihRight =>
      simpa [lexemes, Lexeme.IsKnown, or_imp, forall_and, symbols] using ⟨ihLeft, ihRight⟩
  | _ => simp_all [lexemes, Lexeme.IsKnown, or_imp, grammarMarks]

/-- Of two neighbouring lexemes of a phrase, one is a mark. -/
theorem isChain_lexemes (phrase : Phrase α level) : phrase.lexemes.IsChain Lexeme.Apart := by
  induction phrase with
  | _ => simp_all [lexemes, List.isChain_append, List.isChain_cons, Lexeme.Apart, Lexeme.isMark]

/-- The first lexeme of a phrase is a leaf, a name, an opening parenthesis or a sign. -/
theorem lexemes_eq_cons (phrase : Phrase α level) :
    ∃ first others, phrase.lexemes = first :: others ∧
      first.character? ∈ [none, some '(', some '+', some '-'] ∧ first ≠ .closing := by
  induction phrase with
  | atom | group | call | apply | plus | minus => simp [lexemes, Lexeme.character?]
  | plain operand ih => exact ih
  | single factor ih => exact ih
  | alone product ih => exact ih
  | last argument ih => exact ih
  | power base exponent ih =>
      obtain ⟨first, others, split, facts⟩ := ih
      exact ⟨first, others ++ .mark '^' :: exponent.lexemes, by simp [lexemes, split], facts⟩
  | multiplied left operator fits right ih =>
      obtain ⟨first, others, split, facts⟩ := ih
      exact ⟨first, others ++ .mark operator.symbol :: right.lexemes,
        by simp [lexemes, split], facts⟩
  | added left operator fits right ih =>
      obtain ⟨first, others, split, facts⟩ := ih
      exact ⟨first, others ++ .mark operator.symbol :: right.lexemes,
        by simp [lexemes, split], facts⟩
  | cons argument others ih =>
      obtain ⟨first, rest, split, facts⟩ := ih
      exact ⟨first, rest ++ .mark ',' :: others.lexemes, by simp [lexemes, split], facts⟩

end Phrase

/-! ## Tokens that spell lexemes -/

namespace Token

/-- A token of a scan that is written like a lexeme. -/
structure Spells (token : Token) (lexeme : Lexeme Literal) : Prop where
  /-- The token came from a scan. -/
  wellFormed : token.WellFormed
  /-- The token has the text of the lexeme. -/
  text : token.text = lexeme.text Literal.text

namespace Spells

variable {token : Token} {lexeme : Lexeme Literal}

theorem head_of_character (spells : token.Spells lexeme) {character : Char}
    (mark : lexeme.character? = some character) : token.head = character := by
  have text := spells.text
  cases lexeme with
  | atom | name => simp [Lexeme.character?] at mark
  | mark | opening | closing =>
      simp only [Lexeme.character?, Option.some.injEq] at mark
      simp only [Token.text, Lexeme.text, List.cons.injEq] at text
      exact text.1.trans mark

theorem kind_of_atom {literal : Literal} (spells : token.Spells (.atom literal)) :
    token.kind = .number := by
  have member : token.head ∈ literal.text := by
    have text := spells.text
    simp only [Lexeme.text, Token.text] at text
    exact text ▸ List.mem_cons_self
  rw [spells.wellFormed.kind]
  exact TokenKind.ofCharacter_of_isNumberCharacter (literal.digits _ member)

theorem kind_of_name {function : FunctionName} (spells : token.Spells (.name function)) :
    token.kind = .name := by
  have member : token.head ∈ function.name.toList := by
    have text := spells.text
    simp only [Lexeme.text, Token.text] at text
    exact text ▸ List.mem_cons_self
  rw [spells.wellFormed.kind]
  exact TokenKind.ofCharacter_of_isFunctionCharacter
    (function.isFunctionCharacter_of_mem _ member)

/-- A leaf or a name does not begin with a mark of the grammar. -/
theorem head_ne_of_run (spells : token.Spells lexeme) (run : lexeme.character? = none)
    {character : Char} (mark : character ∈ grammarMarks) : token.head ≠ character := by
  rintro rfl
  have kind := spells.wellFormed.kind.trans (grammarMarks_facts _ mark).1
  cases lexeme with
  | atom => simp [spells.kind_of_atom] at kind
  | name => simp [spells.kind_of_name] at kind
  | mark | opening | closing => simp [Lexeme.character?] at run

end Spells

/-- However they are spaced, known lexemes with a mark between any two runs are scanned as tokens
that spell them. -/
theorem spells_of_spaced {lexemes : List (Lexeme Literal)} {input : List Char}
    (spaced : Spaced (lexemes.map (Lexeme.text Literal.text)) input)
    (known : ∀ lexeme ∈ lexemes, lexeme.IsKnown) (apart : lexemes.IsChain Lexeme.Apart) :
    List.Forall₂ Spells (scan input) lexemes := by
  have lexical : ∀ unit ∈ lexemes.map (Lexeme.text Literal.text), IsLexical unit := by
    intro unit member
    obtain ⟨lexeme, found, rfl⟩ := List.mem_map.mp member
    exact Lexeme.isLexical (known lexeme found)
  have chain : (lexemes.map (Lexeme.text Literal.text)).IsChain Apart := by
    rw [List.isChain_map]
    refine apart.imp_of_mem_imp ?_
    intro left right leftMember rightMember marks
    exact marks.imp (Lexeme.kindOf_text (known left leftMember))
      (Lexeme.kindOf_text (known right rightMember))
  have same : (scan input).map text = lexemes.map (Lexeme.text Literal.text) :=
    texts_of_spaced spaced lexical chain
  have pairs := List.forall₂_map_left_iff.mp (List.forall₂_map_right_iff.mp
    (List.forall₂_eq_eq_eq ▸ same))
  exact (List.forall₂_and_left (p := Token.WellFormed) (R := fun token lexeme =>
    token.text = Lexeme.text Literal.text lexeme) (scan input) lexemes).mpr
    ⟨fun token member => wellFormed_of_mem_scan member, pairs⟩ |>.imp
    fun token lexeme both => ⟨both.1, both.2⟩

end Token
end Reckoner
