import Reckoner.Proofs.Brackets
import Reckoner.Proofs.Margins

/-!
# Rows

The tokens of a text without their positions.  A row is cut at every character that belongs to
neither a number nor a name (`Token.row_append_break`), margins of spacing do not show in it, and
what is read of a text depends on nothing else (`Token.result_sum_row`).
-/

namespace Reckoner

open Reading

/-! ## Rows -/

namespace Token

/-- The same token at the beginning of a text. -/
def unplaced (token : Token) : Token := { token with position := 0 }

/-- The same token further on in a text. -/
def shift (distance : Nat) (token : Token) : Token :=
  { token with position := token.position + distance }

/-- The tokens of a text without their positions. -/
def row (input : List Char) : List Token := (scan input).map unplaced

theorem attach_shift (character : Char) (position distance : Nat) (tokens : List Token) :
    attach (character, position + distance) (tokens.map (shift distance)) =
      (attach (character, position) tokens).map (shift distance) := by
  cases tokens with
  | nil =>
      cases spacing : isSpacing character <;> simp [attach, spacing, shift]
  | cons next later =>
      have joined : joins (.ofCharacter character) (position + distance) (next.shift distance) =
          joins (.ofCharacter character) position next := by
        simp only [joins, shift]
        congr 1
        rw [Bool.eq_iff_iff]
        simp
        omega
      rw [List.map_cons]
      unfold attach
      dsimp only
      rw [joined]
      split
      · rfl
      · split <;> rfl

theorem scanFrom_shift (position distance : Nat) (input : List Char) :
    scanFrom (position + distance) input = (scanFrom position input).map (shift distance) := by
  induction input generalizing position with
  | nil => rfl
  | cons character rest ih =>
      rw [scanFrom_cons, scanFrom_cons, Nat.add_right_comm, ih, attach_shift]

/-- The row of a text does not depend on where the text stands. -/
theorem map_unplaced_scanFrom (position : Nat) (input : List Char) :
    (scanFrom position input).map unplaced = row input := by
  have moved := scanFrom_shift 0 position input
  rw [Nat.zero_add] at moved
  rw [moved, List.map_map]
  rfl

/-- A character does not join what follows behind other tokens, a mark, or something further on. -/
theorem attach_append {position : Nat} {later : List Token}
    (apart : ∀ next ∈ later.head?, next.kind = .mark ∨ position + 1 < next.position)
    (character : Char) (tokens : List Token) :
    attach (character, position) (tokens ++ later) =
      attach (character, position) tokens ++ later := by
  cases spacing : isSpacing character with
  | true => rw [attach_spacing spacing, attach_spacing spacing]
  | false =>
      cases tokens with
      | nil =>
          have alone : ∀ next ∈ ([] : List Token).head?,
              joins (.ofCharacter character) position next = false := by simp
          rw [List.nil_append, attach_apart spacing alone, attach_apart spacing]
          · rfl
          · intro next first
            rw [joins]
            rcases apart next first with mark | far
            · rw [mark]
              cases TokenKind.ofCharacter character <;> rfl
            · have distant : (next.position == position + 1) = false := by simp; omega
              rw [distant, Bool.and_false]
      | cons next others =>
          cases joined : joins (.ofCharacter character) position next with
          | true => rw [List.cons_append, attach_joins spacing joined, attach_joins spacing joined,
              List.cons_append]
          | false =>
              rw [attach_apart spacing (by simpa using joined),
                attach_apart spacing (by simpa using joined)]
              rfl

/-- The tokens of a text around a character that is no part of a number or a name. -/
theorem scanFrom_append_break {character : Char}
    (kind : TokenKind.ofCharacter character = .mark) (left right : List Char) (position : Nat) :
    scanFrom position (left ++ character :: right) =
      scanFrom position left ++ (scanFrom (position + left.length) [character] ++
        scanFrom (position + left.length + 1) right) := by
  induction left generalizing position with
  | nil =>
      rw [List.nil_append, scanFrom_cons, scanFrom_cons, scanFrom_nil, scanFrom_nil,
        List.nil_append, List.length_nil, Nat.add_zero]
      cases spacing : isSpacing character with
      | true => rw [attach_spacing spacing, attach_spacing spacing, List.nil_append]
      | false =>
          rw [attach_apart spacing (by simp [joins, kind]), attach_apart spacing (by simp)]
          rfl
  | cons first rest ih =>
      rw [List.cons_append, scanFrom_cons, ih, scanFrom_cons, List.length_cons,
        Nat.add_right_comm position 1, Nat.add_assoc position rest.length 1]
      refine attach_append (fun next found => ?_) first _
      cases spacing : isSpacing character with
      | true =>
          rw [attach_spacing spacing, scanFrom_nil, List.nil_append] at found
          have beyond := position_le_of_mem right _ next (List.mem_of_mem_head? found)
          exact .inr (by omega)
      | false =>
          rw [attach_apart spacing (by simp), kind] at found
          obtain rfl : _ = next := by simpa using found
          exact .inl rfl

theorem row_append_break {character : Char} (kind : TokenKind.ofCharacter character = .mark)
    (left right : List Char) :
    row (left ++ character :: right) = row left ++ (row [character] ++ row right) := by
  rw [← map_unplaced_scanFrom 0, scanFrom_append_break kind, List.map_append, List.map_append,
    map_unplaced_scanFrom, map_unplaced_scanFrom, map_unplaced_scanFrom]

theorem row_of_isSpacing {character : Char} (spacing : isSpacing character = true) :
    row [character] = [] := by
  rw [← map_unplaced_scanFrom 0, scanFrom_cons, attach_spacing spacing]
  rfl

theorem row_mark {mark : Char} (known : mark ∈ grammarMarks) (left right : List Char) :
    row (left ++ mark :: right) = row left ++ ofMark mark :: row right := by
  obtain ⟨kind, -, visible⟩ := grammarMarks_facts mark known
  have alone : row [mark] = [ofMark mark] := by
    rw [← map_unplaced_scanFrom 0, scanFrom_cons, attach_apart visible (by simp), kind]
    rfl
  rw [row_append_break kind, alone, List.singleton_append]

/-- The row of a text with a closing parenthesis behind it. -/
theorem row_append_closing (input : List Char) :
    row (input ++ [')']) = row input ++ ([ofMark ')'] ++ []) :=
  row_mark (by decide) input []

theorem row_spacing_append {gap : List Char}
    (spacing : ∀ character ∈ gap, isSpacing character = true) (input : List Char) :
    row (gap ++ input) = row input := by
  induction gap with
  | nil => rfl
  | cons first rest ih =>
      rw [List.forall_mem_cons] at spacing
      have split := row_append_break (ofCharacter_of_isSpacing spacing.1) [] (rest ++ input)
      rw [List.nil_append, row_of_isSpacing spacing.1, ih spacing.2] at split
      exact split

theorem row_append_spacing {gap : List Char}
    (spacing : ∀ character ∈ gap, isSpacing character = true) (input : List Char) :
    row (input ++ gap) = row input := by
  cases gap with
  | nil => rw [List.append_nil]
  | cons first rest =>
      rw [List.forall_mem_cons] at spacing
      have none : row rest = [] := by
        rw [← List.append_nil rest, row_spacing_append spacing.2]
        rfl
      rw [row_append_break (ofCharacter_of_isSpacing spacing.1), row_of_isSpacing spacing.1, none]
      simp

/-- Margins of spacing do not show in a row. -/
theorem row_trim {input : List Char}
    (spacing : ∀ character ∈ input, isBlank character = true → isSpacing character = true) :
    row (trim input) = row input := by
  obtain ⟨front, back, whole, frontBlank, backBlank⟩ := exists_margins input
  have frontSpacing : ∀ character ∈ front, isSpacing character = true := fun character member =>
    spacing character (whole ▸ by simp [member]) (frontBlank character member)
  have backSpacing : ∀ character ∈ back, isSpacing character = true := fun character member =>
    spacing character (whole ▸ by simp [member]) (backBlank character member)
  conv_rhs => rw [whole]
  rw [row_append_spacing backSpacing, row_spacing_append frontSpacing]

theorem WellFormed.unplaced {token : Token} (wellFormed : token.WellFormed) :
    token.unplaced.WellFormed := ⟨wellFormed.kind, wellFormed.lexical⟩

theorem wellFormed_row (input : List Char) : AllWellFormed (row input) := by
  intro token member
  obtain ⟨original, found, rfl⟩ := List.mem_map.mp member
  exact (wellFormed_of_mem_scan found).unplaced

/-- The row of a literal is a single number. -/
theorem row_literal (literal : Literal) :
    ∃ number : Token, number.text = literal.text ∧ number.WellFormed ∧ number.kind = .number ∧
      row literal.text = [number] := by
  have apart : ∀ next ∈ (scanFrom (0 + literal.text.length) []).head?,
      kindOf literal.text = .mark ∨ next.kind = .mark := by simp
  obtain ⟨number, text, split⟩ := scanFrom_unit literal.isLexical 0 apart
  rw [List.append_nil, scanFrom_nil] at split
  have wellFormed := wellFormed_scanFrom literal.text 0 number (split ▸ List.mem_singleton_self _)
  refine ⟨number.unplaced, text, wellFormed.unplaced, ?_, ?_⟩
  · have digit := literal.digits number.head (text ▸ List.mem_cons_self)
    exact wellFormed.kind.trans (TokenKind.ofCharacter_of_isNumberCharacter digit)
  · rw [← map_unplaced_scanFrom 0, split]
    rfl

/-- Tokens and their row correspond. -/
theorem rows_unplaced {tokens : List Token} (wellFormed : AllWellFormed tokens) :
    Rows Eq tokens (tokens.map unplaced) := by
  rw [Rows, List.forall₂_map_right_iff, List.forall₂_same]
  intro token member
  by_cases kind : token.kind = .number
  · exact .number (wellFormed token member) (wellFormed token member).unplaced kind kind rfl
  · exact .other rfl kind rfl

theorem Corresponds.symm {left right : Token} (corresponds : Corresponds Eq left right) :
    Corresponds Eq right left := by
  cases corresponds with
  | number leftFormed rightFormed leftKind rightKind texts =>
      exact .number rightFormed leftFormed rightKind leftKind texts.symm
  | other kinds noNumber texts => exact .other kinds.symm (kinds ▸ noNumber) texts.symm

/-- Reading a row and reading the tokens of its text come to the same. -/
theorem result_sum_row {input : List Char} {tree : Tree} (readable : tree.IsReadable) :
    (Grammar.sum (row input)).result = (tree, []) ↔
      (Grammar.sum (scan input)).result = (tree, []) := by
  have rows := rows_unplaced fun token (member : token ∈ scan input) =>
    wellFormed_of_mem_scan member
  have back : Rows Eq (row input) (scan input) := rows.flip.imp fun _ _ => Corresponds.symm
  constructor
  · intro read
    obtain ⟨trees, rest⟩ := correspond_sum _ _ back
    rw [read] at trees rest
    exact Prod.ext (trees.eq_of_isReadable readable) (List.forall₂_nil_left_iff.mp rest)
  · intro read
    obtain ⟨trees, rest⟩ := correspond_sum _ _ rows
    rw [read] at trees rest
    exact Prod.ext (trees.eq_of_isReadable readable) (List.forall₂_nil_left_iff.mp rest)

/-! ## Parentheses of a text -/

/-- Whether the arguments of every call begin with a parenthesis. -/
def CallsAreOpened : List Token → Prop
  | [] => True
  | token :: rest =>
    (token.kind = .name → rest.head?.map head = some '(') ∧ CallsAreOpened rest

instance decidableCallsAreOpened : DecidablePred CallsAreOpened
  | [] => inferInstanceAs (Decidable True)
  | _ :: rest =>
    have := decidableCallsAreOpened rest
    inferInstanceAs (Decidable (_ ∧ _))

/-- A mark of the grammar is counted once in its token and not at all in another one. -/
theorem WellFormed.count_text {token : Token} (wellFormed : token.WellFormed) {mark : Char}
    (known : mark ∈ grammarMarks) : token.text.count mark = if token.head = mark then 1 else 0 := by
  split
  case isTrue same =>
    rw [wellFormed.text_of_mark same known]
    simp
  case isFalse other =>
    refine List.count_eq_zero.mpr fun member => other ?_
    have kind := (grammarMarks_facts mark known).1
    obtain ⟨headKind, lexical⟩ := wellFormed
    obtain ⟨tokenKind, head, tail, position⟩ := token
    cases lexical with
    | lone => exact (List.mem_singleton.mp member).symm
    | run _ _ run uniform =>
        rcases List.mem_cons.mp member with same | later
        · exact same.symm
        · exact absurd ((uniform mark later).symm.trans kind) run

/-- A text has as many of a mark of the grammar as its row has tokens of it. -/
theorem count_eq_countP_row {mark : Char} (known : mark ∈ grammarMarks) (input : List Char) :
    input.count mark = (row input).countP fun token => token.head = mark := by
  have visible : isSpacing mark = false := (grammarMarks_facts mark known).2.2
  have counted (tokens : List Token) (wellFormed : AllWellFormed tokens) :
      (characters tokens).count mark = tokens.countP fun token => token.head = mark := by
    induction tokens with
    | nil => rfl
    | cons token rest ih =>
        have first := (wellFormed token List.mem_cons_self).count_text known
        rw [characters, List.flatMap_cons, List.count_append, first, List.countP_cons,
          ← ih wellFormed.of_cons, Nat.add_comm]
        simp [characters]
  have scanned := counted (scan input) fun _ member => wellFormed_of_mem_scan member
  rw [characters_scan, List.count_filter (by simp [visible])] at scanned
  rw [scanned, row, List.countP_map]
  rfl

theorem closings_row (input : List Char) : closings (row input) = input.count ')' := by
  rw [count_eq_countP_row (by decide)]
  refine List.countP_congr fun token member => ?_
  have wellFormed := wellFormed_row input token member
  constructor
  · intro closing
    simp_all
  · intro closing
    have mark : token.kind = .mark := by
      rw [wellFormed.kind, of_decide_eq_true closing]
      decide
    simp_all

theorem openings_of_callsAreOpened {tokens : List Token} (opened : CallsAreOpened tokens) :
    openings tokens = tokens.countP fun token => token.head = '(' := by
  induction tokens with
  | nil => rfl
  | cons token rest ih =>
      rw [openings_cons, ih opened.2, List.countP_cons, Nat.add_comm]
      congr 1
      by_cases opening : token.head = '('
      · simp [opens, opening]
      · by_cases name : token.kind = .name
        · simp [opens, nameOpens, opening, name, opened.1 name]
        · simp [opens, opening, name]

end Token

end Reckoner
