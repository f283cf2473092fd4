import Mathlib.Data.List.Chain
import Reckoner.Proofs.Spacing

/-!
# Scanning

What the tokens of a text are: the text is a spaced row of their texts (`Token.spaced_texts`), each
of which is a mark or a run of one kind, and a row of such units with a mark between any two runs
is scanned as that row, whatever the spacing (`Token.texts_of_spaced`).
-/

namespace Reckoner
namespace Token

/-- The texts of the tokens of a text. -/
def texts (input : List Char) : List (List Char) := (scan input).map text

/-- The kind of token that a text begins with. -/
def kindOf : List Char → TokenKind
  | [] => .mark
  | head :: _ => .ofCharacter head

/-- A text that is a unit of scanning: a visible character or a run of one kind. -/
inductive IsLexical : List Char → Prop
  /-- A single character. -/
  | lone (character : Char) (visible : isSpacing character = false) : IsLexical [character]
  /-- A run of characters that belong to numbers or to names. -/
  | run (head : Char) (tail : List Char) (kind : TokenKind.ofCharacter head ≠ .mark)
      (uniform : ∀ character ∈ tail, TokenKind.ofCharacter character = .ofCharacter head) :
      IsLexical (head :: tail)

/-- All characters of a unit are of one kind. -/
theorem IsLexical.uniform {unit : List Char} (lexical : IsLexical unit) :
    ∀ character ∈ unit, TokenKind.ofCharacter character = kindOf unit := by
  cases lexical with
  | lone character => simp [kindOf]
  | run head tail _ uniform =>
      rw [List.forall_mem_cons]
      exact ⟨rfl, uniform⟩

/-- Two texts that a scan keeps apart even without spacing between them. -/
def Apart (left right : List Char) : Prop := kindOf left = .mark ∨ kindOf right = .mark

/-- The tokens of a text that begins at the given position. -/
def scanFrom (position : Nat) (input : List Char) : List Token :=
  (input.zipIdx position).foldr attach []

@[simp]
theorem scanFrom_nil (position : Nat) : scanFrom position [] = [] := rfl

theorem scanFrom_cons (position : Nat) (character : Char) (input : List Char) :
    scanFrom position (character :: input) =
      attach (character, position) (scanFrom (position + 1) input) := rfl

theorem ofCharacter_of_isSpacing {character : Char} (spacing : isSpacing character = true) :
    TokenKind.ofCharacter character = .mark := by
  simp only [isSpacing, Bool.or_eq_true, beq_iff_eq] at spacing
  rcases spacing with ((rfl | rfl) | rfl) | rfl <;> decide

theorem not_isSpacing_of_kind {character : Char}
    (kind : TokenKind.ofCharacter character ≠ .mark) : isSpacing character = false := by
  by_contra spacing
  exact kind (ofCharacter_of_isSpacing (by simpa using spacing))

/-- A unit has no spacing in it. -/
theorem IsLexical.visible {unit : List Char} (lexical : IsLexical unit) :
    ∀ character ∈ unit, isSpacing character = false := by
  cases lexical with
  | lone character visible => simpa using visible
  | run head tail kind uniform =>
      rw [List.forall_mem_cons]
      refine ⟨not_isSpacing_of_kind kind, fun character member => not_isSpacing_of_kind ?_⟩
      rwa [uniform character member]

/-- A space leaves the tokens after it as they are. -/
theorem attach_spacing {character : Char} (spacing : isSpacing character = true) (position : Nat)
    (tokens : List Token) : attach (character, position) tokens = tokens := by
  simp [attach, spacing]

/-- A visible character begins a token of its own unless it joins the next one. -/
theorem attach_apart {character : Char} {position : Nat} {tokens : List Token}
    (visible : isSpacing character = false)
    (apart : ∀ next ∈ tokens.head?,
      joins (TokenKind.ofCharacter character) position next = false) :
    attach (character, position) tokens =
      ⟨.ofCharacter character, character, [], position⟩ :: tokens := by
  cases tokens with
  | nil => simp [attach, visible]
  | cons next later =>
      have separate := apart next (by simp)
      simp [attach, visible, separate]

theorem attach_joins {character : Char} {position : Nat} {next : Token} {later : List Token}
    (visible : isSpacing character = false)
    (joined : joins (TokenKind.ofCharacter character) position next = true) :
    attach (character, position) (next :: later) =
      ⟨.ofCharacter character, character, next.text, position⟩ :: later := by
  simp [attach, visible, joined]

/-- The three ways in which a character goes before some tokens. -/
theorem attach_cases (character : Char) (position : Nat) (tokens : List Token) :
    (isSpacing character = true ∧ attach (character, position) tokens = tokens) ∨
      (isSpacing character = false ∧ ∃ next later, tokens = next :: later ∧
        next.kind = .ofCharacter character ∧ TokenKind.ofCharacter character ≠ .mark ∧
        next.position = position + 1 ∧
        attach (character, position) tokens =
          ⟨.ofCharacter character, character, next.text, position⟩ :: later) ∨
      (isSpacing character = false ∧ attach (character, position) tokens =
        ⟨.ofCharacter character, character, [], position⟩ :: tokens) := by
  cases spacing : isSpacing character with
  | true => exact .inl ⟨rfl, attach_spacing spacing position tokens⟩
  | false =>
      refine .inr ?_
      cases tokens with
      | nil => exact .inr ⟨rfl, attach_apart spacing (by simp)⟩
      | cons next later =>
          cases joined : joins (TokenKind.ofCharacter character) position next with
          | true =>
              have facts := joined
              simp only [joins, Bool.and_eq_true, bne_iff_ne, beq_iff_eq] at facts
              exact .inl ⟨rfl, next, later, rfl, facts.1.2, facts.1.1, facts.2,
                attach_joins spacing joined⟩
          | false => exact .inr ⟨rfl, attach_apart spacing (by simpa using joined)⟩

/-! ## From a text to its tokens -/

/-- A token whose kind is that of its first character and whose text is a unit. -/
structure WellFormed (token : Token) : Prop where
  /-- The kind of the first character. -/
  kind : token.kind = .ofCharacter token.head
  /-- The characters belong together. -/
  lexical : IsLexical token.text

theorem wellFormed_scanFrom (input : List Char) (position : Nat) :
    ∀ token ∈ scanFrom position input, token.WellFormed := by
  induction input generalizing position with
  | nil => simp
  | cons character rest ih =>
      have later := ih (position + 1)
      rw [scanFrom_cons]
      rcases attach_cases character position (scanFrom (position + 1) rest) with
        ⟨-, same⟩ | ⟨visible, next, others, split, kind, run, -, joined⟩ | ⟨visible, apart⟩
      · rwa [same]
      · rw [joined, List.forall_mem_cons]
        rw [split, List.forall_mem_cons] at later
        refine ⟨⟨rfl, .run _ _ run ?_⟩, later.2⟩
        obtain ⟨headKind, lexical⟩ := later.1
        intro other member
        exact (lexical.uniform other member).trans (headKind.symm.trans kind)
      · rw [apart, List.forall_mem_cons]
        exact ⟨⟨rfl, .lone character visible⟩, later⟩

theorem wellFormed_of_mem_scan {input : List Char} {token : Token} (member : token ∈ scan input) :
    token.WellFormed := wellFormed_scanFrom input 0 token member

/-- No token begins before the text does. -/
theorem position_le_of_mem (input : List Char) (position : Nat) :
    ∀ token ∈ scanFrom position input, position ≤ token.position := by
  induction input generalizing position with
  | nil => simp
  | cons character rest ih =>
      have later : ∀ token ∈ scanFrom (position + 1) rest, position ≤ token.position :=
        fun token member => (Nat.le_succ _).trans (ih _ token member)
      rw [scanFrom_cons]
      rcases attach_cases character position (scanFrom (position + 1) rest) with
        ⟨-, same⟩ | ⟨-, next, others, split, -, -, -, joined⟩ | ⟨-, apart⟩
      · rwa [same]
      · rw [joined, List.forall_mem_cons]
        rw [split, List.forall_mem_cons] at later
        exact ⟨Nat.le_refl _, later.2⟩
      · rw [apart, List.forall_mem_cons]
        exact ⟨Nat.le_refl _, later⟩

/-- A token is a part of the text, at its position. -/
theorem exists_of_mem_scanFrom (input : List Char) (position : Nat) :
    ∀ token ∈ scanFrom position input, ∃ front back,
      input = front ++ token.text ++ back ∧ token.position = position + front.length := by
  induction input generalizing position with
  | nil => simp
  | cons character rest ih =>
      have later : ∀ token ∈ scanFrom (position + 1) rest, ∃ front back,
          character :: rest = front ++ token.text ++ back ∧
            token.position = position + front.length := by
        intro token member
        obtain ⟨front, back, rfl, place⟩ := ih (position + 1) token member
        exact ⟨character :: front, back, rfl, by rw [place, List.length_cons]; omega⟩
      rw [scanFrom_cons]
      rcases attach_cases character position (scanFrom (position + 1) rest) with
        ⟨-, same⟩ | ⟨-, next, others, split, -, -, adjacent, joined⟩ | ⟨-, apart⟩
      · rwa [same]
      · have here := ih (position + 1) next (split ▸ List.mem_cons_self)
        rw [joined, List.forall_mem_cons]
        rw [split, List.forall_mem_cons] at later
        refine ⟨?_, later.2⟩
        obtain ⟨front, back, rfl, place⟩ := here
        obtain rfl : front = [] := List.length_eq_zero_iff.mp (by omega)
        exact ⟨[], back, rfl, rfl⟩
      · rw [apart, List.forall_mem_cons]
        exact ⟨⟨[], rest, rfl, rfl⟩, later⟩

/-- A text is a spaced row of its tokens; a first token at its very beginning has no space
before it, which is what makes the next character join it. -/
theorem spaced_scanFrom (input : List Char) (position : Nat) :
    Spaced ((scanFrom position input).map text) input ∧
      ∀ token later, scanFrom position input = token :: later → token.position = position →
        ∃ rest, input = token.text ++ rest ∧ Spaced (later.map text) rest := by
  induction input generalizing position with
  | nil => exact ⟨.nil, by simp⟩
  | cons character rest ih =>
      obtain ⟨spaced, starts⟩ := ih (position + 1)
      rw [scanFrom_cons]
      rcases attach_cases character position (scanFrom (position + 1) rest) with
        ⟨blank, same⟩ | ⟨-, next, others, split, -, -, adjacent, joined⟩ | ⟨-, apart⟩
      · rw [same]
        refine ⟨.space blank spaced, fun token later found here => ?_⟩
        have ahead := position_le_of_mem rest (position + 1) token (found ▸ List.mem_cons_self)
        omega
      · obtain ⟨remaining, rfl, tail⟩ := starts next others split adjacent
        rw [joined]
        refine ⟨.cons (character :: next.text) tail, fun token later found _ => ?_⟩
        obtain ⟨rfl, rfl⟩ := List.cons.inj found
        exact ⟨remaining, rfl, tail⟩
      · rw [apart]
        refine ⟨.cons [character] spaced, fun token later found _ => ?_⟩
        obtain ⟨rfl, rfl⟩ := List.cons.inj found
        exact ⟨rest, rfl, spaced⟩

/-- A text is a spaced row of the texts of its tokens. -/
theorem spaced_texts (input : List Char) : Spaced (texts input) input :=
  (spaced_scanFrom input 0).1

/-! ## From units to tokens -/

theorem scanFrom_run (position : Nat) (head : Char) (tail rest : List Char)
    (kind : TokenKind.ofCharacter head ≠ .mark)
    (uniform : ∀ character ∈ tail, TokenKind.ofCharacter character = .ofCharacter head)
    (apart : ∀ next ∈ (scanFrom (position + 1 + tail.length) rest).head?,
      next.kind ≠ .ofCharacter head) :
    scanFrom position (head :: (tail ++ rest)) =
      ⟨.ofCharacter head, head, tail, position⟩ ::
        scanFrom (position + 1 + tail.length) rest := by
  induction tail generalizing position head with
  | nil =>
      rw [List.nil_append, scanFrom_cons, attach_apart (not_isSpacing_of_kind kind)]
      · rfl
      · intro next found
        simp [joins, apart next found]
  | cons second tail ih =>
      rw [List.forall_mem_cons] at uniform
      have same := uniform.1
      have inner := ih (position + 1) second (same ▸ kind)
        (fun character member => (uniform.2 character member).trans same.symm)
        (by
          rw [same, Nat.add_right_comm (position + 1)]
          exact apart)
      rw [List.cons_append, scanFrom_cons, inner, attach_joins (not_isSpacing_of_kind kind)]
      · rw [List.length_cons, Nat.add_assoc (position + 1), Nat.add_comm 1]
        rfl
      · simp [joins, kind, same]

/-- A unit becomes a token, unless the text goes on with a token of the same kind. -/
theorem scanFrom_unit {unit rest : List Char} (lexical : IsLexical unit) (position : Nat)
    (apart : ∀ next ∈ (scanFrom (position + unit.length) rest).head?,
      kindOf unit = .mark ∨ next.kind = .mark) :
    ∃ token, token.text = unit ∧
      scanFrom position (unit ++ rest) = token :: scanFrom (position + unit.length) rest := by
  cases lexical with
  | lone character visible =>
      refine ⟨⟨.ofCharacter character, character, [], position⟩, rfl, ?_⟩
      rw [List.singleton_append, scanFrom_cons, attach_apart visible]
      · rfl
      · intro next found
        rcases apart next found with mark | mark
        · rw [kindOf] at mark
          simp [joins, mark]
        · simp [joins, mark]
          grind
  | run head tail kind uniform =>
      refine ⟨⟨.ofCharacter head, head, tail, position⟩, rfl, ?_⟩
      rw [List.cons_append, scanFrom_run position head tail rest kind uniform]
      · rw [List.length_cons, Nat.add_assoc, Nat.add_comm 1]
      · rw [List.length_cons, Nat.add_comm tail.length, ← Nat.add_assoc] at apart
        intro next found same
        rcases apart next found with mark | mark
        · exact kind mark
        · exact kind (same.symm.trans mark)

/-- A row of units with a mark between any two runs is scanned as that row. -/
theorem texts_scanFrom {units : List (List Char)} {input : List Char}
    (spaced : Spaced units input) (lexical : ∀ unit ∈ units, IsLexical unit)
    (apart : units.IsChain Apart) (position : Nat) :
    (scanFrom position input).map text = units := by
  induction spaced generalizing position with
  | nil => rfl
  | @space character units input blank _ ih =>
      rw [scanFrom_cons, attach_spacing blank]
      exact ih lexical apart (position + 1)
  | @cons unit units input _ ih =>
      rw [List.forall_mem_cons] at lexical
      rw [List.isChain_cons] at apart
      have later := ih lexical.2 apart.2 (position + unit.length)
      have separate : ∀ next ∈ (scanFrom (position + unit.length) input).head?,
          kindOf unit = .mark ∨ next.kind = .mark := by
        intro next found
        have member : next ∈ scanFrom (position + unit.length) input :=
          List.mem_of_mem_head? found
        have first : next.text ∈ units.head? := by
          rw [← later, List.head?_map]
          exact Option.mem_map_of_mem text found
        have kind := (wellFormed_scanFrom _ _ next member).kind
        exact (apart.1 next.text first).imp_right fun mark => kind.trans mark
      obtain ⟨token, same, split⟩ := scanFrom_unit lexical.1 position separate
      rw [split, List.map_cons, later, same]

/-- However it is spaced, a row of units with a mark between any two runs is scanned as it is. -/
theorem texts_of_spaced {units : List (List Char)} {input : List Char}
    (spaced : Spaced units input) (lexical : ∀ unit ∈ units, IsLexical unit)
    (apart : units.IsChain Apart) : texts input = units :=
  texts_scanFrom spaced lexical apart 0

end Token
end Reckoner
